import OpenClaw.Markdown.IR

/-! Chunks of a styled text, and where in the text they are taken to lie.

The text chunker does not say where its chunks lie. `chunkMarkdownIR` finds each of them
again by skipping white space behind the one before, and takes the first to lie at the start.
So it does, unless the first window breaks inside white space: then that piece was dropped,
the first chunk lies further on, and the spans are those of other text
(`chunkMarkdownIR_keepsSpans_iff`). -/
namespace OpenClaw.Markdown
open Foundation (Gap Spaced gap_nil)
open Foundation.CodeUnits List

/-! ### What the chunks owe -/

/-- The chunk is the part of the text from a place on, with its spans. Spans of one style may
be joined, and empty ones do not count. -/
structure SliceOf (ir : MarkdownIR) (offset : Nat) (chunk : MarkdownIR) : Prop where
  text : chunk.text = (ir.text.drop offset).take chunk.text.length
  inside : offset + chunk.text.length ≤ ir.text.length
  styled : ∀ style i, i < chunk.text.length → (Styled chunk.styles style i ↔ Styled ir.styles style (offset + i))
  styles : let sliced := ir.styles.filterMap (·.slice offset (offset + chunk.text.length))
    chunk.styles.filter (fun span => span.start < span.stop) = sliced ∨ chunk.styles = mergeStyleSpans sliced
  links : chunk.links.filter (fun span => span.start < span.stop) =
    ir.links.filterMap (·.slice offset (offset + chunk.text.length))

/-- The unit at place `i` lies in a chunk that is placed. -/
def holdsUnit (i : Nat) (placed : Nat × MarkdownIR) : Bool := placed.1 ≤ i && i < placed.1 + placed.2.text.length

/-- The chunks, at their places, are the text cut up. -/
structure KeepsSpans (ir : MarkdownIR) (limit : Nat) (placed : List (Nat × MarkdownIR)) : Prop where
  chunks : placed.map Prod.snd = chunkMarkdownIR ir limit
  fits : limit < ir.text.length → ∀ p ∈ placed, p.2.text.length ≤ limit
  slices : ∀ p ∈ placed, SliceOf ir p.1 p.2
  apart : placed.Pairwise fun p q => p.1 + p.2.text.length ≤ q.1
  once : ∀ i c, ir.text[i]? = some c → isWhiteSpace c = false → placed.countP (holdsUnit i) = 1

/-- The text fits, or is white, or its first cut is behind white space and more. -/
def FirstCutKept (text : Text) (limit : Nat) : Prop :=
  text.length ≤ limit ∨ White text ∨ ¬ White (text.take (breakIndex limit (resolveTextBreak (text.take limit))))

instance (text : Text) (limit : Nat) : Decidable (FirstCutKept text limit) := by
  unfold FirstCutKept
  infer_instance

/-! ### One chunk -/

theorem MarkdownLinkSpan.slice_lt {start stop : Nat} {span part : MarkdownLinkSpan} (h : span.slice start stop = some part) :
    part.start < part.stop := by
  rw [MarkdownLinkSpan.slice, resolveSliceBounds_eq] at h
  split at h
  · cases h
    simp only
    omega
  · cases h

theorem sliceOf_slice (ir : MarkdownIR) {offset : Nat} {chunk : Text} (htext : chunk = (ir.text.drop offset).take chunk.length)
    (hinside : offset + chunk.length ≤ ir.text.length) :
    SliceOf ir offset ⟨chunk, sliceStyleSpans ir.styles offset (offset + chunk.length),
      sliceLinkSpans ir.links offset (offset + chunk.length)⟩ := by
  refine ⟨htext, hinside, fun style i hi => ?_, .inr ?_, ?_⟩
  · rw [styled_sliceStyleSpans, and_iff_right (by simp only at hi; omega)]
  · simp only [sliceStyleSpans]
    split
    · rename_i hnil
      rw [hnil]
      rfl
    · rfl
  · rw [sliceLinkSpans_eq]
    refine filter_eq_self.mpr fun part hpart => ?_
    obtain ⟨span, -, hslice⟩ := mem_filterMap.mp hpart
    exact decide_eq_true (MarkdownLinkSpan.slice_lt hslice)

/-- A span that ends inside the text is its own part there, unless it is empty. -/
theorem MarkdownStyleSpan.slice_whole {span : MarkdownStyleSpan} {length : Nat} (h : span.stop ≤ length) :
    span.slice 0 length = if span.start < span.stop then some span else none := by
  rw [MarkdownStyleSpan.slice, resolveSliceBounds_eq, Nat.max_zero, Nat.min_eq_left h]
  split <;> rfl

theorem MarkdownLinkSpan.slice_whole {span : MarkdownLinkSpan} {length : Nat} (h : span.stop ≤ length) :
    span.slice 0 length = if span.start < span.stop then some span else none := by
  rw [MarkdownLinkSpan.slice, resolveSliceBounds_eq, Nat.max_zero, Nat.min_eq_left h]
  split <;> rfl

theorem filterMap_ite {α : Type*} {f : α → Option α} {p : α → Bool} {l : List α}
    (h : ∀ x ∈ l, f x = if p x then some x else none) : l.filterMap f = l.filter p := by
  rw [filterMap_congr h, ← filterMap_eq_filter]
  refine filterMap_congr fun x _ => ?_
  rw [Option.guard]

theorem sliceOf_self (ir : MarkdownIR) (hstyles : ∀ span ∈ ir.styles, span.stop ≤ ir.text.length)
    (hlinks : ∀ span ∈ ir.links, span.stop ≤ ir.text.length) : SliceOf ir 0 ir := by
  refine ⟨by rw [drop_zero, take_length], by omega, fun style i _ => by rw [Nat.zero_add], .inl ?_, ?_⟩
  · rw [Nat.zero_add]
    exact (filterMap_ite fun span hspan => by
      simp only [decide_eq_true_eq]
      exact MarkdownStyleSpan.slice_whole (hstyles span hspan)).symm
  · rw [Nat.zero_add]
    exact (filterMap_ite fun span hspan => by
      simp only [decide_eq_true_eq]
      exact MarkdownLinkSpan.slice_whole (hlinks span hspan)).symm

/-! ### Chunks behind a place -/

/-- The chunks behind a place are slices of the text there. -/
structure PlacedFrom (ir : MarkdownIR) (cursor : Nat) (placed : List (Nat × MarkdownIR)) : Prop where
  slices : ∀ p ∈ placed, SliceOf ir p.1 p.2
  behind : ∀ p ∈ placed, cursor ≤ p.1
  apart : placed.Pairwise fun p q => p.1 + p.2.text.length ≤ q.1
  once : ∀ i c, cursor ≤ i → ir.text[i]? = some c → isWhiteSpace c = false → placed.countP (holdsUnit i) = 1

section Placed
variable {ir : MarkdownIR} {cursor : Nat}

theorem white_of_drop {gap rest : Text} (hdrop : ir.text.drop cursor = gap ++ rest) (hgap : White gap) {i : Nat} {c : UInt16}
    (hle : cursor ≤ i) (hlt : i < cursor + gap.length) (hc : ir.text[i]? = some c) : isWhiteSpace c = true := by
  have hget : (gap ++ rest)[i - cursor]? = some c := by rw [← hdrop, getElem?_drop, Nat.add_sub_cancel' hle, hc]
  rw [getElem?_append_left (by omega)] at hget
  exact hgap c (mem_of_getElem? hget)

theorem PlacedFrom.nil (hwhite : White (ir.text.drop cursor)) : PlacedFrom ir cursor [] := by
  refine ⟨nofun, nofun, .nil, fun i c hle hc hvisible => ?_⟩
  have hlt := (List.getElem?_eq_some_iff.mp hc).1
  have := white_of_drop (append_nil _).symm hwhite hle (by rw [length_drop]; omega) hc
  rw [this] at hvisible
  cases hvisible

/-- A chunk behind a gap, and those behind it. -/
theorem PlacedFrom.cons {gap chunk rest : Text} {placed : List (Nat × MarkdownIR)}
    (hdrop : ir.text.drop cursor = gap ++ (chunk ++ rest)) (hcursor : cursor ≤ ir.text.length) (hgap : White gap)
    (h : PlacedFrom ir (cursor + gap.length + chunk.length) placed) :
    PlacedFrom ir cursor ((cursor + gap.length, ⟨chunk,
      sliceStyleSpans ir.styles (cursor + gap.length) (cursor + gap.length + chunk.length),
      sliceLinkSpans ir.links (cursor + gap.length) (cursor + gap.length + chunk.length)⟩) :: placed) := by
  have hlength : cursor + gap.length + chunk.length ≤ ir.text.length := by
    have := congrArg List.length hdrop
    simp only [length_drop, length_append] at this
    omega
  have hstart : ir.text.drop (cursor + gap.length) = chunk ++ rest := by
    rw [← drop_drop, hdrop, drop_left]
  have hslice := @sliceOf_slice ir (cursor + gap.length) chunk (by rw [hstart, take_left]) hlength
  refine ⟨fun p hp => ?_, fun p hp => ?_, pairwise_cons.mpr ⟨fun p hp => h.behind p hp, h.apart⟩,
    fun i c hle hc hvisible => ?_⟩
  · rcases mem_cons.mp hp with rfl | hp
    · exact hslice
    · exact h.slices p hp
  · rcases mem_cons.mp hp with rfl | hp
    · exact Nat.le_add_right ..
    · exact (Nat.le_add_right ..).trans ((Nat.le_add_right ..).trans (h.behind p hp))
  · rw [countP_cons]
    by_cases hbehind : cursor + gap.length + chunk.length ≤ i
    · rw [h.once i c hbehind hc hvisible, if_neg]
      simp only [holdsUnit, Bool.and_eq_true, decide_eq_true_eq]
      omega
    · have hgapped : cursor + gap.length ≤ i := by
        by_contra hlt
        rw [white_of_drop hdrop hgap hle (by omega) hc] at hvisible
        cases hvisible
      have hzero : placed.countP (holdsUnit i) = 0 := by
        rw [countP_eq_zero]
        intro p hp
        have := h.behind p hp
        simp only [holdsUnit, Bool.and_eq_true, decide_eq_true_eq]
        omega
      rw [hzero, if_pos]
      simp only [holdsUnit, Bool.and_eq_true, decide_eq_true_eq]
      omega

/-- **Skipping white space finds every chunk again that begins without.** -/
theorem chunkSlices_placed {chunks : List Text} {l : Text} (h : Spaced isWhiteSpace chunks l)
    (hvisible : ∀ c ∈ chunks, StartsVisible c) {index : Nat} (hindex : 0 < index) (hcursor : cursor ≤ ir.text.length)
    (hdrop : ir.text.drop cursor = l) :
    ∃ placed, placed.map Prod.snd = chunkSlices ir index cursor chunks ∧ PlacedFrom ir cursor placed := by
  induction h generalizing index cursor with
  | done hgap => exact ⟨[], rfl, .nil (hdrop ▸ hgap)⟩
  | @piece gap chunk rest chunks hgap hrest ih =>
    have hstarts := hvisible chunk mem_cons_self
    have hskip : skipWhiteSpace ir.text cursor = cursor + gap.length := by
      have hchunk : StartsVisible (chunk ++ rest) := by
        obtain ⟨c, hc, hwhite⟩ := hstarts
        exact ⟨c, mem_head?_append_of_mem_head? hc, hwhite⟩
      rw [skipWhiteSpace, hdrop, takeWhile_gap hgap hchunk]
    have hlength : cursor + gap.length + chunk.length ≤ ir.text.length := by
      have := congrArg List.length hdrop
      simp only [length_drop, length_append] at this
      omega
    have hnext : ir.text.drop (cursor + gap.length + chunk.length) = rest := by
      rw [Nat.add_assoc, ← drop_drop, hdrop, ← append_assoc, ← length_append, drop_left]
    obtain ⟨placed, hmap, hplaced⟩ := ih (fun c hc => hvisible c (mem_cons_of_mem _ hc)) (Nat.succ_pos index) hlength hnext
    refine ⟨_, ?_, .cons hdrop hcursor hgap hplaced⟩
    rw [chunkSlices, if_neg hstarts.ne_nil, if_pos hindex, hskip]
    simp only [Nat.min_eq_right hlength, map_cons, hmap]

end Placed

/-! ### The first chunk -/

section First
variable {text : Text} {limit : Nat}

theorem chunkText_white (h : White text) (hlimit : 0 < limit) (hlt : limit < text.length) : chunkText text limit = [] := by
  rw [chunkText_eq text hlimit]
  obtain ⟨chunk, gap, rest, -, -, hsplit, -, hchunk, heq⟩ := @cutChunks_of_lt _ hlimit resolveTextBreak _ hlt
  have hnil : chunk = [] := by
    rw [hchunk, trimEnd_eq_nil]
    exact fun c hc => h c (mem_of_mem_take hc)
  have hrest : trimStart rest = [] := by
    have hwhite : White (trimStart rest) := fun c hc => h c (by rw [hsplit]; simp [hc])
    rw [white_iff, visible_trimStart] at hwhite
    exact trimStart_eq_nil.mpr (white_iff.mpr hwhite)
  rw [heq, if_pos hnil, hrest, cutChunks_of_le (Nat.zero_le limit), if_pos rfl]

theorem keepsSpans_of_firstCutKept (hlimit : 0 < limit) (h : FirstCutKept text limit) (styles : List MarkdownStyleSpan)
    (links : List MarkdownLinkSpan) (hstyles : ∀ span ∈ styles, span.stop ≤ text.length)
    (hlinks : ∀ span ∈ links, span.stop ≤ text.length) : ∃ placed, KeepsSpans ⟨text, styles, links⟩ limit placed := by
  by_cases htext : text = []
  · subst htext
    exact ⟨[], rfl, nofun, nofun, .nil, nofun⟩
  by_cases hle : text.length ≤ limit
  · refine ⟨[(0, ⟨text, styles, links⟩)], ?_, fun hlt => absurd hlt (not_lt.mpr hle), fun p hp => ?_, pairwise_singleton .., ?_⟩
    · rw [chunkMarkdownIR, if_neg htext, if_pos (.inr hle)]
      rfl
    · rw [mem_singleton.mp hp]
      exact sliceOf_self _ hstyles hlinks
    · intro i c hc _
      have hlt := (List.getElem?_eq_some_iff.mp hc).1
      rw [countP_singleton, if_pos]
      simpa [holdsUnit] using hlt
  have hlt : limit < text.length := not_le.mp hle
  have hchunks : chunkMarkdownIR ⟨text, styles, links⟩ limit = chunkSlices ⟨text, styles, links⟩ 0 0 (chunkText text limit) := by
    rw [chunkMarkdownIR, if_neg htext, if_neg (by simp only [not_or]; omega)]
  -- the chunks of the text fit, and those of the styled text have the same texts
  have hfits {placed : List (Nat × MarkdownIR)} {index cursor : Nat} {chunks : List Text}
      (hchunks : ∀ c ∈ chunks, c.length ≤ limit)
      (hmap : placed.map Prod.snd = chunkSlices ⟨text, styles, links⟩ index cursor chunks) :
      ∀ p ∈ placed, p.2.text.length ≤ limit := by
    intro p hp
    have hmem : p.2 ∈ chunkSlices ⟨text, styles, links⟩ index cursor chunks := hmap ▸ mem_map_of_mem hp
    clear hmap hp
    induction chunks generalizing index cursor with
    | nil => cases hmem
    | cons chunk chunks ih =>
      unfold chunkSlices at hmem
      split at hmem
      · exact ih (fun c hc => hchunks c (mem_cons_of_mem _ hc)) hmem
      · rcases mem_cons.mp hmem with heq | hmem
        · rw [heq]
          exact hchunks chunk mem_cons_self
        · exact ih (fun c hc => hchunks c (mem_cons_of_mem _ hc)) hmem
  have hplaced : ∃ placed, placed.map Prod.snd = chunkSlices ⟨text, styles, links⟩ 0 0 (chunkText text limit) ∧
      PlacedFrom ⟨text, styles, links⟩ 0 placed := by
    by_cases hwhite : White text
    · rw [chunkText_white hwhite hlimit hlt]
      exact ⟨[], rfl, .nil hwhite⟩
    · obtain ⟨chunk, gap, rest, -, hgap, hsplit, -, hchunk, heq⟩ := @cutChunks_of_lt _ hlimit
        resolveTextBreak _ hlt
      have hne : chunk ≠ [] := by
        rw [hchunk, ne_eq, trimEnd_eq_nil]
        exact (h.resolve_left hle).resolve_left hwhite
      have hlength : chunk.length ≤ text.length := by
        rw [hsplit, length_append]
        exact Nat.le_add_right ..
      obtain ⟨placed, hmap, hplaced⟩ := @chunkSlices_placed ⟨text, styles, links⟩ chunk.length _ _
        ((@cutChunks_spaced limit hlimit resolveTextBreak (trimStart rest)).gap_append hgap)
        (startsVisible_of_mem_cutChunks (or_iff_not_imp_left.mpr startsVisible_trimStart)) 1 Nat.one_pos hlength
        (by simp only; conv_lhs => rw [hsplit]
            exact drop_left)
      have hcons := @PlacedFrom.cons ⟨text, styles, links⟩ 0 [] chunk (gap ++ trimStart rest) placed hsplit (Nat.zero_le _) gap_nil
        (by simpa only [length_nil, Nat.zero_add] using hplaced)
      refine ⟨_, ?_, hcons⟩
      rw [chunkText_eq text hlimit, heq, if_neg hne, chunkSlices, if_neg hne, if_neg (lt_irrefl 0), map_cons, hmap]
      simp only [length_nil, Nat.zero_add, Nat.min_eq_right hlength]
  obtain ⟨placed, hmap, hplaced⟩ := hplaced
  exact ⟨placed, hchunks ▸ hmap, fun _ => hfits (length_of_mem_chunkText hlimit) hmap, hplaced.slices, hplaced.apart,
    fun i c hc => hplaced.once i c (Nat.zero_le i) hc⟩

/-- The first unit that is no white space. -/
def firstVisible (text : Text) : Nat := (text.takeWhile isWhiteSpace).length

/-- **If the first cut drops white space, a style on the first unit behind it is lost.** -/
theorem not_keepsSpans_of_dropped (hlimit : 0 < limit) (h : ¬ FirstCutKept text limit) (placed : List (Nat × MarkdownIR)) :
    ¬ KeepsSpans ⟨text, [⟨firstVisible text, firstVisible text + 1, .bold⟩], []⟩ limit placed := by
  obtain ⟨hlt, hwhite, hcut⟩ : limit < text.length ∧ ¬ White text ∧
      White (text.take (breakIndex limit (resolveTextBreak (text.take limit)))) := by
    simpa only [FirstCutKept, not_or, not_le, not_not] using h
  intro hkeeps
  obtain ⟨chunk, gap, rest, -, hgap, hsplit, -, hchunk, heq⟩ := @cutChunks_of_lt _ hlimit resolveTextBreak _ hlt
  have hnil : chunk = [] := by rw [hchunk, trimEnd_eq_nil]; exact hcut
  rw [hnil, nil_append] at hsplit
  have hrest : trimStart rest ≠ [] := by
    intro hrest
    rw [hrest, append_nil] at hsplit
    exact hwhite (hsplit ▸ hgap)
  have hstarts := startsVisible_trimStart hrest
  -- the first visible unit stands behind the gap that was dropped
  have hfirst : firstVisible text = gap.length := by
    rw [firstVisible, hsplit, takeWhile_gap hgap hstarts]
  have ⟨c, hc, hvisible⟩ := hstarts
  have hget : text[firstVisible text]? = some c := by
    rw [hfirst, hsplit, getElem?_append_right le_rfl, Nat.sub_self, ← head?_eq_getElem?]
    exact hc
  have hpos : 0 < firstVisible text := by
    by_contra hzero
    have hidx := breakIndex_pos hlimit (resolveTextBreak (text.take limit))
    have hmem : c ∈ text.take (breakIndex limit (resolveTextBreak (text.take limit))) := by
      rw [Nat.eq_zero_of_not_pos hzero] at hget
      exact mem_of_getElem? ((getElem?_take_of_lt hidx).trans hget)
    rw [hcut c hmem] at hvisible
    cases hvisible
  have hbefore : ∀ i d, text[i]? = some d → isWhiteSpace d = false → firstVisible text ≤ i := by
    intro i d hd hd'
    by_contra hlt
    rw [hfirst] at hlt
    rw [hsplit, getElem?_append_left (by omega)] at hd
    rw [hgap d (mem_of_getElem? hd)] at hd'
    cases hd'
  -- so the chunk that holds it is the first one, and starts there
  have htext : text ≠ [] := by
    rintro rfl
    exact Nat.not_lt_zero limit hlt
  have hchunks : chunkMarkdownIR ⟨text, [⟨firstVisible text, firstVisible text + 1, .bold⟩], []⟩ limit =
      chunkSlices ⟨text, [⟨firstVisible text, firstVisible text + 1, .bold⟩], []⟩ 0 0
        (cutChunks limit hlimit resolveTextBreak (trimStart rest)) := by
    rw [chunkMarkdownIR, if_neg htext, if_neg (by simp only [not_or]; omega), chunkText_eq text hlimit, heq, if_pos hnil]
  have hall := @startsVisible_of_mem_cutChunks limit hlimit resolveTextBreak _ (Or.inr hstarts)
  have hcuts := @cutChunks_spaced limit hlimit resolveTextBreak (trimStart rest)
  cases hcut' : cutChunks limit hlimit resolveTextBreak (trimStart rest) with
  | nil =>
    rw [hcut'] at hcuts
    cases hcuts with
    | done hgap' =>
      have := hgap' c (mem_of_mem_head? hc)
      rw [this] at hvisible
      cases hvisible
  | cons first others =>
    have hstarts := hall first (by rw [hcut']; exact mem_cons_self)
    have hplaced := hkeeps.chunks
    rw [hchunks, hcut', chunkSlices, if_neg hstarts.ne_nil, if_neg (lt_irrefl 0)] at hplaced
    obtain ⟨⟨offset, part⟩, placed', rfl, hpart, -⟩ := map_eq_cons_iff.mp hplaced
    simp only at hpart
    have hslice := hkeeps.slices _ mem_cons_self
    have hpartText : part.text = first := by rw [hpart]
    have hle : firstVisible text ≤ offset := by
      obtain ⟨d, hd, hd'⟩ := hstarts
      refine hbefore offset d ?_ hd'
      have htext := hslice.text
      rw [hpartText] at htext
      have hhead : (text.drop offset).head? = some d := by
        obtain ⟨tail, htail⟩ : first <+: text.drop offset := prefix_iff_eq_take.mpr htext
        rw [← htail]
        exact mem_head?_append_of_mem_head? hd
      rwa [head?_drop] at hhead
    have honce := hkeeps.once _ c hget hvisible
    have hoffset : offset = firstVisible text ∧ firstVisible text < offset + part.text.length := by
      obtain ⟨p, hp, hholds⟩ := countP_pos_iff.mp (honce ▸ Nat.one_pos)
      simp only [holdsUnit, Bool.and_eq_true, decide_eq_true_eq] at hholds
      rcases mem_cons.mp hp with rfl | hp
      · exact ⟨le_antisymm hholds.1 hle, hholds.2⟩
      · have hapart := (pairwise_cons.mp hkeeps.apart).1 p hp
        have hlength : 0 < part.text.length := by rw [hpartText]; exact length_pos_of_ne_nil hstarts.ne_nil
        simp only at hapart
        omega
    -- there the style is on its first unit, and the slice at the start has it further on
    have hstyled := hslice.styled .bold 0 (by rw [hpartText]; exact length_pos_of_ne_nil hstarts.ne_nil)
    simp only [hoffset.1, Nat.add_zero] at hstyled
    have hsliced := hstyled.mpr ⟨_, mem_cons_self, rfl, le_rfl, Nat.lt_succ_self _⟩
    rw [hpart] at hsliced
    simp only [styled_sliceStyleSpans] at hsliced
    obtain ⟨-, whole, hwhole, -, hwstart, -⟩ := hsliced
    rw [mem_singleton.mp hwhole] at hwstart
    simp only at hwstart
    omega

end First

/-- **Every style and link keeps to its text, whatever they are, exactly if the first cut is
behind white space and more.** -/
theorem chunkMarkdownIR_keepsSpans_iff (text : Text) (limit : Nat) (hlimit : 0 < limit) :
    (∀ styles links, (∀ span ∈ styles, span.stop ≤ text.length) → (∀ span ∈ links, span.stop ≤ text.length) →
      ∃ placed, KeepsSpans ⟨text, styles, links⟩ limit placed) ↔ FirstCutKept text limit := by
  refine ⟨fun h => by_contra fun hdropped => ?_, fun h => keepsSpans_of_firstCutKept hlimit h⟩
  have hwhite : ¬ White text := fun hwhite => hdropped (.inr (.inl hwhite))
  have hlt : firstVisible text < text.length := by
    have hle : firstVisible text ≤ text.length := ( takeWhile_prefix _).length_le
    refine lt_of_le_of_ne hle fun heq => hwhite ?_
    have hall := ( takeWhile_prefix isWhiteSpace (l := text)).eq_of_length heq
    exact hall ▸ Foundation.gap_takeWhile text
  obtain ⟨placed, hplaced⟩ := h [⟨firstVisible text, firstVisible text + 1, .bold⟩] [] (fun span hspan => by
    rw [mem_singleton.mp hspan]
    exact hlt) nofun
  exact not_keepsSpans_of_dropped hlimit hdropped placed hplaced

theorem chunkMarkdownIR_keepsSpans_indented :
    ∃ placed, KeepsSpans ⟨units " ab cd", [⟨1, 6, .bold⟩], []⟩ 4 placed :=
  (chunkMarkdownIR_keepsSpans_iff (units " ab cd") 4 (by decide)).mpr (by decide) [⟨1, 6, .bold⟩] []
    (by decide) nofun

/-- The indent fills the first window, and the bold word is not bold in its chunk. -/
theorem indented_text_misplaced :
    ¬ ∃ placed, KeepsSpans ⟨units "    ab cd", [⟨4, 5, .bold⟩], []⟩ 4 placed := fun ⟨placed, h⟩ =>
  @not_keepsSpans_of_dropped (units "    ab cd") 4 (by decide) (by decide) placed h

end OpenClaw.Markdown
