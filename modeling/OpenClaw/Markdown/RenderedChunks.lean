import OpenClaw.Foundation.EcmaNumber
import OpenClaw.Markdown.IR

/-! Chunks that fit once rendered.

Chunks that measure too much are cut at the longest prefix that fits, or a little before it at
white space, and each part is queued again; what cannot be cut stays. At the end chunks of
white space only are joined to a neighbour, where the result fits, or dropped. Nothing is
assumed of the renderer and the measure. -/
namespace OpenClaw.Markdown
open Foundation (EcmaNumber Gap Spaced)
open Foundation.CodeUnits List

/-! ### Splitting a chunk at white space -/

/-- -1 where nothing was found. -/
structure PreservedScan where
  lastOutsideParenNewlineBreak : Int := -1
  lastOutsideParenWhitespaceBreak : Int := -1
  lastOutsideParenWhitespaceRunStart : Int := -1
  lastAnyNewlineBreak : Int := -1
  lastAnyWhitespaceBreak : Int := -1
  lastAnyWhitespaceRunStart : Int := -1
  parenDepth : Nat := 0
  sawNonWhitespace : Bool := false
  deriving Repr, DecidableEq

def scanPreservedUnit (text : Text) (start : Nat) (scan : PreservedScan) (unit : UInt16 × Nat) : PreservedScan :=
  let (char, index) := unit
  if char = openParen then { scan with sawNonWhitespace := true, parenDepth := scan.parenDepth + 1 }
  else if char = closeParen ∧ 0 < scan.parenDepth then
    { scan with sawNonWhitespace := true, parenDepth := scan.parenDepth - 1 }
  else if !isWhiteSpace char then { scan with sawNonWhitespace := true }
  else if !scan.sawNonWhitespace then scan
  else if char = newline then
    { scan with
      lastAnyNewlineBreak := index + 1
      lastOutsideParenNewlineBreak := if scan.parenDepth = 0 then index + 1 else scan.lastOutsideParenNewlineBreak }
  else
    let whitespaceRunStart : Int :=
      if index = start ∨ !whiteAt text (index - 1) then index else scan.lastAnyWhitespaceRunStart
    { scan with
      lastAnyWhitespaceBreak := index + 1
      lastAnyWhitespaceRunStart := whitespaceRunStart
      lastOutsideParenWhitespaceBreak :=
        if scan.parenDepth = 0 then index + 1 else scan.lastOutsideParenWhitespaceBreak
      lastOutsideParenWhitespaceRunStart :=
        if scan.parenDepth = 0 then whitespaceRunStart else scan.lastOutsideParenWhitespaceRunStart }

/-- Before a run of blanks that goes on behind the break, if it started behind `start`. -/
def resolveWhitespaceBreak (text : Text) (start : Nat) (breakIndex runStart : Int) : Int :=
  if breakIndex ≤ start then breakIndex
  else if runStart ≤ start then breakIndex
  else if whiteAt text breakIndex.toNat then runStart
  else breakIndex

def findMarkdownIRPreservedSplitIndex (text : Text) (start limit : Nat) : Nat :=
  let maxEnd := min text.length (start + limit)
  if text.length ≤ maxEnd then text.length
  else
    let scan := (((text.take maxEnd).drop start).zipIdx start).foldl (scanPreservedUnit text start) {}
    if scan.lastOutsideParenNewlineBreak > start then scan.lastOutsideParenNewlineBreak.toNat
    else if scan.lastOutsideParenWhitespaceBreak > start then
      (resolveWhitespaceBreak text start scan.lastOutsideParenWhitespaceBreak scan.lastOutsideParenWhitespaceRunStart).toNat
    else if scan.lastAnyNewlineBreak > start then scan.lastAnyNewlineBreak.toNat
    else if scan.lastAnyWhitespaceBreak > start then
      (resolveWhitespaceBreak text start scan.lastAnyWhitespaceBreak scan.lastAnyWhitespaceRunStart).toNat
    else maxEnd

/-- Every place that the scan notes lies before `stop`, or there. -/
structure PreservedScan.Before (stop : Nat) (scan : PreservedScan) : Prop where
  outsideNewline : scan.lastOutsideParenNewlineBreak ≤ stop
  outsideWhitespace : scan.lastOutsideParenWhitespaceBreak ≤ stop
  outsideRunStart : scan.lastOutsideParenWhitespaceRunStart ≤ stop
  anyNewline : scan.lastAnyNewlineBreak ≤ stop
  anyWhitespace : scan.lastAnyWhitespaceBreak ≤ stop
  anyRunStart : scan.lastAnyWhitespaceRunStart ≤ stop

theorem scanPreservedUnit_before {text : Text} {start stop : Nat} {scan : PreservedScan} {unit : UInt16 × Nat}
    (h : scan.Before stop) (hunit : unit.2 < stop) : (scanPreservedUnit text start scan unit).Before stop := by
  obtain ⟨char, index⟩ := unit
  have hnext : (index : Int) + 1 ≤ stop := by omega
  have hindex : (index : Int) ≤ stop := by omega
  unfold scanPreservedUnit
  simp only
  split_ifs <;>
    exact ⟨by first | exact h.outsideNewline | exact hnext,
      by first | exact h.outsideWhitespace | exact hnext,
      by first | exact h.outsideRunStart | exact h.anyRunStart | exact hindex,
      by first | exact h.anyNewline | exact hnext,
      by first | exact h.anyWhitespace | exact hnext,
      by first | exact h.anyRunStart | exact hindex⟩

theorem resolveWhitespaceBreak_bounds {text : Text} {start stop : Nat} {breakIndex runStart : Int} (h : breakIndex > start)
    (hbreak : breakIndex ≤ stop) (hrun : runStart ≤ stop) :
    start < resolveWhitespaceBreak text start breakIndex runStart ∧
      resolveWhitespaceBreak text start breakIndex runStart ≤ stop := by
  unfold resolveWhitespaceBreak
  split_ifs <;> omega

/-- **A split is behind its start and within the limit.** -/
theorem findMarkdownIRPreservedSplitIndex_bounds {text : Text} {start limit : Nat} (hlimit : 0 < limit)
    (hstart : start < text.length) :
    start < findMarkdownIRPreservedSplitIndex text start limit ∧
      findMarkdownIRPreservedSplitIndex text start limit ≤ min text.length (start + limit) := by
  have hscan : ((((text.take (min text.length (start + limit))).drop start).zipIdx start).foldl
      (scanPreservedUnit text start) {}).Before (min text.length (start + limit)) := by
    refine List.foldlRecOn _ _ ⟨by simp only; omega, by simp only; omega, by simp only; omega, by simp only; omega,
      by simp only; omega, by simp only; omega⟩ fun scan hscan unit hunit => scanPreservedUnit_before hscan ?_
    have hlt := snd_lt_of_mem_zipIdx hunit
    rw [length_drop, length_take] at hlt
    omega
  obtain ⟨h1, h2, h3, h4, h5, h6⟩ := hscan
  simp only [findMarkdownIRPreservedSplitIndex]
  split_ifs with hwhole hnewline hblank hany hanyBlank
  · omega
  · omega
  · have := @resolveWhitespaceBreak_bounds text _ _ _ _ hblank h2 h3
    omega
  · omega
  · have := @resolveWhitespaceBreak_bounds text _ _ _ _ hanyBlank h5 h6
    omega
  · omega

/-- The slices from `cursor` on. -/
def preservedSlices (ir : MarkdownIR) (limit : Nat) (hlimit : 0 < limit) (cursor : Nat) : List MarkdownIR :=
  if cursor < ir.text.length then
    let stop := findMarkdownIRPreservedSplitIndex ir.text cursor limit
    sliceMarkdownIR ir cursor stop :: preservedSlices ir limit hlimit stop
  else []
termination_by ir.text.length - cursor
decreasing_by
  rename_i hlt
  have := findMarkdownIRPreservedSplitIndex_bounds hlimit hlt
  omega

def splitMarkdownIRPreserveWhitespace (ir : MarkdownIR) (limit : Nat) : List MarkdownIR :=
  if ir.text = [] then []
  else
    let normalizedLimit := max 1 limit
    if ir.text.length ≤ normalizedLimit then [ir]
    else preservedSlices ir normalizedLimit (Nat.lt_of_lt_of_le Nat.one_pos (le_max_left 1 limit)) 0

/-- The texts of chunks, one after the other. -/
def joinedText (chunks : List MarkdownIR) : Text := (chunks.map (·.text)).flatten

@[simp] theorem joinedText_nil : joinedText [] = [] := rfl

@[simp] theorem joinedText_cons (chunk : MarkdownIR) (chunks : List MarkdownIR) :
    joinedText (chunk :: chunks) = chunk.text ++ joinedText chunks := rfl

@[simp] theorem joinedText_append (a b : List MarkdownIR) : joinedText (a ++ b) = joinedText a ++ joinedText b := by
  rw [joinedText, map_append, flatten_append]
  rfl

/-- Cutting at any places keeps the text, and no part is empty. -/
theorem preservedSlices_text (ir : MarkdownIR) (limit : Nat) (hlimit : 0 < limit) (cursor : Nat) :
    joinedText (preservedSlices ir limit hlimit cursor) = ir.text.drop cursor ∧
      ∀ part ∈ preservedSlices ir limit hlimit cursor, part.text ≠ [] := by
  fun_induction preservedSlices ir limit hlimit cursor with
  | case1 cursor hlt stop ih =>
    obtain ⟨hstart, hstop⟩ := findMarkdownIRPreservedSplitIndex_bounds hlimit hlt
    have htext : (sliceMarkdownIR ir cursor stop).text = (ir.text.take stop).drop cursor := rfl
    refine ⟨?_, fun part hpart => ?_⟩
    · rw [joinedText_cons, ih.1, htext]
      conv_rhs => rw [← take_append_drop stop ir.text]
      rw [drop_append_of_le_length (by rw [length_take]; omega)]
    · rcases mem_cons.mp hpart with rfl | hpart
      · rw [htext, ne_eq, drop_eq_nil_iff, length_take]
        omega
      · exact ih.2 part hpart
  | case2 cursor hge => exact ⟨(drop_eq_nil_of_le (not_lt.mp hge)).symm, nofun⟩

/-! ### Splitting by the rendered size -/

section Render
variable {R : Type} (renderChunk : MarkdownIR → R) (measureRendered : R → EcmaNumber) (renderedLimit : EcmaNumber)

/-- `measureRendered(renderChunk(ir)) <= renderedLimit`. -/
def fitsRendered (ir : MarkdownIR) : Bool := (measureRendered (renderChunk ir)).le renderedLimit

/-- From the longest candidate to the shortest; 0 if none fits. -/
def findLargestChunkTextLengthWithinRenderedLimit (chunk : MarkdownIR) : Nat :=
  let currentTextLength := chunk.text.length
  if currentTextLength ≤ 1 then currentTextLength
  else
    ((List.range' 1 (currentTextLength - 1)).reverse.find? fun candidateLength =>
      fitsRendered renderChunk measureRendered renderedLimit (sliceMarkdownIR chunk 0 candidateLength)).getD 0

def splitMarkdownIRByRenderedLimit (chunk : MarkdownIR) : List MarkdownIR :=
  let currentTextLength := chunk.text.length
  if currentTextLength ≤ 1 then [chunk]
  else
    let splitLimit := findLargestChunkTextLengthWithinRenderedLimit renderChunk measureRendered renderedLimit chunk
    if splitLimit = 0 then [chunk]
    else
      let split := splitMarkdownIRPreserveWhitespace chunk splitLimit
      if split.head?.any (fitsRendered renderChunk measureRendered renderedLimit) then split
      else [sliceMarkdownIR chunk 0 splitLimit, sliceMarkdownIR chunk splitLimit currentTextLength]

/-- No proper prefix fits. -/
def NoPrefixFits (chunk : MarkdownIR) : Prop :=
  ∀ n, 0 < n → n < chunk.text.length →
    fitsRendered renderChunk measureRendered renderedLimit (sliceMarkdownIR chunk 0 n) = false

variable {renderChunk measureRendered renderedLimit}

/-- **The parts of a chunk are its text, and none is empty; a chunk that stays whole has no
prefix that fits.** -/
theorem splitMarkdownIRByRenderedLimit_text (chunk : MarkdownIR) (hlong : ¬ chunk.text.length ≤ 1) :
    let split := splitMarkdownIRByRenderedLimit renderChunk measureRendered renderedLimit chunk
    joinedText split = chunk.text ∧ (∀ part ∈ split, part.text ≠ []) ∧
      (split.length ≤ 1 → NoPrefixFits renderChunk measureRendered renderedLimit chunk) := by
  have hne : chunk.text ≠ [] := by
    intro hnil
    rw [hnil] at hlong
    exact hlong (Nat.zero_le 1)
  simp only [splitMarkdownIRByRenderedLimit, if_neg hlong, findLargestChunkTextLengthWithinRenderedLimit]
  cases hfind : (List.range' 1 (chunk.text.length - 1)).reverse.find? fun candidateLength =>
      fitsRendered renderChunk measureRendered renderedLimit (sliceMarkdownIR chunk 0 candidateLength) with
  | none =>
    refine ⟨?_, fun part hpart => ?_, fun _ n hpos hlt => ?_⟩
    · rw [Option.getD_none, if_pos rfl, joinedText_cons, joinedText_nil, append_nil]
    · rw [Option.getD_none, if_pos rfl, mem_singleton] at hpart
      rwa [hpart]
    · have hmem : n ∈ (List.range' 1 (chunk.text.length - 1)).reverse := by
        rw [mem_reverse, mem_range'_1]
        omega
      simpa using find?_eq_none.mp hfind n hmem
  | some splitLimit =>
    have hmem := mem_of_find?_eq_some hfind
    rw [mem_reverse, mem_range'_1] at hmem
    have hpreserved : splitMarkdownIRPreserveWhitespace chunk splitLimit =
        preservedSlices chunk (max 1 splitLimit) (Nat.lt_of_lt_of_le Nat.one_pos (le_max_left 1 splitLimit)) 0 := by
      simp only [splitMarkdownIRPreserveWhitespace, if_neg hne]
      rw [if_neg (by omega)]
    rw [Option.getD_some, if_neg (by omega), hpreserved]
    split
    · obtain ⟨htext, hparts⟩ := preservedSlices_text chunk (max 1 splitLimit)
        (Nat.lt_of_lt_of_le Nat.one_pos (le_max_left 1 splitLimit)) 0
      refine ⟨htext, hparts, fun hle => ?_⟩
      -- the first part ends within the limit, so there is a second one
      have hpos : 0 < chunk.text.length := by omega
      have hbounds := @findMarkdownIRPreservedSplitIndex_bounds _ _ (max 1 splitLimit) (by omega) hpos
      have hrest := (preservedSlices_text chunk (max 1 splitLimit) (Nat.lt_of_lt_of_le Nat.one_pos (le_max_left 1 splitLimit))
        (findMarkdownIRPreservedSplitIndex chunk.text 0 (max 1 splitLimit))).1
      rw [preservedSlices, if_pos hpos, length_cons] at hle
      rw [eq_nil_of_length_eq_zero (Nat.le_zero.mp (Nat.le_of_succ_le_succ hle)), joinedText_nil, eq_comm,
        drop_eq_nil_iff] at hrest
      omega
    · refine ⟨?_, fun part hpart => ?_, fun hle => absurd hle (by simp)⟩
      · simp only [joinedText_cons, joinedText_nil, sliceMarkdownIR, append_nil, drop_zero, take_length]
        exact take_append_drop splitLimit chunk.text
      · simp only [mem_cons, not_mem_nil, or_false] at hpart
        rcases hpart with rfl | rfl
        · simp only [sliceMarkdownIR, drop_zero, ne_eq, take_eq_nil_iff]
          exact fun h => h.elim (by omega) hne
        · simp only [sliceMarkdownIR, take_length, ne_eq, drop_eq_nil_iff]
          omega

/-! ### The queue -/

/-- What is left to be done with queued chunks. -/
def queueWeight (pending : List MarkdownIR) : Nat := (pending.map fun chunk => 2 * chunk.text.length - 1).sum

theorem queueWeight_append (a b : List MarkdownIR) : queueWeight (a ++ b) = queueWeight a + queueWeight b := by
  rw [queueWeight, map_append, sum_append]
  rfl

/-- Parts that are not empty weigh less, together, than a chunk of their text. -/
theorem queueWeight_parts {parts : List MarkdownIR} (h : ∀ part ∈ parts, part.text ≠ []) :
    queueWeight parts + parts.length = 2 * (joinedText parts).length := by
  induction parts with
  | nil => rfl
  | cons part parts ih =>
    have hpos := length_pos_of_ne_nil (h part mem_cons_self)
    have hrest := ih fun p hp => h p (mem_cons_of_mem _ hp)
    rw [queueWeight, map_cons, sum_cons, ← queueWeight, joinedText_cons, length_append, length_cons]
    omega

/-- A chunk that is cut up weighs more than its parts. -/
theorem queueWeight_split_lt {chunk : MarkdownIR} (pending : List MarkdownIR) (hlong : ¬ chunk.text.length ≤ 1)
    (hsplit : ¬ (splitMarkdownIRByRenderedLimit renderChunk measureRendered renderedLimit chunk).length ≤ 1) :
    queueWeight (splitMarkdownIRByRenderedLimit renderChunk measureRendered renderedLimit chunk ++ pending) <
      queueWeight (chunk :: pending) := by
  obtain ⟨htext, hparts, -⟩ := @splitMarkdownIRByRenderedLimit_text _ renderChunk
    measureRendered renderedLimit chunk hlong
  have hweight := queueWeight_parts hparts
  rw [htext] at hweight
  rw [queueWeight_append]
  simp only [queueWeight, map_cons, sum_cons] at hweight ⊢
  omega

variable (renderChunk measureRendered renderedLimit) in
/-- The loop over the queue. -/
def finalizeChunks : List MarkdownIR → List MarkdownIR
  | [] => []
  | chunk :: pending =>
    if fitsRendered renderChunk measureRendered renderedLimit chunk ∨ chunk.text.length ≤ 1 then
      chunk :: finalizeChunks pending
    else
      let split := splitMarkdownIRByRenderedLimit renderChunk measureRendered renderedLimit chunk
      if split.length ≤ 1 then chunk :: finalizeChunks pending
      else finalizeChunks (split ++ pending)
termination_by pending => (queueWeight pending, pending.length)
decreasing_by
  · simp only [queueWeight, List.map_cons, List.sum_cons, List.length_cons, Prod.lex_def]
    omega
  · simp only [queueWeight, List.map_cons, List.sum_cons, List.length_cons, Prod.lex_def]
    omega
  · rename_i hfits hsplit
    exact Prod.Lex.left _ _ (queueWeight_split_lt pending (fun hle => hfits (.inr hle)) hsplit)

/-- What a chunk of the result owes: it fits, or it cannot be cut so that its start fits. -/
def Settled (renderChunk : MarkdownIR → R) (measureRendered : R → EcmaNumber) (renderedLimit : EcmaNumber)
    (chunk : MarkdownIR) : Prop :=
  fitsRendered renderChunk measureRendered renderedLimit chunk = true ∨ chunk.text.length ≤ 1 ∨
    NoPrefixFits renderChunk measureRendered renderedLimit chunk

theorem finalizeChunks_text (pending : List MarkdownIR) :
    joinedText (finalizeChunks renderChunk measureRendered renderedLimit pending) = joinedText pending := by
  fun_induction finalizeChunks renderChunk measureRendered renderedLimit pending with
  | case1 => rfl
  | case2 chunk pending hdone ih => rw [joinedText_cons, ih, joinedText_cons]
  | case3 chunk pending hlong split hsplit ih => rw [joinedText_cons, ih, joinedText_cons]
  | case4 chunk pending hlong split hsplit ih =>
    rw [ih, joinedText_append, joinedText_cons, (splitMarkdownIRByRenderedLimit_text chunk fun hle => hlong (.inr hle)).1]

theorem finalizeChunks_settled (pending : List MarkdownIR) :
    ∀ chunk ∈ finalizeChunks renderChunk measureRendered renderedLimit pending,
      Settled renderChunk measureRendered renderedLimit chunk := by
  fun_induction finalizeChunks renderChunk measureRendered renderedLimit pending with
  | case1 => nofun
  | case2 chunk pending hdone ih =>
    intro c hc
    rcases mem_cons.mp hc with rfl | hc
    · exact hdone.imp_right .inl
    · exact ih c hc
  | case3 chunk pending hlong split hsplit ih =>
    intro c hc
    rcases mem_cons.mp hc with rfl | hc
    · exact .inr (.inr ((splitMarkdownIRByRenderedLimit_text c fun hle => hlong (.inr hle)).2.2 hsplit))
    · exact ih c hc
  | case4 chunk pending hlong split hsplit ih => exact ih

end Render

/-! ### White space at the end -/

def mergeAdjacentStyleSpans : List MarkdownStyleSpan → List MarkdownStyleSpan → List MarkdownStyleSpan
  | merged, [] => merged
  | merged, span :: spans =>
    match merged.getLast? with
    | some last =>
      if last.style = span.style ∧ span.start ≤ last.stop then
        mergeAdjacentStyleSpans (merged.dropLast ++ [{ last with stop := max last.stop span.stop }]) spans
      else mergeAdjacentStyleSpans (merged ++ [span]) spans
    | none => mergeAdjacentStyleSpans (merged ++ [span]) spans

def mergeAdjacentLinkSpans : List MarkdownLinkSpan → List MarkdownLinkSpan → List MarkdownLinkSpan
  | merged, [] => merged
  | merged, link :: links =>
    match merged.getLast? with
    | some last =>
      if last.href = link.href ∧ link.start ≤ last.stop then
        mergeAdjacentLinkSpans (merged.dropLast ++ [{ last with stop := max last.stop link.stop }]) links
      else mergeAdjacentLinkSpans (merged ++ [link]) links
    | none => mergeAdjacentLinkSpans (merged ++ [link]) links

def mergeMarkdownIRChunks (left right : MarkdownIR) : MarkdownIR where
  text := left.text ++ right.text
  styles := mergeAdjacentStyleSpans [] (left.styles ++ right.styles.map fun span =>
    { span with start := span.start + left.text.length, stop := span.stop + left.text.length })
  links := mergeAdjacentLinkSpans [] (left.links ++ right.links.map fun link =>
    { link with start := link.start + left.text.length, stop := link.stop + left.text.length })

section Coalesce
variable {R : Type} (renderChunk : MarkdownIR → R) (measureRendered : R → EcmaNumber) (renderedLimit : EcmaNumber)

/-- A cut of a white chunk whose parts fit with their neighbours, the longest prefix first. -/
def findWhitespaceCut (prev chunk next : MarkdownIR) : Option (MarkdownIR × MarkdownIR) :=
  let canMerge := fitsRendered renderChunk measureRendered renderedLimit
  ((List.range' 1 (chunk.text.length - 1)).reverse.map fun prefixLength =>
    (mergeMarkdownIRChunks prev (sliceMarkdownIR chunk 0 prefixLength),
      mergeMarkdownIRChunks (sliceMarkdownIR chunk prefixLength chunk.text.length) next)).find? fun merged =>
    canMerge merged.1 && canMerge merged.2

/-- The loop over the chunks, with those done so far. -/
def coalesceWhitespaceOnlyMarkdownIRChunks (coalesced : List MarkdownIR) : List MarkdownIR → List MarkdownIR
  | [] => coalesced
  | chunk :: chunks =>
    let canMerge := fitsRendered renderChunk measureRendered renderedLimit
    if trim chunk.text ≠ [] then coalesceWhitespaceOnlyMarkdownIRChunks (coalesced ++ [chunk]) chunks
    else
      match coalesced.getLast?, chunks with
      | none, [] => coalesced
      | some prev, [] =>
        let mergedPrev := mergeMarkdownIRChunks prev chunk
        if canMerge mergedPrev then coalesced.dropLast ++ [mergedPrev] else coalesced
      | none, next :: chunks =>
        let mergedNext := mergeMarkdownIRChunks chunk next
        if canMerge mergedNext then coalesceWhitespaceOnlyMarkdownIRChunks coalesced (mergedNext :: chunks)
        else coalesceWhitespaceOnlyMarkdownIRChunks coalesced (next :: chunks)
      | some prev, next :: chunks =>
        let mergedPrev := mergeMarkdownIRChunks prev chunk
        let mergedNext := mergeMarkdownIRChunks chunk next
        if canMerge mergedPrev then
          coalesceWhitespaceOnlyMarkdownIRChunks (coalesced.dropLast ++ [mergedPrev]) (next :: chunks)
        else if canMerge mergedNext then coalesceWhitespaceOnlyMarkdownIRChunks coalesced (mergedNext :: chunks)
        else
          match findWhitespaceCut renderChunk measureRendered renderedLimit prev chunk next with
          | some (mergedPrev, mergedNext) =>
            coalesceWhitespaceOnlyMarkdownIRChunks (coalesced.dropLast ++ [mergedPrev]) (mergedNext :: chunks)
          | none => coalesceWhitespaceOnlyMarkdownIRChunks coalesced (next :: chunks)
termination_by chunks => chunks.length

end Coalesce

/-! ### All chunks -/

structure RenderedMarkdownChunk (R : Type) where
  rendered : R
  source : MarkdownIR

/-- `chunkMarkdownIR` at any number: a text is never longer than infinity, and no comparison
with `nan` holds. -/
def chunkMarkdownIRAt (ir : MarkdownIR) : EcmaNumber → List MarkdownIR
  | .finite limit => chunkMarkdownIR ir limit.floor.toNat
  | .infinity => chunkMarkdownIR ir ir.text.length
  | .negInfinity => chunkMarkdownIR ir 0
  | .nan => if ir.text = [] then [] else chunkSlices ir 0 0 [ir.text]

/-- `Math.max(1, Math.floor(limit))`. -/
def normalizedLimit (limit : EcmaNumber) : EcmaNumber := (EcmaNumber.ofNat 1).max limit.floor

def renderMarkdownIRChunksWithinLimit {R : Type} (ir : MarkdownIR) (limit : EcmaNumber) (measureRendered : R → EcmaNumber)
    (renderChunk : MarkdownIR → R) : List (RenderedMarkdownChunk R) :=
  if ir.text = [] then []
  else
    let pending := chunkMarkdownIRAt ir (normalizedLimit limit)
    let finalized := finalizeChunks renderChunk measureRendered (normalizedLimit limit) pending
    (coalesceWhitespaceOnlyMarkdownIRChunks renderChunk measureRendered (normalizedLimit limit) [] finalized).map
      fun source => ⟨renderChunk source, source⟩

/-- Only white space is missing. -/
structure DeletesWhite (kept text : Text) : Prop where
  sublist : kept.Sublist text
  visible : visible kept = visible text

theorem DeletesWhite.rfl {text : Text} : DeletesWhite text text := ⟨.refl text, Eq.refl _⟩

theorem DeletesWhite.trans {a b c : Text} (hab : DeletesWhite a b) (hbc : DeletesWhite b c) : DeletesWhite a c :=
  ⟨hab.sublist.trans hbc.sublist, hab.visible.trans hbc.visible⟩

theorem DeletesWhite.append_left {a b : Text} (l : Text) (h : DeletesWhite a b) : DeletesWhite (l ++ a) (l ++ b) :=
  ⟨(append_sublist_append_left l).mpr h.sublist, by rw [visible_append, visible_append, h.visible]⟩

theorem deletesWhite_append {gap : Text} (h : White gap) (l : Text) : DeletesWhite l (gap ++ l) :=
  ⟨sublist_append_right gap l, by rw [visible_append, white_iff.mp h, nil_append]⟩

theorem spaced_deletesWhite {pieces : List Text} {text : Text} (h : Spaced isWhiteSpace pieces text) :
    DeletesWhite pieces.flatten text := by
  refine ⟨?_, h.filter_flatten⟩
  induction h with
  | done h => exact nil_sublist _
  | piece h hrest ih =>
    exact ((append_sublist_append_left _).mpr ih).trans (sublist_append_right ..)

theorem joinedText_chunkSlices (ir : MarkdownIR) (index cursor : Nat) (chunks : List Text) :
    joinedText (chunkSlices ir index cursor chunks) = chunks.flatten := by
  induction chunks generalizing index cursor with
  | nil => rfl
  | cons chunk chunks ih =>
    unfold chunkSlices
    split
    · rename_i hnil
      rw [ih, hnil, flatten_cons, nil_append]
    · rw [joinedText_cons, ih, flatten_cons]

theorem chunkMarkdownIR_text (ir : MarkdownIR) (limit : Nat) : DeletesWhite (joinedText (chunkMarkdownIR ir limit)) ir.text := by
  unfold chunkMarkdownIR
  split_ifs with hnil hwhole
  · rw [hnil]
    exact .rfl
  · rw [joinedText_cons, joinedText_nil, append_nil]
    exact .rfl
  · rw [joinedText_chunkSlices]
    exact spaced_deletesWhite (chunkText_spaced ir.text (Nat.pos_of_ne_zero fun h => hwhole (.inl h)))

theorem chunkMarkdownIRAt_text (ir : MarkdownIR) (limit : EcmaNumber) :
    DeletesWhite (joinedText (chunkMarkdownIRAt ir limit)) ir.text := by
  cases limit with
  | nan =>
    simp only [chunkMarkdownIRAt]
    split
    · rename_i hnil
      rw [hnil]
      exact .rfl
    · rw [joinedText_chunkSlices, flatten_singleton]
      exact .rfl
  | negInfinity => exact chunkMarkdownIR_text ir 0
  | _ => exact chunkMarkdownIR_text ir _

section Coalesced
variable {R : Type} {renderChunk : MarkdownIR → R} {measureRendered : R → EcmaNumber} {renderedLimit : EcmaNumber}

theorem dropLast_concat_of_getLast? {α : Type*} {l : List α} {x : α} (h : l.getLast? = some x) : l.dropLast ++ [x] = l := by
  obtain ⟨init, rfl⟩ := getLast?_eq_some_iff.mp h
  rw [dropLast_concat]

theorem findWhitespaceCut_some {prev chunk next mergedPrev mergedNext : MarkdownIR}
    (h : findWhitespaceCut renderChunk measureRendered renderedLimit prev chunk next = some (mergedPrev, mergedNext)) :
    (fitsRendered renderChunk measureRendered renderedLimit mergedPrev = true ∧
      fitsRendered renderChunk measureRendered renderedLimit mergedNext = true) ∧
      mergedPrev.text ++ mergedNext.text = prev.text ++ (chunk.text ++ next.text) := by
  have hfits := find?_some h
  rw [Bool.and_eq_true] at hfits
  refine ⟨hfits, ?_⟩
  obtain ⟨n, -, hmerged⟩ := mem_map.mp (mem_of_find?_eq_some h)
  cases hmerged
  simp only [mergeMarkdownIRChunks, sliceMarkdownIR, drop_zero, take_length, append_assoc]
  rw [← append_assoc (chunk.text.take n), take_append_drop]

theorem joinedText_mergePrev {coalesced : List MarkdownIR} {prev : MarkdownIR} (h : coalesced.getLast? = some prev)
    (merged : MarkdownIR) : joinedText coalesced = joinedText coalesced.dropLast ++ prev.text ∧
      joinedText (coalesced.dropLast ++ [merged]) = joinedText coalesced.dropLast ++ merged.text := by
  constructor
  · conv_lhs => rw [← dropLast_concat_of_getLast? h]
    rw [joinedText_append, joinedText_cons, joinedText_nil, append_nil]
  · rw [joinedText_append, joinedText_cons, joinedText_nil, append_nil]

/-- A white chunk is dropped. -/
theorem deletesWhite_drop {chunk : MarkdownIR} (h : ¬ trim chunk.text ≠ []) (coalesced chunks : List MarkdownIR) :
    DeletesWhite (joinedText coalesced ++ joinedText chunks) (joinedText coalesced ++ joinedText (chunk :: chunks)) :=
  (deletesWhite_append (trim_eq_nil.mp (not_not.mp h)) (joinedText chunks)).append_left _

/-- **Joining and dropping white chunks deletes white space only.** -/
theorem coalesceWhitespaceOnlyMarkdownIRChunks_text (coalesced chunks : List MarkdownIR) :
    DeletesWhite
      (joinedText (coalesceWhitespaceOnlyMarkdownIRChunks renderChunk measureRendered renderedLimit coalesced chunks))
      (joinedText coalesced ++ joinedText chunks) := by
  fun_induction coalesceWhitespaceOnlyMarkdownIRChunks renderChunk measureRendered renderedLimit coalesced chunks with
  | case1 coalesced =>
    rw [joinedText_nil, append_nil]
    exact .rfl
  | case2 coalesced chunk chunks htext ih =>
    rwa [joinedText_append, joinedText_cons, joinedText_nil, append_nil, append_assoc, ← joinedText_cons] at ih
  | case3 coalesced chunk hwhite hprev =>
    have hdrop := deletesWhite_drop hwhite coalesced []
    rwa [joinedText_nil, append_nil] at hdrop
  | case4 coalesced chunk canMerge hwhite prev hprev mergedPrev hmerge =>
    obtain ⟨hall, hmerged⟩ := joinedText_mergePrev hprev mergedPrev
    rw [hmerged, hall, joinedText_cons, joinedText_nil, append_nil, append_assoc]
    exact .rfl
  | case5 coalesced chunk canMerge hwhite prev hprev mergedPrev hmerge =>
    have hdrop := deletesWhite_drop hwhite coalesced []
    rwa [joinedText_nil, append_nil] at hdrop
  | case6 coalesced chunk canMerge hwhite next chunks hprev mergedNext hmerge ih =>
    rwa [joinedText_cons, show mergedNext.text = chunk.text ++ next.text from rfl, append_assoc, ← joinedText_cons,
      ← joinedText_cons] at ih
  | case7 coalesced chunk canMerge hwhite next chunks hprev mergedNext hmerge ih =>
    exact ih.trans (deletesWhite_drop hwhite coalesced (next :: chunks))
  | case8 coalesced chunk canMerge hwhite prev next chunks hprev mergedPrev hmerge ih =>
    obtain ⟨hall, hmerged⟩ := joinedText_mergePrev hprev mergedPrev
    rwa [hmerged, show mergedPrev.text = prev.text ++ chunk.text from rfl, ← append_assoc, ← hall, append_assoc,
      ← joinedText_cons] at ih
  | case9 coalesced chunk canMerge hwhite prev next chunks hprev mergedPrev mergedNext hnot hmerge ih =>
    rwa [joinedText_cons, show mergedNext.text = chunk.text ++ next.text from rfl, append_assoc, ← joinedText_cons,
      ← joinedText_cons] at ih
  | case10 coalesced chunk canMerge hwhite prev next chunks hprev mergedPrev mergedNext hnot hnot' cutPrev cutNext hcut ih =>
    obtain ⟨hall, hmerged⟩ := joinedText_mergePrev hprev cutPrev
    rw [hmerged, joinedText_cons, append_assoc, ← append_assoc cutPrev.text, (findWhitespaceCut_some hcut).2] at ih
    simp only [append_assoc, ← joinedText_cons] at ih
    rwa [joinedText_cons, ← append_assoc, ← hall] at ih
  | case11 coalesced chunk canMerge hwhite prev next chunks hprev mergedPrev mergedNext hnot hnot' hcut ih =>
    exact ih.trans (deletesWhite_drop hwhite coalesced (next :: chunks))

/-- A chunk that was joined fits, and the others are as they were. -/
theorem coalesceWhitespaceOnlyMarkdownIRChunks_settled (coalesced chunks : List MarkdownIR)
    (hdone : ∀ chunk ∈ coalesced, Settled renderChunk measureRendered renderedLimit chunk)
    (hchunks : ∀ chunk ∈ chunks, Settled renderChunk measureRendered renderedLimit chunk) :
    ∀ chunk ∈ coalesceWhitespaceOnlyMarkdownIRChunks renderChunk measureRendered renderedLimit coalesced chunks,
      Settled renderChunk measureRendered renderedLimit chunk := by
  have hlast {coalesced : List MarkdownIR} (hdone : ∀ chunk ∈ coalesced, Settled renderChunk measureRendered renderedLimit chunk)
      {merged : MarkdownIR} (hfits : Settled renderChunk measureRendered renderedLimit merged) :
      ∀ chunk ∈ coalesced.dropLast ++ [merged], Settled renderChunk measureRendered renderedLimit chunk := by
    intro chunk hchunk
    rcases mem_append.mp hchunk with hchunk | hchunk
    · exact hdone chunk ((dropLast_sublist coalesced).subset hchunk)
    · rwa [mem_singleton.mp hchunk]
  have hhead {merged : MarkdownIR} {chunks : List MarkdownIR} (hfits : Settled renderChunk measureRendered renderedLimit merged)
      (hchunks : ∀ chunk ∈ chunks, Settled renderChunk measureRendered renderedLimit chunk) :
      ∀ chunk ∈ merged :: chunks, Settled renderChunk measureRendered renderedLimit chunk :=
    forall_mem_cons.mpr ⟨hfits, hchunks⟩
  fun_induction coalesceWhitespaceOnlyMarkdownIRChunks renderChunk measureRendered renderedLimit coalesced chunks with
  | case2 coalesced chunk chunks htext ih =>
    obtain ⟨hchunk, hchunks⟩ := forall_mem_cons.mp hchunks
    refine ih (fun c hc => ?_) hchunks
    rcases mem_append.mp hc with hc | hc
    · exact hdone c hc
    · rwa [mem_singleton.mp hc]
  | case4 coalesced chunk canMerge hwhite prev hprev mergedPrev hmerge => exact hlast hdone (.inl hmerge)
  | case6 coalesced chunk canMerge hwhite next chunks hprev mergedNext hmerge ih =>
    exact ih hdone (hhead (.inl hmerge) (forall_mem_cons.mp (forall_mem_cons.mp hchunks).2).2)
  | case7 coalesced chunk canMerge hwhite next chunks hprev mergedNext hmerge ih =>
    exact ih hdone (forall_mem_cons.mp hchunks).2
  | case8 coalesced chunk canMerge hwhite prev next chunks hprev mergedPrev hmerge ih =>
    exact ih (hlast hdone (.inl hmerge)) (forall_mem_cons.mp hchunks).2
  | case9 coalesced chunk canMerge hwhite prev next chunks hprev mergedPrev mergedNext hnot hmerge ih =>
    exact ih hdone (hhead (.inl hmerge) (forall_mem_cons.mp (forall_mem_cons.mp hchunks).2).2)
  | case10 coalesced chunk canMerge hwhite prev next chunks hprev mergedPrev mergedNext hnot hnot' cutPrev cutNext hcut ih =>
    obtain ⟨hfitsPrev, hfitsNext⟩ := (findWhitespaceCut_some hcut).1
    exact ih (hlast hdone (.inl hfitsPrev))
      (hhead (.inl hfitsNext) (forall_mem_cons.mp (forall_mem_cons.mp hchunks).2).2)
  | case11 coalesced chunk canMerge hwhite prev next chunks hprev mergedPrev mergedNext hnot hnot' hcut ih =>
    exact ih hdone (forall_mem_cons.mp hchunks).2
  | _ => exact hdone

end Coalesced

/-- **Whatever the renderer and the measure are, the chunks are the text up to white space,
and each of them fits, or is one unit, or starts with nothing that fits.** -/
theorem renderMarkdownIRChunksWithinLimit_settled {R : Type} (ir : MarkdownIR) (limit : EcmaNumber)
    (measureRendered : R → EcmaNumber) (renderChunk : MarkdownIR → R) :
    let chunks := renderMarkdownIRChunksWithinLimit ir limit measureRendered renderChunk
    DeletesWhite (joinedText (chunks.map (·.source))) ir.text ∧
      ∀ chunk ∈ chunks, chunk.rendered = renderChunk chunk.source ∧
        ((measureRendered chunk.rendered).le (normalizedLimit limit) = true ∨ chunk.source.text.length = 1 ∨
          ∀ n, 0 < n → n < chunk.source.text.length →
            (measureRendered (renderChunk (sliceMarkdownIR chunk.source 0 n))).le (normalizedLimit limit) = false) := by
  simp only [renderMarkdownIRChunksWithinLimit]
  split
  · rename_i hnil
    rw [hnil]
    exact ⟨.rfl, nofun⟩
  · refine ⟨?_, fun chunk hchunk => ?_⟩
    · rw [map_map, show ((·.source) ∘ fun source => (⟨renderChunk source, source⟩ : RenderedMarkdownChunk R)) = id from rfl,
        map_id]
      have htext := @coalesceWhitespaceOnlyMarkdownIRChunks_text _ renderChunk
        measureRendered (normalizedLimit limit) []
        (finalizeChunks renderChunk measureRendered (normalizedLimit limit) (chunkMarkdownIRAt ir (normalizedLimit limit)))
      rw [joinedText_nil, nil_append, finalizeChunks_text] at htext
      exact htext.trans (chunkMarkdownIRAt_text ir (normalizedLimit limit))
    · obtain ⟨source, hsource, rfl⟩ := mem_map.mp hchunk
      refine ⟨rfl, ?_⟩
      have hsettled := coalesceWhitespaceOnlyMarkdownIRChunks_settled [] _ nofun (finalizeChunks_settled _) source hsource
      rcases hsettled with hfits | hshort | hprefix
      · exact .inl hfits
      · exact .inr (or_iff_not_imp_left.mpr fun hne n hpos hlt => absurd hlt (by simp only at hne ⊢; omega))
      · exact .inr (.inr hprefix)

end OpenClaw.Markdown
