import Mathlib.Logic.Relation
import OpenClaw.Markdown.PlainChunkers

/-! Chunks of Markdown, with fenced blocks closed and opened again.

A break inside a block ends its chunk with a closing line and starts the next one with the
opening line. The room for the closing line is taken from the window, except where the window
is too tight for it: there the break stays at the end of the window and the closing line is
appended all the same. Every chunk keeps to the limit exactly if no cut is that tight
(`chunkMarkdownText_fits_iff`). -/
namespace OpenClaw.Markdown
open Foundation.CodeUnits List Option

/-! ### One cut -/

def reopenPrefix : Option FenceSpan → Text
  | none => []
  | some fence => fence.openLine ++ [newline]

def FenceSpan.closeLine (fence : FenceSpan) : Text := fence.indent ++ fence.marker

def contentLimit (limit : Nat) (reopenFence : Option FenceSpan) : Nat := max 1 (limit - (reopenPrefix reopenFence).length)

/-- Absent for -1. -/
def pickSafeBreakIndex (text : Text) (start stop : Nat) (spans : List FenceSpan) : Option Nat :=
  let found := scanParenAwareBreakpoints text start stop (isSafeFenceBreak spans)
  (found.lastNewline.filter (start < ·)).or (found.lastWhitespace.filter (start < ·))

/-- The last break behind a line break before place `stop` that is inside the block. -/
def searchNewlineBreak (text : Text) (spans : List FenceSpan) (fence : FenceSpan) (start minProgressIdx : Nat) :
    Nat → Option Nat
  | 0 => none
  | i + 1 =>
    if i < start then none
    else if text[i]? = some newline then
      if i + 1 < minProgressIdx then none
      else if (findFenceSpanAt spans (i + 1)).any (·.start = fence.start) then some (i + 1)
      else searchNewlineBreak text spans fence start minProgressIdx i
    else searchNewlineBreak text spans fence start minProgressIdx i

def minProgressIdx (text : Text) (fence : FenceSpan) (start : Nat) : Nat :=
  min text.length (max (start + 1) (fence.start + fence.openLine.length + 2))

/-- Where a break ends content that leaves room for the closing line alone. -/
def maxIdxIfAlreadyNewline (fence : FenceSpan) (start contentLimit : Nat) : Nat :=
  start + (contentLimit - fence.closeLine.length)

def pickedNewline (text : Text) (spans : List FenceSpan) (fence : FenceSpan) (start contentLimit : Nat) : Option Nat :=
  searchNewlineBreak text spans fence start (minProgressIdx text fence start)
    (max start (maxIdxIfAlreadyNewline fence start contentLimit - 1) + 1)

/-- The break in a block at the end of the window. -/
def fenceBreakIndex (text : Text) (spans : List FenceSpan) (fence : FenceSpan) (start contentLimit : Nat) : Nat :=
  let windowEnd := start + contentLimit
  if contentLimit ≤ fence.closeLine.length + 1 then windowEnd
  else
    match pickedNewline text spans fence start contentLimit with
    | some candidateBreak => candidateBreak
    | none =>
      if maxIdxIfAlreadyNewline fence start contentLimit < minProgressIdx text fence start then windowEnd
      else max (minProgressIdx text fence start) (start + (contentLimit - (fence.closeLine.length + 1)))

structure MarkdownBreak where
  breakIdx : Nat
  fenceToSplit : Option FenceSpan
  deriving Repr, DecidableEq

def markdownBreak (text : Text) (spans : List FenceSpan) (start contentLimit : Nat) : MarkdownBreak :=
  match pickSafeBreakIndex text start (start + contentLimit) spans with
  | some softBreak => ⟨softBreak, none⟩
  | none =>
    match findFenceSpanAt spans (start + contentLimit) with
    | none => ⟨start + contentLimit, none⟩
    | some initialFence =>
      let breakIdx := fenceBreakIndex text spans initialFence start contentLimit
      ⟨breakIdx, (findFenceSpanAt spans breakIdx).filter (·.start = initialFence.start)⟩

/-- The first place from `i` on that is no line break. -/
def skipLeadingNewlines (text : Text) (i : Nat) : Nat := i + ((text.drop i).takeWhile (· = newline)).length

/-! ### The loop -/

structure ChunkState where
  start : Nat := 0
  reopenFence : Option FenceSpan := none
  deriving Repr, DecidableEq

/-- The chunk of a cut, before it is closed. -/
def cutContent (text : Text) (s : ChunkState) (breakIdx : Nat) : Text :=
  reopenPrefix s.reopenFence ++ (text.take breakIdx).drop s.start

def closeFence (content : Text) : Option FenceSpan → Text
  | none => content
  | some fence =>
    if content.getLast? = some newline then content ++ fence.closeLine else content ++ (newline :: fence.closeLine)

/-- The state behind a cut. -/
def afterCut (text : Text) (cut : MarkdownBreak) : ChunkState where
  start := match cut.fenceToSplit with
    | some _ => afterBreak text cut.breakIdx
    | none => skipLeadingNewlines text (afterBreak text cut.breakIdx)
  reopenFence := cut.fenceToSplit

def markdownCut (text : Text) (spans : List FenceSpan) (limit : Nat) (s : ChunkState) : MarkdownBreak :=
  markdownBreak text spans s.start (contentLimit limit s.reopenFence)

/-- One round: the chunk, and the state to go on from, if the text goes on. -/
def markdownStep (text : Text) (spans : List FenceSpan) (limit : Nat) (s : ChunkState) : Option (Text × Option ChunkState) :=
  if s.start < text.length then
    if text.length - s.start ≤ contentLimit limit s.reopenFence then some (cutContent text s text.length, none)
    else
      let cut := markdownCut text spans limit s
      if s.start < cut.breakIdx then
        some (closeFence (cutContent text s cut.breakIdx) cut.fenceToSplit, some (afterCut text cut))
      else none
  else none

/-! ### Where a cut falls -/

theorem scanParenAware_bounds (text : Text) (start stop : Nat) (isAllowed : Nat → Bool) {i : Nat}
    (h : (scanParenAwareBreakpoints text start stop isAllowed).lastNewline = some i ∨
      (scanParenAwareBreakpoints text start stop isAllowed).lastWhitespace = some i) :
    i < stop ∧ i < text.length ∧ isAllowed i = true ∧ whiteAt text i = true := by
  have hscan : ∀ scan : ParenScan, scan = (((text.drop start).take (stop - start)).zipIdx start).foldl (scanParenAwareUnit isAllowed) {} →
      ∀ i, (scan.found.lastNewline = some i ∨ scan.found.lastWhitespace = some i) →
        i < stop ∧ i < text.length ∧ isAllowed i = true ∧ whiteAt text i = true := by
    rintro _ rfl
    refine List.foldlRecOn (motive := fun scan : ParenScan => ∀ i, (scan.found.lastNewline = some i ∨
      scan.found.lastWhitespace = some i) → i < stop ∧ i < text.length ∧ isAllowed i = true ∧ whiteAt text i = true) _ _
      (fun i h => by simp at h) fun scan ih unit hunit i hi => ?_
    obtain ⟨char, k⟩ := unit
    have hlt := snd_lt_of_mem_zipIdx hunit
    obtain ⟨hle, -, hget⟩ := mem_zipIdx hunit
    have hk : k < stop ∧ k < text.length := by
      simp only [length_take, length_drop] at hlt
      omega
    have hchar : text[k]? = some char := by
      rw [getElem?_eq_getElem hk.2, hget]
      simp only [getElem_take, getElem_drop, Nat.add_sub_cancel' hle]
    unfold scanParenAwareUnit at hi
    simp only at hi
    split_ifs at hi with hallowed hopen hclose hdepth hnewline hwhite
    · exact ih i hi
    · exact ih i hi
    · exact ih i hi
    · exact ih i hi
    · have hnew : isAllowed k = true ∧ whiteAt text k = true :=
        ⟨by simpa using hallowed, by rw [whiteAt, hchar, hnewline]; rfl⟩
      rcases hi with hi | hi
      · cases hi
        exact ⟨hk.1, hk.2, hnew⟩
      · exact ih i (.inr hi)
    · have hnew : isAllowed k = true ∧ whiteAt text k = true :=
        ⟨by simpa using hallowed, by rw [whiteAt, hchar]; exact hwhite⟩
      rcases hi with hi | hi
      · exact ih i (.inl hi)
      · cases hi
        exact ⟨hk.1, hk.2, hnew⟩
    · exact ih i hi
  exact hscan _ rfl i h

/-- A soft break is at white space inside the window and outside every block. -/
theorem pickSafeBreakIndex_some {text : Text} {start stop i : Nat} {spans : List FenceSpan}
    (h : pickSafeBreakIndex text start stop spans = some i) :
    start < i ∧ i < stop ∧ i < text.length ∧ isSafeFenceBreak spans i = true ∧ whiteAt text i = true := by
  simp only [pickSafeBreakIndex, or_eq_some_iff, filter_eq_some_iff, decide_eq_true_eq] at h
  obtain ⟨hnewline, hstart⟩ | ⟨-, hblank, hstart⟩ := h
  · exact ⟨hstart, scanParenAware_bounds text start stop _ (.inl hnewline)⟩
  · exact ⟨hstart, scanParenAware_bounds text start stop _ (.inr hblank)⟩

theorem searchNewlineBreak_some {text : Text} {spans : List FenceSpan} {fence : FenceSpan} {start minIdx stop i : Nat}
    (h : searchNewlineBreak text spans fence start minIdx stop = some i) :
    start < i ∧ minIdx ≤ i ∧ i ≤ stop ∧ text[i - 1]? = some newline ∧
      ∃ found, findFenceSpanAt spans i = some found ∧ found.start = fence.start := by
  induction stop with
  | zero => cases h
  | succ stop ih =>
    unfold searchNewlineBreak at h
    split_ifs at h with hstart hnewline hmin hfound
    · cases h
      rw [Option.any_eq_true] at hfound
      obtain ⟨found, hfind, hsame⟩ := hfound
      exact ⟨by omega, by omega, le_rfl, by rwa [Nat.add_sub_cancel], found, hfind, by simpa using hsame⟩
    · obtain ⟨h1, h2, h3, h4⟩ := ih h
      exact ⟨h1, h2, by omega, h4⟩
    · obtain ⟨h1, h2, h3, h4⟩ := ih h
      exact ⟨h1, h2, by omega, h4⟩

/-- The first place that is looked at would have been taken. -/
theorem searchNewlineBreak_none {text : Text} {spans : List FenceSpan} {fence : FenceSpan} {start minIdx stop : Nat}
    (h : searchNewlineBreak text spans fence start minIdx (stop + 1) = none) (hstart : start ≤ stop)
    (hnewline : text[stop]? = some newline) (hmin : minIdx ≤ stop + 1) :
    ∀ found, findFenceSpanAt spans (stop + 1) = some found → found.start ≠ fence.start := by
  intro found hfind hsame
  unfold searchNewlineBreak at h
  rw [if_neg (by omega), if_pos hnewline, if_neg (by omega), hfind, any_some, hsame,
    if_pos (decide_eq_true rfl)] at h
  cases h

theorem lt_fenceBreakIndex (text : Text) (spans : List FenceSpan) (fence : FenceSpan) {start contentLimit : Nat}
    (hstart : start < text.length) (hlimit : 0 < contentLimit) :
    start < fenceBreakIndex text spans fence start contentLimit := by
  have hmin : start < minProgressIdx text fence start := by
    unfold minProgressIdx
    omega
  unfold fenceBreakIndex
  simp only
  split
  · omega
  · split
    · rename_i candidateBreak hpicked
      exact (searchNewlineBreak_some hpicked).1
    · split <;> omega

theorem lt_markdownBreak (text : Text) (spans : List FenceSpan) {start contentLimit : Nat} (hstart : start < text.length)
    (hlimit : 0 < contentLimit) : start < (markdownBreak text spans start contentLimit).breakIdx := by
  unfold markdownBreak
  split
  · rename_i softBreak hsoft
    exact (pickSafeBreakIndex_some hsoft).1
  · split
    · exact Nat.lt_add_of_pos_right hlimit
    · exact lt_fenceBreakIndex text spans _ hstart hlimit

theorem contentLimit_pos (limit : Nat) (reopenFence : Option FenceSpan) : 0 < contentLimit limit reopenFence :=
  Nat.lt_of_lt_of_le Nat.one_pos (le_max_left ..)

theorem le_skipLeadingNewlines (text : Text) (i : Nat) : i ≤ skipLeadingNewlines text i := Nat.le_add_right ..

section Step
variable {text : Text} {spans : List FenceSpan} {limit : Nat} {s : ChunkState}

theorem lt_markdownCut (h : s.start < text.length) : s.start < (markdownCut text spans limit s).breakIdx :=
  lt_markdownBreak text spans h (contentLimit_pos limit s.reopenFence)

/-- **A round either ends the text or cuts.** -/
theorem markdownStep_eq (text : Text) (spans : List FenceSpan) (limit : Nat) (s : ChunkState) :
    markdownStep text spans limit s =
      if s.start < text.length then
        if text.length - s.start ≤ contentLimit limit s.reopenFence then some (cutContent text s text.length, none)
        else
          let cut := markdownCut text spans limit s
          some (closeFence (cutContent text s cut.breakIdx) cut.fenceToSplit, some (afterCut text cut))
      else none := by
  unfold markdownStep
  split
  · rename_i hlt
    split
    · rfl
    · simp only [if_pos (lt_markdownCut hlt)]
  · rfl

theorem markdownStep_lt {chunk : Text} {next : ChunkState} (h : markdownStep text spans limit s = some (chunk, some next)) :
    s.start < next.start ∧ s.start < text.length := by
  rw [markdownStep_eq] at h
  split at h
  · rename_i hlt
    split at h
    · cases h
    · cases h
      have hcut := @lt_markdownCut _ spans limit _ hlt
      have hafter : s.start < afterBreak text (markdownCut text spans limit s).breakIdx := by
        unfold afterBreak
        omega
      refine ⟨?_, hlt⟩
      unfold afterCut
      simp only
      split
      · exact hafter
      · exact hafter.trans_le (le_skipLeadingNewlines ..)
  · cases h

end Step

def markdownChunks (text : Text) (spans : List FenceSpan) (limit : Nat) (s : ChunkState) : List Text :=
  match _ : markdownStep text spans limit s with
  | none => []
  | some (chunk, none) => [chunk]
  | some (chunk, some next) => chunk :: markdownChunks text spans limit next
termination_by text.length - s.start
decreasing_by
  have := markdownStep_lt ‹_›
  omega

def chunkMarkdownText (text : Text) (limit : Nat) : List Text :=
  (resolveChunkEarlyReturn text limit).getD (markdownChunks text (parseFenceSpans text) limit {})

inductive ChunkMode where
  | length
  | newline
  deriving Repr, DecidableEq

def chunkMarkdownTextWithMode (text : Text) (limit : Nat) : ChunkMode → List Text
  | .length => chunkMarkdownText text limit
  | .newline => (chunkByParagraph text limit false).flatMap fun chunk =>
      let nested := chunkMarkdownText chunk limit
      if nested = [] ∧ chunk ≠ [] then [chunk] else nested

example : chunkMarkdownText (units "```js\nabc\ndef\n```") 14 = [units "```js\nabc\n```", units "```js\ndef\n```"] := by
  decide +kernel

/-! ### Runs -/

/-- One cut leads from a state to the next. -/
def CutsTo (text : Text) (spans : List FenceSpan) (limit : Nat) (s t : ChunkState) : Prop :=
  ∃ chunk, markdownStep text spans limit s = some (chunk, some t)

/-- The states that a run from a state comes to. -/
abbrev Reaches (text : Text) (spans : List FenceSpan) (limit : Nat) : ChunkState → ChunkState → Prop :=
  Relation.ReflTransGen (CutsTo text spans limit)

/-- **What holds of every chunk is what every round yields.** -/
theorem forall_markdownChunks_iff (text : Text) (spans : List FenceSpan) (limit : Nat) (P : Text → Prop) (s : ChunkState) :
    (∀ c ∈ markdownChunks text spans limit s, P c) ↔
      ∀ t, Reaches text spans limit s t → ∀ chunk next, markdownStep text spans limit t = some (chunk, next) → P chunk := by
  fun_induction markdownChunks text spans limit s with
  | case1 s hstep =>
    refine ⟨fun _ t ht chunk next hnext => ?_, nofun⟩
    obtain rfl | ⟨u, ⟨chunk', hu⟩, -⟩ := Relation.ReflTransGen.cases_head ht
    · rw [hstep] at hnext
      cases hnext
    · rw [hstep] at hu
      cases hu
  | case2 s chunk hstep =>
    rw [forall_mem_singleton]
    refine ⟨fun hchunk t ht c next hnext => ?_, fun h => h s .refl chunk none hstep⟩
    obtain rfl | ⟨u, ⟨chunk', hu⟩, -⟩ := Relation.ReflTransGen.cases_head ht
    · rw [hstep] at hnext
      cases hnext
      exact hchunk
    · rw [hstep] at hu
      cases hu
  | case3 s chunk next hstep ih =>
    rw [forall_mem_cons, ih]
    refine ⟨fun ⟨hchunk, hrest⟩ t ht c next' hnext => ?_, fun h => ⟨h s .refl chunk _ hstep, fun t ht =>
      h t (.head ⟨chunk, hstep⟩ ht)⟩⟩
    obtain rfl | ⟨u, ⟨chunk', hu⟩, hrest'⟩ := Relation.ReflTransGen.cases_head ht
    · rw [hstep] at hnext
      cases hnext
      exact hchunk
    · rw [hstep] at hu
      cases hu
      exact hrest t hrest' c next' hnext

/-! ### Room for the closing line -/

/-- The closing line of the block finds no room in the window. -/
def NoRoomToClose (text : Text) (spans : List FenceSpan) (fence : FenceSpan) (start contentLimit : Nat) : Prop :=
  contentLimit ≤ fence.closeLine.length + 1 ∨
    pickedNewline text spans fence start contentLimit = none ∧
      (maxIdxIfAlreadyNewline fence start contentLimit < minProgressIdx text fence start ∨
        maxIdxIfAlreadyNewline fence start contentLimit = minProgressIdx text fence start ∧
          (findFenceSpanAt spans (minProgressIdx text fence start)).any (·.start = fence.start))

/-- The opening line alone fills a chunk, or the window ends in a block, without a soft break,
and too early to close it. -/
def Tight (text : Text) (spans : List FenceSpan) (limit : Nat) (s : ChunkState) : Prop :=
  s.start < text.length ∧ (limit ≤ (reopenPrefix s.reopenFence).length ∨
    contentLimit limit s.reopenFence < text.length - s.start ∧
      pickSafeBreakIndex text s.start (s.start + contentLimit limit s.reopenFence) spans = none ∧
      ∃ fence, findFenceSpanAt spans (s.start + contentLimit limit s.reopenFence) = some fence ∧
        NoRoomToClose text spans fence s.start (contentLimit limit s.reopenFence))

/-- The text fits, or no cut of the run is tight. -/
def RunsWithRoom (text : Text) (limit : Nat) : Prop :=
  text.length ≤ limit ∨ 0 < limit ∧ ∀ s, Reaches text (parseFenceSpans text) limit {} s → ¬ Tight text (parseFenceSpans text) limit s

section Fits
variable {text : Text} {spans : List FenceSpan} {limit : Nat} {s : ChunkState}

theorem length_cutContent (text : Text) (s : ChunkState) {breakIdx : Nat} (h : breakIdx ≤ text.length) :
    (cutContent text s breakIdx).length = (reopenPrefix s.reopenFence).length + (breakIdx - s.start) := by
  rw [cutContent, length_append, length_drop, length_take, Nat.min_eq_left h]

theorem length_closeFence_le (content : Text) (split : Option FenceSpan) : content.length ≤ (closeFence content split).length := by
  unfold closeFence
  split
  · exact le_rfl
  · split <;> rw [length_append] <;> exact Nat.le_add_right ..

/-- The last unit of a cut's content is the one before the break. -/
theorem getLast?_cutContent (text : Text) (s : ChunkState) {breakIdx : Nat} (hstart : s.start < breakIdx)
    (h : breakIdx ≤ text.length) : (cutContent text s breakIdx).getLast? = text[breakIdx - 1]? := by
  have hne : (text.take breakIdx).drop s.start ≠ [] := by
    rw [ne_eq, drop_eq_nil_iff, length_take]
    omega
  rw [cutContent, getLast?_append_of_ne_nil _ hne, getLast?_drop, if_neg (by rw [length_take]; omega),
    getLast?_eq_getElem?, length_take, Nat.min_eq_left h, getElem?_take_of_lt (by omega)]

theorem length_closeFence {content : Text} {fence : FenceSpan} :
    (closeFence content (some fence)).length =
      content.length + fence.closeLine.length + if content.getLast? = some newline then 0 else 1 := by
  simp only [closeFence]
  split <;> simp only [length_append, length_cons] <;> omega

theorem length_closeLine_pos {fence : FenceSpan} (h : 3 ≤ fence.marker.length) : 0 < fence.closeLine.length := by
  rw [FenceSpan.closeLine, length_append]
  omega

/-- A block is found again at any place inside it. -/
theorem split_eq_of_find (hspans : Arranged spans 0 text.length) {fence : FenceSpan} {window i : Nat}
    (hfence : findFenceSpanAt spans window = some fence) :
    (findFenceSpanAt spans i).filter (·.start = fence.start) = some fence ∨
      (findFenceSpanAt spans i).filter (·.start = fence.start) = none := by
  cases h : (findFenceSpanAt spans i).filter (·.start = fence.start) with
  | none => exact .inr rfl
  | some found =>
    simp only [filter_eq_some_iff, decide_eq_true_eq] at h
    rw [hspans.eq_of_start (findFenceSpanAt_some h.1).1 (findFenceSpanAt_some hfence).1 h.2]
    exact .inl rfl

section
variable (hspans : Arranged spans 0 text.length) (hmarks : ∀ span ∈ spans, 3 ≤ span.marker.length)
include hspans hmarks

/-- **A chunk that is closed in a block fits its window exactly if the closing line has room.** -/
theorem closeFence_fits_iff {contentLimit : Nat} (hpos : 0 < contentLimit)
    (hwindow : s.start + contentLimit < text.length) {fence : FenceSpan}
    (hfence : findFenceSpanAt spans (s.start + contentLimit) = some fence) :
    let breakIdx := fenceBreakIndex text spans fence s.start contentLimit
    (closeFence (cutContent text s breakIdx) ((findFenceSpanAt spans breakIdx).filter (·.start = fence.start))).length ≤
        (reopenPrefix s.reopenFence).length + contentLimit ↔
      ¬ NoRoomToClose text spans fence s.start contentLimit := by
  have hclose := length_closeLine_pos (hmarks fence (findFenceSpanAt_some hfence).1)
  -- a break at the end of the window leaves no room at all
  have hwhole : ¬ (closeFence (cutContent text s (s.start + contentLimit))
      ((findFenceSpanAt spans (s.start + contentLimit)).filter (·.start = fence.start))).length ≤
        (reopenPrefix s.reopenFence).length + contentLimit := by
    rw [hfence, filter_some, if_pos (decide_eq_true rfl), length_closeFence, length_cutContent text s hwindow.le]
    omega
  have hmin : minProgressIdx text fence s.start ≤ text.length := Nat.min_le_left ..
  have hminStart : s.start < minProgressIdx text fence s.start := by
    unfold minProgressIdx
    omega
  simp only [fenceBreakIndex, NoRoomToClose]
  by_cases htight : contentLimit ≤ fence.closeLine.length + 1
  · simp only [if_pos htight]
    exact iff_of_false hwhole fun h => h (.inl htight)
  have halready : maxIdxIfAlreadyNewline fence s.start contentLimit = s.start + (contentLimit - fence.closeLine.length) := rfl
  simp only [if_neg htight]
  cases hpicked : pickedNewline text spans fence s.start contentLimit with
  | some candidateBreak =>
    obtain ⟨hstart, hmin', hstop, hnewline, found, hfound, hsame⟩ := searchNewlineBreak_some hpicked
    rw [halready] at hstop
    refine iff_of_true ?_ fun h => h.elim htight fun h => absurd h.1 nofun
    have hle : candidateBreak ≤ text.length := by omega
    simp only
    rw [hfound, filter_some, if_pos (decide_eq_true hsame), length_closeFence, length_cutContent text s hle,
      getLast?_cutContent text s hstart hle, if_pos hnewline,
      hspans.eq_of_start (findFenceSpanAt_some hfound).1 (findFenceSpanAt_some hfence).1 hsame]
    omega
  | none =>
    simp only
    by_cases hlate : maxIdxIfAlreadyNewline fence s.start contentLimit < minProgressIdx text fence s.start
    · simp only [if_pos hlate]
      exact iff_of_false hwhole fun h => h (.inr ⟨trivial, .inl hlate⟩)
    simp only [if_neg hlate]
    by_cases hlast : maxIdxIfAlreadyNewline fence s.start contentLimit = minProgressIdx text fence s.start
    · -- the break is as late as it may be behind a line break, and stands behind none
      have hmax : max (minProgressIdx text fence s.start) (s.start + (contentLimit - (fence.closeLine.length + 1))) =
          minProgressIdx text fence s.start := by omega
      rw [hmax]
      have hnone : ∀ found, text[minProgressIdx text fence s.start - 1]? = some newline →
          findFenceSpanAt spans (minProgressIdx text fence s.start) = some found → found.start ≠ fence.start := by
        intro found hnewline hfound
        have hidx : max s.start (maxIdxIfAlreadyNewline fence s.start contentLimit - 1) =
            minProgressIdx text fence s.start - 1 := by omega
        rw [pickedNewline, hidx] at hpicked
        refine searchNewlineBreak_none hpicked (by omega) hnewline (by omega) found ?_
        rwa [Nat.sub_add_cancel (by omega)]
      rw [not_or, and_iff_right htight]
      rcases split_eq_of_find hspans (i := minProgressIdx text fence s.start) hfence with hsplit | hsplit
      · have hfound := hsplit
        simp only [filter_eq_some_iff, decide_eq_true_eq] at hfound
        refine iff_of_false ?_ fun h => h ⟨trivial, .inr ⟨hlast, by rw [hfound.1, any_some, decide_eq_true_eq]⟩⟩
        rw [hsplit, length_closeFence, length_cutContent text s hmin, getLast?_cutContent text s hminStart hmin,
          if_neg fun hnewline => hnone fence hnewline hfound.1 rfl]
        omega
      · refine iff_of_true ?_ fun h => h.2.elim (fun h => hlate h) fun h => ?_
        · rw [hsplit, closeFence, length_cutContent text s hmin]
          omega
        · obtain ⟨found, hfound, hsame⟩ := Option.any_eq_true .. |>.mp h.2
          rw [hfound, filter_some, if_pos hsame] at hsplit
          cases hsplit
    · refine iff_of_true ?_ fun h => h.elim htight fun h => h.2.elim (fun h => hlate h) fun h => hlast h.1
      have hmax : max (minProgressIdx text fence s.start) (s.start + (contentLimit - (fence.closeLine.length + 1))) =
          s.start + (contentLimit - (fence.closeLine.length + 1)) := by omega
      rw [hmax]
      rcases split_eq_of_find hspans (i := s.start + (contentLimit - (fence.closeLine.length + 1))) hfence with hsplit | hsplit
      · rw [hsplit, length_closeFence, length_cutContent text s (by omega)]
        split <;> omega
      · rw [hsplit, closeFence, length_cutContent text s (by omega)]
        omega

/-- **A round's chunk fits exactly if the round is not tight.** -/
theorem markdownStep_fits_iff {chunk : Text} {next : Option ChunkState}
    (h : markdownStep text spans limit s = some (chunk, next)) :
    chunk.length ≤ limit ↔ ¬ Tight text spans limit s := by
  rw [markdownStep_eq] at h
  split at h
  case isFalse => cases h
  rename_i hlt
  have hpos := contentLimit_pos limit s.reopenFence
  by_cases hprefix : limit ≤ (reopenPrefix s.reopenFence).length
  · -- the opening line fills the chunk, and at least one unit follows
    refine iff_of_false ?_ fun h => h ⟨hlt, .inl hprefix⟩
    split at h
    · cases h
      rw [length_cutContent text s le_rfl]
      omega
    · cases h
      have hcut := @lt_markdownCut _ spans limit _ hlt
      have hclose := length_closeFence_le (cutContent text s (markdownCut text spans limit s).breakIdx)
        (markdownCut text spans limit s).fenceToSplit
      rw [cutContent, length_append, length_drop, length_take, ← cutContent] at hclose
      omega
  · have hlimit : (reopenPrefix s.reopenFence).length + contentLimit limit s.reopenFence = limit := by
      unfold contentLimit
      omega
    split at h
    · rename_i hrest
      cases h
      rw [length_cutContent text s le_rfl]
      exact iff_of_true (by omega) fun h => h.2.elim hprefix fun h => absurd h.1 (not_lt.mpr hrest)
    · rename_i hrest
      cases h
      simp only [Tight, hlt, hprefix, true_and, false_or, not_le.mp hrest, markdownCut, markdownBreak]
      cases hsoft : pickSafeBreakIndex text s.start (s.start + contentLimit limit s.reopenFence) spans with
      | some softBreak =>
        obtain ⟨hstart, hstop, hlength, -, -⟩ := pickSafeBreakIndex_some hsoft
        simp only [closeFence, length_cutContent text s hlength.le, reduceCtorEq, false_and, not_false_iff, iff_true]
        omega
      | none =>
        cases hfence : findFenceSpanAt spans (s.start + contentLimit limit s.reopenFence) with
        | none =>
          simp only [closeFence, length_cutContent text s (show s.start + contentLimit limit s.reopenFence ≤ text.length by omega),
            reduceCtorEq, false_and, exists_false, and_false, not_false_iff, iff_true]
          omega
        | some fence =>
          have hfits := closeFence_fits_iff hspans hmarks hpos (show s.start + contentLimit limit s.reopenFence < text.length by omega)
            hfence
          rw [hlimit] at hfits
          simpa only [Option.some.injEq, true_and, exists_eq_left'] using hfits

end

end Fits

/-- **Every chunk keeps to the limit exactly if the run has room at every cut.** -/
theorem chunkMarkdownText_fits_iff (text : Text) (limit : Nat) :
    (∀ c ∈ chunkMarkdownText text limit, c.length ≤ limit) ↔ RunsWithRoom text limit := by
  unfold chunkMarkdownText resolveChunkEarlyReturn RunsWithRoom
  by_cases htext : text = []
  · subst htext
    exact iff_of_true nofun (.inl (Nat.zero_le limit))
  by_cases hlimit : limit = 0
  · subst hlimit
    rw [if_neg htext, if_pos rfl, getD_some, forall_mem_singleton]
    exact ⟨.inl, fun h => h.resolve_right fun h => absurd h.1 (lt_irrefl 0)⟩
  by_cases hle : text.length ≤ limit
  · rw [if_neg htext, if_neg hlimit, if_pos hle, getD_some, forall_mem_singleton]
    exact iff_of_true hle (.inl hle)
  rw [if_neg htext, if_neg hlimit, if_neg hle, getD_none, forall_markdownChunks_iff, or_iff_right hle,
    and_iff_right (Nat.pos_of_ne_zero hlimit)]
  have hspans := parseFenceSpans_arranged text
  have hmarks := @parseFenceSpans_marker text
  refine forall_congr' fun s => imp_congr_right fun _ => ⟨fun h htight => ?_, fun h chunk next hstep => ?_⟩
  · have hstep := markdownStep_eq text (parseFenceSpans text) limit s
    rw [if_pos htight.1] at hstep
    obtain ⟨⟨chunk, next⟩, hsome⟩ : ∃ result, markdownStep text (parseFenceSpans text) limit s = some result := by
      split at hstep
      · exact ⟨_, hstep⟩
      · exact ⟨_, hstep⟩
    exact (markdownStep_fits_iff hspans hmarks hsome).mp (h chunk next hsome) htight
  · exact (markdownStep_fits_iff hspans hmarks hstep).mpr h

theorem mem_chunkMarkdownTextWithMode_newline {text : Text} {limit : Nat} {c : Text} :
    c ∈ chunkMarkdownTextWithMode text limit .newline ↔
      ∃ paragraph ∈ chunkByParagraph text limit false, c ∈ chunkMarkdownText paragraph limit := by
  have hnil : ∀ paragraph, chunkMarkdownText paragraph limit = [] → paragraph = [] := by
    intro paragraph h
    by_contra hne
    unfold chunkMarkdownText resolveChunkEarlyReturn at h
    split_ifs at h with hlimit hle
    · cases h
    · cases h
    · rw [getD_none, markdownChunks] at h
      have hstep := markdownStep_eq paragraph (parseFenceSpans paragraph) limit {}
      rw [if_pos (length_pos_of_ne_nil hne)] at hstep
      split at h
      · rename_i hnone
        rw [hnone] at hstep
        split at hstep <;> cases hstep
      · cases h
      · cases h
  rw [chunkMarkdownTextWithMode, mem_flatMap]
  refine exists_congr fun paragraph => and_congr_right fun _ => ?_
  simp only
  rw [if_neg fun h => h.2 (hnil paragraph h.1)]

/-- **The chunks of a text keep to the limit, in both modes, exactly if the run over the text and
the run over each of its paragraphs have room at every cut.** -/
theorem chunkMarkdownTextWithMode_fits_iff (text : Text) (limit : Nat) :
    ((∀ c ∈ chunkMarkdownText text limit, c.length ≤ limit) ∧
      ∀ mode, ∀ c ∈ chunkMarkdownTextWithMode text limit mode, c.length ≤ limit) ↔
      RunsWithRoom text limit ∧ ∀ paragraph ∈ chunkByParagraph text limit false, RunsWithRoom paragraph limit := by
  simp only [← chunkMarkdownText_fits_iff]
  refine and_congr_right fun htext => ⟨fun h paragraph hparagraph c hc => ?_, fun h mode => ?_⟩
  · exact h .newline c (mem_chunkMarkdownTextWithMode_newline.mpr ⟨paragraph, hparagraph, hc⟩)
  · cases mode with
    | length => exact htext
    | newline =>
      intro c hc
      obtain ⟨paragraph, hparagraph, hc⟩ := mem_chunkMarkdownTextWithMode_newline.mp hc
      exact h paragraph hparagraph c hc

/-- A block opens behind an open parenthesis and the window ends right behind its opening line:
there is no soft break, and no room to close the block. -/
theorem late_block_overflows :
    (∀ span ∈ parseFenceSpans (units "(aaaa\n```\nbbbb\n```"),
      span.openLine.length + span.indent.length + span.marker.length + 4 ≤ 10) ∧
      ¬ ((∀ c ∈ chunkMarkdownText (units "(aaaa\n```\nbbbb\n```") 10, c.length ≤ 10) ∧
        ∀ mode, ∀ c ∈ chunkMarkdownTextWithMode (units "(aaaa\n```\nbbbb\n```") 10 mode, c.length ≤ 10) := by
  refine ⟨by decide, fun h => ?_⟩
  have hlong := h.1 (units "(aaaa\n```\n```") (by decide +kernel)
  exact absurd hlong (by decide)

end OpenClaw.Markdown
