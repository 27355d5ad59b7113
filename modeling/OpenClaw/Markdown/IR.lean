import Mathlib.Data.List.Sort
import OpenClaw.Markdown.TextChunking

/-! Styled texts and their slices.

A slice keeps the part of each span that lies in it, counted from its start, and joins
spans of one style that overlap or touch. Joining changes no style of any unit
(`styled_mergeStyleSpans`), so a unit has in a slice the styles it has in the text. -/
namespace OpenClaw.Markdown
open Foundation.CodeUnits List

inductive MarkdownStyle where
  | bold
  | italic
  | strikethrough
  | code
  | codeBlock
  | spoiler
  | blockquote
  deriving Repr, DecidableEq

/-- The place of a name among the names, as `localeCompare` sorts them. -/
def MarkdownStyle.rank : MarkdownStyle → Nat
  | blockquote => 0
  | bold => 1
  | code => 2
  | codeBlock => 3
  | italic => 4
  | spoiler => 5
  | strikethrough => 6

structure MarkdownStyleSpan where
  start : Nat
  stop : Nat
  style : MarkdownStyle
  deriving Repr, DecidableEq

structure MarkdownLinkSpan where
  start : Nat
  stop : Nat
  href : Text
  deriving Repr, DecidableEq

structure MarkdownIR where
  text : Text
  styles : List MarkdownStyleSpan := []
  links : List MarkdownLinkSpan := []
  deriving Repr, DecidableEq

/-! ### Slices -/

/-- The comparison of two spans is not positive. -/
def MarkdownStyleSpan.sortsBefore (a b : MarkdownStyleSpan) : Prop :=
  a.start < b.start ∨ a.start = b.start ∧ (a.stop < b.stop ∨ a.stop = b.stop ∧ a.style.rank ≤ b.style.rank)

instance (a b : MarkdownStyleSpan) : Decidable (a.sortsBefore b) := by
  unfold MarkdownStyleSpan.sortsBefore
  infer_instance

/-- Adjacent blockquotes stay apart. -/
def MarkdownStyleSpan.joins (prev span : MarkdownStyleSpan) : Bool :=
  prev.style = span.style && (decide (span.start < prev.stop) || span.start = prev.stop && span.style ≠ .blockquote)

/-- The loop, with `prev` the last span merged so far. -/
def mergeSortedSpans (prev : MarkdownStyleSpan) : List MarkdownStyleSpan → List MarkdownStyleSpan
  | [] => [prev]
  | span :: spans =>
    if prev.joins span then mergeSortedSpans { prev with stop := max prev.stop span.stop } spans
    else prev :: mergeSortedSpans span spans

def mergeStyleSpans (spans : List MarkdownStyleSpan) : List MarkdownStyleSpan :=
  match spans.insertionSort MarkdownStyleSpan.sortsBefore with
  | [] => []
  | span :: sorted => mergeSortedSpans span sorted

def resolveSliceBounds (spanStart spanStop start stop : Nat) : Option (Nat × Nat) :=
  let sliceStart := max spanStart start
  let sliceEnd := min spanStop stop
  if sliceEnd ≤ sliceStart then none else some (sliceStart, sliceEnd)

/-- The part of a span in a slice, counted from the start of the slice. -/
def MarkdownStyleSpan.slice (start stop : Nat) (span : MarkdownStyleSpan) : Option MarkdownStyleSpan :=
  (resolveSliceBounds span.start span.stop start stop).map fun bounds =>
    { span with start := bounds.1 - start, stop := bounds.2 - start }

def MarkdownLinkSpan.slice (start stop : Nat) (span : MarkdownLinkSpan) : Option MarkdownLinkSpan :=
  (resolveSliceBounds span.start span.stop start stop).map fun bounds =>
    { span with start := bounds.1 - start, stop := bounds.2 - start }

def sliceStyleSpans (spans : List MarkdownStyleSpan) (start stop : Nat) : List MarkdownStyleSpan :=
  if spans = [] then [] else mergeStyleSpans (spans.filterMap (·.slice start stop))

def sliceLinkSpans (spans : List MarkdownLinkSpan) (start stop : Nat) : List MarkdownLinkSpan :=
  if spans = [] then [] else spans.filterMap (·.slice start stop)

def sliceMarkdownIR (ir : MarkdownIR) (start stop : Nat) : MarkdownIR where
  text := (ir.text.take stop).drop start
  styles := sliceStyleSpans ir.styles start stop
  links := sliceLinkSpans ir.links start stop

/-! ### Chunks -/

/-- The first place from `cursor` on without white space. -/
def skipWhiteSpace (text : Text) (cursor : Nat) : Nat :=
  cursor + ((text.drop cursor).takeWhile isWhiteSpace).length

/-- The slices for the chunks from number `index` on. -/
def chunkSlices (ir : MarkdownIR) : Nat → Nat → List Text → List MarkdownIR
  | _, _, [] => []
  | index, cursor, chunk :: chunks =>
    if chunk = [] then chunkSlices ir (index + 1) cursor chunks
    else
      let start := if 0 < index then skipWhiteSpace ir.text cursor else cursor
      let stop := min ir.text.length (start + chunk.length)
      ⟨chunk, sliceStyleSpans ir.styles start stop, sliceLinkSpans ir.links start stop⟩ ::
        chunkSlices ir (index + 1) stop chunks

def chunkMarkdownIR (ir : MarkdownIR) (limit : Nat) : List MarkdownIR :=
  if ir.text = [] then []
  else if limit = 0 ∨ ir.text.length ≤ limit then [ir]
  else chunkSlices ir 0 0 (chunkText ir.text limit)

example : chunkMarkdownIR ⟨units "ab cd", [⟨1, 4, .bold⟩], []⟩ 2 =
    [⟨units "ab", [⟨1, 2, .bold⟩], []⟩, ⟨units "cd", [⟨0, 1, .bold⟩], []⟩] := by decide +kernel

/-! ### What is styled -/

/-- Some span gives the unit at place `i` the style. -/
def Styled (spans : List MarkdownStyleSpan) (style : MarkdownStyle) (i : Nat) : Prop :=
  ∃ span ∈ spans, span.style = style ∧ span.start ≤ i ∧ i < span.stop

variable {spans : List MarkdownStyleSpan} {style : MarkdownStyle} {i : Nat}

theorem styled_cons {span : MarkdownStyleSpan} :
    Styled (span :: spans) style i ↔ (span.style = style ∧ span.start ≤ i ∧ i < span.stop) ∨ Styled spans style i := by
  simp only [Styled, mem_cons, exists_eq_or_imp]

theorem not_styled_nil : ¬ Styled [] style i := fun ⟨_, h, _⟩ => nomatch h

theorem styled_congr {spans' : List MarkdownStyleSpan} (h : ∀ span, span ∈ spans ↔ span ∈ spans') :
    Styled spans style i ↔ Styled spans' style i := by
  simp only [Styled, h]

theorem MarkdownStyleSpan.joins_iff {prev span : MarkdownStyleSpan} : prev.joins span = true →
    prev.style = span.style ∧ span.start ≤ prev.stop := by
  simp only [joins, Bool.and_eq_true, Bool.or_eq_true, decide_eq_true_eq]
  rintro ⟨hstyle, hlt | ⟨heq, -⟩⟩
  · exact ⟨hstyle, hlt.le⟩
  · exact ⟨hstyle, heq.le⟩

/-- Joining two spans covers what they cover. -/
theorem styled_mergeSortedSpans {prev : MarkdownStyleSpan}
    (h : (prev :: spans).Pairwise fun a b => a.start ≤ b.start) :
    Styled (mergeSortedSpans prev spans) style i ↔ Styled (prev :: spans) style i := by
  induction spans generalizing prev with
  | nil => rfl
  | cons span spans ih =>
    obtain ⟨hprev, hspans⟩ := pairwise_cons.mp h
    have hstart := hprev span mem_cons_self
    unfold mergeSortedSpans
    split
    · rename_i hjoins
      obtain ⟨hstyle, hstop⟩ := MarkdownStyleSpan.joins_iff hjoins
      have hmerged : ({ prev with stop := max prev.stop span.stop } :: spans).Pairwise fun a b => a.start ≤ b.start :=
        pairwise_cons.mpr ⟨fun b hb => hprev b (mem_cons_of_mem _ hb), (pairwise_cons.mp hspans).2⟩
      rw [ih hmerged]
      simp only [styled_cons, ← or_assoc, hstyle, ← and_or_left]
      refine or_congr_left (and_congr_right fun _ => ?_)
      omega
    · rw [styled_cons, styled_cons, ih hspans]

theorem sortsBefore_trans {a b c : MarkdownStyleSpan} (hab : a.sortsBefore b) (hbc : b.sortsBefore c) : a.sortsBefore c := by
  unfold MarkdownStyleSpan.sortsBefore at *
  omega

theorem sortsBefore_total (a b : MarkdownStyleSpan) : a.sortsBefore b ∨ b.sortsBefore a := by
  unfold MarkdownStyleSpan.sortsBefore
  omega

/-- **Merging spans changes no unit's styles.** -/
theorem styled_mergeStyleSpans :
    Styled (mergeStyleSpans spans) style i ↔ Styled spans style i := by
  have : Std.Total MarkdownStyleSpan.sortsBefore := ⟨sortsBefore_total⟩
  have : IsTrans MarkdownStyleSpan MarkdownStyleSpan.sortsBefore := ⟨fun _ _ _ => sortsBefore_trans⟩
  have hmem : ∀ span, span ∈ spans.insertionSort MarkdownStyleSpan.sortsBefore ↔ span ∈ spans := fun span =>
    (perm_insertionSort MarkdownStyleSpan.sortsBefore spans).mem_iff
  have hsorted := pairwise_insertionSort MarkdownStyleSpan.sortsBefore spans
  rw [← styled_congr hmem, mergeStyleSpans]
  cases hspans : spans.insertionSort MarkdownStyleSpan.sortsBefore with
  | nil => rfl
  | cons span sorted =>
    rw [hspans] at hsorted
    refine styled_mergeSortedSpans (hsorted.imp fun {a b} hab => ?_)
    unfold MarkdownStyleSpan.sortsBefore at hab
    omega

theorem resolveSliceBounds_eq (spanStart spanStop start stop : Nat) :
    resolveSliceBounds spanStart spanStop start stop =
      if max spanStart start < min spanStop stop then some (max spanStart start, min spanStop stop) else none := by
  simp only [resolveSliceBounds, ← not_lt, ite_not]

theorem styled_filterMap_slice {start stop : Nat} :
    Styled (spans.filterMap (·.slice start stop)) style i ↔ start + i < stop ∧ Styled spans style (start + i) := by
  constructor
  · rintro ⟨span, hspan, hstyle, hstart, hstop⟩
    obtain ⟨whole, hwhole, hslice⟩ := mem_filterMap.mp hspan
    rw [MarkdownStyleSpan.slice, resolveSliceBounds_eq] at hslice
    split at hslice
    · cases hslice
      exact ⟨by simp only at hstop; omega, whole, hwhole, hstyle, by simp only at hstart; omega, by simp only at hstop; omega⟩
    · cases hslice
  · rintro ⟨hlt, whole, hwhole, hstyle, hstart, hstop⟩
    refine ⟨⟨max whole.start start - start, min whole.stop stop - start, whole.style⟩, mem_filterMap.mpr ⟨whole, hwhole, ?_⟩,
      hstyle, by simp only; omega, by simp only; omega⟩
    rw [MarkdownStyleSpan.slice, resolveSliceBounds_eq, if_pos (by omega)]
    rfl

/-- **A unit has in a slice the styles it has in the text.** -/
theorem styled_sliceStyleSpans {start stop : Nat} :
    Styled (sliceStyleSpans spans start stop) style i ↔ start + i < stop ∧ Styled spans style (start + i) := by
  unfold sliceStyleSpans
  split
  · rename_i hnil
    rw [hnil]
    exact ⟨fun h => absurd h not_styled_nil, fun h => absurd h.2 not_styled_nil⟩
  · rw [styled_mergeStyleSpans, styled_filterMap_slice]

theorem sliceLinkSpans_eq (spans : List MarkdownLinkSpan) (start stop : Nat) :
    sliceLinkSpans spans start stop = spans.filterMap (·.slice start stop) := by
  unfold sliceLinkSpans
  split
  · rename_i hnil
    rw [hnil]
    rfl
  · rfl

end OpenClaw.Markdown
