import Mathlib.Algebra.GroupWithZero.Nat
import Mathlib.Data.List.SplitOn
import OpenClaw.Foundation.CodeUnits

/-! Fenced blocks of a text.

A line of up to three blanks and at least three backticks or tildes opens a block; the next
such line with the same mark, at least as long, closes it. A span runs from the start of the
opening line to the end of the closing one, or to the end of the text. -/
namespace OpenClaw.Markdown
open Foundation.CodeUnits List

structure FenceSpan where
  start : Nat
  stop : Nat
  openLine : Text
  marker : Text
  indent : Text
  deriving Repr, DecidableEq

structure FenceLine where
  indent : Text
  marker : Text
  deriving Repr, DecidableEq

/-- What `.` does not match. -/
def isLineTerminator (c : UInt16) : Bool := c ∈ [0x0A, 0x0D, 0x2028, 0x2029]

/-- The match of a line that opens or closes a block. -/
def matchFenceLine (line : Text) : Option FenceLine :=
  let indent := line.takeWhile (· = space)
  let rest := line.dropWhile (· = space)
  match rest with
  | [] => none
  | markerChar :: _ =>
    let marker := rest.takeWhile (· = markerChar)
    if indent.length ≤ 3 ∧ (markerChar = backtick ∨ markerChar = tilde) ∧ 3 ≤ marker.length ∧
        (rest.drop marker.length).all (! isLineTerminator ·) then some ⟨indent, marker⟩
    else none

structure OpenFence where
  start : Nat
  openLine : Text
  line : FenceLine
  deriving Repr, DecidableEq

def OpenFence.span (fence : OpenFence) (stop : Nat) : FenceSpan :=
  ⟨fence.start, stop, fence.openLine, fence.line.marker, fence.line.indent⟩

/-- The line closes the block. -/
def OpenFence.closedBy (fence : OpenFence) (line : FenceLine) : Bool :=
  fence.line.marker.head? = line.marker.head? && fence.line.marker.length ≤ line.marker.length

/-- The loop over the lines from `offset` on. -/
def scanFenceLines (bufferLength : Nat) : Nat → Option OpenFence → List Text → List FenceSpan
  | _, fence, [] => (fence.map (·.span bufferLength)).toList
  | offset, fence, line :: lines =>
    let lineEnd := offset + line.length
    match matchFenceLine line, fence with
    | none, fence => scanFenceLines bufferLength (lineEnd + 1) fence lines
    | some found, none => scanFenceLines bufferLength (lineEnd + 1) (some ⟨offset, line, found⟩) lines
    | some found, some fence =>
      if fence.closedBy found then fence.span lineEnd :: scanFenceLines bufferLength (lineEnd + 1) none lines
      else scanFenceLines bufferLength (lineEnd + 1) (some fence) lines

def parseFenceSpans (buffer : Text) : List FenceSpan :=
  scanFenceLines buffer.length 0 none (buffer.splitOn newline)

/-- The binary search, `high` being one more than the source's. -/
def searchFenceSpan (spans : List FenceSpan) (index low high : Nat) : Option FenceSpan :=
  if low < high then
    let mid := (low + (high - 1)) / 2
    match spans[mid]? with
    | none => none
    | some span =>
      if index ≤ span.start then searchFenceSpan spans index low mid
      else if span.stop ≤ index then searchFenceSpan spans index (mid + 1) high
      else some span
  else none
termination_by high - low

def findFenceSpanAt (spans : List FenceSpan) (index : Nat) : Option FenceSpan :=
  searchFenceSpan spans index 0 spans.length

def isSafeFenceBreak (spans : List FenceSpan) (index : Nat) : Bool := (findFenceSpanAt spans index).isNone

example : (parseFenceSpans (units "a\n```js\nb\n```\nc")).map (fun s => (s.start, s.stop)) = [(2, 13)] := by decide

/-! ### The lines -/

section Lines
variable {bufferLength offset : Nat} {line : Text} {lines : List Text} {found : FenceLine}

theorem scanFenceLines_plain (fence : Option OpenFence) (h : matchFenceLine line = none) :
    scanFenceLines bufferLength offset fence (line :: lines) =
      scanFenceLines bufferLength (offset + line.length + 1) fence lines := by
  simp only [scanFenceLines, h]

theorem scanFenceLines_opens (h : matchFenceLine line = some found) :
    scanFenceLines bufferLength offset none (line :: lines) =
      scanFenceLines bufferLength (offset + line.length + 1) (some ⟨offset, line, found⟩) lines := by
  simp only [scanFenceLines, h]

theorem scanFenceLines_fenced (fence : OpenFence) (h : matchFenceLine line = some found) :
    scanFenceLines bufferLength offset (some fence) (line :: lines) =
      if fence.closedBy found then
        fence.span (offset + line.length) :: scanFenceLines bufferLength (offset + line.length + 1) none lines
      else scanFenceLines bufferLength (offset + line.length + 1) (some fence) lines := by
  simp only [scanFenceLines, h]

end Lines

/-! ### The marks -/

theorem matchFenceLine_marker {line : Text} {found : FenceLine} (h : matchFenceLine line = some found) :
    3 ≤ found.marker.length := by
  simp only [matchFenceLine] at h
  split at h
  · cases h
  · split at h
    · rename_i hfence
      cases h
      exact hfence.2.2.1
    · cases h

theorem scanFenceLines_marker {bufferLength offset : Nat} {fence : Option OpenFence} {lines : List Text}
    (h : ∀ f ∈ fence, 3 ≤ f.line.marker.length) : ∀ span ∈ scanFenceLines bufferLength offset fence lines, 3 ≤ span.marker.length := by
  induction lines generalizing offset fence with
  | nil =>
    intro span hspan
    cases fence with
    | none => cases hspan
    | some f =>
      rw [mem_singleton.mp hspan]
      exact h f rfl
  | cons line lines ih =>
    cases hfound : matchFenceLine line with
    | none =>
      rw [scanFenceLines_plain fence hfound]
      exact ih h
    | some found =>
      cases fence with
      | none =>
        rw [scanFenceLines_opens hfound]
        exact ih fun f hf => by
          cases hf
          exact matchFenceLine_marker hfound
      | some fence =>
        rw [scanFenceLines_fenced fence hfound]
        split
        · exact forall_mem_cons.mpr ⟨h fence rfl, ih fun _ h => by cases h⟩
        · exact ih h

/-- The mark of a block is at least three units long. -/
theorem parseFenceSpans_marker {text : Text} : ∀ span ∈ parseFenceSpans text, 3 ≤ span.marker.length :=
  scanFenceLines_marker (fun _ h => by cases h)

/-! ### The places -/

/-- The length of a text with these lines, and a line break behind the last. -/
def linesLength (lines : List Text) : Nat := (lines.map (·.length + 1)).sum

theorem linesLength_cons (line : Text) (lines : List Text) :
    linesLength (line :: lines) = line.length + 1 + linesLength lines := by
  rw [linesLength, map_cons, sum_cons, ← linesLength]

theorem linesLength_splitOn (text : Text) : linesLength (text.splitOn newline) = text.length + 1 := by
  induction text with
  | nil => rfl
  | cons c text ih =>
    rw [List.splitOn, splitOnP_cons, ← List.splitOn]
    split
    · rw [linesLength_cons, ih, length_cons, length_nil]
      omega
    · obtain ⟨line, lines, h⟩ := exists_cons_of_ne_nil (splitOnP_ne_nil (· == newline) text)
      rw [List.splitOn] at ih ⊢
      rw [h] at ih ⊢
      rw [linesLength_cons] at ih
      rw [modifyHead_cons, linesLength_cons, length_cons, length_cons]
      omega

/-- The blocks lie behind one another, each at least as long as its opening line. -/
structure Arranged (spans : List FenceSpan) (offset bufferLength : Nat) : Prop where
  apart : spans.Pairwise fun a b => a.stop < b.start
  bounds : ∀ span ∈ spans, offset ≤ span.start ∧ span.start + span.openLine.length ≤ span.stop ∧ span.stop ≤ bufferLength

theorem Arranged.mono {spans : List FenceSpan} {a b bufferLength : Nat} (h : Arranged spans b bufferLength) (hab : a ≤ b) :
    Arranged spans a bufferLength :=
  ⟨h.apart, fun span hspan => ⟨hab.trans (h.bounds span hspan).1, (h.bounds span hspan).2⟩⟩

theorem scanFenceLines_arranged {bufferLength offset : Nat} {fence : Option OpenFence} {lines : List Text}
    (hlength : offset + linesLength lines = bufferLength + 1)
    (hfence : ∀ f ∈ fence, f.start + f.openLine.length < offset) :
    Arranged (scanFenceLines bufferLength offset fence lines) ((fence.map (·.start)).getD offset) bufferLength := by
  induction lines generalizing offset fence with
  | nil =>
    rw [linesLength, map_nil, sum_nil] at hlength
    cases fence with
    | none => exact ⟨.nil, nofun⟩
    | some f =>
      have hf := hfence f rfl
      refine ⟨pairwise_singleton .., fun span hspan => ?_⟩
      rw [mem_singleton.mp hspan]
      exact ⟨le_rfl, by simp only [OpenFence.span]; omega, le_rfl⟩
  | cons line lines ih =>
    rw [linesLength_cons] at hlength
    cases hfound : matchFenceLine line with
    | none =>
      rw [scanFenceLines_plain fence hfound]
      have hrest := @ih (offset + line.length + 1) fence (by omega) fun f hf =>
        (hfence f hf).trans_le (by omega)
      refine hrest.mono ?_
      cases fence with
      | none => exact (Nat.le_add_right _ _).trans (Nat.le_succ _)
      | some f => exact le_rfl
    | some found =>
      cases fence with
      | none =>
        rw [scanFenceLines_opens hfound]
        exact @ih (offset + line.length + 1) (some ⟨offset, line, found⟩) (by omega) fun f hf => by
          cases hf
          exact Nat.lt_succ_self _
      | some fence =>
        have hf := hfence fence rfl
        rw [scanFenceLines_fenced fence hfound]
        split
        · obtain ⟨hapart, hbounds⟩ := @ih (offset + line.length + 1) none (by omega)
            (fun _ h => by cases h)
          simp only [Option.map_none, Option.getD_none] at hbounds
          refine ⟨pairwise_cons.mpr ⟨fun span hspan => (hbounds span hspan).1, hapart⟩, fun span hspan => ?_⟩
          rcases mem_cons.mp hspan with rfl | hspan
          · exact ⟨le_rfl, by simp only [OpenFence.span]; omega, by simp only [OpenFence.span]; omega⟩
          · have := hbounds span hspan
            simp only [Option.map_some, Option.getD_some]
            omega
        · exact @ih (offset + line.length + 1) (some fence) (by omega) fun f hf' => by
            cases hf'
            exact hf.trans_le (by omega)

/-- **The blocks of a text are arranged in it.** -/
theorem parseFenceSpans_arranged (text : Text) : Arranged (parseFenceSpans text) 0 text.length :=
  scanFenceLines_arranged (by rw [linesLength_splitOn, Nat.zero_add]) (fun _ h => by cases h)

/-- A block is known by where it starts. -/
theorem Arranged.eq_of_start {spans : List FenceSpan} {offset bufferLength : Nat} (h : Arranged spans offset bufferLength)
    {a b : FenceSpan} (ha : a ∈ spans) (hb : b ∈ spans) (hstart : a.start = b.start) : a = b := by
  have hapart : ∀ x ∈ spans, ∀ y ∈ spans, x.stop < y.start → x.start ≠ y.start := fun x hx y _ hxy => by
    have := (h.bounds x hx).2.1
    omega
  have hall : ∀ x ∈ spans, ∀ y ∈ spans, x.start = y.start → x = y := by
    have hflip : spans.Pairwise (flip fun x y : FenceSpan => x.start = y.start → x = y) :=
      h.apart.imp_of_mem fun hx hy hxy heq => absurd heq.symm (hapart _ hx _ hy hxy)
    have hpair : spans.Pairwise fun x y : FenceSpan => x.start = y.start → x = y :=
      h.apart.imp_of_mem fun hx hy hxy heq => absurd heq (hapart _ hx _ hy hxy)
    exact fun x hx y hy => List.Pairwise.forall_of_forall_of_flip (fun _ _ _ => rfl) hpair hflip hx hy
  exact hall a ha b hb hstart

/-! ### The search -/

theorem searchFenceSpan_some {spans : List FenceSpan} {index low high : Nat} {span : FenceSpan}
    (h : searchFenceSpan spans index low high = some span) : span ∈ spans ∧ span.start < index ∧ index < span.stop := by
  fun_induction searchFenceSpan spans index low high with
  | case2 low high hlt mid found hfound hle ih | case3 low high hlt mid found hfound hgt hle ih => exact ih h
  | case4 low high hlt mid found hfound hgt hlt' =>
    cases h
    exact ⟨mem_of_getElem? hfound, by omega, by omega⟩
  | _ => cases h

/-- The block that is found has the index inside. -/
theorem findFenceSpanAt_some {spans : List FenceSpan} {index : Nat} {span : FenceSpan}
    (h : findFenceSpanAt spans index = some span) : span ∈ spans ∧ span.start < index ∧ index < span.stop :=
  searchFenceSpan_some h

end OpenClaw.Markdown
