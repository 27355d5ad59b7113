import Mathlib.Data.List.DropRight

/-! Pieces of a list with something skippable between them.

`Spaced p pieces l` says that `l` is the pieces in order, and before, between and behind
them only elements with `p`. Whatever cuts a list up by dropping such elements loses nothing
else: the elements without `p` are those of the pieces (`Spaced.filter_flatten`). -/
namespace OpenClaw.Foundation

open List

variable {α : Type*} {p : α → Bool}

/-- Only elements with `p`. -/
def Gap (p : α → Bool) (l : List α) : Prop := ∀ x ∈ l, p x = true

instance (l : List α) : Decidable (Gap p l) := inferInstanceAs (Decidable (∀ x ∈ l, p x = true))

inductive Spaced (p : α → Bool) : List (List α) → List α → Prop
  | done {gap : List α} (h : Gap p gap) : Spaced p [] gap
  | piece {gap piece rest : List α} {pieces : List (List α)} (h : Gap p gap) (hrest : Spaced p pieces rest) :
      Spaced p (piece :: pieces) (gap ++ (piece ++ rest))

theorem gap_nil : Gap p [] := fun _ h => nomatch h

theorem Gap.append {a b : List α} (ha : Gap p a) (hb : Gap p b) : Gap p (a ++ b) := fun x hx =>
  (mem_append.mp hx).elim (ha x) (hb x)

theorem gap_takeWhile (l : List α) : Gap p (l.takeWhile p) := fun _ hx => mem_takeWhile_imp hx

theorem gap_rtakeWhile (l : List α) : Gap p (l.rtakeWhile p) := fun _ hx => mem_rtakeWhile_imp hx

theorem Gap.filter {l : List α} (h : Gap p l) : l.filter (! p ·) = [] := by
  rw [filter_eq_nil_iff]
  intro x hx
  simp [h x hx]

theorem gap_iff_filter {l : List α} : Gap p l ↔ l.filter (! p ·) = [] := by
  simp only [Gap, filter_eq_nil_iff, Bool.not_eq_true', Bool.not_eq_false]

theorem rdropWhile_append_rtakeWhile (l : List α) : l.rdropWhile p ++ l.rtakeWhile p = l := by
  rw [List.rdropWhile, List.rtakeWhile, ← reverse_append, takeWhile_append_dropWhile, reverse_reverse]

/-- Dropping elements with `p` in front keeps the rest. -/
theorem filter_dropWhile (l : List α) : (l.dropWhile p).filter (! p ·) = l.filter (! p ·) := by
  conv_rhs => rw [← takeWhile_append_dropWhile (p := p) (l := l)]
  rw [filter_append, (gap_takeWhile l).filter, nil_append]

theorem filter_rdropWhile (l : List α) : (l.rdropWhile p).filter (! p ·) = l.filter (! p ·) := by
  conv_rhs => rw [← rdropWhile_append_rtakeWhile (p := p) l]
  rw [filter_append, (gap_rtakeWhile l).filter, append_nil]

theorem rdropWhile_eq_nil {l : List α} : l.rdropWhile p = [] ↔ Gap p l := by
  rw [rdropWhile_eq_nil_iff]
  rfl

theorem dropWhile_eq_nil {l : List α} : l.dropWhile p = [] ↔ Gap p l := by
  rw [dropWhile_eq_nil_iff]
  rfl

namespace Spaced

theorem single (l : List α) : Spaced p [l] l := by
  have h : Spaced p [l] ([] ++ (l ++ [])) := .piece gap_nil (.done gap_nil)
  rwa [nil_append, append_nil] at h

/-- A gap in front. -/
theorem gap_append {gap l : List α} {pieces : List (List α)} (hgap : Gap p gap) (h : Spaced p pieces l) :
    Spaced p pieces (gap ++ l) := by
  cases h with
  | done h => exact .done (hgap.append h)
  | piece h hrest =>
    rw [← append_assoc]
    exact .piece (hgap.append h) hrest

/-- One piece in front, with a gap on either side. -/
theorem cons {gap piece gap' rest : List α} {pieces : List (List α)} (h : Gap p gap) (h' : Gap p gap')
    (hrest : Spaced p pieces rest) : Spaced p (piece :: pieces) (gap ++ (piece ++ (gap' ++ rest))) :=
  .piece h (hrest.gap_append h')

theorem filter_flatten {l : List α} {pieces : List (List α)} (h : Spaced p pieces l) :
    pieces.flatten.filter (! p ·) = l.filter (! p ·) := by
  induction h with
  | done h => rw [h.filter, flatten_nil, filter_nil]
  | piece h hrest ih =>
    rw [flatten_cons, filter_append, filter_append, filter_append, h.filter, ih, nil_append]

end Spaced

end OpenClaw.Foundation
