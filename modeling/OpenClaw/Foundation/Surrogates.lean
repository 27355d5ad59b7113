import Mathlib.Data.List.Chain
import OpenClaw.Foundation.CodeUnits

/-! Texts as bytes.

A character outside the basic plane is two code units, and four bytes. A cut between the two
leaves halves that are written as three bytes each. -/
namespace OpenClaw.Foundation.CodeUnits

open List

def isSurrogatePair (a b : UInt16) : Bool := 0xD800 ≤ a && a ≤ 0xDBFF && 0xDC00 ≤ b && b ≤ 0xDFFF

/-- No two units of the text are one character. -/
abbrev PairFree (text : Text) : Prop := text.IsChain (isSurrogatePair · · = false)

/-- A cut between the two texts falls inside a character. -/
def splitsPair (a b : Text) : Bool := a.getLast?.any fun high => b.head?.any (isSurrogatePair high)

/-- `Buffer.byteLength(text, "utf8")`, where a lone half counts as the replacement character. -/
def utf8ByteLength : Text → Nat
  | [] => 0
  | [a] => unitBytes a
  | a :: b :: rest =>
    if isSurrogatePair a b then 4 + utf8ByteLength rest else unitBytes a + utf8ByteLength (b :: rest)
where
  unitBytes (a : UInt16) : Nat := if a < 0x80 then 1 else if a < 0x800 then 2 else 3

theorem unitBytes_le (a : UInt16) : utf8ByteLength.unitBytes a ≤ 3 := by
  unfold utf8ByteLength.unitBytes
  split_ifs <;> decide

/-- A longer text is no fewer bytes, also where it completes a pair. -/
theorem utf8ByteLength_le_append (a b : Text) : utf8ByteLength a ≤ utf8ByteLength (a ++ b) := by
  fun_induction utf8ByteLength a with
  | case1 => exact Nat.zero_le _
  | case2 a =>
    have hunit := unitBytes_le a
    cases b with
    | nil => exact le_rfl
    | cons b rest =>
      rw [singleton_append, utf8ByteLength]
      split_ifs <;> omega
  | case3 a c rest hpair ih =>
    rw [cons_append, cons_append, utf8ByteLength, if_pos hpair]
    exact Nat.add_le_add_left ih 4
  | case4 a c rest hpair ih =>
    rw [cons_append, cons_append, utf8ByteLength, if_neg hpair]
    exact Nat.add_le_add_left ih _

/-- Less than four bytes have no room for a pair. -/
theorem pairFree_of_bytes {text : Text} (h : utf8ByteLength text < 4) : PairFree text := by
  fun_induction utf8ByteLength text with
  | case1 => exact .nil
  | case2 a => exact .singleton a
  | case3 => omega
  | case4 a b rest hpair ih => exact .cons_cons (eq_false_of_ne_true hpair) (ih (by omega))

theorem pairFree_append {a b : Text} : PairFree (a ++ b) ↔ PairFree a ∧ PairFree b ∧ splitsPair a b = false := by
  simp only [PairFree, isChain_append, splitsPair, Option.any_eq_false, Option.mem_def]

theorem splitsPair_iff {a b : Text} : splitsPair a b = true ↔
    ∃ before high low after, a = before ++ [high] ∧ b = low :: after ∧ isSurrogatePair high low = true := by
  constructor
  · intro h
    obtain ⟨high, hhigh, h⟩ := (Option.any_eq_true ..).mp h
    obtain ⟨low, hlow, hpair⟩ := (Option.any_eq_true ..).mp h
    obtain ⟨before, rfl⟩ := getLast?_eq_some_iff.mp hhigh
    obtain ⟨after, rfl⟩ := head?_eq_some_iff.mp hlow
    exact ⟨before, high, low, after, rfl, rfl, hpair⟩
  · rintro ⟨before, high, low, after, rfl, rfl, hpair⟩
    rw [splitsPair, getLast?_append]
    exact hpair

/-- No unit both ends one pair and begins another. -/
theorem splitsPair_before {before after : Text} {high low : UInt16} (h : isSurrogatePair high low = true) :
    splitsPair before (high :: after) = false := by
  rw [Bool.eq_false_iff]
  intro hsplit
  obtain ⟨_, first, second, _, -, hcons, hpair⟩ := splitsPair_iff.mp hsplit
  obtain ⟨rfl, -⟩ := cons.inj hcons
  simp only [isSurrogatePair, Bool.and_eq_true, decide_eq_true_eq] at h hpair
  exact absurd (UInt16.le_trans hpair.1.2 h.1.1.2) (by decide)

example : utf8ByteLength (units "é😀") = 6 := by decide

end OpenClaw.Foundation.CodeUnits
