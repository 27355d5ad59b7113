import Mathlib.Data.List.Basic

/-! The newest of a list of stamped entries; among equals, the one listed last.

This is what a reader of a stable newest-first order takes from its head. The
lemmas say how the newest moves when the list grows at its end, when its entries
are rewritten under their stamps, and when others leave. -/
namespace OpenClaw.Foundation

open List

variable {α : Type*} (stamp : α → Int)

def newest : List α → Option α
  | [] => none
  | a :: rest =>
    match newest rest with
    | none => some a
    | some b => if stamp b < stamp a then some a else some b

@[simp] theorem newest_nil : newest stamp [] = none := rfl

theorem newest_cons_none {a : α} {rest : List α} (h : newest stamp rest = none) :
    newest stamp (a :: rest) = some a := by
  rw [newest, h]

theorem newest_cons_some {a b : α} {rest : List α} (h : newest stamp rest = some b) :
    newest stamp (a :: rest) = if stamp b < stamp a then some a else some b := by
  rw [newest, h]

theorem newest_eq_none {l : List α} : newest stamp l = none ↔ l = [] := by
  cases l with
  | nil => exact ⟨fun _ => rfl, fun _ => rfl⟩
  | cons a rest =>
    refine ⟨fun h => ?_, nofun⟩
    cases hr : newest stamp rest with
    | none =>
      rw [newest_cons_none stamp hr] at h
      cases h
    | some b =>
      rw [newest_cons_some stamp hr] at h
      split at h <;> cases h

theorem newest_mem {l : List α} {a : α} (h : newest stamp l = some a) : a ∈ l := by
  induction l generalizing a with
  | nil => cases h
  | cons b rest ih =>
    cases hr : newest stamp rest with
    | none =>
      rw [newest_cons_none stamp hr] at h
      cases h
      exact mem_cons_self
    | some c =>
      rw [newest_cons_some stamp hr] at h
      split at h
      · cases h
        exact mem_cons_self
      · cases h
        exact mem_cons_of_mem _ (ih hr)

/-- Nothing is newer than the newest. -/
theorem newest_le {l : List α} {a b : α} (h : newest stamp l = some a) (hb : b ∈ l) : stamp b ≤ stamp a := by
  induction l generalizing a with
  | nil => cases hb
  | cons c rest ih =>
    cases hr : newest stamp rest with
    | none =>
      rw [newest_cons_none stamp hr] at h
      rw [(newest_eq_none stamp).mp hr, mem_singleton] at hb
      cases h
      exact Int.le_of_eq (congrArg stamp hb)
    | some d =>
      rw [newest_cons_some stamp hr] at h
      rcases mem_cons.mp hb with rfl | hrest
      · split at h <;> cases h <;> omega
      · have hle := ih hr hrest
        split at h <;> cases h <;> omega

/-- What is put last is the newest unless something there is newer. -/
theorem newest_concat (l : List α) (a : α) :
    newest stamp (l ++ [a]) =
      match newest stamp l with
      | none => some a
      | some b => if stamp b ≤ stamp a then some a else some b := by
  induction l with
  | nil => rfl
  | cons c rest ih =>
    rw [cons_append]
    cases hr : newest stamp rest with
    | none =>
      rw [hr] at ih
      rw [newest_cons_some stamp ih, newest_cons_none stamp hr]
      dsimp only
      by_cases hlt : stamp a < stamp c
      · rw [if_pos hlt, if_neg (by omega)]
      · rw [if_neg hlt, if_pos (by omega)]
    | some b =>
      rw [hr] at ih
      rw [newest_cons_some stamp hr]
      dsimp only at ih
      by_cases hba : stamp b ≤ stamp a
      · rw [if_pos hba] at ih
        rw [newest_cons_some stamp ih]
        by_cases hbc : stamp b < stamp c
        · rw [if_pos hbc]
          dsimp only
          by_cases hac : stamp a < stamp c
          · rw [if_pos hac, if_neg (by omega)]
          · rw [if_neg hac, if_pos (by omega)]
        · rw [if_neg hbc, if_neg (by omega)]
          dsimp only
          rw [if_pos hba]
      · rw [if_neg hba] at ih
        rw [newest_cons_some stamp ih]
        by_cases hbc : stamp b < stamp c
        · rw [if_pos hbc]
          dsimp only
          rw [if_neg (by omega)]
        · rw [if_neg hbc]
          dsimp only
          rw [if_neg hba]

/-- Entries rewritten under their stamps: the newest is rewritten. -/
theorem newest_map {β : Type*} {stamp' : β → Int} {f : α → β} {l : List α}
    (hf : ∀ a ∈ l, stamp' (f a) = stamp a) : newest stamp' (l.map f) = (newest stamp l).map f := by
  induction l with
  | nil => rfl
  | cons a rest ih =>
    have ih := ih fun b hb => hf b (mem_cons_of_mem _ hb)
    rw [map_cons]
    cases hr : newest stamp rest with
    | none =>
      rw [hr] at ih
      rw [newest_cons_none stamp' ih, newest_cons_none stamp hr]
      rfl
    | some b =>
      rw [hr] at ih
      have hb := hf b (mem_cons_of_mem _ (newest_mem stamp hr))
      rw [newest_cons_some stamp' ih, newest_cons_some stamp hr, hf a mem_cons_self, hb]
      split <;> rfl

/-- Others leave: the newest stays. -/
theorem newest_filter {p : α → Bool} {l : List α} {a : α} (h : newest stamp l = some a) (ha : p a = true) :
    newest stamp (l.filter p) = some a := by
  induction l generalizing a with
  | nil => cases h
  | cons b rest ih =>
    cases hr : newest stamp rest with
    | none =>
      rw [newest_cons_none stamp hr] at h
      cases h
      rw [(newest_eq_none stamp).mp hr, filter_cons_of_pos ha]
      rfl
    | some c =>
      rw [newest_cons_some stamp hr] at h
      split at h
      · rename_i hlt
        cases h
        rw [filter_cons_of_pos ha]
        cases hf : newest stamp (rest.filter p) with
        | none => exact newest_cons_none stamp hf
        | some d =>
          have hd : stamp d ≤ stamp c := newest_le stamp hr (mem_of_mem_filter (newest_mem stamp hf))
          rw [newest_cons_some stamp hf, if_pos (by omega)]
      · rename_i hge
        cases h
        by_cases hb : p b = true
        · rw [filter_cons_of_pos hb, newest_cons_some stamp (ih hr ha), if_neg hge]
        · rw [filter_cons_of_neg hb]
          exact ih hr ha
end OpenClaw.Foundation
