import Mathlib.Data.List.Forall2

/-! Fallible steps: a sequence of them succeeds when each does, and a fallible function
over a list when it succeeds everywhere. -/
namespace OpenClaw.Foundation

open List

variable {α β ε : Type}

theorem bind_ok_iff {x : Except ε α} {f : α → Except ε β} {b : β} :
    (x >>= f) = .ok b ↔ ∃ a, x = .ok a ∧ f a = .ok b := by
  cases x with
  | error e => exact ⟨nofun, fun ⟨_, h, _⟩ => nomatch h⟩
  | ok a => exact ⟨fun h => ⟨a, rfl, h⟩, fun ⟨_, rfl, h⟩ => h⟩

theorem mapM_ok_iff {f : α → Except ε β} {l : List α} {r : List β} :
    l.mapM f = .ok r ↔ List.Forall₂ (fun a b => f a = .ok b) l r := by
  induction l generalizing r with
  | nil =>
    rw [mapM_nil, forall₂_nil_left_iff]
    constructor
    · intro h
      exact (Except.ok.inj h).symm
    · rintro rfl
      rfl
  | cons a rest ih =>
    rw [mapM_cons]
    cases ha : f a with
    | error e =>
      constructor
      · intro h
        cases h
      · intro h
        cases h with
        | cons hb _ => rw [ha] at hb; cases hb
    | ok b =>
      cases hrest : rest.mapM f with
      | error e =>
        constructor
        · intro h
          cases h
        · intro h
          cases h with
          | cons _ htail => rw [ih.mpr htail] at hrest; cases hrest
      | ok bs =>
        constructor
        · intro h
          cases h
          exact .cons ha (ih.mp hrest)
        · intro h
          cases h with
          | cons hb htail =>
            rw [ih.mpr htail] at hrest
            rw [ha] at hb
            cases hb
            cases hrest
            rfl

theorem mapM_some_iff {f : α → Option β} {l : List α} {r : List β} :
    l.mapM f = some r ↔ List.Forall₂ (fun a b => f a = some b) l r := by
  induction l generalizing r with
  | nil => simp [eq_comm]
  | cons a rest ih =>
    rw [mapM_cons]
    cases ha : f a with
    | none => simp [forall₂_cons_left_iff, ha]
    | some b =>
      cases hrest : rest.mapM f with
      | none =>
        simp only [forall₂_cons_left_iff, ← ih, hrest, Option.bind_eq_bind, Option.bind_some, Option.bind_none,
          reduceCtorEq, false_and, and_false, exists_false]
      | some bs =>
        simp only [forall₂_cons_left_iff, ← ih, hrest, ha, Option.bind_eq_bind, Option.bind_some,
          Option.some.injEq, Option.pure_def]
        constructor
        · rintro rfl
          exact ⟨b, bs, rfl, rfl, rfl⟩
        · rintro ⟨b', bs', rfl, rfl, rfl⟩
          rfl

theorem forall₂_exists_left {R : α → β → Prop} {l : List α} {r : List β} (h : List.Forall₂ R l r) {b : β}
    (hb : b ∈ r) : ∃ a ∈ l, R a b := by
  induction h with
  | nil => cases hb
  | cons hab _ ih =>
    rcases mem_cons.mp hb with rfl | hb
    · exact ⟨_, mem_cons_self .., hab⟩
    · obtain ⟨a, ha, hR⟩ := ih hb
      exact ⟨a, mem_cons_of_mem _ ha, hR⟩

/-- What a fallible function has given over a list. -/
theorem mem_of_mapM_some {f : α → Option β} {l : List α} {r : List β} (h : l.mapM f = some r) {b : β} :
    b ∈ r ↔ ∃ a ∈ l, f a = some b := by
  constructor
  · exact forall₂_exists_left (mapM_some_iff.mp h)
  · rintro ⟨a, ha, hb⟩
    obtain ⟨b', hb', hf⟩ := forall₂_exists_left (List.Forall₂.flip (mapM_some_iff.mp h)) ha
    rw [hb] at hf
    cases hf
    exact hb'

theorem exists_mapM_some_iff {f : α → Option β} {l : List α} :
    (∃ r, l.mapM f = some r) ↔ ∀ a ∈ l, ∃ b, f a = some b := by
  constructor
  · rintro ⟨r, hr⟩ a ha
    obtain ⟨b, -, hf⟩ := forall₂_exists_left (List.Forall₂.flip (mapM_some_iff.mp hr)) ha
    exact ⟨b, hf⟩
  · intro h
    induction l with
    | nil => exact ⟨[], rfl⟩
    | cons a rest ih =>
      obtain ⟨b, hb⟩ := h a mem_cons_self
      obtain ⟨bs, hbs⟩ := ih fun a ha => h a (mem_cons_of_mem _ ha)
      exact ⟨b :: bs, by rw [mapM_cons, hb, hbs]; rfl⟩

end OpenClaw.Foundation
