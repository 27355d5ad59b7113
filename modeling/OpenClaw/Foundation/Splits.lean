import Mathlib.Data.List.Basic

/-! Splitting a list at an element. -/
namespace OpenClaw.Foundation

open List

variable {α : Type*}

/-- A split of `x :: l` is at `x`, or in `l`. -/
theorem exists_split_cons {P : List α → α → Prop} {x : α} {l : List α} :
    (∃ before y after, x :: l = before ++ y :: after ∧ P before y) ↔
      P [] x ∨ ∃ before y after, l = before ++ y :: after ∧ P (x :: before) y := by
  constructor
  · rintro ⟨before, y, after, h, hp⟩
    cases before with
    | nil =>
      obtain ⟨rfl, -⟩ := List.cons.inj h
      exact .inl hp
    | cons z before =>
      obtain ⟨rfl, rfl⟩ := List.cons.inj h
      exact .inr ⟨before, y, after, rfl, hp⟩
  · rintro (hp | ⟨before, y, after, rfl, hp⟩)
    · exact ⟨[], x, l, rfl, hp⟩
    · exact ⟨x :: before, y, after, rfl, hp⟩

/-- A split of `l ++ [x]` is at `x`, or in `l`. -/
theorem split_concat {l before after : List α} {x y : α} (h : l ++ [x] = before ++ y :: after) :
    (y = x ∧ before = l ∧ after = []) ∨ ∃ mid, l = before ++ y :: mid ∧ after = mid ++ [x] := by
  rcases append_eq_append_iff.mp h with ⟨mid, hbefore, hmid⟩ | ⟨mid, hl, hmid⟩
  · obtain ⟨rfl, hlast⟩ | ⟨-, hlast⟩ := append_eq_singleton_iff.mp hmid.symm
    · obtain ⟨rfl, rfl⟩ := List.cons.inj hlast
      exact .inl ⟨rfl, by rw [hbefore, append_nil], rfl⟩
    · cases hlast
  · cases mid with
    | nil =>
      obtain ⟨rfl, rfl⟩ := List.cons.inj hmid
      exact .inl ⟨rfl, by rw [hl, append_nil], rfl⟩
    | cons z mid =>
      obtain ⟨rfl, rfl⟩ := List.cons.inj hmid
      exact .inr ⟨mid, hl, rfl⟩

/-- What stands before the first separator, and after it, is determined. -/
theorem append_cons_inj {a b r s : List α} {x : α} (ha : x ∉ a) (hb : x ∉ b) (h : a ++ x :: r = b ++ x :: s) :
    a = b ∧ r = s := by
  induction a generalizing b with
  | nil =>
    cases b with
    | nil => exact ⟨rfl, (List.cons.inj h).2⟩
    | cons y b =>
      rw [nil_append, cons_append] at h
      exact absurd (List.cons.inj h).1 fun hxy => hb (hxy ▸ mem_cons_self)
  | cons y a ih =>
    cases b with
    | nil =>
      rw [nil_append, cons_append] at h
      exact absurd (List.cons.inj h).1 fun hxy => ha (hxy ▸ mem_cons_self)
    | cons z b =>
      rw [cons_append, cons_append] at h
      obtain ⟨rfl, hrest⟩ := List.cons.inj h
      obtain ⟨rfl, rfl⟩ := ih (fun hm => ha (mem_cons_of_mem _ hm)) (fun hm => hb (mem_cons_of_mem _ hm)) hrest
      exact ⟨rfl, rfl⟩

/-- The parts of a split hold no separator. -/
theorem not_mem_of_mem_splitOn [DecidableEq α] {x : α} {l s : List α} (h : s ∈ l.splitOn x) : x ∉ s := by
  induction l generalizing s with
  | nil =>
    rw [splitOn_nil, mem_singleton] at h
    rw [h]
    exact not_mem_nil
  | cons c rest ih =>
    rw [splitOn_cons_eq_if_modifyHead] at h
    split_ifs at h with hc
    · rcases mem_cons.mp h with rfl | h
      · exact not_mem_nil
      · exact ih h
    · obtain ⟨first, more, hsplit⟩ := exists_cons_of_ne_nil (splitOn_ne_nil x rest)
      rw [hsplit, modifyHead_cons] at h
      rcases mem_cons.mp h with rfl | h
      · have hfirst : x ∉ first := ih (hsplit ▸ mem_cons_self)
        rw [mem_cons, not_or]
        exact ⟨fun hx => hc (by simp [hx]), hfirst⟩
      · exact ih (hsplit ▸ mem_cons_of_mem _ h)

/-- Texts without the separator are determined by what they are joined to. -/
theorem intercalate_inj {sep : String} {c : Char} (hsep : sep.toList = [c]) {texts texts' : List String}
    (hne : texts ≠ []) (hne' : texts' ≠ []) (h : ∀ s ∈ texts, c ∉ s.toList) (h' : ∀ s ∈ texts', c ∉ s.toList)
    (he : sep.intercalate texts = sep.intercalate texts') : texts = texts' := by
  have hlist := congrArg (List.splitOn c ∘ String.toList) he
  simp only [Function.comp_apply, String.toList_intercalate, hsep] at hlist
  rw [splitOn_intercalate c (by simpa using h) (by simpa using hne),
    splitOn_intercalate c (by simpa using h') (by simpa using hne')] at hlist
  exact map_injective_iff.mpr (fun _ _ => String.toList_inj.mp) hlist

theorem not_mem_intercalate {sep : String} {c : Char} (hsep : c ∉ sep.toList) {texts : List String}
    (h : ∀ s ∈ texts, c ∉ s.toList) : c ∉ (sep.intercalate texts).toList := by
  rw [String.toList_intercalate]
  induction texts with
  | nil => simp
  | cons s rest ih =>
    have hs := h s mem_cons_self
    have hrest := ih fun s' hs' => h s' (mem_cons_of_mem _ hs')
    cases rest with
    | nil => simpa using hs
    | cons s' rest =>
      rw [map_cons, map_cons, intercalate_cons_cons]
      simpa [hs, hsep] using hrest

end OpenClaw.Foundation
