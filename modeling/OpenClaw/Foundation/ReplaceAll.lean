import Mathlib.Data.List.Infix

/-! Replacing every occurrence of a pattern, from left to right.

What survives a replacement is told by its ends: a stretch of the output whose first
and last symbols are not in the replacement either holds a whole replacement, or was
there before and holds no occurrence of the pattern. -/
namespace OpenClaw.Foundation

open List

variable {α : Type} [DecidableEq α]

/-- The scan, with `skip` symbols of the last occurrence still to be passed over. -/
def replaceFrom (pattern replacement : List α) : Nat → List α → List α
  | _, [] => []
  | skip + 1, _ :: rest => replaceFrom pattern replacement skip rest
  | 0, a :: rest =>
    if pattern.isPrefixOf (a :: rest) then
      replacement ++ replaceFrom pattern replacement (pattern.length - 1) rest
    else a :: replaceFrom pattern replacement 0 rest

def replaceAll (pattern replacement text : List α) : List α := replaceFrom pattern replacement 0 text

variable {pattern replacement : List α}

theorem replaceFrom_skip (skip : Nat) (text : List α) :
    replaceFrom pattern replacement skip text = replaceFrom pattern replacement 0 (text.drop skip) := by
  induction skip generalizing text with
  | zero => rfl
  | succ skip ih =>
    cases text with
    | nil => rfl
    | cons a rest => exact ih rest

theorem replaceAll_ne_nil (hreplacement : replacement ≠ []) {text : List α} (h : text ≠ []) :
    replaceAll pattern replacement text ≠ [] := by
  cases text with
  | nil => exact absurd rfl h
  | cons a rest =>
    rw [replaceAll, replaceFrom]
    split
    · exact fun he => hreplacement (append_eq_nil_iff.mp he).1
    · exact cons_ne_nil _ _

/-- A text without the pattern stays as it is. -/
theorem replaceAll_of_not_infix {text : List α} (h : ¬ pattern <:+: text) :
    replaceAll pattern replacement text = text := by
  induction text with
  | nil => rfl
  | cons a rest ih =>
    have hstarts : pattern.isPrefixOf (a :: rest) = false := by
      rw [Bool.eq_false_iff]
      exact fun hp => h ( isPrefixOf_iff_prefix.mp hp).isInfix
    have hrest := ih fun hwithin => h (hwithin.trans (suffix_cons a rest).isInfix)
    rw [replaceAll, replaceFrom, if_neg (by simp [hstarts])]
    exact congrArg _ hrest

/-- A stretch at the start of the output. -/
theorem prefix_replaceAll (hpattern : pattern ≠ []) {l text : List α}
    (hlast : ∀ a ∈ l.getLast?, a ∉ replacement) (h : l <+: replaceAll pattern replacement text) :
    replacement <:+: l ∨ (l <+: text ∧ ¬ pattern <:+: l) := by
  induction text generalizing l with
  | nil =>
    have hl : l = [] := prefix_nil.mp h
    subst hl
    exact Or.inr ⟨ nil_prefix, fun hp => hpattern (infix_nil.mp hp)⟩
  | cons a rest ih =>
    rw [replaceAll, replaceFrom] at h
    split at h
    · -- an occurrence starts here: the stretch covers its replacement or ends inside it
      rcases prefix_or_prefix_of_prefix h (prefix_append ..) with hl | hr
      · cases hcases : l.getLast? with
        | none =>
          rw [getLast?_eq_none_iff] at hcases
          subst hcases
          exact Or.inr ⟨ nil_prefix, fun hp => hpattern (infix_nil.mp hp)⟩
        | some b =>
          exact absurd (hl.subset (mem_of_getLast? hcases)) (hlast b (by rw [hcases]; rfl))
      · exact Or.inl hr.isInfix
    · rename_i hnot
      cases l with
      | nil => exact Or.inr ⟨ nil_prefix, fun hp => hpattern (infix_nil.mp hp)⟩
      | cons b l =>
        obtain ⟨rfl, hl⟩ := cons_prefix_cons.mp h
        have hlast' : ∀ c ∈ l.getLast?, c ∉ replacement := by
          intro c hc
          refine hlast c ?_
          cases l with
          | nil => cases hc
          | cons d l => rwa [getLast?_cons_cons]
        rcases ih hlast' hl with hr | ⟨hstarts, hfree⟩
        · exact Or.inl (hr.trans (suffix_cons b l).isInfix)
        · have hwhole : b :: l <+: b :: rest := cons_prefix_cons.mpr ⟨rfl, hstarts⟩
          refine Or.inr ⟨hwhole, fun hp => ?_⟩
          rcases infix_cons_iff.mp hp with hp | hp
          · exact hnot ( isPrefixOf_iff_prefix.mpr (hp.trans hwhole))
          · exact hfree hp

omit [DecidableEq α] in
/-- A stretch that does not start in the first part lies in the second. -/
theorem infix_of_infix_append {l r s : List α} (hhead : ∀ a ∈ l.head?, a ∉ r) (h : l <:+: r ++ s) :
    l <:+: s := by
  obtain ⟨pre, post, heq⟩ := h
  rw [append_assoc] at heq
  rcases append_eq_append_iff.mp heq with ⟨a, hr, hl⟩ | ⟨c, hpre, hs⟩
  · cases a with
    | nil => exact ⟨[], post, by simpa using hl⟩
    | cons b a =>
      cases l with
      | nil => exact nil_infix
      | cons d l =>
        rw [cons_append, cons_append, List.cons.injEq] at hl
        refine absurd ?_ (hhead d rfl)
        rw [hr, hl.1]
        exact mem_append_right _ (mem_cons_self ..)
  · exact ⟨c, post, by rw [hs, append_assoc]⟩

/-- A stretch anywhere in the output. -/
theorem infix_replaceAll (hpattern : pattern ≠ []) {l text : List α}
    (hhead : ∀ a ∈ l.head?, a ∉ replacement) (hlast : ∀ a ∈ l.getLast?, a ∉ replacement)
    (h : l <:+: replaceAll pattern replacement text) :
    replacement <:+: l ∨ (l <:+: text ∧ ¬ pattern <:+: l) := by
  obtain ⟨n, hn⟩ : ∃ n, text.length = n := ⟨_, rfl⟩
  induction n using Nat.strongRecOn generalizing text with
  | ind n ih =>
    cases text with
    | nil =>
      have hl : l = [] := infix_nil.mp h
      subst hl
      exact Or.inr ⟨ nil_infix, fun hp => hpattern (infix_nil.mp hp)⟩
    | cons a rest =>
      by_cases hstarts : pattern.isPrefixOf (a :: rest) = true
      · have hout : replaceAll pattern replacement (a :: rest) =
            replacement ++ replaceAll pattern replacement (rest.drop (pattern.length - 1)) := by
          rw [replaceAll, replaceFrom, if_pos hstarts, replaceFrom_skip]
          rfl
        rw [hout] at h
        have hrest := infix_of_infix_append hhead h
        have hlength : (rest.drop (pattern.length - 1)).length < n := by
          rw [← hn, length_drop, length_cons]
          omega
        rcases ih _ hlength hrest rfl with hr | ⟨hwithin, hfree⟩
        · exact Or.inl hr
        · refine Or.inr ⟨hwithin.trans ?_, hfree⟩
          exact ((drop_suffix _ rest).trans (suffix_cons a rest)).isInfix
      · have hout : replaceAll pattern replacement (a :: rest) =
            a :: replaceAll pattern replacement rest := by
          rw [replaceAll, replaceFrom, if_neg hstarts]
          rfl
        rw [hout] at h
        rcases infix_cons_iff.mp h with hp | hp
        · rw [← hout] at hp
          exact (prefix_replaceAll hpattern hlast hp).imp id fun hp => ⟨hp.1.isInfix, hp.2⟩
        · rcases ih rest.length (by rw [← hn, length_cons]; omega) hp rfl with hr | ⟨hwithin, hfree⟩
          · exact Or.inl hr
          · exact Or.inr ⟨hwithin.trans (suffix_cons a rest).isInfix, hfree⟩

end OpenClaw.Foundation
