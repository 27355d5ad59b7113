import OpenClaw.Foundation.InsertionMap

/-! Lists kept in buckets.

A fold that appends each element to the buckets it belongs to leaves in every bucket the
elements that belong there, in their order. Two buckets merged by rank are the bucket of
both. A search tier by tier, each tier in a bucket of its own, finds what a search of all
elements finds when a tier's bucket misses only hits of earlier tiers. -/
namespace OpenClaw.Foundation.Buckets

open List

/-! ### Filling -/

section Filling
variable {σ α β : Type*}

/-- What a fold appends, step after step, where it is looked at through `view`. -/
theorem view_foldl (step : σ → α → σ) (view : σ → List β) (gives : α → Option β)
    (h : ∀ s a, view (step s a) = view s ++ (gives a).toList) (s : σ) (l : List α) :
    view (l.foldl step s) = view s ++ l.filterMap gives := by
  induction l generalizing s with
  | nil => simp
  | cons a rest ih =>
    rw [foldl_cons, ih, h, filterMap_cons, append_assoc]
    cases gives a <;> rfl

theorem view_foldl_filter (step : σ → α → σ) (view : σ → List α) (p : α → Bool)
    (h : ∀ s a, view (step s a) = view s ++ if p a then [a] else []) (s : σ) (l : List α) :
    view (l.foldl step s) = view s ++ l.filter p := by
  rw [← filterMap_eq_filter]
  apply view_foldl
  intro s a
  rw [h]
  cases hp : p a <;> simp [Option.guard, hp]

end Filling

section Maps
variable {κ α : Type*} [DecidableEq κ]

/-- The bucket under a key. -/
def bucket (m : InsertionMap κ (List α)) (key : κ) : List α := (m.get? key).getD []

@[simp] theorem bucket_empty (key : κ) : bucket (∅ : InsertionMap κ (List α)) key = [] := rfl

theorem bucket_push (m : InsertionMap κ (List α)) (key key' : κ) (a : α) :
    bucket (m.set key ((m.get? key).getD [] ++ [a])) key' = bucket m key' ++ if key' = key then [a] else [] := by
  by_cases h : key' = key
  · subst h
    simp [bucket]
  · simp [bucket, InsertionMap.get?_set_ne m h, h]

end Maps

/-! ### Merging -/

section Merging
variable {α : Type*} (rank : α → Nat)

/-- Elements that come before all others come first of a merge. -/
theorem merge_cons_left (a : α) {l r : List α} (h : ∀ b ∈ r, rank a < rank b) :
    (a :: l).merge r (fun x y => rank x ≤ rank y) = a :: l.merge r fun x y => rank x ≤ rank y := by
  cases r with
  | nil => simp
  | cons b r => exact cons_merge_cons_pos _ l r (by simpa using Nat.le_of_lt (h b (by simp)))

theorem merge_cons_right (a : α) {l r : List α} (h : ∀ b ∈ l, rank a < rank b) :
    l.merge (a :: r) (fun x y => rank x ≤ rank y) = a :: l.merge r fun x y => rank x ≤ rank y := by
  cases l with
  | nil => simp
  | cons b l => exact cons_merge_cons_neg _ l r (by simpa using h b (by simp))

/-- Two buckets with nothing in common, merged by rank. -/
theorem merge_filters {l : List α} (hl : l.Pairwise fun a b => rank a < rank b) (p q : α → Bool)
    (hpq : ∀ a ∈ l, p a = true → q a = false) :
    (l.filter p).merge (l.filter q) (fun x y => rank x ≤ rank y) = l.filter fun a => p a || q a := by
  induction l with
  | nil => simp
  | cons a rest ih =>
    rw [pairwise_cons] at hl
    have hrest := ih hl.2 fun b hb => hpq b (mem_cons_of_mem a hb)
    have after : ∀ (f : α → Bool), ∀ b ∈ rest.filter f, rank a < rank b := by
      intro f b hb
      exact hl.1 b (mem_filter.mp hb).1
    cases hp : p a with
    | true =>
      have hq : q a = false := hpq a mem_cons_self hp
      simp only [filter_cons, hp, hq, Bool.or_false, ↓reduceIte, Bool.false_eq_true]
      rw [merge_cons_left rank a (after q), hrest]
    | false =>
      cases hq : q a with
      | true =>
        simp only [filter_cons, hp, hq, Bool.or_true, ↓reduceIte, Bool.false_eq_true]
        rw [merge_cons_right rank a (after p), hrest]
      | false =>
        simp only [filter_cons, hp, hq, Bool.or_false, ↓reduceIte, Bool.false_eq_true]
        exact hrest

end Merging

/-! ### Tiers -/

section Tiers
variable {τ α : Type*} (hit narrow : τ → α → Bool) (all : List α)

theorem find?_narrowed {t : τ} (h : ∀ a ∈ all, hit t a = true → narrow t a = true) :
    (all.filter (narrow t)).find? (hit t) = all.find? (hit t) := by
  induction all with
  | nil => rfl
  | cons a rest ih =>
    have hrest := ih fun b hb => h b (mem_cons_of_mem a hb)
    cases ha : hit t a with
    | true => rw [filter_cons_of_pos (h a mem_cons_self ha), find?_cons_of_pos ha,
        find?_cons_of_pos ha]
    | false =>
      rw [find?_cons_of_neg (by simp [ha]), ← hrest]
      by_cases hn : narrow t a = true
      · rw [filter_cons_of_pos hn, find?_cons_of_neg (by simp [ha])]
      · rw [filter_cons_of_neg hn]

/-- A search tier by tier, each in its bucket, finds what it finds among all, when a hit
outside the bucket of its tier is a hit of an earlier one. -/
theorem findSome?_narrowed {β : Type*} (found : τ → Option α → Option β) (hfound : ∀ t, found t none = none)
    (hsome : ∀ t a, (found t (some a)).isSome = true) (rank : τ → Nat) {tiers : List τ}
    (hrank : tiers.Pairwise fun t t' => rank t < rank t')
    (h : ∀ t ∈ tiers, ∀ a ∈ all, hit t a = true →
      narrow t a = true ∨ ∃ t' ∈ tiers, rank t' < rank t ∧ hit t' a = true) :
    tiers.findSome? (fun t => found t ((all.filter (narrow t)).find? (hit t))) =
      tiers.findSome? fun t => found t (all.find? (hit t)) := by
  suffices hsuffix : ∀ passed rest, tiers = passed ++ rest → (∀ t ∈ passed, ∀ a ∈ all, hit t a = false) →
      rest.findSome? (fun t => found t ((all.filter (narrow t)).find? (hit t))) =
        rest.findSome? fun t => found t (all.find? (hit t)) from hsuffix [] tiers rfl (by simp)
  intro passed rest htiers hpassed
  induction rest generalizing passed with
  | nil => rfl
  | cons t rest ih =>
    have hbucket : ∀ a ∈ all, hit t a = true → narrow t a = true := by
      intro a ha hhit
      rcases h t (by simp [htiers]) a ha hhit with hnarrow | ⟨t', ht', hlt, hhit'⟩
      · exact hnarrow
      · -- An earlier tier has been passed, and had no hit.
        rw [htiers, pairwise_append, pairwise_cons] at hrank
        rw [htiers, mem_append, mem_cons] at ht'
        rcases ht' with hin | rfl | hin
        · exact absurd (hpassed t' hin a ha) (by simp [hhit'])
        · omega
        · have := hrank.2.1.1 t' hin
          omega
    rw [findSome?_cons, findSome?_cons, find?_narrowed hit narrow all hbucket]
    cases hfind : all.find? (hit t) with
    | some a =>
      obtain ⟨b, hb⟩ := Option.isSome_iff_exists.mp (hsome t a)
      simp [hb]
    | none =>
      rw [hfound]
      apply ih (passed ++ [t]) (by simp [htiers])
      intro t' ht' a ha
      rcases mem_append.mp ht' with hin | hin
      · exact hpassed t' hin a ha
      · obtain rfl := mem_singleton.mp hin
        simpa using find?_eq_none.mp hfind a ha

end Tiers

end OpenClaw.Foundation.Buckets
