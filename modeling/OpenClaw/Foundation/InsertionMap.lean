import Mathlib.Data.List.Nodup
import Mathlib.Data.List.Basic

/-! Maps that remember insertion order.

Setting a key that is present replaces its value where it stands; setting a new
key puts it last; iteration visits the entries in that order. The keys of a map
are distinct by construction. -/
namespace OpenClaw.Foundation

open List

structure InsertionMap (κ α : Type*) where
  entries : List (κ × α)
  nodup : (entries.map Prod.fst).Nodup

namespace InsertionMap

variable {κ α : Type*}

def empty : InsertionMap κ α := ⟨[], List.nodup_nil⟩

instance : EmptyCollection (InsertionMap κ α) := ⟨empty⟩

def keys (m : InsertionMap κ α) : List κ := m.entries.map Prod.fst

def values (m : InsertionMap κ α) : List α := m.entries.map Prod.snd

def size (m : InsertionMap κ α) : Nat := m.entries.length

@[simp] theorem values_empty : (∅ : InsertionMap κ α).values = [] := rfl

/-- Every value replaced through a function, the keys and their order kept. -/
def mapValues {β : Type*} (f : κ → α → β) (m : InsertionMap κ α) : InsertionMap κ β :=
  ⟨m.entries.map fun p => (p.1, f p.1 p.2), by
    rw [List.map_map]
    exact m.nodup⟩

/-- The entries whose value passes a test. -/
def keepValues (p : α → Bool) (m : InsertionMap κ α) : InsertionMap κ α :=
  ⟨m.entries.filter fun e => p e.2, m.nodup.sublist (List.filter_sublist.map Prod.fst)⟩

variable [DecidableEq κ]

def get? (m : InsertionMap κ α) (k : κ) : Option α :=
  (m.entries.find? fun p => p.1 = k).map Prod.snd

private def setEntries (l : List (κ × α)) (k : κ) (v : α) : List (κ × α) :=
  if k ∈ l.map Prod.fst then l.map fun p => if p.1 = k then (k, v) else p else l ++ [(k, v)]

private theorem setEntries_keys (l : List (κ × α)) (k : κ) (v : α) :
    (setEntries l k v).map Prod.fst =
      if k ∈ l.map Prod.fst then l.map Prod.fst else l.map Prod.fst ++ [k] := by
  unfold setEntries
  split
  · rw [map_map]
    apply map_congr_left
    intro p _
    by_cases h : p.1 = k <;> simp [h]
  · simp

def set (m : InsertionMap κ α) (k : κ) (v : α) : InsertionMap κ α :=
  ⟨setEntries m.entries k v, by
    rw [setEntries_keys]
    split
    · exact m.nodup
    · rename_i h
      exact List.nodup_append.mpr ⟨m.nodup, List.nodup_singleton k, fun a ha b hb =>
        fun hab => h (by rw [List.mem_singleton] at hb; rw [← hb, ← hab]; exact ha)⟩⟩

def erase (m : InsertionMap κ α) (k : κ) : InsertionMap κ α :=
  ⟨m.entries.filter fun p => p.1 ≠ k,
    m.nodup.sublist (List.filter_sublist.map Prod.fst)⟩

/-! ### Lookup -/

@[simp] theorem get?_empty (k : κ) : (∅ : InsertionMap κ α).get? k = none := rfl

private theorem find?_of_mem {l : List (κ × α)} (hn : (l.map Prod.fst).Nodup) {k : κ} {v : α}
    (h : (k, v) ∈ l) : l.find? (fun p => p.1 = k) = some (k, v) := by
  induction l with
  | nil => cases h
  | cons p rest ih =>
    rw [map_cons, nodup_cons] at hn
    rcases mem_cons.mp h with rfl | hrest
    · simp
    · have hne : p.1 ≠ k := fun he => hn.1 (he ▸ mem_map_of_mem (f := Prod.fst) hrest)
      rw [find?_cons_of_neg (by simpa using hne)]
      exact ih hn.2 hrest

theorem get?_eq_some (m : InsertionMap κ α) (k : κ) (v : α) :
    m.get? k = some v ↔ (k, v) ∈ m.entries := by
  constructor
  · intro h
    obtain ⟨⟨k', v'⟩, hp, rfl⟩ := Option.map_eq_some_iff.mp h
    have hk : k' = k := by simpa using find?_some hp
    exact hk ▸ mem_of_find?_eq_some hp
  · intro h
    rw [get?, find?_of_mem m.nodup h]
    rfl

theorem get?_eq_none (m : InsertionMap κ α) (k : κ) : m.get? k = none ↔ k ∉ m.keys := by
  rw [get?, Option.map_eq_none_iff, find?_eq_none]
  simp only [keys, mem_map, decide_eq_true_eq]
  constructor
  · rintro h ⟨p, hp, hk⟩
    exact h p hp hk
  · intro h p hp hk
    exact h ⟨p, hp, hk⟩

theorem mem_keys (m : InsertionMap κ α) (k : κ) : k ∈ m.keys ↔ ∃ v, m.get? k = some v := by
  cases h : m.get? k with
  | none => simpa using (get?_eq_none m k).mp h
  | some v =>
    have : k ∈ m.keys := mem_map_of_mem (f := Prod.fst) ((get?_eq_some m k v).mp h)
    simp [this]

theorem size_pos_iff (m : InsertionMap κ α) : m.size > 0 ↔ ∃ k, (m.get? k).isSome = true := by
  have hsize : m.size = m.keys.length := (length_map ..).symm
  simp only [gt_iff_lt, hsize, length_pos_iff_exists_mem, mem_keys, Option.isSome_iff_exists]

omit [DecidableEq κ] in
theorem eq_empty_of_values {m : InsertionMap κ α} (h : m.values = []) : m = ∅ := by
  obtain ⟨entries, nodup⟩ := m
  obtain rfl : entries = [] := map_eq_nil_iff.mp h
  rfl

section
variable (m : InsertionMap κ α)
include m

theorem mem_entries_set (k k' : κ) (v v' : α) :
    (k', v') ∈ (m.set k v).entries ↔ (k' = k ∧ v' = v) ∨ (k' ≠ k ∧ (k', v') ∈ m.entries) := by
  show (k', v') ∈ setEntries m.entries k v ↔ _
  unfold setEntries
  split
  · rename_i hk
    obtain ⟨p, hp, hpk⟩ := mem_map.mp hk
    simp only [mem_map]
    constructor
    · rintro ⟨q, hq, he⟩
      by_cases hqk : q.1 = k
      · rw [if_pos hqk] at he
        cases he
        exact .inl ⟨rfl, rfl⟩
      · rw [if_neg hqk] at he
        cases he
        exact .inr ⟨hqk, hq⟩
    · rintro (⟨rfl, rfl⟩ | ⟨hne, hm⟩)
      · exact ⟨p, hp, by rw [if_pos hpk]⟩
      · exact ⟨(k', v'), hm, by rw [if_neg hne]⟩
  · rename_i hk
    rw [mem_append, mem_singleton, Prod.mk.injEq]
    constructor
    · rintro (hm | he)
      · have hne : k' ≠ k := fun he => hk (he ▸ mem_map_of_mem (f := Prod.fst) hm)
        exact .inr ⟨hne, hm⟩
      · exact .inl he
    · rintro (he | ⟨_, hm⟩)
      · exact .inr he
      · exact .inl hm

theorem get?_set (k k' : κ) (v : α) :
    (m.set k v).get? k' = if k' = k then some v else m.get? k' := by
  apply Option.ext
  intro w
  rw [get?_eq_some, mem_entries_set]
  by_cases h : k' = k
  · simp [h, eq_comm]
  · simp [h, get?_eq_some]

@[simp] theorem get?_set_self (k : κ) (v : α) :
    (m.set k v).get? k = some v := by
  rw [get?_set, if_pos rfl]

theorem get?_set_ne {k k' : κ} (h : k' ≠ k) (v : α) :
    (m.set k v).get? k' = m.get? k' := by
  rw [get?_set, if_neg h]

theorem mem_entries_erase (k k' : κ) (v : α) :
    (k', v) ∈ (m.erase k).entries ↔ k' ≠ k ∧ (k', v) ∈ m.entries := by
  simp [erase, and_comm]

theorem get?_erase (k k' : κ) :
    (m.erase k).get? k' = if k' = k then none else m.get? k' := by
  apply Option.ext
  intro w
  rw [get?_eq_some, mem_entries_erase]
  by_cases h : k' = k
  · simp [h]
  · simp [h, get?_eq_some]

end

theorem get?_mapValues {β : Type*} (f : κ → α → β) (m : InsertionMap κ α) (k : κ) :
    (m.mapValues f).get? k = (m.get? k).map (f k) := by
  apply Option.ext
  intro w
  rw [get?_eq_some, Option.map_eq_some_iff]
  simp only [mapValues, mem_map, Prod.mk.injEq]
  constructor
  · rintro ⟨⟨k', v⟩, hm, rfl, rfl⟩
    exact ⟨v, (get?_eq_some m k' v).mpr hm, rfl⟩
  · rintro ⟨v, hv, rfl⟩
    exact ⟨(k, v), (get?_eq_some m k v).mp hv, rfl, rfl⟩

theorem get?_keepValues (p : α → Bool) (m : InsertionMap κ α) (k : κ) :
    (m.keepValues p).get? k = (m.get? k).filter p := by
  apply Option.ext
  intro w
  simp [get?_eq_some, keepValues, Option.filter_eq_some_iff]

/-- Erasing a key that is not there changes nothing. -/
theorem erase_of_none {m : InsertionMap κ α} {k : κ} (h : m.get? k = none) : m.erase k = m := by
  have hkeep : m.entries.filter (fun p => p.1 ≠ k) = m.entries := by
    rw [filter_eq_self]
    intro p hp
    refine decide_eq_true fun he => (get?_eq_none m k).mp h ?_
    rw [← he]
    exact mem_map_of_mem (f := Prod.fst) hp
  cases m with
  | mk entries nodup =>
    simp only [erase, mk.injEq]
    exact hkeep

theorem entries_set_new {m : InsertionMap κ α} {k : κ} (h : m.get? k = none) (v : α) :
    (m.set k v).entries = m.entries ++ [(k, v)] :=
  if_neg ((get?_eq_none m k).mp h)

theorem entries_set_old {m : InsertionMap κ α} {k : κ} {w : α} (h : m.get? k = some w) (v : α) :
    (m.set k v).entries = m.entries.map fun p => if p.1 = k then (k, v) else p :=
  if_pos ((mem_keys m k).mpr ⟨w, h⟩)

theorem size_set_new {m : InsertionMap κ α} {k : κ} (h : m.get? k = none) (v : α) : (m.set k v).size = m.size + 1 := by
  simp [size, entries_set_new h]

theorem size_set_old {m : InsertionMap κ α} {k : κ} {w : α} (h : m.get? k = some w) (v : α) :
    (m.set k v).size = m.size := by
  simp [size, entries_set_old h]

theorem size_erase_le (m : InsertionMap κ α) (k : κ) : (m.erase k).size ≤ m.size :=
  length_filter_le _ _

theorem size_erase_lt {m : InsertionMap κ α} {k : κ} {w : α} (h : m.get? k = some w) : (m.erase k).size < m.size :=
  length_filter_lt_length_iff_exists.mpr ⟨(k, w), (get?_eq_some m k w).mp h, by simp⟩

/-- A map's values are the values its keys look up. -/
theorem mem_values (m : InsertionMap κ α) (v : α) : v ∈ m.values ↔ ∃ k, m.get? k = some v := by
  simp only [values, mem_map, get?_eq_some, Prod.exists, exists_eq_right]

end InsertionMap

end OpenClaw.Foundation
