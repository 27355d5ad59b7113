import Mathlib.Data.List.Nodup
import Mathlib.Data.List.Perm.Subperm

/-! Association lists with one entry per key, as the own properties of an object are.

`setEntry` changes an entry where it is and adds a new one at the end. What two lists
hold is what their lookups give, whatever the order. -/
namespace OpenClaw.Foundation.Entries
open List

variable {κ α : Type*} [DecidableEq κ]

/-- The keys, in order. -/
def keys (entries : List (κ × α)) : List κ := entries.map Prod.fst

def setEntry (key : κ) (value : α) : List (κ × α) → List (κ × α)
  | [] => [(key, value)]
  | (k, v) :: rest => if k = key then (key, value) :: rest else (k, v) :: setEntry key value rest

def eraseEntry (key : κ) (entries : List (κ × α)) : List (κ × α) := entries.filter fun e => e.1 ≠ key

omit [DecidableEq κ] in
@[simp] theorem keys_nil : keys ([] : List (κ × α)) = [] := rfl

omit [DecidableEq κ] in
@[simp] theorem keys_cons (e : κ × α) (entries : List (κ × α)) : keys (e :: entries) = e.1 :: keys entries := rfl

theorem lookup_cons_self (key : κ) (value : α) (entries : List (κ × α)) :
    ((key, value) :: entries).lookup key = some value := by
  rw [lookup_cons, beq_self_eq_true]

variable {key : κ} {entries : List (κ × α)}

theorem lookup_cons_ne {k : κ} (h : key ≠ k) (value : α) (entries : List (κ × α)) :
    ((k, value) :: entries).lookup key = entries.lookup key := by
  rw [lookup_cons, beq_eq_false_iff_ne.mpr h]

theorem lookup_cons (key k : κ) (value : α) (entries : List (κ × α)) :
    ((k, value) :: entries).lookup key = if key = k then some value else entries.lookup key := by
  by_cases h : key = k
  · rw [if_pos h, h, lookup_cons_self]
  · rw [if_neg h, lookup_cons_ne h]

theorem lookup_of_mem (h : (entries.map Prod.fst).Nodup) {v : α} (hmem : (key, v) ∈ entries) :
    entries.lookup key = some v := by
  induction entries with
  | nil => exact absurd hmem not_mem_nil
  | cons e rest ih =>
    obtain ⟨k, x⟩ := e
    rw [map_cons, nodup_cons] at h
    rcases mem_cons.mp hmem with heq | hrest
    · cases heq
      exact lookup_cons_self key v rest
    · have hne : key ≠ k := fun hkey => h.1 (mem_map.mpr ⟨(key, v), hrest, hkey⟩)
      rw [lookup_cons_ne hne]
      exact ih h.2 hrest

theorem mem_of_lookup {v : α} (h : entries.lookup key = some v) :
    (key, v) ∈ entries := by
  obtain ⟨before, after, heq, -⟩ := lookup_eq_some_iff.mp h
  rw [heq]
  simp

theorem lookup_eq_none : entries.lookup key = none ↔ key ∉ keys entries := by
  induction entries with
  | nil => simp
  | cons e rest ih =>
    obtain ⟨k, v⟩ := e
    by_cases h : key = k
    · simp [lookup_cons, h]
    · simp [lookup_cons, h, ih]

theorem mem_keys : key ∈ keys entries ↔ ∃ v, entries.lookup key = some v := by
  rw [← Option.ne_none_iff_exists', ne_eq, lookup_eq_none, not_not]

theorem lookup_append (key : κ) (entries others : List (κ × α)) :
    (entries ++ others).lookup key = (entries.lookup key).or (others.lookup key) := by
  induction entries with
  | nil => simp
  | cons e rest ih =>
    obtain ⟨k, v⟩ := e
    rw [cons_append, lookup_cons, lookup_cons, ih]
    by_cases h : key = k <;> simp [h]

theorem lookup_setEntry (key k : κ) (value : α) (entries : List (κ × α)) :
    (setEntry k value entries).lookup key = if key = k then some value else entries.lookup key := by
  induction entries with
  | nil => rw [setEntry, lookup_cons]
  | cons e rest ih =>
    obtain ⟨k', v⟩ := e
    unfold setEntry
    by_cases hk : k' = k
    · rw [if_pos hk, lookup_cons, lookup_cons, hk]
      by_cases h : key = k <;> simp [h]
    · rw [if_neg hk, lookup_cons, lookup_cons, ih]
      by_cases h : key = k'
      · have hne : key ≠ k := fun heq => hk (h.symm.trans heq)
        rw [if_pos h, if_neg hne, if_pos h]
      · rw [if_neg h, if_neg h]

theorem lookup_filter (p : κ → Bool) (key : κ) (entries : List (κ × α)) :
    (entries.filter fun e => p e.1).lookup key = if p key then entries.lookup key else none := by
  induction entries with
  | nil => simp
  | cons e rest ih =>
    obtain ⟨k, v⟩ := e
    by_cases h : key = k
    · subst h
      cases hp : p key with
      | true => rw [filter_cons_of_pos (by simpa using hp), lookup_cons_self, lookup_cons_self]; rfl
      | false =>
        rw [filter_cons_of_neg (by simp [hp]), ih, hp]
        rfl
    · cases hp : p k with
      | true => rw [filter_cons_of_pos (by simpa using hp), lookup_cons_ne h, lookup_cons_ne h, ih]
      | false => rw [filter_cons_of_neg (by simp [hp]), lookup_cons_ne h, ih]

theorem lookup_eraseEntry (key k : κ) (entries : List (κ × α)) :
    (eraseEntry k entries).lookup key = if key = k then none else entries.lookup key := by
  have h := lookup_filter (fun x => decide (x ≠ k)) key entries
  rw [show eraseEntry k entries = entries.filter fun e => decide (e.1 ≠ k) from rfl, h]
  by_cases hk : key = k <;> simp [hk]

theorem keys_setEntry (key : κ) (value : α) (entries : List (κ × α)) :
    keys (setEntry key value entries) = if key ∈ keys entries then keys entries else keys entries ++ [key] := by
  induction entries with
  | nil => simp [setEntry]
  | cons e rest ih =>
    obtain ⟨k, v⟩ := e
    unfold setEntry
    by_cases hk : k = key
    · rw [if_pos hk]
      simp [hk]
    · have hk' : ¬ key = k := fun h => hk h.symm
      rw [if_neg hk, keys_cons, ih]
      by_cases h : key ∈ keys rest <;> simp [h, hk']

theorem nodup_setEntry (h : (keys entries).Nodup) (key : κ) (value : α) :
    (keys (setEntry key value entries)).Nodup := by
  rw [keys_setEntry]
  by_cases hk : key ∈ keys entries
  · rw [if_pos hk]
    exact h
  · rw [if_neg hk, nodup_append]
    exact ⟨h, nodup_singleton key, fun a ha b hb heq => hk ((mem_singleton.mp hb) ▸ heq ▸ ha)⟩

theorem nodup_eraseEntry (h : (keys entries).Nodup) (key : κ) :
    (keys (eraseEntry key entries)).Nodup :=
  h.sublist (filter_sublist.map Prod.fst)

/-- Setting a new key adds it at the end. -/
theorem setEntry_new (h : key ∉ keys entries) (value : α) :
    setEntry key value entries = entries ++ [(key, value)] := by
  induction entries with
  | nil => rfl
  | cons e rest ih =>
    obtain ⟨k, v⟩ := e
    rw [keys_cons, mem_cons, not_or] at h
    unfold setEntry
    rw [if_neg fun hk => h.1 hk.symm, ih h.2]
    rfl

omit [DecidableEq κ] in
/-- Two lists with the same keys have as many entries. -/
theorem length_eq_of_keys {others : List (κ × α)} (h : (keys entries).Nodup) (h' : (keys others).Nodup)
    (hkeys : ∀ key, key ∈ keys entries ↔ key ∈ keys others) : entries.length = others.length := by
  have hperm : (keys entries).Perm (keys others) := (perm_ext_iff_of_nodup h h').mpr hkeys
  have hlen := hperm.length_eq
  rwa [keys, keys, length_map, length_map] at hlen

/-- As many entries, and the keys of the one among the other's: the same keys. -/
theorem keys_of_length_le {others : List (κ × α)} (h : (keys entries).Nodup) (hlen : others.length ≤ entries.length)
    (hsub : ∀ key ∈ keys entries, key ∈ keys others) (hkey : key ∈ keys others) : key ∈ keys entries := by
  have hperm : (keys entries).Subperm (keys others) := subperm_of_subset h hsub
  have hlen' : (keys others).length ≤ (keys entries).length := by
    rw [keys, keys, length_map, length_map]
    exact hlen
  exact (hperm.perm_of_length_le hlen').mem_iff.mpr hkey

end OpenClaw.Foundation.Entries
