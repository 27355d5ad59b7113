import Mathlib.Data.List.Perm.Basic
import Mathlib.Data.List.Perm.Subperm
import OpenClaw.Foundation.InsertionMap

/-! Secondary indexes: from a key to the set of ids listed under it.

An index never holds an empty set and lists an id once under a key, by
construction. `scan` is what an index should hold: the ids of the entries of a
map whose value has the key, in the order of the map. The lemmas say how one
write of the map moves its scan, so that an index kept in step with the writes
stays equal to the scan, in order (`Ordered`) or as a set (`Listed`). -/
namespace OpenClaw.Foundation

open List InsertionMap

structure SetIndex (κ α : Type*) [DecidableEq κ] where
  sets : InsertionMap κ (List α)
  inhabited : ∀ k ids, sets.get? k = some ids → ids ≠ []
  distinct : ∀ k ids, sets.get? k = some ids → ids.Nodup

namespace SetIndex

variable {κ α β : Type*} [DecidableEq κ]

def empty : SetIndex κ α := ⟨∅, fun _ _ h => absurd h nofun, fun _ _ h => absurd h nofun⟩

instance : EmptyCollection (SetIndex κ α) := ⟨empty⟩

/-- The ids under a key. -/
def lookup (m : SetIndex κ α) (k : κ) : List α := (m.sets.get? k).getD []

theorem lookup_nodup (m : SetIndex κ α) (k : κ) : (m.lookup k).Nodup := by
  unfold lookup
  cases h : m.sets.get? k with
  | none => exact nodup_nil
  | some ids => exact m.distinct k ids h

@[simp] theorem lookup_empty (k : κ) : (∅ : SetIndex κ α).lookup k = [] := rfl

variable [DecidableEq α]

def insertId (ids : List α) (a : α) : List α := if a ∈ ids then ids else ids ++ [a]

omit [DecidableEq κ] in
theorem insertId_nodup {ids : List α} (h : ids.Nodup) (a : α) : (insertId ids a).Nodup := by
  unfold insertId
  split
  · exact h
  · rename_i hn
    refine nodup_append.mpr ⟨h, nodup_singleton a, fun b hb c hc hbc => hn ?_⟩
    rw [← mem_singleton.mp hc, ← hbc]
    exact hb

/-- List an id under a key; a key that is not there is created. -/
def add (m : SetIndex κ α) (k : κ) (a : α) : SetIndex κ α where
  sets := m.sets.set k (insertId (m.lookup k) a)
  inhabited := fun k' ids h => by
    rw [InsertionMap.get?_set] at h
    split at h
    · cases h
      unfold insertId
      split
      · rename_i hm
        exact List.ne_nil_of_mem hm
      · exact List.append_ne_nil_of_right_ne_nil _ (List.cons_ne_nil _ _)
    · exact m.inhabited k' ids h
  distinct := fun k' ids h => by
    rw [InsertionMap.get?_set] at h
    split at h
    · cases h
      exact insertId_nodup (m.lookup_nodup k) a
    · exact m.distinct k' ids h

/-- Drop an id from a key's set, and the key with its last id. -/
def delete (m : SetIndex κ α) (k : κ) (a : α) : SetIndex κ α :=
  if h : (m.lookup k).filter (· ≠ a) = [] then
    { sets := m.sets.erase k
      inhabited := fun k' ids h => by
        rw [InsertionMap.get?_erase] at h
        split at h
        · cases h
        · exact m.inhabited k' ids h
      distinct := fun k' ids h => by
        rw [InsertionMap.get?_erase] at h
        split at h
        · cases h
        · exact m.distinct k' ids h }
  else
    { sets := m.sets.set k ((m.lookup k).filter (· ≠ a))
      inhabited := fun k' ids h' => by
        rw [InsertionMap.get?_set] at h'
        split at h'
        · cases h'
          exact h
        · exact m.inhabited k' ids h'
      distinct := fun k' ids h' => by
        rw [InsertionMap.get?_set] at h'
        split at h'
        · cases h'
          exact (m.lookup_nodup k).sublist List.filter_sublist
        · exact m.distinct k' ids h' }

theorem lookup_add (m : SetIndex κ α) (k k' : κ) (a : α) :
    (m.add k a).lookup k' = if k' = k then insertId (m.lookup k) a else m.lookup k' := by
  show ((m.sets.set k _).get? k').getD [] = _
  rw [get?_set]
  split <;> rfl

theorem lookup_delete (m : SetIndex κ α) (k k' : κ) (a : α) :
    (m.delete k a).lookup k' = if k' = k then (m.lookup k).filter (· ≠ a) else m.lookup k' := by
  unfold delete
  split
  · rename_i he
    show ((m.sets.erase k).get? k').getD [] = _
    rw [get?_erase]
    split
    · exact he.symm
    · rfl
  · show ((m.sets.set k _).get? k').getD [] = _
    rw [get?_set]
    split <;> rfl

def addAll (m : SetIndex κ α) (keys : List κ) (a : α) : SetIndex κ α :=
  keys.foldl (fun m k => m.add k a) m

def deleteAll (m : SetIndex κ α) (keys : List κ) (a : α) : SetIndex κ α :=
  keys.foldl (fun m k => m.delete k a) m

/-- List every id under each of its keys, in order. -/
def build (entries : List (α × List κ)) : SetIndex κ α :=
  entries.foldl (fun m p => m.addAll p.2 p.1) ∅

omit [DecidableEq κ] in
theorem insertId_insertId (ids : List α) (a : α) : insertId (insertId ids a) a = insertId ids a := by
  have hm : a ∈ insertId ids a := by
    unfold insertId
    split
    · rename_i h
      exact h
    · exact mem_append_right _ (mem_singleton_self a)
  rw [insertId, if_pos hm]

theorem lookup_addAll (m : SetIndex κ α) (keys : List κ) (a : α) (k : κ) :
    (m.addAll keys a).lookup k = if k ∈ keys then insertId (m.lookup k) a else m.lookup k := by
  induction keys generalizing m with
  | nil => rfl
  | cons key rest ih =>
    show ((m.add key a).addAll rest a).lookup k = _
    rw [ih, lookup_add]
    by_cases hk : k = key
    · subst hk
      by_cases hr : k ∈ rest
      · rw [if_pos hr, if_pos rfl, if_pos mem_cons_self, insertId_insertId]
      · rw [if_neg hr, if_pos rfl, if_pos mem_cons_self]
    · simp [hk]

theorem lookup_deleteAll (m : SetIndex κ α) (keys : List κ) (a : α) (k : κ) :
    (m.deleteAll keys a).lookup k = if k ∈ keys then (m.lookup k).filter (· ≠ a) else m.lookup k := by
  induction keys generalizing m with
  | nil => rfl
  | cons key rest ih =>
    show ((m.delete key a).deleteAll rest a).lookup k = _
    rw [ih, lookup_delete]
    by_cases hk : k = key
    · subst hk
      by_cases hr : k ∈ rest
      · rw [if_pos hr, if_pos rfl, if_pos mem_cons_self, filter_filter]
        simp
      · rw [if_neg hr, if_pos rfl, if_pos mem_cons_self]
    · simp [hk]

/-! ### Scanning a map -/

/-- The ids whose value has the key. -/
def scan (m : InsertionMap α β) (keysOf : β → List κ) (k : κ) : List α :=
  (m.entries.filter fun p => k ∈ keysOf p.2).map Prod.fst

theorem mem_scan (m : InsertionMap α β) (keysOf : β → List κ) (k : κ) (a : α) :
    a ∈ scan m keysOf k ↔ ∃ b, m.get? a = some b ∧ k ∈ keysOf b := by
  unfold scan
  simp only [mem_map, mem_filter, decide_eq_true_eq, get?_eq_some]
  constructor
  · rintro ⟨⟨a', b⟩, ⟨hm, hk⟩, rfl⟩
    exact ⟨b, hm, hk⟩
  · rintro ⟨b, hm, hk⟩
    exact ⟨(a, b), ⟨hm, hk⟩, rfl⟩

omit [DecidableEq α] in
theorem scan_nodup (m : InsertionMap α β) (keysOf : β → List κ) (k : κ) : (scan m keysOf k).Nodup :=
  m.nodup.sublist (filter_sublist.map Prod.fst)

omit [DecidableEq α] in
@[simp] theorem scan_empty (keysOf : β → List κ) (k : κ) : scan (∅ : InsertionMap α β) keysOf k = [] := rfl

theorem scan_erase (m : InsertionMap α β) (keysOf : β → List κ) (a : α) (k : κ) :
    scan (m.erase a) keysOf k = (scan m keysOf k).filter (· ≠ a) := by
  unfold scan InsertionMap.erase
  rw [filter_filter, filter_map, filter_filter]
  apply congrArg (List.map Prod.fst)
  apply filter_congr
  intro p _
  exact Bool.and_comm _ _

/-- A new entry is scanned last. -/
theorem scan_set_new {m : InsertionMap α β} {a : α} (h : m.get? a = none) (b : β)
    (keysOf : β → List κ) (k : κ) :
    scan (m.set a b) keysOf k = if k ∈ keysOf b then insertId (scan m keysOf k) a else scan m keysOf k := by
  have hnot : a ∉ scan m keysOf k := fun hm => by
    obtain ⟨b', hb', _⟩ := (mem_scan m keysOf k a).mp hm
    rw [h] at hb'
    cases hb'
  unfold insertId
  rw [if_neg hnot]
  unfold scan
  rw [entries_set_new h, filter_append, map_append]
  by_cases hk : k ∈ keysOf b
  · simp [hk]
  · simp [hk]

/-- A write that keeps a value's keys keeps the scan. -/
theorem scan_set_same {m : InsertionMap α β} {a : α} {b b' : β} (h : m.get? a = some b)
    {keysOf : β → List κ} (hk : keysOf b' = keysOf b) (k : κ) :
    scan (m.set a b') keysOf k = scan m keysOf k := by
  unfold scan
  rw [entries_set_old h, filter_map, map_map]
  have hfst : (Prod.fst ∘ fun p : α × β => if p.1 = a then (a, b') else p) = Prod.fst := by
    funext p
    by_cases hp : p.1 = a <;> simp [hp]
  rw [hfst]
  apply congrArg (List.map Prod.fst)
  apply filter_congr
  intro p hp
  by_cases hpa : p.1 = a
  · have hb : p.2 = b := by
      have := (get?_eq_some m a p.2).mpr (hpa ▸ hp)
      rw [h] at this
      exact (Option.some.inj this).symm
    simp [hpa, hb, hk]
  · simp [hpa]

/-! ### An index in step with its map -/

/-- The index lists what a scan finds, in that order. -/
def Ordered (idx : SetIndex κ α) (m : InsertionMap α β) (keysOf : β → List κ) : Prop :=
  ∀ k, idx.lookup k = scan m keysOf k

/-- The index lists what a scan finds. -/
def Listed (idx : SetIndex κ α) (m : InsertionMap α β) (keysOf : β → List κ) : Prop :=
  ∀ k, (idx.lookup k).Perm (scan m keysOf k)

omit [DecidableEq α] in
theorem Ordered.listed {idx : SetIndex κ α} {m : InsertionMap α β} {keysOf : β → List κ}
    (h : Ordered idx m keysOf) : Listed idx m keysOf :=
  fun k => h k ▸ List.Perm.refl _

/-- Under a key stands exactly what has it. -/
theorem Listed.mem_iff {idx : SetIndex κ α} {m : InsertionMap α β} {keysOf : β → List κ}
    (h : Listed idx m keysOf) (k : κ) (a : α) :
    a ∈ idx.lookup k ↔ ∃ b, m.get? a = some b ∧ k ∈ keysOf b := by
  rw [(h k).mem_iff, mem_scan]

omit [DecidableEq α] in
theorem ordered_empty (keysOf : β → List κ) : Ordered (∅ : SetIndex κ α) (∅ : InsertionMap α β) keysOf :=
  fun _ => rfl

/-- Rebuilding from the map gives the scan. -/
theorem ordered_build (m : InsertionMap α β) (keysOf : β → List κ) :
    Ordered (build (m.entries.map fun p => (p.1, keysOf p.2))) m keysOf := by
  have hgen (entries : List (α × β)) (idx : SetIndex κ α) (k : κ) (hn : (entries.map Prod.fst).Nodup)
      (hd : ∀ a ∈ entries.map Prod.fst, a ∉ idx.lookup k) :
      ((entries.map fun p => (p.1, keysOf p.2)).foldl (fun m p => m.addAll p.2 p.1) idx).lookup k =
        idx.lookup k ++ (entries.filter fun p => k ∈ keysOf p.2).map Prod.fst := by
    induction entries generalizing idx with
    | nil => exact (append_nil _).symm
    | cons p rest ih =>
      rw [map_cons, nodup_cons] at hn
      have hp : p.1 ∉ idx.lookup k := hd p.1 mem_cons_self
      rw [map_cons, foldl_cons, ih]
      · rw [lookup_addAll, insertId, if_neg hp]
        by_cases hk : k ∈ keysOf p.2
        · simp [hk]
        · simp [hk]
      · exact hn.2
      · intro a ha
        rw [lookup_addAll, insertId, if_neg hp]
        have hold := hd a (mem_cons_of_mem _ ha)
        split
        · rw [mem_append, mem_singleton, not_or]
          exact ⟨hold, fun he => hn.1 (he ▸ ha)⟩
        · exact hold
  intro k
  have hk := hgen m.entries ∅ k m.nodup fun _ _ => not_mem_nil
  rw [lookup_empty, nil_append] at hk
  exact hk

theorem Ordered.set_new {idx : SetIndex κ α} {m : InsertionMap α β} {keysOf : β → List κ}
    (h : Ordered idx m keysOf) {a : α} (ha : m.get? a = none) (b : β) :
    Ordered (idx.addAll (keysOf b) a) (m.set a b) keysOf := by
  intro k
  rw [lookup_addAll, scan_set_new ha, h k]

theorem Ordered.set_same {idx : SetIndex κ α} {m : InsertionMap α β} {keysOf : β → List κ}
    (h : Ordered idx m keysOf) {a : α} {b b' : β} (ha : m.get? a = some b) (hk : keysOf b' = keysOf b) :
    Ordered idx (m.set a b') keysOf := by
  intro k
  rw [scan_set_same ha hk, h k]

theorem Listed.set_new {idx : SetIndex κ α} {m : InsertionMap α β} {keysOf : β → List κ}
    (h : Listed idx m keysOf) {a : α} (ha : m.get? a = none) (b : β) :
    Listed (idx.addAll (keysOf b) a) (m.set a b) keysOf := by
  intro k
  refine (perm_ext_iff_of_nodup (lookup_nodup _ k) (scan_nodup _ _ _)).mpr fun a' => ?_
  rw [lookup_addAll, scan_set_new ha]
  split
  · unfold insertId
    simp only [(h k).mem_iff]
    split <;> simp [(h k).mem_iff]
  · exact (h k).mem_iff

section
variable {a : α} {b : β} {idx : SetIndex κ α} {keysOf : β → List κ} {m : InsertionMap α β}
  (h : Listed idx m keysOf) (ha : m.get? a = some b)
include h ha

/-- Moving an id from its old keys to its new ones. -/
theorem Listed.set_moved {b' : β} :
    Listed ((idx.deleteAll (keysOf b) a).addAll (keysOf b') a) (m.set a b') keysOf := by
  intro k
  refine (perm_ext_iff_of_nodup (lookup_nodup _ k) (scan_nodup _ _ _)).mpr fun a' => ?_
  have hm := h.mem_iff k a'
  have hins (ids : List α) : a' ∈ insertId ids a ↔ a' ∈ ids ∨ a' = a := by
    unfold insertId
    split
    · rename_i hin
      exact ⟨.inl, fun ho => ho.elim id fun he => he ▸ hin⟩
    · rw [mem_append, mem_singleton]
  have hdel : a' ∈ (idx.deleteAll (keysOf b) a).lookup k ↔ a' ∈ idx.lookup k ∧ a' ≠ a := by
    rw [lookup_deleteAll]
    split
    · simp [mem_filter]
    · rename_i hk
      refine ⟨fun hin => ⟨hin, ?_⟩, And.left⟩
      rintro rfl
      obtain ⟨b₀, hb₀, hk₀⟩ := hm.mp hin
      rw [ha] at hb₀
      cases hb₀
      exact hk hk₀
  rw [lookup_addAll, mem_scan, get?_set]
  by_cases hk : k ∈ keysOf b'
  · rw [if_pos hk, hins, hdel, hm]
    by_cases he : a' = a
    · simp [he, hk]
    · simp [he]
  · rw [if_neg hk, hdel, hm]
    by_cases he : a' = a
    · simp [he, hk]
    · simp [he]

theorem Listed.set_same {b' : β} (hk : keysOf b' = keysOf b) :
    Listed idx (m.set a b') keysOf := by
  intro k
  rw [scan_set_same ha hk]
  exact h k

theorem Listed.erase :
    Listed (idx.deleteAll (keysOf b) a) (m.erase a) keysOf := by
  intro k
  rw [lookup_deleteAll, scan_erase]
  split
  · exact (h k).filter _
  · rename_i hk
    refine (h k).trans (List.Perm.of_eq (filter_eq_self.mpr fun a' ha' => ?_).symm)
    have hne : a' ≠ a := by
      rintro rfl
      obtain ⟨b', hb', hk'⟩ := (mem_scan m keysOf k a').mp ha'
      rw [ha] at hb'
      cases hb'
      exact hk hk'
    simpa using hne

end

end SetIndex

end OpenClaw.Foundation
