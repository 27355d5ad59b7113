import OpenClaw.Config.Value
import OpenClaw.Foundation.Entries

/-! Deep equality of config trees.

`isDeepStrictEqual` compares objects as sets of entries and everything else literally. On
trees without double keys it is an equivalence, and two objects are equal when they hold
equal values under every key (`deepEqual_object`). -/
namespace OpenClaw.Config
open Foundation.Entries

mutual

/-- `isDeepStrictEqual`: the order of an object's keys does not matter. -/
def Value.deepEqual : Value → Value → Bool
  | .array items, .array others => itemsDeepEqual items others
  | .object entries, .object others => entries.length = others.length && entriesDeepEqual entries others
  | .undefined, .undefined => true
  | .null, .null => true
  | .bool a, .bool b => a = b
  | .number a, .number b => a = b
  | .string a, .string b => a = b
  | _, _ => false

def itemsDeepEqual : List Value → List Value → Bool
  | [], [] => true
  | v :: rest, u :: others => v.deepEqual u && itemsDeepEqual rest others
  | _, _ => false

def entriesDeepEqual : Entries → Entries → Bool
  | [], _ => true
  | (key, v) :: rest, others => (others.lookup key).any (v.deepEqual ·) && entriesDeepEqual rest others

end

/-- `isPlainObject`. -/
def Value.isPlainObject : Value → Bool
  | .object _ => true
  | _ => false

theorem isPlainObject_iff {v : Value} : v.isPlainObject = true ↔ ∃ entries, v = .object entries := by
  cases v <;> simp [Value.isPlainObject]

theorem distinct_object {entries : Entries} :
    (Value.object entries).distinct = true ↔ entriesDistinct entries = true ∧ (keys entries).Nodup := by
  rw [Value.distinct, Bool.and_eq_true, decide_eq_true_eq]
  rfl

theorem entriesDeepEqual_iff {entries others : Entries} :
    entriesDeepEqual entries others = true ↔
      ∀ key v, (key, v) ∈ entries → ∃ u, others.lookup key = some u ∧ v.deepEqual u = true := by
  induction entries with
  | nil => simp [entriesDeepEqual]
  | cons e rest ih =>
    obtain ⟨k, x⟩ := e
    rw [entriesDeepEqual, Bool.and_eq_true, ih, Option.any_eq_true]
    constructor
    · rintro ⟨hx, hrest⟩ key v hmem
      rcases List.mem_cons.mp hmem with heq | hmem
      · cases heq
        exact hx
      · exact hrest key v hmem
    · exact fun h => ⟨h k x (List.mem_cons_self ..), fun key v hmem => h key v (List.mem_cons_of_mem _ hmem)⟩

mutual

theorem deepEqual_refl (v : Value) (h : v.distinct = true) : v.deepEqual v = true := by
  cases v with
  | array items => exact itemsDeepEqual_refl items h
  | object entries =>
    simp only [Value.distinct, Bool.and_eq_true, decide_eq_true_eq] at h
    rw [Value.deepEqual, Bool.and_eq_true]
    exact ⟨by simp, entriesDeepEqual_refl entries entries h.1 fun e he => lookup_of_mem h.2 he⟩
  | undefined | null => rfl
  | bool | number | string => simp [Value.deepEqual]

theorem itemsDeepEqual_refl (items : List Value) (h : itemsDistinct items = true) :
    itemsDeepEqual items items = true := by
  cases items with
  | nil => rfl
  | cons v rest =>
    rw [itemsDistinct, Bool.and_eq_true] at h
    rw [itemsDeepEqual, deepEqual_refl v h.1, itemsDeepEqual_refl rest h.2]
    rfl

theorem entriesDeepEqual_refl (entries others : Entries) (h : entriesDistinct entries = true)
    (hlookup : ∀ e ∈ entries, others.lookup e.1 = some e.2) : entriesDeepEqual entries others = true := by
  cases entries with
  | nil => rfl
  | cons e rest =>
    rw [entriesDistinct, Bool.and_eq_true] at h
    rw [entriesDeepEqual, hlookup e (List.mem_cons_self ..), Option.any_some, deepEqual_refl e.2 h.1,
      entriesDeepEqual_refl rest others h.2 fun e he => hlookup e (List.mem_cons_of_mem _ he)]
    rfl

end

/-- Both absent, or equal. -/
def agree : Option Value → Option Value → Bool
  | none, none => true
  | some v, some u => v.deepEqual u
  | _, _ => false

/-- **Objects without double keys are equal when they agree on every key.** -/
theorem deepEqual_object {entries others : Entries} (h : (keys entries).Nodup) (h' : (keys others).Nodup) :
    (Value.object entries).deepEqual (.object others) = true ↔
      ∀ key, agree (entries.lookup key) (others.lookup key) = true := by
  rw [Value.deepEqual, Bool.and_eq_true, decide_eq_true_eq, entriesDeepEqual_iff]
  constructor
  · rintro ⟨hlen, hall⟩ key
    have hsub : ∀ k ∈ keys entries, k ∈ keys others := by
      intro k hk
      obtain ⟨v, hv⟩ := mem_keys.mp hk
      obtain ⟨u, hu, -⟩ := hall k v (mem_of_lookup hv)
      exact mem_keys.mpr ⟨u, hu⟩
    cases hv : entries.lookup key with
    | some v =>
      obtain ⟨u, hu, heq⟩ := hall key v (mem_of_lookup hv)
      rw [hu]
      exact heq
    | none =>
      have hnot : key ∉ keys others := fun hk =>
        lookup_eq_none.mp hv (keys_of_length_le h (le_of_eq hlen.symm) hsub hk)
      rw [lookup_eq_none.mpr hnot]
      rfl
  · intro hall
    constructor
    · refine length_eq_of_keys h h' fun key => ?_
      have hkey := hall key
      rw [mem_keys, mem_keys]
      cases hv : entries.lookup key <;> cases hu : others.lookup key <;> simp_all [agree]
    · intro key v hmem
      have hkey := hall key
      rw [lookup_of_mem h hmem] at hkey
      cases hu : others.lookup key with
      | none => rw [hu] at hkey; cases hkey
      | some u => rw [hu] at hkey; exact ⟨u, rfl, hkey⟩

mutual

theorem deepEqual_trans {v : Value} (u w : Value) (h : v.deepEqual u = true) (h' : u.deepEqual w = true) :
    v.deepEqual w = true := by
  cases v with
  | array items =>
    cases u <;> cases w <;> simp only [Value.deepEqual, Bool.false_eq_true] at h h' ⊢
    exact itemsDeepEqual_trans h h'
  | object entries =>
    cases u <;> cases w <;>
      simp only [Value.deepEqual, Bool.and_eq_true, decide_eq_true_eq, Bool.false_eq_true] at h h' ⊢
    refine ⟨h.1.trans h'.1, entriesDeepEqual_trans h.2 fun key x hx => ?_⟩
    exact entriesDeepEqual_iff.mp h'.2 key x (mem_of_lookup hx)
  | undefined | null => cases u <;> simp only [Value.deepEqual, Bool.false_eq_true] at h; exact h'
  | bool | number | string =>
    cases u <;> simp only [Value.deepEqual, Bool.false_eq_true, decide_eq_true_eq] at h
    rw [h]
    exact h'
termination_by structural v

theorem itemsDeepEqual_trans {items others last : List Value} (h : itemsDeepEqual items others = true)
    (h' : itemsDeepEqual others last = true) : itemsDeepEqual items last = true := by
  cases items with
  | nil => cases others <;> simp only [itemsDeepEqual, Bool.false_eq_true] at h; exact h'
  | cons v rest =>
    cases others <;> cases last <;> simp only [itemsDeepEqual, Bool.and_eq_true, Bool.false_eq_true] at h h' ⊢
    exact ⟨deepEqual_trans _ _ h.1 h'.1, itemsDeepEqual_trans h.2 h'.2⟩
termination_by structural items

theorem entriesDeepEqual_trans {entries others last : Entries} (h : entriesDeepEqual entries others = true)
    (h' : ∀ key u, others.lookup key = some u → ∃ w, last.lookup key = some w ∧ u.deepEqual w = true) :
    entriesDeepEqual entries last = true := by
  cases entries with
  | nil => rfl
  | cons e rest =>
    obtain ⟨key, v⟩ := e
    rw [entriesDeepEqual, Bool.and_eq_true, Option.any_eq_true] at h ⊢
    obtain ⟨⟨u, hu, hvu⟩, hrest⟩ := h
    obtain ⟨w, hw, huw⟩ := h' key u hu
    exact ⟨⟨w, hw, deepEqual_trans _ _ hvu huw⟩, entriesDeepEqual_trans hrest h'⟩
termination_by structural entries

end

/-! ### Paths through objects -/

/-- What the tree holds at a path of keys; a path does not go into arrays. -/
def Value.at? (v : Value) : List String → Option Value
  | [] => some v
  | key :: rest => ((toObjectRecord (some v)).lookup key).bind (·.at? rest)

theorem at?_object_cons (entries : Entries) (key : String) (rest : List String) :
    (Value.object entries).at? (key :: rest) = (entries.lookup key).bind (·.at? rest) := rfl

end OpenClaw.Config
