import OpenClaw.Config.DeepEqual
import OpenClaw.Foundation.MapM

/-! What a config write persists.

A write diffs the config against the runtime config, projects the source onto the runtime's
shape and merges the diff into it. The diff asks `key in target`, and every object answers
yes for the methods it inherits: a key of that name that the caller removed is read as a
function, which cannot be cloned, and the write throws (`RemovesNoMethodName`). Everywhere
else the candidate holds the caller's edits and the source's own text for the rest. -/
namespace OpenClaw.Config
open Foundation.Entries Option
open Foundation (bind_ok_iff)

/-! ### Reading a property -/

/-- The functions every plain object inherits. -/
def objectPrototypeMethods : List String :=
  ["constructor", "__defineGetter__", "__defineSetter__", "hasOwnProperty", "__lookupGetter__", "__lookupSetter__",
    "isPrototypeOf", "propertyIsEnumerable", "toString", "valueOf", "toLocaleString"]

inductive Slot where
  | value (v : Value)
  | function
  deriving Repr

/-- `target[key]`, and nothing if `key in target` is false. The inherited `__proto__` is an
object without keys of its own. -/
def readKey (target : Entries) (key : String) : Option Slot :=
  match target.lookup key with
  | some v => some (.value v)
  | none =>
    if key = "__proto__" then some (.value (.object []))
    else if key ∈ objectPrototypeMethods then some .function
    else none

/-- What `structuredClone` throws on a function. -/
structure DataCloneError where
  key : String
  deriving Repr, DecidableEq

def blockedObjectKeys : List String := ["__proto__", "prototype", "constructor"]

def isBlockedObjectKey (key : String) : Bool := key ∈ blockedObjectKeys

/-! ### The three operations -/

/-- The entry of the patch under a key of the base, if there is one. -/
def keyPatch (childPatch : Value → Except DataCloneError Value) (key : String) (baseValue : Value) (target : Entries) :
    Except DataCloneError (Option Value) :=
  match readKey target key with
  | none => .ok (some .null)
  | some .function => .error ⟨key⟩
  | some (.value targetValue) =>
    if baseValue.isPlainObject && targetValue.isPlainObject then
      (childPatch targetValue).map fun child => if toObjectRecord (some child) = [] then none else some child
    else .ok (if baseValue.deepEqual targetValue then none else some targetValue)

/-- The entries of the target whose keys the base does not have. -/
def addedEntries (base target : Entries) : Entries :=
  target.filter fun e => decide (e.1 ∉ keys base ∧ e.1 ≠ "__proto__")

mutual

def createMergePatch : Value → Value → Except DataCloneError Value
  | .object base, .object target => do
    let changed ← patchEntries base target
    return .object (changed ++ addedEntries base target)
  | _, target => .ok target

def patchEntries : Entries → Entries → Except DataCloneError Entries
  | [], _ => .ok []
  | (key, baseValue) :: rest, target => do
    let entry ← keyPatch (createMergePatch baseValue) key baseValue target
    let others ← patchEntries rest target
    return match entry with
      | none => others
      | some v => assign key v others

end

mutual

def projectSourceOntoRuntimeShape : Value → Value → Value
  | .object source, .object runtime => .object (projectEntries source runtime)
  | source, _ => source

def projectEntries : Entries → Entries → Entries
  | [], _ => []
  | (key, sourceValue) :: rest, runtime =>
    match readKey runtime key with
    | none => projectEntries rest runtime
    | some .function => assign key sourceValue (projectEntries rest runtime)
    | some (.value runtimeValue) =>
      assign key (projectSourceOntoRuntimeShape sourceValue runtimeValue) (projectEntries rest runtime)

end

mutual

def applyMergePatch : Value → Value → Value
  | base, .object patch => .object (mergeEntries (toObjectRecord (some base)) patch)
  | _, patch => patch

def mergeEntries : Entries → Entries → Entries
  | result, [] => result
  | result, (key, value) :: rest =>
    if isBlockedObjectKey key then mergeEntries result rest else mergeEntries (mergeEntry result key value) rest

/-- One entry of a patch: null deletes, an object is merged into what is there. -/
def mergeEntry : Entries → String → Value → Entries
  | result, key, .null => eraseEntry key result
  | result, key, .object patch =>
    setEntry key (.object (mergeEntries (toObjectRecord (result.lookup key)) patch)) result
  | result, key, value => setEntry key value result

end

/-- The `persistCandidate` of `writeConfigFile`, and `projectConfigOntoRuntimeSourceSnapshot`. -/
def persistCandidate (resolved config cfg : Value) : Except DataCloneError Value := do
  let patch ← createMergePatch config cfg
  return applyMergePatch (projectSourceOntoRuntimeShape resolved config) patch

/-! ### The trees a write is given -/

mutual

/-- A JSON tree without nulls and without blocked keys. -/
def Value.writable : Value → Bool
  | .undefined | .null => false
  | .array items => itemsWritable items
  | .object entries => entriesWritable entries && (keys entries).Nodup
  | _ => true

def itemsWritable : List Value → Bool
  | [] => true
  | v :: rest => v.writable && itemsWritable rest

def entriesWritable : Entries → Bool
  | [] => true
  | (key, v) :: rest => !isBlockedObjectKey key && v.writable && entriesWritable rest

end

/-- Every path of the source is one of the runtime config, to an object in both or in neither. -/
def ShapedLike (source runtime : Value) : Prop :=
  ∀ path v, source.at? path = some v → ∃ u, runtime.at? path = some u ∧ v.isPlainObject = u.isPlainObject

/-- Where both configs have an object, the caller keeps every key that is named like an
inherited method. -/
def RemovesNoMethodName (config cfg : Value) : Prop :=
  ∀ path c t, config.at? path = some (.object c) → cfg.at? path = some (.object t) →
    ∀ key ∈ keys c, key ∈ objectPrototypeMethods → key ∈ keys t

/-- The caller's edits and nothing else. -/
structure PersistsEdits (resolved config cfg persisted : Value) : Prop where
  unedited : ∀ path, agree (config.at? path) (cfg.at? path) = true → persisted.at? path = resolved.at? path
  removed : ∀ path, config.at? path ≠ none → cfg.at? path = none → persisted.at? path = none
  edited : ∀ path v, cfg.at? path = some v → agree (config.at? path) (cfg.at? path) = false →
    (config.at? path).any Value.isPlainObject = false ∨ v.isPlainObject = false → persisted.at? path = some v
  same : resolved.deepEqual config = true → persisted.deepEqual cfg = true

/-! ### Writable trees -/

theorem writable_object {entries : Entries} :
    (Value.object entries).writable = true ↔ entriesWritable entries = true ∧ (keys entries).Nodup := by
  rw [Value.writable, Bool.and_eq_true, decide_eq_true_eq]

theorem entriesWritable_iff {entries : Entries} :
    entriesWritable entries = true ↔
      ∀ key v, (key, v) ∈ entries → isBlockedObjectKey key = false ∧ v.writable = true := by
  induction entries with
  | nil => simp [entriesWritable]
  | cons e rest ih =>
    obtain ⟨k, x⟩ := e
    rw [entriesWritable, Bool.and_eq_true, Bool.and_eq_true, Bool.not_eq_true', ih]
    constructor
    · rintro ⟨hx, hrest⟩ key v hmem
      rcases List.mem_cons.mp hmem with heq | hmem
      · cases heq
        exact hx
      · exact hrest key v hmem
    · exact fun h => ⟨h k x (List.mem_cons_self ..), fun key v hmem => h key v (List.mem_cons_of_mem _ hmem)⟩

variable {key : String} {v u b patch : Value} {target c' t' : Entries}

section Writable
variable {entries : Entries} (h : (Value.object entries).writable = true)
include h

theorem writable_nodup : (keys entries).Nodup := (writable_object.mp h).2

theorem writable_lookup (hv : entries.lookup key = some v) : v.writable = true :=
  (entriesWritable_iff.mp (writable_object.mp h).1 key v (mem_of_lookup hv)).2

theorem unblocked_of_mem (hkey : key ∈ keys entries) : isBlockedObjectKey key = false := by
  obtain ⟨v, hv⟩ := mem_keys.mp hkey
  exact (entriesWritable_iff.mp (writable_object.mp h).1 key v (mem_of_lookup hv)).1

theorem proto_not_mem : "__proto__" ∉ keys entries := fun hmem =>
  Bool.false_ne_true ((unblocked_of_mem h hmem).symm.trans (by decide))

end Writable

mutual

theorem writable_distinct (v : Value) (h : v.writable = true) : v.distinct = true := by
  cases v with
  | array items => exact itemsWritable_distinct items h
  | object entries =>
    rw [writable_object] at h
    exact distinct_object.mpr ⟨entriesWritable_distinct entries h.1, h.2⟩
  | undefined | null | bool | number | string => rfl

theorem itemsWritable_distinct (items : List Value) (h : itemsWritable items = true) : itemsDistinct items = true := by
  cases items with
  | nil => rfl
  | cons v rest =>
    rw [itemsWritable, Bool.and_eq_true] at h
    rw [itemsDistinct, writable_distinct v h.1, itemsWritable_distinct rest h.2]
    rfl

theorem entriesWritable_distinct (entries : Entries) (h : entriesWritable entries = true) :
    entriesDistinct entries = true := by
  cases entries with
  | nil => rfl
  | cons e rest =>
    rw [entriesWritable, Bool.and_eq_true, Bool.and_eq_true] at h
    rw [entriesDistinct, writable_distinct e.2 h.1.2, entriesWritable_distinct rest h.2]
    rfl

end

/-! ### Merging -/

/-- What merging leaves under a key that the patch has. -/
def mergedValue (old : Option Value) : Value → Option Value
  | .null => none
  | .object patch => some (.object (mergeEntries (toObjectRecord old) patch))
  | v => some v

theorem lookup_mergeEntry (result : Entries) (key k : String) (v : Value) :
    (mergeEntry result k v).lookup key = if key = k then mergedValue (result.lookup key) v else result.lookup key := by
  cases v with
  | null => rw [mergeEntry, lookup_eraseEntry]; rfl
  | object patch =>
    rw [mergeEntry, lookup_setEntry]
    by_cases hk : key = k
    · rw [if_pos hk, if_pos hk, hk]
      rfl
    · rw [if_neg hk, if_neg hk]
  | undefined | bool | number | string | array =>
    rw [mergeEntry, lookup_setEntry]
    · rfl
    all_goals simp

theorem lookup_mergeEntries {patch : Entries} (h : (keys patch).Nodup) (result : Entries) (key : String) :
    (mergeEntries result patch).lookup key =
      match patch.lookup key with
      | none => result.lookup key
      | some v => if isBlockedObjectKey key then result.lookup key else mergedValue (result.lookup key) v := by
  induction patch generalizing result with
  | nil => rw [mergeEntries]; rfl
  | cons e rest ih =>
    obtain ⟨k, v⟩ := e
    rw [keys_cons, List.nodup_cons] at h
    unfold mergeEntries
    by_cases hk : key = k
    · subst hk
      rw [lookup_cons_self]
      have hrest : rest.lookup key = none := lookup_eq_none.mpr h.1
      by_cases hb : isBlockedObjectKey key = true
      · rw [if_pos hb, ih h.2, hrest]
        simp only [hb, if_true]
      · rw [if_neg hb, ih h.2, hrest]
        simp only [hb, lookup_mergeEntry, if_true, if_false, Bool.false_eq_true]
    · rw [lookup_cons_ne hk]
      by_cases hb : isBlockedObjectKey k = true
      · rw [if_pos hb, ih h.2]
      · rw [if_neg hb, ih h.2, lookup_mergeEntry, if_neg hk]

theorem nodup_mergeEntries {result : Entries} (h : (keys result).Nodup) (patch : Entries) :
    (keys (mergeEntries result patch)).Nodup := by
  induction patch generalizing result with
  | nil => exact h
  | cons e rest ih =>
    obtain ⟨k, v⟩ := e
    unfold mergeEntries
    by_cases hb : isBlockedObjectKey k = true
    · rw [if_pos hb]
      exact ih h
    · rw [if_neg hb]
      refine ih ?_
      cases v with
      | null => exact nodup_eraseEntry h k
      | undefined | bool | number | string | array | object => exact nodup_setEntry h k _

theorem mergeEntry_new {result : Entries} (hnew : key ∉ keys result) {w : Value} (h : mergedValue none v = some w) :
    mergeEntry result key v = result ++ [(key, w)] := by
  cases v with
  | null => cases h
  | object patch =>
    cases h
    rw [mergeEntry, lookup_eq_none.mpr hnew, setEntry_new hnew]
  | undefined | bool | number | string | array =>
    cases h
    rw [mergeEntry, setEntry_new hnew]
    all_goals simp

mutual

theorem mergedValue_none (v : Value) (h : v.writable = true) : mergedValue none v = some v := by
  cases v with
  | null => exact absurd h Bool.false_ne_true
  | object entries =>
    obtain ⟨hentries, hkeys⟩ := writable_object.mp h
    exact congrArg (fun p => some (Value.object p)) (mergeEntries_new [] entries hentries hkeys)
  | undefined | bool | number | string | array => rfl

/-- **Merging a tree without nulls and blocked keys into new keys copies it.** -/
theorem mergeEntries_new (result entries : Entries) (h : entriesWritable entries = true)
    (hnodup : (keys (result ++ entries)).Nodup) : mergeEntries result entries = result ++ entries := by
  cases entries with
  | nil => rw [mergeEntries, List.append_nil]
  | cons e rest =>
    rw [entriesWritable, Bool.and_eq_true, Bool.and_eq_true, Bool.not_eq_true'] at h
    have hnew : e.1 ∉ keys result := by
      rw [keys, List.map_append, List.nodup_append] at hnodup
      exact fun hmem => hnodup.2.2 e.1 hmem e.1 (List.mem_cons_self ..) rfl
    unfold mergeEntries
    rw [if_neg (by simp [h.1.1]), mergeEntry_new hnew (mergedValue_none e.2 h.1.2),
      mergeEntries_new (result ++ [e]) rest h.2 (by simpa using hnodup)]
    simp

end

/-- A writable value merged where there is no object is the value. -/
theorem mergedValue_new {old : Option Value} (hold : toObjectRecord old = []) (h : v.writable = true) :
    mergedValue old v = some v := by
  rw [← mergedValue_none v h]
  cases v with
  | object entries => rw [mergedValue, mergedValue, hold]; rfl
  | undefined | null | bool | number | string | array => rfl

/-! ### Projecting -/

theorem ShapedLike.isPlainObject (h : ShapedLike v u) : v.isPlainObject = u.isPlainObject := by
  obtain ⟨w, hw, heq⟩ := h [] v rfl
  cases hw
  exact heq

theorem ShapedLike.lookup {source runtime : Entries} (h : ShapedLike (.object source) (.object runtime))
    (hv : source.lookup key = some v) : ∃ u, runtime.lookup key = some u ∧ ShapedLike v u := by
  obtain ⟨u, hu, -⟩ := h [key] v (by rw [at?_object_cons, hv]; rfl)
  rw [at?_object_cons, bind_eq_some_iff] at hu
  obtain ⟨u', hu', -⟩ := hu
  refine ⟨u', hu', fun path w hw => ?_⟩
  obtain ⟨x, hx, heq⟩ := h (key :: path) w (by rw [at?_object_cons, hv]; exact hw)
  rw [at?_object_cons, hu'] at hx
  exact ⟨x, hx, heq⟩

theorem readKey_of_lookup (h : target.lookup key = some v) :
    readKey target key = some (.value v) := by
  rw [readKey, h]

mutual

/-- **The projection of a source of the runtime's shape is the source.** -/
theorem project_shaped (v u : Value) (hw : v.writable = true) (h : ShapedLike v u) :
    projectSourceOntoRuntimeShape v u = v := by
  cases v with
  | object source =>
    obtain ⟨runtime, rfl⟩ := isPlainObject_iff.mp h.isPlainObject.symm
    obtain ⟨hentries, hkeys⟩ := writable_object.mp hw
    rw [projectSourceOntoRuntimeShape,
      projectEntries_shaped source runtime hentries fun e he => h.lookup (lookup_of_mem hkeys he)]
  | undefined | null | bool | number | string | array =>
    rw [projectSourceOntoRuntimeShape]
    simp

theorem projectEntries_shaped (source runtime : Entries) (hw : entriesWritable source = true)
    (h : ∀ e ∈ source, ∃ u, runtime.lookup e.1 = some u ∧ ShapedLike e.2 u) :
    projectEntries source runtime = source := by
  cases source with
  | nil => rfl
  | cons e rest =>
    rw [entriesWritable, Bool.and_eq_true, Bool.and_eq_true, Bool.not_eq_true'] at hw
    obtain ⟨u, hu, hshape⟩ := h e (List.mem_cons_self ..)
    have hproto : e.1 ≠ "__proto__" := by
      intro heq
      rw [heq] at hw
      exact Bool.false_ne_true (hw.1.1.symm.trans (by decide))
    rw [projectEntries, readKey_of_lookup hu]
    dsimp only
    rw [project_shaped e.2 u hw.1.2 hshape,
      projectEntries_shaped rest runtime hw.2 fun e he => h e (List.mem_cons_of_mem _ he), assign, if_neg hproto]

end

/-! ### The patch, key by key -/

theorem patchEntries_cons {rest p : Entries} (hproto : key ≠ "__proto__")
    (h : patchEntries ((key, b) :: rest) target = .ok p) :
    ∃ entry others, keyPatch (createMergePatch b) key b target = .ok entry ∧ patchEntries rest target = .ok others ∧
      p = (match entry with | none => others | some v => (key, v) :: others) := by
  rw [patchEntries, bind_ok_iff] at h
  obtain ⟨entry, hentry, h⟩ := h
  obtain ⟨others, hothers, h⟩ := bind_ok_iff.mp h
  refine ⟨entry, others, hentry, hothers, ?_⟩
  cases h
  cases entry with
  | none => rfl
  | some v => exact if_neg hproto

theorem keys_patchEntries {base p : Entries} (hproto : "__proto__" ∉ keys base)
    (h : patchEntries base target = .ok p) : (keys p).Sublist (keys base) := by
  induction base generalizing p with
  | nil =>
    cases h
    exact List.Sublist.slnil
  | cons e rest ih =>
    rw [keys_cons, List.mem_cons, not_or] at hproto
    obtain ⟨entry, others, -, hothers, rfl⟩ := patchEntries_cons (fun heq => hproto.1 heq.symm) h
    cases entry with
    | none => exact (ih hproto.2 hothers).cons _
    | some v => exact (ih hproto.2 hothers).cons_cons _

theorem lookup_patchEntries {base p : Entries} (hnodup : (keys base).Nodup) (hproto : "__proto__" ∉ keys base)
    (h : patchEntries base target = .ok p) (hb : base.lookup key = some b) :
    keyPatch (createMergePatch b) key b target = .ok (p.lookup key) := by
  induction base generalizing p with
  | nil => cases hb
  | cons e rest ih =>
    obtain ⟨k, x⟩ := e
    rw [keys_cons, List.nodup_cons] at hnodup
    rw [keys_cons, List.mem_cons, not_or] at hproto
    obtain ⟨entry, others, hentry, hothers, rfl⟩ := patchEntries_cons (fun heq => hproto.1 heq.symm) h
    by_cases hk : key = k
    · subst hk
      rw [lookup_cons_self] at hb
      cases hb
      have hnone : others.lookup key = none := lookup_eq_none.mpr fun hmem =>
        hnodup.1 ((keys_patchEntries hproto.2 hothers).subset hmem)
      rw [hentry]
      cases entry with
      | none => rw [hnone]
      | some v => rw [lookup_cons_self]
    · rw [lookup_cons_ne hk] at hb
      rw [ih hnodup.2 hproto.2 hothers hb]
      cases entry with
      | none => rfl
      | some v => rw [lookup_cons_ne hk]

/-- What the patch of two objects has under each key. -/
structure PatchOf (c t p : Entries) : Prop where
  nodup : (keys p).Nodup
  added : ∀ key, c.lookup key = none → p.lookup key = t.lookup key
  kept : ∀ key b, c.lookup key = some b → keyPatch (createMergePatch b) key b t = .ok (p.lookup key)

theorem patchOf_createMergePatch {c t : Entries} (hc : (Value.object c).writable = true)
    (ht : (Value.object t).writable = true) (h : createMergePatch (.object c) (.object t) = .ok patch) :
    ∃ p, patch = .object p ∧ PatchOf c t p := by
  rw [createMergePatch, bind_ok_iff] at h
  obtain ⟨changed, hchanged, h⟩ := h
  cases h
  have hsub := keys_patchEntries (proto_not_mem hc) hchanged
  have hadded : ∀ key, (addedEntries c t).lookup key = if key ∈ keys c then none else t.lookup key := by
    intro key
    rw [addedEntries, lookup_filter fun k => decide (k ∉ keys c ∧ k ≠ "__proto__")]
    by_cases hkey : key ∈ keys c
    · simp [hkey]
    · by_cases hproto : key = "__proto__"
      · simp [hproto, lookup_eq_none.mpr (proto_not_mem ht)]
      · simp [hkey, hproto]
  refine ⟨_, rfl, ?_, fun key hkey => ?_, fun key b hb => ?_⟩
  · rw [keys, List.map_append, List.nodup_append]
    refine ⟨(writable_nodup hc).sublist hsub, (writable_nodup ht).sublist (List.filter_sublist.map Prod.fst), ?_⟩
    rintro a ha b hb rfl
    obtain ⟨v, hv⟩ := mem_keys.mp hb
    rw [hadded, if_pos (hsub.subset ha)] at hv
    cases hv
  · rw [lookup_append, hadded, if_neg (lookup_eq_none.mp hkey),
      lookup_eq_none.mpr fun hmem => lookup_eq_none.mp hkey (hsub.subset hmem), none_or]
  · rw [lookup_patchEntries (writable_nodup hc) (proto_not_mem hc) hchanged hb, lookup_append, hadded,
      if_pos (mem_keys.mpr ⟨b, hb⟩), or_none]

/-! ### The candidate, key by key -/

/-- The record that an object under a key is merged into. -/
theorem record_of_shaped {s c : Entries} (hshape : ShapedLike (.object s) (.object c))
    (h : (c.lookup key).any Value.isPlainObject = false) : toObjectRecord (s.lookup key) = [] := by
  cases hv : s.lookup key with
  | none => rfl
  | some v =>
    obtain ⟨u, hu, hvu⟩ := hshape.lookup hv
    rw [hu, any_some, ← hvu.isPlainObject] at h
    cases v with
    | object entries => cases h
    | undefined | null | bool | number | string | array => rfl

section Candidate
variable {s c t p : Entries} (hc : (Value.object c).writable = true) (ht : (Value.object t).writable = true)
  (hshape : ShapedLike (.object s) (.object c)) (hp : PatchOf c t p)
include ht hp

include hshape in
theorem candidate_added (h : c.lookup key = none) :
    (mergeEntries s p).lookup key = t.lookup key := by
  have hs : s.lookup key = none := by
    cases hv : s.lookup key with
    | none => rfl
    | some v =>
      obtain ⟨u, hu, -⟩ := hshape.lookup hv
      rw [h] at hu
      cases hu
  rw [lookup_mergeEntries hp.nodup, hp.added key h]
  cases hv : t.lookup key with
  | none => exact hs
  | some v =>
    dsimp only
    rw [unblocked_of_mem ht (mem_keys.mpr ⟨v, hv⟩), if_neg Bool.false_ne_true, hs,
      mergedValue_new rfl (writable_lookup ht hv)]

include hc in
omit ht in
theorem candidate_removed (hb : c.lookup key = some b) (h : t.lookup key = none) :
    key ∉ objectPrototypeMethods ∧ (mergeEntries s p).lookup key = none := by
  have hmem : key ∈ keys c := mem_keys.mpr ⟨b, hb⟩
  have hproto : key ≠ "__proto__" := fun heq => proto_not_mem hc (heq ▸ hmem)
  have hkept := hp.kept key b hb
  rw [keyPatch, readKey, h] at hkept
  dsimp only at hkept
  rw [if_neg hproto] at hkept
  by_cases hm : key ∈ objectPrototypeMethods
  · rw [if_pos hm] at hkept
    cases hkept
  · rw [if_neg hm] at hkept
    refine ⟨hm, ?_⟩
    rw [lookup_mergeEntries hp.nodup, ← Except.ok.inj hkept]
    dsimp only
    rw [unblocked_of_mem hc hmem]
    rfl

include hc in
omit ht in
theorem candidate_nested (hb : c.lookup key = some (.object c')) (hv : t.lookup key = some (.object t')) :
    ∃ patch, createMergePatch (.object c') (.object t') = .ok patch ∧
      (mergeEntries s p).lookup key = if toObjectRecord (some patch) = [] then s.lookup key
        else mergedValue (s.lookup key) patch := by
  have hkept := hp.kept key _ hb
  rw [keyPatch, readKey_of_lookup hv] at hkept
  dsimp only at hkept
  rw [if_pos (show ((Value.object c').isPlainObject && (Value.object t').isPlainObject) = true from rfl)] at hkept
  cases hpatch : createMergePatch (.object c') (.object t') with
  | error e => rw [hpatch] at hkept; cases hkept
  | ok patch =>
    rw [hpatch] at hkept
    have hentry : p.lookup key = if toObjectRecord (some patch) = [] then none else some patch :=
      (Except.ok.inj hkept).symm
    refine ⟨patch, rfl, ?_⟩
    rw [lookup_mergeEntries hp.nodup, hentry]
    by_cases hempty : toObjectRecord (some patch) = []
    · rw [if_pos hempty, if_pos hempty]
    · rw [if_neg hempty, if_neg hempty]
      dsimp only
      rw [unblocked_of_mem hc (mem_keys.mpr ⟨_, hb⟩)]
      rfl

include hc hshape in
theorem candidate_replaced (hb : c.lookup key = some b) (hv : t.lookup key = some v)
    (h : (b.isPlainObject && v.isPlainObject) = false) :
    (mergeEntries s p).lookup key = if b.deepEqual v then s.lookup key else some v := by
  have hkept := hp.kept key _ hb
  rw [keyPatch, readKey_of_lookup hv] at hkept
  dsimp only at hkept
  rw [if_neg (by simp [h])] at hkept
  rw [lookup_mergeEntries hp.nodup, ← Except.ok.inj hkept]
  by_cases heq : b.deepEqual v = true
  · rw [if_pos heq, if_pos heq]
  · rw [if_neg heq, if_neg heq]
    dsimp only
    rw [unblocked_of_mem hc (mem_keys.mpr ⟨_, hb⟩), if_neg Bool.false_ne_true]
    by_cases hvo : v.isPlainObject = true
    · refine mergedValue_new (record_of_shaped hshape ?_) (writable_lookup ht hv)
      rw [hb, any_some]
      simpa [hvo] using h
    · have hw := writable_lookup ht hv
      cases v with
      | object entries => exact absurd rfl hvo
      | null => cases hw
      | undefined | bool | number | string | array => rfl

end Candidate

/-! ### The candidate, path by path -/

/-- What is persisted at one path. -/
structure PersistsAt (resolved config cfg persisted : Option Value) : Prop where
  unedited : agree config cfg = true → persisted = resolved
  removed : config ≠ none → cfg = none → persisted = none
  edited : ∀ v, cfg = some v → agree config cfg = false →
    config.any Value.isPlainObject = false ∨ v.isPlainObject = false → persisted = some v

theorem PersistsAt.of_edited {s c t p : Option Value} (hp : p = t) (h : agree c t = true → t = s) :
    PersistsAt s c t p := by
  subst hp
  exact ⟨h, fun _ ht => ht, fun _ hv _ _ => hv⟩

theorem agree_none_left {t : Option Value} (h : agree none t = true) : t = none := by
  cases t with
  | none => rfl
  | some v => cases h

theorem agree_none_right {c : Option Value} (h : agree c none = true) : c = none := by
  cases c with
  | none => rfl
  | some v => cases h

theorem at?_singleton (entries : Entries) (key : String) : (Value.object entries).at? [key] = entries.lookup key := by
  rw [at?_object_cons]
  cases entries.lookup key <;> rfl

theorem ShapedLike.absent (h : ShapedLike v u) {path : List String} (hu : u.at? path = none) :
    v.at? path = none := by
  cases hv : v.at? path with
  | none => rfl
  | some w =>
    obtain ⟨x, hx, -⟩ := h path w hv
    rw [hu] at hx
    cases hx

theorem at?_cons_of_scalar (h : v.isPlainObject = false) (key : String) (rest : List String) :
    v.at? (key :: rest) = none := by
  cases v with
  | object entries => cases h
  | undefined | null | bool | number | string | array => rfl

theorem shapedLike_nil (c : Entries) : ShapedLike (.object []) (.object c)
  | [], _, h => by cases h; exact ⟨_, rfl, rfl⟩
  | _ :: _, _, h => by cases h

/-- The source's record under a key is shaped like the runtime's object there. -/
theorem ShapedLike.record {s c : Entries} (h : ShapedLike (.object s) (.object c))
    (hc : c.lookup key = some (.object c')) : ShapedLike (.object (toObjectRecord (s.lookup key))) (.object c') := by
  cases hv : s.lookup key with
  | none => exact shapedLike_nil c'
  | some v =>
    obtain ⟨u, hu, hvu⟩ := h.lookup hv
    rw [hc] at hu
    cases hu
    obtain ⟨s', rfl⟩ := isPlainObject_iff.mp hvu.isPlainObject
    exact hvu

theorem at?_record (s : Entries) (key k : String) (rest : List String) :
    (Value.object s).at? (key :: k :: rest) = (Value.object (toObjectRecord (s.lookup key))).at? (k :: rest) := by
  rw [at?_object_cons, at?_object_cons]
  cases hv : s.lookup key with
  | _ => rfl

theorem writable_record {s : Entries} (h : (Value.object s).writable = true) (key : String) :
    (Value.object (toObjectRecord (s.lookup key))).writable = true := by
  cases hv : s.lookup key with
  | none => rfl
  | some v =>
    cases v with
    | object s' => exact writable_lookup h hv
    | undefined | null | bool | number | string | array => rfl

theorem deepEqual_isPlainObject (h : v.deepEqual u = true) : v.isPlainObject = u.isPlainObject := by
  cases v <;> cases u <;> simp only [Value.deepEqual, Bool.false_eq_true] at h <;> rfl

theorem keyPatch_equal {childPatch : Value → Except DataCloneError Value} {t : Entries}
    (hv : t.lookup key = some v) (h : b.deepEqual v = true)
    (hchild : b.isPlainObject = true → childPatch v = .ok (.object [])) : keyPatch childPatch key b t = .ok none := by
  rw [keyPatch, readKey_of_lookup hv]
  dsimp only
  rw [← deepEqual_isPlainObject h, Bool.and_self]
  by_cases hb : b.isPlainObject = true
  · rw [if_pos hb, hchild hb]
    rfl
  · rw [if_neg hb, if_pos h]

mutual

/-- **Equal objects have an empty patch.** -/
theorem createMergePatch_equal (b v : Value) (hb : b.writable = true) (hv : v.writable = true)
    (h : b.deepEqual v = true) (hobject : b.isPlainObject = true) : createMergePatch b v = .ok (.object []) := by
  cases b with
  | object c =>
    obtain ⟨t, rfl⟩ := isPlainObject_iff.mp ((deepEqual_isPlainObject h).symm.trans hobject)
    rw [deepEqual_object (writable_nodup hb) (writable_nodup hv)] at h
    have hadded : addedEntries c t = [] := by
      refine List.filter_eq_nil_iff.mpr fun e he hpos => ?_
      have hkey := h e.1
      rw [lookup_eq_none.mpr (of_decide_eq_true hpos).1, lookup_of_mem (writable_nodup hv) he] at hkey
      cases hkey
    rw [createMergePatch, patchEntries_equal c t (writable_object.mp hb).1 fun e he => ?_]
    · rw [hadded]
      rfl
    · have hkey := h e.1
      rw [lookup_of_mem (writable_nodup hb) he] at hkey
      cases hx : t.lookup e.1 with
      | none => rw [hx] at hkey; cases hkey
      | some x =>
        rw [hx] at hkey
        exact ⟨x, rfl, hkey, writable_lookup hv hx⟩
  | undefined | null | bool | number | string | array => cases hobject

theorem patchEntries_equal (c t : Entries) (hc : entriesWritable c = true)
    (h : ∀ e ∈ c, ∃ v, t.lookup e.1 = some v ∧ e.2.deepEqual v = true ∧ v.writable = true) :
    patchEntries c t = .ok [] := by
  cases c with
  | nil => rfl
  | cons e rest =>
    rw [entriesWritable, Bool.and_eq_true, Bool.and_eq_true] at hc
    obtain ⟨v, hv, heq, hw⟩ := h e (List.mem_cons_self ..)
    rw [patchEntries, keyPatch_equal hv heq fun hobject => createMergePatch_equal e.2 v hc.1.2 hw heq hobject,
      patchEntries_equal rest t hc.2 fun e he => h e (List.mem_cons_of_mem _ he)]
    rfl

end

/-- What a nested patch leaves, whether it is empty or not. -/
theorem at?_nested {s : Entries} {k : String} {rest : List String} {P : Entries}
    (hc : (Value.object c').writable = true) (ht : (Value.object t').writable = true)
    (hpatch : createMergePatch (.object c') (.object t') = .ok patch)
    (hP : P.lookup key = if toObjectRecord (some patch) = [] then s.lookup key else mergedValue (s.lookup key) patch) :
    (Value.object P).at? (key :: k :: rest) =
      (applyMergePatch (.object (toObjectRecord (s.lookup key))) patch).at? (k :: rest) := by
  obtain ⟨q, rfl, -⟩ := patchOf_createMergePatch hc ht hpatch
  rw [at?_object_cons, hP, applyMergePatch, toObjectRecord_object]
  dsimp only [toObjectRecord_object]
  by_cases hq : q = []
  · subst hq
    rw [if_pos rfl, mergeEntries, ← at?_record, at?_object_cons]
  · rw [if_neg hq]
    rfl

/-- **At every path the candidate has the edit or the source's own value.** -/
theorem persistsAt (path : List String) {s c t : Entries} (hs : (Value.object s).writable = true)
    (hc : (Value.object c).writable = true) (ht : (Value.object t).writable = true)
    (hshape : ShapedLike (.object s) (.object c)) (hpatch : createMergePatch (.object c) (.object t) = .ok patch) :
    PersistsAt ((Value.object s).at? path) ((Value.object c).at? path) ((Value.object t).at? path)
      ((applyMergePatch (.object s) patch).at? path) := by
  induction path generalizing s c t patch with
  | nil =>
    refine ⟨fun h => ?_, fun _ h => (by cases h), fun v hv _ hobject => ?_⟩
    · cases hpatch.symm.trans (createMergePatch_equal _ _ hc ht h rfl)
      rfl
    · cases hv
      rcases hobject with hobject | hobject <;> cases hobject
  | cons key rest ih =>
    obtain ⟨p, rfl, hp⟩ := patchOf_createMergePatch hc ht hpatch
    rw [applyMergePatch, toObjectRecord_object]
    cases hb : c.lookup key with
    | none =>
      have habsent : (Value.object c).at? (key :: rest) = none := by rw [at?_object_cons, hb]; rfl
      refine PersistsAt.of_edited ?_ fun h => ?_
      · rw [at?_object_cons, at?_object_cons, candidate_added ht hshape hp hb]
      · rw [habsent] at h
        rw [agree_none_left h, hshape.absent habsent]
    | some b =>
      cases hv : t.lookup key with
      | none =>
        refine PersistsAt.of_edited ?_ fun h => ?_
        · rw [at?_object_cons, at?_object_cons, (candidate_removed hc hp hb hv).2, hv]
        · have hnone : (Value.object t).at? (key :: rest) = none := by rw [at?_object_cons, hv]; rfl
          rw [hnone] at h ⊢
          exact (hshape.absent (agree_none_right h)).symm
      | some v =>
        by_cases hobject : (b.isPlainObject && v.isPlainObject) = true
        · -- the patch of the two objects below decides every longer path
          rw [Bool.and_eq_true] at hobject
          obtain ⟨c', rfl⟩ := isPlainObject_iff.mp hobject.1
          obtain ⟨t', rfl⟩ := isPlainObject_iff.mp hobject.2
          obtain ⟨child, hchild, hP⟩ := candidate_nested (s := s) hc hp hb hv
          cases rest with
          | nil =>
            rw [at?_singleton, at?_singleton, at?_singleton, hb, hv]
            refine ⟨fun h => ?_, fun _ h => (by cases h), fun w hw _ hscalar => ?_⟩
            · have hempty := createMergePatch_equal _ _ (writable_lookup hc hb) (writable_lookup ht hv) h rfl
              cases hchild.symm.trans hempty
              exact (at?_singleton ..).trans hP
            · cases hw
              rcases hscalar with hscalar | hscalar <;> cases hscalar
          | cons k rest =>
            rw [at?_record s, at?_nested (writable_lookup hc hb) (writable_lookup ht hv) hchild hP,
              at?_object_cons c, at?_object_cons t, hb, hv, bind_some, bind_some]
            exact ih (writable_record hs key) (writable_lookup hc hb) (writable_lookup ht hv) (hshape.record hb) hchild
        · rw [Bool.not_eq_true] at hobject
          have hP := candidate_replaced hc ht hshape hp hb hv hobject
          by_cases heq : b.deepEqual v = true
          · rw [if_pos heq] at hP
            rw [at?_object_cons (mergeEntries s p), hP, ← at?_object_cons]
            have hscalar : v.isPlainObject = false := by
              rw [deepEqual_isPlainObject heq, Bool.and_self] at hobject
              exact hobject
            have hscalar' := (deepEqual_isPlainObject heq).trans hscalar
            rw [at?_object_cons c, at?_object_cons t, hb, hv, bind_some, bind_some]
            cases rest with
            | nil => exact ⟨fun _ => rfl, fun _ h => (by cases h), fun w _ hne => absurd heq (by simpa [agree, Value.at?] using hne)⟩
            | cons k rest =>
              rw [at?_cons_of_scalar hscalar, at?_cons_of_scalar hscalar']
              exact ⟨fun _ => rfl, fun h => absurd rfl h, fun w hw => (by cases hw)⟩
          · rw [if_neg heq] at hP
            refine PersistsAt.of_edited ?_ fun h => ?_
            · rw [at?_object_cons, at?_object_cons, hP, hv]
            · -- one of the two is no object, so the configs agree below only where neither has anything
              have hC : (Value.object c).at? (key :: rest) = b.at? rest := by rw [at?_object_cons, hb]; rfl
              have hT : (Value.object t).at? (key :: rest) = v.at? rest := by rw [at?_object_cons, hv]; rfl
              cases rest with
              | nil =>
                rw [hC, hT] at h
                exact absurd h heq
              | cons k rest =>
                rcases Bool.and_eq_false_iff.mp hobject with hscalar | hscalar
                · rw [at?_cons_of_scalar hscalar] at hC
                  rw [hC] at h
                  rw [agree_none_left h, hshape.absent hC]
                · rw [at?_cons_of_scalar hscalar] at hT
                  rw [hT] at h ⊢
                  exact (hshape.absent (agree_none_right h)).symm

/-! ### A config edited from its own source -/

theorem agree_refl {v : Option Value} (h : ∀ u, v = some u → u.distinct = true) : agree v v = true := by
  cases v with
  | none => rfl
  | some u => exact deepEqual_refl u (h u rfl)

theorem sizeOf_lookup {entries : Entries} (h : entries.lookup key = some v) :
    sizeOf v < sizeOf entries := by
  have hmem := List.sizeOf_lt_of_mem (mem_of_lookup h)
  rw [Prod.mk.sizeOf_spec] at hmem
  omega

/-- **A source that is the runtime config becomes the config to write.** -/
theorem candidate_same (s c t : Entries) (patch : Value) (hs : (Value.object s).writable = true)
    (hc : (Value.object c).writable = true) (ht : (Value.object t).writable = true)
    (hshape : ShapedLike (.object s) (.object c)) (hpatch : createMergePatch (.object c) (.object t) = .ok patch)
    (hsame : (Value.object s).deepEqual (.object c) = true) :
    (applyMergePatch (.object s) patch).deepEqual (.object t) = true := by
  obtain ⟨p, rfl, hp⟩ := patchOf_createMergePatch hc ht hpatch
  rw [deepEqual_object (writable_nodup hs) (writable_nodup hc)] at hsame
  rw [applyMergePatch, toObjectRecord_object, deepEqual_object (nodup_mergeEntries (writable_nodup hs) p)
    (writable_nodup ht)]
  intro key
  have hrefl : agree (t.lookup key) (t.lookup key) = true := agree_refl fun u hu =>
    writable_distinct u (writable_lookup ht hu)
  cases hb : c.lookup key with
  | none => rwa [candidate_added ht hshape hp hb]
  | some b =>
    cases hv : t.lookup key with
    | none =>
      rw [(candidate_removed hc hp hb hv).2]
      rfl
    | some v =>
      have hu := hsame key
      rw [hb] at hu
      by_cases hobject : (b.isPlainObject && v.isPlainObject) = true
      · rw [Bool.and_eq_true] at hobject
        obtain ⟨c', rfl⟩ := isPlainObject_iff.mp hobject.1
        obtain ⟨t', rfl⟩ := isPlainObject_iff.mp hobject.2
        obtain ⟨child, hchild, hP⟩ := candidate_nested (s := s) hc hp hb hv
        obtain ⟨s', hs', hsame'⟩ : ∃ s', s.lookup key = some (.object s') ∧
            (Value.object s').deepEqual (.object c') = true := by
          cases hx : s.lookup key with
          | none => rw [hx] at hu; cases hu
          | some u =>
            rw [hx] at hu
            obtain ⟨s', rfl⟩ := isPlainObject_iff.mp (deepEqual_isPlainObject hu)
            exact ⟨s', rfl, hu⟩
        have hshape' := hshape.record hb
        rw [hs'] at hshape'
        have hlt : sizeOf c' < sizeOf c := by
          have h := sizeOf_lookup hb
          rw [Value.object.sizeOf_spec] at h
          omega
        have ih := candidate_same s' c' t' child (writable_lookup hs hs') (writable_lookup hc hb)
          (writable_lookup ht hv) hshape' hchild hsame'
        obtain ⟨q, rfl, -⟩ := patchOf_createMergePatch (writable_lookup hc hb) (writable_lookup ht hv) hchild
        rw [hP, hs', toObjectRecord_object]
        by_cases hq : q = []
        · subst hq
          rw [if_pos rfl]
          exact ih
        · rw [if_neg hq]
          exact ih
      · rw [Bool.not_eq_true] at hobject
        rw [candidate_replaced hc ht hshape hp hb hv hobject]
        by_cases heq : b.deepEqual v = true
        · rw [if_pos heq]
          cases hx : s.lookup key with
          | none => rw [hx] at hu; cases hu
          | some u =>
            rw [hx] at hu
            exact deepEqual_trans b v hu heq
        · rw [if_neg heq]
          rw [hv] at hrefl
          exact hrefl
termination_by sizeOf c
decreasing_by exact hlt

/-! ### When there is a candidate -/

theorem RemovesNoMethodName.lookup {c t : Entries} (h : RemovesNoMethodName (.object c) (.object t))
    (hb : c.lookup key = some b) (hv : t.lookup key = some v) : RemovesNoMethodName b v := by
  intro path c' t' hc' ht'
  exact h (key :: path) c' t' (by rw [at?_object_cons, hb]; exact hc') (by rw [at?_object_cons, hv]; exact ht')

theorem readKey_none_or {t : Entries} (hproto : key ≠ "__proto__")
    (hmethod : key ∈ objectPrototypeMethods → key ∈ keys t) (h : t.lookup key = none) : readKey t key = none := by
  rw [readKey, h]
  dsimp only
  rw [if_neg hproto, if_neg fun hm => lookup_eq_none.mp h (hmethod hm)]

mutual

theorem createMergePatch_total (b v : Value) (hb : b.writable = true) (h : RemovesNoMethodName b v) :
    ∃ patch, createMergePatch b v = .ok patch := by
  cases b with
  | object c =>
    cases v with
    | object t =>
      obtain ⟨hc, hnodup⟩ := writable_object.mp hb
      obtain ⟨p, hp⟩ := patchEntries_total c t hc (fun e he => h [] c t rfl rfl e.1 (List.mem_map_of_mem he))
        fun e he v hv => h.lookup (lookup_of_mem hnodup he) hv
      rw [createMergePatch, hp]
      exact ⟨_, rfl⟩
    | undefined | null | bool | number | string | array => exact ⟨_, rfl⟩
  | undefined | null | bool | number | string | array => exact ⟨_, by rw [createMergePatch]; simp⟩

theorem patchEntries_total (c t : Entries) (hc : entriesWritable c = true)
    (hkeys : ∀ e ∈ c, e.1 ∈ objectPrototypeMethods → e.1 ∈ keys t)
    (h : ∀ e ∈ c, ∀ v, t.lookup e.1 = some v → RemovesNoMethodName e.2 v) : ∃ p, patchEntries c t = .ok p := by
  cases c with
  | nil => exact ⟨[], rfl⟩
  | cons e rest =>
    rw [entriesWritable, Bool.and_eq_true, Bool.and_eq_true, Bool.not_eq_true'] at hc
    have hproto : e.1 ≠ "__proto__" := by
      intro heq
      rw [heq] at hc
      exact Bool.false_ne_true (hc.1.1.symm.trans (by decide))
    obtain ⟨p, hp⟩ := patchEntries_total rest t hc.2 (fun e he => hkeys e (List.mem_cons_of_mem _ he))
      fun e he => h e (List.mem_cons_of_mem _ he)
    obtain ⟨entry, hentry⟩ : ∃ entry, keyPatch (createMergePatch e.2) e.1 e.2 t = .ok entry := by
      rw [keyPatch]
      cases hv : t.lookup e.1 with
      | none =>
        rw [readKey_none_or hproto (hkeys e (List.mem_cons_self ..)) hv]
        exact ⟨_, rfl⟩
      | some v =>
        rw [readKey_of_lookup hv]
        dsimp only
        by_cases hobject : (e.2.isPlainObject && v.isPlainObject) = true
        · obtain ⟨child, hchild⟩ := createMergePatch_total e.2 v hc.1.2 (h e (List.mem_cons_self ..) v hv)
          rw [if_pos hobject, hchild]
          exact ⟨_, rfl⟩
        · rw [if_neg hobject]
          exact ⟨_, rfl⟩
    rw [patchEntries, hentry, hp]
    exact ⟨_, rfl⟩

end

theorem isPlainObject_of_at? {path : List String} {entries : Entries} (h : v.at? path = some (.object entries)) :
    v.isPlainObject = true := by
  cases path with
  | nil =>
    cases h
    rfl
  | cons key rest =>
    cases hv : v.isPlainObject with
    | true => rfl
    | false =>
      rw [at?_cons_of_scalar hv] at h
      cases h

/-- A patch that could be taken read no method for a key. -/
theorem removesNoMethodName_of_patch (path : List String) {c t : Entries} (hc : (Value.object c).writable = true)
    (ht : (Value.object t).writable = true) (hpatch : createMergePatch (.object c) (.object t) = .ok patch)
    (hc' : (Value.object c).at? path = some (.object c')) (ht' : (Value.object t).at? path = some (.object t'))
    (hkey : key ∈ keys c') (hmethod : key ∈ objectPrototypeMethods) : key ∈ keys t' := by
  induction path generalizing c t patch with
  | nil =>
    cases hc'
    cases ht'
    obtain ⟨p, -, hp⟩ := patchOf_createMergePatch hc ht hpatch
    obtain ⟨b, hb⟩ := mem_keys.mp hkey
    cases hv : t'.lookup key with
    | some v => exact mem_keys.mpr ⟨v, hv⟩
    | none => exact absurd hmethod (candidate_removed (s := []) hc hp hb hv).1
  | cons k rest ih =>
    obtain ⟨p, -, hp⟩ := patchOf_createMergePatch hc ht hpatch
    rw [at?_object_cons, bind_eq_some_iff] at hc' ht'
    obtain ⟨b, hb, hc'⟩ := hc'
    obtain ⟨v, hv, ht'⟩ := ht'
    obtain ⟨d, rfl⟩ := isPlainObject_iff.mp (isPlainObject_of_at? hc')
    obtain ⟨u, rfl⟩ := isPlainObject_iff.mp (isPlainObject_of_at? ht')
    obtain ⟨child, hchild, -⟩ := candidate_nested (s := []) hc hp hb hv
    exact ih (writable_lookup hc hb) (writable_lookup ht hv) hchild hc' ht'

/-- **A write persists the caller's edits and nothing else exactly if the caller removes no
key named like an inherited method.** -/
theorem persistCandidate_persistsEdits_iff (s c t : Entries) (hs : (Value.object s).writable = true)
    (hc : (Value.object c).writable = true) (ht : (Value.object t).writable = true)
    (hshape : ShapedLike (.object s) (.object c)) :
    (∃ persisted, persistCandidate (.object s) (.object c) (.object t) = .ok persisted ∧
      PersistsEdits (.object s) (.object c) (.object t) persisted) ↔
      RemovesNoMethodName (.object c) (.object t) := by
  constructor
  · rintro ⟨persisted, h, -⟩
    obtain ⟨patch, hpatch, -⟩ := bind_ok_iff.mp h
    intro path c' t' hc' ht' key hkey hmethod
    exact removesNoMethodName_of_patch path hc ht hpatch hc' ht' hkey hmethod
  · intro h
    obtain ⟨patch, hpatch⟩ := createMergePatch_total _ _ hc h
    refine ⟨applyMergePatch (.object s) patch, ?_, ?_⟩
    · rw [persistCandidate, hpatch, project_shaped _ _ hs hshape]
      rfl
    · have hat := fun path => persistsAt path hs hc ht hshape hpatch
      exact ⟨fun path => (hat path).unedited, fun path => (hat path).removed, fun path => (hat path).edited,
        fun hsame => candidate_same s c t patch hs hc ht hshape hpatch hsame⟩

theorem shapedLike_object {source runtime : Entries}
    (h : ∀ key v, source.lookup key = some v → ∃ u, runtime.lookup key = some u ∧ ShapedLike v u) :
    ShapedLike (.object source) (.object runtime) := by
  intro path v hv
  cases path with
  | nil =>
    cases hv
    exact ⟨_, rfl, rfl⟩
  | cons key rest =>
    rw [at?_object_cons, bind_eq_some_iff] at hv
    obtain ⟨w, hw, hv⟩ := hv
    obtain ⟨u, hu, hshape⟩ := h key w hw
    rw [at?_object_cons, hu]
    exact hshape rest v hv

theorem shapedLike_refl (v : Value) : ShapedLike v v := fun _ u hu => ⟨u, hu, rfl⟩

theorem removesNoMethodName_refl (v : Value) : RemovesNoMethodName v v := by
  intro path c t hc ht key hkey _
  cases hc.symm.trans ht
  exact hkey

theorem removesNoMethodName_object {c t : Entries} (hkeys : ∀ key ∈ keys c, key ∈ objectPrototypeMethods → key ∈ keys t)
    (h : ∀ key b v, c.lookup key = some b → t.lookup key = some v → RemovesNoMethodName b v) :
    RemovesNoMethodName (.object c) (.object t) := by
  intro path c' t' hc ht
  cases path with
  | nil =>
    cases hc
    cases ht
    exact hkeys
  | cons key rest =>
    rw [at?_object_cons, bind_eq_some_iff] at hc ht
    obtain ⟨b, hb, hc⟩ := hc
    obtain ⟨v, hv, ht⟩ := ht
    exact h key b v hb hv rest c' t' hc ht

/-- The port is edited; the default under `env` is not persisted. -/
theorem persistCandidate_persistsEdits_port :
    ∃ persisted, persistCandidate (.object [("port", .number 1), ("env", .object [])])
        (.object [("port", .number 1), ("env", .object [("shell", .bool true)])])
        (.object [("port", .number 2), ("env", .object [("shell", .bool true)])]) = .ok persisted ∧
      PersistsEdits (.object [("port", .number 1), ("env", .object [])])
        (.object [("port", .number 1), ("env", .object [("shell", .bool true)])])
        (.object [("port", .number 2), ("env", .object [("shell", .bool true)])]) persisted := by
  refine (persistCandidate_persistsEdits_iff _ _ _ (by decide) (by decide) (by decide) ?_).mpr ?_
  · refine shapedLike_object fun key v hv => ?_
    rw [lookup_cons, lookup_cons] at hv ⊢
    by_cases hport : key = "port"
    · rw [if_pos hport] at hv ⊢
      exact ⟨_, rfl, by cases hv; exact shapedLike_refl _⟩
    · rw [if_neg hport] at hv ⊢
      by_cases henv : key = "env"
      · rw [if_pos henv] at hv ⊢
        exact ⟨_, rfl, by cases hv; exact shapedLike_nil _⟩
      · rw [if_neg henv] at hv
        cases hv
  · refine removesNoMethodName_object (by decide) fun key b v hb hv => ?_
    rw [lookup_cons, lookup_cons] at hb hv
    by_cases hport : key = "port"
    · rw [if_pos hport] at hb hv
      cases hb
      cases hv
      intro path c t hc
      cases isPlainObject_of_at? hc
    · rw [if_neg hport] at hb hv
      cases hb.symm.trans hv
      exact removesNoMethodName_refl _

/-- Removing an account named `toString` throws. -/
theorem removed_method_name_throws :
    let config := Value.object [("accounts", .object [("toString", .object [])])]
    let cfg := Value.object [("accounts", .object [])]
    config.writable = true ∧ cfg.writable = true ∧ ShapedLike config config ∧
      persistCandidate config config cfg = .error ⟨"toString"⟩ ∧
      ¬ ∃ persisted, persistCandidate config config cfg = .ok persisted ∧ PersistsEdits config config cfg persisted := by
  have hthrow : persistCandidate (.object [("accounts", .object [("toString", .object [])])])
      (.object [("accounts", .object [("toString", .object [])])]) (.object [("accounts", .object [])]) =
        .error ⟨"toString"⟩ := rfl
  refine ⟨by decide, by decide, shapedLike_refl _, hthrow, ?_⟩
  rintro ⟨persisted, h, -⟩
  cases hthrow.symm.trans h

/-- **A patch takes the config it was made from to the config it was made for, and is empty
exactly if the two are equal; there is one exactly if no key named like an inherited method
is removed.** -/
theorem merge_patch_round_trip (c t : Entries) (hc : (Value.object c).writable = true)
    (ht : (Value.object t).writable = true) :
    ((∃ patch, createMergePatch (.object c) (.object t) = .ok patch) ↔ RemovesNoMethodName (.object c) (.object t)) ∧
      ∀ patch, createMergePatch (.object c) (.object t) = .ok patch →
        (applyMergePatch (.object c) patch).deepEqual (.object t) = true ∧
          (patch = .object [] ↔ (Value.object c).deepEqual (.object t) = true) := by
  refine ⟨⟨?_, createMergePatch_total _ _ hc⟩, fun patch hpatch => ?_⟩
  · rintro ⟨patch, hpatch⟩ path c' t' hc' ht' key hkey hmethod
    exact removesNoMethodName_of_patch path hc ht hpatch hc' ht' hkey hmethod
  · have hback := candidate_same c c t patch hc hc ht (shapedLike_refl _) hpatch
      (deepEqual_refl _ (writable_distinct _ hc))
    refine ⟨hback, ?_, fun hequal => ?_⟩
    · rintro rfl
      exact hback
    · cases hpatch.symm.trans (createMergePatch_equal _ _ hc ht hequal rfl)
      rfl

theorem merge_patch_round_trip_port :
    (applyMergePatch (.object [("port", .number 1), ("host", .string "a")])
      (.object [("host", .null), ("port", .number 2)])).deepEqual (.object [("port", .number 2)]) = true :=
  ((merge_patch_round_trip [("port", .number 1), ("host", .string "a")] [("port", .number 2)] (by decide) (by decide)).2
    _ rfl).1

end OpenClaw.Config
