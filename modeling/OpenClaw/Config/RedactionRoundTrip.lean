import OpenClaw.Config.Redaction
import OpenClaw.Foundation.Entries

/-! What restoring gets back of a redacted config.

Redaction and restoration ask different questions of a path, so some of what is hidden
is not recognised on the way back. `Restorable` says of a config where that does not
happen, and `restore_undoes_redaction` that this is exactly when the config comes back. -/
namespace OpenClaw.Config
open List

open Foundation.Entries (lookup_of_mem)

variable {key : String} {v : Value} {original : Entries}

section RoundTrip
variable (rules : Rules) (hints : ConfigUiHints)

/-! ### The condition -/

/-- A sentinel under this key is replaced by the original value. -/
def takenBack (w : Walker) (base key : String) : Bool :=
  match w with
  | .guessing => isGuessedRestorable rules hints base key
  | .withLookup lookup =>
    match matchedCandidate lookup base key with
    | some candidate => isMatchedRestorable rules hints candidate base key
    | none => isGuessedRestorable rules hints base key

/-- A SecretRef is looked for under this key. -/
def looksForRef (w : Walker) (base key : String) : Bool :=
  match w with
  | .guessing => isGuessedRestorable rules hints base key
  | .withLookup lookup =>
    match matchedCandidate lookup base key with
    | some _ => true
    | none => isGuessedRestorable rules hints base key

def Treatment.hides : Treatment → Bool
  | .hide _ => true
  | _ => false

def fieldHidden (w : Walker) (base key : String) (entries : Entries) : Bool :=
  (entries.lookup key).any fun v => (entryTreatment rules hints w base key v).hides

/-- Walking the object hides its id and leaves a text in its source: it is taken for a SecretRef. -/
def takenForRef (w : Walker) (base : String) (entries : Entries) : Bool :=
  fieldHidden rules hints w base "id" entries &&
    ((textField entries "source").isSome || fieldHidden rules hints w base "source" entries)

mutual

/-- No object has a property that an assignment would not create. -/
def Value.protoFree : Value → Bool
  | .array items => itemsProtoFree items
  | .object entries => entriesProtoFree entries
  | _ => true

def itemsProtoFree : List Value → Bool
  | [] => true
  | v :: rest => v.protoFree && itemsProtoFree rest

def entriesProtoFree : Entries → Bool
  | [] => true
  | (key, v) :: rest => key ≠ "__proto__" && v.protoFree && entriesProtoFree rest

end

mutual

/-- Walking the tree hides nothing. -/
def Untouched (w : Walker) (base : String) : Value → Prop
  | .array items =>
    UntouchedItems (itemWalker rules hints w base).1 (itemWalker rules hints w base).2 (base ++ "[]") items
  | .object entries => UntouchedEntries w base entries
  | _ => True

def UntouchedItems (w : Walker) (hides : Bool) (path : String) : List Value → Prop
  | [] => True
  | v :: rest =>
    (match itemTreatment w hides path v with
      | .hide _ => False
      | .walk w' base => Untouched w' base v
      | _ => True) ∧ UntouchedItems w hides path rest

def UntouchedEntries (w : Walker) (base : String) : Entries → Prop
  | [] => True
  | (key, v) :: rest =>
    (key ≠ "__proto__" ∧
      match entryTreatment rules hints w base key v with
      | .keep => True
      | .walk w' base' => Untouched w' base' v
      | _ => False) ∧ UntouchedEntries w base rest

end

mutual

/-- Whatever walking the tree hides is recognised on the way back. -/
def Restorable (w : Walker) (base : String) : Value → Prop
  | .array items => RestorableItems (itemWalker rules hints w base).1 (base ++ "[]") items
  | .object entries => RestorableEntries w base entries
  | _ => True

def RestorableItems (w : Walker) (path : String) : List Value → Prop
  | [] => True
  | v :: rest => Restorable w path v ∧ RestorableItems w path rest

def RestorableEntries (w : Walker) (base : String) : Entries → Prop
  | [] => True
  | (key, v) :: rest =>
    (key ≠ "__proto__" ∧
      match entryTreatment rules hints w base key v with
      | .keep => v.protoFree = true
      -- a hidden value must be where a sentinel is taken back
      | .hide _ => takenBack rules hints w base key = true
      -- a SecretRef is only taken back with its provider
      | .hideId _ => isSecretRefWithProvider (toObjectRecord (some v)) = true
      | .walk w' base' =>
        -- an object that is taken for a SecretRef must be one, with nothing hidden but its id
        if looksForRef rules hints w base key && takenForRef rules hints w' base' (toObjectRecord (some v)) then
          isSecretRefWithProvider (toObjectRecord (some v)) = true ∧
            UntouchedEntries rules hints w' base' ((toObjectRecord (some v)).filter (·.1 ≠ "id"))
        else Restorable w' base' v) ∧ RestorableEntries w base rest

end

/-! ### One entry at a time -/

def redactedValue (t : Treatment) (v : Value) : Value :=
  match t with
  | .keep => v
  | .hide _ => .string redactedSentinel
  | .hideId _ => .object (withField "id" (.string redactedSentinel) (toObjectRecord (some v)))
  | .walk w base => (redactWith rules hints w base v).1

theorem redactEntries_cons (w : Walker) (base key : String) (v : Value) (rest : Entries) :
    (redactEntries rules hints w base ((key, v) :: rest)).1 =
      assign key (redactedValue rules hints (entryTreatment rules hints w base key v) v)
        (redactEntries rules hints w base rest).1 := by
  rw [redactEntries]
  cases entryTreatment rules hints w base key v <;> rfl

theorem itemTreatment_ne_hideId (w : Walker) (hides : Bool) (path : String) (v : Value) (id : String) :
    itemTreatment w hides path v ≠ .hideId id := by
  unfold itemTreatment
  repeat' split
  all_goals exact nofun

theorem redactItems_cons (w : Walker) (hides : Bool) (path : String) (v : Value) (rest : List Value) :
    (redactItems rules hints w hides path (v :: rest)).1 =
      redactedValue rules hints (itemTreatment w hides path v) v ::
        (redactItems rules hints w hides path rest).1 := by
  rw [redactItems]
  cases h : itemTreatment w hides path v with
  | hideId id => exact absurd h (itemTreatment_ne_hideId w hides path v id)
  | keep | hide | walk => rfl

def restoredEntry (w : Walker) (base : String) (original : Entries) (key : String) (v : Value) :
    Except RedactionError Value :=
  match entryRecovery rules hints w base key v with
  | .keep => .ok v
  | .original path => restoreOriginalValueOrThrow key path original
  | .walk w' base' secretRef =>
    handledOr (restoreSecretRef secretRef v (original.lookup key))
      (restoreWith rules hints w' base' v (original.lookup key))

theorem restoreEntries_cons (w : Walker) (base : String) (original : Entries) (key : String) (v : Value)
    (rest : Entries) :
    restoreEntries rules hints w base original ((key, v) :: rest) = (do
      let here ← restoredEntry rules hints w base original key v
      let others ← restoreEntries rules hints w base original rest
      .ok (assign key here others)) := by
  rfl

/-! ### Fields -/

theorem withField_lookup_self (v : Value) {entries : Entries} (h : (entries.lookup key).isSome) :
    (withField key v entries).lookup key = some v := by
  induction entries with
  | nil => cases h
  | cons e rest ih =>
    obtain ⟨k, x⟩ := e
    unfold withField at ih ⊢
    rw [map_cons]
    by_cases hk : k = key
    · subst hk
      rw [if_pos rfl, lookup_cons_self]
    · have hne : (key == k) = false := beq_eq_false_iff_ne.mpr (Ne.symm hk)
      rw [lookup_cons, hne] at h
      rw [if_neg hk, lookup_cons, hne]
      exact ih h

theorem withField_lookup_ne {other : String} (v : Value) (entries : Entries) (h : other ≠ key) :
    (withField key v entries).lookup other = entries.lookup other := by
  induction entries with
  | nil => rfl
  | cons e rest ih =>
    obtain ⟨k, x⟩ := e
    unfold withField at ih ⊢
    rw [map_cons]
    by_cases hk : k = key
    · have hne : (other == key) = false := beq_eq_false_iff_ne.mpr h
      rw [if_pos hk, hk, lookup_cons, lookup_cons, hne]
      exact ih
    · rw [if_neg hk, lookup_cons, lookup_cons]
      cases other == k with
      | true => rfl
      | false => exact ih

theorem withField_length (key : String) (v : Value) (entries : Entries) :
    (withField key v entries).length = entries.length := length_map _

theorem entriesLack_lookup {s : String} {entries : Entries} (h : entriesLack s entries = true)
    (hv : entries.lookup key = some v) : v.lacks s = true := by
  induction entries with
  | nil => cases hv
  | cons e rest ih =>
    obtain ⟨k, x⟩ := e
    rw [entriesLack, Bool.and_eq_true] at h
    rw [lookup_cons] at hv
    cases hk : key == k with
    | true =>
      rw [hk] at hv
      cases hv
      exact h.1
    | false =>
      rw [hk] at hv
      exact ih h.2 hv

theorem entriesLack_textField {s : String} (key : String) {entries : Entries} (h : entriesLack s entries = true) :
    textField entries key ≠ some s := by
  intro ht
  obtain ⟨v, hv, htext⟩ := Option.bind_eq_some_iff.mp ht
  have hlacks := entriesLack_lookup h hv
  cases v <;> cases htext
  simp [Value.lacks] at hlacks

theorem isSentinel_of_lacks (h : v.lacks redactedSentinel = true) : isSentinel v = false := by
  cases v <;> first | rfl | simpa [Value.lacks, isSentinel] using h

/-! ### Results of two steps -/

theorem assign_eq_cons {here : Value} {others rest : Entries} (h : "__proto__" ∉ others.map Prod.fst) :
    assign key here others = (key, v) :: rest ↔ key ≠ "__proto__" ∧ here = v ∧ others = rest := by
  unfold assign
  by_cases hk : key = "__proto__"
  · rw [if_pos hk]
    constructor
    · rintro rfl
      exact absurd (by rw [hk]; exact mem_cons_self ..) h
    · exact fun hand => absurd hk hand.1
  · simp [hk]

theorem andThen_eq_ok {ε α β γ : Type} {x : Except ε α} {y : Except ε β} {f : α → β → γ} {c : γ} :
    (do let a ← x; let b ← y; .ok (f a b) : Except ε γ) = .ok c ↔ ∃ a b, x = .ok a ∧ y = .ok b ∧ f a b = c := by
  cases x with
  | error e => simp [bind, Except.bind]
  | ok a => cases y with
    | _ => simp [bind, Except.bind]

theorem restoreEntries_keys {w : Walker} {base : String} {entries restored : Entries}
    (h : restoreEntries rules hints w base original entries = .ok restored) :
    "__proto__" ∉ restored.map Prod.fst := by
  induction entries generalizing restored with
  | nil =>
    cases h
    exact not_mem_nil
  | cons e rest ih =>
    rw [restoreEntries_cons, andThen_eq_ok] at h
    obtain ⟨here, others, -, hothers, rfl⟩ := h
    unfold assign
    split
    · exact ih hothers
    · rename_i hk
      rw [map_cons, mem_cons, not_or]
      exact ⟨fun heq => hk heq.symm, ih hothers⟩

theorem redactEntries_length (w : Walker) (base : String) (entries : Entries) :
    (redactEntries rules hints w base entries).1.length ≤ entries.length := by
  induction entries with
  | nil => rw [redactEntries]
  | cons e rest ih =>
    rw [redactEntries_cons, length_cons]
    unfold assign
    split
    · omega
    · rw [length_cons]
      omega

/-! ### What the two directions make of an entry -/

theorem entryTreatment_hideId {w : Walker} {base id : String}
    (h : entryTreatment rules hints w base key v = .hideId id) :
    ∃ lookup candidate entries, w = .withLookup lookup ∧ matchedCandidate lookup base key = some candidate ∧
      v = .object entries ∧ isSecretRefShape entries = true ∧ textField entries "id" = some id := by
  unfold entryTreatment at h
  cases w with
  | guessing =>
    simp only [guessingTreatment, treatUrl] at h
    repeat' split at h
    all_goals cases h
  | withLookup lookup =>
    dsimp only at h
    split at h
    · rename_i candidate hcandidate
      simp only [matchedTreatment, treatUrl] at h
      repeat' split at h
      all_goals cases h
      rename_i entries _ _ id' hshape hid _
      exact ⟨lookup, candidate, entries, rfl, hcandidate, rfl, hshape, hid⟩
    · simp only [unmatchedTreatment, treatUrl] at h
      repeat' split at h
      all_goals cases h

theorem entryTreatment_walk {w w' : Walker} {base base' : String}
    (h : entryTreatment rules hints w base key v = .walk w' base') {r : Value} (hr : r.isObject = true) :
    v.isObject = true ∧ entryRecovery rules hints w base key r =
      .walk w' base' (if looksForRef rules hints w base key then some (joinPath base key) else none) := by
  have hs : isSentinel r = false := by cases r <;> first | rfl | cases hr
  unfold entryTreatment at h
  cases w with
  | guessing =>
    simp only [guessingTreatment, treatUrl] at h
    repeat' split at h
    all_goals cases h
    all_goals exact ⟨rfl, by rw [looksForRef]; simp [entryRecovery, guessingRecovery, hs, hr]⟩
  | withLookup lookup =>
    dsimp only at h
    split at h
    · rename_i candidate hcandidate
      simp only [matchedTreatment, treatUrl] at h
      repeat' split at h
      all_goals cases h
      all_goals exact ⟨rfl, by simp [entryRecovery, matchedRecovery, looksForRef, hcandidate, hs, hr]⟩
    · rename_i hcandidate
      simp only [unmatchedTreatment, treatUrl] at h
      repeat' split at h
      all_goals cases h
      all_goals exact ⟨rfl, by simp [entryRecovery, guessingRecovery, looksForRef, hcandidate, hs, hr]⟩

/-- A value that is no sentinel is walked or kept. -/
theorem entryRecovery_other (w : Walker) (base key : String) (h : isSentinel v = false) :
    if v.isObject then ∃ w' base' ref, entryRecovery rules hints w base key v = .walk w' base' ref
    else entryRecovery rules hints w base key v = .keep := by
  cases w with
  | guessing => cases hv : v.isObject <;> simp [entryRecovery, guessingRecovery, h, hv]
  | withLookup lookup =>
    cases hc : matchedCandidate lookup base key <;> cases hv : v.isObject <;>
      simp [entryRecovery, matchedRecovery, guessingRecovery, hc, h, hv]

theorem entryRecovery_sentinel (w : Walker) (base key : String) :
    if takenBack rules hints w base key then
      ∃ path, entryRecovery rules hints w base key (.string redactedSentinel) = .original path
    else entryRecovery rules hints w base key (.string redactedSentinel) = .keep := by
  have hs : isSentinel (.string redactedSentinel) = true := by simp [isSentinel]
  cases w with
  | guessing =>
    cases hr : isGuessedRestorable rules hints base key <;>
      simp [takenBack, entryRecovery, guessingRecovery, hs, hr, Value.isObject]
  | withLookup lookup =>
    cases hc : matchedCandidate lookup base key with
    | none =>
      cases hr : isGuessedRestorable rules hints base key <;>
        simp [takenBack, entryRecovery, guessingRecovery, hc, hs, hr, Value.isObject]
    | some candidate =>
      cases hr : isMatchedRestorable rules hints candidate base key <;>
        simp [takenBack, entryRecovery, matchedRecovery, hc, hs, hr, Value.isObject]

theorem matched_looksForRef {lookup : List String} {base candidate : String}
    (h : matchedCandidate lookup base key = some candidate) {r : Value} (hr : r.isObject = true) :
    entryRecovery rules hints (.withLookup lookup) base key r =
      .walk (.withLookup lookup) candidate (some (joinPath base key)) := by
  have hs : isSentinel r = false := by cases r <;> first | rfl | cases hr
  simp [entryRecovery, matchedRecovery, h, hs, hr]

/-! ### Where nothing is hidden -/

theorem redactedValue_text {w : Walker} {base : String} :
    (redactedValue rules hints (entryTreatment rules hints w base key v) v).text? =
      if (entryTreatment rules hints w base key v).hides then some redactedSentinel else v.text? := by
  cases h : entryTreatment rules hints w base key v with
  | keep | hide => rfl
  | hideId id =>
    obtain ⟨_, _, entries, -, -, rfl, -, -⟩ := entryTreatment_hideId rules hints h
    rfl
  | walk w' base' =>
    have hv := (entryTreatment_walk rules hints h (r := .array []) rfl).1
    cases v with
    | array | object => simp [redactedValue, redactWith, Treatment.hides, Value.text?]
    | undefined | null | bool | number | string => cases hv

theorem redactEntries_lookup {w : Walker} {base : String} {entries : Entries} (h : key ≠ "__proto__") :
    (redactEntries rules hints w base entries).1.lookup key = (entries.lookup key).map fun v =>
      redactedValue rules hints (entryTreatment rules hints w base key v) v := by
  induction entries with
  | nil => rw [redactEntries]; rfl
  | cons e rest ih =>
    obtain ⟨k, v⟩ := e
    rw [redactEntries_cons, assign, lookup_cons]
    by_cases hk : k = key
    · subst hk
      rw [if_neg h, lookup_cons_self, beq_self_eq_true]
      rfl
    · have hne : (key == k) = false := beq_eq_false_iff_ne.mpr (Ne.symm hk)
      rw [hne]
      split
      · exact ih
      · rw [lookup_cons, hne]
        exact ih

/-- An entry comes out of redaction as it was. -/
def UntouchedEntry (w : Walker) (base key : String) (v : Value) : Prop :=
  match entryTreatment rules hints w base key v with
  | .keep => True
  | .walk w' base' => Untouched rules hints w' base' v
  | _ => False

theorem redactedEntry_eq_self (w : Walker) (base key : String) (hv : v.lacks redactedSentinel = true)
    (ih : ∀ w' base', (redactWith rules hints w' base' v).1 = v ↔ Untouched rules hints w' base' v) :
    redactedValue rules hints (entryTreatment rules hints w base key v) v = v ↔
      UntouchedEntry rules hints w base key v := by
  unfold UntouchedEntry
  cases h : entryTreatment rules hints w base key v with
  | keep => simp [redactedValue]
  | hide secrets =>
    have hne : Value.string redactedSentinel ≠ v := by
      rintro rfl
      simp [Value.lacks] at hv
    simp [redactedValue, hne]
  | hideId id =>
    obtain ⟨_, _, entries, -, -, rfl, -, hid⟩ := entryTreatment_hideId rules hints h
    refine iff_of_false (fun heq => ?_) fun hf => hf
    -- the id would be the sentinel
    have hentries : withField "id" (.string redactedSentinel) entries = entries := by
      simpa [redactedValue, toObjectRecord] using heq
    refine entriesLack_textField "id" hv ?_
    obtain ⟨x, hx, -⟩ := Option.bind_eq_some_iff.mp hid
    rw [← hentries, textField, withField_lookup_self _ (by rw [hx]; rfl)]
    rfl
  | walk w' base' => exact ih w' base'

mutual

theorem redactWith_eq_self (w : Walker) (base : String) (v : Value) (h : v.lacks redactedSentinel = true) :
    (redactWith rules hints w base v).1 = v ↔ Untouched rules hints w base v := by
  cases v with
  | array items =>
    rw [redactWith, Untouched, ← redactItems_eq_self _ _ _ items h]
    exact ⟨Value.array.inj, congrArg _⟩
  | object entries =>
    rw [redactWith, Untouched, ← redactEntries_eq_self w base entries h]
    exact ⟨Value.object.inj, congrArg _⟩
  | undefined | null | bool | number | string => simp [redactWith, Untouched]

theorem redactItems_eq_self (w : Walker) (hides : Bool) (path : String) (items : List Value)
    (h : itemsLack redactedSentinel items = true) :
    (redactItems rules hints w hides path items).1 = items ↔ UntouchedItems rules hints w hides path items := by
  cases items with
  | nil => simp [redactItems, UntouchedItems]
  | cons v rest =>
    rw [itemsLack, Bool.and_eq_true] at h
    rw [redactItems_cons, UntouchedItems, List.cons.injEq, redactItems_eq_self w hides path rest h.2]
    refine and_congr_left' ?_
    cases ht : itemTreatment w hides path v with
    | keep => simp [redactedValue]
    | hide secrets =>
      have hne : Value.string redactedSentinel ≠ v := by
        rintro rfl
        simp [Value.lacks] at h
      simp [redactedValue, hne]
    | hideId id => exact absurd ht (itemTreatment_ne_hideId w hides path v id)
    | walk w' base' => exact redactWith_eq_self w' base' v h.1

theorem redactEntries_eq_self (w : Walker) (base : String) (entries : Entries)
    (h : entriesLack redactedSentinel entries = true) :
    (redactEntries rules hints w base entries).1 = entries ↔ UntouchedEntries rules hints w base entries := by
  cases entries with
  | nil => simp [redactEntries, UntouchedEntries]
  | cons e rest =>
    obtain ⟨key, v⟩ := e
    rw [entriesLack, Bool.and_eq_true] at h
    have hlength := redactEntries_length rules hints w base rest
    rw [redactEntries_cons, UntouchedEntries, assign]
    by_cases hk : key = "__proto__"
    · rw [if_pos hk]
      refine iff_of_false (fun heq => ?_) fun hand => hand.1.1 hk
      rw [heq, length_cons] at hlength
      omega
    · rw [if_neg hk, List.cons.injEq, Prod.mk.injEq, redactEntries_eq_self w base rest h.2,
        redactedEntry_eq_self rules hints w base key h.1 fun w' base' => redactWith_eq_self w' base' v h.1]
      simp [hk, UntouchedEntry]

end

/-! ### Restoring where nothing is hidden -/

theorem restoreSecretRef_lacking (h : v.lacks redactedSentinel = true) (path : Option String)
    (original : Option Value) : restoreSecretRef path v original = .ok none := by
  cases path with
  | none => rfl
  | some path =>
    have hid : textField (toObjectRecord (some v)) "id" ≠ some redactedSentinel := by
      cases v <;> first | exact entriesLack_textField "id" h | exact nofun
    simp [restoreSecretRef, maybeRestoreSecretRefId, hid]

theorem restoreItems_cons {w : Walker} {hides : Bool} {path : String} {u : Value} {rest us originals : List Value} :
    restoreItems rules hints w hides path (v :: rest) originals = .ok (u :: us) ↔
      (if hides && isSentinel v then .ok (originals.head?.getD .undefined)
        else restoreWith rules hints w path v originals.head?) = .ok u ∧
      restoreItems rules hints w hides path rest originals.tail = .ok us := by
  constructor
  · intro h
    obtain ⟨here, others, hhere, hothers, heq⟩ := andThen_eq_ok.mp h
    cases heq
    exact ⟨hhere, hothers⟩
  · rintro ⟨hhere, hothers⟩
    exact andThen_eq_ok.mpr ⟨u, us, hhere, hothers, rfl⟩

theorem restoreEntries_eq_cons {w : Walker} {base : String} {entries rest : Entries} {u : Value} :
    restoreEntries rules hints w base original ((key, v) :: entries) = .ok ((key, u) :: rest) ↔
      key ≠ "__proto__" ∧ restoredEntry rules hints w base original key v = .ok u ∧
        restoreEntries rules hints w base original entries = .ok rest := by
  rw [restoreEntries_cons, andThen_eq_ok]
  constructor
  · rintro ⟨here, others, hhere, hothers, heq⟩
    obtain ⟨hk, rfl, rfl⟩ := (assign_eq_cons (restoreEntries_keys rules hints hothers)).mp heq
    exact ⟨hk, hhere, hothers⟩
  · rintro ⟨hk, hhere, hothers⟩
    exact ⟨u, rest, hhere, hothers, if_neg hk⟩

theorem restoredEntry_lacking' (w : Walker) (base : String) (original : Entries) (key : String)
    (h : v.lacks redactedSentinel = true)
    (ih : ∀ w' base' o, restoreWith rules hints w' base' v o = .ok v ↔ v.protoFree = true) :
    restoredEntry rules hints w base original key v = .ok v ↔ v.protoFree = true := by
  have hother := entryRecovery_other rules hints w base key (isSentinel_of_lacks h)
  rw [restoredEntry]
  cases hv : v.isObject with
  | true =>
    rw [hv, if_pos rfl] at hother
    obtain ⟨w', base', ref, hrecovery⟩ := hother
    rw [hrecovery]
    dsimp only
    rw [restoreSecretRef_lacking h]
    exact ih w' base' _
  | false =>
    rw [hv, if_neg Bool.false_ne_true] at hother
    rw [hother]
    cases v with
    | array | object => cases hv
    | undefined | null | bool | number | string => simp [Value.protoFree]

mutual

theorem restoreWith_lacking (w : Walker) (base : String) (v : Value) (original : Option Value)
    (h : v.lacks redactedSentinel = true) :
    restoreWith rules hints w base v original = .ok v ↔ v.protoFree = true := by
  cases v with
  | array items =>
    rw [restoreWith, Value.protoFree, ← restoreItems_lacking _ _ _ items _ h]
    cases restoreItems rules hints _ _ _ items _ <;> simp [bind, Except.bind]
  | object entries =>
    rw [restoreWith, Value.protoFree, ← restoreEntries_lacking w base _ entries h]
    cases restoreEntries rules hints w base _ entries <;> simp [bind, Except.bind]
  | undefined | null | bool | number | string => simp [restoreWith, Value.protoFree]

theorem restoreItems_lacking (w : Walker) (hides : Bool) (path : String) (items originals : List Value)
    (h : itemsLack redactedSentinel items = true) :
    restoreItems rules hints w hides path items originals = .ok items ↔ itemsProtoFree items = true := by
  cases items with
  | nil => simp [restoreItems, itemsProtoFree]
  | cons v rest =>
    rw [itemsLack, Bool.and_eq_true] at h
    rw [restoreItems_cons, isSentinel_of_lacks h.1, Bool.and_false, if_neg Bool.false_ne_true,
      restoreWith_lacking w path v _ h.1, restoreItems_lacking w hides path rest _ h.2, itemsProtoFree,
      Bool.and_eq_true]

theorem restoreEntries_lacking (w : Walker) (base : String) (original entries : Entries)
    (h : entriesLack redactedSentinel entries = true) :
    restoreEntries rules hints w base original entries = .ok entries ↔ entriesProtoFree entries = true := by
  cases entries with
  | nil => simp [restoreEntries, entriesProtoFree]
  | cons e rest =>
    obtain ⟨key, v⟩ := e
    rw [entriesLack, Bool.and_eq_true] at h
    have hentry := restoredEntry_lacking' rules hints w base original key h.1
      fun w' base' o => restoreWith_lacking w' base' v o h.1
    rw [restoreEntries_eq_cons, hentry, restoreEntries_lacking w base original rest h.2, entriesProtoFree]
    simp [and_assoc]

end

theorem restoredEntry_lacking (w : Walker) (base : String) (original : Entries) (key : String)
    (h : v.lacks redactedSentinel = true) :
    restoredEntry rules hints w base original key v = .ok v ↔ v.protoFree = true :=
  restoredEntry_lacking' rules hints w base original key h
    fun w' base' o => restoreWith_lacking rules hints w' base' v o h

/-! ### A SecretRef whose id was hidden -/

theorem redactEntries_textField (w : Walker) (base key : String) (entries : Entries) (h : key ≠ "__proto__") :
    textField (redactEntries rules hints w base entries).1 key =
      if fieldHidden rules hints w base key entries then some redactedSentinel else textField entries key := by
  rw [textField, textField, fieldHidden, redactEntries_lookup rules hints h]
  cases entries.lookup key with
  | none => rfl
  | some v => exact redactedValue_text rules hints

/-- With the id put back, the walked object is the original one exactly when nothing else
was hidden in it. -/
theorem withField_redactEntries {w : Walker} {base id : String} {entries : Entries}
    (hlacks : entriesLack redactedSentinel entries = true) (hid : ∀ x, ("id", x) ∈ entries → x = .string id) :
    withField "id" (.string id) (redactEntries rules hints w base entries).1 = entries ↔
      UntouchedEntries rules hints w base (entries.filter (·.1 ≠ "id")) := by
  induction entries with
  | nil => simp [redactEntries, withField, UntouchedEntries]
  | cons e rest ih =>
    obtain ⟨key, v⟩ := e
    rw [entriesLack, Bool.and_eq_true] at hlacks
    have hrest := ih hlacks.2 fun x hx => hid x (mem_cons_of_mem _ hx)
    have hlength := redactEntries_length rules hints w base rest
    rw [redactEntries_cons]
    by_cases hkey : key = "id"
    · subst hkey
      obtain rfl := hid v (mem_cons_self ..)
      rw [filter_cons_of_neg (by simp), ← hrest, assign, if_neg (by decide)]
      simp [withField]
    · rw [filter_cons_of_pos (by simpa using hkey), UntouchedEntries, ← hrest, assign]
      by_cases hk : key = "__proto__"
      · rw [if_pos hk]
        refine iff_of_false (fun heq => ?_) fun hand => hand.1.1 hk
        have := congrArg List.length heq
        rw [withField_length, length_cons] at this
        omega
      · rw [if_neg hk]
        have hself := redactedEntry_eq_self rules hints w base key hlacks.1
          fun w' base' => redactWith_eq_self rules hints w' base' v hlacks.1
        simp only [withField, map_cons, if_neg hkey, List.cons.injEq, Prod.mk.injEq, true_and, hself]
        simp [hk, UntouchedEntry]

/-- The id of a SecretRef is its only one. -/
theorem idText_unique {entries : Entries} (hkeys : (entries.map Prod.fst).Nodup)
    (h : isSecretRefWithProvider entries = true) (x : Value) (hx : ("id", x) ∈ entries) :
    x = .string ((textField entries "id").getD "") := by
  have hid : (textField entries "id").isSome = true := by
    simp only [isSecretRefWithProvider, isSecretRefShape, Bool.and_eq_true] at h
    exact h.1.2
  rw [textField, lookup_of_mem hkeys hx, Option.bind_some] at hid ⊢
  cases x <;> cases hid
  rfl

theorem handledOr_eq_ok {restored : Except RedactionError (Option Value)} {walk : Except RedactionError Value}
    (h : restored ≠ .ok none) : handledOr restored walk = .ok v ↔ restored = .ok (some v) := by
  cases restored with
  | error e => simp [handledOr]
  | ok value => cases value with
    | none => exact absurd rfl h
    | some u => simp [handledOr]

theorem maybeRestoreSecretRefId_hidden {incoming : Entries} (original : Entries) (path : String)
    (hshape : isSecretRefShape incoming = true) (hid : textField incoming "id" = some redactedSentinel) :
    maybeRestoreSecretRefId (.object incoming) (some (.object original)) path ≠ .ok none ∧
      ∀ r, maybeRestoreSecretRefId (.object incoming) (some (.object original)) path = .ok (some r) ↔
        isSecretRefWithProvider original = true ∧ isSecretRefWithProvider incoming = true ∧
          textField incoming "source" = textField original "source" ∧
          textField incoming "provider" = textField original "provider" ∧
          r = .object (withField "id" (.string ((textField original "id").getD "")) incoming) := by
  by_cases ho : isSecretRefWithProvider original = true
  · by_cases hi : isSecretRefWithProvider incoming = true
    · by_cases hsame : textField incoming "source" = textField original "source" ∧
          textField incoming "provider" = textField original "provider"
      · simp [maybeRestoreSecretRefId, toObjectRecord, hshape, hid, ho, hi, hsame, eq_comm]
      · rcases not_and_or.mp hsame with h | h <;>
          simp [maybeRestoreSecretRefId, toObjectRecord, hshape, hid, ho, hi, h]
    · simp [maybeRestoreSecretRefId, toObjectRecord, hshape, hid, ho, hi]
  · cases hs : isSecretRefShape original <;>
      simp [maybeRestoreSecretRefId, toObjectRecord, hshape, hid, ho, hs]

theorem withField_back {old new : Value} {entries : Entries} (h : ∀ x, (key, x) ∈ entries → x = old) :
    withField key old (withField key new entries) = entries := by
  induction entries with
  | nil => rfl
  | cons e rest ih =>
    obtain ⟨k, x⟩ := e
    have hrest := ih fun y hy => h y (mem_cons_of_mem _ hy)
    unfold withField at hrest ⊢
    rw [map_cons, map_cons, hrest]
    by_cases hk : k = key
    · subst hk
      rw [h x (mem_cons_self ..)]
      simp
    · simp [hk]

/-- A SecretRef whose id alone was hidden comes back when it has a provider. -/
theorem restored_hiddenId {entries : Entries} (hkeys : (entries.map Prod.fst).Nodup)
    (hshape : isSecretRefShape entries = true) (path : String) (other : Except RedactionError Value) :
    handledOr (restoreSecretRef (some path)
        (.object (withField "id" (.string redactedSentinel) (toObjectRecord (some (.object entries)))))
        (some (.object entries))) other = .ok (.object entries) ↔
      isSecretRefWithProvider (toObjectRecord (some (.object entries))) = true := by
  rw [toObjectRecord_object]
  obtain ⟨hs, hi⟩ := (Bool.and_eq_true _ _ ▸ hshape : _ ∧ _)
  have hsome : (entries.lookup "id").isSome = true := by
    obtain ⟨id, hid⟩ := Option.isSome_iff_exists.mp hi
    obtain ⟨x, hx, -⟩ := Option.bind_eq_some_iff.mp hid
    rw [hx]
    rfl
  have hid : textField (withField "id" (.string redactedSentinel) entries) "id" = some redactedSentinel := by
    rw [textField, withField_lookup_self _ hsome]
    rfl
  have hsame (key : String) (hkey : key ≠ "id") :
      textField (withField "id" (.string redactedSentinel) entries) key = textField entries key := by
    rw [textField, withField_lookup_ne _ _ hkey, textField]
  have hshape' : isSecretRefShape (withField "id" (.string redactedSentinel) entries) = true := by
    rw [isSecretRefShape, hid, hsame _ (by decide), hs]
    rfl
  obtain ⟨hne, hiff⟩ := maybeRestoreSecretRefId_hidden entries path hshape' hid
  rw [restoreSecretRef, handledOr_eq_ok hne, hiff]
  constructor
  · exact And.left
  · intro hp
    have hp' : isSecretRefWithProvider (withField "id" (.string redactedSentinel) entries) = true := by
      rw [isSecretRefWithProvider, hshape', hsame _ (by decide)]
      exact (Bool.and_eq_true _ _ ▸ hp : _ ∧ _).2
    exact ⟨hp, hp', hsame _ (by decide), hsame _ (by decide),
      (congrArg _ (withField_back fun x hx => idText_unique hkeys hp x hx)).symm⟩

section SecretRef
variable {w : Walker} {base : String} {entries : Entries}

theorem restoreSecretRef_not_taken (hlacks : entriesLack redactedSentinel entries = true)
    (h : takenForRef rules hints w base entries = false) (path : Option String) (original : Option Value) :
    restoreSecretRef path (.object (redactEntries rules hints w base entries).1) original = .ok none := by
  cases path with
  | none => rfl
  | some path =>
    have hid := redactEntries_textField rules hints w base "id" entries (by decide)
    have hsource := redactEntries_textField rules hints w base "source" entries (by decide)
    rw [takenForRef, Bool.and_eq_false_iff] at h
    rcases h with h | h
    · rw [h, if_neg Bool.false_ne_true] at hid
      have hne := entriesLack_textField "id" hlacks
      simp [restoreSecretRef, maybeRestoreSecretRefId, toObjectRecord, hid, hne]
    · rw [Bool.or_eq_false_iff] at h
      rw [h.2, if_neg Bool.false_ne_true] at hsource
      simp [restoreSecretRef, maybeRestoreSecretRefId, toObjectRecord, isSecretRefShape, hsource, h.1]

theorem restoreSecretRef_taken (hlacks : entriesLack redactedSentinel entries = true)
    (hkeys : (entries.map Prod.fst).Nodup) (h : takenForRef rules hints w base entries = true) (path : String) :
    restoreSecretRef (some path) (.object (redactEntries rules hints w base entries).1)
        (some (.object entries)) ≠ .ok none ∧
      (restoreSecretRef (some path) (.object (redactEntries rules hints w base entries).1)
          (some (.object entries)) = .ok (some (.object entries)) ↔
        isSecretRefWithProvider entries = true ∧
          UntouchedEntries rules hints w base (entries.filter (·.1 ≠ "id"))) := by
  rw [takenForRef, Bool.and_eq_true, Bool.or_eq_true] at h
  have hid := redactEntries_textField rules hints w base "id" entries (by decide)
  have hsource := redactEntries_textField rules hints w base "source" entries (by decide)
  have hprovider := redactEntries_textField rules hints w base "provider" entries (by decide)
  rw [if_pos h.1] at hid
  have hshape : isSecretRefShape (redactEntries rules hints w base entries).1 = true := by
    rw [isSecretRefShape, hid, hsource, Bool.and_eq_true]
    refine ⟨?_, rfl⟩
    split
    · rfl
    · exact h.2.resolve_right ‹_›
  obtain ⟨hne, hrestored⟩ := maybeRestoreSecretRefId_hidden entries path hshape hid
  refine ⟨hne, (hrestored _).trans ⟨?_, ?_⟩⟩
  · rintro ⟨hp, -, -, -, heq⟩
    refine ⟨hp, (withField_redactEntries rules hints hlacks (idText_unique hkeys hp)).mp ?_⟩
    exact (Value.object.inj heq).symm
  · rintro ⟨hp, huntouched⟩
    have hback := (withField_redactEntries rules hints hlacks (idText_unique hkeys hp)).mpr huntouched
    -- nothing else being hidden, the other fields are as they were
    have hsame (key : String) (hkey : key ≠ "id") :
        textField (redactEntries rules hints w base entries).1 key = textField entries key := by
      rw [textField, ← withField_lookup_ne _ _ hkey, hback]
      rfl
    refine ⟨hp, ?_, hsame _ (by decide), hsame _ (by decide), congrArg _ hback.symm⟩
    rw [isSecretRefWithProvider, hshape, hsame _ (by decide)]
    exact (Bool.and_eq_true _ _ ▸ hp).2

end SecretRef

/-! ### The round trip -/

theorem redactWith_isObject (w : Walker) (base : String) (h : v.isObject = true) :
    (redactWith rules hints w base v).1.isObject = true := by
  cases v with
  | array | object => simp [redactWith, Value.isObject]
  | undefined | null | bool | number | string => cases h

/-- The entry's part of `Restorable`. -/
def RestorableEntry (w : Walker) (base key : String) (v : Value) : Prop :=
  match entryTreatment rules hints w base key v with
  | .keep => v.protoFree = true
  | .hide _ => takenBack rules hints w base key = true
  | .hideId _ => isSecretRefWithProvider (toObjectRecord (some v)) = true
  | .walk w' base' =>
    if looksForRef rules hints w base key && takenForRef rules hints w' base' (toObjectRecord (some v)) then
      isSecretRefWithProvider (toObjectRecord (some v)) = true ∧
        UntouchedEntries rules hints w' base' ((toObjectRecord (some v)).filter (·.1 ≠ "id"))
    else Restorable rules hints w' base' v

theorem restoredEntry_walk {w w' : Walker} {base base' : String}
    (h : entryTreatment rules hints w base key v = .walk w' base') (hl : v.lacks redactedSentinel = true)
    (hd : v.distinct = true) (horig : original.lookup key = some v)
    (ih : restoreWith rules hints w' base' (redactWith rules hints w' base' v).1 (some v) = .ok v ↔ Restorable rules hints w' base' v) :
    restoredEntry rules hints w base original key (redactWith rules hints w' base' v).1 = .ok v ↔
      RestorableEntry rules hints w base key v := by
  have hobject := (entryTreatment_walk rules hints h (r := .array []) rfl).1
  have hrecovery := (entryTreatment_walk rules hints h (redactWith_isObject rules hints w' base' hobject)).2
  rw [restoredEntry, RestorableEntry, h, hrecovery, horig]
  dsimp only
  cases hlooks : looksForRef rules hints w base key with
  | false => simpa [restoreSecretRef] using ih
  | true =>
    rw [if_pos rfl, Bool.true_and]
    cases v with
    | undefined | null | bool | number | string => cases hobject
    | array items => simpa [redactWith, restoreSecretRef, maybeRestoreSecretRefId, toObjectRecord,
        isSecretRefShape, textField, takenForRef, fieldHidden] using ih
    | object entries =>
      rw [redactWith] at ih ⊢
      have hkeys : (entries.map Prod.fst).Nodup := by
        simp only [Value.distinct, Bool.and_eq_true, decide_eq_true_eq] at hd
        exact hd.2
      by_cases ht : takenForRef rules hints w' base' (toObjectRecord (some (.object entries))) = true
      · obtain ⟨hne, hiff⟩ := restoreSecretRef_taken rules hints hl hkeys ht (joinPath base key)
        rw [if_pos ht, toObjectRecord_object, ← hiff]
        exact handledOr_eq_ok hne
      · rw [if_neg ht]
        rw [toObjectRecord_object, Bool.not_eq_true] at ht
        rw [restoreSecretRef_not_taken rules hints hl ht]
        exact ih

theorem restoredEntry_redacted {w : Walker} {base key : String} {v : Value} {original : Entries}
    (hl : v.lacks redactedSentinel = true) (hd : v.distinct = true) (horig : original.lookup key = some v)
    (ih : ∀ w' base', restoreWith rules hints w' base' (redactWith rules hints w' base' v).1 (some v) = .ok v ↔
      Restorable rules hints w' base' v) :
    restoredEntry rules hints w base original key
        (redactedValue rules hints (entryTreatment rules hints w base key v) v) = .ok v ↔
      RestorableEntry rules hints w base key v := by
  cases h : entryTreatment rules hints w base key v with
  | keep =>
    rw [RestorableEntry, h]
    exact restoredEntry_lacking rules hints w base original key hl
  | hide secrets =>
    have hrecovery := entryRecovery_sentinel rules hints w base key
    have hne : Value.string redactedSentinel ≠ v := by
      rintro rfl
      simp [Value.lacks] at hl
    rw [RestorableEntry, h, restoredEntry, redactedValue]
    cases htaken : takenBack rules hints w base key with
    | true =>
      rw [htaken, if_pos rfl] at hrecovery
      obtain ⟨path, hrecovery⟩ := hrecovery
      simp [hrecovery, restoreOriginalValueOrThrow, horig]
    | false =>
      rw [htaken, if_neg Bool.false_ne_true] at hrecovery
      simp [hrecovery, hne]
  | hideId id =>
    obtain ⟨lookup, candidate, entries, rfl, hcandidate, rfl, hshape, hid⟩ := entryTreatment_hideId rules hints h
    simp only [Value.distinct, Bool.and_eq_true, decide_eq_true_eq] at hd
    rw [RestorableEntry, h, restoredEntry, redactedValue, matched_looksForRef rules hints hcandidate rfl, horig]
    exact restored_hiddenId hd.2 hshape (joinPath base key) _
  | walk w' base' => exact restoredEntry_walk rules hints h hl hd horig (ih w' base')

mutual

theorem restoreWith_redactWith (w : Walker) (base : String) (v : Value)
    (hl : v.lacks redactedSentinel = true) (hd : v.distinct = true) :
    restoreWith rules hints w base (redactWith rules hints w base v).1 (some v) = .ok v ↔
      Restorable rules hints w base v := by
  cases v with
  | array items =>
    rw [redactWith, restoreWith, Restorable, ← restoreItems_redactItems _ _ _ items hl hd]
    dsimp only [toItems]
    cases restoreItems rules hints _ _ _ _ items <;> simp [bind, Except.bind]
  | object entries =>
    simp only [Value.distinct, Bool.and_eq_true, decide_eq_true_eq] at hd
    rw [redactWith, restoreWith, Restorable, ← restoreEntries_redactEntries w base entries entries hl hd.1
      fun e he => lookup_of_mem hd.2 he]
    dsimp only [toObjectRecord]
    cases restoreEntries rules hints w base entries _ <;> simp [bind, Except.bind]
  | undefined | null | bool | number | string => simp [redactWith, restoreWith, Restorable]

theorem restoreItems_redactItems (w : Walker) (hides : Bool) (path : String) (items : List Value)
    (hl : itemsLack redactedSentinel items = true) (hd : itemsDistinct items = true) :
    restoreItems rules hints w hides path (redactItems rules hints w hides path items).1 items = .ok items ↔
      RestorableItems rules hints w path items := by
  cases items with
  | nil => simp [redactItems, restoreItems, RestorableItems]
  | cons v rest =>
    rw [itemsLack, Bool.and_eq_true] at hl
    rw [itemsDistinct, Bool.and_eq_true] at hd
    rw [redactItems_cons, restoreItems_cons, RestorableItems, tail_cons,
      restoreItems_redactItems w hides path rest hl.2 hd.2, head?_cons]
    refine and_congr_left' ?_
    have ih := restoreWith_redactWith w path v hl.1 hd.1
    cases v with
    | string s =>
      rw [itemTreatment]
      split
      · rename_i h
        rw [Bool.and_eq_true] at h
        simp [redactedValue, isSentinel, h.1, Restorable]
      · have hs := isSentinel_of_lacks hl.1
        simp [redactedValue, hs, restoreWith, Restorable]
    | array | object =>
      simp only [redactWith] at ih
      simp only [itemTreatment, redactedValue, redactWith, isSentinel, Bool.and_false, Bool.false_eq_true,
        if_false]
      exact ih
    | undefined | null | bool | number =>
      simp [itemTreatment, redactedValue, isSentinel, restoreWith, Restorable]

theorem restoreEntries_redactEntries (w : Walker) (base : String) (original entries : Entries)
    (hl : entriesLack redactedSentinel entries = true) (hd : entriesDistinct entries = true)
    (horig : ∀ e ∈ entries, original.lookup e.1 = some e.2) :
    restoreEntries rules hints w base original (redactEntries rules hints w base entries).1 = .ok entries ↔
      RestorableEntries rules hints w base entries := by
  cases entries with
  | nil => simp [redactEntries, restoreEntries, RestorableEntries]
  | cons e rest =>
    obtain ⟨key, v⟩ := e
    rw [entriesLack, Bool.and_eq_true] at hl
    rw [entriesDistinct, Bool.and_eq_true] at hd
    have hrest := restoreEntries_redactEntries w base original rest hl.2 hd.2
      fun e he => horig e (mem_cons_of_mem _ he)
    have hentry := @restoredEntry_redacted rules hints w base key v original hl.1 hd.1
      (horig (key, v) (mem_cons_self ..)) fun w' base' => restoreWith_redactWith w' base' v hl.1 hd.1
    rw [redactEntries_cons, RestorableEntries, assign]
    by_cases hk : key = "__proto__"
    · rw [if_pos hk]
      refine iff_of_false (fun heq => ?_) fun hand => hand.1.1 hk
      exact restoreEntries_keys rules hints heq (by rw [hk]; exact mem_cons_self ..)
    · rw [if_neg hk, restoreEntries_eq_cons, hentry, hrest, and_assoc]
      rfl

end

mutual

theorem assertNoRedactedSentinel_lacking (path : String) (v : Value) (h : v.lacks redactedSentinel = true) :
    assertNoRedactedSentinel path v = .ok () := by
  cases v with
  | string s =>
    have hs : s ≠ redactedSentinel := by simpa [Value.lacks] using h
    rw [assertNoRedactedSentinel, if_neg hs]
  | array items =>
    rw [assertNoRedactedSentinel]
    exact assertNoSentinelItems_lacking path 0 items h
  | object entries =>
    rw [assertNoRedactedSentinel]
    exact assertNoSentinelEntries_lacking path entries h
  | undefined | null | bool | number => rw [assertNoRedactedSentinel] <;> exact nofun

theorem assertNoSentinelItems_lacking (path : String) (index : Nat) (items : List Value)
    (h : itemsLack redactedSentinel items = true) : assertNoSentinelItems path index items = .ok () := by
  cases items with
  | nil => rw [assertNoSentinelItems]
  | cons v rest =>
    rw [itemsLack, Bool.and_eq_true] at h
    rw [assertNoSentinelItems, assertNoRedactedSentinel_lacking _ v h.1,
      assertNoSentinelItems_lacking path (index + 1) rest h.2]
    rfl

theorem assertNoSentinelEntries_lacking (path : String) (entries : Entries)
    (h : entriesLack redactedSentinel entries = true) : assertNoSentinelEntries path entries = .ok () := by
  cases entries with
  | nil => rw [assertNoSentinelEntries]
  | cons e rest =>
    rw [entriesLack, Bool.and_eq_true] at h
    rw [assertNoSentinelEntries, assertNoRedactedSentinel_lacking _ e.2 h.1,
      assertNoSentinelEntries_lacking path rest h.2]
    rfl

end

theorem restoreChecked_eq_ok {incoming original : Value} (h : v.lacks redactedSentinel = true) :
    restoreChecked rules hints incoming original = .ok v ↔
      restoreWith rules hints (startWalker hints) "" incoming (some original) = .ok v := by
  rw [restoreChecked]
  cases restoreWith rules hints (startWalker hints) "" incoming (some original) with
  | error e => simp [bind, Except.bind]
  | ok restored =>
    constructor
    · intro heq
      simp only [bind, Except.bind] at heq
      split at heq
      · cases heq
      · exact heq
    · intro heq
      cases heq
      simp [bind, Except.bind, assertNoRedactedSentinel_lacking "" v h]

theorem mapError_eq_ok {ε ε' α : Type} {f : ε → ε'} {x : Except ε α} {a : α} :
    x.mapError f = .ok a ↔ x = .ok a := by
  cases x <;> simp [Except.mapError]

theorem restoreRedactedValues_of_isObject {incoming original : Value} (h : incoming.isObject = true) :
    restoreRedactedValues rules hints incoming original =
      (restoreChecked rules hints incoming original).mapError .redaction := by
  cases incoming with
  | array | object => rfl
  | undefined | null | bool | number | string => cases h

/-- The config comes back exactly when it is an object or an array and everything that
is hidden in it is recognised on the way back. -/
theorem restore_undoes_redaction (config : Value) (hl : config.lacks redactedSentinel = true)
    (hd : config.distinct = true) :
    restoreRedactedValues rules hints (redactConfigObject rules hints config) config = .ok config ↔
      config.isObject = true ∧ Restorable rules hints (startWalker hints) "" config := by
  rw [← restoreWith_redactWith rules hints _ _ config hl hd, redactConfigObject]
  cases hv : config.isObject with
  | false =>
    refine iff_of_false ?_ fun hand => Bool.false_ne_true hand.1
    cases config with
    | array | object => cases hv
    | undefined | null | bool | number | string => simp [redactWith, restoreRedactedValues]
  | true =>
    have hr := redactWith_isObject rules hints (startWalker hints) "" hv
    rw [restoreRedactedValues_of_isObject rules hints hr, mapError_eq_ok, restoreChecked_eq_ok rules hints hl]
    simp

end RoundTrip

/-- No path is sensitive by its name, and nothing looks like a URL with credentials. -/
def noPatterns : Rules := ⟨fun _ => false, fun _ => false, fun _ => false, id⟩

theorem restore_undoes_redaction_hinted :
    restoreRedactedValues noPatterns [("a.b", {sensitive := some true})]
        (redactConfigObject noPatterns [("a.b", {sensitive := some true})]
          (.object [("a", .object [("b", .string "secret"), ("c", .string "open")])]))
        (.object [("a", .object [("b", .string "secret"), ("c", .string "open")])]) =
      .ok (.object [("a", .object [("b", .string "secret"), ("c", .string "open")])]) :=
  (restore_undoes_redaction noPatterns [("a.b", {sensitive := some true})]
    (.object [("a", .object [("b", .string "secret"), ("c", .string "open")])]) (by decide) (by decide)).mpr
      ⟨rfl, ⟨by decide, ⟨by decide, rfl⟩, ⟨by decide, rfl⟩, trivial⟩, trivial⟩

/-- A string above a sensitive path, a URL at a path marked as not sensitive, and a
SecretRef without a provider are hidden and not taken back. -/
theorem hidden_value_not_restored :
    (restoreRedactedValues noPatterns [("a.b", {sensitive := some true})]
      (redactConfigObject noPatterns [("a.b", {sensitive := some true})] (.object [("a", .string "open")]))
      (.object [("a", .string "open")])).isOk = false ∧
    (restoreRedactedValues {noPatterns with redactSensitiveUrlLikeString := fun _ => "https://***@h"}
      [("u", {tags := some [sensitiveUrlHintTag], sensitive := some false})]
      (redactConfigObject {noPatterns with redactSensitiveUrlLikeString := fun _ => "https://***@h"}
        [("u", {tags := some [sensitiveUrlHintTag], sensitive := some false})]
        (.object [("u", .string "https://me@h")]))
      (.object [("u", .string "https://me@h")])).isOk = false ∧
    (restoreRedactedValues noPatterns [("k", {sensitive := some true})]
      (redactConfigObject noPatterns [("k", {sensitive := some true})]
        (.object [("k", .object [("source", .string "env"), ("id", .string "KEY")])]))
      (.object [("k", .object [("source", .string "env"), ("id", .string "KEY")])])).isOk = false := by
  decide

end OpenClaw.Config
