import OpenClaw.Config.Value

/-! Redacting a config, and restoring what was redacted.

Both directions walk the tree, by the hints' lookup or by guessing from the path; a
walker falls from the first to the second where the lookup misses. What happens to the
value under a key is a `Treatment` on the way out and a `Recovery` on the way back, one
definition for each walker; the recursion is shared. -/
namespace OpenClaw.Config
open Foundation.EcmaString

def redactedSentinel : String := "__OPENCLAW_REDACTED__"

/-- The rules that come from elsewhere: which paths are sensitive, and how a URL is scrubbed. -/
structure Rules where
  isSensitiveConfigPath : String → Bool
  isSensitiveUrlConfigPath : String → Bool
  isWholeObjectSensitivePath : String → Bool
  redactSensitiveUrlLikeString : String → String

/-- `ENV_VAR_PLACEHOLDER_PATTERN` on the trimmed value. -/
def isEnvVarPlaceholder (value : String) : Bool :=
  match (trim value).toList with
  | '$' :: '\x7b' :: rest => rest.getLast? = some '\x7d' && rest.dropLast.all (· ≠ '\x7d')
  | _ => false

def Rules.isSensitivePath (rules : Rules) (path : String) : Bool :=
  rules.isSensitiveConfigPath (if endsWith path "[]" then dropEnd path 2 else path)

def isSecretRefShape (entries : Entries) : Bool :=
  (textField entries "source").isSome && (textField entries "id").isSome

def isSecretRefWithProvider (entries : Entries) : Bool :=
  isSecretRefShape entries && (textField entries "provider").isSome

/-- `prefix ? prefix + "." + key : key`. -/
def joinPath (base key : String) : String := if base = "" then key else base ++ "." ++ key

def wildcardPath (base : String) : String := joinPath base "*"

/-! ### The strings of a secret -/

def sensitiveText (value : String) : List String := if isEnvVarPlaceholder value then [] else [value]

mutual

def collectSensitiveStrings : Value → List String
  | .string s => sensitiveText s
  | .array items => collectItemStrings items
  | .object entries =>
    -- the other fields of a SecretRef are no secret material
    match isSecretRefShape entries, textField entries "id" with
    | true, some id => sensitiveText id
    | _, _ => collectEntryStrings entries
  | _ => []

def collectItemStrings : List Value → List String
  | [] => []
  | v :: rest => collectSensitiveStrings v ++ collectItemStrings rest

def collectEntryStrings : Entries → List String
  | [] => []
  | (_, v) :: rest => collectSensitiveStrings v ++ collectEntryStrings rest

end

/-- `{ ...value, [key]: v }` for a key that is there. -/
def withField (key : String) (v : Value) (entries : Entries) : Entries :=
  entries.map fun e => if e.1 = key then (key, v) else e

/-! ### Redacting -/

/-- How a tree is walked. -/
inductive Walker where
  | withLookup (lookup : List String)
  | guessing
  deriving Repr, DecidableEq

/-- What redaction does with a value. -/
inductive Treatment where
  | keep
  /-- The sentinel in its place; the secrets are what it hides. -/
  | hide (secrets : List String)
  /-- The sentinel in the place of a SecretRef's id. -/
  | hideId (id : String)
  | walk (w : Walker) (base : String)
  deriving Repr, DecidableEq

section Walkers
variable (rules : Rules) (hints : ConfigUiHints)

def isUrlEntry (paths : List String) (path : String) : Bool :=
  hasSensitiveUrlHintPath hints paths || rules.isSensitiveUrlConfigPath path

/-- A URL is hidden when scrubbing would change it. -/
def treatUrl (s : String) : Treatment :=
  if rules.redactSensitiveUrlLikeString s ≠ s then .hide [s] else .keep

/-- `redactObjectGuessing`, on the value under a key. -/
def guessingTreatment (base key : String) (value : Value) : Treatment :=
  let dotPath := joinPath base key
  let guessed := !isExplicitlyNonSensitivePath hints [dotPath, wildcardPath base] &&
    rules.isSensitivePath dotPath
  match value with
  | .string s =>
    if guessed && !isEnvVarPlaceholder s then .hide [s]
    else if isUrlEntry rules hints [dotPath, wildcardPath base] dotPath then treatUrl rules s
    else .keep
  | .object _ =>
    if guessed && rules.isWholeObjectSensitivePath dotPath then .hide (collectSensitiveStrings value)
    else .walk .guessing dotPath
  | .array _ => .walk .guessing dotPath
  | _ => .keep

/-- The candidate path that the lookup has, if any. -/
def matchedCandidate (lookup : List String) (base key : String) : Option String :=
  [joinPath base key, wildcardPath base].find? (lookup.contains ·)

/-- A value whose path the lookup has, as `candidate`. -/
def matchedTreatment (lookup : List String) (candidate base key : String) (value : Value) : Treatment :=
  let path := joinPath base key
  match value with
  | .string s =>
    if !isEnvVarPlaceholder s then .hide [s]
    -- a placeholder at an explicitly sensitive path is hidden, but it is no secret
    else if isHintedSensitive hints candidate then .hide []
    else if isUrlEntry rules hints [candidate, path, wildcardPath base] path then treatUrl rules s
    else .keep
  | .object entries =>
    if isHintedSensitive hints candidate then
      match isSecretRefShape entries, textField entries "id" with
      | true, some id => if isEnvVarPlaceholder id then .keep else .hideId id
      | _, _ => .hide (collectSensitiveStrings value)
    else .walk (.withLookup lookup) candidate
  | .array _ => .walk (.withLookup lookup) candidate
  | .undefined | .null => .keep
  | _ => if isHintedSensitive hints candidate then .hide [] else .keep

/-- A value whose path the lookup misses: pattern-based guessing, without the whole objects. -/
def unmatchedTreatment (base key : String) (value : Value) : Treatment :=
  let path := joinPath base key
  let markedNonSensitive := isExplicitlyNonSensitivePath hints [path, wildcardPath base]
  match value with
  | .string s =>
    if !markedNonSensitive && rules.isSensitivePath path && !isEnvVarPlaceholder s then .hide [s]
    else if isUrlEntry rules hints [path, wildcardPath base] path then treatUrl rules s
    else .keep
  | .object _ | .array _ => .walk .guessing path
  | _ => .keep

def entryTreatment (w : Walker) (base key : String) (value : Value) : Treatment :=
  match w with
  | .guessing => guessingTreatment rules hints base key value
  | .withLookup lookup =>
    match matchedCandidate lookup base key with
    | some candidate => matchedTreatment rules hints lookup candidate base key value
    | none => unmatchedTreatment rules hints base key value

/-- How the items of an array are walked, and whether their strings are hidden. -/
def itemWalker (w : Walker) (base : String) : Walker × Bool :=
  let path := base ++ "[]"
  let guessed := !isExplicitlyNonSensitivePath hints [path] && rules.isSensitivePath path
  match w with
  | .guessing => (.guessing, guessed)
  | .withLookup lookup => if lookup.contains path then (w, true) else (.guessing, guessed)

def itemTreatment (w : Walker) (hides : Bool) (path : String) (value : Value) : Treatment :=
  match value with
  | .string s => if hides && !isEnvVarPlaceholder s then .hide [s] else .keep
  | .object _ | .array _ => .walk w path
  | _ => .keep

mutual

/-- The redacted value, and the secrets that were hidden in it. -/
def redactWith (w : Walker) (base : String) : Value → Value × List String
  | .array items =>
    let r := redactItems (itemWalker rules hints w base).1 (itemWalker rules hints w base).2 (base ++ "[]") items
    (.array r.1, r.2)
  | .object entries =>
    let r := redactEntries w base entries
    (.object r.1, r.2)
  | v => (v, [])

def redactItems (w : Walker) (hides : Bool) (path : String) : List Value → List Value × List String
  | [] => ([], [])
  | v :: rest =>
    let here := match itemTreatment w hides path v with
      | .hide secrets => (Value.string redactedSentinel, secrets)
      | .walk w' base => redactWith w' base v
      | _ => (v, [])
    let others := redactItems w hides path rest
    (here.1 :: others.1, here.2 ++ others.2)

def redactEntries (w : Walker) (base : String) : Entries → Entries × List String
  | [] => ([], [])
  | (key, v) :: rest =>
    let here := match entryTreatment rules hints w base key v with
      | .keep => (v, [])
      | .hide secrets => (Value.string redactedSentinel, secrets)
      | .hideId id => (Value.object (withField "id" (.string redactedSentinel) (toObjectRecord (some v))), [id])
      | .walk w' base' => redactWith w' base' v
    let others := redactEntries w base rest
    (assign key here.1 others.1, here.2 ++ others.2)

end

def redactObjectWithLookup (lookup : List String) (base : String) (obj : Value) : Value × List String :=
  redactWith rules hints (.withLookup lookup) base obj

def redactObjectGuessing (base : String) (obj : Value) : Value × List String :=
  redactWith rules hints .guessing base obj

/-- The walker a whole config starts with. -/
def startWalker : Walker :=
  let lookup := buildRedactionLookup hints
  if lookup.contains "" then .withLookup lookup else .guessing

/-- `redactObject`. -/
def redactConfigObject (value : Value) : Value := (redactWith rules hints (startWalker hints) "" value).1

def collectSensitiveValues (value : Value) : List String :=
  (redactWith rules hints (startWalker hints) "" value).2

/-! ### Restoring -/

structure RedactionError where
  key : String
  humanReadableMessage : String
  deriving Repr, DecidableEq

def sentinelNotValid (key : String) : RedactionError :=
  ⟨key, "Sentinel value \"" ++ redactedSentinel ++ "\" in key " ++ key ++ " is not valid as real data"⟩

def restoreOriginalValueOrThrow (key path : String) (original : Entries) : Except RedactionError Value :=
  match original.lookup key with
  | some v => .ok v
  | none => .error (sentinelNotValid path)

def reservedSentinel (path : String) : RedactionError :=
  let pathLabel := if path = "" then "<root>" else path
  ⟨pathLabel, "Reserved redaction sentinel \"" ++ redactedSentinel ++ "\" is not valid config data (" ++
    pathLabel ++ ")."⟩

mutual

/-- The path of the first sentinel left, if any. -/
def assertNoRedactedSentinel (path : String) : Value → Except RedactionError Unit
  | .string s => if s = redactedSentinel then .error (reservedSentinel path) else .ok ()
  | .array items => assertNoSentinelItems path 0 items
  | .object entries => assertNoSentinelEntries path entries
  | _ => .ok ()

def assertNoSentinelItems (path : String) (index : Nat) : List Value → Except RedactionError Unit
  | [] => .ok ()
  | v :: rest => do
    assertNoRedactedSentinel (path ++ "[" ++ toString index ++ "]") v
    assertNoSentinelItems path (index + 1) rest

def assertNoSentinelEntries (path : String) : Entries → Except RedactionError Unit
  | [] => .ok ()
  | (key, v) :: rest => do
    assertNoRedactedSentinel (joinPath path key) v
    assertNoSentinelEntries path rest

end

/-- Nothing if the incoming value is no SecretRef with a hidden id. -/
def maybeRestoreSecretRefId (incoming : Value) (original : Option Value) (path : String) :
    Except RedactionError (Option Value) :=
  let incomingObj := toObjectRecord (some incoming)
  let originalObj := toObjectRecord original
  if !isSecretRefShape incomingObj || textField incomingObj "id" ≠ some redactedSentinel then .ok none
  else if !isSecretRefWithProvider originalObj then
    if isSecretRefShape originalObj then
      .error ⟨path, "SecretRef at " ++ path ++
        " requires a provider field to restore the redacted id automatically (original ref lacks provider)."⟩
    else
      .error ⟨path, "SecretRef at " ++ path ++
        " contains a redacted id placeholder with no matching original value."⟩
  else if !isSecretRefWithProvider incomingObj then
    .error ⟨path, "SecretRef at " ++ path ++
      " must include source, provider, and id when redacted placeholders are present."⟩
  else if textField incomingObj "source" ≠ textField originalObj "source" ||
      textField incomingObj "provider" ≠ textField originalObj "provider" then
    .error ⟨path, "SecretRef at " ++ path ++ " changed source/provider while id is redacted. " ++
      "Provide an explicit id when changing source/provider."⟩
  else .ok (some (.object (withField "id" (.string ((textField originalObj "id").getD "")) incomingObj)))

/-- `maybeRestoreSecretRefId` where there is a path to look for a SecretRef. -/
def restoreSecretRef (path : Option String) (incoming : Value) (original : Option Value) :
    Except RedactionError (Option Value) :=
  match path with
  | some path => maybeRestoreSecretRefId incoming original path
  | none => .ok none

/-- `restoredSecretRef.handled ? restoredSecretRef.value : walk`. -/
def handledOr (restored : Except RedactionError (Option Value)) (walk : Except RedactionError Value) :
    Except RedactionError Value :=
  match restored with
  | .error e => .error e
  | .ok (some value) => .ok value
  | .ok none => walk

@[simp] theorem handledOr_none (walk : Except RedactionError Value) : handledOr (.ok none) walk = walk := rfl

/-- What restoring does with an incoming value. -/
inductive Recovery where
  | keep
  /-- The original value under the key, or an error that names the path. -/
  | original (path : String)
  /-- Walk on; where a SecretRef is looked for first, with the path its error names. -/
  | walk (w : Walker) (base : String) (secretRef : Option String)
  deriving Repr, DecidableEq

def isSentinel : Value → Bool
  | .string s => s = redactedSentinel
  | _ => false

def isGuessedRestorable (base key : String) : Bool :=
  let path := joinPath base key
  !isExplicitlyNonSensitivePath hints [path, wildcardPath base] &&
    (rules.isSensitivePath path || isUrlEntry rules hints [path, wildcardPath base] path)

/-- `restoreRedactedValuesGuessing`, on the value under a key; a path that the lookup
misses is restored the same way. -/
def guessingRecovery (base key : String) (value : Value) : Recovery :=
  let path := joinPath base key
  let restorable := isGuessedRestorable rules hints base key
  if restorable && isSentinel value then .original path
  else if value.isObject then .walk .guessing path (if restorable then some path else none)
  else .keep

def isMatchedRestorable (candidate base key : String) : Bool :=
  isHintedSensitive hints candidate ||
    isUrlEntry rules hints [candidate, joinPath base key, wildcardPath base] (joinPath base key)

/-- A value whose path the lookup has, as `candidate`. -/
def matchedRecovery (lookup : List String) (candidate base key : String) (value : Value) : Recovery :=
  if isSentinel value && isMatchedRestorable rules hints candidate base key then .original candidate
  else if value.isObject then .walk (.withLookup lookup) candidate (some (joinPath base key))
  else .keep

def entryRecovery (w : Walker) (base key : String) (value : Value) : Recovery :=
  match w with
  | .guessing => guessingRecovery rules hints base key value
  | .withLookup lookup =>
    match matchedCandidate lookup base key with
    | some candidate => matchedRecovery rules hints lookup candidate base key value
    | none => guessingRecovery rules hints base key value

mutual

def restoreWith (w : Walker) (base : String) : Value → Option Value → Except RedactionError Value
  | .array items, original => do
    let restored ← restoreItems (itemWalker rules hints w base).1 (itemWalker rules hints w base).2
      (base ++ "[]") items (toItems original)
    .ok (.array restored)
  | .object entries, original => do
    let restored ← restoreEntries w base (toObjectRecord original) entries
    .ok (.object restored)
  | v, _ => .ok v

def restoreItems (w : Walker) (hides : Bool) (path : String) :
    List Value → List Value → Except RedactionError (List Value)
  | [], _ => .ok []
  | v :: rest, originals => do
    let restored : Except RedactionError Value :=
      if hides && isSentinel v then .ok (originals.head?.getD .undefined)
      else restoreWith w path v originals.head?
    let here ← restored
    let others ← restoreItems w hides path rest originals.tail
    .ok (here :: others)

def restoreEntries (w : Walker) (base : String) (original : Entries) : Entries → Except RedactionError Entries
  | [] => .ok []
  | (key, v) :: rest => do
    let restored : Except RedactionError Value :=
      match entryRecovery rules hints w base key v with
      | .keep => .ok v
      | .original path => restoreOriginalValueOrThrow key path original
      | .walk w' base' secretRef =>
        handledOr (restoreSecretRef secretRef v (original.lookup key))
          (restoreWith w' base' v (original.lookup key))
    let here ← restored
    let others ← restoreEntries w base original rest
    .ok (assign key here others)

end

/-- Why a restore is refused. -/
inductive RestoreFailure where
  | input (error : String)
  | redaction (error : RedactionError)
  deriving Repr, DecidableEq

/-- Restore, and refuse what still has a sentinel in it. -/
def restoreChecked (incoming original : Value) : Except RedactionError Value := do
  let restored ← restoreWith rules hints (startWalker hints) "" incoming (some original)
  assertNoRedactedSentinel "" restored
  .ok restored

def restoreRedactedValues (incoming original : Value) : Except RestoreFailure Value :=
  match incoming with
  | .null | .undefined => .error (.input "no input")
  | .array _ | .object _ => (restoreChecked rules hints incoming original).mapError .redaction
  | _ => .error (.input "input not an object")

end Walkers

end OpenClaw.Config
