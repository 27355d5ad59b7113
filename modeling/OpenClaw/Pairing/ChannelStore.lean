import OpenClaw.Foundation.Run
import OpenClaw.Foundation.InsertionMap
import OpenClaw.Pairing.Scopes

/-! The pairing store of the channels.

A sender who is not known to a channel gets a code; whoever approves the code
puts the sender on the allow-from list of the channel and account. Pending
requests are kept in one file for each channel, allow-from lists in one file for
each channel and account, and one more for each channel from before there were
accounts. Files are named after the channel and the account with the characters
that have a meaning in paths replaced. Reads of the lists go through a cache. -/
namespace OpenClaw.Pairing

open Foundation Foundation.EcmaString

/-- The case tables of the runtime, and the adapters that plugins register for their channels. -/
structure ChannelHost where
  toLowerCase : String → String
  toUpperCase : String → String
  normalizeAllowEntry : String → Option (String → String)

def defaultAccountId : String := "default"

def pairingPendingTtlMs : Nat := 60 * 60 * 1000

def pairingPendingMax : Nat := 3

/-! ### File names -/

def isUnsafeInName (c : Char) : Bool := c ∈ ['\\', '/', ':', '*', '?', '"', '<', '>', '|']

/-- `replace(/\.\./g, "_")`. -/
def replaceDots : List Char → List Char
  | '.' :: '.' :: rest => '_' :: replaceDots rest
  | c :: rest => c :: replaceDots rest
  | [] => []

def sanitizeName (raw : String) : String :=
  String.ofList (replaceDots (raw.toList.map fun c => if isUnsafeInName c then '_' else c))

variable (host : ChannelHost) (channel : String) (accountId : Option String)

/-- The name made of an id, unless nothing is left of it. -/
def safeKey (error value : String) : Except String String :=
  let raw := host.toLowerCase (trim value)
  if raw = "" then .error error
  else
    let safe := sanitizeName raw
    if safe = "" ∨ safe = "_" then .error error else .ok safe

def safeChannelKey : Except String String :=
  safeKey host "invalid pairing channel" channel

def safeAccountKey (accountId : String) : Except String String :=
  safeKey host "invalid pairing account id" accountId

def resolvePairingPath : Except String String :=
  (safeChannelKey host channel).map fun base => base ++ "-pairing.json"

/-- Names are relative to the directory for credentials. -/
def resolveAllowFromPath : Except String String :=
  match safeChannelKey host channel with
  | .error error => .error error
  | .ok base =>
    let normalizedAccountId := trim (accountId.getD "")
    if normalizedAccountId = "" then .ok (base ++ "-allowFrom.json")
    else (safeAccountKey host normalizedAccountId).map fun account => base ++ "-" ++ account ++ "-allowFrom.json"

/-! ### Records -/

/-- The times are those of the instants the record spells out. -/
structure PairingRequest where
  id : String
  code : String
  createdAt : Nat
  lastSeenAt : Nat
  metadata : InsertionMap String String

structure AllowFromReadCacheEntry where
  exists_ : Bool
  entries : List String

structure ChannelStore where
  requests : InsertionMap String (List PairingRequest) := ∅
  allowFrom : InsertionMap String (List String) := ∅
  cache : InsertionMap String AllowFromReadCacheEntry := ∅

/-! ### Accounts and entries -/

def normalizePairingAccountId : String :=
  host.toLowerCase (trim (accountId.getD ""))

/-- `x || DEFAULT_ACCOUNT_ID`. -/
def orDefaultAccount (accountId : String) : String := if accountId = "" then defaultAccountId else accountId

def resolvePairingRequestAccountId (entry : PairingRequest) : String :=
  orDefaultAccount (normalizePairingAccountId host (entry.metadata.get? "accountId"))

def requestMatchesAccountId (normalizedAccountId : String) (entry : PairingRequest) : Bool :=
  normalizedAccountId == "" || resolvePairingRequestAccountId host entry == normalizedAccountId

def resolveAllowFromAccountId : String :=
  orDefaultAccount (normalizePairingAccountId host accountId)

def shouldIncludeLegacyAllowFromEntries (normalizedAccountId : String) : Bool :=
  normalizedAccountId == "" || normalizedAccountId == defaultAccountId

def normalizeAllowEntry (host : ChannelHost) (channel entry : String) : String :=
  let trimmed := trim entry
  if trimmed = "" then ""
  else if trimmed = "*" then ""
  else trim (match host.normalizeAllowEntry channel with
    | some normalize => normalize trimmed
    | none => trimmed)

/-- `dedupePreserveOrder`. -/
def dedupePreserveOrder (entries : List String) : List String := trimmedSet entries

def normalizeAllowFromList (allowFrom : List String) : List String :=
  dedupePreserveOrder ((allowFrom.map (normalizeAllowEntry host channel)).filter (· ≠ ""))

/-! ### Allow-from lists -/

/-- A read of one list: the cached entries, if the file is there or missing as it was and has the
time and size it had. -/
def readAllowFromStateForPath (filePath : String) (sameStat : Bool) (st : ChannelStore)
    : List String × ChannelStore :=
  let file := st.allowFrom.get? filePath
  let cached := (st.cache.get? filePath).filter fun cached =>
    cached.exists_ == file.isSome && (!file.isSome || sameStat)
  match cached, file with
  | some cached, _ => (cached.entries, st)
  | none, none => ([], { st with cache := st.cache.set filePath ⟨false, []⟩ })
  | none, some allowFrom =>
    let entries := normalizeAllowFromList host channel allowFrom
    (entries, { st with cache := st.cache.set filePath ⟨true, entries⟩ })

/-- The flags say whether the files have the times and sizes the cache knows. -/
def readChannelAllowFromStore (sameScoped sameLegacy : Bool) (st : ChannelStore)
    : Except String (List String) × ChannelStore :=
  let resolvedAccountId := resolveAllowFromAccountId host accountId
  match resolveAllowFromPath host channel (some resolvedAccountId) with
  | .error error => (.error error, st)
  | .ok scopedPath =>
    let (scopedEntries, afterScoped) := readAllowFromStateForPath host channel scopedPath sameScoped st
    if !shouldIncludeLegacyAllowFromEntries resolvedAccountId then (.ok scopedEntries, afterScoped)
    else
      match resolveAllowFromPath host channel none with
      | .error error => (.error error, afterScoped)
      | .ok legacyPath =>
        let (legacyEntries, afterLegacy) := readAllowFromStateForPath host channel legacyPath sameLegacy afterScoped
        (.ok (dedupePreserveOrder (scopedEntries ++ legacyEntries)), afterLegacy)

/-- A file that is missing is created first. -/
def ensureJsonFile {α : Type} (filePath : String) (fallback : α) (files : InsertionMap String α) :
    α × InsertionMap String α :=
  match files.get? filePath with
  | some value => (value, files)
  | none => (fallback, files.set filePath fallback)

structure AllowFromUpdate where
  changed : Bool
  allowFrom : List String

def updateAllowFromStoreEntry (entry : String) (accountId : Option String)
    (apply : List String → String → Option (List String)) (st : ChannelStore) :
    Except String AllowFromUpdate × ChannelStore :=
  match resolveAllowFromPath host channel accountId with
  | .error error => (.error error, st)
  | .ok filePath =>
    let (value, files) := ensureJsonFile filePath [] st.allowFrom
    let current := normalizeAllowFromList host channel value
    let normalized := normalizeAllowEntry host channel (trim entry)
    if normalized = "" then (.ok ⟨false, current⟩, { st with allowFrom := files })
    else
      match apply current normalized with
      | none => (.ok ⟨false, current⟩, { st with allowFrom := files })
      | some next => (.ok ⟨true, next⟩, { st with
          allowFrom := files.set filePath next
          cache := st.cache.set filePath ⟨true, next⟩ })

def addEntry (current : List String) (normalized : String) : Option (List String) :=
  if current.contains normalized then none else some (current ++ [normalized])

def removeEntry (current : List String) (normalized : String) : Option (List String) :=
  let next := current.filter (· ≠ normalized)
  if next.length = current.length then none else some next

def addChannelAllowFromStoreEntry (entry : String) (accountId : Option String) (st : ChannelStore)
    : Except String AllowFromUpdate × ChannelStore :=
  updateAllowFromStoreEntry host channel entry accountId addEntry st

def removeChannelAllowFromStoreEntry (entry : String) (accountId : Option String) (st : ChannelStore)
    : Except String AllowFromUpdate × ChannelStore :=
  updateAllowFromStoreEntry host channel entry accountId removeEntry st

/-! ### Pending requests -/

def isExpired (nowMs : Nat) (entry : PairingRequest) : Bool :=
  entry.createdAt = 0 || nowMs > entry.createdAt + pairingPendingTtlMs

def pruneExpiredRequests (nowMs : Nat) (reqs : List PairingRequest) : List PairingRequest :=
  reqs.filter fun req => !isExpired nowMs req

/-- The requests of an account beyond the most recent ones. -/
def excessIndexes (maxPending : Nat) (reqs : List PairingRequest) (accountId : String) : List Nat :=
  let indexes := reqs.zipIdx.filter fun r => resolvePairingRequestAccountId host r.1 == accountId
  let sorted := indexes.insertionSort fun left right => left.1.lastSeenAt ≤ right.1.lastSeenAt
  (sorted.take (sorted.length - maxPending)).map Prod.snd

def pruneExcessRequestsByAccount (maxPending : Nat) (reqs : List PairingRequest) : List PairingRequest :=
  if maxPending = 0 ∨ reqs.length ≤ maxPending then reqs
  else
    let accounts := (reqs.map (resolvePairingRequestAccountId host)).eraseDups
    let dropped := accounts.flatMap (excessIndexes host maxPending reqs)
    (reqs.zipIdx.filter fun r => !dropped.contains r.2).map Prod.fst

/-- `draws` are the random codes in the order they come. -/
def generateUniqueCode (draws existing : List String) : Except String String :=
  match (draws.take 500).find? fun code => !existing.contains code with
  | some code => .ok code
  | none => .error "failed to generate unique pairing code"

structure UpsertParams where
  channel : String
  id : String
  accountId : String
  metadata : Option (List (String × String)) := none

structure UpsertResult where
  code : String
  created : Bool
deriving DecidableEq

/-- The metadata of a request: what was given, trimmed and not blank, with the account. -/
def requestMetadata (given : Option (List (String × String))) (accountId : String) : InsertionMap String String :=
  let base := (given.getD []).foldl (fun m e => if trim e.2 = "" then m else m.set e.1 (trim e.2))
    (∅ : InsertionMap String String)
  base.set "accountId" accountId

def upsertChannelPairingRequest (params : UpsertParams) (draws : List String) (now : Nat)
    (st : ChannelStore) : Except String UpsertResult × ChannelStore :=
  match resolvePairingPath host params.channel with
  | .error error => (.error error, st)
  | .ok filePath =>
    let (stored, files) := ensureJsonFile filePath [] st.requests
    let write (requests : List PairingRequest) : ChannelStore := { st with requests := files.set filePath requests }
    let id := trim params.id
    let accountId := orDefaultAccount (normalizePairingAccountId host (some params.accountId))
    let metadata := requestMetadata params.metadata accountId
    let reqs := pruneExpiredRequests now stored
    let existingCodes := reqs.map fun req => host.toUpperCase (trim req.code)
    match reqs.findIdx? fun r => r.id == id && requestMatchesAccountId host accountId r with
    | some index =>
      let existing := reqs[index]?
      let existingCode := (existing.map fun r => trim r.code).getD ""
      let code := if existingCode = "" then generateUniqueCode draws existingCodes else .ok existingCode
      match code with
      | .error error => (.error error, { st with requests := files })
      | .ok code =>
        let next : PairingRequest :=
          { id, code, createdAt := (existing.map (·.createdAt)).getD now, lastSeenAt := now, metadata }
        (.ok ⟨code, false⟩, write (pruneExcessRequestsByAccount host pairingPendingMax (reqs.set index next)))
    | none =>
      let reqs := pruneExcessRequestsByAccount host pairingPendingMax reqs
      if (reqs.filter (requestMatchesAccountId host accountId)).length ≥ pairingPendingMax then
        (.ok ⟨"", false⟩, write reqs)
      else
        match generateUniqueCode draws existingCodes with
        | .error error => (.error error, { st with requests := files })
        | .ok code =>
          (.ok ⟨code, true⟩, write (reqs ++ [{ id, code, createdAt := now, lastSeenAt := now, metadata }]))

/-- The account an approval is for: the one given, else that of the request. -/
def approvalAccount (entry : PairingRequest) : Option String :=
  (trimmed? accountId).or (trimmed? (entry.metadata.get? "accountId"))

def approveChannelPairingCode (code : String) (accountId : Option String) (now : Nat) (st : ChannelStore)
    : Except String (Option PairingRequest) × ChannelStore :=
  let code := host.toUpperCase (trim code)
  if code = "" then (.ok none, st)
  else
    match resolvePairingPath host channel with
    | .error error => (.error error, st)
    | .ok filePath =>
      let (stored, files) := ensureJsonFile filePath [] st.requests
      let pruned := pruneExpiredRequests now stored
      let normalizedAccountId := normalizePairingAccountId host accountId
      match pruned.findIdx? fun r => host.toUpperCase r.code == code &&
          requestMatchesAccountId host normalizedAccountId r with
      | none => (.ok none, { st with requests := files.set filePath pruned })
      | some index =>
        match pruned[index]? with
        | none => (.ok none, { st with requests := files })
        | some entry =>
          let written := { st with requests := files.set filePath (pruned.eraseIdx index) }
          match addChannelAllowFromStoreEntry host channel entry.id (approvalAccount accountId entry) written with
          | (.error error, added) => (.error error, added)
          | (.ok _, added) => (.ok (some entry), added)

end OpenClaw.Pairing
