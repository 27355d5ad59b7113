import Mathlib.Data.List.Sort
import Mathlib.Data.Rat.Floor
import OpenClaw.Foundation.InsertionMap
import OpenClaw.Foundation.Run
import OpenClaw.Routing.SessionKey

/-! The session store: a file of session entries.

A save brings the store into its normal form, applies the maintenance, may move the
file at hand aside, and writes the text of the store unless it is the text this process
last read or wrote. Two caches stand between: the text, and the store with the time and
size of its file. Operations that save run one at a time, under the lock of the store.

`saved` is the store the last save left, as long as no other process replaced the file
since. JSON values the store does not look into have the type `ρ`, texts of the file `τ`. -/
namespace OpenClaw.Sessions
open Foundation
open Foundation.EcmaString (trim trimmed?)

/-! ### Entries -/

inductive ThreadId
  | number (n : ℚ)
  | text (s : String)
  deriving DecidableEq

structure DeliveryContext where
  channel : Option String := none
  /-- The field `to`. -/
  target : Option String := none
  accountId : Option String := none
  threadId : Option ThreadId := none
  deriving DecidableEq

structure SessionOrigin where
  provider : Option String := none
  accountId : Option String := none
  threadId : Option ThreadId := none
  deriving DecidableEq

structure SessionEntry (ρ : Type*) where
  sessionId : String
  updatedAt : Option Int
  model : Option String := none
  modelProvider : Option String := none
  channel : Option String := none
  groupChannel : Option String := none
  origin : Option SessionOrigin := none
  deliveryContext : Option DeliveryContext := none
  lastChannel : Option String := none
  lastTo : Option String := none
  lastAccountId : Option String := none
  lastThreadId : Option ThreadId := none
  acp : Option ρ := none
  /-- Fields of earlier versions. -/
  provider : Option String := none
  lastProvider : Option String := none
  room : Option String := none
  /-- The other fields. -/
  rest : Option ρ := none
  deriving DecidableEq

abbrev Store (ρ : Type*) := InsertionMap String (SessionEntry ρ)

variable {ρ τ : Type*}

def normalizeSessionRuntimeModelFields (entry : SessionEntry ρ) : SessionEntry ρ :=
  match trimmed? entry.model with
  | none => {entry with model := none, modelProvider := none}
  | some model => {entry with model := some model, modelProvider := trimmed? entry.modelProvider}

/-- The renamings of earlier versions. -/
def migrateSessionEntry (entry : SessionEntry ρ) : SessionEntry ρ :=
  let entry := match entry.channel, entry.provider with
    | none, some provider => {entry with channel := some provider, provider := none}
    | _, _ => entry
  let entry := match entry.lastChannel, entry.lastProvider with
    | none, some lastProvider => {entry with lastChannel := some lastProvider, lastProvider := none}
    | _, _ => entry
  match entry.groupChannel, entry.room with
  | none, some room => {entry with groupChannel := some room, room := none}
  | _, _ => {entry with room := none}

def applySessionStoreMigrations (store : Store ρ) : Store ρ := store.mapValues fun _ entry => migrateSessionEntry entry

/-! ### Delivery fields -/

section Delivery
variable (normalizeMessageChannel : String → Option String)

def truncate (n : ℚ) : ℚ := if 0 ≤ n then ⌊n⌋ else ⌈n⌉

def normalizeThreadId : Option ThreadId → Option ThreadId
  | none => none
  | some (.number n) => some (.number (truncate n))
  | some (.text s) => (trimmed? (some s)).map .text

def normalizeOptionalAccountId (value : Option String) : Option String :=
  (trimmed? value).bind Routing.normalizeCanonicalAccountId

def normalizeDeliveryContext (context : Option DeliveryContext) : Option DeliveryContext :=
  context.bind fun context =>
    let channel := (context.channel.map fun c => (normalizeMessageChannel c).getD (trim c)).filter (· ≠ "")
    let normalized : DeliveryContext := ⟨channel, trimmed? context.target, normalizeOptionalAccountId context.accountId,
      normalizeThreadId context.threadId⟩
    if normalized = {} then none else some normalized

def mergeDeliveryContext (primary fallback : Option DeliveryContext) : Option DeliveryContext :=
  let primary := normalizeDeliveryContext normalizeMessageChannel primary
  let fallback := normalizeDeliveryContext normalizeMessageChannel fallback
  if primary.isNone ∧ fallback.isNone then none
  else
    let first := primary.getD {}
    let second := fallback.getD {}
    let channelsConflict := first.channel.isSome ∧ second.channel.isSome ∧ first.channel ≠ second.channel
    normalizeDeliveryContext normalizeMessageChannel (some {
      channel := first.channel <|> second.channel
      target := if channelsConflict then first.target else first.target <|> second.target
      accountId := if channelsConflict then first.accountId else first.accountId <|> second.accountId
      threadId := if channelsConflict then first.threadId else first.threadId <|> second.threadId})

/-- The delivery context of an entry, from its last route and the context it has. -/
def normalizeSessionDeliveryFields (entry : SessionEntry ρ) : Option DeliveryContext :=
  let lastThreadId := entry.lastThreadId <|> (entry.deliveryContext.bind DeliveryContext.threadId) <|>
    entry.origin.bind SessionOrigin.threadId
  mergeDeliveryContext normalizeMessageChannel
    (normalizeDeliveryContext normalizeMessageChannel
      (some ⟨entry.lastChannel <|> entry.channel, entry.lastTo, entry.lastAccountId, lastThreadId⟩))
    (normalizeDeliveryContext normalizeMessageChannel entry.deliveryContext)

def normalizeSessionEntryDelivery (entry : SessionEntry ρ) : SessionEntry ρ :=
  let nextDelivery := normalizeSessionDeliveryFields normalizeMessageChannel entry
  let next := nextDelivery.getD {}
  if entry.deliveryContext.getD {} = next ∧
      (⟨entry.lastChannel, entry.lastTo, entry.lastAccountId, entry.lastThreadId⟩ : DeliveryContext) = next then entry
  else {entry with
    deliveryContext := nextDelivery
    lastChannel := next.channel
    lastTo := next.target
    lastAccountId := next.accountId
    lastThreadId := next.threadId}

def normalizeSessionStore (store : Store ρ) : Store ρ :=
  store.mapValues fun _ entry =>
    normalizeSessionEntryDelivery normalizeMessageChannel (normalizeSessionRuntimeModelFields entry)

end Delivery

/-! ### Maintenance -/

inductive SessionMaintenanceMode
  | warn | enforce
  deriving DecidableEq, Repr

structure Maintenance where
  mode : SessionMaintenanceMode
  pruneAfterMs : Int
  maxEntries : Nat
  rotateBytes : Nat

def pruneStaleEntries (maxAgeMs now : Int) (store : Store ρ) : Store ρ :=
  store.keepValues fun entry => !entry.updatedAt.any (· < now - maxAgeMs)

/-- An entry comes before another when the most recently updated are first. -/
def updatedBefore (a b : SessionEntry ρ) : Prop :=
  match b.updatedAt, a.updatedAt with
  | none, _ => True
  | some _, none => False
  | some y, some x => y ≤ x

instance : DecidableRel (@updatedBefore ρ) := fun a b => by
  unfold updatedBefore
  split <;> infer_instance

def deleteAll (keys : List String) (store : Store ρ) : Store ρ := keys.foldl InsertionMap.erase store

def capEntryCount (maxEntries : Nat) (store : Store ρ) : Store ρ :=
  let sorted := store.entries.insertionSort fun a b => updatedBefore a.2 b.2
  if store.size ≤ maxEntries then store else deleteAll ((sorted.drop maxEntries).map Prod.fst) store

/-! ### Keys -/

section Keys
variable (cases : CaseTables)

def normalizeStoreSessionKey (sessionKey : String) : String := cases.toLowerCase (trim sessionKey)

structure ResolvedEntry (ρ : Type*) where
  normalizedKey : String
  existing : Option (SessionEntry ρ)
  legacyKeys : List String

def resolveSessionStoreEntry (store : Store ρ) (sessionKey : String) : ResolvedEntry ρ :=
  let trimmedKey := trim sessionKey
  let normalizedKey := normalizeStoreSessionKey cases trimmedKey
  let hasTrimmed := trimmedKey ≠ normalizedKey ∧ (store.get? trimmedKey).isSome
  let candidates := store.entries.filter fun (key, _) => key ≠ normalizedKey ∧ cases.toLowerCase key = normalizedKey
  let newer (existing : Option (SessionEntry ρ)) (candidate : SessionEntry ρ) :=
    match existing with
    | none => some candidate
    | some entry => if entry.updatedAt.getD 0 < candidate.updatedAt.getD 0 then some candidate else existing
  { normalizedKey
    existing := (candidates.map Prod.snd).foldl newer
      (store.get? normalizedKey <|> if hasTrimmed then store.get? trimmedKey else none)
    legacyKeys := ((if hasTrimmed then [trimmedKey] else []) ++ candidates.map Prod.fst).eraseDups }

/-- The store with an entry put under its normal key, in place of its legacy ones. -/
def ResolvedEntry.persist (resolved : ResolvedEntry ρ) (next : SessionEntry ρ) (store : Store ρ) : Store ρ :=
  deleteAll resolved.legacyKeys (store.set resolved.normalizedKey next)

def resolveMutableSessionStoreKey (store : Store ρ) (sessionKey : String) : Option String :=
  let trimmed := trim sessionKey
  let normalized := normalizeStoreSessionKey cases trimmed
  if trimmed = "" then none
  else if (store.get? trimmed).isSome then some trimmed
  else if (store.get? normalized).isSome then some normalized
  else store.keys.find? fun key => normalizeStoreSessionKey cases key = normalized

def preserveExistingAcpMetadata (previous : Store ρ) (allowDropSessionKeys : List String) (next : Store ρ) : Store ρ :=
  previous.entries.foldl (fun next (previousKey, previousEntry) =>
    match previousEntry.acp with
    | none => next
    | some acp =>
      if normalizeStoreSessionKey cases previousKey ∈ allowDropSessionKeys.map (normalizeStoreSessionKey cases) then next
      else
        match resolveMutableSessionStoreKey cases next previousKey with
        | none => next
        | some nextKey =>
          match next.get? nextKey with
          | some nextEntry => if nextEntry.acp.isSome then next else next.set nextKey {nextEntry with acp := some acp}
          | none => next) next

end Keys

/-! ### Files and caches -/

/-- What the store takes from its surroundings: the channels there are, lower case, JSON
with the size of a text, and whether stores are cached. -/
structure SessionHost (ρ τ : Type*) where
  normalizeMessageChannel : String → Option String
  cases : CaseTables
  stringify : Store ρ → τ
  /-- The store a text is of, if it is one. -/
  parse : τ → Option (Store ρ)
  bytes : τ → Nat
  isSessionStoreCacheEnabled : Bool
  parse_stringify : ∀ store, parse (stringify store) = some store

structure StoreFile (τ : Type*) where
  text : τ
  mtimeMs : Nat
  deriving DecidableEq

structure CachedStore (ρ : Type*) where
  store : Store ρ
  /-- The time and size of the file, if there was one. -/
  stat : Option (Nat × Nat)

structure SessionFiles (ρ τ : Type*) where
  file : Option (StoreFile τ) := none
  /-- The files moved aside, by the time in their names. -/
  backups : InsertionMap Nat τ := ∅
  serialized : Option τ := none
  cached : Option (CachedStore ρ) := none
  saved : Option (Store ρ) := none

/-- The options of a save, without those of `resolveMaintenanceConfig` where maintenance is
skipped. `evict` is what the disk budget leaves of the store. -/
structure SaveOptions (ρ : Type*) where
  maintenance : Option Maintenance := none
  evict : Store ρ → Store ρ := id
  allowDropAcpMetaSessionKeys : List String := []

/-- The time of a call, and the time its file gets if it writes one. -/
structure Clock where
  now : Nat
  mtimeMs : Nat

variable [DecidableEq τ] (host : SessionHost ρ τ)

namespace SessionFiles

def stat (s : SessionFiles ρ τ) : Option (Nat × Nat) := s.file.map fun f => (f.mtimeMs, host.bytes f.text)

def maxBackups : Nat := 3

def rotateSessionFile (maxBytes now : Nat) (s : SessionFiles ρ τ) : SessionFiles ρ τ :=
  match s.file with
  | none => s
  | some f =>
    if host.bytes f.text ≤ maxBytes then s
    else
      let backups := s.backups.set now f.text
      let old := (backups.keys.insertionSort (· ≥ ·)).drop maxBackups
      {s with file := none, backups := old.foldl InsertionMap.erase backups}

def updateSessionStoreWriteCaches (store : Store ρ) (serialized : τ) (s : SessionFiles ρ τ) : SessionFiles ρ τ :=
  {s with
    serialized := some serialized
    cached := if host.isSessionStoreCacheEnabled then some ⟨store, s.stat host⟩ else none}

/-- The store found in the cache, whose entry may have expired. -/
def readSessionStoreCache (expired : Bool) (s : SessionFiles ρ τ) : Option (Store ρ) × SessionFiles ρ τ :=
  match s.cached with
  | none => (none, s)
  | some cached =>
    if expired then (none, {s with cached := none})
    else if s.stat host = cached.stat then (some cached.store, s)
    else (none, {s with cached := none, serialized := none})

/-- The store as it is on disk, and its text. -/
def readStore (s : SessionFiles ρ τ) : Option τ × Store ρ :=
  match s.file with
  | none => (none, ∅)
  | some f =>
    match host.parse f.text with
    | none => (none, ∅)
    | some store => (some f.text, store)

def loadFromDisk (skipCache : Bool) (s : SessionFiles ρ τ) : Store ρ × SessionFiles ρ τ :=
  let (serialized, store) := s.readStore host
  let store := normalizeSessionStore host.normalizeMessageChannel (applySessionStoreMigrations store)
  let s := {s with serialized := serialized}
  (store, if !skipCache && host.isSessionStoreCacheEnabled then {s with cached := some ⟨store, s.stat host⟩} else s)

def loadSessionStore (skipCache expired : Bool) (s : SessionFiles ρ τ) : Store ρ × SessionFiles ρ τ :=
  if !skipCache && host.isSessionStoreCacheEnabled then
    match s.readSessionStoreCache host expired with
    | (some store, s) => (store, s)
    | (none, s) => s.loadFromDisk host skipCache
  else s.loadFromDisk host skipCache

/-! ### Saving -/

/-- The maintenance that is enforced, if any. -/
def enforced (opts : SaveOptions ρ) : Option Maintenance := opts.maintenance.filter fun m => m.mode = .enforce

/-- The store as a save writes it. -/
def maintained (store : Store ρ) (opts : SaveOptions ρ) (clock : Clock) : Store ρ :=
  let store := normalizeSessionStore host.normalizeMessageChannel store
  match enforced opts with
  | none => store
  | some m => opts.evict (capEntryCount m.maxEntries (pruneStaleEntries m.pruneAfterMs clock.now store))

/-- The rotation a save makes. -/
def rotateForSave (opts : SaveOptions ρ) (clock : Clock) (s : SessionFiles ρ τ) : SessionFiles ρ τ :=
  match enforced opts with
  | none => s
  | some m => s.rotateSessionFile host m.rotateBytes clock.now

def saveSessionStoreUnlocked (store : Store ρ) (opts : SaveOptions ρ) (clock : Clock) (s : SessionFiles ρ τ) :
    SessionFiles ρ τ :=
  let store := maintained host store opts clock
  let s := s.rotateForSave host opts clock
  let json := host.stringify store
  -- The file is not written when its text is the one last read or written.
  let s := if s.serialized = some json then s else {s with file := some ⟨json, clock.mtimeMs⟩}
  {s.updateSessionStoreWriteCaches host store json with saved := some store}

/-- `updateSessionStore`: the store of the file, changed and saved. -/
def updateSessionStore (mutator : Store ρ → Store ρ) (opts : SaveOptions ρ) (clock : Clock) (s : SessionFiles ρ τ) :
    SessionFiles ρ τ :=
  let (store, s) := s.loadSessionStore host true false
  let next := preserveExistingAcpMetadata host.cases store opts.allowDropAcpMetaSessionKeys (mutator store)
  s.saveSessionStoreUnlocked host next opts clock

/-- `update` gives the entry merged with its patch, if there is one. -/
def updateSessionStoreEntry (sessionKey : String) (update : SessionEntry ρ → Option (SessionEntry ρ))
    (opts : SaveOptions ρ) (clock : Clock) (s : SessionFiles ρ τ) : SessionFiles ρ τ :=
  let (store, s) := s.loadSessionStore host true false
  let resolved := resolveSessionStoreEntry host.cases store sessionKey
  match resolved.existing.bind update with
  | none => s
  | some next => s.saveSessionStoreUnlocked host (resolved.persist next store) opts clock

/-- `route` gives the entry with its last route. The store may come from the cache. -/
def updateLastRoute (sessionKey : String) (route : Option (SessionEntry ρ) → SessionEntry ρ) (expired : Bool)
    (opts : SaveOptions ρ) (clock : Clock) (s : SessionFiles ρ τ) : SessionFiles ρ τ :=
  let (store, s) := s.loadSessionStore host false expired
  let resolved := resolveSessionStoreEntry host.cases store sessionKey
  s.saveSessionStoreUnlocked host (resolved.persist (route resolved.existing) store) opts clock

end SessionFiles

inductive StoreEvent (ρ τ : Type*)
  | saveSessionStore (store : Store ρ) (opts : SaveOptions ρ) (clock : Clock)
  | updateSessionStore (mutator : Store ρ → Store ρ) (opts : SaveOptions ρ) (clock : Clock)
  | updateSessionStoreEntry (sessionKey : String) (update : SessionEntry ρ → Option (SessionEntry ρ))
      (opts : SaveOptions ρ) (clock : Clock)
  | updateLastRoute (sessionKey : String) (route : Option (SessionEntry ρ) → SessionEntry ρ) (expired : Bool)
      (opts : SaveOptions ρ) (clock : Clock)
  | loadSessionStore (skipCache expired : Bool)
  /-- Another process replaces the file, holding the lock. -/
  | foreign (text : τ) (mtimeMs : Nat)

def storeStep : Machine (SessionFiles ρ τ) (StoreEvent ρ τ)
  | .saveSessionStore store opts clock, s => some (s.saveSessionStoreUnlocked host store opts clock)
  | .updateSessionStore mutator opts clock, s => some (s.updateSessionStore host mutator opts clock)
  | .updateSessionStoreEntry sessionKey update opts clock, s =>
    some (s.updateSessionStoreEntry host sessionKey update opts clock)
  | .updateLastRoute sessionKey route expired opts clock, s =>
    some (s.updateLastRoute host sessionKey route expired opts clock)
  | .loadSessionStore skipCache expired, s => some (s.loadSessionStore host skipCache expired).2
  | .foreign text mtimeMs, s => some {s with file := some ⟨text, mtimeMs⟩, saved := none}

end OpenClaw.Sessions
