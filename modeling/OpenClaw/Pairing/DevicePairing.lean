import OpenClaw.Foundation.Run
import OpenClaw.Pairing.PairingFiles
import OpenClaw.Pairing.Scopes

/-! Pairing of devices with the gateway.

A device asks for roles and scopes; the request waits under an id until an owner
approves or rejects it, a newer request of the device takes its place, or it
expires. Approval writes the paired device: the roles and scopes it was granted
and a token for each role. Tokens are then checked, issued, rotated and revoked
against that record. Every operation runs alone, loads the stored state, prunes
it, and writes it back when it has something to write. -/
namespace OpenClaw.Pairing

open Foundation Foundation.EcmaString

/-! ### Records -/

/-- What a client says about itself. -/
structure ClientDetails where
  displayName : Option String := none
  platform : Option String := none
  deviceFamily : Option String := none
  clientId : Option String := none
  clientMode : Option String := none
  remoteIp : Option String := none

/-- What a device sends to be paired. -/
structure DevicePairingRequest extends ClientDetails where
  deviceId : String
  publicKey : String
  role : Option String := none
  roles : Option (List String) := none
  scopes : Option (List String) := none
  silent : Option Bool := none

structure DevicePairingPendingRequest extends ClientDetails where
  requestId : String
  deviceId : String
  publicKey : String
  role : Option String
  roles : Option (List String)
  scopes : Option (List String)
  silent : Option Bool
  isRepair : Option Bool
  ts : Nat

structure DeviceAuthToken where
  token : String
  role : String
  scopes : List String
  createdAtMs : Nat
  rotatedAtMs : Option Nat
  revokedAtMs : Option Nat
  lastUsedAtMs : Option Nat

structure PairedDevice extends ClientDetails where
  deviceId : String
  publicKey : String
  role : Option String
  roles : Option (List String)
  scopes : Option (List String)
  approvedScopes : Option (List String)
  tokens : Option (InsertionMap String DeviceAuthToken)
  createdAtMs : Nat
  approvedAtMs : Nat

structure DevicePairingStateFile where
  pendingById : InsertionMap String DevicePairingPendingRequest := ∅
  pairedByDeviceId : InsertionMap String PairedDevice := ∅

structure DeviceBootstrapProfile where
  roles : List String
  scopes : List String
deriving DecidableEq

/-! ### Roles and scopes -/

def pendingTtlMs : Nat := 5 * 60 * 1000

def loadState (now : Nat) (st : DevicePairingStateFile) : DevicePairingStateFile :=
  { st with pendingById :=
      pruneExpiredPending DevicePairingPendingRequest.ts st.pendingById now pendingTtlMs }

variable (pending : DevicePairingPendingRequest) (requestId deviceId : String)

def normalizeDeviceId : String := trim deviceId

def normalizeRole (role : Option String) : Option String := trimmed? role

/-- A single role among the lists of `mergeRoles`. -/
def single (role : Option String) : Option (List String) := role.map fun r => [r]

def mergeRoles (items : List (Option (List String))) : Option (List String) :=
  let roles := trimmedSet (items.flatMap fun item => item.getD [])
  if roles.isEmpty then none else some roles

def mergeScopes (items : List (Option (List String))) : Option (List String) :=
  let scopes := trimmedSet (items.flatMap fun item => item.getD [])
  if scopes.isEmpty then if items.any Option.isSome then some [] else none else some scopes

def listApprovedPairedDeviceRoles (device : PairedDevice) : List String :=
  (mergeRoles [device.roles, single device.role]).getD []

def sameStringSet (left right : List String) : Bool :=
  left.length == right.length && left.all right.contains

def resolveRequestedRoles (role : Option String) (roles : Option (List String)) : List String :=
  (mergeRoles [roles, single role]).getD []

def resolveRequestedScopes (scopes : Option (List String)) : List String := normalizeDeviceAuthScopes scopes

/-! ### Requests -/

def samePendingApprovalSnapshot (existing : DevicePairingPendingRequest) (incoming : DevicePairingRequest) : Bool :=
  existing.publicKey == incoming.publicKey &&
  normalizeRole existing.role == normalizeRole incoming.role &&
  sameStringSet (resolveRequestedRoles existing.role existing.roles)
    (resolveRequestedRoles incoming.role incoming.roles) &&
  sameStringSet (resolveRequestedScopes existing.scopes) (resolveRequestedScopes incoming.scopes)

def refreshPendingDevicePairingRequest (existing : DevicePairingPendingRequest) (incoming : DevicePairingRequest)
    (isRepair : Bool) (now : Nat) : DevicePairingPendingRequest :=
  { existing with
    publicKey := incoming.publicKey
    displayName := incoming.displayName.or existing.displayName
    platform := incoming.platform.or existing.platform
    deviceFamily := incoming.deviceFamily.or existing.deviceFamily
    clientId := incoming.clientId.or existing.clientId
    clientMode := incoming.clientMode.or existing.clientMode
    remoteIp := incoming.remoteIp.or existing.remoteIp
    silent := some (existing.silent == some true && incoming.silent == some true)
    isRepair := some (existing.isRepair == some true || isRepair)
    ts := now }

def resolveSupersededPendingSilent (existing : List DevicePairingPendingRequest)
    (incomingSilent : Option Bool) : Bool :=
  incomingSilent == some true && existing.all fun pending => pending.silent == some true

def buildPendingDevicePairingRequest (isRepair : Bool) (req : DevicePairingRequest) (now : Nat)
    : DevicePairingPendingRequest :=
  let role := normalizeRole req.role
  { toClientDetails := req.toClientDetails
    requestId, deviceId
    publicKey := req.publicKey
    role
    roles := mergeRoles [req.roles, single role]
    scopes := mergeScopes [req.scopes]
    silent := req.silent
    isRepair := some isRepair
    ts := now }

/-- The request that takes the place of the pending ones, the latest of them first. -/
def buildReplacement (uuid deviceId : String) (isRepair : Bool) (incoming : DevicePairingRequest) (now : Nat)
    (existing : List DevicePairingPendingRequest) : DevicePairingPendingRequest :=
  let latestPending := existing.head?
  let mergedRoles := mergeRoles
    ((existing.flatMap fun pending => [pending.roles, single pending.role]) ++
      [incoming.roles, single incoming.role])
  let mergedScopes := mergeScopes ((existing.map fun pending => pending.scopes) ++ [incoming.scopes])
  buildPendingDevicePairingRequest uuid deviceId isRepair
    { incoming with
      role := (normalizeRole incoming.role).or (latestPending.bind fun pending => pending.role)
      roles := mergedRoles
      scopes := mergedScopes
      silent := some (resolveSupersededPendingSilent existing incoming.silent) } now

/-- The requests of a device, the latest first. -/
def pendingForDevice (st : DevicePairingStateFile) (deviceId : String) : List DevicePairingPendingRequest :=
  (st.pendingById.values.filter fun pending => pending.deviceId == deviceId).insertionSort
    fun left right => right.ts ≤ left.ts

/-- `uuid` is the id drawn for a request that is not a refresh. -/
def requestDevicePairing (req : DevicePairingRequest) (uuid : String) (now : Nat) (st : DevicePairingStateFile) :
    Except String (PendingPairingRequestResult DevicePairingPendingRequest) × DevicePairingStateFile :=
  let state := loadState now st
  let deviceId := normalizeDeviceId req.deviceId
  if deviceId = "" then (.error "deviceId required", st)
  else
    let isRepair := (state.pairedByDeviceId.get? deviceId).isSome
    let (result, pendingById) :=
      reconcilePendingPairingRequests DevicePairingPendingRequest.requestId state.pendingById
        (pendingForDevice state deviceId)
        (fun existing => samePendingApprovalSnapshot existing req)
        (fun existing => refreshPendingDevicePairingRequest existing req isRepair now)
        (buildReplacement uuid deviceId isRepair req now)
    (.ok result, { state with pendingById })

/-! ### Approval -/

def buildDeviceAuthToken (token role : String) (scopes : List String) (existing : Option DeviceAuthToken)
    (now : Nat) (rotatedAtMs : Option Nat) : DeviceAuthToken where
  token := token
  role := role
  scopes := scopes
  createdAtMs := (existing.map DeviceAuthToken.createdAtMs).getD now
  rotatedAtMs := rotatedAtMs
  revokedAtMs := none
  lastUsedAtMs := existing.bind DeviceAuthToken.lastUsedAtMs

def resolveRoleScopedDeviceTokenScopes (role : String) (scopes : Option (List String)) : List String :=
  let normalized := normalizeDeviceAuthScopes scopes
  if role == operatorRole then normalized.filter isOperatorScope
  else normalized.filter fun scope => !isOperatorScope scope

/-- `approvedScopes ?? scopes` of a record. -/
def recordedScopes (device : PairedDevice) : Option (List String) := device.approvedScopes.or device.scopes

def resolveApprovedTokenScopes (role : String) (pending : DevicePairingPendingRequest)
    (existingToken : Option DeviceAuthToken) (approvedScopes : Option (List String))
    (existing : Option PairedDevice) : List String :=
  let requestedScopes := resolveRoleScopedDeviceTokenScopes role pending.scopes
  if requestedScopes.length > 0 then requestedScopes
  else resolveRoleScopedDeviceTokenScopes role
    ((existingToken.map DeviceAuthToken.scopes).or (approvedScopes.or (existing.bind recordedScopes)))

def resolveApprovedDeviceScopeBaseline (device : PairedDevice) : Option (List String) :=
  (recordedScopes device).map fun baseline => normalizeDeviceAuthScopes (some baseline)

def scopesWithinApprovedDeviceBaseline (role : String) (scopes : List String)
    (approvedScopes : Option (List String)) : Bool :=
  match approvedScopes with
  | none => false
  | some approvedScopes => roleScopesAllow role scopes approvedScopes

inductive ApproveDevicePairingResult where
  | unknown
  | forbidden (missingScope : String)
  | approved (requestId : String) (device : PairedDevice)

/-- The operator scopes of a request, as approval looks at them. -/
def requestedOperatorScopes : List String :=
  (normalizeDeviceAuthScopes pending.scopes).filter isOperatorScope

/-- The scope a caller may not approve. -/
def missingCallerScope (requestedRoles requestedOperatorScopes : List String)
    (callerScopes : Option (List String)) : Option String :=
  match requestedOperatorScopes, callerScopes with
  | [], _ => none
  | first :: _, none => some first
  | first :: _, some callerScopes =>
    if !requestedRoles.contains operatorRole then some first
    else resolveMissingRequestedScope operatorRole requestedOperatorScopes callerScopes

/-- The record an approval writes, over the one the device may have. -/
def pairedRecord (existing : Option PairedDevice) (roles approvedScopes : Option (List String))
    (tokens : InsertionMap String DeviceAuthToken) (now : Nat) : PairedDevice where
  toClientDetails := pending.toClientDetails
  deviceId := pending.deviceId
  publicKey := pending.publicKey
  role := pending.role
  roles := roles
  scopes := approvedScopes
  approvedScopes := approvedScopes
  tokens := some tokens
  createdAtMs := (existing.map PairedDevice.createdAtMs).getD now
  approvedAtMs := now

/-- A new token for each role, with the scopes a function gives it beside the present one. -/
def issueTokens (roles : List String) (scopesFor : String → Option DeviceAuthToken → List String)
    (newToken : String → String) (now : Nat) (tokens : InsertionMap String DeviceAuthToken) :
    InsertionMap String DeviceAuthToken :=
  roles.foldl (fun tokens role =>
    let existingToken := tokens.get? role
    tokens.set role (buildDeviceAuthToken (newToken role) role (scopesFor role existingToken) existingToken now
      (existingToken.map fun _ => now))) tokens

def approvedDevice (existing : Option PairedDevice) (newToken : String → String) (now : Nat) : PairedDevice :=
  let requestedRoles := (mergeRoles [pending.roles, single pending.role]).getD []
  let roles := mergeRoles [existing.bind (·.roles), single (existing.bind (·.role)),
    pending.roles, single pending.role]
  let approvedScopes := mergeScopes [existing.bind recordedScopes, pending.scopes]
  let tokens := issueTokens requestedRoles
    (fun role existingToken => resolveApprovedTokenScopes role pending existingToken approvedScopes existing)
    newToken now ((existing.bind (·.tokens)).getD ∅)
  pairedRecord pending existing roles approvedScopes tokens now

/-- The approved request is deleted and the device recorded. -/
def recordApproval (device : PairedDevice) (state : DevicePairingStateFile) :
    DevicePairingStateFile where
  pendingById := state.pendingById.erase requestId
  pairedByDeviceId := state.pairedByDeviceId.set device.deviceId device

/-- `newToken` is the text drawn for a role's token. -/
def approveDevicePairing (callerScopes : Option (List String)) (newToken : String → String) (now : Nat)
    (st : DevicePairingStateFile) : ApproveDevicePairingResult × DevicePairingStateFile :=
  let state := loadState now st
  match state.pendingById.get? requestId with
  | none => (.unknown, st)
  | some pending =>
    let requestedRoles := (mergeRoles [pending.roles, single pending.role]).getD []
    match missingCallerScope requestedRoles (requestedOperatorScopes pending) callerScopes with
    | some missingScope => (.forbidden missingScope, st)
    | none =>
      let device := approvedDevice pending (state.pairedByDeviceId.get? pending.deviceId) newToken now
      (.approved requestId device, recordApproval requestId device state)

def bootstrapHandoffOperatorScopes : List String :=
  ["operator.approvals", "operator.read", "operator.talk.secrets", "operator.write"]

def resolveBootstrapProfileScopesForRole (role : String) (scopes : List String) : List String :=
  let normalizedScopes := normalizeDeviceAuthScopes (some scopes)
  if trim role == operatorRole then normalizedScopes.filter bootstrapHandoffOperatorScopes.contains else []

def bootstrapDevice (existing : Option PairedDevice) (approvedRoles approvedScopes : List String)
    (newToken : String → String) (now : Nat) : PairedDevice :=
  let roles := mergeRoles [existing.bind (·.roles), single (existing.bind (·.role)),
    pending.roles, single pending.role, some approvedRoles]
  let nextApprovedScopes := mergeScopes [existing.bind recordedScopes, pending.scopes, some approvedScopes]
  let tokens := issueTokens approvedRoles
    (fun role _ => if role == operatorRole then resolveBootstrapProfileScopesForRole role approvedScopes else [])
    newToken now ((existing.bind (·.tokens)).getD ∅)
  pairedRecord pending existing roles nextApprovedScopes tokens now

def approveBootstrapDevicePairing (bootstrapProfile : DeviceBootstrapProfile) (newToken : String → String)
    (now : Nat) (st : DevicePairingStateFile) :
    ApproveDevicePairingResult × DevicePairingStateFile :=
  let approvedRoles := (mergeRoles [some bootstrapProfile.roles]).getD []
  let approvedScopes := normalizeDeviceAuthScopes (some bootstrapProfile.scopes)
  let state := loadState now st
  match state.pendingById.get? requestId with
  | none => (.unknown, st)
  | some pending =>
    let requestedRoles := resolveRequestedRoles pending.role pending.roles
    match requestedRoles.find? fun role => !approvedRoles.contains role with
    | some missingRole => (.forbidden missingRole, st)
    | none =>
      match resolveMissingRequestedScope operatorRole (requestedOperatorScopes pending) approvedScopes with
      | some missingScope => (.forbidden missingScope, st)
      | none =>
        let device := bootstrapDevice pending (state.pairedByDeviceId.get? pending.deviceId) approvedRoles
          approvedScopes newToken now
        (.approved requestId device, recordApproval requestId device state)

def rejectDevicePairing (now : Nat) (st : DevicePairingStateFile) :
    Option (String × String) × DevicePairingStateFile :=
  let state := loadState now st
  match rejectPendingPairingRequest state.pendingById requestId with
  | none => (none, st)
  | some (pending, pendingById) => (some (requestId, pending.deviceId), { state with pendingById })

/-! ### Paired devices -/

def removePairedDevice (now : Nat) (st : DevicePairingStateFile) : Option String × DevicePairingStateFile :=
  let state := loadState now st
  let normalized := normalizeDeviceId deviceId
  if normalized = "" ∨ (state.pairedByDeviceId.get? normalized).isNone then (none, st)
  else (some normalized, { state with pairedByDeviceId := state.pairedByDeviceId.erase normalized })

def clearDevicePairing (now : Nat) (st : DevicePairingStateFile) : Bool × DevicePairingStateFile :=
  let state := loadState now st
  let normalizedId := normalizeDeviceId deviceId
  if (state.pairedByDeviceId.get? normalizedId).isNone then (false, st)
  else (true, { state with pairedByDeviceId := state.pairedByDeviceId.erase normalizedId })

/-- The fields a patch sets; a field it names without a value is cleared. -/
structure ClientDetailsPatch where
  displayName : Option (Option String) := none
  platform : Option (Option String) := none
  deviceFamily : Option (Option String) := none
  clientId : Option (Option String) := none
  clientMode : Option (Option String) := none
  remoteIp : Option (Option String) := none

def ClientDetailsPatch.apply (patch : ClientDetailsPatch) (details : ClientDetails) : ClientDetails where
  displayName := patch.displayName.getD details.displayName
  platform := patch.platform.getD details.platform
  deviceFamily := patch.deviceFamily.getD details.deviceFamily
  clientId := patch.clientId.getD details.clientId
  clientMode := patch.clientMode.getD details.clientMode
  remoteIp := patch.remoteIp.getD details.remoteIp

/-- A patch of anything but the tokens. Its own list of roles is not read. -/
structure PairedDevicePatch where
  details : ClientDetailsPatch := {}
  publicKey : Option String := none
  role : Option String := none
  roles : Option (List String) := none
  scopes : Option (List String) := none

def patchedDevice (existing : PairedDevice) (patch : PairedDevicePatch) : PairedDevice :=
  { existing with
    toClientDetails := patch.details.apply existing.toClientDetails
    publicKey := patch.publicKey.getD existing.publicKey
    role := patch.role.or existing.role
    roles := mergeRoles [existing.roles, single existing.role, single patch.role]
    scopes := mergeScopes [existing.scopes, patch.scopes] }

/-- The record is looked up under the trimmed id and written under the id as given. -/
def updatePairedDeviceMetadata (patch : PairedDevicePatch) (now : Nat) (st : DevicePairingStateFile)
    : DevicePairingStateFile :=
  let state := loadState now st
  match state.pairedByDeviceId.get? (normalizeDeviceId deviceId) with
  | none => st
  | some existing =>
    { state with pairedByDeviceId := state.pairedByDeviceId.set deviceId (patchedDevice existing patch) }

/-! ### Tokens -/

/-- A revocation time of zero counts as none. -/
def DeviceAuthToken.revoked (entry : DeviceAuthToken) : Bool := entry.revokedAtMs.getD 0 != 0

def getPairedDeviceFromState (state : DevicePairingStateFile) (deviceId : String) : Option PairedDevice :=
  state.pairedByDeviceId.get? (normalizeDeviceId deviceId)

inductive VerifyDeviceTokenResult where
  | ok
  | refused (reason : String)
deriving DecidableEq

/-- The record with a role's token replaced, as the operations on tokens store it. -/
def writeToken (state : DevicePairingStateFile) (device : PairedDevice)
    (tokens : InsertionMap String DeviceAuthToken) (role : String) (entry : DeviceAuthToken) :
    DevicePairingStateFile :=
  { state with pairedByDeviceId :=
      state.pairedByDeviceId.set device.deviceId { device with tokens := some (tokens.set role entry) } }

structure TokenParams where
  deviceId : String
  role : String
  scopes : List String

def verifyDeviceToken (params : TokenParams) (token : String) (now : Nat) (st : DevicePairingStateFile) :
    VerifyDeviceTokenResult × DevicePairingStateFile :=
  let state := loadState now st
  match getPairedDeviceFromState state params.deviceId with
  | none => (.refused "device-not-paired", st)
  | some device =>
    match normalizeRole (some params.role) with
    | none => (.refused "role-missing", st)
    | some role =>
      match device.tokens.bind (·.get? role) with
      | none => (.refused "token-missing", st)
      | some entry =>
        if entry.revoked then (.refused "token-revoked", st)
        else if !verifyPairingToken token entry.token then (.refused "token-mismatch", st)
        else if !scopesWithinApprovedDeviceBaseline role entry.scopes
            (resolveApprovedDeviceScopeBaseline device) then
          (.refused "scope-mismatch", st)
        else if !roleScopesAllow role (normalizeDeviceAuthScopes (some params.scopes)) entry.scopes then
          (.refused "scope-mismatch", st)
        else
          (.ok, writeToken state device (device.tokens.getD ∅) role { entry with lastUsedAtMs := some now })

structure DeviceTokenUpdateContext where
  device : PairedDevice
  role : String
  tokens : InsertionMap String DeviceAuthToken
  existing : Option DeviceAuthToken

def resolveDeviceTokenUpdateContext (state : DevicePairingStateFile) (deviceId role : String) :
    Option DeviceTokenUpdateContext :=
  match getPairedDeviceFromState state deviceId, normalizeRole (some role) with
  | some device, some role =>
    if !(listApprovedPairedDeviceRoles device).contains role then none
    else
      let tokens := device.tokens.getD ∅
      some { device, role, tokens, existing := tokens.get? role }
  | _, _ => none

/-- The token a device already holds, if it is not revoked and still fits. -/
def reusableToken (context : DeviceTokenUpdateContext) (requestedScopes : List String) : Option DeviceAuthToken :=
  context.existing.filter fun existing => !existing.revoked &&
    scopesWithinApprovedDeviceBaseline context.role existing.scopes
      (resolveApprovedDeviceScopeBaseline context.device) &&
    roleScopesAllow context.role requestedScopes existing.scopes

def ensureDeviceToken (params : TokenParams) (newToken : String) (now : Nat) (st : DevicePairingStateFile) :
    Option DeviceAuthToken × DevicePairingStateFile :=
  let state := loadState now st
  let requestedScopes := normalizeDeviceAuthScopes (some params.scopes)
  match resolveDeviceTokenUpdateContext state params.deviceId params.role with
  | none => (none, st)
  | some context =>
    if !scopesWithinApprovedDeviceBaseline context.role requestedScopes
        (resolveApprovedDeviceScopeBaseline context.device) then (none, st)
    else
      match reusableToken context requestedScopes with
      | some existing => (some existing, st)
      | none =>
        let next := buildDeviceAuthToken newToken context.role requestedScopes context.existing now
          (context.existing.map fun _ => now)
        (some next, writeToken state context.device context.tokens context.role next)

/-- `scopes` may be left out: those of the present token, then those of the record, stand in. -/
def rotateDeviceToken (role : String) (scopes : Option (List String)) (newToken : String) (now : Nat)
    (st : DevicePairingStateFile) : Except String DeviceAuthToken × DevicePairingStateFile :=
  let state := loadState now st
  match resolveDeviceTokenUpdateContext state deviceId role with
  | none => (.error "unknown-device-or-role", st)
  | some context =>
    let requestedScopes := normalizeDeviceAuthScopes
      (scopes.or ((context.existing.map DeviceAuthToken.scopes).or context.device.scopes))
    match resolveApprovedDeviceScopeBaseline context.device with
    | none => (.error "missing-approved-scope-baseline", st)
    | some approvedScopes =>
      if !scopesWithinApprovedDeviceBaseline context.role requestedScopes (some approvedScopes) then
        (.error "scope-outside-approved-baseline", st)
      else
        let next := buildDeviceAuthToken newToken context.role requestedScopes context.existing now (some now)
        (.ok next, writeToken state context.device context.tokens context.role next)

def revokeDeviceToken (role : String) (now : Nat) (st : DevicePairingStateFile) :
    Option DeviceAuthToken × DevicePairingStateFile :=
  let state := loadState now st
  match getPairedDeviceFromState state deviceId, normalizeRole (some role) with
  | some device, some role =>
    match device.tokens with
    | none => (none, st)
    | some tokens =>
      match tokens.get? role with
      | none => (none, st)
      | some token =>
        let entry := { token with revokedAtMs := some now }
        (some entry, writeToken state device tokens role entry)
  | _, _ => (none, st)

/-! ### Runs -/

/-- The operations, with what is drawn for them. -/
inductive PairingCall where
  | request (req : DevicePairingRequest) (uuid : String)
  | approve (requestId : String) (callerScopes : Option (List String)) (newToken : String → String)
  | approveBootstrap (requestId : String) (bootstrapProfile : DeviceBootstrapProfile)
      (newToken : String → String)
  | reject (requestId : String)
  | remove (deviceId : String)
  | clear (deviceId : String)
  | updateMetadata (deviceId : String) (patch : PairedDevicePatch)
  | verify (params : TokenParams) (token : String)
  | ensure (params : TokenParams) (newToken : String)
  | rotate (deviceId role : String) (scopes : Option (List String)) (newToken : String)
  | revoke (deviceId role : String)

/-- An operation and the time it runs at. -/
structure PairingEvent where
  now : Nat
  call : PairingCall

/-- The stored state after an operation. -/
def PairingCall.after : PairingCall → Nat → DevicePairingStateFile → DevicePairingStateFile
  | .request req uuid, now, st => (requestDevicePairing req uuid now st).2
  | .approve requestId callerScopes newToken, now, st =>
    (approveDevicePairing requestId callerScopes newToken now st).2
  | .approveBootstrap requestId bootstrapProfile newToken, now, st =>
    (approveBootstrapDevicePairing requestId bootstrapProfile newToken now st).2
  | .reject requestId, now, st => (rejectDevicePairing requestId now st).2
  | .remove deviceId, now, st => (removePairedDevice deviceId now st).2
  | .clear deviceId, now, st => (clearDevicePairing deviceId now st).2
  | .updateMetadata deviceId patch, now, st => updatePairedDeviceMetadata deviceId patch now st
  | .verify params token, now, st => (verifyDeviceToken params token now st).2
  | .ensure params newToken, now, st => (ensureDeviceToken params newToken now st).2
  | .rotate deviceId role scopes newToken, now, st => (rotateDeviceToken deviceId role scopes newToken now st).2
  | .revoke deviceId role, now, st => (revokeDeviceToken deviceId role now st).2

/-! ### What an operation can do to the stored state -/

theorem get?_loadState {now : Nat} {st : DevicePairingStateFile} {id : String} {p : DevicePairingPendingRequest} :
    (loadState now st).pendingById.get? id = some p ↔
      st.pendingById.get? id = some p ∧ now ≤ p.ts + pendingTtlMs :=
  get?_pruneExpiredPending

@[simp] theorem loadState_pairedByDeviceId (now : Nat) (st : DevicePairingStateFile) :
    (loadState now st).pairedByDeviceId = st.pairedByDeviceId := rfl

/-- The stored states an operation can leave, with what it checked. -/
inductive Moved (now : Nat) (st : DevicePairingStateFile) : PairingCall → DevicePairingStateFile → Prop where
  | same {call : PairingCall} : Moved now st call st
  | requested {req : DevicePairingRequest} {uuid : String}
      {result : PendingPairingRequestResult DevicePairingPendingRequest} {next : DevicePairingStateFile}
      (hok : requestDevicePairing req uuid now st = (.ok result, next)) : Moved now st (.request req uuid) next
  | approved {requestId : String} {callerScopes : Option (List String)} {newToken : String → String}
      {pending : DevicePairingPendingRequest} {device : PairedDevice}
      (hpending : (loadState now st).pendingById.get? requestId = some pending)
      (hallowed : missingCallerScope ((mergeRoles [pending.roles, single pending.role]).getD [])
        (requestedOperatorScopes pending) callerScopes = none)
      (hdevice : device = approvedDevice pending (st.pairedByDeviceId.get? pending.deviceId) newToken now)
      (hresult : (approveDevicePairing requestId callerScopes newToken now st).1 = .approved requestId device) :
      Moved now st (.approve requestId callerScopes newToken)
        (recordApproval requestId device (loadState now st))
  | bootstrapped {requestId : String} {bootstrapProfile : DeviceBootstrapProfile} {newToken : String → String}
      {pending : DevicePairingPendingRequest} {device : PairedDevice} {roles scopes : List String}
      (hpending : (loadState now st).pendingById.get? requestId = some pending)
      (hroles : roles = (mergeRoles [some bootstrapProfile.roles]).getD [])
      (hscopes : scopes = normalizeDeviceAuthScopes (some bootstrapProfile.scopes))
      (hrequested : (resolveRequestedRoles pending.role pending.roles).find?
        (fun role => !roles.contains role) = none)
      (hallowed : resolveMissingRequestedScope operatorRole (requestedOperatorScopes pending) scopes = none)
      (hdevice : device = bootstrapDevice pending (st.pairedByDeviceId.get? pending.deviceId) roles scopes
        newToken now)
      (hresult : (approveBootstrapDevicePairing requestId bootstrapProfile newToken now st).1 =
        .approved requestId device) :
      Moved now st (.approveBootstrap requestId bootstrapProfile newToken)
        (recordApproval requestId device (loadState now st))
  | rejected {requestId : String} :
      Moved now st (.reject requestId)
        { loadState now st with pendingById := (loadState now st).pendingById.erase requestId }
  | removed {deviceId : String} :
      Moved now st (.remove deviceId)
        { loadState now st with pairedByDeviceId := st.pairedByDeviceId.erase (normalizeDeviceId deviceId) }
  | cleared {deviceId : String} :
      Moved now st (.clear deviceId)
        { loadState now st with pairedByDeviceId := st.pairedByDeviceId.erase (normalizeDeviceId deviceId) }
  | patched {deviceId : String} {patch : PairedDevicePatch} {existing : PairedDevice}
      (hexisting : st.pairedByDeviceId.get? (normalizeDeviceId deviceId) = some existing) :
      Moved now st (.updateMetadata deviceId patch)
        { loadState now st with pairedByDeviceId :=
            st.pairedByDeviceId.set deviceId (patchedDevice existing patch) }
  | tokenWritten {call : PairingCall} {deviceId role : String} {device : PairedDevice} {entry : DeviceAuthToken}
      (hdevice : st.pairedByDeviceId.get? (normalizeDeviceId deviceId) = some device)
      (hrole : (role ∈ listApprovedPairedDeviceRoles device ∧ entry.role = role) ∨
        ∃ token, (device.tokens.getD ∅).get? role = some token ∧ entry.role = token.role) :
      Moved now st call (writeToken (loadState now st) device (device.tokens.getD ∅) role entry)

theorem approve_moved (callerScopes : Option (List String)) (newToken : String → String) (now : Nat)
    (st : DevicePairingStateFile) :
    Moved now st (.approve requestId callerScopes newToken)
      (approveDevicePairing requestId callerScopes newToken now st).2 := by
  cases hpending : (loadState now st).pendingById.get? requestId with
  | none =>
    simp only [approveDevicePairing, hpending]
    exact .same
  | some pending =>
    cases hallowed : missingCallerScope ((mergeRoles [pending.roles, single pending.role]).getD [])
        (requestedOperatorScopes pending) callerScopes with
    | some missingScope =>
      simp only [approveDevicePairing, hpending, hallowed]
      exact .same
    | none =>
      have h : approveDevicePairing requestId callerScopes newToken now st =
          (.approved requestId (approvedDevice pending (st.pairedByDeviceId.get? pending.deviceId) newToken now),
            recordApproval requestId
              (approvedDevice pending (st.pairedByDeviceId.get? pending.deviceId) newToken now)
              (loadState now st)) := by
        simp only [approveDevicePairing, hpending, hallowed, loadState_pairedByDeviceId]
      rw [h]
      exact .approved hpending hallowed rfl (by rw [h])

theorem approveBootstrap_moved (bootstrapProfile : DeviceBootstrapProfile) (newToken : String → String)
    (now : Nat) (st : DevicePairingStateFile) :
    Moved now st (.approveBootstrap requestId bootstrapProfile newToken)
      (approveBootstrapDevicePairing requestId bootstrapProfile newToken now st).2 := by
  cases hpending : (loadState now st).pendingById.get? requestId with
  | none =>
    simp only [approveBootstrapDevicePairing, hpending]
    exact .same
  | some pending =>
    generalize hroles : (mergeRoles [some bootstrapProfile.roles]).getD [] = roles
    generalize hscopes : normalizeDeviceAuthScopes (some bootstrapProfile.scopes) = scopes
    cases hrequested : (resolveRequestedRoles pending.role pending.roles).find?
        (fun role => !roles.contains role) with
    | some missingRole =>
      simp only [approveBootstrapDevicePairing, hpending, hroles, hrequested]
      exact .same
    | none =>
      cases hallowed : resolveMissingRequestedScope operatorRole (requestedOperatorScopes pending) scopes with
      | some missingScope =>
        simp only [approveBootstrapDevicePairing, hpending, hroles, hscopes, hrequested, hallowed]
        exact .same
      | none =>
        have h : approveBootstrapDevicePairing requestId bootstrapProfile newToken now st =
            (.approved requestId
                (bootstrapDevice pending (st.pairedByDeviceId.get? pending.deviceId) roles scopes newToken now),
              recordApproval requestId
                (bootstrapDevice pending (st.pairedByDeviceId.get? pending.deviceId) roles scopes newToken now)
                (loadState now st)) := by
          simp only [approveBootstrapDevicePairing, hpending, hroles, hscopes, hrequested, hallowed,
            loadState_pairedByDeviceId]
        rw [h]
        exact .bootstrapped hpending hroles.symm hscopes.symm hrequested hallowed rfl (by rw [h])

/-- Every operation on a role's token is bound to a role the record has approved. -/
theorem resolveDeviceTokenUpdateContext_some {state : DevicePairingStateFile} {deviceId role : String}
    {context : DeviceTokenUpdateContext} (h : resolveDeviceTokenUpdateContext state deviceId role = some context) :
    state.pairedByDeviceId.get? (normalizeDeviceId deviceId) = some context.device ∧
      trimmed role = some context.role ∧ context.role ∈ listApprovedPairedDeviceRoles context.device ∧
      context.tokens = context.device.tokens.getD ∅ ∧ context.existing = context.tokens.get? context.role := by
  rw [resolveDeviceTokenUpdateContext] at h
  split at h
  · rename_i device role' hdevice hrole
    split at h
    · cases h
    · rename_i hmem
      cases h
      exact ⟨hdevice, hrole, by simpa using hmem, rfl, rfl⟩
  · cases h

theorem verify_moved (params : TokenParams) (token : String) (now : Nat) (st : DevicePairingStateFile) :
    Moved now st (.verify params token) (verifyDeviceToken params token now st).2 := by
  simp only [verifyDeviceToken]
  split
  · exact .same
  · rename_i device hdevice
    split
    · exact .same
    · split
      · exact .same
      · rename_i entry hentry
        split_ifs
        · exact .same
        · exact .same
        · exact .same
        · exact .same
        · refine .tokenWritten hdevice (.inr ?_)
          obtain ⟨tokens, htokens, hget⟩ := Option.bind_eq_some_iff.mp hentry
          exact ⟨entry, by rw [htokens, Option.getD_some, hget], rfl⟩

theorem ensure_moved (params : TokenParams) (newToken : String) (now : Nat) (st : DevicePairingStateFile) :
    Moved now st (.ensure params newToken) (ensureDeviceToken params newToken now st).2 := by
  simp only [ensureDeviceToken]
  split
  · exact .same
  · rename_i context hcontext
    obtain ⟨hdevice, _, hrole, htokens, _⟩ := resolveDeviceTokenUpdateContext_some hcontext
    split
    · exact .same
    · split
      · exact .same
      · rw [htokens]
        exact .tokenWritten hdevice (.inl ⟨hrole, rfl⟩)

theorem rotate_moved (role : String) (scopes : Option (List String)) (newToken : String) (now : Nat)
    (st : DevicePairingStateFile) :
    Moved now st (.rotate deviceId role scopes newToken)
      (rotateDeviceToken deviceId role scopes newToken now st).2 := by
  simp only [rotateDeviceToken]
  split
  · exact .same
  · rename_i context hcontext
    obtain ⟨hdevice, _, hrole, htokens, _⟩ := resolveDeviceTokenUpdateContext_some hcontext
    split
    · exact .same
    · split
      · exact .same
      · rw [htokens]
        exact .tokenWritten hdevice (.inl ⟨hrole, rfl⟩)

theorem revoke_moved (role : String) (now : Nat) (st : DevicePairingStateFile) :
    Moved now st (.revoke deviceId role) (revokeDeviceToken deviceId role now st).2 := by
  simp only [revokeDeviceToken]
  split
  · rename_i device role' hdevice hrole
    split
    · exact .same
    · rename_i tokens htokens
      split
      · exact .same
      · rename_i token htoken
        have hdefault : tokens = device.tokens.getD ∅ := by rw [htokens, Option.getD_some]
        rw [hdefault] at htoken ⊢
        exact .tokenWritten hdevice (.inr ⟨token, htoken, rfl⟩)
  · exact .same

theorem after_moved (call : PairingCall) (now : Nat) (st : DevicePairingStateFile) :
    Moved now st call (call.after now st) := by
  cases call with
  | request req uuid =>
    cases hr : requestDevicePairing req uuid now st with
    | mk result next =>
      simp only [PairingCall.after, hr]
      cases result with
      | ok result => exact .requested hr
      | error message =>
        have hst : next = st := by
          simp only [requestDevicePairing] at hr
          split at hr
          · exact (Prod.mk.inj hr).2.symm
          · cases (Prod.mk.inj hr).1
        rw [hst]
        exact .same
  | approve requestId callerScopes newToken => exact approve_moved ..
  | approveBootstrap requestId bootstrapProfile newToken => exact approveBootstrap_moved ..
  | reject requestId =>
    simp only [PairingCall.after, rejectDevicePairing, rejectPendingPairingRequest]
    cases (loadState now st).pendingById.get? requestId with
    | none => exact .same
    | some pending => exact .rejected
  | remove deviceId =>
    simp only [PairingCall.after, removePairedDevice]
    split
    · exact .same
    · exact .removed
  | clear deviceId =>
    simp only [PairingCall.after, clearDevicePairing]
    split
    · exact .same
    · exact .cleared
  | updateMetadata deviceId patch =>
    simp only [PairingCall.after, updatePairedDeviceMetadata]
    split
    · exact .same
    · rename_i existing hexisting
      exact .patched hexisting
  | verify params token => exact verify_moved ..
  | ensure params newToken => exact ensure_moved ..
  | rotate deviceId role scopes newToken => exact rotate_moved ..
  | revoke deviceId role => exact revoke_moved ..

/-- Every operation can run in every state. -/
def devicePairing : Machine DevicePairingStateFile PairingEvent :=
  fun e st => some (e.call.after e.now st)

end OpenClaw.Pairing
