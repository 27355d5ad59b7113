import OpenClaw.Foundation.Base64
import OpenClaw.Pairing.DevicePairing

/-! Bootstrap tokens.

A bootstrap token is issued for a profile of roles and scopes, ahead of the
device that will use it. The first device that presents it within the profile
becomes its device; later attempts must carry the same device id and public key.
Records are normalized and expired ones dropped on every load; a token can be
revoked, which hands its record out, and a record handed out can be put back. -/
namespace OpenClaw.Pairing

open Foundation Foundation.EcmaString

/-! ### Profiles -/

structure DeviceBootstrapProfileInput where
  roles : Option (List String) := none
  scopes : Option (List String) := none

def DeviceBootstrapProfile.input (profile : DeviceBootstrapProfile) : DeviceBootstrapProfileInput :=
  ⟨some profile.roles, some profile.scopes⟩

def normalizeBootstrapRoles (roles : Option (List String)) : List String :=
  match roles with
  | none => []
  | some roles => toSorted (trimmedSet roles)

def normalizeDeviceBootstrapProfile (input : DeviceBootstrapProfileInput) : DeviceBootstrapProfile where
  roles := normalizeBootstrapRoles input.roles
  scopes := normalizeDeviceAuthScopes (some (input.scopes.getD []))

def pairingSetupBootstrapProfile : DeviceBootstrapProfile where
  roles := ["node", "operator"]
  scopes := bootstrapHandoffOperatorScopes

def resolveIssuedBootstrapProfile (profile : Option DeviceBootstrapProfileInput) (roles scopes : Option (List String)) :
    DeviceBootstrapProfile :=
  match profile with
  | some profile => normalizeDeviceBootstrapProfile profile
  | none =>
    if roles.isSome || scopes.isSome then normalizeDeviceBootstrapProfile ⟨roles, scopes⟩
    else pairingSetupBootstrapProfile

def bootstrapProfileAllowsRequest (allowedProfile : DeviceBootstrapProfile) (requestedRole : String)
    (requestedScopes : List String) : Bool :=
  allowedProfile.roles.contains requestedRole &&
    roleScopesAllow requestedRole requestedScopes allowedProfile.scopes

def resolveBootstrapProfileScopes (role : String) (scopes : List String) : List String :=
  if role == "operator" then scopes.filter isOperatorScope else scopes.filter fun scope => !isOperatorScope scope

def bootstrapProfileSatisfiesProfile (actualProfile requiredProfile : DeviceBootstrapProfile) : Bool :=
  requiredProfile.roles.all fun requiredRole =>
    actualProfile.roles.contains requiredRole &&
      let requiredScopes := resolveBootstrapProfileScopes requiredRole requiredProfile.scopes
      (requiredScopes.isEmpty || bootstrapProfileAllowsRequest actualProfile requiredRole requiredScopes)

/-! ### Public keys -/

/-- The runtime's reading of keys: the bytes of a base64 text, and the key a PEM text holds. -/
structure KeyHost where
  decodeBase64 : String → List UInt8
  /-- The key as exported, if the text is one. -/
  createPublicKey : String → Option (List UInt8)

def ed25519SpkiPrefix : List UInt8 :=
  [0x30, 0x2a, 0x30, 0x05, 0x06, 0x03, 0x2b, 0x65, 0x70, 0x03, 0x21, 0x00]

def derivePublicKeyRaw (host : KeyHost) (publicKeyPem : String) : Option (List UInt8) :=
  (host.createPublicKey publicKeyPem).map fun spki =>
    if spki.length == ed25519SpkiPrefix.length + 32 && ed25519SpkiPrefix.isPrefixOf spki then
      spki.drop ed25519SpkiPrefix.length
    else spki

def base64UrlEncode (bytes : List UInt8) : String := String.ofList (Base64.urlEncode bytes)

/-- The address form is brought back to the plain one and filled up before it is decoded. -/
def base64UrlDecode (host : KeyHost) (input : String) : List UInt8 :=
  let normalized := input.toList.map fun c => if c = '-' then '+' else if c = '_' then '/' else c
  let padded := normalized ++ List.replicate ((4 - normalized.length % 4) % 4) '='
  host.decodeBase64 (String.ofList padded)

def includesBegin (s : String) : Bool := includesChars "BEGIN".toList s.toList

def normalizeDevicePublicKeyBase64Url (host : KeyHost) (publicKey : String) : Option String :=
  if includesBegin publicKey then (derivePublicKeyRaw host publicKey).map base64UrlEncode
  else
    let raw := base64UrlDecode host publicKey
    if raw.length == 0 then none else some (base64UrlEncode raw)

def normalizeBootstrapPublicKey (host : KeyHost) (publicKey : String) : String :=
  let trimmed := trim publicKey
  if trimmed = "" then ""
  else if includesBegin trimmed || trimmed.toList.any fun c => c == '+' || c == '/' || c == '=' then
    (normalizeDevicePublicKeyBase64Url host trimmed).getD trimmed
  else trimmed

/-- A text of the address alphabet is no PEM text: those have blanks in their first line. -/
def KeyHost.ReadsPemOnly (host : KeyHost) : Prop :=
  ∀ s : String, (∀ c ∈ s.toList, Base64.isUrlChar c = true) → host.createPublicKey s = none

theorem isUrlChar_toNat {c : Char} (h : Base64.isUrlChar c = true) : 0x20 < c.toNat ∧ c.toNat < 0xA0 := by
  simp only [Base64.isUrlChar, Bool.or_eq_true, beq_iff_eq] at h
  rcases h with (h | rfl) | rfl
  · have hval : c.toNat = c.val.toNat := rfl
    have hZ : 'Z'.val.toNat = 90 := rfl
    have hz : 'z'.val.toNat = 122 := rfl
    have h9 : '9'.val.toNat = 57 := rfl
    have hA : 'A'.val.toNat = 65 := rfl
    have ha : 'a'.val.toNat = 97 := rfl
    have h0 : '0'.val.toNat = 48 := rfl
    unfold Char.isAlphanum Char.isAlpha Char.isUpper Char.isLower Char.isDigit at h
    simp only [Bool.or_eq_true, Bool.and_eq_true, decide_eq_true_eq, UInt32.le_iff_toNat_le, ge_iff_le] at h
    omega
  · decide
  · decide

theorem isUrlChar_not_white {c : Char} (h : Base64.isUrlChar c = true) : isWhiteSpace c = false := by
  obtain ⟨hlow, hhigh⟩ := isUrlChar_toNat h
  by_contra hw
  have := isWhiteSpace_toNat (by simpa using hw)
  omega

/-- A text of the address alphabet is its own normal form. -/
theorem normalizeBootstrapPublicKey_url {host : KeyHost} (hpem : host.ReadsPemOnly) {s : String}
    (h : ∀ c ∈ s.toList, Base64.isUrlChar c = true) : normalizeBootstrapPublicKey host s = s := by
  have htrim : trim s = s := by
    rw [trim, trimChars_eq_self, String.ofList_toList]
    · exact fun c hc => isUrlChar_not_white (h c (List.mem_of_mem_head? hc))
    · exact fun c hc => isUrlChar_not_white (h c (List.mem_of_mem_getLast? hc))
  have hplain : (s.toList.any fun c => c == '+' || c == '/' || c == '=') = false := by
    rw [List.any_eq_false]
    intro c hc hsign
    have hurl := h c hc
    simp only [Bool.or_eq_true, beq_iff_eq] at hsign
    rcases hsign with (rfl | rfl) | rfl <;> exact absurd hurl (by decide)
  simp only [normalizeBootstrapPublicKey, htrim, hplain, Bool.or_false]
  split
  · rename_i hs
    exact hs.symm
  · split
    · rename_i hbegin
      simp [normalizeDevicePublicKeyBase64Url, hbegin, derivePublicKeyRaw, hpem s h]
    · rfl

/-- What a key normalizes to is a text of the address alphabet or trimmed text. -/
theorem normalizeDevicePublicKeyBase64Url_url {host : KeyHost} {s t : String}
    (h : normalizeDevicePublicKeyBase64Url host s = some t) : ∀ c ∈ t.toList, Base64.isUrlChar c = true := by
  have hencoded : ∀ bytes, ∀ c ∈ (base64UrlEncode bytes).toList, Base64.isUrlChar c = true := by
    intro bytes c hc
    rw [base64UrlEncode, String.toList_ofList] at hc
    exact Base64.urlEncode_alphabet bytes c hc
  rw [normalizeDevicePublicKeyBase64Url] at h
  split at h
  · obtain ⟨bytes, _, rfl⟩ := Option.map_eq_some_iff.mp h
    exact hencoded bytes
  · simp only at h
    split at h
    · cases h
    · cases h
      exact hencoded _

/-- Normalizing a key twice is normalizing it once. -/
theorem normalizeBootstrapPublicKey_idem {host : KeyHost} (hpem : host.ReadsPemOnly) (s : String) :
    normalizeBootstrapPublicKey host (normalizeBootstrapPublicKey host s) = normalizeBootstrapPublicKey host s := by
  by_cases hblank : trim s = ""
  · have hempty : normalizeBootstrapPublicKey host s = "" := by simp [normalizeBootstrapPublicKey, hblank]
    rw [hempty]
    exact normalizeBootstrapPublicKey_url hpem (by simp)
  · -- `s` and its trimmed form normalize alike.
    have htrimmed : normalizeBootstrapPublicKey host (trim s) = normalizeBootstrapPublicKey host s := by
      simp only [normalizeBootstrapPublicKey, trim_trim]
    by_cases hread : (includesBegin (trim s) || (trim s).toList.any fun c => c == '+' || c == '/' || c == '=') = true
    · have hs : normalizeBootstrapPublicKey host s =
          (normalizeDevicePublicKeyBase64Url host (trim s)).getD (trim s) := by
        simp only [normalizeBootstrapPublicKey, hblank, if_false, hread, if_true]
      cases hkey : normalizeDevicePublicKeyBase64Url host (trim s) with
      | none =>
        rw [hkey, Option.getD_none] at hs
        rw [hs, htrimmed, hs]
      | some key =>
        rw [hkey, Option.getD_some] at hs
        rw [hs]
        exact normalizeBootstrapPublicKey_url hpem (normalizeDevicePublicKeyBase64Url_url hkey)
    · have hs : normalizeBootstrapPublicKey host s = trim s := by
        simp only [normalizeBootstrapPublicKey, hblank, if_false, hread]
        rfl
      rw [hs, htrimmed, hs]

/-! ### The store -/

structure DeviceBootstrapTokenRecord where
  token : String
  ts : Nat
  deviceId : Option String := none
  publicKey : Option String := none
  profile : Option DeviceBootstrapProfile
  redeemedProfile : Option DeviceBootstrapProfile
  roles : Option (List String) := none
  scopes : Option (List String) := none
  issuedAtMs : Nat
  lastUsedAtMs : Option Nat := none
deriving DecidableEq

abbrev DeviceBootstrapStateFile := InsertionMap String DeviceBootstrapTokenRecord

def deviceBootstrapTokenTtlMs : Nat := 10 * 60 * 1000

variable (record : DeviceBootstrapTokenRecord)

def resolvePersistedBootstrapProfile : DeviceBootstrapProfile :=
  normalizeDeviceBootstrapProfile
    ((record.profile.map DeviceBootstrapProfile.input).getD ⟨record.roles, record.scopes⟩)

def resolvePersistedRedeemedProfile : DeviceBootstrapProfile :=
  normalizeDeviceBootstrapProfile ((record.redeemedProfile.map DeviceBootstrapProfile.input).getD {})

/-- A record as it is read: both profiles normalized, the fields of older records dropped. -/
def loadedRecord (tokenKey : String) (record : DeviceBootstrapTokenRecord) : DeviceBootstrapTokenRecord where
  token := if trim record.token = "" then tokenKey else record.token
  profile := some (resolvePersistedBootstrapProfile record)
  redeemedProfile := some (resolvePersistedRedeemedProfile record)
  deviceId := record.deviceId
  publicKey := record.publicKey
  issuedAtMs := record.issuedAtMs
  ts := record.ts
  lastUsedAtMs := record.lastUsedAtMs

def loadBootstrapState (now : Nat) (st : DeviceBootstrapStateFile) : DeviceBootstrapStateFile :=
  pruneExpiredPending DeviceBootstrapTokenRecord.ts (st.mapValues loadedRecord) now deviceBootstrapTokenTtlMs

/-- The entry whose token is the one presented. -/
def findToken (state : DeviceBootstrapStateFile) (providedToken : String) :
    Option (String × DeviceBootstrapTokenRecord) :=
  state.entries.find? fun entry => verifyPairingToken providedToken entry.2.token

/-! ### Operations -/

structure IssueParams where
  profile : Option DeviceBootstrapProfileInput := none
  roles : Option (List String) := none
  scopes : Option (List String) := none

/-- `token` is the text drawn. -/
def issueDeviceBootstrapToken (params : IssueParams) (token : String) (now : Nat) (st : DeviceBootstrapStateFile) :
    (String × Nat) × DeviceBootstrapStateFile :=
  let state := loadBootstrapState now st
  let record : DeviceBootstrapTokenRecord :=
    { token
      ts := now
      profile := some (resolveIssuedBootstrapProfile params.profile params.roles params.scopes)
      redeemedProfile := some (normalizeDeviceBootstrapProfile {})
      issuedAtMs := now }
  ((token, now + deviceBootstrapTokenTtlMs), state.set token record)

def clearDeviceBootstrapTokens (now : Nat) (st : DeviceBootstrapStateFile) : Nat × DeviceBootstrapStateFile :=
  ((loadBootstrapState now st).size, ∅)

def revokeDeviceBootstrapToken (token : String) (now : Nat) (st : DeviceBootstrapStateFile) :
    Option DeviceBootstrapTokenRecord × DeviceBootstrapStateFile :=
  let providedToken := trim token
  if providedToken = "" then (none, st)
  else
    let state := loadBootstrapState now st
    match findToken state providedToken with
    | none => (none, st)
    | some (tokenKey, record) => (some record, state.erase tokenKey)

def restoreDeviceBootstrapToken (now : Nat) (st : DeviceBootstrapStateFile) : DeviceBootstrapStateFile :=
  (loadBootstrapState now st).set record.token record

def getDeviceBootstrapTokenProfile (token : String) (now : Nat) (st : DeviceBootstrapStateFile) :
    Option DeviceBootstrapProfile :=
  let providedToken := trim token
  if providedToken = "" then none
  else (findToken (loadBootstrapState now st) providedToken).map fun found => resolvePersistedBootstrapProfile found.2

structure RedeemResult where
  recorded : Bool
  fullyRedeemed : Bool
deriving DecidableEq

def redeemDeviceBootstrapTokenProfile (token role : String) (scopes : List String) (now : Nat)
    (st : DeviceBootstrapStateFile) : RedeemResult × DeviceBootstrapStateFile :=
  let providedToken := trim token
  if providedToken = "" then (⟨false, false⟩, st)
  else
    let state := loadBootstrapState now st
    match findToken state providedToken with
    | none => (⟨false, false⟩, st)
    | some (tokenKey, record) =>
      let issuedProfile := resolvePersistedBootstrapProfile record
      let redeemed := resolvePersistedRedeemedProfile record
      let redeemedProfile := normalizeDeviceBootstrapProfile
        ⟨some (redeemed.roles ++ [role]), some (redeemed.scopes ++ resolveBootstrapProfileScopes role scopes)⟩
      (⟨true, bootstrapProfileSatisfiesProfile redeemedProfile issuedProfile⟩,
        state.set tokenKey { record with profile := some issuedProfile, redeemedProfile := some redeemedProfile })

structure BootstrapVerifyParams where
  token : String
  deviceId : String
  publicKey : String
  role : String
  scopes : List String

/-- The attempt passes: the id and the key it carries, and the record written. -/
def bindRecord (allowedProfile : DeviceBootstrapProfile) (deviceId publicKey : String) (now : Nat)
    : DeviceBootstrapTokenRecord :=
  { record with profile := some allowedProfile, deviceId := some deviceId, publicKey := some publicKey,
                lastUsedAtMs := some now }

def verifyDeviceBootstrapToken (host : KeyHost) (params : BootstrapVerifyParams) (now : Nat)
    (st : DeviceBootstrapStateFile) : Except String Unit × DeviceBootstrapStateFile :=
  let refused : Except String Unit × DeviceBootstrapStateFile := (.error "bootstrap_token_invalid", st)
  let state := loadBootstrapState now st
  let providedToken := trim params.token
  if providedToken = "" then refused
  else
    match findToken state providedToken with
    | none => refused
    | some (tokenKey, record) =>
      let deviceId := trim params.deviceId
      let publicKey := normalizeBootstrapPublicKey host params.publicKey
      let role := trim params.role
      if deviceId = "" ∨ publicKey = "" ∨ role = "" then refused
      else
        let allowedProfile := resolvePersistedBootstrapProfile record
        if allowedProfile.roles.length = 0 ∨ !bootstrapProfileAllowsRequest allowedProfile role params.scopes then
          refused
        else
          let boundDeviceId := record.deviceId.map trim
          let boundPublicKey := record.publicKey.map (normalizeBootstrapPublicKey host)
          let bound := boundDeviceId.getD "" != "" || boundPublicKey.getD "" != ""
          if bound && (boundDeviceId != some deviceId || boundPublicKey != some publicKey) then refused
          else (.ok (), state.set tokenKey (bindRecord record allowedProfile deviceId publicKey now))

def getBoundDeviceBootstrapProfile (host : KeyHost) (token deviceId publicKey : String) (now : Nat)
    (st : DeviceBootstrapStateFile) : Option DeviceBootstrapProfile :=
  let providedToken := trim token
  if providedToken = "" then none
  else
    match findToken (loadBootstrapState now st) providedToken with
    | none => none
    | some (_, record) =>
      let deviceId := trim deviceId
      let publicKey := normalizeBootstrapPublicKey host publicKey
      if deviceId = "" ∨ publicKey = "" then none
      else if record.deviceId.map trim != some deviceId ||
          record.publicKey.map (normalizeBootstrapPublicKey host) != some publicKey then none
      else some (resolvePersistedBootstrapProfile record)

end OpenClaw.Pairing
