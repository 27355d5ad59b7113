import OpenClaw.Pairing.PendingRequests

/-! Device tokens stay within what was approved.

The ledger keeps, beside the stored state, what owners approved for each device
since it was last removed: the roles of the approved requests and bootstrap
profiles, the operator scopes of the requests that the approving caller held
himself, and those of the profiles. `DeviceWithin` ties a record to that: its
roles, the roles of its tokens, and the operator scopes of its baseline. Checks
and issued tokens stay inside the baseline, so what they grant is within the
ledger (`granted_within_approvals`).

One operation leaves the ledger behind: a metadata patch writes its role into
the record's roles, and its scopes into the list that is the baseline of a record
approved without one. The run theorem asks that patches do neither
(`PatchKeeps`); `patched_role_granted` is a run of one that does both. -/
namespace OpenClaw.Pairing

open Foundation Foundation.EcmaString List Option

/-- What owners approved for a device. -/
structure Approvals where
  roles : List String := []
  scopes : List String := []

def Approvals.add (a : Approvals) (roles scopes : List String) : Approvals where
  roles := a.roles ++ roles
  scopes := a.scopes ++ scopes

abbrev Ledger := String → Approvals

/-- Approvals added for one device. -/
def Ledger.grant (ledger : Ledger) (deviceId : String) (roles scopes : List String) : Ledger :=
  fun id => if id = deviceId then (ledger id).add roles scopes else ledger id

def Ledger.forget (ledger : Ledger) (deviceId : String) : Ledger :=
  fun id => if id = deviceId then {} else ledger id

/-- The operator scopes of a request that the caller holds. -/
def heldScopes (pending : DevicePairingPendingRequest) (callerScopes : Option (List String)) : List String :=
  (trimmedSet pending.requestedScopes).filter fun scope =>
    isOperatorScope scope && roleScopesAllow operatorRole [scope] (callerScopes.getD [])

/-- The operator scopes of a bootstrap profile. -/
def profileScopes (profile : DeviceBootstrapProfile) : List String :=
  (trimmedSet profile.scopes).filter isOperatorScope

structure PairingHistory where
  file : DevicePairingStateFile := {}
  ledger : Ledger := fun _ => {}

/-- The ledger after an operation: approvals that went through are added, a removal forgets. -/
def ledgerAfter (e : PairingEvent) (h : PairingHistory) : Ledger :=
  match e.call with
  | .approve requestId callerScopes newToken =>
    match (approveDevicePairing requestId callerScopes newToken e.now h.file).1,
        (loadState e.now h.file).pendingById.get? requestId with
    | .approved _ _, some pending =>
      h.ledger.grant pending.deviceId (trimmedSet pending.requestedRoles) (heldScopes pending callerScopes)
    | _, _ => h.ledger
  | .approveBootstrap requestId profile newToken =>
    match (approveBootstrapDevicePairing requestId profile newToken e.now h.file).1,
        (loadState e.now h.file).pendingById.get? requestId with
    | .approved _ _, some pending =>
      h.ledger.grant pending.deviceId (trimmedSet profile.roles) (profileScopes profile)
    | _, _ => h.ledger
  | .remove deviceId =>
    if (removePairedDevice deviceId e.now h.file).1.isSome then h.ledger.forget (normalizeDeviceId deviceId)
    else h.ledger
  | .clear deviceId =>
    if (clearDevicePairing deviceId e.now h.file).1 then h.ledger.forget (normalizeDeviceId deviceId)
    else h.ledger
  | _ => h.ledger

def pairingHistory : Machine PairingHistory PairingEvent :=
  fun e h => some ⟨e.call.after e.now h.file, ledgerAfter e h⟩

/-- A role and scopes granted to a device. -/
structure DeviceGrant where
  deviceId : String
  role : String
  scopes : List String

/-- What a check or an issue grants in a state. -/
def granted (call : PairingCall) (now : Nat) (st : DevicePairingStateFile) : Option DeviceGrant :=
  match call with
  | .verify params token =>
    match (verifyDeviceToken params token now st).1 with
    | .ok => some ⟨normalizeDeviceId params.deviceId, trim params.role,
        normalizeDeviceAuthScopes (some params.scopes)⟩
    | .refused _ => none
  | .ensure params newToken =>
    (ensureDeviceToken params newToken now st).1.map fun token =>
      ⟨normalizeDeviceId params.deviceId, token.role, token.scopes⟩
  | _ => none

/-- The role is among the approved ones, and each operator scope is allowed by the approved ones. -/
def Contained (approvals : Approvals) (grant : DeviceGrant) : Prop :=
  grant.role ∈ approvals.roles ∧ ∀ scope ∈ trimmedSet grant.scopes, isOperatorScope scope = true →
    roleScopesAllow operatorRole [scope] approvals.scopes = true

instance (approvals : Approvals) (grant : DeviceGrant) : Decidable (Contained approvals grant) := by
  unfold Contained
  infer_instance

/-- A metadata patch that reaches a paired device names no role but one of its record, and no
operator scope unless the record has a list of approved scopes. -/
def PatchKeeps (e : PairingEvent) (h : PairingHistory) : Prop :=
  match e.call with
  | .updateMetadata deviceId patch =>
    normalizeDeviceId deviceId = deviceId → ∀ existing, h.file.pairedByDeviceId.get? deviceId = some existing →
      (∀ role, normalizeRole patch.role = some role → role ∈ listApprovedPairedDeviceRoles existing) ∧
      (existing.approvedScopes = none → ∀ scope ∈ trimmedSet (patch.scopes.getD []),
        isOperatorScope scope = false)
  | _ => True

/-! ### A record within its approvals -/

/-- What an operator scope is allowed by. -/
def OperatorAllowed (scope : String) (scopes : List String) : Prop :=
  operatorScopeSatisfied scope (trimmedSet scopes) = true

theorem operatorAllowed_iff {scope : String} (htrim : trimmed scope = some scope) {scopes : List String} :
    OperatorAllowed scope scopes ↔ roleScopesAllow operatorRole [scope] scopes = true := by
  have hone : ∀ s, s ∈ trimmedSet [scope] ↔ s = scope := by
    intro s
    rw [mem_trimmedSet]
    constructor
    · rintro ⟨s', hs', hs⟩
      rw [mem_singleton.mp hs', htrim] at hs
      exact (Option.some.inj hs).symm
    · rintro rfl
      exact ⟨s, mem_singleton_self s, htrim⟩
  have hrole : (trim operatorRole != operatorRole) = false := by decide
  rw [roleScopesAllow_iff]
  simp [hone, scopeAllowed, hrole, OperatorAllowed]

/-- Every operator scope of a list is allowed by another. -/
def OperatorCovered (scopes allowed : List String) : Prop :=
  ∀ scope ∈ trimmedSet scopes, isOperatorScope scope = true → OperatorAllowed scope allowed

theorem OperatorCovered.trans {a b c : List String} (hab : OperatorCovered a b) (hbc : OperatorCovered b c) :
    OperatorCovered a c :=
  fun scope hs hop => operatorScopeSatisfied_of_covers (hab scope hs hop) hbc

theorem OperatorCovered.mono {a b c : List String} (h : OperatorCovered a b)
    (hsub : ∀ s ∈ trimmedSet b, s ∈ trimmedSet c) : OperatorCovered a c :=
  fun scope hs hop => operatorScopeSatisfied_mono (h scope hs hop) hsub

theorem OperatorCovered.append_right {a b : List String} (h : OperatorCovered a b) (c : List String) :
    OperatorCovered a (b ++ c) :=
  h.mono fun _ hs => trimmedSet_append_mem.mpr (.inl hs)

/-- Normalizing adds no operator scope that was not allowed. -/
theorem operatorCovered_normalize (scopes : List String) :
    OperatorCovered (normalizeDeviceAuthScopes (some scopes)) scopes :=
  fun _ hs hop => satisfied_of_mem_normalizeDeviceAuthScopes
    (mem_trimmedSet_normalizeDeviceAuthScopes.mp hs) hop

theorem operatorCovered_profile (profile : DeviceBootstrapProfile) :
    OperatorCovered (normalizeDeviceAuthScopes (some profile.scopes)) (profileScopes profile) := by
  refine (operatorCovered_normalize _).trans fun scope hs hop => ?_
  exact operatorScopeSatisfied_of_mem (mem_trimmedSet_of_mem (mem_filter.mpr ⟨hs, hop⟩)
    (trimmed_of_mem_trimmedSet hs)) hop

/-- What a role is allowed covers what it asks for. -/
theorem operatorCovered_of_roleScopesAllow {role : String} {requested allowed : List String}
    (h : roleScopesAllow role requested allowed = true) : OperatorCovered requested allowed :=
  fun scope hs hop => satisfied_of_scopeAllowed (roleScopesAllow_iff.mp h scope hs) hop

/-- The roles of a record, the roles of its tokens and the operator scopes of its baseline are
within what was approved. -/
structure DeviceWithin (a : Approvals) (device : PairedDevice) : Prop where
  roles : ∀ r ∈ listApprovedPairedDeviceRoles device, r ∈ a.roles
  tokens : ∀ {role token}, (device.tokens.getD ∅).get? role = some token → role ∈ a.roles ∧ token.role = role
  scopes : OperatorCovered ((recordedScopes device).getD []) a.scopes

variable {a : Approvals} {device : PairedDevice} {now : Nat} {st : DevicePairingStateFile}
  {newToken : String → String} {existing : Option PairedDevice} {pending : DevicePairingPendingRequest}
  {ledger : Ledger} {h : PairingHistory}

theorem DeviceWithin.add (h : DeviceWithin a device) (roles scopes : List String) :
    DeviceWithin (a.add roles scopes) device where
  roles r hr := mem_append_left _ (h.roles r hr)
  tokens ht := ⟨mem_append_left _ (h.tokens ht).1, (h.tokens ht).2⟩
  scopes := h.scopes.append_right scopes

/-- Scopes found within the baseline of a record are within its approvals. -/
theorem DeviceWithin.baseline (h : DeviceWithin a device) {role : String} {scopes : List String}
    (hscopes : scopesWithinApprovedDeviceBaseline role scopes (resolveApprovedDeviceScopeBaseline device) = true) :
    OperatorCovered scopes a.scopes := by
  cases hrec : recordedScopes device with
  | none => simp [resolveApprovedDeviceScopeBaseline, hrec, scopesWithinApprovedDeviceBaseline] at hscopes
  | some recorded =>
    have hallow : roleScopesAllow role scopes (normalizeDeviceAuthScopes (some recorded)) = true := by
      simpa [resolveApprovedDeviceScopeBaseline, hrec, scopesWithinApprovedDeviceBaseline] using hscopes
    have hwithin : OperatorCovered recorded a.scopes := by simpa [hrec] using h.scopes
    exact ((operatorCovered_of_roleScopesAllow hallow).trans (operatorCovered_normalize recorded)).trans hwithin

/-! ### What checks and issues grant -/

theorem verify_ok {params : TokenParams} {token : String} (h : (verifyDeviceToken params token now st).1 = .ok) :
    ∃ device role entry, st.pairedByDeviceId.get? (normalizeDeviceId params.deviceId) = some device ∧
      trimmed params.role = some role ∧ (device.tokens.getD ∅).get? role = some entry ∧
      scopesWithinApprovedDeviceBaseline role entry.scopes (resolveApprovedDeviceScopeBaseline device) = true ∧
      roleScopesAllow role (normalizeDeviceAuthScopes (some params.scopes)) entry.scopes = true := by
  simp only [verifyDeviceToken] at h
  split at h
  · cases h
  · rename_i device hdevice
    split at h
    · cases h
    · rename_i role hrole
      split at h
      · cases h
      · rename_i entry hentry
        obtain ⟨tokens, htokens, hget⟩ := bind_eq_some_iff.mp hentry
        split_ifs at h with hrevoked hmatch hwithin hallow
        exact ⟨device, role, entry, hdevice, hrole, by rw [htokens, getD_some, hget],
          by simpa using hwithin, by simpa using hallow⟩

theorem ensure_some {params : TokenParams} {newToken : String} {token : DeviceAuthToken}
    (h : (ensureDeviceToken params newToken now st).1 = some token) :
    ∃ device role, st.pairedByDeviceId.get? (normalizeDeviceId params.deviceId) = some device ∧
      role ∈ listApprovedPairedDeviceRoles device ∧
      scopesWithinApprovedDeviceBaseline role token.scopes (resolveApprovedDeviceScopeBaseline device) = true ∧
      (token.role = role ∨ (device.tokens.getD ∅).get? role = some token) := by
  simp only [ensureDeviceToken] at h
  split at h
  · cases h
  · rename_i context hcontext
    obtain ⟨hdevice, _, hmem, htokens, hexisting⟩ := resolveDeviceTokenUpdateContext_some hcontext
    refine ⟨context.device, context.role, hdevice, hmem, ?_⟩
    split at h
    · cases h
    · rename_i hwithin
      split at h
      · rename_i existing hreuse
        cases h
        obtain ⟨hsome, hfits⟩ := filter_eq_some_iff.mp hreuse
        simp only [Bool.and_eq_true] at hfits
        exact ⟨hfits.1.2, .inr (by rw [← htokens, ← hexisting, hsome])⟩
      · cases h
        refine ⟨?_, .inl rfl⟩
        simpa [buildDeviceAuthToken] using hwithin

/-- What is granted on a record within its approvals is within them. -/
theorem granted_contained {call : PairingCall} {grant : DeviceGrant} (h : granted call now st = some grant)
    (hst : ∀ device, st.pairedByDeviceId.get? grant.deviceId = some device → DeviceWithin a device) :
    Contained a grant := by
  have hcontained : ∀ scopes, OperatorCovered scopes a.scopes → ∀ scope ∈ trimmedSet scopes,
      isOperatorScope scope = true → roleScopesAllow operatorRole [scope] a.scopes = true := by
    intro scopes hcovered scope hs hop
    exact (operatorAllowed_iff (trimmed_of_mem_trimmedSet hs)).mp (hcovered scope hs hop)
  cases call with
  | verify params token =>
    simp only [granted] at h
    split at h
    · rename_i hok
      cases h
      obtain ⟨device, role, entry, hdevice, hrole, hentry, hwithin, hallow⟩ := verify_ok hok
      have hd := hst device hdevice
      refine ⟨?_, hcontained _ ((operatorCovered_of_roleScopesAllow hallow).trans (hd.baseline hwithin))⟩
      rw [trim_of_trimmed hrole]
      exact (hd.tokens hentry).1
    · cases h
  | ensure params newToken =>
    obtain ⟨token, htoken, rfl⟩ := map_eq_some_iff.mp h
    obtain ⟨device, role, hdevice, hmem, hwithin, hown⟩ := ensure_some htoken
    have hd := hst device hdevice
    refine ⟨?_, hcontained _ (hd.baseline hwithin)⟩
    rcases hown with rfl | hheld
    · exact hd.roles _ hmem
    · obtain ⟨hrole, hkey⟩ := hd.tokens hheld
      exact hkey ▸ hrole
  | _ => cases h

/-! ### Records that approvals write -/

theorem issueTokens_get? {roles : List String} {scopesFor : String → Option DeviceAuthToken → List String}
    {tokens : InsertionMap String DeviceAuthToken} {role : String} {token : DeviceAuthToken}
    (h : (issueTokens roles scopesFor newToken now tokens).get? role = some token) :
    tokens.get? role = some token ∨ (role ∈ roles ∧ token.role = role) := by
  induction roles generalizing tokens with
  | nil => exact .inl h
  | cons r rest ih =>
    rcases ih h with hset | ⟨hmem, hrole⟩
    · rw [InsertionMap.get?_set] at hset
      split at hset
      · rename_i he
        cases hset
        exact .inr ⟨he ▸ mem_cons_self, he.symm⟩
      · exact .inl hset
    · exact .inr ⟨mem_cons_of_mem _ hmem, hrole⟩

/-- What a device's record says before it is written again: nothing, if it has none. -/
def RecordWithin (a : Approvals) (existing : Option PairedDevice) : Prop :=
  ∀ device, existing = some device → DeviceWithin a device

theorem RecordWithin.role (h : RecordWithin a existing) {r : String}
    (hr : (∃ s ∈ (existing.bind (·.roles)).getD [], trimmed s = some r) ∨ ∃ s ∈ (existing.bind (·.role)).toList, trimmed s = some r) :
    r ∈ a.roles := by
  cases existing with
  | none =>
    rcases hr with ⟨_, hs, _⟩ | ⟨_, hs, _⟩ <;> cases hs
  | some device =>
    refine (h device rfl).roles r (mem_mergeRoles.mpr ?_)
    rcases hr with ⟨s, hs, hr⟩ | ⟨s, hs, hr⟩
    · exact ⟨device.roles, mem_cons_self, s, hs, hr⟩
    · exact ⟨single device.role, by simp, s, by simpa using hs, hr⟩

theorem RecordWithin.token (h : RecordWithin a existing) {role : String} {token : DeviceAuthToken}
    (ht : ((existing.bind (·.tokens)).getD ∅).get? role = some token) : role ∈ a.roles ∧ token.role = role := by
  cases existing with
  | none => cases ht
  | some device => exact (h device rfl).tokens ht

theorem RecordWithin.covered (h : RecordWithin a existing) :
    OperatorCovered ((existing.bind recordedScopes).getD []) a.scopes := by
  cases existing with
  | none => exact fun _ hs => by cases hs
  | some device => exact (h device rfl).scopes

/-- A record written over one within its approvals is within them once they hold its new roles, the
roles of its new tokens and its new operator scopes. -/
theorem pairedRecord_within {extraRoles tokenRoles : List String} {extraScopes : Option (List String)}
    {scopesFor : String → Option DeviceAuthToken → List String} (h : RecordWithin a existing)
    (hpending : ∀ r ∈ trimmedSet pending.requestedRoles, r ∈ a.roles)
    (hextra : ∀ r ∈ trimmedSet extraRoles, r ∈ a.roles) (htokens : ∀ r ∈ tokenRoles, r ∈ a.roles)
    (hscopes : OperatorCovered pending.requestedScopes a.scopes)
    (hmore : OperatorCovered (extraScopes.getD []) a.scopes) :
    DeviceWithin a (pairedRecord pending existing
      (mergeRoles [existing.bind (·.roles), single (existing.bind (·.role)), pending.roles, single pending.role,
        some extraRoles])
      (mergeScopes [existing.bind recordedScopes, pending.scopes, extraScopes])
      (issueTokens tokenRoles scopesFor newToken now ((existing.bind (·.tokens)).getD ∅)) now) where
  roles r hr := by
    have hpend : ∀ {s}, s ∈ pending.roles.getD [] ∨ s ∈ pending.role.toList → trimmed s = some r → r ∈ a.roles :=
      fun hs ht => hpending r (mem_trimmedSet.mpr ⟨_, mem_append.mpr hs, ht⟩)
    obtain ⟨item, hitem, s, hs, ht⟩ := mem_mergeRoles.mp hr
    simp only [pairedRecord, mem_cons, not_mem_nil, or_false] at hitem
    rcases hitem with rfl | rfl
    · rw [trimmed_of_mem_mergeRoles hs] at ht
      cases ht
      obtain ⟨item, hitem, s', hs', ht'⟩ := mem_mergeRoles.mp hs
      simp only [mem_cons, not_mem_nil, or_false] at hitem
      rcases hitem with rfl | rfl | rfl | rfl | rfl
      · exact h.role (.inl ⟨s', hs', ht'⟩)
      · exact h.role (.inr ⟨s', by simpa using hs', ht'⟩)
      · exact hpend (.inl hs') ht'
      · exact hpend (.inr (by simpa using hs')) ht'
      · exact hextra _ (mem_trimmedSet.mpr ⟨s', hs', ht'⟩)
    · exact hpend (.inr (by simpa using hs)) ht
  tokens ht := by
    rcases issueTokens_get? ht with hold | ⟨hmem, hrole⟩
    · exact h.token hold
    · exact ⟨htokens _ hmem, hrole⟩
  scopes := by
    intro scope hs hop
    have hrec : ∀ x : Option (List String), (x.or x).getD [] = x.getD [] := fun x => by cases x <;> rfl
    simp only [recordedScopes, pairedRecord, hrec, mergeScopes_getD, mem_trimmedSet_trimmedSet] at hs
    obtain ⟨s, hitems, ht⟩ := mem_trimmedSet.mp hs
    obtain ⟨item, hitem, hs'⟩ := mem_flatMap.mp hitems
    have hmem : scope ∈ trimmedSet (item.getD []) := mem_trimmedSet.mpr ⟨s, hs', ht⟩
    simp only [mem_cons, not_mem_nil, or_false] at hitem
    rcases hitem with rfl | rfl | rfl
    · exact h.covered scope hmem hop
    · exact hscopes scope hmem hop
    · exact hmore scope hmem hop

/-- The roles and scopes an approval adds are those of the request and, at bootstrap, of the
profile. -/
theorem approvedDevice_eq (pending : DevicePairingPendingRequest) (existing : Option PairedDevice)
    (newToken : String → String) (now : Nat) :
    approvedDevice pending existing newToken now = pairedRecord pending existing
      (mergeRoles [existing.bind (·.roles), single (existing.bind (·.role)), pending.roles, single pending.role,
        some []])
      (mergeScopes [existing.bind recordedScopes, pending.scopes, none])
      (issueTokens ((mergeRoles [pending.roles, single pending.role]).getD [])
        (fun role existingToken => resolveApprovedTokenScopes role pending existingToken
          (mergeScopes [existing.bind recordedScopes, pending.scopes]) existing)
        newToken now ((existing.bind (·.tokens)).getD ∅)) now := by
  simp [approvedDevice, mergeRoles, mergeScopes]

theorem pendingRoles_eq (pending : DevicePairingPendingRequest) :
    (mergeRoles [pending.roles, single pending.role]).getD [] = trimmedSet pending.requestedRoles := by
  simp [mergeRoles_getD, DevicePairingPendingRequest.requestedRoles]

theorem resolveMissing_none {role : String} {requested allowed : List String}
    (h : resolveMissingRequestedScope role requested allowed = none) :
    ∀ scope ∈ requested, roleScopesAllow role [scope] allowed = true := by
  intro scope hs
  have := find?_eq_none.mp h scope hs
  simpa using this

/-- A caller who may approve a request holds each of its operator scopes. -/
theorem missingCallerScope_none {requestedRoles requested : List String} {callerScopes : Option (List String)}
    (h : missingCallerScope requestedRoles requested callerScopes = none) :
    ∀ scope ∈ requested, roleScopesAllow operatorRole [scope] (callerScopes.getD []) = true := by
  cases requested with
  | nil => exact fun _ hs => by cases hs
  | cons first rest =>
    cases callerScopes with
    | none => cases h
    | some callerScopes =>
      simp only [missingCallerScope] at h
      split at h
      · cases h
      · exact resolveMissing_none h

/-- The operator scopes a request stores are among those approval looks at. -/
theorem mem_requestedOperatorScopes {scope : String} (h : scope ∈ trimmedSet pending.requestedScopes)
    (hop : isOperatorScope scope = true) :
    scope ∈ requestedOperatorScopes pending := by
  rw [requestedOperatorScopes, mem_filter]
  refine ⟨?_, hop⟩
  cases hs : pending.scopes with
  | none => simp [DevicePairingPendingRequest.requestedScopes, hs] at h
  | some scopes =>
    have : scope ∈ trimmedSet scopes := by simpa [DevicePairingPendingRequest.requestedScopes, hs] using h
    exact mem_normalizeDeviceAuthScopes_of_mem this

theorem approvedDevice_within {callerScopes : Option (List String)} (h : RecordWithin a existing)
    (hallowed : missingCallerScope ((mergeRoles [pending.roles, single pending.role]).getD [])
      (requestedOperatorScopes pending) callerScopes = none) :
    DeviceWithin (a.add (trimmedSet pending.requestedRoles) (heldScopes pending callerScopes))
      (approvedDevice pending existing newToken now) := by
  have hroles : ∀ r ∈ trimmedSet pending.requestedRoles,
      r ∈ (a.add (trimmedSet pending.requestedRoles) (heldScopes pending callerScopes)).roles :=
    fun r hr => mem_append_right _ hr
  rw [approvedDevice_eq]
  refine pairedRecord_within (fun device hd => (h device hd).add _ _) hroles (fun _ hr => by cases hr) ?_ ?_ ?_
  · rw [pendingRoles_eq]
    exact hroles
  · intro scope hs hop
    have hheld := missingCallerScope_none hallowed scope (mem_requestedOperatorScopes hs hop)
    have hmem : scope ∈ heldScopes pending callerScopes := by
      rw [heldScopes, mem_filter, Bool.and_eq_true]
      exact ⟨hs, hop, hheld⟩
    exact operatorScopeSatisfied_of_mem
      (mem_trimmedSet_of_mem (mem_append_right _ hmem) (trimmed_of_mem_trimmedSet hs)) hop
  · exact fun _ hs => by cases hs

theorem bootstrapDevice_within {profile : DeviceBootstrapProfile} {roles scopes : List String}
    (h : RecordWithin a existing) (hroles : roles = (mergeRoles [some profile.roles]).getD [])
    (hscopes : scopes = normalizeDeviceAuthScopes (some profile.scopes))
    (hrequested : (resolveRequestedRoles pending.role pending.roles).find? (fun role => !roles.contains role) = none)
    (hallowed : resolveMissingRequestedScope operatorRole (requestedOperatorScopes pending) scopes = none) :
    DeviceWithin (a.add (trimmedSet profile.roles) (profileScopes profile))
      (bootstrapDevice pending existing roles scopes newToken now) := by
  have hrolesSet : roles = trimmedSet profile.roles := by simp [hroles, mergeRoles_getD]
  have hmem : ∀ r ∈ roles, r ∈ (a.add (trimmedSet profile.roles) (profileScopes profile)).roles :=
    fun r hr => mem_append_right _ (hrolesSet ▸ hr)
  have hprofile : OperatorCovered scopes (a.add (trimmedSet profile.roles) (profileScopes profile)).scopes :=
    hscopes ▸ (operatorCovered_profile profile).mono fun s hs => trimmedSet_append_mem.mpr (.inr hs)
  refine pairedRecord_within (fun device hd => (h device hd).add _ _) ?_ ?_ hmem ?_ hprofile
  · intro r hr
    have hin := find?_eq_none.mp hrequested r (by
      rw [resolveRequestedRoles, pendingRoles_eq]
      exact hr)
    exact hmem r (by simpa using hin)
  · intro r hr
    exact hmem r (by
      rw [hrolesSet] at hr ⊢
      exact mem_trimmedSet_trimmedSet.mp hr)
  · intro scope hs hop
    have hone := resolveMissing_none hallowed scope (mem_requestedOperatorScopes hs hop)
    have hsat := (operatorAllowed_iff (trimmed_of_mem_trimmedSet hs)).mpr hone
    exact operatorScopeSatisfied_of_covers hsat hprofile

/-! ### One operation -/

/-- Every pairing the state holds under a trimmed id is within the ledger. -/
structure HistoryWithin (h : PairingHistory) : Prop where
  pending : PendingWellFormed h.file.pendingById
  keyed : ∀ {id device}, trim id = id → h.file.pairedByDeviceId.get? id = some device → device.deviceId = id
  devices : ∀ {id device}, trim id = id → h.file.pairedByDeviceId.get? id = some device →
    DeviceWithin (h.ledger id) device

theorem historyWithin_empty : HistoryWithin {} where
  pending := pendingWellFormed_empty
  keyed _ hd := by cases hd
  devices _ hd := by cases hd

/-- A ledger grows by what it grants. -/
theorem DeviceWithin.grant {id : String} (h : DeviceWithin (ledger id) device) (deviceId : String)
    (roles scopes : List String) :
    DeviceWithin (ledger.grant deviceId roles scopes id) device := by
  rw [Ledger.grant]
  split
  · exact h.add roles scopes
  · exact h

/-- An operation that removes no device lets the ledger grow only. -/
theorem ledgerAfter_within {e : PairingEvent} (hremove : ∀ id, e.call ≠ .remove id ∧ e.call ≠ .clear id)
    {id : String} (hd : DeviceWithin (h.ledger id) device) : DeviceWithin (ledgerAfter e h id) device := by
  obtain ⟨now, call⟩ := e
  cases call with
  | approve requestId callerScopes newToken =>
    have hsplit : ledgerAfter ⟨now, .approve requestId callerScopes newToken⟩ h = h.ledger ∨
        ∃ deviceId roles scopes, ledgerAfter ⟨now, .approve requestId callerScopes newToken⟩ h =
          h.ledger.grant deviceId roles scopes := by
      simp only [ledgerAfter]
      split
      · exact .inr ⟨_, _, _, rfl⟩
      · exact .inl rfl
    rcases hsplit with hl | ⟨_, _, _, hl⟩ <;> rw [hl]
    · exact hd
    · exact hd.grant _ _ _
  | approveBootstrap requestId profile newToken =>
    have hsplit : ledgerAfter ⟨now, .approveBootstrap requestId profile newToken⟩ h = h.ledger ∨
        ∃ deviceId roles scopes, ledgerAfter ⟨now, .approveBootstrap requestId profile newToken⟩ h =
          h.ledger.grant deviceId roles scopes := by
      simp only [ledgerAfter]
      split
      · exact .inr ⟨_, _, _, rfl⟩
      · exact .inl rfl
    rcases hsplit with hl | ⟨_, _, _, hl⟩ <;> rw [hl]
    · exact hd
    · exact hd.grant _ _ _
  | remove deviceId => exact absurd rfl (hremove deviceId).1
  | clear deviceId => exact absurd rfl (hremove deviceId).2
  | _ => exact hd

section
variable (hw : HistoryWithin h)
include hw

/-- A record written under a trimmed id keeps the rest of the pairings within the ledger. -/
theorem HistoryWithin.write {file : DevicePairingStateFile} {key : String} {written : PairedDevice}
    (hfile : file.pairedByDeviceId = h.file.pairedByDeviceId.set key written)
    (hpending : PendingWellFormed file.pendingById)
    (hgrow : ∀ id device, DeviceWithin (h.ledger id) device → DeviceWithin (ledger id) device)
    (hkey : trim key = key → written.deviceId = key ∧ DeviceWithin (ledger key) written) :
    HistoryWithin ⟨file, ledger⟩ := by
  have hcases : ∀ {id device}, trim id = id → file.pairedByDeviceId.get? id = some device →
      device.deviceId = id ∧ DeviceWithin (ledger id) device := by
    intro id device hid hd
    rw [hfile, InsertionMap.get?_set] at hd
    split at hd
    · rename_i he
      cases hd
      rw [he] at hid ⊢
      exact hkey hid
    · exact ⟨hw.keyed hid hd, hgrow _ _ (hw.devices hid hd)⟩
  exact ⟨hpending, fun hid hd => (hcases hid hd).1, fun hid hd => (hcases hid hd).2⟩

/-- Pairings left as they are stay within a ledger that grew. -/
theorem HistoryWithin.keep {file : DevicePairingStateFile} (hfile : file.pairedByDeviceId = h.file.pairedByDeviceId)
    (hpending : PendingWellFormed file.pendingById)
    (hgrow : ∀ id device, DeviceWithin (h.ledger id) device → DeviceWithin (ledger id) device) :
    HistoryWithin ⟨file, ledger⟩ where
  pending := hpending
  keyed hid hd := hw.keyed hid (hfile ▸ hd)
  devices hid hd := hgrow _ _ (hw.devices hid (hfile ▸ hd))

/-- A removal takes the record away with what was approved for it. -/
theorem HistoryWithin.erase (now : Nat) (key : String) :
    HistoryWithin ⟨{ loadState now h.file with pairedByDeviceId := h.file.pairedByDeviceId.erase key },
      h.ledger.forget key⟩ := by
  have hcases : ∀ {id device}, (h.file.pairedByDeviceId.erase key).get? id = some device →
      id ≠ key ∧ h.file.pairedByDeviceId.get? id = some device := by
    intro id device hd
    rw [InsertionMap.get?_erase] at hd
    split at hd
    · cases hd
    · rename_i hne
      exact ⟨hne, hd⟩
  refine ⟨hw.pending.loaded now, fun hid hd => hw.keyed hid (hcases hd).2, fun hid hd => ?_⟩
  obtain ⟨hne, hd⟩ := hcases hd
  show DeviceWithin (h.ledger.forget key _) _
  rw [Ledger.forget, if_neg hne]
  exact hw.devices hid hd

theorem remove_within (now : Nat) (deviceId : String) :
    HistoryWithin ⟨(PairingCall.remove deviceId).after now h.file, ledgerAfter ⟨now, .remove deviceId⟩ h⟩ := by
  simp only [PairingCall.after, ledgerAfter, removePairedDevice]
  split
  · exact hw
  · exact hw.erase now _

theorem clear_within (now : Nat) (deviceId : String) :
    HistoryWithin ⟨(PairingCall.clear deviceId).after now h.file, ledgerAfter ⟨now, .clear deviceId⟩ h⟩ := by
  simp only [PairingCall.after, ledgerAfter, clearDevicePairing]
  split
  · exact hw
  · exact hw.erase now _

end

/-- What a patch writes under a trimmed id, when it keeps to the record. -/
theorem patchedDevice_within {existing : PairedDevice} {patch : PairedDevicePatch} (h : DeviceWithin a existing)
    (hrole : ∀ role, normalizeRole patch.role = some role → role ∈ listApprovedPairedDeviceRoles existing)
    (hscopes : existing.approvedScopes = none → ∀ scope ∈ trimmedSet (patch.scopes.getD []), isOperatorScope scope = false) :
    DeviceWithin a (patchedDevice existing patch) where
  roles r hr := by
    have hpatch : ∀ {s}, s ∈ patch.role.toList → trimmed s = some r → r ∈ a.roles := by
      intro s hs ht
      refine h.roles r (hrole r ?_)
      rw [mem_toList.mp hs]
      exact ht
    have hold : (∃ item ∈ [existing.roles, single existing.role], ∃ s ∈ item.getD [], trimmed s = some r) →
        r ∈ a.roles := fun hr => h.roles r (mem_mergeRoles.mpr hr)
    obtain ⟨item, hitem, s, hs, ht⟩ := mem_mergeRoles.mp hr
    simp only [patchedDevice, mem_cons, not_mem_nil, or_false] at hitem
    rcases hitem with rfl | rfl
    · rw [trimmed_of_mem_mergeRoles hs] at ht
      cases ht
      obtain ⟨item, hitem, s', hs', ht'⟩ := mem_mergeRoles.mp hs
      simp only [mem_cons, not_mem_nil, or_false] at hitem
      rcases hitem with rfl | rfl | rfl
      · exact hold ⟨_, by simp, s', hs', ht'⟩
      · exact hold ⟨_, by simp, s', hs', ht'⟩
      · exact hpatch (by simpa using hs') ht'
    · cases hp : patch.role with
      | none =>
        rw [hp] at hs
        exact hold ⟨_, by simp, s, hs, ht⟩
      | some role =>
        rw [hp] at hs
        exact hpatch (by rw [hp]; simpa using hs) ht
  tokens ht := h.tokens ht
  scopes := by
    intro scope hs hop
    have happroved : (patchedDevice existing patch).approvedScopes = existing.approvedScopes := rfl
    cases hsome : existing.approvedScopes with
    | some approved =>
      rw [recordedScopes, happroved, hsome] at hs
      refine h.scopes scope ?_ hop
      rw [recordedScopes, hsome]
      exact hs
    | none =>
      rw [recordedScopes, happroved, hsome, none_or] at hs
      simp only [patchedDevice, mergeScopes_getD, mem_trimmedSet_trimmedSet] at hs
      obtain ⟨s, hitems, ht⟩ := mem_trimmedSet.mp hs
      obtain ⟨item, hitem, hs'⟩ := mem_flatMap.mp hitems
      have hmem : scope ∈ trimmedSet (item.getD []) := mem_trimmedSet.mpr ⟨s, hs', ht⟩
      simp only [mem_cons, not_mem_nil, or_false] at hitem
      rcases hitem with rfl | rfl
      · refine h.scopes scope ?_ hop
        rw [recordedScopes, hsome]
        exact hmem
      · exact absurd (hscopes hsome scope hmem) (by rw [hop]; exact Bool.noConfusion)

theorem step_within {e : PairingEvent} (hw : HistoryWithin h) (hkeeps : PatchKeeps e h) :
    HistoryWithin ⟨e.call.after e.now h.file, ledgerAfter e h⟩ := by
  obtain ⟨now, call⟩ := e
  have hpending : PendingWellFormed (call.after now h.file).pendingById := step_wellFormed (e := ⟨now, call⟩) hw.pending
  by_cases hremove : ∀ id, call ≠ .remove id ∧ call ≠ .clear id
  swap
  · obtain ⟨id, hid⟩ := not_forall.mp hremove
    rcases not_and_or.mp hid with hid | hid
    · obtain rfl := not_not.mp hid
      exact remove_within hw now id
    · obtain rfl := not_not.mp hid
      exact clear_within hw now id
  have hgrow : ∀ id device, DeviceWithin (h.ledger id) device → DeviceWithin (ledgerAfter ⟨now, call⟩ h id) device :=
    fun _ _ hd => ledgerAfter_within hremove hd
  have hmoved := after_moved call now h.file
  show HistoryWithin ⟨call.after now h.file, ledgerAfter ⟨now, call⟩ h⟩
  generalize call.after now h.file = next at hmoved hpending
  cases hmoved with
  | same => exact hw.keep rfl hpending hgrow
  | requested hok =>
    rcases request_cases hok with ⟨_, _, _, _, _, rfl⟩ | ⟨_, _, rfl⟩ <;> exact hw.keep rfl hpending hgrow
  | @approved requestId callerScopes newToken pending device hfound hallowed hdevice hresult =>
    refine hw.write rfl hpending hgrow fun hid => ?_
    rw [hdevice] at hid ⊢
    refine ⟨rfl, ?_⟩
    have hledger : ledgerAfter ⟨now, .approve requestId callerScopes newToken⟩ h pending.deviceId =
        (h.ledger pending.deviceId).add (trimmedSet pending.requestedRoles) (heldScopes pending callerScopes) := by
      simp [ledgerAfter, hresult, hfound, Ledger.grant]
    show DeviceWithin (ledgerAfter _ h pending.deviceId) _
    rw [hledger]
    exact approvedDevice_within (fun _ hd => hw.devices hid hd) hallowed
  | @bootstrapped requestId profile newToken pending device roles scopes hfound hroles hscopes hrequested hallowed
      hdevice hresult =>
    refine hw.write rfl hpending hgrow fun hid => ?_
    rw [hdevice] at hid ⊢
    refine ⟨rfl, ?_⟩
    have hledger : ledgerAfter ⟨now, .approveBootstrap requestId profile newToken⟩ h pending.deviceId =
        (h.ledger pending.deviceId).add (trimmedSet profile.roles) (profileScopes profile) := by
      simp [ledgerAfter, hresult, hfound, Ledger.grant]
    show DeviceWithin (ledgerAfter _ h pending.deviceId) _
    rw [hledger]
    exact bootstrapDevice_within (fun _ hd => hw.devices hid hd) hroles hscopes hrequested hallowed
  | rejected => exact hw.keep rfl hpending hgrow
  | @removed id => exact absurd rfl (hremove id).1
  | @cleared id => exact absurd rfl (hremove id).2
  | @patched deviceId patch existing hexisting =>
    refine hw.write rfl hpending hgrow fun hid => ?_
    have hnorm : normalizeDeviceId deviceId = deviceId := hid
    rw [hnorm] at hexisting
    obtain ⟨hrole, hscopes⟩ := hkeeps hnorm existing hexisting
    have hdev : existing.deviceId = deviceId := hw.keyed hid hexisting
    exact ⟨hdev, hgrow _ _ (patchedDevice_within (hw.devices hid hexisting) hrole hscopes)⟩
  | @tokenWritten _ deviceId role device entry hdevice hrole =>
    have hid : trim (normalizeDeviceId deviceId) = normalizeDeviceId deviceId := trim_trim deviceId
    have hkey := hw.keyed hid hdevice
    have hd := hgrow _ _ (hw.devices hid hdevice)
    refine hw.write rfl hpending hgrow fun _ => ⟨rfl, ?_⟩
    rw [hkey]
    refine ⟨hd.roles, fun {role' token} ht => ?_, hd.scopes⟩
    rw [getD_some, InsertionMap.get?_set] at ht
    split at ht
    · rename_i he
      cases ht
      rw [he]
      rcases hrole with ⟨hlisted, hown⟩ | ⟨token, htoken, hown⟩
      · exact ⟨hd.roles _ hlisted, hown⟩
      · exact ⟨(hd.tokens htoken).1, hown.trans (hd.tokens htoken).2⟩
    · exact hd.tokens ht

/-! ### Runs -/

/-- Along every run whose metadata patches keep to the record they patch, what a check or an issue
grants to a device is within what was approved for it since it was last removed. -/
theorem granted_within_approvals {events : List PairingEvent} {h : PairingHistory}
    (hrun : pairingHistory.run events {} = some h) (hkeeps : pairingHistory.Within PatchKeeps events {})
    {call : PairingCall} {now : Nat} {grant : DeviceGrant} (hgrant : granted call now h.file = some grant) :
    Contained (h.ledger grant.deviceId) grant := by
  have hw : HistoryWithin h := pairingHistory.run_within_invariant (I := HistoryWithin) (C := PatchKeeps)
    (fun _ _ _ hw hk he => Option.some.inj he ▸ step_within hw hk) events historyWithin_empty hkeeps hrun
  refine granted_contained hgrant fun device hdevice => hw.devices ?_ hdevice
  cases call with
  | verify params token =>
    simp only [granted] at hgrant
    split at hgrant
    · cases hgrant
      exact trim_trim _
    · cases hgrant
  | ensure params newToken =>
    obtain ⟨_, _, rfl⟩ := map_eq_some_iff.mp hgrant
    exact trim_trim _
  | _ => cases hgrant

/-! ### A patch that leaves the ledger behind -/

/-- A node asking for no scopes. -/
def nodeRequest : DevicePairingRequest := { deviceId := "phone", publicKey := "key", role := some "node" }

/-- The node is approved; then its metadata is patched with another role and a scope. -/
def patchedRun : List PairingEvent :=
  [⟨0, .request nodeRequest "r1"⟩, ⟨1, .approve "r1" none fun _ => "secret"⟩,
    ⟨2, .updateMetadata "phone" { role := some "operator", scopes := some ["operator.admin"] }⟩]

/-- What the gateway then issues. -/
def patchedGrant (h : PairingHistory) : Option DeviceGrant :=
  granted (.ensure ⟨"phone", "operator", ["operator.admin"]⟩ "token") 3 h.file

/-- The patched device is issued a token of the operator's role with the admin scope, which no
owner approved. -/
theorem patched_role_granted : ∃ h grant, pairingHistory.run patchedRun {} = some h ∧
    patchedGrant h = some grant ∧ grant.role = "operator" ∧ "operator.admin" ∈ grant.scopes ∧
    ¬ Contained (h.ledger grant.deviceId) grant := by
  have h : ((pairingHistory.run patchedRun {}).bind fun h => (patchedGrant h).map fun grant =>
      (grant.role == "operator", grant.scopes.contains "operator.admin",
        decide (Contained (h.ledger grant.deviceId) grant))) = some (true, true, false) := by decide
  obtain ⟨h, hrun, hgrants⟩ := bind_eq_some_iff.mp h
  obtain ⟨grant, hgrant, hchecks⟩ := map_eq_some_iff.mp hgrants
  simp only [Prod.mk.injEq, beq_iff_eq, contains_iff_mem, decide_eq_false_iff_not] at hchecks
  exact ⟨h, grant, hrun, hgrant, hchecks⟩

/-- The laptop's request approved by a caller who holds its scope. -/
def approvedRun : List PairingEvent :=
  [⟨0, .request laptopRequest "r1"⟩, ⟨1, .approve "r1" (some ["operator.write"]) fun _ => "secret"⟩]

def approvedHistory : PairingHistory :=
  approvedRun.foldl (fun h e => ⟨e.call.after e.now h.file, ledgerAfter e h⟩) {}

/-- A check of the laptop's token for the scope it was approved with. -/
theorem approved_laptop_within :
    (granted (.verify ⟨"laptop", "operator", ["operator.read"]⟩ "secret") 2 approvedHistory.file).isSome = true ∧
      ∀ grant, granted (.verify ⟨"laptop", "operator", ["operator.read"]⟩ "secret") 2 approvedHistory.file =
        some grant → Contained (approvedHistory.ledger grant.deviceId) grant :=
  ⟨by decide, fun _ => granted_within_approvals
    (show pairingHistory.run approvedRun {} = some approvedHistory from rfl)
    ⟨trivial, fun _ _ => ⟨trivial, fun _ _ => trivial⟩⟩⟩

end OpenClaw.Pairing
