import OpenClaw.Pairing.Bootstrap

/-! A bootstrap token serves one device, within its profile.

The history keeps, beside the stored records, what was issued, which tokens are
in force, the records revocations handed out, and the attempts that passed.
`BootstrapWithin` is the invariant: the record of a token that was ever accepted
is bound to the device it was accepted for, wherever that record is, in the store
or handed out; and there is one record of a token at most. The second half rests
on a record being restored once at most. A record that is restored twice, with an
attempt between, takes the binding back (`restored_twice_rebinds`). -/
namespace OpenClaw.Pairing

open Foundation Foundation.EcmaString List InsertionMap Option

/-! ### Histories -/

inductive BootstrapCall where
  | issue (params : IssueParams) (token : String)
  | verify (params : BootstrapVerifyParams)
  | redeem (token role : String) (scopes : List String)
  | profile (token : String)
  | boundProfile (token deviceId publicKey : String)
  | revoke (token : String)
  | restore (record : DeviceBootstrapTokenRecord)
  | clear

structure BootstrapEvent where
  now : Nat
  call : BootstrapCall

structure IssuedToken where
  profile : DeviceBootstrapProfile
  issuedAtMs : Nat

/-- An attempt that passed. -/
structure AcceptedAttempt where
  token : String
  deviceId : String
  publicKey : String
  role : String
  scopes : List String
deriving DecidableEq

structure BootstrapHistory where
  file : DeviceBootstrapStateFile := ∅
  issued : String → Option IssuedToken := fun _ => none
  /-- Issued or restored, and since then neither revoked nor cleared. -/
  inForce : String → Bool := fun _ => false
  /-- What revocations handed out. -/
  returned : List DeviceBootstrapTokenRecord := []
  /-- What they handed out that was not put back. -/
  outstanding : List DeviceBootstrapTokenRecord := []
  accepted : List AcceptedAttempt := []

/-- The attempt as the check reads it. -/
def BootstrapVerifyParams.attempt (host : KeyHost) (params : BootstrapVerifyParams) : AcceptedAttempt where
  token := trim params.token
  deviceId := trim params.deviceId
  publicKey := normalizeBootstrapPublicKey host params.publicKey
  role := trim params.role
  scopes := params.scopes

/-- Only a record that a revocation handed out can be restored. -/
def bootstrapTokens (host : KeyHost) : Machine BootstrapHistory BootstrapEvent := fun e h =>
  match e.call with
  | .issue params token =>
    some { h with
      file := (issueDeviceBootstrapToken params token e.now h.file).2
      issued := Function.update h.issued token
        (some ⟨resolveIssuedBootstrapProfile params.profile params.roles params.scopes, e.now⟩)
      inForce := Function.update h.inForce token true }
  | .verify params =>
    let (result, file) := verifyDeviceBootstrapToken host params e.now h.file
    match result with
    | .ok _ => some { h with file, accepted := h.accepted ++ [params.attempt host] }
    | .error _ => some { h with file }
  | .redeem token role scopes =>
    some { h with file := (redeemDeviceBootstrapTokenProfile token role scopes e.now h.file).2 }
  | .profile _ => some h
  | .boundProfile _ _ _ => some h
  | .revoke token =>
    let (record, file) := revokeDeviceBootstrapToken token e.now h.file
    match record with
    | none => some { h with file }
    | some record => some { h with
        file
        inForce := Function.update h.inForce record.token false
        returned := record :: h.returned
        outstanding := record :: h.outstanding }
  | .restore record =>
    if record ∈ h.returned then some { h with
      file := restoreDeviceBootstrapToken record e.now h.file
      inForce := Function.update h.inForce record.token true
      outstanding := h.outstanding.erase record }
    else none
  | .clear => some { h with
      file := (clearDeviceBootstrapTokens e.now h.file).2
      inForce := fun _ => false }

/-- A token is drawn once. -/
def DrawsFresh (e : BootstrapEvent) (h : BootstrapHistory) : Prop :=
  match e.call with
  | .issue _ token => (h.issued token).isNone = true
  | _ => True

/-- A record is put back once. -/
def RestoresOnce (e : BootstrapEvent) (h : BootstrapHistory) : Prop :=
  match e.call with
  | .restore record => record ∈ h.outstanding
  | _ => True

instance (e : BootstrapEvent) (h : BootstrapHistory) : Decidable (DrawsFresh e h) := by
  obtain ⟨now, call⟩ := e
  cases call <;> simp only [DrawsFresh] <;> infer_instance

instance (e : BootstrapEvent) (h : BootstrapHistory) : Decidable (RestoresOnce e h) := by
  obtain ⟨now, call⟩ := e
  cases call <;> simp only [RestoresOnce] <;> infer_instance

/-! ### Profiles through loads -/

/-- The same roles and scopes, in whatever order. -/
structure SameProfile (p q : DeviceBootstrapProfile) : Prop where
  roles : ∀ r, r ∈ p.roles ↔ r ∈ q.roles
  scopes : ∀ s, s ∈ trimmedSet p.scopes ↔ s ∈ trimmedSet q.scopes

theorem SameProfile.refl (p : DeviceBootstrapProfile) : SameProfile p p := ⟨fun _ => Iff.rfl, fun _ => Iff.rfl⟩

theorem SameProfile.trans {p q r : DeviceBootstrapProfile} (h : SameProfile p q) (h' : SameProfile q r) :
    SameProfile p r :=
  ⟨fun x => (h.roles x).trans (h'.roles x), fun x => (h.scopes x).trans (h'.scopes x)⟩

theorem mem_withImpliedScopes_twice {out : List String} {x : String} :
    x ∈ withImpliedScopes (withImpliedScopes out) ↔ x ∈ withImpliedScopes out := by
  have hra : operatorReadScope ≠ operatorAdminScope := by decide
  have hwa : operatorWriteScope ≠ operatorAdminScope := by decide
  have hwr : operatorWriteScope ≠ operatorReadScope := by decide
  have hadmin : operatorAdminScope ∈ withImpliedScopes out ↔ operatorAdminScope ∈ out := by
    simp [mem_withImpliedScopes, hra.symm, hwa.symm]
  have hwrite : operatorWriteScope ∈ withImpliedScopes out ↔
      operatorWriteScope ∈ out ∨ operatorAdminScope ∈ out := by
    simp [mem_withImpliedScopes, hwr]
  constructor
  · intro h
    rcases mem_withImpliedScopes.mp h with hx | ⟨hrw, ha⟩ | ⟨hr, hw⟩
    · exact hx
    · exact mem_withImpliedScopes.mpr (.inr (.inl ⟨hrw, hadmin.mp ha⟩))
    · rcases hwrite.mp hw with hw | ha
      · exact mem_withImpliedScopes.mpr (.inr (.inr ⟨hr, hw⟩))
      · exact mem_withImpliedScopes.mpr (.inr (.inl ⟨.inl hr, ha⟩))
  · exact fun h => mem_withImpliedScopes.mpr (.inl h)

theorem withImpliedScopes_congr {a b : List String} (h : ∀ x, x ∈ a ↔ x ∈ b) (x : String) :
    x ∈ withImpliedScopes a ↔ x ∈ withImpliedScopes b := by
  simp only [mem_withImpliedScopes, h]

/-- Normalizing a normalized profile changes nothing. -/
theorem normalize_sameProfile (input : DeviceBootstrapProfileInput) :
    SameProfile (normalizeDeviceBootstrapProfile (normalizeDeviceBootstrapProfile input).input)
      (normalizeDeviceBootstrapProfile input) where
  roles r := by
    cases hroles : input.roles with
    | none => simp [normalizeDeviceBootstrapProfile, DeviceBootstrapProfile.input, normalizeBootstrapRoles, hroles]
    | some roles =>
      have htoSorted : ∀ x, x ∈ trimmedSet (toSorted (trimmedSet roles)) ↔ x ∈ trimmedSet (trimmedSet roles) := by
        intro x
        simp only [mem_trimmedSet, mem_toSorted]
      simp only [normalizeDeviceBootstrapProfile, DeviceBootstrapProfile.input, normalizeBootstrapRoles, hroles,
        mem_toSorted, htoSorted, mem_trimmedSet_trimmedSet]
  scopes s := by
    simp only [normalizeDeviceBootstrapProfile, DeviceBootstrapProfile.input, getD_some,
      mem_trimmedSet_normalizeDeviceAuthScopes, mem_normalizeDeviceAuthScopes]
    have hnorm : ∀ x, x ∈ trimmedSet (normalizeDeviceAuthScopes (some (input.scopes.getD []))) ↔
        x ∈ withImpliedScopes (trimmedSet (input.scopes.getD [])) := by
      intro x
      rw [mem_trimmedSet_normalizeDeviceAuthScopes, mem_normalizeDeviceAuthScopes]
    exact (withImpliedScopes_congr hnorm s).trans mem_withImpliedScopes_twice

/-- The profile a token is issued with is read back as it is. -/
theorem issued_sameProfile (profile : Option DeviceBootstrapProfileInput) (roles scopes : Option (List String)) :
    SameProfile (normalizeDeviceBootstrapProfile (resolveIssuedBootstrapProfile profile roles scopes).input)
      (resolveIssuedBootstrapProfile profile roles scopes) := by
  have hdefault : normalizeDeviceBootstrapProfile pairingSetupBootstrapProfile.input =
      pairingSetupBootstrapProfile := by decide
  cases profile with
  | some profile => exact normalize_sameProfile profile
  | none =>
    simp only [resolveIssuedBootstrapProfile]
    split
    · exact normalize_sameProfile _
    · rw [hdefault]
      exact .refl _

/-- What a profile allows does not depend on the order of its lists. -/
theorem SameProfile.allows {p q : DeviceBootstrapProfile} (h : SameProfile p q) {role : String}
    {scopes : List String} (hallow : bootstrapProfileAllowsRequest p role scopes = true) :
    role ∈ q.roles ∧ roleScopesAllow role scopes q.scopes = true := by
  rw [bootstrapProfileAllowsRequest, Bool.and_eq_true, contains_iff_mem] at hallow
  refine ⟨(h.roles role).mp hallow.1, roleScopesAllow_iff.mpr fun s hs => ?_⟩
  have hone := roleScopesAllow_iff.mp hallow.2 s hs
  rw [scopeAllowed] at hone ⊢
  split at hone
  · rename_i hrole
    rw [if_pos hrole]
    simpa [h.scopes s] using hone
  · rename_i hrole
    rw [if_neg hrole]
    exact operatorScopeSatisfied_mono hone fun x hx => (h.scopes x).mp hx

/-! ### Records -/

/-- A record is the one issued for its token, and bound to the device of every attempt that passed
with it. -/
structure TokenRecordWithin (issued : String → Option IssuedToken) (accepted : List AcceptedAttempt)
    (r : DeviceBootstrapTokenRecord) (t : IssuedToken) : Prop where
  issued : issued r.token = some t
  ts : r.ts = t.issuedAtMs
  profile : SameProfile (resolvePersistedBootstrapProfile r) t.profile
  bound : ∀ a ∈ accepted, a.token = r.token → r.deviceId = some a.deviceId ∧ r.publicKey = some a.publicKey

/-- The attempts that passed: each within the profile of its token, and all those of a token for
one device. -/
structure AcceptedWithin (host : KeyHost) (issued : String → Option IssuedToken)
    (accepted : List AcceptedAttempt) : Prop where
  allowed : ∀ a ∈ accepted, ∃ t, issued a.token = some t ∧ a.role ∈ t.profile.roles ∧
    roleScopesAllow a.role a.scopes t.profile.scopes = true
  agreed : ∀ a ∈ accepted, ∀ b ∈ accepted, a.token = b.token →
    a.deviceId = b.deviceId ∧ a.publicKey = b.publicKey
  device : ∀ a ∈ accepted, a.deviceId ≠ "" ∧ trim a.deviceId = a.deviceId
  key : ∀ a ∈ accepted, a.publicKey ≠ "" ∧ normalizeBootstrapPublicKey host a.publicKey = a.publicKey

/-- A record in the store or handed out. -/
def Held (h : BootstrapHistory) (r : DeviceBootstrapTokenRecord) : Prop :=
  (∃ key, h.file.get? key = some r) ∨ r ∈ h.outstanding

/-- Each token has one record at most, in the store or handed out, and it is the one issued. -/
structure BootstrapWithin (host : KeyHost) (h : BootstrapHistory) : Prop where
  keyed : ∀ {key r}, h.file.get? key = some r → r.token = key
  inForce : ∀ {key r}, h.file.get? key = some r → h.inForce key = true
  apart : ∀ r ∈ h.outstanding, h.file.get? r.token = none
  distinct : (h.outstanding.map DeviceBootstrapTokenRecord.token).Nodup
  records : ∀ {r}, Held h r → ∃ t, TokenRecordWithin h.issued h.accepted r t
  accepted : AcceptedWithin host h.issued h.accepted

theorem bootstrapWithin_empty (host : KeyHost) : BootstrapWithin host {} where
  keyed hr := by cases hr
  inForce hr := by cases hr
  apart _ hr := by cases hr
  distinct := nodup_nil
  records hr := by
    rcases hr with ⟨_, hr⟩ | hr <;> cases hr
  accepted :=
    { allowed := fun _ ha => absurd ha not_mem_nil
      agreed := fun _ ha => absurd ha not_mem_nil
      device := fun _ ha => absurd ha not_mem_nil
      key := fun _ ha => absurd ha not_mem_nil }

/-! ### Loading -/

variable {now : Nat} {st file : DeviceBootstrapStateFile} {key token : String}
  {r record : DeviceBootstrapTokenRecord} {host : KeyHost} {h : BootstrapHistory}
  {params : BootstrapVerifyParams}

theorem get?_loadBootstrapState (h : (loadBootstrapState now st).get? key = some r) :
    ∃ stored, st.get? key = some stored ∧ r = loadedRecord key stored ∧
      now ≤ r.ts + deviceBootstrapTokenTtlMs := by
  obtain ⟨hget, hage⟩ := get?_pruneExpiredPending.mp h
  rw [get?_mapValues] at hget
  obtain ⟨stored, hstored, rfl⟩ := map_eq_some_iff.mp hget
  exact ⟨stored, hstored, rfl, hage⟩

theorem findToken_some {state : DeviceBootstrapStateFile} {provided : String}
    (h : findToken state provided = some (key, r)) : state.get? key = some r ∧ provided = r.token := by
  have hpass : verifyPairingToken provided r.token = true := by
    simpa using find?_some h
  exact ⟨(get?_eq_some _ _ _).mpr (mem_of_find?_eq_some h), verifyPairingToken_eq hpass⟩

theorem loadedRecord_token (h : r.token = key) :
    (loadedRecord key r).token = key := by
  simp only [loadedRecord, h, ite_self]

theorem TokenRecordWithin.loaded {issued : String → Option IssuedToken} {accepted : List AcceptedAttempt}
    {t : IssuedToken} (h : TokenRecordWithin issued accepted r t) :
    TokenRecordWithin issued accepted (loadedRecord r.token r) t := by
  have htoken : (loadedRecord r.token r).token = r.token := loadedRecord_token rfl
  refine ⟨(congrArg issued htoken).trans h.issued, h.ts, ?_, fun a ha he => h.bound a ha (he.trans htoken)⟩
  exact (normalize_sameProfile _).trans h.profile

/-- Loading keeps what holds of the store. -/
theorem BootstrapWithin.loaded (hw : BootstrapWithin host h) (now : Nat) :
    BootstrapWithin host { h with file := loadBootstrapState now h.file } where
  keyed hr := by
    obtain ⟨stored, hstored, rfl, _⟩ := get?_loadBootstrapState hr
    exact loadedRecord_token (hw.keyed hstored)
  inForce hr := by
    obtain ⟨stored, hstored, _, _⟩ := get?_loadBootstrapState hr
    exact hw.inForce hstored
  apart r hr := by
    refine eq_none_iff_forall_ne_some.mpr fun found hget => ?_
    obtain ⟨stored, hstored, _, _⟩ := get?_loadBootstrapState hget
    rw [hw.apart r hr] at hstored
    cases hstored
  distinct := hw.distinct
  records hr := by
    rcases hr with ⟨key, hr⟩ | hr
    · obtain ⟨stored, hstored, rfl, _⟩ := get?_loadBootstrapState hr
      obtain ⟨t, ht⟩ := hw.records (.inl ⟨key, hstored⟩)
      rw [← hw.keyed hstored]
      exact ⟨t, ht.loaded⟩
    · exact hw.records (.inr hr)
  accepted := hw.accepted

/-! ### Operations -/

/-- A record written under its token keeps the history in order when it is within it itself, the
other records are, and no record of the token is left handed out. -/
theorem BootstrapWithin.write {next : BootstrapHistory} (hw : BootstrapWithin host h)
    (hfile : next.file = h.file.set record.token record)
    (hrecord : ∃ t, TokenRecordWithin next.issued next.accepted record t)
    (hothers : ∀ r t, r.token ≠ record.token → TokenRecordWithin h.issued h.accepted r t → TokenRecordWithin next.issued next.accepted r t)
    (houtstanding : ∀ r ∈ next.outstanding, r ∈ h.outstanding ∧ r.token ≠ record.token)
    (hdistinct : (next.outstanding.map DeviceBootstrapTokenRecord.token).Nodup)
    (hforce : next.inForce record.token = true)
    (hforces : ∀ key, key ≠ record.token → h.inForce key = true → next.inForce key = true)
    (haccepted : AcceptedWithin host next.issued next.accepted) : BootstrapWithin host next := by
  have hcases : ∀ {key r}, next.file.get? key = some r →
      (key = record.token ∧ r = record) ∨ (key ≠ record.token ∧ h.file.get? key = some r) := by
    intro key r hr
    rw [hfile, get?_set] at hr
    split at hr
    · rename_i he
      cases hr
      exact .inl ⟨he, rfl⟩
    · rename_i hne
      exact .inr ⟨hne, hr⟩
  refine ⟨?_, ?_, ?_, hdistinct, ?_, haccepted⟩
  · intro key r hr
    rcases hcases hr with ⟨rfl, rfl⟩ | ⟨_, hr⟩
    · rfl
    · exact hw.keyed hr
  · intro key r hr
    rcases hcases hr with ⟨rfl, rfl⟩ | ⟨hne, hr⟩
    · exact hforce
    · exact hforces key hne (hw.inForce hr)
  · intro r hr
    obtain ⟨hr, hne⟩ := houtstanding r hr
    rw [hfile, get?_set, if_neg hne]
    exact hw.apart r hr
  · intro r hr
    rcases hr with ⟨key, hr⟩ | hr
    · rcases hcases hr with ⟨rfl, rfl⟩ | ⟨hne, hr⟩
      · exact hrecord
      · obtain ⟨t, ht⟩ := hw.records (.inl ⟨key, hr⟩)
        exact ⟨t, hothers r t (hw.keyed hr ▸ hne) ht⟩
    · obtain ⟨hr, hne⟩ := houtstanding r hr
      obtain ⟨t, ht⟩ := hw.records (.inr hr)
      exact ⟨t, hothers r t hne ht⟩

/-- The record of a token in the store is not handed out. -/
theorem BootstrapWithin.outstanding_ne (hw : BootstrapWithin host h) (hget : h.file.get? key = some record) :
    ∀ r ∈ h.outstanding, r ∈ h.outstanding ∧ r.token ≠ record.token := by
  intro r hr
  refine ⟨hr, fun he => ?_⟩
  have hnone := hw.apart r hr
  rw [he, hw.keyed hget, hget] at hnone
  cases hnone

theorem issue_within (hw : BootstrapWithin host h) {params : IssueParams} (hfresh : h.issued token = none) :
    BootstrapWithin host { h with
      file := (issueDeviceBootstrapToken params token now h.file).2
      issued := Function.update h.issued token
        (some ⟨resolveIssuedBootstrapProfile params.profile params.roles params.scopes, now⟩)
      inForce := Function.update h.inForce token true } := by
  have hload := hw.loaded now
  have hne : ∀ {token' t}, h.issued token' = some t → token' ≠ token := by
    intro token' t ht he
    rw [he, hfresh] at ht
    cases ht
  have hrecord : TokenRecordWithin (Function.update h.issued token
      (some ⟨resolveIssuedBootstrapProfile params.profile params.roles params.scopes, now⟩)) h.accepted
      { token, ts := now,
        profile := some (resolveIssuedBootstrapProfile params.profile params.roles params.scopes),
        redeemedProfile := some (normalizeDeviceBootstrapProfile {}), issuedAtMs := now }
      ⟨resolveIssuedBootstrapProfile params.profile params.roles params.scopes, now⟩ := by
    refine ⟨Function.update_self .., rfl, issued_sameProfile .., ?_⟩
    intro a ha he
    obtain ⟨t, ht, _⟩ := hw.accepted.allowed a ha
    exact absurd he (hne ht)
  refine hload.write rfl ⟨_, hrecord⟩ ?_ ?_ hload.distinct (Function.update_self token true h.inForce) ?_ ?_
  · intro r t hr ht
    exact ⟨(Function.update_of_ne hr ..).trans ht.issued, ht.ts, ht.profile, ht.bound⟩
  · intro r hr
    obtain ⟨t, ht⟩ := hw.records (.inr hr)
    exact ⟨hr, hne ht.issued⟩
  · intro key hkey hforce
    exact (Function.update_of_ne hkey ..).trans hforce
  · refine ⟨fun a ha => ?_, hw.accepted.agreed, hw.accepted.device, hw.accepted.key⟩
    obtain ⟨t, ht, hallow⟩ := hw.accepted.allowed a ha
    exact ⟨t, (Function.update_of_ne (hne ht) ..).trans ht, hallow⟩

/-- What an attempt that passes has gone through. -/
theorem verify_passed (h : verifyDeviceBootstrapToken host params now st = (.ok (), file)) :
    ∃ key record, findToken (loadBootstrapState now st) (trim params.token) = some (key, record) ∧
      (params.attempt host).deviceId ≠ "" ∧ (params.attempt host).publicKey ≠ "" ∧
      bootstrapProfileAllowsRequest (resolvePersistedBootstrapProfile record) (trim params.role) params.scopes = true ∧
      ((record.deviceId.map trim).getD "" ≠ "" → record.deviceId.map trim = some (params.attempt host).deviceId ∧
        record.publicKey.map (normalizeBootstrapPublicKey host) = some (params.attempt host).publicKey) ∧
      file = (loadBootstrapState now st).set key (bindRecord record (resolvePersistedBootstrapProfile record)
        (params.attempt host).deviceId (params.attempt host).publicKey now) := by
  simp only [verifyDeviceBootstrapToken] at h
  split at h
  · cases (Prod.mk.inj h).1
  · split at h
    · cases (Prod.mk.inj h).1
    · rename_i key record hfound
      split_ifs at h with hblank hrefused hbound
      · cases (Prod.mk.inj h).1
      · cases (Prod.mk.inj h).1
      · cases (Prod.mk.inj h).1
      · obtain ⟨hid, hkey, _⟩ := not_or.mp hblank |>.imp_right not_or.mp
        have hallow := (not_or.mp hrefused).2
        refine ⟨key, record, hfound, hid, hkey, by simpa using hallow, fun hdevice => ?_, (Prod.mk.inj h).2.symm⟩
        simp only [Bool.and_eq_true, Bool.or_eq_true, bne_iff_ne, not_and, not_or, ne_eq, not_not] at hbound
        exact hbound (.inl hdevice)

theorem verify_within (hpem : host.ReadsPemOnly) (hw : BootstrapWithin host h)
    (hok : verifyDeviceBootstrapToken host params now h.file = (.ok (), file)) :
    BootstrapWithin host { h with file, accepted := h.accepted ++ [params.attempt host] } := by
  obtain ⟨key, record, hfound, hid, hkey, hallow, hbound, rfl⟩ := verify_passed hok
  obtain ⟨hget, htoken⟩ := findToken_some hfound
  have hload := hw.loaded now
  have hrecordKey : record.token = key := hload.keyed hget
  obtain ⟨t, ht⟩ := hload.records (.inl ⟨key, hget⟩)
  -- An attempt accepted before left the record bound to its device, so this one carries the same.
  have hagree : ∀ a ∈ h.accepted, a.token = (params.attempt host).token →
      a.deviceId = (params.attempt host).deviceId ∧ a.publicKey = (params.attempt host).publicKey := by
    intro a ha he
    obtain ⟨hdevice, hpublic⟩ := ht.bound a ha (he.trans htoken)
    obtain ⟨hnonblank, htrim⟩ := hw.accepted.device a ha
    rw [hdevice, hpublic, map_some, map_some, htrim, (hw.accepted.key a ha).2] at hbound
    obtain ⟨hsameId, hsameKey⟩ := hbound hnonblank
    exact ⟨Option.some.inj hsameId, Option.some.inj hsameKey⟩
  have hown : ∀ a ∈ h.accepted ++ [params.attempt host], a.token = (params.attempt host).token →
      a.deviceId = (params.attempt host).deviceId ∧ a.publicKey = (params.attempt host).publicKey := by
    intro a ha he
    rcases mem_append.mp ha with ha | ha
    · exact hagree a ha he
    · rw [mem_singleton.mp ha]
      exact ⟨rfl, rfl⟩
  have hbind : TokenRecordWithin h.issued (h.accepted ++ [params.attempt host])
      (bindRecord record (resolvePersistedBootstrapProfile record) (params.attempt host).deviceId
        (params.attempt host).publicKey now) t := by
    refine ⟨ht.issued, ht.ts, (normalize_sameProfile _).trans ht.profile, fun a ha he => ?_⟩
    obtain ⟨hsameId, hsameKey⟩ := hown a ha (he.trans htoken.symm)
    exact ⟨congrArg some hsameId.symm, congrArg some hsameKey.symm⟩
  have houtstanding := hload.outstanding_ne hget
  refine hload.write (by rw [← hrecordKey]; rfl) ⟨t, hbind⟩ ?_ houtstanding hload.distinct ?_ ?_ ?_
  · intro r t hr ht
    refine ⟨ht.issued, ht.ts, ht.profile, fun a ha he => ?_⟩
    rcases mem_append.mp ha with ha | ha
    · exact ht.bound a ha he
    · rw [mem_singleton.mp ha] at he
      exact absurd (he.symm.trans htoken) hr
  · exact hload.inForce (hrecordKey ▸ hget)
  · exact fun _ _ hforce => hforce
  · refine ⟨fun a ha => ?_, fun a ha b hb he => ?_, fun a ha => ?_, fun a ha => ?_⟩
    · rcases mem_append.mp ha with ha | ha
      · exact hw.accepted.allowed a ha
      · rw [mem_singleton.mp ha]
        obtain ⟨hrole, hscopes⟩ := ht.profile.allows hallow
        exact ⟨t, (congrArg h.issued htoken).trans ht.issued, hrole, hscopes⟩
    · rcases mem_append.mp ha with ha' | ha'
      · rcases mem_append.mp hb with hb' | hb'
        · exact hw.accepted.agreed a ha' b hb' he
        · rw [mem_singleton.mp hb'] at he ⊢
          exact hown a ha he
      · rw [mem_singleton.mp ha'] at he ⊢
        obtain ⟨hsameId, hsameKey⟩ := hown b hb he.symm
        exact ⟨hsameId.symm, hsameKey.symm⟩
    · rcases mem_append.mp ha with ha | ha
      · exact hw.accepted.device a ha
      · rw [mem_singleton.mp ha]
        exact ⟨hid, trim_trim _⟩
    · rcases mem_append.mp ha with ha | ha
      · exact hw.accepted.key a ha
      · rw [mem_singleton.mp ha]
        exact ⟨hkey, normalizeBootstrapPublicKey_idem hpem _⟩

/-- A check that does not pass leaves the store as it is. -/
theorem verify_refused {reason : String} (h : verifyDeviceBootstrapToken host params now st = (.error reason, file)) :
    file = st := by
  simp only [verifyDeviceBootstrapToken] at h
  split at h
  · exact (Prod.mk.inj h).2.symm
  · split at h
    · exact (Prod.mk.inj h).2.symm
    · split_ifs at h
      · exact (Prod.mk.inj h).2.symm
      · exact (Prod.mk.inj h).2.symm
      · exact (Prod.mk.inj h).2.symm
      · cases (Prod.mk.inj h).1

theorem redeem_within (hw : BootstrapWithin host h) {role : String} {scopes : List String} :
    BootstrapWithin host { h with file := (redeemDeviceBootstrapTokenProfile token role scopes now h.file).2 } := by
  simp only [redeemDeviceBootstrapTokenProfile]
  split
  · exact hw
  · split
    · exact hw
    · rename_i key record hfound
      obtain ⟨hget, _⟩ := findToken_some hfound
      have hload := hw.loaded now
      have hrecordKey : record.token = key := hload.keyed hget
      obtain ⟨t, ht⟩ := hload.records (.inl ⟨key, hget⟩)
      subst hrecordKey
      have houtstanding := hload.outstanding_ne hget
      have hforce := hload.inForce hget
      have hredeemed : ∀ redeemed, TokenRecordWithin h.issued h.accepted
          { record with profile := some (resolvePersistedBootstrapProfile record), redeemedProfile := redeemed } t :=
        fun _ => ⟨ht.issued, ht.ts, (normalize_sameProfile _).trans ht.profile, ht.bound⟩
      exact hload.write rfl ⟨t, hredeemed _⟩ (fun _ _ _ ht => ht) houtstanding hload.distinct hforce
        (fun _ _ hforce => hforce) hload.accepted

/-- A record that a revocation hands out leaves the store. -/
theorem revoke_found (h : revokeDeviceBootstrapToken token now st = (some record, file)) :
    ∃ key, (loadBootstrapState now st).get? key = some record ∧ file = (loadBootstrapState now st).erase key := by
  simp only [revokeDeviceBootstrapToken] at h
  split at h
  · cases (Prod.mk.inj h).1
  · split at h
    · cases (Prod.mk.inj h).1
    · rename_i key found hfound
      cases h
      exact ⟨key, (findToken_some hfound).1, rfl⟩

theorem revoke_none (h : revokeDeviceBootstrapToken token now st = (none, file)) : file = st := by
  simp only [revokeDeviceBootstrapToken] at h
  split at h
  · exact (Prod.mk.inj h).2.symm
  · split at h
    · exact (Prod.mk.inj h).2.symm
    · cases (Prod.mk.inj h).1

theorem revoke_within (hw : BootstrapWithin host h) {returned : List DeviceBootstrapTokenRecord}
    (hrevoke : revokeDeviceBootstrapToken token now h.file = (some record, file)) :
    BootstrapWithin host { h with
      file
      inForce := Function.update h.inForce record.token false
      returned
      outstanding := record :: h.outstanding } := by
  obtain ⟨key, hget, rfl⟩ := revoke_found hrevoke
  have hload := hw.loaded now
  have hkey : record.token = key := hload.keyed hget
  subst hkey
  have hkept : ∀ {key r}, ((loadBootstrapState now h.file).erase record.token).get? key = some r →
      key ≠ record.token ∧ (loadBootstrapState now h.file).get? key = some r := by
    intro key r hr
    rw [get?_erase] at hr
    split at hr
    · cases hr
    · rename_i hne
      exact ⟨hne, hr⟩
  refine ⟨fun hr => hload.keyed (hkept hr).2, fun hr => ?_, fun r hr => ?_, ?_, fun hr => ?_, hw.accepted⟩
  · exact (Function.update_of_ne (hkept hr).1 ..).trans (hload.inForce (hkept hr).2)
  · refine eq_none_iff_forall_ne_some.mpr fun found hfound => ?_
    obtain ⟨hne, hfound⟩ := hkept hfound
    rcases mem_cons.mp hr with rfl | hr
    · exact hne rfl
    · have hnone : (loadBootstrapState now h.file).get? r.token = none := hload.apart r hr
      rw [hnone] at hfound
      cases hfound
  · refine nodup_cons.mpr ⟨fun hmem => ?_, hw.distinct⟩
    obtain ⟨r, hr, he⟩ := List.mem_map.mp hmem
    exact (hload.outstanding_ne hget r hr).2 he
  · rcases hr with ⟨key, hr⟩ | hr
    · exact hload.records (.inl ⟨key, (hkept hr).2⟩)
    · rcases mem_cons.mp hr with rfl | hr
      · exact hload.records (.inl ⟨_, hget⟩)
      · exact hw.records (.inr hr)

theorem restore_within (hw : BootstrapWithin host h) (hmem : record ∈ h.outstanding) :
    BootstrapWithin host { h with
      file := restoreDeviceBootstrapToken record now h.file
      inForce := Function.update h.inForce record.token true
      outstanding := h.outstanding.erase record } := by
  have hload := hw.loaded now
  have hnodup : h.outstanding.Nodup := hw.distinct.of_map _
  refine hload.write rfl (hw.records (.inr hmem)) (fun _ _ _ ht => ht) ?_ ?_
    (Function.update_self record.token true h.inForce) ?_ hw.accepted
  · intro r hr
    obtain ⟨hne, hr⟩ := hnodup.mem_erase_iff.mp hr
    exact ⟨hr, fun he => hne (inj_on_of_nodup_map hw.distinct hr hmem he)⟩
  · exact hw.distinct.sublist (erase_sublist.map _)
  · intro key hkey hforce
    exact (Function.update_of_ne hkey ..).trans hforce

theorem clear_within_history (hw : BootstrapWithin host h) :
    BootstrapWithin host { h with file := ∅, inForce := fun _ => false } where
  keyed hr := by cases hr
  inForce hr := by cases hr
  apart _ _ := rfl
  distinct := hw.distinct
  records hr := by
    rcases hr with ⟨_, hr⟩ | hr
    · cases hr
    · exact hw.records (.inr hr)
  accepted := hw.accepted

theorem bootstrapTokens_within (hpem : host.ReadsPemOnly) {e : BootstrapEvent} {next : BootstrapHistory}
    (hw : BootstrapWithin host h) (hfresh : DrawsFresh e h) (honce : RestoresOnce e h)
    (hstep : bootstrapTokens host e h = some next) : BootstrapWithin host next := by
  obtain ⟨now, call⟩ := e
  cases call with
  | issue params token =>
    cases hstep
    exact issue_within hw (isNone_iff_eq_none.mp hfresh)
  | verify params =>
    cases hverify : verifyDeviceBootstrapToken host params now h.file with
    | mk result file =>
      simp only [bootstrapTokens, hverify] at hstep
      cases result with
      | ok =>
        cases hstep
        exact verify_within hpem hw hverify
      | error reason =>
        cases hstep
        rw [verify_refused hverify]
        exact hw
  | redeem token role scopes =>
    cases hstep
    exact redeem_within hw
  | revoke token =>
    cases hrevoke : revokeDeviceBootstrapToken token now h.file with
    | mk record file =>
      simp only [bootstrapTokens, hrevoke] at hstep
      cases record with
      | none =>
        cases hstep
        rw [revoke_none hrevoke]
        exact hw
      | some record =>
        cases hstep
        exact revoke_within hw hrevoke
  | restore record =>
    simp only [bootstrapTokens] at hstep
    split at hstep
    · cases hstep
      exact restore_within hw honce
    · cases hstep
  | clear =>
    cases hstep
    exact clear_within_history hw
  | _ =>
    cases hstep
    exact hw

/-! ### Runs -/

/-- Along every run in which tokens are drawn fresh and each record handed out is put back once at
most: all attempts that passed with one token carry one device id and one public key, each a role
and scopes of the profile the token was issued with; and an attempt passes only with a token that is
in force and not older than its time to live. -/
theorem bootstrap_token_serves_one_device {host : KeyHost} (hpem : host.ReadsPemOnly)
    {events : List BootstrapEvent} {h : BootstrapHistory} (hrun : (bootstrapTokens host).run events {} = some h)
    (hwithin : (bootstrapTokens host).Within (fun e h => DrawsFresh e h ∧ RestoresOnce e h) events {}) :
    (∀ a ∈ h.accepted, ∀ b ∈ h.accepted, a.token = b.token →
      a.deviceId = b.deviceId ∧ a.publicKey = b.publicKey) ∧
    (∀ a ∈ h.accepted, ∃ t, h.issued a.token = some t ∧ a.role ∈ t.profile.roles ∧
      roleScopesAllow a.role a.scopes t.profile.scopes = true) ∧
    (∀ params now file, verifyDeviceBootstrapToken host params now h.file = (.ok (), file) →
      h.inForce (trim params.token) = true ∧ ∃ t, h.issued (trim params.token) = some t ∧
        now ≤ t.issuedAtMs + deviceBootstrapTokenTtlMs) := by
  have hw : BootstrapWithin host h := (bootstrapTokens host).run_within_invariant (I := BootstrapWithin host)
    (fun _ _ _ hw hc he => bootstrapTokens_within hpem hw hc.1 hc.2 he) events (bootstrapWithin_empty host)
    hwithin hrun
  refine ⟨hw.accepted.agreed, hw.accepted.allowed, fun params now file hok => ?_⟩
  obtain ⟨key, record, hfound, _⟩ := verify_passed hok
  obtain ⟨hget, htoken⟩ := findToken_some hfound
  have hload := hw.loaded now
  have hkey : record.token = key := hload.keyed hget
  obtain ⟨t, ht⟩ := hload.records (.inl ⟨key, hget⟩)
  obtain ⟨_, _, _, hage⟩ := get?_loadBootstrapState hget
  refine ⟨?_, t, htoken ▸ ht.issued, ht.ts ▸ hage⟩
  rw [htoken, hkey]
  exact hload.inForce hget

/-! ### A record restored twice -/

/-- A host whose keys are plain texts. -/
def plainKeys : KeyHost := ⟨fun _ => [], fun _ => none⟩

/-- The record a revocation hands out, not bound yet. -/
def unboundRecord : DeviceBootstrapTokenRecord :=
  { token := "token", ts := 0, profile := some ⟨["node"], []⟩, redeemedProfile := some ⟨[], []⟩, issuedAtMs := 0 }

def attemptBy (deviceId : String) : BootstrapVerifyParams :=
  { token := "token", deviceId, publicKey := "key-" ++ deviceId, role := "node", scopes := [] }

/-- Issued, revoked, restored, and used by the phone. -/
def restoredRun : List BootstrapEvent :=
  [⟨0, .issue { roles := some ["node"] } "token"⟩, ⟨1, .revoke "token"⟩, ⟨2, .restore unboundRecord⟩,
    ⟨3, .verify (attemptBy "phone")⟩]

/-- Restored once more, and used by another device. -/
def restoredTwiceRun : List BootstrapEvent :=
  restoredRun ++ [⟨4, .restore unboundRecord⟩, ⟨5, .verify (attemptBy "tablet")⟩]

/-- A record restored twice, with an attempt between, serves two devices. -/
theorem restored_twice_rebinds : ∃ h a b, (bootstrapTokens plainKeys).run restoredTwiceRun {} = some h ∧
    (bootstrapTokens plainKeys).Within DrawsFresh restoredTwiceRun {} ∧ a ∈ h.accepted ∧ b ∈ h.accepted ∧
    a.token = b.token ∧ a.deviceId ≠ b.deviceId ∧ a.publicKey ≠ b.publicKey := by
  have hmap : ((bootstrapTokens plainKeys).run restoredTwiceRun {}).map (fun h => h.accepted) =
      some [(attemptBy "phone").attempt plainKeys, (attemptBy "tablet").attempt plainKeys] := by decide
  obtain ⟨h, hrun, haccepted⟩ := map_eq_some_iff.mp hmap
  refine ⟨h, (attemptBy "phone").attempt plainKeys, (attemptBy "tablet").attempt plainKeys, hrun,
    by decide, ?_, ?_, rfl, by decide, by decide⟩
  · rw [haccepted]
    exact mem_cons_self
  · rw [haccepted]
    exact mem_cons_of_mem _ mem_cons_self

theorem restored_once_serves_one_device : ∃ h, (bootstrapTokens plainKeys).run restoredRun {} = some h ∧
    (∀ a ∈ h.accepted, ∃ t, h.issued a.token = some t ∧ a.role ∈ t.profile.roles ∧
      roleScopesAllow a.role a.scopes t.profile.scopes = true) ∧ h.accepted.length = 1 := by
  have hmap : ((bootstrapTokens plainKeys).run restoredRun {}).map (fun h => h.accepted.length) = some 1 := by
    decide
  obtain ⟨h, hrun, hone⟩ := map_eq_some_iff.mp hmap
  exact ⟨h, hrun, (bootstrap_token_serves_one_device (fun _ _ => rfl) hrun (by decide)).2.1, hone⟩

end OpenClaw.Pairing
