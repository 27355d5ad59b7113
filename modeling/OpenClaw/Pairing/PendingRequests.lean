import OpenClaw.Pairing.DevicePairing

/-! Pending requests grant what they showed.

An owner sees a request and approves it by its id, later. What the id stands for
is therefore fixed: `PendingWellFormed` says that each request stands under its
own id and that a device has one at most, and `pending_origin` that a request
found under an id after an operation was there before with the same content,
or is the replacement this operation built under the id it drew. With ids drawn
fresh, the content of an id never changes (`pending_content_stable`). -/
namespace OpenClaw.Pairing

open Foundation Foundation.EcmaString List InsertionMap

/-- What an approval grants: the device, its key, its roles and its scopes. -/
structure RequestContent where
  deviceId : String
  publicKey : String
  role : Option String
  roles : Option (List String)
  scopes : Option (List String)
deriving DecidableEq

def DevicePairingPendingRequest.content (p : DevicePairingPendingRequest) : RequestContent where
  deviceId := p.deviceId
  publicKey := p.publicKey
  role := p.role
  roles := p.roles
  scopes := p.scopes

/-- The roles a request asks for. -/
def DevicePairingPendingRequest.requestedRoles (p : DevicePairingPendingRequest) : List String :=
  p.roles.getD [] ++ p.role.toList

/-- The scopes a request asks for. -/
def DevicePairingPendingRequest.requestedScopes (p : DevicePairingPendingRequest) : List String :=
  p.scopes.getD []

/-! ### Merged lists -/

theorem mergeRoles_getD (items : List (Option (List String))) :
    (mergeRoles items).getD [] = trimmedSet (items.flatMap fun item => item.getD []) := by
  simp only [mergeRoles]
  split
  · rename_i h
    rw [List.isEmpty_iff.mp h]
    rfl
  · rfl

theorem mergeScopes_getD (items : List (Option (List String))) :
    (mergeScopes items).getD [] = trimmedSet (items.flatMap fun item => item.getD []) := by
  simp only [mergeScopes]
  split
  · rename_i h
    rw [List.isEmpty_iff.mp h]
    split <;> rfl
  · rfl

variable {items : List (Option (List String))} {r deviceId uuid id : String}
  {st next s t : DevicePairingStateFile} {p : DevicePairingPendingRequest} {req : DevicePairingRequest}
  {now : Nat} {result : PendingPairingRequestResult DevicePairingPendingRequest} {isRepair : Bool}
  {existing : List DevicePairingPendingRequest}

theorem mem_mergeRoles :
    r ∈ (mergeRoles items).getD [] ↔ ∃ item ∈ items, ∃ s ∈ item.getD [], trimmed s = some r := by
  rw [mergeRoles_getD]
  simp only [mem_trimmedSet, mem_flatMap]
  constructor
  · rintro ⟨s, ⟨item, hitem, hs⟩, hr⟩
    exact ⟨item, hitem, s, hs, hr⟩
  · rintro ⟨item, hitem, s, hs, hr⟩
    exact ⟨s, ⟨item, hitem, hs⟩, hr⟩

theorem mem_mergeScopes :
    r ∈ (mergeScopes items).getD [] ↔ ∃ item ∈ items, ∃ s ∈ item.getD [], trimmed s = some r := by
  rw [mergeScopes_getD, ← mergeRoles_getD, mem_mergeRoles]

@[simp] theorem single_getD (role : Option String) : (single role).getD [] = role.toList := by
  cases role <;> rfl

theorem trimmed_of_mem_mergeRoles (h : r ∈ (mergeRoles items).getD []) : trimmed r = some r := by
  rw [mergeRoles_getD] at h
  exact trimmed_of_mem_trimmedSet h

theorem trimmed_of_mem_mergeScopes (h : r ∈ (mergeScopes items).getD []) : trimmed r = some r := by
  rw [mergeScopes_getD] at h
  exact trimmed_of_mem_trimmedSet h

/-! ### Well-formed requests -/

/-- Each request stands under its own id, a device has one at most, and what is asked for is
trimmed. -/
structure PendingWellFormed (pendingById : InsertionMap String DevicePairingPendingRequest) : Prop where
  keyed : ∀ {id p}, pendingById.get? id = some p → p.requestId = id
  alone : ∀ {id id' p p'}, pendingById.get? id = some p → pendingById.get? id' = some p' →
    p.deviceId = p'.deviceId → id = id'
  trimmedRoles : ∀ {id p}, pendingById.get? id = some p → ∀ r ∈ p.requestedRoles, trimmed r = some r
  trimmedScopes : ∀ {id p}, pendingById.get? id = some p → ∀ s ∈ p.requestedScopes, trimmed s = some s
  trimmedId : ∀ {id p}, pendingById.get? id = some p → trim p.deviceId = p.deviceId

/-- Deleting requests keeps the rest well formed. -/
theorem PendingWellFormed.sub {m next : InsertionMap String DevicePairingPendingRequest}
    (h : PendingWellFormed m) (hsub : ∀ id p, next.get? id = some p → m.get? id = some p) :
    PendingWellFormed next where
  keyed hp := h.keyed (hsub _ _ hp)
  alone hp hp' := h.alone (hsub _ _ hp) (hsub _ _ hp')
  trimmedRoles hp := h.trimmedRoles (hsub _ _ hp)
  trimmedScopes hp := h.trimmedScopes (hsub _ _ hp)
  trimmedId hp := h.trimmedId (hsub _ _ hp)

theorem pendingWellFormed_empty : PendingWellFormed ∅ where
  keyed hp := by cases hp
  alone hp := by cases hp
  trimmedRoles hp := by cases hp
  trimmedScopes hp := by cases hp
  trimmedId hp := by cases hp

theorem PendingWellFormed.loaded (h : PendingWellFormed st.pendingById) (now : Nat) :
    PendingWellFormed (loadState now st).pendingById :=
  h.sub fun _ _ hp => (get?_loadState.mp hp).1

theorem mem_pendingForDevice :
    p ∈ pendingForDevice st deviceId ↔ (∃ id, st.pendingById.get? id = some p) ∧ p.deviceId = deviceId := by
  simp [pendingForDevice, mem_insertionSort, mem_values]

/-! ### One request -/

/-- The two things a request can do: refresh the device's one pending request where it stands, or
replace those it has by one under the id drawn for it. -/
theorem request_cases (h : requestDevicePairing req uuid now st = (.ok result, next)) :
    (∃ existing isRepair, pendingForDevice (loadState now st) (normalizeDeviceId req.deviceId) = [existing] ∧
      samePendingApprovalSnapshot existing req = true ∧
      result = ⟨refreshPendingDevicePairingRequest existing req isRepair now, false⟩ ∧
      next = { loadState now st with pendingById :=
        (loadState now st).pendingById.set existing.requestId result.request }) ∨
    (∃ isRepair, result = ⟨buildReplacement uuid (normalizeDeviceId req.deviceId) isRepair req now
        (pendingForDevice (loadState now st) (normalizeDeviceId req.deviceId)), true⟩ ∧
      next = { loadState now st with pendingById :=
        ((pendingForDevice (loadState now st) (normalizeDeviceId req.deviceId)).foldl
          (fun m p => m.erase p.requestId) (loadState now st).pendingById).set uuid result.request }) := by
  simp only [requestDevicePairing] at h
  split at h
  · cases (Prod.mk.inj h).1
  · generalize hrec : reconcilePendingPairingRequests _ _ _ _ _ _ = reconciled at h
    cases h
    rcases reconcile_cases hrec with ⟨existing, hexisting, hcan, hresult, hnext⟩ | ⟨hresult, hnext⟩
    · rw [hresult, hnext]
      exact .inl ⟨existing, _, hexisting, hcan, rfl, rfl⟩
    · rw [hresult, hnext]
      exact .inr ⟨_, rfl, rfl⟩

/-- A refresh changes nothing an approval grants. -/
theorem refresh_content {existing : DevicePairingPendingRequest} (h : samePendingApprovalSnapshot existing req = true) :
    (refreshPendingDevicePairingRequest existing req isRepair now).content = existing.content := by
  simp only [samePendingApprovalSnapshot, Bool.and_eq_true, beq_iff_eq] at h
  simp [DevicePairingPendingRequest.content, refreshPendingDevicePairingRequest, h.1.1.1]

theorem buildReplacement_role (h : (buildReplacement uuid deviceId isRepair req now existing).role = some r) :
    trimmed r = some r := by
  simp only [buildReplacement, buildPendingDevicePairingRequest, normalizeRole] at h
  exact trimmed_trimmed? h

theorem buildReplacement_roles :
    ∀ r ∈ (buildReplacement uuid deviceId isRepair req now existing).requestedRoles, trimmed r = some r := by
  intro r hr
  rcases mem_append.mp hr with hr | hr
  · exact trimmed_of_mem_mergeRoles hr
  · exact buildReplacement_role (Option.mem_toList.mp hr)

theorem buildReplacement_scopes :
    ∀ s ∈ (buildReplacement uuid deviceId isRepair req now existing).requestedScopes, trimmed s = some s :=
  fun _ hs => trimmed_of_mem_mergeScopes hs

/-- A replacement asks for every trimmed role its predecessors asked for. -/
theorem buildReplacement_carries_role (hp : p ∈ existing) (hr : r ∈ p.requestedRoles) (htrim : trimmed r = some r) :
    r ∈ (buildReplacement uuid deviceId isRepair req now existing).requestedRoles := by
  refine mem_append_left _ (mem_mergeRoles.mpr ?_)
  refine ⟨_, mem_cons_self, r, mem_mergeRoles.mpr ?_, htrim⟩
  rcases mem_append.mp hr with hr | hr
  · exact ⟨p.roles, mem_append_left _ (mem_flatMap.mpr ⟨p, hp, by simp⟩), r, hr, htrim⟩
  · exact ⟨single p.role, mem_append_left _ (mem_flatMap.mpr ⟨p, hp, by simp⟩), r,
      by simpa using hr, htrim⟩

/-- A replacement asks for every trimmed scope its predecessors asked for. -/
theorem buildReplacement_carries_scope (hp : p ∈ existing) {s : String} (hs : s ∈ p.requestedScopes)
    (htrim : trimmed s = some s) :
    s ∈ (buildReplacement uuid deviceId isRepair req now existing).requestedScopes := by
  refine mem_mergeScopes.mpr ⟨_, mem_singleton_self _, s, mem_mergeScopes.mpr ?_, htrim⟩
  exact ⟨p.scopes, mem_append_left _ (mem_map_of_mem hp), s, hs, htrim⟩

/-- A replacement is silent only if all it replaces and the new request are. -/
theorem buildReplacement_silent (h : (buildReplacement uuid deviceId isRepair req now existing).silent = some true) :
    req.silent = some true ∧ ∀ p ∈ existing, p.silent = some true := by
  simpa [buildReplacement, buildPendingDevicePairingRequest, resolveSupersededPendingSilent] using h

/-! ### One operation -/

/-- An operation that is not a request only deletes requests. -/
theorem Moved.pending_sub {call : PairingCall} (h : Moved now st call next)
    (hcall : ∀ req uuid, call ≠ .request req uuid) (hp : next.pendingById.get? id = some p) :
    st.pendingById.get? id = some p := by
  have herase : ∀ id', ((loadState now st).pendingById.erase id').get? id = some p →
      st.pendingById.get? id = some p := by
    intro id' h
    rw [get?_erase] at h
    split at h
    · cases h
    · exact (get?_loadState.mp h).1
  cases h with
  | same => exact hp
  | requested => exact absurd rfl (hcall _ _)
  | approved | bootstrapped | rejected => exact herase _ hp
  | _ => exact (get?_loadState.mp hp).1

/-- A request found after a request was made is an earlier one, the refresh of an earlier one
under the same id, or the replacement under the id drawn. -/
theorem request_origin (hst : PendingWellFormed st.pendingById)
    (h : requestDevicePairing req uuid now st = (.ok result, next)) (hp : next.pendingById.get? id = some p) :
    (∃ q, st.pendingById.get? id = some q ∧ p.content = q.content) ∨ id = uuid := by
  rcases request_cases h with ⟨existing, isRepair, hexisting, hsame, rfl, rfl⟩ | ⟨isRepair, rfl, rfl⟩
  · obtain ⟨⟨id', hid'⟩, _⟩ := mem_pendingForDevice.mp (hexisting ▸ mem_singleton_self existing)
    have hkey := (hst.loaded now).keyed hid'
    rw [get?_set] at hp
    split at hp
    · rename_i hid
      cases hp
      refine .inl ⟨existing, ?_, refresh_content hsame⟩
      rw [hid, hkey]
      exact (get?_loadState.mp hid').1
    · exact .inl ⟨p, (get?_loadState.mp hp).1, rfl⟩
  · rw [get?_set] at hp
    split at hp
    · rename_i hid
      exact .inr hid
    · exact .inl ⟨p, (get?_loadState.mp (get?_eraseAll.mp hp).1).1, rfl⟩

/-- The id an operation draws for a request. -/
def drawnId (e : PairingEvent) : Option String :=
  match e.call with
  | .request _ uuid => some uuid
  | _ => none

/-- A request found after an operation was there before with the same content, or stands under
the id the operation drew. -/
theorem pending_origin {e : PairingEvent} (hst : PendingWellFormed st.pendingById)
    (hp : (e.call.after e.now st).pendingById.get? id = some p) :
    (∃ q, st.pendingById.get? id = some q ∧ p.content = q.content) ∨ drawnId e = some id := by
  obtain ⟨now, call⟩ := e
  have hmoved := after_moved call now st
  generalize call.after now st = next at hmoved hp
  by_cases hcall : ∃ req uuid, call = .request req uuid
  · obtain ⟨req, uuid, rfl⟩ := hcall
    cases hmoved with
    | same => exact .inl ⟨p, hp, rfl⟩
    | requested hok =>
      rcases request_origin hst hok hp with hq | rfl
      · exact .inl hq
      · exact .inr rfl
    | tokenWritten => exact .inl ⟨p, (get?_loadState.mp hp).1, rfl⟩
  · exact .inl ⟨p, hmoved.pending_sub (fun req uuid he => hcall ⟨req, uuid, he⟩) hp, rfl⟩

theorem PendingWellFormed.set {m : InsertionMap String DevicePairingPendingRequest} (h : PendingWellFormed m)
    (hkey : p.requestId = id) (halone : ∀ id' q, m.get? id' = some q → q.deviceId = p.deviceId → id' = id)
    (hroles : ∀ r ∈ p.requestedRoles, trimmed r = some r) (hscopes : ∀ s ∈ p.requestedScopes, trimmed s = some s)
    (hid : trim p.deviceId = p.deviceId) : PendingWellFormed (m.set id p) := by
  have hcases : ∀ {id' q}, (m.set id p).get? id' = some q → (id' = id ∧ q = p) ∨ m.get? id' = some q := by
    intro id' q hq
    rw [get?_set] at hq
    split at hq
    · rename_i he
      cases hq
      exact .inl ⟨he, rfl⟩
    · exact .inr hq
  constructor
  · intro id' q hq
    rcases hcases hq with ⟨rfl, rfl⟩ | hq
    · exact hkey
    · exact h.keyed hq
  · intro id₁ id₂ q₁ q₂ h₁ h₂ hdev
    rcases hcases h₁ with ⟨he₁, hq₁⟩ | hm₁ <;> rcases hcases h₂ with ⟨he₂, hq₂⟩ | hm₂
    · rw [he₁, he₂]
    · rw [he₁, halone _ _ hm₂ (hq₁ ▸ hdev.symm)]
    · rw [he₂, halone _ _ hm₁ (hq₂ ▸ hdev)]
    · exact h.alone hm₁ hm₂ hdev
  · intro id' q hq
    rcases hcases hq with ⟨_, rfl⟩ | hq
    · exact hroles
    · exact h.trimmedRoles hq
  · intro id' q hq
    rcases hcases hq with ⟨_, rfl⟩ | hq
    · exact hscopes
    · exact h.trimmedScopes hq
  · intro id' q hq
    rcases hcases hq with ⟨_, rfl⟩ | hq
    · exact hid
    · exact h.trimmedId hq

theorem request_wellFormed (hst : PendingWellFormed st.pendingById)
    (h : requestDevicePairing req uuid now st = (.ok result, next)) :
    PendingWellFormed next.pendingById := by
  have hload := hst.loaded now
  rcases request_cases h with ⟨existing, isRepair, hexisting, hsame, rfl, rfl⟩ | ⟨isRepair, rfl, rfl⟩
  · obtain ⟨⟨id, hid⟩, _⟩ := mem_pendingForDevice.mp (hexisting ▸ mem_singleton_self existing)
    have hkey := hload.keyed hid
    have hroles := hload.trimmedRoles hid
    have hscopes := hload.trimmedScopes hid
    have htrim := hload.trimmedId hid
    refine hload.set rfl ?_ hroles hscopes htrim
    intro id' q hq hdev
    rw [hkey]
    exact hload.alone hq hid hdev
  · have hkept : PendingWellFormed ((pendingForDevice (loadState now st) (normalizeDeviceId req.deviceId)).foldl
        (fun m p => m.erase p.requestId) (loadState now st).pendingById) :=
      hload.sub fun _ _ hp => (get?_eraseAll.mp hp).1
    refine hkept.set rfl ?_ buildReplacement_roles buildReplacement_scopes (trim_trim _)
    intro id' q hq hdev
    obtain ⟨hq, hother⟩ := get?_eraseAll.mp hq
    exact absurd (hload.keyed hq) (hother q (mem_pendingForDevice.mpr ⟨⟨id', hq⟩, hdev⟩))

theorem step_wellFormed {e : PairingEvent} (hst : PendingWellFormed st.pendingById) :
    PendingWellFormed (e.call.after e.now st).pendingById := by
  obtain ⟨now, call⟩ := e
  have hmoved := after_moved call now st
  by_cases hcall : ∃ req uuid, call = .request req uuid
  · obtain ⟨req, uuid, rfl⟩ := hcall
    generalize (PairingCall.request req uuid).after now st = next at hmoved
    cases hmoved with
    | same => exact hst
    | requested hok => exact request_wellFormed hst hok
    | tokenWritten => exact hst.loaded now
  · exact hst.sub fun _ _ hp => hmoved.pending_sub (fun req uuid he => hcall ⟨req, uuid, he⟩) hp

theorem run_wellFormed {events : List PairingEvent} (hs : PendingWellFormed s.pendingById)
    (ht : devicePairing.run events s = some t) :
    PendingWellFormed t.pendingById :=
  devicePairing.run_invariant (I := fun st => PendingWellFormed st.pendingById)
    (fun _ _ _ hst he => Option.some.inj he ▸ step_wellFormed hst) events hs ht

/-! ### Runs -/

/-- The ids drawn along a run. -/
def drawnIds (events : List PairingEvent) : List String := events.filterMap drawnId

/-- A request found after a run was there before it with the same content, or its id was drawn
along the run. -/
theorem run_origin {events : List PairingEvent} (hs : PendingWellFormed s.pendingById)
    (ht : devicePairing.run events s = some t)
    (hp : t.pendingById.get? id = some p) :
    (∃ q, s.pendingById.get? id = some q ∧ p.content = q.content) ∨ id ∈ drawnIds events := by
  induction events generalizing s with
  | nil =>
    cases ht
    exact .inl ⟨p, hp, rfl⟩
  | cons e rest ih =>
    obtain ⟨u, hu, ht⟩ := (devicePairing.run_cons_some).mp ht
    cases Option.some.inj hu
    rcases ih (step_wellFormed hs) ht with ⟨q, hq, hpq⟩ | hmem
    · rcases pending_origin hs hq with ⟨q', hq', hqq'⟩ | hdrawn
      · exact .inl ⟨q', hq', hpq.trans hqq'⟩
      · exact .inr (mem_filterMap.mpr ⟨e, mem_cons_self, hdrawn⟩)
    · obtain ⟨e', he', hd⟩ := mem_filterMap.mp hmem
      exact .inr (mem_filterMap.mpr ⟨e', mem_cons_of_mem _ he', hd⟩)

/-- While ids are drawn once, an id that is pending at two times stands for one content. -/
theorem pending_content_stable {before after : List PairingEvent} (hfresh : (drawnIds (before ++ after)).Nodup)
    (hs : devicePairing.run before {} = some s) (ht : devicePairing.run after s = some t)
    {q : DevicePairingPendingRequest} (hp : s.pendingById.get? id = some p) (hq : t.pendingById.get? id = some q) :
    q.content = p.content := by
  have hwell := run_wellFormed pendingWellFormed_empty hs
  rcases run_origin hwell ht hq with ⟨p', hp', hqp⟩ | hafter
  · rw [hp] at hp'
    cases hp'
    exact hqp
  · rcases run_origin pendingWellFormed_empty hs hp with ⟨_, hnone, _⟩ | hbefore
    · cases hnone
    · rw [drawnIds, filterMap_append, nodup_append] at hfresh
      exact absurd rfl (hfresh.2.2 id hbefore id hafter)

/-! ### What an approval grants -/

/-- The request asks for all that one it supersedes did, and is silent only if that one and the
incoming request are. -/
structure TakesOver (req : DevicePairingRequest) (superseded request : DevicePairingPendingRequest) : Prop where
  roles : ∀ r ∈ superseded.requestedRoles, r ∈ request.requestedRoles
  scopes : ∀ s ∈ superseded.requestedScopes, s ∈ request.requestedScopes
  silent : request.silent = some true → req.silent = some true ∧ superseded.silent = some true

theorem created_takesOver (hst : PendingWellFormed st.pendingById)
    (h : requestDevicePairing req uuid now st = (.ok result, next)) (hcreated : result.created = true)
    (hp : (loadState now st).pendingById.get? id = some p) (hdev : p.deviceId = normalizeDeviceId req.deviceId) :
    TakesOver req p result.request := by
  have hload := hst.loaded now
  have hmem := mem_pendingForDevice.mpr ⟨⟨id, hp⟩, hdev⟩
  rcases request_cases h with ⟨_, _, _, _, rfl, _⟩ | ⟨_, rfl, _⟩
  · cases hcreated
  · refine ⟨fun r hr => buildReplacement_carries_role hmem hr (hload.trimmedRoles hp r hr),
      fun s hs => buildReplacement_carries_scope hmem hs (hload.trimmedScopes hp s hs), fun hsilent => ?_⟩
    obtain ⟨hreq, hall⟩ := buildReplacement_silent hsilent
    exact ⟨hreq, hall p hmem⟩

/-- The device is the one the request showed, with its roles and scopes beside those of the record
the device had. -/
structure GrantsShown (shown : RequestContent) (existing : Option PairedDevice) (device : PairedDevice) : Prop where
  deviceId : device.deviceId = shown.deviceId
  publicKey : device.publicKey = shown.publicKey
  role : device.role = shown.role
  roles : device.roles = mergeRoles [existing.bind (·.roles), single (existing.bind (·.role)), shown.roles,
    single shown.role]
  scopes : device.approvedScopes = mergeScopes [existing.bind recordedScopes, shown.scopes]

theorem approve_grants {requestId : String} {callerScopes : Option (List String)} {newToken : String → String}
    {device : PairedDevice}
    (h : (approveDevicePairing requestId callerScopes newToken now st).1 = .approved id device) :
    ∃ p, st.pendingById.get? requestId = some p ∧
      GrantsShown p.content (st.pairedByDeviceId.get? p.deviceId) device := by
  simp only [approveDevicePairing] at h
  split at h
  · cases h
  · rename_i p hp
    split at h
    · cases h
    · cases h
      exact ⟨p, (get?_loadState.mp hp).1, rfl, rfl, rfl, rfl, rfl⟩

/-- Along every run whose requests draw fresh ids, from a state `s` on to a state `t`: an id stands
for the content it had, a device has one pending request at most, a request that supersedes others
takes over what they asked for, and approving an id grants what it showed. -/
theorem pending_requests_keep_content {before after : List PairingEvent}
    (hfresh : (drawnIds (before ++ after)).Nodup) {s t : DevicePairingStateFile}
    (hs : devicePairing.run before {} = some s) (ht : devicePairing.run after s = some t) :
    (∀ id p q, s.pendingById.get? id = some p → t.pendingById.get? id = some q → q.content = p.content) ∧
    (∀ id id' p p', t.pendingById.get? id = some p → t.pendingById.get? id' = some p' →
      p.deviceId = p'.deviceId → id = id') ∧
    (∀ req uuid now result next, requestDevicePairing req uuid now t = (.ok result, next) →
      result.created = true → ∀ id p, (loadState now t).pendingById.get? id = some p →
        p.deviceId = normalizeDeviceId req.deviceId → TakesOver req p result.request) ∧
    (∀ id p, s.pendingById.get? id = some p → ∀ callerScopes newToken now id' device,
      (approveDevicePairing id callerScopes newToken now t).1 = .approved id' device →
        GrantsShown p.content (t.pairedByDeviceId.get? p.deviceId) device) := by
  have hwell : PendingWellFormed t.pendingById := run_wellFormed (run_wellFormed pendingWellFormed_empty hs) ht
  refine ⟨?_, ?_, ?_, ?_⟩
  · intro id p q hp hq
    exact pending_content_stable hfresh hs ht hp hq
  · intro id id' p p' hp hp' hdev
    exact hwell.alone hp hp' hdev
  · intro req uuid now result next hok hcreated id p hp hdev
    exact created_takesOver hwell hok hcreated hp hdev
  · intro id p hp callerScopes newToken now id' device happrove
    obtain ⟨q, hq, hgrants⟩ := approve_grants happrove
    have hsame : q.content = p.content := pending_content_stable hfresh hs ht hp hq
    have hdev : q.deviceId = p.deviceId := congrArg RequestContent.deviceId hsame
    rw [hsame, hdev] at hgrants
    exact hgrants

/-- A laptop asking to read, twice. -/
def laptopRequest : DevicePairingRequest :=
  { deviceId := " laptop ", publicKey := "key", role := some "operator", scopes := some ["operator.read"] }

def laptopShown : DevicePairingStateFile := (requestDevicePairing laptopRequest "r1" 0 {}).2

def laptopAsked : DevicePairingStateFile := (requestDevicePairing laptopRequest "r2" 5 laptopShown).2

/-- The second request refreshes the first, under its id and with its content. -/
theorem laptop_refresh_keeps_content :
    (laptopShown.pendingById.get? "r1").isSome = true ∧ (laptopAsked.pendingById.get? "r1").isSome = true ∧
      ∀ p q, laptopShown.pendingById.get? "r1" = some p → laptopAsked.pendingById.get? "r1" = some q →
        q.content = p.content :=
  ⟨by decide, by decide,
    (pending_requests_keep_content
      (show (drawnIds ([⟨0, .request laptopRequest "r1"⟩] ++ [⟨5, .request laptopRequest "r2"⟩])).Nodup by decide)
      (show devicePairing.run [⟨0, .request laptopRequest "r1"⟩] {} = some laptopShown from rfl)
      (show devicePairing.run [⟨5, .request laptopRequest "r2"⟩] laptopShown = some laptopAsked from rfl)).1 "r1"⟩

end OpenClaw.Pairing
