import OpenClaw.Tasks.Mirror

/-! The revisions of a flow.

Every write of a flow goes through `applyFlowPatch`. It counts the revision up by
one, keeps the flow's id and its mode, refuses to leave a managed flow without a
controller, and takes a request for cancellation back only where its patch says so.
A write of a task writes one flow at most. -/
namespace OpenClaw.Tasks
open Foundation Foundation.EcmaString InsertionMap

/-- One write of a flow. -/
structure FlowWritten (clears : Prop) (flow next : TaskFlowRecord) : Prop where
  flowId : next.flowId = flow.flowId
  syncMode : next.syncMode = flow.syncMode
  revision : next.revision = flow.revision + 1
  controlled : next.syncMode = .managed → (normalizeText next.controllerId).isSome = true
  requested : ¬clears → flow.cancelRequestedAt.isSome = true → next.cancelRequestedAt.isSome = true

theorem normalizeText_idem (value : Option String) : normalizeText (normalizeText value) = normalizeText value :=
  normalizeText_trimmed? value

variable {flow record : TaskFlowRecord} {now : Int} {flowId : String}

theorem applyFlowPatch_written {next : TaskFlowRecord} {patch : FlowRecordPatch}
    (h : applyFlowPatch flow patch now = .ok next) :
    FlowWritten (patch.cancelRequestedAt = some none) flow next := by
  have hrequested (hkeep : patch.cancelRequestedAt ≠ some none) (hset : flow.cancelRequestedAt.isSome = true) :
      (patch.cancelRequestedAt.getD flow.cancelRequestedAt).isSome = true := by
    cases hp : patch.cancelRequestedAt with
    | none => exact hset
    | some requested =>
      cases requested with
      | none => exact absurd hp hkeep
      | some at' => rfl
  unfold applyFlowPatch at h
  dsimp only at h
  split at h
  · cases hc : assertControllerId ((patch.controllerId.map normalizeText).getD flow.controllerId) with
    | error e =>
      rw [hc] at h
      cases h
    | ok controllerId =>
      rw [hc] at h
      cases h
      refine ⟨rfl, rfl, rfl, fun _ => ?_, hrequested⟩
      unfold assertControllerId at hc
      split at hc
      · rename_i hsome
        dsimp only
        rw [hsome]
        rfl
      · cases hc
  · rename_i hmirrored
    cases h
    exact ⟨rfl, rfl, rfl, fun hm => absurd hm hmirrored, hrequested⟩

/-- A managed flow with a controller refuses no patch that leaves the controller. -/
theorem applyFlowPatch_managed (hc : (normalizeText flow.controllerId).isSome = true)
    (patch : FlowRecordPatch) (hp : patch.controllerId = none) (now : Int) :
    ∃ next, applyFlowPatch flow patch now = .ok next ∧ next.status = patch.status.getD flow.status := by
  obtain ⟨controllerId, hsome⟩ := Option.isSome_iff_exists.mp hc
  unfold applyFlowPatch
  simp only [hp, Option.map_none, Option.getD_none, assertControllerId, hsome]
  split <;> exact ⟨_, rfl, rfl⟩

/-! ### Many flows -/

/-- The flows that are there stay, each as it was or written once. -/
def FlowsWritten (clears : String → Prop) (flows next : Flows) : Prop :=
  ∀ flowId, Option.Rel (fun flow next => next = flow ∨ FlowWritten (clears flowId) flow next) (flows.get? flowId)
    (next.get? flowId)

section Flows
variable {clears : String → Prop} {flows next : Flows}

theorem FlowsWritten.refl : FlowsWritten clears flows flows := by
  intro flowId
  cases flows.get? flowId with
  | none => exact .none
  | some flow => exact .some (.inl rfl)

theorem flowsWritten_set (hk : FlowsKeyed flows) (hf : flows.get? flowId = some flow)
    (h : FlowWritten (clears flowId) flow record) :
    FlowsWritten clears flows (writeFlowRecord flows record) := by
  have hid : record.flowId = flowId := h.flowId.trans (hk flowId flow hf)
  intro other
  rw [writeFlowRecord, hid, get?_set]
  split
  · rename_i he
    rw [he, hf]
    exact .some (.inr h)
  · exact FlowsWritten.refl other

theorem flowsWritten_update (hk : FlowsKeyed flows) (expectedRevision : Int) {patch : FlowRecordPatch}
    (hp : patch.cancelRequestedAt = some none → clears flowId) (now : Int) :
    FlowsWritten clears flows (updateFlowRecordByIdExpectedRevision flowId expectedRevision patch now flows).2 := by
  unfold updateFlowRecordByIdExpectedRevision
  split
  · exact .refl
  · rename_i flow hf
    split
    · exact .refl
    · split
      · exact .refl
      · rename_i next hnext
        have hw := applyFlowPatch_written hnext
        exact flowsWritten_set hk hf ⟨hw.flowId, hw.syncMode, hw.revision, hw.controlled,
          fun hclears => hw.requested fun he => hclears (hp he)⟩

theorem flowsWritten_cancellation {r : Registry} (hk : FlowsKeyed r.flows) (task : TaskRecord) (now : Int) :
    FlowsWritten clears r.flows (syncManagedFlowCancellationFromTask task now r).flows := by
  unfold syncManagedFlowCancellationFromTask
  dsimp only
  split
  · exact .refl
  · split
    · exact .refl
    · split
      · exact .refl
      · split
        · exact .refl
        · exact flowsWritten_update hk _ nofun now

/-- A synchronisation writes the mirrored flow of the task, or nothing. -/
theorem syncFlowFromTask_cases (task : TaskRecord) (now : Int) (flows : Flows) :
    syncFlowFromTask task now flows = flows ∨
      ∃ flowId flow record, trimmed? task.parentFlowId = some flowId ∧ flows.get? flowId = some flow ∧
        flow.syncMode = .taskMirrored ∧ applyFlowPatch flow (syncPatch task now) now = .ok record ∧
          syncFlowFromTask task now flows = writeFlowRecord flows record := by
  cases hparent : trimmed? task.parentFlowId with
  | none => exact .inl (by simp only [syncFlowFromTask, hparent])
  | some flowId =>
    cases hf : flows.get? flowId with
    | none => exact .inl (by simp only [syncFlowFromTask, hparent, getTaskFlowById, hf])
    | some flow =>
      by_cases hmode : flow.syncMode = .taskMirrored
      · obtain ⟨record, hrecord⟩ := applyFlowPatch_mirrored hmode (syncPatch task now) now
        refine .inr ⟨flowId, flow, record, rfl, hf, hmode, hrecord, ?_⟩
        simp [syncFlowFromTask, hparent, getTaskFlowById, hf, hmode, updateFlowRecordByIdUnchecked, hrecord]
      · exact .inl (by simp [syncFlowFromTask, hparent, getTaskFlowById, hf, hmode])

theorem syncPatch_written {task : TaskRecord} {c : Prop}
    (h : applyFlowPatch flow (syncPatch task now) now = .ok record) : FlowWritten c flow record := by
  have hw := applyFlowPatch_written h
  exact ⟨hw.flowId, hw.syncMode, hw.revision, hw.controlled, fun _ => hw.requested nofun⟩

theorem flowsWritten_sync (hk : FlowsKeyed flows) (task : TaskRecord) (now : Int) :
    FlowsWritten clears flows (syncFlowFromTask task now flows) := by
  rcases syncFlowFromTask_cases task now flows with hsame | ⟨flowId, flow, record, -, hf, -, hrecord, hsync⟩
  · rw [hsame]
    exact .refl
  · rw [hsync]
    exact flowsWritten_set hk hf (syncPatch_written hrecord)

/-- A flow that is synchronised is not managed, and its cancellation is not settled. -/
theorem flowsWritten_task {r : Registry} (hk : FlowsKeyed r.flows) (task : TaskRecord) (now : Int) :
    FlowsWritten clears r.flows (syncManagedFlowCancellationFromTask task now
      {r with flows := syncFlowFromTask task now r.flows}).flows := by
  rcases syncFlowFromTask_cases task now r.flows with
    hsame | ⟨flowId, flow, record, hparent, hf, hmode, hrecord, hsync⟩
  · rw [hsame]
    exact flowsWritten_cancellation hk task now
  · have hw : FlowWritten (clears flowId) flow record := syncPatch_written hrecord
    have hget : (writeFlowRecord r.flows record).get? flowId = some record := by
      rw [writeFlowRecord, hw.flowId.trans (hk flowId flow hf), get?_set_self]
    have hmanaged : record.syncMode ≠ .managed := by
      rw [hw.syncMode, hmode]
      decide
    rw [hsync]
    simp only [syncManagedFlowCancellationFromTask, hparent, getTaskFlowById, hget, if_pos (Or.inl hmanaged)]
    exact flowsWritten_set hk hf hw

end Flows

/-! ### Writes -/

/-- The flows of a registry: stored under their ids, the managed ones controlled. -/
structure FlowsSound (flows : Flows) : Prop where
  keyed : FlowsKeyed flows
  controlled : ∀ flowId flow, flows.get? flowId = some flow → flow.syncMode = .managed →
    (normalizeText flow.controllerId).isSome = true

theorem FlowsWritten.sound {clears : String → Prop} {flows next : Flows} (h : FlowsWritten clears flows next)
    (hs : FlowsSound flows) : FlowsSound next := by
  refine ⟨fun flowId flow hf => ?_, fun flowId flow hf hm => ?_⟩
  all_goals
    have hrel := h flowId
    rw [hf] at hrel
    cases hold : flows.get? flowId with
    | none =>
      rw [hold] at hrel
      cases hrel
    | some old =>
      rw [hold] at hrel
      cases hrel with
      | some hstep =>
        rcases hstep with rfl | hw
        · first
          | exact hs.keyed flowId _ hold
          | exact hs.controlled flowId _ hold hm
        · first
          | exact hw.flowId.trans (hs.keyed flowId old hold)
          | exact hw.controlled hm

section Write
variable {env : ChannelEnv} {draws clears : String → Prop} {w : Write} {r t : Registry}

theorem updateTask_flowsWritten (hk : FlowsKeyed r.flows) (taskId : String) (patch : TaskPatch) (now : Int) :
    FlowsWritten clears r.flows (updateTask taskId patch now r).2.flows := by
  unfold updateTask
  cases hc : r.tasks.get? taskId with
  | none => exact .refl
  | some current =>
    have hflows : (reindexTask taskId patch current (nextRecord patch current now) r).flows = r.flows := rfl
    dsimp only
    generalize reindexTask taskId patch current (nextRecord patch current now) r = u at hflows ⊢
    rw [← hflows] at hk ⊢
    exact flowsWritten_task hk (nextRecord patch current now) now

/-- The flows whose request for cancellation a write takes back. -/
def Write.Clears (w : Write) (flowId : String) : Prop :=
  ∃ expectedRevision patch now, w = .updateFlow flowId expectedRevision patch now ∧
    patch.cancelRequestedAt = some none

theorem Write.Checked.keeps (hc : w.Checked draws clears r) : ∀ flowId, w.Clears flowId → clears flowId := by
  rintro flowId ⟨expectedRevision, patch, now, rfl, hp⟩
  exact hc hp

/-- A write that neither creates a flow nor deletes one. -/
theorem write_flowsWritten (hk : FlowsKeyed r.flows) (hc : ∀ flowId, w.Clears flowId → clears flowId)
    (hcreate : ∀ params flowId now, w ≠ .createFlow params flowId now) (hdelete : ∀ flowId, w ≠ .deleteFlow flowId) :
    FlowsWritten clears r.flows (w.apply env r).flows := by
  cases w with
  | insertTask params taskId now =>
    obtain ⟨states, hstates⟩ := upsertTaskDeliveryState_tasks env
      ⟨taskId, normalizeDeliveryContext env params.requesterOrigin, none⟩ r
    simp only [Write.apply, insertTask, hstates]
    exact flowsWritten_sync hk (newTaskRecord params taskId now) now
  | updateTask taskId patch now => exact updateTask_flowsWritten hk taskId patch now
  | deleteTask taskId =>
    simp only [Write.apply, deleteTaskRecordById]
    split <;> exact .refl
  | deliveryState state =>
    obtain ⟨states, hstates⟩ := upsertTaskDeliveryState_tasks env state r
    simp only [Write.apply, hstates]
    exact .refl
  | createFlow params flowId now => exact absurd rfl (hcreate params flowId now)
  | updateFlow flowId expectedRevision patch now =>
    exact flowsWritten_update hk expectedRevision (fun hp => hc flowId ⟨expectedRevision, patch, now, rfl, hp⟩) now
  | deleteFlow flowId => exact absurd rfl (hdelete flowId)

theorem buildFlowRecord_controlled {params : CreateFlowParams} (h : buildFlowRecord params flowId now = .ok record)
    (hm : record.syncMode = .managed) :
    (normalizeText record.controllerId).isSome = true := by
  have hmode := (buildFlowRecord_ok h).2
  rw [hm] at hmode
  unfold buildFlowRecord at h
  simp only [← hmode] at h
  cases hc : normalizeText params.controllerId with
  | none =>
    simp only [assertControllerId, hc] at h
    cases h
  | some controllerId =>
    simp only [assertControllerId, hc] at h
    cases ho : assertFlowOwnerKey params.ownerKey with
    | error e =>
      rw [ho] at h
      cases h
    | ok ownerKey =>
      rw [ho] at h
      cases h
      show (normalizeText (some controllerId)).isSome = true
      rw [← hc, normalizeText_idem, hc]
      rfl

/-- A flow that is created is sound, and the others stay. -/
theorem createFlow_cases (params : CreateFlowParams) (flowId : String) (now : Int) (flows : Flows) :
    (createFlowRecord params flowId now flows).2 = flows ∨ ∃ record : TaskFlowRecord, record.flowId = flowId ∧
      (record.syncMode = .managed → (normalizeText record.controllerId).isSome = true) ∧
        (createFlowRecord params flowId now flows).2 = flows.set flowId record := by
  unfold createFlowRecord
  cases hb : buildFlowRecord params flowId now with
  | error e => exact .inl rfl
  | ok record =>
    have hid := (buildFlowRecord_ok hb).1
    refine .inr ⟨record, hid, buildFlowRecord_controlled hb, ?_⟩
    show flows.set record.flowId record = _
    rw [hid]

theorem FlowsWritten.before {clears : String → Prop} {flows next : Flows} (h : FlowsWritten clears flows next)
    (hr : next.get? flowId = some record) :
    ∃ flow, flows.get? flowId = some flow ∧ (record = flow ∨ FlowWritten (clears flowId) flow record) := by
  have hrel := h flowId
  rw [hr] at hrel
  generalize flows.get? flowId = found at hrel ⊢
  cases hrel with
  | some hstep => exact ⟨_, rfl, hstep⟩

theorem FlowsWritten.after {clears : String → Prop} {flows next : Flows} (h : FlowsWritten clears flows next)
    (hf : flows.get? flowId = some flow) :
    ∃ record, next.get? flowId = some record ∧ (record = flow ∨ FlowWritten (clears flowId) flow record) := by
  have hrel := h flowId
  rw [hf] at hrel
  generalize next.get? flowId = found at hrel ⊢
  cases hrel with
  | some hstep => exact ⟨_, rfl, hstep⟩

theorem written_syncMode {clears : Prop} (h : record = flow ∨ FlowWritten clears flow record) :
    record.syncMode = flow.syncMode := by
  rcases h with rfl | hw
  · rfl
  · exact hw.syncMode

theorem deleteFlow_before {id : String} {flows : Flows}
    (h : (deleteTaskFlowRecordById id flows).2.get? flowId = some record) : flows.get? flowId = some record := by
  unfold deleteTaskFlowRecordById at h
  split at h
  · exact h
  · dsimp only at h
    rw [get?_erase] at h
    split at h
    · cases h
    · exact h

/-- A flow that a write did not create was there before it, and was written once at most. -/
theorem write_flow (hk : FlowsKeyed r.flows) (hc : ∀ flowId, w.Clears flowId → clears flowId)
    (hdraw : ∀ params now, w ≠ .createFlow params flowId now)
    (hr : (w.apply env r).flows.get? flowId = some record) :
    ∃ flow, r.flows.get? flowId = some flow ∧ (record = flow ∨ FlowWritten (clears flowId) flow record) := by
  cases w with
  | createFlow params id now =>
    have hne : flowId ≠ id := by
      rintro rfl
      exact hdraw params now rfl
    have hget : (createFlowRecord params id now r.flows).2.get? flowId = some record := hr
    rcases createFlow_cases params id now r.flows with hsame | ⟨created, -, -, hset⟩
    · exact ⟨record, hsame ▸ hget, .inl rfl⟩
    · rw [hset, get?_set_ne _ hne] at hget
      exact ⟨record, hget, .inl rfl⟩
  | deleteFlow id => exact ⟨record, deleteFlow_before hr, .inl rfl⟩
  | _ => exact (write_flowsWritten hk hc (fun _ _ _ => nofun) fun _ => nofun).before hr

/-- Every write leaves the flows under their ids, and the managed ones controlled. -/
theorem write_sound (hs : FlowsSound r.flows) : FlowsSound (w.apply env r).flows := by
  cases w with
  | createFlow params id now =>
    show FlowsSound (createFlowRecord params id now r.flows).2
    rcases createFlow_cases params id now r.flows with hsame | ⟨created, hid, hcontrolled, hset⟩
    · rw [hsame]
      exact hs
    · rw [hset]
      refine ⟨fun flowId flow hf => ?_, fun flowId flow hf hm => ?_⟩
      · rw [get?_set] at hf
        split at hf
        · rename_i he
          cases hf
          exact hid.trans he.symm
        · exact hs.keyed flowId flow hf
      · rw [get?_set] at hf
        split at hf
        · cases hf
          exact hcontrolled hm
        · exact hs.controlled flowId flow hf hm
  | deleteFlow id =>
    exact ⟨fun flowId flow hf => hs.keyed flowId flow (deleteFlow_before hf),
      fun flowId flow hf => hs.controlled flowId flow (deleteFlow_before hf)⟩
  | _ =>
    have hwritten {w : Write} (hcreate : ∀ params flowId now, w ≠ .createFlow params flowId now)
        (hdelete : ∀ flowId, w ≠ .deleteFlow flowId) : FlowsSound (w.apply env r).flows := by
      have hw : FlowsWritten (fun _ => True) r.flows (w.apply env r).flows :=
        write_flowsWritten hs.keyed (fun _ _ => trivial) hcreate hdelete
      exact hw.sound hs
    exact hwritten (fun _ _ _ => nofun) fun _ => nofun

end Write

/-! ### Restored flows -/

theorem mapM_mem {α β ε : Type} {f : α → Except ε β} {l : List α} {l' : List β} (h : l.mapM f = .ok l') {b : β}
    (hb : b ∈ l') : ∃ a ∈ l, f a = .ok b := by
  induction l generalizing l' with
  | nil =>
    cases h
    cases hb
  | cons a rest ih =>
    rw [List.mapM_cons] at h
    cases ha : f a with
    | error e =>
      rw [ha] at h
      cases h
    | ok first =>
      cases hrest : rest.mapM f with
      | error e =>
        rw [ha, hrest] at h
        cases h
      | ok others =>
        rw [ha, hrest] at h
        cases h
        rcases List.mem_cons.mp hb with rfl | hm
        · exact ⟨a, List.mem_cons_self, ha⟩
        · obtain ⟨a', ha', hfa⟩ := ih hrest hm
          exact ⟨a', List.mem_cons_of_mem _ ha', hfa⟩

theorem foldl_set_mem {α : Type} (l : List (String × α)) (m : InsertionMap String α) {k : String} {v : α}
    (h : (l.foldl (fun m p => m.set p.1 p.2) m).get? k = some v) : m.get? k = some v ∨ (k, v) ∈ l := by
  induction l generalizing m with
  | nil => exact .inl h
  | cons p rest ih =>
    rcases ih (m.set p.1 p.2) h with hset | hm
    · rw [get?_set] at hset
      split at hset
      · rename_i he
        cases hset
        exact .inr (he ▸ List.mem_cons_self)
      · exact .inl hset
    · exact .inr (List.mem_cons_of_mem _ hm)

theorem restoreFlows_mem {stored : Flows} (h : (restoreFlows stored).get? flowId = some flow) :
    ∃ record, stored.get? flowId = some record ∧ normalizeRestoredFlowRecord record = .ok flow := by
  unfold restoreFlows at h
  split at h
  · rename_i entries hentries
    rcases foldl_set_mem entries ∅ h with hempty | hmem
    · cases hempty
    · obtain ⟨⟨k, record⟩, hk, hnormal⟩ := mapM_mem hentries hmem
      cases hn : normalizeRestoredFlowRecord record with
      | error e =>
        simp only [hn] at hnormal
        cases hnormal
      | ok normal =>
        simp only [hn] at hnormal
        cases hnormal
        exact ⟨record, (get?_eq_some ..).mpr hk, hn⟩
  · cases h

theorem normalizeRestoredFlowRecord_sound (h : normalizeRestoredFlowRecord record = .ok flow) :
    flow.flowId = record.flowId ∧ (flow.syncMode = .managed → (normalizeText flow.controllerId).isSome = true) := by
  unfold normalizeRestoredFlowRecord at h
  cases ho : assertFlowOwnerKey record.ownerKey with
  | error e =>
    rw [ho] at h
    cases h
  | ok ownerKey =>
    rw [ho] at h
    cases h
    refine ⟨rfl, fun hm => ?_⟩
    have hm : record.syncMode = .managed := hm
    simp only [hm, Option.some_or]
    cases hc : normalizeText record.controllerId with
    | none => decide
    | some controllerId =>
      rw [Option.getD_some, ← hc, normalizeText_idem, hc]
      rfl

/-- The store keeps a flow under its id. -/
theorem restoreFlows_sound {stored : Flows} (hk : FlowsKeyed stored) : FlowsSound (restoreFlows stored) := by
  refine ⟨fun flowId flow hf => ?_, fun flowId flow hf => ?_⟩
  · obtain ⟨record, hrecord, hnormal⟩ := restoreFlows_mem hf
    exact (normalizeRestoredFlowRecord_sound hnormal).1.trans (hk flowId record hrecord)
  · obtain ⟨record, -, hnormal⟩ := restoreFlows_mem hf
    exact (normalizeRestoredFlowRecord_sound hnormal).2

theorem restore_flows (tasks : InsertionMap String TaskRecord)
    (deliveryStates : InsertionMap String TaskDeliveryState) (flows : Flows) :
    (restoreTaskRegistry tasks deliveryStates flows).flows = restoreFlows flows := by
  unfold restoreTaskRegistry
  split <;> rfl

end OpenClaw.Tasks
