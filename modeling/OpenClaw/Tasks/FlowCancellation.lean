import OpenClaw.Tasks.FlowRevisions
import OpenClaw.Tasks.Records

/-! Sticky cancellation of managed flows.

A flow that is asked to cancel accepts no further task: each link is checked, and
the check refuses such a flow. The update of a linked task that leaves none active
settles the flow in the same write. The cancellation of a flow awaits its tasks one
by one, so its start and its end are two events, with any others in between. -/
namespace OpenClaw.Tasks
open Foundation Foundation.EcmaString

/-! ### The machine -/

/-- A call or a write of the registries, or a call of the executor. -/
inductive FlowEvent where
  | step (step : Step)
  | createTaskRun (status : TaskStatus) (params : CreateTaskParams) (taskId flowId : String) (now : Int)
  | runTaskInFlow (flowId : String) (running : Bool) (params : CreateTaskParams) (taskId newFlowId : String) (now : Int)
  | retryBlockedFlowTask (params : RetryBlockedFlowParams) (taskId : String) (now : Int)
  | beginCancelFlow (flowId : String) (now : Int)
  | settleCancelledFlow (flowId : String) (now : Int)

/-- The drawn ids are not in use. -/
def flowStep (env : ChannelEnv) : Machine Registry FlowEvent
  | .step e, r => registryStep env e r
  | .createTaskRun status params taskId flowId now, r =>
    if (r.tasks.get? taskId).isNone ∧ (r.flows.get? flowId).isNone then
      some (createTaskRun env status params taskId flowId now r).2
    else none
  | .runTaskInFlow flowId running params taskId newFlowId now, r =>
    if (r.tasks.get? taskId).isNone ∧ (r.flows.get? newFlowId).isNone then
      some (runTaskInFlow env flowId running params taskId newFlowId now r).2
    else none
  | .retryBlockedFlowTask params taskId now, r =>
    if (r.tasks.get? taskId).isNone then some (retryBlockedFlowTask env params taskId now r).2 else none
  | .beginCancelFlow flowId now, r => some (beginCancelFlow flowId now r)
  | .settleCancelledFlow flowId now, r => some (settleCancelledFlow flowId now r)

/-- The links of a write by itself are checked, new flows have ids in `draws`, and
only the flows in `clears` have their request for cancellation taken back. -/
def FlowEvent.Checked (draws clears : String → Prop) : FlowEvent → Registry → Prop
  | .step e, r => e.Checked draws clears r
  | .createTaskRun _ _ _ flowId _, _ => draws flowId
  | .runTaskInFlow _ _ _ _ newFlowId _, _ => draws newFlowId
  | .retryBlockedFlowTask _ _ _, _ => True
  | .beginCancelFlow _ _, _ => True
  | .settleCancelledFlow _ _, _ => True

section Run
variable {env : ChannelEnv} {draws clears : String → Prop} {r t : Registry}

/-- What each checked write keeps, a run of them keeps. -/
theorem Writes.keeps {I : Registry → Prop}
    (hstep : ∀ (w : Write) r, I r → w.Checked draws clears r → w.enabled r = true → I (w.apply env r))
    (h : Writes env draws clears r t) (hr : I r) : I t := by
  obtain ⟨ws, hrun, hc⟩ := h
  refine (writeStep env).run_within_invariant (fun w u v hu hw hs => ?_) ws hr hc hrun
  unfold writeStep at hs
  split at hs
  · rename_i he
    cases hs
    exact hstep w u hu hw he
  · cases hs

theorem Writes.sound (h : Writes env draws clears r t) (hs : FlowsSound r.flows) : FlowsSound t.flows :=
  h.keeps (I := fun r => FlowsSound r.flows) (fun _ _ hr _ _ => write_sound hr) hs

/-- A flow that no write may have created was there before. -/
theorem Writes.unused (h : Writes env draws clears r t) (hs : FlowsSound r.flows) {flowId : String}
    (hdraw : ¬draws flowId) (hn : r.flows.get? flowId = none) : t.flows.get? flowId = none := by
  refine (h.keeps (I := fun r => FlowsSound r.flows ∧ r.flows.get? flowId = none) (fun w r hr hc _ => ?_)
    ⟨hs, hn⟩).2
  refine ⟨write_sound hr.1, ?_⟩
  cases hget : (w.apply env r).flows.get? flowId with
  | none => rfl
  | some record =>
    obtain ⟨flow, hf, -⟩ := write_flow hr.1.keyed hc.keeps (fun _ _ he => hdraw (by subst he; exact hc)) hget
    rw [hr.2] at hf
    cases hf

theorem createTaskRecord_unused (hs : FlowsSound r.flows) (params : CreateTaskParams) {taskId flowId : String}
    (now : Int) (htask : (r.tasks.get? taskId).isNone = true) (hflow : (r.flows.get? flowId).isNone = true) :
    ((createTaskRecord env params taskId now r).2.flows.get? flowId).isNone = true := by
  have hw : Writes env (fun _ => False) (fun _ => True) r (createTaskRecord env params taskId now r).2 :=
    createTaskRecord_writes htask
  rw [hw.unused hs id (Option.isNone_iff_eq_none.mp hflow)]
  rfl

/-- Every event is a run of checked writes. -/
theorem flowEvent_writes (hs : FlowsSound r.flows) {e : FlowEvent} (hc : e.Checked draws clears r)
    (h : flowStep env e r = some t) : Writes env draws clears r t := by
  cases e with
  | step step => exact step_writes h hc
  | createTaskRun status params taskId flowId now =>
    simp only [flowStep] at h
    split at h
    · rename_i hnew
      cases h
      exact createTaskRun_writes status params taskId flowId now hnew.1
        (createTaskRecord_unused hs _ now hnew.1 hnew.2) hc
    · cases h
  | runTaskInFlow flowId running params taskId newFlowId now =>
    simp only [flowStep] at h
    split at h
    · rename_i hnew
      cases h
      exact runTaskInFlow_writes flowId running params now hnew.1
        (fun params => createTaskRecord_unused hs params now hnew.1 hnew.2) hc
    · cases h
  | retryBlockedFlowTask params taskId now =>
    simp only [flowStep] at h
    split at h
    · rename_i hnew
      cases h
      exact retryBlockedFlowTask_writes params now hnew
    · cases h
  | beginCancelFlow flowId now =>
    cases h
    exact beginCancelFlow_writes flowId now
  | settleCancelledFlow flowId now =>
    cases h
    exact settleCancelledFlow_writes flowId now

theorem flowEvents_writes {events : List FlowEvent} (hs : FlowsSound r.flows)
    (hc : (flowStep env).Within (FlowEvent.Checked draws clears) events r) (h : (flowStep env).run events r = some t) :
    Writes env draws clears r t := by
  induction events generalizing r with
  | nil =>
    cases h
    exact .refl
  | cons e rest ih =>
    obtain ⟨u, hu, ht⟩ := (Machine.run_cons_some _).mp h
    have hw := flowEvent_writes hs hc.1 hu
    exact hw.trans (ih (hw.sound hs) (hc.2 u hu) ht)

end Run

/-! ### No task is linked to a flow that is to be cancelled -/

/-- The flow is managed and asked to cancel, if it is there. -/
def CancelRequested (flowId : String) (r : Registry) : Prop :=
  ∀ flow, r.flows.get? flowId = some flow → flow.syncMode = .managed ∧ flow.cancelRequestedAt.isSome = true

/-- The task is linked to the flow. -/
def LinkedTo (flowId taskId : String) (r : Registry) : Prop :=
  ∃ task, r.tasks.get? taskId = some task ∧ trimmed? task.parentFlowId = some flowId

theorem linkAllowed_flow {flows : Flows} {ownerKey : String} {scopeKind : TaskScopeKind} {parentFlowId : Option String}
    {flowId : String} (h : assertParentFlowLinkAllowed flows ownerKey scopeKind parentFlowId = .ok ())
    (hp : trimmed? parentFlowId = some flowId) :
    ∃ flow, flows.get? flowId = some flow ∧ flow.cancelRequestedAt = none := by
  unfold assertParentFlowLinkAllowed at h
  rw [hp] at h
  dsimp only [getTaskFlowById] at h
  split at h
  · cases h
  · split at h
    · cases h
    · rename_i flow hflow
      split at h
      · cases h
      · split at h
        · cases h
        · rename_i hnone
          exact ⟨flow, hflow, not_not.mp hnone⟩

section Links
variable {env : ChannelEnv} {flowId : String} {r t : Registry} {w : Write}

theorem linkAllowed_not_requested (hreq : CancelRequested flowId r) {ownerKey : String} {scopeKind : TaskScopeKind}
    {parentFlowId : Option String}
    (h : assertParentFlowLinkAllowed r.flows ownerKey scopeKind parentFlowId = .ok ()) :
    trimmed? parentFlowId ≠ some flowId := by
  intro hp
  obtain ⟨flow, hf, hnone⟩ := linkAllowed_flow h hp
  have hset := (hreq flow hf).2
  rw [hnone] at hset
  cases hset

theorem write_requested (hk : FlowsKeyed r.flows) (hreq : CancelRequested flowId r)
    (hc : w.Checked (· ≠ flowId) (· ≠ flowId) r) : CancelRequested flowId (w.apply env r) := by
  intro record hr
  obtain ⟨flow, hf, rfl | hw⟩ := write_flow hk hc.keeps (fun _ _ he => by subst he; exact hc rfl) hr
  · exact hreq record hf
  · obtain ⟨hmode, hset⟩ := hreq flow hf
    exact ⟨hw.syncMode.trans hmode, hw.requested (fun hne => hne rfl) hset⟩

theorem write_links (hreq : CancelRequested flowId r) (hc : w.Checked (· ≠ flowId) (· ≠ flowId) r) {taskId : String}
    (h : LinkedTo flowId taskId (w.apply env r)) : LinkedTo flowId taskId r := by
  obtain ⟨task, ht, hp⟩ := h
  rcases write_record ht with hold | ⟨params, now, rfl, rfl⟩ | ⟨patch, now, current, rfl, hcurrent, rfl⟩
  · exact ⟨task, hold, hp⟩
  · refine absurd ?_ (linkAllowed_not_requested hreq hc.1)
    exact (trimmed?_trimmed? params.parentFlowId).symm.trans hp
  · rw [nextRecord_parentFlowId] at hp
    cases hpatch : patch.parentFlowId with
    | none =>
      rw [hpatch] at hp
      exact ⟨current, hcurrent, hp⟩
    | some parent =>
      rw [hpatch] at hp
      obtain ⟨-, ownerKey, scopeKind, hallowed⟩ := hc.1 parent hpatch
      exact absurd hp (linkAllowed_not_requested hreq hallowed)

/-- Once a flow is asked to cancel, its tasks are among those it has. -/
theorem writes_links (h : Writes env (· ≠ flowId) (· ≠ flowId) r t) (hs : FlowsSound r.flows)
    (hreq : CancelRequested flowId r) {taskId : String} (ht : LinkedTo flowId taskId t) : LinkedTo flowId taskId r := by
  have hkept := h.keeps (I := fun u => FlowsSound u.flows ∧ CancelRequested flowId u ∧
    ∀ taskId, LinkedTo flowId taskId u → LinkedTo flowId taskId r)
    (fun w u hu hc _ => ⟨write_sound hu.1, write_requested hu.1.keyed hu.2.1 hc,
      fun taskId hl => hu.2.2 taskId (write_links hu.2.1 hc hl)⟩) ⟨hs, hreq, fun _ => id⟩
  exact hkept.2.2 taskId ht

end Links

/-! ### The update that settles a flow -/

section Settle
variable {r : Registry}

theorem listTasksForFlowId_linked (h : Coherent r) {flowId : String} (hid : trimmed flowId = some flowId)
    {task : TaskRecord} (ht : task ∈ listTasksForFlowId r flowId) :
    ∃ taskId, r.tasks.get? taskId = some task ∧ trimmed? task.parentFlowId = some flowId := by
  unfold listTasksForFlowId at ht
  rw [hid] at ht
  obtain ⟨hvalue, hkey⟩ := List.mem_filter.mp ((listTasksFromIndex_perm h.parentFlowId flowId).mem_iff.mp ht)
  obtain ⟨taskId, hget⟩ := (InsertionMap.mem_values ..).mp hvalue
  exact ⟨taskId, hget, (mem_parentFlowIdIndexKeys task flowId).mp (of_decide_eq_true hkey)⟩

/-- A managed flow that is asked to cancel and has no active task left is cancelled,
or has ended otherwise. -/
theorem syncManaged_settles (hco : Coherent r) (hs : FlowsSound r.flows) {task : TaskRecord} (now : Int)
    {flowId : String} (hparent : trimmed? task.parentFlowId = some flowId) {flow : TaskFlowRecord}
    (hf : r.flows.get? flowId = some flow) (hmode : flow.syncMode = .managed)
    (hreq : flow.cancelRequestedAt.isSome = true)
    (hidle : ∀ taskId task, r.tasks.get? taskId = some task → trimmed? task.parentFlowId = some flowId →
      isActiveTaskStatus task.status = false) :
    ∃ settled, (syncManagedFlowCancellationFromTask task now r).flows.get? flowId = some settled ∧
      isTerminalFlowStatus settled.status = true := by
  have hnone : flow.cancelRequestedAt ≠ none := by
    intro hn
    rw [hn] at hreq
    cases hreq
  have hlist : ¬((listTasksForFlowId r flowId).any fun candidate => isActiveTaskStatus candidate.status) = true := by
    rw [List.any_eq_true]
    rintro ⟨candidate, hmem, hactive⟩
    obtain ⟨taskId, ht, hp⟩ := listTasksForFlowId_linked hco (trimmed_trimmed? hparent) hmem
    rw [hidle taskId candidate ht hp] at hactive
    cases hactive
  unfold syncManagedFlowCancellationFromTask
  simp only [hparent, getTaskFlowById, hf]
  by_cases hterminal : isTerminalFlowStatus flow.status = true
  · rw [if_pos (.inr (.inr hterminal))]
    exact ⟨flow, hf, hterminal⟩
  · obtain ⟨record, hrecord, hstatus⟩ := applyFlowPatch_managed (hs.controlled flowId flow hf hmode)
      (cancelledFlowPatch ((task.endedAt.or task.lastEventAt).getD now)) rfl now
    have hid : record.flowId = flowId := (applyFlowPatch_written hrecord).flowId.trans (hs.keyed flowId flow hf)
    rw [if_neg (by simp [hmode, hnone, hterminal]), if_neg hlist]
    refine ⟨record, ?_, ?_⟩
    · simp only [updateFlowRecordByIdExpectedRevision, hf, ne_eq, not_true, if_false, hrecord, writeFlowRecord, hid,
        InsertionMap.get?_set_self]
    · rw [hstatus]
      rfl

/-- The update of a linked task that leaves none of the flow's tasks active leaves the
flow in a terminal status. -/
theorem updateTask_settles (hco : Coherent r) (hs : FlowsSound r.flows) {taskId : String} {patch : TaskPatch}
    (hrun : patch.KeepsRunId) {now : Int} {current : TaskRecord} (hc : r.tasks.get? taskId = some current)
    {flowId : String} (hparent : trimmed? (nextRecord patch current now).parentFlowId = some flowId)
    {flow : TaskFlowRecord} (hf : r.flows.get? flowId = some flow) (hmode : flow.syncMode = .managed)
    (hreq : flow.cancelRequestedAt.isSome = true)
    (hidle : ∀ id task, (updateTask taskId patch now r).2.tasks.get? id = some task →
      trimmed? task.parentFlowId = some flowId → isActiveTaskStatus task.status = false) :
    ∃ settled, (updateTask taskId patch now r).2.flows.get? flowId = some settled ∧
      isTerminalFlowStatus settled.status = true := by
  have hre := coherent_reindex hco hc now hrun
  have htasks : (updateTask taskId patch now r).2.tasks =
      (reindexTask taskId patch current (nextRecord patch current now) r).tasks := by
    obtain ⟨flows, heq⟩ := updateTask_eq hc patch now
    rw [heq]
  have hflows : (reindexTask taskId patch current (nextRecord patch current now) r).flows = r.flows := rfl
  have hsync : syncFlowFromTask (nextRecord patch current now) now r.flows = r.flows := by
    simp [syncFlowFromTask, hparent, getTaskFlowById, hf, hmode]
  rw [htasks] at hidle
  simp only [updateTask, hc]
  generalize hnext : nextRecord patch current now = next at *
  generalize reindexTask taskId patch current next r = u at *
  rw [hflows, hsync]
  exact syncManaged_settles (r := {u with flows := r.flows}) (hre.congr rfl rfl rfl rfl rfl) hs now hparent hf hmode
    hreq hidle

end Settle

/-! ### Revisions -/

section Revisions
variable {env : ChannelEnv} {flowId : String} {r t : Registry}

/-- A write of a flow counts its revision up by one. -/
theorem writeStep_revision (hk : FlowsKeyed r.flows) {w : Write} (h : writeStep env w r = some t)
    {flow next : TaskFlowRecord} (hf : r.flows.get? flowId = some flow) (hn : t.flows.get? flowId = some next) :
    next = flow ∨ next.revision = flow.revision + 1 := by
  unfold writeStep at h
  split at h
  · rename_i he
    cases h
    have hdraw (params : CreateFlowParams) (now : Int) : w ≠ .createFlow params flowId now := by
      rintro rfl
      simp [Write.enabled, hf] at he
    obtain ⟨old, hold, hstep⟩ : ∃ old, r.flows.get? flowId = some old ∧ (next = old ∨ FlowWritten True old next) :=
      write_flow hk (fun _ _ => trivial) hdraw hn
    rw [hf] at hold
    cases hold
    exact hstep.imp_right FlowWritten.revision
  · cases h

/-- A flow that is not created anew does not go back to an old revision. -/
theorem writes_revision {clears : String → Prop} (h : Writes env (· ≠ flowId) clears r t) (hs : FlowsSound r.flows)
    {revision : Int} (hr : ∀ flow, r.flows.get? flowId = some flow → revision < flow.revision) :
    ∀ flow, t.flows.get? flowId = some flow → revision < flow.revision := by
  refine (h.keeps (I := fun u => FlowsSound u.flows ∧ ∀ flow, u.flows.get? flowId = some flow →
    revision < flow.revision) (fun w u hu hc _ => ⟨write_sound hu.1, fun record hrecord => ?_⟩) ⟨hs, hr⟩).2
  obtain ⟨flow, hf, rfl | hw⟩ := write_flow hu.1.keyed hc.keeps (fun _ _ he => by subst he; exact hc rfl) hrecord
  · exact hu.2 record hf
  · have hold := hu.2 flow hf
    have hnext := hw.revision
    omega

/-- An update at an old revision is refused. -/
theorem update_refused {flows : Flows} {expectedRevision : Int}
    (h : ∀ flow, flows.get? flowId = some flow → expectedRevision < flow.revision) (patch : FlowRecordPatch)
    (now : Int) :
    (∀ flow, (updateFlowRecordByIdExpectedRevision flowId expectedRevision patch now flows).1 ≠ .ok (.applied flow)) ∧
      (updateFlowRecordByIdExpectedRevision flowId expectedRevision patch now flows).2 = flows := by
  unfold updateFlowRecordByIdExpectedRevision
  cases hf : flows.get? flowId with
  | none => exact ⟨fun _ => nofun, rfl⟩
  | some flow =>
    have hlt := h flow hf
    dsimp only
    rw [if_pos (by omega)]
    exact ⟨fun _ => nofun, rfl⟩

theorem update_applied {flows : Flows} {expectedRevision : Int} {patch : FlowRecordPatch} {now : Int}
    {applied : TaskFlowRecord} (hk : FlowsKeyed flows)
    (h : (updateFlowRecordByIdExpectedRevision flowId expectedRevision patch now flows).1 = .ok (.applied applied)) :
    ∀ flow, (updateFlowRecordByIdExpectedRevision flowId expectedRevision patch now flows).2.get? flowId = some flow →
      expectedRevision < flow.revision := by
  unfold updateFlowRecordByIdExpectedRevision at h ⊢
  cases hf : flows.get? flowId with
  | none =>
    rw [hf] at h
    cases h
  | some current =>
    rw [hf] at h
    dsimp only at h ⊢
    split at h
    · cases h
    · rename_i hrevision
      rw [if_neg hrevision]
      cases hp : applyFlowPatch current patch now with
      | error e =>
        rw [hp] at h
        cases h
      | ok next =>
        intro flow hflow
        have hw := applyFlowPatch_written hp
        have hid : next.flowId = flowId := hw.flowId.trans (hk flowId current hf)
        simp only [writeFlowRecord, hid, InsertionMap.get?_set_self] at hflow
        cases hflow
        have hnext := hw.revision
        omega

end Revisions

/-! ### Cancellation sticks -/

theorem Writes.coherent {env : ChannelEnv} {draws clears : String → Prop} {r t : Registry}
    (h : Writes env draws clears r t) (hr : Coherent r) : Coherent t :=
  h.keeps (fun _ _ hu _ he => coherent_write hu (writeStep_some he)) hr

/-- The links a raw write makes are checked. -/
def LinksChecked : FlowEvent → Registry → Prop := FlowEvent.Checked (fun _ => True) fun _ => True

/-- ... and the flow is neither created anew, nor freed of a request to cancel it. -/
def KeepsRequest (flowId : String) : FlowEvent → Registry → Prop := FlowEvent.Checked (· ≠ flowId) (· ≠ flowId)

/-- ... and the flow is not created anew. -/
def KeepsFlowId (flowId : String) : FlowEvent → Registry → Prop := FlowEvent.Checked (· ≠ flowId) fun _ => True

/-- **Cancellation of a managed flow sticks.** From any state of the registries: a flow
that was asked to cancel gains no task for as long as the request is not taken back;
an update of one of its tasks that leaves none active leaves it in a terminal status;
a write of a flow counts its revision up by one; and of two updates at one revision
the second is refused. -/
theorem managed_cancellation_sticks (env : ChannelEnv) (tasks : InsertionMap String TaskRecord)
    (deliveryStates : InsertionMap String TaskDeliveryState) (flows : Flows) (hkeyed : FlowsKeyed flows)
    (before : List FlowEvent) (s : Registry)
    (hbefore : (flowStep env).Within LinksChecked before (restoreTaskRegistry tasks deliveryStates flows))
    (hs : (flowStep env).run before (restoreTaskRegistry tasks deliveryStates flows) = some s) (flowId : String) :
    (∀ after t, (flowStep env).Within (KeepsRequest flowId) after s → (flowStep env).run after s = some t →
      CancelRequested flowId s → ∀ taskId, LinkedTo flowId taskId t → LinkedTo flowId taskId s) ∧
    (∀ taskId patch now current flow, s.tasks.get? taskId = some current → patch.KeepsRunId →
      trimmed? (nextRecord patch current now).parentFlowId = some flowId → s.flows.get? flowId = some flow →
      flow.syncMode = .managed → flow.cancelRequestedAt.isSome = true →
      (∀ id task, (updateTask taskId patch now s).2.tasks.get? id = some task →
        trimmed? task.parentFlowId = some flowId → isActiveTaskStatus task.status = false) →
      ∃ settled, (updateTask taskId patch now s).2.flows.get? flowId = some settled ∧
        isTerminalFlowStatus settled.status = true) ∧
    (∀ w t flow next, writeStep env w s = some t → s.flows.get? flowId = some flow → t.flows.get? flowId = some next →
        next = flow ∨ next.revision = flow.revision + 1) ∧
    ∀ expectedRevision first firstNow applied after t,
      (updateFlowRecordByIdExpectedRevision flowId expectedRevision first firstNow s.flows).1 = .ok (.applied applied) →
      (flowStep env).Within (KeepsFlowId flowId) after {s with flows :=
        (updateFlowRecordByIdExpectedRevision flowId expectedRevision first firstNow s.flows).2} →
      (flowStep env).run after {s with flows :=
        (updateFlowRecordByIdExpectedRevision flowId expectedRevision first firstNow s.flows).2} = some t →
      ∀ second secondNow,
        (∀ flow, (updateFlowRecordByIdExpectedRevision flowId expectedRevision second secondNow t.flows).1 ≠
          .ok (.applied flow)) ∧
        (updateFlowRecordByIdExpectedRevision flowId expectedRevision second secondNow t.flows).2 = t.flows := by
  have hstart : FlowsSound (restoreTaskRegistry tasks deliveryStates flows).flows := by
    rw [restore_flows]
    exact restoreFlows_sound hkeyed
  have hreach := flowEvents_writes hstart hbefore hs
  have hsound := hreach.sound hstart
  have hcoherent := hreach.coherent (coherent_restore tasks deliveryStates flows)
  refine ⟨fun after t hafter ht hreq taskId hl => ?_, ?_, ?_, ?_⟩
  · exact writes_links (flowEvents_writes hsound hafter ht) hsound hreq hl
  · intro taskId patch now current flow hc hrun hparent hf hmode hreq hidle
    exact updateTask_settles hcoherent hsound hrun hc hparent hf hmode hreq hidle
  · intro w t flow next hw hf hnext
    exact writeStep_revision hsound.keyed hw hf hnext
  · intro expectedRevision first firstNow applied after t hfirst hafter ht second secondNow
    have hwritten : FlowsWritten (fun _ => True) s.flows
        (updateFlowRecordByIdExpectedRevision flowId expectedRevision first firstNow s.flows).2 :=
      flowsWritten_update hsound.keyed expectedRevision (fun _ => trivial) firstNow
    have hnext := hwritten.sound hsound
    exact update_refused (writes_revision (flowEvents_writes hnext hafter ht) hnext
      (update_applied hsound.keyed hfirst)) second secondNow

/-! ### A flow that is asked to cancel -/

def childRun (runId : String) : CreateTaskParams :=
  { runtime := .acp, childSessionKey := some "child", runId := some runId, task := "Patch file" }

/-- A flow with one running task is asked to cancel. -/
def requestedEvents : List FlowEvent :=
  [.step (.call (.createFlowRecord { ownerKey := "main", goal := "g", controllerId := some "c" } "flow" 10)),
    .runTaskInFlow "flow" true (childRun "run") "a" "none" 20, .beginCancelFlow "flow" 30]

def requestedFlow : Registry := ((flowStep ⟨some, id⟩).run requestedEvents (restoreTaskRegistry ∅ ∅ ∅)).getD {}

/-- Another child is asked for, and the running one is cancelled. -/
def childrenSettle : List FlowEvent :=
  [.runTaskInFlow "flow" true (childRun "late") "b" "none" 40, .step (.call (.recordCancelled "a" 50))]

theorem managed_cancellation_sticks_requested :
    (∃ t, (flowStep ⟨some, id⟩).run childrenSettle requestedFlow = some t ∧
      ∀ taskId, LinkedTo "flow" taskId t → LinkedTo "flow" taskId requestedFlow) ∧
    (∃ settled, (updateTask "a" {status := some .cancelled} 50 requestedFlow).2.flows.get? "flow" = some settled ∧
      isTerminalFlowStatus settled.status = true) ∧
    ∀ patch now, (updateFlowRecordByIdExpectedRevision "flow" 1 patch now (updateFlowRecordByIdExpectedRevision "flow" 1
      (resumeFlowPatch none none none none) 60 requestedFlow.flows).2).2 = (updateFlowRecordByIdExpectedRevision "flow" 1
      (resumeFlowPatch none none none none) 60 requestedFlow.flows).2 := by
  have hkeyed : FlowsKeyed ∅ := fun _ _ h => nomatch h
  have hbefore : (flowStep ⟨some, id⟩).Within LinksChecked requestedEvents (restoreTaskRegistry ∅ ∅ ∅) :=
    ⟨trivial, fun _ _ => ⟨trivial, fun _ _ => ⟨trivial, fun _ _ => trivial⟩⟩⟩
  have hs : (flowStep ⟨some, id⟩).run requestedEvents (restoreTaskRegistry ∅ ∅ ∅) = some requestedFlow := by rfl
  obtain ⟨hlinks, hsettles, -, hrefused⟩ := managed_cancellation_sticks ⟨some, id⟩ ∅ ∅ ∅ hkeyed requestedEvents
    requestedFlow hbefore hs "flow"
  obtain ⟨flow, hf⟩ : ∃ flow, requestedFlow.flows.get? "flow" = some flow := ⟨_, rfl⟩
  have hflow : (requestedFlow.flows.get? "flow").map (fun flow => (flow.syncMode, flow.cancelRequestedAt)) =
      some (.managed, some 30) := by decide
  rw [hf] at hflow
  obtain ⟨hmode, hreq⟩ := Prod.mk.inj (Option.some.inj hflow)
  have hset : flow.cancelRequestedAt.isSome = true := congrArg Option.isSome hreq
  refine ⟨?_, ?_, fun patch now => ?_⟩
  · obtain ⟨t, ht⟩ : ∃ t, (flowStep ⟨some, id⟩).run childrenSettle requestedFlow = some t := ⟨_, rfl⟩
    have hkept : (flowStep ⟨some, id⟩).Within (KeepsRequest "flow") childrenSettle requestedFlow := by
      refine ⟨?_, fun _ _ => ⟨trivial, fun _ _ => trivial⟩⟩
      show "none" ≠ "flow"
      decide
    refine ⟨t, ht, hlinks childrenSettle t hkept ht fun other hother => ?_⟩
    rw [hf] at hother
    cases hother
    exact ⟨hmode, hset⟩
  · obtain ⟨task, htask⟩ : ∃ task, requestedFlow.tasks.get? "a" = some task := ⟨_, rfl⟩
    refine hsettles "a" _ 50 task flow htask (.inl rfl) ?_ hf hmode hset fun k record hrecord _ => ?_
    · have hparent : (requestedFlow.tasks.get? "a").bind (fun task =>
          trimmed? (nextRecord {status := some .cancelled} task 50).parentFlowId) = some "flow" := by decide
      rw [htask] at hparent
      exact hparent
    · have hidle : ∀ p ∈ (updateTask "a" {status := some .cancelled} 50 requestedFlow).2.tasks.entries,
          isActiveTaskStatus p.2.status = false := by decide
      exact hidle (k, record) ((InsertionMap.get?_eq_some ..).mp hrecord)
  · obtain ⟨applied, happlied⟩ : ∃ applied, (updateFlowRecordByIdExpectedRevision "flow" 1
        (resumeFlowPatch none none none none) 60 requestedFlow.flows).1 = .ok (.applied applied) := ⟨_, rfl⟩
    exact (hrefused 1 _ 60 applied [] _ happlied trivial rfl patch now).2

/-- The request is taken back by an update at the current revision, and another task is
linked. A request that finds no task active is not settled by the update of a task
of no flow. -/
theorem request_taken_back :
    (listTasksForFlowId requestedFlow "flow").map TaskRecord.taskId = ["a"] ∧
    ((flowStep ⟨some, id⟩).run [.step (.call (.updateFlowRecordByIdExpectedRevision "flow" 1
        {cancelRequestedAt := some none} 40)), .runTaskInFlow "flow" true (childRun "late") "b" "none" 50]
      requestedFlow).map (fun t => (listTasksForFlowId t "flow").map TaskRecord.taskId) = some ["b", "a"] ∧
    ((flowStep ⟨some, id⟩).run
      [.step (.call (.createFlowRecord { ownerKey := "main", goal := "g", controllerId := some "c" } "flow" 10)),
        .step (.call (.createTaskRecord { runtime := .cli, ownerKey := some "main", task := "t" } "a" 20)),
        .step (.call (.updateFlowRecordByIdExpectedRevision "flow" 0 (requestFlowCancelPatch none none 30) 30)),
        .step (.call (.recordCancelled "a" 40))] (restoreTaskRegistry ∅ ∅ ∅)).map
      (fun t => (t.flows.get? "flow").map fun flow => (flow.cancelRequestedAt, flow.status)) =
        some (some (some 30, .queued)) := by
  decide

end OpenClaw.Tasks
