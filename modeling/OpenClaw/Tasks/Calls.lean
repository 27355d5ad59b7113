import OpenClaw.Foundation.Run
import OpenClaw.Tasks.Writers

/-! The calls the task registry and the flow registry take, and the writes they
are made of.

A call runs to its end, but the deliveries it starts write in between, and those
after an `await` write at any later time. So the machine also takes each write by
itself: a run of writes is any interleaving of what calls and deliveries do, and
`call_writes` says that a call is such a run. -/
namespace OpenClaw.Tasks
open Foundation Foundation.EcmaString

/-- One record written. -/
inductive Write where
  | insertTask (params : CreateTaskParams) (taskId : String) (now : Int)
  | updateTask (taskId : String) (patch : TaskPatch) (now : Int)
  | deleteTask (taskId : String)
  | deliveryState (state : TaskDeliveryState)
  | createFlow (params : CreateFlowParams) (flowId : String) (now : Int)
  | updateFlow (flowId : String) (expectedRevision : Int) (patch : FlowRecordPatch) (now : Int)
  | deleteFlow (flowId : String)

def Write.apply (env : ChannelEnv) : Write → Registry → Registry
  | .insertTask params taskId now, r => OpenClaw.Tasks.insertTask env params taskId now r
  | .updateTask taskId patch now, r => (OpenClaw.Tasks.updateTask taskId patch now r).2
  | .deleteTask taskId, r => (deleteTaskRecordById taskId r).2
  | .deliveryState state, r => upsertTaskDeliveryState env state r
  | .createFlow params flowId now, r => {r with flows := (createFlowRecord params flowId now r.flows).2}
  | .updateFlow flowId expectedRevision patch now, r =>
    {r with flows := (updateFlowRecordByIdExpectedRevision flowId expectedRevision patch now r.flows).2}
  | .deleteFlow flowId, r => {r with flows := (deleteTaskFlowRecordById flowId r.flows).2}

/-- A drawn id is not in use, and nobody patches a run id. -/
def Write.enabled : Write → Registry → Bool
  | .insertTask _ taskId _, r => (r.tasks.get? taskId).isNone
  | .createFlow _ flowId _, r => (r.flows.get? flowId).isNone
  | .updateTask _ patch _, _ => patch.runId = none
  | _, _ => true

def writeStep (env : ChannelEnv) : Machine Registry Write := fun w r =>
  if w.enabled r then some (w.apply env r) else none

/-- The patch is not of a field that says whose run a task is. -/
def TaskPatch.KeepsOwner (patch : TaskPatch) : Prop :=
  patch.ownerKey = none ∧ patch.childSessionKey = none ∧ patch.runId = none

/-- The patch names the task as before. -/
def TaskPatch.KeepsName (patch : TaskPatch) : Prop := patch.label = none ∧ patch.task = none

/-- A task is linked to a flow only where the check of a link to it has passed, it is
inserted only where no record is found to merge into, and only a merge gives it
another name. New flows have ids in `draws`, and a request for cancellation is taken
back only of the flows in `clears`. -/
def Write.Checked (draws clears : String → Prop) : Write → Registry → Prop
  | .insertTask params _ _, r =>
    assertParentFlowLinkAllowed r.flows params.resolvedOwnerKey params.resolvedScopeKind params.parentFlowId = .ok () ∧
      findExistingTaskForCreate r params = none
  | .updateTask taskId patch _, r =>
    (∀ parentFlowId, patch.parentFlowId = some parentFlowId → (trimmed? parentFlowId).isSome = true ∧
      ∃ ownerKey scopeKind, assertParentFlowLinkAllowed r.flows ownerKey scopeKind parentFlowId = .ok ()) ∧
    patch.KeepsOwner ∧ (patch.KeepsName ∨ ∃ params existing,
      findExistingTaskForCreate r params = some existing ∧ existing.taskId = taskId ∧ patch = mergePatch existing params)
  | .createFlow _ flowId _, _ => draws flowId
  | .updateFlow flowId _ patch _, _ => patch.cancelRequestedAt = some none → clears flowId
  | .deleteTask _, _ => True
  | .deliveryState _, _ => True
  | .deleteFlow _, _ => True

/-- A call of an exported writer. `recordCancelled` and the deliveries are the
writes that follow an `await`. -/
inductive Call where
  | createTaskRecord (params : CreateTaskParams) (taskId : String) (now : Int)
  | setTaskProgressById (taskId : String) (progressSummary : Option (Option String))
      (lastEventAt : Option Int) (now : Int)
  | setTaskTimingById (taskId : String) (startedAt endedAt lastEventAt : Option Int) (now : Int)
  | setTaskCleanupAfterById (taskId : String) (cleanupAfter now : Int)
  | markTaskTerminalById (taskId : String) (status : TaskStatus) (endedAt : Int) (lastEventAt : Option Int)
      (error : Option String) (terminalSummary : Option (Option String))
      (terminalOutcome : Option (Option TaskTerminalOutcome)) (now : Int)
  | markTaskLostById (taskId : String) (endedAt : Int) (lastEventAt : Option Int) (error : Option String)
      (cleanupAfter : Option Int) (now : Int)
  | updateTaskNotifyPolicyById (taskId : String) (notifyPolicy : TaskNotifyPolicy) (now : Int)
  | recordTerminalDelivery (taskId : String) (deliveryStatus : TaskDeliveryStatus) (now : Int)
  | recordStateChangeDelivery (taskId : String) (requesterOrigin : Option DeliveryContext)
      (eventAt now : Int)
  | linkTaskToFlowById (taskId flowId : String) (now : Int)
  | updateTaskStateByRunId (runId : String) (runtime : Option TaskRuntime) (sessionKey : Option String)
      (params : RunUpdate) (now : Int)
  | setTaskRunDeliveryStatusByRunId (runId : String) (runtime : Option TaskRuntime)
      (sessionKey : Option String) (deliveryStatus : TaskDeliveryStatus) (now : Int)
  | onAgentEvent (evt : AgentEvent) (now : Int)
  | recordCancelled (taskId : String) (now : Int)
  | deleteTaskRecordById (taskId : String)
  | createFlowRecord (params : CreateFlowParams) (flowId : String) (now : Int)
  | updateFlowRecordByIdExpectedRevision (flowId : String) (expectedRevision : Int)
      (patch : FlowRecordPatch) (now : Int)
  | deleteTaskFlowRecordById (flowId : String)

def Call.apply (env : ChannelEnv) : Call → Registry → Registry
  | .createTaskRecord params taskId now, r => (OpenClaw.Tasks.createTaskRecord env params taskId now r).2
  | .setTaskProgressById taskId progressSummary lastEventAt now, r =>
    (OpenClaw.Tasks.setTaskProgressById taskId progressSummary lastEventAt now r).2
  | .setTaskTimingById taskId startedAt endedAt lastEventAt now, r =>
    (OpenClaw.Tasks.setTaskTimingById taskId startedAt endedAt lastEventAt now r).2
  | .setTaskCleanupAfterById taskId cleanupAfter now, r =>
    (OpenClaw.Tasks.setTaskCleanupAfterById taskId cleanupAfter now r).2
  | .markTaskTerminalById taskId status endedAt lastEventAt error terminalSummary terminalOutcome now, r =>
    (OpenClaw.Tasks.markTaskTerminalById taskId status endedAt lastEventAt error terminalSummary
      terminalOutcome now r).2
  | .markTaskLostById taskId endedAt lastEventAt error cleanupAfter now, r =>
    (OpenClaw.Tasks.markTaskLostById taskId endedAt lastEventAt error cleanupAfter now r).2
  | .updateTaskNotifyPolicyById taskId notifyPolicy now, r =>
    (OpenClaw.Tasks.updateTaskNotifyPolicyById taskId notifyPolicy now r).2
  | .recordTerminalDelivery taskId deliveryStatus now, r =>
    (OpenClaw.Tasks.recordTerminalDelivery taskId deliveryStatus now r).2
  | .recordStateChangeDelivery taskId requesterOrigin eventAt now, r =>
    (OpenClaw.Tasks.recordStateChangeDelivery env taskId requesterOrigin eventAt now r).2
  | .linkTaskToFlowById taskId flowId now, r => (OpenClaw.Tasks.linkTaskToFlowById taskId flowId now r).2
  | .updateTaskStateByRunId runId runtime sessionKey params now, r =>
    OpenClaw.Tasks.updateTaskStateByRunId runId runtime sessionKey params now r
  | .setTaskRunDeliveryStatusByRunId runId runtime sessionKey deliveryStatus now, r =>
    OpenClaw.Tasks.setTaskRunDeliveryStatusByRunId runId runtime sessionKey deliveryStatus now r
  | .onAgentEvent evt now, r => OpenClaw.Tasks.onAgentEvent evt now r
  | .recordCancelled taskId now, r => (OpenClaw.Tasks.recordCancelled taskId now r).2
  | .deleteTaskRecordById taskId, r => (OpenClaw.Tasks.deleteTaskRecordById taskId r).2
  | .createFlowRecord params flowId now, r =>
    {r with flows := (OpenClaw.Tasks.createFlowRecord params flowId now r.flows).2}
  | .updateFlowRecordByIdExpectedRevision flowId expectedRevision patch now, r =>
    {r with flows :=
      (OpenClaw.Tasks.updateFlowRecordByIdExpectedRevision flowId expectedRevision patch now r.flows).2}
  | .deleteTaskFlowRecordById flowId, r =>
    {r with flows := (OpenClaw.Tasks.deleteTaskFlowRecordById flowId r.flows).2}

/-- The drawn ids of a call are not in use. -/
def Call.enabled : Call → Registry → Bool
  | .createTaskRecord _ taskId _, r => (r.tasks.get? taskId).isNone
  | .createFlowRecord _ flowId _, r => (r.flows.get? flowId).isNone
  | _, _ => true

inductive Step where
  | call (c : Call)
  | write (w : Write)

/-- The registries under calls and the writes between them. -/
def registryStep (env : ChannelEnv) : Machine Registry Step
  | .call c, r => if c.enabled r then some (c.apply env r) else none
  | .write w, r => writeStep env w r

/-! ### A call is a run of writes -/

theorem writeStep_some {env : ChannelEnv} {w : Write} {r : Registry} (h : w.enabled r = true) :
    writeStep env w r = some (w.apply env r) := if_pos h

/-- A run of checked writes takes the registry to `t`. -/
def Writes (env : ChannelEnv) (draws clears : String → Prop) (r t : Registry) : Prop :=
  ∃ ws, (writeStep env).run ws r = some t ∧ (writeStep env).Within (Write.Checked draws clears) ws r

section Writes
variable {env : ChannelEnv} {draws clears : String → Prop} {r t u : Registry}

theorem Writes.refl : Writes env draws clears r r := ⟨[], rfl, trivial⟩

theorem Writes.trans (h : Writes env draws clears r u) (h' : Writes env draws clears u t) :
    Writes env draws clears r t := by
  obtain ⟨ws, hrun, hc⟩ := h
  obtain ⟨ws', hrun', hc'⟩ := h'
  refine ⟨ws ++ ws', ?_, Machine.within_append _ hc hrun hc'⟩
  rw [Machine.run_append, hrun]
  exact hrun'

theorem Writes.one {w : Write} (he : w.enabled r = true) (hc : w.Checked draws clears r) :
    Writes env draws clears r (w.apply env r) := by
  refine ⟨[w], ?_, hc, fun _ _ => trivial⟩
  rw [Machine.run_cons, writeStep_some he]
  rfl

/-- The patch links the task to nothing, and leaves it its run and its name. -/
structure TaskPatch.Plain (patch : TaskPatch) : Prop where
  link : patch.parentFlowId = none
  owner : patch.KeepsOwner
  name : patch.KeepsName

theorem Writes.update {taskId : String} {patch : TaskPatch} (h : patch.Plain) (now : Int) :
    Writes env draws clears r (updateTask taskId patch now r).2 := by
  refine Writes.one (w := .updateTask taskId patch now) (decide_eq_true h.owner.2.2)
    ⟨fun parentFlowId hp => ?_, h.owner, .inl h.name⟩
  rw [h.link] at hp
  cases hp

theorem updateTasks_writes {patches : List (String × TaskPatch)} (hp : ∀ p ∈ patches, p.2.Plain) (now : Int) :
    Writes env draws clears r (updateTasks patches now r) := by
  induction patches generalizing r with
  | nil => exact .refl
  | cons p rest ih =>
    exact (Writes.update (hp p List.mem_cons_self) now).trans (ih fun q hq => hp q (List.mem_cons_of_mem _ hq))

theorem agentEventPatch_plain (evt : AgentEvent) (current : TaskRecord) (at' : Int) :
    (agentEventPatch evt current at').Plain := by
  unfold agentEventPatch
  dsimp only
  split
  · split <;> exact ⟨rfl, ⟨rfl, rfl, rfl⟩, rfl, rfl⟩
  · exact ⟨rfl, ⟨rfl, rfl, rfl⟩, rfl, rfl⟩
  · exact ⟨rfl, ⟨rfl, rfl, rfl⟩, rfl, rfl⟩

theorem mergeDeliveryState_writes (existing : TaskRecord) (params : CreateTaskParams) :
    Writes env draws clears r (mergeDeliveryState env existing params r) := by
  unfold mergeDeliveryState
  dsimp only
  split
  · exact Writes.one (w := .deliveryState _) rfl trivial
  · exact .refl

theorem assertParentFlowLinkAllowed_trimmed (flows : Flows) (ownerKey : String) (scopeKind : TaskScopeKind)
    (parentFlowId : Option String) : assertParentFlowLinkAllowed flows ownerKey scopeKind (trimmed? parentFlowId) =
      assertParentFlowLinkAllowed flows ownerKey scopeKind parentFlowId := by
  rw [assertParentFlowLinkAllowed, trimmed?_trimmed?, assertParentFlowLinkAllowed]

theorem findExistingTaskForCreate_mergeDeliveryState (existing : TaskRecord) (params other : CreateTaskParams) :
    findExistingTaskForCreate (mergeDeliveryState env existing params r) other = findExistingTaskForCreate r other := by
  unfold mergeDeliveryState upsertTaskDeliveryState
  dsimp only
  split
  · split <;> rfl
  · rfl

/-- What a merge links was checked against the owner of the record. -/
theorem mergePatch_links {existing : TaskRecord} {params : CreateTaskParams} {parentFlowId : Option String}
    (h : (mergePatch existing params).parentFlowId = some parentFlowId) :
    parentFlowId = trimmed? params.parentFlowId ∧ (trimmed? parentFlowId).isSome = true := by
  simp only [mergePatch] at h
  split at h
  · rename_i hgiven
    cases h
    rw [trimmed?_trimmed?]
    exact ⟨rfl, hgiven.1⟩
  · cases h

theorem createTaskRecord_writes {params : CreateTaskParams} {taskId : String} {now : Int}
    (hfresh : (r.tasks.get? taskId).isNone = true) :
    Writes env draws clears r (createTaskRecord env params taskId now r).2 := by
  unfold createTaskRecord
  split
  · exact .refl
  · split
    · exact .refl
    · rename_i hallowed
      split
      · rename_i existing hfound
        unfold mergeExistingTaskForCreate
        dsimp only
        have hstate : Writes env draws clears r (mergeDeliveryState env existing params r) :=
          mergeDeliveryState_writes existing params
        split
        · exact hstate
        · rename_i hlink
          split
          · exact hstate
          · refine hstate.trans (Writes.one (w := .updateTask existing.taskId (mergePatch existing params) now) rfl ?_)
            refine ⟨fun parentFlowId hp => ?_, ⟨rfl, rfl, rfl⟩, .inr ⟨params, existing, ?_, rfl, rfl⟩⟩
            · simp only [hp, Option.isSome_some, if_true] at hlink
              refine ⟨(mergePatch_links hp).2, existing.ownerKey, existing.scopeKind, ?_⟩
              rw [(mergePatch_links hp).1, assertParentFlowLinkAllowed_trimmed]
              exact hlink
            · rw [findExistingTaskForCreate_mergeDeliveryState]
              exact hfound
      · rename_i hnone
        exact Writes.one (w := .insertTask params taskId now) hfresh ⟨hallowed, hnone⟩

theorem linkTaskToFlowById_writes (taskId flowId : String) (now : Int) :
    Writes env draws clears r (linkTaskToFlowById taskId flowId now r).2 := by
  unfold linkTaskToFlowById
  split
  · split
    · exact .refl
    · split
      · exact .refl
      · rename_i flowId' current hflow _ _ _ hallowed
        refine Writes.one (w := .updateTask taskId {parentFlowId := some (some flowId')} now) rfl ?_
        refine ⟨fun parentFlowId hp => ?_, ⟨rfl, rfl, rfl⟩, .inl ⟨rfl, rfl⟩⟩
        cases hp
        exact ⟨congrArg Option.isSome (trimmed_trimmed hflow), _, _, hallowed⟩
  · exact .refl

/-- The flow writes a call makes are checked. -/
def Call.Checked (draws clears : String → Prop) : Call → Prop
  | .createFlowRecord _ flowId _ => draws flowId
  | .updateFlowRecordByIdExpectedRevision flowId _ patch _ => patch.cancelRequestedAt = some none → clears flowId
  | _ => True

theorem call_writes {c : Call} (h : c.enabled r = true) (hc : c.Checked draws clears) :
    Writes env draws clears r (c.apply env r) := by
  cases c with
  | createTaskRecord params taskId now => exact createTaskRecord_writes h
  | setTaskProgressById taskId progressSummary lastEventAt now => exact Writes.update ⟨rfl, ⟨rfl, rfl, rfl⟩, rfl, rfl⟩ now
  | setTaskTimingById taskId startedAt endedAt lastEventAt now => exact Writes.update ⟨rfl, ⟨rfl, rfl, rfl⟩, rfl, rfl⟩ now
  | setTaskCleanupAfterById taskId cleanupAfter now => exact Writes.update ⟨rfl, ⟨rfl, rfl, rfl⟩, rfl, rfl⟩ now
  | markTaskTerminalById taskId status endedAt lastEventAt error terminalSummary terminalOutcome now =>
    exact Writes.update ⟨rfl, ⟨rfl, rfl, rfl⟩, rfl, rfl⟩ now
  | markTaskLostById taskId endedAt lastEventAt error cleanupAfter now => exact Writes.update ⟨rfl, ⟨rfl, rfl, rfl⟩, rfl, rfl⟩ now
  | updateTaskNotifyPolicyById taskId notifyPolicy now => exact Writes.update ⟨rfl, ⟨rfl, rfl, rfl⟩, rfl, rfl⟩ now
  | recordTerminalDelivery taskId deliveryStatus now => exact Writes.update ⟨rfl, ⟨rfl, rfl, rfl⟩, rfl, rfl⟩ now
  | recordStateChangeDelivery taskId requesterOrigin eventAt now =>
    exact (Writes.one (w := .deliveryState ⟨taskId, requesterOrigin, some eventAt⟩) rfl trivial).trans
      (Writes.update ⟨rfl, ⟨rfl, rfl, rfl⟩, rfl, rfl⟩ now)
  | linkTaskToFlowById taskId flowId now => exact linkTaskToFlowById_writes taskId flowId now
  | updateTaskStateByRunId runId runtime sessionKey params now =>
    refine updateTasks_writes (fun p hp => ?_) now
    obtain ⟨current, _, rfl⟩ := List.mem_map.mp hp
    exact ⟨rfl, ⟨rfl, rfl, rfl⟩, rfl, rfl⟩
  | setTaskRunDeliveryStatusByRunId runId runtime sessionKey deliveryStatus now =>
    refine updateTasks_writes (fun p hp => ?_) now
    obtain ⟨current, _, rfl⟩ := List.mem_map.mp hp
    exact ⟨rfl, ⟨rfl, rfl, rfl⟩, rfl, rfl⟩
  | onAgentEvent evt now =>
    refine updateTasks_writes (fun p hp => ?_) now
    obtain ⟨current, _, rfl⟩ := List.mem_map.mp hp
    exact agentEventPatch_plain _ _ _
  | recordCancelled taskId now => exact Writes.update ⟨rfl, ⟨rfl, rfl, rfl⟩, rfl, rfl⟩ now
  | deleteTaskRecordById taskId => exact Writes.one (w := .deleteTask taskId) rfl trivial
  | createFlowRecord params flowId now => exact Writes.one (w := .createFlow params flowId now) h hc
  | updateFlowRecordByIdExpectedRevision flowId expectedRevision patch now =>
    exact Writes.one (w := .updateFlow flowId expectedRevision patch now) rfl hc
  | deleteTaskFlowRecordById flowId => exact Writes.one (w := .deleteFlow flowId) rfl trivial

/-- The flow writes of a step, and the links of a write by itself, are checked. -/
def Step.Checked (draws clears : String → Prop) : Step → Registry → Prop
  | .call c, _ => c.Checked draws clears
  | .write w, r => w.Checked draws clears r

theorem step_writes {step : Step} (h : registryStep env step r = some t) (hc : step.Checked draws clears r) :
    Writes env draws clears r t := by
  cases step with
  | call c =>
    simp only [registryStep] at h
    split at h
    · rename_i he
      cases h
      exact call_writes he hc
    · cases h
  | write w =>
    refine ⟨[w], ?_, hc, fun _ _ => trivial⟩
    rw [Machine.run_cons, show writeStep env w r = some t from h]
    rfl

end Writes

/-- Every run of calls and writes is a run of writes. -/
theorem steps_writes (env : ChannelEnv) (steps : List Step) {r r' : Registry}
    (h : (registryStep env).run steps r = some r') : ∃ ws, (writeStep env).run ws r = some r' := by
  induction steps generalizing r with
  | nil => exact ⟨[], h⟩
  | cons step rest ih =>
    obtain ⟨u, hu, hr⟩ := (Machine.run_cons_some _).mp h
    obtain ⟨ws, hws⟩ := ih hr
    have hstep : ∃ ws, (writeStep env).run ws r = some u := by
      cases step with
      | call c =>
        simp only [registryStep] at hu
        split at hu
        · rename_i he
          cases hu
          have hc : c.Checked (fun _ => True) (fun _ => True) := by
            cases c <;> simp [Call.Checked]
          obtain ⟨ws, hrun, -⟩ : Writes env (fun _ => True) (fun _ => True) r (c.apply env r) := call_writes he hc
          exact ⟨ws, hrun⟩
        · cases hu
      | write w =>
        refine ⟨[w], ?_⟩
        rw [Machine.run_cons]
        show (registryStep env (.write w) r).bind _ = _
        rw [hu]
        rfl
    obtain ⟨first, hfirst⟩ := hstep
    exact ⟨first ++ ws, by rw [Machine.run_append, hfirst]; exact hws⟩

end OpenClaw.Tasks
