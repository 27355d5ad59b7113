import OpenClaw.Tasks.Calls

/-! Task runs and their flows: one-task flows, retries of a blocked flow, child
tasks of a managed flow, and the cancellation of a flow.

Everything here is a composition of the registries' writers; `createTaskRun_writes`
and its likes say so. `cancelFlowById` awaits between its writes, so its two flow
writes stand by themselves. -/
namespace OpenClaw.Tasks
open Foundation Foundation.EcmaString

/-! ### Task runs -/

def isOneTaskFlowEligible (task : TaskRecord) : Bool :=
  (trimmed? task.parentFlowId).isNone && task.scopeKind = .session && task.deliveryStatus ≠ .notApplicable &&
    (task.runtime = .acp || task.runtime = .subagent)

/-- Give a detached task a flow of its own. What throws is logged and left as it is. -/
def ensureSingleTaskFlow (task : TaskRecord) (requesterOrigin : Option DeliveryContext) (flowId : String)
    (now : Int) (r : Registry) : TaskRecord × Registry :=
  if !isOneTaskFlowEligible task then (task, r)
  else
    match createTaskFlowForTask task requesterOrigin flowId now r.flows with
    | (.error _, _) => (task, r)
    | (.ok flow, flows) =>
      match linkTaskToFlowById task.taskId flow.flowId now {r with flows := flows} with
      | (.error _, r) => (task, r)
      | (.ok none, r) => (task, {r with flows := (deleteTaskFlowRecordById flow.flowId r.flows).2})
      | (.ok (some linked), r) =>
        if linked.parentFlowId ≠ some flow.flowId then
          (linked, {r with flows := (deleteTaskFlowRecordById flow.flowId r.flows).2})
        else (linked, r)

/-- A task in the given status, with its flow. -/
def createTaskRun (env : ChannelEnv) (status : TaskStatus) (params : CreateTaskParams)
    (taskId flowId : String) (now : Int) (r : Registry) : Except TaskError TaskRecord × Registry :=
  match createTaskRecord env {params with status := some status} taskId now r with
  | (.error e, r) => (.error e, r)
  | (.ok task, r) =>
    match ensureSingleTaskFlow task params.requesterOrigin flowId now r with
    | (task, r) => (.ok task, r)

def createQueuedTaskRun (env : ChannelEnv) := createTaskRun env .queued

def createRunningTaskRun (env : ChannelEnv) := createTaskRun env .running

def completeTaskRunByRunId (runId : String) (runtime : Option TaskRuntime) (sessionKey : Option String)
    (endedAt : Int) (lastEventAt : Option Int) (progressSummary terminalSummary : Option (Option String))
    (terminalOutcome : Option (Option TaskTerminalOutcome)) (now : Int) (r : Registry) : Registry :=
  updateTaskStateByRunId runId runtime sessionKey {
    status := some .succeeded
    endedAt := some endedAt
    lastEventAt := lastEventAt
    progressSummary := progressSummary
    terminalSummary := terminalSummary
    terminalOutcome := terminalOutcome } now r

def failTaskRunByRunId (runId : String) (runtime : Option TaskRuntime) (sessionKey : Option String)
    (status : Option TaskStatus) (endedAt : Int) (lastEventAt : Option Int) (error : Option String)
    (progressSummary terminalSummary : Option (Option String)) (now : Int) (r : Registry) : Registry :=
  updateTaskStateByRunId runId runtime sessionKey {
    status := some (status.getD .failed)
    endedAt := some endedAt
    lastEventAt := lastEventAt
    error := error
    progressSummary := progressSummary
    terminalSummary := terminalSummary } now r

/-! ### Retrying a blocked flow -/

structure RetryableBlockedFlowTask where
  flowFound : Bool
  retryable : Bool
  latestTask : Option TaskRecord := none
  reason : Option String := none

def resolveRetryableBlockedFlowTask (r : Registry) (flowId : String) : RetryableBlockedFlowTask :=
  match getTaskFlowById r.flows flowId with
  | none => { flowFound := false, retryable := false, reason := some "Flow not found." }
  | some flow =>
    match findLatestTaskForFlowId r flowId with
    | none => { flowFound := true, retryable := false, reason := some "Flow has no retryable task." }
    | some latestTask =>
      if flow.status ≠ .blocked then
        { flowFound := true, retryable := false, latestTask := some latestTask,
          reason := some "Flow is not blocked." }
      else if latestTask.status ≠ .succeeded ∨ latestTask.terminalOutcome ≠ some .blocked then
        { flowFound := true, retryable := false, latestTask := some latestTask,
          reason := some "Latest TaskFlow task is not blocked." }
      else { flowFound := true, retryable := true, latestTask := some latestTask }

structure RetryBlockedFlowParams where
  flowId : String
  sourceId : Option String := none
  requesterOrigin : Option DeliveryContext := none
  childSessionKey : Option String := none
  agentId : Option String := none
  runId : Option String := none
  label : Option String := none
  task : Option String := none
  preferMetadata : Bool := false
  notifyPolicy : Option TaskNotifyPolicy := none
  deliveryStatus : Option TaskDeliveryStatus := none
  status : TaskStatus
  startedAt : Option Int := none
  lastEventAt : Option Int := none
  progressSummary : Option String := none

structure RetryBlockedFlowResult where
  found : Bool
  retried : Bool
  reason : Option String := none
  previousTask : Option TaskRecord := none
  task : Option TaskRecord := none

/-- The task a retry creates, from the one that was blocked. -/
def retryTaskParams (params : RetryBlockedFlowParams) (flow : TaskFlowRecord) (latestTask : TaskRecord) :
    CreateTaskParams where
  runtime := latestTask.runtime
  sourceId := params.sourceId.or latestTask.sourceId
  ownerKey := some flow.ownerKey
  scopeKind := some .session
  requesterOrigin := params.requesterOrigin.or flow.requesterOrigin
  parentFlowId := some flow.flowId
  childSessionKey := params.childSessionKey
  parentTaskId := some latestTask.taskId
  agentId := params.agentId.or latestTask.agentId
  runId := params.runId
  label := params.label.or latestTask.label
  task := params.task.getD latestTask.task
  preferMetadata := params.preferMetadata
  notifyPolicy := some (params.notifyPolicy.getD latestTask.notifyPolicy)
  deliveryStatus := some (params.deliveryStatus.getD .pending)
  status := some params.status
  startedAt := params.startedAt
  lastEventAt := params.lastEventAt
  progressSummary := params.progressSummary

def retryBlockedFlowTask (env : ChannelEnv) (params : RetryBlockedFlowParams) (taskId : String) (now : Int)
    (r : Registry) : Except TaskError RetryBlockedFlowResult × Registry :=
  let resolved := resolveRetryableBlockedFlowTask r params.flowId
  match resolved.retryable, resolved.latestTask, getTaskFlowById r.flows params.flowId with
  | true, some latestTask, some flow =>
    match createTaskRecord env (retryTaskParams params flow latestTask) taskId now r with
    | (.error e, r) => (.error e, r)
    | (.ok task, r) =>
      (.ok { found := true, retried := true, previousTask := some latestTask, task := some task }, r)
  | true, some latestTask, none =>
    (.ok { found := false, retried := false, reason := some "Flow not found.",
           previousTask := some latestTask }, r)
  | _, _, _ => (.ok { found := resolved.flowFound, retried := false, reason := resolved.reason }, r)

def retryBlockedFlowAsQueuedTaskRun (env : ChannelEnv) (params : RetryBlockedFlowParams) :=
  retryBlockedFlowTask env {params with status := .queued}

def retryBlockedFlowAsRunningTaskRun (env : ChannelEnv) (params : RetryBlockedFlowParams) :=
  retryBlockedFlowTask env {params with status := .running}

/-! ### Child tasks of a managed flow -/

structure RunTaskInFlowResult where
  found : Bool
  created : Bool
  reason : Option String := none
  flow : Option TaskFlowRecord := none
  task : Option TaskRecord := none

/-- The refusals of a link are results; every other error is thrown on. -/
def mapRunTaskInFlowCreateError (error : TaskError) (flow : Option TaskFlowRecord) :
    Except TaskError RunTaskInFlowResult :=
  match error with
  | .parentFlowLink .cancelRequested _ _ _ =>
    .ok { found := true, created := false,
          reason := some "Flow cancellation has already been requested.", flow := flow }
  | .parentFlowLink .terminal _ _ status =>
    let terminalStatus := ((flow.map TaskFlowRecord.status).or status).elim "terminal" TaskFlowStatus.name
    .ok { found := true, created := false, reason := some ("Flow is already " ++ terminalStatus ++ "."),
          flow := flow }
  | .parentFlowLink .parentFlowNotFound _ _ _ =>
    .ok { found := false, created := false, reason := some "Flow not found." }
  | error => .error error

/-- `params.parentFlowId` names the flow. A queued child has no start, event or
progress of its own. -/
def runTaskInFlow (env : ChannelEnv) (flowId : String) (running : Bool) (params : CreateTaskParams)
    (taskId newFlowId : String) (now : Int) (r : Registry) :
    Except TaskError RunTaskInFlowResult × Registry :=
  match getTaskFlowById r.flows flowId with
  | none => (.ok { found := false, created := false, reason := some "Flow not found." }, r)
  | some flow =>
    if flow.syncMode ≠ .managed then
      (.ok { found := true, created := false, reason := some "Flow does not accept managed child tasks.",
             flow := some flow }, r)
    else if flow.cancelRequestedAt.isSome then
      (.ok { found := true, created := false, reason := some "Flow cancellation has already been requested.",
             flow := some flow }, r)
    else if isTerminalFlowStatus flow.status then
      (.ok { found := true, created := false, reason := some ("Flow is already " ++ flow.status.name ++ "."),
             flow := some flow }, r)
    else
      let common : CreateTaskParams :=
        {params with
          ownerKey := some flow.ownerKey
          scopeKind := some .session
          requesterOrigin := flow.requesterOrigin
          parentFlowId := some flow.flowId
          deliveryStatus := some (params.deliveryStatus.getD .pending)}
      let result :=
        if running then createRunningTaskRun env common taskId newFlowId now r
        else createQueuedTaskRun env {common with startedAt := none, lastEventAt := none, progressSummary := none}
          taskId newFlowId now r
      match result with
      | (.error e, r) => (mapRunTaskInFlowCreateError e (getTaskFlowById r.flows flow.flowId), r)
      | (.ok task, r) =>
        (.ok { found := true, created := true,
               flow := (getTaskFlowById r.flows flow.flowId).or (some flow), task := some task }, r)

/-! ### Cancelling a flow -/

/-- The request that opens the cancellation of a flow. -/
def markFlowCancelRequested (flow : TaskFlowRecord) (now : Int) (r : Registry) : Registry :=
  if flow.cancelRequestedAt.isSome then r
  else {r with flows := (updateFlowRecordByIdExpectedRevision flow.flowId flow.revision
    (requestFlowCancelPatch none none now) now r.flows).2}

/-- The write that closes it, once no linked task is active and the flow has not ended. -/
def settleCancelledFlow (flowId : String) (now : Int) (r : Registry) : Registry :=
  if (listTasksForFlowId r flowId).any fun task => isActiveTaskStatus task.status then r
  else
    match getTaskFlowById r.flows flowId with
    | none => r
    | some flow =>
      if isTerminalFlowStatus flow.status then r
      else {r with flows := (updateFlowRecordByIdExpectedRevision flow.flowId flow.revision
        (cancelledFlowPatch now) now r.flows).2}

/-- The start of `cancelFlowById`; the cancellations of the linked tasks follow. -/
def beginCancelFlow (flowId : String) (now : Int) (r : Registry) : Registry :=
  match getTaskFlowById r.flows flowId with
  | none => r
  | some flow => if isTerminalFlowStatus flow.status then r else markFlowCancelRequested flow now r

/-! ### The writes they are made of -/

section Writes
variable {env : ChannelEnv} {draws clears : String → Prop} {r : Registry}

theorem ensureSingleTaskFlow_writes (task : TaskRecord) (requesterOrigin : Option DeliveryContext) {flowId : String}
    (now : Int) (hflow : (r.flows.get? flowId).isNone = true) (hdraw : draws flowId) :
    Writes env draws clears r (ensureSingleTaskFlow task requesterOrigin flowId now r).2 := by
  unfold ensureSingleTaskFlow
  split
  · exact .refl
  · have hcreate : Writes env draws clears r {r with
        flows := (createTaskFlowForTask task requesterOrigin flowId now r.flows).2} :=
      Writes.one (w := .createFlow (taskFlowParams task requesterOrigin) flowId now) hflow hdraw
    cases hc : createTaskFlowForTask task requesterOrigin flowId now r.flows with
    | mk result flows =>
      rw [hc] at hcreate
      cases result with
      | error e => exact .refl
      | ok flow =>
        have hlink := hcreate.trans (linkTaskToFlowById_writes task.taskId flow.flowId now)
        dsimp only
        cases hl : linkTaskToFlowById task.taskId flow.flowId now {r with flows := flows} with
        | mk linked u =>
          rw [hl] at hlink
          have hdelete := hlink.trans (Writes.one (w := .deleteFlow flow.flowId) rfl trivial)
          cases linked with
          | error e => exact hlink
          | ok found =>
            cases found with
            | none => exact hdelete
            | some linked =>
              dsimp only
              split
              · exact hdelete
              · exact hlink

theorem createTaskRun_writes (status : TaskStatus) (params : CreateTaskParams) (taskId flowId : String) (now : Int)
    (htask : (r.tasks.get? taskId).isNone = true)
    (hflow : ((createTaskRecord env {params with status := some status} taskId now r).2.flows.get?
      flowId).isNone = true) (hdraw : draws flowId) :
    Writes env draws clears r (createTaskRun env status params taskId flowId now r).2 := by
  have hcreate : Writes env draws clears r (createTaskRecord env {params with status := some status} taskId now r).2 :=
    createTaskRecord_writes htask
  unfold createTaskRun
  cases hc : createTaskRecord env {params with status := some status} taskId now r with
  | mk result u =>
    rw [hc] at hcreate hflow
    cases result with
    | error e => exact hcreate
    | ok task => exact hcreate.trans (ensureSingleTaskFlow_writes task params.requesterOrigin now hflow hdraw)

theorem retryBlockedFlowTask_writes (params : RetryBlockedFlowParams) {taskId : String} (now : Int)
    (htask : (r.tasks.get? taskId).isNone = true) :
    Writes env draws clears r (retryBlockedFlowTask env params taskId now r).2 := by
  unfold retryBlockedFlowTask
  dsimp only
  split
  · rename_i latestTask flow _ _ _
    have hcreate : Writes env draws clears r (createTaskRecord env (retryTaskParams params flow latestTask) taskId now
        r).2 := createTaskRecord_writes htask
    cases hc : createTaskRecord env (retryTaskParams params flow latestTask) taskId now r with
    | mk result u =>
      rw [hc] at hcreate
      cases result <;> exact hcreate
  · exact .refl
  · exact .refl

theorem runTaskInFlow_writes (flowId : String) (running : Bool) (params : CreateTaskParams) {taskId newFlowId : String}
    (now : Int) (htask : (r.tasks.get? taskId).isNone = true)
    (hflow : ∀ params, ((createTaskRecord env params taskId now r).2.flows.get? newFlowId).isNone = true)
    (hdraw : draws newFlowId) :
    Writes env draws clears r (runTaskInFlow env flowId running params taskId newFlowId now r).2 := by
  unfold runTaskInFlow
  have hrun (status : TaskStatus) (child : CreateTaskParams) :
      Writes env draws clears r (createTaskRun env status child taskId newFlowId now r).2 :=
    createTaskRun_writes status child taskId newFlowId now htask (hflow _) hdraw
  split
  · exact .refl
  · split
    · exact .refl
    · split
      · exact .refl
      · split
        · exact .refl
        · dsimp only
          cases running with
          | true =>
            rw [if_pos rfl]
            split <;> rename_i hresult <;> exact congrArg Prod.snd hresult ▸ hrun .running _
          | false =>
            rw [if_neg Bool.false_ne_true]
            split <;> rename_i hresult <;> exact congrArg Prod.snd hresult ▸ hrun .queued _

theorem markFlowCancelRequested_writes (flow : TaskFlowRecord) (now : Int) :
    Writes env draws clears r (markFlowCancelRequested flow now r) := by
  unfold markFlowCancelRequested
  split
  · exact .refl
  · exact Writes.one (w := .updateFlow _ _ _ now) rfl nofun

theorem beginCancelFlow_writes (flowId : String) (now : Int) :
    Writes env draws clears r (beginCancelFlow flowId now r) := by
  unfold beginCancelFlow
  split
  · exact .refl
  · split
    · exact .refl
    · exact markFlowCancelRequested_writes _ now

theorem settleCancelledFlow_writes (flowId : String) (now : Int) :
    Writes env draws clears r (settleCancelledFlow flowId now r) := by
  unfold settleCancelledFlow
  split
  · exact .refl
  · split
    · exact .refl
    · split
      · exact .refl
      · exact Writes.one (w := .updateFlow _ _ _ now) rfl nofun

end Writes

end OpenClaw.Tasks
