import OpenClaw.Foundation.Run
import OpenClaw.Tasks.Maintenance

/-! The task registry with its deliveries: who is told of a task, and when.

A write that may end a task asks for its terminal delivery at once. A delivery to a
channel leaves the registry until the message is sent or fails, and so does the
cancellation of a task until its child session has answered; meanwhile anything
else may run. What a message says is left out, and a session's event queue is taken
to accept what is queued. -/
namespace OpenClaw.Tasks
open Foundation Foundation.EcmaString

inductive TaskEventKind where
  | status (status : TaskStatus)
  | progress
  deriving DecidableEq, Repr

structure TaskEventRecord where
  «at» : Int
  kind : TaskEventKind
  summary : Option String := none

structure DeliveryEnv where
  channels : ChannelEnv
  isDeliverableMessageChannel : String → Bool
  /-- Is anything left of a progress summary that is made fit for a status line? -/
  hasStatusText : Option String → Bool

/-! ### Whom a task is reported to -/

structure TaskDeliveryOwner where
  sessionKey : Option String := none
  requesterOrigin : Option DeliveryContext := none
  flowId : Option String := none

def getLinkedFlowForDelivery (r : Registry) (task : TaskRecord) : Option TaskFlowRecord :=
  match trimmed? task.parentFlowId with
  | none => none
  | some flowId =>
    if task.scopeKind ≠ .session then none
    else (getTaskFlowById r.flows flowId).filter fun flow =>
      normalizeOwnerKey flow.ownerKey = normalizeOwnerKey task.ownerKey

variable (env : DeliveryEnv)

def resolveTaskDeliveryOwner (r : Registry) (task : TaskRecord) : TaskDeliveryOwner :=
  let stateOrigin := (r.taskDeliveryStates.get? task.taskId).bind TaskDeliveryState.requesterOrigin
  match getLinkedFlowForDelivery r task with
  | some flow =>
    { sessionKey := some (trim flow.ownerKey)
      requesterOrigin := normalizeDeliveryContext env.channels (flow.requesterOrigin.or stateOrigin)
      flowId := some flow.flowId }
  | none =>
    if task.scopeKind ≠ .session then {}
    else
      { sessionKey := some (trim task.ownerKey)
        requesterOrigin := normalizeDeliveryContext env.channels stateOrigin }

def canDeliverTaskToRequesterOrigin (r : Registry) (task : TaskRecord) : Bool :=
  let origin := (resolveTaskDeliveryOwner env r task).requesterOrigin
  (trimmed? (origin.bind DeliveryContext.channel)).any env.isDeliverableMessageChannel &&
    (trimmed? (origin.bind DeliveryContext.to)).isSome

def resolveMissingOwnerDeliveryStatus (task : TaskRecord) : TaskDeliveryStatus :=
  if task.scopeKind = .system then .notApplicable else .parentMissing

/-! ### What is reported -/

def shouldAutoDeliverTaskTerminalUpdate (task : TaskRecord) : Bool :=
  task.notifyPolicy ≠ .silent && (task.runtime ≠ .subagent || task.status = .cancelled) &&
    isTerminalTaskStatus task.status && task.deliveryStatus = .pending

def shouldAutoDeliverTaskStateChange (task : TaskRecord) : Bool :=
  task.notifyPolicy = .stateChanges && task.deliveryStatus = .pending && !isTerminalTaskStatus task.status

/-- Has the event a text? -/
def formatsTaskStateChange (event : TaskEventRecord) : Bool :=
  match event.kind with
  | .status status => status = .running
  | .progress => env.hasStatusText event.summary

def getPeerTasksForDelivery (r : Registry) (task : TaskRecord) : List TaskRecord :=
  match trimmed? task.runId with
  | none => []
  | some runId => (getTasksByRunId r runId).filter fun candidate =>
      candidate.runtime = task.runtime ∧ candidate.scopeKind = task.scopeKind ∧
      normalizeComparableText (some candidate.ownerKey) = normalizeComparableText (some task.ownerKey) ∧
      normalizeComparableText candidate.childSessionKey = normalizeComparableText task.childSessionKey

/-- Another acp task of the same run tells of it. -/
def shouldSuppressDuplicateTerminalDelivery (r : Registry) (task : TaskRecord) : Bool :=
  task.runtime = .acp && (trimmed? task.runId).isSome &&
    (pickPreferredRunIdTask (getPeerTasksForDelivery r task)).any fun preferred =>
      preferred.taskId ≠ "" ∧ preferred.taskId ≠ task.taskId

/-! ### The registry at work -/

structure StateChangeSend where
  taskId : String
  requesterOrigin : Option DeliveryContext
  eventAt : Int

structure TaskSystem where
  registry : Registry
  tasksWithPendingDelivery : List String := []
  /-- The tasks whose terminal message is being sent. -/
  terminalSends : List String := []
  stateChangeSends : List StateChangeSend := []
  /-- The tasks whose child sessions have been asked to stop. -/
  cancelling : List TaskRecord := []
  /-- History: the tasks whose terminal message was handed over, once for each time. -/
  handed : List String := []
  /-- History: the deleted tasks. -/
  deleted : List String := []

namespace TaskSystem

def write (f : Registry → Option TaskRecord × Registry) (s : TaskSystem) : TaskSystem :=
  {s with registry := (f s.registry).2}

/-- Asks for the terminal delivery of a task, up to where it waits for the channel. -/
def maybeDeliverTaskTerminalUpdate (taskId : String) (now : Int) (s : TaskSystem) : TaskSystem :=
  match s.registry.tasks.get? taskId with
  | none => s
  | some current =>
    if !shouldAutoDeliverTaskTerminalUpdate current ∨ taskId ∈ s.tasksWithPendingDelivery then s
    else if shouldSuppressDuplicateTerminalDelivery s.registry current then
      s.write (recordTerminalDelivery taskId .notApplicable now)
    else
      match trimmed? (resolveTaskDeliveryOwner env s.registry current).sessionKey with
      | none => s.write (recordTerminalDelivery taskId (resolveMissingOwnerDeliveryStatus current) now)
      | some _ =>
        let s := {s with handed := s.handed ++ [taskId]}
        if canDeliverTaskToRequesterOrigin env s.registry current then
          {s with
            tasksWithPendingDelivery := taskId :: s.tasksWithPendingDelivery
            terminalSends := s.terminalSends ++ [taskId]}
        else s.write (recordTerminalDelivery taskId .sessionQueued now)

/-- The message was sent, or failed and went to the session's queue. -/
def finishTerminalSend (i : Nat) (sent : Bool) (now : Int) (s : TaskSystem) : Option TaskSystem :=
  s.terminalSends[i]?.map fun taskId =>
    {s.write (recordTerminalDelivery taskId (if sent then .delivered else .failed) now) with
      terminalSends := s.terminalSends.eraseIdx i
      tasksWithPendingDelivery := s.tasksWithPendingDelivery.filter (· ≠ taskId)}

/-- Asks for the delivery of a change of a task that goes on. -/
def maybeDeliverTaskStateChangeUpdate (taskId : String) (latestEvent : Option TaskEventRecord) (now : Int)
    (s : TaskSystem) : TaskSystem :=
  match s.registry.tasks.get? taskId, latestEvent with
  | some current, some event =>
    let deliveryState := s.registry.taskDeliveryStates.get? taskId
    let requesterOrigin := deliveryState.bind TaskDeliveryState.requesterOrigin
    if !shouldAutoDeliverTaskStateChange current ∨
        event.at ≤ (deliveryState.bind TaskDeliveryState.lastNotifiedEventAt).getD 0 ∨
        !formatsTaskStateChange env event then s
    else
      match trimmed? (resolveTaskDeliveryOwner env s.registry current).sessionKey with
      | none => s.write (recordTerminalDelivery taskId (resolveMissingOwnerDeliveryStatus current) now)
      | some _ =>
        if canDeliverTaskToRequesterOrigin env s.registry current then
          {s with stateChangeSends := s.stateChangeSends ++ [⟨taskId, requesterOrigin, event.at⟩]}
        else s.write (recordStateChangeDelivery env.channels taskId requesterOrigin event.at now)
  | _, _ => s

def finishStateChangeSend (i : Nat) (sent : Bool) (now : Int) (s : TaskSystem) : Option TaskSystem :=
  s.stateChangeSends[i]?.map fun send =>
    let s := {s with stateChangeSends := s.stateChangeSends.eraseIdx i}
    if sent then s.write (recordStateChangeDelivery env.channels send.taskId send.requesterOrigin send.eventAt now)
    else s

/-- A write and the notices it asks for. -/
def updateAndNotify (taskId : String) (patch : TaskPatch) (event : Option TaskEventRecord) (now : Int)
    (s : TaskSystem) : TaskSystem :=
  match updateTask taskId patch now s.registry with
  | (none, _) => s
  | (some _, r) =>
    (({s with registry := r}).maybeDeliverTaskStateChangeUpdate env taskId event now).maybeDeliverTaskTerminalUpdate
      env taskId now

/-! ### Agent events and updates by run id -/

/-- The status that an agent event gives to the tasks of its run. -/
def eventStatus (evt : AgentEvent) : Option TaskStatus :=
  match evt.stream, evt.phase with
  | .lifecycle, some .start => some .running
  | .lifecycle, some .end => some (if evt.aborted then .timedOut else .succeeded)
  | .lifecycle, some .error => some .failed
  | _, _ => none

/-- The change of a task that an agent event makes known. -/
def agentEventRecord (evt : AgentEvent) (current : TaskRecord) (at' : Int) : Option TaskEventRecord :=
  (eventStatus evt).bind fun status =>
    if status = current.status then none
    else
      let patch := agentEventPatch evt current at'
      some ⟨at', .status status, normalizeTaskSummary (
        if status = .failed then (patch.error.join).or current.error
        else if status = .succeeded then current.terminalSummary
        else none)⟩

/-- The listener, with the notices it asks for. -/
def onAgentEvent (evt : AgentEvent) (now : Int) (s : TaskSystem) : TaskSystem :=
  let at' := if evt.ts = 0 then now else evt.ts
  (getTasksByRunScope s.registry evt.runId none evt.sessionKey).foldl (fun s current =>
    s.updateAndNotify env current.taskId (agentEventPatch evt current at') (agentEventRecord evt current at') now) s

/-- The change that an update by run id makes known. -/
def runUpdateRecord (params : RunUpdate) (eventSummary : Option String) (current : TaskRecord) (now : Int) :
    Option TaskEventRecord :=
  let nextStatus := params.status.getD current.status
  let summary := (normalizeTaskSummary eventSummary).or (
    if nextStatus = .failed then normalizeTaskSummary (params.error.or current.error)
    else if nextStatus = .succeeded then normalizeTaskSummary (params.terminalSummary.join.or current.terminalSummary)
    else none)
  if nextStatus ≠ current.status ∨ (normalizeTaskSummary eventSummary).isSome then
    some ⟨(params.lastEventAt.or params.endedAt).getD now,
      if nextStatus ≠ current.status then .status nextStatus else .progress, normalizeTaskSummary summary⟩
  else none

def updateTaskStateByRunId (runId : String) (runtime : Option TaskRuntime) (sessionKey : Option String)
    (params : RunUpdate) (eventSummary : Option String) (now : Int) (s : TaskSystem) :
    TaskSystem :=
  (getTasksByRunScope s.registry runId runtime sessionKey).foldl (fun s current =>
    s.updateAndNotify env current.taskId (params.patch current) (runUpdateRecord params eventSummary current now)
      now) s

def setTaskRunDeliveryStatusByRunId (runId : String) (runtime : Option TaskRuntime) (sessionKey : Option String)
    (deliveryStatus : TaskDeliveryStatus) (now : Int) (s : TaskSystem) : TaskSystem :=
  {s with registry :=
    OpenClaw.Tasks.setTaskRunDeliveryStatusByRunId runId runtime sessionKey deliveryStatus now s.registry}

/-! ### Creation, cancellation, sweeps -/

/-- A creation; a new task that has ended already is reported at once. -/
def createTaskRecord (env : DeliveryEnv) (params : CreateTaskParams) (taskId : String) (now : Int)
    (s : TaskSystem) : TaskSystem :=
  let s := {s with registry := (OpenClaw.Tasks.createTaskRecord env.channels params taskId now s.registry).2}
  -- a creation that merged into another record has none of this id
  match s.registry.tasks.get? taskId with
  | some task => if isTerminalTaskStatus task.status then s.maybeDeliverTaskTerminalUpdate env taskId now else s
  | none => s

/-- The start of `cancelTaskById`: the child session is asked to stop. -/
def beginCancel (taskId : String) (s : TaskSystem) : TaskSystem :=
  match getTaskById s.registry taskId with
  | some task => if cancellable task then {s with cancelling := s.cancelling ++ [task]} else s
  | none => s

/-- The end of `cancelTaskById`: the child session has stopped, or has not. -/
def finishCancel (i : Nat) (stopped : Bool) (now : Int) (s : TaskSystem) : Option TaskSystem :=
  s.cancelling[i]?.map fun task =>
    let s := {s with cancelling := s.cancelling.eraseIdx i}
    if stopped then
      match recordCancelled task.taskId now s.registry with
      | (none, _) => s
      | (some _, r) => ({s with registry := r}).maybeDeliverTaskTerminalUpdate env task.taskId now
    else s

/-- What a sweep does to one task of its list. -/
def sweep (maintenance : MaintenanceEnv) (taskId : String) (now clock : Int) (s : TaskSystem) : TaskSystem :=
  let r := sweepTask maintenance taskId now clock s.registry
  match sweepAction maintenance taskId now s.registry with
  | .markLost current => ({s with registry := r}).maybeDeliverTaskTerminalUpdate env current.taskId clock
  | .prune current => {s with registry := r, deleted := s.deleted ++ [current.taskId]}
  | _ => {s with registry := r}

end TaskSystem

/-! ### The machine -/

inductive TaskEvent where
  | agentEvent (evt : AgentEvent) (now : Int)
  | runUpdate (runId : String) (runtime : Option TaskRuntime) (sessionKey : Option String) (params : RunUpdate)
      (eventSummary : Option String) (now : Int)
  | runDelivery (runId : String) (runtime : Option TaskRuntime) (sessionKey : Option String)
      (deliveryStatus : TaskDeliveryStatus) (now : Int)
  | create (params : CreateTaskParams) (taskId : String) (now : Int)
  | beginCancel (taskId : String)
  | finishCancel (i : Nat) (stopped : Bool) (now : Int)
  | sweepTask (maintenance : MaintenanceEnv) (taskId : String) (now clock : Int)
  | deliver (taskId : String) (now : Int)
  | finishTerminalSend (i : Nat) (sent : Bool) (now : Int)
  | finishStateChangeSend (i : Nat) (sent : Bool) (now : Int)

def taskStep : Machine TaskSystem TaskEvent
  | .agentEvent evt now, s => some (s.onAgentEvent env evt now)
  | .runUpdate runId runtime sessionKey params eventSummary now, s =>
    some (s.updateTaskStateByRunId env runId runtime sessionKey params eventSummary now)
  | .runDelivery runId runtime sessionKey deliveryStatus now, s =>
    some (s.setTaskRunDeliveryStatusByRunId runId runtime sessionKey deliveryStatus now)
  | .create params taskId now, s =>
    -- a random id is none that is or was in use
    if (s.registry.tasks.get? taskId).isSome ∨ taskId ∈ s.deleted then none
    else some (s.createTaskRecord env params taskId now)
  | .beginCancel taskId, s => some (s.beginCancel taskId)
  | .finishCancel i stopped now, s => s.finishCancel env i stopped now
  | .sweepTask maintenance taskId now clock, s => some (s.sweep env maintenance taskId now clock)
  | .deliver taskId now, s => some (s.maybeDeliverTaskTerminalUpdate env taskId now)
  | .finishTerminalSend i sent now, s => s.finishTerminalSend i sent now
  | .finishStateChangeSend i sent now, s => s.finishStateChangeSend env i sent now

end OpenClaw.Tasks
