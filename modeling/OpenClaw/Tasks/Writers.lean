import OpenClaw.Tasks.Registry

/-! The writers of the task registry: creation and merging, updates by id and by
run id, agent events, links, cancellation, deliveries and deletion.

A call that throws returns its error with the state it leaves. What a delivery
tells whom is left out: a delivery is the write that records it. -/
namespace OpenClaw.Tasks
open Foundation Foundation.EcmaString

/-! ### Creation -/

inductive ParentFlowLinkErrorCode where
  | scopeKindNotSession | parentFlowNotFound | ownerKeyMismatch | cancelRequested | terminal
  deriving DecidableEq, Repr

inductive TaskError where
  | invalid (message : String)
  | parentFlowLink (code : ParentFlowLinkErrorCode) (message : String) (flowId : String)
      (status : Option TaskFlowStatus)
  deriving DecidableEq, Repr

def assertTaskOwner (ownerKey : String) (scopeKind : TaskScopeKind) : Except TaskError Unit :=
  if trim ownerKey = "" ∧ scopeKind ≠ .system then .error (.invalid "Task ownerKey is required.") else .ok ()

def assertParentFlowLinkAllowed (flows : Flows) (ownerKey : String) (scopeKind : TaskScopeKind)
    (parentFlowId : Option String) : Except TaskError Unit :=
  match trimmed? parentFlowId with
  | none => .ok ()
  | some flowId =>
    if scopeKind ≠ .session then
      .error (.parentFlowLink .scopeKindNotSession "Only session-scoped tasks can link to flows." flowId none)
    else
      match getTaskFlowById flows flowId with
      | none =>
        .error (.parentFlowLink .parentFlowNotFound ("Parent flow not found: " ++ flowId) flowId none)
      | some flow =>
        if normalizeOwnerKey flow.ownerKey ≠ normalizeOwnerKey ownerKey then
          .error (.parentFlowLink .ownerKeyMismatch "Task ownerKey must match parent flow ownerKey." flowId none)
        else if flow.cancelRequestedAt ≠ none then
          .error (.parentFlowLink .cancelRequested "Parent flow cancellation has already been requested." flowId
            (some flow.status))
        else if isTerminalFlowStatus flow.status then
          .error (.parentFlowLink .terminal ("Parent flow is already " ++ flow.status.name ++ ".") flowId
            (some flow.status))
        else .ok ()

def ensureDeliveryStatus (ownerKey : String) (scopeKind : TaskScopeKind) : TaskDeliveryStatus :=
  if scopeKind = .system then .notApplicable
  else if trim ownerKey = "" then .parentMissing
  else .pending

def ensureNotifyPolicy (notifyPolicy : Option TaskNotifyPolicy) (deliveryStatus : Option TaskDeliveryStatus)
    (ownerKey : String) (scopeKind : TaskScopeKind) : TaskNotifyPolicy :=
  match notifyPolicy with
  | some policy => policy
  | none =>
    if deliveryStatus.getD (ensureDeliveryStatus ownerKey scopeKind) = .notApplicable then .silent
    else .doneOnly

structure CreateTaskParams where
  runtime : TaskRuntime
  taskKind : Option String := none
  sourceId : Option String := none
  requesterSessionKey : Option String := none
  ownerKey : Option String := none
  scopeKind : Option TaskScopeKind := none
  requesterOrigin : Option DeliveryContext := none
  childSessionKey : Option String := none
  parentFlowId : Option String := none
  parentTaskId : Option String := none
  agentId : Option String := none
  runId : Option String := none
  label : Option String := none
  task : String
  preferMetadata : Bool := false
  status : Option TaskStatus := none
  deliveryStatus : Option TaskDeliveryStatus := none
  notifyPolicy : Option TaskNotifyPolicy := none
  startedAt : Option Int := none
  lastEventAt : Option Int := none
  cleanupAfter : Option Int := none
  progressSummary : Option String := none
  terminalSummary : Option String := none
  terminalOutcome : Option TaskTerminalOutcome := none

variable (env : ChannelEnv) (params : CreateTaskParams) (taskId : String)

namespace CreateTaskParams

/-- `resolveTaskRequesterSessionKey`. -/
def resolvedRequesterSessionKey : String :=
  match trimmed? params.requesterSessionKey with
  | some key => key
  | none => if params.scopeKind = some .system then "" else (params.ownerKey.map trim).getD ""

/-- `resolveTaskScopeKind`. -/
def resolvedScopeKind : TaskScopeKind :=
  params.scopeKind.getD (if trim params.resolvedRequesterSessionKey = "" then .system else .session)

/-- `resolveTaskOwnerKey`. -/
def resolvedOwnerKey : String :=
  (trimmed? params.ownerKey).getD (trim params.resolvedRequesterSessionKey)

end CreateTaskParams

def resolveTaskTerminalOutcome (status : TaskStatus) (terminalOutcome : Option TaskTerminalOutcome) :
    Option TaskTerminalOutcome :=
  terminalOutcome.or (if status = .succeeded then some .succeeded else none)

/-- The record that a call would merge into: the same run in the same scope. -/
def findExistingTaskForCreate (r : Registry) (params : CreateTaskParams) : Option TaskRecord :=
  (trimmed? params.runId).bind fun runId =>
    let runScopeMatches := (getTasksByRunId r runId).filter fun task =>
      task.runtime = params.runtime ∧ task.scopeKind = params.resolvedScopeKind ∧
      normalizeComparableText (some task.ownerKey) = normalizeComparableText (some params.resolvedOwnerKey) ∧
      normalizeComparableText task.childSessionKey = normalizeComparableText params.childSessionKey ∧
      normalizeComparableText task.parentFlowId = normalizeComparableText params.parentFlowId
    let exact := runScopeMatches.find? fun task =>
      normalizeComparableText task.label = normalizeComparableText params.label ∧
      normalizeComparableText (some task.task) = normalizeComparableText (some params.task)
    match exact with
    | some task => some task
    | none => if params.runtime ≠ .acp then none else pickPreferredRunIdTask runScopeMatches

/-- What a repeated creation adds to the record that is there. -/
def mergePatch (existing : TaskRecord) (params : CreateTaskParams) : TaskPatch :=
  let fill (given current : Option String) : Option (Option String) :=
    if (trimmed? given).isSome ∧ (trimmed? current).isNone then some (trimmed? given) else none
  let nextLabel := trimmed? params.label
  let notifyPolicy :=
    ensureNotifyPolicy params.notifyPolicy params.deliveryStatus existing.ownerKey existing.scopeKind
  { sourceId := fill params.sourceId existing.sourceId
    taskKind := fill params.taskKind existing.taskKind
    parentFlowId := fill params.parentFlowId existing.parentFlowId
    parentTaskId := fill params.parentTaskId existing.parentTaskId
    agentId := fill params.agentId existing.agentId
    label :=
      if params.preferMetadata then
        if nextLabel.isSome ∧ some (normalizeComparableText existing.label) ≠ nextLabel then some nextLabel
        else none
      else if nextLabel.isSome ∧ (trimmed? existing.label).isNone then some nextLabel
      else none
    task :=
      if params.preferMetadata then
        (trimmed params.task).filter fun t => normalizeComparableText (some existing.task) ≠ t
      else none
    deliveryStatus :=
      if params.deliveryStatus = some .pending ∧ existing.deliveryStatus ≠ .delivered then some .pending
      else none
    notifyPolicy :=
      if notifyPolicy ≠ existing.notifyPolicy ∧ existing.notifyPolicy = .silent then some notifyPolicy
      else none }

/-- A repeated creation gives the record an origin where it had none. -/
def mergeDeliveryState (existing : TaskRecord) (params : CreateTaskParams) (r : Registry) : Registry :=
  let currentDeliveryState := r.taskDeliveryStates.get? existing.taskId
  let requesterOrigin := normalizeDeliveryContext env params.requesterOrigin
  if requesterOrigin.isSome ∧ (currentDeliveryState.bind TaskDeliveryState.requesterOrigin).isNone then
    upsertTaskDeliveryState env ⟨existing.taskId, requesterOrigin,
      currentDeliveryState.bind TaskDeliveryState.lastNotifiedEventAt⟩ r
  else r

def mergeExistingTaskForCreate (existing : TaskRecord) (params : CreateTaskParams) (now : Int)
    (r : Registry) : Except TaskError TaskRecord × Registry :=
  let r := mergeDeliveryState env existing params r
  let patch := mergePatch existing params
  let linkAllowed :=
    if patch.parentFlowId.isSome then
      assertParentFlowLinkAllowed r.flows existing.ownerKey existing.scopeKind params.parentFlowId
    else .ok ()
  match linkAllowed with
  | .error e => (.error e, r)
  | .ok () =>
    if patch = {} then (.ok existing, r)
    else
      match updateTask existing.taskId patch now r with
      | (updated, r) => (.ok (updated.getD existing), r)

/-- The record of a new task. -/
def newTaskRecord (now : Int) : TaskRecord :=
  let ownerKey := params.resolvedOwnerKey
  let scopeKind := params.resolvedScopeKind
  let status := params.status.getD .queued
  let deliveryStatus := params.deliveryStatus.getD (ensureDeliveryStatus ownerKey scopeKind)
  let lastEventAt := (params.lastEventAt.or params.startedAt).getD now
  { taskId := taskId
    runtime := params.runtime
    taskKind := trimmed? params.taskKind
    sourceId := trimmed? params.sourceId
    requesterSessionKey := params.resolvedRequesterSessionKey
    ownerKey := ownerKey
    scopeKind := scopeKind
    childSessionKey := params.childSessionKey
    parentFlowId := trimmed? params.parentFlowId
    parentTaskId := trimmed? params.parentTaskId
    agentId := trimmed? params.agentId
    runId := trimmed? params.runId
    label := trimmed? params.label
    task := params.task
    status := status
    deliveryStatus := deliveryStatus
    notifyPolicy := ensureNotifyPolicy params.notifyPolicy (some deliveryStatus) ownerKey scopeKind
    createdAt := now
    startedAt := params.startedAt
    lastEventAt := some lastEventAt
    cleanupAfter :=
      if isTerminalTaskStatus status ∧ params.cleanupAfter = none then
        some (lastEventAt + DEFAULT_TASK_RETENTION_MS)
      else params.cleanupAfter
    progressSummary := normalizeTaskSummary params.progressSummary
    terminalSummary := normalizeTaskSummary params.terminalSummary
    terminalOutcome := resolveTaskTerminalOutcome status params.terminalOutcome }

/-- The insertion of a new record: map, delivery state, indexes, mirrored flow. -/
def insertTask (now : Int) (r : Registry) : Registry :=
  let record := newTaskRecord params taskId now
  let r := upsertTaskDeliveryState env ⟨taskId, normalizeDeliveryContext env params.requesterOrigin, none⟩ r
  {r with
    tasks := r.tasks.set taskId record
    taskIdsByRunId := addRunIdIndex taskId record r.taskIdsByRunId
    taskIdsByOwnerKey := addOwnerKeyIndex taskId record r.taskIdsByOwnerKey
    taskIdsByParentFlowId := addParentFlowIdIndex taskId record r.taskIdsByParentFlowId
    taskIdsByRelatedSessionKey := addRelatedSessionKeyIndex taskId record r.taskIdsByRelatedSessionKey
    flows := syncFlowFromTask record now r.flows}

def createTaskRecord (now : Int) (r : Registry) : Except TaskError TaskRecord × Registry :=
  match assertTaskOwner params.resolvedOwnerKey params.resolvedScopeKind with
  | .error e => (.error e, r)
  | .ok () =>
    match assertParentFlowLinkAllowed r.flows params.resolvedOwnerKey params.resolvedScopeKind
      params.parentFlowId with
    | .error e => (.error e, r)
    | .ok () =>
      match findExistingTaskForCreate r params with
      | some existing => mergeExistingTaskForCreate env existing params now r
      | none => (.ok (newTaskRecord params taskId now), insertTask env params taskId now r)

/-! ### Updates by id -/

/-- An optional argument that is written only when given. -/
def given {α : Type*} (value : Option α) : Option (Option α) := value.map some

def setTaskProgressById (progressSummary : Option (Option String)) (lastEventAt : Option Int) (now : Int)
    (r : Registry) : Option TaskRecord × Registry :=
  updateTask taskId {
    progressSummary := progressSummary.map normalizeTaskSummary
    lastEventAt := given lastEventAt } now r

def setTaskTimingById (startedAt endedAt lastEventAt : Option Int) (now : Int) (r : Registry)
    : Option TaskRecord × Registry :=
  updateTask taskId {
    startedAt := given startedAt
    endedAt := given endedAt
    lastEventAt := given lastEventAt } now r

def setTaskCleanupAfterById (cleanupAfter now : Int) (r : Registry) : Option TaskRecord × Registry :=
  updateTask taskId {cleanupAfter := some (some cleanupAfter)} now r

def markTaskTerminalById (status : TaskStatus) (endedAt : Int) (lastEventAt : Option Int)
    (error : Option String) (terminalSummary : Option (Option String))
    (terminalOutcome : Option (Option TaskTerminalOutcome)) (now : Int) (r : Registry) :
    Option TaskRecord × Registry :=
  updateTask taskId {
    status := some status
    endedAt := some (some endedAt)
    lastEventAt := some (some (lastEventAt.getD endedAt))
    error := given error
    terminalSummary := terminalSummary.map normalizeTaskSummary
    terminalOutcome := terminalOutcome.map (resolveTaskTerminalOutcome status) } now r

def markTaskLostById (endedAt : Int) (lastEventAt : Option Int) (error : Option String)
    (cleanupAfter : Option Int) (now : Int) (r : Registry) : Option TaskRecord × Registry :=
  updateTask taskId {
    status := some .lost
    endedAt := some (some endedAt)
    lastEventAt := some (some (lastEventAt.getD endedAt))
    error := given error
    cleanupAfter := given cleanupAfter } now r

def updateTaskNotifyPolicyById (notifyPolicy : TaskNotifyPolicy) (now : Int) (r : Registry)
    : Option TaskRecord × Registry :=
  updateTask taskId {notifyPolicy := some notifyPolicy, lastEventAt := some (some now)} now r

/-- What a terminal delivery writes: the status it ended in. -/
def recordTerminalDelivery (deliveryStatus : TaskDeliveryStatus) (now : Int) (r : Registry)
    : Option TaskRecord × Registry :=
  updateTask taskId {deliveryStatus := some deliveryStatus, lastEventAt := some (some now)} now r

/-- What a delivered state change writes; the origin was read before the message
was sent. -/
def recordStateChangeDelivery (requesterOrigin : Option DeliveryContext) (eventAt now : Int) (r : Registry) :
    Option TaskRecord × Registry :=
  updateTask taskId {lastEventAt := some (some now)} now
    (upsertTaskDeliveryState env ⟨taskId, requesterOrigin, some eventAt⟩ r)

def linkTaskToFlowById (flowId : String) (now : Int) (r : Registry) :
    Except TaskError (Option TaskRecord) × Registry :=
  match trimmed flowId, r.tasks.get? taskId with
  | some flowId, some current =>
    if (trimmed? current.parentFlowId).isSome then (.ok (some current), r)
    else
      match assertParentFlowLinkAllowed r.flows current.ownerKey current.scopeKind (some flowId) with
      | .error e => (.error e, r)
      | .ok () =>
        match updateTask taskId {parentFlowId := some (some flowId)} now r with
        | (updated, r) => (.ok updated, r)
  | _, _ => (.ok none, r)

/-! ### Updates by run id and from agent events -/

/-- One patch after another. -/
def updateTasks (patches : List (String × TaskPatch)) (now : Int) (r : Registry) : Registry :=
  patches.foldl (fun r p => (updateTask p.1 p.2 now r).2) r

structure RunUpdate where
  status : Option TaskStatus := none
  startedAt : Option Int := none
  endedAt : Option Int := none
  lastEventAt : Option Int := none
  error : Option String := none
  progressSummary : Option (Option String) := none
  terminalSummary : Option (Option String) := none
  terminalOutcome : Option (Option TaskTerminalOutcome) := none

def RunUpdate.patch (params : RunUpdate) (current : TaskRecord) : TaskPatch where
  status := params.status
  startedAt := given params.startedAt
  endedAt := given params.endedAt
  lastEventAt := given params.lastEventAt
  error := given params.error
  progressSummary := params.progressSummary.map normalizeTaskSummary
  terminalSummary := params.terminalSummary.map normalizeTaskSummary
  terminalOutcome := params.terminalOutcome.map
    (resolveTaskTerminalOutcome (params.status.getD current.status))

/-- `updateTaskStateByRunId`: running, progress and terminal updates of a run. -/
def updateTaskStateByRunId (runId : String) (runtime : Option TaskRuntime) (sessionKey : Option String)
    (params : RunUpdate) (now : Int) (r : Registry) : Registry :=
  updateTasks ((getTasksByRunScope r runId runtime sessionKey).map fun current =>
    (current.taskId, params.patch current)) now r

def setTaskRunDeliveryStatusByRunId (runId : String) (runtime : Option TaskRuntime)
    (sessionKey : Option String) (deliveryStatus : TaskDeliveryStatus) (now : Int) (r : Registry) : Registry :=
  updateTasks ((getTasksByRunScope r runId runtime sessionKey).map fun current =>
    (current.taskId, {deliveryStatus := some deliveryStatus})) now r

inductive AgentEventStream where
  | lifecycle | error | other
  deriving DecidableEq, Repr

inductive LifecyclePhase where
  | start | «end» | error
  deriving DecidableEq, Repr

structure AgentEvent where
  runId : String
  sessionKey : Option String := none
  stream : AgentEventStream
  ts : Int
  phase : Option LifecyclePhase := none
  startedAt : Option Int := none
  endedAt : Option Int := none
  aborted : Bool := false
  error : Option String := none
  deriving DecidableEq, Repr

def agentEventPatch (evt : AgentEvent) (current : TaskRecord) (at' : Int) : TaskPatch :=
  let patch : TaskPatch := {lastEventAt := some (some at')}
  match evt.stream with
  | .lifecycle =>
    let startedAt := evt.startedAt.or current.startedAt
    let patch := {patch with startedAt := if startedAt.any (· ≠ 0) then some startedAt else none}
    match evt.phase with
    | some .start => {patch with status := some .running}
    | some .end =>
      {patch with
        status := some (if evt.aborted then .timedOut else .succeeded)
        endedAt := some (some (evt.endedAt.getD at'))}
    | some .error =>
      {patch with
        status := some .failed
        endedAt := some (some (evt.endedAt.getD at'))
        error := some (evt.error.or current.error)}
    | none => patch
  | .error => {patch with error := some (evt.error.or current.error)}
  | .other => patch

/-- The listener on agent events. An event without a time is stamped with the clock. -/
def onAgentEvent (evt : AgentEvent) (now : Int) (r : Registry) : Registry :=
  let at' := if evt.ts = 0 then now else evt.ts
  updateTasks ((getTasksByRunScope r evt.runId none evt.sessionKey).map fun current =>
    (current.taskId, agentEventPatch evt current at')) now r

/-! ### Cancellation and deletion -/

/-- Can the task's child session be asked to stop? -/
def cancellable (task : TaskRecord) : Bool :=
  !isTerminalTaskStatus task.status && (trimmed? task.childSessionKey).isSome &&
    (task.runtime = .acp || task.runtime = .subagent)

/-- The write of `cancelTaskById`, once the child session has been stopped. -/
def recordCancelled (now : Int) (r : Registry) : Option TaskRecord × Registry :=
  updateTask taskId {
    status := some .cancelled
    endedAt := some (some now)
    lastEventAt := some (some now)
    error := some (some "Cancelled by operator.") } now r

def deleteTaskRecordById (r : Registry) : Bool × Registry :=
  match r.tasks.get? taskId with
  | none => (false, r)
  | some current =>
    let tasks := r.tasks.erase taskId
    (true, {r with
      tasks := tasks
      taskDeliveryStates := r.taskDeliveryStates.erase taskId
      taskIdsByRunId := rebuildRunIdIndex tasks
      taskIdsByOwnerKey := deleteOwnerKeyIndex taskId current r.taskIdsByOwnerKey
      taskIdsByParentFlowId := deleteParentFlowIdIndex taskId current r.taskIdsByParentFlowId
      taskIdsByRelatedSessionKey :=
        deleteRelatedSessionKeyIndex taskId current r.taskIdsByRelatedSessionKey})

end OpenClaw.Tasks
