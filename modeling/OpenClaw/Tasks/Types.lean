import OpenClaw.Foundation.EcmaString

/-! The records of the task registry and of the task-flow registry, and the
patches their writers apply.

Times are whole milliseconds. An optional field is an `Option`; a patch of it is
an `Option (Option _)`, absent, cleared, or set. -/
namespace OpenClaw.Tasks
open Foundation.EcmaString

inductive TaskRuntime where
  | subagent | acp | cli | cron
  deriving DecidableEq, Repr

def TaskRuntime.name : TaskRuntime → String
  | .subagent => "subagent"
  | .acp => "acp"
  | .cli => "cli"
  | .cron => "cron"

inductive TaskStatus where
  | queued | running | succeeded | failed | timedOut | cancelled | lost
  deriving DecidableEq, Repr

inductive TaskDeliveryStatus where
  | pending | delivered | sessionQueued | failed | parentMissing | notApplicable
  deriving DecidableEq, Repr

inductive TaskNotifyPolicy where
  | doneOnly | stateChanges | silent
  deriving DecidableEq, Repr

inductive TaskTerminalOutcome where
  | succeeded | blocked
  deriving DecidableEq, Repr

inductive TaskScopeKind where
  | session | system
  deriving DecidableEq, Repr

def TaskScopeKind.name : TaskScopeKind → String
  | .session => "session"
  | .system => "system"

inductive ThreadId where
  | number (n : Int)
  | text (s : String)
  deriving DecidableEq, Repr

structure DeliveryContext where
  channel : Option String := none
  «to» : Option String := none
  accountId : Option String := none
  threadId : Option ThreadId := none
  deriving DecidableEq, Repr

structure TaskDeliveryState where
  taskId : String
  requesterOrigin : Option DeliveryContext := none
  lastNotifiedEventAt : Option Int := none
  deriving DecidableEq, Repr

structure TaskRecord where
  taskId : String
  runtime : TaskRuntime
  taskKind : Option String := none
  sourceId : Option String := none
  requesterSessionKey : String
  ownerKey : String
  scopeKind : TaskScopeKind
  childSessionKey : Option String := none
  parentFlowId : Option String := none
  parentTaskId : Option String := none
  agentId : Option String := none
  runId : Option String := none
  label : Option String := none
  task : String
  status : TaskStatus
  deliveryStatus : TaskDeliveryStatus
  notifyPolicy : TaskNotifyPolicy
  createdAt : Int
  startedAt : Option Int := none
  endedAt : Option Int := none
  lastEventAt : Option Int := none
  cleanupAfter : Option Int := none
  error : Option String := none
  progressSummary : Option String := none
  terminalSummary : Option String := none
  terminalOutcome : Option TaskTerminalOutcome := none
  deriving DecidableEq, Repr

/-- The fields of a record that a writer may set. -/
structure TaskPatch where
  taskKind : Option (Option String) := none
  sourceId : Option (Option String) := none
  ownerKey : Option String := none
  childSessionKey : Option (Option String) := none
  parentFlowId : Option (Option String) := none
  parentTaskId : Option (Option String) := none
  agentId : Option (Option String) := none
  runId : Option (Option String) := none
  label : Option (Option String) := none
  task : Option String := none
  status : Option TaskStatus := none
  deliveryStatus : Option TaskDeliveryStatus := none
  notifyPolicy : Option TaskNotifyPolicy := none
  startedAt : Option (Option Int) := none
  endedAt : Option (Option Int) := none
  lastEventAt : Option (Option Int) := none
  cleanupAfter : Option (Option Int) := none
  error : Option (Option String) := none
  progressSummary : Option (Option String) := none
  terminalSummary : Option (Option String) := none
  terminalOutcome : Option (Option TaskTerminalOutcome) := none
  deriving DecidableEq, Repr

/-- `{ ...current, ...patch }`. -/
def TaskPatch.apply (patch : TaskPatch) (current : TaskRecord) : TaskRecord :=
  {current with
    taskKind := patch.taskKind.getD current.taskKind
    sourceId := patch.sourceId.getD current.sourceId
    ownerKey := patch.ownerKey.getD current.ownerKey
    childSessionKey := patch.childSessionKey.getD current.childSessionKey
    parentFlowId := patch.parentFlowId.getD current.parentFlowId
    parentTaskId := patch.parentTaskId.getD current.parentTaskId
    agentId := patch.agentId.getD current.agentId
    runId := patch.runId.getD current.runId
    label := patch.label.getD current.label
    task := patch.task.getD current.task
    status := patch.status.getD current.status
    deliveryStatus := patch.deliveryStatus.getD current.deliveryStatus
    notifyPolicy := patch.notifyPolicy.getD current.notifyPolicy
    startedAt := patch.startedAt.getD current.startedAt
    endedAt := patch.endedAt.getD current.endedAt
    lastEventAt := patch.lastEventAt.getD current.lastEventAt
    cleanupAfter := patch.cleanupAfter.getD current.cleanupAfter
    error := patch.error.getD current.error
    progressSummary := patch.progressSummary.getD current.progressSummary
    terminalSummary := patch.terminalSummary.getD current.terminalSummary
    terminalOutcome := patch.terminalOutcome.getD current.terminalOutcome}

inductive JsonValue where
  | null
  | bool (b : Bool)
  | number (n : Int)
  | string (s : String)
  | array (values : List JsonValue)
  | object (members : List (String × JsonValue))

inductive TaskFlowSyncMode where
  | taskMirrored | managed
  deriving DecidableEq, Repr

inductive TaskFlowStatus where
  | queued | running | waiting | blocked | succeeded | failed | cancelled | lost
  deriving DecidableEq, Repr

def TaskFlowStatus.name : TaskFlowStatus → String
  | .queued => "queued"
  | .running => "running"
  | .waiting => "waiting"
  | .blocked => "blocked"
  | .succeeded => "succeeded"
  | .failed => "failed"
  | .cancelled => "cancelled"
  | .lost => "lost"

structure TaskFlowRecord where
  flowId : String
  syncMode : TaskFlowSyncMode
  ownerKey : String
  requesterOrigin : Option DeliveryContext := none
  controllerId : Option String := none
  revision : Int
  status : TaskFlowStatus
  notifyPolicy : TaskNotifyPolicy
  goal : String
  currentStep : Option String := none
  blockedTaskId : Option String := none
  blockedSummary : Option String := none
  stateJson : Option JsonValue := none
  waitJson : Option JsonValue := none
  cancelRequestedAt : Option Int := none
  createdAt : Int
  updatedAt : Int
  endedAt : Option Int := none

/-- A patch of a flow. For the fields that may be cleared, `some none` is `null`. -/
structure FlowRecordPatch where
  status : Option TaskFlowStatus := none
  notifyPolicy : Option TaskNotifyPolicy := none
  goal : Option String := none
  currentStep : Option (Option String) := none
  blockedTaskId : Option (Option String) := none
  blockedSummary : Option (Option String) := none
  controllerId : Option (Option String) := none
  stateJson : Option JsonValue := none
  waitJson : Option JsonValue := none
  cancelRequestedAt : Option (Option Int) := none
  updatedAt : Option Int := none
  endedAt : Option (Option Int) := none

/-! ### Statuses -/

def isActiveTaskStatus (status : TaskStatus) : Bool := status = .queued || status = .running

def isTerminalTaskStatus (status : TaskStatus) : Bool :=
  status = .succeeded || status = .failed || status = .timedOut || status = .cancelled || status = .lost

def isTerminalFlowStatus (status : TaskFlowStatus) : Bool :=
  status = .succeeded || status = .failed || status = .cancelled || status = .lost

def DEFAULT_TASK_RETENTION_MS : Int := 7 * 24 * 60 * 60000

/-! ### Text -/

/-- `value?.trim() ?? ""`. -/
def normalizeComparableText (value : Option String) : String := (value.map trim).getD ""

def normalizeSessionIndexKey (sessionKey : Option String) : Option String := trimmed? sessionKey

def normalizeOwnerKey (ownerKey : String) : Option String := trimmed ownerKey

/-- Runs of white space become one blank; a blank summary is none. -/
def normalizeTaskSummary (value : Option String) : Option String :=
  trimmed? (value.map collapseWhiteSpace)

/-- What the channel plugins and the account rules make of a channel and an account. -/
structure ChannelEnv where
  normalizeMessageChannel : String → Option String
  normalizeAccountId : Option String → Option String

/-- The delivery context without its blank parts, or none when nothing is left. -/
def normalizeDeliveryContext (env : ChannelEnv) (context : Option DeliveryContext) :
    Option DeliveryContext :=
  context.bind fun c =>
    let channel := c.channel.bind fun s => trimmed ((env.normalizeMessageChannel s).getD (trim s))
    let threadId := c.threadId.bind fun
      | .number n => some (ThreadId.number n)
      | .text s => (trimmed s).map ThreadId.text
    let normalized : DeliveryContext :=
      { channel := channel, «to» := trimmed? c.to, accountId := env.normalizeAccountId c.accountId,
        threadId := threadId }
    if normalized = {} then none else some normalized

end OpenClaw.Tasks
