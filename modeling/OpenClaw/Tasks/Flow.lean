import OpenClaw.Foundation.InsertionMap
import OpenClaw.Tasks.Types

/-! The task-flow registry: flows, revisions, and the flow that mirrors a task.

`now` is the clock a call reads, where it reads one. A write that a managed flow
without a controller would refuse throws, and leaves the registry as it was. -/
namespace OpenClaw.Tasks
open Foundation Foundation.EcmaString

abbrev Flows := InsertionMap String TaskFlowRecord

def normalizeText (value : Option String) : Option String := trimmed? value

/-! ### What a flow says of a task -/

variable (currentStep : Option (Option String)) (task : TaskRecord)

def resolveFlowGoal : String :=
  (trimmed? task.label).getD ((trimmed task.task).getD "Background task")

def resolveFlowBlockedSummary : Option String :=
  if task.status ≠ .succeeded ∨ task.terminalOutcome ≠ some .blocked then none
  else (trimmed? task.terminalSummary).or (trimmed? task.progressSummary)

def deriveTaskFlowStatusFromTask : TaskFlowStatus :=
  match task.status with
  | .queued => .queued
  | .running => .running
  | .succeeded => if task.terminalOutcome = some .blocked then .blocked else .succeeded
  | .cancelled => .cancelled
  | .lost => .lost
  | .failed | .timedOut => .failed

/-- The statuses a mirrored flow has an end time in. -/
def isSettledFlowStatus (status : TaskFlowStatus) : Bool :=
  status = .succeeded || status = .blocked || status = .failed || status = .cancelled || status = .lost

/-! ### Records -/

def assertFlowOwnerKey (ownerKey : String) : Except String String :=
  match normalizeOwnerKey ownerKey with
  | some normalized => .ok normalized
  | none => .error "Flow ownerKey is required."

def assertControllerId (controllerId : Option String) : Except String String :=
  match normalizeText controllerId with
  | some normalized => .ok normalized
  | none => .error "Managed flow controllerId is required."

def normalizeRestoredFlowRecord (record : TaskFlowRecord) : Except String TaskFlowRecord := do
  let controllerId :=
    match record.syncMode with
    | .managed => some ((normalizeText record.controllerId).getD "core/legacy-restored")
    | .taskMirrored => none
  let ownerKey ← assertFlowOwnerKey record.ownerKey
  return {record with
    ownerKey := ownerKey
    controllerId := controllerId.or record.controllerId
    currentStep := normalizeText record.currentStep
    blockedTaskId := normalizeText record.blockedTaskId
    blockedSummary := normalizeText record.blockedSummary
    revision := max 0 record.revision}

structure CreateFlowParams where
  syncMode : Option TaskFlowSyncMode := none
  ownerKey : String
  requesterOrigin : Option DeliveryContext := none
  controllerId : Option String := none
  revision : Option Int := none
  status : Option TaskFlowStatus := none
  notifyPolicy : Option TaskNotifyPolicy := none
  goal : String
  currentStep : Option String := none
  blockedTaskId : Option String := none
  blockedSummary : Option String := none
  stateJson : Option JsonValue := none
  waitJson : Option JsonValue := none
  cancelRequestedAt : Option Int := none
  createdAt : Option Int := none
  updatedAt : Option Int := none
  endedAt : Option Int := none

/-- `flowId` is the random id the record gets. -/
def buildFlowRecord (params : CreateFlowParams) (flowId : String) (now : Int) :
    Except String TaskFlowRecord := do
  let createdAt := params.createdAt.getD now
  let syncMode := params.syncMode.getD .managed
  let controllerId ←
    match syncMode with
    | .managed => (assertControllerId params.controllerId).map some
    | .taskMirrored => pure none
  let ownerKey ← assertFlowOwnerKey params.ownerKey
  return {
    flowId := flowId
    syncMode := syncMode
    ownerKey := ownerKey
    requesterOrigin := params.requesterOrigin
    controllerId := controllerId
    revision := max 0 (params.revision.getD 0)
    status := params.status.getD .queued
    notifyPolicy := params.notifyPolicy.getD .doneOnly
    goal := params.goal
    currentStep := normalizeText params.currentStep
    blockedTaskId := normalizeText params.blockedTaskId
    blockedSummary := normalizeText params.blockedSummary
    stateJson := params.stateJson
    waitJson := params.waitJson
    cancelRequestedAt := params.cancelRequestedAt
    createdAt := createdAt
    updatedAt := params.updatedAt.getD createdAt
    endedAt := params.endedAt }

def applyFlowPatch (current : TaskFlowRecord) (patch : FlowRecordPatch) (now : Int) :
    Except String TaskFlowRecord := do
  let controllerId := (patch.controllerId.map normalizeText).getD current.controllerId
  if current.syncMode = .managed then
    let _ ← assertControllerId controllerId
  return {current with
    status := patch.status.getD current.status
    notifyPolicy := patch.notifyPolicy.getD current.notifyPolicy
    goal := (patch.goal.filter (· ≠ "")).getD current.goal
    controllerId := controllerId
    currentStep := (patch.currentStep.map normalizeText).getD current.currentStep
    blockedTaskId := (patch.blockedTaskId.map normalizeText).getD current.blockedTaskId
    blockedSummary := (patch.blockedSummary.map normalizeText).getD current.blockedSummary
    stateJson := patch.stateJson.or current.stateJson
    waitJson := patch.waitJson.or current.waitJson
    cancelRequestedAt := patch.cancelRequestedAt.getD current.cancelRequestedAt
    revision := current.revision + 1
    updatedAt := patch.updatedAt.getD now
    endedAt := patch.endedAt.getD current.endedAt}

/-! ### The registry -/

def getTaskFlowById (flows : Flows) (flowId : String) : Option TaskFlowRecord := flows.get? flowId

def writeFlowRecord (flows : Flows) (next : TaskFlowRecord) : Flows := flows.set next.flowId next

def createFlowRecord (params : CreateFlowParams) (flowId : String) (now : Int) (flows : Flows) :
    Except String TaskFlowRecord × Flows :=
  match buildFlowRecord params flowId now with
  | .error e => (.error e, flows)
  | .ok record => (.ok record, writeFlowRecord flows record)

/-- The flow of a single task, in the state the task is in. -/
def taskFlowParams (requesterOrigin : Option DeliveryContext) : CreateFlowParams :=
  let status := deriveTaskFlowStatusFromTask task
  { syncMode := some .taskMirrored
    ownerKey := task.ownerKey
    requesterOrigin := requesterOrigin
    status := some status
    notifyPolicy := some task.notifyPolicy
    goal := resolveFlowGoal task
    blockedTaskId := if status = .blocked then trimmed task.taskId else none
    blockedSummary := resolveFlowBlockedSummary task
    createdAt := some task.createdAt
    updatedAt := some (task.lastEventAt.getD task.createdAt)
    endedAt := if isSettledFlowStatus status then
        some ((task.endedAt.or task.lastEventAt).getD task.createdAt)
      else none }

def createTaskFlowForTask (requesterOrigin : Option DeliveryContext) (flowId : String) (now : Int)
    (flows : Flows) : Except String TaskFlowRecord × Flows :=
  createFlowRecord (taskFlowParams task requesterOrigin) flowId now flows

inductive TaskFlowUpdateResult where
  | applied (flow : TaskFlowRecord)
  | notFound
  | revisionConflict (current : TaskFlowRecord)

/-- The unchecked update: whatever the revision is. -/
def updateFlowRecordByIdUnchecked (flowId : String) (patch : FlowRecordPatch) (now : Int) (flows : Flows) :
    Except String (Option TaskFlowRecord) × Flows :=
  match flows.get? flowId with
  | none => (.ok none, flows)
  | some current =>
    match applyFlowPatch current patch now with
    | .error e => (.error e, flows)
    | .ok next => (.ok (some next), writeFlowRecord flows next)

def updateFlowRecordByIdExpectedRevision (flowId : String) (expectedRevision : Int)
    (patch : FlowRecordPatch) (now : Int) (flows : Flows) : Except String TaskFlowUpdateResult × Flows :=
  match flows.get? flowId with
  | none => (.ok .notFound, flows)
  | some current =>
    if current.revision ≠ expectedRevision then (.ok (.revisionConflict current), flows)
    else
      match applyFlowPatch current patch now with
      | .error e => (.error e, flows)
      | .ok next => (.ok (.applied next), writeFlowRecord flows next)

/-- The patches of the controller operations, each applied at an expected revision. -/
def setFlowWaitingPatch (stateJson waitJson : Option JsonValue)
    (blockedTaskId blockedSummary : Option (Option String)) (updatedAt : Option Int) : FlowRecordPatch :=
  { status := some (if (normalizeText blockedTaskId.join).isSome ∨ (normalizeText blockedSummary.join).isSome
      then .blocked else .waiting)
    currentStep := currentStep
    stateJson := stateJson
    waitJson := waitJson
    blockedTaskId := blockedTaskId
    blockedSummary := blockedSummary
    endedAt := some none
    updatedAt := updatedAt }

def resumeFlowPatch (status : Option TaskFlowStatus) (currentStep : Option (Option String))
    (stateJson : Option JsonValue) (updatedAt : Option Int) : FlowRecordPatch :=
  { status := some (status.getD .queued)
    currentStep := currentStep
    stateJson := stateJson
    waitJson := some .null
    blockedTaskId := some none
    blockedSummary := some none
    endedAt := some none
    updatedAt := updatedAt }

def finishFlowPatch (stateJson : Option JsonValue) (updatedAt endedAt : Option Int) (now : Int)
    : FlowRecordPatch :=
  let ended := (endedAt.or updatedAt).getD now
  { status := some .succeeded
    currentStep := currentStep
    stateJson := stateJson
    waitJson := some .null
    blockedTaskId := some none
    blockedSummary := some none
    endedAt := some (some ended)
    updatedAt := some (updatedAt.getD ended) }

def failFlowPatch (stateJson : Option JsonValue) (blockedTaskId blockedSummary : Option (Option String))
    (updatedAt endedAt : Option Int) (now : Int) :
    FlowRecordPatch :=
  let ended := (endedAt.or updatedAt).getD now
  { status := some .failed
    currentStep := currentStep
    stateJson := stateJson
    waitJson := some .null
    blockedTaskId := blockedTaskId
    blockedSummary := blockedSummary
    endedAt := some (some ended)
    updatedAt := some (updatedAt.getD ended) }

def requestFlowCancelPatch (cancelRequestedAt updatedAt : Option Int) (now : Int) : FlowRecordPatch :=
  { cancelRequestedAt := some (some ((cancelRequestedAt.or updatedAt).getD now)), updatedAt := updatedAt }

/-- The write that settles a cancelled flow. -/
def cancelledFlowPatch (endedAt : Int) : FlowRecordPatch :=
  { status := some .cancelled
    blockedTaskId := some none
    blockedSummary := some none
    waitJson := some .null
    endedAt := some (some endedAt)
    updatedAt := some endedAt }

/-- What a mirrored flow takes over from a task. -/
def syncPatch (now : Int) : FlowRecordPatch :=
  let status := deriveTaskFlowStatusFromTask task
  { status := some status
    notifyPolicy := some task.notifyPolicy
    goal := some (resolveFlowGoal task)
    blockedTaskId := some (if status = .blocked then trimmed task.taskId else none)
    blockedSummary := some (if status = .blocked then resolveFlowBlockedSummary task else none)
    waitJson := some .null
    updatedAt := some (task.lastEventAt.getD now)
    endedAt := some (if isSettledFlowStatus status then some ((task.endedAt.or task.lastEventAt).getD now)
      else none) }

/-- Every write of a task re-synchronises its parent flow from that task alone. -/
def syncFlowFromTask (now : Int) (flows : Flows) : Flows :=
  match trimmed? task.parentFlowId with
  | none => flows
  | some flowId =>
    match getTaskFlowById flows flowId with
    | none => flows
    | some flow =>
      if flow.syncMode ≠ .taskMirrored then flows
      else (updateFlowRecordByIdUnchecked flowId (syncPatch task now) now flows).2

def deleteTaskFlowRecordById (flowId : String) (flows : Flows) : Bool × Flows :=
  match flows.get? flowId with
  | none => (false, flows)
  | some _ => (true, flows.erase flowId)

/-- Reading the stored flows; one that has no owner makes the whole read fail. -/
def restoreFlows (stored : Flows) : Flows :=
  match stored.entries.mapM fun p => (normalizeRestoredFlowRecord p.2).map fun flow => (p.1, flow) with
  | .ok entries => entries.foldl (fun flows p => flows.set p.1 p.2) ∅
  | .error _ => ∅

end OpenClaw.Tasks
