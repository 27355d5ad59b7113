import Mathlib.Data.List.Sort
import OpenClaw.Foundation.SetIndex
import OpenClaw.Tasks.Flow

/-! The task registry: the task map, its four secondary indexes, and its writers.

The registry and the flows it mirrors into are one process state. Every writer
goes through `updateTask`, `createTaskRecord` or `deleteTaskRecordById`, and each
keeps the indexes by hand. `now` is the clock a call reads; `taskId` and `flowId`
are the random ids it draws. Store writes are taken to succeed, and observers and
logs are left out. -/
namespace OpenClaw.Tasks
open Foundation Foundation.EcmaString

structure Registry where
  tasks : InsertionMap String TaskRecord := ∅
  taskDeliveryStates : InsertionMap String TaskDeliveryState := ∅
  taskIdsByRunId : SetIndex String String := ∅
  taskIdsByOwnerKey : SetIndex String String := ∅
  taskIdsByParentFlowId : SetIndex String String := ∅
  taskIdsByRelatedSessionKey : SetIndex String String := ∅
  flows : Flows := ∅

/-! ### Index keys -/

variable (taskId : String) (task : TaskRecord) (index : SetIndex String String)

def runIdIndexKeys : List String := (trimmed? task.runId).toList

def ownerKeyIndexKeys : List String :=
  (normalizeSessionIndexKey (some task.ownerKey)).toList

def parentFlowIdIndexKeys : List String := (trimmed? task.parentFlowId).toList

def getTaskRelatedSessionIndexKeys : List String :=
  ([normalizeSessionIndexKey (some task.ownerKey), normalizeSessionIndexKey task.childSessionKey].filterMap
    id).dedup

/-- An index rebuilt from the map. -/
def rebuildIndex (keysOf : TaskRecord → List String) (tasks : InsertionMap String TaskRecord) :
    SetIndex String String :=
  SetIndex.build (tasks.entries.map fun p => (p.1, keysOf p.2))

def rebuildRunIdIndex := rebuildIndex runIdIndexKeys

def rebuildOwnerKeyIndex := rebuildIndex ownerKeyIndexKeys

def rebuildParentFlowIdIndex := rebuildIndex parentFlowIdIndexKeys

def rebuildRelatedSessionKeyIndex := rebuildIndex getTaskRelatedSessionIndexKeys

/-- `restoreTaskRegistryOnce`, from what the store loads. -/
def restoreTaskRegistry (tasks : InsertionMap String TaskRecord)
    (deliveryStates : InsertionMap String TaskDeliveryState) (flows : Flows) : Registry :=
  if tasks.size = 0 ∧ deliveryStates.size = 0 then {flows := restoreFlows flows}
  else
    { tasks := tasks
      taskDeliveryStates := deliveryStates
      taskIdsByRunId := rebuildRunIdIndex tasks
      taskIdsByOwnerKey := rebuildOwnerKeyIndex tasks
      taskIdsByParentFlowId := rebuildParentFlowIdIndex tasks
      taskIdsByRelatedSessionKey := rebuildRelatedSessionKeyIndex tasks
      flows := restoreFlows flows }

/-! ### Reading -/

def compareTasksNewestFirst (left right : TaskRecord × Nat) : Int :=
  let createdAtDiff := right.1.createdAt - left.1.createdAt
  if createdAtDiff ≠ 0 then createdAtDiff else (right.2 : Int) - left.2

/-- `toSorted(compareTasksNewestFirst)`, a stable sort. -/
def newestFirst (tasks : List (TaskRecord × Nat)) : List TaskRecord :=
  (tasks.insertionSort fun a b => compareTasksNewestFirst a b ≤ 0).map Prod.fst

/-- The records of an index's ids, newest first; among equals, the one listed last. -/
def listTasksFromIndex (r : Registry) (index : SetIndex String String) (key : String) : List TaskRecord :=
  newestFirst ((index.lookup key).zipIdx.filterMap fun p => (r.tasks.get? p.1).map fun task => (task, p.2))

/-- `listTaskRecords`: all of them, newest first. -/
def listTaskRecords (r : Registry) : List TaskRecord := newestFirst r.tasks.values.zipIdx

def listTasksForOwnerKey (r : Registry) (ownerKey : String) : List TaskRecord :=
  match normalizeSessionIndexKey (some ownerKey) with
  | none => []
  | some key => listTasksFromIndex r r.taskIdsByOwnerKey key

def listTasksForFlowId (r : Registry) (flowId : String) : List TaskRecord :=
  match trimmed flowId with
  | none => []
  | some key => listTasksFromIndex r r.taskIdsByParentFlowId key

def listTasksForRelatedSessionKey (r : Registry) (sessionKey : String) : List TaskRecord :=
  match normalizeSessionIndexKey (some sessionKey) with
  | none => []
  | some key => listTasksFromIndex r r.taskIdsByRelatedSessionKey key

def findLatestTaskForFlowId (r : Registry) (flowId : String) : Option TaskRecord :=
  (listTasksForFlowId r flowId).head?

def getTasksByRunId (r : Registry) (runId : String) : List TaskRecord :=
  (r.taskIdsByRunId.lookup (trim runId)).filterMap r.tasks.get?

def taskLookupPriority : Int := if task.runtime = .cli then 1 else 0

def compareRunIdTasks (left right : TaskRecord) : Int :=
  let priorityDiff := taskLookupPriority left - taskLookupPriority right
  if priorityDiff ≠ 0 then priorityDiff else left.createdAt - right.createdAt

def pickPreferredRunIdTask (found : List TaskRecord) : Option TaskRecord :=
  (found.insertionSort fun a b => compareRunIdTasks a b ≤ 0).head?

def findTaskByRunId (r : Registry) (runId : String) : Option TaskRecord :=
  pickPreferredRunIdTask (getTasksByRunId r runId)

def taskRunScopeKey : String :=
  String.intercalate "\u0000" [task.runtime.name, task.scopeKind.name,
    normalizeComparableText (some task.ownerKey), normalizeComparableText task.childSessionKey]

def getTasksByRunScope (r : Registry) (runId : String) (runtime : Option TaskRuntime)
    (sessionKey : Option String) : List TaskRecord :=
  let found := (getTasksByRunId r runId).filter fun task => runtime.all (task.runtime = ·)
  match normalizeSessionIndexKey sessionKey with
  | some key =>
    let child := found.filter fun task => normalizeSessionIndexKey task.childSessionKey = some key
    if child ≠ [] then child
    else found.filter fun task =>
      task.scopeKind = .session ∧ normalizeSessionIndexKey (some task.ownerKey) = some key
  | none => if (found.map taskRunScopeKey).dedup.length ≤ 1 then found else []

/-! ### Updating -/

def addRunIdIndex :=
  index.addAll (runIdIndexKeys task) taskId

def addOwnerKeyIndex :=
  index.addAll (ownerKeyIndexKeys task) taskId

def deleteOwnerKeyIndex :=
  index.deleteAll (ownerKeyIndexKeys task) taskId

def addParentFlowIdIndex :=
  index.addAll (parentFlowIdIndexKeys task) taskId

def deleteParentFlowIdIndex :=
  index.deleteAll (parentFlowIdIndexKeys task) taskId

def addRelatedSessionKeyIndex :=
  index.addAll (getTaskRelatedSessionIndexKeys task) taskId

def deleteRelatedSessionKeyIndex :=
  index.deleteAll (getTaskRelatedSessionIndexKeys task) taskId

/-- A managed flow whose cancellation was requested is settled once none of its
tasks is active. The second attempt is for a flow whose revision moved meanwhile,
which nothing between the two reads can do. -/
def syncManagedFlowCancellationFromTask (now : Int) (r : Registry) : Registry :=
  match trimmed? task.parentFlowId with
  | none => r
  | some flowId =>
    match getTaskFlowById r.flows flowId with
    | none => r
    | some flow =>
      if flow.syncMode ≠ .managed ∨ flow.cancelRequestedAt = none ∨ isTerminalFlowStatus flow.status then r
      else if (listTasksForFlowId r flowId).any fun candidate => isActiveTaskStatus candidate.status then r
      else
        let endedAt := (task.endedAt.or task.lastEventAt).getD now
        {r with flows := (updateFlowRecordByIdExpectedRevision flowId flow.revision
          (cancelledFlowPatch endedAt) now r.flows).2}

/-- The record after a patch: one that ends gets a time to be cleaned up at. -/
def nextRecord (patch : TaskPatch) (current : TaskRecord) (now : Int) : TaskRecord :=
  let next := patch.apply current
  if isTerminalTaskStatus next.status ∧ next.cleanupAfter = none then
    {next with cleanupAfter := some ((next.endedAt.or next.lastEventAt).getD now + DEFAULT_TASK_RETENTION_MS)}
  else next

def sessionIndexChanged (current next : TaskRecord) : Prop :=
  normalizeSessionIndexKey (some current.ownerKey) ≠ normalizeSessionIndexKey (some next.ownerKey) ∨
    normalizeSessionIndexKey current.childSessionKey ≠ normalizeSessionIndexKey next.childSessionKey

instance (current next : TaskRecord) : Decidable (sessionIndexChanged current next) :=
  inferInstanceAs (Decidable (_ ∨ _))

/-- The map and the indexes after a record changed, each index under its own trigger. -/
def reindexTask (patch : TaskPatch) (current next : TaskRecord) (r : Registry) : Registry :=
  let tasks := r.tasks.set taskId next
  {r with
    tasks := tasks
    taskIdsByRunId :=
      match patch.runId with
      | some (some runId) =>
        if runId ≠ "" ∧ some runId ≠ current.runId then rebuildRunIdIndex tasks else r.taskIdsByRunId
      | _ => r.taskIdsByRunId
    taskIdsByOwnerKey :=
      if sessionIndexChanged current next then
        addOwnerKeyIndex taskId next (deleteOwnerKeyIndex taskId current r.taskIdsByOwnerKey)
      else r.taskIdsByOwnerKey
    taskIdsByRelatedSessionKey :=
      if sessionIndexChanged current next then
        addRelatedSessionKeyIndex taskId next
          (deleteRelatedSessionKeyIndex taskId current r.taskIdsByRelatedSessionKey)
      else r.taskIdsByRelatedSessionKey
    taskIdsByParentFlowId :=
      if current.parentFlowId.map trim ≠ next.parentFlowId.map trim then
        addParentFlowIdIndex taskId next (deleteParentFlowIdIndex taskId current r.taskIdsByParentFlowId)
      else r.taskIdsByParentFlowId}

/-- The write of one record: map, indexes, mirrored flow, managed cancellation. -/
def updateTask (patch : TaskPatch) (now : Int) (r : Registry) : Option TaskRecord × Registry :=
  match r.tasks.get? taskId with
  | none => (none, r)
  | some current =>
    let next := nextRecord patch current now
    let r := reindexTask taskId patch current next r
    let r := {r with flows := syncFlowFromTask next now r.flows}
    (some next, syncManagedFlowCancellationFromTask next now r)

def upsertTaskDeliveryState (env : ChannelEnv) (state : TaskDeliveryState) (r : Registry) : Registry :=
  let next : TaskDeliveryState :=
    { taskId := state.taskId
      requesterOrigin := state.requesterOrigin.bind fun o => normalizeDeliveryContext env (some o)
      lastNotifiedEventAt := state.lastNotifiedEventAt }
  if next.requesterOrigin = none ∧ next.lastNotifiedEventAt = none ∧
      r.taskDeliveryStates.get? state.taskId = none then r
  else {r with taskDeliveryStates := r.taskDeliveryStates.set state.taskId next}

end OpenClaw.Tasks
