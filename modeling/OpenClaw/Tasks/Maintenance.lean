import OpenClaw.Tasks.Writers

/-! Maintenance of the task registry: lost tasks, old tasks, cleanup stamps.

A sweep goes over the tasks it listed and looks each up again before it acts; it
yields between batches, so what it does to one task is a step of its own. An
inspection shows a task as lost where a sweep would mark it. -/
namespace OpenClaw.Tasks
open Foundation Foundation.EcmaString

def TASK_RECONCILE_GRACE_MS : Int := 5 * 60000

def TASK_RETENTION_MS : Int := 7 * 24 * 60 * 60000

/-- What maintenance reads of the rest of the process. -/
structure MaintenanceEnv where
  isCronJobActive : String → Bool
  /-- Is the agent run of this id under way? -/
  hasAgentRunContext : String → Bool
  /-- The acp session has an entry, or its store cannot be read. -/
  hasAcpSession : String → Bool
  /-- The key is that of a channel, group or direct chat. -/
  isChatSessionKey : String → Bool
  /-- The session store of the key's agent has an entry for it. -/
  hasSessionEntry : String → Bool

def getTaskById (r : Registry) (taskId : String) : Option TaskRecord := r.tasks.get? (trim taskId)

variable (env : MaintenanceEnv) (task : TaskRecord)

def isActiveTask : Bool := isActiveTaskStatus task.status

def isTerminalTask : Bool := !isActiveTask task

def hasLostGraceExpired (now : Int) : Bool :=
  TASK_RECONCILE_GRACE_MS ≤ now - (task.lastEventAt.or task.startedAt).getD task.createdAt

def hasActiveCliRun : Bool :=
  [task.sourceId, task.runId].any fun candidate => (trimmed? candidate).any env.hasAgentRunContext

def hasBackingSession : Bool :=
  if task.runtime = .cron then (trimmed? task.sourceId).any env.isCronJobActive
  else if task.runtime = .cli ∧ hasActiveCliRun env task then true
  else
    match trimmed? task.childSessionKey with
    | none => true
    | some childSessionKey =>
      match task.runtime with
      | .acp => env.hasAcpSession childSessionKey
      | .cli => !env.isChatSessionKey childSessionKey && env.hasSessionEntry childSessionKey
      | .subagent => env.hasSessionEntry childSessionKey
      | .cron => true

def shouldMarkLost (now : Int) : Bool :=
  isActiveTask task && hasLostGraceExpired task now && !hasBackingSession env task

def terminalAt : Int := (task.endedAt.or task.lastEventAt).getD task.createdAt

def shouldPruneTerminalTask (now : Int) : Bool :=
  isTerminalTask task &&
    match task.cleanupAfter with
    | some cleanupAfter => cleanupAfter ≤ now
    | none => TASK_RETENTION_MS ≤ now - terminalAt task

def shouldStampCleanupAfter : Bool := isTerminalTask task && task.cleanupAfter = none

def resolveCleanupAfter : Int := terminalAt task + TASK_RETENTION_MS

/-- The task as an inspection shows it once it counts as lost. -/
def projectTaskLost (now : Int) : TaskRecord :=
  let projected := {task with
    status := .lost
    endedAt := some (task.endedAt.getD now)
    lastEventAt := some now
    error := some (task.error.getD "backing session missing")}
  {projected with cleanupAfter := some (projected.cleanupAfter.getD (resolveCleanupAfter projected))}

/-- `clock` is what the write itself reads. -/
def markTaskLost (now clock : Int) (r : Registry) : Option TaskRecord × Registry :=
  markTaskLostById task.taskId (task.endedAt.getD now) (some now) (some (task.error.getD "backing session missing"))
    (task.cleanupAfter.or (projectTaskLost task now).cleanupAfter) clock r

/-- `reconcileTaskRecordForOperatorInspection`. -/
def reconcileTask (now : Int) (task : TaskRecord) : TaskRecord :=
  if shouldMarkLost env task now then projectTaskLost task now else task

def reconcileInspectableTasks (now : Int) (r : Registry) : List TaskRecord :=
  (listTaskRecords r).map (reconcileTask env now)

/-- What a sweep does to one task of its list. -/
inductive SweepAction where
  | markLost (task : TaskRecord)
  | prune (task : TaskRecord)
  | stamp (task : TaskRecord)
  | leave

def sweepAction (taskId : String) (now : Int) (r : Registry) : SweepAction :=
  match getTaskById r taskId with
  | none => .leave
  | some current =>
    if shouldMarkLost env current now then .markLost current
    else if shouldPruneTerminalTask current now && (deleteTaskRecordById current.taskId r).1 then .prune current
    else if shouldStampCleanupAfter current then .stamp current
    else .leave

theorem sweepAction_markLost {env : MaintenanceEnv} {taskId : String} {now : Int} {r : Registry} {task : TaskRecord}
    (h : sweepAction env taskId now r = .markLost task) :
    getTaskById r taskId = some task ∧ shouldMarkLost env task now = true := by
  unfold sweepAction at h
  split at h
  · cases h
  · rename_i current hcurrent
    split at h
    · rename_i hlost
      cases h
      exact ⟨hcurrent, hlost⟩
    · split at h
      · cases h
      · split at h <;> cases h

/-- The body of the sweep's loop, without the notice of a lost task. -/
def sweepTask (taskId : String) (now clock : Int) (r : Registry) : Registry :=
  match sweepAction env taskId now r with
  | .markLost current => (markTaskLost current now clock r).2
  | .prune current => (deleteTaskRecordById current.taskId r).2
  | .stamp current => (setTaskCleanupAfterById current.taskId (resolveCleanupAfter current) clock r).2
  | .leave => r

end OpenClaw.Tasks
