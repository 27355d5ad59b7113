import OpenClaw.Tasks.Records
import OpenClaw.Tasks.Delivery

/-! Settled tasks: those that have succeeded, failed, timed out, or been cancelled.

No write of the registry asks what status a task has. A settled task keeps its
status through deliveries, sweeps and creations; an agent event, an update by run
id and the end of a cancellation give it theirs. -/
namespace OpenClaw.Tasks
open Foundation Foundation.EcmaString List Option

/-! ### Settled tasks -/

theorem mergePatch_status (existing : TaskRecord) (params : CreateTaskParams) :
    (mergePatch existing params).status = none := rfl

/-- The statuses that are to stay. -/
def isSettledStatus (status : TaskStatus) : Bool :=
  status = .succeeded || status = .failed || status = .timedOut || status = .cancelled

theorem settled_not_active {status : TaskStatus} (h : isSettledStatus status = true) :
    isActiveTaskStatus status = false := by
  revert h
  cases status <;> decide

/-- The task has the status, unless it has been deleted. -/
structure SettledAs (id : String) (status : TaskStatus) (s : TaskSystem) : Prop where
  keyed : TasksKeyed s.registry
  status : ∀ task, s.registry.tasks.get? id = some task → task.status = status
  deleted : s.registry.tasks.get? id = none → id ∈ s.deleted

/-- No status is written over that of a settled task: an agent event and an update
by run id find no settled task in their scope that has another status than theirs,
and a cancellation ends before its task is settled otherwise. -/
def LeavesSettled : TaskEvent → TaskSystem → Prop
  | .agentEvent evt _, s => ∀ task ∈ getTasksByRunScope s.registry evt.runId none evt.sessionKey,
      isSettledStatus task.status = true → ∀ status, TaskSystem.eventStatus evt = some status → task.status = status
  | .runUpdate runId runtime sessionKey params _ _, s =>
      ∀ task ∈ getTasksByRunScope s.registry runId runtime sessionKey,
        isSettledStatus task.status = true → ∀ status, params.status = some status → task.status = status
  | .finishCancel i stopped _, s => stopped = true → ∀ asked, s.cancelling[i]? = some asked →
      ∀ task, s.registry.tasks.get? asked.taskId = some task → isSettledStatus task.status = true →
        task.status = .cancelled
  | _, _ => True

section Settled
variable {env : DeliveryEnv} {id : String} {status : TaskStatus} {s t : TaskSystem}

/-- A state with the same records. -/
theorem SettledAs.same (h : SettledAs id status s) (htasks : t.registry.tasks = s.registry.tasks)
    (hdeleted : t.deleted = s.deleted) : SettledAs id status t := by
  refine ⟨fun k task ht => h.keyed k task (htasks ▸ ht), fun task ht => h.status task (htasks ▸ ht), fun hn => ?_⟩
  rw [hdeleted]
  exact h.deleted (htasks ▸ hn)

section
variable (h : SettledAs id status s) (taskId : String)
include h taskId

/-- An update that gives the task no other status. -/
theorem SettledAs.update (patch : TaskPatch) (now : Int)
    (hpatch : taskId = id → ∀ next, patch.status = some next → next = status)
    (hregistry : t.registry.tasks = (updateTask taskId patch now s.registry).2.tasks)
    (hdeleted : t.deleted = s.deleted) : SettledAs id status t := by
  refine ⟨fun k task ht => keyed_updateTask h.keyed taskId patch now k task (hregistry ▸ ht), fun task ht => ?_,
    fun hn => ?_⟩
  · rw [hregistry, get?_updateTask] at ht
    split at ht
    · rename_i hid
      obtain ⟨current, hc, rfl⟩ := map_eq_some_iff.mp ht
      rw [nextRecord_status]
      cases hp : patch.status with
      | none => exact h.status current hc
      | some next => exact hpatch hid next hp
    · exact h.status task ht
  · rw [hdeleted]
    refine h.deleted ?_
    rw [hregistry, get?_updateTask] at hn
    split at hn
    · exact map_eq_none_iff.mp hn
    · exact hn

theorem SettledAs.recordTerminalDelivery (deliveryStatus : TaskDeliveryStatus) (now : Int) :
    SettledAs id status (s.write (recordTerminalDelivery taskId deliveryStatus now)) :=
  h.update taskId {deliveryStatus := some deliveryStatus, lastEventAt := some (some now)} now (fun _ => nofun) rfl rfl

theorem SettledAs.deliver (now : Int) :
    SettledAs id status (s.maybeDeliverTaskTerminalUpdate env taskId now) := by
  unfold TaskSystem.maybeDeliverTaskTerminalUpdate
  split
  · exact h
  · split
    · exact h
    · split
      · exact h.recordTerminalDelivery taskId .notApplicable now
      · split
        · exact h.recordTerminalDelivery taskId _ now
        · dsimp only
          split
          · exact h.same rfl rfl
          · have hhanded : SettledAs id status {s with handed := s.handed ++ [taskId]} := h.same rfl rfl
            exact hhanded.recordTerminalDelivery taskId .sessionQueued now

theorem SettledAs.recordStateChange (requesterOrigin : Option DeliveryContext) (eventAt now : Int) : SettledAs id status
      (s.write (recordStateChangeDelivery env.channels taskId requesterOrigin eventAt now)) := by
  let origin : TaskDeliveryState := ⟨taskId, requesterOrigin, some eventAt⟩
  have hstate : SettledAs id status {s with registry := upsertTaskDeliveryState env.channels origin s.registry} :=
    h.same (get?_upsertTaskDeliveryState ..) rfl
  exact hstate.update taskId {lastEventAt := some (some now)} now (fun _ => nofun) rfl rfl

theorem SettledAs.stateChange (event : Option TaskEventRecord) (now : Int) :
    SettledAs id status (s.maybeDeliverTaskStateChangeUpdate env taskId event now) := by
  unfold TaskSystem.maybeDeliverTaskStateChangeUpdate
  split
  · dsimp only
    split
    · exact h
    · split
      · exact h.recordTerminalDelivery taskId _ now
      · split
        · exact h.same rfl rfl
        · exact h.recordStateChange taskId _ _ now
  · exact h

end

theorem SettledAs.updateAndNotify (h : SettledAs id status s) {taskId : String} {patch : TaskPatch}
    {event : Option TaskEventRecord} {now : Int}
    (hpatch : taskId = id → ∀ next, patch.status = some next → next = status) :
    SettledAs id status (s.updateAndNotify env taskId patch event now) := by
  have hupdate {r : Registry} (hr : (updateTask taskId patch now s.registry).2 = r) :
      SettledAs id status {s with registry := r} := h.update taskId patch now hpatch (by rw [hr]) rfl
  unfold TaskSystem.updateAndNotify
  split
  · exact h
  · rename_i r hr
    exact ((hupdate (congrArg Prod.snd hr)).stateChange taskId event now).deliver taskId now

/-- One update after another, each giving the task no other status. -/
theorem SettledAs.updates {f : TaskRecord → TaskPatch} {event : TaskRecord → Option TaskEventRecord} {now : Int}
    {tasks : List TaskRecord}
    (hpatch : ∀ task ∈ tasks, task.taskId = id → ∀ next, (f task).status = some next → next = status)
    (h : SettledAs id status s) : SettledAs id status (tasks.foldl (fun s current =>
      s.updateAndNotify env current.taskId (f current) (event current) now) s) := by
  induction tasks generalizing s with
  | nil => exact h
  | cons task rest ih =>
    refine ih (fun other ho => hpatch other (mem_cons_of_mem _ ho)) ?_
    exact h.updateAndNotify (hpatch task mem_cons_self)

/-- The records of a run's scope are records of the registry. -/
theorem getTasksByRunScope_mem {r : Registry} (hk : TasksKeyed r) {runId : String} {runtime : Option TaskRuntime}
    {sessionKey : Option String} {task : TaskRecord} (h : task ∈ getTasksByRunScope r runId runtime sessionKey) :
    r.tasks.get? task.taskId = some task := by
  have hfound : task ∈ getTasksByRunId r runId := by
    unfold getTasksByRunScope at h
    dsimp only at h
    split at h
    · split at h
      · exact mem_of_mem_filter (mem_of_mem_filter h)
      · exact mem_of_mem_filter (mem_of_mem_filter h)
    · split at h
      · exact mem_of_mem_filter h
      · cases h
  obtain ⟨k, -, hk'⟩ := mem_filterMap.mp hfound
  rw [hk k task hk']
  exact hk'

theorem agentEventPatch_status (evt : AgentEvent) (current : TaskRecord) (at' : Int) :
    (agentEventPatch evt current at').status = TaskSystem.eventStatus evt := by
  unfold agentEventPatch TaskSystem.eventStatus
  cases evt.stream with
  | lifecycle =>
    cases evt.phase with
    | none => rfl
    | some phase => cases phase <;> rfl
  | _ => rfl

theorem SettledAs.onAgentEvent (h : SettledAs id status s) (hsettled : isSettledStatus status = true)
    {evt : AgentEvent} {now : Int} (hc : LeavesSettled (.agentEvent evt now) s) :
    SettledAs id status (s.onAgentEvent env evt now) := by
  refine SettledAs.updates (fun task ht hid next hnext => ?_) h
  have hstatus := h.status task (hid ▸ getTasksByRunScope_mem h.keyed ht)
  rw [agentEventPatch_status] at hnext
  rw [← hstatus]
  exact (hc task ht (hstatus ▸ hsettled) next hnext).symm

theorem SettledAs.runUpdate (h : SettledAs id status s) (hsettled : isSettledStatus status = true)
    {runId : String} {runtime : Option TaskRuntime} {sessionKey : Option String} {params : RunUpdate}
    {eventSummary : Option String} {now : Int}
    (hc : LeavesSettled (.runUpdate runId runtime sessionKey params eventSummary now) s) :
    SettledAs id status (s.updateTaskStateByRunId env runId runtime sessionKey params eventSummary now) := by
  refine SettledAs.updates (fun task ht hid next hnext => ?_) h
  have hstatus := h.status task (hid ▸ getTasksByRunScope_mem h.keyed ht)
  rw [← hstatus]
  exact (hc task ht (hstatus ▸ hsettled) next hnext).symm

theorem SettledAs.updateTasks {r : Registry} (patches : List (String × TaskPatch)) (now : Int)
    (hpatch : ∀ p ∈ patches, p.2.status = none) (h : SettledAs id status {s with registry := r}) :
    SettledAs id status {s with registry := updateTasks patches now r} := by
  induction patches generalizing r with
  | nil => exact h
  | cons p rest ih =>
    refine ih (fun q hq => hpatch q (mem_cons_of_mem _ hq)) (h.update p.1 p.2 now (fun _ next hn => ?_) rfl rfl)
    rw [hpatch p mem_cons_self] at hn
    cases hn

theorem SettledAs.created (h : SettledAs id status s) (env : ChannelEnv) (params : CreateTaskParams) {taskId : String}
    (hnew : ¬((s.registry.tasks.get? taskId).isSome ∨ taskId ∈ s.deleted)) (now : Int) :
    SettledAs id status {s with registry := (createTaskRecord env params taskId now s.registry).2} := by
  have hget := get?_createTaskRecord env params taskId now s.registry id
  refine ⟨keyed_createTaskRecord h.keyed env params taskId now, fun task ht => ?_, fun hn => h.deleted ?_⟩
  · rcases hget with hsame | ⟨rfl, hinsert⟩ | ⟨existing, -, rfl, hmerge⟩
    · exact h.status task (hsame.symm.trans ht)
    · refine absurd ?_ hnew
      cases hg : s.registry.tasks.get? taskId with
      | none => exact .inr (h.deleted hg)
      | some _ => exact .inl rfl
    · obtain ⟨current, hc, rfl⟩ := map_eq_some_iff.mp (hmerge.symm.trans ht)
      rw [nextRecord_status, mergePatch_status]
      exact h.status current hc
  · rcases hget with hsame | ⟨rfl, hinsert⟩ | ⟨existing, -, rfl, hmerge⟩
    · exact hsame.symm.trans hn
    · cases hinsert.symm.trans hn
    · dsimp only at hn
      rw [hmerge, map_eq_none_iff] at hn
      exact hn

theorem SettledAs.createTaskRecord (h : SettledAs id status s) (params : CreateTaskParams) {taskId : String}
    (hnew : ¬((s.registry.tasks.get? taskId).isSome ∨ taskId ∈ s.deleted)) (now : Int) :
    SettledAs id status (s.createTaskRecord env params taskId now) := by
  have hcreated := h.created env.channels params hnew now
  unfold TaskSystem.createTaskRecord
  dsimp only
  split
  · split
    · exact hcreated.deliver taskId now
    · exact hcreated
  · exact hcreated

theorem SettledAs.finishCancel (h : SettledAs id status s) (hsettled : isSettledStatus status = true)
    {i : Nat} {stopped : Bool} {now : Int} (hc : LeavesSettled (.finishCancel i stopped now) s)
    (ht : s.finishCancel env i stopped now = some t) : SettledAs id status t := by
  obtain ⟨asked, hasked, rfl⟩ := map_eq_some_iff.mp ht
  have hrest : SettledAs id status {s with cancelling := s.cancelling.eraseIdx i} := h.same rfl rfl
  dsimp only
  split
  · rename_i hstopped
    have hupdate {r : Registry} (hr : (recordCancelled asked.taskId now s.registry).2 = r)
        (hfound : (s.registry.tasks.get? asked.taskId).isSome) :
        SettledAs id status {s with registry := r, cancelling := s.cancelling.eraseIdx i} := by
      refine hrest.update asked.taskId _ now (fun hid next hnext => ?_) (congrArg Registry.tasks hr.symm) rfl
      obtain ⟨current, hcurrent⟩ := isSome_iff_exists.mp hfound
      have hstatus := h.status current (hid ▸ hcurrent)
      have hnext : TaskStatus.cancelled = next := Option.some.inj hnext
      rw [← hstatus, ← hnext]
      exact (hc hstopped asked hasked current hcurrent (hstatus ▸ hsettled)).symm
    cases hg : s.registry.tasks.get? asked.taskId with
    | none =>
      simp only [recordCancelled, updateTask, hg]
      exact hrest
    | some current =>
      split
      · exact hrest
      · rename_i hr
        exact (hupdate (congrArg Prod.snd hr) (by rw [hg]; rfl)).deliver asked.taskId now
  · exact hrest

theorem getTaskById_keyed {r : Registry} (hk : TasksKeyed r) {taskId : String} {task : TaskRecord}
    (h : getTaskById r taskId = some task) : r.tasks.get? task.taskId = some task := by
  rw [hk _ task h]
  exact h

/-- A sweep marks no task that has ended, and deletes none without a trace. -/
theorem SettledAs.sweep (h : SettledAs id status s) (hsettled : isSettledStatus status = true)
    (maintenance : MaintenanceEnv) (taskId : String) (now clock : Int) :
    SettledAs id status (s.sweep env maintenance taskId now clock) := by
  unfold TaskSystem.sweep sweepTask
  cases hs : sweepAction maintenance taskId now s.registry with
  | markLost current =>
    obtain ⟨hcurrent, hlost⟩ := sweepAction_markLost hs
    have hmarked : SettledAs id status {s with registry := (markTaskLost current now clock s.registry).2} := by
      unfold markTaskLost markTaskLostById
      refine h.update current.taskId _ clock (fun hid => ?_) rfl rfl
      have hstatus := h.status current (hid ▸ getTaskById_keyed h.keyed hcurrent)
      rw [shouldMarkLost, isActiveTask, hstatus, settled_not_active hsettled] at hlost
      cases hlost
    exact hmarked.deliver current.taskId clock
  | prune current =>
    refine ⟨keyed_deleteTask h.keyed current.taskId, fun task ht => ?_, fun hn => ?_⟩
    · dsimp only at ht
      rw [get?_deleteTask] at ht
      split at ht
      · cases ht
      · exact h.status task ht
    · dsimp only at hn ⊢
      rw [get?_deleteTask] at hn
      split at hn
      · rename_i hid
        exact mem_append_right _ (mem_singleton.mpr hid)
      · exact mem_append_left _ (h.deleted hn)
  | stamp current =>
    unfold setTaskCleanupAfterById
    exact h.update current.taskId {cleanupAfter := some (some (resolveCleanupAfter current))} clock (fun _ => nofun)
      rfl rfl
  | leave => exact h.same rfl rfl

theorem settledAs_step (hsettled : isSettledStatus status = true) (e : TaskEvent) (h : SettledAs id status s)
    (hc : LeavesSettled e s) (ht : taskStep env e s = some t) : SettledAs id status t := by
  cases e with
  | agentEvent evt now =>
    cases ht
    exact h.onAgentEvent hsettled hc
  | runUpdate runId runtime sessionKey params eventSummary now =>
    cases ht
    exact h.runUpdate hsettled hc
  | runDelivery runId runtime sessionKey deliveryStatus now =>
    cases ht
    refine h.updateTasks _ now fun p hp => ?_
    obtain ⟨task, -, rfl⟩ := List.mem_map.mp hp
    rfl
  | create params taskId now =>
    simp only [taskStep] at ht
    split at ht
    · cases ht
    · rename_i hnew
      cases ht
      exact h.createTaskRecord params hnew now
  | beginCancel taskId =>
    cases ht
    unfold TaskSystem.beginCancel
    split
    · split
      · exact h.same rfl rfl
      · exact h
    · exact h
  | finishCancel i stopped now => exact h.finishCancel hsettled hc ht
  | sweepTask maintenance taskId now clock =>
    cases ht
    exact h.sweep hsettled maintenance taskId now clock
  | deliver taskId now =>
    cases ht
    exact h.deliver taskId now
  | finishTerminalSend i sent now =>
    obtain ⟨taskId, -, rfl⟩ := map_eq_some_iff.mp ht
    exact (h.recordTerminalDelivery taskId (if sent then .delivered else .failed) now).same rfl rfl
  | finishStateChangeSend i sent now =>
    obtain ⟨send, -, rfl⟩ := map_eq_some_iff.mp ht
    have hrest : SettledAs id status {s with stateChangeSends := s.stateChangeSends.eraseIdx i} := h.same rfl rfl
    dsimp only
    split
    · exact hrest.recordStateChange send.taskId send.requesterOrigin send.eventAt now
    · exact hrest

end Settled

/-- **A settled task stays as it is** in a run whose agent events, updates by run id
and cancellations find no task of theirs settled with another status. -/
theorem settled_task_keeps_status (env : DeliveryEnv) (events : List TaskEvent) (s t : TaskSystem) (id : String)
    (task : TaskRecord) (hkeyed : TasksKeyed s.registry) (htask : s.registry.tasks.get? id = some task)
    (hsettled : isSettledStatus task.status = true) (hc : (taskStep env).Within LeavesSettled events s)
    (hrun : (taskStep env).run events s = some t) :
    ∀ later, t.registry.tasks.get? id = some later → later.status = task.status := by
  have hstart : SettledAs id task.status s := by
    refine ⟨hkeyed, fun current hcurrent => ?_, fun hnone => ?_⟩
    · rw [htask] at hcurrent
      cases hcurrent
      rfl
    · rw [htask] at hnone
      cases hnone
  exact ((taskStep env).run_within_invariant (fun e _ _ h hce he => settledAs_step hsettled e h hce he) events
    hstart hc hrun).status

/-! ### A late event -/

def plainDelivery : DeliveryEnv where
  channels := ⟨some, id⟩
  isDeliverableMessageChannel _ := true
  hasStatusText summary := summary.isSome

def acpRun : CreateTaskParams :=
  { runtime := .acp, ownerKey := some "main", scopeKind := some .session, childSessionKey := some "child",
    runId := some "run", task := "Patch file", status := some .running }

/-- A run is created, and cancelled by its operator. -/
def cancelledRun : List TaskEvent :=
  [.create acpRun "task" 10, .beginCancel "task", .finishCancel 0 true 20]

/-- Work for another run, while the cancelled one is swept. -/
def laterEvents : List TaskEvent :=
  [.agentEvent { runId := "other", stream := .lifecycle, ts := 30, phase := some .end } 30,
    .sweepTask ⟨fun _ => false, fun _ => false, fun _ => false, fun _ => false, fun _ => false⟩ "task" 1000000 1000000]

def cancelledTask : TaskSystem := ((taskStep plainDelivery).run cancelledRun {registry := {}}).getD {registry := {}}

theorem keyed_cancelledTask : TasksKeyed cancelledTask.registry := by
  intro k task h
  have hall : ∀ p ∈ cancelledTask.registry.tasks.entries, p.2.taskId = p.1 := by decide
  exact hall (k, task) ((InsertionMap.get?_eq_some ..).mp h)

theorem settled_task_keeps_status_cancelled : ∃ task t,
    cancelledTask.registry.tasks.get? "task" = some task ∧ task.status = .cancelled ∧
      (taskStep plainDelivery).run laterEvents cancelledTask = some t ∧
      ∀ later, t.registry.tasks.get? "task" = some later → later.status = task.status := by
  refine ⟨_, _, rfl, rfl, rfl, settled_task_keeps_status plainDelivery laterEvents cancelledTask _ "task" _
    keyed_cancelledTask rfl (by decide) ?_ rfl⟩
  have hscope : getTasksByRunScope cancelledTask.registry "other" none none = [] := by decide
  refine ⟨fun task ht => ?_, fun _ _ => ⟨trivial, fun _ _ => trivial⟩⟩
  rw [hscope] at ht
  cases ht

/-- The end of a run that was cancelled makes its task succeed, and its start makes
it run. -/
theorem cancelled_run_succeeds :
    ((taskStep plainDelivery).run cancelledRun {registry := {}}).map
        (fun s => (s.registry.tasks.get? "task").map TaskRecord.status) = some (some .cancelled) ∧
      ((taskStep plainDelivery).run (cancelledRun ++
          [.agentEvent { runId := "run", stream := .lifecycle, ts := 30, phase := some .end } 30])
        {registry := {}}).map (fun s => (s.registry.tasks.get? "task").map TaskRecord.status) =
          some (some .succeeded) ∧
      ((taskStep plainDelivery).run (cancelledRun ++
          [.agentEvent { runId := "run", stream := .lifecycle, ts := 30, phase := some .start } 30])
        {registry := {}}).map (fun s => (s.registry.tasks.get? "task").map TaskRecord.status) =
          some (some .running) := by
  decide

end OpenClaw.Tasks
