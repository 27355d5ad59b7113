import OpenClaw.Tasks.Settled

/-! The terminal message of a task, and how often it is handed over.

A delivery under way keeps its task in the pending set, and one that has come to an
end leaves the record with another delivery status than pending. So a task's
message is handed over once, unless a later write makes the record pending again:
a repeated creation does that to every record but a delivered one. -/
namespace OpenClaw.Tasks
open Foundation Foundation.EcmaString List Option

/-- No task whose message has been handed over, and is not on its way, is made
pending again: by a repeated creation, unless the message was delivered, or by an
update of the delivery status. -/
def AsksOnce : TaskEvent → TaskSystem → Prop
  | .create params _ _, s => ∀ existing, mergesInto params s.registry existing →
      params.deliveryStatus = some .pending → existing.taskId ∈ s.handed →
        existing.taskId ∈ s.terminalSends ∨ existing.deliveryStatus = .delivered
  | .runDelivery runId runtime sessionKey deliveryStatus _, s => deliveryStatus = .pending →
      ∀ task ∈ getTasksByRunScope s.registry runId runtime sessionKey,
        task.taskId ∈ s.handed → task.taskId ∈ s.terminalSends
  | _, _ => True

/-- The message of a task was handed over once at most, and what came of it is on
record or still open. -/
structure HandedOnce (id : String) (s : TaskSystem) : Prop where
  keyed : TasksKeyed s.registry
  once : s.handed.count id ≤ 1
  sending : id ∈ s.terminalSends → id ∈ s.handed ∧ id ∈ s.tasksWithPendingDelivery
  single : s.terminalSends.count id ≤ 1
  told : id ∈ s.handed → id ∉ s.terminalSends →
    ∀ task, s.registry.tasks.get? id = some task → task.deliveryStatus ≠ .pending
  gone : id ∈ s.handed → s.registry.tasks.get? id = none → id ∈ s.deleted

section Once
variable {env : DeliveryEnv} {id : String} {s t : TaskSystem}

variable {r : Registry} {current : TaskRecord} {taskId : String} {now : Int} {params : CreateTaskParams}
  {i : Nat}

/-- Another registry, in which a message that was handed over is as settled as before. -/
theorem HandedOnce.registry (h : HandedOnce id s) (hkeyed : TasksKeyed r)
    (htold : id ∈ s.handed → id ∉ s.terminalSends → ∀ task, r.tasks.get? id = some task → task.deliveryStatus ≠ .pending)
    (hgone : id ∈ s.handed → r.tasks.get? id = none → s.registry.tasks.get? id = none) :
    HandedOnce id {s with registry := r} where
  keyed := hkeyed
  once := h.once
  sending := h.sending
  single := h.single
  told := htold
  gone hid hn := h.gone hid (hgone hid hn)

/-- An update that does not make a handed over task pending. -/
theorem HandedOnce.update (h : HandedOnce id s) (taskId : String) (patch : TaskPatch) (now : Int)
    (hpatch : taskId = id → id ∈ s.handed → id ∉ s.terminalSends → patch.deliveryStatus ≠ some .pending) :
    HandedOnce id {s with registry := (updateTask taskId patch now s.registry).2} := by
  refine h.registry (keyed_updateTask h.keyed taskId patch now) (fun hid hsent task ht => ?_) (fun _ hn => ?_)
  · rw [get?_updateTask] at ht
    split at ht
    · rename_i heq
      obtain ⟨current, hc, rfl⟩ := map_eq_some_iff.mp ht
      rw [nextRecord_deliveryStatus]
      have hnext := hpatch heq hid hsent
      cases hp : patch.deliveryStatus with
      | none => exact h.told hid hsent current hc
      | some next =>
        rw [hp] at hnext
        exact fun he => hnext (congrArg some he)
    · exact h.told hid hsent task ht
  · rw [get?_updateTask] at hn
    split at hn
    · exact map_eq_none_iff.mp hn
    · exact hn

theorem HandedOnce.recordTerminalDelivery (h : HandedOnce id s) (taskId : String)
    (deliveryStatus : TaskDeliveryStatus) (hstatus : deliveryStatus ≠ .pending) (now : Int) :
    HandedOnce id (s.write (recordTerminalDelivery taskId deliveryStatus now)) :=
  h.update taskId {deliveryStatus := some deliveryStatus, lastEventAt := some (some now)} now
    fun _ _ _ he => hstatus (Option.some.inj he)

theorem resolveMissingOwnerDeliveryStatus_ne (task : TaskRecord) :
    resolveMissingOwnerDeliveryStatus task ≠ .pending := by
  unfold resolveMissingOwnerDeliveryStatus
  split <;> decide

section
variable (h : HandedOnce id s)
include h

/-- A task that is to be told of, and is not being told of, was never handed over. -/
theorem HandedOnce.not_handed (hcurrent : s.registry.tasks.get? id = some current)
    (hauto : shouldAutoDeliverTaskTerminalUpdate current = true) (hpending : id ∉ s.tasksWithPendingDelivery) :
    id ∉ s.handed := by
  intro hid
  have hsent : id ∉ s.terminalSends := fun hs => hpending (h.sending hs).2
  have hstatus : current.deliveryStatus = .pending := by
    simp only [shouldAutoDeliverTaskTerminalUpdate, Bool.and_eq_true, decide_eq_true_eq] at hauto
    exact hauto.2
  exact h.told hid hsent current hcurrent hstatus

theorem HandedOnce.recordStateChange (taskId : String) (requesterOrigin : Option DeliveryContext)
    (eventAt now : Int) : HandedOnce id
      (s.write (recordStateChangeDelivery env.channels taskId requesterOrigin eventAt now)) := by
  let state : TaskDeliveryState := ⟨taskId, requesterOrigin, some eventAt⟩
  have htasks := get?_upsertTaskDeliveryState env.channels state s.registry
  have hstate : HandedOnce id {s with registry := upsertTaskDeliveryState env.channels state s.registry} := by
    refine h.registry (fun k task ht => h.keyed k task (htasks ▸ ht)) (fun hid hsent task ht => ?_) fun _ hn => ?_
    · exact h.told hid hsent task (htasks ▸ ht)
    · exact htasks ▸ hn
  exact hstate.update taskId {lastEventAt := some (some now)} now fun _ _ _ => nofun

/-- A message on its way to a channel. -/
theorem HandedOnce.send (hcurrent : s.registry.tasks.get? taskId = some current)
    (hnew : taskId = id → id ∉ s.handed) :
    HandedOnce id {s with
      handed := s.handed ++ [taskId]
      tasksWithPendingDelivery := taskId :: s.tasksWithPendingDelivery
      terminalSends := s.terminalSends ++ [taskId]} := by
  by_cases heq : taskId = id
  · subst heq
    have hhanded := hnew rfl
    have hsent : taskId ∉ s.terminalSends := fun hs => hhanded (h.sending hs).1
    refine ⟨h.keyed, ?_, fun _ => ⟨by simp, by simp⟩, ?_, fun _ hout => absurd (by simp) hout, fun _ hn => ?_⟩
    · simp [count_append, count_eq_zero_of_not_mem hhanded]
    · simp [count_append, count_eq_zero_of_not_mem hsent]
    · rw [show s.registry.tasks.get? taskId = some current from hcurrent] at hn
      cases hn
  · have hother : id ∉ [taskId] := fun hm => heq (mem_singleton.mp hm).symm
    refine ⟨h.keyed, ?_, fun hs => ?_, ?_, fun hid hout => ?_, fun hid => ?_⟩
    · rw [count_append, count_eq_zero_of_not_mem hother]
      exact h.once
    · have hs' := (mem_append.mp hs).resolve_right hother
      exact ⟨mem_append_left _ (h.sending hs').1, mem_cons_of_mem _ (h.sending hs').2⟩
    · rw [count_append, count_eq_zero_of_not_mem hother]
      exact h.single
    · exact h.told ((mem_append.mp hid).resolve_right hother) fun hs => hout (mem_append_left _ hs)
    · exact h.gone ((mem_append.mp hid).resolve_right hother)

/-- A message that goes to the session's queue at once. -/
theorem HandedOnce.queue (hcurrent : s.registry.tasks.get? taskId = some current)
    (hnew : taskId = id → id ∉ s.handed) (now : Int) :
    HandedOnce id (({s with handed := s.handed ++ [taskId]} : TaskSystem).write
      (OpenClaw.Tasks.recordTerminalDelivery taskId .sessionQueued now)) := by
  by_cases heq : taskId = id
  · subst heq
    have hhanded := hnew rfl
    refine ⟨keyed_updateTask h.keyed _ _ now, ?_, fun hs => absurd (h.sending hs).1 hhanded, h.single,
      fun _ _ task ht => ?_, fun _ hn => ?_⟩
    · simp [TaskSystem.write, count_append, count_eq_zero_of_not_mem hhanded]
    · have htask : (updateTask taskId _ now s.registry).2.tasks.get? taskId = some task := ht
      rw [get?_updateTask, if_pos rfl, hcurrent] at htask
      cases htask
      rw [nextRecord_deliveryStatus]
      exact fun he => TaskDeliveryStatus.noConfusion he
    · have hnone : (updateTask taskId _ now s.registry).2.tasks.get? taskId = none := hn
      rw [get?_updateTask, if_pos rfl, hcurrent] at hnone
      cases hnone
  · have hother : id ∉ [taskId] := fun hm => heq (mem_singleton.mp hm).symm
    have hcount : (s.handed ++ [taskId]).count id = s.handed.count id := by
      rw [count_append, count_eq_zero_of_not_mem hother, Nat.add_zero]
    have hmem : id ∈ s.handed ++ [taskId] → id ∈ s.handed := fun hm => (mem_append.mp hm).resolve_right hother
    have hqueued : HandedOnce id {s with handed := s.handed ++ [taskId]} :=
      ⟨h.keyed, hcount ▸ h.once, fun hs => ⟨mem_append_left _ (h.sending hs).1, (h.sending hs).2⟩, h.single,
        fun hid => h.told (hmem hid), fun hid => h.gone (hmem hid)⟩
    exact hqueued.recordTerminalDelivery taskId .sessionQueued (by decide) now

theorem HandedOnce.deliver (taskId : String) (now : Int) :
    HandedOnce id (s.maybeDeliverTaskTerminalUpdate env taskId now) := by
  unfold TaskSystem.maybeDeliverTaskTerminalUpdate
  cases hcurrent : s.registry.tasks.get? taskId with
  | none => exact h
  | some current =>
    dsimp only
    split
    · exact h
    · rename_i hasked
      have hnew (heq : taskId = id) : id ∉ s.handed := by
        refine h.not_handed (heq ▸ hcurrent) ?_ fun hp => hasked (.inr (heq ▸ hp))
        by_contra hauto
        exact hasked (.inl (by simp [hauto]))
      split
      · exact h.recordTerminalDelivery taskId .notApplicable (by decide) now
      · split
        · exact h.recordTerminalDelivery taskId _ (resolveMissingOwnerDeliveryStatus_ne current) now
        · split
          · exact h.send hcurrent hnew
          · exact h.queue hcurrent hnew now

theorem HandedOnce.stateChange (taskId : String) (event : Option TaskEventRecord) (now : Int) :
    HandedOnce id (s.maybeDeliverTaskStateChangeUpdate env taskId event now) := by
  unfold TaskSystem.maybeDeliverTaskStateChangeUpdate
  split
  · rename_i current _ hcurrent
    dsimp only
    split
    · exact h
    · split
      · exact h.recordTerminalDelivery taskId _ (resolveMissingOwnerDeliveryStatus_ne current) now
      · split
        · exact ⟨h.keyed, h.once, h.sending, h.single, h.told, h.gone⟩
        · exact h.recordStateChange taskId _ _ now
  · exact h

theorem HandedOnce.updateAndNotify {patch : TaskPatch} {event : Option TaskEventRecord}
    (hpatch : patch.deliveryStatus = none) :
    HandedOnce id (s.updateAndNotify env taskId patch event now) := by
  have hupdate := h.update taskId patch now fun _ _ _ he => by
    rw [hpatch] at he
    cases he
  unfold TaskSystem.updateAndNotify
  split
  · exact h
  · rename_i r hr
    rw [hr] at hupdate
    exact (hupdate.stateChange taskId event now).deliver taskId now

end

theorem HandedOnce.updates {f : TaskRecord → TaskPatch} {event : TaskRecord → Option TaskEventRecord}
    (hpatch : ∀ task, (f task).deliveryStatus = none) (tasks : List TaskRecord) (h : HandedOnce id s) :
    HandedOnce id (tasks.foldl (fun s current =>
      s.updateAndNotify env current.taskId (f current) (event current) now) s) := by
  induction tasks generalizing s with
  | nil => exact h
  | cons task rest ih => exact ih (h.updateAndNotify (hpatch task))

/-! ### Steps -/

theorem agentEventPatch_deliveryStatus (evt : AgentEvent) (current : TaskRecord) (at' : Int) :
    (agentEventPatch evt current at').deliveryStatus = none := by
  unfold agentEventPatch
  cases evt.stream with
  | lifecycle =>
    cases evt.phase with
    | none => rfl
    | some phase => cases phase <;> rfl
  | _ => rfl

theorem HandedOnce.updateTasks (patches : List (String × TaskPatch)) (now : Int)
    (hpatch : ∀ p ∈ patches, p.1 = id → id ∈ s.handed → id ∉ s.terminalSends → p.2.deliveryStatus ≠ some .pending)
    (h : HandedOnce id {s with registry := r}) : HandedOnce id {s with registry := updateTasks patches now r} := by
  induction patches generalizing r with
  | nil => exact h
  | cons p rest ih =>
    exact ih (fun q hq => hpatch q (mem_cons_of_mem _ hq)) (h.update p.1 p.2 now (hpatch p mem_cons_self))

theorem getTasksByRunId_mem (hk : TasksKeyed r) {runId : String} {task : TaskRecord}
    (h : task ∈ getTasksByRunId r runId) : r.tasks.get? task.taskId = some task := by
  obtain ⟨k, -, hk'⟩ := mem_filterMap.mp h
  rw [hk k task hk']
  exact hk'

/-- The record a creation merges into is in the registry. -/
theorem findExistingTaskForCreate_mem (hk : TasksKeyed r) {existing : TaskRecord}
    (h : findExistingTaskForCreate r params = some existing) :
    r.tasks.get? existing.taskId = some existing := by
  obtain ⟨runId, -, hfound⟩ := bind_eq_some_iff.mp h
  have hmem : existing ∈ getTasksByRunId r runId := by
    dsimp only at hfound
    split at hfound
    · rename_i hexact
      cases hfound
      exact mem_of_mem_filter (mem_of_find?_eq_some hexact)
    · split at hfound
      · cases hfound
      · exact mem_of_mem_filter (pickPreferredRunIdTask_mem hfound)
  exact getTasksByRunId_mem hk hmem

theorem HandedOnce.created (h : HandedOnce id s) (env : ChannelEnv)
    (hnew : ¬((s.registry.tasks.get? taskId).isSome ∨ taskId ∈ s.deleted))
    (hc : AsksOnce (.create params taskId now) s) :
    HandedOnce id {s with registry := (createTaskRecord env params taskId now s.registry).2} := by
  refine h.registry (keyed_createTaskRecord h.keyed env params taskId now) (fun hid hsent task ht => ?_)
    (fun _ hn => ?_)
  · rcases get?_createTaskRecord env params taskId now s.registry id with
      hsame | ⟨rfl, -⟩ | ⟨existing, hexisting, rfl, hmerge⟩
    · exact h.told hid hsent task (hsame.symm.trans ht)
    · refine absurd ?_ hnew
      cases hg : s.registry.tasks.get? taskId with
      | none => exact .inr (h.gone hid hg)
      | some _ => exact .inl rfl
    · obtain ⟨current, hcurrent, rfl⟩ := map_eq_some_iff.mp (hmerge.symm.trans ht)
      rw [nextRecord_deliveryStatus]
      have hsame : current = existing :=
        Option.some.inj (hcurrent.symm.trans (findExistingTaskForCreate_mem h.keyed hexisting.2.2))
      have hstatus := h.told hid hsent current hcurrent
      unfold mergePatch
      dsimp only
      split
      · rename_i hasks
        rcases hc existing hexisting hasks.1 hid with hsending | hdelivered
        · exact absurd hsending hsent
        · exact absurd hdelivered hasks.2
      · exact hstatus
  · rcases get?_createTaskRecord env params taskId now s.registry id with
      hsame | ⟨rfl, hinsert⟩ | ⟨existing, -, rfl, hmerge⟩
    · exact hsame.symm.trans hn
    · cases hinsert.symm.trans hn
    · rw [hmerge, map_eq_none_iff] at hn
      exact hn

theorem HandedOnce.createTaskRecord (h : HandedOnce id s)
    (hnew : ¬((s.registry.tasks.get? taskId).isSome ∨ taskId ∈ s.deleted))
    (hc : AsksOnce (.create params taskId now) s) : HandedOnce id (s.createTaskRecord env params taskId now) := by
  have hcreated := h.created env.channels hnew hc
  unfold TaskSystem.createTaskRecord
  dsimp only
  split
  · split
    · exact hcreated.deliver taskId now
    · exact hcreated
  · exact hcreated

/-- A change of what the deliveries do not read. -/
theorem HandedOnce.same (h : HandedOnce id s) (hregistry : t.registry = s.registry) (hhanded : t.handed = s.handed)
    (hsends : t.terminalSends = s.terminalSends)
    (hpending : t.tasksWithPendingDelivery = s.tasksWithPendingDelivery) (hdeleted : t.deleted = s.deleted) :
    HandedOnce id t := by
  cases t
  cases hregistry
  cases hhanded
  cases hsends
  cases hpending
  cases hdeleted
  exact ⟨h.keyed, h.once, h.sending, h.single, h.told, h.gone⟩

/-- One occurrence is erased. -/
theorem count_eraseIdx {l : List String} {a : String} (hi : l[i]? = some a) (b : String) :
    l.count b = (l.eraseIdx i).count b + if a = b then 1 else 0 := by
  obtain ⟨hlt, rfl⟩ := List.getElem?_eq_some_iff.mp hi
  rw [← (getElem_cons_eraseIdx_perm hlt).count_eq b, count_cons]
  simp

theorem HandedOnce.finishTerminalSend (h : HandedOnce id s) {sent : Bool}
    (ht : s.finishTerminalSend i sent now = some t) : HandedOnce id t := by
  obtain ⟨taskId, htask, rfl⟩ := map_eq_some_iff.mp ht
  let deliveryStatus : TaskDeliveryStatus := if sent then .delivered else .failed
  have hstatus : deliveryStatus ≠ .pending := by
    cases sent <;> decide
  have hkept := h.recordTerminalDelivery taskId deliveryStatus hstatus now
  have hcount := count_eraseIdx htask id
  have hsingle := h.single
  refine ⟨hkept.keyed, h.once, fun hs => ?_, by dsimp only; omega, fun hid hout => ?_, hkept.gone⟩
  · obtain ⟨hhanded, hpending⟩ := h.sending (mem_of_mem_eraseIdx hs)
    have hleft : 0 < (s.terminalSends.eraseIdx i).count id := count_pos_iff.mpr hs
    have hne : id ≠ taskId := by
      rintro rfl
      simp only [if_true] at hcount
      omega
    exact ⟨hhanded, mem_filter.mpr ⟨hpending, decide_eq_true hne⟩⟩
  · by_cases heq : taskId = id
    · intro task htask'
      have hget : (updateTask taskId _ now s.registry).2.tasks.get? id = some task := htask'
      rw [get?_updateTask, if_pos heq] at hget
      obtain ⟨current, -, rfl⟩ := map_eq_some_iff.mp hget
      rw [nextRecord_deliveryStatus]
      exact hstatus
    · rw [if_neg heq] at hcount
      have hnone := count_eq_zero_of_not_mem hout
      exact hkept.told hid (count_eq_zero.mp (hcount.trans hnone))

/-- A sweep writes no delivery status, and keeps account of what it deletes. -/
theorem HandedOnce.sweep (h : HandedOnce id s) (maintenance : MaintenanceEnv) (taskId : String) (now clock : Int) :
    HandedOnce id (s.sweep env maintenance taskId now clock) := by
  unfold TaskSystem.sweep sweepTask
  cases sweepAction maintenance taskId now s.registry with
  | markLost current =>
    have hmarked : HandedOnce id {s with registry := (markTaskLost current now clock s.registry).2} := by
      unfold markTaskLost markTaskLostById
      exact h.update current.taskId _ clock fun _ _ _ => nofun
    exact hmarked.deliver current.taskId clock
  | prune current =>
    refine ⟨keyed_deleteTask h.keyed current.taskId, h.once, h.sending, h.single, fun hid hsent task ht => ?_,
      fun hid hn => ?_⟩
    · dsimp only at ht
      rw [get?_deleteTask] at ht
      split at ht
      · cases ht
      · exact h.told hid hsent task ht
    · dsimp only at hn ⊢
      rw [get?_deleteTask] at hn
      split at hn
      · rename_i heq
        exact mem_append_right _ (mem_singleton.mpr heq)
      · exact mem_append_left _ (h.gone hid hn)
  | stamp current =>
    unfold setTaskCleanupAfterById
    exact h.update current.taskId {cleanupAfter := some (some (resolveCleanupAfter current))} clock
      fun _ _ _ => nofun
  | leave => exact h.same rfl rfl rfl rfl rfl

theorem HandedOnce.finishCancel (h : HandedOnce id s) {stopped : Bool}
    (ht : s.finishCancel env i stopped now = some t) : HandedOnce id t := by
  obtain ⟨asked, -, rfl⟩ := map_eq_some_iff.mp ht
  have hrest : HandedOnce id {s with cancelling := s.cancelling.eraseIdx i} := h.same rfl rfl rfl rfl rfl
  dsimp only
  split
  · have hupdate := hrest.update asked.taskId {
      status := some .cancelled
      endedAt := some (some now)
      lastEventAt := some (some now)
      error := some (some "Cancelled by operator.") } now fun _ _ _ => nofun
    split
    · exact hrest
    · rename_i r hr
      unfold recordCancelled at hr
      rw [hr] at hupdate
      exact hupdate.deliver asked.taskId now
  · exact hrest

theorem handedOnce_step (e : TaskEvent) (h : HandedOnce id s) (hc : AsksOnce e s) (ht : taskStep env e s = some t) :
    HandedOnce id t := by
  cases e with
  | agentEvent evt now =>
    cases ht
    exact HandedOnce.updates (fun task => agentEventPatch_deliveryStatus evt task _) _ h
  | runUpdate runId runtime sessionKey params eventSummary now =>
    cases ht
    exact HandedOnce.updates (fun _ => rfl) _ h
  | runDelivery runId runtime sessionKey deliveryStatus now =>
    cases ht
    refine h.updateTasks _ now fun p hp heq hid hsent hpending => hsent ?_
    obtain ⟨task, htask, rfl⟩ := List.mem_map.mp hp
    subst heq
    exact hc (Option.some.inj hpending) task htask hid
  | create params taskId now =>
    simp only [taskStep] at ht
    split at ht
    · cases ht
    · rename_i hnew
      cases ht
      exact h.createTaskRecord hnew hc
  | beginCancel taskId =>
    cases ht
    unfold TaskSystem.beginCancel
    split
    · split
      · exact h.same rfl rfl rfl rfl rfl
      · exact h
    · exact h
  | finishCancel i stopped now => exact h.finishCancel ht
  | sweepTask maintenance taskId now clock =>
    cases ht
    exact h.sweep maintenance taskId now clock
  | deliver taskId now =>
    cases ht
    exact h.deliver taskId now
  | finishTerminalSend i sent now => exact h.finishTerminalSend ht
  | finishStateChangeSend i sent now =>
    obtain ⟨send, -, rfl⟩ := map_eq_some_iff.mp ht
    have hrest : HandedOnce id {s with stateChangeSends := s.stateChangeSends.eraseIdx i} :=
      h.same rfl rfl rfl rfl rfl
    dsimp only
    split
    · exact hrest.recordStateChange send.taskId send.requesterOrigin send.eventAt now
    · exact hrest

end Once

/-- **A task is told of once** in a run that makes no handed over task pending again:
no interleaving of its other writes hands its terminal message over a second time. -/
theorem terminal_message_handed_once (env : DeliveryEnv) (r : Registry) (hkeyed : TasksKeyed r)
    (events : List TaskEvent) (t : TaskSystem) (hc : (taskStep env).Within AsksOnce events {registry := r})
    (hrun : (taskStep env).run events {registry := r} = some t) (id : String) : t.handed.count id ≤ 1 := by
  have hstart : HandedOnce id {registry := r} :=
    ⟨hkeyed, Nat.zero_le _, nofun, Nat.zero_le _, nofun, nofun⟩
  exact ((taskStep env).run_within_invariant (fun e _ _ h hce he => handedOnce_step e h hce he) events hstart hc
    hrun).once

/-! ### A repeated creation -/

/-- A session without a channel has a task that is told of. -/
def queuedRun : CreateTaskParams :=
  { runtime := .acp, ownerKey := some "main", scopeKind := some .session, childSessionKey := some "child",
    runId := some "run", task := "Patch file", status := some .running, deliveryStatus := some .pending,
    notifyPolicy := some .doneOnly }

def endsOnce : List TaskEvent :=
  [.create queuedRun "task" 10,
    .agentEvent { runId := "run", stream := .lifecycle, ts := 20, phase := some .end } 20]

theorem terminal_message_handed_once_queued : ∃ t,
    (taskStep plainDelivery).run endsOnce {registry := {}} = some t ∧ t.handed = ["task"] ∧
      t.handed.count "task" ≤ 1 := by
  obtain ⟨t, ht⟩ : ∃ t, (taskStep plainDelivery).run endsOnce {registry := {}} = some t := ⟨_, rfl⟩
  have hhanded : ((taskStep plainDelivery).run endsOnce {registry := {}}).map TaskSystem.handed = some ["task"] := by
    decide
  rw [ht] at hhanded
  have hkeyed : TasksKeyed ({} : Registry) := fun _ _ h => nomatch h
  have hc : (taskStep plainDelivery).Within AsksOnce endsOnce {registry := {}} := by
    refine ⟨fun existing _ _ hid => ?_, fun _ _ => ⟨trivial, fun _ _ => trivial⟩⟩
    cases hid
  exact ⟨t, ht, Option.some.inj hhanded, terminal_message_handed_once plainDelivery {} hkeyed endsOnce t hc ht "task"⟩

/-- The task is created once more after its message went to the session's queue, and
the next event hands the message over again. -/
theorem repeated_creation_tells_again :
    ((taskStep plainDelivery).run (endsOnce ++ [.create queuedRun "again" 30,
      .agentEvent { runId := "run", stream := .lifecycle, ts := 40, phase := some .end } 40]) {registry := {}}).map
        TaskSystem.handed = some ["task", "task"] := by
  decide

end OpenClaw.Tasks
