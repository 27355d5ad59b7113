import OpenClaw.Foundation.Splits
import OpenClaw.Tasks.Maintenance
import OpenClaw.Tasks.RepeatedRun
import OpenClaw.Cron.Service

/-! The records of cron runs in the task ledger.

The run id of a record says whose run it is: it is made of the job's id and the
time of the start, and takes apart in one way only. The service names the job as
the record's source as well, and no write of the ledger brings the two apart. A
repeated creation merges into a record of the same job, which has its source. -/
namespace OpenClaw.Cron
open Foundation Foundation.EcmaString List
open Tasks (Registry TaskRecord TaskPatch CreateTaskParams ChannelEnv MaintenanceEnv Write Coherent TasksKeyed
  nextRecord newTaskRecord mergePatch)

/-- A record of the kind the cron service makes. -/
def isCronRun (task : TaskRecord) : Bool := task.runtime = .cron && task.scopeKind = .system

/-! ### Run ids -/

theorem repr_chars (n : Int) : n.repr.toList ≠ [] ∧ ∀ c ∈ n.repr.toList, c.isDigit = true ∨ c = '-' := by
  have hdigits (k : Nat) : k.repr.toList ≠ [] ∧ ∀ c ∈ k.repr.toList, c.isDigit = true := by
    rw [Nat.toList_repr]
    exact ⟨Nat.toDigits_ne_nil, fun c hc => Nat.isDigit_of_mem_toDigits (by decide) (by decide) hc⟩
  rw [Int.repr_eq_if]
  split
  · exact ⟨(hdigits _).1, fun c hc => .inl ((hdigits _).2 c hc)⟩
  · rw [String.toList_append]
    refine ⟨append_ne_nil_of_right_ne_nil _ (hdigits _).1, fun c hc => ?_⟩
    rcases mem_append.mp hc with hminus | hc
    · exact .inr (mem_singleton.mp hminus)
    · exact .inl ((hdigits _).2 c hc)

theorem digit_plain {c : Char} (h : c.isDigit = true ∨ c = '-') : isWhiteSpace c = false ∧ c ≠ ':' := by
  rcases h with hdigit | rfl
  · rw [Char.isDigit, Bool.and_eq_true, decide_eq_true_eq, decide_eq_true_eq] at hdigit
    have hlow : 48 ≤ c.toNat := hdigit.1
    have hhigh : c.toNat ≤ 57 := hdigit.2
    refine ⟨Bool.eq_false_iff.mpr fun hw => ?_, fun he => ?_⟩
    · have := isWhiteSpace_toNat hw
      omega
    · rw [he] at hhigh
      exact absurd hhigh (by decide)
  · decide

theorem createCronTaskRunId_toList (jobId : String) (startedAt : Int) :
    (createCronTaskRunId jobId startedAt).toList =
      'c' :: ('r' :: 'o' :: 'n' :: ':' :: (jobId.toList ++ ':' :: startedAt.repr.toList)) := by
  simp [createCronTaskRunId, String.toList_append]

/-- Nothing of a run id is trimmed. -/
theorem trimmed_createCronTaskRunId (jobId : String) (startedAt : Int) :
    trimmed (createCronTaskRunId jobId startedAt) = some (createCronTaskRunId jobId startedAt) := by
  obtain ⟨hne, hchars⟩ := repr_chars startedAt
  have hlist := createCronTaskRunId_toList jobId startedAt
  have htrim : trim (createCronTaskRunId jobId startedAt) = createCronTaskRunId jobId startedAt := by
    rw [trim, trimChars_eq_self, String.ofList_toList]
    · rw [hlist]
      intro c hc
      cases hc
      decide
    · rw [hlist]
      intro c hc
      have hlast : c ∈ startedAt.repr.toList := by
        rw [← cons_append, ← cons_append, ← cons_append, ← cons_append, ← cons_append,
          getLast?_append_of_ne_nil _ (cons_ne_nil _ _), getLast?_cons_of_ne_nil hne] at hc
        exact mem_of_getLast? hc
      exact (digit_plain (hchars c hlast)).1
  unfold trimmed
  rw [htrim, if_neg]
  intro hempty
  rw [hempty] at hlist
  cases hlist

/-- The run id tells the job. -/
theorem createCronTaskRunId_job {jobId jobId' : String} {startedAt startedAt' : Int}
    (h : createCronTaskRunId jobId startedAt = createCronTaskRunId jobId' startedAt') : jobId = jobId' := by
  have hlist := congrArg String.toList h
  rw [createCronTaskRunId_toList, createCronTaskRunId_toList] at hlist
  have hrest : jobId.toList ++ ':' :: startedAt.repr.toList = jobId'.toList ++ ':' :: startedAt'.repr.toList := by
    simpa using hlist
  have hreversed := congrArg List.reverse hrest
  simp only [reverse_append, reverse_cons, append_assoc, singleton_append] at hreversed
  have hfree (n : Int) : ':' ∉ n.repr.toList.reverse := fun hm =>
    (digit_plain ((repr_chars n).2 ':' (mem_reverse.mp hm))).2 rfl
  exact String.toList_injective (reverse_injective (append_cons_inj (hfree _) (hfree _) hreversed).2)

/-! ### What a ledger holds -/

/-- The run id of the record is that of a run of its source. -/
def NamesItsJob (task : TaskRecord) : Prop :=
  ∃ jobId startedAt, trimmed? task.runId = some (createCronTaskRunId jobId startedAt) ∧ task.sourceId = trimmed jobId

theorem NamesItsJob.source {task : TaskRecord} (h : NamesItsJob task) {jobId : String} {startedAt : Int}
    (hrun : trimmed? task.runId = some (createCronTaskRunId jobId startedAt)) : task.sourceId = trimmed jobId := by
  obtain ⟨jobId', startedAt', hrun', hsource⟩ := h
  rw [createCronTaskRunId_job (Option.some.inj (hrun.symm.trans hrun'))]
  exact hsource

structure RunLedger (r : Registry) : Prop where
  keyed : TasksKeyed r
  coherent : Coherent r
  named : ∀ id task, r.tasks.get? id = some task → isCronRun task = true → NamesItsJob task

theorem runLedger_empty : RunLedger {} := by
  have hnone (id : String) : ({} : Registry).tasks.get? id = none := rfl
  refine ⟨fun id task ht => ?_, Tasks.coherent_restore ∅ ∅ ∅, fun id task ht => ?_⟩
  · rw [hnone] at ht
    cases ht
  · rw [hnone] at ht
    cases ht

theorem nextRecord_sourceId (patch : TaskPatch) (current : TaskRecord) (now : Int) :
    (nextRecord patch current now).sourceId = patch.sourceId.getD current.sourceId := by
  unfold nextRecord
  dsimp only
  split <;> rfl

theorem isCronRun_nextRecord (patch : TaskPatch) (current : TaskRecord) (now : Int) :
    isCronRun (nextRecord patch current now) = isCronRun current := by
  obtain ⟨hruntime, hscope⟩ := Tasks.nextRecord_runtime patch current now
  rw [isCronRun, hruntime, hscope, isCronRun]

theorem NamesItsJob.next {current : TaskRecord} (h : NamesItsJob current) {patch : TaskPatch}
    (hrun : patch.runId = none) (hsource : patch.sourceId = none) (now : Int) :
    NamesItsJob (nextRecord patch current now) := by
  obtain ⟨jobId, startedAt, hid, hjob⟩ := h
  refine ⟨jobId, startedAt, ?_, ?_⟩
  · rw [Tasks.nextRecord_runId, hrun]
    exact hid
  · rw [nextRecord_sourceId, hsource]
    exact hjob

namespace RunLedger
variable {r : Registry}

section
variable (h : RunLedger r)
include h

theorem update (taskId : String) {patch : TaskPatch} (hrun : patch.runId = none)
    (hsource : ∀ current, r.tasks.get? taskId = some current → isCronRun current = true → patch.sourceId = none)
    (now : Int) : RunLedger (Tasks.updateTask taskId patch now r).2 := by
  refine ⟨Tasks.keyed_updateTask h.keyed taskId patch now,
    Tasks.coherent_updateTask h.coherent taskId (.inl hrun) now, fun id task ht hcron => ?_⟩
  rw [Tasks.get?_updateTask] at ht
  split at ht
  · rename_i hid
    obtain ⟨current, hcurrent, rfl⟩ := Option.map_eq_some_iff.mp ht
    rw [isCronRun_nextRecord] at hcron
    exact (h.named id current hcurrent hcron).next hrun (hsource current (hid ▸ hcurrent) hcron) now
  · exact h.named id task ht hcron

theorem delete (taskId : String) : RunLedger (Tasks.deleteTaskRecordById taskId r).2 := by
  refine ⟨Tasks.keyed_deleteTask h.keyed taskId, Tasks.coherent_deleteTask h.coherent taskId, fun id task ht => ?_⟩
  rw [Tasks.get?_deleteTask] at ht
  split at ht
  · cases ht
  · exact h.named id task ht

theorem updates {patches : List (String × TaskPatch)} (hp : ∀ p ∈ patches, p.2.runId = none ∧ p.2.sourceId = none)
    (now : Int) :
    RunLedger (Tasks.updateTasks patches now r) := by
  induction patches generalizing r with
  | nil => exact h
  | cons p rest ih =>
    obtain ⟨hrun, hsource⟩ := hp p mem_cons_self
    exact ih (h.update p.1 hrun (fun _ _ _ => hsource) now) fun q hq => hp q (mem_cons_of_mem _ hq)

theorem finish (result : TimedCronRunOutcome) (now : Int) :
    RunLedger (tryFinishCronTaskRun result now r) := by
  have hupdate (runId : String) (runtime : Option Tasks.TaskRuntime) (sessionKey : Option String)
      (params : Tasks.RunUpdate) : RunLedger (Tasks.updateTaskStateByRunId runId runtime sessionKey params now r) := by
    refine h.updates (fun p hp => ?_) now
    obtain ⟨current, -, rfl⟩ := mem_map.mp hp
    exact ⟨rfl, rfl⟩
  unfold tryFinishCronTaskRun
  split
  · exact h
  · dsimp only
    split
    · exact hupdate ..
    · exact hupdate ..

theorem sweep (maintenance : MaintenanceEnv) (taskId : String) (now clock : Int) :
    RunLedger (Tasks.sweepTask maintenance taskId now clock r) := by
  unfold Tasks.sweepTask
  split
  · exact h.update _ rfl (fun _ _ _ => rfl) clock
  · exact h.delete _
  · exact h.update _ rfl (fun _ _ _ => rfl) clock
  · exact h

/-- What the stores give back after a restart, in an order of their own. -/
theorem restore {tasks : InsertionMap String TaskRecord} (hsame : tasks.entries.Perm r.tasks.entries)
    (deliveryStates : InsertionMap String Tasks.TaskDeliveryState) (flows : Tasks.Flows) :
    RunLedger (Tasks.restoreTaskRegistry tasks deliveryStates flows) := by
  have hget {id : String} {task : TaskRecord}
      (ht : (Tasks.restoreTaskRegistry tasks deliveryStates flows).tasks.get? id = some task) :
      r.tasks.get? id = some task := by
    rw [InsertionMap.get?_eq_some] at ht ⊢
    refine hsame.mem_iff.mp ?_
    unfold Tasks.restoreTaskRegistry at ht
    split at ht
    · cases ht
    · exact ht
  exact ⟨fun id task ht => h.keyed id task (hget ht), Tasks.coherent_restore .., fun id task ht => h.named id task (hget ht)⟩

end

/-! A run is recorded in a record of its own, or in one that its run has already. -/

/-- What `createRunningTaskRun` hands on. -/
def runningParams (job : CronJob) (startedAt : Int) : CreateTaskParams :=
  {cronTaskParams job startedAt with status := some .running}

theorem runningParams_runId (job : CronJob) (startedAt : Int) :
    trimmed? (runningParams job startedAt).runId = some (createCronTaskRunId job.id startedAt) := by
  have hid : (runningParams job startedAt).runId = some (createCronTaskRunId job.id startedAt) := rfl
  rw [hid, trimmed?, Option.bind_some, trimmed_createCronTaskRunId]

theorem runningParams_owner (job : CronJob) (startedAt : Int) :
    Tasks.assertTaskOwner (runningParams job startedAt).resolvedOwnerKey (runningParams job startedAt).resolvedScopeKind =
      .ok () := if_neg fun h => h.2 rfl

theorem newTaskRecord_runId (job : CronJob) (startedAt : Int) (taskId : String) (now : Int) :
    trimmed? (newTaskRecord (runningParams job startedAt) taskId now).runId =
      some (createCronTaskRunId job.id startedAt) := by
  have hid (params : CreateTaskParams) : (newTaskRecord params taskId now).runId = trimmed? params.runId := rfl
  rw [hid, trimmed?_trimmed?, runningParams_runId]

theorem created (h : RunLedger r) (channels : ChannelEnv) (job : CronJob) (startedAt : Int) {taskId : String}
    (hfresh : r.tasks.get? taskId = none) (now : Int) :
    RunLedger (Tasks.createTaskRecord channels (runningParams job startedAt) taskId now r).2 := by
  have hparams := runningParams_runId job startedAt
  have hkeyed := Tasks.keyed_createTaskRecord h.keyed channels (runningParams job startedAt) taskId now
  refine ⟨hkeyed, ?_, fun id task ht hcron => ?_⟩
  · have hnew : (Tasks.Call.createTaskRecord (runningParams job startedAt) taskId now).enabled r = true :=
      Option.isNone_iff_eq_none.mpr hfresh
    have hcall : (Tasks.registryStep channels).run
        [.call (.createTaskRecord (runningParams job startedAt) taskId now)] r =
          some (Tasks.createTaskRecord channels (runningParams job startedAt) taskId now r).2 := by
      rw [Machine.run_cons, Tasks.registryStep, if_pos hnew]
      rfl
    exact Tasks.coherent_steps _ h.coherent hcall
  · rcases Tasks.get?_createTaskRecord channels (runningParams job startedAt) taskId now r id with
      hsame | ⟨-, hinsert⟩ | ⟨existing, ⟨-, -, hfound⟩, rfl, hmerge⟩
    · exact h.named id task (hsame.symm.trans ht) hcron
    · rw [hinsert] at ht
      rw [← Option.some.inj ht]
      exact ⟨job.id, startedAt, newTaskRecord_runId job startedAt taskId now, rfl⟩
    · obtain ⟨current, hcurrent, rfl⟩ := Option.map_eq_some_iff.mp (hmerge.symm.trans ht)
      obtain ⟨⟨k, hget⟩, hrun, -⟩ := Tasks.findExistingTaskForCreate_spec h.coherent hfound
      have heq : existing = current := by
        rw [← h.keyed k existing hget, hcurrent] at hget
        exact (Option.some.inj hget).symm
      subst heq
      rw [isCronRun_nextRecord] at hcron
      have hnamed := h.named _ existing hcurrent hcron
      have hsource := hnamed.source (hrun.1.runId.trans hparams)
      refine hnamed.next rfl ?_ now
      simp only [mergePatch]
      rw [if_neg]
      rintro ⟨hsome, hnone⟩
      have hjob : trimmed? (runningParams job startedAt).sourceId = trimmed job.id := rfl
      rw [hsource, ← hjob, trimmed?_trimmed?] at hnone
      rw [Option.isNone_iff_eq_none.mp hnone] at hsome
      cases hsome

/-- A run has a record from its start on. -/
theorem create (h : RunLedger r) (channels : ChannelEnv) (job : CronJob) (startedAt : Int) {ids : TaskIds}
    (hfresh : r.tasks.get? ids.taskId = none) :
    ∃ t, tryCreateCronTaskRun channels job startedAt ids r = (some (createCronTaskRunId job.id startedAt), t) ∧
      RunLedger t := by
  obtain ⟨task, t, hcreate, hruntime⟩ : ∃ task t,
      Tasks.createTaskRecord channels (runningParams job startedAt) ids.taskId ids.now r = (.ok task, t) ∧
        task.runtime = .cron := by
    cases hfound : Tasks.findExistingTaskForCreate r (runningParams job startedAt) with
    | none => exact ⟨_, _, Tasks.createTaskRecord_new _ _ _ _ (runningParams_owner job startedAt) rfl hfound, rfl⟩
    | some existing =>
      obtain ⟨⟨k, hget⟩, hrun, hflow⟩ := Tasks.findExistingTaskForCreate_spec h.coherent hfound
      have hfree : trimmed? existing.parentFlowId = none := (Tasks.comparable_eq_empty _).mp hflow
      obtain ⟨task, t, hcreate, hmerged, -⟩ := Tasks.createTaskRecord_found channels (runningParams job startedAt)
        ids.taskId ids.now (runningParams_owner job startedAt) rfl hfound (by rw [h.keyed k existing hget, hget]) hfree
      exact ⟨task, t, hcreate, hmerged.runtime.trans hrun.1.runtime⟩
  have hledger : RunLedger t := by
    have := h.created channels job startedAt hfresh ids.now
    rwa [hcreate] at this
  -- a task of the cron runtime gets no flow of its own
  have hplain : Tasks.isOneTaskFlowEligible task = false := by
    simp [Tasks.isOneTaskFlowEligible, hruntime]
  refine ⟨t, ?_, hledger⟩
  unfold runningParams at hcreate
  simp only [tryCreateCronTaskRun, Tasks.createRunningTaskRun, Tasks.createTaskRun, hcreate,
    Tasks.ensureSingleTaskFlow, hplain, Bool.not_false, if_true]

end RunLedger

/-! ### What the rest of the process writes -/

/-- The write makes no record of the kind the cron service makes, and gives none another source. -/
def sparesCronRuns (w : Write) (r : Registry) : Bool :=
  match w with
  | .insertTask params _ _ => !(params.runtime = .cron && params.resolvedScopeKind = .system)
  | .updateTask taskId patch _ => patch.sourceId = none || (r.tasks.get? taskId).all fun task => !isCronRun task
  | _ => true

theorem RunLedger.write {r : Registry} (h : RunLedger r) (channels : ChannelEnv) {w : Write}
    (he : w.enabled r = true) (hw : sparesCronRuns w r = true) : RunLedger (w.apply channels r) := by
  refine ⟨Tasks.keyed_write h.keyed, Tasks.coherent_write h.coherent (Tasks.writeStep_some he),
    fun id task ht hcron => ?_⟩
  rcases Tasks.write_record ht with hold | ⟨params, now, rfl, rfl⟩ | ⟨patch, now, current, rfl, hcurrent, rfl⟩
  · exact h.named id task hold hcron
  · rw [sparesCronRuns, Bool.not_eq_true'] at hw
    have hnew : isCronRun (newTaskRecord params id now) =
        (params.runtime = .cron && params.resolvedScopeKind = .system : Bool) := rfl
    rw [hnew, hw] at hcron
    cases hcron
  · rw [isCronRun_nextRecord] at hcron
    refine (h.named id current hcurrent hcron).next (of_decide_eq_true he) ?_ now
    simpa [sparesCronRuns, hcurrent, hcron] using hw

end OpenClaw.Cron
