import OpenClaw.Cron.Rewritten
import OpenClaw.Cron.Atomicity

/-! A one-shot that is moved while it runs.

The end of a run deletes a one-shot, disables it, or sets it to a retry; the time
that it was moved to meanwhile plays no part. The new time stands after the run
only where the job is retried after a transient error and the retry falls on that
time, or is counted as executed already, so that a manual run's last pass asks for
the time anew. -/
namespace OpenClaw.Cron
open Foundation CronServiceState List
open Option hiding map_map

/-! ### Distinct ids -/

/-- The ids are distinct in memory, in the file, and among the jobs of a tick. -/
structure Distinct (s : CronServiceState) : Prop where
  memory : (jobIds s.jobs).Nodup
  file : (jobIds s.file).Nodup
  due : (dueIds s).Nodup

section Due
variable {deps : CronDeps} {s t : CronServiceState}

@[simp] theorem dueIds_load (s : CronServiceState) : dueIds s.load = dueIds s :=
  dueIds_mapDue (f := DueJob.detach s.store) (fun _ => rfl) s

@[simp] theorem dueIds_refresh (s : CronServiceState) : dueIds s.refresh = dueIds s :=
  dueIds_mapDue (f := DueJob.refresh s.store) (fun _ => rfl) s

@[simp] theorem dueIds_ensureLoaded (s : CronServiceState) : dueIds s.ensureLoaded = dueIds s := by
  unfold CronServiceState.ensureLoaded
  split
  · rfl
  · exact dueIds_load s

@[simp] theorem dueIds_ensureLoadedRecomputing (env : CronEnv) (now : Int) (s : CronServiceState) :
    dueIds (s.ensureLoadedRecomputing env now) = dueIds s := by
  unfold CronServiceState.ensureLoadedRecomputing
  split
  · rfl
  · exact dueIds_load s

@[simp] theorem dueIds_persistIfChanged (jobs : List CronJob) (s : CronServiceState) :
    dueIds (s.persistIfChanged jobs) = dueIds s := by
  unfold CronServiceState.persistIfChanged
  split <;> rfl

/-- A tick takes jobs of the file; no other step takes any. -/
theorem cronStep_dueIds {e : CronEvent} (ht : cronStep deps e s = some t) :
    dueIds t = dueIds s ∨ (dueIds t).Sublist (jobIds s.file) := by
  cases e with
  | read now =>
    cases ht
    exact .inl ((dueIds_persistIfChanged ..).trans (dueIds_ensureLoaded s))
  | add input id loadNow now passNow =>
    simp only [cronStep] at ht
    split at ht
    · cases ht
    · cases ht
      refine .inl ?_
      unfold addJob
      split <;> exact dueIds_ensureLoadedRecomputing deps.env loadNow s
  | update id patch now =>
    cases ht
    refine .inl ?_
    unfold updateJob
    dsimp only
    split <;> exact dueIds_ensureLoaded s
  | remove id loadNow =>
    cases ht
    exact .inl ((dueIds_refresh _).trans (dueIds_ensureLoadedRecomputing deps.env loadNow s))
  | inspectRun tickNow =>
    cases ht
    exact .inl (dueIds_ensureLoaded s)
  | preflightRun id mode tickNow now =>
    cases ht
    refine .inl ?_
    unfold preflightRun
    dsimp only
    split <;> exact dueIds_ensureLoaded s
  | prepareRun i ids =>
    obtain ⟨preflight, _, rfl⟩ := map_eq_some_iff.mp ht
    refine .inl ?_
    dsimp only
    split
    · rfl
    · split <;> rfl
  | endRun i outcome endedAt ledgerNow => exact .inl (endManualRun_same ht).due
  | finishRun i alertNow passNow =>
    simp only [cronStep, finishPreparedManualRun] at ht
    split at ht
    · obtain ⟨⟨outcome, endedAt⟩, _, rfl⟩ := map_eq_some_iff.mp ht
      refine .inl ?_
      split
      · exact dueIds_ensureLoaded s
      · exact (dueIds_load _).trans (dueIds_ensureLoaded s)
    · cases ht
  | beginTick dueCheckNow now =>
    refine .inr ?_
    simp only [cronStep, beginTick] at ht
    split at ht
    · cases ht
    · split at ht
      · cases ht
        exact nil_sublist _
      · cases ht
        show (((collectRunnableJobs deps.env {} dueCheckNow s.file).map _).map DueJob.id).Sublist _
        rw [map_map]
        exact filter_sublist.map CronJob.id
  | startDueJob startedAt ids =>
    refine .inl ?_
    obtain ⟨dueJobs, htick, hstart⟩ := bind_eq_some_iff.mp ht
    split at hstart
    · obtain ⟨⟨before, due, after⟩, hnext, rfl⟩ := map_eq_some_iff.mp hstart
      obtain ⟨rfl, _⟩ := nextWaiting_eq hnext
      simp [dueIds, htick]
    · cases hstart
  | endDueJob i outcome endedAt => exact .inl (endDueJob_same ht).due
  | endTick alertNow ledgerNow passNow =>
    refine .inr ?_
    obtain ⟨dueJobs, htick, hend⟩ := bind_eq_some_iff.mp ht
    split at hend
    · cases hend
    · cases hend
      exact nil_sublist _
    · cases hend
      exact nil_sublist _
  | clearMarkers =>
    refine .inl ?_
    simp only [cronStep, clearMarkers] at ht
    split at ht
    · split at ht
      · cases ht
      · cases ht
        split <;> exact dueIds_ensureLoaded s
    · cases ht
  | planCatchup now =>
    refine .inl ?_
    simp only [cronStep, planStartupCatchup] at ht
    split at ht
    · split at ht
      · cases ht
        exact dueIds_ensureLoaded s
      · cases ht
        exact dueIds_ensureLoaded s
    · cases ht
  | startCandidate startedAt ids => exact .inl (startCandidate_same ht).due
  | endCandidate outcome endedAt => exact .inl (endCandidate_same ht).due
  | applyCatchup alertNow ledgerNow baseNow passNow =>
    refine .inl ?_
    simp only [cronStep, applyStartupCatchupOutcomes] at ht
    split at ht
    · split at ht
      · cases ht
      · cases ht
        exact (dueIds_refresh _).trans (dueIds_ensureLoaded s)
    · cases ht
  | finishStart now =>
    refine .inl ?_
    simp only [cronStep, finishStart] at ht
    split at ht
    · cases ht
      exact (dueIds_persistIfChanged ..).trans (dueIds_ensureLoaded s)
    · cases ht

theorem From.nodup {id : String} {jobs : List CronJob} (h : Distinct s) (hfrom : From id s jobs) :
    (jobIds jobs).Nodup := by
  rcases hfrom with hj | hj
  · exact hj.nodup h.memory
  · exact hj.nodup h.file

theorem leavesTime_some_id (e : CronEvent) : ∃ id, LeavesTime id e := by
  have hne (id : String) : id ≠ id ++ "'" := by
    intro he
    have hlen := congrArg String.length he
    simp at hlen
  cases e with
  | add input id loadNow now passNow => exact ⟨id ++ "'", hne id⟩
  | update id patch now => exact ⟨id ++ "'", fun he => absurd he (hne id)⟩
  | _ => exact ⟨"", trivial⟩

theorem cronStep_distinct (e : CronEvent) (s t : CronServiceState) (h : Distinct s)
    (ht : cronStep deps e s = some t) : Distinct t := by
  obtain ⟨id, hleaves⟩ := leavesTime_some_id e
  have hkeeps : KeepsShot id s t := cronStep_keepsShot hleaves ht
  refine ⟨hkeeps.jobs.nodup h, hkeeps.file.nodup h, ?_⟩
  rcases cronStep_dueIds ht with hsame | hsub
  · rw [hsame]
    exact h.due
  · exact h.file.sublist hsub

end Due

/-! ### The moved one-shot -/

/-- The job of the id has the schedule, in memory and in the file. -/
structure Moved (id : String) (schedule : CronSchedule) (s : CronServiceState) : Prop where
  distinct : Distinct s
  memory : ∀ job ∈ s.jobs, job.id = id → job.schedule = schedule
  file : ∀ job ∈ s.file, job.id = id → job.schedule = schedule

section Moved
variable {deps : CronDeps} {id : String} {schedule : CronSchedule} {s t : CronServiceState}

theorem From.moved {jobs : List CronJob} (hat : schedule.isAt = true) (h : Moved id schedule s)
    (hfrom : From id s jobs) : ∀ job ∈ jobs, job.id = id → job.schedule = schedule := by
  intro job hj hid
  rcases hfrom with hmem | hmem
  · obtain ⟨old, ho, hoid, hsame⟩ := hmem.origin job hj hid
    have hold : old.schedule = schedule := h.memory old ho hoid
    exact (hsame (hold ▸ hat)).trans hold
  · obtain ⟨old, ho, hoid, hsame⟩ := hmem.origin job hj hid
    have hold : old.schedule = schedule := h.file old ho hoid
    exact (hsame (hold ▸ hat)).trans hold

theorem Moved.step (hat : schedule.isAt = true) (e : CronEvent) (s t : CronServiceState) (h : Moved id schedule s)
    (he : LeavesTime id e) (ht : cronStep deps e s = some t) : Moved id schedule t := by
  have hkeeps : KeepsShot id s t := cronStep_keepsShot he ht
  exact ⟨cronStep_distinct e s t h.distinct ht, hkeeps.jobs.moved hat h, hkeeps.file.moved hat h⟩

theorem editJob_moves {env : CronEnv} {defaultAgentId : Option String} {patch : CronJobPatch} {now : Int}
    {job next : CronJob} {time : Option String} {atMs : Option AtMs} (hpatch : patch.schedule = some (.at time atMs))
    (h : editJob env defaultAgentId patch now job = .ok next) : next.schedule = .at time atMs := by
  unfold editJob at h
  cases hok : applyJobPatch env defaultAgentId patch job with
  | error failed =>
    rw [hok] at h
    cases h
  | ok patched =>
    rw [hok] at h
    obtain ⟨name, payload, delivery, hpatched⟩ := applyJobPatch_ok hok
    have hschedule : patched.schedule = .at time atMs := by
      rw [hpatched]
      show (patch.schedule.map (patchedSchedule job.schedule)).getD job.schedule = _
      rw [hpatch]
      rfl
    have hanchor : withAnchor patch now patched = patched := by
      unfold withAnchor
      rw [hschedule]
    change scheduleEditedJob env patch now {withAnchor patch now patched with updatedAtMs := now} = .ok next at h
    have hleft : (leftJob (scheduleEditedJob env patch now {patched with updatedAtMs := now})).schedule =
        patched.schedule := by
      have hasked : (leftJob (checkedWrite {patched with updatedAtMs := now} ((computeJobNextRunAtMs env
          {patched with updatedAtMs := now} now).map fun next =>
            {patched with updatedAtMs := now, state := {patched.state with nextRunAtMs := next}}))).schedule =
              patched.schedule := by
        refine left_checkedWrite (P := fun j => j.schedule = patched.schedule) rfl fun next hn => ?_
        obtain ⟨_, _, rfl⟩ := map_eq_ok hn
        rfl
      unfold scheduleEditedJob
      split
      · split
        · exact hasked
        · rfl
      · split
        · exact hasked
        · rfl
    rw [hanchor] at h
    rw [h] at hleft
    exact hleft.trans hschedule

/-- An accepted edit moves the one-shot in memory and in the file. -/
theorem updateJob_moved {patch : CronJobPatch} {now : Int} {time : Option String} {atMs : Option AtMs}
    (h : Distinct s) (hpatch : patch.schedule = some (.at time atMs))
    (haccepted : throws (updateJobs deps.env deps.config.defaultAgentId id patch now s.ensureLoaded.jobs).1 = false) :
    Moved id (.at time atMs) (updateJob deps id patch now s) := by
  have hstep : cronStep deps (.update id patch now) s = some (updateJob deps id patch now s) := rfl
  have hdistinct : Distinct (updateJob deps id patch now s) := cronStep_distinct _ s _ h hstep
  have hloaded : (jobIds s.ensureLoaded.jobs).Nodup := by
    have hkeeps : KeepsShot id s s.ensureLoaded := .ensureLoaded
    exact hkeeps.jobs.nodup h
  obtain ⟨next, hnext⟩ := throws_eq_false haccepted
  unfold updateJobs at hnext
  split at hnext
  · cases hnext
  · rename_i job hfind
    split at hnext
    · cases hnext
    · rename_i edited hedit
      have hlists : (updateJob deps id patch now s).jobs = modifyJob id (fun _ => edited) s.ensureLoaded.jobs ∧
          (updateJob deps id patch now s).file = modifyJob id (fun _ => edited) s.ensureLoaded.jobs := by
        unfold updateJob updateJobs
        simp only [hfind, hedit]
        exact ⟨rfl, rfl⟩
      have hall : ∀ j ∈ modifyJob id (fun _ => edited) s.ensureLoaded.jobs, j.id = id → j.schedule = .at time atMs := by
        intro j hj hid
        obtain ⟨_, _, _, rfl⟩ := mem_modifyJob_of_id hloaded hj hid
        exact editJob_moves hpatch hedit
      exact ⟨hdistinct, hlists.1 ▸ hall, hlists.2 ▸ hall⟩

end Moved

/-! ### Finding the job after an outcome -/

section Found
variable {id : String} {jobs : List CronJob} {f : CronJob → CronJob}

theorem findJob_map (hf : ∀ job, (f job).id = job.id) : findJob id (jobs.map f) = (findJob id jobs).map f := by
  unfold findJob
  rw [find?_map]
  congr 2
  funext job
  simp [hf]

theorem findJob_modifyJob_ne {id' : String} (hne : id' ≠ id) (hf : ∀ job ∈ jobs, job.id = id' → (f job).id = id') :
    findJob id (modifyJob id' f jobs) = findJob id jobs := by
  unfold findJob
  induction jobs with
  | nil => rfl
  | cons first rest ih =>
    have hrest := ih fun job hj => hf job (mem_cons_of_mem _ hj)
    unfold modifyJob
    split
    · rename_i hid
      have hchanged := hf first mem_cons_self hid
      rw [find?_cons_of_neg (by simpa [hchanged] using hne), find?_cons_of_neg (by simpa [hid] using hne)]
    · by_cases hfirst : first.id = id
      · rw [find?_cons_of_pos (by simpa using hfirst), find?_cons_of_pos (by simpa using hfirst)]
      · rw [find?_cons_of_neg (by simpa using hfirst), find?_cons_of_neg (by simpa using hfirst)]
        exact hrest

theorem findJob_modifyJob (hf : ∀ job ∈ jobs, job.id = id → (f job).id = id) :
    findJob id (modifyJob id f jobs) = (findJob id jobs).map f := by
  unfold findJob
  induction jobs with
  | nil => rfl
  | cons first rest ih =>
    unfold modifyJob
    split
    · rename_i hid
      have hchanged := hf first mem_cons_self hid
      rw [find?_cons_of_pos (by simpa using hchanged), find?_cons_of_pos (by simpa using hid)]
      rfl
    · rename_i hid
      rw [find?_cons_of_neg (by simpa using hid), find?_cons_of_neg (by simpa using hid)]
      exact ih fun job hj => hf job (mem_cons_of_mem _ hj)

theorem findJob_removeJob_ne {id' : String} (hne : id' ≠ id) : findJob id (removeJob id' jobs) = findJob id jobs := by
  unfold findJob removeJob
  rw [find?_filter]
  congr 1
  funext job
  by_cases hid : job.id = id
  · simp [hid, hne.symm]
  · simp [hid]

theorem findJob_removeJob : findJob id (removeJob id jobs) = none := by
  refine find?_eq_none.mpr fun job hj => ?_
  simpa using (mem_removeJob.mp hj).2

theorem findJob_applyOutcome_ne {env : CronEnv} {config : CronConfig} {now : Int} {result : TimedCronRunOutcome}
    (hne : result.jobId ≠ id) : findJob id (applyOutcomeToStoredJob env config now result jobs) = findJob id jobs := by
  unfold applyOutcomeToStoredJob
  split
  · rfl
  · rename_i job hfind
    have hid : job.id = result.jobId := (findJob_mem hfind).2
    dsimp only
    split
    · exact findJob_removeJob_ne (hid ▸ hne)
    · exact findJob_modifyJob_ne hne fun _ _ _ => (applyJobResult_id ..).trans hid

/-- The job after its own outcome, unless that deletes it. -/
theorem findJob_applyOutcome {env : CronEnv} {config : CronConfig} {now : Int} {result : TimedCronRunOutcome}
    (hid : result.jobId = id) : findJob id (applyOutcomeToStoredJob env config now result jobs) =
      (findJob id jobs).bind fun job =>
        if (applyJobResult env config false now result job).2 then none
        else some (applyJobResult env config false now result job).1 := by
  subst hid
  unfold applyOutcomeToStoredJob
  cases hfind : findJob result.jobId jobs with
  | none => exact hfind
  | some job =>
    have hjob : job.id = result.jobId := (findJob_mem hfind).2
    dsimp only [bind_some]
    split
    · rw [hjob]
      exact findJob_removeJob
    · rw [findJob_modifyJob fun _ _ _ => (applyJobResult_id ..).trans hjob, hfind]
      rfl

/-- Outcomes of distinct jobs: only its own touches the job. -/
theorem findJob_applyOutcomes {env : CronEnv} {config : CronConfig} {alertNow : String → Int}
    {results : List TimedCronRunOutcome} {result : TimedCronRunOutcome} (hresult : result ∈ results)
    (hn : (results.map TimedCronRunOutcome.jobId).Nodup) (hid : result.jobId = id) :
    findJob id (results.foldl (fun jobs result =>
      applyOutcomeToStoredJob env config (alertNow result.jobId) result jobs) jobs) =
        findJob id (applyOutcomeToStoredJob env config (alertNow id) result jobs) := by
  have hothers {jobs : List CronJob} {results : List TimedCronRunOutcome}
      (hnot : id ∉ results.map TimedCronRunOutcome.jobId) : findJob id (results.foldl (fun jobs result =>
        applyOutcomeToStoredJob env config (alertNow result.jobId) result jobs) jobs) = findJob id jobs := by
    induction results generalizing jobs with
    | nil => rfl
    | cons first rest ih =>
      rw [map_cons, mem_cons, not_or] at hnot
      exact (ih hnot.2).trans (findJob_applyOutcome_ne fun he => hnot.1 he.symm)
  induction results generalizing jobs with
  | nil => cases hresult
  | cons first rest ih =>
    rw [map_cons, nodup_cons] at hn
    rcases mem_cons.mp hresult with rfl | hrest
    · rw [foldl_cons, hothers (hid ▸ hn.1), hid]
    · have hne : first.jobId ≠ id := fun he => hn.1 (he.trans hid.symm ▸ List.mem_map_of_mem hrest)
      rw [foldl_cons, ih hrest hn.2, findJob_applyOutcome hid, findJob_applyOutcome hid,
        findJob_applyOutcome_ne hne]

/-- What a manual run leaves of the reloaded job. -/
def mergedSnapshot (reloaded job : CronJob) : CronJob :=
  {reloaded with enabled := job.enabled, updatedAtMs := job.updatedAtMs, state := job.state}

theorem findJob_mergeManualRunSnapshot {snapshot : Option CronJob} :
    findJob id (mergeManualRunSnapshotAfterReload id snapshot jobs) =
      (findJob id jobs).bind fun reloaded => snapshot.map (mergedSnapshot reloaded) := by
  unfold mergeManualRunSnapshotAfterReload
  cases snapshot with
  | none =>
    dsimp only
    rw [findJob_removeJob]
    cases findJob id jobs <;> rfl
  | some job =>
    dsimp only
    have hwritten : findJob id (modifyJob id (fun reloaded => mergedSnapshot reloaded job) jobs) =
        (findJob id jobs).map fun reloaded => mergedSnapshot reloaded job :=
      findJob_modifyJob fun _ _ hid => hid
    refine hwritten.trans ?_
    cases findJob id jobs <;> rfl

end Found

/-! ### What the outcome leaves of the new time -/

/-- The job is enabled and set to run at the time. -/
def Armed (time : Int) (job : CronJob) : Prop := job.enabled = true ∧ job.state.nextRunAtMs = some time

/-- When a job is tried again after a transient error. -/
def retryAt (config : CronConfig) (result : TimedCronRunOutcome) (job : CronJob) : Int :=
  result.endedAt +
    errorBackoffMs (job.state.consecutiveErrors.getD 0 + 1) (resolveRetryConfig config).backoffMs

/-- An enabled job whose run failed, is tried again, and is then set to `newTime`:
the retry falls on it, or is one that the last pass of a manual run takes for
executed and replaces by the time of the schedule. -/
structure RetriedAt (config : CronConfig) (recomputesExpired : Bool) (clock : Int) (result : TimedCronRunOutcome)
    (newTime : Int) (job : CronJob) : Prop where
  enabled : job.enabled = true
  failed : result.outcome.status = .error
  transient : isTransientCronError result.outcome.error config.retry.retryOn = true
  attempts : job.state.consecutiveErrors.getD 0 + 1 ≤ (resolveRetryConfig config).maxAttempts
  time : retryAt config result job = newTime ∨
    recomputesExpired = true ∧ retryAt config result job ≤ clock ∧ retryAt config result job ≤ result.startedAt

section Outcome
variable {env : CronEnv} {config : CronConfig} {preserveSchedule : Bool} {alertNow clock newTime : Int}
  {result : TimedCronRunOutcome} {job : CronJob}

/-- The retry an outcome sets a one-shot to, if it retries it. -/
structure SetToRetry (config : CronConfig) (result : TimedCronRunOutcome) (job j : CronJob) : Prop where
  enabled : j.enabled = job.enabled
  next : j.state.nextRunAtMs = some (retryAt config result job)
  lastRun : j.state.lastRunAtMs = some result.startedAt
  lastStatus : j.state.lastStatus = some .error
  marker : j.state.runningAtMs = none

theorem applyJobResult_retried (hat : job.schedule.isAt = true) (hfailed : result.outcome.status = .error)
    (htransient : isTransientCronError result.outcome.error config.retry.retryOn = true)
    (hattempts : job.state.consecutiveErrors.getD 0 + 1 ≤ (resolveRetryConfig config).maxAttempts) :
    (applyJobResult env config preserveSchedule alertNow result job).2 = false ∧
      SetToRetry config result job (applyJobResult env config preserveSchedule alertNow result job).1 := by
  have hretries : retriesOneShot config result (countErrors config alertNow result (recordResult env result job)) =
      true := by
    unfold retriesOneShot countErrors
    rw [if_pos hfailed]
    simp only [hfailed, Bool.and_eq_true, decide_eq_true_eq]
    exact ⟨⟨trivial, htransient⟩, hattempts⟩
  have hkept : shouldDeleteAfter result (countErrors config alertNow result (recordResult env result job)) =
      false := by
    unfold shouldDeleteAfter
    rw [hfailed]
    simp
  unfold applyJobResult
  dsimp only
  rw [hkept, if_neg Bool.false_ne_true, countErrors_schedule,
    if_pos (show (recordResult env result job).schedule.isAt = true from hat)]
  refine ⟨rfl, ?_⟩
  unfold rescheduleOneShot
  rw [if_pos hretries]
  unfold countErrors
  rw [if_pos hfailed]
  exact ⟨rfl, rfl, rfl, congrArg some hfailed, rfl⟩

/-- Any other outcome deletes the one-shot or disables it. -/
theorem applyJobResult_ended (hat : job.schedule.isAt = true)
    (h : ¬(result.outcome.status = .error ∧ isTransientCronError result.outcome.error config.retry.retryOn = true ∧
      job.state.consecutiveErrors.getD 0 + 1 ≤ (resolveRetryConfig config).maxAttempts)) :
    (applyJobResult env config preserveSchedule alertNow result job).2 = true ∨
      (applyJobResult env config preserveSchedule alertNow result job).1.enabled = false := by
  have hretries : ¬retriesOneShot config result
      (countErrors config alertNow result (recordResult env result job)) = true := by
    intro hr
    unfold retriesOneShot at hr
    simp only [Bool.and_eq_true, decide_eq_true_eq] at hr
    obtain ⟨⟨hfailed, htransient⟩, hattempts⟩ := hr
    unfold countErrors at hattempts
    rw [if_pos hfailed] at hattempts
    exact h ⟨hfailed, htransient, hattempts⟩
  unfold applyJobResult
  dsimp only
  split
  · exact .inl rfl
  · rw [countErrors_schedule, if_pos (show (recordResult env result job).schedule.isAt = true from hat)]
    unfold rescheduleOneShot
    rw [if_neg hretries]
    exact .inr rfl

theorem walkJob_disabled {fn : CronJob → CronJob} (h : job.enabled = false) : ¬Armed newTime (walkJob fn clock job) := by
  unfold walkJob Armed
  rw [normalizeJobTickState_disabled h]
  simp [h]

/-- The last pass over a one-shot that is set to a retry. -/
theorem walkJob_retried (recomputesExpired : Bool) (clock : Int) {j : CronJob} {time : Option String} {atMs : Option AtMs}
    (hschedule : j.schedule = .at time atMs) (hnew : resolveAtMs env time atMs = some newTime)
    (hset : SetToRetry config result job j) :
    Armed newTime (walkJob (recomputeForMaintenance env recomputesExpired clock) clock j) ↔
      job.enabled = true ∧ (retryAt config result job = newTime ∨
        recomputesExpired = true ∧ retryAt config result job ≤ clock ∧
          retryAt config result job ≤ result.startedAt) := by
  by_cases he : job.enabled = true
  · have hj : j.enabled = true := hset.enabled.trans he
    have hstuck : isStuck clock j = false := by
      unfold isStuck
      rw [hset.marker]
      rfl
    have hcomputed : computeJobNextRunAtMs env j clock = .ok (some newTime) := by
      unfold computeJobNextRunAtMs
      rw [isJobEnabled, hj, hschedule]
      simp [computeAtNextRunAtMs, hset.lastStatus, hnew]
    have hcovered : alreadyExecutedSlot j (retryAt config result job) = true ↔
        retryAt config result job ≤ result.startedAt := by
      unfold alreadyExecutedSlot
      rw [hset.lastRun, any_some, decide_eq_true_iff]
    unfold walkJob
    rw [normalizeJobTickState_enabled hj, hstuck, normalizeAnchor_at (by rw [hschedule]; rfl)]
    dsimp only
    rw [if_neg Bool.false_ne_true, if_neg Bool.false_ne_true]
    unfold recomputeForMaintenance
    rw [hset.next]
    dsimp only
    split
    · rename_i hexpired
      refine iff_of_true ?_ ⟨he, .inr ⟨hexpired.1, hexpired.2.1, hcovered.mp hexpired.2.2.2⟩⟩
      unfold recomputeJobNextRunAtMs
      rw [hcomputed]
      exact ⟨hj, rfl⟩
    · rename_i hnot
      refine ⟨fun h => ⟨he, .inl (Option.some.inj (hset.next.symm.trans h.2))⟩, fun h => ⟨hj, ?_⟩⟩
      rcases h.2 with hsame | hexpired
      · rw [hset.next, hsame]
      · exact absurd ⟨hexpired.1, hexpired.2.1, hset.marker, hcovered.mpr hexpired.2.2⟩ hnot
  · refine iff_of_false (walkJob_disabled (hset.enabled.trans (by simpa using he))) fun h => he h.1

/-- A one-shot after its outcome and the pass that follows: `restored` is what is
kept of the applied job. -/
theorem applied_armed (preserveSchedule recomputesExpired : Bool) (alertNow : Int) (restored : CronJob → CronJob)
    {time : Option String} {atMs : Option AtMs} (hat : job.schedule.isAt = true)
    (hrestored : ∀ j, (restored j).enabled = j.enabled ∧ (restored j).state = j.state)
    (hschedule : ∀ j, j.schedule = job.schedule → (restored j).schedule = .at time atMs)
    (hnew : resolveAtMs env time atMs = some newTime) :
    (∃ j, (if (applyJobResult env config preserveSchedule alertNow result job).2 then none
        else some (applyJobResult env config preserveSchedule alertNow result job).1) = some j ∧
      Armed newTime (walkJob (recomputeForMaintenance env recomputesExpired clock) clock (restored j))) ↔
        RetriedAt config recomputesExpired clock result newTime job := by
  by_cases hretry : result.outcome.status = .error ∧
      isTransientCronError result.outcome.error config.retry.retryOn = true ∧
        job.state.consecutiveErrors.getD 0 + 1 ≤ (resolveRetryConfig config).maxAttempts
  · obtain ⟨hfailed, htransient, hattempts⟩ := hretry
    obtain ⟨hkept, hset⟩ : _ ∧ SetToRetry config result job
        (applyJobResult env config preserveSchedule alertNow result job).1 :=
      applyJobResult_retried hat hfailed htransient hattempts
    have hsame := applyJobResult_schedule env config preserveSchedule alertNow result job
    rw [if_neg (by rw [hkept]; decide)]
    generalize (applyJobResult env config preserveSchedule alertNow result job).1 = applied at hset hsame
    have hrest : SetToRetry config result job (restored applied) := by
      obtain ⟨henabled, hstate⟩ := hrestored applied
      exact ⟨henabled.trans hset.enabled, hstate ▸ hset.next, hstate ▸ hset.lastRun, hstate ▸ hset.lastStatus,
        hstate ▸ hset.marker⟩
    have hwalk := walkJob_retried recomputesExpired clock (hschedule applied hsame) hnew hrest
    refine ⟨fun ⟨j, hj, h⟩ => ?_, fun h => ⟨applied, rfl, hwalk.mpr ⟨h.enabled, h.time⟩⟩⟩
    cases hj
    exact ⟨(hwalk.mp h).1, hfailed, htransient, hattempts, (hwalk.mp h).2⟩
  · refine iff_of_false (fun ⟨j, hj, h⟩ => ?_) fun h => hretry ⟨h.failed, h.transient, h.attempts⟩
    split at hj
    · cases hj
    · rename_i hkept
      cases hj
      have hdisabled : (applyJobResult env config preserveSchedule alertNow result job).1.enabled = false :=
        (applyJobResult_ended hat hretry).resolve_left hkept
      exact walkJob_disabled ((hrestored _).1.trans hdisabled) h

end Outcome

/-! ### The end of the run -/

/-- The outcomes a step applies. -/
def outcomes : CronEvent → CronServiceState → List TimedCronRunOutcome
  | .endTick _ _ _, s => (s.tick.bind (List.mapM DueJob.result?)).getD []
  | .finishRun i _ _, s =>
    (s.manualRuns[i]?.bind fun run => run.ended.map fun ended => run.result ended.1 ended.2).toList
  | _, _ => []

/-- The clock when it applies them. -/
def appliedAt : CronEvent → Option Int
  | .endTick _ _ passNow => some passNow
  | .finishRun _ _ passNow => some passNow
  | _ => none

/-- Whether its last pass recomputes a time that was executed. -/
def recomputesExpired : CronEvent → Bool
  | .finishRun _ _ _ => true
  | _ => false

/-- The job it applies the outcome to: that of the file at the end of a tick; at the
end of a manual run that in memory, if the file has it too. -/
def appliedTo (id : String) : CronEvent → CronServiceState → Option CronJob
  | .endTick _ _ _, s => findJob id s.file
  | .finishRun _ _ _, s => if (findJob id s.file).isSome then findJob id s.ensureLoaded.jobs else none
  | _, _ => none

section End
variable {deps : CronDeps} {id : String} {s t : CronServiceState} {result : TimedCronRunOutcome}
  {time : Option String} {atMs : Option AtMs} {newTime clock : Int}

theorem endTick_survives {alertNow ledgerNow : String → Int} (h : Moved id (.at time atMs) s)
    (hresult : result ∈ outcomes (.endTick alertNow ledgerNow clock) s) (hid : result.jobId = id)
    (hnew : resolveAtMs deps.env time atMs = some newTime)
    (ht : endTick deps alertNow ledgerNow clock s = some t) :
    (∃ job, findJob id t.jobs = some job ∧ Armed newTime job) ↔
      ∃ job, findJob id s.file = some job ∧ RetriedAt deps.config false clock result newTime job := by
  obtain ⟨dueJobs, htick, hend⟩ := bind_eq_some_iff.mp ht
  change result ∈ (s.tick.bind (List.mapM DueJob.result?)).getD [] at hresult
  rw [htick, bind_some] at hresult
  split at hend
  · rename_i hnone
    rw [hnone] at hresult
    cases hresult
  · rename_i hnil
    rw [hnil] at hresult
    cases hresult
  · rename_i results _ hresults
    rw [hresults, getD_some] at hresult
    cases hend
    have hdistinct : (results.map TimedCronRunOutcome.jobId).Nodup := by
      have hdue := h.distinct.due
      rw [dueIds, htick] at hdue
      rw [results_jobId hresults]
      exact hdue
    show (∃ job, findJob id (recomputeNextRunsForMaintenance deps.env false clock (results.foldl (fun jobs result =>
      applyOutcomeToStoredJob deps.env deps.config (alertNow result.jobId) result jobs) s.file)) = some job ∧ _) ↔ _
    unfold recomputeNextRunsForMaintenance walkSchedulableJobs
    rw [findJob_map (walkJob_id (recomputeForMaintenance_keeps deps.env false clock)),
      findJob_applyOutcomes hresult hdistinct hid, findJob_applyOutcome hid]
    cases hfind : findJob id s.file with
    | none => simp
    | some job =>
      have hschedule : job.schedule = .at time atMs := h.file job (findJob_mem hfind).1 (findJob_mem hfind).2
      rw [bind_some]
      have harmed : _ ↔ RetriedAt deps.config false clock result newTime job :=
        applied_armed false false (alertNow id) (fun j => j) (by rw [hschedule]; rfl) (fun _ => ⟨rfl, rfl⟩)
          (fun j hj => hj.trans hschedule) hnew
      refine Iff.trans ⟨?_, ?_⟩ (harmed.trans ⟨fun hr => ⟨job, rfl, hr⟩, ?_⟩)
      · rintro ⟨j, hj, ha⟩
        obtain ⟨applied, happlied, rfl⟩ := map_eq_some_iff.mp hj
        exact ⟨applied, happlied, ha⟩
      · rintro ⟨j, hj, ha⟩
        exact ⟨_, by rw [hj]; rfl, ha⟩
      · rintro ⟨_, ⟨⟩, hr⟩
        exact hr

theorem finishRun_survives {i : Nat} {alertNow : Int} (h : Moved id (.at time atMs) s)
    (hresult : result ∈ outcomes (.finishRun i alertNow clock) s) (hid : result.jobId = id)
    (hnew : resolveAtMs deps.env time atMs = some newTime)
    (ht : finishPreparedManualRun deps i alertNow clock s = some t) :
    (∃ job, findJob id t.jobs = some job ∧ Armed newTime job) ↔
      ∃ job, appliedTo id (.finishRun i alertNow clock) s = some job ∧
        RetriedAt deps.config true clock result newTime job := by
  change result ∈ (s.manualRuns[i]?.bind fun run => run.ended.map fun ended => run.result ended.1 ended.2).toList
    at hresult
  unfold finishPreparedManualRun at ht
  cases hrun : s.manualRuns[i]? with
  | none =>
    rw [hrun] at hresult
    cases hresult
  | some run =>
    rw [hrun] at hresult ht
    dsimp only [bind_some] at hresult ht
    obtain ⟨⟨outcome, endedAt⟩, hended, rfl⟩ := map_eq_some_iff.mp ht
    rw [hended, map_some, mem_toList, some_inj] at hresult
    subst hresult
    change run.jobId = id at hid
    have hmemory : ∀ job ∈ s.ensureLoaded.jobs, job.id = id → job.schedule = .at time atMs := by
      have hkeeps : KeepsShot id s s.ensureLoaded := .ensureLoaded
      exact hkeeps.jobs.moved rfl h
    have hfile : s.ensureLoaded.file = s.file := by
      unfold CronServiceState.ensureLoaded
      split <;> rfl
    dsimp only
    rw [show CronServiceState.jobs {s.ensureLoaded with manualRuns := s.manualRuns.eraseIdx i} =
      s.ensureLoaded.jobs from rfl, hid]
    cases hjob : findJob id s.ensureLoaded.jobs with
    | none =>
      refine iff_of_false (fun ⟨job, hf, _⟩ => ?_) fun ⟨job, hf, _⟩ => ?_
      · have hnone : some job = none := hf.symm.trans hjob
        cases hnone
      · unfold appliedTo at hf
        dsimp only at hf
        rw [hjob] at hf
        split at hf <;> cases hf
    | some job =>
      have hjobSchedule : job.schedule = .at time atMs := hmemory job (findJob_mem hjob).1 (findJob_mem hjob).2
      show (∃ j, findJob id (manualRunJobs deps run.mode alertNow clock (run.result outcome endedAt) job
        s.ensureLoaded.file) = some j ∧ _) ↔ ∃ j, (if (findJob id s.file).isSome then findJob id s.ensureLoaded.jobs
          else none) = some j ∧ _
      rw [hfile, hjob]
      unfold manualRunJobs recomputeNextRunsForMaintenance walkSchedulableJobs
      dsimp only
      rw [findJob_map (walkJob_id (recomputeForMaintenance_keeps deps.env true clock)),
        show (run.result outcome endedAt).jobId = id from hid, findJob_mergeManualRunSnapshot]
      cases hfound : findJob id s.file with
      | none => simp
      | some reloaded =>
        have hschedule : reloaded.schedule = .at time atMs :=
          h.file reloaded (findJob_mem hfound).1 (findJob_mem hfound).2
        have harmed : _ ↔ RetriedAt deps.config true clock (run.result outcome endedAt) newTime job :=
          applied_armed (run.mode = .force) true alertNow (mergedSnapshot reloaded) (by rw [hjobSchedule]; rfl)
            (fun _ => ⟨rfl, rfl⟩) (fun _ _ => hschedule) hnew
        rw [bind_some, isSome_some, if_pos rfl]
        refine Iff.trans ⟨fun ⟨j, hj, ha⟩ => ?_, fun ⟨j, hj, ha⟩ => ⟨_, by rw [hj]; rfl, ha⟩⟩
          (harmed.trans ⟨fun hr => ⟨job, rfl, hr⟩, fun ⟨_, hsame, hr⟩ => Option.some.inj hsame ▸ hr⟩)
        obtain ⟨applied, happlied, rfl⟩ := map_eq_some_iff.mp hj
        obtain ⟨kept, hkept, rfl⟩ := map_eq_some_iff.mp happlied
        exact ⟨kept, hkept, ha⟩

end End

/-- **A new time stands after the run** of a one-shot that was moved meanwhile
exactly when the job is retried at it. The run of the service goes on between the
edit and the end of the execution in any way that does not move the job again. -/
theorem reschedule_survives_run (deps : CronDeps) (file : List CronJob) (hfile : (jobIds file).Nodup)
    (before between : List CronEvent) (id : String) (patch : CronJobPatch) (now : Int) (e : CronEvent)
    (s t u v : CronServiceState) (result : TimedCronRunOutcome) (time : Option String) (atMs : Option AtMs)
    (newTime clock : Int) (hbefore : (cronStep deps).run before (created file) = some s)
    (hpatch : patch.schedule = some (.at time atMs)) (hnew : resolveAtMs deps.env time atMs = some newTime)
    (haccepted : throws (updateJobs deps.env deps.config.defaultAgentId id patch now s.ensureLoaded.jobs).1 = false)
    (hedit : cronStep deps (.update id patch now) s = some t) (hbetween : (cronStep deps).run between t = some u)
    (hleaves : ∀ e ∈ between, LeavesTime id e) (hresult : result ∈ outcomes e u) (hid : result.jobId = id)
    (hclock : appliedAt e = some clock) (hend : cronStep deps e u = some v) :
    (∃ job, findJob id v.jobs = some job ∧ Armed newTime job) ↔
      ∃ job, appliedTo id e u = some job ∧
        RetriedAt deps.config (recomputesExpired e) clock result newTime job := by
  have hstart : Distinct (created file) := ⟨nodup_nil, hfile, nodup_nil⟩
  have hdistinct : Distinct s := Machine.run_invariant (cronStep deps) cronStep_distinct before hstart hbefore
  have hmoved : Moved id (.at time atMs) t := by
    cases hedit
    exact updateJob_moved hdistinct hpatch haccepted
  have hkept : Moved id (.at time atMs) u :=
    Machine.run_within_invariant (cronStep deps) (C := fun e _ => LeavesTime id e) (Moved.step rfl) between hmoved
      (Machine.within_of_all _ fun e he _ => hleaves e he) hbetween
  cases e with
  | endTick alertNow ledgerNow passNow =>
    cases hclock
    exact endTick_survives hkept hresult hid hnew hend
  | finishRun i alertNow passNow =>
    cases hclock
    exact finishRun_survives hkept hresult hid hnew hend
  | _ => cases hclock

/-! ### A reminder that is moved while it runs -/

/-- A reminder that is due at one second. -/
def dueReminder : CronJob where
  id := "reminder"
  name := "reminder"
  deleteAfterRun := some true
  createdAtMs := 0
  updatedAtMs := 0
  schedule := .at none (some (.number 1000))
  sessionTarget := "main"
  wakeMode := .now
  payload := .systemEvent "stand up"
  state := {nextRunAtMs := some 1000}

def movedTo (ms : Int) : CronJobPatch := {schedule := some (.at none (some (.number ms)))}

/-- The reminder starts in a tick, and is then moved. -/
def movedWhileRunning (ms : Int) : List CronEvent :=
  [.beginTick 1000 1000, .startDueJob 1000 (taskIds "task-1"), .update "reminder" (movedTo ms) 1500]

def endsWith (outcome : CronRunOutcome) : List CronEvent :=
  [.endDueJob 0 outcome 2000, .endTick (fun _ => 2000) (fun _ => 2000) 2000]

/-- The run ends well, and the reminder is deleted with its new time; one that is
kept after its run is disabled. -/
theorem moved_reminder_lost :
    ((cronStep plainDeps).run (movedWhileRunning 9000 ++ endsWith {status := .ok}) (created [dueReminder])).map
        CronServiceState.jobs = some [] ∧
      ((cronStep plainDeps).run (movedWhileRunning 9000 ++ endsWith {status := .skipped}) (created [dueReminder])).map
        (fun s => s.jobs.map fun job => (job.enabled, job.state.nextRunAtMs)) = some [(false, none)] := by
  decide

/-- A transient error whose retry falls on the new time. -/
theorem reschedule_survives_run_retry : ∃ s, (cronStep plainDeps).run
    (movedWhileRunning 32000 ++ endsWith {status := .error, error := some "timeout"}) (created [dueReminder]) = some s ∧
      ∃ job, findJob "reminder" s.jobs = some job ∧ Armed 32000 job := by
  refine ⟨_, rfl, (reschedule_survives_run plainDeps [dueReminder] (by decide)
    [.beginTick 1000 1000, .startDueJob 1000 (taskIds "task-1")]
    [.endDueJob 0 {status := .error, error := some "timeout"} 2000] "reminder" (movedTo 32000) 1500
    (.endTick (fun _ => 2000) (fun _ => 2000) 2000) _ _ _ _
    ⟨"reminder", some "cron:reminder:1000", {status := .error, error := some "timeout"}, 1000, 2000⟩ none
    (some (.number 32000)) 32000 2000 rfl rfl (by decide) (by decide) rfl rfl ?_ mem_cons_self rfl rfl rfl).mpr ?_⟩
  · intro e he
    cases mem_singleton.mp he
    trivial
  · exact ⟨_, rfl, rfl, rfl, by decide, by decide, .inl (by decide)⟩

end OpenClaw.Cron
