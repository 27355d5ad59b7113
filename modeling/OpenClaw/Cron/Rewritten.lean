import OpenClaw.Cron.Slots

/-! What every section leaves of a job: its id, and the time of a one-shot.

Each list of jobs that a step leaves, in memory or in the file, is rewritten from
one of the two lists before: jobs are written in place, dropped or added under new
ids. Only an edit that names a schedule moves a one-shot. -/
namespace OpenClaw.Cron
open Foundation CronServiceState List

/-! ### Rewritten lists -/

/-- A write that keeps the id, and the schedule of a one-shot. -/
def KeepsTime (f : CronJob → CronJob) (job : CronJob) : Prop :=
  (f job).id = job.id ∧ (job.schedule.isAt = true → (f job).schedule = job.schedule)

/-- The second list comes from the first; the one-shot of the id has its time. -/
structure Rewritten (id : String) (jobs jobs' : List CronJob) : Prop where
  nodup : (jobIds jobs).Nodup → (jobIds jobs').Nodup
  origin : ∀ job ∈ jobs', job.id = id → ∃ old ∈ jobs, old.id = id ∧
    (old.schedule.isAt = true → job.schedule = old.schedule)

variable {f : CronJob → CronJob} {id' : String} {now passNow : Int} {alertNow : String → Int}
  {patch : CronJobPatch}

section Lists
variable {id : String} {jobs jobs' jobs'' : List CronJob} {env : CronEnv}

theorem Rewritten.refl (id : String) (jobs : List CronJob) : Rewritten id jobs jobs :=
  ⟨fun h => h, fun job hj hid => ⟨job, hj, hid, fun _ => rfl⟩⟩

theorem Rewritten.trans (h : Rewritten id jobs jobs') (h' : Rewritten id jobs' jobs'') :
    Rewritten id jobs jobs'' := by
  refine ⟨fun hn => h'.nodup (h.nodup hn), fun job hj hid => ?_⟩
  obtain ⟨mid, hm, hmid, hlast⟩ := h'.origin job hj hid
  obtain ⟨old, ho, hoid, hfirst⟩ := h.origin mid hm hmid
  refine ⟨old, ho, hoid, fun hat => ?_⟩
  have hsame : mid.schedule = old.schedule := hfirst hat
  exact (hlast (hsame ▸ hat)).trans hsame

theorem Rewritten.map (hf : ∀ job, KeepsTime f job) : Rewritten id jobs (jobs.map f) := by
  refine ⟨fun hn => ?_, fun job hj hid => ?_⟩
  · have hids : jobIds (jobs.map f) = jobIds jobs := by
      unfold jobIds
      rw [map_map]
      exact map_congr_left fun job _ => (hf job).1
    rwa [hids]
  · obtain ⟨old, ho, rfl⟩ := mem_map.mp hj
    exact ⟨old, ho, (hf old).1.symm.trans hid, (hf old).2⟩

theorem Rewritten.modify
    (hf : ∀ job ∈ jobs, job.id = id' → (f job).id = id' ∧ (id' = id → job.schedule.isAt = true → (f job).schedule = job.schedule)) :
    Rewritten id jobs (modifyJob id' f jobs) := by
  refine ⟨fun hn => ?_, fun job hj hid => ?_⟩
  · rwa [jobIds_modifyJob fun job hj hid => (hf job hj hid).1]
  · rcases mem_modifyJob hj with hold | ⟨old, ho, hoid, rfl⟩
    · exact ⟨job, hold, hid, fun _ => rfl⟩
    · have hsame : id' = id := (hf old ho hoid).1.symm.trans hid
      exact ⟨old, ho, hoid.trans hsame, (hf old ho hoid).2 hsame⟩

theorem Rewritten.remove (id' : String) : Rewritten id jobs (removeJob id' jobs) :=
  ⟨fun hn => hn.sublist jobIds_removeJob_sublist,
    fun job hj hid => ⟨job, (mem_removeJob.mp hj).1, hid, fun _ => rfl⟩⟩

theorem Rewritten.append {job : CronJob} (hne : job.id ≠ id) (hnew : job.id ∉ jobIds jobs) :
    Rewritten id jobs (jobs ++ [job]) := by
  refine ⟨fun hn => ?_, fun found hj hid => ?_⟩
  · rw [jobIds, map_append, nodup_append]
    refine ⟨hn, nodup_singleton _, fun a ha b hb => ?_⟩
    cases mem_singleton.mp hb
    exact fun he => hnew (he ▸ ha)
  · rcases mem_append.mp hj with hold | hlast
    · exact ⟨found, hold, hid, fun _ => rfl⟩
    · cases mem_singleton.mp hlast
      exact absurd hid hne

/-! ### Passes -/

theorem normalizeAnchor_keepsTime (job : CronJob) : KeepsTime normalizeAnchor job :=
  ⟨normalizeAnchor_id job, fun hat => by rw [normalizeAnchor_at hat]⟩

theorem walkJob_keepsTime {fn : CronJob → CronJob} (hfn : ∀ job, KeepsTime fn job) (now : Int) (job : CronJob) :
    KeepsTime (walkJob fn now) job := by
  have hanchor := normalizeAnchor_keepsTime job
  unfold KeepsTime walkJob
  by_cases he : job.enabled = true
  · rw [normalizeJobTickState_enabled he]
    dsimp only
    generalize hticked : (if isStuck now job then
      {normalizeAnchor job with state := {job.state with runningAtMs := none}} else normalizeAnchor job : CronJob) =
        ticked
    have hsame : ticked.id = (normalizeAnchor job).id ∧ ticked.schedule = (normalizeAnchor job).schedule := by
      rw [← hticked]
      split <;> exact ⟨rfl, rfl⟩
    refine ⟨(hfn ticked).1.trans (hsame.1.trans hanchor.1), fun hat => ?_⟩
    have hschedule : ticked.schedule = job.schedule := hsame.2.trans (hanchor.2 hat)
    exact ((hfn ticked).2 (hschedule ▸ hat)).trans hschedule
  · rw [normalizeJobTickState_disabled (by simpa using he)]
    exact hanchor

theorem recomputeJobNextRunAtMs_keepsTime (now : Int) (job : CronJob) :
    KeepsTime (recomputeJobNextRunAtMs env now) job := by
  unfold KeepsTime recomputeJobNextRunAtMs
  split <;> exact ⟨rfl, fun _ => rfl⟩

theorem Rewritten.recompute : Rewritten id jobs (recomputeNextRuns env now jobs) := by
  refine Rewritten.map fun job => walkJob_keepsTime (fun job => ?_) now job
  unfold KeepsTime recomputeDueOrMissing
  split
  · exact recomputeJobNextRunAtMs_keepsTime now job
  · exact ⟨rfl, fun _ => rfl⟩

theorem Rewritten.maintain {recomputeExpired : Bool} :
    Rewritten id jobs (recomputeNextRunsForMaintenance env recomputeExpired now jobs) := by
  refine Rewritten.map fun job => walkJob_keepsTime (fun job => ?_) now job
  unfold KeepsTime recomputeForMaintenance
  split
  · exact recomputeJobNextRunAtMs_keepsTime now job
  · split
    · exact recomputeJobNextRunAtMs_keepsTime now job
    · exact ⟨rfl, fun _ => rfl⟩

theorem ite_keepsTime (hf : ∀ job, KeepsTime f job) (p : CronJob → Prop) [DecidablePred p] (job : CronJob) :
    KeepsTime (fun job => if p job then f job else job) job := by
  unfold KeepsTime
  dsimp only
  split
  · exact hf job
  · exact ⟨rfl, fun _ => rfl⟩

/-! ### Outcomes and edits -/

theorem applyJobResult_schedule (env : CronEnv) (config : CronConfig) (preserveSchedule : Bool) (now : Int)
    (result : TimedCronRunOutcome) (job : CronJob) :
    (applyJobResult env config preserveSchedule now result job).1.schedule = job.schedule := by
  have hcounted : (countErrors config now result (recordResult env result job)).schedule = job.schedule :=
    countErrors_schedule ..
  unfold applyJobResult
  dsimp only
  split
  · exact hcounted
  · split
    · unfold rescheduleOneShot
      split <;> exact hcounted
    · unfold rescheduleRecurring
      split
      · exact hcounted
      · dsimp only
        split <;> exact hcounted

theorem Rewritten.applyOutcome {config : CronConfig} {result : TimedCronRunOutcome} :
    Rewritten id jobs (applyOutcomeToStoredJob env config now result jobs) := by
  unfold applyOutcomeToStoredJob
  split
  · exact .refl _ _
  · rename_i job hfind
    dsimp only
    split
    · exact .remove _
    · rw [modifyJob_found (f := fun job => (applyJobResult env config false now result job).1) hfind]
      exact .modify fun job _ hid => ⟨(applyJobResult_id ..).trans hid, fun _ _ => applyJobResult_schedule ..⟩

theorem Rewritten.applyOutcomes {config : CronConfig} {results : List TimedCronRunOutcome} :
    Rewritten id jobs (results.foldl (fun jobs result =>
      applyOutcomeToStoredJob env config (alertNow result.jobId) result jobs) jobs) := by
  induction results generalizing jobs with
  | nil => exact .refl _ _
  | cons result rest ih => exact Rewritten.applyOutcome.trans ih

theorem Rewritten.deferMissedJobs {staggerMs baseNow : Int} {ids : List String} {offset : Int} :
    Rewritten id jobs (deferMissedJobs staggerMs baseNow ids offset jobs) := by
  induction ids generalizing offset jobs with
  | nil => exact .refl _ _
  | cons first rest ih =>
    unfold OpenClaw.Cron.deferMissedJobs
    split
    · refine Rewritten.trans ?_ ih
      exact .modify fun _ _ hid => ⟨hid, fun _ _ => rfl⟩
    · exact ih

theorem Rewritten.merge {jobId : String} {snapshot : Option CronJob} :
    Rewritten id jobs (mergeManualRunSnapshotAfterReload jobId snapshot jobs) := by
  unfold mergeManualRunSnapshotAfterReload
  split
  · exact .remove _
  · exact .modify fun _ _ hid => ⟨hid, fun _ _ => rfl⟩

/-- An edit without a schedule leaves a one-shot its time, thrown or not. -/
theorem editJob_schedule {defaultAgentId : Option String} {job : CronJob} (hpatch : patch.schedule = none)
    (hat : job.schedule.isAt = true) :
    (leftJob (editJob env defaultAgentId patch now job)).schedule = job.schedule := by
  unfold editJob
  refine left_bind (P := fun j => j.schedule = job.schedule) ?_ fun j hj => ?_
  · refine left_applyJobPatch (P := fun j => j.schedule = job.schedule) rfl (fun _ _ h => h) (fun j h => ?_)
      (fun _ _ h => h) (fun _ h => h) (fun _ h => h) fun _ _ h => h
    show (patch.schedule.map (patchedSchedule j.schedule)).getD j.schedule = _
    rw [hpatch]
    exact h
  · have hanchor : (withAnchor patch now j).schedule = job.schedule := by
      unfold withAnchor
      split
      · rename_i hs
        rw [← hj, hs] at hat
        cases hat
      · exact hj
    exact left_scheduleEditedJob (P := fun j => j.schedule = job.schedule) hanchor (fun _ => hanchor) fun _ _ => hanchor

theorem Rewritten.update {defaultAgentId : Option String} (hpatch : id' = id → patch.schedule = none) :
    Rewritten id jobs (updateJobs env defaultAgentId id' patch now jobs).2 := by
  unfold updateJobs
  cases hfind : findJob id' jobs with
  | none => exact .refl _ _
  | some job =>
    have hleft : Rewritten id jobs
        (modifyJob id' (fun job => leftJob (editJob env defaultAgentId patch now job)) jobs) :=
      .modify fun job _ hid => ⟨(editJob_id ..).trans hid, fun hsame hat => editJob_schedule (hpatch hsame) hat⟩
    rw [← modifyJob_found (f := fun job => leftJob (editJob env defaultAgentId patch now job)) hfind] at hleft
    dsimp only
    cases hedit : editJob env defaultAgentId patch now job with
    | _ =>
      rw [hedit] at hleft
      exact hleft

end Lists

/-! ### Steps -/

/-- The list comes from one of the state's two lists. -/
def From (id : String) (s : CronServiceState) (jobs : List CronJob) : Prop :=
  Rewritten id s.jobs jobs ∨ Rewritten id s.file jobs

/-- Both lists after come from lists before. -/
structure KeepsShot (id : String) (s t : CronServiceState) : Prop where
  jobs : From id s t.jobs
  file : From id s t.file

/-- A step that names no schedule for the id, and gives it to no new job. -/
def LeavesTime (id : String) : CronEvent → Prop
  | .add _ id' _ _ _ => id' ≠ id
  | .update id' patch _ => id' = id → patch.schedule = none
  | _ => True

section Steps
variable {id : String} {deps : CronDeps} {s u t : CronServiceState}

theorem From.trans {jobs jobs' : List CronJob} (h : From id s jobs) (h' : Rewritten id jobs jobs') :
    From id s jobs' := h.imp (·.trans h') (·.trans h')

theorem From.memory (id : String) (s : CronServiceState) : From id s s.jobs := .inl (.refl _ _)

theorem From.stored (id : String) (s : CronServiceState) : From id s s.file := .inr (.refl _ _)

theorem KeepsShot.refl (id : String) (s : CronServiceState) : KeepsShot id s s := ⟨.memory id s, .stored id s⟩

theorem KeepsShot.trans (h : KeepsShot id s u) (h' : KeepsShot id u t) : KeepsShot id s t := by
  refine ⟨?_, ?_⟩
  · rcases h'.jobs with hj | hj
    · exact h.jobs.trans hj
    · exact h.file.trans hj
  · rcases h'.file with hj | hj
    · exact h.jobs.trans hj
    · exact h.file.trans hj

theorem KeepsShot.same (hjobs : t.jobs = s.jobs) (hfile : t.file = s.file) : KeepsShot id s t :=
  ⟨hjobs ▸ .memory id s, hfile ▸ .stored id s⟩

theorem KeepsShot.sameJobs (h : SameJobs s t) : KeepsShot id s t := .same (congrArg (·.getD []) h.store) h.file

theorem KeepsShot.load : KeepsShot id s s.load := ⟨.stored id s, .stored id s⟩

theorem KeepsShot.ensureLoaded : KeepsShot id s s.ensureLoaded := by
  unfold CronServiceState.ensureLoaded
  split
  · exact .refl id s
  · exact .load

/-- A section that puts jobs in place and writes them to the file. -/
theorem KeepsShot.persisted {jobs : List CronJob} (h : From id s jobs) (hjobs : t.jobs = jobs) (hfile : t.file = jobs) :
    KeepsShot id s t := ⟨hjobs ▸ h, hfile ▸ h⟩

theorem KeepsShot.withJobs {jobs : List CronJob} (h : From id s jobs) : KeepsShot id s (s.withJobs jobs) :=
  ⟨h, .stored id s⟩

theorem KeepsShot.ensureLoadedRecomputing :
    KeepsShot id s (s.ensureLoadedRecomputing deps.env now) := by
  unfold CronServiceState.ensureLoadedRecomputing
  split
  · exact .refl id s
  · exact .trans .load (.withJobs (.inl .recompute))

theorem KeepsShot.persistIfChanged {jobs : List CronJob} (h : From id s jobs) :
    KeepsShot id s (s.persistIfChanged jobs) := by
  unfold CronServiceState.persistIfChanged
  split
  · exact .refl id s
  · exact .persisted h rfl rfl

theorem addJob_keepsShot {input : CronJobCreate} {loadNow : Int} (hne : id' ≠ id) (hnew : id' ∉ s.knownIds) :
    KeepsShot id s (addJob deps input id' loadNow now passNow s) := by
  have hloaded : KeepsShot id s (s.ensureLoadedRecomputing deps.env loadNow) := .ensureLoadedRecomputing
  unfold addJob
  dsimp only
  split
  · exact hloaded
  · rename_i job hcreate
    have hid : job.id = id' := createJob_id hcreate
    rw [CronServiceState.knownIds, mem_append, mem_append, mem_append, mem_append] at hnew
    simp only [not_or] at hnew
    have habsent : job.id ∉ jobIds (s.ensureLoadedRecomputing deps.env loadNow).jobs := by
      rw [hid]
      unfold CronServiceState.ensureLoadedRecomputing
      split
      · exact hnew.1.1.1.1
      · show id' ∉ jobIds (recomputeNextRuns deps.env loadNow s.file)
        unfold recomputeNextRuns
        rw [jobIds_walk (recomputeDueOrMissing_keeps deps.env loadNow)]
        exact hnew.1.1.1.2
    refine hloaded.trans (.persisted ?_ rfl rfl)
    exact .inl ((Rewritten.append (hid ▸ hne) habsent).trans .recompute)

theorem updateJob_keepsShot (hpatch : id' = id → patch.schedule = none) :
    KeepsShot id s (updateJob deps id' patch now s) := by
  have hupdate : Rewritten id s.ensureLoaded.jobs
      (updateJobs deps.env deps.config.defaultAgentId id' patch now s.ensureLoaded.jobs).2 := .update hpatch
  refine KeepsShot.ensureLoaded.trans ?_
  unfold updateJob
  dsimp only
  generalize updateJobs deps.env deps.config.defaultAgentId id' patch now s.ensureLoaded.jobs = answered at hupdate ⊢
  obtain ⟨answer, jobs⟩ := answered
  cases answer with
  | error message => exact .withJobs (.inl hupdate)
  | ok job => exact .persisted (.inl hupdate) rfl rfl

theorem prepareManualRun_keepsShot {i : Nat} {ids : TaskIds} (ht : prepareManualRun deps i ids s = some t) :
    KeepsShot id s t := by
  obtain ⟨preflight, _, rfl⟩ := Option.map_eq_some_iff.mp ht
  dsimp only
  split
  · exact .same rfl rfl
  · rename_i job hfind
    split
    · exact .same rfl rfl
    · have hreserve : Rewritten id s.jobs (modifyJob preflight.jobId (fun _ => reserved preflight.now job) s.jobs) := by
        have hfound : modifyJob preflight.jobId (fun _ => reserved preflight.now job) s.jobs =
            modifyJob preflight.jobId (reserved preflight.now) s.jobs := modifyJob_found hfind
        rw [hfound]
        exact .modify fun _ _ hid => ⟨hid, fun _ _ => rfl⟩
      exact .persisted (.inl hreserve) rfl rfl

theorem finishPreparedManualRun_keepsShot {i : Nat} {alertNow : Int}
    (ht : finishPreparedManualRun deps i alertNow passNow s = some t) : KeepsShot id s t := by
  unfold finishPreparedManualRun at ht
  split at ht
  · rename_i run _
    obtain ⟨⟨outcome, endedAt⟩, _, rfl⟩ := Option.map_eq_some_iff.mp ht
    have hloaded : KeepsShot id s s.ensureLoaded := .ensureLoaded
    dsimp only
    split
    · exact hloaded.trans (.same rfl rfl)
    · refine hloaded.trans (.persisted (.inr ?_) rfl rfl)
      exact Rewritten.merge.trans .maintain
  · cases ht

theorem beginTick_keepsShot {dueCheckNow : Int} (ht : beginTick deps dueCheckNow now s = some t) :
    KeepsShot id s t := by
  unfold beginTick at ht
  split at ht
  · cases ht
  · dsimp only at ht
    split at ht
    · cases ht
      refine KeepsShot.load.trans ?_
      have hpass : KeepsShot id s.load (s.load.persistIfChanged
          (recomputeNextRunsForMaintenance deps.env true dueCheckNow s.load.jobs)) :=
        .persistIfChanged (.inl .maintain)
      exact ⟨hpass.jobs, hpass.file⟩
    · cases ht
      refine .persisted (.inr (Rewritten.map fun job => ?_)) rfl rfl
      exact ite_keepsTime (f := reserved now) (fun _ => ⟨rfl, fun _ => rfl⟩)
        (fun job => isRunnableJob deps.env {} dueCheckNow job = true) job

theorem startDueJob_keepsShot {startedAt : Int} {ids : TaskIds} (ht : startDueJob deps startedAt ids s = some t) :
    KeepsShot id s t := by
  obtain ⟨dueJobs, _, hstart⟩ := Option.bind_eq_some_iff.mp ht
  split at hstart
  · obtain ⟨⟨before, due, after⟩, _, rfl⟩ := Option.map_eq_some_iff.mp hstart
    refine ⟨?_, .stored id s⟩
    show From id s ((due.markStarted startedAt s.store).getD [])
    have hmemory : From id s (s.store.getD []) := .memory id s
    unfold DueJob.markStarted
    split
    · generalize s.store = store at hmemory ⊢
      cases store with
      | none => exact hmemory
      | some jobs => exact hmemory.trans (.modify fun _ _ hid => ⟨hid, fun _ _ => rfl⟩)
    · exact hmemory
  · cases hstart

theorem endTick_keepsShot {ledgerNow : String → Int} (ht : endTick deps alertNow ledgerNow passNow s = some t) :
    KeepsShot id s t := by
  obtain ⟨dueJobs, _, hend⟩ := Option.bind_eq_some_iff.mp ht
  split at hend
  · cases hend
  · cases hend
    exact .same rfl rfl
  · cases hend
    exact .persisted (.inr (Rewritten.applyOutcomes.trans .maintain)) rfl rfl

theorem clearMarkers_keepsShot (ht : clearMarkers deps s = some t) : KeepsShot id s t := by
  unfold clearMarkers at ht
  split at ht
  · split at ht
    · cases ht
    · cases ht
      refine KeepsShot.ensureLoaded.trans ?_
      dsimp only
      split
      · exact .same rfl rfl
      · exact .persisted (.inl (Rewritten.map (f := setRunningAtMs none) fun _ => ⟨rfl, fun _ => rfl⟩)) rfl rfl
  · cases ht

theorem planStartupCatchup_keepsShot (ht : planStartupCatchup deps now s = some t) :
    KeepsShot id s t := by
  unfold planStartupCatchup at ht
  split at ht
  · dsimp only at ht
    split at ht
    · cases ht
      exact KeepsShot.ensureLoaded.trans (.same rfl rfl)
    · cases ht
      refine KeepsShot.ensureLoaded.trans (.persisted (.inl (Rewritten.map fun job => ?_)) rfl rfl)
      exact ite_keepsTime (f := reserved now) (fun _ => ⟨rfl, fun _ => rfl⟩) (fun job => job ∈ List.take _ _) job
  · cases ht

theorem applyStartupCatchupOutcomes_keepsShot {ledgerNow : String → Int} {baseNow : Int}
    (ht : applyStartupCatchupOutcomes deps alertNow ledgerNow baseNow passNow s = some t) : KeepsShot id s t := by
  unfold applyStartupCatchupOutcomes at ht
  split at ht
  · rename_i candidates deferredJobIds _
    split at ht
    · cases ht
    · rename_i results _
      cases ht
      have hloaded : KeepsShot id s s.ensureLoaded := .ensureLoaded
      have happlied : From id s.ensureLoaded (applyOutcomes deps alertNow ledgerNow results
          {s.ensureLoaded.refresh with startup := .caughtUp}).jobs := by
        have hmemory : From id s.ensureLoaded s.ensureLoaded.jobs := .memory id _
        show From id s.ensureLoaded ((s.ensureLoaded.store.map _).getD [])
        unfold CronServiceState.jobs at hmemory
        generalize s.ensureLoaded.store = store at hmemory ⊢
        cases store with
        | none => exact hmemory
        | some jobs => exact hmemory.trans .applyOutcomes
      exact hloaded.trans (.persisted (happlied.trans (Rewritten.deferMissedJobs.trans .maintain)) rfl rfl)
  · cases ht

/-- Only an edit that names a schedule moves a one-shot. -/
theorem cronStep_keepsShot {e : CronEvent} (he : LeavesTime id e) (ht : cronStep deps e s = some t) :
    KeepsShot id s t := by
  cases e with
  | read now =>
    cases ht
    exact KeepsShot.ensureLoaded.trans (.persistIfChanged (.inl .maintain))
  | add input id' loadNow now passNow =>
    simp only [cronStep] at ht
    split at ht
    · cases ht
    · rename_i hnew
      cases ht
      exact addJob_keepsShot he hnew
  | update id' patch now =>
    cases ht
    exact updateJob_keepsShot he
  | remove id' loadNow =>
    cases ht
    have hloaded : KeepsShot id s (s.ensureLoadedRecomputing deps.env loadNow) := .ensureLoadedRecomputing
    exact hloaded.trans (.persisted (.inl (.remove id')) rfl rfl)
  | inspectRun tickNow =>
    cases ht
    exact KeepsShot.ensureLoaded.trans (.withJobs (.inl .maintain))
  | preflightRun id' mode tickNow now =>
    cases ht
    have hpass : KeepsShot id s (inspectManualRunPreflight deps tickNow s) :=
      KeepsShot.ensureLoaded.trans (.withJobs (.inl .maintain))
    unfold preflightRun
    dsimp only
    split
    · exact hpass.trans (.same rfl rfl)
    · exact hpass
  | prepareRun i ids => exact prepareManualRun_keepsShot ht
  | endRun i outcome endedAt ledgerNow => exact .sameJobs (endManualRun_same ht)
  | finishRun i alertNow passNow => exact finishPreparedManualRun_keepsShot ht
  | beginTick dueCheckNow now => exact beginTick_keepsShot ht
  | startDueJob startedAt ids => exact startDueJob_keepsShot ht
  | endDueJob i outcome endedAt => exact .sameJobs (endDueJob_same ht)
  | endTick alertNow ledgerNow passNow => exact endTick_keepsShot ht
  | clearMarkers => exact clearMarkers_keepsShot ht
  | planCatchup now => exact planStartupCatchup_keepsShot ht
  | startCandidate startedAt ids => exact .sameJobs (startCandidate_same ht)
  | endCandidate outcome endedAt => exact .sameJobs (endCandidate_same ht)
  | applyCatchup alertNow ledgerNow baseNow passNow => exact applyStartupCatchupOutcomes_keepsShot ht
  | finishStart now =>
    simp only [cronStep, finishStart] at ht
    split at ht
    · cases ht
      have hpass : KeepsShot id s.ensureLoaded (s.ensureLoaded.persistIfChanged
          (recomputeNextRuns deps.env now s.ensureLoaded.jobs)) := .persistIfChanged (.inl .recompute)
      exact KeepsShot.ensureLoaded.trans ⟨hpass.jobs, hpass.file⟩
    · cases ht

end Steps

end OpenClaw.Cron
