import OpenClaw.Cron.Slots

/-! One-shots that a restart interrupted.

`start` clears the marker of an interrupted one-shot and keeps it out of the
catch-up. Its last section then recomputes every next run that has come, and for
a one-shot that never ended with ok this is its old time: the job is armed again,
and the first tick at that time executes it. It stays unexecuted only where it is
disabled, or where no tick reaches the time it is armed for. -/
namespace OpenClaw.Cron
open Foundation CronServiceState List

/-! ### What a one-shot is armed for -/

/-- The time a recompute gives a one-shot. -/
def armedAt (env : CronEnv) (job : CronJob) : Option Int :=
  match job.schedule with
  | .at time atMs => computeAtNextRunAtMs job.state (resolveAtMs env time atMs)
  | _ => none

/-- The time it has after the last section of `start`: a next run that is still to
come, or what a recompute gives. -/
def rearmedAt (env : CronEnv) (job : CronJob) (now : Int) : Option Int :=
  match job.state.nextRunAtMs with
  | some next => if now < next then some next else armedAt env job
  | none => armedAt env job

/-- `j` is `job` with its marker cleared; while enabled its next run is one of `N`. -/
structure Idle (job : CronJob) (N : Option Int → Prop) (j : CronJob) : Prop where
  schedule : j.schedule = job.schedule
  enabled : j.enabled = job.enabled
  lastStatus : j.state.lastStatus = job.state.lastStatus
  lastRunAtMs : j.state.lastRunAtMs = job.state.lastRunAtMs
  marker : j.state.runningAtMs = none
  next : job.enabled = true → N j.state.nextRunAtMs

/-- Every job of the list with the id is so. -/
def AllIdle (job : CronJob) (N : Option Int → Prop) (jobs : List CronJob) : Prop :=
  ∀ j ∈ jobs, j.id = job.id → Idle job N j

section OneShot
variable {env : CronEnv} {job j : CronJob} {N : Option Int → Prop}

section
variable (h : Idle job N j) (hat : job.schedule.isAt = true)
include h hat

theorem Idle.computeJobNextRunAtMs (he : job.enabled = true) (now : Int) :
    computeJobNextRunAtMs env j now = .ok (armedAt env job) := by
  unfold OpenClaw.Cron.computeJobNextRunAtMs armedAt
  rw [isJobEnabled, h.enabled, he, h.schedule]
  cases hs : job.schedule with
  | «at» time atMs =>
    simp only [Bool.not_true, Bool.false_eq_true, if_false]
    unfold computeAtNextRunAtMs
    rw [h.lastStatus, h.lastRunAtMs]
  | _ =>
    rw [hs] at hat
    cases hat

theorem Idle.recompute {M : Option Int → Prop} (he : job.enabled = true) (now : Int) (hm : M (armedAt env job)) :
    Idle job M (recomputeJobNextRunAtMs env now j) := by
  unfold recomputeJobNextRunAtMs
  rw [h.computeJobNextRunAtMs hat he now]
  exact ⟨h.schedule, h.enabled, h.lastStatus, h.lastRunAtMs, h.marker, fun _ => hm⟩

/-- A walk keeps an idle one-shot idle, as what it asks of an enabled one does. -/
theorem Idle.walk {M : Option Int → Prop} {fn : CronJob → CronJob} {now : Int}
    (hfn : job.enabled = true → Idle job M (fn j)) :
    Idle job M (walkJob fn now j) := by
  have hanchor : normalizeAnchor j = j := normalizeAnchor_at (h.schedule ▸ hat)
  unfold walkJob
  by_cases he : job.enabled = true
  · rw [normalizeJobTickState_enabled (h.enabled.trans he), hanchor]
    have hstuck : isStuck now j = false := by
      unfold isStuck
      rw [h.marker]
      rfl
    rw [hstuck]
    exact hfn he
  · have hj : j.enabled = false := h.enabled.trans (by simpa using he)
    rw [normalizeJobTickState_disabled hj, hanchor]
    exact ⟨h.schedule, h.enabled, h.lastStatus, h.lastRunAtMs, rfl, fun he' => absurd he' he⟩

end

/-- A maintenance pass stays within `N`, if `N` has what a missing time is repaired
with and no time that may count as expired. -/
theorem AllIdle.maintain {recomputeExpired : Bool} {now : Int} {jobs : List CronJob} (h : AllIdle job N jobs)
    (hat : job.schedule.isAt = true) (hmissing : N none → N (armedAt env job))
    (hexpired : job.enabled = true → recomputeExpired = true → ∀ next, N (some next) → now < next) :
    AllIdle job N (recomputeNextRunsForMaintenance env recomputeExpired now jobs) := by
  intro j hj hid
  obtain ⟨old, hold, rfl⟩ := mem_map.mp hj
  rw [walkJob_id (recomputeForMaintenance_keeps env recomputeExpired now)] at hid
  have hidle := h old hold hid
  refine hidle.walk hat fun he => ?_
  have hnext := hidle.next he
  unfold recomputeForMaintenance
  split
  · rename_i hnone
    rw [hnone] at hnext
    exact hidle.recompute hat he now (hmissing hnext)
  · rename_i next hsome
    rw [hsome] at hnext
    split
    · rename_i hall
      have := hexpired he hall.1 next hnext
      omega
    · exact hidle

/-- The next run of an interrupted one-shot during the catch-up: its old one, or,
where that was missing, what repaired it. -/
def CatchUpTime (env : CronEnv) (job : CronJob) (next : Option Int) : Prop :=
  next = job.state.nextRunAtMs ∨ job.state.nextRunAtMs = none ∧ next = armedAt env job

theorem catchUpTime_missing (h : CatchUpTime env job none) : CatchUpTime env job (armedAt env job) := by
  rcases h with h | h
  · exact .inr ⟨h.symm, rfl⟩
  · exact .inr ⟨h.1, rfl⟩

theorem rearmedAt_missing {now : Int} (h : rearmedAt env job now = none) : armedAt env job = none := by
  unfold rearmedAt at h
  split at h
  · split at h
    · cases h
    · exact h
  · exact h

/-- The full recompute at the end of `start` arms the one-shot. -/
theorem AllIdle.rearm {now : Int} {jobs : List CronJob} (h : AllIdle job (CatchUpTime env job) jobs)
    (hat : job.schedule.isAt = true) :
    AllIdle job (· = rearmedAt env job now) (recomputeNextRuns env now jobs) := by
  intro j hj hid
  obtain ⟨old, hold, rfl⟩ := mem_map.mp hj
  rw [walkJob_id (recomputeDueOrMissing_keeps env now)] at hid
  have hidle := h old hold hid
  refine hidle.walk hat fun he => ?_
  have hnext := hidle.next he
  unfold recomputeDueOrMissing
  split
  · rename_i hdue
    refine hidle.recompute hat he now ?_
    unfold rearmedAt
    rcases hnext with hsame | ⟨hnone, _⟩
    · rw [hsame] at hdue
      split
      · rename_i next hsome
        rw [hsome, Option.all_some, decide_eq_true_iff] at hdue
        rw [if_neg (by omega)]
      · rfl
    · rw [hnone]
  · rename_i hfuture
    refine ⟨hidle.schedule, hidle.enabled, hidle.lastStatus, hidle.lastRunAtMs, hidle.marker, fun _ => ?_⟩
    unfold rearmedAt
    rcases hnext with hsame | ⟨hnone, harmed⟩
    · rw [← hsame]
      split
      · rename_i next hsome
        rw [hsome, Option.all_some, decide_eq_true_iff] at hfuture
        rw [if_pos (by omega), hsome]
      · rename_i hmissing
        rw [hmissing] at hfuture
        exact absurd rfl hfuture
    · rw [hnone]
      exact harmed

theorem AllIdle.modify_ne {id : String} {f : CronJob → CronJob} {jobs : List CronJob} (h : AllIdle job N jobs)
    (hne : id ≠ job.id) (hf : ∀ j ∈ jobs, j.id = id → (f j).id = id) : AllIdle job N (modifyJob id f jobs) := by
  intro j hj hid
  rcases mem_modifyJob hj with hold | ⟨old, hold, hoid, rfl⟩
  · exact h j hold hid
  · exact absurd ((hf old hold hoid).symm.trans hid) hne

theorem AllIdle.applyOutcomes {config : CronConfig} {alertNow : String → Int} {results : List TimedCronRunOutcome}
    {jobs : List CronJob} (h : AllIdle job N jobs) (hne : job.id ∉ results.map TimedCronRunOutcome.jobId) :
    AllIdle job N (results.foldl (fun jobs result =>
      applyOutcomeToStoredJob env config (alertNow result.jobId) result jobs) jobs) := by
  intro j hj hid
  refine h j (mem_applyOutcomes hj fun result hr he => hne ?_) hid
  rw [← hid, he]
  exact mem_map_of_mem hr

theorem AllIdle.deferMissedJobs {staggerMs baseNow : Int} {ids : List String} {offset : Int}
    {jobs : List CronJob} (h : AllIdle job N jobs) (hne : job.id ∉ ids) :
    AllIdle job N (deferMissedJobs staggerMs baseNow ids offset jobs) := by
  induction ids generalizing offset jobs with
  | nil => exact h
  | cons id rest ih =>
    rw [mem_cons, not_or] at hne
    unfold OpenClaw.Cron.deferMissedJobs
    split
    · exact ih (h.modify_ne (fun he => hne.1 he.symm) fun _ _ hid => hid) hne.2
    · exact ih h hne.2

/-- Changing jobs that are not this one. -/
theorem AllIdle.map {f : CronJob → CronJob} {jobs : List CronJob} (h : AllIdle job N jobs)
    (hf : ∀ j ∈ jobs, (f j).id = j.id ∧ (j.id = job.id → f j = j)) : AllIdle job N (jobs.map f) := by
  intro j hj hid
  obtain ⟨old, hold, rfl⟩ := mem_map.mp hj
  obtain ⟨hfid, hsame⟩ := hf old hold
  rw [hfid] at hid
  rw [hsame hid]
  exact h old hold hid

end OneShot

/-! ### The catch-up -/

/-- The state of `start` between its first and its last section. -/
structure CatchingUp (env : CronEnv) (job : CronJob) (s : CronServiceState) : Prop where
  store : s.store = some s.file
  idle : AllIdle job (CatchUpTime env job) s.file
  cleared : ∀ ids, s.startup = .cleared ids → job.id ∈ ids
  candidates : job.id ∉ candidateIds s.startup
  deferred : job.id ∉ deferredIds s.startup
  tick : s.tick = none
  executed : job.id ∉ s.executed

/-- What `start` does between these, and readings. -/
def isCatchUp : CronEvent → Bool
  | .planCatchup _ | .startCandidate _ _ | .endCandidate _ _ | .applyCatchup _ _ _ _ | .read _ => true
  | _ => false

section CatchUp
variable {deps : CronDeps} {job : CronJob} {s t : CronServiceState}

theorem ensureLoaded_of_store (h : s.store = some s.file) : s.ensureLoaded = s := by
  refine if_pos ?_
  rw [h]
  rfl

section
variable (h : CatchingUp deps.env job s)
include h

theorem CatchingUp.jobs : s.jobs = s.file := by
  rw [CronServiceState.jobs, h.store]
  rfl

theorem CatchingUp.readJobs (hat : job.schedule.isAt = true) (now : Int) :
    CatchingUp deps.env job (readJobs deps now s) := by
  have hidle : AllIdle job (CatchUpTime deps.env job)
      (recomputeNextRunsForMaintenance deps.env false now s.file) :=
    h.idle.maintain hat catchUpTime_missing nofun
  unfold OpenClaw.Cron.readJobs CronServiceState.persistIfChanged
  rw [ensureLoaded_of_store h.store]
  dsimp only
  rw [h.jobs]
  split
  · exact h
  · exact ⟨rfl, hidle, h.cleared, h.candidates, h.deferred, h.tick, h.executed⟩

/-- The catch-up leaves interrupted one-shots out. -/
theorem CatchingUp.plan {now : Int} (ht : planStartupCatchup deps now s = some t) : CatchingUp deps.env job t := by
  unfold planStartupCatchup at ht
  rw [ensureLoaded_of_store h.store] at ht
  split at ht
  · rename_i interrupted hstartup
    have hskip := h.cleared interrupted hstartup
    dsimp only at ht
    rw [h.jobs] at ht
    split at ht
    · cases ht
      exact ⟨h.store, h.idle, fun _ hs => (by cases hs), not_mem_nil, not_mem_nil, h.tick, h.executed⟩
    · generalize hmissed : collectRunnableJobs deps.env _ now s.file = missed at ht
      have hnot (j : CronJob) (hj : j ∈ sortByNextRun missed) : j.id ≠ job.id := by
        intro hid
        rw [sortByNextRun, (perm_insertionSort _ _).mem_iff, ← hmissed] at hj
        have hrun := (mem_filter.mp hj).2
        rw [← hid] at hskip
        simp [isRunnableJob, hskip] at hrun
      cases ht
      refine ⟨rfl, ?_, fun _ hs => (by cases hs), ?_, ?_, h.tick, h.executed⟩
      · refine h.idle.map fun j _ => ⟨?_, fun hid => if_neg fun hin => hnot j (mem_of_mem_take hin) hid⟩
        show (if _ then _ else _ : CronJob).id = j.id
        split <;> rfl
      · intro hin
        obtain ⟨due, hdue, hid⟩ := mem_map.mp hin
        obtain ⟨j, hj, rfl⟩ := mem_map.mp hdue
        exact hnot j (mem_of_mem_take hj) hid
      · intro hin
        obtain ⟨j, hj, hid⟩ := mem_map.mp hin
        exact hnot j (mem_of_mem_drop hj) hid
  · cases ht

theorem CatchingUp.startCandidate {startedAt : Int} {ids : TaskIds}
    (ht : startCandidate deps startedAt ids s = some t) : CatchingUp deps.env job t := by
  unfold OpenClaw.Cron.startCandidate at ht
  split at ht
  · rename_i candidates deferredJobIds hstartup
    split at ht
    · cases ht
    · obtain ⟨⟨before, due, after⟩, hnext, rfl⟩ := Option.map_eq_some_iff.mp ht
      obtain ⟨rfl, _⟩ := nextWaiting_eq hnext
      have hcandidates : job.id ∉ (before ++ due :: after).map DueJob.id := by
        have := h.candidates
        rw [hstartup] at this
        exact this
      have hdeferred : job.id ∉ deferredJobIds := by
        have := h.deferred
        rw [hstartup] at this
        exact this
      refine ⟨h.store, h.idle, nofun, ?_, hdeferred, h.tick, ?_⟩
      · simpa [candidateIds] using hcandidates
      · simp only [mem_append, mem_singleton, not_or]
        refine ⟨h.executed, fun he => hcandidates ?_⟩
        rw [he]
        simp
  · cases ht

theorem CatchingUp.endCandidate {outcome : CronRunOutcome} {endedAt : Int}
    (ht : endCandidate outcome endedAt s = some t) : CatchingUp deps.env job t := by
  unfold OpenClaw.Cron.endCandidate at ht
  split at ht
  · rename_i candidates deferredJobIds hstartup
    split at ht
    · cases ht
      have hids : (candidates.map (DueJob.finish outcome endedAt)).map DueJob.id = candidates.map DueJob.id := by
        rw [map_map]
        refine map_congr_left fun due _ => ?_
        show (due.finish outcome endedAt).id = due.id
        unfold DueJob.finish
        split <;> rfl
      have hcandidates := h.candidates
      have hdeferred := h.deferred
      rw [hstartup] at hcandidates hdeferred
      refine ⟨h.store, h.idle, nofun, ?_, hdeferred, h.tick, h.executed⟩
      show job.id ∉ List.map DueJob.id (candidates.map (DueJob.finish outcome endedAt))
      rw [hids]
      exact hcandidates
    · cases ht
  · cases ht

theorem CatchingUp.applyCatchup (hat : job.schedule.isAt = true) {alertNow ledgerNow : String → Int}
    {baseNow passNow : Int} (ht : applyStartupCatchupOutcomes deps alertNow ledgerNow baseNow passNow s = some t) :
    CatchingUp deps.env job t := by
  unfold applyStartupCatchupOutcomes at ht
  rw [ensureLoaded_of_store h.store] at ht
  split at ht
  · rename_i candidates deferredJobIds hstartup
    have hcandidates := h.candidates
    have hdeferred := h.deferred
    rw [hstartup] at hcandidates hdeferred
    split at ht
    · cases ht
    · rename_i results hresults
      have hne : job.id ∉ results.map TimedCronRunOutcome.jobId := by
        rw [results_jobId hresults]
        exact hcandidates
      have hjobs : (applyOutcomes deps alertNow ledgerNow results {s.refresh with startup := .caughtUp}).jobs =
          results.foldl (fun jobs result =>
            applyOutcomeToStoredJob deps.env deps.config (alertNow result.jobId) result jobs) s.file := by
        show (s.store.map _).getD [] = _
        rw [h.store]
        rfl
      cases ht
      refine ⟨rfl, ?_, nofun, not_mem_nil, not_mem_nil, ?_, h.executed⟩
      rotate_left
      · show s.tick.map _ = none
        rw [h.tick]
        rfl
      show AllIdle job (CatchUpTime deps.env job) (recomputeNextRunsForMaintenance deps.env false passNow
        (deferMissedJobs _ _ _ _ (applyOutcomes deps alertNow ledgerNow results _).jobs))
      rw [hjobs]
      exact ((h.idle.applyOutcomes hne).deferMissedJobs hdeferred).maintain hat catchUpTime_missing nofun
  · cases ht

theorem CatchingUp.step (hat : job.schedule.isAt = true) {e : CronEvent} (he : isCatchUp e = true)
    (ht : cronStep deps e s = some t) : CatchingUp deps.env job t := by
  cases e with
  | read now =>
    cases ht
    exact h.readJobs hat now
  | planCatchup now => exact h.plan ht
  | startCandidate startedAt ids => exact h.startCandidate ht
  | endCandidate outcome endedAt => exact h.endCandidate ht
  | applyCatchup alertNow ledgerNow baseNow passNow => exact h.applyCatchup hat ht
  | add | update | remove | inspectRun | preflightRun | prepareRun | endRun | finishRun | beginTick | startDueJob
    | endDueJob | endTick | clearMarkers | finishStart => cases he

end

/-- The first section of `start` finds the interrupted one-shot. -/
theorem clearMarkers_catchingUp {file : List CronJob} (hfile : (jobIds file).Nodup) (hjob : job ∈ file)
    (hat : job.schedule.isAt = true) (hmark : job.state.runningAtMs.isSome = true)
    (ht : clearMarkers deps (created file) = some t) : CatchingUp deps.env job t := by
  have hload : (created file).ensureLoaded = (created file).load := rfl
  unfold clearMarkers at ht
  split at ht
  · split at ht
    · cases ht
    · rw [hload] at ht
      dsimp only at ht
      have hjobs : (created file).load.jobs = file := rfl
      rw [hjobs] at ht
      have hmarked : job ∈ file.filter fun j => j.state.runningAtMs.isSome := mem_filter.mpr ⟨hjob, hmark⟩
      rw [if_neg (ne_nil_of_mem hmarked)] at ht
      cases ht
      refine ⟨rfl, ?_, fun ids hids => ?_, not_mem_nil, not_mem_nil, rfl, not_mem_nil⟩
      · intro j hj hid
        obtain ⟨old, hold, rfl⟩ := mem_map.mp (show j ∈ file.map (setRunningAtMs none) from hj)
        cases inj_on_of_nodup_map hfile hold hjob hid
        exact ⟨rfl, rfl, rfl, rfl, rfl, fun _ => .inl rfl⟩
      · cases hids
        exact mem_map_of_mem (mem_filter.mpr ⟨hmarked, hat⟩)
  · cases ht

end CatchUp

/-! ### Ticks after the start -/

/-- The state after `start`: the one-shot is armed for `next` and nothing holds it. -/
structure Dormant (job : CronJob) (next : Option Int) (s : CronServiceState) : Prop where
  memory : AllIdle job (· = next) s.jobs
  file : AllIdle job (· = next) s.file
  tick : job.id ∉ dueIds s
  executed : job.id ∉ s.executed

/-- Ticks, and readings. -/
def isTickOrRead : CronEvent → Bool
  | .beginTick _ _ | .startDueJob _ _ | .endDueJob _ _ _ | .endTick _ _ _ | .read _ => true
  | _ => false

/-- No tick reaches the time the one-shot is armed for. -/
def BeforeTime (job : CronJob) (next : Option Int) (e : CronEvent) : Prop :=
  ∀ dueCheckNow now, e = .beginTick dueCheckNow now → job.enabled = true → ∀ n, next = some n → dueCheckNow < n

section Ticks
variable {deps : CronDeps} {job : CronJob} {next : Option Int} {s t : CronServiceState}

theorem CatchingUp.finishStart (h : CatchingUp deps.env job s) (hat : job.schedule.isAt = true) {now : Int}
    (ht : finishStart deps now s = some t) : Dormant job (rearmedAt deps.env job now) t := by
  unfold OpenClaw.Cron.finishStart at ht
  rw [ensureLoaded_of_store h.store] at ht
  split at ht
  · cases ht
    have hidle : AllIdle job (· = rearmedAt deps.env job now) (recomputeNextRuns deps.env now s.file) :=
      h.idle.rearm hat
    have hdue : job.id ∉ dueIds s := by
      rw [dueIds, h.tick]
      exact not_mem_nil
    unfold CronServiceState.persistIfChanged
    rw [h.jobs]
    split
    · rename_i hsame
      rw [hsame] at hidle
      refine ⟨?_, hidle, hdue, h.executed⟩
      show AllIdle job _ s.jobs
      rw [h.jobs]
      exact hidle
    · exact ⟨hidle, hidle, hdue, h.executed⟩
  · cases ht

theorem not_runnable {j : CronJob} {now : Int} {env : CronEnv} (h : Idle job (· = next) j)
    (hbefore : job.enabled = true → ∀ n, next = some n → now < n) : isRunnableJob env {} now j = false := by
  unfold isRunnableJob
  by_cases he : job.enabled = true
  · have hnext := h.next he
    have hnot : j.state.nextRunAtMs.any (· ≤ now) = false := by
      rw [hnext]
      cases hn : next with
      | none => rfl
      | some n =>
        have := hbefore he n hn
        rw [Option.any_some, decide_eq_false_iff_not]
        omega
    simp [isJobEnabled, h.enabled, he, h.marker, hnot]
  · have hj : j.enabled = false := h.enabled.trans (by simpa using he)
    simp [isJobEnabled, hj]

section
variable (h : Dormant job next s) (hat : job.schedule.isAt = true)
  (hmissing : next = none → armedAt deps.env job = next)
include h hat hmissing

theorem Dormant.readJobs (now : Int) : Dormant job next (readJobs deps now s) := by
  have hdue : dueIds s.ensureLoaded = dueIds s := by
    unfold CronServiceState.ensureLoaded
    split
    · rfl
    · exact dueIds_mapDue (f := DueJob.detach s.store) (fun _ => rfl) s
  have hensured : AllIdle job (· = next) s.ensureLoaded.jobs ∧ s.ensureLoaded.file = s.file ∧
      s.ensureLoaded.executed = s.executed := by
    unfold CronServiceState.ensureLoaded
    split
    · exact ⟨h.memory, rfl, rfl⟩
    · exact ⟨h.file, rfl, rfl⟩
  obtain ⟨hmemory, hfile, hexecuted⟩ := hensured
  have hidle : AllIdle job (· = next) (recomputeNextRunsForMaintenance deps.env false now s.ensureLoaded.jobs) :=
    hmemory.maintain hat (fun hn => hmissing hn.symm) nofun
  unfold OpenClaw.Cron.readJobs CronServiceState.persistIfChanged
  dsimp only
  split
  · exact ⟨hmemory, hfile ▸ h.file, hdue ▸ h.tick, hexecuted ▸ h.executed⟩
  · exact ⟨hidle, hidle, hdue ▸ h.tick, hexecuted ▸ h.executed⟩

theorem Dormant.beginTick {dueCheckNow now : Int} (hbefore : BeforeTime job next (.beginTick dueCheckNow now))
    (ht : beginTick deps dueCheckNow now s = some t) : Dormant job next t := by
  have hnot (j : CronJob) (hj : j ∈ s.file) (hid : j.id = job.id) :
      isRunnableJob deps.env {} dueCheckNow j = false :=
    not_runnable (h.file j hj hid) (hbefore dueCheckNow now rfl)
  unfold OpenClaw.Cron.beginTick at ht
  split at ht
  · cases ht
  · dsimp only at ht
    split at ht
    · cases ht
      have hidle : AllIdle job (· = next) (recomputeNextRunsForMaintenance deps.env true dueCheckNow s.file) :=
        h.file.maintain hat (fun hn => hmissing hn.symm) fun he _ n hn => hbefore dueCheckNow now rfl he n hn.symm
      unfold CronServiceState.persistIfChanged
      split
      · exact ⟨h.file, h.file, not_mem_nil, h.executed⟩
      · exact ⟨hidle, hidle, not_mem_nil, h.executed⟩
    · cases ht
      have hidle : AllIdle job (· = next) (s.file.map fun j =>
          if isRunnableJob deps.env {} dueCheckNow j then reserved now j else j) := by
        refine h.file.map fun j hj => ⟨?_, fun hid => if_neg (by rw [hnot j hj hid]; decide)⟩
        show (if _ then _ else _ : CronJob).id = j.id
        split <;> rfl
      refine ⟨hidle, hidle, fun hin => ?_, h.executed⟩
      obtain ⟨due, hdue, hid⟩ := mem_map.mp hin
      obtain ⟨j, hj, rfl⟩ := mem_map.mp hdue
      obtain ⟨hmem, hrun⟩ := mem_filter.mp hj
      rw [hnot j hmem hid] at hrun
      cases hrun

end

theorem Dormant.startDueJob (h : Dormant job next s) {startedAt : Int} {ids : TaskIds}
    (ht : startDueJob deps startedAt ids s = some t) : Dormant job next t := by
  obtain ⟨dueJobs, htick, hstart⟩ := Option.bind_eq_some_iff.mp ht
  split at hstart
  · obtain ⟨⟨before, due, after⟩, hnext, rfl⟩ := Option.map_eq_some_iff.mp hstart
    obtain ⟨rfl, _⟩ := nextWaiting_eq hnext
    have hnot : job.id ∉ (before ++ due :: after).map DueJob.id := by
      have := h.tick
      rw [dueIds, htick] at this
      exact this
    have hdue : due.id ≠ job.id := by
      intro he
      refine hnot ?_
      rw [← he]
      simp
    have hmemory : AllIdle job (· = next) ((due.markStarted startedAt s.store).getD []) := by
      have hmemory := h.memory
      unfold CronServiceState.jobs at hmemory
      unfold DueJob.markStarted
      generalize s.store = store at hmemory ⊢
      cases store with
      | none => split <;> exact hmemory
      | some jobs =>
        split
        · exact AllIdle.modify_ne (show AllIdle job (· = next) jobs from hmemory) hdue fun _ _ hid => hid
        · exact hmemory
    dsimp only
    generalize tryCreateCronTaskRun deps.channels _ _ _ _ = created
    refine ⟨hmemory, h.file, ?_, ?_⟩
    · simpa [dueIds] using hnot
    · simp only [mem_append, mem_singleton, not_or]
      exact ⟨h.executed, fun he => hdue he.symm⟩
  · cases hstart

theorem Dormant.endDueJob (h : Dormant job next s) {i : Nat} {outcome : CronRunOutcome} {endedAt : Int}
    (ht : endDueJob i outcome endedAt s = some t) : Dormant job next t := by
  obtain ⟨dueJobs, rfl, hids⟩ := endDueJob_tick ht
  exact ⟨h.memory, h.file, hids ▸ h.tick, h.executed⟩

theorem Dormant.endTick (h : Dormant job next s) (hat : job.schedule.isAt = true)
    (hmissing : next = none → armedAt deps.env job = next) {alertNow ledgerNow : String → Int} {passNow : Int}
    (ht : endTick deps alertNow ledgerNow passNow s = some t) : Dormant job next t := by
  obtain ⟨dueJobs, htick, hend⟩ := Option.bind_eq_some_iff.mp ht
  split at hend
  · cases hend
  · cases hend
    exact ⟨h.memory, h.file, not_mem_nil, h.executed⟩
  · rename_i results _ hresults
    cases hend
    have hne : job.id ∉ results.map TimedCronRunOutcome.jobId := by
      rw [results_jobId hresults]
      have := h.tick
      rw [dueIds, htick] at this
      exact this
    have hidle : AllIdle job (· = next) (recomputeNextRunsForMaintenance deps.env false passNow
        (results.foldl (fun jobs result =>
          applyOutcomeToStoredJob deps.env deps.config (alertNow result.jobId) result jobs) s.file)) :=
      (h.file.applyOutcomes hne).maintain hat (fun hn => hmissing hn.symm) fun _ he => by cases he
    exact ⟨hidle, hidle, not_mem_nil, h.executed⟩

theorem Dormant.step (hat : job.schedule.isAt = true) (hmissing : next = none → armedAt deps.env job = next)
    (e : CronEvent) (s t : CronServiceState) (h : Dormant job next s)
    (hc : isTickOrRead e = true ∧ BeforeTime job next e) (ht : cronStep deps e s = some t) : Dormant job next t := by
  cases e with
  | read now =>
    cases ht
    exact h.readJobs hat hmissing now
  | beginTick dueCheckNow now => exact h.beginTick hat hmissing hc.2 ht
  | startDueJob startedAt ids => exact h.startDueJob ht
  | endDueJob i outcome endedAt => exact h.endDueJob ht
  | endTick alertNow ledgerNow passNow => exact h.endTick hat hmissing ht
  | add | update | remove | inspectRun | preflightRun | prepareRun | endRun | finishRun | clearMarkers | planCatchup
    | startCandidate | endCandidate | applyCatchup | finishStart => cases hc.1

end Ticks

/-! ### Runs -/

/-- **An interrupted one-shot stays unexecuted** through `start` and any ticks and
readings after it, as long as it is disabled or no tick reaches the time that the
last section of `start` armed it for. -/
theorem interrupted_one_shot_dormant (deps : CronDeps) (file : List CronJob) (job : CronJob)
    (hfile : (jobIds file).Nodup) (hjob : job ∈ file) (hat : job.schedule.isAt = true)
    (hmark : job.state.runningAtMs.isSome = true) (catchUp later : List CronEvent) (endNow : Int)
    (hcatchUp : ∀ e ∈ catchUp, isCatchUp e = true) (hlater : ∀ e ∈ later, isTickOrRead e = true)
    (hbefore : ∀ e ∈ later, BeforeTime job (rearmedAt deps.env job endNow) e) (s : CronServiceState)
    (hrun : (cronStep deps).run (.clearMarkers :: catchUp ++ .finishStart endNow :: later) (created file) = some s) :
    job.id ∉ s.executed := by
  rw [cons_append, Machine.run_cons_some] at hrun
  obtain ⟨a, ha, hrun⟩ := hrun
  rw [Machine.run_append, Option.bind_eq_some_iff] at hrun
  obtain ⟨b, hb, hrun⟩ := hrun
  rw [Machine.run_cons_some] at hrun
  obtain ⟨c, hc, hrun⟩ := hrun
  have hcatching : CatchingUp deps.env job b :=
    Machine.run_within_invariant (cronStep deps) (C := fun e _ => isCatchUp e = true)
      (fun e s t h he ht => h.step hat he ht) catchUp (clearMarkers_catchingUp hfile hjob hat hmark ha)
      (Machine.within_of_all _ fun e he _ => hcatchUp e he) hb
  have hdormant : Dormant job (rearmedAt deps.env job endNow) c := hcatching.finishStart hat hc
  have hmissing (hn : rearmedAt deps.env job endNow = none) :
      armedAt deps.env job = rearmedAt deps.env job endNow := (rearmedAt_missing hn).trans hn.symm
  have hend : Dormant job (rearmedAt deps.env job endNow) s :=
    Machine.run_within_invariant (cronStep deps)
      (C := fun e _ => isTickOrRead e = true ∧ BeforeTime job (rearmedAt deps.env job endNow) e)
      (Dormant.step hat hmissing) later hdormant
      (Machine.within_of_all _ fun e he _ => ⟨hlater e he, hbefore e he⟩) hrun
  exact hend.executed

/-! ### A reminder that was interrupted -/

/-- A one-shot whose execution a restart interrupted. -/
def interruptedReminder (atMs : Int) : CronJob where
  id := "reminder"
  name := "reminder"
  createdAtMs := 0
  updatedAtMs := 0
  schedule := .at none (some (.number atMs))
  sessionTarget := "main"
  wakeMode := .now
  payload := .systemEvent "stand up"
  state := {nextRunAtMs := some atMs, runningAtMs := some 1000}

/-- Its time has come before the restart: the end of `start` arms it, and the next tick executes it. -/
theorem interrupted_reminder_replayed :
    (jobIds [interruptedReminder 1000]).Nodup ∧ (interruptedReminder 1000).schedule.isAt = true ∧
      (interruptedReminder 1000).state.runningAtMs.isSome = true ∧
      ((cronStep plainDeps).run [.clearMarkers, .planCatchup 5000, .finishStart 5000, .beginTick 6000 6000,
        .startDueJob 6000 (taskIds "task-1")] (created [interruptedReminder 1000])).map
          CronServiceState.executed = some ["reminder"] := by
  decide

/-- A tick before its time, and a reading. -/
def earlyTick : List CronEvent := [.beginTick 6000 6000, .endTick (fun _ => 0) (fun _ => 0) 6000, .read 7000]

theorem interrupted_one_shot_dormant_early : ∃ s, (cronStep plainDeps).run
    (.clearMarkers :: [.planCatchup 5000] ++ .finishStart 5000 :: earlyTick) (created [interruptedReminder 10000]) =
      some s ∧ "reminder" ∉ s.executed := by
  refine ⟨_, rfl, interrupted_one_shot_dormant plainDeps [interruptedReminder 10000] (interruptedReminder 10000)
    (by decide) mem_cons_self rfl rfl [.planCatchup 5000] earlyTick 5000 (by simp [isCatchUp])
    (by simp [earlyTick, isTickOrRead]) ?_ _ rfl⟩
  intro e he dueCheckNow now hbegin _ n hn
  subst hbegin
  have hclock : dueCheckNow = 6000 := by
    simp only [earlyTick, mem_cons, CronEvent.beginTick.injEq, reduceCtorEq, not_mem_nil, or_false] at he
    exact he.1
  have htime : rearmedAt plainDeps.env (interruptedReminder 10000) 5000 = some 10000 := by decide
  rw [htime] at hn
  cases hn
  omega

end OpenClaw.Cron
