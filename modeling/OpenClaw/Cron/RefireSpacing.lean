import OpenClaw.Cron.DisabledJobs

/-! How soon a job runs again after a run.

An outcome that leaves a job enabled also leaves it a next run, and the next run keeps its
distance: the backoff after an error, the refire gap for a cron expression, the interval for an
interval. A one-shot stays enabled only for a retry. The engine behind a cron expression may return
anything or throw; a run that throws is put off by the backoff or by the gap alone. -/
namespace OpenClaw.Cron

/-! ### The backoff table -/

def backoffIndex (consecutiveErrors : Int) (scheduleMs : List Int) : Nat :=
  (min (consecutiveErrors - 1) (scheduleMs.length - 1)).toNat

theorem backoffIndex_lt {scheduleMs : List Int} (h : scheduleMs ≠ []) (n : Int) :
    backoffIndex n scheduleMs < scheduleMs.length := by
  have hlength : 0 < scheduleMs.length := List.length_pos_iff.mpr h
  unfold backoffIndex
  omega

theorem errorBackoffMs_eq {scheduleMs : List Int} (h : scheduleMs ≠ []) (n : Int) :
    errorBackoffMs n scheduleMs = scheduleMs.get ⟨backoffIndex n scheduleMs, backoffIndex_lt h n⟩ := by
  show scheduleMs.getD (backoffIndex n scheduleMs) 0 = _
  rw [List.getD_eq_getElem?_getD, List.getElem?_eq_getElem (backoffIndex_lt h n)]
  rfl

/-- Over a table that does not fall, more errors in a row never mean a shorter wait. -/
theorem errorBackoffMs_mono {scheduleMs : List Int} (hsorted : scheduleMs.Pairwise (· ≤ ·)) {m n : Int} (hmn : m ≤ n) :
    errorBackoffMs m scheduleMs ≤ errorBackoffMs n scheduleMs := by
  by_cases hempty : scheduleMs = []
  · subst hempty
    exact Int.le_refl _
  · have hindex : backoffIndex m scheduleMs ≤ backoffIndex n scheduleMs := by
      unfold backoffIndex
      omega
    rw [errorBackoffMs_eq hempty, errorBackoffMs_eq hempty]
    rcases Nat.eq_or_lt_of_le hindex with heq | hlt
    · simp only [heq, Int.le_refl]
    · exact List.pairwise_iff_getElem.mp hsorted _ _ _ _ hlt

/-- Beyond the end of the table the wait stays the same. -/
theorem errorBackoffMs_beyond {scheduleMs : List Int} {n : Int} (hn : scheduleMs.length ≤ n) :
    errorBackoffMs n scheduleMs = errorBackoffMs scheduleMs.length scheduleMs := by
  have hindex : backoffIndex n scheduleMs = backoffIndex scheduleMs.length scheduleMs := by
    unfold backoffIndex
    omega
  show scheduleMs.getD (backoffIndex n scheduleMs) 0 = scheduleMs.getD (backoffIndex scheduleMs.length scheduleMs) 0
  rw [hindex]

theorem defaultBackoff_sorted : DEFAULT_BACKOFF_SCHEDULE_MS.Pairwise (· ≤ ·) := by decide

/-! ### What is recorded before a job is rescheduled -/

section Counted
variable (env : CronEnv) (config : CronConfig) (now : Int) (result : TimedCronRunOutcome) (job : CronJob)

/-- The job as it is when its next run is asked for. -/
def counted : CronJob := countErrors config now result (recordResult env result job)

theorem counted_lastRunAtMs : (counted env config now result job).state.lastRunAtMs = some result.startedAt := by
  unfold counted countErrors
  split <;> rfl

theorem counted_schedule : (counted env config now result job).schedule = job.schedule :=
  countErrors_schedule ..

theorem counted_consecutiveErrors : ∃ n, (counted env config now result job).state.consecutiveErrors = some n := by
  unfold counted countErrors
  split
  · exact ⟨_, rfl⟩
  · exact ⟨_, rfl⟩

end Counted

/-! ### Intervals -/

/-- A tick of the anchor is never before the time it is asked for at. -/
theorem computeEveryNextRunAtMs_ge (everyMs anchorMs nowMs : Int) :
    nowMs ≤ computeEveryNextRunAtMs everyMs anchorMs nowMs := by
  unfold computeEveryNextRunAtMs
  dsimp only
  split
  · omega
  · rename_i hpast
    have hevery : 0 < max 1 everyMs := by omega
    generalize max 1 everyMs = every at hevery
    generalize max 0 anchorMs = anchor at hpast
    have hceil : nowMs - anchor ≤ (nowMs - anchor + every - 1) / every * every := by
      have hdiv := Int.mul_ediv_add_emod (nowMs - anchor + every - 1) every
      have hmod := Int.emod_lt_of_pos (nowMs - anchor + every - 1) hevery
      rw [Int.mul_comm] at hdiv
      omega
    have hsteps : (nowMs - anchor + every - 1) / every * every ≤
        max 1 ((nowMs - anchor + every - 1) / every) * every :=
      Int.mul_le_mul_of_nonneg_right (Int.le_max_right _ _) (Int.le_of_lt hevery)
    omega

/-- The next run of an interval that ran at `startedAt` is an interval later or more. -/
theorem every_next {env : CronEnv} {job : CronJob} {everyMs : Int} {anchorMs : Option Int} {startedAt endedAt : Int}
    (henabled : job.enabled = true) (hschedule : job.schedule = .every everyMs anchorMs)
    (hran : job.state.lastRunAtMs = some startedAt) :
    ∃ next, computeJobNextRunAtMs env job endedAt = .ok (some next) ∧ startedAt + everyMs ≤ next := by
  unfold computeJobNextRunAtMs
  simp only [isJobEnabled, henabled, hschedule, hran, Option.map_some, Option.any_some, decide_eq_true_eq,
    Bool.not_true, Bool.false_eq_true, if_false]
  by_cases hlater : endedAt < startedAt + max 1 everyMs
  · rw [if_pos hlater]
    exact ⟨_, rfl, by omega⟩
  · rw [if_neg hlater]
    refine ⟨_, rfl, ?_⟩
    have htick := computeEveryNextRunAtMs_ge (max 1 everyMs) (resolveEveryAnchorMs anchorMs job.createdAtMs) endedAt
    omega

/-! ### Rescheduling -/

section Recurring
variable {env : CronEnv} {preserveSchedule : Bool} {prevLastRunAtMs : Option Int} {result : TimedCronRunOutcome}
  {job : CronJob}

/-- What a reschedule puts down for a natural next run. -/
def rescheduledNext (result : TimedCronRunOutcome) (job : CronJob) (naturalNext : Option Int) : Option Int :=
  let backoffNext := result.endedAt +
    errorBackoffMs (job.state.consecutiveErrors.getD 1) DEFAULT_BACKOFF_SCHEDULE_MS
  let minNext := result.endedAt + MIN_REFIRE_GAP_MS
  if result.outcome.status = .error then some ((naturalNext.map (max · backoffNext)).getD backoffNext)
  else if job.schedule.isCron then some ((naturalNext.map (max · minNext)).getD minNext)
  else naturalNext

/-- A recurring job that stays enabled was enabled, and has the next run put down for the natural one,
or for none where the evaluation threw. -/
theorem rescheduleRecurring_next
    (henabled : (rescheduleRecurring env preserveSchedule prevLastRunAtMs result job).enabled = true) :
    job.enabled = true ∧
    (rescheduleRecurring env preserveSchedule prevLastRunAtMs result job).state.consecutiveErrors =
      job.state.consecutiveErrors ∧
    ∃ naturalNext,
      (rescheduleRecurring env preserveSchedule prevLastRunAtMs result job).state.nextRunAtMs =
        rescheduledNext result job naturalNext ∧
      (nextAfterRun env preserveSchedule prevLastRunAtMs result.endedAt job = .ok naturalNext ∨
        naturalNext = none ∧ ∃ err, nextAfterRun env preserveSchedule prevLastRunAtMs result.endedAt job = .error err) := by
  have hwas : job.enabled = true := by
    by_contra hoff
    have hoff' : isJobEnabled job = false := by simpa [isJobEnabled] using hoff
    unfold rescheduleRecurring at henabled
    rw [hoff'] at henabled
    exact hoff henabled
  refine ⟨hwas, ?_⟩
  unfold rescheduleRecurring
  rw [if_neg (by simp [isJobEnabled, hwas])]
  cases hnatural : nextAfterRun env preserveSchedule prevLastRunAtMs result.endedAt job with
  | ok naturalNext => exact ⟨rfl, naturalNext, rfl, .inl rfl⟩
  | error err => exact ⟨rfl, none, rfl, .inr ⟨rfl, err, rfl⟩⟩

theorem rescheduledNext_backoff (hstatus : result.outcome.status = .error) (naturalNext : Option Int) :
    ∃ next, rescheduledNext result job naturalNext = some next ∧
      result.endedAt + errorBackoffMs (job.state.consecutiveErrors.getD 1) DEFAULT_BACKOFF_SCHEDULE_MS ≤ next := by
  unfold rescheduledNext
  rw [if_pos hstatus]
  cases naturalNext with
  | none => exact ⟨_, rfl, Int.le_refl _⟩
  | some natural => exact ⟨_, rfl, Int.le_max_right _ _⟩

theorem rescheduledNext_gap (hstatus : result.outcome.status ≠ .error) (hcron : job.schedule.isCron = true)
    (naturalNext : Option Int) :
    ∃ next, rescheduledNext result job naturalNext = some next ∧ result.endedAt + MIN_REFIRE_GAP_MS ≤ next := by
  unfold rescheduledNext
  rw [if_neg hstatus, if_pos hcron]
  cases naturalNext with
  | none => exact ⟨_, rfl, Int.le_refl _⟩
  | some natural => exact ⟨_, rfl, Int.le_max_right _ _⟩

/-- An interval is put down as computed, and its computation does not throw. -/
theorem rescheduledNext_every {everyMs : Int} {anchorMs naturalNext : Option Int} (hstatus : result.outcome.status ≠ .error)
    (henabled : job.enabled = true) (hschedule : job.schedule = .every everyMs anchorMs)
    (hran : job.state.lastRunAtMs = some result.startedAt)
    (hnatural : nextAfterRun env false prevLastRunAtMs result.endedAt job = .ok naturalNext ∨
      naturalNext = none ∧ ∃ err, nextAfterRun env false prevLastRunAtMs result.endedAt job = .error err) :
    ∃ next, rescheduledNext result job naturalNext = some next ∧ result.startedAt + everyMs ≤ next := by
  have hcron : job.schedule.isCron = false := by rw [hschedule]; rfl
  obtain ⟨next, hnext, hle⟩ : ∃ next, computeJobNextRunAtMs env job result.endedAt = .ok (some next) ∧
      result.startedAt + everyMs ≤ next := every_next henabled hschedule hran
  have hafter : nextAfterRun env false prevLastRunAtMs result.endedAt job = .ok (some next) := by
    unfold nextAfterRun
    rw [if_neg (by simp)]
    exact hnext
  have hsome : naturalNext = some next := by
    rcases hnatural with hok | ⟨-, err, herr⟩
    · rw [hafter] at hok
      cases hok
      rfl
    · rw [hafter] at herr
      cases herr
  refine ⟨next, ?_, hle⟩
  unfold rescheduledNext
  rw [if_neg hstatus, hcron, if_neg Bool.false_ne_true]
  exact hsome

end Recurring

/-- A one-shot that stays enabled is retried. -/
theorem rescheduleOneShot_retries {config : CronConfig} {result : TimedCronRunOutcome} {job : CronJob}
    (henabled : (rescheduleOneShot config result job).enabled = true) : retriesOneShot config result job = true := by
  by_contra hretry
  unfold rescheduleOneShot at henabled
  rw [if_neg hretry] at henabled
  cases henabled

/-! ### The spacing -/

/-- What the next run of a job keeps away from the run before it: the backoff after an error, the gap
for a cron expression, the interval for an interval; a one-shot runs again for a retry only. -/
structure Spaced (config : CronConfig) (preserveSchedule : Bool) (result : TimedCronRunOutcome) (job after : CronJob) :
    Prop where
  backoff : result.outcome.status = .error → job.schedule.isAt = false →
    ∃ count next, after.state.consecutiveErrors = some count ∧ after.state.nextRunAtMs = some next ∧
      result.endedAt + errorBackoffMs count DEFAULT_BACKOFF_SCHEDULE_MS ≤ next
  gap : result.outcome.status ≠ .error → job.schedule.isCron = true →
    ∃ next, after.state.nextRunAtMs = some next ∧ result.endedAt + 2000 ≤ next
  interval : result.outcome.status ≠ .error → preserveSchedule = false →
    ∀ everyMs anchorMs, job.schedule = .every everyMs anchorMs →
      ∃ next, after.state.nextRunAtMs = some next ∧ result.startedAt + everyMs ≤ next
  retry : job.schedule.isAt = true →
    result.outcome.status = .error ∧
    isTransientCronError result.outcome.error (resolveRetryConfig config).retryOn = true ∧
    ∃ count, after.state.consecutiveErrors = some count ∧ count ≤ (resolveRetryConfig config).maxAttempts ∧
      after.state.nextRunAtMs = some (result.endedAt + errorBackoffMs count (resolveRetryConfig config).backoffMs)

theorem rescheduleOneShot_spaced {config : CronConfig} {preserveSchedule : Bool} {result : TimedCronRunOutcome}
    {job before : CronJob} {count : Int} (hat : before.schedule.isAt = true)
    (hcount : job.state.consecutiveErrors = some count)
    (henabled : (rescheduleOneShot config result job).enabled = true) :
    Spaced config preserveSchedule result before (rescheduleOneShot config result job) := by
  have hretry := rescheduleOneShot_retries henabled
  have hafter : rescheduleOneShot config result job = {job with state := {job.state with
      nextRunAtMs := some (result.endedAt +
        errorBackoffMs (job.state.consecutiveErrors.getD 0) (resolveRetryConfig config).backoffMs)}} := by
    unfold rescheduleOneShot
    rw [if_pos hretry]
  simp only [retriesOneShot, Bool.and_eq_true, decide_eq_true_eq, hcount, Option.getD_some] at hretry
  rw [hafter, hcount]
  refine ⟨?_, ?_, ?_, ?_⟩
  · intro _ hnot
    rw [hat] at hnot
    cases hnot
  · intro hok
    exact absurd hretry.1.1 hok
  · intro hok
    exact absurd hretry.1.1 hok
  · intro _
    exact ⟨hretry.1.1, hretry.1.2, count, hcount, hretry.2, rfl⟩

theorem rescheduleRecurring_spaced {env : CronEnv} {config : CronConfig} {preserveSchedule : Bool}
    {prevLastRunAtMs : Option Int} {result : TimedCronRunOutcome} {job before : CronJob} {count : Int}
    (hat : before.schedule.isAt = false) (hschedule : job.schedule = before.schedule)
    (hcount : job.state.consecutiveErrors = some count) (hran : job.state.lastRunAtMs = some result.startedAt)
    (henabled : (rescheduleRecurring env preserveSchedule prevLastRunAtMs result job).enabled = true) :
    Spaced config preserveSchedule result before
      (rescheduleRecurring env preserveSchedule prevLastRunAtMs result job) := by
  obtain ⟨hwas, hcount', naturalNext, hnext, hnatural⟩ := rescheduleRecurring_next henabled
  refine ⟨?_, ?_, ?_, ?_⟩
  · intro hstatus _
    obtain ⟨next, hsome, hle⟩ := @rescheduledNext_backoff result job hstatus naturalNext
    rw [hcount] at hle
    exact ⟨count, next, hcount'.trans hcount, hnext.trans hsome, hle⟩
  · intro hstatus hcron
    obtain ⟨next, hsome, hle⟩ := rescheduledNext_gap hstatus (show job.schedule.isCron = true by rwa [hschedule]) naturalNext
    exact ⟨next, hnext.trans hsome, hle⟩
  · intro hstatus hplain everyMs anchorMs hevery
    subst hplain
    obtain ⟨next, hsome, hle⟩ := rescheduledNext_every hstatus hwas (hschedule.trans hevery) hran hnatural
    exact ⟨next, hnext.trans hsome, hle⟩
  · intro hone
    rw [hat] at hone
    cases hone

/-- Whatever the engine does, a job that an outcome leaves enabled keeps its distance from the run, and
the backoff grows with the errors in a row up to the end of its table. -/
theorem refire_spacing (env : CronEnv) (config : CronConfig) (preserveSchedule : Bool) (now : Int)
    (result : TimedCronRunOutcome) (job : CronJob)
    (hkept : (applyJobResult env config preserveSchedule now result job).2 = false)
    (henabled : (applyJobResult env config preserveSchedule now result job).1.enabled = true) :
    Spaced config preserveSchedule result job (applyJobResult env config preserveSchedule now result job).1 ∧
    (∀ m n : Int, m ≤ n →
      errorBackoffMs m DEFAULT_BACKOFF_SCHEDULE_MS ≤ errorBackoffMs n DEFAULT_BACKOFF_SCHEDULE_MS) ∧
    ∀ n : Int, DEFAULT_BACKOFF_SCHEDULE_MS.length ≤ n →
      errorBackoffMs n DEFAULT_BACKOFF_SCHEDULE_MS = 60 * 60000 := by
  refine ⟨?_, fun m n hmn => errorBackoffMs_mono defaultBackoff_sorted hmn, fun n hn => ?_⟩
  · obtain ⟨count, hcount⟩ := counted_consecutiveErrors env config now result job
    have hschedule := counted_schedule env config now result job
    have happlied : applyJobResult env config preserveSchedule now result job =
        if shouldDeleteAfter result (counted env config now result job) then
          (counted env config now result job, true)
        else if (counted env config now result job).schedule.isAt then
          (rescheduleOneShot config result (counted env config now result job), false)
        else
          (rescheduleRecurring env preserveSchedule job.state.lastRunAtMs result
            (counted env config now result job), false) := rfl
    rw [happlied] at hkept henabled ⊢
    by_cases hdelete : shouldDeleteAfter result (counted env config now result job) = true
    · rw [if_pos hdelete] at hkept
      cases hkept
    rw [if_neg hdelete] at henabled ⊢
    rw [hschedule] at henabled ⊢
    by_cases hat : job.schedule.isAt = true
    · rw [if_pos hat] at henabled ⊢
      exact rescheduleOneShot_spaced hat hcount henabled
    · rw [if_neg hat] at henabled ⊢
      exact rescheduleRecurring_spaced (by simpa using hat) hschedule hcount
        (counted_lastRunAtMs env config now result job) henabled
  · rw [errorBackoffMs_beyond hn]
    rfl

theorem refire_spacing_throws :
    Spaced {} false finishedRun (brokenJob 0) (applyJobResult rejectingEnv {} false 0 finishedRun (brokenJob 0)).1 :=
  (refire_spacing rejectingEnv {} false 0 finishedRun (brokenJob 0) rfl rfl).1

end OpenClaw.Cron
