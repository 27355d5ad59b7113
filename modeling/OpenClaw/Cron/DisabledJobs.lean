import OpenClaw.Cron.Outcome

/-! Jobs that are disabled when their outcome is applied, or by it.

A disabled job should have no next run. Two branches of `applyJobResult` set one all the
same: the retry of a one-shot asks nothing about whether the one-shot is enabled, and a
recurring job whose schedule throws once too often is disabled by the error and then gets
the time to fall back on. -/
namespace OpenClaw.Cron

/-- The job is not marked as running, and it has no next run while it is disabled. -/
def SettledAfterRun (job : CronJob) : Prop :=
  (job.enabled = false → job.state.nextRunAtMs = none) ∧ job.state.runningAtMs = none

/-- A disabled one-shot ended with an error that a one-shot is retried after. -/
def RetriesDisabled (config : CronConfig) (result : TimedCronRunOutcome) (job : CronJob) : Prop :=
  job.enabled = false ∧ job.schedule.isAt = true ∧ result.outcome.status = .error ∧
    isTransientCronError result.outcome.error (resolveRetryConfig config).retryOn = true ∧
    job.state.consecutiveErrors.getD 0 + 1 ≤ (resolveRetryConfig config).maxAttempts

/-- The schedule throws at the end of the run, as often now as disables the job. -/
def ThrowsTooOften (env : CronEnv) (result : TimedCronRunOutcome) (job : CronJob) : Prop :=
  job.enabled = true ∧ MAX_SCHEDULE_ERRORS ≤ job.state.scheduleErrorCount.getD 0 + 1 ∧
    ∃ err, computeJobNextRunAtMs env job result.endedAt = .error err

/-- What the record of an outcome, with its errors counted, leaves of the job. -/
structure Recorded (result : TimedCronRunOutcome) (job counted : CronJob) : Prop where
  id : counted.id = job.id
  schedule : counted.schedule = job.schedule
  enabled : counted.enabled = job.enabled
  running : counted.state.runningAtMs = none
  throws : counted.state.scheduleErrorCount = job.state.scheduleErrorCount
  errors : result.outcome.status = .error →
    counted.state.consecutiveErrors = some (job.state.consecutiveErrors.getD 0 + 1)

theorem countErrors_recorded (env : CronEnv) (config : CronConfig) (now : Int) (result : TimedCronRunOutcome)
    (job : CronJob) : Recorded result job (countErrors config now result (recordResult env result job)) := by
  unfold countErrors
  split
  · exact ⟨rfl, rfl, rfl, rfl, rfl, fun _ => rfl⟩
  · rename_i herror
    exact ⟨rfl, rfl, rfl, rfl, rfl, fun h => absurd h herror⟩

/-! ### Schedules that throw -/

section Throws
variable {env : CronEnv} {job : CronJob}

section
variable {job' : CronJob} (hid : job'.id = job.id) (hschedule : job'.schedule = job.schedule)
  (henabled : job'.enabled = job.enabled)
include hid hschedule henabled

/-- Only a cron expression throws, and what it gives depends on no run. -/
theorem computeNext_throws_congr (nowMs : Int) (err : String) :
    computeJobNextRunAtMs env job' nowMs = .error err ↔ computeJobNextRunAtMs env job nowMs = .error err := by
  unfold computeJobNextRunAtMs isJobEnabled
  rw [henabled, hschedule, hid]
  split
  · exact Iff.rfl
  · cases job.schedule with
    | «at» time atMs => simp
    | every everyMs anchorMs =>
      refine iff_of_false ?_ ?_ <;> dsimp only <;> split <;> simp
    | cron expr tz staggerMs => exact Iff.rfl

theorem nextAfterRun_throws (preserveSchedule : Bool) (prev : Option Int) (endedAt : Int)
    (err : String) : nextAfterRun env preserveSchedule prev endedAt job' = .error err ↔
      computeJobNextRunAtMs env job endedAt = .error err := by
  unfold nextAfterRun
  split
  · refine computeNext_throws_congr ?_ ?_ ?_ endedAt err
    exacts [hid, hschedule, henabled]
  · exact computeNext_throws_congr hid hschedule henabled endedAt err

end

end Throws

/-! ### The two reschedulings -/

section Rescheduled
variable {env : CronEnv} {config : CronConfig} {result : TimedCronRunOutcome} {job : CronJob}

theorem rescheduleOneShot_settled (hrunning : job.state.runningAtMs = none) :
    SettledAfterRun (rescheduleOneShot config result job) ↔
      ¬(job.enabled = false ∧ retriesOneShot config result job = true) := by
  unfold rescheduleOneShot
  split
  · rename_i hretries
    simp [SettledAfterRun, hretries, hrunning]
  · rename_i hretries
    simp [SettledAfterRun, hretries, hrunning]

/-- A recurring job ends up disabled with a next run where its schedule threw too often. -/
theorem rescheduleRecurring_settled {preserveSchedule : Bool} {prev : Option Int}
    (hrunning : job.state.runningAtMs = none) :
    SettledAfterRun (rescheduleRecurring env preserveSchedule prev result job) ↔
      ¬(job.enabled = true ∧ MAX_SCHEDULE_ERRORS ≤ job.state.scheduleErrorCount.getD 0 + 1 ∧
        ∃ err, computeJobNextRunAtMs env job result.endedAt = .error err) := by
  unfold rescheduleRecurring
  cases henabled : job.enabled with
  | false => simp [SettledAfterRun, isJobEnabled, henabled, hrunning]
  | true =>
    simp only [isJobEnabled, henabled, Bool.not_true, Bool.false_eq_true, if_false, true_and]
    cases hnext : nextAfterRun env preserveSchedule prev result.endedAt job with
    | ok naturalNext =>
      have hthrows : ¬∃ err, computeJobNextRunAtMs env job result.endedAt = .error err := by
        rintro ⟨err, h⟩
        rw [(nextAfterRun_throws rfl rfl rfl preserveSchedule prev result.endedAt err).mpr h] at hnext
        cases hnext
      simp [SettledAfterRun, hrunning, hthrows]
    | error err =>
      have hcompute := (nextAfterRun_throws rfl rfl rfl preserveSchedule prev result.endedAt err).mp hnext
      have hcron : job.schedule.isCron = true := isCron_of_error hcompute
      -- Whatever the status, the fallback sets a next run: a backoff, or the refire gap.
      have hthrows : ∃ err, computeJobNextRunAtMs env job result.endedAt = .error err := ⟨err, hcompute⟩
      by_cases herror : result.outcome.status = .error <;>
        simp [SettledAfterRun, recordScheduleComputeError, henabled, hrunning, hthrows, herror, hcron]

end Rescheduled

/-- After an outcome that keeps the job, a disabled job has no next run and no job is marked
as running, unless a disabled one-shot is retried or a schedule has thrown too often. -/
theorem applied_job_settled (env : CronEnv) (config : CronConfig) (preserveSchedule : Bool) (now : Int)
    (result : TimedCronRunOutcome) (job : CronJob)
    (hkept : (applyJobResult env config preserveSchedule now result job).2 = false) :
    SettledAfterRun (applyJobResult env config preserveSchedule now result job).1 ↔
      ¬RetriesDisabled config result job ∧ ¬ThrowsTooOften env result job := by
  have hrecorded := countErrors_recorded env config now result job
  unfold applyJobResult at hkept ⊢
  dsimp only at hkept ⊢
  generalize countErrors config now result (recordResult env result job) = counted at hkept hrecorded ⊢
  obtain ⟨hid, hschedule, henabled, hrunning, hcount, herrors⟩ := hrecorded
  rw [hschedule]
  split
  · rename_i hdelete
    simp [hdelete] at hkept
  cases hat : job.schedule.isAt with
  | true =>
    have hthrows : ¬ThrowsTooOften env result job := by
      rintro ⟨-, -, err, herr⟩
      have hcron := isCron_of_error herr
      cases hs : job.schedule <;> simp [hs, CronSchedule.isAt, CronSchedule.isCron] at hat hcron
    rw [if_pos rfl, rescheduleOneShot_settled hrunning, henabled]
    simp only [hthrows, not_false_eq_true, and_true, RetriesDisabled, hat, true_and]
    refine not_congr (and_congr_right fun _ => ?_)
    by_cases herror : result.outcome.status = .error
    · have hconsecutive : counted.state.consecutiveErrors = some (job.state.consecutiveErrors.getD 0 + 1) :=
        herrors herror
      simp [retriesOneShot, herror, hconsecutive]
    · simp [retriesOneShot, herror]
  | false =>
    have hretries : ¬RetriesDisabled config result job := fun h => by
      have hone := h.2.1
      rw [hat] at hone
      cases hone
    rw [if_neg (by simp), rescheduleRecurring_settled hrunning, henabled, hcount]
    simp only [hretries, not_false_eq_true, true_and, ThrowsTooOften]
    exact not_congr (and_congr_right fun _ => and_congr_right fun _ => exists_congr fun err =>
      computeNext_throws_congr hid hschedule henabled result.endedAt err)

/-- An engine that rejects every expression. -/
def rejectingEnv : CronEnv where
  dateParse _ := none
  timeZone := "UTC"
  nextRun _ _ _ := .error "invalid pattern"
  previousRun _ _ _ := .error "invalid pattern"
  sha256Head _ := 0
  urlProtocol _ := none
  failoverReason _ := none

/-- A job whose schedule has thrown so many times. -/
def brokenJob (scheduleErrorCount : Int) : CronJob where
  id := "digest"
  name := "digest"
  createdAtMs := 0
  updatedAtMs := 0
  schedule := .cron "61 * * * *" none none
  sessionTarget := "isolated"
  wakeMode := .now
  payload := .agentTurn {message := "digest"}
  state := {runningAtMs := some 1000, scheduleErrorCount := some scheduleErrorCount}

def finishedRun : TimedCronRunOutcome := ⟨"digest", none, {status := .ok}, 1000, 2000⟩

theorem applied_job_settled_once :
    SettledAfterRun (applyJobResult rejectingEnv {} false 2000 finishedRun (brokenJob 0)).1 := by
  refine (applied_job_settled rejectingEnv {} false 2000 finishedRun (brokenJob 0) rfl).mpr ⟨?_, ?_⟩
  · exact fun h => absurd h.1 (by decide)
  · exact fun h => absurd h.2.1 (by decide)

/-- The third error disables the job, and the fallback then sets its next run. -/
theorem disabled_job_scheduled :
    let applied := applyJobResult rejectingEnv {} false 2000 finishedRun (brokenJob 2)
    applied.2 = false ∧ applied.1.enabled = false ∧ applied.1.state.nextRunAtMs = some 4000 := by
  decide

end OpenClaw.Cron
