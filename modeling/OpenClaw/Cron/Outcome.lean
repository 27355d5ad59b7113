import OpenClaw.Cron.Jobs

/-! What an outcome does to its job, and which jobs a pass finds runnable. -/
namespace OpenClaw.Cron
open Foundation.EcmaString

/-- The outcome of an execution with its times. -/
structure TimedCronRunOutcome where
  jobId : String
  taskRunId : Option String
  outcome : CronRunOutcome
  startedAt : Int
  endedAt : Int

/-! ### Retries -/

def DEFAULT_BACKOFF_SCHEDULE_MS : List Int := [30000, 60000, 5 * 60000, 15 * 60000, 60 * 60000]

def MIN_REFIRE_GAP_MS : Int := 2000

def errorBackoffMs (consecutiveErrors : Int) (scheduleMs : List Int) : Int :=
  scheduleMs.getD (min (consecutiveErrors - 1) (scheduleMs.length - 1)).toNat 0

def DEFAULT_MAX_TRANSIENT_RETRIES : Int := 3

structure ResolvedRetryConfig where
  maxAttempts : Int
  backoffMs : List Int
  retryOn : List CronRetryOn

/-- An empty `retryOn` means every kind of transient error. -/
def resolveRetryConfig (config : CronConfig) : ResolvedRetryConfig where
  maxAttempts := config.retry.maxAttempts.getD DEFAULT_MAX_TRANSIENT_RETRIES
  backoffMs :=
    if config.retry.backoffMs ≠ [] then config.retry.backoffMs else DEFAULT_BACKOFF_SCHEDULE_MS.take 3
  retryOn := config.retry.retryOn

/-- `\w`. -/
def isWordChar (c : Char) : Bool := c.isAlphanum || c = '_'

/-- What follows a pattern of one test a character, where it matches. -/
def matchStart : List (Char → Bool) → List Char → Option (List Char)
  | [], rest => some rest
  | _ :: _, [] => none
  | test :: tests, c :: rest => if test c then matchStart tests rest else none

/-- A match of the pattern between word boundaries; `inWord` tells the character before. -/
def hasWord (pattern : List (Char → Bool)) : Bool → List Char → Bool
  | _, [] => false
  | inWord, c :: rest =>
    (!inWord && (matchStart pattern (c :: rest)).any fun after => !after.head?.any isWordChar) ||
      hasWord pattern (isWordChar c) rest

def wordPattern (word : String) : List (Char → Bool) := word.toList.map fun c => (· = c)

def includesAny (needles : List String) (text : List Char) : Bool :=
  needles.any fun needle => includesChars needle.toList text

/-- `TRANSIENT_PATTERNS`, on text in lower case. -/
def matchesTransient (text : List Char) : CronRetryOn → Bool
  | .rateLimit => includesAny ["rate_limit", "rate limit", "too many requests", "429",
      "resource has been exhausted", "cloudflare", "tokens per day"] text
  | .overloaded => hasWord (wordPattern "529") false text || hasWord (wordPattern "overloaded") false text ||
      hasWord (wordPattern "overloaded_error") false text ||
      includesAny ["high demand", "temporarily overloaded", "temporary overloaded", "capacity exceeded"] text
  | .network => includesAny ["network", "econnreset", "econnrefused", "fetch failed", "socket"] text
  | .timeout => includesAny ["timeout", "etimedout"] text
  | .serverError => hasWord [(· = '5'), Char.isDigit, Char.isDigit] false text

def allRetryOn : List CronRetryOn := [.rateLimit, .overloaded, .network, .timeout, .serverError]

def isTransientCronError (error : Option String) (retryOn : List CronRetryOn) : Bool :=
  match error with
  | none => false
  | some text =>
    let keys := if retryOn = [] then allRetryOn else retryOn
    text ≠ "" && keys.any (matchesTransient (text.toList.map lowerAscii))

/-! ### Delivery and alerts -/

/-- `resolveCronDeliveryPlan(job).requested`. -/
def deliveryRequested (job : CronJob) : Bool :=
  match job.delivery with
  | some delivery => delivery.mode = .announce || delivery.mode = .deliver
  | none => !job.payload.isSystemEvent && isIsolatedLike job.sessionTarget

def resolveDeliveryStatus (job : CronJob) (delivered : Option Bool) : CronDeliveryStatus :=
  match delivered with
  | some true => .delivered
  | some false => .notDelivered
  | none => if deliveryRequested job then .unknown else .notRequested

structure ResolvedFailureAlert where
  after : Int
  cooldownMs : Int

/-- When a failing job alerts. Where the alert goes is left out. -/
def resolveFailureAlert (config : CronConfig) (job : CronJob) : Option ResolvedFailureAlert :=
  let resolved (jobConfig : Option CronFailureAlert) : ResolvedFailureAlert :=
    { after := (((jobConfig.bind CronFailureAlert.after).or
        (config.failureAlert.bind CronFailureAlertConfig.after)).filter (1 ≤ ·)).getD 2
      cooldownMs := (((jobConfig.bind CronFailureAlert.cooldownMs).or
        (config.failureAlert.bind CronFailureAlertConfig.cooldownMs)).filter (0 ≤ ·)).getD (60 * 60000) }
  match job.failureAlert with
  | some .off => none
  | some (.on alert) => some (resolved (some alert))
  | none =>
    if config.failureAlert.bind CronFailureAlertConfig.enabled = some true then some (resolved none) else none

/-! ### Applying an outcome -/

/-- What every outcome records. -/
def recordResult (env : CronEnv) (result : TimedCronRunOutcome) (job : CronJob) : CronJob :=
  let deliveryStatus := resolveDeliveryStatus job result.outcome.delivered
  {job with
    updatedAtMs := result.endedAt
    state := {job.state with
      runningAtMs := none
      lastRunAtMs := some result.startedAt
      lastRunStatus := some result.outcome.status
      lastStatus := some result.outcome.status
      lastDurationMs := some (max 0 (result.endedAt - result.startedAt))
      lastError := result.outcome.error
      lastErrorReason :=
        if result.outcome.status = .error then result.outcome.error.bind env.failoverReason else none
      lastDelivered := result.outcome.delivered
      lastDeliveryStatus := some deliveryStatus
      lastDeliveryError :=
        if deliveryStatus = .notDelivered then result.outcome.error.filter (· ≠ "") else none}}

/-- The count of errors in a row, and the time of the last alert. `now` is the
clock an alert reads. -/
def countErrors (config : CronConfig) (now : Int) (result : TimedCronRunOutcome) (job : CronJob) : CronJob :=
  if result.outcome.status = .error then
    let consecutiveErrors := job.state.consecutiveErrors.getD 0 + 1
    let alerts := (resolveFailureAlert config job).any fun alert =>
      alert.after ≤ consecutiveErrors && job.delivery.bind CronDelivery.bestEffort ≠ some true &&
        !job.state.lastFailureAlertAtMs.any fun lastAlert => now - lastAlert < max 0 alert.cooldownMs
    {job with state := {job.state with
      consecutiveErrors := some consecutiveErrors
      lastFailureAlertAtMs := if alerts then some now else job.state.lastFailureAlertAtMs}}
  else {job with state := {job.state with consecutiveErrors := some 0, lastFailureAlertAtMs := none}}

def shouldDeleteAfter (result : TimedCronRunOutcome) (job : CronJob) : Bool :=
  job.schedule.isAt && job.deleteAfterRun = some true && result.outcome.status = .ok

/-- An error that a one-shot is tried again after. -/
def retriesOneShot (config : CronConfig) (result : TimedCronRunOutcome) (job : CronJob) : Bool :=
  let retryConfig := resolveRetryConfig config
  result.outcome.status = .error && isTransientCronError result.outcome.error retryConfig.retryOn &&
    job.state.consecutiveErrors.getD 0 ≤ retryConfig.maxAttempts

/-- A one-shot is retried after a transient error; after anything else it is disabled. -/
def rescheduleOneShot (config : CronConfig) (result : TimedCronRunOutcome) (job : CronJob) : CronJob :=
  if retriesOneShot config result job then
    {job with state := {job.state with
      nextRunAtMs := some (result.endedAt +
        errorBackoffMs (job.state.consecutiveErrors.getD 0) (resolveRetryConfig config).backoffMs)}}
  else {job with enabled := false, state := {job.state with nextRunAtMs := none}}

/-- The next run after a run that ended; a forced run of an interval is not
counted as the last one. -/
def nextAfterRun (env : CronEnv) (preserveSchedule : Bool) (prevLastRunAtMs : Option Int) (endedAt : Int)
    (job : CronJob) : Except String (Option Int) :=
  if preserveSchedule ∧ job.schedule.isEvery then
    computeJobNextRunAtMs env {job with state := {job.state with lastRunAtMs := prevLastRunAtMs}} endedAt
  else computeJobNextRunAtMs env job endedAt

/-- A recurring job: its natural next run, after an error not before the backoff,
and for a cron expression not within the refire gap. -/
def rescheduleRecurring (env : CronEnv) (preserveSchedule : Bool) (prevLastRunAtMs : Option Int)
    (result : TimedCronRunOutcome) (job : CronJob) : CronJob :=
  if !isJobEnabled job then {job with state := {job.state with nextRunAtMs := none}}
  else
    let natural := nextAfterRun env preserveSchedule prevLastRunAtMs result.endedAt job
    let backoffNext := result.endedAt +
      errorBackoffMs (job.state.consecutiveErrors.getD 1) DEFAULT_BACKOFF_SCHEDULE_MS
    let minNext := result.endedAt + MIN_REFIRE_GAP_MS
    let next (naturalNext : Option Int) : Option Int :=
      if result.outcome.status = .error then some ((naturalNext.map (max · backoffNext)).getD backoffNext)
      else if job.schedule.isCron then some ((naturalNext.map (max · minNext)).getD minNext)
      else naturalNext
    match natural with
    | .ok naturalNext => {job with state := {job.state with nextRunAtMs := next naturalNext}}
    | .error err =>
      let failed := recordScheduleComputeError err job
      {failed with state := {failed.state with nextRunAtMs := next none}}

/-- The job after an outcome, and whether it is to be deleted. -/
def applyJobResult (env : CronEnv) (config : CronConfig) (preserveSchedule : Bool) (now : Int)
    (result : TimedCronRunOutcome) (job : CronJob) : CronJob × Bool :=
  let counted := countErrors config now result (recordResult env result job)
  if shouldDeleteAfter result counted then (counted, true)
  else if counted.schedule.isAt then (rescheduleOneShot config result counted, false)
  else (rescheduleRecurring env preserveSchedule job.state.lastRunAtMs result counted, false)

/-- What the store's list becomes; an outcome whose job is gone is discarded. -/
def applyOutcomeToStoredJob (env : CronEnv) (config : CronConfig) (now : Int) (result : TimedCronRunOutcome)
    (jobs : List CronJob) : List CronJob :=
  match findJob result.jobId jobs with
  | none => jobs
  | some job =>
    let applied := applyJobResult env config false now result job
    if applied.2 then removeJob job.id jobs else modifyJob result.jobId (fun _ => applied.1) jobs

/-! ### Runnable jobs -/

/-- A recurring job whose backoff after an error is not over. -/
def isErrorBackoffPending (job : CronJob) (nowMs : Int) : Bool :=
  !job.schedule.isAt && job.state.lastStatus = some .error && job.state.lastRunAtMs.any fun lastRunAtMs =>
    nowMs < lastRunAtMs +
      errorBackoffMs (max 1 (job.state.consecutiveErrors.getD 1)) DEFAULT_BACKOFF_SCHEDULE_MS

/-- A slot of a cron expression since the last run. -/
def missedSlot (env : CronEnv) (job : CronJob) (nowMs : Int) : Bool :=
  match computeJobPreviousRunAtMs env job nowMs with
  | .ok (some previousRunAtMs) => job.state.lastRunAtMs.any (· < previousRunAtMs)
  | _ => false

structure RunnableOptions where
  skipJobIds : List String := []
  skipAtIfAlreadyRan : Bool := false
  allowCronMissedRunByLastRun : Bool := false

def isRunnableJob (env : CronEnv) (opts : RunnableOptions) (nowMs : Int) (job : CronJob) : Bool :=
  if !isJobEnabled job then false
  else if job.id ∈ opts.skipJobIds then false
  else if job.state.runningAtMs.isSome then false
  else if opts.skipAtIfAlreadyRan ∧ job.schedule.isAt ∧ job.state.lastStatus.isSome then
    -- one that has ended is run again only as a retry, which is set after the failed run
    match job.state.nextRunAtMs, job.state.lastRunAtMs with
    | some nextRun, some lastRun =>
      job.state.lastStatus = some .error && lastRun < nextRun && nextRun ≤ nowMs
    | _, _ => false
  else if job.state.nextRunAtMs.any (· ≤ nowMs) then true
  else if job.state.nextRunAtMs.any (nowMs < ·) ∧ isErrorBackoffPending job nowMs then false
  else if !opts.allowCronMissedRunByLastRun || !job.schedule.isCron then false
  else missedSlot env job nowMs

def collectRunnableJobs (env : CronEnv) (opts : RunnableOptions) (nowMs : Int) (jobs : List CronJob) :
    List CronJob :=
  jobs.filter (isRunnableJob env opts nowMs)

/-! ### Lemmas -/

@[simp] theorem recordResult_id (env : CronEnv) (result : TimedCronRunOutcome) (job : CronJob) :
    (recordResult env result job).id = job.id := rfl

@[simp] theorem countErrors_id (config : CronConfig) (now : Int) (result : TimedCronRunOutcome)
    (job : CronJob) : (countErrors config now result job).id = job.id := by
  unfold countErrors
  split <;> rfl

@[simp] theorem countErrors_schedule (config : CronConfig) (now : Int) (result : TimedCronRunOutcome)
    (job : CronJob) : (countErrors config now result job).schedule = job.schedule := by
  unfold countErrors
  split <;> rfl

@[simp] theorem rescheduleOneShot_id (config : CronConfig) (result : TimedCronRunOutcome) (job : CronJob) :
    (rescheduleOneShot config result job).id = job.id := by
  unfold rescheduleOneShot
  split <;> rfl

@[simp] theorem rescheduleRecurring_id (env : CronEnv) (preserveSchedule : Bool) (prevLastRunAtMs : Option Int)
    (result : TimedCronRunOutcome) (job : CronJob) :
    (rescheduleRecurring env preserveSchedule prevLastRunAtMs result job).id = job.id := by
  unfold rescheduleRecurring
  split
  · rfl
  · dsimp only
    split <;> rfl

@[simp] theorem applyJobResult_id (env : CronEnv) (config : CronConfig) (preserveSchedule : Bool) (now : Int)
    (result : TimedCronRunOutcome) (job : CronJob) :
    (applyJobResult env config preserveSchedule now result job).1.id = job.id := by
  unfold applyJobResult
  dsimp only
  split
  · simp
  · split <;> simp

section Stored
variable {env : CronEnv} {config : CronConfig} {now : Int} {result : TimedCronRunOutcome} {jobs : List CronJob}

/-- An outcome touches no other job. -/
theorem mem_applyOutcomeToStoredJob {job : CronJob}
    (h : job ∈ applyOutcomeToStoredJob env config now result jobs) (hid : job.id ≠ result.jobId) : job ∈ jobs := by
  unfold applyOutcomeToStoredJob at h
  split at h
  · exact h
  · rename_i found hfind
    dsimp only at h
    split at h
    · exact (mem_removeJob.mp h).1
    · rcases mem_modifyJob h with hold | ⟨old, _, _, rfl⟩
      · exact hold
      · exact absurd ((applyJobResult_id ..).trans (findJob_mem hfind).2) hid

theorem jobIds_applyOutcomeToStoredJob :
    (jobIds (applyOutcomeToStoredJob env config now result jobs)).Sublist (jobIds jobs) := by
  unfold applyOutcomeToStoredJob
  split
  · exact List.Sublist.refl _
  · rename_i found hfind
    dsimp only
    split
    · exact jobIds_removeJob_sublist
    · rw [jobIds_modifyJob fun _ _ _ => (applyJobResult_id ..).trans (findJob_mem hfind).2]

end Stored

end OpenClaw.Cron
