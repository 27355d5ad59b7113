import OpenClaw.Cron.Patch

/-! The passes over a list of jobs, and the questions a tick asks of a job.

Every pass is a walk that first normalises a job for the tick and then, if it is
enabled, may ask for its next run. The full recompute moves a time that has come;
the maintenance pass only repairs a missing one, or one a run has covered. -/
namespace OpenClaw.Cron

open List

def STUCK_RUN_MS : Int := 2 * 60 * 60 * 1000

def MAX_SCHEDULE_ERRORS : Int := 3

/-! ### Finding and changing one job -/

def findJob (id : String) (jobs : List CronJob) : Option CronJob := jobs.find? (·.id = id)

/-- A write to the object that `find` returns. -/
def modifyJob (id : String) (f : CronJob → CronJob) : List CronJob → List CronJob
  | [] => []
  | job :: rest => if job.id = id then f job :: rest else job :: modifyJob id f rest

def removeJob (id : String) (jobs : List CronJob) : List CronJob := jobs.filter (·.id ≠ id)

def jobIds (jobs : List CronJob) : List String := jobs.map CronJob.id

/-! ### Walking -/

variable (err : String) (job : CronJob) (env : CronEnv)

/-- A schedule that cannot be evaluated; the third time in a row disables the job. -/
def recordScheduleComputeError : CronJob :=
  let errorCount := job.state.scheduleErrorCount.getD 0 + 1
  {job with
    enabled := job.enabled && errorCount < MAX_SCHEDULE_ERRORS
    state := {job.state with
      scheduleErrorCount := some errorCount
      nextRunAtMs := none
      lastError := some ("schedule error: " ++ err)}}

/-- An interval counts from a whole, non-negative anchor. -/
def normalizeAnchor : CronJob :=
  match job.schedule with
  | .every everyMs anchorMs =>
    {job with schedule := .every everyMs (some (resolveEveryAnchorMs anchorMs job.createdAtMs))}
  | _ => job

/-- The marker of a run that started longer ago than a run may take. -/
def isStuck (nowMs : Int) (job : CronJob) : Bool :=
  job.state.runningAtMs.any fun runningAt => STUCK_RUN_MS < nowMs - runningAt

/-- The job, and whether the walk skips it. -/
def normalizeJobTickState (nowMs : Int) (job : CronJob) : CronJob × Bool :=
  let job := normalizeAnchor job
  if !isJobEnabled job then
    ({job with state := {job.state with nextRunAtMs := none, runningAtMs := none}}, true)
  else if isStuck nowMs job then ({job with state := {job.state with runningAtMs := none}}, false)
  else (job, false)

/-- What a walk makes of one job. -/
def walkJob (fn : CronJob → CronJob) (nowMs : Int) (job : CronJob) : CronJob :=
  let tick := normalizeJobTickState nowMs job
  if tick.2 then tick.1 else fn tick.1

def walkSchedulableJobs (fn : CronJob → CronJob) (nowMs : Int) (jobs : List CronJob) : List CronJob :=
  jobs.map (walkJob fn nowMs)

def recomputeJobNextRunAtMs (nowMs : Int) (job : CronJob) : CronJob :=
  match computeJobNextRunAtMs env job nowMs with
  | .ok newNext =>
    {job with state := {job.state with
      nextRunAtMs := newNext
      scheduleErrorCount := job.state.scheduleErrorCount.filter (· = 0)}}
  | .error err => recordScheduleComputeError err job

/-- The full recompute: a next run that is missing or has come. -/
def recomputeDueOrMissing (nowMs : Int) (job : CronJob) : CronJob :=
  if job.state.nextRunAtMs.all (· ≤ nowMs) then recomputeJobNextRunAtMs env nowMs job else job

def recomputeNextRuns (nowMs : Int) (jobs : List CronJob) : List CronJob :=
  walkSchedulableJobs (recomputeDueOrMissing env nowMs) nowMs jobs

/-- A time that has come and that a run has covered. -/
def alreadyExecutedSlot (nextRunAtMs : Int) : Bool :=
  job.state.lastRunAtMs.any (nextRunAtMs ≤ ·)

/-- The maintenance pass: a missing next run, and on request one that was executed. -/
def recomputeForMaintenance (recomputeExpired : Bool) (nowMs : Int) (job : CronJob) : CronJob :=
  match job.state.nextRunAtMs with
  | none => recomputeJobNextRunAtMs env nowMs job
  | some next =>
    if recomputeExpired ∧ next ≤ nowMs ∧ job.state.runningAtMs = none ∧ alreadyExecutedSlot job next then
      recomputeJobNextRunAtMs env nowMs job
    else job

def recomputeNextRunsForMaintenance (recomputeExpired : Bool) (nowMs : Int) (jobs : List CronJob)
    : List CronJob :=
  walkSchedulableJobs (recomputeForMaintenance env recomputeExpired nowMs) nowMs jobs

/-! ### Creation -/

def initialSchedule (schedule : CronSchedule) (now : Int) : CronSchedule :=
  match schedule with
  | .every everyMs anchorMs => .every everyMs (some (resolveEveryAnchorMs anchorMs now))
  | .cron expr tz staggerMs =>
    match normalizeCronStaggerMs staggerMs with
    | some explicit => .cron expr tz (some explicit)
    | none => .cron expr tz ((resolveDefaultCronStaggerMs expr).or staggerMs)
  | schedule => schedule

def resolveInitialCronDelivery (input : CronJobCreate) : Option CronDelivery :=
  match input.delivery with
  | some delivery => some delivery
  | none =>
    if input.sessionTarget = "isolated" ∧ !input.payload.isSystemEvent then some {mode := .announce} else none

/-- A new job, validated before it is in the store. `id` is the random id it gets. -/
def createJob (defaultAgentId : Option String) (input : CronJobCreate) (id : String) (now : Int)
    : Except String CronJob := do
  let schedule := initialSchedule input.schedule now
  let name ← normalizeRequiredName (some input.name)
  let job : CronJob :=
    { id := id
      agentId := normalizeOptionalAgentId input.agentId
      sessionKey := normalizeOptionalSessionKey input.sessionKey
      name := name
      description := normalizeOptionalText input.description
      enabled := input.enabled.getD true
      deleteAfterRun := input.deleteAfterRun.or (if schedule.isAt then some true else none)
      createdAtMs := now
      updatedAtMs := now
      schedule := schedule
      sessionTarget := input.sessionTarget
      wakeMode := input.wakeMode
      payload := input.payload
      delivery := resolveInitialCronDelivery input
      failureAlert := input.failureAlert
      state := input.state }
  assertSupportedJobSpec job
  assertMainSessionAgentId job defaultAgentId
  let job ← assertDeliverySupport env job
  let job ← assertFailureDestinationSupport env job
  let next ← computeJobNextRunAtMs env job now
  return {job with state := {job.state with nextRunAtMs := next}}

/-! ### What is due -/

inductive RunMode where
  | due | force
  deriving DecidableEq

def isJobDue (nowMs : Int) (forced : Bool) : Bool :=
  if job.state.runningAtMs.isSome then false
  else if forced then true
  else isJobEnabled job && job.state.nextRunAtMs.any (· ≤ nowMs)

/-! ### Lemmas -/

@[simp] theorem normalizeAnchor_id : (normalizeAnchor job).id = job.id := by
  unfold normalizeAnchor
  split <;> rfl

@[simp] theorem normalizeAnchor_enabled : (normalizeAnchor job).enabled = job.enabled := by
  unfold normalizeAnchor
  split <;> rfl

@[simp] theorem normalizeAnchor_state : (normalizeAnchor job).state = job.state := by
  unfold normalizeAnchor
  split <;> rfl

theorem normalizeAnchor_at {job : CronJob} (h : job.schedule.isAt = true) : normalizeAnchor job = job := by
  unfold normalizeAnchor
  split
  · rename_i hs
    rw [hs] at h
    cases h
  · rfl

/-- A recompute names the job as before and leaves the marker of its run. -/
theorem recomputeJobNextRunAtMs_keeps (nowMs : Int) (job : CronJob) :
    (recomputeJobNextRunAtMs env nowMs job).id = job.id ∧
      (recomputeJobNextRunAtMs env nowMs job).state.runningAtMs = job.state.runningAtMs := by
  unfold recomputeJobNextRunAtMs
  split <;> exact ⟨rfl, rfl⟩

/-- What a pass asks of a job may move its next run, never its id or its marker. -/
def KeepsRun (fn : CronJob → CronJob) : Prop :=
  ∀ job, (fn job).id = job.id ∧ (fn job).state.runningAtMs = job.state.runningAtMs

theorem recomputeDueOrMissing_keeps (nowMs : Int) : KeepsRun (recomputeDueOrMissing env nowMs) := by
  intro job
  unfold recomputeDueOrMissing
  split
  · exact recomputeJobNextRunAtMs_keeps env nowMs job
  · exact ⟨rfl, rfl⟩

theorem recomputeForMaintenance_keeps (recomputeExpired : Bool) (nowMs : Int) :
    KeepsRun (recomputeForMaintenance env recomputeExpired nowMs) := by
  intro job
  unfold recomputeForMaintenance
  split
  · exact recomputeJobNextRunAtMs_keeps env nowMs job
  · split
    · exact recomputeJobNextRunAtMs_keeps env nowMs job
    · exact ⟨rfl, rfl⟩

section Walk
variable {fn : CronJob → CronJob} {nowMs : Int}

theorem normalizeJobTickState_disabled {job : CronJob} (h : job.enabled = false) :
    normalizeJobTickState nowMs job =
      ({normalizeAnchor job with state := {job.state with nextRunAtMs := none, runningAtMs := none}}, true) := by
  simp [normalizeJobTickState, isJobEnabled, h]

theorem normalizeJobTickState_enabled {job : CronJob} (h : job.enabled = true) :
    normalizeJobTickState nowMs job =
      (if isStuck nowMs job then
        {normalizeAnchor job with state := {job.state with runningAtMs := none}}
      else normalizeAnchor job, false) := by
  unfold normalizeJobTickState
  simp only [isJobEnabled, normalizeAnchor_enabled, h, isStuck, normalizeAnchor_state, Bool.not_true,
    Bool.false_eq_true, if_false]
  split <;> rfl

theorem walkJob_id (h : KeepsRun fn) (job : CronJob) : (walkJob fn nowMs job).id = job.id := by
  unfold walkJob
  by_cases he : job.enabled = true
  · rw [normalizeJobTickState_enabled he]
    simp only [Bool.false_eq_true, if_false]
    split <;> simp [(h _).1]
  · rw [normalizeJobTickState_disabled (by simpa using he)]
    simp

/-- A walk leaves the marker of a job that is enabled and not stuck. -/
theorem walkJob_runningAtMs (h : KeepsRun fn) {job : CronJob} (he : job.enabled = true)
    (hs : isStuck nowMs job = false) : (walkJob fn nowMs job).state.runningAtMs = job.state.runningAtMs := by
  unfold walkJob
  rw [normalizeJobTickState_enabled he, hs]
  simp [(h _).2]

theorem jobIds_walk (h : KeepsRun fn) (jobs : List CronJob) :
    jobIds (walkSchedulableJobs fn nowMs jobs) = jobIds jobs := by
  unfold jobIds walkSchedulableJobs
  rw [map_map]
  exact map_congr_left fun job _ => walkJob_id h job

end Walk

/-! ### One job among many -/

section Modify
variable {id : String} {f : CronJob → CronJob} {jobs : List CronJob}

theorem jobIds_modifyJob (h : ∀ job ∈ jobs, job.id = id → (f job).id = id) :
    jobIds (modifyJob id f jobs) = jobIds jobs := by
  induction jobs with
  | nil => rfl
  | cons job rest ih =>
    unfold modifyJob
    split
    · rename_i hid
      simp only [jobIds, map_cons, h job mem_cons_self hid, hid]
    · have := ih fun j hj => h j (mem_cons_of_mem _ hj)
      simpa only [jobIds, map_cons, List.cons.injEq, true_and] using this

/-- A job of the changed list was in the list, or is the changed job. -/
theorem mem_modifyJob {job : CronJob} (h : job ∈ modifyJob id f jobs) :
    job ∈ jobs ∨ ∃ old ∈ jobs, old.id = id ∧ job = f old := by
  induction jobs with
  | nil => cases h
  | cons first rest ih =>
    unfold modifyJob at h
    split at h
    · rename_i hid
      rcases mem_cons.mp h with rfl | hr
      · exact .inr ⟨first, mem_cons_self, hid, rfl⟩
      · exact .inl (mem_cons_of_mem _ hr)
    · rcases mem_cons.mp h with rfl | hr
      · exact .inl mem_cons_self
      · rcases ih hr with hold | ⟨old, hold, hid, rfl⟩
        · exact .inl (mem_cons_of_mem _ hold)
        · exact .inr ⟨old, mem_cons_of_mem _ hold, hid, rfl⟩

/-- With distinct ids, the only job of the changed list that has the id is the changed one. -/
theorem mem_modifyJob_of_id (hn : (jobIds jobs).Nodup) {job : CronJob} (h : job ∈ modifyJob id f jobs)
    (hid : job.id = id) : ∃ old ∈ jobs, old.id = id ∧ job = f old := by
  induction jobs with
  | nil => cases h
  | cons first rest ih =>
    have hn' := nodup_cons.mp hn
    unfold modifyJob at h
    split at h
    · rename_i hfirst
      rcases mem_cons.mp h with rfl | hr
      · exact ⟨first, mem_cons_self, hfirst, rfl⟩
      · exact absurd (mem_map.mpr ⟨job, hr, hid.trans hfirst.symm⟩) hn'.1
    · rename_i hfirst
      rcases mem_cons.mp h with rfl | hr
      · exact absurd hid hfirst
      · obtain ⟨old, hold, ho, rfl⟩ := ih hn'.2 hr
        exact ⟨old, mem_cons_of_mem _ hold, ho, rfl⟩

theorem mem_modifyJob_of_ne {job : CronJob} (h : job ∈ jobs) (hid : job.id ≠ id) : job ∈ modifyJob id f jobs := by
  induction jobs with
  | nil => cases h
  | cons first rest ih =>
    unfold modifyJob
    rcases mem_cons.mp h with rfl | hr
    · rw [if_neg hid]
      exact mem_cons_self
    · split
      · exact mem_cons_of_mem _ hr
      · exact mem_cons_of_mem _ (ih hr)

theorem findJob_mem {job : CronJob} (h : findJob id jobs = some job) : job ∈ jobs ∧ job.id = id :=
  ⟨mem_of_find?_eq_some h, by simpa using find?_some h⟩

/-- A write of what the found job becomes is that write. -/
theorem modifyJob_found {job : CronJob} (h : findJob id jobs = some job) :
    modifyJob id (fun _ => f job) jobs = modifyJob id f jobs := by
  unfold findJob at h
  induction jobs with
  | nil => cases h
  | cons first rest ih =>
    unfold modifyJob
    by_cases hid : first.id = id
    · rw [find?_cons_of_pos (by simpa using hid)] at h
      cases h
      rw [if_pos hid, if_pos hid]
    · rw [find?_cons_of_neg (by simpa using hid)] at h
      rw [if_neg hid, if_neg hid, ih h]

theorem mem_removeJob {job : CronJob} : job ∈ removeJob id jobs ↔ job ∈ jobs ∧ job.id ≠ id := by
  simp [removeJob]

theorem jobIds_removeJob_sublist : (jobIds (removeJob id jobs)).Sublist (jobIds jobs) :=
  filter_sublist.map _

end Modify

end OpenClaw.Cron
