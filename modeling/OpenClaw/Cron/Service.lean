import OpenClaw.Tasks.Executor
import OpenClaw.Cron.Outcome

/-! The cron service as a machine.

An operation is one or more sections under the store's lock, and between them an
execution runs outside the lock. A step here is one section, or one of the
synchronous pieces outside: the start and the end of an execution. Steps of
different operations interleave freely. The jobs in memory and the jobs in the
file are separate, since a section may work on either: `persist` writes the file
and a reload drops what is in memory only. A tick keeps the job objects it took,
and a reload leaves it with objects that are no longer in the store.

Each reading of the clock is an argument of its step. Reading and writing the file
is taken to succeed. Logs, events and what an execution itself does are left out. -/
namespace OpenClaw.Cron
open Foundation
open Tasks (Registry CreateTaskParams ChannelEnv)

structure CronDeps where
  env : CronEnv
  config : CronConfig
  channels : ChannelEnv

/-! ### The task ledger -/

/-- The random ids and the clock of a new ledger record. -/
structure TaskIds where
  taskId : String
  flowId : String
  now : Int

def createCronTaskRunId (jobId : String) (startedAt : Int) : String :=
  "cron:" ++ jobId ++ ":" ++ toString startedAt

def cronTaskParams (job : CronJob) (startedAt : Int) : CreateTaskParams where
  runtime := .cron
  sourceId := some job.id
  ownerKey := some ""
  scopeKind := some .system
  childSessionKey := job.sessionKey
  agentId := job.agentId
  runId := some (createCronTaskRunId job.id startedAt)
  label := some job.name
  task := if job.name ≠ "" then job.name else job.id
  deliveryStatus := some .notApplicable
  notifyPolicy := some .silent
  startedAt := some startedAt
  lastEventAt := some startedAt

/-- The run id if the ledger took the record. -/
def tryCreateCronTaskRun (channels : ChannelEnv) (job : CronJob) (startedAt : Int) (ids : TaskIds)
    (ledger : Registry) : Option String × Registry :=
  match Tasks.createRunningTaskRun channels (cronTaskParams job startedAt) ids.taskId ids.flowId ids.now ledger with
  | (.ok _, ledger) => (some (createCronTaskRunId job.id startedAt), ledger)
  | (.error _, ledger) => (none, ledger)

def timeoutErrorMessage : String := "cron: job execution timed out"

def normalizeCronRunErrorText (error : Option String) : String :=
  match error with
  | none => "undefined"
  | some text => if text = "Error: " ++ timeoutErrorMessage then timeoutErrorMessage else text

def tryFinishCronTaskRun (result : TimedCronRunOutcome) (now : Int) (ledger : Registry) : Registry :=
  match result.taskRunId.filter (· ≠ "") with
  | none => ledger
  | some runId =>
    let terminalSummary := result.outcome.summary.map some
    if result.outcome.status = .ok ∨ result.outcome.status = .skipped then
      Tasks.completeTaskRunByRunId runId (some .cron) none result.endedAt (some result.endedAt) none
        terminalSummary none now ledger
    else
      let error := normalizeCronRunErrorText result.outcome.error
      Tasks.failTaskRunByRunId runId (some .cron) none
        (some (if error = timeoutErrorMessage then .timedOut else .failed)) result.endedAt (some result.endedAt)
        (if result.outcome.status = .error then some error else none) none terminalSummary now ledger

/-! ### Active jobs -/

def markCronJobActive (jobId : String) (active : List String) : List String :=
  if jobId = "" ∨ jobId ∈ active then active else jobId :: active

def clearCronJobActive (jobId : String) (active : List String) : List String :=
  if jobId = "" then active else active.filter (· ≠ jobId)

def isCronJobActive (jobId : String) (active : List String) : Bool := jobId ≠ "" && active.contains jobId

/-! ### The state -/

inductive ExecutionPhase where
  | waiting
  | running (taskRunId : Option String) (startedAt : Int)
  | done (taskRunId : Option String) (outcome : CronRunOutcome) (startedAt endedAt : Int)

/-- A job taken by a tick or by the startup catch-up. `job` is its object as it was
last seen; while `live`, the object is the one in the store if the store has it. -/
structure DueJob where
  id : String
  job : CronJob
  live : Bool := true
  phase : ExecutionPhase := .waiting

/-- A run that passed its preflight and has not reserved its job yet. -/
structure Preflight where
  jobId : String
  now : Int
  mode : RunMode

structure ManualRun where
  jobId : String
  taskRunId : Option String
  startedAt : Int
  executionJob : CronJob
  mode : RunMode
  ended : Option (CronRunOutcome × Int) := none

/-- Where `start` stands between its sections. -/
inductive Startup where
  | idle
  | cleared (interruptedOneShotIds : List String)
  | catchUp (candidates : List DueJob) (deferredJobIds : List String)
  | caughtUp

structure CronServiceState where
  store : Option (List CronJob) := none
  file : List CronJob
  /-- The due jobs of the tick that is running. -/
  tick : Option (List DueJob) := none
  preflights : List Preflight := []
  manualRuns : List ManualRun := []
  startup : Startup := .idle
  activeJobIds : List String := []
  ledger : Registry := {}
  /-- History: the jobs of the executions started so far. -/
  executed : List String := []

namespace DueJob

def isWaiting (due : DueJob) : Bool := match due.phase with | .waiting => true | _ => false

def isRunning (due : DueJob) : Bool := match due.phase with | .running _ _ => true | _ => false

def result? (due : DueJob) : Option TimedCronRunOutcome :=
  match due.phase with
  | .done taskRunId outcome startedAt endedAt => some ⟨due.id, taskRunId, outcome, startedAt, endedAt⟩
  | _ => none

/-- The object as it is now. -/
def current (store : Option (List CronJob)) (due : DueJob) : CronJob :=
  if due.live then (store.bind (findJob due.id)).getD due.job else due.job

def refresh (store : Option (List CronJob)) (due : DueJob) : DueJob := {due with job := due.current store}

def detach (store : Option (List CronJob)) (due : DueJob) : DueJob :=
  {due with job := due.current store, live := false}

/-- The end of an execution that runs. -/
def finish (outcome : CronRunOutcome) (endedAt : Int) (due : DueJob) : DueJob :=
  match due.phase with
  | .running taskRunId startedAt => {due with phase := .done taskRunId outcome startedAt endedAt}
  | _ => due

end DueJob

/-- The first job still waiting, with what is before and after it. -/
def nextWaiting : List DueJob → Option (List DueJob × DueJob × List DueJob)
  | [] => none
  | due :: rest =>
    if due.isWaiting then some ([], due, rest)
    else (nextWaiting rest).map fun (before, found, after) => (due :: before, found, after)

def Startup.mapCandidates (f : DueJob → DueJob) : Startup → Startup
  | .catchUp candidates deferredJobIds => .catchUp (candidates.map f) deferredJobIds
  | startup => startup

variable (deps : CronDeps) (now : Int) (s : CronServiceState)

namespace CronServiceState

def jobs : List CronJob := s.store.getD []

def mapDue (f : DueJob → DueJob) (s : CronServiceState) : CronServiceState :=
  {s with tick := s.tick.map (List.map f), startup := s.startup.mapCandidates f}

/-- The holders of job objects see them as they are, before the store lets go of some. -/
def refresh (s : CronServiceState) : CronServiceState := s.mapDue (DueJob.refresh s.store)

/-- Reads the file; nobody holds an object of the new store. -/
def load : CronServiceState :=
  {s.mapDue (DueJob.detach s.store) with store := some s.file}

/-- `ensureLoaded` with `skipRecompute`. -/
def ensureLoaded : CronServiceState := if s.store.isSome then s else s.load

def withJobs (jobs : List CronJob) (s : CronServiceState) : CronServiceState := {s with store := some jobs}

/-- `ensureLoaded`, which recomputes what it loads. -/
def ensureLoadedRecomputing (env : CronEnv) (now : Int) (s : CronServiceState) : CronServiceState :=
  if s.store.isSome then s else s.load.withJobs (recomputeNextRuns env now s.file)

def persist : CronServiceState := {s with file := s.store.getD s.file}

/-- Persists if a pass changed a job. -/
def persistIfChanged (jobs : List CronJob) (s : CronServiceState) : CronServiceState :=
  if jobs = s.jobs then s else (s.withJobs jobs).persist

def maintain (env : CronEnv) (recomputeExpired : Bool) (now : Int) (s : CronServiceState) : CronServiceState :=
  s.withJobs (recomputeNextRunsForMaintenance env recomputeExpired now s.jobs)

end CronServiceState

open CronServiceState

/-! ### Reading and editing -/

/-- `list`, `listPage` and `status`. -/
def readJobs : CronServiceState :=
  let s := s.ensureLoaded
  s.persistIfChanged (recomputeNextRunsForMaintenance deps.env false now s.jobs)

def addJob (input : CronJobCreate) (id : String) (loadNow now passNow : Int) (s : CronServiceState)
    : CronServiceState :=
  let s := s.ensureLoadedRecomputing deps.env loadNow
  match createJob deps.env deps.config.defaultAgentId input id now with
  | .error _ => s
  | .ok job => (s.withJobs (recomputeNextRuns deps.env passNow (s.jobs ++ [job]))).persist

/-- What `update` makes of the jobs in memory, and its answer. -/
def updateJobs (env : CronEnv) (defaultAgentId : Option String) (id : String) (patch : CronJobPatch) (now : Int)
    (jobs : List CronJob) : Except String CronJob × List CronJob :=
  match findJob id jobs with
  | none => (.error ("unknown cron job id: " ++ id), jobs)
  | some job =>
    match editJob env defaultAgentId patch now job with
    | .error failed => (.error failed.message, modifyJob id (fun _ => failed.job) jobs)
    | .ok next => (.ok next, modifyJob id (fun _ => next) jobs)

def updateJob (id : String) (patch : CronJobPatch) (now : Int) (s : CronServiceState) : CronServiceState :=
  let s := s.ensureLoaded
  match updateJobs deps.env deps.config.defaultAgentId id patch now s.jobs with
  | (.error _, jobs) => s.withJobs jobs
  | (.ok _, jobs) => (s.withJobs jobs).persist

def removeStoredJob (id : String) (loadNow : Int) (s : CronServiceState) : CronServiceState :=
  let s := (s.ensureLoadedRecomputing deps.env loadNow).refresh
  (s.withJobs (removeJob id s.jobs)).persist

/-! ### Manual runs -/

inductive PreflightAnswer where
  | threw (message : String)
  | alreadyRunning
  | notDue
  | runnable
  deriving DecidableEq

def preflightAnswer (id : String) (mode : RunMode) (now : Int) (jobs : List CronJob) : PreflightAnswer :=
  match findJob id jobs with
  | none => .threw ("unknown cron job id: " ++ id)
  | some job =>
    match assertSupportedJobSpec job with
    | .error message => .threw message
    | .ok () =>
      if job.state.runningAtMs.isSome then .alreadyRunning
      else if isJobDue job now (mode = .force) then .runnable
      else .notDue

/-- What a preflight does in memory; nothing is persisted. -/
def inspectManualRunPreflight (tickNow : Int) (s : CronServiceState) : CronServiceState :=
  s.ensureLoaded.maintain deps.env false tickNow

/-- The first section of a run. -/
def preflightRun (id : String) (mode : RunMode) (tickNow now : Int) (s : CronServiceState) :
    CronServiceState :=
  let s := inspectManualRunPreflight deps tickNow s
  if preflightAnswer id mode now s.jobs = .runnable then {s with preflights := s.preflights ++ [⟨id, now, mode⟩]}
  else s

/-- The job a run has reserved. -/
def reserved (job : CronJob) : CronJob :=
  {job with state := {job.state with runningAtMs := some now, lastError := none}}

/-- The second section: the run reserves its job and is recorded in the ledger. -/
def prepareManualRun (i : Nat) (ids : TaskIds) (s : CronServiceState) : Option CronServiceState :=
  s.preflights[i]?.map fun preflight =>
    let s := {s with preflights := s.preflights.eraseIdx i}
    match findJob preflight.jobId s.jobs with
    | none => s
    | some job =>
      if job.state.runningAtMs.isSome then s
      else
        let job := reserved preflight.now job
        let s := (s.withJobs (modifyJob preflight.jobId (fun _ => job) s.jobs)).persist
        let created := tryCreateCronTaskRun deps.channels job preflight.now ids s.ledger
        {s with
          ledger := created.2
          manualRuns := s.manualRuns ++ [⟨preflight.jobId, created.1, preflight.now, job, preflight.mode, none⟩]
          executed := s.executed ++ [preflight.jobId]}

def ManualRun.result (run : ManualRun) (outcome : CronRunOutcome) (endedAt : Int) : TimedCronRunOutcome :=
  ⟨run.jobId, run.taskRunId, outcome, run.startedAt, endedAt⟩

/-- The execution ends, and the ledger is told before the lock is taken. -/
def endManualRun (i : Nat) (outcome : CronRunOutcome) (endedAt ledgerNow : Int) (s : CronServiceState) :
    Option CronServiceState :=
  match s.manualRuns[i]? with
  | some run =>
    if run.ended.isSome then none
    else
      some {s with
        manualRuns := s.manualRuns.set i {run with ended := some (outcome, endedAt)}
        ledger := tryFinishCronTaskRun (run.result outcome endedAt) ledgerNow s.ledger}
  | none => none

/-- The snapshot a run takes of its job, put over the reloaded job; none when the
job was deleted. -/
def mergeManualRunSnapshotAfterReload (jobId : String) (snapshot : Option CronJob) (jobs : List CronJob) :
    List CronJob :=
  match snapshot with
  | none => removeJob jobId jobs
  | some job =>
    modifyJob jobId (fun reloaded =>
      {reloaded with enabled := job.enabled, updatedAtMs := job.updatedAtMs, state := job.state}) jobs

/-- The jobs after a manual run of `job` ended, from those in the file. -/
def manualRunJobs (mode : RunMode) (alertNow passNow : Int) (result : TimedCronRunOutcome) (job : CronJob)
    (file : List CronJob) : List CronJob :=
  let applied := applyJobResult deps.env deps.config (mode = .force) alertNow result job
  recomputeNextRunsForMaintenance deps.env true passNow
    (mergeManualRunSnapshotAfterReload result.jobId (if applied.2 then none else some applied.1) file)

/-- The last section of a run: the outcome is applied and the store reloaded. -/
def finishPreparedManualRun (i : Nat) (alertNow passNow : Int) (s : CronServiceState) :
    Option CronServiceState :=
  match s.manualRuns[i]? with
  | some run =>
    run.ended.map fun (outcome, endedAt) =>
      let s := {s.ensureLoaded with manualRuns := s.manualRuns.eraseIdx i}
      match findJob run.jobId s.jobs with
      | none => s
      | some job =>
        (s.load.withJobs (manualRunJobs deps run.mode alertNow passNow (run.result outcome endedAt) job
          s.file)).persist
  | none => none

/-! ### Timer ticks -/

def resolveRunConcurrency (config : CronConfig) : Int := max 1 (config.maxConcurrentRuns.getD 1)

/-- The first section of `onTimer`. -/
def beginTick (dueCheckNow now : Int) (s : CronServiceState) : Option CronServiceState :=
  if s.tick.isSome ∨ !deps.config.cronEnabled then none
  else
    let s := s.load
    let due := collectRunnableJobs deps.env {} dueCheckNow s.jobs
    if due = [] then
      some {s.persistIfChanged (recomputeNextRunsForMaintenance deps.env true dueCheckNow s.jobs) with
        tick := some []}
    else
      let jobs := s.jobs.map fun job =>
        if isRunnableJob deps.env {} dueCheckNow job then reserved now job else job
      some {(s.withJobs jobs).persist with
        tick := some (due.map fun job => {id := job.id, job := reserved now job})}

def setRunningAtMs (at' : Option Int) (job : CronJob) : CronJob :=
  {job with state := {job.state with runningAtMs := at'}}

/-- The store after a write to the marker of a tick's job object. -/
def DueJob.markStarted (startedAt : Int) (store : Option (List CronJob)) (due : DueJob) : Option (List CronJob) :=
  if due.live then store.map (modifyJob due.id (setRunningAtMs (some startedAt))) else store

/-- The start of the next execution of a tick, by `runDueJob`. -/
def startDueJob (startedAt : Int) (ids : TaskIds) (s : CronServiceState) : Option CronServiceState :=
  s.tick.bind fun dueJobs =>
    if ((dueJobs.countP DueJob.isRunning : Nat) : Int) < resolveRunConcurrency deps.config then
      (nextWaiting dueJobs).map fun (before, due, after) =>
        let job := setRunningAtMs (some startedAt) (due.current s.store)
        let created := tryCreateCronTaskRun deps.channels job startedAt ids s.ledger
        {s with
          store := due.markStarted startedAt s.store
          tick := some (before ++ {due with job := job, phase := .running created.1 startedAt} :: after)
          activeJobIds := markCronJobActive due.id s.activeJobIds
          ledger := created.2
          executed := s.executed ++ [due.id]}
    else none

def endDueJob (i : Nat) (outcome : CronRunOutcome) (endedAt : Int) (s : CronServiceState) :
    Option CronServiceState :=
  s.tick.bind fun dueJobs =>
    match dueJobs[i]? with
    | some due =>
      if due.isRunning then some {s with tick := some (dueJobs.set i (due.finish outcome endedAt))} else none
    | none => none

/-- One outcome after another: the active set, the ledger, the store. `alertNow` and
`ledgerNow` are the clocks read for each job. -/
def applyOutcomes (alertNow ledgerNow : String → Int) (results : List TimedCronRunOutcome)
    (s : CronServiceState) : CronServiceState :=
  {s with
    activeJobIds := results.foldl (fun active result => clearCronJobActive result.jobId active) s.activeJobIds
    ledger := results.foldl (fun ledger result =>
      tryFinishCronTaskRun result (ledgerNow result.jobId) ledger) s.ledger
    store := s.store.map fun jobs => results.foldl (fun jobs result =>
      applyOutcomeToStoredJob deps.env deps.config (alertNow result.jobId) result jobs) jobs}

/-- The last section of `onTimer`, once every due job has an outcome. -/
def endTick (alertNow ledgerNow : String → Int) (passNow : Int) (s : CronServiceState) :
    Option CronServiceState :=
  s.tick.bind fun dueJobs =>
    match dueJobs.mapM DueJob.result? with
    | none => none
    | some [] => some {s with tick := none}
    | some results =>
      some ((applyOutcomes deps alertNow ledgerNow results {s with tick := none}.load).maintain deps.env false
        passNow).persist

/-! ### Startup -/

/-- The first section of `start`. -/
def clearMarkers : Option CronServiceState :=
  match s.startup with
  | .idle =>
    if !deps.config.cronEnabled then none
    else
      let s := s.ensureLoaded
      let marked := s.jobs.filter fun job => job.state.runningAtMs.isSome
      let interrupted := (marked.filter fun job => job.schedule.isAt).map CronJob.id
      let cleared := s.withJobs (s.jobs.map (setRunningAtMs none))
      some {(if marked = [] then s else cleared.persist) with startup := .cleared interrupted}
  | _ => none

def sortByNextRun (jobs : List CronJob) : List CronJob :=
  jobs.insertionSort fun a b => a.state.nextRunAtMs.getD 0 ≤ b.state.nextRunAtMs.getD 0

def maxImmediate (config : CronConfig) : Nat := (config.maxMissedJobsPerRestart.getD 5).toNat

def planStartupCatchup : Option CronServiceState :=
  match s.startup with
  | .cleared interrupted =>
    let s := s.ensureLoaded
    let missed := collectRunnableJobs deps.env
      {skipJobIds := interrupted, skipAtIfAlreadyRan := true, allowCronMissedRunByLastRun := true} now s.jobs
    if missed = [] then some {s with startup := .caughtUp}
    else
      let sorted := sortByNextRun missed
      let candidates := sorted.take (maxImmediate deps.config)
      let deferred := sorted.drop (maxImmediate deps.config)
      let jobs := s.jobs.map fun job => if job ∈ candidates then reserved now job else job
      some {(s.withJobs jobs).persist with
        startup := .catchUp (candidates.map fun job => {id := job.id, job := reserved now job})
          (deferred.map CronJob.id)}
  | _ => none

/-- `runStartupCatchupCandidate`: one after the other, and nothing marks the job active. -/
def startCandidate (startedAt : Int) (ids : TaskIds) (s : CronServiceState) : Option CronServiceState :=
  match s.startup with
  | .catchUp candidates deferredJobIds =>
    if candidates.any DueJob.isRunning then none
    else
      (nextWaiting candidates).map fun (before, due, after) =>
        let job := due.current s.store
        let created := tryCreateCronTaskRun deps.channels job startedAt ids s.ledger
        {s with
          startup := .catchUp (before ++ {due with job := job, phase := .running created.1 startedAt} :: after)
            deferredJobIds
          ledger := created.2
          executed := s.executed ++ [due.id]}
  | _ => none

def endCandidate (outcome : CronRunOutcome) (endedAt : Int) (s : CronServiceState) : Option CronServiceState :=
  match s.startup with
  | .catchUp candidates deferredJobIds =>
    if candidates.any DueJob.isRunning then
      some {s with startup := .catchUp (candidates.map (DueJob.finish outcome endedAt)) deferredJobIds}
    else none
  | _ => none

/-- The missed jobs beyond the limit, each a stagger later than the one before. -/
def deferMissedJobs (staggerMs baseNow : Int) : List String → Int → List CronJob → List CronJob
  | [], _, jobs => jobs
  | id :: rest, offset, jobs =>
    if (findJob id jobs).any isJobEnabled then
      deferMissedJobs staggerMs baseNow rest (offset + staggerMs) (modifyJob id (fun job =>
        {job with state := {job.state with nextRunAtMs := some (baseNow + offset)}}) jobs)
    else deferMissedJobs staggerMs baseNow rest offset jobs

def resolveMissedJobStagger (config : CronConfig) : Int := max 0 (config.missedJobStaggerMs.getD 5000)

def applyStartupCatchupOutcomes (alertNow ledgerNow : String → Int) (baseNow passNow : Int)
    (s : CronServiceState) : Option CronServiceState :=
  match s.startup with
  | .catchUp candidates deferredJobIds =>
    match candidates.mapM DueJob.result? with
    | none => none
    | some results =>
      let staggerMs := resolveMissedJobStagger deps.config
      let s := applyOutcomes deps alertNow ledgerNow results {s.ensureLoaded.refresh with startup := .caughtUp}
      some ((s.withJobs (deferMissedJobs staggerMs baseNow deferredJobIds staggerMs s.jobs)).maintain deps.env
        false passNow).persist
  | _ => none

/-- The last section of `start`. -/
def finishStart : Option CronServiceState :=
  match s.startup with
  | .caughtUp =>
    let s := s.ensureLoaded
    some {s.persistIfChanged (recomputeNextRuns deps.env now s.jobs) with startup := .idle}
  | _ => none

/-! ### The machine -/

inductive CronEvent where
  | read (now : Int)
  | add (input : CronJobCreate) (id : String) (loadNow now passNow : Int)
  | update (id : String) (patch : CronJobPatch) (now : Int)
  | remove (id : String) (loadNow : Int)
  /-- The question `enqueueRun` asks before it queues a run. -/
  | inspectRun (tickNow : Int)
  | preflightRun (id : String) (mode : RunMode) (tickNow now : Int)
  | prepareRun (i : Nat) (ids : TaskIds)
  | endRun (i : Nat) (outcome : CronRunOutcome) (endedAt ledgerNow : Int)
  | finishRun (i : Nat) (alertNow passNow : Int)
  | beginTick (dueCheckNow now : Int)
  | startDueJob (startedAt : Int) (ids : TaskIds)
  | endDueJob (i : Nat) (outcome : CronRunOutcome) (endedAt : Int)
  | endTick (alertNow ledgerNow : String → Int) (passNow : Int)
  | clearMarkers
  | planCatchup (now : Int)
  | startCandidate (startedAt : Int) (ids : TaskIds)
  | endCandidate (outcome : CronRunOutcome) (endedAt : Int)
  | applyCatchup (alertNow ledgerNow : String → Int) (baseNow passNow : Int)
  | finishStart (now : Int)

/-- The ids in use, none of which a random id is. -/
def CronServiceState.knownIds : List String :=
  jobIds s.jobs ++ jobIds s.file ++ (s.tick.getD []).map DueJob.id ++ s.preflights.map Preflight.jobId ++
    s.manualRuns.map ManualRun.jobId

def cronStep : Machine CronServiceState CronEvent
  | .read now, s => some (readJobs deps now s)
  | .add input id loadNow now passNow, s =>
    if id ∈ s.knownIds then none else some (addJob deps input id loadNow now passNow s)
  | .update id patch now, s => some (updateJob deps id patch now s)
  | .remove id loadNow, s => some (removeStoredJob deps id loadNow s)
  | .inspectRun tickNow, s => some (inspectManualRunPreflight deps tickNow s)
  | .preflightRun id mode tickNow now, s => some (OpenClaw.Cron.preflightRun deps id mode tickNow now s)
  | .prepareRun i ids, s => prepareManualRun deps i ids s
  | .endRun i outcome endedAt ledgerNow, s => endManualRun i outcome endedAt ledgerNow s
  | .finishRun i alertNow passNow, s => finishPreparedManualRun deps i alertNow passNow s
  | .beginTick dueCheckNow now, s => OpenClaw.Cron.beginTick deps dueCheckNow now s
  | .startDueJob startedAt ids, s => OpenClaw.Cron.startDueJob deps startedAt ids s
  | .endDueJob i outcome endedAt, s => OpenClaw.Cron.endDueJob i outcome endedAt s
  | .endTick alertNow ledgerNow passNow, s => OpenClaw.Cron.endTick deps alertNow ledgerNow passNow s
  | .clearMarkers, s => OpenClaw.Cron.clearMarkers deps s
  | .planCatchup now, s => planStartupCatchup deps now s
  | .startCandidate startedAt ids, s => OpenClaw.Cron.startCandidate deps startedAt ids s
  | .endCandidate outcome endedAt, s => OpenClaw.Cron.endCandidate outcome endedAt s
  | .applyCatchup alertNow ledgerNow baseNow passNow, s =>
    applyStartupCatchupOutcomes deps alertNow ledgerNow baseNow passNow s
  | .finishStart now, s => OpenClaw.Cron.finishStart deps now s

/-- The service as it is created over a file. -/
def CronServiceState.created (file : List CronJob) : CronServiceState := {file := file}

end OpenClaw.Cron
