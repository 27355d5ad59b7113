import OpenClaw.Cron.Exclusion
import OpenClaw.Cron.RunRecords

/-! Cron runs that the task sweep takes for lost.

A task of the cron runtime counts as backed while its job is in the active set, and
only the timer puts a job there. A manual run and the catch-up after a start record
their runs without it, and the end of the catch-up takes out the jobs it ran,
whoever put them in. So a run is safe while its record is young, and as long as an
execution of its job by the timer is in flight that no end of a catch-up overtook;
away from that a sweep marks it lost and an inspection shows it lost. -/
namespace OpenClaw.Cron
open Foundation Foundation.EcmaString CronServiceState List Option
open Tasks (Registry TaskRecord MaintenanceEnv Write TaskDeliveryState Flows SweepAction)

/-! ### Runs in flight -/

/-- A recorded run whose outcome has not been applied. -/
structure LiveRun where
  jobId : String
  taskRunId : String
  deriving DecidableEq

def DueJob.liveRun? (due : DueJob) : Option LiveRun :=
  match due.phase with
  | .waiting => none
  | .running taskRunId _ => taskRunId.map (⟨due.id, ·⟩)
  | .done taskRunId _ _ _ => taskRunId.map (⟨due.id, ·⟩)

def DueJob.startedId? (due : DueJob) : Option String := if due.isWaiting then none else some due.id

def Startup.candidates : Startup → List DueJob
  | .catchUp candidates _ => candidates
  | _ => []

/-- The jobs that the tick and the catch-up have taken. -/
def takenJobs (s : CronServiceState) : List DueJob := s.tick.getD [] ++ s.startup.candidates

def liveRuns (s : CronServiceState) : List LiveRun :=
  (takenJobs s).filterMap DueJob.liveRun? ++
    s.manualRuns.filterMap fun run => run.taskRunId.map (⟨run.jobId, ·⟩)

/-- The jobs of the timer's executions in flight. -/
def startedIds (s : CronServiceState) : List String := (s.tick.getD []).filterMap DueJob.startedId?

/-- The task is the record of the run. -/
def IsTaskOf (run : LiveRun) (task : TaskRecord) : Prop :=
  isCronRun task = true ∧ trimmed? task.runId = some run.taskRunId

/-! ### The service and the sweeps -/

structure LedgerState where
  service : CronServiceState
  /-- History: the jobs that the end of a catch-up took out of the active set since the
  timer last started them. -/
  overtaken : List String := []

namespace LedgerState

def ledger (s : LedgerState) : Registry := s.service.ledger

def withLedger (ledger : Registry) (s : LedgerState) : LedgerState :=
  {s with service := {s.service with ledger := ledger}}

/-- What maintenance reads, with the active set of the process. -/
def maintenance (env : MaintenanceEnv) (s : LedgerState) : MaintenanceEnv :=
  {env with isCronJobActive := fun jobId => isCronJobActive jobId s.service.activeJobIds}

end LedgerState

inductive LedgerEvent where
  | cron (e : CronEvent)
  /-- What a sweep does to one task of its list. -/
  | sweep (env : MaintenanceEnv) (taskId : String) (now clock : Int)
  /-- A view of the tasks, which changes nothing. -/
  | inspect (env : MaintenanceEnv) (now : Int)
  /-- A write of another part of the process. -/
  | other (w : Write)
  /-- A new process, on what the stores hold. -/
  | restart (tasks : InsertionMap String TaskRecord) (deliveryStates : InsertionMap String TaskDeliveryState)
      (flows : Flows)

/-- The random id that a new record gets. -/
def drawnTaskId : CronEvent → Option String
  | .prepareRun _ ids => some ids.taskId
  | .startDueJob _ ids => some ids.taskId
  | .startCandidate _ ids => some ids.taskId
  | _ => none

def overtakenAfter (e : CronEvent) (s : LedgerState) : List String :=
  match e with
  | .startDueJob _ _ =>
    match s.service.tick.bind nextWaiting with
    | some (_, due, _) => s.overtaken.filter (· ≠ due.id)
    | none => s.overtaken
  | .applyCatchup _ _ _ _ => s.overtaken ++ s.service.startup.candidates.map DueJob.id
  | _ => s.overtaken

def ledgerStep (deps : CronDeps) : Machine LedgerState LedgerEvent
  | .cron e, s =>
    if (drawnTaskId e).any fun taskId => (s.ledger.tasks.get? taskId).isSome then none
    else (cronStep deps e s.service).map fun service => ⟨service, overtakenAfter e s⟩
  | .sweep env taskId now clock, s =>
    some (s.withLedger (Tasks.sweepTask (s.maintenance env) taskId now clock s.ledger))
  | .inspect _ _, s => some s
  | .other w, s =>
    if w.enabled s.ledger && sparesCronRuns w s.ledger then some (s.withLedger (w.apply deps.channels s.ledger))
    else none
  | .restart tasks deliveryStates flows, s =>
    if tasks.entries.Perm s.ledger.tasks.entries then
      some ⟨{CronServiceState.created s.service.file with
        ledger := Tasks.restoreTaskRegistry tasks deliveryStates flows}, []⟩
    else none

/-- No task of a run in flight is marked lost, or shown so. -/
def KeepsLive : LedgerEvent → LedgerState → Prop
  | .sweep env taskId now _, s => ∀ run ∈ liveRuns s.service, ∀ task, IsTaskOf run task →
      ∀ marked, Tasks.sweepAction (s.maintenance env) taskId now s.ledger = .markLost marked → marked ≠ task
  | .inspect env now, s => ∀ run ∈ liveRuns s.service, ∀ id task, s.ledger.tasks.get? id = some task →
      IsTaskOf run task → Tasks.reconcileTask (s.maintenance env) now task = task
  | _, _ => True

/-- An execution of the job by the timer is in flight, and no end of a catch-up overtook it. -/
def HeldByTimer (s : LedgerState) (jobId : String) : Prop :=
  ∃ id ∈ startedIds s.service, trimmed jobId = some id ∧ id ∉ s.overtaken

/-- The record still has its time of grace, or the timer runs its job. -/
def Covered (s : LedgerState) (run : LiveRun) (task : TaskRecord) (now : Int) : Prop :=
  Tasks.isActiveTask task = true → Tasks.hasLostGraceExpired task now = false ∨ HeldByTimer s run.jobId

/-- The records of the runs in flight are covered whenever they are looked at. -/
def CoversLive : LedgerEvent → LedgerState → Prop
  | .sweep _ taskId now _, s => ∀ run ∈ liveRuns s.service, ∀ task, IsTaskOf run task →
      Tasks.getTaskById s.ledger taskId = some task → Covered s run task now
  | .inspect _ now, s => ∀ run ∈ liveRuns s.service, ∀ id task, s.ledger.tasks.get? id = some task →
      IsTaskOf run task → Covered s run task now
  | _, _ => True

/-! ### What the service keeps -/

/-- The job was taken under its id, and its run is recorded under its run id. -/
structure RecordedRun (due : DueJob) : Prop where
  job : due.job.id = due.id
  run : ∀ run, due.liveRun? = some run →
    run.jobId = due.id ∧ ∃ startedAt, run.taskRunId = createCronTaskRunId due.id startedAt

variable {due : DueJob} {ledger : Registry} {i : Nat} {ids : TaskIds} {outcome : CronRunOutcome}
  {endedAt passNow now : Int} {dueJobs : List DueJob} {active : List String} {alertNow ledgerNow : String → Int}

theorem current_id {store : Option (List CronJob)} (h : due.job.id = due.id) :
    (due.current store).id = due.id := by
  unfold DueJob.current
  split
  · cases hfind : store.bind (findJob due.id) with
    | none => exact h
    | some job =>
      obtain ⟨jobs, -, hjob⟩ := bind_eq_some_iff.mp hfind
      exact (findJob_mem hjob).2
  · exact h

/-- The run of `d` is that of `due`, and so are its id and its job's id. -/
structure SameRun (due d : DueJob) : Prop where
  id : d.id = due.id
  job : due.job.id = due.id → d.job.id = due.id
  run : d.liveRun? = due.liveRun?
  started : d.startedId? = due.startedId?

theorem sameRun_refresh (store : Option (List CronJob)) (due : DueJob) : SameRun due (due.refresh store) :=
  ⟨rfl, current_id, rfl, rfl⟩

theorem sameRun_detach (store : Option (List CronJob)) (due : DueJob) : SameRun due (due.detach store) :=
  ⟨rfl, current_id, rfl, rfl⟩

theorem sameRun_finish (outcome : CronRunOutcome) (endedAt : Int) (due : DueJob) :
    SameRun due (due.finish outcome endedAt) := by
  unfold DueJob.finish
  split
  · rename_i taskRunId startedAt hphase
    refine ⟨rfl, fun h => h, ?_, ?_⟩
    · simp only [DueJob.liveRun?, hphase]
    · simp only [DueJob.startedId?, DueJob.isWaiting, hphase, Bool.false_eq_true, if_false]
  · exact ⟨rfl, fun h => h, rfl, rfl⟩

theorem SameRun.recorded {d : DueJob} (h : SameRun due d) (hr : RecordedRun due) : RecordedRun d := by
  refine ⟨(h.job hr.job).trans h.id.symm, fun run hrun => ?_⟩
  rw [h.run] at hrun
  rw [h.id]
  exact hr.run run hrun

/-- The active set holds the jobs the timer runs, but for those a catch-up has
overtaken, and each run is recorded under its run id. -/
structure Tracked (overtaken : List String) (s : CronServiceState) : Prop where
  ledger : RunLedger s.ledger
  taken : ∀ due ∈ takenJobs s, RecordedRun due
  manual : ∀ run ∈ s.manualRuns, ∀ runId, run.taskRunId = some runId →
    ∃ startedAt, runId = createCronTaskRunId run.jobId startedAt
  active : ∀ id, id ∈ s.activeJobIds ↔ id ≠ "" ∧ id ∈ startedIds s ∧ id ∉ overtaken

namespace Tracked
variable {overtaken : List String} {deps : CronDeps} {s t : CronServiceState}

theorem same (h : Tracked overtaken s) (htick : t.tick = s.tick) (hstartup : t.startup = s.startup)
    (hmanual : t.manualRuns = s.manualRuns) (hactive : t.activeJobIds = s.activeJobIds) (hledger : t.ledger = s.ledger) :
    Tracked overtaken t := by
  refine ⟨hledger ▸ h.ledger, ?_, hmanual ▸ h.manual, ?_⟩
  · rw [takenJobs, htick, hstartup]
    exact h.taken
  · rw [startedIds, htick, hactive]
    exact h.active

theorem withLedger (h : Tracked overtaken s) (hl : RunLedger ledger) :
    Tracked overtaken {s with ledger := ledger} :=
  ⟨hl, h.taken, h.manual, h.active⟩

/-- Another tick, startup and manual runs with the same executions of the timer. -/
theorem retaken (h : Tracked overtaken s) (htaken : ∀ due ∈ takenJobs t, RecordedRun due)
    (hstarted : startedIds t = startedIds s)
    (hmanual : ∀ run ∈ t.manualRuns, ∀ runId, run.taskRunId = some runId →
      ∃ startedAt, runId = createCronTaskRunId run.jobId startedAt)
    (hactive : t.activeJobIds = s.activeJobIds) (hledger : RunLedger t.ledger) : Tracked overtaken t := by
  refine ⟨hledger, htaken, hmanual, ?_⟩
  rw [hstarted, hactive]
  exact h.active

theorem candidates_mapCandidates (f : DueJob → DueJob) (startup : Startup) :
    (startup.mapCandidates f).candidates = startup.candidates.map f := by
  cases startup <;> rfl

theorem takenJobs_mapDue (f : DueJob → DueJob) (s : CronServiceState) :
    takenJobs (s.mapDue f) = (takenJobs s).map f := by
  unfold takenJobs CronServiceState.mapDue
  rw [map_append, candidates_mapCandidates]
  cases s.tick <;> rfl

theorem filterMap_congr_map {α β : Type} {g : α → Option β} {f : α → α} (hf : ∀ a, g (f a) = g a) (l : List α) :
    (l.map f).filterMap g = l.filterMap g := by
  rw [filterMap_map]
  exact filterMap_congr fun a _ => hf a

section
variable (h : Tracked overtaken s)
include h

theorem mapDue {f : DueJob → DueJob} (hf : ∀ due, SameRun due (f due)) :
    Tracked overtaken (s.mapDue f) := by
  refine h.retaken (fun due hdue => ?_) ?_ h.manual rfl h.ledger
  · rw [takenJobs_mapDue] at hdue
    obtain ⟨old, hold, rfl⟩ := List.mem_map.mp hdue
    exact (hf old).recorded (h.taken old hold)
  · unfold startedIds CronServiceState.mapDue
    cases s.tick with
    | none => rfl
    | some dueJobs => exact filterMap_congr_map (fun due => (hf due).started) dueJobs

theorem refresh : Tracked overtaken s.refresh := h.mapDue (sameRun_refresh s.store)

theorem load : Tracked overtaken s.load :=
  (h.mapDue (sameRun_detach s.store)).same rfl rfl rfl rfl rfl

theorem ensureLoaded : Tracked overtaken s.ensureLoaded := by
  unfold CronServiceState.ensureLoaded
  split
  · exact h
  · exact h.load

theorem withJobs (jobs : List CronJob) : Tracked overtaken (s.withJobs jobs) :=
  h.same rfl rfl rfl rfl rfl

theorem persist : Tracked overtaken s.persist := h.same rfl rfl rfl rfl rfl

theorem persistIfChanged (jobs : List CronJob) :
    Tracked overtaken (s.persistIfChanged jobs) := by
  unfold CronServiceState.persistIfChanged
  split
  · exact h
  · exact (h.withJobs jobs).persist

theorem ensureLoadedRecomputing (env : CronEnv) (now : Int) :
    Tracked overtaken (s.ensureLoadedRecomputing env now) := by
  unfold CronServiceState.ensureLoadedRecomputing
  split
  · exact h
  · exact h.load.withJobs _

end

/-! Manual runs. -/

theorem prepareManualRun (h : Tracked overtaken s) (hfresh : s.ledger.tasks.get? ids.taskId = none)
    (ht : prepareManualRun deps i ids s = some t) :
    Tracked overtaken t := by
  obtain ⟨preflight, -, rfl⟩ := map_eq_some_iff.mp ht
  dsimp only
  split
  · exact h.same rfl rfl rfl rfl rfl
  · rename_i job hfind
    split
    · exact h.same rfl rfl rfl rfl rfl
    · obtain ⟨ledger, hcreate, hledger⟩ :=
        h.ledger.create deps.channels (reserved preflight.now job) preflight.now hfresh
      have hid : (reserved preflight.now job).id = preflight.jobId := (findJob_mem hfind).2
      rw [hid] at hcreate
      simp only [CronServiceState.persist, CronServiceState.withJobs, hcreate]
      refine h.retaken h.taken rfl (fun run hrun runId hrunId => ?_) rfl hledger
      rcases mem_append.mp hrun with hold | hnew
      · exact h.manual run hold runId hrunId
      · obtain rfl := mem_singleton.mp hnew
        exact ⟨preflight.now, (Option.some.inj hrunId).symm⟩

theorem endManualRun (h : Tracked overtaken s) {ledgerNow : Int}
    (ht : endManualRun i outcome endedAt ledgerNow s = some t) : Tracked overtaken t := by
  unfold OpenClaw.Cron.endManualRun at ht
  split at ht
  · rename_i run hrun
    split at ht
    · cases ht
    · cases ht
      refine h.retaken h.taken rfl (fun other ho runId hid => ?_) rfl (h.ledger.finish _ _)
      rcases mem_or_eq_of_mem_set ho with hold | rfl
      · exact h.manual other hold runId hid
      · exact h.manual run (mem_of_getElem? hrun) runId hid
  · cases ht

theorem finishPreparedManualRun (h : Tracked overtaken s) {alertNow : Int}
    (ht : finishPreparedManualRun deps i alertNow passNow s = some t) : Tracked overtaken t := by
  have hrest (u : CronServiceState) (hu : Tracked overtaken u) (hmanual : u.manualRuns = s.manualRuns) :
      Tracked overtaken {u with manualRuns := s.manualRuns.eraseIdx i} := by
    refine hu.retaken hu.taken rfl (fun run hrun => ?_) rfl hu.ledger
    exact h.manual run ((eraseIdx_sublist _ _).mem hrun)
  unfold OpenClaw.Cron.finishPreparedManualRun at ht
  split at ht
  · obtain ⟨⟨outcome, endedAt⟩, -, rfl⟩ := map_eq_some_iff.mp ht
    have hensured : s.ensureLoaded.manualRuns = s.manualRuns := by
      unfold CronServiceState.ensureLoaded
      split <;> rfl
    have hu := hrest s.ensureLoaded h.ensureLoaded hensured
    dsimp only
    split
    · exact hu
    · exact (hu.load.withJobs _).persist
  · cases ht

/-! Ticks. -/

theorem beginTick (h : Tracked overtaken s) {dueCheckNow : Int} (ht : beginTick deps dueCheckNow now s = some t) :
    Tracked overtaken t := by
  unfold OpenClaw.Cron.beginTick at ht
  split at ht
  · cases ht
  · rename_i hnone
    have htick : s.load.tick = none := by
      rw [not_or, not_isSome_iff_eq_none] at hnone
      simp [CronServiceState.load, CronServiceState.mapDue, hnone.1]
    have hload := h.load
    have hnew (u : CronServiceState) (hu : Tracked overtaken u) (hnone : u.tick = none) (dueJobs : List DueJob)
        (hdue : ∀ due ∈ dueJobs, RecordedRun due ∧ due.startedId? = none) :
        Tracked overtaken {u with tick := some dueJobs} := by
      refine hu.retaken (fun due hd => ?_) ?_ hu.manual rfl hu.ledger
      · rcases mem_append.mp hd with hd | hd
        · exact (hdue due hd).1
        · exact hu.taken due (mem_append_right _ hd)
      · show dueJobs.filterMap DueJob.startedId? = (u.tick.getD []).filterMap DueJob.startedId?
        rw [hnone, filterMap_eq_nil_iff.mpr fun due hd => (hdue due hd).2]
        rfl
    dsimp only at ht
    split at ht
    · generalize recomputeNextRunsForMaintenance deps.env true dueCheckNow s.load.jobs = jobs at ht
      have hsame : (s.load.persistIfChanged jobs).tick = none := by
        unfold CronServiceState.persistIfChanged
        split
        · exact htick
        · exact htick
      cases ht
      exact hnew _ (hload.persistIfChanged jobs) hsame [] fun due hd => nomatch hd
    · generalize (s.load.jobs.map fun job =>
        if isRunnableJob deps.env {} dueCheckNow job then reserved now job else job) = jobs at ht
      cases ht
      refine hnew _ (hload.withJobs jobs).persist htick _ fun due hd => ?_
      obtain ⟨job, -, rfl⟩ := List.mem_map.mp hd
      exact ⟨⟨rfl, nofun⟩, rfl⟩

/-- The job as it is once its execution has started. -/
def startedJob (due : DueJob) (job : CronJob) (startedAt : Int) : DueJob :=
  {due with job := job, phase := .running (some (createCronTaskRunId due.id startedAt)) startedAt}

theorem recordedRun_started {job : CronJob} (hjob : job.id = due.id) (startedAt : Int) :
    RecordedRun (startedJob due job startedAt) := by
  refine ⟨hjob, fun run hrun => ?_⟩
  obtain rfl := Option.some.inj hrun
  exact ⟨rfl, startedAt, rfl⟩

theorem mem_markCronJobActive {id jobId : String} :
    id ∈ markCronJobActive jobId active ↔ id ∈ active ∨ (id = jobId ∧ jobId ≠ "") := by
  unfold markCronJobActive
  split
  · rename_i h
    refine ⟨.inl, fun hid => hid.elim (fun h => h) fun ⟨heq, hne⟩ => ?_⟩
    rw [heq]
    exact h.resolve_left hne
  · rename_i h
    rw [mem_cons, or_comm]
    refine or_congr_right ⟨fun heq => ⟨heq, fun hempty => h (.inl hempty)⟩, fun h => h.1⟩

theorem startDueJob (h : Tracked overtaken s) {startedAt : Int} (hfresh : s.ledger.tasks.get? ids.taskId = none)
    (ht : startDueJob deps startedAt ids s = some t) :
    ∃ before due after, s.tick.bind nextWaiting = some (before, due, after) ∧
      Tracked (overtaken.filter (· ≠ due.id)) t := by
  unfold OpenClaw.Cron.startDueJob at ht
  obtain ⟨dueJobs, htick, ht⟩ := bind_eq_some_iff.mp ht
  split at ht
  · obtain ⟨⟨before, due, after⟩, hnext, rfl⟩ := map_eq_some_iff.mp ht
    refine ⟨before, due, after, by rw [htick]; exact hnext, ?_⟩
    obtain ⟨rfl, hwaiting⟩ := nextWaiting_eq hnext
    have hdue : RecordedRun due := h.taken due (by simp [takenJobs, htick])
    have hjob : (setRunningAtMs (some startedAt) (due.current s.store)).id = due.id := current_id hdue.job
    obtain ⟨ledger, hcreate, hledger⟩ :=
      h.ledger.create deps.channels (setRunningAtMs (some startedAt) (due.current s.store)) startedAt hfresh
    rw [hjob] at hcreate
    simp only [hcreate]
    have hstart := recordedRun_started hjob startedAt
    have hid : (startedJob due (setRunningAtMs (some startedAt) (due.current s.store)) startedAt).startedId? =
        some due.id := rfl
    unfold startedJob at hstart hid
    refine ⟨hledger, fun other ho => ?_, h.manual, fun id => ?_⟩
    · have hold := h.taken other
      simp only [takenJobs, htick, getD_some, mem_append, mem_cons] at ho hold
      rcases ho with (hb | rfl | ha) | hs
      · exact hold (.inl (.inl hb))
      · exact hstart
      · exact hold (.inl (.inr (.inr ha)))
      · exact hold (.inr hs)
    · have hactive := h.active id
      have hnone : due.startedId? = none := if_pos hwaiting
      simp only [startedIds, htick, getD_some, filterMap_append, filterMap_cons, hnone,
        mem_append] at hactive
      rw [mem_markCronJobActive, hactive]
      simp only [startedIds, getD_some, filterMap_append, filterMap_cons, hid, mem_append,
        mem_cons, mem_filter, decide_eq_true_eq]
      by_cases heq : id = due.id
      · subst heq
        simpa using fun hne _ _ => hne
      · simp [heq]
  · cases ht

theorem startedIds_set {d : DueJob} (hi : dueJobs[i]? = some due) (hd : SameRun due d) :
    (dueJobs.set i d).filterMap DueJob.startedId? = dueJobs.filterMap DueJob.startedId? := by
  have hsame := map_set_same (f := DueJob.startedId?) hi hd.started
  have hmap (l : List DueJob) : l.filterMap DueJob.startedId? = (l.map DueJob.startedId?).filterMap id := by
    rw [filterMap_map]
    rfl
  rw [hmap, hmap, hsame]

theorem endDueJob (h : Tracked overtaken s) (ht : endDueJob i outcome endedAt s = some t) : Tracked overtaken t := by
  unfold OpenClaw.Cron.endDueJob at ht
  obtain ⟨dueJobs, htick, ht⟩ := bind_eq_some_iff.mp ht
  split at ht
  · rename_i due hdue
    split at ht
    · cases ht
      have hsame := sameRun_finish outcome endedAt due
      refine h.retaken (fun other ho => ?_) ?_ h.manual rfl h.ledger
      · have hold := h.taken
        simp only [takenJobs, htick, getD_some, mem_append] at ho hold
        rcases ho with hset | hs
        · rcases mem_or_eq_of_mem_set hset with hin | rfl
          · exact hold other (.inl hin)
          · exact hsame.recorded (hold due (.inl (mem_of_getElem? hdue)))
        · exact hold other (.inr hs)
      · simp only [startedIds, htick, getD_some]
        exact startedIds_set hdue hsame
    · cases ht
  · cases ht

/-! Outcomes. -/

theorem mem_clearCronJobActive {id jobId : String} (hne : "" ∉ active) :
    id ∈ clearCronJobActive jobId active ↔ id ∈ active ∧ id ≠ jobId := by
  unfold clearCronJobActive
  split
  · rename_i hempty
    refine ⟨fun hid => ⟨hid, fun heq => hne ?_⟩, fun h => h.1⟩
    rwa [← hempty, ← heq]
  · rw [mem_filter, decide_eq_true_eq]

/-- The outcomes take their jobs out of the active set. -/
theorem mem_foldl_clear {id : String} (results : List TimedCronRunOutcome) (hne : "" ∉ active) :
    id ∈ results.foldl (fun active result => clearCronJobActive result.jobId active) active ↔
      id ∈ active ∧ id ∉ results.map TimedCronRunOutcome.jobId := by
  induction results generalizing active with
  | nil => simp
  | cons result rest ih =>
    have hrest : "" ∉ clearCronJobActive result.jobId active := fun hm =>
      hne ((mem_clearCronJobActive hne).mp hm).1
    rw [foldl_cons, ih hrest, mem_clearCronJobActive hne, map_cons, mem_cons, not_or, and_assoc]

theorem foldl_finish (h : RunLedger ledger) (ledgerNow : String → Int) (results : List TimedCronRunOutcome) :
    RunLedger (results.foldl (fun ledger result => tryFinishCronTaskRun result (ledgerNow result.jobId) ledger) ledger) := by
  induction results generalizing ledger with
  | nil => exact h
  | cons result rest ih => exact ih (h.finish result _)

theorem blank_not_active (h : Tracked overtaken s) : "" ∉ s.activeJobIds := fun hm => ((h.active "").mp hm).1 rfl

/-- Outcomes of jobs that the timer has let go of, or that they overtake. -/
theorem applyOutcomes (h : Tracked overtaken s) {after : List String} {results : List TimedCronRunOutcome}
    (hafter : ∀ id, id ∈ startedIds s → (id ∉ after ↔ id ∉ overtaken ∧ id ∉ results.map TimedCronRunOutcome.jobId)) :
    Tracked after (applyOutcomes deps alertNow ledgerNow results s) := by
  refine ⟨foldl_finish h.ledger ledgerNow results, h.taken, h.manual, fun id => ?_⟩
  show id ∈ results.foldl _ s.activeJobIds ↔ id ≠ "" ∧ id ∈ startedIds s ∧ id ∉ after
  rw [mem_foldl_clear results h.blank_not_active, h.active, and_assoc, and_assoc]
  exact and_congr_right fun _ => and_congr_right fun hid => (hafter id hid).symm

theorem startedIds_subset {id : String} (h : id ∈ dueJobs.filterMap DueJob.startedId?) :
    id ∈ dueJobs.map DueJob.id := by
  obtain ⟨due, hdue, hid⟩ := mem_filterMap.mp h
  unfold DueJob.startedId? at hid
  split at hid
  · cases hid
  · rw [← Option.some.inj hid]
    exact List.mem_map_of_mem hdue

theorem maintain (h : Tracked overtaken s) (env : CronEnv) (recomputeExpired : Bool) (now : Int) :
    Tracked overtaken (s.maintain env recomputeExpired now) := h.withJobs _

/-- A tick ends with an outcome of each of its jobs. -/
theorem endTick (h : Tracked overtaken s) (ht : endTick deps alertNow ledgerNow passNow s = some t) :
    Tracked overtaken t := by
  unfold OpenClaw.Cron.endTick at ht
  obtain ⟨dueJobs, htick, ht⟩ := bind_eq_some_iff.mp ht
  have hstarted {id : String} (hid : id ∈ s.activeJobIds) : id ∈ dueJobs.map DueJob.id := by
    have := ((h.active id).mp hid).2.1
    rw [startedIds, htick] at this
    exact startedIds_subset this
  have hidle : Tracked overtaken {s with tick := none, activeJobIds := []} := by
    refine ⟨h.ledger, fun due hdue => h.taken due (mem_append_right _ hdue), h.manual, fun id => ?_⟩
    exact ⟨(nomatch ·), fun hid => nomatch hid.2.1⟩
  -- nothing is active once the jobs of the tick are taken out
  have hcleared {results : List TimedCronRunOutcome} (hresults : dueJobs.mapM DueJob.result? = some results)
      (id : String) : id ∉ results.foldl (fun active result => clearCronJobActive result.jobId active)
        s.activeJobIds := by
    rw [mem_foldl_clear results h.blank_not_active, results_jobId hresults]
    exact fun hid => hid.2 (hstarted hid.1)
  split at ht
  · cases ht
  · rename_i hresults
    cases ht
    exact ⟨h.ledger, hidle.taken, h.manual, fun id => ⟨fun hid => absurd hid (hcleared hresults id),
      fun hid => nomatch hid.2.1⟩⟩
  · rename_i results _ hresults
    cases ht
    have happlied : Tracked overtaken
        (OpenClaw.Cron.applyOutcomes deps alertNow ledgerNow results {s with tick := none}.load) := by
      refine ⟨foldl_finish h.ledger ledgerNow results, hidle.load.taken, h.manual, fun id => ?_⟩
      exact ⟨fun hid => absurd hid (hcleared hresults id), fun hid => nomatch hid.2.1⟩
    exact (happlied.maintain deps.env false passNow).persist

/-! Startup. -/

section
variable (h : Tracked overtaken s)
include h

theorem restarted {startup : Startup} (hs : ∀ due ∈ startup.candidates, RecordedRun due) :
    Tracked overtaken {s with startup := startup} := by
  refine h.retaken (fun due hdue => ?_) rfl h.manual rfl h.ledger
  rcases mem_append.mp hdue with hd | hd
  · exact h.taken due (mem_append_left _ hd)
  · exact hs due hd

theorem clearMarkers (ht : clearMarkers deps s = some t) : Tracked overtaken t := by
  unfold OpenClaw.Cron.clearMarkers at ht
  split at ht
  · split at ht
    · cases ht
    · dsimp only at ht
      cases ht
      refine restarted ?_ fun due hdue => nomatch hdue
      split
      · exact h.ensureLoaded
      · exact (h.ensureLoaded.withJobs _).persist
  · cases ht

theorem planStartupCatchup (ht : planStartupCatchup deps now s = some t) :
    Tracked overtaken t := by
  unfold OpenClaw.Cron.planStartupCatchup at ht
  split at ht
  · dsimp only at ht
    split at ht
    · cases ht
      exact h.ensureLoaded.restarted fun due hdue => nomatch hdue
    · cases ht
      refine restarted ?_ fun due hdue => ?_
      · exact (h.ensureLoaded.withJobs _).persist
      · obtain ⟨job, -, rfl⟩ := List.mem_map.mp hdue
        exact ⟨rfl, nofun⟩
  · cases ht

theorem startCandidate {startedAt : Int} (hfresh : s.ledger.tasks.get? ids.taskId = none)
    (ht : startCandidate deps startedAt ids s = some t) :
    Tracked overtaken t := by
  unfold OpenClaw.Cron.startCandidate at ht
  split at ht
  · rename_i candidates deferredJobIds hstartup
    split at ht
    · cases ht
    · obtain ⟨⟨before, due, after⟩, hnext, rfl⟩ := map_eq_some_iff.mp ht
      obtain ⟨rfl, -⟩ := nextWaiting_eq hnext
      have hold : ∀ other ∈ before ++ due :: after, RecordedRun other := fun other ho =>
        h.taken other (mem_append_right _ (by rw [hstartup]; exact ho))
      have hdue := hold due (by simp)
      have hjob : (due.current s.store).id = due.id := current_id hdue.job
      obtain ⟨ledger, hcreate, hledger⟩ := h.ledger.create deps.channels (due.current s.store) startedAt hfresh
      rw [hjob] at hcreate
      simp only [hcreate]
      have hstart := recordedRun_started hjob startedAt
      unfold startedJob at hstart
      refine h.retaken (fun other ho => ?_) rfl h.manual rfl hledger
      rcases mem_append.mp ho with ht | hs
      · exact h.taken other (mem_append_left _ ht)
      · rcases mem_append.mp hs with hb | ha
        · exact hold other (mem_append_left _ hb)
        · rcases mem_cons.mp ha with rfl | ha
          · exact hstart
          · exact hold other (by simp [ha])
  · cases ht

theorem endCandidate (ht : endCandidate outcome endedAt s = some t) :
    Tracked overtaken t := by
  unfold OpenClaw.Cron.endCandidate at ht
  split at ht
  · rename_i candidates deferredJobIds hstartup
    split at ht
    · cases ht
      refine h.restarted fun due hdue => ?_
      obtain ⟨old, hold, rfl⟩ := List.mem_map.mp hdue
      refine (sameRun_finish outcome endedAt old).recorded (h.taken old (mem_append_right _ ?_))
      rw [hstartup]
      exact hold
    · cases ht
  · cases ht

/-- The end of the catch-up overtakes the jobs it ran. -/
theorem applyStartupCatchupOutcomes {baseNow : Int}
    (ht : applyStartupCatchupOutcomes deps alertNow ledgerNow baseNow passNow s = some t) :
    Tracked (overtaken ++ s.startup.candidates.map DueJob.id) t := by
  unfold OpenClaw.Cron.applyStartupCatchupOutcomes at ht
  split at ht
  · rename_i candidates deferredJobIds hstartup
    split at ht
    · cases ht
    · rename_i results hresults
      cases ht
      have hu : Tracked overtaken {s.ensureLoaded.refresh with startup := .caughtUp} :=
        h.ensureLoaded.refresh.restarted fun due hdue => nomatch hdue
      have happlied : Tracked (overtaken ++ s.startup.candidates.map DueJob.id)
          (OpenClaw.Cron.applyOutcomes deps alertNow ledgerNow results
            {s.ensureLoaded.refresh with startup := .caughtUp}) := by
        refine hu.applyOutcomes fun id _ => ?_
        rw [results_jobId hresults, hstartup, mem_append, not_or]
        rfl
      exact ((happlied.withJobs _).maintain deps.env false passNow).persist
  · cases ht

theorem finishStart (ht : finishStart deps now s = some t) :
    Tracked overtaken t := by
  unfold OpenClaw.Cron.finishStart at ht
  split at ht
  · cases ht
    exact (h.ensureLoaded.persistIfChanged _).restarted fun due hdue => nomatch hdue
  · cases ht

end

end Tracked

/-! ### Every run -/

/-- A section of the service keeps the active set in step. -/
theorem cronStep_tracked {deps : CronDeps} {e : CronEvent} {s : LedgerState} {t : CronServiceState}
    (h : Tracked s.overtaken s.service)
    (hfresh : ¬(drawnTaskId e).any fun taskId => (s.ledger.tasks.get? taskId).isSome)
    (ht : cronStep deps e s.service = some t) : Tracked (overtakenAfter e s) t := by
  have hnew {taskId : String} (he : drawnTaskId e = some taskId) : s.service.ledger.tasks.get? taskId = none := by
    rw [he] at hfresh
    exact not_isSome_iff_eq_none.mp hfresh
  cases e with
  | read now =>
    cases ht
    exact h.ensureLoaded.persistIfChanged _
  | add input id loadNow now passNow =>
    simp only [cronStep] at ht
    split at ht
    · cases ht
    · cases ht
      have hu := h.ensureLoadedRecomputing deps.env loadNow
      unfold addJob
      split
      · exact hu
      · exact (hu.withJobs _).persist
  | update id patch now =>
    cases ht
    unfold updateJob
    dsimp only
    split
    · exact h.ensureLoaded.withJobs _
    · exact (h.ensureLoaded.withJobs _).persist
  | remove id loadNow =>
    cases ht
    exact ((h.ensureLoadedRecomputing deps.env loadNow).refresh.withJobs _).persist
  | inspectRun tickNow =>
    cases ht
    exact h.ensureLoaded.maintain deps.env false tickNow
  | preflightRun id mode tickNow now =>
    cases ht
    have hu : Tracked s.overtaken (inspectManualRunPreflight deps tickNow s.service) :=
      h.ensureLoaded.maintain deps.env false tickNow
    unfold preflightRun
    dsimp only
    split
    · exact hu.same rfl rfl rfl rfl rfl
    · exact hu
  | prepareRun i ids => exact h.prepareManualRun (hnew rfl) ht
  | endRun i outcome endedAt ledgerNow => exact h.endManualRun ht
  | finishRun i alertNow passNow => exact h.finishPreparedManualRun ht
  | beginTick dueCheckNow now => exact h.beginTick ht
  | startDueJob startedAt ids =>
    obtain ⟨before, due, after, hnext, htracked⟩ := h.startDueJob (hnew rfl) ht
    simp only [overtakenAfter, hnext]
    exact htracked
  | endDueJob i outcome endedAt => exact h.endDueJob ht
  | endTick alertNow ledgerNow passNow => exact h.endTick ht
  | clearMarkers => exact h.clearMarkers ht
  | planCatchup now => exact h.planStartupCatchup ht
  | startCandidate startedAt ids => exact h.startCandidate (hnew rfl) ht
  | endCandidate outcome endedAt => exact h.endCandidate ht
  | applyCatchup alertNow ledgerNow baseNow passNow => exact h.applyStartupCatchupOutcomes ht
  | finishStart now => exact h.finishStart ht

/-- A new service has nothing in flight. -/
theorem tracked_created (file : List CronJob) (h : RunLedger ledger) :
    Tracked [] {CronServiceState.created file with ledger := ledger} := by
  refine ⟨h, fun due hdue => absurd hdue not_mem_nil, fun run hrun => absurd hrun not_mem_nil,
    fun id => ⟨fun hid => absurd hid not_mem_nil, fun hid => absurd hid.2.1 not_mem_nil⟩⟩

theorem ledgerStep_tracked {deps : CronDeps} {e : LedgerEvent} {s t : LedgerState}
    (h : Tracked s.overtaken s.service) (ht : ledgerStep deps e s = some t) : Tracked t.overtaken t.service := by
  cases e with
  | cron e =>
    simp only [ledgerStep] at ht
    split at ht
    · cases ht
    · rename_i hfresh
      obtain ⟨service, hservice, rfl⟩ := map_eq_some_iff.mp ht
      exact cronStep_tracked h hfresh hservice
  | sweep env taskId now clock =>
    cases ht
    exact h.withLedger (h.ledger.sweep (s.maintenance env) taskId now clock)
  | inspect env now =>
    cases ht
    exact h
  | other w =>
    simp only [ledgerStep] at ht
    split at ht
    · rename_i hw
      cases ht
      rw [Bool.and_eq_true] at hw
      exact h.withLedger (h.ledger.write deps.channels hw.1 hw.2)
    · cases ht
  | restart tasks deliveryStates flows =>
    simp only [ledgerStep] at ht
    split at ht
    · rename_i hsame
      cases ht
      exact tracked_created _ (h.ledger.restore hsame deliveryStates flows)
    · cases ht

section Backing
variable {s : LedgerState} {run : LiveRun} {task : TaskRecord} {id : String}

theorem Tracked.runId (h : Tracked s.overtaken s.service) (hrun : run ∈ liveRuns s.service) :
    ∃ startedAt, run.taskRunId = createCronTaskRunId run.jobId startedAt := by
  rcases mem_append.mp hrun with hdue | hmanual
  · obtain ⟨due, hin, hlive⟩ := mem_filterMap.mp hdue
    obtain ⟨hjob, startedAt, hid⟩ := (h.taken due hin).run run hlive
    exact ⟨startedAt, by rw [hid, hjob]⟩
  · obtain ⟨manual, hin, hlive⟩ := mem_filterMap.mp hmanual
    obtain ⟨runId, hid, rfl⟩ := map_eq_some_iff.mp hlive
    exact h.manual manual hin runId hid

section
variable (h : Tracked s.overtaken s.service) (hrun : run ∈ liveRuns s.service)
  (hget : s.ledger.tasks.get? id = some task) (htask : IsTaskOf run task) (env : MaintenanceEnv)
include h hrun hget htask env

/-- The task of a run in flight is backed while the timer holds its job. -/
theorem Tracked.backed :
    Tasks.hasBackingSession (s.maintenance env) task = true ↔ HeldByTimer s run.jobId := by
  obtain ⟨hcron, hrunId⟩ := htask
  obtain ⟨startedAt, hid⟩ := h.runId hrun
  have hsource := (h.ledger.named id task hget hcron).source (hid ▸ hrunId)
  have hruntime : task.runtime = .cron := by
    rw [isCronRun, Bool.and_eq_true, decide_eq_true_eq] at hcron
    exact hcron.1
  have hjob : trimmed? task.sourceId = trimmed run.jobId := by
    rw [hsource]
    exact trimmed?_trimmed? (some run.jobId)
  rw [Tasks.hasBackingSession, if_pos hruntime, hjob, Option.any_eq_true]
  constructor
  · rintro ⟨jobId, htrim, hactive⟩
    have hmem : jobId ∈ s.service.activeJobIds := by
      simp only [LedgerState.maintenance, isCronJobActive, Bool.and_eq_true, contains_iff_mem] at hactive
      exact hactive.2
    obtain ⟨-, hstarted, hfree⟩ := (h.active jobId).mp hmem
    exact ⟨jobId, hstarted, htrim, hfree⟩
  · rintro ⟨jobId, hstarted, htrim, hfree⟩
    refine ⟨jobId, htrim, ?_⟩
    have hne := trimmed_ne_empty htrim
    simp only [LedgerState.maintenance, isCronJobActive, Bool.and_eq_true, decide_eq_true_eq, contains_iff_mem]
    exact ⟨hne, (h.active jobId).mpr ⟨hne, hstarted, hfree⟩⟩

/-- A live run is left alone exactly while it is covered. -/
theorem Tracked.spared (now : Int) :
    Tasks.shouldMarkLost (s.maintenance env) task now = false ↔ Covered s run task now := by
  rw [Covered, ← h.backed hrun hget htask env, Tasks.shouldMarkLost]
  cases Tasks.isActiveTask task <;> cases Tasks.hasLostGraceExpired task now <;>
    cases Tasks.hasBackingSession (s.maintenance env) task <;> simp

end

theorem Tracked.keepsLive (h : Tracked s.overtaken s.service) (e : LedgerEvent) : KeepsLive e s ↔ CoversLive e s := by
  cases e with
  | sweep env taskId now clock =>
    refine forall_congr' fun run => forall_congr' fun hrun => forall_congr' fun task => forall_congr' fun htask => ?_
    constructor
    · intro hkeeps hget
      refine (h.spared hrun hget htask env now).mp (Bool.eq_false_iff.mpr fun hlost => ?_)
      refine hkeeps task ?_ rfl
      rw [Tasks.sweepAction, hget]
      exact if_pos hlost
    · rintro hcovers marked haction rfl
      obtain ⟨hget, hlost⟩ := Tasks.sweepAction_markLost haction
      rw [(h.spared hrun hget htask env now).mpr (hcovers hget)] at hlost
      cases hlost
  | inspect env now =>
    refine forall_congr' fun run => forall_congr' fun hrun => forall_congr' fun id => forall_congr' fun task =>
      forall_congr' fun hget => forall_congr' fun htask => ?_
    rw [← h.spared hrun hget htask env now]
    constructor
    · intro hsame
      refine Bool.eq_false_iff.mpr fun hlost => ?_
      rw [Tasks.reconcileTask, if_pos hlost] at hsame
      have hstatus : task.status = .lost := congrArg TaskRecord.status hsame.symm
      rw [Tasks.shouldMarkLost, Tasks.isActiveTask, hstatus] at hlost
      cases hlost
    · intro hlost
      rw [Tasks.reconcileTask, hlost]
      rfl
  | _ => exact Iff.rfl

end Backing

/-- A new service, with an empty ledger. -/
def LedgerState.created (file : List CronJob) : LedgerState := ⟨CronServiceState.created file, []⟩

/-- **No sweep marks a run in flight lost, and no inspection shows it lost**, in a run
of the service where each is covered whenever it is looked at, and in no other. -/
theorem live_runs_kept_iff (deps : CronDeps) (file : List CronJob) (events : List LedgerEvent) :
    (ledgerStep deps).Within KeepsLive events (.created file) ↔
      (ledgerStep deps).Within CoversLive events (.created file) := by
  suffices hwithin : ∀ s : LedgerState, Tracked s.overtaken s.service →
      ((ledgerStep deps).Within KeepsLive events s ↔ (ledgerStep deps).Within CoversLive events s) from
    hwithin _ (tracked_created file runLedger_empty)
  induction events with
  | nil => exact fun _ _ => Iff.rfl
  | cons e rest ih =>
    intro s h
    refine and_congr (h.keepsLive e) (forall_congr' fun u => forall_congr' fun hu => ?_)
    exact ih u (ledgerStep_tracked h hu)

/-! ### A run that takes long -/

/-- A process that runs no agent and has no sessions. -/
def idleEnv : MaintenanceEnv := ⟨fun _ => false, fun _ => false, fun _ => false, fun _ => false, fun _ => false⟩

/-- A manual run that takes five minutes, and a sweep. -/
def slowManualRun : List LedgerEvent :=
  [.cron (.preflightRun "report" .force 1000 1000), .cron (.prepareRun 0 (taskIds "task-1")),
    .sweep idleEnv "task-1" 301000 301000]

/-- Nothing puts the job of a manual run in the active set. -/
theorem manual_run_swept_lost : ¬ ∀ (deps : CronDeps) (file : List CronJob) (events : List LedgerEvent),
    (ledgerStep deps).Within KeepsLive events (.created file) := by
  intro hall
  have hwithin := hall plainDeps [hourlyJob true] slowManualRun
  have hkeeps := ((hwithin.2 _ rfl).2 _ rfl).1
  refine hkeeps ⟨"report", "cron:report:1000"⟩ (by decide) _ ⟨?_, ?_⟩ _ rfl rfl
  · decide
  · decide

/-- An execution by the timer goes on under a sweep after as long a time. -/
example : ((ledgerStep plainDeps).run
      [.cron (.beginTick 3600000 3600000), .cron (.startDueJob 3600000 (taskIds "task-1")),
        .sweep idleEnv "task-1" 3900000 3900000] (.created [hourlyJob true])).map (fun s =>
      (liveRuns s.service, (s.ledger.tasks.get? "task-1").map TaskRecord.status)) =
    some ([⟨"report", "cron:report:3600000"⟩], some .running) := by
  decide

end OpenClaw.Cron
