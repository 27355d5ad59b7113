import OpenClaw.Foundation.MapM
import OpenClaw.Cron.Service

/-! One execution of a job at a time.

The only guard is the running marker. A job that an execution holds carries it, in
memory and in the file: it is set before an execution starts and is cleared with
the outcome. That breaks where a pass meets a held job it takes for stale, one that
is disabled or whose marker is old, and where an update clears or rewrites the
marker. Away from these the ids held are distinct. -/
namespace OpenClaw.Cron
open Foundation CronServiceState List
open Option hiding map_map

/-! ### What is held -/

def dueIds (s : CronServiceState) : List String := (s.tick.getD []).map DueJob.id

def manualIds (s : CronServiceState) : List String := s.manualRuns.map ManualRun.jobId

/-- The jobs that a tick or a manual run has reserved. -/
def held (s : CronServiceState) : List String := dueIds s ++ manualIds s

/-- The jobs of the executions that have started and whose outcome is not applied. -/
def inFlight (s : CronServiceState) : List String :=
  ((s.tick.getD []).filter fun due => !due.isWaiting).map DueJob.id ++ manualIds s

theorem inFlight_sublist (s : CronServiceState) : (inFlight s).Sublist (held s) :=
  (filter_sublist.map _).append (List.Sublist.refl _)

/-- The jobs that stay held when the outcomes of a step are applied. -/
def keeps : CronEvent → CronServiceState → List String
  | .finishRun i _ _, s => dueIds s ++ (s.manualRuns.eraseIdx i).map ManualRun.jobId
  | .endTick _ _ _, s => manualIds s
  | _, s => held s

/-- The pass a step makes: its clock and the jobs it walks. -/
def pass (deps : CronDeps) : CronEvent → CronServiceState → Option (Int × List CronJob)
  | .read now, s => some (now, s.jobs)
  | .add _ _ _ _ passNow, s => some (passNow, s.jobs)
  | .inspectRun tickNow, s => some (tickNow, s.jobs)
  | .preflightRun _ _ tickNow _, s => some (tickNow, s.jobs)
  | .finishRun i _ passNow, s =>
    if (s.manualRuns[i]?).any fun run => (findJob run.jobId s.jobs).isSome then some (passNow, s.file) else none
  | .beginTick dueCheckNow _, s =>
    if collectRunnableJobs deps.env {} dueCheckNow s.file = [] then some (dueCheckNow, s.file) else none
  | .endTick _ _ passNow, s => if s.tick = none ∨ dueIds s = [] then none else some (passNow, s.file)
  | _, _ => none

/-- None of the jobs is one whose marker a pass clears. -/
def Fresh (ids : List String) (nowMs : Int) (jobs : List CronJob) : Prop :=
  ∀ job ∈ jobs, job.id ∈ ids → job.enabled = true ∧ isStuck nowMs job = false

instance (ids : List String) (nowMs : Int) (jobs : List CronJob) : Decidable (Fresh ids nowMs jobs) :=
  inferInstanceAs (Decidable (∀ job ∈ jobs, job.id ∈ ids → job.enabled = true ∧ isStuck nowMs job = false))

def isStartup : CronEvent → Bool
  | .clearMarkers | .planCatchup _ | .startCandidate _ _ | .endCandidate _ _ | .applyCatchup _ _ _ _
  | .finishStart _ => true
  | _ => false

/-- A step away from the defect: no pass takes a held job for stale, and no update
of a held job disables it or writes its marker. -/
structure Spares (deps : CronDeps) (e : CronEvent) (s : CronServiceState) : Prop where
  running : isStartup e = false
  passes : ∀ p, pass deps e s = some p → Fresh (keeps e s) p.1 p.2
  updates : ∀ id patch now, e = .update id patch now → id ∈ held s →
    ∀ job ∈ s.jobs, job.id = id → SparesMarker patch job

/-! ### Marked jobs -/

/-- Each job that has one of the ids carries the marker. -/
def Marked (ids : List String) (jobs : List CronJob) : Prop :=
  ∀ job ∈ jobs, job.id ∈ ids → job.state.runningAtMs.isSome = true

section Marked
variable {ids : List String} {jobs : List CronJob}

section
variable (h : Marked ids jobs)
include h

theorem Marked.mono {ids' : List String} (hs : ∀ id ∈ ids', id ∈ ids) : Marked ids' jobs :=
  fun job hj hid => h job hj (hs _ hid)

theorem Marked.walk {fn : CronJob → CronJob} {nowMs : Int} (hf : KeepsRun fn) (hc : Fresh ids nowMs jobs) :
    Marked ids (walkSchedulableJobs fn nowMs jobs) := by
  intro job hj hid
  obtain ⟨old, hold, rfl⟩ := List.mem_map.mp hj
  rw [walkJob_id hf] at hid
  obtain ⟨he, hs⟩ := hc old hold hid
  rw [walkJob_runningAtMs hf he hs]
  exact h old hold hid

theorem Marked.modify {id : String} {f : CronJob → CronJob}
    (hf : ∀ job ∈ jobs, job.id = id → (f job).id = id ∧ (id ∈ ids → (f job).state.runningAtMs.isSome = true)) :
    Marked ids (modifyJob id f jobs) := by
  intro job hj hjid
  rcases mem_modifyJob hj with hold | ⟨old, hold, hoid, rfl⟩
  · exact h job hold hjid
  · obtain ⟨hid, hmark⟩ := hf old hold hoid
    exact hmark (hid ▸ hjid)

theorem Marked.remove {id : String} : Marked ids (removeJob id jobs) :=
  fun job hj => h job (mem_removeJob.mp hj).1

/-- Where ids are distinct, marking the job of an id marks all its jobs. -/
theorem Marked.mark {id : String} {f : CronJob → CronJob} (hn : (jobIds jobs).Nodup)
    (hf : ∀ job ∈ jobs, job.id = id → (f job).id = id ∧ (f job).state.runningAtMs.isSome = true) :
    Marked (id :: ids) (modifyJob id f jobs) := by
  intro job hj hid
  by_cases hjid : job.id = id
  · obtain ⟨old, hold, hoid, rfl⟩ := mem_modifyJob_of_id hn hj hjid
    exact (hf old hold hoid).2
  · rcases mem_modifyJob hj with hold | ⟨old, hold, hoid, rfl⟩
    · exact h job hold ((mem_cons.mp hid).resolve_left hjid)
    · exact absurd (hf old hold hoid).1 hjid

end

end Marked

/-! ### The invariant -/

structure Exclusive (s : CronServiceState) : Prop where
  nodup : (held s).Nodup
  loaded : s.store = none → held s = []
  ids : (jobIds s.jobs).Nodup
  fileIds : (jobIds s.file).Nodup
  marked : Marked (held s) s.jobs
  fileMarked : Marked (held s) s.file

theorem created_exclusive {file : List CronJob} (h : (jobIds file).Nodup) : Exclusive (created file) where
  nodup := nodup_nil
  loaded _ := rfl
  ids := nodup_nil
  fileIds := h
  marked _ hj := nomatch hj
  fileMarked _ _ hid := nomatch hid

theorem dueIds_mapDue {f : DueJob → DueJob} (hf : ∀ due, (f due).id = due.id) (s : CronServiceState) :
    dueIds (s.mapDue f) = dueIds s := by
  unfold dueIds CronServiceState.mapDue
  cases s.tick with
  | none => rfl
  | some dueJobs =>
    show (dueJobs.map f).map DueJob.id = dueJobs.map DueJob.id
    rw [map_map]
    exact map_congr_left fun due _ => hf due

@[simp] theorem held_load (s : CronServiceState) : held s.load = held s := by
  show dueIds (s.mapDue (DueJob.detach s.store)) ++ manualIds s = _
  rw [dueIds_mapDue (f := DueJob.detach s.store) fun _ => rfl]
  rfl

@[simp] theorem held_refresh (s : CronServiceState) : held s.refresh = held s := by
  show dueIds (s.mapDue (DueJob.refresh s.store)) ++ manualIds s = _
  rw [dueIds_mapDue (f := DueJob.refresh s.store) fun _ => rfl]
  rfl

variable {t : CronServiceState} {now passNow : Int} {env : CronEnv} {job : CronJob} {i : Nat}
  {alertNow : String → Int} {results : List TimedCronRunOutcome}

namespace Exclusive
variable {s : CronServiceState}

theorem of_loaded {jobs file : List CronJob} {ids : List String} (hstore : t.store = some jobs)
    (hfile : t.file = file) (hheld : held t = ids) (hnodup : ids.Nodup) (hids : (jobIds jobs).Nodup)
    (hm : Marked ids jobs) (hfileIds : (jobIds file).Nodup) (hfileMarked : Marked ids file) : Exclusive t := by
  have hjobs : t.jobs = jobs := by rw [CronServiceState.jobs, hstore]; rfl
  subst hheld hjobs hfile
  exact ⟨hnodup, fun hn => absurd (hstore.symm.trans hn) (some_ne_none _), hids, hfileIds, hm, hfileMarked⟩

/-- A section that ends with the store persisted. -/
theorem of_persisted {jobs : List CronJob} {ids : List String} (hstore : s.store = some jobs)
    (hfile : s.file = jobs) (hheld : held s = ids) (hnodup : ids.Nodup) (hids : (jobIds jobs).Nodup)
    (hm : Marked ids jobs) : Exclusive s :=
  of_loaded hstore hfile hheld hnodup hids hm hids hm

theorem load (h : Exclusive s) : Exclusive s.load :=
  of_loaded rfl rfl (held_load s) h.nodup h.fileIds h.fileMarked h.fileIds h.fileMarked

theorem ensureLoaded (h : Exclusive s) : Exclusive s.ensureLoaded := by
  unfold CronServiceState.ensureLoaded
  split
  · exact h
  · exact h.load

/-- A step that changes neither the store nor what is held. -/
theorem same (h : Exclusive s) (hheld : held t = held s) (hstore : t.store = s.store) (hfile : t.file = s.file) :
    Exclusive t := by
  have hjobs : t.jobs = s.jobs := by rw [CronServiceState.jobs, hstore]; rfl
  obtain ⟨hnodup, hloaded, hids, hfileIds, hm, hfileMarked⟩ := h
  rw [← hheld] at hnodup hloaded hm hfileMarked
  rw [← hstore] at hloaded
  rw [← hjobs] at hids hm
  rw [← hfile] at hfileIds hfileMarked
  exact ⟨hnodup, hloaded, hids, hfileIds, hm, hfileMarked⟩

theorem refresh (h : Exclusive s) : Exclusive s.refresh := h.same (held_refresh s) rfl rfl

theorem persist (h : Exclusive s) : Exclusive s.persist := by
  refine ⟨h.nodup, h.loaded, h.ids, ?_, h.marked, ?_⟩
  · show (jobIds (s.store.getD s.file)).Nodup
    cases hs : s.store with
    | none => exact h.fileIds
    | some jobs =>
      have := h.ids
      rwa [CronServiceState.jobs, hs] at this
  · show Marked (held s) (s.store.getD s.file)
    cases hs : s.store with
    | none => exact h.fileMarked
    | some jobs =>
      have := h.marked
      rwa [CronServiceState.jobs, hs] at this

theorem withJobs (h : Exclusive s) {jobs : List CronJob} (hids : (jobIds jobs).Nodup)
    (hm : Marked (held s) jobs) : Exclusive (s.withJobs jobs) :=
  of_loaded rfl rfl rfl h.nodup hids hm h.fileIds h.fileMarked

end Exclusive

/-! ### Sections -/

section Sections
variable {deps : CronDeps} {s : CronServiceState}

section
variable (h : Exclusive s) (hc : Fresh (held s) now s.jobs)
include h hc

/-- Where nothing is loaded nothing is held. -/
theorem fresh_ensureLoaded :
    Fresh (held s.ensureLoaded) now s.ensureLoaded.jobs := by
  unfold CronServiceState.ensureLoaded
  split
  · exact hc
  · rename_i hn
    intro job _ hid
    rw [held_load, h.loaded (not_isSome_iff_eq_none.mp hn)] at hid
    exact absurd hid not_mem_nil

theorem maintain_exclusive {recomputeExpired : Bool} :
    Exclusive (s.maintain env recomputeExpired now) := by
  have hk := recomputeForMaintenance_keeps env recomputeExpired now
  refine h.withJobs ?_ (h.marked.walk hk hc)
  unfold recomputeNextRunsForMaintenance
  rw [jobIds_walk hk]
  exact h.ids

theorem persistIfChanged_exclusive {recomputeExpired : Bool} :
    Exclusive (s.persistIfChanged (recomputeNextRunsForMaintenance env recomputeExpired now s.jobs)) := by
  unfold CronServiceState.persistIfChanged
  split
  · exact h
  · exact (maintain_exclusive h hc).persist

end

theorem held_persistIfChanged (jobs : List CronJob) : held (s.persistIfChanged jobs) = held s := by
  unfold CronServiceState.persistIfChanged
  split <;> rfl

theorem readJobs_exclusive (h : Exclusive s) (hc : Fresh (held s) now s.jobs) :
    Exclusive (readJobs deps now s) :=
  persistIfChanged_exclusive h.ensureLoaded (fresh_ensureLoaded h hc)

theorem ensureLoadedRecomputing_exclusive (h : Exclusive s) (env : CronEnv) (now : Int) :
    Exclusive (s.ensureLoadedRecomputing env now) := by
  unfold CronServiceState.ensureLoadedRecomputing
  split
  · exact h
  · rename_i hn
    have hheld := h.loaded (not_isSome_iff_eq_none.mp hn)
    refine h.load.withJobs ?_ fun job _ hid => ?_
    · unfold recomputeNextRuns
      rw [jobIds_walk (recomputeDueOrMissing_keeps env now)]
      exact h.fileIds
    · rw [held_load, hheld] at hid
      exact absurd hid not_mem_nil

theorem createJob_id {defaultAgentId : Option String} {input : CronJobCreate} {id : String}
    (h : createJob env defaultAgentId input id now = .ok job) : job.id = id := by
  obtain ⟨_, -, h⟩ := bind_ok_iff.mp h
  obtain ⟨_, -, h⟩ := bind_ok_iff.mp h
  obtain ⟨_, -, h⟩ := bind_ok_iff.mp h
  obtain ⟨j, hj, h⟩ := bind_ok_iff.mp h
  obtain ⟨d, rfl⟩ := assertDeliverySupport_writes hj
  obtain ⟨j, hj, h⟩ := bind_ok_iff.mp h
  obtain ⟨d, rfl⟩ := assertFailureDestinationSupport_writes hj
  obtain ⟨_, -, h⟩ := bind_ok_iff.mp h
  cases h
  rfl

section
variable (h : Exclusive s)
include h

theorem addJob_exclusive {input : CronJobCreate} {id : String} {loadNow : Int} (hid : id ∉ s.knownIds)
    (hc : Fresh (held s) passNow s.jobs) :
    Exclusive (addJob deps input id loadNow now passNow s) := by
  have hu := ensureLoadedRecomputing_exclusive h deps.env loadNow
  have hknown : id ∉ jobIds s.jobs ∧ id ∉ jobIds s.file ∧ id ∉ held s := by
    simp only [CronServiceState.knownIds, mem_append, not_or] at hid
    refine ⟨hid.1.1.1.1, hid.1.1.1.2, fun hin => ?_⟩
    rcases mem_append.mp hin with hd | hm
    · exact hid.1.1.2 hd
    · exact hid.2 hm
  unfold addJob
  generalize hug : s.ensureLoadedRecomputing deps.env loadNow = u at hu ⊢
  have hsame : held u = held s ∧ id ∉ jobIds u.jobs ∧ Fresh (held s) passNow u.jobs := by
    subst hug
    unfold CronServiceState.ensureLoadedRecomputing
    split
    · exact ⟨rfl, hknown.1, hc⟩
    · rename_i hn
      have hheld := h.loaded (not_isSome_iff_eq_none.mp hn)
      refine ⟨held_load s, ?_, fun job _ hin => ?_⟩
      · show id ∉ jobIds (recomputeNextRuns deps.env loadNow s.file)
        unfold recomputeNextRuns
        rw [jobIds_walk (recomputeDueOrMissing_keeps _ _)]
        exact hknown.2.1
      · rw [hheld] at hin
        exact absurd hin not_mem_nil
  cases hcreate : createJob deps.env deps.config.defaultAgentId input id now with
  | error message => exact hu
  | ok job =>
    have hjob := createJob_id hcreate
    have hkeeps := recomputeDueOrMissing_keeps deps.env passNow
    refine (hu.withJobs ?_ (Marked.walk ?_ hkeeps ?_)).persist
    · rw [jobIds_walk hkeeps, jobIds, map_append]
      refine nodup_append.mpr ⟨hu.ids, nodup_singleton _, ?_⟩
      intro a ha b hb hab
      rw [map_singleton, mem_singleton] at hb
      rw [hab, hb, hjob] at ha
      exact hsame.2.1 ha
    · intro j hj hin
      rcases mem_append.mp hj with hold | hnew
      · exact hu.marked j hold hin
      · rw [mem_singleton.mp hnew, hjob, hsame.1] at hin
        exact absurd hin hknown.2.2
    · intro j hj hin
      rw [hsame.1] at hin
      rcases mem_append.mp hj with hold | hnew
      · exact hsame.2.2 j hold hin
      · rw [mem_singleton.mp hnew, hjob] at hin
        exact absurd hin hknown.2.2

theorem updateJob_exclusive {id : String} {patch : CronJobPatch}
    (hc : id ∈ held s → ∀ job ∈ s.jobs, job.id = id → SparesMarker patch job) :
    Exclusive (updateJob deps id patch now s) := by
  have hu := h.ensureLoaded
  have hc' : id ∈ held s.ensureLoaded → ∀ job ∈ s.ensureLoaded.jobs, job.id = id → SparesMarker patch job := by
    unfold CronServiceState.ensureLoaded
    split
    · exact hc
    · rename_i hn
      intro hin
      rw [held_load, h.loaded (not_isSome_iff_eq_none.mp hn)] at hin
      exact absurd hin not_mem_nil
  unfold updateJob
  dsimp only
  generalize s.ensureLoaded = u at hu hc' ⊢
  unfold updateJobs
  cases hfind : findJob id u.jobs with
  | none => exact hu.withJobs hu.ids hu.marked
  | some job =>
    obtain ⟨hmem, hjid⟩ := findJob_mem hfind
    -- the job the edit leaves has the id, and the marker where the job is held
    have hedit (left : CronJob)
        (hleft : left = leftJob (editJob deps.env deps.config.defaultAgentId patch now job)) :
        Exclusive (u.withJobs (modifyJob id (fun _ => left) u.jobs)) := by
      have hid : left.id = id := by rw [hleft, editJob_id, hjid]
      refine hu.withJobs ?_ (hu.marked.modify fun _ _ _ => ⟨hid, fun hin => ?_⟩)
      · rw [jobIds_modifyJob fun _ _ _ => hid]
        exact hu.ids
      · rw [hleft, editJob_runningAtMs (hc' hin job hmem hjid)]
        exact hu.marked job hmem (hjid ▸ hin)
    dsimp only
    cases hok : editJob deps.env deps.config.defaultAgentId patch now job with
    | error failed => exact hedit failed.job (by rw [hok]; rfl)
    | ok next => exact (hedit next (by rw [hok]; rfl)).persist

theorem removeStoredJob_exclusive {id : String} {loadNow : Int} :
    Exclusive (removeStoredJob deps id loadNow s) := by
  have hu := (ensureLoadedRecomputing_exclusive h deps.env loadNow).refresh
  exact (hu.withJobs (hu.ids.sublist jobIds_removeJob_sublist) hu.marked.remove).persist

theorem inspectManualRunPreflight_exclusive {tickNow : Int} (hc : Fresh (held s) tickNow s.jobs) :
    Exclusive (inspectManualRunPreflight deps tickNow s) :=
  maintain_exclusive h.ensureLoaded (fresh_ensureLoaded h hc)


theorem preflightRun_exclusive {id : String} {mode : RunMode} {tickNow : Int} (hc : Fresh (held s) tickNow s.jobs) :
    Exclusive (preflightRun deps id mode tickNow now s) := by
  have hu : Exclusive (inspectManualRunPreflight deps tickNow s) := inspectManualRunPreflight_exclusive h hc
  unfold preflightRun
  dsimp only
  split
  · exact hu.same rfl rfl rfl
  · exact hu

/-- A run reserves only a job that nothing holds. -/
theorem prepareManualRun_exclusive {ids : TaskIds} (ht : prepareManualRun deps i ids s = some t) :
    Exclusive t := by
  obtain ⟨preflight, _, rfl⟩ := map_eq_some_iff.mp ht
  dsimp only
  split
  · exact h.same rfl rfl rfl
  · rename_i job hfind
    obtain ⟨hmem, hjid⟩ := findJob_mem hfind
    split
    · exact h.same rfl rfl rfl
    · rename_i hfree
      have hnot : preflight.jobId ∉ held s := fun hin => hfree (h.marked job hmem (hjid ▸ hin))
      have hids : jobIds (modifyJob preflight.jobId (fun _ => reserved preflight.now job) s.jobs) =
          jobIds s.jobs := jobIds_modifyJob fun _ _ _ => hjid
      have hheld (taskRunId : Option String) : (dueIds s ++ (s.manualRuns ++ [(⟨preflight.jobId, taskRunId,
          preflight.now, reserved preflight.now job, preflight.mode, none⟩ : ManualRun)]).map ManualRun.jobId).Perm
          (preflight.jobId :: held s) := by
        rw [map_append, ← append_assoc]
        exact perm_append_singleton _ _
      have hmark := h.marked.mark (f := fun _ => reserved preflight.now job) h.ids
        fun _ _ (_ : _ = preflight.jobId) => ⟨hjid, rfl⟩
      generalize tryCreateCronTaskRun deps.channels _ _ _ _ = created
      refine Exclusive.of_persisted rfl rfl rfl ?_ (hids ▸ h.ids) ?_
      · exact (hheld created.1).nodup_iff.mpr (nodup_cons.mpr ⟨hnot, h.nodup⟩)
      · exact hmark.mono fun id hin => (hheld created.1).mem_iff.mp hin

end

theorem map_set_same {α β : Type} {f : α → β} {l : List α} {a b : α} (h : l[i]? = some a)
    (hf : f b = f a) : (l.set i b).map f = l.map f := by
  refine ext_getElem? fun j => ?_
  rw [map_set, getElem?_set]
  split
  · rename_i hij
    subst hij
    obtain ⟨hlt, rfl⟩ := List.getElem?_eq_some_iff.mp h
    simp [hf, hlt]
  · rfl

/-- The same jobs in memory and in the file, and the same ones taken. -/
structure SameJobs (s t : CronServiceState) : Prop where
  store : t.store = s.store
  file : t.file = s.file
  due : dueIds t = dueIds s
  manual : manualIds t = manualIds s

theorem endManualRun_same {outcome : CronRunOutcome} {endedAt ledgerNow : Int}
    (ht : endManualRun i outcome endedAt ledgerNow s = some t) : SameJobs s t := by
  unfold endManualRun at ht
  split at ht
  · rename_i run hrun
    split at ht
    · cases ht
    · cases ht
      exact ⟨rfl, rfl, rfl, map_set_same (f := ManualRun.jobId) hrun rfl⟩
  · cases ht

theorem endDueJob_tick {outcome : CronRunOutcome} {endedAt : Int} (ht : endDueJob i outcome endedAt s = some t) :
    ∃ dueJobs, t = {s with tick := some dueJobs} ∧ dueIds t = dueIds s := by
  obtain ⟨dueJobs, htick, hend⟩ := bind_eq_some_iff.mp ht
  split at hend
  · rename_i due hdue
    split at hend
    · cases hend
      have hid : (due.finish outcome endedAt).id = due.id := by
        unfold DueJob.finish
        split <;> rfl
      refine ⟨_, rfl, ?_⟩
      rw [dueIds, getD_some, map_set_same hdue hid, dueIds, htick]
      rfl
    · cases hend
  · cases hend

theorem endDueJob_same {outcome : CronRunOutcome} {endedAt : Int} (ht : endDueJob i outcome endedAt s = some t) :
    SameJobs s t := by
  obtain ⟨dueJobs, rfl, hids⟩ := endDueJob_tick ht
  exact ⟨rfl, rfl, hids, rfl⟩

theorem startCandidate_same {startedAt : Int} {ids : TaskIds} (ht : startCandidate deps startedAt ids s = some t) :
    SameJobs s t := by
  unfold startCandidate at ht
  split at ht
  · split at ht
    · cases ht
    · obtain ⟨_, _, rfl⟩ := map_eq_some_iff.mp ht
      exact ⟨rfl, rfl, rfl, rfl⟩
  · cases ht

theorem endCandidate_same {outcome : CronRunOutcome} {endedAt : Int} (ht : endCandidate outcome endedAt s = some t) :
    SameJobs s t := by
  unfold endCandidate at ht
  split at ht
  · split at ht
    · cases ht
      exact ⟨rfl, rfl, rfl, rfl⟩
    · cases ht
  · cases ht

theorem Exclusive.sameJobs (h : Exclusive s) (hsame : SameJobs s t) : Exclusive t :=
  h.same (congrArg₂ (· ++ ·) hsame.due hsame.manual) hsame.store hsame.file

/-- An outcome of a manual run is put over the file: other jobs stay as they are there. -/
theorem mem_mergeManualRunSnapshot {jobId : String} {snapshot : Option CronJob} {jobs : List CronJob}
    (h : job ∈ mergeManualRunSnapshotAfterReload jobId snapshot jobs) (hid : job.id ≠ jobId) :
    job ∈ jobs := by
  unfold mergeManualRunSnapshotAfterReload at h
  split at h
  · exact (mem_removeJob.mp h).1
  · rcases mem_modifyJob h with hold | ⟨old, _, hoid, rfl⟩
    · exact hold
    · exact absurd hoid hid

theorem jobIds_mergeManualRunSnapshot {jobId : String} {snapshot : Option CronJob} {jobs : List CronJob} :
    (jobIds (mergeManualRunSnapshotAfterReload jobId snapshot jobs)).Sublist (jobIds jobs) := by
  unfold mergeManualRunSnapshotAfterReload
  split
  · exact jobIds_removeJob_sublist
  · rw [jobIds_modifyJob]
    exact fun _ _ hid => hid

theorem not_mem_eraseIdx {α : Type} {l : List α} {a : α} (hn : l.Nodup) (hi : l[i]? = some a) :
    a ∉ l.eraseIdx i := by
  obtain ⟨hlt, rfl⟩ := List.getElem?_eq_some_iff.mp hi
  exact (nodup_cons.mp ((getElem_cons_eraseIdx_perm hlt).nodup_iff.mpr hn)).1

theorem finishPreparedManualRun_exclusive (h : Exclusive s) {alertNow : Int}
    (hc : ∀ p, pass deps (.finishRun i alertNow passNow) s = some p → Fresh (keeps (.finishRun i alertNow passNow) s) p.1 p.2)
    (ht : finishPreparedManualRun deps i alertNow passNow s = some t) : Exclusive t := by
  unfold finishPreparedManualRun at ht
  split at ht
  · rename_i run hrun
    obtain ⟨⟨outcome, endedAt⟩, _, rfl⟩ := map_eq_some_iff.mp ht
    have hin : run.jobId ∈ manualIds s := List.mem_map_of_mem (mem_of_getElem? hrun)
    have hloaded : s.store.isSome := by
      by_contra hn
      have := h.loaded (not_isSome_iff_eq_none.mp hn)
      rw [held, append_eq_nil_iff] at this
      rw [this.2] at hin
      exact not_mem_nil hin
    have hensure : s.ensureLoaded = s := if_pos hloaded
    have hpart : (keeps (.finishRun i alertNow passNow) s).Sublist (held s) :=
      (List.Sublist.refl _).append ((eraseIdx_sublist _ _).map _)
    have hreleased : run.jobId ∉ keeps (.finishRun i alertNow passNow) s := by
      intro hk
      have hnodup := nodup_append.mp h.nodup
      rcases mem_append.mp hk with hd | hm
      · exact hnodup.2.2 _ hd _ hin rfl
      · refine not_mem_eraseIdx (i := i) hnodup.2.1 ?_ (eraseIdx_map .. ▸ hm)
        rw [manualIds, getElem?_map, hrun]
        rfl
    rw [hensure]
    dsimp only
    split
    · refine ⟨h.nodup.sublist hpart, fun hn => ?_, h.ids, h.fileIds, h.marked.mono fun _ => hpart.mem,
        h.fileMarked.mono fun _ => hpart.mem⟩
      rw [show s.store = none from hn] at hloaded
      cases hloaded
    · rename_i job hfind
      have hfresh : Fresh (keeps (.finishRun i alertNow passNow) s) passNow s.file := by
        refine hc (passNow, s.file) (if_pos ?_)
        rw [hrun]
        show (findJob run.jobId s.jobs).isSome = true
        rw [show findJob run.jobId s.jobs = some job from hfind]
        rfl
      have hkeeps := recomputeForMaintenance_keeps deps.env true passNow
      generalize hu : {s with manualRuns := s.manualRuns.eraseIdx i} = u
      have hheld : held u.load = keeps (.finishRun i alertNow passNow) s := by
        rw [held_load, ← hu]
        rfl
      refine Exclusive.of_persisted rfl rfl hheld (h.nodup.sublist hpart) ?_ ?_
      · unfold manualRunJobs recomputeNextRunsForMaintenance
        dsimp only
        rw [jobIds_walk hkeeps]
        exact h.fileIds.sublist jobIds_mergeManualRunSnapshot
      · have hother {j : CronJob} {snapshot : Option CronJob}
            (hj : j ∈ mergeManualRunSnapshotAfterReload run.jobId snapshot s.file)
            (hid : j.id ∈ keeps (.finishRun i alertNow passNow) s) : j ∈ s.file :=
          mem_mergeManualRunSnapshot hj fun he => hreleased (he ▸ hid)
        refine Marked.walk (fun j hj hid => ?_) hkeeps fun j hj hid => hfresh j (hother hj hid) hid
        exact h.fileMarked j (hother hj hid) (hpart.mem hid)
  · cases ht

/-- A tick takes only jobs that nothing holds. -/
theorem beginTick_exclusive (h : Exclusive s) {dueCheckNow : Int}
    (hc : ∀ p, pass deps (.beginTick dueCheckNow now) s = some p → Fresh (held s) p.1 p.2)
    (ht : beginTick deps dueCheckNow now s = some t) : Exclusive t := by
  unfold beginTick at ht
  split at ht
  · cases ht
  · rename_i hidle
    have hnone : s.tick = none := by
      have := (not_or.mp hidle).1
      simpa using this
    have hmanual : held s = manualIds s := by
      rw [held, dueIds, hnone]
      rfl
    dsimp only at ht
    split at ht
    · rename_i hnodue
      cases ht
      have hfresh : Fresh (held s.load) dueCheckNow s.load.jobs := by
        rw [held_load]
        exact hc _ (if_pos hnodue)
      refine (persistIfChanged_exclusive h.load hfresh).same ?_ rfl rfl
      rw [held_persistIfChanged, held_load, hmanual]
      unfold CronServiceState.persistIfChanged
      split <;> rfl
    · cases ht
      have hdue : collectRunnableJobs deps.env {} dueCheckNow s.load.jobs =
          s.file.filter (isRunnableJob deps.env {} dueCheckNow) := rfl
      rw [hdue]
      have hids : jobIds (s.file.map fun job =>
          if isRunnableJob deps.env {} dueCheckNow job then reserved now job else job) = jobIds s.file := by
        rw [jobIds, map_map]
        refine map_congr_left fun job _ => ?_
        show (if _ then _ else _ : CronJob).id = job.id
        split <;> rfl
      have hheld : ((s.file.filter (isRunnableJob deps.env {} dueCheckNow)).map fun job =>
            ({id := job.id, job := reserved now job} : DueJob)).map DueJob.id ++ manualIds s =
          jobIds (s.file.filter (isRunnableJob deps.env {} dueCheckNow)) ++ manualIds s := by
        rw [map_map]
        rfl
      refine Exclusive.of_persisted rfl rfl hheld ?_ (hids ▸ h.fileIds) ?_
      · refine nodup_append.mpr ⟨h.fileIds.sublist (filter_sublist.map _), hmanual ▸ h.nodup, ?_⟩
        intro a ha b hb hab
        obtain ⟨job, hjob, rfl⟩ := List.mem_map.mp ha
        obtain ⟨hmem, hrun⟩ := mem_filter.mp hjob
        have hmarked := h.fileMarked job hmem (by rw [hmanual, hab]; exact hb)
        simp [isRunnableJob, hmarked] at hrun
      · intro job hjob hin
        obtain ⟨old, hold, rfl⟩ := List.mem_map.mp hjob
        by_cases hrun : isRunnableJob deps.env {} dueCheckNow old = true
        · rw [if_pos hrun]
          rfl
        · rw [if_neg hrun] at hin ⊢
          rcases mem_append.mp hin with hd | hm
          · -- with distinct ids no other job of the file has the id of this one
            obtain ⟨due, hdue, hid⟩ := List.mem_map.mp hd
            obtain ⟨hmem, hdrun⟩ := mem_filter.mp hdue
            rw [inj_on_of_nodup_map h.fileIds hmem hold hid] at hdrun
            exact absurd hdrun hrun
          · exact h.fileMarked old hold (hmanual ▸ hm)

theorem nextWaiting_eq {dueJobs before after : List DueJob} {due : DueJob}
    (h : nextWaiting dueJobs = some (before, due, after)) :
    dueJobs = before ++ due :: after ∧ due.isWaiting = true := by
  induction dueJobs generalizing before with
  | nil => cases h
  | cons first rest ih =>
    unfold nextWaiting at h
    split at h
    · rename_i hw
      cases h
      exact ⟨rfl, hw⟩
    · obtain ⟨⟨b, f, a⟩, hrest, heq⟩ := map_eq_some_iff.mp h
      cases heq
      obtain ⟨rfl, hw⟩ := ih hrest
      exact ⟨rfl, hw⟩

theorem startDueJob_exclusive (h : Exclusive s) {startedAt : Int} {ids : TaskIds}
    (ht : startDueJob deps startedAt ids s = some t) : Exclusive t := by
  obtain ⟨dueJobs, htick, hstart⟩ := bind_eq_some_iff.mp ht
  split at hstart
  · obtain ⟨⟨before, due, after⟩, hnext, rfl⟩ := map_eq_some_iff.mp hstart
    obtain ⟨rfl, _⟩ := nextWaiting_eq hnext
    dsimp only
    generalize tryCreateCronTaskRun deps.channels _ _ _ _ = created
    have hstarted : Exclusive {s with store := due.markStarted startedAt s.store} := by
      unfold DueJob.markStarted
      split
      · cases hs : s.store with
        | none => exact h.same rfl hs.symm rfl
        | some jobs =>
          have hjobs : s.jobs = jobs := by rw [CronServiceState.jobs, hs]; rfl
          refine h.withJobs ?_ (Marked.modify (hjobs ▸ h.marked) fun _ _ hid => ⟨hid, fun _ => rfl⟩)
          rw [jobIds_modifyJob]
          · exact hjobs ▸ h.ids
          · exact fun _ _ hid => hid
      · exact h.same rfl rfl rfl
    refine hstarted.same ?_ rfl rfl
    show List.map DueJob.id _ ++ manualIds s = dueIds s ++ manualIds s
    rw [dueIds, htick]
    simp
  · cases hstart

theorem mem_applyOutcomes {config : CronConfig} {jobs : List CronJob}
    (h : job ∈ results.foldl (fun jobs result => applyOutcomeToStoredJob env config (alertNow result.jobId) result jobs) jobs)
    (hid : ∀ result ∈ results, job.id ≠ result.jobId) : job ∈ jobs := by
  induction results generalizing jobs with
  | nil => exact h
  | cons result rest ih =>
    have hrest := ih h fun r hr => hid r (mem_cons_of_mem _ hr)
    exact mem_applyOutcomeToStoredJob hrest (hid result mem_cons_self)

theorem jobIds_applyOutcomes {config : CronConfig} {jobs : List CronJob} :
    (jobIds (results.foldl (fun jobs result =>
      applyOutcomeToStoredJob env config (alertNow result.jobId) result jobs) jobs)).Sublist (jobIds jobs) := by
  induction results generalizing jobs with
  | nil => exact List.Sublist.refl _
  | cons result rest ih => exact ih.trans jobIds_applyOutcomeToStoredJob

/-- The outcomes of a tick are those of its due jobs. -/
theorem results_jobId {dueJobs : List DueJob} (h : dueJobs.mapM DueJob.result? = some results) :
    results.map TimedCronRunOutcome.jobId = dueJobs.map DueJob.id := by
  induction dueJobs generalizing results with
  | nil =>
    cases h
    rfl
  | cons due rest ih =>
    simp only [mapM_cons, bind_eq_bind, bind_eq_some_iff] at h
    obtain ⟨result, hresult, tail, htail, heq⟩ := h
    cases heq
    have hid : result.jobId = due.id := by
      unfold DueJob.result? at hresult
      split at hresult
      · cases hresult
        rfl
      · cases hresult
    rw [map_cons, map_cons, ih htail, hid]

theorem endTick_exclusive (h : Exclusive s) {ledgerNow : String → Int}
    (hc : ∀ p, pass deps (.endTick alertNow ledgerNow passNow) s = some p → Fresh (manualIds s) p.1 p.2)
    (ht : endTick deps alertNow ledgerNow passNow s = some t) : Exclusive t := by
  obtain ⟨dueJobs, htick, hend⟩ := bind_eq_some_iff.mp ht
  have hpart : (manualIds s).Sublist (held s) := sublist_append_right _ _
  split at hend
  · cases hend
  · cases hend
    exact ⟨h.nodup.sublist hpart, fun hn => by
      have := h.loaded hn
      rw [held, append_eq_nil_iff] at this
      exact this.2, h.ids, h.fileIds, h.marked.mono fun _ => hpart.mem, h.fileMarked.mono fun _ => hpart.mem⟩
  · rename_i results hne hresults
    cases hend
    have hresultIds := results_jobId hresults
    have hdue : dueIds s = dueJobs.map DueJob.id := by
      rw [dueIds, htick]
      rfl
    have hfresh : Fresh (manualIds s) passNow s.file := by
      refine hc (passNow, s.file) (if_neg fun hor => ?_)
      rcases hor with hn | hnil
      · exact absurd (htick.symm.trans hn) (some_ne_none _)
      · rw [hdue, ← hresultIds, map_eq_nil_iff] at hnil
        exact hne hnil
    have hother {job : CronJob} (hin : job.id ∈ manualIds s) : ∀ result ∈ results, job.id ≠ result.jobId := by
      intro result hr he
      have hmem : result.jobId ∈ dueIds s := by
        rw [hdue, ← hresultIds]
        exact List.mem_map_of_mem hr
      exact (nodup_append.mp h.nodup).2.2 _ hmem _ hin he.symm
    have hkeeps := recomputeForMaintenance_keeps deps.env false passNow
    have hheld : held {s with tick := none}.load = manualIds s := by
      rw [held_load]
      rfl
    refine Exclusive.of_persisted rfl rfl hheld (h.nodup.sublist hpart) ?_ ?_
    · unfold recomputeNextRunsForMaintenance
      rw [jobIds_walk hkeeps]
      exact h.fileIds.sublist jobIds_applyOutcomes
    · refine Marked.walk (fun job hj hin => ?_) hkeeps fun job hj hin => ?_
      · exact h.fileMarked job (mem_applyOutcomes hj (hother hin)) (hpart.mem hin)
      · exact hfresh job (mem_applyOutcomes hj (hother hin)) hin

end Sections

/-! ### Runs -/

theorem cronStep_exclusive {deps : CronDeps} (e : CronEvent) (s t : CronServiceState) (h : Exclusive s)
    (hc : Spares deps e s) (ht : cronStep deps e s = some t) : Exclusive t := by
  cases e with
  | read now =>
    cases ht
    exact readJobs_exclusive h (hc.passes _ rfl)
  | add input id loadNow now passNow =>
    simp only [cronStep] at ht
    split at ht
    · cases ht
    · rename_i hid
      cases ht
      exact addJob_exclusive h hid (hc.passes _ rfl)
  | update id patch now =>
    cases ht
    exact updateJob_exclusive h (hc.updates id patch now rfl)
  | remove id loadNow =>
    cases ht
    exact removeStoredJob_exclusive h
  | inspectRun tickNow =>
    cases ht
    exact inspectManualRunPreflight_exclusive h (hc.passes _ rfl)
  | preflightRun id mode tickNow now =>
    cases ht
    exact preflightRun_exclusive h (hc.passes _ rfl)
  | prepareRun i ids => exact prepareManualRun_exclusive h ht
  | endRun i outcome endedAt ledgerNow => exact h.sameJobs (endManualRun_same ht)
  | finishRun i alertNow passNow => exact finishPreparedManualRun_exclusive h hc.passes ht
  | beginTick dueCheckNow now => exact beginTick_exclusive h hc.passes ht
  | startDueJob startedAt ids => exact startDueJob_exclusive h ht
  | endDueJob i outcome endedAt => exact h.sameJobs (endDueJob_same ht)
  | endTick alertNow ledgerNow passNow => exact endTick_exclusive h hc.passes ht
  | _ => cases hc.running

/-- **At most one execution of a job is in flight**, whatever ticks, runs and edits
interleave, as long as no pass takes a held job for stale and no update of a held
job disables it or writes its marker. -/
theorem cron_mutual_exclusion (deps : CronDeps) (file : List CronJob) (hfile : (jobIds file).Nodup)
    (events : List CronEvent) {s : CronServiceState}
    (hspares : (cronStep deps).Within (Spares deps) events (created file))
    (hrun : (cronStep deps).run events (created file) = some s) (id : String) : (inFlight s).count id ≤ 1 := by
  have h : Exclusive s := Machine.run_within_invariant (cronStep deps) cronStep_exclusive events
    (created_exclusive hfile) hspares hrun
  exact nodup_iff_count_le_one.mp (h.nodup.sublist (inFlight_sublist s)) id

/-! ### Two runs of one job -/

/-- An environment without schedules to evaluate. -/
def plainEnv : CronEnv where
  dateParse _ := none
  timeZone := "UTC"
  nextRun _ _ _ := .ok none
  previousRun _ _ _ := .ok none
  sha256Head _ := 0
  urlProtocol _ := none
  failoverReason _ := none

def plainDeps : CronDeps where
  env := plainEnv
  config := {}
  channels := { normalizeMessageChannel := some, normalizeAccountId := id }

/-- A job that reports every hour. -/
def hourlyJob (enabled : Bool) : CronJob where
  id := "report"
  name := "report"
  enabled := enabled
  createdAtMs := 0
  updatedAtMs := 0
  schedule := .every 3600000 (some 0)
  sessionTarget := "isolated"
  wakeMode := .now
  payload := .agentTurn {message := "report"}
  state := {nextRunAtMs := if enabled then some 3600000 else none}

def taskIds (taskId : String) : TaskIds := ⟨taskId, "flow", 0⟩

/-- A forced run of a disabled job, and a second one while it goes on. -/
def forcedTwice : List CronEvent :=
  [.preflightRun "report" .force 1000 1000, .prepareRun 0 (taskIds "task-1"),
    .preflightRun "report" .force 2000 2000, .prepareRun 0 (taskIds "task-2")]

/-- The preflight of the second run clears the marker of the first, since the job is disabled. -/
theorem forced_twice_runs_twice :
    (jobIds [hourlyJob false]).Nodup ∧
      ((cronStep plainDeps).run forcedTwice (created [hourlyJob false])).map
        (fun s => (inFlight s).count "report") = some 2 := by
  decide

/-- A manual run of an enabled job, a reading and a tick beside it. -/
def forcedOnce : List CronEvent :=
  [.preflightRun "report" .force 1000 1000, .prepareRun 0 (taskIds "task-1"), .read 2000,
    .preflightRun "report" .force 3000 3000, .beginTick 3600000 3600000]

theorem spares_of_fresh {deps : CronDeps} {e : CronEvent} {s : CronServiceState} (hrun : isStartup e = false)
    (hu : ∀ id patch now, e ≠ .update id patch now)
    (hp : (pass deps e s).all fun p => decide (Fresh (keeps e s) p.1 p.2)) : Spares deps e s := by
  refine ⟨hrun, fun p hpass => ?_, fun id patch now he => absurd he (hu id patch now)⟩
  rw [hpass] at hp
  exact of_decide_eq_true hp

theorem cron_mutual_exclusion_forced : ∃ s, (cronStep plainDeps).run forcedOnce (created [hourlyJob true]) = some s ∧
    (inFlight s).count "report" ≤ 1 := by
  refine ⟨_, rfl, cron_mutual_exclusion plainDeps [hourlyJob true] (by decide) forcedOnce ?_ rfl "report"⟩
  have hu (e : CronEvent) (h : e ∈ forcedOnce) : ∀ id patch now, e ≠ .update id patch now := by
    intro id patch now he
    subst he
    simp [forcedOnce] at h
  iterate 5
    refine Machine.within_cons _ (spares_of_fresh rfl (hu _ (by simp [forcedOnce])) (by decide)) rfl ?_
  trivial

end OpenClaw.Cron
