import OpenClaw.Cron.Exclusion

/-! The slots of a job: no section moves a next run that no execution covers.

A slot is open while the job is enabled, its next run is set, and its last run was
before it. Every section leaves an open slot where it is, unless it applies an
outcome of the job; the startup catch-up may put it off. Left aside are the three
sections that recompute everything: `add`, the end of `start`, and an edit that
first has to load the store. -/
namespace OpenClaw.Cron
open Foundation CronServiceState List Option

/-! ### Open slots -/

structure OpenSlot (next : Int) (job : CronJob) : Prop where
  enabled : job.enabled = true
  pending : job.state.nextRunAtMs = some next
  uncovered : ∀ last, job.state.lastRunAtMs = some last → last < next

/-- The list has a job of this id with this slot open. -/
def HasSlot (id : String) (next : Int) (jobs : List CronJob) : Prop :=
  ∃ job ∈ jobs, job.id = id ∧ OpenSlot next job

/-- The jobs a section works on: those in memory, or those of the file it reloads. -/
def worked : CronEvent → CronServiceState → List CronJob
  | .finishRun i _ _, s =>
    if (s.manualRuns[i]?).any fun run => (findJob run.jobId s.ensureLoaded.jobs).isSome then s.file
    else s.ensureLoaded.jobs
  | .beginTick _ _, s => s.file
  | .endTick _ _ _, s => if dueIds s = [] then s.jobs else s.file
  | .prepareRun _ _, s | .endRun _ _ _ _, s | .startDueJob _ _, s | .endDueJob _ _ _, s
  | .startCandidate _ _, s | .endCandidate _ _, s => s.jobs
  | _, s => s.ensureLoaded.jobs

def candidateIds : Startup → List String
  | .catchUp candidates _ => candidates.map DueJob.id
  | _ => []

def deferredIds : Startup → List String
  | .catchUp _ deferredJobIds => deferredJobIds
  | _ => []

/-- The jobs of the executions whose outcome a section applies. -/
def applied : CronEvent → CronServiceState → List String
  | .finishRun i _ _, s => ((s.manualRuns[i]?).map ManualRun.jobId).toList
  | .endTick _ _ _, s => dueIds s
  | .applyCatchup _ _ _ _, s => candidateIds s.startup
  | _, _ => []

/-- The sections in question: those of other jobs' edits, and all that neither
adds a job, ends `start`, nor removes one from a store that is not loaded. -/
def InScope (id : String) : CronEvent → CronServiceState → Prop
  | .add _ _ _ _ _, _ => False
  | .finishStart _, _ => False
  | .update id' _ _, _ => id' ≠ id
  | .remove id' _, s => id' ≠ id ∧ s.store.isSome = true
  | _, _ => True

/-- The catch-up put the job off by a multiple of the stagger. -/
def PutOff (deps : CronDeps) (e : CronEvent) (s : CronServiceState) (id : String) (jobs : List CronJob) : Prop :=
  ∃ alertNow ledgerNow baseNow passNow, e = .applyCatchup alertNow ledgerNow baseNow passNow ∧
    id ∈ deferredIds s.startup ∧ ∃ job ∈ jobs, job.id = id ∧ ∃ k : Nat, 1 ≤ k ∧
      k ≤ (deferredIds s.startup).length ∧
      job.state.nextRunAtMs = some (baseNow + k * resolveMissedJobStagger deps.config)

/-! ### Walks -/

variable {env : CronEnv} {now passNow : Int} {job : CronJob} {f : CronJob → CronJob} {id' : String}
  {alertNow ledgerNow : String → Int} {ids : TaskIds} {t : CronServiceState}

/-- A maintenance pass leaves an open slot. -/
theorem walkJob_openSlot {recomputeExpired : Bool} {next : Int} (h : OpenSlot next job) :
    OpenSlot next (walkJob (recomputeForMaintenance env recomputeExpired now) now job) := by
  unfold walkJob
  rw [normalizeJobTickState_enabled h.enabled]
  simp only [Bool.false_eq_true, if_false]
  have hcovered : alreadyExecutedSlot job next = false := by
    unfold alreadyExecutedSlot
    cases hl : job.state.lastRunAtMs with
    | none => rfl
    | some last =>
      have := h.uncovered last hl
      simp only [any_some, decide_eq_false_iff_not]
      omega
  have hkeep (j : CronJob) (he : j.enabled = job.enabled) (hn : j.state.nextRunAtMs = job.state.nextRunAtMs)
      (hl : j.state.lastRunAtMs = job.state.lastRunAtMs) :
      OpenSlot next (recomputeForMaintenance env recomputeExpired now j) := by
    have hj : recomputeForMaintenance env recomputeExpired now j = j := by
      unfold recomputeForMaintenance
      rw [hn, h.pending]
      refine if_neg fun hall => ?_
      have hex := hall.2.2.2
      unfold alreadyExecutedSlot at hex hcovered
      rw [hl, hcovered] at hex
      cases hex
    rw [hj]
    exact ⟨he ▸ h.enabled, hn ▸ h.pending, fun last hlast => h.uncovered last (hl ▸ hlast)⟩
  split
  · exact hkeep _ (normalizeAnchor_enabled job) rfl rfl
  · exact hkeep _ (normalizeAnchor_enabled job) (by rw [normalizeAnchor_state]) (by rw [normalizeAnchor_state])

/-- A maintenance pass that does not look for executed slots leaves every next run of an enabled job. -/
theorem walkJob_next {next : Int} (he : job.enabled = true) (hn : job.state.nextRunAtMs = some next) :
    (walkJob (recomputeForMaintenance env false now) now job).state.nextRunAtMs = some next := by
  unfold walkJob
  rw [normalizeJobTickState_enabled he]
  simp only [Bool.false_eq_true, if_false]
  have hkeep (j : CronJob) (hj : j.state.nextRunAtMs = job.state.nextRunAtMs) :
      (recomputeForMaintenance env false now j).state.nextRunAtMs = some next := by
    unfold recomputeForMaintenance
    rw [hj, hn]
    simp [hj, hn]
  split
  · exact hkeep _ rfl
  · exact hkeep _ (by rw [normalizeAnchor_state])

section Lists
variable {id : String} {next : Int} {jobs : List CronJob}

theorem HasSlot.maintain {recomputeExpired : Bool} (h : HasSlot id next jobs) :
    HasSlot id next (recomputeNextRunsForMaintenance env recomputeExpired now jobs) := by
  obtain ⟨job, hj, hid, hslot⟩ := h
  refine ⟨_, List.mem_map_of_mem hj, ?_, walkJob_openSlot hslot⟩
  rw [walkJob_id (recomputeForMaintenance_keeps env recomputeExpired now)]
  exact hid

/-- A write to the run state leaves the slots. -/
def KeepsSlot (f : CronJob → CronJob) : Prop :=
  ∀ job, (f job).id = job.id ∧ (f job).enabled = job.enabled ∧
    (f job).state.nextRunAtMs = job.state.nextRunAtMs ∧ (f job).state.lastRunAtMs = job.state.lastRunAtMs

theorem KeepsSlot.openSlot (hf : KeepsSlot f) (h : OpenSlot next job) :
    OpenSlot next (f job) := by
  obtain ⟨_, he, hn, hl⟩ := hf job
  exact ⟨he ▸ h.enabled, hn ▸ h.pending, fun last hlast => h.uncovered last (hl ▸ hlast)⟩

theorem HasSlot.map (h : HasSlot id next jobs) (hf : KeepsSlot f) :
    HasSlot id next (jobs.map f) := by
  obtain ⟨job, hj, hid, hslot⟩ := h
  exact ⟨f job, List.mem_map_of_mem hj, (hf job).1.trans hid, hf.openSlot hslot⟩

theorem reserved_keepsSlot (now : Int) : KeepsSlot (reserved now) := fun _ => ⟨rfl, rfl, rfl, rfl⟩

theorem setRunningAtMs_keepsSlot (at' : Option Int) : KeepsSlot (setRunningAtMs at') :=
  fun _ => ⟨rfl, rfl, rfl, rfl⟩

theorem ite_keepsSlot (hf : KeepsSlot f) (p : CronJob → Prop) [DecidablePred p] :
    KeepsSlot fun job => if p job then f job else job := by
  intro job
  show (if p job then f job else job).id = _ ∧ (if p job then f job else job).enabled = _ ∧
    (if p job then f job else job).state.nextRunAtMs = _ ∧ (if p job then f job else job).state.lastRunAtMs = _
  split
  · exact hf job
  · exact ⟨rfl, rfl, rfl, rfl⟩

/-- A job of the list is in the changed list, as it was or changed. -/
theorem modifyJob_mem (id' : String) (f : CronJob → CronJob) (h : job ∈ jobs) :
    job ∈ modifyJob id' f jobs ∨ job.id = id' ∧ f job ∈ modifyJob id' f jobs := by
  induction jobs with
  | nil => cases h
  | cons first rest ih =>
    unfold modifyJob
    rcases mem_cons.mp h with rfl | hr
    · split
      · rename_i hid
        exact .inr ⟨hid, mem_cons_self⟩
      · exact .inl mem_cons_self
    · split
      · exact .inl (mem_cons_of_mem _ hr)
      · rcases ih hr with hm | ⟨hid, hm⟩
        · exact .inl (mem_cons_of_mem _ hm)
        · exact .inr ⟨hid, mem_cons_of_mem _ hm⟩

section
variable (h : HasSlot id next jobs)
include h

theorem HasSlot.modify (hf : KeepsSlot f) :
    HasSlot id next (modifyJob id' f jobs) := by
  obtain ⟨job, hj, hid, hslot⟩ := h
  rcases modifyJob_mem id' f hj with hm | ⟨_, hm⟩
  · exact ⟨job, hm, hid, hslot⟩
  · exact ⟨f job, hm, (hf job).1.trans hid, hf.openSlot hslot⟩

theorem HasSlot.modify_ne (hne : id' ≠ id) :
    HasSlot id next (modifyJob id' f jobs) := by
  obtain ⟨job, hj, hid, hslot⟩ := h
  exact ⟨job, mem_modifyJob_of_ne hj fun he => hne (he.symm.trans hid), hid, hslot⟩

theorem HasSlot.remove_ne (hne : id' ≠ id) :
    HasSlot id next (removeJob id' jobs) := by
  obtain ⟨job, hj, hid, hslot⟩ := h
  exact ⟨job, mem_removeJob.mpr ⟨hj, fun he => hne (he.symm.trans hid)⟩, hid, hslot⟩

theorem HasSlot.applyOutcome {config : CronConfig} {result : TimedCronRunOutcome} (hne : result.jobId ≠ id) :
    HasSlot id next (applyOutcomeToStoredJob env config now result jobs) := by
  unfold applyOutcomeToStoredJob
  split
  · exact h
  · rename_i job hfind
    dsimp only
    split
    · exact h.remove_ne fun he => hne ((findJob_mem hfind).2.symm.trans he)
    · exact h.modify_ne hne

theorem HasSlot.applyOutcomes {config : CronConfig} {results : List TimedCronRunOutcome}
    (hne : id ∉ results.map TimedCronRunOutcome.jobId) :
    HasSlot id next (results.foldl (fun jobs result =>
      applyOutcomeToStoredJob env config (alertNow result.jobId) result jobs) jobs) := by
  induction results generalizing jobs with
  | nil => exact h
  | cons result rest ih =>
    rw [map_cons, mem_cons, not_or] at hne
    exact ih (h.applyOutcome fun he => hne.1 he.symm) hne.2

end

/-- Deferring leaves the slot, or puts the job off by a multiple of the stagger. -/
theorem deferMissedJobs_slot (id : String) (staggerMs baseNow : Int) (all ids : List String) {m : Nat}
    {jobs : List CronJob} (hm : 1 ≤ m) (hlen : m - 1 + ids.length ≤ all.length) (hsub : ∀ i ∈ ids, i ∈ all)
    (h : ∃ job ∈ jobs, job.id = id ∧ (OpenSlot next job ∨ id ∈ all ∧ job.enabled = true ∧
      ∃ k : Nat, 1 ≤ k ∧ k ≤ all.length ∧ job.state.nextRunAtMs = some (baseNow + k * staggerMs))) :
    ∃ job ∈ deferMissedJobs staggerMs baseNow ids (m * staggerMs) jobs, job.id = id ∧
      (OpenSlot next job ∨ id ∈ all ∧ job.enabled = true ∧
        ∃ k : Nat, 1 ≤ k ∧ k ≤ all.length ∧ job.state.nextRunAtMs = some (baseNow + k * staggerMs)) := by
  induction ids generalizing m jobs with
  | nil => exact h
  | cons id' rest ih =>
    rw [length_cons] at hlen
    have hrest : ∀ i ∈ rest, i ∈ all := fun i hi => hsub i (mem_cons_of_mem _ hi)
    unfold deferMissedJobs
    split
    · have hoffset : (m : Int) * staggerMs + staggerMs = ((m + 1 : Nat) : Int) * staggerMs := by
        rw [Int.natCast_add, Int.add_mul]
        simp
      rw [hoffset]
      refine ih (by omega) (by omega) hrest ?_
      obtain ⟨job, hj, hid, hcase⟩ := h
      have henabled : job.enabled = true := by
        rcases hcase with hslot | ⟨_, he, _⟩
        · exact hslot.enabled
        · exact he
      rcases modifyJob_mem id' (fun job =>
        {job with state := {job.state with nextRunAtMs := some (baseNow + m * staggerMs)}}) hj with hmem | ⟨hjid, hmem⟩
      · exact ⟨job, hmem, hid, hcase⟩
      · refine ⟨_, hmem, hid, .inr ⟨?_, henabled, m, hm, by omega, rfl⟩⟩
        rw [← hid, hjid]
        exact hsub id' mem_cons_self
    · exact ih hm (by omega) hrest h

end Lists

/-! ### Sections -/

section Sections
variable {deps : CronDeps} {s : CronServiceState} {id : String} {next : Int}

theorem persistIfChanged_jobs (jobs : List CronJob) : (s.persistIfChanged jobs).jobs = jobs := by
  unfold CronServiceState.persistIfChanged
  split
  · rename_i h
    exact h.symm
  · rfl

theorem ensureLoadedRecomputing_loaded (h : s.store.isSome = true) :
    s.ensureLoadedRecomputing env now = s := if_pos h

theorem ensureLoaded_store (s : CronServiceState) : s.ensureLoaded.store.isSome = true := by
  unfold CronServiceState.ensureLoaded
  split
  · assumption
  · rfl

theorem updateJob_slot {patch : CronJobPatch} (hne : id' ≠ id) (h : HasSlot id next s.ensureLoaded.jobs) :
    HasSlot id next (updateJob deps id' patch now s).jobs := by
  unfold updateJob updateJobs
  dsimp only
  split
  · rename_i e
    split at e
    · cases e
      exact h
    · split at e <;> cases e
      exact h.modify_ne hne
  · rename_i e
    split at e
    · cases e
    · split at e <;> cases e
      exact h.modify_ne hne

theorem prepareManualRun_slot {i : Nat} (h : HasSlot id next s.jobs) (ht : prepareManualRun deps i ids s = some t) :
    HasSlot id next t.jobs := by
  obtain ⟨preflight, _, rfl⟩ := map_eq_some_iff.mp ht
  dsimp only
  split
  · exact h
  · rename_i job hfind
    split
    · exact h
    · -- the reserved job is the one found, so the write is a write to it
      have hfound : modifyJob preflight.jobId (fun _ => reserved preflight.now job) s.jobs =
          modifyJob preflight.jobId (reserved preflight.now) s.jobs := modifyJob_found hfind
      show HasSlot id next (modifyJob preflight.jobId (fun _ => reserved preflight.now job) s.jobs)
      rw [hfound]
      exact h.modify (reserved_keepsSlot _)

theorem finishPreparedManualRun_slot {i : Nat} {alertNow : Int}
    (h : HasSlot id next (worked (.finishRun i alertNow passNow) s))
    (hne : id ∉ applied (.finishRun i alertNow passNow) s)
    (ht : finishPreparedManualRun deps i alertNow passNow s = some t) : HasSlot id next t.jobs := by
  unfold finishPreparedManualRun at ht
  split at ht
  · rename_i run hrun
    obtain ⟨⟨outcome, endedAt⟩, _, rfl⟩ := map_eq_some_iff.mp ht
    have hrid : run.jobId ≠ id := by
      intro he
      refine hne ?_
      unfold applied
      simp [hrun, he]
    unfold worked at h
    simp only [hrun, any_some] at h
    dsimp only
    split
    · rename_i hnone
      rw [if_neg (by rw [show findJob run.jobId s.ensureLoaded.jobs = none from hnone]; decide)] at h
      exact h
    · rename_i job hsome
      rw [if_pos (by rw [show findJob run.jobId s.ensureLoaded.jobs = some job from hsome]; rfl)] at h
      have hfile : s.ensureLoaded.file = s.file := by
        unfold CronServiceState.ensureLoaded
        split <;> rfl
      unfold manualRunJobs
      refine HasSlot.maintain ?_
      rw [show CronServiceState.file _ = s.ensureLoaded.file from rfl, hfile]
      unfold mergeManualRunSnapshotAfterReload
      split
      · exact h.remove_ne hrid
      · exact h.modify_ne hrid
  · cases ht

theorem beginTick_slot {dueCheckNow : Int} (h : HasSlot id next s.file)
    (ht : beginTick deps dueCheckNow now s = some t) : HasSlot id next t.jobs := by
  unfold beginTick at ht
  split at ht
  · cases ht
  · dsimp only at ht
    split at ht
    · cases ht
      show HasSlot id next (s.load.persistIfChanged _).jobs
      rw [persistIfChanged_jobs]
      exact h.maintain
    · cases ht
      exact h.map (ite_keepsSlot (reserved_keepsSlot now) fun job =>
        isRunnableJob deps.env {} dueCheckNow job = true)

theorem startDueJob_slot {startedAt : Int} (h : HasSlot id next s.jobs)
    (ht : startDueJob deps startedAt ids s = some t) : HasSlot id next t.jobs := by
  obtain ⟨dueJobs, _, hstart⟩ := bind_eq_some_iff.mp ht
  split at hstart
  · obtain ⟨⟨before, due, after⟩, _, rfl⟩ := map_eq_some_iff.mp hstart
    show HasSlot id next ((due.markStarted startedAt s.store).getD [])
    unfold DueJob.markStarted
    split
    · cases hs : s.store with
      | none =>
        rw [CronServiceState.jobs, hs] at h
        exact h
      | some jobs =>
        rw [CronServiceState.jobs, hs] at h
        exact h.modify (setRunningAtMs_keepsSlot _)
    · exact h
  · cases hstart

theorem endTick_slot (h : HasSlot id next (worked (.endTick alertNow ledgerNow passNow) s)) (hne : id ∉ dueIds s)
    (ht : endTick deps alertNow ledgerNow passNow s = some t) : HasSlot id next t.jobs := by
  obtain ⟨dueJobs, htick, hend⟩ := bind_eq_some_iff.mp ht
  have hdue : dueIds s = dueJobs.map DueJob.id := by
    rw [dueIds, htick]
    rfl
  change HasSlot id next (if dueIds s = [] then s.jobs else s.file) at h
  split at hend
  · cases hend
  · rename_i hnil
    cases hend
    have hempty : dueIds s = [] := by
      rw [hdue, ← results_jobId hnil]
      rfl
    rw [if_pos hempty] at h
    exact h
  · rename_i results hne' hresults
    cases hend
    rw [hdue, ← results_jobId hresults] at hne
    have hsome : dueIds s ≠ [] := by
      rw [hdue, ← results_jobId hresults]
      exact fun he => hne' (map_eq_nil_iff.mp he)
    rw [if_neg hsome] at h
    exact (HasSlot.applyOutcomes h hne).maintain

theorem clearMarkers_slot (h : HasSlot id next s.ensureLoaded.jobs) (ht : clearMarkers deps s = some t) :
    HasSlot id next t.jobs := by
  unfold clearMarkers at ht
  split at ht
  · split at ht
    · cases ht
    · cases ht
      dsimp only
      split
      · exact h
      · exact h.map (setRunningAtMs_keepsSlot none)
  · cases ht

theorem planStartupCatchup_slot (h : HasSlot id next s.ensureLoaded.jobs)
    (ht : planStartupCatchup deps now s = some t) : HasSlot id next t.jobs := by
  unfold planStartupCatchup at ht
  split at ht
  · dsimp only at ht
    split at ht
    · cases ht
      exact h
    · cases ht
      exact h.map (ite_keepsSlot (reserved_keepsSlot now) fun job => job ∈ List.take _ _)
  · cases ht

theorem HasSlot.sameJobs (h : HasSlot id next s.jobs) (hsame : SameJobs s t) : HasSlot id next t.jobs := by
  rwa [CronServiceState.jobs, hsame.store]

theorem applyOutcomes_slot {results : List TimedCronRunOutcome} (hs : s.store.isSome = true)
    (h : HasSlot id next s.jobs) (hne : id ∉ results.map TimedCronRunOutcome.jobId) :
    HasSlot id next (applyOutcomes deps alertNow ledgerNow results s).jobs := by
  obtain ⟨jobs, hstore⟩ := isSome_iff_exists.mp hs
  rw [CronServiceState.jobs, hstore] at h
  unfold applyOutcomes CronServiceState.jobs
  dsimp only
  rw [hstore]
  exact h.applyOutcomes hne

theorem applyStartupCatchupOutcomes_slot {baseNow : Int} (h : HasSlot id next s.ensureLoaded.jobs)
    (hne : id ∉ candidateIds s.startup)
    (ht : applyStartupCatchupOutcomes deps alertNow ledgerNow baseNow passNow s = some t) :
    HasSlot id next t.jobs ∨ PutOff deps (.applyCatchup alertNow ledgerNow baseNow passNow) s id t.jobs := by
  unfold applyStartupCatchupOutcomes at ht
  split at ht
  · rename_i candidates deferredJobIds hstartup
    split at ht
    · cases ht
    · rename_i results hresults
      cases ht
      have hne' : id ∉ results.map TimedCronRunOutcome.jobId := by
        rw [hstartup] at hne
        rw [results_jobId hresults]
        exact hne
      have hbefore : HasSlot id next (applyOutcomes deps alertNow ledgerNow results
          {s.ensureLoaded.refresh with startup := .caughtUp}).jobs :=
        applyOutcomes_slot (ensureLoaded_store s) h hne'
      generalize applyOutcomes deps alertNow ledgerNow results _ = u at hbefore ⊢
      have hdeferred := deferMissedJobs_slot id (resolveMissedJobStagger deps.config) baseNow deferredJobIds
        deferredJobIds (m := 1) (by omega) (by omega) (fun _ hi => hi)
        (hbefore.imp fun _ hj => ⟨hj.1, hj.2.1, .inl hj.2.2⟩)
      rw [Int.natCast_one, Int.one_mul] at hdeferred
      obtain ⟨job, hj, hid, hslot | ⟨hin, he, k, hk, hkle, hnext⟩⟩ := hdeferred
      · exact .inl (HasSlot.maintain ⟨job, hj, hid, hslot⟩)
      · refine .inr ⟨alertNow, ledgerNow, baseNow, passNow, rfl, ?_, _, List.mem_map_of_mem hj, ?_, k, hk, ?_,
          walkJob_next he hnext⟩
        · rw [hstartup]
          exact hin
        · rw [walkJob_id (recomputeForMaintenance_keeps deps.env false passNow)]
          exact hid
        · rw [hstartup]
          exact hkle
  · cases ht

end Sections

/-- **No open slot is moved without an execution.** A section leaves the slot of a
job as it loads it, unless it applies an outcome of the job, and the startup
catch-up may put the job off by a multiple of the stagger. -/
theorem section_keeps_slot (deps : CronDeps) (e : CronEvent) (s t : CronServiceState) (id : String) (next : Int)
    (hscope : InScope id e s) (hslot : HasSlot id next (worked e s)) (ht : cronStep deps e s = some t) :
    id ∈ applied e s ∨ HasSlot id next t.jobs ∨ PutOff deps e s id t.jobs := by
  by_cases happlied : id ∈ applied e s
  · exact .inl happlied
  refine .inr ?_
  cases e with
  | read now =>
    cases ht
    refine .inl ?_
    unfold readJobs
    dsimp only
    rw [persistIfChanged_jobs]
    exact HasSlot.maintain hslot
  | update id' patch now =>
    cases ht
    exact .inl (updateJob_slot hscope hslot)
  | remove id' loadNow =>
    cases ht
    refine .inl ?_
    have hloaded : s.ensureLoaded = s := if_pos hscope.2
    unfold removeStoredJob
    rw [ensureLoadedRecomputing_loaded hscope.2]
    change HasSlot id next s.ensureLoaded.jobs at hslot
    rw [hloaded] at hslot
    exact hslot.remove_ne hscope.1
  | inspectRun tickNow =>
    cases ht
    exact .inl (HasSlot.maintain hslot)
  | preflightRun id' mode tickNow now =>
    cases ht
    refine .inl ?_
    have hkept : HasSlot id next (inspectManualRunPreflight deps tickNow s).jobs := HasSlot.maintain hslot
    unfold preflightRun
    dsimp only
    split <;> exact hkept
  | prepareRun i ids => exact .inl (prepareManualRun_slot hslot ht)
  | endRun i outcome endedAt ledgerNow => exact .inl (hslot.sameJobs (endManualRun_same ht))
  | finishRun i alertNow passNow => exact .inl (finishPreparedManualRun_slot hslot happlied ht)
  | beginTick dueCheckNow now => exact .inl (beginTick_slot hslot ht)
  | startDueJob startedAt ids => exact .inl (startDueJob_slot hslot ht)
  | endDueJob i outcome endedAt => exact .inl (hslot.sameJobs (endDueJob_same ht))
  | endTick alertNow ledgerNow passNow => exact .inl (endTick_slot hslot happlied ht)
  | clearMarkers => exact .inl (clearMarkers_slot hslot ht)
  | planCatchup now => exact .inl (planStartupCatchup_slot hslot ht)
  | startCandidate startedAt ids => exact .inl (hslot.sameJobs (startCandidate_same ht))
  | endCandidate outcome endedAt => exact .inl (hslot.sameJobs (endCandidate_same ht))
  | applyCatchup alertNow ledgerNow baseNow passNow => exact applyStartupCatchupOutcomes_slot hslot happlied ht
  | _ => exact absurd hscope not_false

theorem section_keeps_slot_read :
    "report" ∈ applied (.read 4000000) (created [hourlyJob true]) ∨
      HasSlot "report" 3600000 (readJobs plainDeps 4000000 (created [hourlyJob true])).jobs ∨
      PutOff plainDeps (.read 4000000) (created [hourlyJob true]) "report"
        (readJobs plainDeps 4000000 (created [hourlyJob true])).jobs :=
  section_keeps_slot plainDeps (.read 4000000) (created [hourlyJob true]) _ "report" 3600000 trivial
    ⟨hourlyJob true, mem_cons_self, rfl, rfl, rfl, fun _ h => nomatch h⟩ rfl

/-- The next run of a job after a run of sections, and the executions there were. -/
def nextAfter (deps : CronDeps) (events : List CronEvent) (file : List CronJob) (id : String) :
    Option (Option Int × List String) :=
  ((cronStep deps).run events (created file)).map fun s =>
    ((findJob id s.jobs).bind (·.state.nextRunAtMs), s.executed)

def deferringDeps : CronDeps := {plainDeps with config := {maxMissedJobsPerRestart := some 0}}

/-- A job without its next run, which a reading in memory repairs. -/
def unscheduledJob : CronJob := {hourlyJob true with state := {}}

/-- A job that waits for one o'clock is moved, and nothing is executed: by the
catch-up, at the end of `start`, by a new job, by a removal that loads the store,
and by a tick that drops what a preflight repaired in memory. -/
theorem slot_moved_without_execution :
    nextAfter deferringDeps [.clearMarkers, .planCatchup 4000000, .applyCatchup (fun _ => 0) (fun _ => 0) 4000000
      4000000] [hourlyJob true] "report" = some (some 4005000, []) ∧
    nextAfter plainDeps [.clearMarkers, .planCatchup 3000000, .finishStart 4000000] [hourlyJob true] "report" =
      some (some 7200000, []) ∧
    nextAfter plainDeps [.read 3000000, .add
        { name := "other", schedule := .every 3600000 none, sessionTarget := "isolated", wakeMode := .now,
          payload := .agentTurn {message := "other"} } "other" 4000000 4000000 4000000]
      [hourlyJob true] "report" = some (some 7200000, []) ∧
    nextAfter plainDeps [.remove "other" 4000000] [hourlyJob true] "report" = some (some 7200000, []) ∧
    nextAfter plainDeps [.inspectRun 1000] [unscheduledJob] "report" = some (some 3600000, []) ∧
    nextAfter plainDeps [.inspectRun 1000, .beginTick 4000000 4000000] [unscheduledJob] "report" =
      some (some 7200000, []) := by
  decide

end OpenClaw.Cron
