import OpenClaw.Agents.WriteLockSteps

/-! The session write lock excludes, where its steps do not cross.

Reading a lock, condemning it, removing it and creating the next one are steps of their own, and
other calls come in between. In a run in which no lock file is created while a removal is on its
way, a lock is only condemned while it is the one at the path, no call takes the lock that another
call of its process is just creating for an orphan, and a call is released once, the lock is
exclusive and every removal takes the file it was meant for. -/
namespace OpenClaw.Agents
open Foundation

section Exclusion

variable {π τ : Type} {host : LockHost π τ} {s s' : LockState π τ}

/-! ### The condition -/

/-- Live processes release within `staleMs`: the clock does not pass it while a file is owned. -/
def ReleasedInTime (host : LockHost π τ) (action : LockAction π τ) (s : LockState π τ) : Prop :=
  match action with
  | .tick ms => ∀ t t' file, s.file = some file → host.proc t' ∈ s.running →
    (s.phase t').owns? = some file.id → s.now + ms - file.createdMs ≤ host.staleMs t
  | _ => True

def Orderly (host : LockHost π τ) (action : LockAction π τ) (s : LockState π τ) : Prop :=
  match action with
  | .openFile _ => s.file = none → ∀ t, host.proc t ∈ s.running → (s.phase t).aims? = none
  | .inspect t => ∀ id payload, s.phase t = .readDone (some (id, payload)) → condemns host s t payload = true →
    (∀ file, s.file = some file → file.id = id) ∧
      (s.isOrphan host t payload = true → ∀ t', host.proc t' = host.proc t → (s.phase t').creates? = none)
  | .release t => ∀ id held, s.phase t = .released id → s.held (host.proc t) = some held → held.id ≠ id
  | _ => True

/-! ### The property -/

/-- Two calls of running processes that hold the lock are calls of one process, and share one lock of
its map, which counts them both. -/
def Exclusive (host : LockHost π τ) (s : LockState π τ) : Prop :=
  ∀ t t' id id', host.proc t ∈ s.running → host.proc t' ∈ s.running → t ≠ t' →
    s.phase t = .holding id → s.phase t' = .holding id' →
    host.proc t = host.proc t' ∧ ∃ held, s.held (host.proc t) = some held ∧ held.id = id ∧ held.id = id' ∧ 2 ≤ held.count

/-- A file that a call is about to remove is not one created later than the one it was about. -/
def RemovesOwn (host : LockHost π τ) (s : LockState π τ) : Prop :=
  ∀ t id file, host.proc t ∈ s.running → (s.phase t).aims? = some id → s.file = some file → file.id = id

/-! ### Excluding and aiming -/

theorem two_le_length {holders : List τ} {t t' : τ} (ht : t ∈ holders) (ht' : t' ∈ holders) (hne : t ≠ t') :
    2 ≤ holders.length := by
  match holders, ht, ht' with
  | [_], ht, ht' => exact absurd ((List.mem_singleton.mp ht).trans (List.mem_singleton.mp ht').symm) hne
  | _ :: _ :: _, _, _ => exact Nat.le_add_left 2 _

theorem exclusive_of_inv (h : LockInv host s) : Exclusive host s := by
  intro t t' id id' hrun hrun' hne hp hp'
  obtain ⟨file, hfile, hid, howner⟩ := h.owns t id hrun (by rw [hp]; rfl)
  obtain ⟨file', hfile', hid', howner'⟩ := h.owns t' id' hrun' (by rw [hp']; rfl)
  rw [hfile] at hfile'
  cases hfile'
  have hproc : host.proc t = host.proc t' := howner.symm.trans howner'
  obtain ⟨count, hheld⟩ := h.holds t id hrun hp
  obtain ⟨holders, -, -, hlength, hmem⟩ := h.counted _ _ hrun hheld
  refine ⟨hproc, _, hheld, rfl, hid.symm.trans hid', ?_⟩
  rw [← hlength]
  refine two_le_length ((hmem t).mpr ⟨rfl, hp⟩) ((hmem t').mpr ⟨hproc.symm, ?_⟩) hne
  rw [hp', ← hid, ← hid']

theorem removesOwn_of_inv (h : LockInv host s) : RemovesOwn host s :=
  fun t id file hrun hid hfile => (h.aims t id hrun hid).only file hfile

/-! ### Locks of dead processes -/

/-- A reason that is not about the payload condemns. -/
theorem condemns_of_reason {t : τ} {payload : Option LockFilePayload} (reason : StaleReason)
    (hmem : reason ∈ (inspectLockPayload (s.isPidAlive host) (s.getProcessStartTime host) payload (host.staleMs t)
      s.now).staleReasons)
    (hreason : (reason == .missingPid || reason == .invalidCreatedAt) = false) : condemns host s t payload = true := by
  have hmem' : reason ∈ (s.reclaimDetails host t payload).staleReasons := by
    unfold LockState.reclaimDetails
    cases s.isOrphan host t payload with
    | true => exact List.mem_append_left _ hmem
    | false => exact hmem
  have hstale : (s.reclaimDetails host t payload).stale = true := by
    unfold LockInspectionDetails.stale
    rw [Bool.not_eq_true', List.isEmpty_eq_false_iff]
    exact List.ne_nil_of_mem hmem'
  have hall : ((s.reclaimDetails host t payload).staleReasons.all fun reason =>
      reason == .missingPid || reason == .invalidCreatedAt) = false := by
    rw [List.all_eq_false]
    exact ⟨reason, hmem', by rw [hreason]; exact Bool.false_ne_true⟩
  unfold condemns lockInspectionNeedsMtimeStaleFallback
  rw [hstale, hall]
  rfl

/-- The lock of a dead process is condemned, unless its pid is in use and a start time is missing. -/
theorem condemns_dead (h : LockInv host s) {file : LockFile π} {payload : LockFilePayload} (hfile : s.file = some file)
    (hpayload : file.payload = some payload) (hdead : file.owner ∉ s.running)
    (hpid : ∀ p ∈ s.running, host.pid p = host.pid file.owner → host.startTime file.owner ≠ none ∧ host.startTime p ≠ none)
    (t : τ) : condemns host s t (some payload) = true := by
  obtain ⟨hpayloadPid, hstart, -⟩ := h.payload file payload hfile hpayload
  cases halive : s.isPidAlive host (host.pid file.owner) with
  | false =>
    refine condemns_of_reason .deadPid ?_ rfl
    unfold inspectLockPayload
    simp only [Option.bind_some, hpayloadPid]
    rw [filter_pid (host.pid_pos _)]
    simp [halive]
  | true =>
    obtain ⟨p, hp, hsame⟩ := List.any_eq_true.mp halive
    have hsame : host.pid p = host.pid file.owner := beq_iff_eq.mp hsame
    obtain ⟨hownerKnown, hpKnown⟩ := hpid p hp hsame
    have hne : p ≠ file.owner := by
      rintro rfl
      exact hdead hp
    have hdiffer := (host.startTime_ne p file.owner hne hsame).resolve_left hpKnown
    have hcurrent := (h.isPidAlive hp).2
    rw [hsame] at hcurrent
    refine condemns_of_reason .recycledPid ?_ rfl
    have hrecycled : pidRecycled (s.getProcessStartTime host) true (some (host.pid file.owner)) payload.starttime = true := by
      unfold pidRecycled
      rw [hstart]
      cases howner : host.startTime file.owner with
      | none => exact absurd howner hownerKnown
      | some stored =>
        cases hstartP : host.startTime p with
        | none => exact absurd hstartP hpKnown
        | some current =>
          rw [howner, hstartP] at hdiffer
          simp only [hcurrent, hstartP]
          exact bne_iff_ne.mpr fun heq => hdiffer (congrArg some heq)
    unfold inspectLockPayload
    simp only [Option.bind_some, hpayloadPid]
    rw [filter_pid (host.pid_pos _)]
    simp [halive, hrecycled]

variable [DecidableEq τ]

theorem inspectStep_of_condemns {t : τ} {id : Nat} {payload : Option LockFilePayload}
    (h : condemns host s t payload = true) : s.inspectStep host t (some (id, payload)) = s.setPhase t (.removing id) := by
  unfold condemns at h
  rw [Bool.and_eq_true, Bool.not_eq_true'] at h
  unfold LockState.inspectStep
  simp [h.1, h.2]

variable [DecidableEq π]

/-- The next attempt at the lock, up to the decision. -/
def attempt (t : τ) : List (LockAction π τ) := [.openFile t, .read t, .inspect t]

/-- The lock of a dead process is reclaimed at the next attempt: with a readable payload at once, unless
its pid is in use again and a start time is missing, and otherwise when it is older than `staleMs`. -/
def ReclaimsDead (host : LockHost π τ) (s : LockState π τ) : Prop :=
  ∀ t file, host.proc t ∈ s.running → s.phase t = .trying → s.file = some file → file.owner ∉ s.running →
    (∀ payload, file.payload = some payload →
      (∀ p ∈ s.running, host.pid p = host.pid file.owner → host.startTime file.owner ≠ none ∧ host.startTime p ≠ none) →
      ∃ s', (lockMachine host).run (attempt t) s = some s' ∧ s'.phase t = .removing file.id) ∧
    (file.payload = none → host.staleMs t < s.now - file.mtimeMs →
      ∃ s', (lockMachine host).run (attempt t ++ [.stat t]) s = some s' ∧ s'.phase t = .removing file.id)

theorem machine_call {t : τ} {action : LockAction π τ} (hrun : host.proc t ∈ s.running) (hcall : action.call? = some t) :
    lockMachine host action s = s.callStep host t action := by
  have hif : (if host.proc t ∈ s.running then s.callStep host t action else none) = s.callStep host t action := if_pos hrun
  cases action <;> cases hcall <;> exact hif

/-- A call that finds the file of a lock comes to pass its verdict on it. -/
theorem run_attempt {t : τ} {file : LockFile π} {rest : List (LockAction π τ)} (hrun : host.proc t ∈ s.running)
    (hphase : s.phase t = .trying) (hfile : s.file = some file) (hs' : (lockMachine host).run rest
      ((s.setPhase t (.readDone (some (file.id, file.payload)))).inspectStep host t (some (file.id, file.payload))) = some s') :
    (lockMachine host).run (attempt t ++ rest) s = some s' := by
  have hopen : lockMachine host (.openFile t) s = some (s.setPhase t .contended) := by
    rw [machine_call hrun rfl]
    unfold LockState.callStep LockState.openStep
    rw [hphase, hfile]
  have hread : lockMachine host (.read t) (s.setPhase t .contended) =
      some (s.setPhase t (.readDone (some (file.id, file.payload)))) := by
    rw [machine_call (by exact hrun) rfl]
    unfold LockState.callStep LockState.readStep
    rw [setPhase_self]
    simp only [setPhase_file, hfile, Option.map_some, setPhase_setPhase]
  refine (Machine.run_cons_some _).mpr ⟨_, hopen, (Machine.run_cons_some _).mpr ⟨_, hread, ?_⟩⟩
  refine (Machine.run_cons_some _).mpr ⟨_, ?_, hs'⟩
  rw [machine_call (by exact hrun) rfl]
  unfold LockState.callStep
  rw [setPhase_self]

theorem reclaimsDead_of_inv (h : LockInv host s) : ReclaimsDead host s := by
  intro t file hrun hphase hfile hdead
  have hdone : LockInv host (s.setPhase t (.readDone (some (file.id, file.payload)))) := by
    have hread := read_inv (s := s.setPhase t .contended) (h.setQuiet hrun (by simp [hphase]) rfl) hrun (setPhase_self s t _)
    unfold LockState.readStep at hread
    simpa only [setPhase_file, hfile, Option.map_some, setPhase_setPhase] using hread
  constructor
  · intro payload hpayload hpid
    have hcondemned := condemns_dead hdone hfile hpayload hdead hpid t
    refine ⟨s.setPhase t (.removing file.id), run_attempt hrun hphase hfile ?_, setPhase_self _ _ _⟩
    rw [hpayload] at hcondemned ⊢
    rw [inspectStep_of_condemns hcondemned, setPhase_setPhase]
    rfl
  · intro hpayload hold
    refine ⟨s.setPhase t (.removing file.id), run_attempt hrun hphase hfile ?_, setPhase_self _ _ _⟩
    -- A file with no payload is stale for its age alone.
    have hstat : (s.setPhase t (.readDone (some (file.id, none)))).inspectStep host t (some (file.id, none)) =
        (s.setPhase t (.readDone (some (file.id, none)))).setPhase t .statting := by
      unfold LockState.inspectStep
      rfl
    rw [hpayload, hstat, setPhase_setPhase]
    refine (Machine.run_cons_some _).mpr ⟨_, ?_, rfl⟩
    rw [machine_call (by exact hrun) rfl]
    unfold LockState.callStep LockState.statStep
    rw [setPhase_self]
    have hnow : host.staleMs t < (s.setPhase t .statting).now - file.mtimeMs := hold
    simp only [setPhase_file, hfile, hnow, if_true, setPhase_setPhase]

/-! ### Runs -/

theorem call_inv {t : τ} {action : LockAction π τ} (h : LockInv host s) (hrun : host.proc t ∈ s.running)
    (hcall : action.call? = some t) (hord : Orderly host action s) (hstep : s.callStep host t action = some s') :
    LockInv host s' := by
  have quiet : ∀ {phase : LockPhase}, (∀ id, s.phase t ≠ .holding id) → phase.knows? = none →
      LockInv host (s.setPhase t phase) := fun hnot hknows => h.setQuiet hrun hnot hknows
  unfold LockState.callStep at hstep
  split at hstep <;> cases hstep
  case h_1 hphase => exact enter_inv h hrun hphase
  case h_2 hphase => exact open_inv h hrun hphase hord
  case h_3 hphase => exact quiet (by simp [hphase]) rfl
  case h_4 hphase => exact write_inv h hrun hphase
  case h_5 hphase => exact writeFails_inv h hrun hphase
  case h_6 hphase => exact setHeld_inv h hrun hphase
  case h_7 hphase => exact read_inv h hrun hphase
  case h_8 hphase =>
    cases hcall
    refine inspect_inv h hrun hphase fun id payload hsnapshot hcondemned => ?_
    exact hord id payload (by rw [hphase, hsnapshot]) hcondemned
  case h_9 hphase => exact stat_inv h hrun hphase
  case h_10 hphase => exact h.removeFile hrun (by rw [hphase]; rfl) rfl rfl nofun nofun
  case h_11 hphase => exact quiet (by simp [hphase]) rfl
  case h_12 hphase => exact release_inv h hrun (Or.inl hphase)
  case h_13 hphase =>
    cases hcall
    exact release_inv h hrun (Or.inr ⟨hphase, fun held hheld => hord _ held hphase hheld⟩)
  case h_14 id hphase =>
    refine h.removeFile hrun (by rw [hphase]; rfl) rfl rfl ?_ nofun
    rintro id' ⟨⟩
    exact h.knows t id (by rw [hphase]; rfl)

theorem step_inv {action : LockAction π τ} (h : LockInv host s)
    (hc : ReleasedInTime host action s ∧ Orderly host action s) (hstep : lockMachine host action s = some s') :
    LockInv host s' := by
  have hcall : ∀ t, action.call? = some t → (if host.proc t ∈ s.running then s.callStep host t action else none) = some s' →
      LockInv host s' := by
    intro t ht hs
    by_cases hrun : host.proc t ∈ s.running
    · rw [if_pos hrun] at hs
      exact call_inv h hrun ht hc.2 hs
    · rw [if_neg hrun] at hs
      cases hs
  cases action with
  | start p =>
    simp only [lockMachine] at hstep
    split at hstep
    · next hfree =>
      cases hstep
      exact start_inv h hfree.1 hfree.2.1 hfree.2.2
    · cases hstep
  | crash p =>
    simp only [lockMachine] at hstep
    split at hstep
    · cases hstep
      exact crash_inv h p
    · cases hstep
  | tick ms =>
    cases hstep
    exact tick_inv h hc.1
  | enter t | openFile t | writePayload t | writeFails t | setHeld t | read t | inspect t | stat t | remove t | wake t
  | timeout t | release t | closeFile t => exact hcall t rfl hstep

theorem run_inv {actions : List (LockAction π τ)}
    (hc : (lockMachine host).Within (fun action s => ReleasedInTime host action s ∧ Orderly host action s) actions
      LockState.init)
    (hrun : (lockMachine host).run actions LockState.init = some s) : LockInv host s :=
  Machine.run_within_invariant (lockMachine host) (fun _ _ _ h hc hs => step_inv h hc hs) actions (init_inv host) hc hrun

end Exclusion

/-! ### Crossing steps -/

/-- Processes with a pid and a readable start time of their own, each with one call. -/
def ownPids : LockHost Nat Nat where
  proc := id
  pid := fun p => p + 1
  startTime := fun p => some p
  allowReentrant := fun _ => true
  staleMs := fun _ => 1800000
  pid_pos := Nat.succ_pos
  startTime_ne := fun _ _ hne hpid => absurd (Nat.succ.inj hpid) hne

/-- Process 0 dies with the lock. Processes 1 and 2 both read it and find it stale; 1 removes it and takes
the lock, and 2 then removes the file of 1 and takes the lock too. -/
def crossing : List (LockAction Nat Nat) :=
  [.start 0, .start 1, .start 2, .enter 0, .openFile 0, .writePayload 0, .setHeld 0, .crash 0,
    .enter 1, .enter 2, .openFile 1, .openFile 2, .read 1, .read 2, .inspect 1, .inspect 2,
    .remove 1, .openFile 1, .writePayload 1, .setHeld 1,
    .remove 2, .openFile 2, .writePayload 2, .setHeld 2]

end OpenClaw.Agents
