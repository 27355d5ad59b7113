import OpenClaw.Agents.SessionWriteLock

/-! What the steps of the write lock keep.

A call that has created the lock file and not released it owns the file, and while its process runs
the file at the path is that one. A call about to remove the file, to reclaim or to release it, aims
at a file that nobody owns, and no other file is at the path. The second of these holds as long as
no lock file is created while a removal is on its way, and a verdict is only passed on the file that
is still there; the first, as long as no call takes a lock of its own process for an orphan before
the lock is in the map. -/
namespace OpenClaw.Agents
open Foundation List

/-! ### What a phase owns and aims at -/

/-- The file that the call has created or shares, and has not released. -/
def LockPhase.owns? : LockPhase → Option Nat
  | .created id | .written id | .holding id => some id
  | _ => none

def LockPhase.creates? : LockPhase → Option Nat
  | .created id | .written id => some id
  | _ => none

/-- The file that the call is about to remove. -/
def LockPhase.aims? : LockPhase → Option Nat
  | .removing id | .closing id => some id
  | _ => none

/-- The file that the call knows. -/
def LockPhase.knows? : LockPhase → Option Nat
  | .created id | .written id | .holding id | .removing id | .closing id | .released id => some id
  | .readDone snapshot => snapshot.map (·.1)
  | _ => none

theorem LockPhase.owns_of_creates {phase : LockPhase} {id : Nat} (h : phase.creates? = some id) :
    phase.owns? = some id := by
  cases phase <;> first | exact h | cases h

theorem LockPhase.holding_of_owns {phase : LockPhase} {id : Nat} (h : phase.owns? = some id) :
    phase = .holding id ∨ phase.creates? = some id := by
  cases phase <;> cases h
  · exact Or.inr rfl
  · exact Or.inr rfl
  · exact Or.inl rfl

section Invariant

variable {π τ : Type} {host : LockHost π τ} {s : LockState π τ} {t : τ} {p : π} {id : Nat} {phase : LockPhase}

/-- No running call owns the file with this number, and no other file is at the path. -/
structure Abandoned (host : LockHost π τ) (s : LockState π τ) (id : Nat) : Prop where
  only : ∀ file, s.file = some file → file.id = id
  unowned : ∀ t, host.proc t ∈ s.running → (s.phase t).owns? ≠ some id

structure LockInv (host : LockHost π τ) (s : LockState π τ) : Prop where
  owns : ∀ t id, host.proc t ∈ s.running → (s.phase t).owns? = some id →
    ∃ file, s.file = some file ∧ file.id = id ∧ file.owner = host.proc t
  creates : ∀ t id, host.proc t ∈ s.running → (s.phase t).creates? = some id →
    s.held (host.proc t) = none ∧
      ∀ t' id', host.proc t' = host.proc t → (s.phase t').owns? = some id' → t' = t
  holds : ∀ t id, host.proc t ∈ s.running → s.phase t = .holding id → ∃ count, s.held (host.proc t) = some ⟨id, count⟩
  counted : ∀ p held, p ∈ s.running → s.held p = some held →
    ∃ holders : List τ, holders ≠ [] ∧ holders.Nodup ∧ holders.length = held.count ∧
      ∀ t, t ∈ holders ↔ host.proc t = p ∧ s.phase t = .holding held.id
  aims : ∀ t id, host.proc t ∈ s.running → (s.phase t).aims? = some id → Abandoned host s id
  snapshot : ∀ t id payload file, s.phase t = .readDone (some (id, some payload)) → s.file = some file →
    file.id = id → file.payload = some payload
  payload : ∀ file payload, s.file = some file → file.payload = some payload →
    payload.pid = some (host.pid file.owner) ∧ payload.starttime = host.startTime file.owner ∧
      ∃ created, payload.createdAt = some created ∧ file.createdMs ≤ created
  unwritten : ∀ t id file, host.proc t ∈ s.running → s.phase t = .created id → s.file = some file →
    file.payload = none
  mtime : ∀ file, s.file = some file → file.createdMs ≤ file.mtimeMs ∧ file.createdMs ≤ s.now
  timely : ∀ t t' file, s.file = some file → host.proc t' ∈ s.running → (s.phase t').owns? = some file.id →
    s.now - file.createdMs ≤ host.staleMs t
  fileId : ∀ file, s.file = some file → file.id < s.nextId
  knows : ∀ t id, (s.phase t).knows? = some id → id < s.nextId
  unstarted : ∀ p, p ∉ s.running → p ∉ s.dead → s.held p = none ∧ ∀ t, host.proc t = p → s.phase t = .idle
  pids : ∀ p q, p ∈ s.running → q ∈ s.running → host.pid p = host.pid q → p = q

/-! ### One call moves -/

/-- A call of one process moves, and with it the lock of this process in the map. -/
structure Moves (host : LockHost π τ) (s : LockState π τ) (t : τ) (s' : LockState π τ) : Prop where
  file : s'.file = s.file
  now : s'.now = s.now
  nextId : s'.nextId = s.nextId
  running : s'.running = s.running
  dead : s'.dead = s.dead
  phase : ∀ t', t' ≠ t → s'.phase t' = s.phase t'
  held : ∀ p, p ≠ host.proc t → s'.held p = s.held p

theorem LockInv.move {s' : LockState π τ} (h : LockInv host s) (hrun : host.proc t ∈ s.running) (hs : Moves host s t s')
    (hself : s'.phase t = phase) (hcreates : phase.creates? = none)
    (howns : ∀ id, phase.owns? = some id → ∃ t', host.proc t' = host.proc t ∧ (s.phase t').owns? = some id)
    (hcreating : ∀ t' id, t' ≠ t → host.proc t' = host.proc t → (s.phase t').creates? = some id →
      s'.held (host.proc t) = none ∧ phase.owns? = none)
    (hholds : ∀ t' id, host.proc t' = host.proc t → s'.phase t' = .holding id →
      ∃ count, s'.held (host.proc t) = some ⟨id, count⟩)
    (hcounted : ∀ held, s'.held (host.proc t) = some held →
      ∃ holders : List τ, holders ≠ [] ∧ holders.Nodup ∧ holders.length = held.count ∧
        ∀ t', t' ∈ holders ↔ host.proc t' = host.proc t ∧ s'.phase t' = .holding held.id)
    (haims : ∀ id, phase.aims? = some id → Abandoned host s' id)
    (hknows : ∀ id, phase.knows? = some id → id < s.nextId)
    (hsnapshot : ∀ id payload file, phase = .readDone (some (id, some payload)) → s.file = some file →
      file.id = id → file.payload = some payload) : LockInv host s' := by
  obtain ⟨now, file, nextId, running, dead, held, phases⟩ := s'
  obtain ⟨rfl, rfl, rfl, rfl, rfl, hphase, hheld⟩ := hs
  dsimp only at *
  subst hself
  have hne : ∀ {t'}, host.proc t' ≠ host.proc t → t' ≠ t := fun hproc ht => hproc (congrArg host.proc ht)
  have hnew : ∀ {t' id}, (phases t').creates? = some id → t' ≠ t := by
    rintro t' id hid rfl
    rw [hcreates] at hid
    cases hid
  have hown : ∀ t' id, (phases t').owns? = some id →
      ∃ t₀, host.proc t₀ = host.proc t' ∧ (s.phase t₀).owns? = some id := by
    intro t' id hid
    rcases eq_or_ne t' t with rfl | ht
    · exact howns id hid
    · exact ⟨t', rfl, hphase t' ht ▸ hid⟩
  constructor <;> dsimp only
  case owns =>
    intro t' id ht' hid
    obtain ⟨t₀, hproc, hid₀⟩ := hown t' id hid
    rw [← hproc] at ht' ⊢
    exact h.owns t₀ id ht' hid₀
  case creates =>
    intro t' id ht' hid
    have ht := hnew hid
    rw [hphase t' ht] at hid
    obtain ⟨hnone, honly⟩ := h.creates t' id ht' hid
    refine ⟨?_, fun t'' id'' hproc hid'' => honly t'' id'' hproc ?_⟩
    · by_cases hproc : host.proc t' = host.proc t
      · rw [hproc]
        exact (hcreating t' id ht hproc hid).1
      · exact (hheld _ hproc).trans hnone
    · have ht'' : t'' ≠ t := by
        rintro rfl
        rw [(hcreating t' id ht hproc.symm hid).2] at hid''
        cases hid''
      rwa [← hphase t'' ht'']
  case holds =>
    intro t' id ht' hp
    by_cases hproc : host.proc t' = host.proc t
    · rw [hproc]
      exact hholds t' id hproc hp
    · rw [hheld _ hproc]
      exact h.holds t' id ht' (hphase t' (hne hproc) ▸ hp)
  case counted =>
    intro p lock hp hlock
    by_cases hpt : p = host.proc t
    · rw [hpt] at hlock ⊢
      exact hcounted lock hlock
    · rw [hheld p hpt] at hlock
      obtain ⟨holders, hnonempty, hnodup, hlength, hmem⟩ := h.counted p lock hp hlock
      refine ⟨holders, hnonempty, hnodup, hlength, fun t' => (hmem t').trans (and_congr_right fun hproc => ?_)⟩
      rw [hphase t' (hne (hproc ▸ hpt))]
  case aims =>
    intro t' id ht' hid
    by_cases ht : t' = t
    · rw [ht] at hid
      exact haims id hid
    · rw [hphase t' ht] at hid
      obtain ⟨honly, hunowned⟩ := h.aims t' id ht' hid
      refine ⟨honly, fun t'' ht'' hid'' => ?_⟩
      obtain ⟨t₀, hproc, hid₀⟩ := hown t'' id hid''
      exact hunowned t₀ (by rwa [hproc]) hid₀
  case snapshot =>
    intro t' id payload file hp
    by_cases ht : t' = t
    · rw [ht] at hp
      exact hsnapshot id payload file hp
    · exact h.snapshot t' id payload file (hphase t' ht ▸ hp)
  case unwritten =>
    intro t' id file ht' hp
    exact h.unwritten t' id file ht' (hphase t' (@hnew t' id (by rw [hp]; rfl)) ▸ hp)
  case timely =>
    intro t₁ t' file hfile ht' hid
    obtain ⟨t₀, hproc, hid₀⟩ := hown t' _ hid
    exact h.timely t₁ t₀ file hfile (by rwa [hproc]) hid₀
  case knows =>
    intro t' id hid
    by_cases ht : t' = t
    · rw [ht] at hid
      exact hknows id hid
    · exact h.knows t' id (hphase t' ht ▸ hid)
  case unstarted =>
    intro p hp hdead
    obtain ⟨hfree, hidle⟩ := h.unstarted p hp hdead
    have hpt : p ≠ host.proc t := fun heq => hp (heq ▸ hrun)
    exact ⟨(hheld p hpt).trans hfree, fun t' ht' => (hphase t' (hne (ht' ▸ hpt))).trans (hidle t' ht')⟩
  all_goals first | exact h.payload | exact h.mtime | exact h.fileId | exact h.pids

/-! ### One phase changes -/

section Phases

variable [DecidableEq τ]

@[simp] theorem setPhase_self (s : LockState π τ) (t : τ) (phase : LockPhase) : (s.setPhase t phase).phase t = phase :=
  Function.update_self ..

theorem setPhase_of_ne (s : LockState π τ) {t t' : τ} (h : t' ≠ t) (phase : LockPhase) :
    (s.setPhase t phase).phase t' = s.phase t' := Function.update_of_ne h ..

theorem setPhase_setPhase (s : LockState π τ) (t : τ) (a b : LockPhase) :
    (s.setPhase t a).setPhase t b = s.setPhase t b := by
  unfold LockState.setPhase
  rw [Function.update_idem]

@[simp] theorem setPhase_file (s : LockState π τ) (t : τ) (phase : LockPhase) : (s.setPhase t phase).file = s.file := rfl

@[simp] theorem setPhase_held (s : LockState π τ) (t : τ) (phase : LockPhase) : (s.setPhase t phase).held = s.held := rfl

/-- The phase of one call is set: another call's phase is what it was. -/
theorem of_setPhase {P : LockPhase → Prop} {t' : τ} (h : P ((s.setPhase t phase).phase t')) (hP : ¬P phase) :
    t' ≠ t ∧ P (s.phase t') := by
  have ht : t' ≠ t := by
    rintro rfl
    rw [setPhase_self] at h
    exact hP h
  exact ⟨ht, setPhase_of_ne s ht phase ▸ h⟩

theorem setPhase_congr {α : Type*} (f : LockPhase → α) (hf : f phase = f (s.phase t)) (t' : τ) :
    f ((s.setPhase t phase).phase t') = f (s.phase t') := by
  rcases eq_or_ne t' t with rfl | ht
  · rw [setPhase_self, hf]
  · rw [setPhase_of_ne s ht]

theorem moves_of_setPhase (s : LockState π τ) (phase : LockPhase) : Moves host s t (s.setPhase t phase) :=
  ⟨rfl, rfl, rfl, rfl, rfl, fun _ ht => setPhase_of_ne s ht phase, fun _ _ => rfl⟩

theorem LockInv.unstarted_setPhase (h : LockInv host s) (hrun : host.proc t ∈ s.running) :
    ∀ p, p ∉ s.running → p ∉ s.dead → s.held p = none ∧ ∀ t', host.proc t' = p → (s.setPhase t phase).phase t' = .idle := by
  intro p hp hdead
  obtain ⟨hheld, hidle⟩ := h.unstarted p hp hdead
  refine ⟨hheld, fun t' ht' => ?_⟩
  have ht : t' ≠ t := by
    rintro rfl
    exact hp (ht' ▸ hrun)
  exact (setPhase_of_ne s ht phase).trans (hidle t' ht')

/-- A call that does not hold the lock comes to a phase in which it owns nothing. -/
theorem LockInv.setPhase (h : LockInv host s) (hrun : host.proc t ∈ s.running) (hold : ∀ id, s.phase t ≠ .holding id)
    (hnew : phase.owns? = none) (haims : ∀ id, phase.aims? = some id → Abandoned host (s.setPhase t phase) id)
    (hknows : ∀ id, phase.knows? = some id → id < s.nextId)
    (hsnapshot : ∀ id payload file, phase = .readDone (some (id, some payload)) → s.file = some file →
      file.id = id → file.payload = some payload) : LockInv host (s.setPhase t phase) := by
  have hholding : ∀ t' id, (s.setPhase t phase).phase t' = .holding id ↔ s.phase t' = .holding id := by
    intro t' id
    refine iff_of_eq (setPhase_congr (· = .holding id) ?_ t')
    have hne : phase ≠ .holding id := by
      rintro rfl
      cases hnew
    simp [hne, hold id]
  refine h.move hrun (moves_of_setPhase s phase) (setPhase_self s t phase) ?_ ?_ ?_ ?_ ?_ haims hknows hsnapshot
  · cases hid : phase.creates? with
    | none => rfl
    | some id =>
      rw [LockPhase.owns_of_creates hid] at hnew
      cases hnew
  · simp [hnew]
  · intro t' id _ hproc hid
    by_cases hlive : host.proc t' ∈ s.running
    · exact ⟨hproc ▸ (h.creates t' id hlive hid).1, hnew⟩
    · exact absurd hrun (hproc ▸ hlive)
  · intro t' id hproc hp
    obtain ⟨count, hcount⟩ := h.holds t' id (hproc ▸ hrun) ((hholding t' id).mp hp)
    exact ⟨count, hproc ▸ hcount⟩
  · intro held hheld
    obtain ⟨holders, hne, hnodup, hlength, hmem⟩ := h.counted _ held hrun hheld
    exact ⟨holders, hne, hnodup, hlength, fun t' => by rw [hmem t', hholding]⟩

/-- The same for a phase that knows no file. -/
theorem LockInv.setQuiet (h : LockInv host s) (hrun : host.proc t ∈ s.running) (hold : ∀ id, s.phase t ≠ .holding id)
    (hnew : phase.knows? = none) : LockInv host (s.setPhase t phase) := by
  have hnone : phase.owns? = none ∧ phase.aims? = none := by
    cases phase <;> first | exact ⟨rfl, rfl⟩ | cases hnew
  refine h.setPhase hrun hold hnone.1 ?_ ?_ ?_
  · intro id hid
    rw [hnone.2] at hid
    cases hid
  · intro id hid
    rw [hnew] at hid
    cases hid
  · rintro id payload file rfl
    cases hnew

/-- The removal of a file that nobody owns. -/
theorem LockInv.removeFile (h : LockInv host s) (hrun : host.proc t ∈ s.running) (haims : (s.phase t).aims? = some id)
    (hnew : phase.owns? = none) (hnewAims : phase.aims? = none) (hknows : ∀ id, phase.knows? = some id → id < s.nextId)
    (hsnapshot : ∀ snapshot, phase ≠ .readDone snapshot) : LockInv host {s.setPhase t phase with file := none} := by
  have habandoned := h.aims t id hrun haims
  have hnobody : ∀ t' id', host.proc t' ∈ s.running → (s.phase t').owns? ≠ some id' := by
    intro t' id' ht' hid
    obtain ⟨file, hfile, hfileId, -⟩ := h.owns t' id' ht' hid
    rw [habandoned.only file hfile] at hfileId
    rw [← hfileId] at hid
    exact habandoned.unowned t' ht' hid
  have hold : ∀ id, s.phase t ≠ .holding id := by
    intro id hp
    rw [hp] at haims
    cases haims
  have hset : LockInv host (s.setPhase t phase) := by
    refine h.setPhase hrun hold hnew ?_ hknows ?_
    · intro id hid
      rw [hnewAims] at hid
      cases hid
    · intro id payload file hp
      exact absurd hp (hsnapshot _)
  have hnobody' : ∀ t' id', host.proc t' ∈ s.running → ((s.setPhase t phase).phase t').owns? ≠ some id' := by
    intro t' id' ht' hid
    exact hnobody t' id' ht' (of_setPhase (P := (·.owns? = some id')) hid (by simp [hnew])).2
  exact ⟨fun t' id' ht' hid => absurd hid (hnobody' t' id' ht'), hset.creates, hset.holds, hset.counted,
    fun t' id' _ _ => ⟨nofun, fun t'' ht'' => hnobody' t'' id' ht''⟩, nofun, nofun, nofun, nofun, nofun, nofun, hset.knows,
    hset.unstarted, hset.pids⟩

end Phases

/-! ### The start, processes and the clock -/

theorem init_inv (host : LockHost π τ) : LockInv host (LockState.init : LockState π τ) := by
  refine ⟨nofun, nofun, nofun, nofun, nofun, nofun, nofun, nofun, nofun, nofun, nofun, nofun, ?_, nofun⟩
  intro p _ _
  exact ⟨rfl, fun _ _ => rfl⟩

/-- Processes start or end: no call but an idle one comes to run. -/
theorem LockInv.rerun (h : LockInv host s) {running dead : List π}
    (hrunning : ∀ t, host.proc t ∈ running → s.phase t ≠ .idle → host.proc t ∈ s.running)
    (hheld : ∀ p ∈ running, p ∈ s.running ∨ s.held p = none)
    (hunstarted : ∀ p, p ∉ running → p ∉ dead → p ∉ s.running ∧ p ∉ s.dead)
    (hpids : ∀ p q, p ∈ running → q ∈ running → host.pid p = host.pid q → p = q) :
    LockInv host {s with running := running, dead := dead} := by
  have howns : ∀ t id, host.proc t ∈ running → (s.phase t).owns? = some id → host.proc t ∈ s.running := by
    intro t id ht hid
    refine hrunning t ht fun hp => ?_
    rw [hp] at hid
    cases hid
  constructor <;> dsimp only
  case owns => exact fun t id ht hid => h.owns t id (howns t id ht hid) hid
  case creates => exact fun t id ht hid => h.creates t id (howns t id ht (LockPhase.owns_of_creates hid)) hid
  case holds => exact fun t id ht hphase => h.holds t id (hrunning t ht (by simp [hphase])) hphase
  case counted =>
    intro p held hp hlock
    rcases hheld p hp with hp | hnone
    · exact h.counted p held hp hlock
    · rw [hnone] at hlock
      cases hlock
  case aims =>
    intro t id ht hid
    have hbusy : s.phase t ≠ .idle := fun hp => by
      rw [hp] at hid
      cases hid
    obtain ⟨honly, hunowned⟩ := h.aims t id (hrunning t ht hbusy) hid
    exact ⟨honly, fun t' ht' hid' => hunowned t' (howns t' id ht' hid') hid'⟩
  case unwritten => exact fun t id file ht hphase => h.unwritten t id file (hrunning t ht (by simp [hphase])) hphase
  case timely => exact fun t t' file hfile ht' hid => h.timely t t' file hfile (howns t' _ ht' hid) hid
  case unstarted =>
    intro p hp hdead
    obtain ⟨hp, hdead⟩ := hunstarted p hp hdead
    exact h.unstarted p hp hdead
  case pids => exact hpids
  all_goals first | exact h.snapshot | exact h.payload | exact h.mtime | exact h.fileId | exact h.knows

theorem start_inv (h : LockInv host s) (hp : p ∉ s.running) (hdead : p ∉ s.dead)
    (hpid : s.isPidAlive host (host.pid p) = false) : LockInv host {s with running := p :: s.running} := by
  obtain ⟨hheld, hidle⟩ := h.unstarted p hp hdead
  have hfresh : ∀ q ∈ s.running, host.pid q ≠ host.pid p := by
    intro q hq heq
    unfold LockState.isPidAlive at hpid
    rw [any_eq_false] at hpid
    exact hpid q hq (beq_iff_eq.mpr heq)
  refine h.rerun ?_ ?_ ?_ ?_
  · intro t ht hphase
    exact (mem_cons.mp ht).resolve_left fun ht => hphase (hidle t ht)
  · intro q hq
    rcases mem_cons.mp hq with rfl | hq
    · exact Or.inr hheld
    · exact Or.inl hq
  · exact fun q hq hqdead => ⟨fun hmem => hq (mem_cons_of_mem _ hmem), hqdead⟩
  · intro q r hq hr heq
    rcases mem_cons.mp hq with rfl | hq <;> rcases mem_cons.mp hr with hr | hr
    · exact hr.symm
    · exact absurd heq.symm (hfresh r hr)
    · exact absurd (hr ▸ heq) (hfresh q hq)
    · exact h.pids q r hq hr heq

theorem crash_inv [DecidableEq π] (h : LockInv host s) (p : π) :
    LockInv host {s with running := s.running.erase p, dead := p :: s.dead} := by
  have hmem : ∀ q, q ∈ s.running.erase p → q ∈ s.running := fun q hq => mem_of_mem_erase hq
  refine h.rerun (fun t ht _ => hmem _ ht) (fun q hq => Or.inl (hmem q hq)) ?_
    fun q r hq hr => h.pids q r (hmem q hq) (hmem r hr)
  intro q hq hdead
  rw [mem_cons, not_or] at hdead
  exact ⟨fun hrun => hq ((mem_erase_of_ne hdead.1).mpr hrun), hdead.2⟩

theorem tick_inv (h : LockInv host s) {ms : Nat}
    (htimely : ∀ t t' file, s.file = some file → host.proc t' ∈ s.running → (s.phase t').owns? = some file.id →
      s.now + ms - file.createdMs ≤ host.staleMs t) : LockInv host {s with now := s.now + ms} :=
  ⟨h.owns, h.creates, h.holds, h.counted, fun t id ht hid => ⟨(h.aims t id ht hid).only, (h.aims t id ht hid).unowned⟩,
    h.snapshot, h.payload, h.unwritten,
    fun file hfile => ⟨(h.mtime file hfile).1, Nat.le_add_right_of_le (h.mtime file hfile).2⟩, htimely, h.fileId, h.knows, h.unstarted, h.pids⟩

end Invariant

end OpenClaw.Agents
