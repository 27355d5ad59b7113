import OpenClaw.Agents.WriteLockInvariant
import Mathlib.Data.List.Nodup

/-! The steps of one call keep the invariant of the write lock.

A step that takes the lock into the map, or out of it, or shares it, moves one call and one entry of
the map (`LockInv.move`). The step that condemns a lock is the one that needs the condition: what is
read of a file of a running call is not stale, so only the orphan check can condemn it, and that
needs the lock not to be in the map of its own process. -/
namespace OpenClaw.Agents
open Foundation List

section Steps

variable {π τ : Type} {host : LockHost π τ} {s : LockState π τ} {t : τ} {p : π} {id : Nat} {phase : LockPhase}

/-! ### The map -/

@[simp] theorem setHeldLock_self [DecidableEq π] (s : LockState π τ) (p : π) (held : Option HeldLock) :
    (s.setHeldLock p held).held p = held := Function.update_self ..

theorem setHeldLock_of_ne [DecidableEq π] (s : LockState π τ) {p q : π} (h : q ≠ p) (held : Option HeldLock) :
    (s.setHeldLock p held).held q = s.held q := Function.update_of_ne h ..

/-- A lock in the map of a running process is held by a call, and its file is at the path. -/
theorem LockInv.held_file (h : LockInv host s) (hp : p ∈ s.running) {held : HeldLock} (hheld : s.held p = some held) :
    ∃ t file, host.proc t = p ∧ s.phase t = .holding held.id ∧ s.file = some file ∧ file.id = held.id := by
  obtain ⟨holders, hne, -, -, hmem⟩ := h.counted p held hp hheld
  obtain ⟨t, ht⟩ := exists_mem_of_ne_nil holders hne
  obtain ⟨hproc, hphase⟩ := (hmem t).mp ht
  obtain ⟨file, hfile, hid, -⟩ := h.owns t held.id (by rw [hproc]; exact hp) (by rw [hphase]; rfl)
  exact ⟨t, file, hproc, hphase, hfile, hid⟩

/-! ### Verdicts -/

theorem filter_pid {pid : Nat} (h : 0 < pid) : (some pid).filter (0 < ·) = some pid := by
  simp [Option.filter, h]

/-- Two running processes have not one pid. -/
theorem LockInv.isPidAlive (h : LockInv host s) (hp : p ∈ s.running) :
    s.isPidAlive host (host.pid p) = true ∧ s.getProcessStartTime host (host.pid p) = host.startTime p := by
  refine ⟨any_eq_true.mpr ⟨p, hp, beq_self_eq_true _⟩, ?_⟩
  unfold LockState.getProcessStartTime
  cases hfind : s.running.find? (fun q => host.pid q == host.pid p) with
  | none => exact absurd (beq_self_eq_true _) (find?_eq_none.mp hfind p hp)
  | some q =>
    have hpid := find?_some hfind
    rw [h.pids q p (mem_of_find?_eq_some hfind) hp (beq_iff_eq.mp hpid)]
    rfl

/-- The lock of a running process is not found stale. -/
theorem not_stale_of_owned (h : LockInv host s) {t' : τ} {file : LockFile π} {payload : LockFilePayload}
    (hrun : host.proc t' ∈ s.running) (howns : (s.phase t').owns? = some file.id) (hfile : s.file = some file)
    (hpayload : file.payload = some payload) (t : τ) :
    (inspectLockPayload (s.isPidAlive host) (s.getProcessStartTime host) (some payload) (host.staleMs t) s.now).staleReasons =
      [] := by
  obtain ⟨file', hfile', -, howner⟩ := h.owns t' file.id hrun howns
  rw [hfile] at hfile'
  cases hfile'
  obtain ⟨hpid, hstart, created, hcreated, hage⟩ := h.payload file payload hfile hpayload
  rw [howner] at hpid hstart
  obtain ⟨halive, hcurrent⟩ := h.isPidAlive hrun
  have hyoung : ¬host.staleMs t < s.now - created := by
    have htimely := h.timely t t' file hfile hrun howns
    omega
  unfold inspectLockPayload
  simp only [Option.bind_some, hpid, hcreated, Option.map_some]
  rw [filter_pid (host.pid_pos _)]
  have hrecycled : pidRecycled (s.getProcessStartTime host) true (some (host.pid (host.proc t'))) payload.starttime =
      false := by
    unfold pidRecycled
    rw [hstart]
    cases hknown : host.startTime (host.proc t') with
    | none => rfl
    | some start =>
      simp only [hcurrent, hknown]
      simp
  simp [halive, hrecycled, hyoung]

/-- The verdict of `inspect` for a file that is read: stale for another reason than a payload that says
nothing. -/
def condemns (host : LockHost π τ) (s : LockState π τ) (t : τ) (payload : Option LockFilePayload) : Bool :=
  (s.reclaimDetails host t payload).stale && !lockInspectionNeedsMtimeStaleFallback (s.reclaimDetails host t payload)

/-- A payload that says nothing is not condemned. -/
theorem not_condemns_none (host : LockHost π τ) (s : LockState π τ) (t : τ) : condemns host s t none = false := by
  have hdetails : s.reclaimDetails host t none =
      inspectLockPayload (s.isPidAlive host) (s.getProcessStartTime host) none (host.staleMs t) s.now := by
    unfold LockState.reclaimDetails LockState.isOrphan shouldTreatAsOrphanSelfLock
    rfl
  unfold condemns
  rw [hdetails]
  rfl

/-! ### One step of a call -/

variable [DecidableEq τ]

section
variable (h : LockInv host s) (hrun : host.proc t ∈ s.running)
include h hrun

theorem create_inv (hphase : s.phase t = .trying) (hfile : s.file = none)
    (haims : ∀ t', host.proc t' ∈ s.running → (s.phase t').aims? = none) :
    LockInv host {s.setPhase t (.created s.nextId) with
      file := some ⟨s.nextId, host.proc t, s.now, s.now, none⟩, nextId := s.nextId + 1} := by
  have hself : ∀ t' id, host.proc t' ∈ s.running → ((s.setPhase t (.created s.nextId)).phase t').owns? = some id →
      t' = t ∧ id = s.nextId := by
    intro t' id ht' hid
    by_cases ht : t' = t
    · rw [ht, setPhase_self] at hid
      exact ⟨ht, (Option.some.inj hid).symm⟩
    · rw [setPhase_of_ne s ht] at hid
      obtain ⟨file, hsome, -⟩ := h.owns t' id ht' hid
      rw [hfile] at hsome
      cases hsome
  have hunheld : ∀ p ∈ s.running, ∀ held, s.held p ≠ some held := by
    intro p hp held hheld
    obtain ⟨-, file, -, -, hsome, -⟩ := h.held_file hp hheld
    rw [hfile] at hsome
    cases hsome
  constructor <;> dsimp only
  case owns =>
    intro t' id ht' hid
    obtain ⟨rfl, rfl⟩ := hself t' id ht' hid
    exact ⟨_, rfl, rfl, rfl⟩
  case creates =>
    intro t' id ht' hid
    obtain ⟨rfl, -⟩ := hself t' id ht' (LockPhase.owns_of_creates hid)
    exact ⟨Option.eq_none_iff_forall_ne_some.mpr (hunheld _ hrun),
      fun t'' id'' hproc hid'' => (hself t'' id'' (by rwa [hproc]) hid'').1⟩
  case holds =>
    intro t' id ht' hp
    obtain ⟨rfl, -⟩ := hself t' id ht' (by rw [hp]; rfl)
    rw [setPhase_self] at hp
    cases hp
  case counted => exact fun p held hp hheld => absurd hheld (hunheld p hp held)
  case aims =>
    intro t' id ht' hid
    have := (of_setPhase (P := (·.aims? = some id)) hid nofun).2
    rw [haims t' ht'] at this
    cases this
  case snapshot =>
    rintro t' id payload file hp ⟨⟩ rfl
    have hread := (of_setPhase (P := (· = .readDone (some (s.nextId, some payload)))) hp nofun).2
    exact absurd (h.knows t' s.nextId (by rw [hread]; rfl)) (Nat.lt_irrefl _)
  case payload => rintro file payload ⟨⟩ ⟨⟩
  case unwritten => rintro t' id file - - ⟨⟩; rfl
  case mtime => rintro file ⟨⟩; exact ⟨Nat.le_refl _, Nat.le_refl _⟩
  case timely => rintro t₁ t' file ⟨⟩ - -; exact Nat.sub_self s.now ▸ Nat.zero_le _
  case fileId => rintro file ⟨⟩; exact Nat.lt_succ_self _
  case knows =>
    intro t' id hid
    by_cases ht : t' = t
    · rw [ht, setPhase_self] at hid
      exact Option.some.inj hid ▸ Nat.lt_succ_self _
    · exact Nat.lt_succ_of_lt (h.knows t' id (setPhase_of_ne s ht _ ▸ hid))
  case unstarted => exact h.unstarted_setPhase hrun
  case pids => exact h.pids

theorem open_inv (hphase : s.phase t = .trying)
    (haims : s.file = none → ∀ t', host.proc t' ∈ s.running → (s.phase t').aims? = none) :
    LockInv host (s.openStep host t) := by
  unfold LockState.openStep
  cases hfile : s.file with
  | none => exact create_inv h hrun hphase hfile (haims hfile)
  | some file => exact h.setQuiet hrun (by simp [hphase]) rfl

theorem write_inv (hphase : s.phase t = .created id) :
    LockInv host (s.writeStep host t id) := by
  have hsame : ∀ {α : Type} (f : LockPhase → α), f (.written id) = f (.created id) → ∀ t',
      f ((s.setPhase t (.written id)).phase t') = f (s.phase t') :=
    fun f hf => setPhase_congr f (hphase ▸ hf)
  have howns := hsame LockPhase.owns? rfl
  obtain ⟨file, hfile, rfl, howner⟩ := h.owns t id hrun (by rw [hphase]; rfl)
  have hwritten : s.writeStep host t file.id = {s.setPhase t (.written file.id) with
      file := some {file with payload := some (s.lockPayload host (host.proc t)), mtimeMs := s.now}} := by
    unfold LockState.writeStep
    rw [hfile]
    simp only [Option.map_some, if_true]
  rw [hwritten]
  constructor <;> dsimp only
  case owns =>
    intro t' id' ht' hid'
    rw [howns] at hid'
    obtain ⟨file', hfile', hid', howner'⟩ := h.owns t' id' ht' hid'
    rw [hfile] at hfile'
    cases hfile'
    exact ⟨_, rfl, hid', howner'⟩
  case creates =>
    intro t' id' ht' hid'
    rw [hsame LockPhase.creates? rfl] at hid'
    simp only [howns]
    exact h.creates t' id' ht' hid'
  case holds =>
    intro t' id' ht' hp
    exact h.holds t' id' ht' (hsame (· = .holding id') (by simp) t' ▸ hp)
  case counted =>
    intro p held hp hheld
    obtain ⟨holders, hne, hnodup, hlength, hmem⟩ := h.counted p held hp hheld
    exact ⟨holders, hne, hnodup, hlength, fun t' => by rw [hmem t', hsame (· = .holding held.id) (by simp)]⟩
  case aims =>
    intro t' id' ht' hid'
    rw [hsame LockPhase.aims? rfl] at hid'
    obtain ⟨honly, hunowned⟩ := h.aims t' id' ht' hid'
    refine ⟨?_, fun t'' ht'' hid'' => hunowned t'' ht'' (howns t'' ▸ hid'')⟩
    rintro file' ⟨⟩
    exact honly file hfile
  case snapshot =>
    rintro t' id' payload file' hp ⟨⟩ hid'
    have hread := (of_setPhase (P := (· = .readDone (some (id', some payload)))) hp nofun).2
    have := h.snapshot t' id' payload file hread hfile hid'
    rw [h.unwritten t file.id file hrun hphase hfile] at this
    cases this
  case payload =>
    rintro file' payload ⟨⟩ ⟨⟩
    rw [howner]
    exact ⟨rfl, rfl, s.now, rfl, (h.mtime file hfile).2⟩
  case unwritten =>
    intro t' id' file' ht' hp
    obtain ⟨ht, hp⟩ := of_setPhase (P := (· = .created id')) hp nofun
    obtain ⟨file', hfile', -, howner'⟩ := h.owns t' id' ht' (by rw [hp]; rfl)
    rw [hfile] at hfile'
    cases hfile'
    have honly := (h.creates t file.id hrun (by rw [hphase]; rfl)).2
    exact absurd (honly t' id' (by rw [← howner', howner]) (by rw [hp]; rfl)) ht
  case mtime =>
    rintro file' ⟨⟩
    exact ⟨(h.mtime file hfile).2, (h.mtime file hfile).2⟩
  case timely =>
    rintro t₁ t' file' ⟨⟩ ht' hid'
    exact h.timely t₁ t' file hfile ht' (howns t' ▸ hid')
  case fileId =>
    rintro file' ⟨⟩
    exact h.fileId file hfile
  case knows => exact fun t' id' hid' => h.knows t' id' (hsame LockPhase.knows? rfl t' ▸ hid')
  case unstarted => exact h.unstarted_setPhase hrun
  case pids => exact h.pids

theorem stat_inv (hphase : s.phase t = .statting) :
    LockInv host (s.statStep host t) := by
  have hnot : ∀ id, s.phase t ≠ .holding id := by simp [hphase]
  unfold LockState.statStep
  cases hfile : s.file with
  | none => exact h.setQuiet hrun hnot rfl
  | some file =>
    by_cases hold : host.staleMs t < s.now - file.mtimeMs
    · simp only [hold, if_true]
      refine h.setPhase hrun hnot rfl ?_ ?_ nofun
      · intro id hid
        cases hid
        refine ⟨fun file' hfile' => ?_, fun t' ht' hid' => ?_⟩
        · rw [setPhase_file, hfile] at hfile'
          rw [Option.some.inj hfile']
        · have htimely := h.timely t t' file hfile ht' (of_setPhase (P := (·.owns? = some file.id)) hid' nofun).2
          have hmtime := (h.mtime file hfile).1
          omega
      · intro id hid
        cases hid
        exact h.fileId file hfile
    · simp only [hold, if_false]
      exact h.setQuiet hrun hnot rfl

theorem read_inv (hphase : s.phase t = .contended) :
    LockInv host (s.readStep t) := by
  refine h.setPhase hrun (by simp [hphase]) rfl nofun ?_ ?_
  · intro id hid
    cases hfile : s.file with
    | none =>
      rw [hfile] at hid
      cases hid
    | some file =>
      rw [hfile] at hid
      rw [← Option.some.inj hid]
      exact h.fileId file hfile
  · intro id payload file hp hfile _
    rw [hfile] at hp
    injection hp with hp
    exact (Prod.mk.inj (Option.some.inj hp)).2

end

theorem inspectStep_eq (host : LockHost π τ) (s : LockState π τ) (t : τ)
    (snapshot : Option (Nat × Option LockFilePayload)) :
    s.inspectStep host t snapshot = s.setPhase t .sleeping ∨ s.inspectStep host t snapshot = s.setPhase t .statting ∨
      ∃ id payload, snapshot = some (id, payload) ∧ condemns host s t payload = true ∧
        s.inspectStep host t snapshot = s.setPhase t (.removing id) := by
  unfold LockState.inspectStep condemns
  cases hstale : (s.reclaimDetails host t (snapshot.bind (·.2))).stale with
  | false => exact Or.inl (by simp [hstale])
  | true =>
    cases hfallback : lockInspectionNeedsMtimeStaleFallback (s.reclaimDetails host t (snapshot.bind (·.2))) with
    | true => exact Or.inr (Or.inl (by simp [hstale, hfallback]))
    | false =>
      cases snapshot with
      | none =>
        have hstale' : (s.reclaimDetails host t none).stale = true := hstale
        exact Or.inr (Or.inl (by simp [hstale']))
      | some read =>
        obtain ⟨id, payload⟩ := read
        have hstale' : (s.reclaimDetails host t payload).stale = true := hstale
        have hfallback' : lockInspectionNeedsMtimeStaleFallback (s.reclaimDetails host t payload) = false := hfallback
        exact Or.inr (Or.inr ⟨id, payload, rfl, by rw [hstale', hfallback']; rfl, by simp [hstale', hfallback']⟩)

theorem inspect_inv (h : LockInv host s) (hrun : host.proc t ∈ s.running)
    {snapshot : Option (Nat × Option LockFilePayload)} (hphase : s.phase t = .readDone snapshot)
    (hcurrent : ∀ id payload, snapshot = some (id, payload) → condemns host s t payload = true →
      (∀ file, s.file = some file → file.id = id) ∧
        (s.isOrphan host t payload = true → ∀ t', host.proc t' = host.proc t → (s.phase t').creates? = none)) :
    LockInv host (s.inspectStep host t snapshot) := by
  have hnot : ∀ id, s.phase t ≠ .holding id := by simp [hphase]
  rcases inspectStep_eq host s t snapshot with heq | heq | ⟨id, payload, hsnapshot, hcondemned, heq⟩
  · rw [heq]
    exact h.setQuiet hrun hnot rfl
  · rw [heq]
    exact h.setQuiet hrun hnot rfl
  · rw [heq]
    obtain ⟨honly, horphan⟩ := hcurrent id payload hsnapshot hcondemned
    refine h.setPhase hrun hnot rfl ?_ ?_ nofun
    · intro id' hid
      cases hid
      refine ⟨honly, fun t' ht' hid' => ?_⟩
      have hid' := (of_setPhase (P := (·.owns? = some id)) hid' nofun).2
      cases payload with
      | none =>
        rw [not_condemns_none] at hcondemned
        cases hcondemned
      | some payload =>
        -- the file read is that of a running call: only the orphan check can have condemned it
        obtain ⟨file, hfile, hfileId, howner⟩ := h.owns t' id ht' hid'
        have hpayload := h.snapshot t id payload file (by rw [hphase, hsnapshot]) hfile hfileId
        have hfresh := not_stale_of_owned h ht' (by rw [hfileId]; exact hid') hfile hpayload t
        cases hown : s.isOrphan host t (some payload) with
        | false =>
          unfold condemns LockState.reclaimDetails LockInspectionDetails.stale at hcondemned
          rw [hown] at hcondemned
          simp [hfresh] at hcondemned
        | true =>
          obtain ⟨hpid, hheld⟩ : payload.pid = some (host.pid (host.proc t)) ∧ s.held (host.proc t) = none := by
            unfold LockState.isOrphan shouldTreatAsOrphanSelfLock at hown
            by_cases hpid : payload.pid = some (host.pid (host.proc t))
            · refine ⟨hpid, ?_⟩
              cases hheld : s.held (host.proc t) with
              | none => rfl
              | some held => simp [hheld] at hown
            · simp [hpid] at hown
          have hproc : host.proc t' = host.proc t := by
            have hfilePid := (h.payload file payload hfile hpayload).1
            rw [hpid, howner] at hfilePid
            exact h.pids _ _ ht' hrun (Option.some.inj hfilePid).symm
          rcases LockPhase.holding_of_owns hid' with hholding | hcreating
          · obtain ⟨count, hcount⟩ := h.holds t' id ht' hholding
            rw [hproc, hheld] at hcount
            cases hcount
          · rw [horphan hown t' hproc] at hcreating
            cases hcreating
    · intro id' hid
      cases hid
      exact h.knows t id (by rw [hphase, hsnapshot]; rfl)

/-- The file of a call that nobody else of its process shares is about to be removed. -/
theorem LockInv.abandoned (h : LockInv host s) {s' : LockState π τ} (hrun : host.proc t ∈ s.running)
    (howns : (s.phase t).owns? = some id) (hs : Moves host s t s') (hself : (s'.phase t).owns? = none)
    (honly : ∀ t', t' ≠ t → host.proc t' = host.proc t → (s.phase t').owns? ≠ some id) : Abandoned host s' id := by
  obtain ⟨file, hfile, hfileId, howner⟩ := h.owns t id hrun howns
  refine ⟨fun file' hfile' => ?_, fun t' ht' hid => ?_⟩
  · rw [hs.file, hfile] at hfile'
    rw [← Option.some.inj hfile', hfileId]
  · have ht : t' ≠ t := by
      rintro rfl
      rw [hself] at hid
      cases hid
    rw [hs.phase t' ht] at hid
    rw [hs.running] at ht'
    obtain ⟨file', hfile', -, howner'⟩ := h.owns t' id ht' hid
    rw [hfile] at hfile'
    cases hfile'
    exact honly t' ht (howner'.symm.trans howner) hid

theorem writeFails_inv (h : LockInv host s) {t : τ} {id : Nat} (hrun : host.proc t ∈ s.running)
    (hphase : s.phase t = .created id) : LockInv host (s.setPhase t (.closing id)) := by
  obtain ⟨-, honly⟩ := h.creates t id hrun (by rw [hphase]; rfl)
  refine h.setPhase hrun (by simp [hphase]) rfl ?_ ?_ nofun
  · rintro id' ⟨⟩
    exact h.abandoned hrun (by rw [hphase]; rfl) (moves_of_setPhase s _) (by rw [setPhase_self]; rfl)
      fun t' ht hproc hid => ht (honly t' id hproc hid)
  · rintro id' ⟨⟩
    exact h.knows t id (by rw [hphase]; rfl)

variable [DecidableEq π]

theorem moves_of_set (host : LockHost π τ) (t : τ) (s : LockState π τ) (held : Option HeldLock) (phase : LockPhase) :
    Moves host s t ((s.setHeldLock (host.proc t) held).setPhase t phase) :=
  ⟨rfl, rfl, rfl, rfl, rfl, fun _ ht => setPhase_of_ne _ ht _, fun _ hp => setHeldLock_of_ne s hp _⟩

section
variable (h : LockInv host s) (hrun : host.proc t ∈ s.running)
include h hrun

theorem setHeld_inv (hphase : s.phase t = .written id) :
    LockInv host (s.setHeldStep host t id) := by
  obtain ⟨-, honly⟩ := h.creates t id hrun (by rw [hphase]; rfl)
  have hs : Moves host s t (s.setHeldStep host t id) := moves_of_set host t s _ _
  have hself : (s.setHeldStep host t id).phase t = .holding id := setPhase_self _ _ _
  have hheld : (s.setHeldStep host t id).held (host.proc t) = some ⟨id, 1⟩ := setHeldLock_self s _ _
  have hholder : ∀ t' id', host.proc t' = host.proc t → (s.setHeldStep host t id).phase t' = .holding id' → t' = t := by
    intro t' id' hproc hp
    by_contra ht
    rw [hs.phase t' ht] at hp
    exact ht (honly t' id' hproc (by rw [hp]; rfl))
  refine h.move hrun hs hself rfl ?_ ?_ ?_ ?_ nofun ?_ nofun
  · exact fun id' hid => ⟨t, rfl, by rw [hphase]; exact hid⟩
  · exact fun t' id' ht hproc hid => absurd (honly t' id' hproc (LockPhase.owns_of_creates hid)) ht
  · intro t' id' hproc hp
    rw [hholder t' id' hproc hp, hself] at hp
    injection hp with hp
    exact ⟨1, by rw [hheld, hp]⟩
  · intro held hlock
    rw [hheld] at hlock
    cases hlock
    refine ⟨[t], nofun, nodup_singleton t, rfl, fun t' => ?_⟩
    rw [mem_singleton]
    constructor
    · rintro rfl
      exact ⟨rfl, hself⟩
    · rintro ⟨hproc, hp⟩
      exact hholder t' id hproc hp
  · rintro id' ⟨⟩
    exact h.knows t id (by rw [hphase]; rfl)

/-- While a process holds the lock none of its calls is creating one. -/
theorem LockInv.not_creating {held : HeldLock} (hlock : s.held (host.proc t) = some held) {t' : τ}
    (hproc : host.proc t' = host.proc t) :
    (s.phase t').creates? ≠ some id := by
  intro hid
  have hnone := (h.creates t' id (hproc ▸ hrun) hid).1
  rw [hproc, hlock] at hnone
  cases hnone

/-- And all of them hold that one. -/
theorem LockInv.holding_id {held : HeldLock} (hlock : s.held (host.proc t) = some held) {t' : τ}
    (hproc : host.proc t' = host.proc t) (hp : s.phase t' = .holding id) : id = held.id := by
  obtain ⟨count, hcount⟩ := h.holds t' id (hproc ▸ hrun) hp
  rw [hproc, hlock] at hcount
  rw [Option.some.inj hcount]

/-- A second call of a process that holds the lock. -/
theorem enter_inv (hphase : s.phase t = .idle) :
    LockInv host (s.enterStep host t) := by
  unfold LockState.enterStep
  split
  case h_2 => exact h.setQuiet hrun (by simp [hphase]) rfl
  case h_1 held _ hlock =>
    have hs := moves_of_set host t s (some {held with count := held.count + 1}) (.holding held.id)
    obtain ⟨holders, hne, hnodup, hlength, hmem⟩ := h.counted _ held hrun hlock
    obtain ⟨t₀, -, hproc₀, hphase₀, -⟩ := h.held_file hrun hlock
    refine h.move hrun hs (setPhase_self _ _ _) rfl ?_
      (fun t' id' _ hproc hid => absurd hid (h.not_creating hrun hlock hproc)) ?_ ?_ nofun ?_ nofun
    · exact fun id hid => ⟨t₀, hproc₀, by rw [hphase₀]; exact hid⟩
    · intro t' id hproc hp
      refine ⟨held.count + 1, ?_⟩
      rw [setPhase_held, setHeldLock_self]
      by_cases ht : t' = t
      · rw [ht, setPhase_self] at hp
        injection hp with hp
        rw [hp]
      · rw [hs.phase t' ht] at hp
        rw [h.holding_id hrun hlock hproc hp]
    · intro held' hheld'
      rw [setPhase_held, setHeldLock_self] at hheld'
      cases hheld'
      have hnew : t ∉ holders := by simp [hmem t, hphase]
      refine ⟨t :: holders, nofun, nodup_cons.mpr ⟨hnew, hnodup⟩, by rw [length_cons, hlength], fun t' => ?_⟩
      rw [mem_cons, hmem t']
      by_cases ht : t' = t
      · rw [ht, setPhase_self]
        exact ⟨fun _ => ⟨rfl, rfl⟩, fun _ => Or.inl rfl⟩
      · rw [hs.phase t' ht]
        exact or_iff_right ht
    · rintro id ⟨⟩
      exact h.knows t₀ held.id (by rw [hphase₀]; rfl)

theorem release_inv
    (hphase : s.phase t = .holding id ∨ (s.phase t = .released id ∧ ∀ held, s.held (host.proc t) = some held → held.id ≠ id)) :
    LockInv host (s.releaseStep host t id) := by
  rcases hphase with hphase | ⟨hphase, hother⟩
  · obtain ⟨count, hlock⟩ := h.holds t id hrun hphase
    obtain ⟨holders, hne, hnodup, hlength, hmem⟩ := h.counted _ _ hrun hlock
    have hcreating : ∀ t' id', host.proc t' = host.proc t → (s.phase t').creates? ≠ some id' :=
      fun t' id' hproc => h.not_creating hrun hlock hproc
    have hself : t ∈ holders := (hmem t).mpr ⟨rfl, hphase⟩
    have hknown := h.knows t id (by rw [hphase]; rfl)
    unfold LockState.releaseStep
    simp only [hlock, if_true]
    by_cases hmany : 1 < count
    · rw [if_pos hmany]
      have hs := moves_of_set host t s (some ⟨id, count - 1⟩) (.released id)
      refine h.move hrun hs (setPhase_self _ _ _) rfl nofun
        (fun t' id' _ hproc hid => absurd hid (hcreating t' id' hproc)) ?_ ?_ nofun ?_ nofun
      · intro t' id' hproc hp
        obtain ⟨-, hp⟩ := of_setPhase (P := (· = .holding id')) hp nofun
        rw [setPhase_held, setHeldLock_self, h.holding_id hrun hlock hproc hp]
        exact ⟨count - 1, rfl⟩
      · intro held hheld
        rw [setPhase_held, setHeldLock_self] at hheld
        cases hheld
        have hleft : (holders.erase t).length = count - 1 := by rw [length_erase_of_mem hself, hlength]
        refine ⟨holders.erase t, ?_, hnodup.erase t, hleft, fun t' => ?_⟩
        · intro hnil
          rw [hnil, length_nil] at hleft
          omega
        · rw [hnodup.mem_erase_iff, hmem t']
          by_cases ht : t' = t
          · rw [ht, setPhase_self]
            exact ⟨fun hh => absurd rfl hh.1, fun hh => nomatch hh.2⟩
          · rw [hs.phase t' ht]
            exact and_iff_right ht
      · rintro id' ⟨⟩
        exact hknown
    · rw [if_neg hmany]
      -- the last holder: nobody else of the process has the lock
      have hone : holders = [t] := by
        have hlen : holders.length = 1 := by
          have hcount : holders.length = count := hlength
          have := length_pos_of_mem hself
          omega
        obtain ⟨t', hone⟩ := length_eq_one_iff.mp hlen
        rw [hone, mem_singleton] at hself
        rw [hone, hself]
      have honly : ∀ t' id', host.proc t' = host.proc t → s.phase t' = .holding id' → t' = t := by
        intro t' id' hproc hp
        rw [h.holding_id hrun hlock hproc hp] at hp
        simpa [hone] using (hmem t').mpr ⟨hproc, hp⟩
      have hs := moves_of_set host t s none (.closing id)
      refine h.move hrun hs (setPhase_self _ _ _) rfl nofun
        (fun t' id' _ hproc hid => absurd hid (hcreating t' id' hproc)) ?_ ?_ ?_ ?_ nofun
      · intro t' id' hproc hp
        obtain ⟨ht, hp⟩ := of_setPhase (P := (· = .holding id')) hp nofun
        exact absurd (honly t' id' hproc hp) ht
      · intro held hheld
        rw [setPhase_held, setHeldLock_self] at hheld
        cases hheld
      · rintro id' ⟨⟩
        refine h.abandoned hrun (by rw [hphase]; rfl) hs (by rw [setPhase_self]; rfl) fun t' ht hproc hid => ?_
        rcases LockPhase.holding_of_owns hid with hp | hc
        · exact ht (honly t' id hproc hp)
        · exact hcreating t' id hproc hc
      · rintro id' ⟨⟩
        exact hknown
  · have hsame : s.releaseStep host t id = s.setPhase t (.released id) := by
      unfold LockState.releaseStep
      cases hlock : s.held (host.proc t) with
      | none => rfl
      | some held => simp only [hother held hlock, if_false]
    rw [hsame]
    refine h.setPhase hrun (by simp [hphase]) rfl nofun ?_ nofun
    rintro id' ⟨⟩
    exact h.knows t id (by rw [hphase]; rfl)

end

end Steps

end OpenClaw.Agents
