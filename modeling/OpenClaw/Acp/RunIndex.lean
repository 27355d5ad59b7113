import OpenClaw.Acp.SessionStore

/-! The run index, the limit, and who is removed.

`Indexed` says that a run leads to a session exactly while it is active there, that a
session with a controller is one with an active run, and that the limit holds. Every call
keeps it, as long as no run is replaced by another one that is still active: replacing a
run leaves the old one in the index. -/
namespace OpenClaw.Acp
open Foundation AcpSessionStore List InsertionMap

section Index
variable {κ : Type*} {options : AcpSessionStoreOptions} {nowMs : Int} {s : AcpSessionStore κ}

/-- The run is active in the session. -/
def AcpSessionStore.HasRun (s : AcpSessionStore κ) (runId sessionId : String) : Prop :=
  (s.sessions.get? sessionId).bind AcpSession.activeRunId = some runId

structure Indexed (options : AcpSessionStoreOptions) (s : AcpSessionStore κ) : Prop where
  mapped : ∀ runId sessionId, s.runIdToSessionId.get? runId = some sessionId ↔ s.HasRun runId sessionId
  controlled : ∀ sessionId session, s.sessions.get? sessionId = some session →
    session.activeRunId.isSome = session.abortController.isSome
  bounded : (s.sessions.size : Int) ≤ options.sessionLimit

theorem isBusy_iff {session : AcpSession κ} (h : session.activeRunId.isSome = session.abortController.isSome) :
    session.isBusy = session.activeRunId.isSome := by
  unfold AcpSession.isBusy
  rw [← h]
  cases session.activeRunId <;> simp

/-! ### Sessions written in place -/

/-- A session written with the run and the controller it had. -/
theorem Indexed.touch (hs : Indexed options s) {sessionId : String} {old session : AcpSession κ}
    (hold : s.sessions.get? sessionId = some old) (hrun : session.activeRunId = old.activeRunId)
    (hcontroller : session.abortController = old.abortController) :
    Indexed options {s with sessions := s.sessions.set sessionId session} where
  mapped runId id := by
    rw [hs.mapped]
    simp only [HasRun, get?_set]
    split
    · rename_i hid
      simp [hid, hold, hrun]
    · rfl
  controlled id found hfound := by
    simp only [get?_set] at hfound
    split at hfound
    · cases hfound
      rw [hrun, hcontroller]
      exact hs.controlled sessionId old hold
    · exact hs.controlled id found hfound
  bounded := by
    show ((s.sessions.set sessionId session).size : Int) ≤ _
    rw [size_set_old hold]
    exact hs.bounded

/-- A session with a new run takes it from no other session, and had none of its own. -/
theorem Indexed.setActiveRun (hs : Indexed options s) (sessionId runId : String) (controller : κ)
    (hown : ∀ id, s.runIdToSessionId.get? runId = some id → id = sessionId)
    (hidle : ∀ session, s.sessions.get? sessionId = some session → session.activeRunId.all (· = runId)) :
    Indexed options (s.setActiveRun nowMs sessionId runId controller) := by
  unfold AcpSessionStore.setActiveRun
  cases hold : s.sessions.get? sessionId with
  | none => exact hs
  | some session =>
    refine ⟨fun run id => ?_, fun id found hfound => ?_, ?_⟩
    · simp only [HasRun, get?_set]
      by_cases hrun : run = runId
      · subst hrun
        by_cases hid : id = sessionId
        · simp [hid, touchSession]
        · rw [if_pos rfl, if_neg hid]
          refine iff_of_false (fun h => hid (Option.some.inj h).symm) fun h => hid (hown id ?_)
          exact (hs.mapped run id).mpr h
      · rw [if_neg hrun, hs.mapped]
        by_cases hid : id = sessionId
        · -- The run that was replaced, if any, is the new one.
          have hnot : session.activeRunId ≠ some run := fun h => by
            have hall := hidle session hold
            rw [h] at hall
            exact hrun (by simpa using hall)
          simp [HasRun, hid, hold, touchSession, hnot, Ne.symm hrun]
        · rw [if_neg hid]
          rfl
    · simp only [get?_set] at hfound
      split at hfound
      · cases hfound
        rfl
      · exact hs.controlled id found hfound
    · show ((s.sessions.set sessionId _).size : Int) ≤ _
      rw [size_set_old hold]
      exact hs.bounded

/-- A session loses its run. -/
theorem Indexed.withoutRun (hs : Indexed options s) {sessionId : String} {session : AcpSession κ}
    (hold : s.sessions.get? sessionId = some session) (hnamed : session.activeRunId ≠ some "") (aborted : List κ) :
    Indexed options ⟨s.sessions.set sessionId (withoutRun nowMs session), s.forgetRun session, aborted⟩ := by
  have hforget (run : String) : (s.forgetRun session).get? run =
      if session.activeRunId = some run then none else s.runIdToSessionId.get? run := by
    unfold forgetRun
    cases hrun : session.activeRunId with
    | none => simp
    | some active =>
      have hne : active ≠ "" := fun h => hnamed (by rw [hrun, h])
      simp only [hne, ne_eq, not_false_eq_true, if_true, get?_erase, Option.some.injEq, eq_comm]
  refine ⟨fun run id => ?_, fun id found hfound => ?_, ?_⟩
  · rw [hforget]
    simp only [HasRun, get?_set]
    have hmapped := hs.mapped run
    simp only [HasRun] at hmapped
    by_cases hid : id = sessionId
    · subst hid
      have hleads := hmapped id
      rw [hold] at hleads
      by_cases hrun : session.activeRunId = some run
      · simp [hrun, AcpSessionStore.withoutRun, touchSession]
      · simp [hrun, AcpSessionStore.withoutRun, touchSession, hleads]
    · rw [if_neg hid]
      by_cases hrun : session.activeRunId = some run
      · rw [if_pos hrun]
        refine iff_of_false (by simp) fun h => hid ?_
        have ha := (hmapped id).mpr h
        rw [(hmapped sessionId).mpr (by rw [hold]; exact hrun)] at ha
        exact (Option.some.inj ha).symm
      · rw [if_neg hrun, hmapped]
  · simp only [get?_set] at hfound
    split at hfound
    · cases hfound
      rfl
    · exact hs.controlled id found hfound
  · show ((s.sessions.set sessionId _).size : Int) ≤ _
    rw [size_set_old hold]
    exact hs.bounded

/-! ### Sessions removed -/

/-- The same store with some sessions gone, none of which had a run. -/
structure Thinned (s t : AcpSessionStore κ) : Prop where
  index : t.runIdToSessionId = s.runIdToSessionId
  aborted : t.aborted = s.aborted
  kept : ∀ sessionId session, t.sessions.get? sessionId = some session → s.sessions.get? sessionId = some session
  idle : ∀ sessionId session, s.sessions.get? sessionId = some session → t.sessions.get? sessionId = none →
    session.activeRunId = none
  size : t.sessions.size ≤ s.sessions.size

theorem Thinned.refl (s : AcpSessionStore κ) : Thinned s s where
  index := rfl
  aborted := rfl
  kept _ _ h := h
  idle _ _ h hnone := by
    rw [h] at hnone
    cases hnone
  size := Nat.le_refl _

theorem Thinned.trans {t u : AcpSessionStore κ} (hst : Thinned s t) (htu : Thinned t u) : Thinned s u where
  index := htu.index.trans hst.index
  aborted := htu.aborted.trans hst.aborted
  kept id session h := hst.kept id session (htu.kept id session h)
  idle id session h hnone := by
    cases ht : t.sessions.get? id with
    | none => exact hst.idle id session h ht
    | some found =>
      have hsame := hst.kept id found ht
      rw [h] at hsame
      cases hsame
      exact htu.idle id session ht hnone
  size := Nat.le_trans htu.size hst.size

theorem Indexed.thin (hs : Indexed options s) {t : AcpSessionStore κ} (h : Thinned s t) : Indexed options t where
  mapped run id := by
    rw [h.index, hs.mapped]
    unfold HasRun
    cases ht : t.sessions.get? id with
    | some session => rw [h.kept id session ht]
    | none =>
      cases hsession : s.sessions.get? id with
      | none => rfl
      | some session => simp [h.idle id session hsession ht]
  controlled id session hsession := hs.controlled id session (h.kept id session hsession)
  bounded := by
    have hsize := h.size
    have hbound := hs.bounded
    omega

theorem removeSession_idle {sessionId : String} {session : AcpSession κ}
    (hold : s.sessions.get? sessionId = some session) (hrun : session.activeRunId = none)
    (hcontroller : session.abortController = none) :
    s.removeSession sessionId = {s with sessions := s.sessions.erase sessionId} := by
  simp [removeSession, hold, forgetRun, hrun, hcontroller]

theorem thinned_erase {sessionId : String} {session : AcpSession κ}
    (hold : s.sessions.get? sessionId = some session) (hrun : session.activeRunId = none) :
    Thinned s {s with sessions := s.sessions.erase sessionId} where
  index := rfl
  aborted := rfl
  kept id found h := by
    simp only [get?_erase] at h
    split at h
    · cases h
    · exact h
  idle id found h hnone := by
    simp only [get?_erase] at hnone
    split at hnone
    · rename_i hid
      rw [hid, hold] at h
      cases h
      exact hrun
    · rw [h] at hnone
      cases hnone
  size := size_erase_le _ _

/-- A session that is not busy has neither a run nor a controller. -/
theorem Indexed.of_not_busy (hs : Indexed options s) {sessionId : String} {session : AcpSession κ}
    (hsession : s.sessions.get? sessionId = some session) (hbusy : session.isBusy = false) :
    session.activeRunId = none ∧ session.abortController = none := by
  have hsame := hs.controlled sessionId session hsession
  rw [isBusy_iff hsame] at hbusy
  rw [hbusy] at hsame
  exact ⟨Option.isSome_eq_false_iff.mp hbusy |> Option.isNone_iff_eq_none.mp,
    Option.isSome_eq_false_iff.mp hsame.symm |> Option.isNone_iff_eq_none.mp⟩

theorem foldl_removeSession (ids : List String) (hs : Indexed options s)
    (hidle : ∀ id ∈ ids, ∀ session, s.sessions.get? id = some session → session.isBusy = false) :
    Thinned s (ids.foldl removeSession s) ∧
      ∀ id, (ids.foldl removeSession s).sessions.get? id = if id ∈ ids then none else s.sessions.get? id := by
  induction ids generalizing s with
  | nil => exact ⟨Thinned.refl s, fun id => by simp⟩
  | cons first rest ih =>
    rw [foldl_cons]
    cases hfirst : s.sessions.get? first with
    | none =>
      have hsame : s.removeSession first = s := by simp [removeSession, hfirst]
      rw [hsame]
      obtain ⟨hthin, hget⟩ := ih hs fun id hid => hidle id (mem_cons_of_mem _ hid)
      refine ⟨hthin, fun id => ?_⟩
      rw [hget]
      by_cases hid : id = first
      · simp [hid, hfirst]
      · simp [hid]
    | some session =>
      obtain ⟨hrun, hcontroller⟩ := hs.of_not_busy hfirst (hidle first mem_cons_self session hfirst)
      rw [removeSession_idle hfirst hrun hcontroller]
      have hthin := thinned_erase hfirst hrun
      obtain ⟨hrest, hget⟩ := ih (hs.thin hthin) fun id hid found hfound =>
        hidle id (mem_cons_of_mem _ hid) found (hthin.kept id found hfound)
      refine ⟨hthin.trans hrest, fun id => ?_⟩
      rw [hget, get?_erase]
      by_cases hid : id = first
      · simp [hid]
      · simp [hid]

/-- A reap removes the sessions that were idle for too long. -/
theorem Indexed.reap (hs : Indexed options s) (nowMs : Int) :
    Thinned s (s.reapIdleSessions options nowMs) ∧ ∀ id, (s.reapIdleSessions options nowMs).sessions.get? id =
      (s.sessions.get? id).filter fun session => !isReapable options nowMs session := by
  have hmem (id : String) : id ∈ (s.sessions.entries.filter fun e => isReapable options nowMs e.2).map Prod.fst ↔
      ∃ session, s.sessions.get? id = some session ∧ isReapable options nowMs session = true := by
    simp [get?_eq_some]
  obtain ⟨hthin, hget⟩ := foldl_removeSession
    ((s.sessions.entries.filter fun e => isReapable options nowMs e.2).map Prod.fst) hs fun id hid session hsession => by
      obtain ⟨found, hfound, hreap⟩ := (hmem id).mp hid
      rw [hsession] at hfound
      cases hfound
      simp only [isReapable, Bool.and_eq_true, Bool.not_eq_true'] at hreap
      exact hreap.1
  refine ⟨hthin, fun id => ?_⟩
  rw [reapIdleSessions, hget]
  cases hsession : s.sessions.get? id with
  | none => simp
  | some session =>
    have hiff := hmem id
    rw [hsession] at hiff
    by_cases hreap : isReapable options nowMs session = true
    · rw [if_pos (hiff.mpr ⟨session, rfl, hreap⟩)]
      simp [Option.filter, hreap]
    · rw [if_neg fun h => by
        obtain ⟨found, hfound, h⟩ := hiff.mp h
        cases hfound
        exact hreap h]
      simp [Option.filter, hreap]

/-- The session found is idle, and none of the idle ones was touched longer ago. -/
theorem oldestIdle_spec {entries : List (String × AcpSession κ)} {oldest : Option (String × Int)} {id : String}
    {touched : Int} (h : oldestIdle entries oldest = some (id, touched)) :
    (oldest = some (id, touched) ∨
      ∃ session, (id, session) ∈ entries ∧ session.isBusy = false ∧ session.lastTouchedAt = touched) ∧
      (∀ o, oldest = some o → touched ≤ o.2) ∧
      ∀ e ∈ entries, e.2.isBusy = false → touched ≤ e.2.lastTouchedAt := by
  induction entries generalizing oldest with
  | nil =>
    rw [oldestIdle] at h
    refine ⟨.inl h, fun o ho => ?_, by simp⟩
    rw [h] at ho
    cases ho
    exact Int.le_refl _
  | cons first rest ih =>
    obtain ⟨sessionId, session⟩ := first
    rw [oldestIdle] at h
    split at h
    · rename_i hpassed
      obtain ⟨hfound, hold, hrest⟩ := ih h
      refine ⟨?_, hold, fun e he hidle => ?_⟩
      · rcases hfound with hfound | ⟨found, hmem, hbusy, hat⟩
        · exact .inl hfound
        · exact .inr ⟨found, mem_cons_of_mem _ hmem, hbusy, hat⟩
      · rcases mem_cons.mp he with rfl | he
        · rw [Bool.or_eq_true] at hpassed
          rcases hpassed with hpassed | hpassed
          · rw [hidle] at hpassed
            cases hpassed
          · obtain ⟨o, ho, hle⟩ := Option.any_eq_true _ _ |>.mp hpassed
            exact Int.le_trans (hold o ho) (of_decide_eq_true hle)
        · exact hrest e he hidle
    · rename_i hpassed
      rw [Bool.or_eq_true, not_or] at hpassed
      obtain ⟨hbusy, hnewer⟩ := hpassed
      obtain ⟨hfound, hold, hrest⟩ := ih h
      have hle : touched ≤ session.lastTouchedAt := hold _ rfl
      refine ⟨?_, fun o ho => ?_, fun e he hidle => ?_⟩
      · rcases hfound with hfound | ⟨found, hmem, hbusy', hat⟩
        · cases hfound
          exact .inr ⟨session, mem_cons_self, by simpa using hbusy, rfl⟩
        · exact .inr ⟨found, mem_cons_of_mem _ hmem, hbusy', hat⟩
      · subst ho
        have hlt : session.lastTouchedAt < o.2 := by simpa using hnewer
        omega
      · rcases mem_cons.mp he with rfl | he
        · exact hle
        · exact hrest e he hidle

/-- An eviction removes the session idle for longest, if there is one it can name. -/
theorem Indexed.evict (hs : Indexed options s) : s.evictOldestIdleSession = (false, s) ∨
    ∃ id session, s.sessions.get? id = some session ∧ session.activeRunId = none ∧
      s.evictOldestIdleSession = (true, {s with sessions := s.sessions.erase id}) ∧
      ∀ id' other, s.sessions.get? id' = some other → other.activeRunId = none →
        session.lastTouchedAt ≤ other.lastTouchedAt := by
  unfold evictOldestIdleSession
  cases holdest : oldestIdle s.sessions.entries none with
  | none => exact .inl rfl
  | some oldest =>
    obtain ⟨id, touched⟩ := oldest
    by_cases hid : id = ""
    · exact .inl (by simp [hid])
    obtain ⟨hfound, -, hleast⟩ := oldestIdle_spec holdest
    obtain ⟨session, hmem, hbusy, hat⟩ := hfound.resolve_left (by simp)
    have hsession := (get?_eq_some s.sessions id session).mpr hmem
    obtain ⟨hrun, hcontroller⟩ := hs.of_not_busy hsession hbusy
    refine .inr ⟨id, session, hsession, hrun, ?_, fun id' other hother hidle => ?_⟩
    · simp only [ne_eq, hid, not_false_eq_true, if_true]
      rw [removeSession_idle hsession hrun hcontroller]
    · rw [hat]
      refine hleast (id', other) ((get?_eq_some s.sessions id' other).mp hother) ?_
      rw [isBusy_iff (hs.controlled id' other hother), hidle]
      rfl

/-! ### Who is removed -/

/-- Sessions that are gone had no run, and were due for the reap, except perhaps one that
was idle for longest. -/
structure RemovesIdle (options : AcpSessionStoreOptions) (nowMs : Int) (s t : AcpSessionStore κ) : Prop where
  idle : ∀ id session, s.sessions.get? id = some session → t.sessions.get? id = none → session.activeRunId = none
  oldest : ∀ id session, s.sessions.get? id = some session → t.sessions.get? id = none →
    isReapable options nowMs session = false → ∀ id' other, s.sessions.get? id' = some other →
      other.activeRunId = none → isReapable options nowMs other = false →
        session.lastTouchedAt ≤ other.lastTouchedAt ∧ (t.sessions.get? id' = none → id' = id)

/-- What has every session has removed none. -/
theorem removesIdle_refl (s : AcpSessionStore κ) : RemovesIdle options nowMs s s where
  idle id session h hnone := by
    rw [h] at hnone
    cases hnone
  oldest id session h hnone := by
    rw [h] at hnone
    cases hnone

theorem RemovesIdle.set {t : AcpSessionStore κ} (h : RemovesIdle options nowMs s t) (sessionId : String)
    (session : AcpSession κ) (index : InsertionMap String String) (aborted : List κ) :
    RemovesIdle options nowMs s ⟨t.sessions.set sessionId session, index, aborted⟩ := by
  have hgone (id : String) (hnone : (t.sessions.set sessionId session).get? id = none) :
      t.sessions.get? id = none := by
    rw [get?_set] at hnone
    split at hnone
    · cases hnone
    · exact hnone
  refine ⟨fun id found hfound hnone => h.idle id found hfound (hgone id hnone), ?_⟩
  intro id found hfound hnone hfresh id' other hother hidle hfresh'
  obtain ⟨hle, hsame⟩ := h.oldest id found hfound (hgone id hnone) hfresh id' other hother hidle hfresh'
  exact ⟨hle, fun hnone' => hsame (hgone id' hnone')⟩

section
variable (hs : Indexed options s)
include hs

/-- A new session, put where there is room. -/
theorem Indexed.insert {sessionId : String} {session : AcpSession κ} (hnew : s.sessions.get? sessionId = none)
    (hrun : session.activeRunId = none) (hcontroller : session.abortController = none)
    (hroom : (s.sessions.size : Int) < options.sessionLimit) :
    Indexed options {s with sessions := s.sessions.set sessionId session} where
  mapped runId id := by
    rw [hs.mapped]
    simp only [HasRun, get?_set]
    split
    · rename_i hid
      simp [hid, hnew, hrun]
    · rfl
  controlled id found hfound := by
    simp only [get?_set] at hfound
    split at hfound
    · cases hfound
      rw [hrun, hcontroller]
      rfl
    · exact hs.controlled id found hfound
  bounded := by
    show ((s.sessions.set sessionId session).size : Int) ≤ _
    rw [size_set_new hnew]
    omega

theorem Indexed.makeRoom (nowMs : Int) :
    Thinned s (s.makeRoom options nowMs).2 ∧ RemovesIdle options nowMs s (s.makeRoom options nowMs).2 ∧
      ((s.makeRoom options nowMs).1 = true → ((s.makeRoom options nowMs).2.sessions.size : Int) < options.sessionLimit) := by
  obtain ⟨hthin, hget⟩ := hs.reap nowMs
  unfold AcpSessionStore.makeRoom
  generalize s.reapIdleSessions options nowMs = reaped at hthin hget
  have hreaped := hs.thin hthin
  -- The reap removed the sessions that were due for it, and no others.
  have hspared : ∀ id session, s.sessions.get? id = some session → isReapable options nowMs session = false →
      reaped.sessions.get? id = some session := fun id session hsession hfresh => by
    rw [hget, hsession]
    simp [Option.filter, hfresh]
  have hreap : RemovesIdle options nowMs s reaped := by
    refine ⟨hthin.idle, fun id session hsession hnone hfresh => ?_⟩
    rw [hspared id session hsession hfresh] at hnone
    cases hnone
  dsimp only
  split_ifs with hfull
  · obtain hsame | ⟨evicted, session, hsession, hrun, hnext, hleast⟩ := hreaped.evict
    · rw [hsame]
      exact ⟨hthin, hreap, fun h => by cases h⟩
    · rw [hnext]
      have hgone := hthin.trans (thinned_erase hsession hrun)
      refine ⟨hgone, ⟨hgone.idle, ?_⟩, fun _ => ?_⟩
      · intro id found hfound hnone hfresh id' other hother hidle hfresh'
        -- Of the sessions the reap left, only the evicted one is gone.
        have hevicted (k : String) (x : AcpSession κ) (hx : s.sessions.get? k = some x)
            (hkept : isReapable options nowMs x = false) (hgone : (reaped.sessions.erase evicted).get? k = none) :
            k = evicted := by
          rw [get?_erase] at hgone
          split at hgone
          · assumption
          · rw [hspared k x hx hkept] at hgone
            cases hgone
        have hid := hevicted id found hfound hfresh hnone
        have hsame := hspared id found hfound hfresh
        rw [hid, hsession] at hsame
        cases hsame
        refine ⟨hleast id' other (hspared id' other hother hfresh') hidle, fun hnone' => ?_⟩
        rw [hid]
        exact hevicted id' other hother hfresh' hnone'
      · have hbound := hreaped.bounded
        have hlt := size_erase_lt hsession
        show ((reaped.sessions.erase evicted).size : Int) < _
        omega
  · exact ⟨hthin, hreap, fun _ => Int.not_le.mp hfull⟩

/-- Creating a session keeps the index, removes idle sessions only, and where it fails leaves
the sessions that remain as they were. -/
theorem Indexed.createSession (uuid : String) (nowMs : Int) (params : CreateSessionParams) :
    Indexed options (s.createSession options uuid nowMs params).2 ∧
      RemovesIdle options nowMs s (s.createSession options uuid nowMs params).2 ∧
      ∀ error, (s.createSession options uuid nowMs params).1 = .error error →
        Thinned s (s.createSession options uuid nowMs params).2 := by
  unfold AcpSessionStore.createSession
  dsimp only
  generalize params.sessionId.getD uuid = sessionId
  cases hold : s.sessions.get? sessionId with
  | some existing =>
    exact ⟨hs.touch hold rfl rfl, (removesIdle_refl s).set .., fun _ h => by cases h⟩
  | none =>
    obtain ⟨hthin, hremoves, hroom⟩ := hs.makeRoom nowMs
    have hnew : (s.makeRoom options nowMs).2.sessions.get? sessionId = none := by
      cases hget : (s.makeRoom options nowMs).2.sessions.get? sessionId with
      | none => rfl
      | some found =>
        rw [hthin.kept sessionId found hget] at hold
        cases hold
    dsimp only
    split_ifs with hmade
    · exact ⟨(hs.thin hthin).insert hnew rfl rfl (hroom hmade), hremoves.set .., fun _ h => by cases h⟩
    · exact ⟨hs.thin hthin, hremoves, fun _ _ => hthin⟩

theorem Indexed.getSession (sessionId : String) :
    Indexed options (s.getSession nowMs sessionId).2 ∧
      RemovesIdle options nowMs s (s.getSession nowMs sessionId).2 := by
  unfold AcpSessionStore.getSession
  cases hold : s.sessions.get? sessionId with
  | none => exact ⟨hs, removesIdle_refl s⟩
  | some session => exact ⟨hs.touch hold rfl rfl, (removesIdle_refl s).set ..⟩

/-- A run that is looked up is active in the session found. -/
theorem Indexed.activeRunId_of_getSessionByRunId {runId : String} {session : AcpSession κ}
    (h : (s.getSessionByRunId nowMs runId).1 = some session) : session.activeRunId = some runId := by
  unfold AcpSessionStore.getSessionByRunId at h
  cases hindex : s.runIdToSessionId.get? runId with
  | none => simp [hindex] at h
  | some sessionId =>
    have hrun := (hs.mapped runId sessionId).mp hindex
    simp only [hindex] at h
    split_ifs at h
    unfold HasRun at hrun
    unfold AcpSessionStore.getSession at h
    cases hold : s.sessions.get? sessionId with
    | none => simp [hold] at h
    | some found =>
      rw [hold] at h hrun
      cases h
      exact hrun

end

end Index

/-! ### Runs -/

section Runs
variable {κ : Type*} {options : AcpSessionStoreOptions}

/-- The call replaces no run that is still active, and takes away none with an empty id. -/
def KeepsRunIndex (e : Int × AcpCall κ) (h : AcpHistory κ) : Prop :=
  match e.2 with
  | .setActiveRun sessionId runId _ =>
    (h.store.sessions.get? sessionId).all fun session => session.activeRunId.all (· = runId)
  | .clearActiveRun sessionId | .cancelActiveRun sessionId =>
    (h.store.sessions.get? sessionId).all fun session => session.activeRunId ≠ some ""
  | _ => True

/-- The store is indexed, and every run in the index was used for its session. -/
structure IndexedHistory (options : AcpSessionStoreOptions) (h : AcpHistory κ) : Prop where
  store : Indexed options h.store
  used : ∀ runId sessionId, h.store.runIdToSessionId.get? runId = some sessionId → (runId, sessionId) ∈ h.runs

/-- What a call other than `setActiveRun` leads to was in the index before. -/
theorem index_sublist (nowMs : Int) (s : AcpSessionStore κ) (hs : Indexed options s) {call : AcpCall κ}
    (hcall : ∀ sessionId runId controller, call ≠ .setActiveRun sessionId runId controller) {runId sessionId : String}
    (h : (call.apply options nowMs s).runIdToSessionId.get? runId = some sessionId) :
    s.runIdToSessionId.get? runId = some sessionId := by
  have hforget (session : AcpSession κ) (h : (s.forgetRun session).get? runId = some sessionId) :
      s.runIdToSessionId.get? runId = some sessionId := by
    unfold forgetRun at h
    split at h
    · split_ifs at h
      · rw [get?_erase] at h
        split at h
        · cases h
        · exact h
      · exact h
    · exact h
  cases call with
  | createSession params uuid =>
    simp only [AcpCall.apply, AcpSessionStore.createSession] at h
    split at h
    · exact h
    · obtain ⟨hthin, -⟩ := hs.makeRoom nowMs
      split_ifs at h
      · rw [← hthin.index]
        exact h
      · rw [← hthin.index]
        exact h
  | getSession id =>
    simp only [AcpCall.apply, AcpSessionStore.getSession] at h
    split at h <;> exact h
  | getSessionByRunId id =>
    simp only [AcpCall.apply, AcpSessionStore.getSessionByRunId, AcpSessionStore.getSession] at h
    split at h
    · exact h
    · split_ifs at h
      · split at h <;> exact h
      · exact h
  | setActiveRun id run controller => exact absurd rfl (hcall id run controller)
  | clearActiveRun id =>
    simp only [AcpCall.apply, AcpSessionStore.clearActiveRun] at h
    split at h
    · exact h
    · exact hforget _ h
  | cancelActiveRun id =>
    simp only [AcpCall.apply, AcpSessionStore.cancelActiveRun] at h
    split at h
    · exact h
    · split at h
      · exact h
      · exact hforget _ h

/-- Every call keeps the index, where it replaces no active run, and removes idle sessions only. -/
theorem Indexed.apply {s : AcpSessionStore κ} (hs : Indexed options s) (nowMs : Int) {call : AcpCall κ}
    {h : AcpHistory κ} (hstore : h.store = s) (hkeeps : KeepsRunIndex (nowMs, call) h)
    (hown : ∀ sessionId runId controller, call = .setActiveRun sessionId runId controller →
      ∀ id, s.runIdToSessionId.get? runId = some id → id = sessionId) :
    Indexed options (call.apply options nowMs s) ∧ RemovesIdle options nowMs s (call.apply options nowMs s) := by
  subst hstore
  cases call with
  | createSession params uuid =>
    obtain ⟨hindexed, hremoves, -⟩ := hs.createSession uuid nowMs params
    exact ⟨hindexed, hremoves⟩
  | getSession sessionId => exact hs.getSession sessionId
  | getSessionByRunId runId =>
    simp only [AcpCall.apply, AcpSessionStore.getSessionByRunId]
    split
    · exact ⟨hs, removesIdle_refl _⟩
    · split_ifs
      · exact hs.getSession _
      · exact ⟨hs, removesIdle_refl _⟩
  | setActiveRun sessionId runId controller =>
    refine ⟨hs.setActiveRun sessionId runId controller (hown sessionId runId controller rfl) fun session hsession => ?_,
      ?_⟩
    · simpa [KeepsRunIndex, hsession] using hkeeps
    · simp only [AcpCall.apply, AcpSessionStore.setActiveRun]
      split
      · exact removesIdle_refl _
      · exact (removesIdle_refl _).set ..
  | clearActiveRun sessionId =>
    simp only [AcpCall.apply, AcpSessionStore.clearActiveRun]
    split
    · exact ⟨hs, removesIdle_refl _⟩
    · rename_i session hsession
      have hnamed : session.activeRunId ≠ some "" := by simpa [KeepsRunIndex, hsession] using hkeeps
      exact ⟨hs.withoutRun hsession hnamed _, (removesIdle_refl _).set ..⟩
  | cancelActiveRun sessionId =>
    simp only [AcpCall.apply, AcpSessionStore.cancelActiveRun]
    split
    · exact ⟨hs, removesIdle_refl _⟩
    · rename_i session hsession
      have hnamed : session.activeRunId ≠ some "" := by simpa [KeepsRunIndex, hsession] using hkeeps
      split
      · exact ⟨hs, removesIdle_refl _⟩
      · exact ⟨hs.withoutRun hsession hnamed _, (removesIdle_refl _).set ..⟩

/-- What a step does: the call, and the run it uses is remembered. -/
theorem acpStep_cases {nowMs : Int} {call : AcpCall κ} {h h' : AcpHistory κ}
    (hstep : acpStep options (nowMs, call) h = some h') : h'.store = call.apply options nowMs h.store ∧
      ((∃ sessionId runId controller, call = .setActiveRun sessionId runId controller ∧
        (∀ id, (runId, id) ∈ h.runs → id = sessionId) ∧ h'.runs = (runId, sessionId) :: h.runs) ∨
      (∀ sessionId runId controller, call ≠ .setActiveRun sessionId runId controller) ∧ h'.runs = h.runs) := by
  unfold acpStep at hstep
  split_ifs at hstep
  cases call with
  | setActiveRun sessionId runId controller =>
    dsimp only at hstep
    split_ifs at hstep with hused
    cases hstep
    refine ⟨rfl, .inl ⟨sessionId, runId, controller, rfl, fun id hid => ?_, rfl⟩⟩
    exact of_decide_eq_true (all_eq_true.mp hused _ hid) rfl
  | createSession | getSession | getSessionByRunId | clearActiveRun | cancelActiveRun =>
    cases hstep
    exact ⟨rfl, .inr ⟨by simp, rfl⟩⟩

theorem acpStep_indexed (e : Int × AcpCall κ) (h h' : AcpHistory κ) (hh : IndexedHistory options h)
    (hkeeps : KeepsRunIndex e h) (hstep : acpStep options e h = some h') : IndexedHistory options h' := by
  obtain ⟨nowMs, call⟩ := e
  obtain ⟨hstore, ⟨sessionId, runId, controller, rfl, hfresh, hruns⟩ | ⟨hother, hruns⟩⟩ := acpStep_cases hstep
  · have hown : ∀ id, h.store.runIdToSessionId.get? runId = some id → id = sessionId := fun id hid =>
      hfresh id (hh.used runId id hid)
    refine ⟨?_, fun run id hindex => ?_⟩
    · rw [hstore]
      refine (hh.store.apply nowMs rfl hkeeps fun _ _ _ heq => ?_).1
      cases heq
      exact hown
    · rw [hstore] at hindex
      rw [hruns]
      simp only [AcpCall.apply, AcpSessionStore.setActiveRun] at hindex
      split at hindex
      · exact mem_cons_of_mem _ (hh.used run id hindex)
      · rw [get?_set] at hindex
        split at hindex
        · rename_i hrun
          cases hindex
          rw [hrun]
          exact mem_cons_self
        · exact mem_cons_of_mem _ (hh.used run id hindex)
  · refine ⟨?_, fun run id hindex => ?_⟩
    · rw [hstore]
      exact (hh.store.apply nowMs rfl hkeeps fun _ _ _ heq => absurd heq (hother _ _ _)).1
    · rw [hstore] at hindex
      rw [hruns]
      exact hh.used run id (index_sublist nowMs h.store hh.store hother hindex)

theorem empty_indexed : IndexedHistory options ({} : AcpHistory κ) where
  store :=
    { mapped := fun runId sessionId => iff_of_false (by simp) (by simp [HasRun])
      controlled := fun sessionId session h => by simp at h
      bounded := by
        have hlimit : 1 ≤ options.sessionLimit := Int.le_max_left _ _
        show ((0 : Nat) : Int) ≤ _
        omega }
  used runId sessionId h := by simp at h

/-- In a run that replaces no active run, a run leads to a session exactly while it is active
there, the limit holds, and only idle sessions are removed, at the limit the one idle for
longest. A creation that fails leaves the sessions that remain. -/
theorem acp_runs_indexed (options : AcpSessionStoreOptions) (events : List (Int × AcpCall κ)) {h : AcpHistory κ}
    (hkeeps : Machine.Within (acpStep options) KeepsRunIndex events {})
    (hrun : (acpStep options).run events {} = some h) :
    (∀ runId sessionId, h.store.runIdToSessionId.get? runId = some sessionId ↔
      ∃ session, h.store.sessions.get? sessionId = some session ∧ session.activeRunId = some runId) ∧
    (∀ nowMs runId session, (h.store.getSessionByRunId nowMs runId).1 = some session →
      session.activeRunId = some runId) ∧
    (h.store.sessions.size : Int) ≤ options.sessionLimit ∧
    (∀ nowMs call h', acpStep options (nowMs, call) h = some h' → KeepsRunIndex (nowMs, call) h →
      RemovesIdle options nowMs h.store h'.store) ∧
    ∀ uuid nowMs params error, (h.store.createSession options uuid nowMs params).1 = .error error →
      Thinned h.store (h.store.createSession options uuid nowMs params).2 := by
  have hh := (acpStep options).run_within_invariant acpStep_indexed events empty_indexed hkeeps hrun
  refine ⟨fun runId sessionId => ?_, fun nowMs runId session => hh.store.activeRunId_of_getSessionByRunId,
    hh.store.bounded, fun nowMs call h' hstep hkeeps' => ?_, fun uuid nowMs params error herror => ?_⟩
  · rw [hh.store.mapped, HasRun, Option.bind_eq_some_iff]
  · obtain ⟨hstore, hcases⟩ := acpStep_cases hstep
    rw [hstore]
    refine (hh.store.apply nowMs rfl hkeeps' fun sessionId runId controller heq id hid => ?_).2
    obtain ⟨_, _, _, rfl, hfresh, -⟩ | ⟨hother, -⟩ := hcases
    · cases heq
      exact hfresh id (hh.used runId id hid)
    · exact absurd heq (hother _ _ _)
  · exact (hh.store.createSession uuid nowMs params).2.2 error herror

end Runs

/-- A session with one run and then, the first cancelled, another. -/
def runAfterRun : List (Int × AcpCall Nat) :=
  [(0, .createSession {sessionKey := "acp:one", cwd := "/", sessionId := some "one"} ""),
    (1, .setActiveRun "one" "run-1" 1), (2, .cancelActiveRun "one"), (3, .setActiveRun "one" "run-2" 2)]

theorem acp_runs_indexed_runAfterRun : ∃ h : AcpHistory Nat, (acpStep {}).run runAfterRun {} = some h ∧
    (h.store.sessions.size : Int) ≤ 5000 ∧ ∀ nowMs session,
      (h.store.getSessionByRunId nowMs "run-2").1 = some session → session.activeRunId = some "run-2" := by
  have hkeeps : Machine.Within (acpStep {}) KeepsRunIndex runAfterRun ({} : AcpHistory Nat) := by
    refine Machine.within_cons _ trivial rfl (Machine.within_cons _ rfl rfl ?_)
    exact Machine.within_cons _ rfl rfl (Machine.within_cons _ rfl rfl trivial)
  obtain ⟨-, hfound, hbounded, -⟩ := acp_runs_indexed {} runAfterRun hkeeps rfl
  exact ⟨_, rfl, hbounded, fun nowMs session => hfound nowMs "run-2" session⟩

/-- A run that is replaced while active still leads to the session. -/
theorem replaced_run_found : ((acpStep {}).run
    [(0, .createSession {sessionKey := "acp:one", cwd := "/", sessionId := some "one"} ""),
      (1, .setActiveRun "one" "run-1" 1), (2, .setActiveRun "one" "run-2" 2)] ({} : AcpHistory Nat)).any (fun h =>
        (h.store.getSessionByRunId 3 "run-1").1.any fun session => session.activeRunId = some "run-2") = true := by
  decide

end OpenClaw.Acp
