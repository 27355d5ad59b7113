import OpenClaw.Process.CommandQueueSafety

/-! Progress of the lanes: queued work always has someone to start it, and a
waiter is always woken.

`Obliged` says who: a lane with work and room has a drain or a pump of its own
among the calls in progress. `Awaited` says the same of waiters: one whose tasks
are all gone has a notification in progress. With no call in progress there is
nobody left to oblige, so every lane is full or empty and every pending waiter
still has a task to wait for. -/
namespace OpenClaw.Process.CommandQueue
open Foundation List

variable {ε β : Type*} {e : Event ε β}

/-! ### Pumps -/

/-- Every prefix on the stack runs right above the pump that started it. -/
def Nested : List (Frame ε β) → Prop
  | [] => True
  | .task t :: below => (∃ rest, below = .pump t.lane :: rest) ∧ Nested below
  | _ :: below => Nested below

variable {f : Frame ε β} {below : List (Frame ε β)} {s s' r : State ε β} {l : LaneState} {lane : String}

theorem Nested.tail (h : Nested (f :: below)) : Nested below := by
  cases f with
  | task t => exact h.2
  | _ => exact h

theorem nested_drains (lanes : List String) (h : Nested below) :
    Nested (lanes.map .drain ++ below) := by
  induction lanes with
  | nil => exact h
  | cons lane rest ih => exact ih

/-- Who starts a lane's queued work: a lane is draining only while a pump of it
loops, and one with work and room has a pump or a drain in progress. -/
structure Obliged (s : State ε β) : Prop where
  draining : ∀ lane, (s.getLaneState lane).draining = true → .pump lane ∈ s.stack
  pumped : ∀ lane, (s.getLaneState lane).queue ≠ [] →
    (s.getLaneState lane).activeTaskIds.length < (s.getLaneState lane).maxConcurrent →
    .pump lane ∈ s.stack ∨ .drain lane ∈ s.stack
  nested : Nested s.stack

/-- A change of one lane, whose frames are the only ones that may go. -/
theorem Obliged.update (h : Obliged s) (lane : String) (hl : s'.lanes = s.lanes.set lane l) (hn : Nested s'.stack)
    (hd : l.draining = true → .pump lane ∈ s'.stack)
    (hp : l.queue ≠ [] → l.activeTaskIds.length < l.maxConcurrent → .pump lane ∈ s'.stack ∨ .drain lane ∈ s'.stack)
    (hother : ∀ lane', lane' ≠ lane → (.pump lane' ∈ s.stack → .pump lane' ∈ s'.stack) ∧ (.drain lane' ∈ s.stack → .drain lane' ∈ s'.stack)) :
    Obliged s' := by
  refine ⟨fun lane' hdr => ?_, fun lane' hq hr => ?_, hn⟩
  · rw [getLaneState_of_set hl] at hdr
    by_cases he : lane' = lane
    · rw [if_pos he] at hdr
      exact he ▸ hd hdr
    · rw [if_neg he] at hdr
      exact (hother lane' he).1 (h.draining lane' hdr)
  · rw [getLaneState_of_set hl] at hq hr
    by_cases he : lane' = lane
    · rw [if_pos he] at hq hr
      exact he ▸ hp hq hr
    · rw [if_neg he] at hq hr
      exact (h.pumped lane' hq hr).imp (hother lane' he).1 (hother lane' he).2

/-- The lanes are as before and no pump or drain has gone. -/
theorem Obliged.congr (h : Obliged s) (hl : s'.lanes = s.lanes) (hn : Nested s'.stack)
    (hk : ∀ lane, (.pump lane ∈ s.stack → .pump lane ∈ s'.stack) ∧
      (.drain lane ∈ s.stack → .drain lane ∈ s'.stack)) : Obliged s' := by
  have hlane (lane : String) : s'.getLaneState lane = s.getLaneState lane := by
    unfold State.getLaneState
    rw [hl]
  refine ⟨fun lane hdr => ?_, fun lane hq hr => ?_, hn⟩
  · rw [hlane] at hdr
    exact (hk lane).1 (h.draining lane hdr)
  · rw [hlane] at hq hr
    exact (h.pumped lane hq hr).imp (hk lane).1 (hk lane).2

/-- A frame that is neither a pump nor a drain may leave the stack. -/
theorem frames_kept {stack : List (Frame ε β)} (hs : stack = f :: below)
    (hf : ∀ lane, f ≠ .pump lane ∧ f ≠ .drain lane) (lane : String) :
    (.pump lane ∈ stack → .pump lane ∈ below) ∧ (.drain lane ∈ stack → .drain lane ∈ below) := by
  subst hs
  refine ⟨fun h => ?_, fun h => ?_⟩
  · rcases mem_cons.mp h with he | hm
    · exact absurd he.symm (hf lane).1
    · exact hm
  · rcases mem_cons.mp h with he | hm
    · exact absurd he.symm (hf lane).2
    · exact hm

section
variable (h : Obliged s)
include h

theorem obliged_drain (hs : s.stack = .drain lane :: below) : Obliged (drainLane lane below s) := by
  have hn : Nested below := (hs ▸ h.nested).tail
  have hpump (lane' : String) (hm : .pump lane' ∈ s.stack) : .pump lane' ∈ below := by
    rw [hs] at hm
    simpa using hm
  have hdrain (lane' : String) (hne : lane' ≠ lane) (hm : .drain lane' ∈ s.stack) : .drain lane' ∈ below := by
    rw [hs] at hm
    simpa [hne] using hm
  unfold drainLane
  dsimp only
  split
  · -- another pump of the lane is looping and will see the new work
    rename_i hdr
    refine ⟨fun lane' hd => hpump lane' (h.draining lane' hd), fun lane' hq hr => ?_, hn⟩
    by_cases he : lane' = lane
    · exact .inl (he ▸ hpump lane (h.draining lane hdr))
    · exact (h.pumped lane' hq hr).imp (hpump lane') (hdrain lane' he)
  · refine h.update lane rfl hn (fun _ => mem_cons_self) (fun _ _ => .inl mem_cons_self)
      fun lane' he => ⟨fun hm => ?_, fun hm => ?_⟩
    · exact mem_cons_of_mem _ (hpump lane' hm)
    · exact mem_cons_of_mem _ (hdrain lane' he hm)

theorem obliged_start (hs : s.stack = .pump lane :: below) (entry : QueueEntry) (rest : List QueueEntry) (now : Int) :
    Obliged (startEntry lane (s.getLaneState lane) entry rest now s) := by
  have hpump : .pump lane ∈ s.stack := hs ▸ mem_cons_self
  refine h.update lane rfl ⟨⟨below, hs⟩, h.nested⟩ (fun _ => mem_cons_of_mem _ hpump)
    (fun _ _ => .inl (mem_cons_of_mem _ hpump)) fun lane' _ => ⟨?_, ?_⟩
  · exact mem_cons_of_mem _
  · exact mem_cons_of_mem _

/-- The loop ends only on an empty queue or a full lane. -/
theorem obliged_stop (hs : s.stack = .pump lane :: below)
    (hfull : (s.getLaneState lane).queue ≠ [] → (s.getLaneState lane).maxConcurrent ≤ (s.getLaneState lane).activeTaskIds.length) :
    Obliged {s.setLaneState lane {s.getLaneState lane with draining := false} with stack := below} := by
  refine h.update lane rfl (hs ▸ h.nested).tail (fun hd => absurd hd Bool.false_ne_true)
    (fun hq hr => absurd hr (Nat.not_lt_of_le (hfull hq))) fun lane' he => ⟨fun hm => ?_, fun hm => ?_⟩
  · rw [hs] at hm
    simpa [he] using hm
  · rw [hs] at hm
    simpa using hm

theorem Obliged.finish (hl : r.lanes = s.lanes) (t : Task) (hn : Nested below)
    (hk : ∀ lane, (.pump lane ∈ s.stack → .pump lane ∈ below) ∧ (.drain lane ∈ s.stack → .drain lane ∈ below))
    (result : Except ε β) : Obliged (finishTask t result below r) := by
  have hpush (lane : String) (g : Frame ε β) :
      (.pump lane ∈ s.stack → .pump lane ∈ g :: below) ∧ (.drain lane ∈ s.stack → .drain lane ∈ g :: below) :=
    ⟨fun hm => mem_cons_of_mem _ ((hk lane).1 hm), fun hm => mem_cons_of_mem _ ((hk lane).2 hm)⟩
  by_cases hc : t.taskGeneration = (r.getLaneState t.lane).generation
  · have hlanes := finishTask_lanes hc result below
    rw [finishTask_current hc] at hlanes ⊢
    rw [hl] at hlanes
    refine h.update t.lane hlanes hn (fun _ => mem_cons_self) (fun _ _ => .inl mem_cons_self)
      fun lane _ => ⟨fun hm => ?_, fun hm => ?_⟩
    · exact mem_cons_of_mem _ ((hpush lane _).1 hm)
    · exact mem_cons_of_mem _ ((hpush lane _).2 hm)
  · rw [finishTask_stale hc]
    exact h.congr hl hn fun lane => hpush lane _

/-- After a reset each lane with work has its drain ahead. -/
theorem obliged_reset : Obliged (resetAllLanes s) := by
  refine ⟨fun lane hd => ?_, fun lane hq _ => .inr ?_, nested_drains _ h.nested⟩
  · rw [resetAllLanes_lane] at hd
    split at hd <;> exact absurd hd Bool.false_ne_true
  · rw [resetAllLanes_queue] at hq
    show Frame.drain lane ∈ ((s.lanes.entries.filter fun p => !p.2.queue.isEmpty).map Prod.fst).map .drain ++
      .notify :: s.stack
    cases hl : s.lanes.get? lane with
    | none =>
      rw [getLaneState_of_none hl] at hq
      exact absurd rfl hq
    | some l =>
      rw [getLaneState_of_some hl] at hq
      have hmem := (InsertionMap.get?_eq_some _ _ _).mp hl
      refine mem_append_left _ (mem_map_of_mem (mem_map.mpr ⟨(lane, l), ?_, rfl⟩))
      exact mem_filter.mpr ⟨hmem, by simpa using hq⟩

theorem obliged_call (op : Op) : Obliged (op.apply s) := by
  have hpush (lane lane' : String) : (.pump lane' ∈ s.stack → .pump lane' ∈ Frame.drain lane :: s.stack) ∧
      (.drain lane' ∈ s.stack → .drain lane' ∈ Frame.drain lane :: s.stack) :=
    ⟨mem_cons_of_mem _, mem_cons_of_mem _⟩
  cases op with
  | enqueueCommandInLane lane warnAfterMs now =>
    show Obliged (enqueueCommandInLane lane warnAfterMs now s).2
    unfold enqueueCommandInLane
    split
    · exact h
    · exact h.update (normalizeLane lane) rfl h.nested
        (fun hd => mem_cons_of_mem _ (h.draining _ hd)) (fun _ _ => .inr mem_cons_self)
        fun lane' _ => hpush _ lane'
  | setCommandLaneConcurrency lane n =>
    exact h.update (normalizeLane lane) rfl h.nested
      (fun hd => mem_cons_of_mem _ (h.draining _ hd)) (fun _ _ => .inr mem_cons_self)
      fun lane' _ => hpush _ lane'
  | clearCommandLane lane =>
    show Obliged (clearCommandLane lane s).2
    cases hl : s.lanes.get? (normalizeLane lane) with
    | none => rw [clearCommandLane_none hl]; exact h
    | some l =>
      rw [clearCommandLane_some hl]
      exact h.update (normalizeLane lane) rfl h.nested
        (fun hd => h.draining _ ((getLaneState_of_some hl).symm ▸ hd)) (fun hq => absurd rfl hq)
        fun _ _ => ⟨id, id⟩
  | resetAllLanes => exact obliged_reset h
  | markGatewayDraining => exact h.congr rfl h.nested fun _ => ⟨id, id⟩
  | waitForActiveTasks timeoutMs =>
    show Obliged (waitForActiveTasks timeoutMs s)
    unfold waitForActiveTasks
    dsimp only
    split
    · exact h.congr rfl h.nested fun _ => ⟨id, id⟩
    · split <;> exact h.congr rfl h.nested fun _ => ⟨id, id⟩

theorem obliged_action (ha : Action s e s') : Obliged s' := by
  cases ha with
  | drain hs => exact obliged_drain h hs
  | start hs _ _ => exact obliged_start h hs _ _ _
  | stop hs hfull => exact obliged_stop h hs hfull
  | settle hs | notify hs => exact h.congr rfl (hs ▸ h.nested).tail (frames_kept hs fun _ => ⟨nofun, nofun⟩)
  | call _ => exact obliged_call h _
  | suspend hs => exact h.congr rfl (hs ▸ h.nested).tail (frames_kept hs fun _ => ⟨nofun, nofun⟩)
  | throw error hs =>
    exact h.finish rfl _ (hs ▸ h.nested).tail (frames_kept hs fun _ => ⟨nofun, nofun⟩) _
  | @complete t taskId result hs _ =>
    exact h.finish (r := {s with running := s.running.erase t}) rfl t (hs ▸ h.nested)
      (fun lane => ⟨fun hm => hs ▸ hm, fun hm => hs ▸ hm⟩) result
  | timeout => exact h.congr rfl h.nested fun _ => ⟨id, id⟩

end

/-! ### Waiters -/

namespace State

/-- One of these tasks has neither ended nor been dropped by a reset. -/
def Live (s : State ε β) (taskIds : List Nat) : Prop :=
  ∃ t ∈ s.inFlight, t.taskGeneration = (s.getLaneState t.lane).generation ∧ t.taskId ∈ taskIds

end State

theorem mem_activeTaskIds (h : Counted s) (lane : String) (n : Nat) :
    n ∈ (s.getLaneState lane).activeTaskIds ↔ ∃ t ∈ s.inFlight, t.lane = lane ∧
      t.taskGeneration = (s.getLaneState lane).generation ∧ t.taskId = n := by
  rw [(h.active lane).mem_iff, mem_map]
  unfold State.current
  simp only [mem_filter, decide_eq_true_eq, and_assoc]

/-- A task is active exactly when a lane of the map counts it. -/
theorem mem_activeAtStart (h : Counted s) (n : Nat) :
    n ∈ activeAtStart s ↔ ∃ t ∈ s.inFlight,
      t.taskGeneration = (s.getLaneState t.lane).generation ∧ t.taskId = n := by
  unfold activeAtStart
  rw [mem_flatMap]
  constructor
  · rintro ⟨l, hl, hn⟩
    obtain ⟨lane, hg⟩ := (InsertionMap.mem_values _ _).mp hl
    rw [← getLaneState_of_some hg] at hn
    obtain ⟨t, ht, rfl, hgen, hid⟩ := (mem_activeTaskIds h lane n).mp hn
    exact ⟨t, ht, hgen, hid⟩
  · rintro ⟨t, ht, hgen, hid⟩
    have hn := (mem_activeTaskIds h t.lane n).mpr ⟨t, ht, rfl, hgen, hid⟩
    cases hg : s.lanes.get? t.lane with
    | none =>
      rw [getLaneState_of_none hg] at hn
      exact absurd hn not_mem_nil
    | some l =>
      rw [getLaneState_of_some hg] at hn
      exact ⟨l, (InsertionMap.mem_values _ _).mpr ⟨_, hg⟩, hn⟩

theorem hasPendingActiveTasks_iff (h : Counted s) (taskIds : List Nat) :
    hasPendingActiveTasks s taskIds = true ↔ s.Live taskIds := by
  have hany : hasPendingActiveTasks s taskIds = true ↔ ∃ n ∈ activeAtStart s, n ∈ taskIds := by
    simp only [hasPendingActiveTasks, activeAtStart, any_eq_true, decide_eq_true_eq, mem_flatMap]
    constructor
    · rintro ⟨l, hl, n, hn, hm⟩
      exact ⟨n, ⟨l, hl, hn⟩, hm⟩
    · rintro ⟨n, ⟨l, hl, hn⟩, hm⟩
      exact ⟨l, hl, n, hn, hm⟩
  rw [hany]
  constructor
  · rintro ⟨n, hn, hm⟩
    obtain ⟨t, ht, hg, rfl⟩ := (mem_activeAtStart h n).mp hn
    exact ⟨t, ht, hg, hm⟩
  · rintro ⟨t, ht, hg, hm⟩
    exact ⟨t.taskId, (mem_activeAtStart h _).mpr ⟨t, ht, hg, rfl⟩, hm⟩

theorem waiterDone_iff (h : Counted s) (w : ActiveTaskWaiter) :
    waiterDone s w = true ↔ ¬ s.Live w.activeTaskIds := by
  unfold waiterDone
  rw [Bool.or_eq_true, Bool.not_eq_true', ← Bool.not_eq_true, hasPendingActiveTasks_iff h]
  refine ⟨fun hd => hd.elim (fun he => ?_) id, .inr⟩
  rintro ⟨t, _, _, hm⟩
  rw [List.isEmpty_iff.mp he] at hm
  exact not_mem_nil hm

theorem generation_of_set (s : State ε β) (lane : String) (h : s'.lanes = s.lanes.set lane l)
    (hg : l.generation = (s.getLaneState lane).generation) (lane' : String) :
    (s'.getLaneState lane').generation = (s.getLaneState lane').generation := by
  rw [getLaneState_of_set h]
  split
  · rename_i he
    rw [he, hg]
  · rfl

theorem generation_le_of_set (s : State ε β) (lane : String) (h : s'.lanes = s.lanes.set lane l)
    (hg : l.generation = (s.getLaneState lane).generation) (lane' : String) :
    (s.getLaneState lane').generation ≤ (s'.getLaneState lane').generation :=
  Nat.le_of_eq (generation_of_set s lane h hg lane').symm

/-- What a step does to the tasks in flight and to the generations they belong to. -/
theorem action_flight (ha : Action s e s') :
    (s'.inFlight.Perm s.inFlight ∨ (∃ t, s'.inFlight.Perm (t :: s.inFlight) ∧ t.taskId = s.nextTaskId) ∨
      ∃ t, s.inFlight.Perm (t :: s'.inFlight)) ∧
    ∀ lane, (s.getLaneState lane).generation ≤ (s'.getLaneState lane).generation := by
  cases action_move ha with
  | quiet hq => exact ⟨.inl hq.flight, fun lane => Nat.le_of_eq (hq.counts lane).2.symm⟩
  | @starts lane _ _ _ _ _ => exact ⟨.inr (.inl ⟨_, perm_middle, rfl⟩), generation_le_of_set s lane rfl rfl⟩
  | reset =>
    refine ⟨.inl (.of_eq (resetAllLanes_inFlight s)), fun lane => ?_⟩
    rw [resetAllLanes_lane]
    split
    · rename_i h
      exact Nat.le_of_eq (by rw [getLaneState_of_none h])
    · exact Nat.le_succ _
  | @ends t below r result hin _ _ hl =>
    refine ⟨.inr (.inr ⟨t, ?_⟩), fun lane => Nat.le_of_eq ?_⟩
    · rw [finishTask_inFlight]
      exact hin
    · rw [finishTask_generation, State.getLaneState, State.getLaneState, hl]

/-- No step makes a task live again: one that is live was so before, or is the one
just started. -/
theorem live_action (h : Counted s) (ha : Action s e s') {taskIds : List Nat}
    (hids : ∀ n ∈ taskIds, n < s.nextTaskId) (hl : s'.Live taskIds) : s.Live taskIds := by
  obtain ⟨t, ht, hg, hm⟩ := hl
  obtain ⟨hflight, hgen⟩ := action_flight ha
  have hin : t ∈ s.inFlight := by
    rcases hflight with hp | ⟨u, hp, hu⟩ | ⟨u, hp⟩
    · exact hp.mem_iff.mp ht
    · rcases mem_cons.mp (hp.mem_iff.mp ht) with rfl | hin
      · exact absurd (hids _ hm) (by omega)
      · exact hin
    · exact hp.mem_iff.mpr (mem_cons_of_mem u ht)
  refine ⟨t, hin, ?_, hm⟩
  have h1 := h.generation t hin
  have h2 := hgen t.lane
  omega

theorem action_nextTaskId (ha : Action s e s') : s.nextTaskId ≤ s'.nextTaskId := by
  cases action_move ha with
  | quiet hq => exact Nat.le_of_eq hq.nextTaskId.symm
  | starts _ _ _ => exact Nat.le_succ _
  | reset => exact Nat.le_refl _
  | ends _ _ _ hn _ => rw [finishTask_nextTaskId, hn]

/-- No task that had started by `s` comes back to life in `s'`. -/
structure Later (s s' : State ε β) : Prop where
  nextTaskId : s.nextTaskId ≤ s'.nextTaskId
  live : ∀ taskIds, (∀ n ∈ taskIds, n < s.nextTaskId) → s'.Live taskIds → s.Live taskIds

theorem Later.trans {t u : State ε β} (h : Later s t) (h' : Later t u) : Later s u :=
  ⟨Nat.le_trans h.nextTaskId h'.nextTaskId, fun ids hids hl =>
    h.live ids hids (h'.live ids (fun n hn => Nat.lt_of_lt_of_le (hids n hn) h.nextTaskId) hl)⟩

theorem later_action (h : Counted s) (ha : Action s e s') : Later s s' :=
  ⟨action_nextTaskId ha, fun _ hids hl => live_action h ha hids hl⟩

namespace State

/-- The waiters of the calls so far, pending or resolved. -/
def waiters (s : State ε β) : List ActiveTaskWaiter := s.activeTaskWaiters ++ s.resolved.map Prod.fst

end State

/-- Each call has one waiter, pending or resolved, for tasks that had started by
then. It is resolved with `drained: true` only once none of them is left. -/
structure Awaited (s : State ε β) : Prop where
  once : (s.waiters.map ActiveTaskWaiter.id).Perm (List.range s.nextWaiterId)
  known : ∀ w ∈ s.waiters, ∀ n ∈ w.activeTaskIds, n < s.nextTaskId
  gone : ∀ w, (w, true) ∈ s.resolved → ¬ s.Live w.activeTaskIds

/-- Who wakes a waiter: a notification in progress, or the end of a task it waits for. -/
def Woken (s : State ε β) : Prop := ∀ w ∈ s.activeTaskWaiters, .notify ∈ s.stack ∨ s.Live w.activeTaskIds

/-- How a step moves the waiters. -/
inductive Moved (s : State ε β) (e : Event ε β) (s' : State ε β) : Prop
  | same : s'.activeTaskWaiters = s.activeTaskWaiters → s'.resolved = s.resolved →
      s'.nextWaiterId = s.nextWaiterId → Moved s e s'
  /-- The waiters that are done are resolved; those of `added` are new. -/
  | notified {added} : s'.activeTaskWaiters = (s.activeTaskWaiters ++ added).filter (fun w => !waiterDone s' w) →
      s'.resolved = s.resolved ++
        ((s.activeTaskWaiters ++ added).filter fun w => waiterDone s' w).map (fun w => (w, true)) →
      added = [] ∧ s'.nextWaiterId = s.nextWaiterId ∨
        added = [⟨s.nextWaiterId, activeAtStart s⟩] ∧ s'.nextWaiterId = s.nextWaiterId + 1 → Moved s e s'
  /-- The call need not wait, or must not. -/
  | answered {drained} : s'.activeTaskWaiters = s.activeTaskWaiters →
      s'.resolved = s.resolved ++ [(⟨s.nextWaiterId, activeAtStart s⟩, drained)] →
      s'.nextWaiterId = s.nextWaiterId + 1 → (drained = true → activeAtStart s = []) → Moved s e s'
  | fired {w} : e = .timeout w.id → s.stack = [] → w ∈ s.activeTaskWaiters →
      s'.activeTaskWaiters = s.activeTaskWaiters.filter (fun w' => w'.id ≠ w.id) →
      s'.resolved = s.resolved ++ [(w, false)] → s'.nextWaiterId = s.nextWaiterId → Moved s e s'

theorem moved_wait (s : State ε β) (timeoutMs : Int) : Moved s e (waitForActiveTasks timeoutMs s) := by
  unfold waitForActiveTasks
  dsimp only
  split
  · rename_i hempty
    exact .answered rfl rfl rfl fun _ => List.isEmpty_iff.mp hempty
  · split
    · exact .answered rfl rfl rfl fun h => absurd h Bool.false_ne_true
    · exact .notified rfl rfl (.inr ⟨rfl, rfl⟩)

theorem moved_call (s : State ε β) (op : Op) : Moved s e (op.apply s) := by
  cases op with
  | enqueueCommandInLane lane warnAfterMs now =>
    simp only [Op.apply, enqueueCommandInLane]
    split <;> exact .same rfl rfl rfl
  | clearCommandLane lane =>
    simp only [Op.apply, clearCommandLane]
    split <;> exact .same rfl rfl rfl
  | waitForActiveTasks timeoutMs => exact moved_wait s timeoutMs
  | _ => exact .same rfl rfl rfl

theorem moved_finish (hw : r.activeTaskWaiters = s.activeTaskWaiters) (hr : r.resolved = s.resolved)
    (hn : r.nextWaiterId = s.nextWaiterId) (t : Task) (result : Except ε β) (below : List (Frame ε β)) :
    Moved s e (finishTask t result below r) := by
  by_cases hg : t.taskGeneration = (r.getLaneState t.lane).generation
  · rw [finishTask_current hg]
    refine .notified ?_ ?_ (.inl ⟨rfl, hn⟩)
    · rw [append_nil, ← hw]
      rfl
    · rw [append_nil, ← hw, ← hr]
      rfl
  · rw [finishTask_stale hg]
    exact .same hw hr hn

theorem moved_action (ha : Action s e s') : Moved s e s' := by
  cases ha with
  | drain _ =>
    unfold drainLane
    dsimp only
    split <;> exact .same rfl rfl rfl
  | notify _ =>
    refine .notified ?_ ?_ (.inl ⟨rfl, rfl⟩)
    · rw [append_nil]
      rfl
    · rw [append_nil]
      rfl
  | @call op _ => exact moved_call s op
  | throw _ _ => exact moved_finish rfl rfl rfl _ _ _
  | @complete t taskId result _ _ =>
    exact moved_finish (s := s) (r := {s with running := s.running.erase t}) rfl rfl rfl _ _ _
  | timeout hs hw => exact .fired rfl hs hw rfl rfl rfl
  | _ => exact .same rfl rfl rfl

theorem perm_cons_filter_id {w : ActiveTaskWaiter} {ws : List ActiveTaskWaiter}
    (hn : (ws.map ActiveTaskWaiter.id).Nodup) (hw : w ∈ ws) :
    ws.Perm (w :: ws.filter fun w' => w'.id ≠ w.id) := by
  induction ws with
  | nil => cases hw
  | cons v rest ih =>
    rw [map_cons, nodup_cons] at hn
    rcases mem_cons.mp hw with rfl | hrest
    · have hkeep : rest.filter (fun w' => w'.id ≠ w.id) = rest := by
        rw [filter_eq_self]
        intro u hu
        have hne : u.id ≠ w.id := fun he => hn.1 (he ▸ mem_map_of_mem hu)
        simpa using hne
      rw [filter_cons_of_neg (by simp), hkeep]
    · have hne : v.id ≠ w.id := fun he => hn.1 (he ▸ mem_map_of_mem hrest)
      rw [filter_cons_of_pos (by simpa using hne)]
      exact ((ih hn.2 hrest).cons v).trans (List.Perm.swap w v _)

/-- A step loses no waiter; it may add the one of the call it makes. -/
theorem Moved.waiters (hm : Moved s e s') (h : Awaited s) :
    (s'.waiters.Perm s.waiters ∧ s'.nextWaiterId = s.nextWaiterId) ∨
      (s'.waiters.Perm (⟨s.nextWaiterId, activeAtStart s⟩ :: s.waiters) ∧
        s'.nextWaiterId = s.nextWaiterId + 1) := by
  unfold State.waiters
  cases hm with
  | same hw hr hn =>
    rw [hw, hr]
    exact .inl ⟨List.Perm.refl _, hn⟩
  | @notified added hw hr hadd =>
    have hsplit : (s'.activeTaskWaiters ++ s'.resolved.map Prod.fst).Perm
        (added ++ (s.activeTaskWaiters ++ s.resolved.map Prod.fst)) := by
      have hid : (Prod.fst ∘ fun w : ActiveTaskWaiter => (w, true)) = id := rfl
      rw [hw, hr, map_append, map_map, hid, map_id]
      refine (perm_append_comm.append_left _).trans ?_
      rw [← append_assoc, ← append_assoc]
      refine List.Perm.append_right _ (perm_append_comm.trans ?_)
      exact (filter_append_perm (fun w => waiterDone s' w) _).trans perm_append_comm
    rcases hadd with ⟨rfl, hn⟩ | ⟨rfl, hn⟩
    · exact .inl ⟨hsplit, hn⟩
    · exact .inr ⟨hsplit, hn⟩
  | answered hw hr hn _ =>
    rw [hw, hr, map_append, ← append_assoc]
    exact .inr ⟨perm_append_comm, hn⟩
  | fired _ _ hmem hw hr hn =>
    have hids : (s.activeTaskWaiters.map ActiveTaskWaiter.id).Nodup := by
      have hall := h.once.nodup_iff.mpr nodup_range
      rw [State.waiters, map_append] at hall
      exact (nodup_append.mp hall).1
    rw [hw, hr, map_append, ← append_assoc]
    refine .inl ⟨perm_append_comm.trans ?_, hn⟩
    exact (perm_cons_filter_id hids hmem).symm.append_right _

/-- Only a waiter that is done is resolved with `drained: true`. -/
theorem Moved.resolved_true (hm : Moved s e s') {w : ActiveTaskWaiter} (hw : (w, true) ∈ s'.resolved) :
    (w, true) ∈ s.resolved ∨ waiterDone s' w = true := by
  cases hm with
  | same _ hr _ => exact .inl (hr ▸ hw)
  | notified _ hr _ =>
    rw [hr, mem_append] at hw
    refine hw.imp id fun hnew => ?_
    obtain ⟨v, hv, he⟩ := mem_map.mp hnew
    cases he
    exact (mem_filter.mp hv).2
  | answered _ hr _ hempty =>
    rw [hr, mem_append, mem_singleton] at hw
    refine hw.imp id fun he => ?_
    obtain ⟨rfl, hb⟩ := Prod.mk.injEq .. ▸ he
    rw [waiterDone, hempty hb.symm]
    rfl
  | fired _ _ _ _ hr _ =>
    rw [hr, mem_append, mem_singleton] at hw
    exact hw.imp id fun he => absurd (congrArg Prod.snd he) Bool.true_eq_false.mp

/-- Only a timer resolves a pending waiter with `drained: false`. -/
theorem Moved.resolved_false (hm : Moved s e s') {w : ActiveTaskWaiter} (hw : (w, false) ∈ s'.resolved) :
    (w, false) ∈ s.resolved ∨ w.id = s.nextWaiterId ∨
      (e = .timeout w.id ∧ s.stack = [] ∧ w ∈ s.activeTaskWaiters) := by
  cases hm with
  | same _ hr _ => exact .inl (hr ▸ hw)
  | notified _ hr _ =>
    rw [hr, mem_append] at hw
    refine hw.imp id fun hnew => ?_
    obtain ⟨v, _, he⟩ := mem_map.mp hnew
    exact absurd (congrArg Prod.snd he) Bool.true_eq_false.mp
  | answered _ hr _ _ =>
    rw [hr, mem_append, mem_singleton] at hw
    exact hw.imp id fun he => .inl (by cases he; rfl)
  | fired he hs hmem _ hr _ =>
    rw [hr, mem_append, mem_singleton] at hw
    refine hw.imp id fun heq => .inr ?_
    cases heq
    exact ⟨he, hs, hmem⟩

theorem Kept.activeAtStart_lt (h : Kept s) {n : Nat} (hn : n ∈ activeAtStart s) :
    n < s.nextTaskId := by
  obtain ⟨t, ht, _, rfl⟩ := (mem_activeAtStart h.counted n).mp hn
  exact h.counted.fresh t (h.accounted.tasks.mem_iff.mpr (mem_append_left _ ht))

theorem awaited_action (h : Awaited s) (hk : Kept s) (ha : Action s e s') :
    Awaited s' := by
  have hl := later_action hk.counted ha
  have hm := moved_action ha
  refine ⟨?_, fun w hw n hn => ?_, fun w hw hlive => ?_⟩
  · rcases hm.waiters h with ⟨hp, hn⟩ | ⟨hp, hn⟩
    · rw [hn]
      exact (hp.map _).trans h.once
    · rw [hn, range_succ]
      exact ((hp.map _).trans (h.once.cons _)).trans (perm_append_comm : ([s.nextWaiterId] ++ _).Perm _)
  · refine Nat.lt_of_lt_of_le ?_ hl.nextTaskId
    rcases hm.waiters h with ⟨hp, _⟩ | ⟨hp, _⟩
    · exact h.known w (hp.mem_iff.mp hw) n hn
    · rcases mem_cons.mp (hp.mem_iff.mp hw) with rfl | hold
      · exact hk.activeAtStart_lt hn
      · exact h.known w hold n hn
  · rcases hm.resolved_true hw with hold | hdone
    · have hmem : w ∈ s.waiters := mem_append_right _ (mem_map_of_mem hold)
      exact h.gone w hold (hl.live _ (h.known w hmem) hlive)
    · exact (waiterDone_iff (counted_action hk.counted ha) w).mp hdone hlive

theorem live_of_subset {taskIds : List Nat} (h : s.Live taskIds)
    (hin : ∀ t ∈ s.inFlight, t.taskGeneration = (s.getLaneState t.lane).generation → t ∈ s'.inFlight)
    (hg : ∀ lane, (s'.getLaneState lane).generation = (s.getLaneState lane).generation) :
    s'.Live taskIds := by
  obtain ⟨t, ht, hgen, hm⟩ := h
  exact ⟨t, hin t ht hgen, hgen.trans (hg t.lane).symm, hm⟩

/-- While nothing is notified, a waiter keeps what it had to wake it. -/
theorem Woken.same (h : Woken s) (hw : ∀ w ∈ s'.activeTaskWaiters, w ∈ s.activeTaskWaiters)
    (hk : .notify ∈ s.stack → .notify ∈ s'.stack)
    (hin : ∀ t ∈ s.inFlight, t.taskGeneration = (s.getLaneState t.lane).generation → t ∈ s'.inFlight)
    (hg : ∀ lane, (s'.getLaneState lane).generation = (s.getLaneState lane).generation) : Woken s' :=
  fun w hm => (h w (hw w hm)).imp hk fun hl => live_of_subset hl hin hg

theorem Woken.notified (hc' : Counted s') (ws : List ActiveTaskWaiter)
    (hp : s'.activeTaskWaiters = ws.filter fun w => !waiterDone s' w) : Woken s' := by
  intro w hw
  rw [hp, mem_filter, Bool.not_eq_true', ← Bool.not_eq_true, waiterDone_iff hc', not_not] at hw
  exact .inr hw.2

theorem notify_kept {stack : List (Frame ε β)} (hs : stack = f :: below) (hf : f ≠ .notify) (h : .notify ∈ stack) :
    .notify ∈ below := by
  rw [hs] at h
  exact (mem_cons.mp h).resolve_left (Ne.symm hf)

theorem Woken.finish (h : Woken s) (hc : Counted s) {t : Task} {result : Except ε β}
    (ha : Action s e (finishTask t result below r)) (hw : r.activeTaskWaiters = s.activeTaskWaiters)
    (hl : r.lanes = s.lanes) (hk : .notify ∈ s.stack → .notify ∈ below)
    (hin : s.inFlight.Perm (t :: (r.running ++ stackTasks below))) :
    Woken (finishTask t result below r) := by
  have hlane (lane : String) : r.getLaneState lane = s.getLaneState lane := by
    unfold State.getLaneState
    rw [hl]
  by_cases hg : t.taskGeneration = (r.getLaneState t.lane).generation
  · have hcur := finishTask_current hg result below
    exact Woken.notified (counted_action hc ha) r.activeTaskWaiters (by rw [hcur]; rfl)
  · have hst := finishTask_stale hg result below
    refine h.same (fun w hm => ?_) (fun hm => ?_) (fun u hu hgen => ?_) fun lane => ?_
    · rw [hst] at hm
      exact hw ▸ hm
    · rw [hst]
      exact mem_cons_of_mem _ (hk hm)
    · rw [finishTask_inFlight]
      rcases mem_cons.mp (hin.mem_iff.mp hu) with rfl | hrest
      · exact absurd (by rw [hlane, hgen]) hg
      · exact hrest
    · rw [finishTask_generation, hlane]

theorem apply_notify (op : Op) (s : State ε β) (h : .notify ∈ s.stack) : .notify ∈ (op.apply s).stack := by
  cases op with
  | enqueueCommandInLane lane warnAfterMs now =>
    simp only [Op.apply, enqueueCommandInLane]
    split
    · exact h
    · exact mem_cons_of_mem _ h
  | clearCommandLane lane =>
    simp only [Op.apply, clearCommandLane]
    split <;> exact h
  | waitForActiveTasks timeoutMs =>
    simp only [Op.apply, waitForActiveTasks]
    split
    · exact h
    · split <;> exact h
  | setCommandLaneConcurrency lane n => exact mem_cons_of_mem _ h
  | resetAllLanes => exact mem_append_right _ (mem_cons_of_mem _ h)
  | markGatewayDraining => exact h

/-- A reset has its notification ahead; any other call drops no task. -/
theorem woken_call (h : Woken s) (hk : Kept s) {op : Op} (hu : userControl s = true) :
    Woken (op.apply s) := by
  have hc' : Counted (op.apply s) := counted_action (e := .call op) hk.counted (.call hu)
  by_cases hreset : op = .resetAllLanes
  · subst hreset
    exact fun w _ => .inl (mem_append_right _ mem_cons_self)
  · have hsub (hw : ∀ w ∈ (op.apply s).activeTaskWaiters, w ∈ s.activeTaskWaiters) : Woken (op.apply s) :=
      h.same hw (apply_notify op s) (fun t ht _ => (apply_quiet hreset s).flight.mem_iff.mpr ht) fun lane =>
        ((apply_quiet hreset s).counts lane).2
    cases moved_call (e := .call op) s op with
    | same hw _ _ => exact hsub fun w hm => hw ▸ hm
    | notified hw _ _ => exact Woken.notified hc' _ hw
    | answered hw _ _ _ => exact hsub fun w hm => hw ▸ hm
    | fired he _ _ _ _ _ => cases he

theorem woken_action (h : Woken s) (hk : Kept s) (ha : Action s e s') : Woken s' := by
  have hc' := counted_action hk.counted ha
  have hpop {f : Frame ε β} {below : List (Frame ε β)} (hs : s.stack = f :: below) (hf : f.task? = none) {t : Task}
      (ht : t ∈ s.inFlight) : t ∈ s.running ++ stackTasks below := by
    rwa [inFlight_pop hs hf] at ht
  cases ha with
  | @drain lane below now hs =>
    unfold drainLane
    dsimp only
    split
    · exact h.same (fun _ => id) (notify_kept hs nofun) (fun _ ht _ => hpop hs rfl ht) fun _ => rfl
    · exact h.same (fun _ => id) (fun hm => mem_cons_of_mem _ (notify_kept hs nofun hm))
        (fun _ ht _ => hpop hs rfl ht) (generation_of_set s lane rfl rfl)
  | @start lane below entry rest now _ _ _ =>
    refine h.same (fun _ => id) (mem_cons_of_mem _) (fun t ht _ => ?_)
      (generation_of_set s lane rfl rfl)
    show t ∈ s.running ++ (_ :: stackTasks s.stack)
    exact perm_middle.symm.subset (mem_cons_of_mem _ ht)
  | @stop lane below now hs _ =>
    exact h.same (fun _ => id) (notify_kept hs nofun) (fun _ ht _ => hpop hs rfl ht)
      (generation_of_set s lane rfl rfl)
  | settle hs =>
    exact h.same (fun _ => id) (notify_kept hs nofun) (fun _ ht _ => hpop hs rfl ht) fun _ => rfl
  | notify _ => exact Woken.notified hc' s.activeTaskWaiters rfl
  | call hu => exact woken_call h hk hu
  | @suspend t below hs =>
    refine h.same (fun _ => id) (notify_kept hs nofun) (fun u hu _ => ?_) fun _ => rfl
    show u ∈ (s.running ++ [t]) ++ stackTasks below
    rw [append_assoc]
    exact ((inFlight_throw hs).trans perm_middle.symm).mem_iff.mp hu
  | throw error hs =>
    exact h.finish hk.counted (.throw error hs) rfl rfl (notify_kept hs nofun) (inFlight_throw hs)
  | @complete t taskId result hs ht =>
    exact h.finish (r := {s with running := s.running.erase t}) hk.counted (.complete result hs ht) rfl rfl
      (fun hm => hs ▸ hm) (inFlight_complete hs (mem_of_find?_eq_some ht))
  | timeout _ _ => exact h.same (fun _ hm => mem_of_mem_filter hm) id (fun _ ht _ => ht) fun _ => rfl

/-! ### Every run -/

/-- What holds of every state a run reaches, on top of what is kept for safety. -/
structure Served (s : State ε β) : Prop where
  kept : Kept s
  obliged : Obliged s
  awaited : Awaited s
  woken : Woken s

theorem served_initial : Served (initial : State ε β) where
  kept := kept_initial
  obliged := ⟨fun _ h => absurd h Bool.false_ne_true, fun _ h => absurd rfl h, trivial⟩
  awaited := ⟨List.Perm.refl _, fun _ h => absurd h not_mem_nil, fun _ h => absurd h not_mem_nil⟩
  woken := fun _ h => absurd h not_mem_nil

theorem served_step (e : Event ε β) (s s' : State ε β) (h : Served s) (hs : step e s = some s') :
    Served s' :=
  have ha := step_action hs
  ⟨kept_step e s s' h.kept hs, obliged_action h.obliged ha, awaited_action h.awaited h.kept ha,
    woken_action h.woken h.kept ha⟩

theorem served_run {events : List (Event ε β)} (h : step.run events initial = some s) :
    Served s :=
  step.run_invariant served_step events served_initial h

/-- User code in control with no pump below it is the event loop. -/
theorem stack_nil_of_userControl (hn : Nested s.stack) (hu : userControl s = true)
    (hp : ∀ lane, .pump lane ∉ s.stack) : s.stack = [] := by
  unfold userControl at hu
  split at hu
  · rename_i hs
    exact hs
  · rename_i t below hs
    rw [hs] at hn hp
    obtain ⟨⟨rest, rfl⟩, -⟩ := hn
    exact absurd (mem_cons_of_mem _ mem_cons_self) (hp t.lane)
  · cases hu

/-- A lane with no drain or pump of its own in progress is empty or full. -/
theorem Served.full (h : Served s) (hp : .pump lane ∉ s.stack) (hd : .drain lane ∉ s.stack)
    (hq : (s.getLaneState lane).queue ≠ []) :
    (s.getLaneState lane).maxConcurrent ≤ (s.current lane).length := by
  have hlen := (h.kept.counted.active lane).length_eq
  rw [length_map] at hlen
  rw [← hlen]
  refine Nat.le_of_not_lt fun hr => ?_
  exact (h.obliged.pumped lane hq hr).elim hp hd

theorem Served.waiters_kept (h : Served s) (hs : step e s = some s') {w : ActiveTaskWaiter} (hw : w ∈ s.waiters) :
    w ∈ s'.waiters := by
  rcases (moved_action (step_action hs)).waiters h.awaited with ⟨hp, _⟩ | ⟨hp, _⟩
  · exact hp.mem_iff.mpr hw
  · exact hp.mem_iff.mpr (mem_cons_of_mem _ hw)

/-- A waiter's id is its own. -/
theorem Served.waiters_filter (h : Served s) {w : ActiveTaskWaiter} (hw : w ∈ s.waiters) :
    (s.waiters.filter fun v => v.id = w.id) = [w] := by
  have hn : (s.waiters.map ActiveTaskWaiter.id).Nodup := h.awaited.once.nodup_iff.mpr nodup_range
  have hrest : (s.waiters.filter fun v => v.id = w.id).Perm
      ((w :: s.waiters.filter fun v => v.id ≠ w.id).filter fun v => v.id = w.id) :=
    (perm_cons_filter_id hn hw).filter _
  have hnone : (s.waiters.filter fun v => v.id ≠ w.id).filter (fun v => v.id = w.id) = [] := by
    rw [filter_filter, filter_eq_nil_iff]
    intro v _
    simp
  rw [filter_cons_of_pos (by simp), hnone] at hrest
  exact perm_singleton.mp hrest

/-- What stays true of a waiter from the call that made it. -/
structure Waits (s₀ : State ε β) (w : ActiveTaskWaiter) (s : State ε β) : Prop where
  served : Served s
  later : Later s₀ s
  listed : w ∈ s.waiters
  newer : ∀ t ∈ s.started, t ∈ s₀.started ∨ s₀.nextTaskId ≤ t.taskId
  id : w.id < s.nextWaiterId

theorem action_newer (hc : Counted s) (ha : Action s e s') {t : Task} (ht : t ∈ s'.started) :
    t ∈ s.started ∨ s.nextTaskId ≤ t.taskId := by
  rcases action_started hc ha with hsame | ⟨u, hu, hid, _⟩
  · exact .inl (hsame ▸ ht)
  · rw [hu, mem_append, mem_singleton] at ht
    exact ht.imp (fun hold => hold) fun he => Nat.le_of_eq (by rw [he, hid])

theorem waits_step {s₀ : State ε β} {w : ActiveTaskWaiter} (e : Event ε β) (s s' : State ε β)
    (h : Waits s₀ w s) (hs : step e s = some s') : Waits s₀ w s' := by
  have ha := step_action hs
  have hl := later_action h.served.kept.counted ha
  refine ⟨served_step e s s' h.served hs, h.later.trans hl, h.served.waiters_kept hs h.listed,
    fun t ht => ?_, ?_⟩
  · rcases action_newer h.served.kept.counted ha ht with hold | hnew
    · exact h.newer t hold
    · exact .inr (Nat.le_trans h.later.nextTaskId hnew)
  · have hid := h.id
    rcases (moved_action ha).waiters h.served.awaited with ⟨_, hn⟩ | ⟨_, hn⟩ <;> omega

/-- The promise of one waiter, made in `s₀` and looked at in `s`. -/
structure Promised (s₀ : State ε β) (w : ActiveTaskWaiter) (s : State ε β) : Prop where
  /-- It is pending or it was resolved, and resolved once. -/
  once : ((s.activeTaskWaiters ++ s.resolved.map Prod.fst).filter fun v => v.id = w.id) = [w]
  /-- A task started after the call is none it waits for. -/
  older : ∀ t ∈ s.started, t ∉ s₀.started → t.taskId ∉ w.activeTaskIds
  /-- With `drained: true` no task it waits for is left, -/
  notBefore : (w, true) ∈ s.resolved → ¬ s.Live w.activeTaskIds
  /-- and while it is pending one is, unless a reset in progress is about to notify. -/
  pending : w ∈ s.activeTaskWaiters → .notify ∉ s.stack → s.Live w.activeTaskIds
  /-- With `drained: false` its timer fired, and fired first. -/
  timedOut : ∀ e s', step e s = some s' → (w, false) ∈ s'.resolved → (w, false) ∉ s.resolved →
    e = .timeout w.id ∧ w ∈ s.activeTaskWaiters ∧ s.Live w.activeTaskIds
  timer : w ∈ s.activeTaskWaiters → s.stack = [] →
    ∃ s', step (.timeout w.id) s = some s' ∧ (w, false) ∈ s'.resolved

theorem Waits.promised {s₀ : State ε β} {w : ActiveTaskWaiter} (h : Waits s₀ w s)
    (hw : ∀ n ∈ w.activeTaskIds, n < s₀.nextTaskId) : Promised s₀ w s := by
  refine ⟨h.served.waiters_filter h.listed, fun t ht hnew hm => ?_, h.served.awaited.gone w,
    fun hp hn => (h.served.woken w hp).resolve_left hn, fun e s' hs hf hold => ?_, fun hp hs => ?_⟩
  · have hge := (h.newer t ht).resolve_left hnew
    exact absurd (hw _ hm) (Nat.not_lt_of_le hge)
  · rcases (moved_action (step_action hs)).resolved_false hf with hold' | hid | ⟨he, hstack, hp⟩
    · exact absurd hold' hold
    · exact absurd h.id (by omega)
    · refine ⟨he, hp, (h.served.woken w hp).resolve_left fun hn => ?_⟩
      rw [hstack] at hn
      exact not_mem_nil hn
  · obtain ⟨v, hv⟩ : ∃ v, s.activeTaskWaiters.find? (fun v => v.id = w.id) = some v :=
      Option.isSome_iff_exists.mp (find?_isSome.mpr ⟨w, hp, by simp⟩)
    have hvw : v ∈ s.waiters.filter fun v => v.id = w.id :=
      mem_filter.mpr ⟨mem_append_left _ (mem_of_find?_eq_some hv), by
        simpa using find?_some hv⟩
    rw [h.served.waiters_filter h.listed, mem_singleton] at hvw
    have hfind : s.activeTaskWaiters.find? (fun v => v.id = w.id) = some w := hvw ▸ hv
    refine ⟨_, by simp only [step, hs, hfind]; rfl, ?_⟩
    exact mem_append_right _ (mem_singleton_self _)

/-- Lane progress, in every state a run of the queue reaches. -/
structure LaneProgress (s : State ε β) : Prop where
  /-- With no pump executing, a lane with queued work is full. -/
  noStall : userControl s = true → (∀ lane, .pump lane ∉ s.stack) →
    ∀ lane, (s.getLaneState lane).queue ≠ [] → (s.getLaneState lane).maxConcurrent ≤ (s.current lane).length
  /-- The same of one lane while others pump. -/
  noLaneStall : ∀ lane, .pump lane ∉ s.stack → .drain lane ∉ s.stack →
    (s.getLaneState lane).queue ≠ [] → (s.getLaneState lane).maxConcurrent ≤ (s.current lane).length
  /-- A call that waits waits for what is active, and its promise is kept. -/
  waiter : ∀ timeoutMs s₁, 0 < timeoutMs → activeAtStart s ≠ [] →
    step (.call (.waitForActiveTasks timeoutMs)) s = some s₁ →
    (∀ n, n ∈ activeAtStart s ↔ ∃ t ∈ s.inFlight,
      t.taskGeneration = (s.getLaneState t.lane).generation ∧ t.taskId = n) ∧
    ⟨s.nextWaiterId, activeAtStart s⟩ ∈ s₁.activeTaskWaiters ∧
    ∀ events s₂, step.run events s₁ = some s₂ → Promised s ⟨s.nextWaiterId, activeAtStart s⟩ s₂

theorem waitForActiveTasks_next (timeoutMs : Int) (s : State ε β) :
    (waitForActiveTasks timeoutMs s).nextWaiterId = s.nextWaiterId + 1 := by
  unfold waitForActiveTasks
  dsimp only
  split
  · rfl
  · split <;> rfl

/-- The waiter of a call, right after it. -/
theorem waits_call {s₁ : State ε β} (h : Served s) {timeoutMs : Int}
    (hs : step (.call (.waitForActiveTasks timeoutMs)) s = some s₁) :
    Waits s ⟨s.nextWaiterId, activeAtStart s⟩ s₁ := by
  have ha := step_action hs
  have hnext : s₁.nextWaiterId = s.nextWaiterId + 1 := by
    cases ha
    exact waitForActiveTasks_next timeoutMs s
  refine ⟨served_step _ s s₁ h hs, later_action h.kept.counted ha, ?_,
    fun t ht => action_newer h.kept.counted ha ht, ?_⟩
  · rcases (moved_action ha).waiters h.awaited with ⟨_, hn⟩ | ⟨hp, _⟩
    · exact absurd hn (by omega)
    · exact hp.mem_iff.mpr mem_cons_self
  · rw [hnext]
    exact Nat.lt_succ_self _

theorem wait_pending (h : Counted s) {timeoutMs : Int} (ht : 0 < timeoutMs) (hactive : activeAtStart s ≠ []) :
    ⟨s.nextWaiterId, activeAtStart s⟩ ∈ (waitForActiveTasks timeoutMs s).activeTaskWaiters := by
  obtain ⟨n, hn⟩ := exists_mem_of_ne_nil _ hactive
  have hlive : s.Live (activeAtStart s) := by
    obtain ⟨t, htf, hg, hid⟩ := (mem_activeAtStart h n).mp hn
    exact ⟨t, htf, hg, hid ▸ hn⟩
  have hempty : ¬ (activeAtStart s).isEmpty = true := fun he => hactive (List.isEmpty_iff.mp he)
  unfold waitForActiveTasks
  dsimp only
  rw [if_neg hempty, if_neg (Int.not_le.mpr ht)]
  refine mem_filter.mpr ⟨mem_append_right _ (mem_singleton_self _), ?_⟩
  rw [Bool.not_eq_true', ← Bool.not_eq_true]
  exact fun hd => (waiterDone_iff h ⟨s.nextWaiterId, activeAtStart s⟩).mp hd hlive

theorem lane_queue_progress (events : List (Event ε β)) (s : State ε β)
    (h : step.run events initial = some s) : LaneProgress s := by
  have hserved := served_run h
  refine ⟨fun hu hp lane hq => ?_, fun lane hp hd hq => hserved.full hp hd hq,
    fun timeoutMs s₁ htime hactive hs => ⟨mem_activeAtStart hserved.kept.counted, ?_, fun rest s₂ hr => ?_⟩⟩
  · have hnil := stack_nil_of_userControl hserved.obliged.nested hu hp
    refine hserved.full (hp lane) ?_ hq
    rw [hnil]
    exact not_mem_nil
  · cases step_action hs
    exact wait_pending hserved.kept.counted htime hactive
  · have hw := step.run_invariant waits_step rest (waits_call hserved hs) hr
    exact hw.promised fun n hn => hserved.kept.activeAtStart_lt hn

/-- One task running, one queued behind it, and a wait for the first. -/
theorem lane_queue_progress_waiting :
    ∃ s : State String Nat, LaneProgress s ∧ s.queuedIn "main" = [1] ∧ activeAtStart s = [1] ∧
      (∃ s₁, step (.call (.waitForActiveTasks 50)) s = some s₁ ∧ s₁.activeTaskWaiters = [⟨0, [1]⟩]) :=
  ⟨_, lane_queue_progress [.call (.enqueueCommandInLane "main" none 5), .advance 5, .advance 6, .suspend,
      .advance 7, .call (.enqueueCommandInLane "main" none 8), .advance 8, .advance 8] _ rfl,
    by decide, by decide, _, rfl, by decide⟩

end OpenClaw.Process.CommandQueue
