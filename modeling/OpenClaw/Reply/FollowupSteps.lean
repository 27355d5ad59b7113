import OpenClaw.Reply.FollowupQueue

/-! What a step of a follow-up queue can do.

`Action` says once what a step does, and `Resumed` what the drain does when it
goes on, each with the guard it is taken under; `step_action` is the inversion
lemma. `Wired` is what holds of the queue and its drain whatever comes in
between. -/
namespace OpenClaw.Reply
open Foundation

variable {φ : Type*}

variable {q : FollowupQueueState} {routable : String → Bool} {s' : State φ}

namespace State

def items (s : State φ) : List Queued := (s.queue.map fun q => q.items).getD []

def droppedCount (s : State φ) : Nat := (s.queue.map fun q => q.droppedCount).getD 0

def point (s : State φ) : Option DrainPoint := s.drain.map Drain.point

/-- The items whose own prompts were handed to `runFollowup`, call by call. -/
def handed (s : State φ) : List Queued := s.calls.flatMap fun c => c.content.own

theorem items_some {s : State φ} (h : s.queue = some q) : s.items = q.items := by
  simp [items, h]

theorem droppedCount_some {s : State φ} (h : s.queue = some q) :
    s.droppedCount = q.droppedCount := by
  simp [droppedCount, h]

theorem point_some {s : State φ} {d : Drain φ} (h : s.drain = some d) : s.point = some d.point := by
  simp [point, h]

end State

/-! ### What an operation leaves -/

namespace Enqueue

/-- The queue a call finds, under its settings. -/
def queueFor (e : Enqueue φ) (s : State φ) : FollowupQueueState := getFollowupQueue e.settings s.queue

/-- The queue once the call left its run there as the last one. -/
def runQueue (e : Enqueue φ) (s : State φ) : FollowupQueueState :=
  {e.queueFor s with lastRun := some e.run.run}

/-- The queue once its run is pushed. -/
def pushedQueue (e : Enqueue φ) (s : State φ) : FollowupQueueState :=
  let after := ((e.runQueue s).toQueueState.applyQueueDropPolicy summarizeRun).2
  {e.runQueue s with toQueueState := {after with items := after.items ++ [⟨s.accepted, e.run⟩]}}

/-- The items a call that is not deduplicated removes from the queue. -/
def removes (e : Enqueue φ) (s : State φ) : List Queued := (e.queueFor s).toQueueState.removed

/-- The call removes items to make room for its run. -/
def makesRoom (e : Enqueue φ) (s : State φ) : Prop := e.fresh s.queue = true ∧ (e.queueFor s).overflows

instance (e : Enqueue φ) (s : State φ) : Decidable (e.makesRoom s) := by unfold makesRoom; infer_instance

variable (e : Enqueue φ) (s : State φ)

@[simp] theorem queueFor_items : (e.queueFor s).items = s.items := by
  cases h : s.queue <;> simp [queueFor, getFollowupQueue, applyQueueRuntimeSettings, State.items, h, newFollowupQueue]

@[simp] theorem queueFor_droppedCount : (e.queueFor s).droppedCount = s.droppedCount := by
  cases h : s.queue <;>
    simp [queueFor, getFollowupQueue, applyQueueRuntimeSettings, State.droppedCount, h, newFollowupQueue]

theorem queueFor_some (h : s.queue = some q) :
    e.queueFor s = applyQueueRuntimeSettings e.settings q := by
  simp [queueFor, getFollowupQueue, h]

theorem queueFor_draining : (e.queueFor s).draining = (s.queue.map fun q => q.draining).getD false := by
  cases h : s.queue <;> simp [queueFor, getFollowupQueue, applyQueueRuntimeSettings, h, newFollowupQueue]

theorem removed_runQueue : (e.runQueue s).toQueueState.removed = e.removes s := rfl

/-- What is removed and what is left are the items that were there. -/
theorem removes_append : e.removes s ++ s.items.drop (e.removes s).length = s.items := by
  have h := (e.queueFor s).toQueueState.removed_append_drop
  rwa [queueFor_items] at h

theorem pushedQueue_items :
    (e.pushedQueue s).items = s.items.drop (e.removes s).length ++ [⟨s.accepted, e.run⟩] := by
  show ((e.runQueue s).toQueueState.applyQueueDropPolicy summarizeRun).2.items ++ _ = _
  rw [QueueState.applyQueueDropPolicy_items, removed_runQueue]
  show List.drop _ (e.queueFor s).items ++ _ = _
  rw [queueFor_items]

theorem pushedQueue_pending : (e.pushedQueue s).pending := by
  left
  rw [pushedQueue_items]
  simp

theorem push_eq : pushFollowup e (e.runQueue s) s = {s with
    queue := some (e.pushedQueue s)
    callback := e.runFollowup <|> s.callback
    accepted := s.accepted + 1
    dropped := s.dropped ++ e.removes s} := rfl

end Enqueue

theorem drainFinally_eq (s : State φ) (q : FollowupQueueState) (d : Drain φ) :
    drainFinally s q d =
      if q.pending then startDrain (s.callback.getD d.runFollowup) q s else deleteQueue s := by
  unfold drainFinally
  split_ifs with h
  · have hp : ({q with draining := false} : FollowupQueueState).pending := h
    simp [scheduleFollowupDrain, hp, startDrain]
  · rfl

/-! ### Steps -/

/-- What the drain does from where it waits to its next wait. -/
inductive Resumed (s : State φ) (q : FollowupQueueState) (d : Drain φ) : State φ → Prop
  /-- The items are collected, once `drainCollectQueueStep` has returned. -/
  | skip : d.point = .debounce → q.mode = .collect → d.forceIndividualCollect = false →
      Resumed s q d (waitAt s q d (.collectResult .skipped))
  /-- There is no item. -/
  | none {force point} : d.point = .debounce → q.items = [] →
      (q.mode = .collect → d.forceIndividualCollect = true) →
      (point = .collectResult .empty ∨ point = .itemResult false ∨ ∃ sm, point = .summaryResult sm false) →
      Resumed s q d (waitAt s q {d with forceIndividualCollect := force} point)
  /-- The first item is handed on. -/
  | item {force item rest point} : d.point = .debounce → q.items = item :: rest →
      (point = .collectRun ∧ force = true ∨ point = .itemRun ∧ q.previewQueueSummary = none) →
      Resumed s q d
        (callFollowup s q {d with forceIndividualCollect := force} (.item item) item.followup point)
  /-- A summary is handed on, in the place of the first item. -/
  | summary {item rest followup sm} : d.point = .debounce → q.mode ≠ .collect →
      q.previewQueueSummary = some sm → q.items = item :: rest →
      Resumed s q d (callFollowup s q d (.summary sm) followup (.summaryRun sm))
  /-- All items are handed on as one prompt. -/
  | batch {followup} : d.point = .collectResult .skipped →
      Resumed s q d (callFollowup s q d (.collect q.items q.previewQueueSummary) followup
        (.batchRun q.items.length q.previewQueueSummary))
  /-- The first item is taken off. -/
  | shift {point} :
      (d.point = .collectRun ∧ point = .collectResult .drained ∨ d.point = .itemRun ∧ point = .itemResult true) →
      Resumed s q d (waitAt s (shiftItems q 1) d point)
  | shiftSummary {sm} : d.point = .summaryRun sm →
      Resumed s q d (waitAt s (shiftItems q 1) d (.summaryResult sm true))
  /-- The collected items are taken off, and the summary told with them. -/
  | splice {count sm} : d.point = .batchRun count sm →
      Resumed s q d
        (drainLoop s (if sm.isSome then clearSummary (shiftItems q count) else shiftItems q count) d)
  | clear {sm} : d.point = .summaryResult sm true → Resumed s q d (drainLoop s (clearSummary q) d)
  | next : d.point = .collectResult .drained ∨ d.point = .itemResult true → Resumed s q d (drainLoop s q d)
  /-- The loop is left: nothing was handed on. -/
  | stop : (d.point = .collectResult .empty ∨ d.point = .itemResult false ∨ ∃ sm, d.point = .summaryResult sm false) →
      Resumed s q d (drainFinally s q d)
  /-- The loop is left: there is no run to hand on. -/
  | noRun : (d.point = .debounce ∧ q.pending ∨ d.point = .collectResult .skipped) → q.lastRun = none →
      Resumed s q d (drainFinally s q d)

theorem resumeDrain_resumed (routable : String → Bool) (s : State φ) (q : FollowupQueueState) (d : Drain φ) :
    Resumed s q d (resumeDrain routable s q d) := by
  cases hd : d.point with
  | debounce =>
    simp only [resumeDrain, hd]
    split_ifs with hmode
    · unfold collectTurn
      dsimp only
      split_ifs with hforce
      · cases hi : q.items with
        | nil =>
          refine .none hd hi (fun _ => ?_) (.inl rfl)
          simpa [hi, hasCrossChannelItems] using hforce
        | cons item rest => exact .item hd hi (.inl ⟨rfl, rfl⟩)
      · refine .skip hd hmode ?_
        by_contra hc
        exact hforce (by simp [Bool.eq_true_of_not_eq_false hc])
    · unfold itemTurn
      cases hp : q.previewQueueSummary with
      | none =>
        dsimp only
        cases hi : q.items with
        | nil => exact .none hd hi (fun h => absurd h hmode) (.inr (.inl rfl))
        | cons item rest => exact .item hd hi (.inr ⟨rfl, hp⟩)
      | some sm =>
        dsimp only
        cases hr : q.lastRun with
        | none =>
          obtain ⟨_, hpos, _⟩ := (QueueState.previewQueueSummary_some _).mp hp
          exact .noRun (.inl ⟨hd, .inr hpos⟩) hr
        | some run =>
          dsimp only
          cases hi : q.items with
          | nil => exact .none hd hi (fun h => absurd h hmode) (.inr (.inr ⟨sm, rfl⟩))
          | cons item rest => exact .summary hd hmode hp hi
  | collectRun =>
    simp only [resumeDrain, hd]
    exact .shift (.inl ⟨hd, rfl⟩)
  | collectResult result =>
    cases result with
    | skipped =>
      simp only [resumeDrain, hd]
      unfold collectBatch
      dsimp only
      split
      · rename_i hnone
        have hr : q.lastRun = none := by
          cases hl : (q.items.getLast?.map fun item => item.followup.run) <;> simp [hl] at hnone
          exact hnone
        exact .noRun (.inr hd) hr
      · exact .batch hd
    | drained =>
      simp only [resumeDrain, hd]
      exact .next (.inl hd)
    | empty =>
      simp only [resumeDrain, hd]
      exact .stop (.inl hd)
  | batchRun count sm =>
    simp only [resumeDrain, hd]
    exact .splice hd
  | summaryRun sm =>
    simp only [resumeDrain, hd]
    exact .shiftSummary hd
  | summaryResult sm drained =>
    cases drained with
    | true =>
      simp only [resumeDrain, hd]
      exact .clear hd
    | false =>
      simp only [resumeDrain, hd]
      exact .stop (.inr (.inr ⟨sm, hd⟩))
  | itemRun =>
    simp only [resumeDrain, hd]
    exact .shift (.inr ⟨hd, rfl⟩)
  | itemResult drained =>
    cases drained with
    | true =>
      simp only [resumeDrain, hd]
      exact .next (.inr hd)
    | false =>
      simp only [resumeDrain, hd]
      exact .stop (.inr (.inl hd))

inductive Action (s : State φ) : Event φ → State φ → Prop
  /-- The run is not taken: only the settings and the last run of the queue may change. -/
  | refuse {e run} : ((e.queueFor s).lastRun.isSome → run.isSome) → ¬ e.makesRoom s →
      Action s (.enqueue e) {s with queue := some {e.queueFor s with lastRun := run}}
  | push {e} : e.fresh s.queue = true → Action s (.enqueue e) (pushFollowup e (e.runQueue s) s)
  /-- The run is taken, and the idle drain kicked. -/
  | pushStart {e cb} : e.fresh s.queue = true → (e.queueFor s).draining = false →
      Action s (.enqueue e) (startDrain cb (e.pushedQueue s) (pushFollowup e (e.runQueue s) s))
  | idle {cb} : Action s (.schedule cb) s
  | start {cb cb' q} : s.queue = some q → q.draining = false → q.pending →
      Action s (.schedule cb) (startDrain cb' q s)
  | close {cb q} : s.queue = some q → q.draining = false → ¬ q.pending → Action s (.schedule cb) (deleteQueue s)
  | refresh {r} : Action s (.refresh r) {s with queue := s.queue.map (refreshQueuedFollowupSession r)}
  | resume {q d s'} : s.queue = some q → s.drain = some d → Resumed s q d s' → Action s .resume s'
  | reject {q d} : s.queue = some q → s.drain = some d → d.point.isRun = true →
      Action s .reject (drainFinally s q d)

theorem enqueue_action (e : Enqueue φ) (s : State φ) : Action s (.enqueue e) (enqueueFollowupRun e s).2 := by
  show Action s (.enqueue e) _
  unfold enqueueFollowupRun
  dsimp only
  split_ifs with hfresh htaken hkick
  · dsimp only
    have hkicked := (Bool.and_eq_true_iff.mp hkick).2
    have hidle : (e.queueFor s).draining = false := by
      rw [Bool.not_eq_true'] at hkicked
      exact hkicked
    show Action s (.enqueue e) (kickFollowupDrainIfIdle (pushFollowup e (e.runQueue s) s))
    rw [Enqueue.push_eq]
    unfold kickFollowupDrainIfIdle
    split
    · exact .push hfresh
    · rename_i cb hcb
      have hp := e.pushedQueue_pending s
      have hdraining : (e.pushedQueue s).draining = false := hidle
      simp only [scheduleFollowupDrain, hdraining, hp, Bool.false_eq_true, if_false, if_true]
      exact .pushStart hfresh hidle
  · exact .push hfresh
  · refine .refuse (fun _ => rfl) fun hroom => ?_
    exact QueueState.not_overflows_of_refused _ _ (Bool.eq_false_of_not_eq_true htaken) hroom.2
  · exact @Action.refuse _ s e (e.queueFor s).lastRun (fun h => h) fun hroom => hfresh hroom.1

/-- Every step is one of the actions, under its guard. -/
theorem step_action {e : Event φ} {s : State φ} (h : step routable e s = some s') :
    Action s e s' := by
  cases e with
  | enqueue e =>
    cases h
    exact enqueue_action e s
  | schedule cb =>
    cases h
    unfold scheduleFollowupDrain
    split
    · exact .idle
    · rename_i q hq
      split_ifs with hdraining hp
      · exact .idle
      · exact .start hq (by simpa using hdraining) hp
      · exact .close hq (by simpa using hdraining) hp
  | refresh r =>
    cases h
    exact .refresh
  | resume =>
    simp only [step] at h
    split at h
    · rename_i q d hq hd
      cases h
      exact .resume hq hd (resumeDrain_resumed routable s q d)
    · cases h
  | reject =>
    simp only [step] at h
    split at h
    · rename_i q d hq hd
      split_ifs at h with hrun
      cases h
      exact .reject hq hd hrun
    · cases h

/-! ### Queue and drain -/

/-- The drain belongs to the queue, and a queue with work left knows a run. -/
structure Wired (s : State φ) : Prop where
  draining : ∀ q, s.queue = some q → q.draining = s.drain.isSome
  queue : s.drain.isSome → s.queue.isSome
  lastRun : ∀ q, s.queue = some q → q.pending → q.lastRun.isSome

/-- Where there is no value, anything holds of it. -/
theorem forall_none {α : Type*} {p : α → Prop} (a : α) (h : none = some a) : p a :=
  absurd h.symm (Option.some_ne_none a)

theorem wired_empty : Wired ({} : State φ) := ⟨forall_none, id, forall_none⟩

theorem wired_deleteQueue (s : State φ) : Wired (deleteQueue s) := ⟨forall_none, id, forall_none⟩

theorem wired_startDrain (cb : φ) (hq : q.pending → q.lastRun.isSome) (s : State φ) :
    Wired (startDrain cb q s) := by
  refine ⟨?_, fun _ => rfl, ?_⟩
  · intro q' h
    cases h
    rfl
  · intro q' h
    cases h
    exact hq

theorem wired_waitAt (hdraining : q.draining = true) (hq : q.pending → q.lastRun.isSome) (s : State φ) (d : Drain φ)
    (point : DrainPoint) :
    Wired (waitAt s q d point) := by
  refine ⟨?_, fun _ => rfl, ?_⟩
  · intro q' h
    cases h
    exact hdraining
  · intro q' h
    cases h
    exact hq

theorem wired_drainFinally (hq : q.pending → q.lastRun.isSome) (s : State φ) (d : Drain φ) :
    Wired (drainFinally s q d) := by
  rw [drainFinally_eq]
  split_ifs
  · exact wired_startDrain _ hq s
  · exact wired_deleteQueue s

theorem wired_drainLoop (hdraining : q.draining = true) (hq : q.pending → q.lastRun.isSome) (s : State φ)
    (d : Drain φ) : Wired (drainLoop s q d) := by
  unfold drainLoop
  split_ifs
  · exact wired_waitAt hdraining hq s d _
  · exact wired_drainFinally hq s d

/-- Taking items off leaves no more to do. -/
theorem pending_of_shiftItems {n : Nat} (h : (shiftItems q n).pending) : q.pending := by
  rcases h with h | h
  · left
    intro hnil
    exact h (by simp [shiftItems, hnil])
  · exact .inr h

theorem pending_of_clearSummary (h : (clearSummary q).pending) : q.pending := by
  rcases h with h | h
  · exact .inl h
  · simp [clearSummary, QueueState.clearQueueSummaryState] at h

namespace Wired

variable {s : State φ}

theorem queueFor_draining (h : Wired s) (e : Enqueue φ) : (e.queueFor s).draining = s.drain.isSome := by
  rw [e.queueFor_draining]
  cases hq : s.queue with
  | none =>
    cases hd : s.drain with
    | none => rfl
    | some d =>
      have := h.queue (by simp [hd])
      simp [hq] at this
  | some q => simpa using h.draining q hq

theorem queueFor_lastRun (h : Wired s) (e : Enqueue φ) (hp : (e.queueFor s).pending) :
    (e.queueFor s).lastRun.isSome := by
  cases hq : s.queue with
  | none =>
    rcases hp with hp | hp
    · simp [State.items, hq] at hp
    · simp [State.droppedCount, hq] at hp
  | some q =>
    rw [e.queueFor_some s hq] at hp ⊢
    exact h.lastRun q hq hp

/-- The drain finds the queue draining, and a run there if there is work. -/
theorem resumed (h : Wired s) {d : Drain φ} (hq : s.queue = some q) (hd : s.drain = some d) (hr : Resumed s q d s') :
    Wired s' := by
  have hdraining : q.draining = true := by
    rw [h.draining q hq, hd]
    rfl
  have hrun := h.lastRun q hq
  have hshift (n : Nat) : (shiftItems q n).pending → q.lastRun.isSome := fun hp => hrun (pending_of_shiftItems hp)
  cases hr with
  | skip | none | item | summary | batch => exact wired_waitAt hdraining hrun _ _ _
  | shift | shiftSummary => exact wired_waitAt (q := shiftItems q 1) hdraining (hshift 1) _ _ _
  | @splice count sm hp =>
    by_cases hsm : sm.isSome = true
    · rw [if_pos hsm]
      exact wired_drainLoop (q := clearSummary (shiftItems q count)) hdraining
        (fun hp => hshift count (pending_of_clearSummary hp)) _ _
    · rw [if_neg hsm]
      exact wired_drainLoop (q := shiftItems q count) hdraining (hshift count) _ _
  | clear =>
    exact wired_drainLoop (q := clearSummary q) hdraining (fun hp => hrun (pending_of_clearSummary hp)) _ _
  | next => exact wired_drainLoop hdraining hrun _ _
  | stop | noRun => exact wired_drainFinally hrun _ _

theorem step {e : Event φ} (h : Wired s) (hs : step routable e s = some s') : Wired s' := by
  cases step_action hs with
  | refuse hrun _ =>
    refine ⟨?_, fun _ => rfl, ?_⟩
    · intro q hq
      cases hq
      exact h.queueFor_draining _
    · intro q hq hp
      cases hq
      exact hrun (h.queueFor_lastRun _ hp)
  | push =>
    refine ⟨?_, fun _ => rfl, ?_⟩
    · intro q hq
      cases hq
      exact h.queueFor_draining _
    · intro q hq _
      cases hq
      rfl
  | pushStart => exact wired_startDrain _ (fun _ => rfl) _
  | idle => exact h
  | start hq _ hp => exact wired_startDrain _ (h.lastRun _ hq) _
  | close => exact wired_deleteQueue s
  | refresh =>
    refine ⟨?_, ?_, ?_⟩
    · intro q hq
      obtain ⟨q', hq', rfl⟩ := Option.map_eq_some_iff.mp hq
      exact h.draining q' hq'
    · intro hd
      simpa using h.queue hd
    · intro q hq hp
      obtain ⟨q', hq', rfl⟩ := Option.map_eq_some_iff.mp hq
      have hp' : q'.pending := by simpa [QueueState.pending, refreshQueuedFollowupSession] using hp
      simpa [refreshQueuedFollowupSession] using h.lastRun q' hq' hp'
  | resume hq hd hr => exact h.resumed hq hd hr
  | reject hq _ _ => exact wired_drainFinally (h.lastRun _ hq) _ _

end Wired

/-- Whatever comes in between, the queue and its drain stay wired. -/
theorem run_wired {events : List (Event φ)} {s : State φ} (h : (step routable).run events {} = some s) : Wired s :=
  (step routable).run_invariant (fun _ _ _ hs he => hs.step he) events wired_empty h

theorem run_wired_scheduled : ∃ s, (step fun _ => true).run
    [enqueuePrompt .followup 1 .old "a", .schedule ()] {} = some s ∧ Wired s := by
  have hrun := @run_wired Unit (fun _ => true) [enqueuePrompt .followup 1 .old "a", .schedule ()]
  exact ⟨_, rfl, hrun rfl⟩

end OpenClaw.Reply
