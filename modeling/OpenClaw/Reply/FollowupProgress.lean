import Mathlib.Logic.Function.Iterate
import OpenClaw.Reply.FollowupSteps

/-! How far a drain gets when nothing comes in between.

`drainPass` is one turn of the loop on its own: from one debounce wait to the
next, or to the end of the drain. A turn takes an item off, or tells and clears
the summary, unless there is no item left and no turn that would tell the
summary: then the drain is left and scheduled again, or an empty batch handed on,
over and over. `drainPass_progresses_iff` says when a turn gets on and the drain
comes to its end. -/
namespace OpenClaw.Reply
open Foundation Option

variable {φ : Type*} (routable : String → Bool)

/-- The drain goes on once, if there is one. -/
def resumeOnce (s : State φ) : State φ := (step routable .resume s).getD s

/-- The drain goes on until it waits for the debounce time, or is over. -/
def untilDebounce : Nat → State φ → State φ
  | 0, s => s
  | n + 1, s =>
    if s.point = some .debounce ∨ s.point = none then s else untilDebounce n (resumeOnce routable s)

/-- One turn of the loop, with nothing coming in between: it waits at most twice
more before the next debounce time. -/
def drainPass (s : State φ) : State φ := untilDebounce routable 2 (resumeOnce routable s)

namespace State

/-- Items waiting and drops not yet told. -/
def backlog (s : State φ) : Nat := s.items.length + s.droppedCount

/-- There is nothing left to drain, and no drain. -/
def Settled (s : State φ) : Prop := s.items = [] ∧ s.droppedCount = 0 ∧ s.drain = none

end State

/-- A turn of the loop leaves less to drain, and the drain comes to its end. -/
structure Progresses (s : State φ) : Prop where
  decreases : (drainPass routable s).backlog < s.backlog
  finishes : ∃ k, ((drainPass routable)^[k] s).Settled

/-- A drain at the head of its loop, with something to drain. -/
structure AtDebounce (s : State φ) (q : FollowupQueueState) (d : Drain φ) : Prop where
  queue : s.queue = some q
  drain : s.drain = some d
  point : d.point = .debounce
  pending : q.pending
  lastRun : q.lastRun.isSome

/-- The drain is at the head of its loop, or over with nothing left. -/
inductive Outcome (force : Bool) (q : FollowupQueueState) (s : State φ) : Prop
  | next {q' d} : AtDebounce s q' d → d.forceIndividualCollect = force → q' = {q with draining := q'.draining} →
      Outcome force q s
  | finished : ¬ q.pending → s.queue = none → s.drain = none → Outcome force q s

theorem Outcome.untilDebounce {force : Bool} {q : FollowupQueueState} {s : State φ} (h : Outcome force q s) (n : Nat) :
    untilDebounce routable n s = s := by
  cases n with
  | zero => rfl
  | succ n =>
    cases h with
    | next h _ _ => simp [Reply.untilDebounce, State.point, h.drain, h.point]
    | finished _ _ hd => simp [Reply.untilDebounce, State.point, hd]

theorem drainFinally_outcome (s : State φ) {q : FollowupQueueState} (hq : q.pending → q.lastRun.isSome)
    (d : Drain φ) : Outcome false q (drainFinally s q d) := by
  rw [drainFinally_eq]
  split_ifs with hp
  · have hat (cb : φ) : AtDebounce (startDrain cb q s) {q with draining := true} ⟨cb, false, .debounce⟩ :=
      ⟨rfl, rfl, rfl, hp, hq hp⟩
    exact .next (hat _) rfl rfl
  · exact .finished hp rfl rfl

theorem drainLoop_outcome (s : State φ) {q : FollowupQueueState} (hq : q.pending → q.lastRun.isSome)
    (d : Drain φ) : Outcome d.forceIndividualCollect q (drainLoop s q d) := by
  unfold drainLoop
  split_ifs with hp
  · exact .next ⟨rfl, rfl, rfl, hp, hq hp⟩ rfl rfl
  · rw [drainFinally_eq, if_neg hp]
    exact .finished hp rfl rfl

theorem resumeOnce_eq {s : State φ} {q : FollowupQueueState} {d : Drain φ} (hq : s.queue = some q)
    (hd : s.drain = some d) : resumeOnce routable s = resumeDrain routable s q d := by
  simp [resumeOnce, step, hq, hd]

theorem untilDebounce_waitAt {point : DrainPoint} (hpoint : point ≠ .debounce) (n : Nat) (s : State φ)
    (q : FollowupQueueState) (d : Drain φ) :
    untilDebounce routable (n + 1) (waitAt s q d point) =
      untilDebounce routable n (resumeDrain routable (waitAt s q d point) q {d with point := point}) := by
  simp [untilDebounce, State.point, waitAt, hpoint, resumeOnce_eq]

/-! ### One turn -/

/-- The turn of the loop takes the first item on its own, in collect mode. -/
def goesAlone (q : FollowupQueueState) (force : Bool) : Bool :=
  force || hasCrossChannelItems q.items (resolveCrossChannelKey routable)

/-- What a turn of the loop leaves of the queue. -/
def passQueue (q : FollowupQueueState) (force : Bool) : FollowupQueueState :=
  if q.mode = .collect then
    if goesAlone routable q force then shiftItems q 1
    else if q.previewQueueSummary.isSome then clearSummary (shiftItems q q.items.length)
    else shiftItems q q.items.length
  else if q.previewQueueSummary.isSome ∧ q.items ≠ [] then clearSummary (shiftItems q 1)
  else shiftItems q 1

theorem shiftItems_nil {q : FollowupQueueState} (h : q.items = []) (n : Nat) : shiftItems q n = q := by
  rcases q with ⟨⟨items, _, _, _, _⟩, _, _, _⟩
  cases h
  simp [shiftItems]

/-- Taking the first item off on its own: the run, the return, the head of the loop. -/
theorem untilDebounce_shift {s : State φ} {q : FollowupQueueState} {d : Drain φ} {point : DrainPoint}
    (hpoint : point = .collectRun ∨ point = .itemRun) (hq : q.lastRun.isSome) :
    Outcome d.forceIndividualCollect (shiftItems q 1) (untilDebounce routable 2 (waitAt s q d point)) := by
  rcases hpoint with rfl | rfl
  · rw [untilDebounce_waitAt routable (by simp)]
    show Outcome _ _ (untilDebounce routable 1 (waitAt _ (shiftItems q 1) _ (.collectResult .drained)))
    rw [untilDebounce_waitAt routable (by simp)]
    exact drainLoop_outcome (q := shiftItems q 1) _ (fun _ => hq) {d with point := .collectResult .drained}
  · rw [untilDebounce_waitAt routable (by simp)]
    show Outcome _ _ (untilDebounce routable 1 (waitAt _ (shiftItems q 1) _ (.itemResult true)))
    rw [untilDebounce_waitAt routable (by simp)]
    exact drainLoop_outcome (q := shiftItems q 1) _ (fun _ => hq) {d with point := .itemResult true}

/-- A batch: its run, and the head of the loop. -/
theorem untilDebounce_batch {s : State φ} {q : FollowupQueueState} {d : Drain φ} (count : Nat)
    (summary : Option QueueSummary) (hq : q.lastRun.isSome) :
    Outcome d.forceIndividualCollect
      (if summary.isSome then clearSummary (shiftItems q count) else shiftItems q count)
      (untilDebounce routable 1 (waitAt s q d (.batchRun count summary))) := by
  rw [untilDebounce_waitAt routable (by simp)]
  exact drainLoop_outcome _ (fun _ => by split_ifs <;> exact hq) {d with point := .batchRun count summary}

/-- A summary in the place of an item: its run, the return, the head of the loop. -/
theorem untilDebounce_summary {s : State φ} {q : FollowupQueueState} {d : Drain φ} (summary : QueueSummary)
    (hq : q.lastRun.isSome) :
    Outcome d.forceIndividualCollect (clearSummary (shiftItems q 1))
      (untilDebounce routable 2 (waitAt s q d (.summaryRun summary))) := by
  rw [untilDebounce_waitAt routable (by simp)]
  show Outcome _ _ (untilDebounce routable 1 (waitAt _ (shiftItems q 1) _ (.summaryResult summary true)))
  rw [untilDebounce_waitAt routable (by simp)]
  exact drainLoop_outcome (q := clearSummary (shiftItems q 1)) _ (fun _ => hq)
    {d with point := .summaryResult summary true}

/-- With no item there, the loop is left at once. -/
theorem untilDebounce_empty {s : State φ} {q : FollowupQueueState} {d : Drain φ} {point : DrainPoint}
    (hpoint : point = .collectResult .empty ∨ point = .itemResult false ∨ ∃ sm, point = .summaryResult sm false)
    (hq : q.lastRun.isSome) : Outcome false q (untilDebounce routable 2 (waitAt s q d point)) := by
  have hne : point ≠ .debounce := by rcases hpoint with rfl | rfl | ⟨sm, rfl⟩ <;> exact nofun
  rw [untilDebounce_waitAt routable hne]
  have hout (t : State φ) (d : Drain φ) := drainFinally_outcome t (fun _ => hq) d
  rcases hpoint with rfl | rfl | ⟨sm, rfl⟩ <;>
  · show Outcome false q (untilDebounce routable 1 (drainFinally _ q _))
    rw [(hout _ _).untilDebounce]
    exact hout _ _

/-- A turn leaves `passQueue`. With no item there, the next turn is not forced to go
one by one. -/
theorem drainPass_outcome {s : State φ} {q : FollowupQueueState} {d : Drain φ} (h : AtDebounce s q d) :
    ∃ force, Outcome force (passQueue routable q d.forceIndividualCollect) (drainPass routable s) ∧
      (q.items = [] → force = false) := by
  have hrun := h.lastRun
  obtain ⟨run, hlast⟩ := isSome_iff_exists.mp hrun
  unfold drainPass
  rw [resumeOnce_eq routable h.queue h.drain]
  simp only [resumeDrain, h.point]
  by_cases hmode : q.mode = .collect
  · simp only [hmode, passQueue, if_true]
    unfold collectTurn goesAlone
    dsimp only
    split_ifs with halone hsm
    · cases hi : q.items with
      | nil =>
        rw [shiftItems_nil hi]
        exact ⟨false, untilDebounce_empty routable (.inl rfl) hrun, fun _ => rfl⟩
      | cons item rest =>
        exact ⟨true, untilDebounce_shift (d := {d with forceIndividualCollect := true}) routable (.inl rfl) hrun,
          fun hnil => by cases hnil⟩
    all_goals
      have hforce : d.forceIndividualCollect = false := by
        by_contra hc
        exact halone (by simp [Bool.eq_true_of_not_eq_false hc])
      rw [untilDebounce_waitAt routable (by simp)]
      simp only [resumeDrain]
      obtain ⟨last, hlastRun⟩ : ∃ r, ((q.items.getLast?.map fun item => item.followup.run) <|> q.lastRun) = some r := by
        cases hl : (q.items.getLast?.map fun item => item.followup.run) with
        | some r => exact ⟨r, rfl⟩
        | none => exact ⟨run, by simpa [hl] using hlast⟩
      have hbatch := fun t => untilDebounce_batch (s := t) (d := {d with point := .collectResult .skipped}) routable
        q.items.length q.previewQueueSummary hrun
      simp only [collectBatch, hlastRun, callFollowup]
      refine ⟨d.forceIndividualCollect, ?_, fun _ => hforce⟩
      simpa only [hsm, if_true, Bool.false_eq_true, if_false] using hbatch _
  · simp only [hmode, passQueue, if_false]
    unfold itemTurn
    cases hp : q.previewQueueSummary with
    | none =>
      cases hi : q.items with
      | nil =>
        refine ⟨false, ?_, fun _ => rfl⟩
        have := untilDebounce_empty (s := s) (q := q) (d := d) routable (.inr (.inl rfl)) hrun
        simpa [shiftItems_nil hi] using this
      | cons item rest =>
        refine ⟨d.forceIndividualCollect, ?_, fun hnil => by cases hnil⟩
        simpa [callFollowup] using untilDebounce_shift routable (.inr rfl) hrun
    | some sm =>
      simp only [hlast]
      cases hi : q.items with
      | nil =>
        refine ⟨false, ?_, fun _ => rfl⟩
        have := untilDebounce_empty (s := s) (q := q) (d := d) routable (.inr (.inr ⟨sm, rfl⟩)) hrun
        simpa [shiftItems_nil hi] using this
      | cons item rest =>
        refine ⟨d.forceIndividualCollect, ?_, fun hnil => by cases hnil⟩
        simpa [callFollowup] using untilDebounce_summary routable sm hrun

/-! ### What a turn gets done -/

theorem previewQueueSummary_isSome (q : FollowupQueueState) :
    q.previewQueueSummary.isSome ↔ q.dropPolicy = .summarize ∧ 0 < q.droppedCount := by
  simp only [QueueState.previewQueueSummary]
  split_ifs with h <;> simp [h]

section PassQueue
variable (q : FollowupQueueState) (force : Bool)

@[simp] theorem passQueue_mode : (passQueue routable q force).mode = q.mode := by
  unfold passQueue
  split_ifs <;> rfl

@[simp] theorem passQueue_dropPolicy : (passQueue routable q force).dropPolicy = q.dropPolicy := by
  unfold passQueue
  split_ifs <;> rfl

theorem passQueue_droppedCount : (passQueue routable q force).droppedCount =
    if (q.dropPolicy = .summarize ∧ 0 < q.droppedCount) ∧
      (if q.mode = .collect then goesAlone routable q force = false else q.items ≠ []) then 0
    else q.droppedCount := by
  unfold passQueue
  simp only [previewQueueSummary_isSome]
  by_cases hmode : q.mode = .collect
  · cases halone : goesAlone routable q force <;> simp only [hmode, if_true, Bool.false_eq_true, if_false]
    · split_ifs with hsum <;> simp_all [clearSummary, QueueState.clearQueueSummaryState, shiftItems]
    · simp [shiftItems]
  · simp only [hmode, if_false]
    split_ifs <;> rfl

/-- A turn that tells the drops clears them. -/
theorem passQueue_droppedCount_eq_zero (hsum : q.dropPolicy = .summarize)
    (halone : q.mode = .collect → goesAlone routable q force = false) (hi : q.mode ≠ .collect → q.items ≠ []) :
    (passQueue routable q force).droppedCount = 0 := by
  rw [passQueue_droppedCount]
  by_cases hpos : 0 < q.droppedCount
  · rw [if_pos]
    refine ⟨⟨hsum, hpos⟩, ?_⟩
    split_ifs with hmode
    · exact halone hmode
    · exact hi hmode
  · split_ifs <;> omega

theorem passQueue_droppedCount_le : (passQueue routable q force).droppedCount ≤ q.droppedCount := by
  rw [passQueue_droppedCount]
  split_ifs <;> omega

theorem passQueue_items : (passQueue routable q force).items =
    if q.mode = .collect ∧ goesAlone routable q force = false then [] else q.items.drop 1 := by
  unfold passQueue
  by_cases hmode : q.mode = .collect
  · cases halone : goesAlone routable q force
    · simp only [hmode, if_true, Bool.false_eq_true, if_false, and_self]
      split_ifs <;> simp [clearSummary, QueueState.clearQueueSummaryState, shiftItems]
    · simp [hmode, shiftItems]
  · simp only [hmode, if_false, false_and]
    split_ifs <;> rfl

theorem goesAlone_nil (h : q.items = []) : goesAlone routable q force = force := by
  simp [goesAlone, h, hasCrossChannelItems]

end PassQueue

variable {routable}

theorem Outcome.backlog {force : Bool} {q : FollowupQueueState} {s : State φ} (h : Outcome force q s) :
    s.backlog = q.items.length + q.droppedCount := by
  cases h with
  | next h _ hq' =>
    rw [State.backlog, State.items_some h.queue, State.droppedCount_some h.queue, hq']
  | finished hp hq _ =>
    have hitems : q.items = [] := by
      by_contra hne
      exact hp (.inl hne)
    have hcount : q.droppedCount = 0 := by
      by_contra hne
      exact hp (.inr (Nat.pos_of_ne_zero hne))
    simp [State.backlog, State.items, State.droppedCount, hq, hitems, hcount]

variable {s : State φ} {q : FollowupQueueState} {d : Drain φ}

theorem AtDebounce.backlog (h : AtDebounce s q d) : s.backlog = q.items.length + q.droppedCount := by
  rw [State.backlog, State.items_some h.queue, State.droppedCount_some h.queue]

/-- A turn gets on if there is an item, or the summary is told without one. -/
theorem drainPass_decreases (h : AtDebounce s q d) : (drainPass routable s).backlog < s.backlog ↔
    q.items ≠ [] ∨ q.mode = .collect ∧ d.forceIndividualCollect = false ∧ q.dropPolicy = .summarize := by
  obtain ⟨force, hout, _⟩ := drainPass_outcome routable h
  rw [hout.backlog, h.backlog, passQueue_items, passQueue_droppedCount]
  cases hi : q.items with
  | nil =>
    have hpos : 0 < q.droppedCount := by
      rcases h.pending with hp | hp
      · exact absurd hi hp
      · exact hp
    rw [goesAlone_nil routable q _ hi]
    by_cases hmode : q.mode = .collect <;> cases d.forceIndividualCollect <;>
      by_cases hsum : q.dropPolicy = .summarize <;> simp [hmode, hsum, hpos]
  | cons item rest =>
    have hlen : (if q.mode = .collect ∧ goesAlone routable q d.forceIndividualCollect = false then []
        else (item :: rest).drop 1).length < (item :: rest).length := by
      split_ifs <;> simp
    have hcount (P : Prop) [Decidable P] : (if P then 0 else q.droppedCount) ≤ q.droppedCount := by
      split_ifs <;> omega
    refine ⟨fun _ => .inl (List.cons_ne_nil _ _), fun _ => ?_⟩
    exact Nat.add_lt_add_of_lt_of_le hlen (hcount _)

/-! ### How the drain ends -/

/-- The drain on its own comes to its end. -/
def Finishes (routable : String → Bool) (s : State φ) : Prop := ∃ k, ((drainPass routable)^[k] s).Settled

theorem finishes_of_pass (h : Finishes routable (drainPass routable s)) : Finishes routable s := by
  obtain ⟨k, hk⟩ := h
  exact ⟨k + 1, hk⟩

/-- A turn that leaves `q'` ends the drain, if the drain ends from there. -/
theorem finishes_of_outcome {force : Bool} {q' : FollowupQueueState} (hout : Outcome force q' (drainPass routable s))
    (h : ∀ r d', AtDebounce (drainPass routable s) r d' → d'.forceIndividualCollect = force →
      r = {q' with draining := r.draining} → Finishes routable (drainPass routable s)) : Finishes routable s := by
  cases hout with
  | next h' hforce hr => exact finishes_of_pass (h _ _ h' hforce hr)
  | finished _ hq hd => exact ⟨1, by simp [State.items, hq], by simp [State.droppedCount, hq], hd⟩

/-- With nothing dropped, each turn takes items off. -/
theorem finishes_of_no_drops (n : Nat) : ∀ {s : State φ} {q : FollowupQueueState} {d : Drain φ},
    AtDebounce s q d → q.items.length ≤ n → q.droppedCount = 0 → Finishes routable s := by
  induction n with
  | zero =>
    intro s q d h hlen hcount
    rcases h.pending with hp | hp
    · exact absurd (List.length_eq_zero_iff.mp (Nat.le_zero.mp hlen)) hp
    · omega
  | succ n ih =>
    intro s q d h hlen hcount
    obtain ⟨force, hout, _⟩ := drainPass_outcome routable h
    refine finishes_of_outcome hout fun r d' hr _ hrq => ih hr ?_ ?_
    · rw [hrq]
      show (passQueue routable q d.forceIndividualCollect).items.length ≤ n
      rw [passQueue_items]
      split_ifs
      · exact Nat.zero_le n
      · rw [List.length_drop]
        omega
    · have hle := passQueue_droppedCount_le routable q d.forceIndividualCollect
      rw [hrq]
      show (passQueue routable q d.forceIndividualCollect).droppedCount = 0
      omega

/-- In collect mode the summary is told at the latest when no item is left. -/
theorem finishes_of_collect (n : Nat) : ∀ {s : State φ} {q : FollowupQueueState} {d : Drain φ},
    AtDebounce s q d → 2 * q.items.length + d.forceIndividualCollect.toNat ≤ n → q.mode = .collect →
    q.dropPolicy = .summarize → Finishes routable s := by
  induction n with
  | zero =>
    intro s q d h hlen hmode hsum
    have hi : q.items = [] := List.length_eq_zero_iff.mp (by omega)
    have hforce : d.forceIndividualCollect = false := by
      cases hf : d.forceIndividualCollect with
      | false => rfl
      | true => simp [hf] at hlen
    obtain ⟨force, hout, _⟩ := drainPass_outcome routable h
    refine finishes_of_outcome hout fun r d' hr _ hrq => finishes_of_no_drops _ hr (Nat.le_refl _) ?_
    rw [hrq]
    show (passQueue routable q d.forceIndividualCollect).droppedCount = 0
    refine passQueue_droppedCount_eq_zero routable q _ hsum (fun _ => ?_) (fun h => absurd hmode h)
    rw [goesAlone_nil routable q _ hi, hforce]
  | succ n ih =>
    intro s q d h hlen hmode hsum
    obtain ⟨force, hout, hnil⟩ := drainPass_outcome routable h
    refine finishes_of_outcome hout fun r d' hr hforce hrq => ?_
    have hmode' : r.mode = .collect := by
      rw [hrq]
      exact (passQueue_mode routable q _).trans hmode
    have hsum' : r.dropPolicy = .summarize := by
      rw [hrq]
      exact (passQueue_dropPolicy routable q _).trans hsum
    have hitems : r.items = (passQueue routable q d.forceIndividualCollect).items := by
      rw [hrq]
    have hcount : r.droppedCount = (passQueue routable q d.forceIndividualCollect).droppedCount := by
      rw [hrq]
    rw [passQueue_items] at hitems
    cases halone : goesAlone routable q d.forceIndividualCollect with
    | false =>
      -- the summary was told with the batch
      refine finishes_of_no_drops _ hr (Nat.le_refl _) ?_
      rw [hcount]
      exact passQueue_droppedCount_eq_zero routable q _ hsum (fun _ => halone) (fun h => absurd hmode h)
    | true =>
      rw [halone] at hitems
      simp only [Bool.true_eq_false, and_false, if_false] at hitems
      refine ih hr ?_ hmode' hsum'
      have hbool : d'.forceIndividualCollect.toNat ≤ 1 := Bool.toNat_le _
      cases hi : q.items with
      | nil =>
        have : d.forceIndividualCollect = true := by
          rw [← goesAlone_nil routable q d.forceIndividualCollect hi, halone]
        rw [hi, this] at hlen
        rw [hitems, hi, hforce, hnil hi]
        simp at hlen ⊢
      | cons item rest =>
        rw [hi] at hitems hlen
        rw [hitems]
        simp only [List.drop_succ_cons, List.drop_zero, List.length_cons] at hlen ⊢
        omega

/-- The drops are never told: the policy does not tell them, or there is no item to
tell them in the place of. -/
def Stuck (q : FollowupQueueState) : Prop :=
  0 < q.droppedCount ∧ (q.dropPolicy ≠ .summarize ∨ q.mode ≠ .collect ∧ q.items = [])

theorem drainPass_stuck (h : AtDebounce s q d) (hs : Stuck q) :
    ∃ q' d', AtDebounce (drainPass routable s) q' d' ∧ Stuck q' := by
  obtain ⟨force, hout, _⟩ := drainPass_outcome routable h
  have hcount : (passQueue routable q d.forceIndividualCollect).droppedCount = q.droppedCount := by
    rw [passQueue_droppedCount, if_neg]
    rintro ⟨⟨hsum, -⟩, hmode⟩
    rcases hs.2 with hpolicy | ⟨hcollect, hi⟩
    · exact hpolicy hsum
    · rw [if_neg hcollect] at hmode
      exact hmode hi
  have hstuck : Stuck (passQueue routable q d.forceIndividualCollect) := by
    refine ⟨by rw [hcount]; exact hs.1, ?_⟩
    rcases hs.2 with hpolicy | ⟨hcollect, hi⟩
    · left
      rwa [passQueue_dropPolicy]
    · right
      refine ⟨by rwa [passQueue_mode], ?_⟩
      rw [passQueue_items, if_neg fun hc => hcollect hc.1, hi]
      rfl
  cases hout with
  | next h' _ hq' =>
    refine ⟨_, _, h', ?_⟩
    rw [hq']
    exact hstuck
  | finished hp _ _ => exact absurd (.inr hstuck.1) hp

theorem not_finishes_of_stuck (h : AtDebounce s q d) (hs : Stuck q) : ¬ Finishes routable s := by
  rintro ⟨k, hk⟩
  have hall (k : Nat) : ∃ q' d', AtDebounce ((drainPass routable)^[k] s) q' d' ∧ Stuck q' := by
    induction k with
    | zero => exact ⟨q, d, h, hs⟩
    | succ k ih =>
      obtain ⟨q', d', h', hs'⟩ := ih
      rw [Function.iterate_succ_apply']
      exact drainPass_stuck h' hs'
  obtain ⟨q', d', h', _⟩ := hall k
  have hnone := hk.2.2
  rw [h'.drain] at hnone
  cases hnone

/-- The drain comes to its end if nothing was dropped, or the drops can still be told. -/
theorem finishes_iff (h : AtDebounce s q d) : Finishes routable s ↔
    q.droppedCount = 0 ∨ q.dropPolicy = .summarize ∧ (q.items ≠ [] ∨ q.mode = .collect) := by
  constructor
  · intro hf
    by_contra hc
    rw [not_or, not_and_or, not_or, not_not] at hc
    refine not_finishes_of_stuck h ⟨Nat.pos_of_ne_zero hc.1, ?_⟩ hf
    rcases hc.2 with hpolicy | ⟨hi, hmode⟩
    · exact .inl hpolicy
    · exact .inr ⟨hmode, hi⟩
  · rintro (hcount | ⟨hsum, hwhere⟩)
    · exact finishes_of_no_drops _ h (Nat.le_refl _) hcount
    · by_cases hmode : q.mode = .collect
      · exact finishes_of_collect _ h (Nat.le_refl _) hmode hsum
      · -- the next turn tells the summary in the place of the first item
        have hi : q.items ≠ [] := hwhere.resolve_right hmode
        obtain ⟨force, hout, _⟩ := drainPass_outcome routable h
        refine finishes_of_outcome hout fun r d' hr _ hrq => finishes_of_no_drops _ hr (Nat.le_refl _) ?_
        rw [hrq]
        show (passQueue routable q d.forceIndividualCollect).droppedCount = 0
        exact passQueue_droppedCount_eq_zero routable q _ hsum (fun h => absurd h hmode) fun _ => hi

/-! ### Every reachable state -/

/-- The drain waits for the debounce time only where there is something to drain. -/
def Headed (s : State φ) : Prop := ∀ q, s.queue = some q → s.point = some .debounce → q.pending

theorem headed_startDrain {cb : φ} {q : FollowupQueueState} (hp : q.pending) (s : State φ) :
    Headed (startDrain cb q s) := by
  intro q' hq' _
  cases hq'
  exact hp

theorem headed_drainFinally (s : State φ) (q : FollowupQueueState) (d : Drain φ) :
    Headed (drainFinally s q d) := by
  rw [drainFinally_eq]
  split_ifs with hp
  · exact headed_startDrain hp s
  · exact forall_none

theorem headed_drainLoop (s : State φ) (q : FollowupQueueState) (d : Drain φ) : Headed (drainLoop s q d) := by
  unfold drainLoop
  split_ifs with hp
  · intro q' hq' _
    cases hq'
    exact hp
  · exact headed_drainFinally s q d

theorem headed_waitAt {point : DrainPoint} (hpoint : point ≠ .debounce) (s : State φ) (q : FollowupQueueState)
    (d : Drain φ) : Headed (waitAt s q d point) := by
  intro q' _ hp
  exact absurd (Option.some.inj hp) hpoint

theorem Headed.step {e : Event φ} {s s' : State φ} (h : Headed s) (hw : Wired s)
    (hs : step routable e s = some s') : Headed s' := by
  cases step_action hs with
  | @refuse e run _ _ =>
    intro q' hq' hp
    cases hq'
    have hdrain : s.drain.isSome := by
      obtain ⟨d, hd, _⟩ := map_eq_some_iff.mp hp
      exact isSome_iff_exists.mpr ⟨d, hd⟩
    obtain ⟨q, hq⟩ := isSome_iff_exists.mp (hw.queue hdrain)
    rw [e.queueFor_some s hq]
    exact h q hq hp
  | @push e _ =>
    intro q hq _
    cases hq
    exact e.pushedQueue_pending s
  | @pushStart e _ _ _ => exact headed_startDrain (e.pushedQueue_pending s) _
  | idle => exact h
  | start _ _ hp => exact headed_startDrain hp s
  | close => exact forall_none
  | refresh =>
    intro q hq hp
    obtain ⟨q', hq', rfl⟩ := map_eq_some_iff.mp hq
    simpa [QueueState.pending, refreshQueuedFollowupSession] using h q' hq' hp
  | resume _ _ hr =>
    cases hr with
    | none _ _ _ hwhere => exact headed_waitAt (by rcases hwhere with rfl | rfl | ⟨sm, rfl⟩ <;> simp) _ _ _
    | item _ _ hwhere => exact headed_waitAt (by rcases hwhere with ⟨rfl, _⟩ | ⟨rfl, _⟩ <;> simp) _ _ _
    | shift hwhere => exact headed_waitAt (by rcases hwhere with ⟨_, rfl⟩ | ⟨_, rfl⟩ <;> simp) _ _ _
    | splice | clear | next => exact headed_drainLoop _ _ _
    | stop | noRun => exact headed_drainFinally _ _ _
    | _ => exact headed_waitAt (by simp) _ _ _
  | reject => exact headed_drainFinally _ _ _

theorem run_atDebounce {events : List (Event φ)} {s : State φ} (hr : (step routable).run events {} = some s)
    (hp : s.point = some .debounce) : ∃ q d, AtDebounce s q d := by
  have hinv : Wired s ∧ Headed s :=
    (step routable).run_invariant (I := fun s => Wired s ∧ Headed s)
      (fun _ _ _ hs he => ⟨hs.1.step he, hs.2.step hs.1 he⟩) events ⟨wired_empty, forall_none⟩ hr
  obtain ⟨d, hd, hpoint⟩ := map_eq_some_iff.mp hp
  obtain ⟨q, hq⟩ := isSome_iff_exists.mp (hinv.1.queue (by simp [hd]))
  have hpending := hinv.2 q hq hp
  exact ⟨q, d, hq, hd, hpoint, hpending, hinv.1.lastRun q hq hpending⟩

/-- What lets a turn get on and the drain end: nothing was dropped, or the policy
tells the drops and there is an item, or a batch to tell them with. -/
def CanTell (s : State φ) : Prop :=
  ∀ q, s.queue = some q → ∀ d, s.drain = some d → q.droppedCount = 0 ∨
    q.dropPolicy = .summarize ∧ (q.items ≠ [] ∨ q.mode = .collect ∧ d.forceIndividualCollect = false)

instance (s : State φ) : Decidable (CanTell s) :=
  inferInstanceAs (Decidable (∀ q ∈ s.queue, ∀ d ∈ s.drain, q.droppedCount = 0 ∨
    q.dropPolicy = .summarize ∧ (q.items ≠ [] ∨ q.mode = .collect ∧ d.forceIndividualCollect = false)))

/-- **In every reachable state where the drain is at the head of its loop, a turn on
its own leaves less to drain and the drain comes to its end, if and only if nothing
was dropped or the drops can be told.** -/
theorem drainPass_progresses_iff (routable : String → Bool) (events : List (Event φ)) (s : State φ)
    (hr : (step routable).run events {} = some s) (hp : s.point = some .debounce) :
    Progresses routable s ↔ CanTell s := by
  obtain ⟨q, d, h⟩ := run_atDebounce hr hp
  have hpending := h.pending
  constructor
  · intro hprog q' hq' d' hd'
    cases (h.queue.symm.trans hq')
    cases (h.drain.symm.trans hd')
    rcases (finishes_iff h).mp hprog.finishes with hcount | ⟨hsum, _⟩
    · exact .inl hcount
    · rcases (drainPass_decreases h).mp hprog.decreases with hi | ⟨hmode, hforce, _⟩
      · exact .inr ⟨hsum, .inl hi⟩
      · exact .inr ⟨hsum, .inr ⟨hmode, hforce⟩⟩
  · intro hcan
    rcases hcan q h.queue d h.drain with hcount | ⟨hsum, hwhere⟩
    · have hi : q.items ≠ [] := by
        rcases hpending with hi | hpos
        · exact hi
        · omega
      exact ⟨(drainPass_decreases h).mpr (.inl hi), (finishes_iff h).mpr (.inl hcount)⟩
    · rcases hwhere with hi | ⟨hmode, hforce⟩
      · exact ⟨(drainPass_decreases h).mpr (.inl hi), (finishes_iff h).mpr (.inr ⟨hsum, .inl hi⟩)⟩
      · exact ⟨(drainPass_decreases h).mpr (.inr ⟨hmode, hforce, hsum⟩),
          (finishes_iff h).mpr (.inr ⟨hsum, .inr hmode⟩)⟩

/-! ### Runs -/

/-- Two runs wait, and one was dropped; the drain has begun. -/
def dropTold : List (Event Unit) :=
  [enqueuePrompt .followup 2 .summarize "a", enqueuePrompt .followup 2 .summarize "b",
    enqueuePrompt .followup 2 .summarize "c", .schedule ()]

theorem drainPass_progresses_told : ∃ s, (step fun _ => true).run dropTold {} = some s ∧ s.backlog = 3 ∧
    Progresses (fun _ => true) s := by
  obtain ⟨s, hs, hv⟩ := map_eq_some_iff.mp (show ((step fun _ => true).run dropTold {}).map (fun s =>
    (s.backlog, s.point, decide (CanTell s))) = some (3, some .debounce, true) by decide)
  simp only [Prod.mk.injEq, decide_eq_true_eq] at hv
  exact ⟨s, hs, hv.1, (drainPass_progresses_iff _ dropTold s hs hv.2.1).mpr hv.2.2⟩

/-- One run was dropped under `summarize`; then the policy is `old`, in collect
mode, and a batch of the runs waiting is handed on. -/
def dropUntold : List (Event Unit) :=
  [enqueuePrompt .collect 1 .summarize "a", enqueuePrompt .collect 1 .summarize "b",
    enqueuePrompt .collect 5 .old "c", .schedule (), .resume, .resume, .resume]

/-- The drop stays counted for good, and each turn hands on a batch of nothing. -/
theorem drainPass_stalls :
    ∃ s, (step fun _ => true).run dropUntold {} = some s ∧ s.point = some .debounce ∧ s.items = [] ∧
      s.droppedCount = 1 ∧ (drainPass (fun _ => true) s).backlog = s.backlog ∧
      (drainPass (fun _ => true) s).calls.length = s.calls.length + 1 ∧ ¬ Progresses (fun _ => true) s := by
  obtain ⟨s, hs, hv⟩ := map_eq_some_iff.mp (show ((step fun _ => true).run dropUntold {}).map (fun s =>
    (s.point, s.items, s.droppedCount, decide ((drainPass (fun _ => true) s).backlog = s.backlog),
      decide ((drainPass (fun _ => true) s).calls.length = s.calls.length + 1))) =
        some (some .debounce, [], 1, true, true) by decide)
  simp only [Prod.mk.injEq, decide_eq_true_eq] at hv
  obtain ⟨hpoint, hitems, hcount, hbacklog, hcalls⟩ := hv
  refine ⟨s, hs, hpoint, hitems, hcount, hbacklog, hcalls, fun h => ?_⟩
  have := h.decreases
  omega

end OpenClaw.Reply
