import OpenClaw.Reply.FollowupSteps

/-! What the overflow summaries tell.

A drop is counted in `droppedCount`, and its line kept, until a summary that
tells it was handed on: then the count and the lines are cleared. The summary is
built before its run is awaited and the count cleared after it, so a drop that
is counted in between is cleared untold. And the lines are cut to the cap at
each drop, so a cap that moves while drops are counted leaves fewer or more lines
than the cap at the time they are told. Where neither happens (`CountsDrops`),
the summaries account for the drops one for one: `Accounted`. -/
namespace OpenClaw.Reply
open Foundation List

variable {φ : Type*}

/-! ### The newest lines -/

section Lines
variable {α : Type*} (l m : List α) (a b : Nat)

theorem rtake_append_right : l.rtake a ++ m = (l ++ m).rtake (a + m.length) := by
  have hsub : l.length + m.length - (a + m.length) = l.length - a := by omega
  rw [List.rtake, List.rtake, length_append, hsub, drop_append_of_le_length (by omega)]

theorem rtake_rtake : (l.rtake a).rtake b = l.rtake (min b a) := by
  simp only [List.rtake, length_drop, drop_drop]
  congr 1
  omega

theorem length_rtake (h : a ≤ l.length) : (l.rtake a).length = a := by
  rw [List.rtake, length_drop]
  omega

theorem rdrop_append_rtake : l.rdrop a ++ l.rtake a = l := take_append_drop _ l

end Lines

/-! ### Summaries and drops -/

/-- A summary and the cap of the queue when it was built. -/
abbrev ToldSummary := QueueSummary × Nat

/-- The summaries tell the drops one after the other: each as many as it says, with
the lines of the newest of them, no more than the cap. -/
inductive Accounts : List ToldSummary → List Queued → Prop
  | nil : Accounts [] []
  | tell {told past drops cap} : Accounts told past → drops ≠ [] →
      Accounts (told ++ [(⟨drops.length, (drops.map summaryLineOf).rtake (min drops.length cap)⟩, cap)])
        (past ++ drops)

/-- Summaries that account for the drops count each of them once. -/
theorem Accounts.sum_eq {told : List ToldSummary} {drops : List Queued} (h : Accounts told drops) :
    (told.map fun t => t.1.droppedCount).sum = drops.length := by
  induction h with
  | nil => rfl
  | tell _ _ ih => simp [ih]

/-- A summary that accounts for drops lists as many as its cap allows. -/
theorem Accounts.lines_length {told : List ToldSummary} {drops : List Queued} (h : Accounts told drops) :
    ∀ t ∈ told, t.1.summaryLines.length = min t.1.droppedCount t.2 := by
  induction h with
  | nil => exact nofun
  | @tell told past drops cap _ _ ih =>
    intro t ht
    rcases mem_append.mp ht with ht | ht
    · exact ih t ht
    · rw [mem_singleton.mp ht]
      exact length_rtake _ _ (by rw [length_map]; exact Nat.min_le_left _ _)

/-- The summary handed on whose drops are still counted. -/
def DrainPoint.telling : DrainPoint → Option QueueSummary
  | .batchRun _ sm => sm
  | .summaryRun sm => some sm
  | .summaryResult sm true => some sm
  | _ => none

namespace State

def telling (s : State φ) : Option QueueSummary := s.point.bind DrainPoint.telling

/-- The summaries handed to `runFollowup`. -/
def told (s : State φ) : List ToldSummary :=
  s.calls.filterMap fun c => c.content.told.map fun sm => (sm, c.cap)

/-- The summaries delivered: those handed on, but for one whose run is not over. -/
def delivered (s : State φ) : List ToldSummary := if s.telling.isSome then s.told.dropLast else s.told

/-- The drops still counted. -/
def untold (s : State φ) : List Queued := s.dropped.rtake s.droppedCount

/-- The delivered summaries account for all drops but those still counted, and the
counts add up. -/
def FaithfullyCounted (s : State φ) : Prop :=
  Accounts s.delivered (s.dropped.rdrop s.droppedCount) ∧
    (s.delivered.map fun t => t.1.droppedCount).sum + s.droppedCount = s.dropped.length

theorem telling_some {s : State φ} {d : Drain φ} (h : s.drain = some d) : s.telling = d.point.telling := by
  simp [telling, point, h]

theorem delivered_of_none {s : State φ} (h : s.telling = none) : s.delivered = s.told := by
  simp [delivered, h]

end State

/-- The policy of the queue stays `summarize`. -/
def Event.summarizes : Event φ → Prop
  | .enqueue e => e.settings.dropPolicy.getD .summarize = .summarize
  | _ => True

/-- No call removes items while a summary is handed on, and none moves the cap so
that the lines kept are too few or too many for it. -/
def CountsDrops : Event φ → State φ → Prop
  | .enqueue e, s =>
    (s.telling.isSome → ¬ e.makesRoom s) ∧
    ∀ q, s.queue = some q →
      if e.makesRoom s then q.droppedCount ≤ q.cap ∨ (e.queueFor s).cap ≤ q.cap + (e.removes s).length
      else (e.queueFor s).cap = q.cap ∨ q.droppedCount ≤ q.cap ∧ q.droppedCount ≤ (e.queueFor s).cap
  | _, _ => True

instance (e : Event φ) : Decidable e.summarizes :=
  match e with
  | .enqueue e => inferInstanceAs (Decidable (e.settings.dropPolicy.getD .summarize = .summarize))
  | .schedule _ | .refresh _ | .resume | .reject => .isTrue trivial

instance (e : Event φ) (s : State φ) : Decidable (CountsDrops e s) :=
  match e with
  | .enqueue e => inferInstanceAs (Decidable ((s.telling.isSome → ¬ e.makesRoom s) ∧ ∀ q ∈ s.queue,
      if e.makesRoom s then q.droppedCount ≤ q.cap ∨ (e.queueFor s).cap ≤ q.cap + (e.removes s).length
      else (e.queueFor s).cap = q.cap ∨ q.droppedCount ≤ q.cap ∧ q.droppedCount ≤ (e.queueFor s).cap))
  | .schedule _ | .refresh _ | .resume | .reject => .isTrue trivial

/-- What is kept of the drops not yet told, and the summary being told. -/
structure Accounted (s : State φ) : Prop where
  policy : ∀ q, s.queue = some q → q.dropPolicy = .summarize
  counted_le : s.droppedCount ≤ s.dropped.length
  accounts : Accounts s.delivered (s.dropped.rdrop s.droppedCount)
  lines : ∀ q, s.queue = some q →
    q.summaryLines = (s.untold.map summaryLineOf).rtake (min q.droppedCount q.cap)
  telling : ∀ sm, s.telling = some sm → 0 < s.droppedCount ∧ ∃ cap, s.told = s.delivered ++ [(sm, cap)] ∧
    sm = ⟨s.droppedCount, (s.untold.map summaryLineOf).rtake (min s.droppedCount cap)⟩

theorem accounted_empty : Accounted ({} : State φ) := ⟨forall_none, Nat.le_refl 0, .nil, forall_none, forall_none⟩

variable {q : FollowupQueueState} {point : DrainPoint}

namespace Accounted

variable {s s' : State φ}

/-- Only these of the state are looked at. -/
theorem congr (h : Accounted s) (hcount : s'.droppedCount = s.droppedCount) (htelling : s'.telling = s.telling)
    (hdropped : s'.dropped = s.dropped) (hcalls : s'.calls = s.calls)
    (hpolicy : ∀ q, s'.queue = some q → q.dropPolicy = .summarize)
    (hlines : ∀ q, s'.queue = some q →
      q.summaryLines = (s.untold.map summaryLineOf).rtake (min q.droppedCount q.cap)) : Accounted s' := by
  have htold : s'.told = s.told := by rw [State.told, State.told, hcalls]
  have hdelivered : s'.delivered = s.delivered := by rw [State.delivered, State.delivered, htelling, htold]
  have huntold : s'.untold = s.untold := by rw [State.untold, State.untold, hdropped, hcount]
  refine ⟨hpolicy, ?_, ?_, ?_, ?_⟩
  · rw [hcount, hdropped]
    exact h.counted_le
  · rw [hdelivered, hdropped, hcount]
    exact h.accounts
  · rw [huntold]
    exact hlines
  · rw [htelling, hcount, htold, hdelivered, huntold]
    exact h.telling

/-- The queue is another one that counts the same. -/
theorem setQueue (h : Accounted s) (hq : s.queue = some q) {q' : FollowupQueueState} (hq' : s'.queue = some q')
    (hpolicy : q'.dropPolicy = q.dropPolicy) (hcount : q'.droppedCount = q.droppedCount)
    (hlines : q'.summaryLines = q.summaryLines) (hcap : q'.cap = q.cap) (htelling : s'.telling = s.telling)
    (hdropped : s'.dropped = s.dropped) (hcalls : s'.calls = s.calls) :
    Accounted s' := by
  refine h.congr ?_ htelling hdropped hcalls ?_ ?_
  · rw [State.droppedCount_some hq', State.droppedCount_some hq, hcount]
  · intro r hr
    rw [hq'] at hr
    cases hr
    rw [hpolicy]
    exact h.policy q hq
  · intro r hr
    rw [hq'] at hr
    cases hr
    rw [hlines, hcount, hcap]
    exact h.lines q hq

theorem deleteQueue (h : Accounted s) (hcount : s.droppedCount = 0) (htelling : s.telling = none) :
    Accounted (deleteQueue s) := by
  refine h.congr ?_ ?_ rfl rfl forall_none forall_none
  · rw [hcount]
    rfl
  · rw [htelling]
    rfl

section
variable (h : Accounted s) (hq : s.queue = some q) (htelling : s.telling = none)
include h hq htelling

theorem startDrain (cb : φ) : Accounted (startDrain cb q s) :=
  h.setQueue hq rfl rfl rfl rfl rfl (by rw [htelling]; rfl) rfl rfl

theorem drainFinally (d : Drain φ) :
    Accounted (drainFinally s q d) := by
  rw [drainFinally_eq]
  split_ifs with hp
  · exact h.startDrain hq htelling _
  · refine h.deleteQueue ?_ htelling
    rw [State.droppedCount_some hq]
    by_contra hne
    exact hp (.inr (Nat.pos_of_ne_zero hne))

theorem waitAt (hpoint : point.telling = none) (d : Drain φ) : Accounted (waitAt s q d point) :=
  h.setQueue hq rfl rfl rfl rfl rfl (by rw [htelling]; exact hpoint) rfl rfl

theorem drainLoop (d : Drain φ) : Accounted (drainLoop s q d) := by
  unfold Reply.drainLoop
  split_ifs
  · exact h.waitAt hq htelling rfl d
  · exact h.drainFinally hq htelling d

/-- A prompt without a summary is handed on. -/
theorem handOn {content : Content} (hcontent : content.told = none) (hpoint : point.telling = none) (d : Drain φ)
    (followup : FollowupRun) : Accounted (callFollowup s q d content followup point) := by
  have htold : (callFollowup s q d content followup point).told = s.told := by
    simp [callFollowup, Reply.waitAt, State.told, hcontent]
  have hnone : (callFollowup s q d content followup point).telling = none := hpoint
  refine ⟨?_, ?_, ?_, ?_, ?_⟩
  · intro r hr
    cases hr
    exact h.policy q hq
  · rw [State.droppedCount_some (q := q) rfl, ← State.droppedCount_some hq]
    exact h.counted_le
  · rw [State.delivered_of_none hnone, htold, ← State.delivered_of_none htelling,
      State.droppedCount_some (q := q) rfl, ← State.droppedCount_some hq]
    exact h.accounts
  · intro r hr
    cases hr
    have huntold : (callFollowup s q d content followup point).untold = s.untold := by
      rw [State.untold, State.untold, State.droppedCount_some hq]
      rfl
    rw [huntold]
    exact h.lines q hq
  · intro sm hsm
    rw [hnone] at hsm
    cases hsm

/-- A prompt with a summary is handed on: it tells what is counted. -/
theorem tell {sm : QueueSummary} (hsm : q.previewQueueSummary = some sm) {content : Content}
    (hcontent : content.told = some sm) (hpoint : point.telling = some sm) (d : Drain φ) (followup : FollowupRun) :
    Accounted (callFollowup s q d content followup point) := by
  obtain ⟨_, hpos, hsum⟩ := (QueueState.previewQueueSummary_some _).mp hsm
  have htold : (callFollowup s q d content followup point).told = s.told ++ [(sm, q.cap)] := by
    simp [callFollowup, Reply.waitAt, State.told, hcontent]
  have hnow : (callFollowup s q d content followup point).telling = some sm := hpoint
  have hdelivered : (callFollowup s q d content followup point).delivered = s.delivered := by
    rw [State.delivered, hnow, htold, State.delivered_of_none htelling]
    exact dropLast_concat
  have hcount : (callFollowup s q d content followup point).droppedCount = s.droppedCount :=
    (State.droppedCount_some hq).symm
  have huntold : (callFollowup s q d content followup point).untold = s.untold := by
    rw [State.untold, hcount]
    rfl
  refine ⟨?_, ?_, ?_, ?_, ?_⟩
  · intro r hr
    cases hr
    exact h.policy q hq
  · rw [hcount]
    exact h.counted_le
  · rw [hdelivered, hcount]
    exact h.accounts
  · intro r hr
    cases hr
    rw [huntold]
    exact h.lines q hq
  · intro sm' hsm'
    rw [hnow] at hsm'
    cases hsm'
    rw [hcount, huntold, State.droppedCount_some hq]
    refine ⟨hpos, q.cap, ?_, ?_⟩
    · rw [htold, hdelivered, State.delivered_of_none htelling]
    · rw [hsum, h.lines q hq]

end

section
variable (h : Accounted s)
include h

/-- The summary told is over: what it told is no longer counted. -/
theorem cleared (hq : s.queue = some q) {sm : QueueSummary} (htelling : s.telling = some sm)
    {q' : FollowupQueueState} (hpolicy : q'.dropPolicy = q.dropPolicy) (hcount : q'.droppedCount = 0)
    (hlines : q'.summaryLines = []) (hpoint : point.telling = none) (d : Drain φ) :
    Accounted (Reply.waitAt s q' d point) := by
  obtain ⟨hpos, cap, htold, hsm⟩ := h.telling sm htelling
  have hnone : (Reply.waitAt s q' d point).telling = none := hpoint
  have hzero : (Reply.waitAt s q' d point).droppedCount = 0 := hcount
  have hlen : s.untold.length = s.droppedCount := length_rtake _ _ h.counted_le
  refine ⟨?_, ?_, ?_, ?_, ?_⟩
  · intro r hr
    cases hr
    rw [hpolicy]
    exact h.policy q hq
  · rw [hzero]
    exact Nat.zero_le _
  · have hne : s.untold ≠ [] := ne_nil_of_length_pos (by rw [hlen]; exact hpos)
    have htells := @Accounts.tell _ _ _ cap h.accounts hne
    rw [hlen, ← hsm, ← htold] at htells
    rw [State.delivered_of_none hnone, hzero, rdrop_zero]
    show Accounts s.told s.dropped
    rwa [State.untold, rdrop_append_rtake] at htells
  · intro r hr
    cases hr
    rw [hlines, hcount, Nat.zero_min, rtake_zero]
  · intro sm' hsm'
    rw [hnone] at hsm'
    cases hsm'

/-- Where nothing is dropped, the lines kept are right for the cap as it is now. -/
theorem capMoved {e : Enqueue φ} (hroom : ¬ e.makesRoom s) (hc : CountsDrops (.enqueue e) s) :
    (e.queueFor s).summaryLines =
      (s.untold.map summaryLineOf).rtake (min (e.queueFor s).droppedCount (e.queueFor s).cap) := by
  rw [e.queueFor_droppedCount]
  cases hq : s.queue with
  | none =>
    have hzero : s.droppedCount = 0 := by simp [State.droppedCount, hq]
    rw [hzero, Nat.zero_min, rtake_zero]
    simp [Enqueue.queueFor, getFollowupQueue, hq, applyQueueRuntimeSettings, newFollowupQueue]
  | some q =>
    have hcap := hc.2 q hq
    rw [if_neg hroom] at hcap
    have hlines := h.lines q hq
    have hsame : (e.queueFor s).summaryLines = q.summaryLines := by
      rw [e.queueFor_some s hq]
      rfl
    rw [hsame, hlines, State.droppedCount_some hq]
    congr 1
    rcases hcap with hcap | ⟨hcap, hcap'⟩
    · rw [hcap]
    · omega

/-- A run is taken in, with its drops counted. -/
theorem push {e : Enqueue φ} (hf : e.fresh s.queue = true) (hpolicy : (e.queueFor s).dropPolicy = .summarize)
    (hc : CountsDrops (.enqueue e) s) :
    Accounted (pushFollowup e (e.runQueue s) s) := by
  by_cases ho : (e.queueFor s).overflows
  · -- the drops are the newest of all, and their lines the newest lines
    have hroom : e.makesRoom s := ⟨hf, ho⟩
    obtain ⟨q, hq⟩ : ∃ q, s.queue = some q := by
      cases hq : s.queue with
      | some q => exact ⟨q, rfl⟩
      | none =>
        obtain ⟨hcap, hle, _⟩ := ho
        have : s.items = [] := by simp [State.items, hq]
        rw [e.queueFor_items, this, length_nil] at hle
        omega
    have hnone : s.telling = none := by
      by_contra hne
      exact hc.1 (Option.isSome_iff_ne_none.mpr hne) hroom
    have hcaps := hc.2 q hq
    rw [if_pos hroom] at hcaps
    have happly := QueueState.applyQueueDropPolicy_summarize summarizeRun (e.runQueue s).toQueueState ho hpolicy
    have hqueue : (pushFollowup e (e.runQueue s) s).queue = some {e.runQueue s with
        items := s.items.drop (e.removes s).length ++ [⟨s.accepted, e.run⟩]
        droppedCount := s.droppedCount + (e.removes s).length
        summaryLines := (q.summaryLines ++ (e.removes s).map summaryLineOf).rtake (e.queueFor s).cap} := by
      rw [e.push_eq]
      simp only [Enqueue.pushedQueue, happly, e.removed_runQueue, Option.some.injEq]
      have hlines : (e.runQueue s).summaryLines = q.summaryLines := by
        show (e.queueFor s).summaryLines = _
        rw [e.queueFor_some s hq]
        rfl
      have hcount : (e.runQueue s).droppedCount = s.droppedCount := e.queueFor_droppedCount s
      have hitems : (e.runQueue s).items = s.items := e.queueFor_items s
      rw [hlines, hcount, hitems]
      rfl
    have hcount := State.droppedCount_some hqueue
    have hdropped : (pushFollowup e (e.runQueue s) s).dropped = s.dropped ++ e.removes s := rfl
    have hle := h.counted_le
    have huntold : (pushFollowup e (e.runQueue s) s).untold = s.untold ++ e.removes s := by
      rw [State.untold, hcount, hdropped]
      exact (rtake_append_right _ _ _).symm
    have hpast : (s.dropped ++ e.removes s).rdrop (s.droppedCount + (e.removes s).length) =
        s.dropped.rdrop s.droppedCount := by
      rw [List.rdrop, List.rdrop, length_append, take_append_of_le_length (by omega)]
      congr 1
      omega
    refine ⟨?_, ?_, ?_, ?_, ?_⟩
    · intro r hr
      rw [hqueue] at hr
      cases hr
      exact hpolicy
    · rw [hcount, hdropped, length_append]
      show s.droppedCount + _ ≤ _
      omega
    · rw [hcount, hdropped, hpast]
      exact h.accounts
    · intro r hr
      rw [hqueue] at hr
      cases hr
      have hlines := h.lines q hq
      rw [huntold, map_append]
      show (q.summaryLines ++ _).rtake _ =
        List.rtake _ (min (s.droppedCount + (e.removes s).length) (e.queueFor s).cap)
      rw [hlines, rtake_append_right, rtake_rtake, length_map, State.droppedCount_some hq]
      congr 1
      omega
    · intro sm hsm
      have : s.telling = some sm := hsm
      rw [hnone] at this
      cases this
  · -- nothing is dropped: only the cap may move
    have hroom : ¬ e.makesRoom s := fun hr => ho hr.2
    have hsame := QueueState.applyQueueDropPolicy_of_not summarizeRun (e.runQueue s).toQueueState ho
    have hremoves : e.removes s = [] := QueueState.removed_of_not _ ho
    have hqueue : (pushFollowup e (e.runQueue s) s).queue =
        some {e.runQueue s with items := s.items ++ [⟨s.accepted, e.run⟩]} := by
      rw [e.push_eq]
      simp only [Enqueue.pushedQueue, hsame, Option.some.injEq]
      have hitems : (e.runQueue s).items = s.items := e.queueFor_items s
      rw [hitems]
    refine h.congr ?_ rfl ?_ rfl ?_ ?_
    · rw [State.droppedCount_some hqueue]
      exact e.queueFor_droppedCount s
    · rw [e.push_eq, hremoves, append_nil]
    · intro r hr
      rw [hqueue] at hr
      cases hr
      exact hpolicy
    · intro r hr
      rw [hqueue] at hr
      cases hr
      exact h.capMoved hroom hc

theorem resumed {d : Drain φ} (hq : s.queue = some q) (hd : s.drain = some d) (hr : Resumed s q d s') :
    Accounted s' := by
  have htelling := State.telling_some hd
  cases hr with
  | skip hp =>
    rw [hp] at htelling
    exact h.waitAt hq htelling rfl d
  | none hp _ _ hwhere =>
    rw [hp] at htelling
    rcases hwhere with rfl | rfl | ⟨sm, rfl⟩ <;> exact h.waitAt hq htelling rfl _
  | item hp _ hwhere =>
    rw [hp] at htelling
    rcases hwhere with ⟨rfl, _⟩ | ⟨rfl, _⟩ <;> exact h.handOn hq htelling rfl rfl _ _
  | summary hp _ hsm _ =>
    rw [hp] at htelling
    exact h.tell hq htelling hsm rfl rfl d _
  | batch hp =>
    rw [hp] at htelling
    cases hsm : q.previewQueueSummary with
    | none => exact h.handOn hq htelling rfl rfl d _
    | some sm => exact h.tell hq htelling hsm rfl rfl d _
  | shift hwhere =>
    rcases hwhere with ⟨hp, rfl⟩ | ⟨hp, rfl⟩ <;>
    · rw [hp] at htelling
      exact h.setQueue hq rfl rfl rfl rfl rfl (by rw [htelling]; rfl) rfl rfl
  | shiftSummary hp =>
    rw [hp] at htelling
    exact h.setQueue hq rfl rfl rfl rfl rfl (by rw [htelling]; rfl) rfl rfl
  | @splice count sm hp =>
    rw [hp] at htelling
    cases sm with
    | none =>
      have hw : Accounted (Reply.waitAt s (shiftItems q count) d .debounce) :=
        h.setQueue hq rfl rfl rfl rfl rfl (by rw [htelling]; rfl) rfl rfl
      have := hw.drainLoop rfl rfl d
      exact this.congr rfl rfl rfl rfl this.policy this.lines
    | some sm =>
      have hw : Accounted (Reply.waitAt s (clearSummary (shiftItems q count)) d .debounce) := by
        refine h.cleared hq htelling ?_ ?_ ?_ ?_ d <;> rfl
      have := hw.drainLoop rfl rfl d
      exact this.congr rfl rfl rfl rfl this.policy this.lines
  | @clear sm hp =>
    rw [hp] at htelling
    have hw : Accounted (Reply.waitAt s (clearSummary q) d .debounce) := by
      refine h.cleared hq htelling ?_ ?_ ?_ ?_ d <;> rfl
    have := hw.drainLoop rfl rfl d
    exact this.congr rfl rfl rfl rfl this.policy this.lines
  | next hp =>
    rcases hp with hp | hp <;>
    · rw [hp] at htelling
      exact h.drainLoop hq htelling d
  | stop hp =>
    rcases hp with hp | hp | ⟨sm, hp⟩ <;>
    · rw [hp] at htelling
      exact h.drainFinally hq htelling d
  | noRun hp _ =>
    rcases hp with ⟨hp, _⟩ | hp <;>
    · rw [hp] at htelling
      exact h.drainFinally hq htelling d

theorem step {routable : String → Bool} {e : Event φ} (hw : Wired s) (hres : e.resolves)
    (hsum : e.summarizes) (hc : CountsDrops e s) (hs : step routable e s = some s') : Accounted s' := by
  have hidle {q : FollowupQueueState} (hq : s.queue = some q) (hd : q.draining = false) : s.telling = none := by
    have hnone := hw.draining q hq
    rw [hd] at hnone
    simp [State.telling, State.point, Option.not_isSome_iff_eq_none.mp (by rw [← hnone]; decide)]
  have hpolicy {e : Enqueue φ} (he : e.settings.dropPolicy.getD .summarize = .summarize) :
      (e.queueFor s).dropPolicy = .summarize := by
    cases hq : s.queue with
    | none =>
      cases hp : e.settings.dropPolicy <;>
        simp [Enqueue.queueFor, getFollowupQueue, hq, applyQueueRuntimeSettings, newFollowupQueue,
          DEFAULT_QUEUE_DROP, hp] at he ⊢
      exact he
    | some q =>
      have := h.policy q hq
      cases hp : e.settings.dropPolicy <;>
        simp [Enqueue.queueFor, getFollowupQueue, hq, applyQueueRuntimeSettings, hp] at he ⊢
      · exact this
      · exact he
  cases step_action hs with
  | @refuse e run _ hroom =>
    refine h.congr (e.queueFor_droppedCount s) rfl rfl rfl ?_ ?_
    · intro q hq
      cases hq
      exact hpolicy hsum
    · intro q hq
      cases hq
      exact h.capMoved hroom hc
  | push hf => exact h.push hf (hpolicy hsum) hc
  | @pushStart e cb hf hd =>
    have hnone := hw.queueFor_draining e
    rw [hd] at hnone
    refine (h.push hf (hpolicy hsum) hc).startDrain rfl ?_ cb
    show s.telling = none
    simp [State.telling, State.point, Option.not_isSome_iff_eq_none.mp (by rw [← hnone]; decide)]
  | idle => exact h
  | start hq hd _ => exact h.startDrain hq (hidle hq hd) _
  | close hq hd hp =>
    refine h.deleteQueue ?_ (hidle hq hd)
    rw [State.droppedCount_some hq]
    by_contra hne
    exact hp (.inr (Nat.pos_of_ne_zero hne))
  | refresh =>
    cases hq : s.queue with
    | none => exact h.congr (by simp [State.droppedCount, hq]) rfl rfl rfl forall_none forall_none
    | some q => exact h.setQueue hq rfl rfl rfl rfl rfl rfl rfl rfl
  | resume hq hd hr => exact h.resumed hq hd hr
  | reject => exact hres.elim

theorem faithfullyCounted : s.FaithfullyCounted := by
  refine ⟨h.accounts, ?_⟩
  have hle := h.counted_le
  rw [h.accounts.sum_eq, List.rdrop, length_take]
  omega

end

end Accounted

/-- **Under the policy `summarize`, in every run where each awaited run resolves,
nothing is dropped while a summary is handed on, and the cap stays right for the
lines kept, each drop is told by one delivered summary or still counted, and each
summary lists the newest of its drops in their order.** -/
theorem followup_run_faithfullyCounted (routable : String → Bool) (events : List (Event φ)) (s : State φ)
    (hr : (step routable).run events {} = some s) (hres : ∀ e ∈ events, e.resolves)
    (hsum : ∀ e ∈ events, e.summarizes) (hc : (step routable).Within CountsDrops events {}) :
    s.FaithfullyCounted := by
  have hboth : Wired s ∧ Accounted s := by
    have hall : (step routable).Within (fun e _ => e.resolves ∧ e.summarizes) events {} :=
      (step routable).within_of_all fun e he _ => ⟨hres e he, hsum e he⟩
    refine (step routable).run_within_invariant (I := fun s => Wired s ∧ Accounted s) ?_ events
      ⟨wired_empty, accounted_empty⟩ ((step routable).within_and hall hc) hr
    exact fun e s t hs hc he => ⟨hs.1.step he, hs.2.step hs.1 hc.1.1 hc.1.2 hc.2 he⟩
  exact hboth.2.faithfullyCounted

/-! ### Runs -/

/-- Two drops are told by one summary. -/
def toldRun : List (Event Unit) :=
  [enqueuePrompt .followup 1 .summarize "a", enqueuePrompt .followup 1 .summarize "b",
    enqueuePrompt .followup 1 .summarize "c", .schedule (), .resume, .resume, .resume]

theorem followup_run_faithfullyCounted_told :
    ∃ s, (step fun _ => true).run toldRun {} = some s ∧ s.dropped.length = 2 ∧
      s.delivered = [(⟨2, ["b"]⟩, 1)] ∧ s.FaithfullyCounted := by
  obtain ⟨s, hs, hv⟩ := Option.map_eq_some_iff.mp (show ((step fun _ => true).run toldRun {}).map (fun s =>
    (s.dropped.length, s.delivered)) = some (2, [(⟨2, ["b"]⟩, 1)]) by decide)
  rw [Prod.mk.injEq] at hv
  exact ⟨s, hs, hv.1, hv.2, followup_run_faithfullyCounted _ toldRun s hs (by decide) (by decide)
    (by decide)⟩

/-- `b` is dropped while the summary of the drop of `a` is handed on. -/
def dropWhileTold : List (Event Unit) :=
  [enqueuePrompt .followup 1 .summarize "a", enqueuePrompt .followup 1 .summarize "b", .schedule (), .resume,
    enqueuePrompt .followup 1 .summarize "c", .resume, .resume]

/-- The lines of two drops are cut to the cap 1, and told when it is 3. -/
def capRaised : List (Event Unit) :=
  [enqueuePrompt .followup 1 .summarize "a", enqueuePrompt .followup 1 .summarize "b",
    enqueuePrompt .followup 1 .summarize "c", enqueuePrompt .followup 3 .summarize "d", .schedule (), .resume,
    .resume, .resume]

/-- In the first run one of two drops is told, and none counted any more; in the
second the summary of two drops lists one, with a cap of 3. -/
theorem followup_run_miscounted :
    (∃ s, (step fun _ => true).run dropWhileTold {} = some s ∧ s.dropped.length = 2 ∧ s.droppedCount = 0 ∧
      s.delivered = [(⟨1, ["a"]⟩, 1)] ∧ ¬ s.FaithfullyCounted) ∧
    (∃ s, (step fun _ => true).run capRaised {} = some s ∧ s.delivered = [(⟨2, ["b"]⟩, 3)] ∧
      ¬ s.FaithfullyCounted) := by
  constructor
  · obtain ⟨s, hs, hv⟩ := Option.map_eq_some_iff.mp (show ((step fun _ => true).run dropWhileTold {}).map (fun s =>
      (s.dropped.length, s.droppedCount, s.delivered)) = some (2, 0, [(⟨1, ["a"]⟩, 1)]) by decide)
    simp only [Prod.mk.injEq] at hv
    obtain ⟨hdropped, hcount, hdelivered⟩ := hv
    refine ⟨s, hs, hdropped, hcount, hdelivered, fun h => ?_⟩
    have hsum := h.2
    rw [hdropped, hcount, hdelivered] at hsum
    revert hsum
    decide
  · obtain ⟨s, hs, hdelivered⟩ := Option.map_eq_some_iff.mp (show ((step fun _ => true).run capRaised {}).map
      State.delivered = some [(⟨2, ["b"]⟩, 3)] by decide)
    refine ⟨s, hs, hdelivered, fun h => ?_⟩
    have hlen := h.1.lines_length
    rw [hdelivered] at hlen
    have := hlen _ mem_cons_self
    revert this
    decide

end OpenClaw.Reply
