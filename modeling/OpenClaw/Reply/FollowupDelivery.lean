import Mathlib.Data.List.Nodup
import Mathlib.Data.List.Range
import OpenClaw.Reply.FollowupSteps

/-! What becomes of an accepted follow-up run.

The drain reads the first items, waits for their run, and then takes as many
items off the front as it read. That takes off the items it read as long as
nothing was removed from the front in between: a call that finds the queue at its
cap while a run is awaited removes items there, and one that is still waiting is
taken off in the place of each. And a summary is handed on in the place of the
first item, which is taken off without its prompt ever being told. Where neither
happens (`Undisturbed`), every accepted run is waiting, handed on once, or
removed by the policy before it was handed on: `Balanced`. -/
namespace OpenClaw.Reply
open Foundation List

variable {φ : Type*}

/-- The items handed on by the awaited run, which are taken off once it is over. -/
def DrainPoint.inFlight : DrainPoint → Nat
  | .collectRun | .itemRun => 1
  | .batchRun count _ => count
  | _ => 0

/-- A summary was handed on in the place of an item. -/
def DrainPoint.isSummary : DrainPoint → Bool
  | .summaryRun _ => true
  | .summaryResult _ drained => drained
  | _ => false

namespace State

def inFlight (s : State φ) : Nat := (s.point.map DrainPoint.inFlight).getD 0

/-- The items whose own prompts nobody was told yet. -/
def waiting (s : State φ) : List Queued := s.items.drop s.inFlight

/-- How often the prompt of an accepted run was handed to `runFollowup`. -/
def timesHanded (s : State φ) (n : Nat) : Nat := (s.handed.map Queued.id).count n

/-- Every accepted run that is no longer queued was handed on exactly once, or
removed by the drop policy without ever having been; and none is handed on twice. -/
def LeftProperly (s : State φ) : Prop :=
  ∀ n < s.accepted, s.timesHanded n ≤ 1 ∧ (n ∉ s.items.map Queued.id →
    s.timesHanded n = 1 ∨ s.timesHanded n = 0 ∧ n ∈ s.dropped.map Queued.id)

theorem inFlight_some {s : State φ} {d : Drain φ} (h : s.drain = some d) : s.inFlight = d.point.inFlight := by
  simp [inFlight, point, h]

end State

/-- No call removes items while others are awaited, and no summary is handed on in
the place of an item. -/
def Undisturbed : Event φ → State φ → Prop
  | .enqueue e, s => 0 < s.inFlight → ¬ e.makesRoom s
  | .resume, s => ∀ q, s.queue = some q → s.point = some .debounce → q.mode ≠ .collect →
      q.previewQueueSummary.isSome → q.items = []
  | _, _ => True

instance (e : Event φ) (s : State φ) : Decidable (Undisturbed e s) :=
  match e with
  | .enqueue e => inferInstanceAs (Decidable (0 < s.inFlight → ¬ e.makesRoom s))
  | .resume => inferInstanceAs (Decidable (∀ q ∈ s.queue, s.point = some .debounce → q.mode ≠ .collect →
      q.previewQueueSummary.isSome → q.items = []))
  | .schedule _ | .refresh _ | .reject => .isTrue trivial

instance (s : State φ) : Decidable s.LeftProperly := by unfold State.LeftProperly; infer_instance

/-- The accepted runs are those handed on, those removed and those waiting, each
once. -/
structure Balanced (s : State φ) : Prop where
  inFlight_le : s.inFlight ≤ s.items.length
  parts : ((s.handed ++ s.dropped ++ s.waiting).map Queued.id).Perm (List.range s.accepted)
  direct : ∀ p, s.point = some p → p.isSummary = false

theorem balanced_empty : Balanced ({} : State φ) := ⟨Nat.le_refl 0, .refl _, forall_none⟩

namespace Balanced

variable {s s' : State φ}

/-- Only these of the state are looked at. -/
theorem congr (h : Balanced s) (hitems : s'.items.map Queued.id = s.items.map Queued.id)
    (hin : s'.inFlight = s.inFlight) (hpoint : ∀ p, s'.point = some p → p.isSummary = false)
    (haccepted : s'.accepted = s.accepted) (hdropped : s'.dropped = s.dropped) (hcalls : s'.calls = s.calls) :
    Balanced s' := by
  have hhanded : s'.handed = s.handed := by rw [State.handed, State.handed, hcalls]
  have hwaiting : s'.waiting.map Queued.id = s.waiting.map Queued.id := by
    rw [State.waiting, State.waiting, map_drop, map_drop, hitems, hin]
  refine ⟨?_, ?_, hpoint⟩
  · have := congrArg List.length hitems
    rw [length_map, length_map] at this
    rw [hin, this]
    exact h.inFlight_le
  · rw [haccepted, map_append, map_append, hwaiting, hhanded, hdropped,
      ← map_append, ← map_append]
    exact h.parts

section
variable (h : Balanced s) (hin : s.inFlight = 0)
include h hin

/-- A drain begins or ends where no run is awaited. -/
theorem startDrain {q : FollowupQueueState} (hitems : q.items = s.items) (cb : φ) : Balanced (startDrain cb q s) := by
  refine h.congr ?_ ?_ ?_ rfl rfl rfl
  · show q.items.map _ = _
    rw [hitems]
  · rw [hin]
    rfl
  · intro p hp
    cases hp
    rfl

theorem deleteQueue (hitems : s.items = []) :
    Balanced (deleteQueue s) := by
  refine h.congr ?_ ?_ forall_none rfl rfl rfl
  · rw [hitems]
    rfl
  · rw [hin]
    rfl

theorem drainFinally {q : FollowupQueueState} (hitems : q.items = s.items) (d : Drain φ) :
    Balanced (drainFinally s q d) := by
  rw [drainFinally_eq]
  split_ifs with hp
  · exact h.startDrain hin hitems _
  · refine h.deleteQueue hin ?_
    rw [← hitems]
    by_contra hne
    exact hp (.inl hne)

/-- The drain goes on to wait with the items there as they are. -/
theorem waitAt {q : FollowupQueueState} (hitems : q.items = s.items) {point : DrainPoint}
    (hpoint : point.inFlight = 0) (hs : point.isSummary = false) (d : Drain φ) :
    Balanced (waitAt s q d point) := by
  refine h.congr ?_ ?_ ?_ rfl rfl rfl
  · show q.items.map _ = _
    rw [hitems]
  · rw [hin]
    exact hpoint
  · intro p hp
    cases hp
    exact hs

theorem drainLoop {q : FollowupQueueState} (hitems : q.items = s.items) (d : Drain φ) : Balanced (drainLoop s q d) := by
  unfold Reply.drainLoop
  split_ifs
  · exact h.waitAt hin hitems rfl rfl d
  · exact h.drainFinally hin hitems d

end

section
variable (h : Balanced s)
include h

/-- The items awaited are taken off: those waiting stay. -/
theorem shift {q q' : FollowupQueueState} (hq : s.queue = some q) (hitems : q'.items = q.items.drop s.inFlight)
    (d : Drain φ) {point : DrainPoint} (hpoint : point.inFlight = 0) (hs : point.isSummary = false) :
    Balanced (Reply.waitAt s q' d point) := by
  have hq' : (Reply.waitAt s q' d point).items = q.items.drop s.inFlight := hitems
  have hin : (Reply.waitAt s q' d point).inFlight = 0 := hpoint
  have hwaiting : (Reply.waitAt s q' d point).waiting = s.waiting := by
    rw [State.waiting, State.waiting, hq', hin, State.items_some hq, drop_zero]
  refine ⟨by rw [hin]; exact Nat.zero_le _, ?_, ?_⟩
  · rw [hwaiting]
    exact h.parts
  · intro p hp
    cases hp
    exact hs

/-- The first items are handed on. -/
theorem handOn (hin : s.inFlight = 0) {q : FollowupQueueState} (hq : s.queue = some q)
    {content : Content} {point : DrainPoint} (hown : q.items = content.own ++ q.items.drop point.inFlight)
    (hlen : point.inFlight ≤ q.items.length) (hs : point.isSummary = false) (d : Drain φ)
    (followup : FollowupRun) : Balanced (callFollowup s q d content followup point) := by
  refine ⟨hlen, ?_, ?_⟩
  · have hhanded : (callFollowup s q d content followup point).handed = s.handed ++ content.own := by
      simp [callFollowup, Reply.waitAt, State.handed]
    have hwaiting : (callFollowup s q d content followup point).waiting = q.items.drop point.inFlight := rfl
    have hbefore : s.waiting = content.own ++ q.items.drop point.inFlight := by
      rw [State.waiting, hin, drop_zero, State.items_some hq, ← hown]
    have hparts := h.parts
    rw [hbefore] at hparts
    rw [hhanded, hwaiting]
    refine List.Perm.trans (List.Perm.map _ ?_) hparts
    -- what is handed on moves from behind the dropped items to before them
    rw [append_assoc, append_assoc, append_assoc]
    refine List.Perm.append_left _ ?_
    rw [← append_assoc, ← append_assoc]
    exact perm_append_comm.append_right _
  · intro p hp
    cases hp
    exact hs

/-- A run is taken in, with nothing removed that is awaited. -/
theorem push {e : Enqueue φ} (hf : e.fresh s.queue = true) (hc : Undisturbed (.enqueue e) s) :
    Balanced (pushFollowup e (e.runQueue s) s) := by
  have hitems : (pushFollowup e (e.runQueue s) s).items =
      s.items.drop (e.removes s).length ++ [⟨s.accepted, e.run⟩] := e.pushedQueue_items s
  have hin : (pushFollowup e (e.runQueue s) s).inFlight = s.inFlight := rfl
  have hle := h.inFlight_le
  have hlen := congrArg List.length (e.removes_append s)
  rw [length_append] at hlen
  have hwaits : s.waiting = e.removes s ++ (s.items.drop (e.removes s).length).drop s.inFlight ∧
      s.inFlight ≤ (s.items.drop (e.removes s).length).length := by
    rcases Nat.eq_zero_or_pos s.inFlight with hz | hpos
    · rw [State.waiting, hz, drop_zero, drop_zero, e.removes_append]
      exact ⟨rfl, Nat.zero_le _⟩
    · have hnone : e.removes s = [] := QueueState.removed_of_not _ fun ho => hc hpos ⟨hf, ho⟩
      rw [State.waiting, hnone]
      exact ⟨rfl, hle⟩
  obtain ⟨hwaits, hroom⟩ := hwaits
  refine ⟨?_, ?_, h.direct⟩
  · rw [hin, hitems, length_append]
    omega
  · have hwaiting : (pushFollowup e (e.runQueue s) s).waiting =
        (s.items.drop (e.removes s).length).drop s.inFlight ++ [⟨s.accepted, e.run⟩] := by
      rw [State.waiting, hitems, hin, drop_append_of_le_length hroom]
    have hparts := h.parts
    rw [hwaits] at hparts
    have hall : (pushFollowup e (e.runQueue s) s).handed ++ (pushFollowup e (e.runQueue s) s).dropped ++
        (pushFollowup e (e.runQueue s) s).waiting =
        s.handed ++ s.dropped ++ (e.removes s ++ (s.items.drop (e.removes s).length).drop s.inFlight) ++
          [⟨s.accepted, e.run⟩] := by
      rw [hwaiting]
      simp [pushFollowup, State.handed, Enqueue.removes, Enqueue.runQueue]
    rw [hall, map_append]
    show List.Perm _ (List.range (s.accepted + 1))
    rw [range_succ]
    exact hparts.append_right _

theorem resumed {q : FollowupQueueState} {d : Drain φ} (hq : s.queue = some q) (hd : s.drain = some d)
    (hc : Undisturbed .resume s) (hr : Resumed s q d s') : Balanced s' := by
  have hitems : q.items = s.items := (State.items_some hq).symm
  have hin := State.inFlight_some hd
  have hpoint := State.point_some hd
  have hdirect := h.direct _ hpoint
  cases hr with
  | skip hp =>
    rw [hp] at hin
    exact h.waitAt hin hitems rfl rfl d
  | none hp _ _ hwhere =>
    rw [hp] at hin
    rcases hwhere with rfl | rfl | ⟨sm, rfl⟩ <;> exact h.waitAt hin hitems rfl rfl _
  | item hp hi hwhere =>
    rw [hp] at hin
    rcases hwhere with ⟨rfl, _⟩ | ⟨rfl, _⟩ <;>
      exact h.handOn hin hq (by rw [hi]; rfl) (by rw [hi]; exact Nat.le_add_left 1 _) rfl _ _
  | summary hp hmode hsm hi =>
    rw [hp] at hpoint
    have := hc q hq hpoint hmode (by rw [hsm]; rfl)
    rw [hi] at this
    cases this
  | batch hp =>
    rw [hp] at hin
    refine h.handOn hin hq ?_ (Nat.le_refl _) rfl _ _
    show q.items = q.items ++ q.items.drop q.items.length
    rw [drop_length, append_nil]
  | shift hwhere =>
    rcases hwhere with ⟨hp, rfl⟩ | ⟨hp, rfl⟩ <;>
    · rw [hp] at hin
      exact h.shift hq (by rw [hin]; rfl) d rfl rfl
  | shiftSummary hp =>
    rw [hp] at hdirect
    cases hdirect
  | @splice count sm hp =>
    rw [hp] at hin
    -- the items come off first, then the loop goes on
    have hshift : Balanced (Reply.waitAt s
        (if sm.isSome then clearSummary (shiftItems q count) else shiftItems q count) d .debounce) :=
      h.shift hq (by rw [hin]; split_ifs <;> rfl) d rfl rfl
    have := hshift.drainLoop rfl rfl d
    exact this.congr rfl rfl this.direct rfl rfl rfl
  | clear hp =>
    rw [hp] at hdirect
    cases hdirect
  | next hp =>
    rcases hp with hp | hp <;>
    · rw [hp] at hin
      exact h.drainLoop hin hitems d
  | stop hp =>
    rcases hp with hp | hp | ⟨sm, hp⟩ <;>
    · rw [hp] at hin
      exact h.drainFinally hin hitems d
  | noRun hp _ =>
    rcases hp with ⟨hp, _⟩ | hp <;>
    · rw [hp] at hin
      exact h.drainFinally hin hitems d

theorem step {routable : String → Bool} {e : Event φ} (hw : Wired s) (hres : e.resolves)
    (hc : Undisturbed e s) (hs : step routable e s = some s') : Balanced s' := by
  have hidle {q : FollowupQueueState} (hq : s.queue = some q) (hd : q.draining = false) : s.inFlight = 0 := by
    have hnone := hw.draining q hq
    rw [hd] at hnone
    simp [State.inFlight, State.point, Option.not_isSome_iff_eq_none.mp (by rw [← hnone]; decide)]
  cases step_action hs with
  | @refuse e run _ _ => exact h.congr (by rw [← e.queueFor_items s]; rfl) rfl h.direct rfl rfl rfl
  | push hf => exact h.push hf hc
  | @pushStart e cb hf hd =>
    have hnone := hw.queueFor_draining e
    rw [hd] at hnone
    refine (h.push hf hc).startDrain ?_ rfl cb
    show s.inFlight = 0
    simp [State.inFlight, State.point, Option.not_isSome_iff_eq_none.mp (by rw [← hnone]; decide)]
  | idle => exact h
  | start hq hd _ => exact h.startDrain (hidle hq hd) (State.items_some hq).symm _
  | close hq hd hp =>
    refine h.deleteQueue (hidle hq hd) ?_
    rw [State.items_some hq]
    by_contra hne
    exact hp (.inl hne)
  | refresh =>
    refine h.congr ?_ rfl h.direct rfl rfl rfl
    cases hq : s.queue with
    | none => simp [State.items, hq]
    | some q => simp [State.items, hq, refreshQueuedFollowupSession, Function.comp_def]
  | resume hq hd hr => exact h.resumed hq hd hc hr
  | reject => exact hres.elim

theorem leftProperly : s.LeftProperly := by
  intro n hn
  have hone : ((s.handed ++ s.dropped ++ s.waiting).map Queued.id).count n = 1 := by
    rw [h.parts.count_eq n]
    exact count_eq_one_of_mem nodup_range (mem_range.mpr hn)
  rw [map_append, map_append, count_append, count_append] at hone
  have hhanded : s.timesHanded n = (s.handed.map Queued.id).count n := rfl
  refine ⟨by omega, fun hout => ?_⟩
  have hwaiting : (s.waiting.map Queued.id).count n = 0 := by
    refine count_eq_zero.mpr fun hmem => hout ?_
    exact (drop_sublist _ _).map Queued.id |>.subset hmem
  rcases Nat.eq_zero_or_pos ((s.dropped.map Queued.id).count n) with hz | hpos
  · left
    omega
  · right
    exact ⟨by omega, count_pos_iff.mp hpos⟩

end

end Balanced

/-- **In every run where each awaited run resolves, no call removes items while
others are awaited, and no summary takes the place of an item, no accepted run is
lost and none is handed on twice.** -/
theorem followup_run_leftProperly (routable : String → Bool) (events : List (Event φ)) (s : State φ)
    (hr : (step routable).run events {} = some s) (hres : ∀ e ∈ events, e.resolves)
    (hc : (step routable).Within Undisturbed events {}) : s.LeftProperly := by
  have hboth : Wired s ∧ Balanced s := by
    have hall : (step routable).Within (fun e _ => e.resolves) events {} :=
      (step routable).within_of_all fun e he _ => hres e he
    refine (step routable).run_within_invariant (I := fun s => Wired s ∧ Balanced s) ?_ events
      ⟨wired_empty, balanced_empty⟩ ((step routable).within_and hall hc) hr
    exact fun e s t hs hc he => ⟨hs.1.step he, hs.2.step hs.1 hc.1 hc.2 he⟩
  exact hboth.2.leftProperly

/-! ### Runs -/

/-- Two runs are handed on one after the other, and a third is removed to make room. -/
def calmRun : List (Event Unit) :=
  [enqueuePrompt .followup 1 .old "a", enqueuePrompt .followup 1 .old "b", .schedule (),
    enqueuePrompt .followup 5 .old "c", .resume, .resume, .resume, .resume, .resume, .resume]

theorem followup_run_leftProperly_calm :
    ∃ s, (step fun _ => true).run calmRun {} = some s ∧ s.accepted = 3 ∧ s.items = [] ∧ s.LeftProperly := by
  obtain ⟨s, hs⟩ : ∃ s, (step fun _ => true).run calmRun {} = some s :=
    Option.isSome_iff_exists.mp (by decide)
  have hend : ((step fun _ => true).run calmRun {}).map (fun s => (s.accepted, s.items)) = some (3, []) := by
    decide
  rw [hs, Option.map_some, Option.some.injEq, Prod.mk.injEq] at hend
  exact ⟨s, hs, hend.1, hend.2,
    followup_run_leftProperly _ calmRun s hs (by decide) (by decide)⟩

/-- The cap is 1 and `a` is awaited when `b` comes in: `a` is removed to make room,
and `b` taken off when the run of `a` is over. -/
def dropWhileAwaited : List (Event Unit) :=
  [enqueuePrompt .followup 1 .old "a", .schedule (), .resume, enqueuePrompt .followup 1 .old "b", .resume, .resume]

/-- The summary of the drop of `a` is handed on, and `b` taken off in its place. -/
def summaryForItem : List (Event Unit) :=
  [enqueuePrompt .followup 1 .summarize "a", enqueuePrompt .followup 1 .summarize "b", .schedule (), .resume,
    .resume, .resume]

/-- In both runs `b` is accepted, and neither handed on nor removed by the policy. -/
theorem followup_run_lost :
    (∃ s, (step fun _ => true).run dropWhileAwaited {} = some s ∧ s.accepted = 2 ∧ s.items = [] ∧
      s.timesHanded 1 = 0 ∧ s.dropped.map Queued.id = [0] ∧ ¬ s.LeftProperly) ∧
    (∃ s, (step fun _ => true).run summaryForItem {} = some s ∧ s.accepted = 2 ∧ s.items = [] ∧
      s.timesHanded 1 = 0 ∧ s.dropped.map Queued.id = [0] ∧ ¬ s.LeftProperly) := by
  have hlost {s : State Unit} (ha : s.accepted = 2) (hi : s.items = []) (hh : s.timesHanded 1 = 0)
      (hd : s.dropped.map Queued.id = [0]) : ¬ s.LeftProperly := by
    intro h
    have hb := (h 1 (by rw [ha]; decide)).2 (by rw [hi]; exact not_mem_nil)
    rw [hh, hd] at hb
    revert hb
    decide
  have hend (events : List (Event Unit))
      (h : ((step fun _ => true).run events {}).map (fun s =>
        (s.accepted, s.items, s.timesHanded 1, s.dropped.map Queued.id)) = some (2, [], 0, [0])) :
      ∃ s, (step fun _ => true).run events {} = some s ∧ s.accepted = 2 ∧ s.items = [] ∧
        s.timesHanded 1 = 0 ∧ s.dropped.map Queued.id = [0] ∧ ¬ s.LeftProperly := by
    obtain ⟨s, hs, hv⟩ := Option.map_eq_some_iff.mp h
    simp only [Prod.mk.injEq] at hv
    exact ⟨s, hs, hv.1, hv.2.1, hv.2.2.1, hv.2.2.2, hlost hv.1 hv.2.1 hv.2.2.1 hv.2.2.2⟩
  exact ⟨hend _ (by decide), hend _ (by decide)⟩

end OpenClaw.Reply
