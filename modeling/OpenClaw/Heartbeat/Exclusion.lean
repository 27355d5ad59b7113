import Mathlib.Data.List.Perm.Basic
import OpenClaw.Heartbeat.Wake

/-! Heartbeat runs do not overlap.

One flag says that a batch is being executed, and a timer that fires meanwhile
waits for another turn. The flag knows nothing of handlers: registering one
clears it, and so does the end of any batch, also of one that an earlier handler
left behind. And a batch keeps the handler it was started with, whether or not
it is still the registered one. Where a handler is only registered while none of
its own batches is in flight, and a batch of an earlier handler neither goes on to
another wake nor ends under a batch of the registered one (`Calm`), at most one
invocation of the registered handler is in flight: `Exclusive`. -/
namespace OpenClaw.Heartbeat
open Foundation List

variable {η : Type*} [DecidableEq η]

/-- The handlers of the invocations in flight: one for each batch. -/
def State.inFlight (s : State η) : List η := s.runs.map BatchRun.active

/-- At most one invocation of the registered handler is in flight, and no handler was
invoked that was not the registered one. -/
structure Exclusive (s : State η) : Prop where
  single : ∀ h, s.handler = some h → s.inFlight.count h ≤ 1
  current : ∀ i ∈ s.invocations, i.registered = some i.handler

/-- A batch that ends is one of the registered handler, or that handler has none in
flight. -/
def EndsAlone (run : BatchRun η) (s : State η) : Prop :=
  s.handler = some run.active ∨ ∀ h ∈ s.handler, h ∉ s.inFlight

/-- No handler is registered while a batch of its own is in flight, and a batch of a
handler that is not registered does not go on to another wake, nor end while one
of the registered handler is in flight. -/
def Calm : Event η → State η → Prop
  | .setHandler next _, s => ∀ h ∈ next, h ∉ s.inFlight
  | .settle k _ _, s => ∀ run ∈ s.runs[k]?,
      if run.waiting = [] then EndsAlone run s else s.handler = some run.active
  | .fail k _, s => ∀ run ∈ s.runs[k]?, EndsAlone run s
  | _, _ => True

instance (run : BatchRun η) (s : State η) : Decidable (EndsAlone run s) := by unfold EndsAlone; infer_instance

instance (e : Event η) (s : State η) : Decidable (Calm e s) := by
  cases e <;> unfold Calm <;> infer_instance

/-- The flag is up while an invocation of the registered handler is in flight. -/
structure Guarded (s : State η) : Prop extends Exclusive s where
  flagged : ∀ h, s.handler = some h → h ∈ s.inFlight → s.running = true

theorem guarded_empty : Guarded ({} : State η) :=
  ⟨⟨fun _ _ => Nat.zero_le 1, fun _ hi => absurd hi not_mem_nil⟩, fun _ _ hm => absurd hm not_mem_nil⟩

namespace Guarded

variable {s s' : State η}

/-- Only these of the state are looked at. -/
theorem congr (h : Guarded s) (hhandler : s'.handler = s.handler) (hin : s'.inFlight = s.inFlight)
    (hrunning : s'.running = s.running) (hinvocations : s'.invocations = s.invocations) : Guarded s' := by
  refine ⟨⟨?_, ?_⟩, ?_⟩
  · rw [hhandler, hin]
    exact h.single
  · rw [hinvocations]
    exact h.current
  · rw [hhandler, hin, hrunning]
    exact h.flagged

/-- The registered handler has nothing in flight, and what was invoked was registered. -/
theorem of_idle (hidle : ∀ h, s.handler = some h → h ∉ s.inFlight)
    (hcurrent : ∀ i ∈ s.invocations, i.registered = some i.handler) : Guarded s :=
  ⟨⟨fun h hh => by rw [count_eq_zero.mpr (hidle h hh)]; exact Nat.zero_le 1, hcurrent⟩,
    fun h hh hm => absurd hm (hidle h hh)⟩

/-- A batch ends alone: nothing of the registered handler is in flight any more. -/
theorem finish (h : Guarded s) {k : Nat} {run : BatchRun η} (hrun : s.runs[k]? = some run)
    (hends : EndsAlone run s) {delay now : Int} {timer : Option Timer} {pending : InsertionMap String PendingWake}
    {requested : List (WakeTarget × Nat)} :
    Guarded (finishBatch delay now {s with
      timer := timer, pendingWakes := pending, requested := requested, runs := s.runs.eraseIdx k}) := by
  obtain ⟨timer', heq⟩ := finishBatch_eq {s with
    timer := timer, pendingWakes := pending, requested := requested, runs := s.runs.eraseIdx k} now delay
  rw [heq]
  refine of_idle ?_ h.current
  intro c hc hm
  obtain ⟨hk, hget⟩ := List.getElem?_eq_some_iff.mp hrun
  have hc : s.handler = some c := hc
  have hrest : c ∈ (s.runs.eraseIdx k).map BatchRun.active := hm
  rcases hends with howner | hnone
  · -- the batch that ends was the only one of the handler
    rw [howner] at hc
    cases hc
    have hsplit : s.inFlight.count run.active =
        ((s.runs.eraseIdx k).map BatchRun.active).count run.active + 1 := by
      have hperm : (run :: s.runs.eraseIdx k).Perm s.runs := by
        rw [← hget]
        exact getElem_cons_eraseIdx_perm hk
      rw [State.inFlight, ← (hperm.map BatchRun.active).count_eq, map_cons, count_cons_self]
    have hone := h.single _ howner
    have hpos := count_pos_iff.mpr hrest
    omega
  · refine hnone c hc ?_
    exact ((eraseIdx_sublist s.runs k).map BatchRun.active).subset hrest

theorem step (h : Guarded s) {e : Event η} (hc : Calm e s) (hs : step e s = some s') : Guarded s' := by
  cases e with
  | request r now =>
    cases hs
    exact h.congr rfl rfl rfl rfl
  | setHandler next now =>
    cases hs
    unfold setHeartbeatWakeHandler
    dsimp only
    split_ifs with hnext <;> exact of_idle (fun c hh => hc c hh) h.current
  | dispose k =>
    obtain ⟨d, _, rfl⟩ := Option.map_eq_some_iff.mp hs
    unfold dispose
    split_ifs
    · exact h
    · exact of_idle nofun h.current
  | fire now =>
    obtain ⟨timer, _, hfire⟩ := Option.bind_eq_some_iff.mp hs
    split_ifs at hfire
    have hfired := fireTimer_fired s now timer
    rw [Option.some.inj hfire] at hfired
    have hidle (hrunning : s.running = false) (c : η) (hh : s.handler = some c) : c ∉ s.inFlight := by
      intro hm
      rw [h.flagged c hh hm] at hrunning
      cases hrunning
    cases hfired with
    | unregistered hhandler => exact of_idle (fun c hh => by rw [hhandler] at hh; cases hh) h.current
    | busy => exact h.congr rfl rfl rfl rfl
    | nothing _ hrunning _ => exact of_idle (hidle hrunning) h.current
    | @start active wake rest hhandler hrunning _ =>
      refine ⟨⟨?_, ?_⟩, fun _ _ _ => rfl⟩
      · intro c hh
        show (List.map BatchRun.active (s.runs ++ [_])).count c ≤ 1
        have hnone : (s.runs.map BatchRun.active).count c = 0 := count_eq_zero.mpr (hidle hrunning c hh)
        rw [map_append, count_append, hnone, Nat.zero_add]
        exact count_le_length
      · intro i hi
        rcases mem_append.mp hi with hi | hi
        · exact h.current i hi
        · rw [mem_singleton.mp hi]
          exact hhandler
  | settle k result now =>
    obtain ⟨run, hrun, rfl⟩ := Option.map_eq_some_iff.mp hs
    have hcalm := hc run hrun
    obtain ⟨pending, requested, timer, heq⟩ := retryWake_eq s run.current now result
    simp only [settleWake, heq]
    split
    · rename_i wake rest hwaiting
      rw [if_neg (by rw [hwaiting]; exact cons_ne_nil _ _)] at hcalm
      obtain ⟨hk, hget⟩ := List.getElem?_eq_some_iff.mp hrun
      have hset : (s.runs.set k {run with current := wake, waiting := rest}).map BatchRun.active =
          s.runs.map BatchRun.active := by
        have hsame : s.runs.map BatchRun.active = (s.runs.map BatchRun.active).set k run.active := by
          rw [← hget, ← getElem_map BatchRun.active (h := by rwa [length_map]), set_getElem_self]
        rw [map_set, hsame, set_set]
      refine ⟨⟨?_, ?_⟩, ?_⟩
      · intro c hh
        show (List.map _ (s.runs.set k _)).count c ≤ 1
        rw [hset]
        exact h.single c hh
      · intro i hi
        rcases mem_append.mp hi with hi | hi
        · exact h.current i hi
        · rw [mem_singleton.mp hi]
          exact hcalm
      · intro c hh hm
        refine h.flagged c hh ?_
        have hm : c ∈ (s.runs.set k {run with current := wake, waiting := rest}).map BatchRun.active := hm
        rwa [hset] at hm
    · rename_i hwaiting
      rw [if_pos hwaiting] at hcalm
      exact h.finish hrun hcalm
  | fail k now =>
    obtain ⟨run, hrun, rfl⟩ := Option.map_eq_some_iff.mp hs
    unfold failWake
    dsimp only
    obtain ⟨pending, requested, heq⟩ := foldl_requeue_eq s now run.pendingBatch
    rw [heq]
    exact h.finish hrun (hc run hrun)

end Guarded

/-- **In every calm run at most one invocation of the registered handler is in flight,
and no handler is invoked once it was replaced or disposed.** -/
theorem heartbeat_runs_exclusive (events : List (Event η)) (s : State η) (hr : step.run events {} = some s)
    (hc : step.Within Calm events {}) : Exclusive s :=
  (step.run_within_invariant (fun _ _ _ h hc hs => h.step hc hs) events guarded_empty hc hr).toExclusive

/-! ### Runs -/

def wakeFor (agentId : String) (now : Int) : Event String := .request {target := {agentId := some agentId}} now

/-- A batch of two wakes is done, and then a handler is replaced. -/
def calmRun : List (Event String) :=
  [.setHandler (some "A") 0, wakeFor "x" 0, wakeFor "y" 10, .fire 250, .settle 0 .ran 300, .settle 0 .ran 400,
    wakeFor "x" 500, .setHandler (some "B") 600, .fire 850]

theorem heartbeat_runs_exclusive_calm : ∃ s, step.run calmRun {} = some s ∧ s.inFlight = ["B"] ∧
    s.invocations.length = 3 ∧ Exclusive s := by
  obtain ⟨s, hs, hv⟩ := Option.map_eq_some_iff.mp (show (step.run calmRun {}).map (fun s =>
    (s.inFlight, s.invocations.length)) = some (["B"], 3) by decide)
  rw [Prod.mk.injEq] at hv
  exact ⟨s, hs, hv.1, hv.2, heartbeat_runs_exclusive calmRun s hs (by decide)⟩

/-- The batch of `A` has a wake left when `A` is replaced, and goes on to it. -/
def invokedWhenReplaced : List (Event String) :=
  [.setHandler (some "A") 0, wakeFor "x" 0, wakeFor "y" 10, .fire 250, .setHandler (some "B") 300,
    .settle 0 .ran 400]

/-- The batch of `A` ends while one of `B` is in flight, and clears the flag. -/
def flagClearedByOther : List (Event String) :=
  [.setHandler (some "A") 0, wakeFor "x" 0, .fire 250, .setHandler (some "B") 300, wakeFor "y" 300, .fire 550,
    .settle 0 .ran 600, wakeFor "z" 650, .fire 900]

/-- In the first run `A` is invoked when `B` is registered; in the second two
invocations of `B` are in flight. -/
theorem heartbeat_runs_overlap :
    (∃ s, step.run invokedWhenReplaced {} = some s ∧
      s.invocations.map (fun i => (i.handler, i.registered)) = [("A", some "A"), ("A", some "B")] ∧ ¬ Exclusive s) ∧
    (∃ s, step.run flagClearedByOther {} = some s ∧ s.handler = some "B" ∧ s.inFlight = ["B", "B"] ∧
      ¬ Exclusive s) := by
  constructor
  · obtain ⟨s, hs, hv⟩ := Option.map_eq_some_iff.mp (show (step.run invokedWhenReplaced {}).map (fun s =>
      s.invocations.map fun i => (i.handler, i.registered)) = some [("A", some "A"), ("A", some "B")] by
        decide)
    refine ⟨s, hs, hv, fun h => ?_⟩
    have hall : ∀ p ∈ s.invocations.map (fun i => (i.handler, i.registered)), p.2 = some p.1 := by
      intro p hp
      obtain ⟨i, hi, rfl⟩ := mem_map.mp hp
      exact h.current i hi
    rw [hv] at hall
    revert hall
    decide
  · obtain ⟨s, hs, hv⟩ := Option.map_eq_some_iff.mp (show (step.run flagClearedByOther {}).map (fun s =>
      (s.handler, s.inFlight)) = some (some "B", ["B", "B"]) by decide)
    rw [Prod.mk.injEq] at hv
    refine ⟨s, hs, hv.1, hv.2, fun h => ?_⟩
    have hone := h.single "B" hv.1
    rw [hv.2] at hone
    revert hone
    decide

end OpenClaw.Heartbeat
