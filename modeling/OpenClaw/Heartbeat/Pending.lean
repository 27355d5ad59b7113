import Mathlib.Data.List.Perm.Basic
import OpenClaw.Heartbeat.Wake

/-! No heartbeat wake is lost.

A request stays in the pending map, under its target's key, until a timer takes
the whole map as a batch; there it waits until the handler is invoked for it. The
key joins agent and session with a separator that either may contain, so two
targets may have one key, and the wake of the one then replaces the wake of the
other. Where no target that is asked for shares its key with another one that is
known (`DistinctKey`), no request is lost: `Kept`. In any run a timer is armed
while there is something to do and nothing in flight, and a retry timer gives way
to no earlier one. -/
namespace OpenClaw.Heartbeat
open Foundation List InsertionMap Option

variable {η : Type*}

/-- The pending map has a wake of the target, of that priority at least. -/
def Pends (s : State η) (target : WakeTarget) (priority : Nat) : Prop :=
  ∃ w ∈ s.pendingWakes.values, w.target = target ∧ priority ≤ w.priority

/-- A batch being executed is yet to invoke its handler for such a wake. -/
def Waits (s : State η) (target : WakeTarget) (priority : Nat) : Prop :=
  ∃ run ∈ s.runs, ∃ w ∈ run.waiting, w.target = target ∧ priority ≤ w.priority

/-- Every request the handler was not invoked for since is pending, or in a batch. -/
def Kept (s : State η) : Prop := ∀ p ∈ s.requested, Pends s p.1 p.2 ∨ Waits s p.1 p.2

/-- A timer is armed whenever there is something to do, someone to do it, and nothing
in flight. -/
def TimerArmed (s : State η) : Prop :=
  s.handler.isSome → s.runs = [] → s.pendingWakes.size > 0 → s.timer.isSome

/-- The step registers a handler. -/
def Event.registers : Event η → Prop
  | .setHandler next _ => next.isSome
  | _ => False

def Event.fires : Event η → Prop
  | .fire _ => True
  | _ => False

/-- A retry timer is there after the step, unless it fired or a handler was
registered; and a timer that follows one that fired is due no earlier. -/
def RetryKept (e : Event η) (s s' : State η) : Prop :=
  ∀ timer, s.timer = some timer → timer.kind = .retry → ¬ e.registers →
    (¬ e.fires → s'.timer = some timer) ∧ ∀ timer', s'.timer = some timer' → timer.dueAt ≤ timer'.dueAt

/-! ### The pending map -/

/-- The target is that of a pending wake, or of one in a batch. -/
def Known (s : State η) (target : WakeTarget) : Prop :=
  (∃ w ∈ s.pendingWakes.values, w.target = target) ∨
    ∃ run ∈ s.runs, ∃ w ∈ run.pendingBatch, w.target = target

/-- No known target has the key of the requested one, that target apart. -/
def DistinctKey : Event η → State η → Prop
  | .request r _, s => ∀ target, Known s target → getWakeTargetKey target = getWakeTargetKey r.target →
      target = normalizeWakeTarget r.target
  | _, _ => True

theorem forall_known {s : State η} {P : WakeTarget → Prop} : (∀ target, Known s target → P target) ↔
    (∀ w ∈ s.pendingWakes.values, P w.target) ∧ ∀ run ∈ s.runs, ∀ w ∈ run.pendingBatch, P w.target := by
  constructor
  · exact fun h => ⟨fun w hw => h _ (.inl ⟨w, hw, rfl⟩), fun run hr w hw => h _ (.inr ⟨run, hr, w, hw, rfl⟩)⟩
  · rintro ⟨hpending, hruns⟩ target (⟨w, hw, rfl⟩ | ⟨run, hr, w, hw, rfl⟩)
    · exact hpending w hw
    · exact hruns run hr w hw

instance (e : Event η) (s : State η) : Decidable (DistinctKey e s) :=
  match e with
  | .request r _ => decidable_of_iff _ (forall_known (s := s)
      (P := fun target => getWakeTargetKey target = getWakeTargetKey r.target →
        target = normalizeWakeTarget r.target)).symm
  | .setHandler _ _ | .dispose _ | .fire _ | .settle _ _ _ | .fail _ _ => .isTrue trivial

theorem getWakeTargetKey_normalize (target : WakeTarget) :
    getWakeTargetKey (normalizeWakeTarget target) = getWakeTargetKey target := by
  simp [getWakeTargetKey]

/-- The merged wake has a priority no lower than either. -/
theorem mergeWake_priority (previous : Option PendingWake) (next : PendingWake) :
    next.priority ≤ (mergeWake previous next).priority ∧
      ∀ w ∈ previous, w.priority ≤ (mergeWake previous next).priority := by
  cases previous with
  | none => exact ⟨Nat.le_refl _, fun w hw => absurd hw (not_mem_none w)⟩
  | some previous =>
    have hself : (mergeWake (some previous) next).priority = max previous.priority next.priority := by
      simp only [mergeWake]
      split_ifs <;> omega
    rw [hself]
    refine ⟨Nat.le_max_right _ _, fun w hw => ?_⟩
    rw [mem_some_iff.mp hw]
    exact Nat.le_max_left _ _

theorem mergeWake_target {previous : Option PendingWake} {next : PendingWake}
    (h : ∀ w ∈ previous, w.target = next.target) : (mergeWake previous next).target = next.target := by
  cases previous with
  | none => rfl
  | some previous =>
    simp only [mergeWake]
    split_ifs
    · rfl
    · rfl
    · exact h previous rfl

/-- What is known of a state, for its requests to be kept. -/
structure Keeps (s : State η) : Prop where
  keyed : ∀ k w, s.pendingWakes.get? k = some w → k = getWakeTargetKey w.target
  apart : ∀ t t', Known s t → Known s t' → getWakeTargetKey t = getWakeTargetKey t' → t = t'
  batch : ∀ run ∈ s.runs, run.current ∈ run.pendingBatch ∧ ∀ w ∈ run.waiting, w ∈ run.pendingBatch
  kept : Kept s

theorem keeps_empty : Keeps ({} : State η) := by
  refine ⟨fun k w hk => absurd hk (some_ne_none w).symm, ?_, fun _ hr => absurd hr not_mem_nil, fun _ hp => absurd hp not_mem_nil⟩
  rintro t t' (⟨w, hw, _⟩ | ⟨run, hrun, _⟩)
  · exact absurd hw not_mem_nil
  · exact absurd hrun not_mem_nil

namespace Keeps

variable {s s' : State η}

/-- Only these of the state are looked at. -/
theorem congr (h : Keeps s) (hpending : s'.pendingWakes = s.pendingWakes) (hruns : s'.runs = s.runs)
    (hrequested : s'.requested = s.requested) : Keeps s' := by
  refine ⟨?_, ?_, ?_, ?_⟩
  · rw [hpending]
    exact h.keyed
  · simpa only [Known, hpending, hruns] using h.apart
  · rw [hruns]
    exact h.batch
  · simpa only [Kept, Pends, Waits, hpending, hruns, hrequested] using h.kept

end Keeps

section Queue
variable {s : State η} {reason : Option String} {target : WakeTarget} {now : Int}

/-- The pending wake under another key stays; the one under the key is merged. -/
theorem get?_queue (k : String) : (queuePendingWakeReason reason target now s).pendingWakes.get? k =
    if k = getWakeTargetKey target then
      some (mergeWake (s.pendingWakes.get? (getWakeTargetKey target)) (PendingWake.of reason target now))
    else s.pendingWakes.get? k := by
  show (s.pendingWakes.set _ _).get? k = _
  rw [get?_set, PendingWake.of_target, getWakeTargetKey_normalize]

variable (hkeyed : ∀ k w, s.pendingWakes.get? k = some w → k = getWakeTargetKey w.target)
  (hdistinct : ∀ t, Known s t → getWakeTargetKey t = getWakeTargetKey target → t = normalizeWakeTarget target)
include hkeyed hdistinct

theorem merged_target :
    (mergeWake (s.pendingWakes.get? (getWakeTargetKey target)) (PendingWake.of reason target now)).target =
      normalizeWakeTarget target := by
  refine mergeWake_target fun w hw => ?_
  exact hdistinct w.target (.inl ⟨w, (s.pendingWakes.mem_values w).mpr ⟨_, hw⟩, rfl⟩) (hkeyed _ w hw).symm

/-- The request is pending. -/
theorem pends_queue_self : Pends (queuePendingWakeReason reason target now s) (normalizeWakeTarget target)
    (PendingWake.of reason target now).priority := by
  refine ⟨_, (mem_values _ _).mpr ⟨getWakeTargetKey target, ?_⟩,
    merged_target hkeyed hdistinct, (mergeWake_priority _ _).1⟩
  rw [get?_queue, if_pos rfl]

/-- What was pending still is, with no lower priority. -/
theorem pends_queue {t : WakeTarget} {p : Nat} (h : Pends s t p) :
    Pends (queuePendingWakeReason reason target now s) t p := by
  obtain ⟨w, hw, rfl, hp⟩ := h
  obtain ⟨k, hk⟩ := (s.pendingWakes.mem_values w).mp hw
  by_cases heq : k = getWakeTargetKey target
  · rw [heq] at hk
    refine ⟨_, (mem_values _ _).mpr ⟨k, by rw [get?_queue, if_pos heq]⟩, ?_, ?_⟩
    · rw [merged_target hkeyed hdistinct]
      exact (hdistinct w.target (.inl ⟨w, hw, rfl⟩) (hkeyed _ w hk).symm).symm
    · exact Nat.le_trans hp ((mergeWake_priority _ _).2 w hk)
  · exact ⟨w, (mem_values _ _).mpr ⟨k, by rw [get?_queue, if_neg heq, hk]⟩, rfl, hp⟩

theorem known_queue {t : WakeTarget} (h : Known (queuePendingWakeReason reason target now s) t) :
    Known s t ∨ t = normalizeWakeTarget target := by
  rcases h with ⟨w, hw, rfl⟩ | hrun
  · obtain ⟨k, hk⟩ := (mem_values _ _).mp hw
    rw [get?_queue] at hk
    split_ifs at hk
    · cases hk
      exact .inr (merged_target hkeyed hdistinct)
    · exact .inl (.inl ⟨w, (s.pendingWakes.mem_values w).mpr ⟨k, hk⟩, rfl⟩)
  · exact .inl (.inr hrun)

end Queue

namespace Keeps

variable {s s' : State η}

theorem queue (h : Keeps s) {reason : Option String} {target : WakeTarget} {now : Int}
    (hdistinct : ∀ t, Known s t → getWakeTargetKey t = getWakeTargetKey target → t = normalizeWakeTarget target) :
    Keeps (queuePendingWakeReason reason target now s) := by
  refine ⟨?_, ?_, h.batch, ?_⟩
  · intro k w hk
    rw [get?_queue] at hk
    split_ifs at hk with heq
    · cases hk
      rw [merged_target h.keyed hdistinct, getWakeTargetKey_normalize]
      exact heq
    · exact h.keyed k w hk
  · intro t t' ht ht' hkey
    rcases known_queue h.keyed hdistinct ht with ht | rfl <;>
      rcases known_queue h.keyed hdistinct ht' with ht' | rfl
    · exact h.apart t t' ht ht' hkey
    · exact hdistinct t ht (by rw [hkey, getWakeTargetKey_normalize])
    · exact (hdistinct t' ht' (by rw [← hkey, getWakeTargetKey_normalize])).symm
    · rfl
  · intro p hp
    rcases mem_append.mp hp with hp | hp
    · rcases h.kept p hp with hpends | hwaits
      · exact .inl (pends_queue h.keyed hdistinct hpends)
      · exact .inr hwaits
    · rw [mem_singleton.mp hp]
      exact .inl (pends_queue_self h.keyed hdistinct)

/-- A known wake asked for again is no other target. -/
theorem distinct_again (h : Keeps s) {w : PendingWake} (hw : Known s w.target) :
    ∀ t, Known s t → getWakeTargetKey t = getWakeTargetKey w.target → t = normalizeWakeTarget w.target := by
  intro t ht hkey
  rw [w.target_normal]
  exact h.apart t w.target ht hw hkey

theorem requeue (h : Keeps s) {w : PendingWake} (hw : Known s w.target) (now : Int) : Keeps (requeue now s w) :=
  h.queue (h.distinct_again hw)

theorem known_requeue (h : Keeps s) {w : PendingWake} (hw : Known s w.target) (now : Int) {t : WakeTarget}
    (ht : Known s t) : Known (Heartbeat.requeue now s w) t := by
  rcases ht with ⟨v, hv, rfl⟩ | hrun
  · have hpends : Pends (queuePendingWakeReason (some w.reason) w.target now s) v.target v.priority :=
      pends_queue h.keyed (h.distinct_again hw) ⟨v, hv, rfl, Nat.le_refl _⟩
    obtain ⟨v', hv', heq, _⟩ := hpends
    exact .inl ⟨v', hv', heq⟩
  · exact .inr hrun

/-- A whole batch is asked for again: all of it is pending. -/
theorem requeueAll (now : Int) (batch : List PendingWake) : ∀ {s : State η}, Keeps s →
    (∀ w ∈ batch, Known s w.target) →
    Keeps (batch.foldl (Heartbeat.requeue now) s) ∧
      (∀ t p, Pends s t p → Pends (batch.foldl (Heartbeat.requeue now) s) t p) ∧
      ∀ w ∈ batch, Pends (batch.foldl (Heartbeat.requeue now) s) w.target w.priority := by
  induction batch with
  | nil => exact fun h _ => ⟨h, fun _ _ hp => hp, fun _ hw => absurd hw not_mem_nil⟩
  | cons w rest ih =>
    intro s h hknown
    have hw := hknown w mem_cons_self
    obtain ⟨hkeeps, hpends, hrest⟩ := ih (h.requeue hw now) fun v hv =>
      h.known_requeue hw now (hknown v (mem_cons_of_mem _ hv))
    refine ⟨hkeeps, fun t p hp => hpends t p (pends_queue h.keyed (h.distinct_again hw) hp), ?_⟩
    intro v hv
    rcases mem_cons.mp hv with rfl | hv
    · refine hpends _ _ ?_
      have hself : Pends (queuePendingWakeReason (some v.reason) v.target now s) (normalizeWakeTarget v.target)
          (PendingWake.of (some v.reason) v.target now).priority := pends_queue_self h.keyed (h.distinct_again hw)
      rwa [v.target_normal, (v.of_again now).2] at hself
    · exact hrest v hv

end Keeps

/-! ### Steps -/

namespace Keeps

variable {s s' : State η}

/-- A batch takes the whole pending map. -/
theorem start (h : Keeps s) {active : η} {wake : PendingWake} {rest : List PendingWake} {delay : Int}
    (hvalues : s.pendingWakes.values = wake :: rest)
    (hpending : s'.pendingWakes = ∅) (hruns : s'.runs = s.runs ++ [⟨active, wake :: rest, wake, rest, delay⟩])
    (hrequested : s'.requested = s.requested.filter fun p => p.1 ≠ wake.target) : Keeps s' := by
  have hknown (t : WakeTarget) (ht : Known s' t) : Known s t := by
    rcases ht with ⟨w, hw, _⟩ | ⟨run, hrun, w, hw, rfl⟩
    · rw [hpending] at hw
      exact absurd hw not_mem_nil
    · rw [hruns] at hrun
      rcases mem_append.mp hrun with hrun | hrun
      · exact .inr ⟨run, hrun, w, hw, rfl⟩
      · rw [mem_singleton.mp hrun] at hw
        exact .inl ⟨w, by rwa [hvalues], rfl⟩
  refine ⟨?_, fun t t' ht ht' => h.apart t t' (hknown t ht) (hknown t' ht'), ?_, ?_⟩
  · intro k w hk
    rw [hpending, get?_empty] at hk
    cases hk
  · intro run hrun
    rw [hruns] at hrun
    rcases mem_append.mp hrun with hrun | hrun
    · exact h.batch run hrun
    · rw [mem_singleton.mp hrun]
      exact ⟨mem_cons_self, fun w hw => mem_cons_of_mem _ hw⟩
  · intro p hp
    rw [hrequested] at hp
    obtain ⟨hp, hne⟩ := mem_filter.mp hp
    have hne : p.1 ≠ wake.target := by simpa using hne
    right
    rcases h.kept p hp with ⟨w, hw, htarget, hpriority⟩ | ⟨run, hrun, hw⟩
    · refine ⟨_, hruns ▸ mem_append_right _ mem_cons_self, w, ?_, htarget, hpriority⟩
      rw [hvalues] at hw
      rcases mem_cons.mp hw with rfl | hw
      · exact absurd htarget.symm hne
      · exact hw
    · exact ⟨run, hruns ▸ mem_append_left _ hrun, hw⟩

/-- A batch goes on to its next wake. -/
theorem goOn (h : Keeps s) {k : Nat} {run : BatchRun η} (hrun : s.runs[k]? = some run) {wake : PendingWake}
    {rest : List PendingWake} (hwaiting : run.waiting = wake :: rest) (hpending : s'.pendingWakes = s.pendingWakes)
    (hruns : s'.runs = s.runs.set k {run with current := wake, waiting := rest})
    (hrequested : s'.requested = s.requested.filter fun p => p.1 ≠ wake.target) : Keeps s' := by
  obtain ⟨hk, hget⟩ := List.getElem?_eq_some_iff.mp hrun
  have hmem : run ∈ s.runs := hget ▸ getElem_mem hk
  have hbefore : (run :: s.runs.eraseIdx k).Perm s.runs := by
    rw [← hget]
    exact getElem_cons_eraseIdx_perm hk
  have hafter : s'.runs.Perm ({run with current := wake, waiting := rest} :: s.runs.eraseIdx k) := by
    rw [hruns]
    exact set_perm_cons_eraseIdx hk _
  obtain ⟨hcurrent, hbatch⟩ := h.batch run hmem
  have hknown (t : WakeTarget) (ht : Known s' t) : Known s t := by
    rcases ht with ⟨w, hw, rfl⟩ | ⟨r, hr, w, hw, rfl⟩
    · exact .inl ⟨w, hpending ▸ hw, rfl⟩
    · rcases mem_cons.mp (hafter.subset hr) with rfl | hr
      · exact .inr ⟨run, hmem, w, hw, rfl⟩
      · exact .inr ⟨r, hbefore.subset (mem_cons_of_mem _ hr), w, hw, rfl⟩
  refine ⟨by rw [hpending]; exact h.keyed, fun t t' ht ht' => h.apart t t' (hknown t ht) (hknown t' ht'), ?_, ?_⟩
  · intro r hr
    rcases mem_cons.mp (hafter.subset hr) with rfl | hr
    · exact ⟨hbatch wake (by rw [hwaiting]; exact mem_cons_self),
        fun w hw => hbatch w (by rw [hwaiting]; exact mem_cons_of_mem _ hw)⟩
    · exact h.batch r (hbefore.subset (mem_cons_of_mem _ hr))
  · intro p hp
    rw [hrequested] at hp
    obtain ⟨hp, hne⟩ := mem_filter.mp hp
    have hne : p.1 ≠ wake.target := by simpa using hne
    rcases h.kept p hp with ⟨w, hw, heq⟩ | ⟨r, hr, w, hw, htarget, hpriority⟩
    · exact .inl ⟨w, hpending ▸ hw, heq⟩
    · right
      rcases mem_cons.mp (hbefore.symm.subset hr) with rfl | hr
      · refine ⟨_, hafter.symm.subset mem_cons_self, w, ?_, htarget, hpriority⟩
        rw [hwaiting] at hw
        rcases mem_cons.mp hw with rfl | hw
        · exact absurd htarget.symm hne
        · exact hw
      · exact ⟨r, hafter.symm.subset (mem_cons_of_mem _ hr), w, hw, htarget, hpriority⟩

/-- A batch is over, with nothing waiting in it that is not pending. -/
theorem runOver (h : Keeps s) {k : Nat} {run : BatchRun η} (hrun : s.runs[k]? = some run)
    (hdone : ∀ w ∈ run.waiting, Pends s w.target w.priority) (hpending : s'.pendingWakes = s.pendingWakes)
    (hruns : s'.runs = s.runs.eraseIdx k) (hrequested : s'.requested = s.requested) : Keeps s' := by
  obtain ⟨hk, hget⟩ := List.getElem?_eq_some_iff.mp hrun
  have hbefore : (run :: s.runs.eraseIdx k).Perm s.runs := by
    rw [← hget]
    exact getElem_cons_eraseIdx_perm hk
  have hsub {r : BatchRun η} (hr : r ∈ s'.runs) : r ∈ s.runs :=
    hbefore.subset (mem_cons_of_mem _ (hruns ▸ hr))
  have hknown (t : WakeTarget) (ht : Known s' t) : Known s t := by
    rcases ht with ⟨w, hw, rfl⟩ | ⟨r, hr, w, hw, rfl⟩
    · exact .inl ⟨w, hpending ▸ hw, rfl⟩
    · exact .inr ⟨r, hsub hr, w, hw, rfl⟩
  refine ⟨by rw [hpending]; exact h.keyed, fun t t' ht ht' => h.apart t t' (hknown t ht) (hknown t' ht'),
    fun r hr => h.batch r (hsub hr), ?_⟩
  intro p hp
  rw [hrequested] at hp
  have hsame {t : WakeTarget} {n : Nat} (hpends : Pends s t n) : Pends s' t n := by
    obtain ⟨w, hw, heq⟩ := hpends
    exact ⟨w, hpending ▸ hw, heq⟩
  rcases h.kept p hp with hpends | ⟨r, hr, w, hw, htarget, hpriority⟩
  · exact .inl (hsame hpends)
  · rcases mem_cons.mp (hbefore.symm.subset hr) with rfl | hr
    · obtain ⟨v, hv, hvtarget, hvpriority⟩ := hdone w hw
      exact .inl (hsame ⟨v, hv, hvtarget.trans htarget, Nat.le_trans hpriority hvpriority⟩)
    · exact .inr ⟨r, hruns ▸ hr, w, hw, htarget, hpriority⟩

theorem retryWake (h : Keeps s) {wake : PendingWake} (hknown : Known s wake.target) (result : HeartbeatRunResult)
    (now : Int) : Keeps (retryWake result wake now s) := by
  unfold Heartbeat.retryWake
  split_ifs
  · exact (h.requeue hknown now).congr rfl rfl rfl
  · exact h

theorem settleWake (h : Keeps s) {k : Nat} {run : BatchRun η} (hrun : s.runs[k]? = some run)
    (result : HeartbeatRunResult) (now : Int) : Keeps (settleWake k run result now s) := by
  obtain ⟨hk, hget⟩ := List.getElem?_eq_some_iff.mp hrun
  have hmem : run ∈ s.runs := hget ▸ getElem_mem hk
  have hretry := h.retryWake (.inr ⟨run, hmem, _, (h.batch run hmem).1, rfl⟩) result now
  obtain ⟨pending, requested, timer, heq⟩ := retryWake_eq s run.current now result
  simp only [Heartbeat.settleWake, heq]
  rw [heq] at hretry
  split
  · rename_i wake rest hwaiting
    exact hretry.goOn hrun hwaiting rfl rfl rfl
  · rename_i hwaiting
    obtain ⟨timer', hfinish⟩ := finishBatch_eq {s with
      pendingWakes := pending, requested := requested, timer := timer, runs := s.runs.eraseIdx k} now run.delay
    rw [hfinish]
    refine hretry.runOver (k := k) hrun ?_ rfl rfl rfl
    rw [hwaiting]
    exact fun w hw => absurd hw not_mem_nil

theorem failWake (h : Keeps s) {k : Nat} {run : BatchRun η} (hrun : s.runs[k]? = some run) (now : Int) :
    Keeps (failWake k run now s) := by
  obtain ⟨hk, hget⟩ := List.getElem?_eq_some_iff.mp hrun
  have hmem : run ∈ s.runs := hget ▸ getElem_mem hk
  obtain ⟨hkeeps, _, hpends⟩ := Keeps.requeueAll now run.pendingBatch h
    fun w hw => .inr ⟨run, hmem, w, hw, rfl⟩
  obtain ⟨pending, requested, hfold⟩ := foldl_requeue_eq s now run.pendingBatch
  unfold Heartbeat.failWake
  dsimp only
  obtain ⟨timer, heq⟩ := finishBatch_eq {schedule (.finite DEFAULT_RETRY_MS) .retry now
    (run.pendingBatch.foldl (Heartbeat.requeue now) s) with runs := s.runs.eraseIdx k} now run.delay
  have hsame : (schedule (.finite DEFAULT_RETRY_MS) .retry now
      (run.pendingBatch.foldl (Heartbeat.requeue now) s)).runs = s.runs := by
    rw [hfold]
    rfl
  have hfoldRuns : (run.pendingBatch.foldl (Heartbeat.requeue now) s).runs = s.runs := by
    rw [hfold]
  rw [hsame, heq]
  refine hkeeps.runOver (k := k) (by rw [hfoldRuns]; exact hrun) ?_ rfl (by rw [hfoldRuns]) rfl
  exact fun w hw => hpends w ((h.batch run hmem).2 w hw)

variable [DecidableEq η]

theorem step (h : Keeps s) {e : Event η} (hc : DistinctKey e s) (hs : step e s = some s') : Keeps s' := by
  cases e with
  | request r now =>
    cases hs
    exact (h.queue hc).congr rfl rfl rfl
  | setHandler next now =>
    cases hs
    unfold setHeartbeatWakeHandler
    dsimp only
    split_ifs <;> exact h.congr rfl rfl rfl
  | dispose k =>
    obtain ⟨d, _, rfl⟩ := map_eq_some_iff.mp hs
    unfold dispose
    split_ifs
    · exact h
    · exact h.congr rfl rfl rfl
  | fire now =>
    obtain ⟨timer, _, hfire⟩ := bind_eq_some_iff.mp hs
    split_ifs at hfire
    have hfired := fireTimer_fired s now timer
    rw [Option.some.inj hfire] at hfired
    cases hfired with
    | nothing _ _ hvalues =>
      have hempty : s.pendingWakes = ∅ := eq_empty_of_values hvalues
      exact h.congr hempty.symm rfl rfl
    | start _ _ hvalues => exact h.start hvalues rfl rfl rfl
    | _ => exact h.congr rfl rfl rfl
  | settle k result now =>
    obtain ⟨run, hrun, rfl⟩ := map_eq_some_iff.mp hs
    exact h.settleWake hrun result now
  | fail k now =>
    obtain ⟨run, hrun, rfl⟩ := map_eq_some_iff.mp hs
    exact h.failWake hrun now

end Keeps

/-! ### The timer -/

section Timer
variable [DecidableEq η] {s s' : State η} {e : Event η}

omit [DecidableEq η] in
theorem finishBatch_armed (delay now : Int) (s : State η) : TimerArmed (finishBatch delay now s) := by
  unfold finishBatch
  dsimp only
  split_ifs with hwork
  · exact fun _ _ _ => rfl
  · exact fun _ _ hsize => absurd (.inl hsize) hwork

/-- Every step leaves a timer armed where one is needed. -/
theorem step_armed (h : TimerArmed s) (hs : step e s = some s') : TimerArmed s' := by
  cases e with
  | request r now =>
    cases hs
    exact fun _ _ _ => rfl
  | setHandler next now =>
    cases hs
    unfold setHeartbeatWakeHandler
    dsimp only
    split_ifs with hnext hsize
    · exact fun _ _ _ => rfl
    · exact fun _ _ hp => absurd hp hsize
    · exact fun hp _ _ => absurd hp hnext
  | dispose k =>
    obtain ⟨d, _, rfl⟩ := map_eq_some_iff.mp hs
    unfold dispose
    split_ifs
    · exact h
    · exact fun hp _ _ => absurd hp Bool.false_ne_true
  | fire now =>
    obtain ⟨timer, _, hfire⟩ := bind_eq_some_iff.mp hs
    split_ifs at hfire
    have hfired := fireTimer_fired s now timer
    rw [Option.some.inj hfire] at hfired
    cases hfired with
    | unregistered hhandler => exact fun hp _ _ => by simp [hhandler] at hp
    | busy => exact fun _ _ _ => rfl
    | nothing => exact fun _ _ hp => absurd hp (Nat.lt_irrefl 0)
    | start => exact fun _ hruns _ => by simp at hruns
  | settle k result now =>
    obtain ⟨run, hrun, rfl⟩ := map_eq_some_iff.mp hs
    obtain ⟨pending, requested, timer, heq⟩ := retryWake_eq s run.current now result
    simp only [settleWake, heq]
    split
    · intro _ hruns _
      simp only [invoke, set_eq_nil_iff] at hruns
      rw [hruns] at hrun
      cases hrun
    · exact finishBatch_armed _ _ _
  | fail k now =>
    obtain ⟨run, hrun, rfl⟩ := map_eq_some_iff.mp hs
    exact finishBatch_armed _ _ _

omit [DecidableEq η] in
/-- A retry timer outlasts what else is scheduled. -/
theorem schedule_retry {timer : Timer} (ht : s.timer = some timer) (hretry : timer.kind = .retry)
    (coalesceMs : Millis) (kind : WakeTimerKind) (now : Int) :
    (schedule coalesceMs kind now s).timer = some timer := by
  simp [schedule, keepTimer, ht, hretry]

omit [DecidableEq η] in
theorem finishBatch_retry {timer : Timer} (ht : s.timer = some timer) (hretry : timer.kind = .retry)
    (delay now : Int) : (finishBatch delay now s).timer = some timer := by
  unfold finishBatch
  dsimp only
  split_ifs
  · exact schedule_retry (s := {s with running := false}) ht hretry _ _ _
  · exact ht

omit [DecidableEq η] in
theorem retryWake_retry {timer : Timer} (ht : s.timer = some timer) (hretry : timer.kind = .retry)
    (result : HeartbeatRunResult) (wake : PendingWake) (now : Int) :
    (retryWake result wake now s).timer = some timer := by
  unfold retryWake
  split_ifs
  · exact schedule_retry (s := requeue now s wake) ht hretry _ _ _
  · exact ht

theorem step_retry (hs : step e s = some s') : RetryKept e s s' := by
  intro timer ht hretry hregisters
  have hkept (h : s'.timer = some timer) : (¬ e.fires → s'.timer = some timer) ∧
      ∀ timer', s'.timer = some timer' → timer.dueAt ≤ timer'.dueAt := by
    refine ⟨fun _ => h, fun timer' ht' => ?_⟩
    rw [h] at ht'
    cases ht'
    exact Int.le_refl _
  cases e with
  | request r now =>
    cases hs
    exact hkept (schedule_retry (s := queuePendingWakeReason r.reason r.target now s) ht hretry _ _ _)
  | setHandler next now =>
    cases hs
    refine hkept ?_
    unfold setHeartbeatWakeHandler
    dsimp only
    have hnext : ¬ next.isSome = true := hregisters
    rw [if_neg hnext]
    exact ht
  | dispose k =>
    obtain ⟨d, _, rfl⟩ := map_eq_some_iff.mp hs
    refine hkept ?_
    unfold dispose
    split_ifs <;> exact ht
  | fire now =>
    obtain ⟨timer', hfirst, hfire⟩ := bind_eq_some_iff.mp hs
    rw [ht] at hfirst
    cases hfirst
    split_ifs at hfire with hdue
    have hfired := fireTimer_fired s now timer
    rw [Option.some.inj hfire] at hfired
    refine ⟨fun hfires => absurd trivial hfires, fun timer' ht' => ?_⟩
    cases hfired with
    | busy _ _ hnow =>
      cases ht'
      omega
    | _ => cases ht'
  | settle k result now =>
    obtain ⟨run, _, rfl⟩ := map_eq_some_iff.mp hs
    refine hkept ?_
    unfold settleWake
    dsimp only
    have hretried := retryWake_retry ht hretry result run.current now
    split
    · exact hretried
    · exact finishBatch_retry (s := {retryWake result run.current now s with
        runs := (retryWake result run.current now s).runs.eraseIdx k}) hretried hretry _ _
  | fail k now =>
    obtain ⟨run, _, rfl⟩ := map_eq_some_iff.mp hs
    refine hkept ?_
    obtain ⟨pending, requested, heq⟩ := foldl_requeue_eq s now run.pendingBatch
    unfold failWake
    dsimp only
    rw [heq]
    have hscheduled := schedule_retry (s := {s with pendingWakes := pending, requested := requested}) ht hretry
      (.finite DEFAULT_RETRY_MS) .retry now
    exact finishBatch_retry (s := {schedule (.finite DEFAULT_RETRY_MS) .retry now
      {s with pendingWakes := pending, requested := requested} with runs := s.runs.eraseIdx k}) hscheduled hretry _ _

end Timer

/-- **In every run whose targets have keys of their own no request is lost; a timer is
armed whenever it has to be, and a retry timer gives way to no earlier one.** -/
theorem heartbeat_wakes_kept [DecidableEq η] (events : List (Event η)) (s : State η)
    (hr : step.run events {} = some s) (hc : step.Within DistinctKey events {}) :
    Kept s ∧ TimerArmed s ∧ ∀ e s', step e s = some s' → RetryKept e s s' := by
  have hkeeps : Keeps s :=
    step.run_within_invariant (fun _ _ _ h hc hs => h.step hc hs) events keeps_empty hc hr
  have hempty : TimerArmed ({} : State η) := fun h _ _ => absurd h Bool.false_ne_true
  have harmed : TimerArmed s :=
    step.run_invariant (fun _ _ _ h hs => step_armed h hs) events hempty hr
  exact ⟨hkeeps.kept, harmed, fun e s' hs => step_retry hs⟩

/-! ### Runs -/

/-- The handler throws at the second wake of a batch, and both are pending again. -/
def thrownRun : List (Event String) :=
  [.setHandler (some "A") 0, .request {target := {agentId := some "x"}} 0,
    .request {reason := some "manual", target := {agentId := some "y"}} 10, .fire 250, .settle 0 .ran 300,
    .fail 0 400]

theorem heartbeat_wakes_kept_thrown : ∃ s, step.run thrownRun {} = some s ∧
    s.pendingWakes.values.map (fun w => (w.target.agentId, w.priority)) = [(some "x", 2), (some "y", 3)] ∧
    s.requested.length = 2 ∧ Kept s := by
  obtain ⟨s, hs, hv⟩ := map_eq_some_iff.mp (show (step.run thrownRun {}).map (fun s =>
    (s.pendingWakes.values.map (fun w => (w.target.agentId, w.priority)), s.requested.length)) =
      some ([(some "x", 2), (some "y", 3)], 2) by decide)
  rw [Prod.mk.injEq] at hv
  exact ⟨s, hs, hv.1, hv.2, (heartbeat_wakes_kept thrownRun s hs (by decide)).1⟩

/-- Two targets of one key. -/
def sharedKey : List (Event String) :=
  [.request {target := {agentId := some "a::b"}} 0, .request {target := {agentId := some "a", sessionKey := some "b::"}} 1]

/-- The wake of the first is replaced by that of the second. -/
theorem heartbeat_wake_lost : ∃ s, step.run sharedKey {} = some s ∧
    s.requested.map Prod.fst = [⟨some "a::b", none⟩, ⟨some "a", some "b::"⟩] ∧
    s.pendingWakes.values.map PendingWake.target = [⟨some "a", some "b::"⟩] ∧ s.runs.length = 0 ∧ ¬ Kept s := by
  obtain ⟨s, hs, hv⟩ := map_eq_some_iff.mp (show (step.run sharedKey {}).map (fun s =>
    (s.requested.map Prod.fst, s.pendingWakes.values.map PendingWake.target, s.runs.length)) =
      some ([⟨some "a::b", none⟩, ⟨some "a", some "b::"⟩], [⟨some "a", some "b::"⟩], 0) by decide)
  simp only [Prod.mk.injEq] at hv
  obtain ⟨hrequested, hpending, hruns⟩ := hv
  refine ⟨s, hs, hrequested, hpending, hruns, fun h => ?_⟩
  obtain ⟨p, hp, hfirst⟩ : ∃ p ∈ s.requested, p.1 = ⟨some "a::b", none⟩ :=
    List.mem_map.mp (hrequested ▸ mem_cons_self)
  rcases h p hp with ⟨w, hw, htarget, _⟩ | ⟨run, hrun, _⟩
  · have hmem := List.mem_map_of_mem (f := PendingWake.target) hw
    rw [hpending, htarget, hfirst] at hmem
    revert hmem
    decide
  · rw [length_eq_zero_iff.mp hruns] at hrun
    cases hrun

end OpenClaw.Heartbeat
