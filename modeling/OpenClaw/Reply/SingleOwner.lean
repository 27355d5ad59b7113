import OpenClaw.Reply.QueueRegistry

/-! Who owns the follow-up queue of a key.

A drain keeps its queue while it waits, and removes the entry of the key when it is over,
whatever queue stands there by then. Where no call makes a queue while a drain of an
earlier one is under way, there is one drain at a time, what it removes is its own, and a
queue with items in it is in the registry and has a callback to drain it with. -/
namespace OpenClaw.Reply
open Foundation List

variable {φ : Type*}

/-- A key has one owner: one run at a time, a finally block removes what is its own, and a
queue that holds items is registered and has a drain or a callback. -/
structure OneOwner (s : QueueRegistry φ) : Prop where
  single : (s.drains.filter fun d => d.2.point.isRun).length ≤ 1
  own : ∀ r ∈ s.removals, r.entry = some r.own ∨ r.entry = none ∧ r.callback = false
  held : ∀ i q, s.queues[i]? = some q → q.items ≠ [] → s.entry = some i
  served : ∀ i q, s.queues[i]? = some q → q.items ≠ [] →
    (∃ d, (i, d) ∈ s.drains) ∨ s.callback.isSome = true

/-- The call makes no queue while a drain is under way, nor leaves items with no callback
to drain them; the queue is not cleared without its callback under a drain. -/
def QueueEvent.Orderly : QueueEvent φ → QueueRegistry φ → Prop
  | .enqueue e, s => (s.entry = none → s.drains = []) ∧
      (s.takes e = true → e.runFollowup.isSome = true ∨ s.callback.isSome = true)
  | .clearFollowupQueue, s => s.entry = none ∨ s.drains = []
  | _, _ => True

instance (e : QueueEvent φ) (s : QueueRegistry φ) : Decidable (e.Orderly s) :=
  match e with
  | .enqueue e => by
    have : Decidable (s.drains = []) := decidable_of_iff (s.drains.isEmpty = true) List.isEmpty_iff
    unfold QueueEvent.Orderly
    infer_instance
  | .clearFollowupQueue => by
    have : Decidable (s.drains = []) := decidable_of_iff (s.drains.isEmpty = true) List.isEmpty_iff
    unfold QueueEvent.Orderly
    infer_instance
  | .schedule _ | .refresh _ | .clearSessionQueues | .resume _ | .reject _ => .isTrue trivial

/-! ### What a turn leaves of the queue -/

def Turn.queue : Turn φ → FollowupQueueState
  | .waits q _ _ => q
  | .finished q => q

/-- A queue as an earlier one with items taken off. -/
structure Shrunk (q q' : FollowupQueueState) : Prop where
  draining : q'.draining = q.draining
  pending : ¬q.pending → ¬q'.pending

theorem not_pending {q : FollowupQueueState} : ¬q.pending ↔ q.items = [] ∧ q.droppedCount = 0 := by
  simp [QueueState.pending]

variable (routable : String → Bool) (q : FollowupQueueState)

theorem Shrunk.refl : Shrunk q q := ⟨rfl, id⟩

theorem shrunk_shiftItems (n : Nat) : Shrunk q (shiftItems q n) := by
  refine ⟨rfl, fun h => ?_⟩
  rw [not_pending] at h ⊢
  exact ⟨by simp [shiftItems, h.1], h.2⟩

theorem shrunk_clearSummary {q q' : FollowupQueueState} (h : Shrunk q q') : Shrunk q (clearSummary q') := by
  refine ⟨h.draining, fun hq => ?_⟩
  have hq' := not_pending.mp (h.pending hq)
  exact not_pending.mpr ⟨hq'.1, rfl⟩

theorem Turn.queue_loop (d : Drain φ) : (Turn.loop q d).queue = q := by
  rw [loop]
  split <;> rfl

theorem Turn.queue_collectTurn (d : Drain φ) :
    (Turn.collectTurn routable q d).queue = q := by
  rw [collectTurn]
  dsimp only
  split
  · split <;> rfl
  · rfl

theorem Turn.queue_collectBatch (d : Drain φ) : (Turn.collectBatch q d).queue = q := by
  rw [collectBatch]
  dsimp only
  split <;> rfl

theorem Turn.queue_itemTurn (d : Drain φ) : (Turn.itemTurn q d).queue = q := by
  rw [itemTurn]
  split
  · split
    · rfl
    · split <;> rfl
  · split <;> rfl

theorem takeTurn_shrunk (d : Drain φ) :
    Shrunk q (takeTurn routable q d).queue := by
  rw [takeTurn]
  cases d.point with
  | debounce =>
    dsimp only
    split
    · rw [Turn.queue_collectTurn]
      exact Shrunk.refl q
    · rw [Turn.queue_itemTurn]
      exact Shrunk.refl q
  | collectResult result =>
    cases result with
    | drained =>
      dsimp only
      rw [Turn.queue_loop]
      exact Shrunk.refl q
    | empty => exact Shrunk.refl q
    | skipped =>
      dsimp only
      rw [Turn.queue_collectBatch]
      exact Shrunk.refl q
  | batchRun count _ =>
    dsimp only
    rw [Turn.queue_loop]
    split
    · exact shrunk_clearSummary (shrunk_shiftItems q count)
    · exact shrunk_shiftItems q count
  | summaryResult _ ok =>
    cases ok with
    | true =>
      dsimp only
      rw [Turn.queue_loop]
      exact shrunk_clearSummary (Shrunk.refl q)
    | false => exact Shrunk.refl q
  | itemResult ok =>
    cases ok with
    | true =>
      dsimp only
      rw [Turn.queue_loop]
      exact Shrunk.refl q
    | false => exact Shrunk.refl q
  | _ => exact shrunk_shiftItems q 1

/-! ### What scheduling does -/

/-- Scheduling does nothing, begins a drain of the registered queue, or removes it empty. -/
theorem scheduleFollowupDrain_cases (cb : φ) (s : QueueRegistry φ) :
    s.scheduleFollowupDrain cb = s ∨
      ∃ i q effective, s.entry = some i ∧ s.queues[i]? = some q ∧ q.draining = false ∧
        (q.pending ∧ s.scheduleFollowupDrain cb =
            {({s with callback := some effective} : QueueRegistry φ).setQueue i {q with draining := true} with
              drains := s.drains ++ [(i, ⟨effective, false, .debounce⟩)]} ∨
          ¬q.pending ∧ s.scheduleFollowupDrain cb =
            ({s with callback := some effective} : QueueRegistry φ).remove i) := by
  cases hentry : s.entry with
  | none => exact .inl (by simp [QueueRegistry.scheduleFollowupDrain, hentry])
  | some i =>
    cases hq : s.queues[i]? with
    | none => exact .inl (by simp [QueueRegistry.scheduleFollowupDrain, hentry, hq])
    | some q =>
      cases hdraining : q.draining with
      | true => exact .inl (by simp [QueueRegistry.scheduleFollowupDrain, hentry, hq, hdraining])
      | false =>
        refine .inr ⟨i, q, s.callback.getD cb, rfl, hq, hdraining, ?_⟩
        by_cases hpending : q.pending
        · exact .inl ⟨hpending, by simp [QueueRegistry.scheduleFollowupDrain, hentry, hq, hdraining, hpending]⟩
        · exact .inr ⟨hpending, by simp [QueueRegistry.scheduleFollowupDrain, hentry, hq, hdraining, hpending]⟩

/-! ### The invariant -/

/-- One drain at a time; the drain of the registered queue has a callback stored, and one
whose queue is not registered finds nothing under the key. -/
structure Owned (s : QueueRegistry φ) : Prop where
  drains_le : s.drains.length ≤ 1
  drain_lt : ∀ d ∈ s.drains, d.1 < s.queues.length
  entry_lt : ∀ i, s.entry = some i → i < s.queues.length
  draining : ∀ i q, s.entry = some i → s.queues[i]? = some q →
    (q.draining = true ↔ ∃ d ∈ s.drains, d.1 = i)
  detached : ∀ d ∈ s.drains, s.entry ≠ some d.1 → s.entry = none ∧ s.callback = none
  attached : ∀ d ∈ s.drains, s.entry = some d.1 → s.callback.isSome = true
  empty : ∀ i q, s.queues[i]? = some q → s.entry ≠ some i → ¬q.pending
  served : ∀ i q, s.entry = some i → s.queues[i]? = some q → q.items ≠ [] → s.callback.isSome = true
  own : ∀ r ∈ s.removals, r.entry = some r.own ∨ r.entry = none ∧ r.callback = false

namespace Owned
variable {s : QueueRegistry φ}

theorem oneOwner (h : Owned s) : OneOwner s := by
  refine ⟨Nat.le_trans (length_filter_le _ _) h.drains_le, h.own, ?_, ?_⟩
  · intro i q hq hitems
    by_contra hentry
    exact h.empty i q hq hentry (.inl hitems)
  · intro i q hq hitems
    by_cases hentry : s.entry = some i
    · exact .inr (h.served i q hentry hq hitems)
    · exact absurd (.inl hitems) (h.empty i q hq hentry)

/-- With a queue registered that no drain works on, there is no drain. -/
theorem drains_nil (h : Owned s) {i : Nat} {q : FollowupQueueState} (hentry : s.entry = some i)
    (hq : s.queues[i]? = some q) (hidle : q.draining = false) : s.drains = [] := by
  rw [eq_nil_iff_forall_not_mem]
  intro d hd
  by_cases hown : s.entry = some d.1
  · have hi : d.1 = i := Option.some.inj (hown.symm.trans hentry)
    have := (h.draining i q hentry hq).mpr ⟨d, hd, hi⟩
    simp [hidle] at this
  · have := (h.detached d hd hown).1
    simp [hentry] at this

theorem empty_registry : Owned ({} : QueueRegistry φ) where
  drains_le := by simp
  drain_lt := by simp
  entry_lt := by simp
  draining := by simp
  detached := by simp
  attached := by simp
  empty := by simp
  served := by simp
  own := by simp

section
variable (h : Owned s)
include h

/-- A queue changed where its drain is not, and items added only where it is registered
and has a callback. -/
theorem setQueue {i : Nat} {q : FollowupQueueState} (hq : s.queues[i]? = some q) (q' : FollowupQueueState)
    (hdraining : q'.draining = q.draining) (hpending : s.entry ≠ some i → ¬q.pending → ¬q'.pending)
    (hserved : s.entry = some i → q'.items ≠ [] → s.callback.isSome = true) : Owned (s.setQueue i q') := by
  have hi : i < s.queues.length := (List.getElem?_eq_some_iff.mp hq).1
  have hget : ∀ j, (s.setQueue i q').queues[j]? = if i = j then some q' else s.queues[j]? := by
    intro j
    simp only [QueueRegistry.setQueue, getElem?_set, hi, if_true]
  refine ⟨h.drains_le, ?_, ?_, ?_, h.detached, h.attached, ?_, ?_, h.own⟩
  · intro d hd
    simpa [QueueRegistry.setQueue] using h.drain_lt d hd
  · intro j hj
    simpa [QueueRegistry.setQueue] using h.entry_lt j hj
  · intro j r hentry hr
    rw [hget] at hr
    split at hr <;> rename_i hij
    · subst hij
      cases hr
      rw [hdraining]
      exact h.draining i q hentry hq
    · exact h.draining j r hentry hr
  · intro j r hr hentry
    rw [hget] at hr
    split at hr <;> rename_i hij
    · subst hij
      cases hr
      exact hpending hentry (h.empty i q hq hentry)
    · exact h.empty j r hr hentry
  · intro j r hentry hr hitems
    rw [hget] at hr
    split at hr <;> rename_i hij
    · subst hij
      cases hr
      exact hserved hentry hitems
    · exact h.served j r hentry hr hitems

/-- The entry and the callback removed, with no drain left: whatever was registered is empty. -/
theorem remove (own : Nat) (hdrains : s.drains = [])
    (hown : s.entry = some own ∨ s.entry = none ∧ s.callback.isSome = false)
    (hempty : ∀ i q, s.entry = some i → s.queues[i]? = some q → ¬q.pending) : Owned (s.remove own) where
  drains_le := h.drains_le
  drain_lt := h.drain_lt
  entry_lt := by simp [QueueRegistry.remove]
  draining := by simp [QueueRegistry.remove]
  detached := by simp [QueueRegistry.remove, hdrains]
  attached := by simp [QueueRegistry.remove, hdrains]
  empty := by
    intro i q hq _
    by_cases hentry : s.entry = some i
    · exact hempty i q hentry hq
    · exact h.empty i q hq hentry
  served := by simp [QueueRegistry.remove]
  own := by
    intro r hr
    rcases mem_append.mp hr with hr | hr
    · exact h.own r hr
    · obtain rfl := mem_singleton.mp hr
      exact hown

/-- A drain begins on the registered queue. -/
theorem begin {i : Nat} (hentry : s.entry = some i) (q : FollowupQueueState) (cb : φ) (d : Drain φ) :
    Owned {({s with callback := some cb} : QueueRegistry φ).setQueue i {q with draining := true} with
      drains := [(i, d)]} := by
  have hi : i < s.queues.length := h.entry_lt i hentry
  have hget : ∀ j, (s.queues.set i {q with draining := true})[j]? =
      if i = j then some {q with draining := true} else s.queues[j]? := by
    intro j
    simp only [getElem?_set, hi, if_true]
  refine ⟨by simp, ?_, ?_, ?_, ?_, ?_, ?_, ?_, h.own⟩
  · intro d' hd'
    obtain rfl := mem_singleton.mp hd'
    simpa [QueueRegistry.setQueue] using hi
  · intro j hj
    simpa [QueueRegistry.setQueue] using h.entry_lt j hj
  · intro j r hj hr
    obtain rfl : i = j := Option.some.inj (hentry.symm.trans hj)
    rw [QueueRegistry.setQueue, hget, if_pos rfl] at hr
    cases hr
    simp
  · intro d' hd' hne
    obtain rfl := mem_singleton.mp hd'
    exact absurd hentry hne
  · intro _ _ _
    rfl
  · intro j r hr hne
    rw [QueueRegistry.setQueue, hget] at hr
    split at hr <;> rename_i hij
    · exact absurd (hij ▸ hentry) hne
    · exact h.empty j r hr hne
  · intro _ _ _ _ _
    rfl

theorem scheduleFollowupDrain (cb : φ) : Owned (s.scheduleFollowupDrain cb) := by
  rcases scheduleFollowupDrain_cases cb s with hsame | ⟨i, q, effective, hentry, hq, hdraining, hnext⟩
  · rw [hsame]
    exact h
  · have hdrains := h.drains_nil hentry hq hdraining
    rcases hnext with ⟨_, hnext⟩ | ⟨hpending, hnext⟩
    · rw [hnext, hdrains]
      exact h.begin hentry q _ _
    · have hstored : Owned {s with callback := some effective} :=
        ⟨h.drains_le, h.drain_lt, h.entry_lt, h.draining, by simp [hdrains], by simp [hdrains], h.empty,
          by simp, h.own⟩
      rw [hnext]
      apply hstored.remove i hdrains (.inl hentry)
      intro j r hj hr
      obtain rfl : i = j := Option.some.inj (hentry.symm.trans hj)
      obtain rfl : q = r := Option.some.inj (hq.symm.trans hr)
      exact hpending

/-- The one drain there is. -/
theorem drains_eq {n : Nat} {d : Nat × Drain φ} (hn : s.drains[n]? = some d) :
    n = 0 ∧ s.drains = [d] := by
  have hle := h.drains_le
  match hs : s.drains with
  | [] => simp [hs] at hn
  | [d'] =>
    rw [hs] at hn
    cases n with
    | zero => simpa using hn
    | succ n => simp at hn
  | _ :: _ :: _ => simp [hs] at hle

theorem drainFinally {n i : Nat} {d : Drain φ} (hn : s.drains[n]? = some (i, d)) {q q' : FollowupQueueState}
    (hq : s.queues[i]? = some q) (hshrunk : Shrunk q q') :
    Owned (s.drainFinally n i q' d) := by
  obtain ⟨rfl, hdrains⟩ := h.drains_eq hn
  have hmem : (i, d) ∈ s.drains := by simp [hdrains]
  have hi := h.drain_lt _ hmem
  have hget : ∀ j, (s.queues.set i {q' with draining := false})[j]? =
      if i = j then some {q' with draining := false} else s.queues[j]? := by
    intro j
    simp only [getElem?_set, hi, if_true]
  have hidle : Owned {s.setQueue i {q' with draining := false} with drains := []} := by
    refine ⟨by simp, by simp, ?_, ?_, by simp, by simp, ?_, ?_, h.own⟩
    · intro j hj
      simpa [QueueRegistry.setQueue] using h.entry_lt j hj
    · intro j r hj hr
      rw [QueueRegistry.setQueue, hget] at hr
      split at hr <;> rename_i hij
      · cases hr
        simp
      · have := h.draining j r hj hr
        simpa [hdrains, hij] using this
    · intro j r hr hne
      rw [QueueRegistry.setQueue, hget] at hr
      split at hr <;> rename_i hij
      · subst hij
        cases hr
        exact hshrunk.pending (h.empty i q hq hne)
      · exact h.empty j r hr hne
    · intro j r hj hr hitems
      rw [QueueRegistry.setQueue, hget] at hr
      split at hr <;> rename_i hij
      · exact h.attached _ hmem (hij ▸ hj)
      · exact h.served j r hj hr hitems
  rw [QueueRegistry.drainFinally, hdrains]
  dsimp only [eraseIdx_zero, tail_cons]
  split
  · exact hidle.scheduleFollowupDrain d.runFollowup
  · rename_i hpending
    apply hidle.remove i rfl
    · by_cases hentry : s.entry = some i
      · exact .inl hentry
      · obtain ⟨hnone, hcallback⟩ := h.detached _ hmem hentry
        exact .inr ⟨hnone, by simp [QueueRegistry.setQueue, hcallback]⟩
    · intro j r hj hr
      rw [QueueRegistry.setQueue, hget] at hr
      split at hr <;> rename_i hij
      · cases hr
        exact hpending
      · -- The registered queue is another one only where nothing is registered.
        have hentry : s.entry = some j := hj
        have hne : s.entry ≠ some i := fun he => hij (Option.some.inj (he.symm.trans hentry))
        have := (h.detached _ hmem hne).1
        simp [hentry] at this

theorem resumeDrain {n i : Nat} {d : Drain φ} (hn : s.drains[n]? = some (i, d)) {q : FollowupQueueState}
    (hq : s.queues[i]? = some q) :
    Owned (s.resumeDrain routable n i q d) := by
  have hshrunk := takeTurn_shrunk routable q d
  rw [QueueRegistry.resumeDrain]
  cases hturn : takeTurn routable q d with
  | finished q' =>
    rw [hturn] at hshrunk
    exact h.drainFinally hn hq hshrunk
  | waits q' d' call =>
    rw [hturn] at hshrunk
    obtain ⟨rfl, hdrains⟩ := h.drains_eq hn
    have hmem : (i, d) ∈ s.drains := by simp [hdrains]
    have hset := h.setQueue hq q' hshrunk.draining (fun _ => hshrunk.pending) fun hentry _ => h.attached _ hmem hentry
    have hone : ∀ P : Nat → Prop, (∀ e ∈ s.drains, P e.1) → ∀ e ∈ s.drains.set 0 (i, d'), P e.1 := by
      intro P hP e he
      rw [hdrains, set_cons_zero, mem_singleton] at he
      rw [he]
      exact hP (i, d) hmem
    refine ⟨?_, hone (· < _) hset.drain_lt, hset.entry_lt, ?_,
      hone (fun j => s.entry ≠ some j → s.entry = none ∧ s.callback = none) hset.detached,
      hone (fun j => s.entry = some j → s.callback.isSome = true) hset.attached, hset.empty, hset.served,
      hset.own⟩
    · simpa using h.drains_le
    · intro j r hj hr
      rw [hset.draining j r hj hr]
      simp [QueueRegistry.setQueue, hdrains]

/-- A callback stored, where a queue is registered. -/
theorem storeCallback (hentry : s.entry ≠ none) {callback : Option φ}
    (hcallback : s.callback.isSome = true → callback.isSome = true) : Owned {s with callback := callback} where
  drains_le := h.drains_le
  drain_lt := h.drain_lt
  entry_lt := h.entry_lt
  draining := h.draining
  detached := fun d hd hne => absurd (h.detached d hd hne).1 hentry
  attached := fun d hd he => hcallback (h.attached d hd he)
  empty := h.empty
  served := fun i q he hq hitems => hcallback (h.served i q he hq hitems)
  own := h.own

theorem counted (n : Nat) : Owned {s with accepted := n} :=
  ⟨h.drains_le, h.drain_lt, h.entry_lt, h.draining, h.detached, h.attached, h.empty, h.served, h.own⟩

/-- The queue a call finds or makes. -/
theorem openQueue (hdrains : s.entry = none → s.drains = []) (settings : QueueSettings) :
    ∃ i s', s.openQueue settings = (i, getFollowupQueue settings (s.entry.bind fun i => s.queues[i]?), s') ∧
      Owned s' ∧ s'.entry = some i ∧
      s'.queues[i]? = some (getFollowupQueue settings (s.entry.bind fun i => s.queues[i]?)) ∧
      s'.callback = s.callback := by
  cases hentry : s.entry with
  | some i =>
    have hi := h.entry_lt i hentry
    obtain ⟨q, hq⟩ : ∃ q, s.queues[i]? = some q := ⟨_, getElem?_eq_getElem hi⟩
    refine ⟨i, s.setQueue i (getFollowupQueue settings (some q)), ?_, ?_, hentry, ?_, rfl⟩
    · simp [QueueRegistry.openQueue, hentry, hq]
    · refine h.setQueue hq _ ?_ (fun hne => absurd hentry hne) ?_
      · rfl
      · intro _ hitems
        exact h.served i q hentry hq hitems
    · simp only [QueueRegistry.setQueue, getElem?_set_self hi, hq, Option.bind_some]
  | none =>
    have hnone := hdrains hentry
    refine ⟨s.queues.length,
      {s with queues := s.queues ++ [getFollowupQueue settings none], entry := some s.queues.length},
      by simp [QueueRegistry.openQueue, hentry], ?_, rfl, by simp, rfl⟩
    have hget : ∀ j r, (s.queues ++ [getFollowupQueue settings none])[j]? = some r →
        s.queues[j]? = some r ∨ j = s.queues.length ∧ r = getFollowupQueue settings none := by
      intro j r hr
      rw [getElem?_append] at hr
      split at hr
      · exact .inl hr
      · obtain ⟨hj, hr⟩ := List.getElem?_eq_some_iff.mp hr
        rw [length_singleton] at hj
        exact .inr ⟨by omega, by simpa using hr.symm⟩
    refine ⟨h.drains_le, by simp [hnone], ?_, ?_, by simp [hnone], by simp [hnone], ?_, ?_, h.own⟩
    · rintro j ⟨⟩
      simp
    · rintro j r ⟨⟩ hr
      rcases hget _ r hr with hr | ⟨_, rfl⟩
      · have := (List.getElem?_eq_some_iff.mp hr).1
        omega
      · simp [hnone, getFollowupQueue, applyQueueRuntimeSettings, newFollowupQueue]
    · intro j r hr hne
      rcases hget j r hr with hr | ⟨rfl, _⟩
      · exact h.empty j r hr (by simp [hentry])
      · exact absurd rfl hne
    · rintro j r ⟨⟩ hr hitems
      rcases hget _ r hr with hr | ⟨_, rfl⟩
      · have := (List.getElem?_eq_some_iff.mp hr).1
        omega
      · simp [getFollowupQueue, applyQueueRuntimeSettings, newFollowupQueue] at hitems

theorem kick : Owned s.kickFollowupDrainIfIdle := by
  rw [QueueRegistry.kickFollowupDrainIfIdle]
  split
  · exact h
  · exact h.scheduleFollowupDrain _

theorem enqueueFollowupRun {e : Enqueue φ} (horderly : (QueueEvent.enqueue e).Orderly s) :
    Owned (s.enqueueFollowupRun e).2 := by
  obtain ⟨hdrains, hcallback⟩ := horderly
  obtain ⟨i, s', hopen, hs', hentry, hq, hstored⟩ := h.openQueue hdrains e.settings
  rw [QueueRegistry.takes] at hcallback
  rw [QueueRegistry.enqueueFollowupRun, hopen]
  dsimp only at hcallback ⊢
  generalize getFollowupQueue e.settings (s.entry.bind fun i => s.queues[i]?) = q at hq hcallback ⊢
  cases hfresh : e.fresh (s.entry.bind fun i => s.queues[i]?) with
  | false => exact hs'
  | true =>
    generalize q.toQueueState.applyQueueDropPolicy summarizeRun = dropped at hcallback ⊢
    obtain ⟨taken, after⟩ := dropped
    cases taken with
    | false =>
      simp only [Bool.false_eq_true, if_false, if_true]
      refine hs'.setQueue hq _ ?_ (fun hne => absurd hentry hne) ?_
      · rfl
      · intro he hitems
        exact hs'.served i q he hq hitems
    | true =>
      have hsome : (e.runFollowup <|> s'.callback).isSome = true := by
        rw [hstored]
        rcases hcallback (by simp [hfresh]) with hgiven | hkept
        · cases hrun : e.runFollowup <;> simp_all
        · cases hrun : e.runFollowup <;> simp_all
      have hcb := hs'.storeCallback (by simp [hentry]) fun _ => hsome
      have hpushed := hcb.setQueue hq
        {q with
          lastRun := some e.run.run
          toQueueState := {after with items := after.items ++ [⟨s'.accepted, e.run⟩]}} rfl
        (fun hne => absurd hentry hne) fun _ _ => hsome
      simp only [if_true]
      split
      · exact (hpushed.counted _).kick
      · exact hpushed.counted _

/-- The registered queue emptied and taken out. A drain that was on it finds nothing under
the key then, unless the callback is kept. -/
theorem clear (callback : Option φ)
    (hcallback : s.drains = [] ∨ callback = none ∨ s.entry = none ∧ callback = s.callback) :
    Owned {s.clearFollowupQueue with callback := callback} := by
  have hdetached : ∀ d ∈ s.drains, s.entry ≠ none → callback = none := by
    intro d hd hentry
    rcases hcallback with hnil | hnone | ⟨hnone, _⟩
    · simp [hnil] at hd
    · exact hnone
    · exact absurd hnone hentry
  cases hentry : s.entry with
  | none =>
    have hsame : s.clearFollowupQueue = s := by simp [QueueRegistry.clearFollowupQueue, hentry]
    rw [hsame]
    refine ⟨h.drains_le, h.drain_lt, h.entry_lt, h.draining, ?_, ?_, h.empty, ?_, h.own⟩
    · intro d hd hne
      rcases hcallback with hnil | hnone | ⟨_, hsame⟩
      · simp [hnil] at hd
      · exact ⟨hentry, hnone⟩
      · exact ⟨hentry, hsame.trans (h.detached d hd hne).2⟩
    · intro d _ he
      simp [hentry] at he
    · intro i q he
      simp [hentry] at he
  | some i =>
    have hi := h.entry_lt i hentry
    obtain ⟨q, hq⟩ : ∃ q, s.queues[i]? = some q := ⟨_, getElem?_eq_getElem hi⟩
    have hcleared : s.clearFollowupQueue = {s.setQueue i (QueueRegistry.emptied q) with entry := none} := by
      simp [QueueRegistry.clearFollowupQueue, hentry, hq]
    rw [hcleared]
    refine ⟨h.drains_le, ?_, by simp, by simp, ?_, by simp, ?_, by simp, h.own⟩
    · intro d hd
      simpa [QueueRegistry.setQueue] using h.drain_lt d hd
    · intro d hd _
      exact ⟨rfl, hdetached d hd (by simp [hentry])⟩
    · intro j r hr _
      simp only [QueueRegistry.setQueue, getElem?_set, hi, if_true] at hr
      split at hr <;> rename_i hij
      · cases hr
        simp [QueueRegistry.emptied, QueueState.pending]
      · exact h.empty j r hr (by simpa [hentry] using hij)

theorem refresh (r : Refresh) {i : Nat} {q : FollowupQueueState} (hentry : s.entry = some i)
    (hq : s.queues[i]? = some q) : Owned (s.setQueue i (refreshQueuedFollowupSession r q)) := by
  refine h.setQueue hq _ ?_ (fun hne => absurd hentry hne) ?_
  · rfl
  · intro _ hitems
    exact h.served i q hentry hq fun hnil => hitems (by simp [refreshQueuedFollowupSession, hnil])

end

end Owned

/-- What an orderly step keeps. -/
theorem registryStep_owned (e : QueueEvent φ) (s t : QueueRegistry φ) (h : Owned s) (horderly : e.Orderly s)
    (hstep : registryStep routable e s = some t) : Owned t := by
  cases e with
  | enqueue call =>
    cases hstep
    exact h.enqueueFollowupRun horderly
  | schedule cb =>
    cases hstep
    exact h.scheduleFollowupDrain cb
  | refresh r =>
    simp only [registryStep] at hstep
    split at hstep
    · cases hstep
      exact h
    · rename_i i q hfound
      cases hstep
      obtain ⟨j, hentry, hget⟩ := Option.bind_eq_some_iff.mp hfound
      obtain ⟨q', hq, hpair⟩ := Option.map_eq_some_iff.mp hget
      cases hpair
      exact h.refresh r hentry hq
  | clearFollowupQueue =>
    cases hstep
    apply h.clear
    rcases horderly with hnone | hnil
    · exact .inr (.inr ⟨hnone, by simp [hnone]⟩)
    · exact .inl hnil
  | clearSessionQueues =>
    cases hstep
    exact h.clear none (.inr (.inl rfl))
  | resume n =>
    simp only [registryStep] at hstep
    split at hstep
    · cases hstep
    · rename_i i d hn
      obtain ⟨q, hq, rfl⟩ := Option.map_eq_some_iff.mp hstep
      exact h.resumeDrain routable hn hq
  | reject n =>
    simp only [registryStep] at hstep
    split at hstep
    · cases hstep
    · rename_i i d hn
      split at hstep
      · obtain ⟨q, hq, rfl⟩ := Option.map_eq_some_iff.mp hstep
        exact h.drainFinally hn hq (Shrunk.refl q)
      · cases hstep

/-- In every run of orderly steps, the key has one owner in every state reached. -/
theorem followup_key_has_one_owner (routable : String → Bool) {events : List (QueueEvent φ)} {s : QueueRegistry φ}
    (hc : (registryStep routable).Within QueueEvent.Orderly events {})
    (hr : (registryStep routable).run events {} = some s) : OneOwner s := by
  have h := Machine.run_within_invariant (registryStep routable) (registryStep_owned routable) events
    Owned.empty_registry hc hr
  exact h.oneOwner

/-! ### Runs -/

/-- A call for a prompt, with a callback. -/
def enqueueWith (prompt : String) : QueueEvent Unit :=
  .enqueue {run := {prompt := prompt, run := plainOptions}, settings := {mode := .followup}, runFollowup := some ()}

/-- The session is cleared while the drain waits for a run, and a call comes once that
drain is over. -/
def clearedRun : List (QueueEvent Unit) :=
  [enqueueWith "a", .resume 0, .clearSessionQueues, .resume 0, .resume 0, enqueueWith "b", .resume 0]

theorem followup_key_has_one_owner_cleared :
    ∃ s, (registryStep fun _ => true).run clearedRun {} = some s ∧ s.calls.length = 2 ∧ OneOwner s := by
  have hrun : ((registryStep fun _ => true).run clearedRun {}).any (fun s => s.calls.length = 2) = true := by
    decide
  obtain ⟨s, hs, hv⟩ := (Option.any_eq_true _ _).mp hrun
  exact ⟨s, hs, of_decide_eq_true hv, followup_key_has_one_owner (fun _ => true) (by decide) hs⟩

/-- The call comes while the drain of the cleared queue still waits for its run. -/
def twoDrainsRun : List (QueueEvent Unit) :=
  [enqueueWith "a", .resume 0, .clearSessionQueues, enqueueWith "b", .resume 1]

/-- Two drains of the key wait for a run, and when the first is over, the queue that holds
the item of the second is out of the registry. -/
theorem cleared_drain_takes_queue :
    (∃ s, (registryStep fun _ => true).run twoDrainsRun {} = some s ∧
      (s.drains.filter fun d => d.2.point.isRun).length = 2) ∧
    ∃ s, (registryStep fun _ => true).run (twoDrainsRun ++ [.resume 0, .resume 0]) {} = some s ∧
      (s.queues[1]?.any fun q => q.items ≠ []) = true ∧ s.entry = none ∧ s.callback = none ∧
      s.removals = [⟨0, some 1, true⟩] ∧ ¬OneOwner s := by
  refine ⟨?_, ?_⟩
  · have hrun : ((registryStep fun _ => true).run twoDrainsRun {}).any
        (fun s => (s.drains.filter fun d => d.2.point.isRun).length = 2) = true := by decide
    obtain ⟨s, hs, hv⟩ := (Option.any_eq_true _ _).mp hrun
    exact ⟨s, hs, of_decide_eq_true hv⟩
  · have hrun : ((registryStep fun _ => true).run (twoDrainsRun ++ [.resume 0, .resume 0]) {}).any
        (fun s => (s.queues[1]?.any fun q => q.items ≠ []) = true ∧ s.entry = none ∧ s.callback = none ∧
          s.removals = [⟨0, some 1, true⟩]) = true := by decide
    obtain ⟨s, hs, hv⟩ := (Option.any_eq_true _ _).mp hrun
    obtain ⟨hitems, hentry, hcallback, hremovals⟩ := of_decide_eq_true hv
    refine ⟨s, hs, hitems, hentry, hcallback, hremovals, fun hone => ?_⟩
    rcases hone.own ⟨0, some 1, true⟩ (by simp [hremovals]) with h | ⟨h, _⟩ <;> cases h

end OpenClaw.Reply
