import OpenClaw.Acp.KeyedAsyncQueue

/-! Tasks of one key run one after the other.

`Advance` is what a turn does to a task: one stage further on, and from `waiting` only
behind a tail that has settled. `Serialised` says that whoever has started has every
earlier task of its key behind it, that a task waits for the last of those still ahead of
it, and that a key has the tail of its newest task until that one is cleaned up. -/
namespace OpenClaw.Acp
open Foundation KeyedAsyncQueue List InsertionMap Option

section Queue
variable {ρ ε σ : Type*} {hooks : KeyedAsyncQueueHooks σ} {q q' : KeyedAsyncQueue ρ ε σ}

def Stage.started : Stage ρ ε → Bool
  | .waiting => false
  | _ => true

def Stage.isCleaned : Stage ρ ε → Bool
  | .cleaned _ => true
  | _ => false

theorem Stage.started_of_tail {stage : Stage ρ ε} (h : stage.tail?.isSome = true) : stage.started = true := by
  cases stage <;> first | rfl | cases h

/-- A tail never rejects. -/
theorem Stage.tail?_eq {stage : Stage ρ ε} {settlement : Settlement Unit ε} (h : stage.tail? = some settlement) :
    settlement = .fulfilled () := by
  cases stage <;> simp only [Stage.tail?, reduceCtorEq, Option.some.injEq] at h
  all_goals
    rename_i outcome
    subst h
    cases outcome <;> rfl

theorem previousSettlement_eq {task : KeyedTask ρ ε} {settlement : Settlement Unit ε}
    (h : q.previousSettlement task = some settlement) : settlement = .fulfilled () := by
  unfold previousSettlement at h
  split at h
  · cases h
    rfl
  · obtain ⟨previous, -, htail⟩ := bind_eq_some_iff.mp h
    exact Stage.tail?_eq htail

/-! ### What a turn does -/

/-- One stage further on. -/
inductive Advance (q : KeyedAsyncQueue ρ ε σ) (task : KeyedTask ρ ε) : KeyedTask ρ ε → Prop where
  | start (hstage : task.stage = .waiting) (hfree : (q.previousSettlement task).isSome) :
    Advance q task {task with stage := .running}
  | done (hstage : task.stage = .running) (outcome : Settlement ρ ε) :
    Advance q task {task with stage := .done outcome, own := some outcome}
  | hook (outcome : Settlement ρ ε) (hstage : task.stage = .done outcome) :
    Advance q task {task with stage := .hooked outcome}
  | settle (outcome : Settlement ρ ε) (hstage : task.stage = .hooked outcome) :
    Advance q task {task with stage := .settled outcome}
  | tail (outcome : Settlement ρ ε) (hstage : task.stage = .settled outcome) :
    Advance q task {task with stage := .tailSettled outcome}
  | clean (outcome : Settlement ρ ε) (hstage : task.stage = .tailSettled outcome) :
    Advance q task {task with stage := .cleaned outcome}

theorem Advance.key {task task' : KeyedTask ρ ε} (h : Advance q task task') : task'.key = task.key := by
  cases h <;> rfl

theorem Advance.previous {task task' : KeyedTask ρ ε} (h : Advance q task task') :
    task'.previous = task.previous := by
  cases h <;> rfl

/-- The queue after one of its tasks has gone on. -/
structure Moved (hooks : KeyedAsyncQueueHooks σ) (q q' : KeyedAsyncQueue ρ ε σ) (i : Nat)
    (task task' : KeyedTask ρ ε) : Prop where
  advance : Advance q task task'
  tasks : q'.tasks = q.tasks.set i task'
  tails : q'.tails = if task'.stage.isCleaned then q.removeTail i task.key else q.tails
  hookState : q'.hookState = if task.stage.isPending && !task'.stage.isPending then
    hooks.onSettle task.key q.hookState else q.hookState

theorem startTask_moved {i : Nat} {task : KeyedTask ρ ε} (h : q.startTask i task = some q') :
    ∃ task', Moved hooks q q' i task task' := by
  unfold startTask at h
  cases hprevious : q.previousSettlement task with
  | none => simp [hprevious] at h
  | some settlement =>
    rw [hprevious, previousSettlement_eq hprevious] at h
    cases hstage : task.stage <;> simp only [hstage, map_some, Settlement.caught, reduceCtorEq] at h
    cases h
    refine ⟨_, .start hstage (by rw [hprevious]; rfl), rfl, rfl, ?_⟩
    simp [hstage, setTask, Stage.isPending]

theorem react_moved {e : QueueEvent ρ ε} {i : Nat} {task : KeyedTask ρ ε} (he : e.task? = some i)
    (h : q.react hooks task e = some q') : ∃ task', Moved hooks q q' i task task' := by
  cases e with
  | enqueue key => cases he
  | start j =>
    cases he
    exact startTask_moved h
  | settleTask j outcome =>
    cases he
    simp only [react] at h
    split at h
    · rename_i hstage
      cases h
      exact ⟨_, .done hstage outcome, rfl, rfl, by simp [hstage, setTask, Stage.isPending]⟩
    · cases h
  | onSettle j =>
    cases he
    simp only [react] at h
    split at h
    · rename_i hstage
      cases h
      exact ⟨_, .hook _ hstage, rfl, rfl, by simp [hstage, Stage.isPending]⟩
    · cases h
  | settleCurrent j =>
    cases he
    simp only [react] at h
    split at h
    · rename_i hstage
      cases h
      exact ⟨_, .settle _ hstage, rfl, rfl, by simp [hstage, setTask, Stage.isPending]⟩
    · cases h
  | settleTail j =>
    cases he
    simp only [react] at h
    split at h
    · rename_i hstage
      cases h
      exact ⟨_, .tail _ hstage, rfl, rfl, by simp [hstage, setTask, Stage.isPending]⟩
    · cases h
  | cleanUp j =>
    cases he
    simp only [react] at h
    split at h
    · rename_i hstage
      cases h
      exact ⟨_, .clean _ hstage, rfl, rfl, by simp [hstage, setTask, Stage.isPending]⟩
    · cases h

/-- What a step does: a new task, or one task goes on. -/
theorem queueStep_cases {e : QueueEvent ρ ε} (h : queueStep hooks e q = some q') :
    (∃ key, q' = q.enqueueKeyedTask hooks key) ∨
      ∃ i task task', q.tasks[i]? = some task ∧ Moved hooks q q' i task task' := by
  cases e with
  | enqueue key =>
    cases h
    exact .inl ⟨key, rfl⟩
  | start | settleTask | onSettle | settleCurrent | settleTail | cleanUp =>
    right
    simp only [queueStep, QueueEvent.task?, bind_some, bind_eq_some_iff] at h
    obtain ⟨task, htask, h⟩ := h
    obtain ⟨task', hmoved⟩ := react_moved rfl h
    exact ⟨_, task, task', htask, hmoved⟩

/-! ### One turn after the other -/

def Stage.outcome? : Stage ρ ε → Option (Settlement ρ ε)
  | .waiting | .running => none
  | .done outcome | .hooked outcome | .settled outcome | .tailSettled outcome | .cleaned outcome => some outcome

theorem Stage.outcome?_of_returned {stage : Stage ρ ε} {outcome : Settlement ρ ε}
    (h : stage.returned? = some outcome) : stage.outcome? = some outcome := by
  cases stage <;> first | exact h | cases h

/-- No later task has the key. -/
def IsNewest (q : KeyedAsyncQueue ρ ε σ) (key : String) (i : Nat) : Prop :=
  ∀ (j : Nat) (b : KeyedTask ρ ε), i < j → q.tasks[j]? = some b → b.key ≠ key

structure Serialised (q : KeyedAsyncQueue ρ ε σ) : Prop where
  previous : ∀ (j : Nat) (b : KeyedTask ρ ε) (k : Nat), q.tasks[j]? = some b → b.previous = some k →
    k < j ∧ ∃ c, q.tasks[k]? = some c ∧ c.key = b.key
  linked : ∀ (i j : Nat) (a b : KeyedTask ρ ε), i < j → q.tasks[i]? = some a → q.tasks[j]? = some b →
    a.key = b.key → a.stage.tail? = none → ∃ k, b.previous = some k ∧ i ≤ k
  ordered : ∀ (i j : Nat) (a b : KeyedTask ρ ε), i < j → q.tasks[i]? = some a → q.tasks[j]? = some b →
    a.key = b.key → b.stage.started = true → a.stage.tail?.isSome = true
  tails : ∀ key i, q.tails.get? key = some i ↔
    ∃ a, q.tasks[i]? = some a ∧ a.key = key ∧ a.stage.isCleaned = false ∧ IsNewest q key i
  own : ∀ (i : Nat) (a : KeyedTask ρ ε) (outcome : Settlement ρ ε), q.tasks[i]? = some a →
    a.stage.outcome? = some outcome → a.own = some outcome

theorem Advance.tail_mono {task task' : KeyedTask ρ ε} (h : Advance q task task')
    (htail : task.stage.tail?.isSome = true) : task'.stage.tail?.isSome = true := by
  cases h <;> simp_all [Stage.tail?]

theorem Advance.own_of_outcome {task task' : KeyedTask ρ ε} (h : Advance q task task')
    (hown : ∀ outcome, task.stage.outcome? = some outcome → task.own = some outcome) {outcome : Settlement ρ ε}
    (houtcome : task'.stage.outcome? = some outcome) : task'.own = some outcome := by
  cases h with
  | start => cases houtcome
  | done hstage o => exact houtcome
  | hook o hstage | settle o hstage | tail o hstage | clean o hstage =>
    refine hown outcome ?_
    rw [hstage]
    exact houtcome

section Moved
variable {i : Nat} {task task' : KeyedTask ρ ε}

section
variable (h : Moved hooks q q' i task task') (htask : q.tasks[i]? = some task)
include h htask

theorem Moved.get (j : Nat) :
    q'.tasks[j]? = if j = i then some task' else q.tasks[j]? := by
  rw [h.tasks, getElem?_set]
  have hlt : i < q.tasks.length := List.getElem?_eq_some_iff.mp htask |>.1
  by_cases hj : i = j
  · simp [← hj, hlt]
  · simp [hj, Ne.symm hj]

/-- Each task was there before, with the same key and predecessor. -/
theorem Moved.origin {j : Nat} {b' : KeyedTask ρ ε} (hb : q'.tasks[j]? = some b') :
    ∃ b, q.tasks[j]? = some b ∧ b'.key = b.key ∧
      b'.previous = b.previous ∧ (b.stage.tail?.isSome = true → b'.stage.tail?.isSome = true) ∧
      (b' = b ∨ j = i ∧ b = task ∧ b' = task') := by
  rw [h.get htask] at hb
  split at hb
  · rename_i hj
    cases hb
    exact ⟨task, by rw [hj, htask], h.advance.key, h.advance.previous, h.advance.tail_mono, .inr ⟨hj, rfl, rfl⟩⟩
  · exact ⟨b', hb, rfl, rfl, id, .inl rfl⟩

theorem Moved.image {j : Nat} {b : KeyedTask ρ ε} (hb : q.tasks[j]? = some b) :
    ∃ b', q'.tasks[j]? = some b' ∧ b'.key = b.key ∧
      (b.stage.tail?.isSome = true → b'.stage.tail?.isSome = true) := by
  by_cases hj : j = i
  · subst hj
    rw [htask] at hb
    cases hb
    exact ⟨task', by rw [h.get htask, if_pos rfl], h.advance.key, h.advance.tail_mono⟩
  · exact ⟨b, by rw [h.get htask, if_neg hj, hb], rfl, id⟩

theorem Moved.newest_iff (key : String) (j : Nat) : IsNewest q' key j ↔ IsNewest q key j := by
  constructor
  · intro hnew k b hlt hb
    obtain ⟨b', hb', hkey, -⟩ := h.image htask hb
    rw [← hkey]
    exact hnew k b' hlt hb'
  · intro hnew k b' hlt hb'
    obtain ⟨b, hb, hkey, -⟩ := h.origin htask hb'
    rw [hkey]
    exact hnew k b hlt hb

end

/-- A task that starts has every earlier task of its key behind it. -/
theorem Serialised.behind (hs : Serialised q) (htask : q.tasks[i]? = some task)
    (hfree : (q.previousSettlement task).isSome = true) {j : Nat} {a : KeyedTask ρ ε} (hlt : j < i)
    (ha : q.tasks[j]? = some a) (hkey : a.key = task.key) : a.stage.tail?.isSome = true := by
  cases htail : a.stage.tail? with
  | some settlement => rfl
  | none =>
    -- The task waits for one that is not before `a`, whose tail has settled.
    obtain ⟨k, hk, hle⟩ := hs.linked j i a task hlt ha htask hkey htail
    obtain ⟨-, c, hc, hckey⟩ := hs.previous i task k htask hk
    simp only [previousSettlement, hk, hc, bind_some] at hfree
    rcases Nat.lt_or_eq_of_le hle with hlt' | rfl
    · have := hs.ordered j k a c hlt' ha hc (hkey.trans hckey.symm) (Stage.started_of_tail hfree)
      rw [htail] at this
      cases this
    · rw [ha] at hc
      cases hc
      rw [htail] at hfree
      cases hfree

theorem Advance.not_cleaned (h : Advance q task task') : task.stage.isCleaned = false := by
  cases h with
  | start hstage | done hstage | hook o hstage | settle o hstage | tail o hstage | clean o hstage => rw [hstage]; rfl

/-- The callback of a tail removes that tail only. -/
theorem removeTail_get (key key' : String) (j : Nat) :
    (q.removeTail i key).get? key' = some j ↔ q.tails.get? key' = some j ∧ ¬ (key' = key ∧ j = i) := by
  unfold removeTail
  by_cases hnewest : q.tails.get? key = some i
  · rw [if_pos hnewest, get?_erase]
    by_cases hkey : key' = key
    · subst hkey
      rw [if_pos rfl, hnewest]
      constructor
      · intro h
        cases h
      · rintro ⟨h, hne⟩
        cases h
        exact absurd ⟨rfl, rfl⟩ hne
    · rw [if_neg hkey]
      constructor
      · exact fun h => ⟨h, fun hsame => hkey hsame.1⟩
      · exact fun h => h.1
  · rw [if_neg hnewest]
    constructor
    · intro h
      refine ⟨h, ?_⟩
      rintro ⟨rfl, rfl⟩
      exact hnewest h
    · exact fun h => h.1

section
variable (hs : Serialised q) (h : Moved hooks q q' i task task') (htask : q.tasks[i]? = some task)
include hs h htask

theorem Serialised.moved_tails (key : String) (j : Nat) : q'.tails.get? key = some j ↔
      ∃ a, q'.tasks[j]? = some a ∧ a.key = key ∧ a.stage.isCleaned = false ∧ IsNewest q key j := by
  rw [h.tails, h.get htask]
  by_cases hclean : task'.stage.isCleaned = true
  · rw [if_pos hclean, removeTail_get, hs.tails]
    by_cases hj : j = i
    · subst hj
      rw [if_pos rfl]
      constructor
      · rintro ⟨⟨a, ha, hkey, -⟩, hne⟩
        rw [htask] at ha
        cases ha
        exact absurd ⟨hkey.symm, rfl⟩ hne
      · rintro ⟨a, ha, -, hnot, -⟩
        cases ha
        rw [hclean] at hnot
        cases hnot
    · rw [if_neg hj]
      constructor
      · exact fun h => h.1
      · exact fun h => ⟨h, fun hsame => hj hsame.2⟩
  · rw [if_neg hclean, hs.tails]
    by_cases hj : j = i
    · subst hj
      rw [if_pos rfl, htask]
      constructor
      · rintro ⟨a, ha, hkey, -, hnew⟩
        cases ha
        exact ⟨task', rfl, h.advance.key.trans hkey, Bool.eq_false_iff.mpr hclean, hnew⟩
      · rintro ⟨a, ha, hkey, -, hnew⟩
        cases ha
        exact ⟨task, rfl, h.advance.key.symm.trans hkey, h.advance.not_cleaned, hnew⟩
    · rw [if_neg hj]

theorem Serialised.move :
    Serialised q' where
  previous j b' k hb' hk := by
    obtain ⟨b, hb, hkey, hprevious, -⟩ := h.origin htask hb'
    obtain ⟨hlt, c, hc, hckey⟩ := hs.previous j b k hb (hprevious ▸ hk)
    obtain ⟨c', hc', hckey', -⟩ := h.image htask hc
    exact ⟨hlt, c', hc', by rw [hckey', hckey, hkey]⟩
  linked j k a' b' hlt ha' hb' hkey htail := by
    obtain ⟨a, ha, hakey, -, hmono, -⟩ := h.origin htask ha'
    obtain ⟨b, hb, hbkey, hprevious, -⟩ := h.origin htask hb'
    rw [hprevious]
    refine hs.linked j k a b hlt ha hb (by rw [← hakey, ← hbkey, hkey]) ?_
    cases hold : a.stage.tail? with
    | none => rfl
    | some settlement =>
      have := hmono (by rw [hold]; rfl)
      rw [htail] at this
      cases this
  ordered j k a' b' hlt ha' hb' hkey hstarted := by
    obtain ⟨a, ha, hakey, -, hmono, -⟩ := h.origin htask ha'
    obtain ⟨b, hb, hbkey, -, -, hsame⟩ := h.origin htask hb'
    have hkey' : a.key = b.key := by rw [← hakey, ← hbkey, hkey]
    refine hmono ?_
    cases hwas : b.stage.started with
    | true => exact hs.ordered j k a b hlt ha hb hkey' hwas
    | false =>
      obtain rfl | ⟨rfl, rfl, rfl⟩ := hsame
      · rw [hwas] at hstarted
        cases hstarted
      · cases h.advance with
        | start hstage hfree => exact hs.behind htask hfree hlt ha hkey'
        | done hstage | hook o hstage | settle o hstage | tail o hstage | clean o hstage =>
          rw [hstage] at hwas
          cases hwas
  tails key j := by
    rw [h.newest_iff htask]
    exact hs.moved_tails h htask key j
  own j b' outcome hb' houtcome := by
    obtain ⟨b, hb, -, -, -, rfl | ⟨rfl, rfl, rfl⟩⟩ := h.origin htask hb'
    · exact hs.own j b' outcome hb houtcome
    · exact h.advance.own_of_outcome (fun o => hs.own j b o hb) houtcome

end

end Moved

/-! ### A new task -/

theorem enqueue_get (key : String) (j : Nat) (b : KeyedTask ρ ε) :
    (q.enqueueKeyedTask hooks key).tasks[j]? = some b ↔
      q.tasks[j]? = some b ∨ j = q.tasks.length ∧ b = {key := key, previous := q.tails.get? key} := by
  show (q.tasks ++ [_])[j]? = some b ↔ _
  rw [getElem?_append]
  split
  · rename_i hlt
    constructor
    · exact .inl
    · rintro (h | ⟨rfl, -⟩)
      · exact h
      · omega
  · rename_i hge
    have hnone : q.tasks[j]? = none := getElem?_eq_none (by omega)
    rw [getElem?_singleton, hnone]
    constructor
    · intro h
      split at h
      · cases h
        exact .inr ⟨by omega, rfl⟩
      · cases h
    · rintro (h | ⟨rfl, rfl⟩)
      · cases h
      · rw [if_pos (by omega)]

theorem lt_length {j : Nat} {b : KeyedTask ρ ε} (h : q.tasks[j]? = some b) : j < q.tasks.length :=
  (List.getElem?_eq_some_iff.mp h).1

/-- A key with a task has a newest one. -/
theorem exists_newest (key : String) {i : Nat} {a : KeyedTask ρ ε} (ha : q.tasks[i]? = some a)
    (hkey : a.key = key) : ∃ k b, i ≤ k ∧ q.tasks[k]? = some b ∧ b.key = key ∧ IsNewest q key k := by
  -- By induction on the number of tasks after `i`.
  induction hn : q.tasks.length - i using Nat.strongRecOn generalizing i a with
  | ind n ih =>
    by_cases hnew : IsNewest q key i
    · exact ⟨i, a, Nat.le_refl i, ha, hkey, hnew⟩
    · simp only [IsNewest, not_forall, not_not] at hnew
      obtain ⟨j, b, hlt, hb, hbkey⟩ := hnew
      have hlen := lt_length hb
      obtain ⟨k, c, hle, hc⟩ := ih (q.tasks.length - j) (by omega) hb hbkey rfl
      exact ⟨k, c, by omega, hc⟩

/-- A key with a task whose tail is pending has the tail of its newest task. -/
theorem Serialised.held (hs : Serialised q) {i : Nat} {a : KeyedTask ρ ε} (ha : q.tasks[i]? = some a)
    (htail : a.stage.tail? = none) : ∃ k, i ≤ k ∧ q.tails.get? a.key = some k := by
  obtain ⟨k, b, hle, hb, hbkey, hnew⟩ := exists_newest a.key ha rfl
  refine ⟨k, hle, (hs.tails a.key k).mpr ⟨b, hb, hbkey, ?_, hnew⟩⟩
  cases hclean : b.stage.isCleaned with
  | false => rfl
  | true =>
    have htailed : b.stage.tail?.isSome = true := by
      cases hstage : b.stage <;> rw [hstage] at hclean <;> first | rfl | cases hclean
    rcases Nat.lt_or_eq_of_le hle with hlt | rfl
    · have := hs.ordered i k a b hlt ha hb hbkey.symm (Stage.started_of_tail htailed)
      rw [htail] at this
      cases this
    · rw [ha] at hb
      cases hb
      rw [htail] at htailed
      cases htailed

theorem enqueue_newest (key key' : String) (j : Nat) :
    IsNewest (q.enqueueKeyedTask hooks key) key' j ↔
      IsNewest q key' j ∧ (j < q.tasks.length → key ≠ key') := by
  constructor
  · intro hnew
    refine ⟨fun k b hlt hb => hnew k b hlt ((enqueue_get key k b).mpr (.inl hb)), fun hlt => ?_⟩
    exact hnew _ _ hlt ((enqueue_get key _ _).mpr (.inr ⟨rfl, rfl⟩))
  · rintro ⟨hnew, hne⟩ k b hlt hb
    obtain hb | ⟨rfl, rfl⟩ := (enqueue_get key k b).mp hb
    · exact hnew k b hlt hb
    · exact hne hlt

theorem Serialised.enqueue (hs : Serialised q) (key : String) : Serialised (q.enqueueKeyedTask hooks key) where
  previous j b k hb hk := by
    obtain hb | ⟨rfl, rfl⟩ := (enqueue_get key j b).mp hb
    · obtain ⟨hlt, c, hc, hckey⟩ := hs.previous j b k hb hk
      exact ⟨hlt, c, (enqueue_get key k c).mpr (.inl hc), hckey⟩
    · obtain ⟨c, hc, hckey, -⟩ := (hs.tails key k).mp hk
      exact ⟨lt_length hc, c, (enqueue_get key k c).mpr (.inl hc), hckey⟩
  linked i j a b hlt ha hb hkey htail := by
    have hlen : j ≤ q.tasks.length := by
      obtain hb | ⟨rfl, -⟩ := (enqueue_get key j b).mp hb
      · exact Nat.le_of_lt (lt_length hb)
      · exact Nat.le_refl _
    obtain ha | ⟨rfl, -⟩ := (enqueue_get key i a).mp ha
    · obtain hb | ⟨rfl, rfl⟩ := (enqueue_get key j b).mp hb
      · exact hs.linked i j a b hlt ha hb hkey htail
      · obtain ⟨k, hle, hk⟩ := hs.held ha htail
        exact ⟨k, (congrArg q.tails.get? hkey).symm.trans hk, hle⟩
    · omega
  ordered i j a b hlt ha hb hkey hstarted := by
    obtain hb | ⟨rfl, rfl⟩ := (enqueue_get key j b).mp hb
    · have := lt_length hb
      obtain ha | ⟨rfl, -⟩ := (enqueue_get key i a).mp ha
      · exact hs.ordered i j a b hlt ha hb hkey hstarted
      · omega
    · cases hstarted
  tails key' i := by
    show (q.tails.set key q.tasks.length).get? key' = some i ↔ _
    rw [get?_set]
    by_cases hkey : key' = key
    · subst hkey
      rw [if_pos rfl]
      constructor
      · intro h
        cases h
        refine ⟨_, (enqueue_get key' _ _).mpr (.inr ⟨rfl, rfl⟩), rfl, rfl, ?_⟩
        refine (enqueue_newest key' key' _).mpr ⟨fun k b hlt hb => ?_, fun h => absurd h (by omega)⟩
        have := lt_length hb
        omega
      · rintro ⟨a, ha, -, -, hnew⟩
        obtain ha | ⟨rfl, -⟩ := (enqueue_get key' i a).mp ha
        · exact absurd rfl (((enqueue_newest key' key' i).mp hnew).2 (lt_length ha))
        · rfl
    · rw [if_neg hkey, hs.tails]
      constructor
      · rintro ⟨a, ha, hakey, hnot, hnew⟩
        exact ⟨a, (enqueue_get key i a).mpr (.inl ha), hakey, hnot,
          (enqueue_newest key key' i).mpr ⟨hnew, fun _ => Ne.symm hkey⟩⟩
      · rintro ⟨a, ha, hakey, hnot, hnew⟩
        obtain ha | ⟨rfl, rfl⟩ := (enqueue_get key i a).mp ha
        · exact ⟨a, ha, hakey, hnot, ((enqueue_newest key key' i).mp hnew).1⟩
        · exact absurd hakey.symm hkey
  own i a outcome ha houtcome := by
    obtain ha | ⟨rfl, rfl⟩ := (enqueue_get key i a).mp ha
    · exact hs.own i a outcome ha houtcome
    · cases houtcome

theorem Serialised.step (e : QueueEvent ρ ε) (hs : Serialised q) (h : queueStep hooks e q = some q') :
    Serialised q' := by
  obtain ⟨key, rfl⟩ | ⟨i, task, task', htask, hmoved⟩ := queueStep_cases h
  · exact hs.enqueue key
  · exact hs.move hmoved htask

theorem Serialised.empty (hookState : σ) : Serialised ({hookState := hookState} : KeyedAsyncQueue ρ ε σ) where
  previous j b k hb := by cases hb
  linked i j a b _ ha := by cases ha
  ordered i j a b _ ha := by cases ha
  tails key i := by
    constructor
    · intro h
      cases h
    · rintro ⟨a, ha, -⟩
      cases ha
  own i a outcome ha := by cases ha

/-! ### Nothing else holds a task back -/

/-- A task behind settled tails starts, whatever its predecessors settled with. -/
theorem Serialised.start (hs : Serialised q) {i : Nat} {task : KeyedTask ρ ε} (htask : q.tasks[i]? = some task)
    (hstage : task.stage = .waiting)
    (hbehind : ∀ (j : Nat) (b : KeyedTask ρ ε), j < i → q.tasks[j]? = some b → b.key = task.key →
      b.stage.tail?.isSome = true) :
    queueStep hooks (.start i) q = some (q.setTask i {task with stage := .running}) := by
  have hprevious : q.previousSettlement task = some (.fulfilled ()) := by
    unfold previousSettlement
    cases hk : task.previous with
    | none => rfl
    | some k =>
      obtain ⟨hlt, c, hc, hckey⟩ := hs.previous i task k htask hk
      obtain ⟨settlement, htail⟩ := isSome_iff_exists.mp (hbehind k c hlt hc hckey)
      simp only [hc, bind_some]
      rw [htail, Stage.tail?_eq htail]
  simp only [queueStep, QueueEvent.task?, bind_some, htask, react, startTask, hstage, hprevious,
    map_some, Settlement.caught]

/-- A task that is not cleaned up has its turn, unless its own promise is pending or it
waits for an earlier task of its key. -/
theorem Serialised.progress (hs : Serialised q) {i : Nat} {task : KeyedTask ρ ε} (htask : q.tasks[i]? = some task)
    (hclean : task.stage.isCleaned = false) :
    (∃ e, e.task? = some i ∧ (queueStep hooks e q).isSome = true) ∨ task.stage = .running ∨
      task.stage = .waiting ∧ ∃ j b, j < i ∧ q.tasks[j]? = some b ∧ b.key = task.key ∧ b.stage.tail? = none := by
  cases hstage : task.stage with
  | waiting =>
    by_cases hbehind : ∀ (j : Nat) (b : KeyedTask ρ ε), j < i → q.tasks[j]? = some b → b.key = task.key →
        b.stage.tail?.isSome = true
    · exact .inl ⟨.start i, rfl, by rw [hs.start htask hstage hbehind]; rfl⟩
    · simp only [not_forall, Bool.not_eq_true, isSome_eq_false_iff, isNone_iff_eq_none] at hbehind
      obtain ⟨j, b, hlt, hb, hkey, htail⟩ := hbehind
      exact .inr (.inr ⟨rfl, j, b, hlt, hb, hkey, htail⟩)
  | running => exact .inr (.inl rfl)
  | done o => exact .inl ⟨.onSettle i, rfl, by simp [queueStep, QueueEvent.task?, htask, react, hstage]⟩
  | hooked o => exact .inl ⟨.settleCurrent i, rfl, by simp [queueStep, QueueEvent.task?, htask, react, hstage]⟩
  | settled o => exact .inl ⟨.settleTail i, rfl, by simp [queueStep, QueueEvent.task?, htask, react, hstage]⟩
  | tailSettled o => exact .inl ⟨.cleanUp i, rfl, by simp [queueStep, QueueEvent.task?, htask, react, hstage]⟩
  | cleaned o =>
    rw [hstage] at hclean
    cases hclean

theorem serialised_of_run (events : List (QueueEvent ρ ε)) (hookState : σ)
    (h : (queueStep hooks).run events {hookState := hookState} = some q) : Serialised q :=
  (queueStep hooks).run_invariant (fun e _ _ hs hstep => hs.step e hstep) events (.empty hookState) h

end Queue

/-! ### The pending counts -/

section Pending
variable {ρ ε : Type*} {q q' : SessionActorQueue ρ ε}

/-- The number of tasks of a key that have not settled. -/
def pendingTasks (q : SessionActorQueue ρ ε) (key : String) : Nat :=
  q.tasks.countP fun task => decide (task.key = key) && task.stage.isPending

/-- The map has the number of pending tasks, and no entry for none. -/
def PendingExact (q : SessionActorQueue ρ ε) : Prop :=
  ∀ key, q.hookState.get? key = if pendingTasks q key = 0 then none else some (pendingTasks q key : Int)

theorem PendingExact.count (h : PendingExact q) (key : String) :
    q.getPendingCountForSession key = pendingTasks q key := by
  unfold SessionActorQueue.getPendingCountForSession
  rw [h key]
  split
  · rename_i hzero
    rw [hzero]
    rfl
  · rfl

theorem PendingExact.enqueue (h : PendingExact q) (key : String) :
    PendingExact (q.enqueueKeyedTask actorHooks key) := by
  intro key'
  have hcount := h.count key
  have hnew : pendingTasks (q.enqueueKeyedTask actorHooks key) key' =
      pendingTasks q key' + if key = key' then 1 else 0 := by
    simp [pendingTasks, enqueueKeyedTask, countP_append, countP_cons, Stage.isPending]
  rw [hnew]
  show (q.hookState.set key (q.getPendingCountForSession key + 1)).get? key' = _
  rw [get?_set, hcount]
  by_cases hkey : key' = key
  · subst hkey
    simp
  · rw [if_neg hkey, h key', if_neg (Ne.symm hkey)]
    rfl

theorem Advance.pending_mono {task task' : KeyedTask ρ ε} (h : Advance q task task')
    (hpending : task.stage.isPending = false) : task'.stage.isPending = false := by
  cases h with
  | start hstage | done hstage =>
    rw [hstage] at hpending
    cases hpending
  | hook o hstage | settle o hstage | tail o hstage | clean o hstage => rfl

theorem Moved.pendingTasks {i : Nat} {task task' : KeyedTask ρ ε} (h : Moved actorHooks q q' i task task')
    (htask : q.tasks[i]? = some task) (key : String) : pendingTasks q key = pendingTasks q' key +
      if task.key = key ∧ task.stage.isPending = true ∧ task'.stage.isPending = false then 1 else 0 := by
  obtain ⟨hlt, hget⟩ := List.getElem?_eq_some_iff.mp htask
  have hmem : task ∈ q.tasks := mem_of_getElem? htask
  unfold Acp.pendingTasks
  rw [h.tasks, countP_set hlt, hget, h.advance.key]
  by_cases hkey : task.key = key
  · cases hpending : task.stage.isPending with
    | false => simp [h.advance.pending_mono hpending, hkey]
    | true =>
      have hpos : 0 < q.tasks.countP fun b => decide (b.key = key) && b.stage.isPending :=
        countP_pos_iff.mpr ⟨task, hmem, by simp [hkey, hpending]⟩
      cases hpending' : task'.stage.isPending <;> simp [hkey] <;> omega
  · simp [hkey]

theorem PendingExact.move {i : Nat} {task task' : KeyedTask ρ ε} (hp : PendingExact q)
    (h : Moved actorHooks q q' i task task') (htask : q.tasks[i]? = some task) : PendingExact q' := by
  intro key
  have hcount := h.pendingTasks htask key
  have hold := hp key
  rw [h.hookState]
  by_cases hsettle : (task.stage.isPending && !task'.stage.isPending) = true
  · simp only [hsettle, if_true]
    simp only [Bool.and_eq_true, Bool.not_eq_true'] at hsettle
    by_cases hkey : task.key = key
    · subst hkey
      simp only [hsettle, and_self, if_true] at hcount
      rw [hcount, if_neg (Nat.succ_ne_zero _)] at hold
      show (if (q.hookState.get? task.key).getD 1 - 1 ≤ 0 then q.hookState.erase task.key else
        q.hookState.set task.key ((q.hookState.get? task.key).getD 1 - 1)).get? task.key = _
      have hone : (q.hookState.get? task.key).getD 1 - 1 = (pendingTasks q' task.key : Int) := by
        rw [hold]
        simp
      rw [hone]
      by_cases hzero : pendingTasks q' task.key = 0
      · rw [if_pos (by omega), if_pos hzero, get?_erase, if_pos rfl]
      · rw [if_neg (by omega), if_neg hzero, get?_set_self]
    · have hframe : (actorHooks.onSettle task.key q.hookState).get? key = q.hookState.get? key := by
        show (if (q.hookState.get? task.key).getD 1 - 1 ≤ 0 then q.hookState.erase task.key else
          q.hookState.set task.key ((q.hookState.get? task.key).getD 1 - 1)).get? key = _
        split
        · rw [get?_erase, if_neg (Ne.symm hkey)]
        · rw [get?_set_ne _ (Ne.symm hkey)]
      have hsame : pendingTasks q key = pendingTasks q' key := by
        rw [hcount, if_neg (fun hall => hkey hall.1), Nat.add_zero]
      rw [hframe, hold, hsame]
  · have hsame : pendingTasks q key = pendingTasks q' key := by
      rw [hcount, if_neg, Nat.add_zero]
      rintro ⟨-, hpending, hnot⟩
      exact hsettle (by rw [hpending, hnot]; rfl)
    rw [if_neg hsettle, hold, hsame]

theorem PendingExact.step (e : QueueEvent ρ ε) (hp : PendingExact q) (h : queueStep actorHooks e q = some q') :
    PendingExact q' := by
  obtain ⟨key, rfl⟩ | ⟨i, task, task', htask, hmoved⟩ := queueStep_cases h
  · exact hp.enqueue key
  · exact hp.move hmoved htask

theorem pendingExact_of_run (events : List (QueueEvent ρ ε))
    (h : (queueStep actorHooks).run events {hookState := ∅} = some q) : PendingExact q :=
  (queueStep actorHooks).run_invariant (fun e _ _ hp hstep => hp.step e hstep) events (fun _ => rfl) h

end Pending

/-! ### Every schedule -/

/-- In every state of every run: a task starts when all earlier ones of its key have
settled, with whatever they settled, and not before; the returned promise settles with
what the task settled with; nothing but its own promise and the earlier tasks of its key
holds a task back; a key has a tail until its newest task is cleaned up, and so while a
task of it has not settled; and the pending count is the number of tasks that have not. -/
theorem keyed_serialisation {ρ ε σ : Type*} (hooks : KeyedAsyncQueueHooks σ) (hookState : σ) :
    (∀ events (q : KeyedAsyncQueue ρ ε σ), (queueStep hooks).run events {hookState := hookState} = some q →
      (∀ (i j : Nat) (a b : KeyedTask ρ ε), i < j → q.tasks[i]? = some a → q.tasks[j]? = some b → a.key = b.key →
        b.stage.started = true → a.stage.tail?.isSome = true) ∧
      (∀ (i : Nat) (a : KeyedTask ρ ε), q.tasks[i]? = some a → a.stage = .waiting →
        (∀ (j : Nat) (b : KeyedTask ρ ε), j < i → q.tasks[j]? = some b → b.key = a.key →
          b.stage.tail?.isSome = true) →
        queueStep hooks (.start i) q = some (q.setTask i {a with stage := .running})) ∧
      (∀ (i : Nat) (a : KeyedTask ρ ε) outcome, q.tasks[i]? = some a → a.stage.returned? = some outcome →
        a.own = some outcome) ∧
      (∀ (i : Nat) (a : KeyedTask ρ ε), q.tasks[i]? = some a → a.stage.isCleaned = false →
        (∃ e, e.task? = some i ∧ (queueStep hooks e q).isSome = true) ∨ a.stage = .running ∨
          a.stage = .waiting ∧ ∃ j b, j < i ∧ q.tasks[j]? = some b ∧ b.key = a.key ∧ b.stage.tail? = none) ∧
      (∀ key i, q.tails.get? key = some i ↔
        ∃ a, q.tasks[i]? = some a ∧ a.key = key ∧ a.stage.isCleaned = false ∧ IsNewest q key i) ∧
      (∀ (i : Nat) (a : KeyedTask ρ ε), q.tasks[i]? = some a → a.stage.tail? = none →
        (q.tails.get? a.key).isSome = true)) ∧
    ∀ events (q : SessionActorQueue ρ ε), (queueStep actorHooks).run events {hookState := ∅} = some q →
      ∀ key, q.getPendingCountForSession key = pendingTasks q key ∧ 0 ≤ q.getPendingCountForSession key ∧
        (q.hookState.get? key = none ↔ pendingTasks q key = 0) := by
  constructor
  · intro events q hrun
    have hs := serialised_of_run events hookState hrun
    refine ⟨hs.ordered, fun i a => hs.start, fun i a outcome ha hreturned => ?_, fun i a => hs.progress, hs.tails,
      fun i a ha htail => ?_⟩
    · exact hs.own i a outcome ha (Stage.outcome?_of_returned hreturned)
    · obtain ⟨k, -, hk⟩ := hs.held ha htail
      rw [hk]
      rfl
  · intro events q hrun key
    have hp := pendingExact_of_run events hrun
    refine ⟨hp.count key, ?_, ?_⟩
    · rw [hp.count key]
      exact Int.natCast_nonneg _
    · rw [hp key]
      by_cases hzero : pendingTasks q key = 0 <;> simp [hzero]

/-- Two tasks of one key, and the first rejects. -/
def firstRejects : List (QueueEvent Nat String) :=
  [.enqueue "s", .enqueue "s", .start 0, .settleTask 0 (.rejected "failed"), .onSettle 0, .settleCurrent 0,
    .settleTail 0]

theorem keyed_serialisation_rejected :
    ∃ q : SessionActorQueue Nat String, (queueStep actorHooks).run firstRejects {hookState := ∅} = some q ∧
    queueStep actorHooks (.start 1) q = some (q.setTask 1 {key := "s", previous := some 0, stage := .running}) ∧
    q.getPendingCountForSession "s" = pendingTasks q "s" := by
  obtain ⟨hserial, hpending⟩ := @keyed_serialisation Nat String _ actorHooks ∅
  have hrun : (queueStep actorHooks).run firstRejects {hookState := ∅} = some _ := rfl
  refine ⟨_, hrun, ?_, (hpending _ _ hrun "s").1⟩
  refine (hserial _ _ hrun).2.1 1 {key := "s", previous := some 0} rfl rfl ?_
  intro j b hlt hb _
  obtain rfl : j = 0 := by omega
  cases hb
  rfl

end OpenClaw.Acp
