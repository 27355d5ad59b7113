import Mathlib.Data.List.Range
import OpenClaw.Foundation.Run

/-! The bounded task runner.

Workers take the index of their next task from a counter they share. From where its task is
settled, a worker goes on without a break until it has started another one or returned; what
settles when is left open. An error callback returns. -/
namespace OpenClaw.Infra
open Foundation List

inductive ConcurrencyErrorMode
  | «continue»
  | stop
  deriving DecidableEq

/-- The parameters of `runTasksWithConcurrency`; of the tasks only their number counts. -/
structure TaskParams where
  tasks : Nat
  limit : Nat
  errorMode : ConcurrencyErrorMode := .continue
  limit_pos : 1 ≤ limit

/-- `resolvedLimit`; no worker where there is no task. -/
def TaskParams.resolvedLimit (params : TaskParams) : Nat :=
  if params.tasks = 0 then 0 else max 1 (min params.limit params.tasks)

/-- `started` and `settled` are a record of what happened, in this order. -/
structure TaskRunner (τ ε : Type*) where
  next : Nat := 0
  results : List (Option τ)
  firstError : Option ε := none
  hasError : Bool := false
  /-- The task each worker awaits, none once it has returned. -/
  workers : List (Option Nat) := []
  started : List Nat := []
  settled : List (Nat × Except ε τ) := []

inductive TaskEvent (τ ε : Type*)
  /-- The next worker begins. -/
  | begin
  | settle (worker : Nat) (outcome : Except ε τ)

variable {τ ε : Type*} (params : TaskParams)

namespace TaskRunner

def start : TaskRunner τ ε := {results := List.replicate params.tasks none}

/-- The head of the loop: the task the worker then awaits. -/
def takeNext (s : TaskRunner τ ε) : TaskRunner τ ε × Option Nat :=
  if params.errorMode = .stop ∧ s.hasError = true then (s, none)
  else if s.next ≥ params.tasks then ({s with next := s.next + 1}, none)
  else ({s with next := s.next + 1, started := s.started ++ [s.next]}, some s.next)

def record (s : TaskRunner τ ε) (index : Nat) : Except ε τ → TaskRunner τ ε
  | .ok value => {s with results := s.results.set index (some value), settled := s.settled ++ [(index, .ok value)]}
  | .error error =>
    {s with firstError := if s.hasError then s.firstError else some error
            hasError := true
            settled := s.settled ++ [(index, .error error)]}

/-- The outcome of an awaited task, and what the worker awaits after it. -/
def settle (s : TaskRunner τ ε) (index : Nat) (outcome : Except ε τ) : TaskRunner τ ε × Option Nat :=
  match outcome, params.errorMode with
  | .error _, .stop => (s.record index outcome, none)
  | _, _ => (s.record index outcome).takeNext params

end TaskRunner

def taskStep : Machine (TaskRunner τ ε) (TaskEvent τ ε)
  | .begin, s =>
    if s.workers.length < params.resolvedLimit then
      let (s, awaited) := s.takeNext params
      some {s with workers := s.workers ++ [awaited]}
    else none
  | .settle worker outcome, s =>
    match s.workers[worker]? with
    | some (some index) =>
      let (s, awaited) := s.settle params index outcome
      some {s with workers := s.workers.set worker awaited}
    | _ => none

namespace TaskRunner

def inFlight (s : TaskRunner τ ε) : List Nat := s.workers.filterMap id

/-- All workers have begun and returned: the call settles. -/
def Done (s : TaskRunner τ ε) : Prop := s.workers.length = params.resolvedLimit ∧ ∀ w ∈ s.workers, w = none

/-- The rejection, if the outcome is one. -/
def rejection : Nat × Except ε τ → Option ε
  | (_, .error error) => some error
  | (_, .ok _) => none

/-! ### The invariant -/

/-- What the sums and the record have to do with each other. -/
structure Recorded (s : TaskRunner τ ε) : Prop where
  started : s.started = List.range (min s.next params.tasks)
  firstError : s.firstError = (s.settled.filterMap rejection).head?
  hasError : s.hasError = s.firstError.isSome
  length : s.results.length = params.tasks
  results : ∀ i v, s.results[i]? = some (some v) ↔ (i, .ok v) ∈ s.settled

/-- Each task started is in flight or settled, and a worker returned for a reason. -/
structure Balanced (s : TaskRunner τ ε) : Prop extends Recorded params s where
  workers : s.workers.length ≤ params.resolvedLimit
  tasks : (s.inFlight ++ s.settled.map Prod.fst).Perm s.started
  idle : none ∈ s.workers → (params.errorMode = .stop ∧ s.hasError = true) ∨ params.tasks ≤ s.next

variable {params} {s : TaskRunner τ ε}

theorem balanced_start : (start params : TaskRunner τ ε).Balanced params where
  started := rfl
  firstError := rfl
  hasError := rfl
  length := length_replicate
  results i v := by simp [start, getElem?_replicate]
  workers := Nat.zero_le _
  tasks := .refl _
  idle := nofun

theorem Balanced.nodup (h : s.Balanced params) : s.started.Nodup := h.started ▸ nodup_range

/-- Taking the next task adds at most that one, and a worker without one has a reason. -/
theorem Recorded.takeNext (h : s.Recorded params) :
    ∃ next started, s.takeNext params = ({s with next, started := s.started ++ started.toList}, started) ∧
      (s.takeNext params).1.Recorded params ∧
      (started = none → (params.errorMode = .stop ∧ s.hasError = true) ∨ params.tasks ≤ next) ∧ s.next ≤ next := by
  unfold TaskRunner.takeNext
  split
  · exact ⟨s.next, none, by simp, h, fun _ => .inl ‹_›, Nat.le_refl _⟩
  split
  · refine ⟨s.next + 1, none, by simp, {h with started := ?_}, fun _ => .inr (by omega), Nat.le_succ _⟩
    rw [h.started, Nat.min_eq_right ‹_›, Nat.min_eq_right (Nat.le_succ_of_le ‹_›)]
  · refine ⟨s.next + 1, some s.next, rfl, {h with started := ?_}, nofun, Nat.le_succ _⟩
    show s.started ++ [s.next] = List.range (min (s.next + 1) params.tasks)
    rw [h.started, Nat.min_eq_left (by omega), Nat.min_eq_left (by omega), range_succ]

theorem settle_eq (index : Nat) (outcome : Except ε τ) :
    s.settle params index outcome = (s.record index outcome).takeNext params := by
  unfold settle
  split
  · rw [TaskRunner.takeNext, if_pos ⟨‹_›, rfl⟩]
  · rfl

theorem record_hasError (index : Nat) (outcome : Except ε τ) (h : s.hasError = true) :
    (s.record index outcome).hasError = true := by
  cases outcome with
  | ok value => exact h
  | error error => rfl

theorem Recorded.record (h : s.Recorded params) {index : Nat} (hindex : index < params.tasks)
    (hnew : index ∉ s.settled.map Prod.fst) (outcome : Except ε τ) : (s.record index outcome).Recorded params := by
  have hfirst := h.firstError
  cases outcome with
  | ok value =>
    refine ⟨h.started, ?_, h.hasError, length_set.trans h.length, fun i v => ?_⟩
    · show s.firstError = ((s.settled ++ [(index, Except.ok value)]).filterMap rejection).head?
      rw [filterMap_append, hfirst]
      exact congrArg List.head? (append_nil _).symm
    · show (s.results.set index (some value))[i]? = some (some v) ↔ (i, Except.ok v) ∈ s.settled ++ [(index, .ok value)]
      rw [getElem?_set, mem_append, mem_singleton]
      by_cases hi : index = i
      · subst hi
        have hnot : (index, Except.ok v) ∉ s.settled := fun hmem => hnew (mem_map_of_mem hmem)
        simp [h.length, hindex, hnot, eq_comm]
      · rw [if_neg hi, h.results i v]
        simp [Ne.symm hi]
  | error error =>
    refine ⟨h.started, ?_, ?_, h.length, fun i v => ?_⟩
    · show (if s.hasError then s.firstError else some error) =
        ((s.settled ++ [(index, Except.error error)]).filterMap rejection).head?
      rw [filterMap_append, head?_append, ← hfirst, h.hasError]
      cases s.firstError <;> rfl
    · show true = (if s.hasError then s.firstError else some error).isSome
      cases hs : s.hasError with
      | true => exact hs.symm.trans h.hasError
      | false => rfl
    · exact (h.results i v).trans (by simp [TaskRunner.record])

theorem Balanced.step {e : TaskEvent τ ε} {t : TaskRunner τ ε} (h : s.Balanced params)
    (hstep : taskStep params e s = some t) : t.Balanced params := by
  cases e with
  | begin =>
    simp only [taskStep, Option.ite_none_right_eq_some, Option.some.injEq] at hstep
    obtain ⟨hlt, rfl⟩ := hstep
    obtain ⟨next, taken, heq, hrecorded, hidle, hle⟩ := h.toRecorded.takeNext
    rw [heq] at hrecorded ⊢
    refine {hrecorded with workers := ?_, tasks := ?_, idle := fun hnone => ?_}
    · rw [length_append]
      exact hlt
    · have hflight : (s.workers ++ [taken]).filterMap id = s.inFlight ++ taken.toList := by
        cases taken <;> simp [inFlight]
      show ((s.workers ++ [taken]).filterMap id ++ s.settled.map Prod.fst).Perm (s.started ++ taken.toList)
      rw [hflight, append_assoc]
      exact (perm_append_comm.append_left _).trans (by simpa using h.tasks.append_right taken.toList)
    · rcases mem_append.mp hnone with hnone | hnone
      · exact (h.idle hnone).imp_right hle.trans'
      · exact hidle (mem_singleton.mp hnone).symm
  | settle worker outcome =>
    simp only [taskStep] at hstep
    split at hstep
    case h_2 => cases hstep
    rename_i index hworker
    obtain rfl := Option.some.inj hstep
    obtain ⟨hlt, hget⟩ := List.getElem?_eq_some_iff.mp hworker
    have hset : ∀ x, s.workers.set worker x = s.workers.take worker ++ x :: s.workers.drop (worker + 1) :=
      fun x => by rw [set_eq_take_append_cons_drop, if_pos hlt]
    have hworkers := hset (some index)
    rw [← hget, set_getElem_self, hget] at hworkers
    have hmem : index ∈ s.inFlight := mem_filterMap.mpr ⟨_, mem_of_getElem? hworker, rfl⟩
    have hindex : index < params.tasks := by
      have := h.tasks.subset (mem_append_left _ hmem)
      rw [h.started, mem_range] at this
      omega
    have hnew : index ∉ s.settled.map Prod.fst :=
      fun hsettled => (nodup_append.mp ((h.tasks.nodup_iff).mpr h.nodup)).2.2 _ hmem _ hsettled rfl
    have hkept : (s.record index outcome).workers = s.workers ∧ (s.record index outcome).started = s.started ∧
        (s.record index outcome).next = s.next ∧ (s.record index outcome).settled = s.settled ++ [(index, outcome)] := by
      cases outcome <;> exact ⟨rfl, rfl, rfl, rfl⟩
    obtain ⟨next, taken, heq, hrecorded, hidle, hle⟩ := (h.toRecorded.record hindex hnew outcome).takeNext
    rw [settle_eq, heq] at *
    refine {hrecorded with workers := ?_, tasks := ?_, idle := fun hnone => ?_}
    · exact (length_set.trans (congrArg List.length hkept.1)).trans_le h.workers
    · have htasks := h.tasks
      rw [inFlight, hworkers, perm_iff_count] at htasks
      show ((((s.record index outcome).workers.set worker taken).filterMap id) ++ _).Perm _
      rw [hkept.1, hkept.2.1, hkept.2.2.2, hset, perm_iff_count]
      intro x
      have := htasks x
      cases taken <;> simp [count_cons, count_append] at this ⊢ <;> omega
    · have hnone : none ∈ (s.record index outcome).workers.set worker taken := hnone
      rcases mem_or_eq_of_mem_set hnone with hnone | hnone
      · rw [hkept.1] at hnone
        exact (h.idle hnone).imp (fun hstop => ⟨hstop.1, record_hasError index outcome hstop.2⟩)
          fun hle' => hle'.trans (hkept.2.2.1 ▸ hle)
      · exact hidle hnone.symm

/-! ### Every run -/

theorem stopped_step {e : TaskEvent τ ε} {t : TaskRunner τ ε} (hmode : params.errorMode = .stop) (h : s.hasError = true)
    (hstep : taskStep params e s = some t) : t.hasError = true ∧ t.started = s.started := by
  have hstay : ∀ {u : TaskRunner τ ε}, u.hasError = true → u.takeNext params = (u, none) := fun hu => if_pos ⟨hmode, hu⟩
  cases e with
  | begin =>
    simp only [taskStep, hstay h, Option.ite_none_right_eq_some, Option.some.injEq] at hstep
    obtain ⟨_, rfl⟩ := hstep
    exact ⟨h, rfl⟩
  | settle worker outcome =>
    simp only [taskStep] at hstep
    split at hstep
    case h_2 => cases hstep
    rw [settle_eq, hstay (record_hasError _ outcome h)] at hstep
    obtain rfl := Option.some.inj hstep
    cases outcome <;> exact ⟨record_hasError _ _ h, rfl⟩

theorem done_iff (h : s.Balanced params) : s.Done params ↔
    s.workers.length = params.resolvedLimit ∧ ∀ i ∈ s.started, i ∈ s.settled.map Prod.fst := by
  refine and_congr_right fun _ => ⟨fun hreturned i hi => ?_, fun hsettled w hw => ?_⟩
  · rcases mem_append.mp (h.tasks.symm.subset hi) with hflight | hsettled
    · obtain ⟨w, hw, hwi⟩ := mem_filterMap.mp hflight
      rw [hreturned w hw] at hwi
      cases hwi
    · exact hsettled
  · cases w with
    | none => rfl
    | some i =>
      have hflight : i ∈ s.inFlight := mem_filterMap.mpr ⟨_, hw, rfl⟩
      have hstarted := h.tasks.subset (mem_append_left _ hflight)
      exact absurd rfl ((nodup_append.mp (h.tasks.nodup_iff.mpr h.nodup)).2.2 i hflight i (hsettled i hstarted))

end TaskRunner

open TaskRunner in
/-- Whatever settles when: never more than the limit in flight, tasks started in order and
once, no start after a recorded rejection in mode `stop`, results and errors those of the
outcomes, and the call settles with the last task. -/
theorem tasks_run_once {params : TaskParams} {events : List (TaskEvent τ ε)} {s : TaskRunner τ ε}
    (hrun : (taskStep params).run events (start params) = some s) :
    s.inFlight.length ≤ params.limit ∧
    (∃ n ≤ params.tasks, s.started = List.range n) ∧
    ((s.settled.map Prod.fst).Nodup ∧ ∀ i ∈ s.settled.map Prod.fst, i ∈ s.started) ∧
    (∀ i v, s.results[i]? = some (some v) ↔ (i, .ok v) ∈ s.settled) ∧
    s.firstError = (s.settled.filterMap rejection).head? ∧
    (s.hasError = true ↔ ∃ i e, (i, .error e) ∈ s.settled) ∧
    (s.Done params ↔ s.workers.length = params.resolvedLimit ∧ ∀ i ∈ s.started, i ∈ s.settled.map Prod.fst) ∧
    (params.errorMode = .continue → s.Done params → s.started = List.range params.tasks) ∧
    (params.errorMode = .stop → s.hasError = true →
      ∀ later t, (taskStep params).run later s = some t → t.started = s.started) := by
  have h := (taskStep params).run_invariant (fun _ _ _ => Balanced.step) events balanced_start hrun
  have hnodup := h.tasks.nodup_iff.mpr h.nodup
  refine ⟨?_, ⟨_, Nat.min_le_right .., h.started⟩, ⟨(nodup_append.mp hnodup).2.1, fun i hi => ?_⟩, h.results,
    h.firstError, ?_, done_iff h, fun hmode hdone => ?_, fun hmode herror later t hlater => ?_⟩
  · have hlimit := params.limit_pos
    have hworkers := h.workers
    have hflight : s.inFlight.length ≤ s.workers.length := length_filterMap_le ..
    unfold TaskParams.resolvedLimit at hworkers
    split at hworkers <;> omega
  · exact h.tasks.subset (mem_append_right _ hi)
  · rw [h.hasError, h.firstError, Option.isSome_iff_exists]
    constructor
    · rintro ⟨e, he⟩
      replace he := mem_of_mem_head? he
      obtain ⟨⟨i, outcome⟩, hmem, ho⟩ := mem_filterMap.mp he
      cases outcome with
      | ok v => cases ho
      | error e' => exact ⟨i, e', hmem⟩
    · rintro ⟨i, e, hmem⟩
      refine Option.isSome_iff_exists.mp (isSome_head?.mpr (ne_nil_of_mem (a := e) ?_))
      exact mem_filterMap.mpr ⟨_, hmem, rfl⟩
  · rw [h.started]
    by_cases hzero : params.tasks = 0
    · rw [hzero, Nat.min_zero]
    · obtain ⟨w, hw⟩ : ∃ w, w ∈ s.workers := by
        have hlength := hdone.1
        rw [TaskParams.resolvedLimit, if_neg hzero] at hlength
        exact exists_mem_of_length_pos (by omega)
      rcases h.idle (hdone.2 w hw ▸ hw) with ⟨hstop, _⟩ | hall
      · rw [hmode] at hstop
        cases hstop
      · rw [Nat.min_eq_right hall]
  · refine ((taskStep params).run_invariant (I := fun u => u.hasError = true ∧ u.started = s.started)
      (fun e u v hu hstep => ?_) later ⟨herror, rfl⟩ hlater).2
    obtain ⟨hv, hstarted⟩ := stopped_step hmode hu.1 hstep
    exact ⟨hv, hstarted.trans hu.2⟩

/-- Two tasks, one at a time. -/
def oneByOne : TaskParams := {tasks := 2, limit := 1, limit_pos := Nat.le_refl 1}

theorem tasks_run_once_rejected : ∃ s : TaskRunner Nat String,
    (taskStep oneByOne).run [.begin, .settle 0 (.ok 7), .settle 0 (.error "boom")] (.start oneByOne) = some s ∧
      s.inFlight.length ≤ 1 ∧ s.hasError = true ∧ s.started = [0, 1] := by
  obtain ⟨s, hs, hv⟩ := (Option.any_eq_true (fun s : TaskRunner Nat String => s.hasError && s.started = [0, 1])
    ((taskStep oneByOne).run [.begin, .settle 0 (.ok 7), .settle 0 (.error "boom")] (.start oneByOne))).mp (by decide)
  rw [Bool.and_eq_true, decide_eq_true_eq] at hv
  exact ⟨s, hs, (tasks_run_once hs).1, hv⟩

end OpenClaw.Infra
