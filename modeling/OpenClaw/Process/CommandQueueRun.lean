import Mathlib.Data.List.Perm.Basic
import Mathlib.Data.List.Perm.Subperm
import OpenClaw.Process.CommandQueue

/-! What a step of the command queue can do.

`Action` says once what a step does, with the guard it was taken under, and
`step_action` is its inversion lemma: every invariant of the queue is kept by the
actions, hence by every run. The lemmas at the end say what the operations and
the end of a task leave of a lane. -/
namespace OpenClaw.Process.CommandQueue
open Foundation

variable {ε β : Type*}

/-! ### Tasks on the stack -/

def Frame.task? : Frame ε β → Option Task
  | .task t => some t
  | _ => none

def Frame.settling? : Frame ε β → Option (Task × Except ε β)
  | .settle t r => some (t, r)
  | _ => none

def stackTasks (stack : List (Frame ε β)) : List Task := stack.filterMap Frame.task?

def stackSettling (stack : List (Frame ε β)) : List (Task × Except ε β) := stack.filterMap Frame.settling?

@[simp] theorem stackTasks_nil : stackTasks ([] : List (Frame ε β)) = [] := rfl
@[simp] theorem stackTasks_drain (lane : String) (fs : List (Frame ε β)) :
    stackTasks (.drain lane :: fs) = stackTasks fs := rfl
@[simp] theorem stackTasks_pump (lane : String) (fs : List (Frame ε β)) :
    stackTasks (.pump lane :: fs) = stackTasks fs := rfl
@[simp] theorem stackTasks_task (t : Task) (fs : List (Frame ε β)) :
    stackTasks (.task t :: fs) = t :: stackTasks fs := rfl
@[simp] theorem stackTasks_settle (t : Task) (r : Except ε β) (fs : List (Frame ε β)) :
    stackTasks (.settle t r :: fs) = stackTasks fs := rfl
@[simp] theorem stackTasks_notify (fs : List (Frame ε β)) :
    stackTasks (.notify :: fs) = stackTasks fs := rfl

@[simp] theorem stackSettling_pump (lane : String) (fs : List (Frame ε β)) :
    stackSettling (.pump lane :: fs) = stackSettling fs := rfl
@[simp] theorem stackSettling_task (t : Task) (fs : List (Frame ε β)) :
    stackSettling (.task t :: fs) = stackSettling fs := rfl
@[simp] theorem stackSettling_settle (t : Task) (r : Except ε β) (fs : List (Frame ε β)) :
    stackSettling (.settle t r :: fs) = (t, r) :: stackSettling fs := rfl
@[simp] theorem stackSettling_notify (fs : List (Frame ε β)) :
    stackSettling (.notify :: fs) = stackSettling fs := rfl

@[simp] theorem stackTasks_drains (lanes : List String) (fs : List (Frame ε β)) :
    stackTasks (lanes.map .drain ++ fs) = stackTasks fs := by
  induction lanes with
  | nil => rfl
  | cons lane rest ih => exact ih

@[simp] theorem stackSettling_drains (lanes : List String) (fs : List (Frame ε β)) :
    stackSettling (lanes.map .drain ++ fs) = stackSettling fs := by
  induction lanes with
  | nil => rfl
  | cons lane rest ih => exact ih

namespace State

/-- Started tasks that have not ended: a pending promise or a prefix on the stack. -/
def inFlight (s : State ε β) : List Task := s.running ++ stackTasks s.stack

/-- Ended tasks whose entry is about to be settled. -/
def settling (s : State ε β) : List (Task × Except ε β) := stackSettling s.stack

/-- The tasks of the lane's current generation that have not ended. -/
def current (s : State ε β) (lane : String) : List Task :=
  s.inFlight.filter fun t => t.lane = lane ∧ t.taskGeneration = (s.getLaneState lane).generation

def acceptedIn (s : State ε β) (lane : String) : List Nat :=
  (s.accepted.filter fun p => p.1 = lane).map Prod.snd

def clearedIn (s : State ε β) (lane : String) : List Nat :=
  (s.cleared.filter fun p => p.1 = lane).map Prod.snd

def startedIn (s : State ε β) (lane : String) : List Nat :=
  (s.started.filter fun t => t.lane = lane).map Task.entry

def queuedIn (s : State ε β) (lane : String) : List Nat := (s.getLaneState lane).queue.map QueueEntry.id

end State

/-! ### What a step does -/

/-- The step an event makes, with the guard it is taken under. -/
inductive Action (s : State ε β) : Event ε β → State ε β → Prop
  | drain {lane below now} : s.stack = .drain lane :: below → Action s (.advance now) (drainLane lane below s)
  | start {lane below entry rest now} : s.stack = .pump lane :: below →
      (s.getLaneState lane).queue = entry :: rest →
      (s.getLaneState lane).activeTaskIds.length < (s.getLaneState lane).maxConcurrent →
      Action s (.advance now) (startEntry lane (s.getLaneState lane) entry rest now s)
  | stop {lane below now} : s.stack = .pump lane :: below →
      ((s.getLaneState lane).queue ≠ [] →
        (s.getLaneState lane).maxConcurrent ≤ (s.getLaneState lane).activeTaskIds.length) →
      Action s (.advance now)
        {s.setLaneState lane {s.getLaneState lane with draining := false} with stack := below}
  | settle {t result below now} : s.stack = .settle t result :: below →
      Action s (.advance now) {s with stack := below, settled := s.settled ++ [(t, result)]}
  | notify {below now} : s.stack = .notify :: below →
      Action s (.advance now) (notifyActiveTaskWaiters {s with stack := below})
  | call {op} : userControl s = true → Action s (.call op) (op.apply s)
  | suspend {t below} : s.stack = .task t :: below →
      Action s .suspend {s with stack := below, running := s.running ++ [t]}
  | throw {t below} (error : ε) : s.stack = .task t :: below →
      Action s (.throw error) (finishTask t (.error error) below s)
  | complete {t taskId} (result : Except ε β) : s.stack = [] →
      s.running.find? (fun t => t.taskId = taskId) = some t →
      Action s (.complete taskId result) (finishTask t result [] {s with running := s.running.erase t})
  | timeout {w} : s.stack = [] → w ∈ s.activeTaskWaiters →
      Action s (.timeout w.id) {s with
        activeTaskWaiters := s.activeTaskWaiters.filter fun w' => w'.id ≠ w.id
        resolved := s.resolved ++ [(w, false)]}

variable {lane : String} {s s' : State ε β} {l : LaneState} {t : Task}

theorem pumpTurn_action {below : List (Frame ε β)} (hs : s.stack = .pump lane :: below) (now : Int) :
    Action s (.advance now) (pumpTurn lane below now s) := by
  unfold pumpTurn
  dsimp only
  split
  · rename_i entry rest hq
    split
    · rename_i hlt
      exact .start hs hq hlt
    · rename_i hlt
      exact .stop hs fun _ => Nat.le_of_not_lt hlt
  · rename_i hq
    exact .stop hs fun hne => absurd hq hne

/-- Every step is one of the actions, under its guard. -/
theorem step_action {e : Event ε β} (h : step e s = some s') : Action s e s' := by
  cases e with
  | advance now =>
    simp only [step, advance] at h
    split at h
    · rename_i lane below hs
      cases h
      exact .drain hs
    · rename_i lane below hs
      cases h
      exact pumpTurn_action hs now
    · rename_i t result below hs
      cases h
      exact .settle hs
    · rename_i below hs
      cases h
      exact .notify hs
    · cases h
    · cases h
  | call op =>
    simp only [step] at h
    split at h
    · rename_i hu
      cases h
      exact .call hu
    · cases h
  | suspend =>
    simp only [step] at h
    split at h
    · rename_i t below hs
      cases h
      exact .suspend hs
    · cases h
  | throw error =>
    simp only [step] at h
    split at h
    · rename_i t below hs
      cases h
      exact .throw error hs
    · cases h
  | complete taskId result =>
    simp only [step] at h
    split at h
    · rename_i t hs hf
      cases h
      exact .complete result hs hf
    · cases h
  | timeout waiterId =>
    simp only [step] at h
    split at h
    · rename_i w hs hf
      cases h
      have hid : w.id = waiterId := by simpa using List.find?_some hf
      exact hid ▸ .timeout hs (List.mem_of_find?_eq_some hf)
    · cases h

/-! ### What the operations leave of a lane -/

theorem getLaneState_of_set (h : s'.lanes = s.lanes.set lane l) (lane' : String) :
    s'.getLaneState lane' = if lane' = lane then l else s.getLaneState lane' := by
  rw [← State.getLaneState_setLaneState]
  unfold State.getLaneState State.setLaneState
  rw [h]

theorem queue_of_set (s : State ε β) (lane : String) (h : s'.lanes = s.lanes.set lane l)
    (hq : l.queue = (s.getLaneState lane).queue) (lane' : String) :
    (s'.getLaneState lane').queue = (s.getLaneState lane').queue := by
  rw [getLaneState_of_set h]
  split
  · rename_i he
    rw [he, hq]
  · rfl

/-- A lane that the map does not hold is the lane a first access creates. -/
theorem getLaneState_of_none (h : s.lanes.get? lane = none) :
    s.getLaneState lane = {} := by
  unfold State.getLaneState
  rw [h]
  rfl

theorem getLaneState_of_some (h : s.lanes.get? lane = some l) : s.getLaneState lane = l := by
  unfold State.getLaneState
  rw [h]
  rfl

theorem resetAllLanes_lane (s : State ε β) (lane : String) :
    (resetAllLanes s).getLaneState lane =
      if s.lanes.get? lane = none then {} else resetLane (s.getLaneState lane) := by
  show ((s.lanes.mapValues fun _ l => resetLane l).get? lane).getD {} = _
  rw [InsertionMap.get?_mapValues]
  cases h : s.lanes.get? lane with
  | none => rfl
  | some l =>
    rw [getLaneState_of_some h]
    rfl

theorem clearCommandLane_none (h : s.lanes.get? (normalizeLane lane) = none) : clearCommandLane lane s = (0, s) := by
  simp only [clearCommandLane, h]

theorem clearCommandLane_some (h : s.lanes.get? (normalizeLane lane) = some l) :
    clearCommandLane lane s = (l.queue.length,
      {s.setLaneState (normalizeLane lane) {l with queue := []} with
        cleared := s.cleared ++ l.queue.map fun e => (normalizeLane lane, e.id)}) := by
  simp only [clearCommandLane, h]

theorem finishTask_current (h : t.taskGeneration = (s.getLaneState t.lane).generation) (result : Except ε β)
    (below : List (Frame ε β)) :
    finishTask t result below s =
      (notifyActiveTaskWaiters ((recordEnd t result below s).setLaneState t.lane
        {s.getLaneState t.lane with
          activeTaskIds := (s.getLaneState t.lane).activeTaskIds.erase t.taskId})).push (.pump t.lane) := by
  have hc : completeTask t (recordEnd t result below s) = (true, _) := if_neg (not_not.mpr h)
  unfold finishTask
  rw [hc]
  rfl

theorem finishTask_lanes (h : t.taskGeneration = (s.getLaneState t.lane).generation) (result : Except ε β)
    (below : List (Frame ε β)) :
    (finishTask t result below s).lanes = s.lanes.set t.lane {s.getLaneState t.lane with
      activeTaskIds := (s.getLaneState t.lane).activeTaskIds.erase t.taskId} := by
  rw [finishTask_current h]
  rfl

/-- A completion from before a reset records the outcome and nothing else. -/
theorem finishTask_stale (h : t.taskGeneration ≠ (s.getLaneState t.lane).generation) (result : Except ε β)
    (below : List (Frame ε β)) : finishTask t result below s = recordEnd t result below s := by
  have hc : completeTask t (recordEnd t result below s) = (false, _) := if_pos h
  unfold finishTask
  rw [hc]

theorem finishTask_inFlight (t : Task) (result : Except ε β) (below : List (Frame ε β)) (s : State ε β) :
    (finishTask t result below s).inFlight = s.running ++ stackTasks below := by
  by_cases hg : t.taskGeneration = (s.getLaneState t.lane).generation
  · rw [finishTask_current hg]
    rfl
  · rw [finishTask_stale hg]
    rfl

theorem finishTask_nextTaskId (t : Task) (result : Except ε β) (below : List (Frame ε β)) (s : State ε β) :
    (finishTask t result below s).nextTaskId = s.nextTaskId := by
  by_cases hg : t.taskGeneration = (s.getLaneState t.lane).generation
  · rw [finishTask_current hg]
    rfl
  · rw [finishTask_stale hg]
    rfl

theorem finishTask_generation (t : Task) (result : Except ε β) (below : List (Frame ε β)) (s : State ε β)
    (lane : String) :
    ((finishTask t result below s).getLaneState lane).generation = (s.getLaneState lane).generation := by
  by_cases hg : t.taskGeneration = (s.getLaneState t.lane).generation
  · rw [getLaneState_of_set (finishTask_lanes hg result below)]
    split
    · rename_i he
      rw [he]
    · rfl
  · rw [finishTask_stale hg]
    rfl

theorem resetAllLanes_inFlight (s : State ε β) : (resetAllLanes s).inFlight = s.inFlight :=
  congrArg (s.running ++ ·) (stackTasks_drains _ (.notify :: s.stack))

end OpenClaw.Process.CommandQueue
