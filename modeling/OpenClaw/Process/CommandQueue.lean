import OpenClaw.Foundation.Run
import OpenClaw.Foundation.InsertionMap
import OpenClaw.Foundation.EcmaString

/-! The in-process command queue: lanes of tasks with bounded concurrency.

The queue is synchronous code that calls back into user code: `pump` runs the
synchronous prefix of each task it starts, and that prefix may enqueue, resize,
clear, reset or wait before it returns its promise or throws. The call stack is
therefore part of the state. Its frames are the calls in progress, innermost
first; only a task's prefix or an empty stack (the event loop) lets user code
call an operation, and every other frame has exactly one next step.

Beside what the module keeps (`lanes`, the waiters, the counters) the state holds
what the closures keep, the tasks whose promise is pending (`running`), and the
record of what has happened: entries accepted, started, settled, cleared, and
waiters resolved. -/
namespace OpenClaw.Process.CommandQueue
open Foundation Foundation.EcmaString

/-- `CommandLane.Main`. -/
def mainLane : String := "main"

def defaultWarnAfterMs : Int := 2000

/-- A queued command. `id` stands for the entry object: entries are numbered in
the order they are accepted. -/
structure QueueEntry where
  id : Nat
  enqueuedAt : Int
  warnAfterMs : Int
  deriving DecidableEq, Repr

structure LaneState where
  queue : List QueueEntry := []
  activeTaskIds : List Nat := []
  maxConcurrent : Nat := 1
  draining : Bool := false
  generation : Nat := 0
  deriving DecidableEq, Repr

structure ActiveTaskWaiter where
  id : Nat
  activeTaskIds : List Nat
  deriving DecidableEq, Repr

/-- What the closure around a started entry captures. -/
structure Task where
  entry : Nat
  lane : String
  taskId : Nat
  taskGeneration : Nat
  deriving DecidableEq, Repr

/-- The calls in progress. -/
inductive Frame (ε β : Type*) where
  /-- `drainLane(lane)`, about to look at the draining flag. -/
  | drain (lane : String)
  /-- The loop of `pump`, between two starts. -/
  | pump (lane : String)
  /-- The synchronous prefix of a task, in user code. -/
  | task (t : Task)
  /-- `entry.resolve` or `entry.reject`, after the pump that precedes it. -/
  | settle (t : Task) (result : Except ε β)
  /-- The `notifyActiveTaskWaiters()` that ends `resetAllLanes`. -/
  | notify

structure State (ε β : Type*) where
  gatewayDraining : Bool := false
  lanes : InsertionMap String LaneState := ∅
  activeTaskWaiters : List ActiveTaskWaiter := []
  nextTaskId : Nat := 1
  stack : List (Frame ε β) := []
  running : List Task := []
  /-- Accepted entries with their lanes, in the order of the calls. -/
  accepted : List (String × Nat) := []
  started : List Task := []
  /-- How each task's own promise (or prefix) ended. -/
  finished : List (Task × Except ε β) := []
  /-- Calls of `entry.resolve` and `entry.reject`. -/
  settled : List (Task × Except ε β) := []
  /-- Entries rejected with `CommandLaneClearedError`. -/
  cleared : List (String × Nat) := []
  /-- `onWait` callbacks: entry, time waited, entries still queued. -/
  waits : List (Nat × Int × Nat) := []
  nextWaiterId : Nat := 0
  resolved : List (ActiveTaskWaiter × Bool) := []

variable {ε β : Type*}

variable (s : State ε β) (lane : String)

def normalizeLane : String := (trimmed lane).getD mainLane

/-- The message of `CommandLaneClearedError`. -/
def commandLaneClearedMessage : String :=
  if lane = "" then "Command lane cleared" else "Command lane \"" ++ lane ++ "\" cleared"

namespace State

def getLaneState : LaneState := (s.lanes.get? lane).getD {}

/-- Write a lane back; a lane that was not there is created. -/
def setLaneState (l : LaneState) : State ε β :=
  {s with lanes := s.lanes.set lane l}

def push (f : Frame ε β) : State ε β := {s with stack := f :: s.stack}

@[simp] theorem getLaneState_setLaneState (lane' : String) (l : LaneState) :
    (s.setLaneState lane l).getLaneState lane' = if lane' = lane then l else s.getLaneState lane' := by
  unfold getLaneState setLaneState
  rw [InsertionMap.get?_set]
  split <;> rfl

end State

/-! ### Waiters -/

def hasPendingActiveTasks (taskIds : List Nat) : Bool :=
  s.lanes.values.any fun l => l.activeTaskIds.any fun taskId => taskId ∈ taskIds

/-- A waiter with nothing pending is resolved with `drained: true`. -/
def waiterDone (w : ActiveTaskWaiter) : Bool :=
  w.activeTaskIds.isEmpty || !hasPendingActiveTasks s w.activeTaskIds

def notifyActiveTaskWaiters : State ε β :=
  {s with
    activeTaskWaiters := s.activeTaskWaiters.filter fun w => !waiterDone s w
    resolved := s.resolved ++ (s.activeTaskWaiters.filter fun w => waiterDone s w).map fun w => (w, true)}

/-! ### Operations -/

def setCommandLaneConcurrency (maxConcurrent : Int) (s : State ε β) : State ε β :=
  let cleaned := normalizeLane lane
  let l := s.getLaneState cleaned
  (s.setLaneState cleaned {l with maxConcurrent := (max 1 maxConcurrent).toNat}).push (.drain cleaned)

/-- Returns the entry's number, or `none` when the gateway is draining. -/
def enqueueCommandInLane (warnAfterMs : Option Int) (now : Int) (s : State ε β) : Option Nat × State ε β :=
  if s.gatewayDraining then (none, s)
  else
    let cleaned := normalizeLane lane
    let l := s.getLaneState cleaned
    let entry : QueueEntry := ⟨s.accepted.length, now, warnAfterMs.getD defaultWarnAfterMs⟩
    let s' := s.setLaneState cleaned {l with queue := l.queue ++ [entry]}
    (some entry.id, {s' with accepted := s.accepted ++ [(cleaned, entry.id)]}.push (.drain cleaned))

/-- Returns how many entries were removed. -/
def clearCommandLane (s : State ε β) : Nat × State ε β :=
  let cleaned := normalizeLane lane
  match s.lanes.get? cleaned with
  | none => (0, s)
  | some l =>
    (l.queue.length,
      {s.setLaneState cleaned {l with queue := []} with
        cleared := s.cleared ++ l.queue.map fun e => (cleaned, e.id)})

def markGatewayDraining : State ε β := {s with gatewayDraining := true}

def resetLane (l : LaneState) : LaneState :=
  {l with generation := l.generation + 1, activeTaskIds := [], draining := false}

/-- The lanes that still have work are drained after the whole pass, in the
order of the map, and the waiters are notified last. -/
def resetAllLanes : State ε β :=
  let lanesToDrain := (s.lanes.entries.filter fun p => !p.2.queue.isEmpty).map Prod.fst
  {s with
    gatewayDraining := false
    lanes := s.lanes.mapValues fun _ l => resetLane l
    stack := lanesToDrain.map .drain ++ .notify :: s.stack}

def activeAtStart : List Nat := s.lanes.values.flatMap LaneState.activeTaskIds

def waitForActiveTasks (timeoutMs : Int) (s : State ε β) : State ε β :=
  let w : ActiveTaskWaiter := ⟨s.nextWaiterId, activeAtStart s⟩
  let s' := {s with nextWaiterId := s.nextWaiterId + 1}
  if w.activeTaskIds.isEmpty then {s' with resolved := s.resolved ++ [(w, true)]}
  else if timeoutMs ≤ 0 then {s' with resolved := s.resolved ++ [(w, false)]}
  else notifyActiveTaskWaiters {s' with activeTaskWaiters := s.activeTaskWaiters ++ [w]}

/-- What user code may call. -/
inductive Op where
  | enqueueCommandInLane (lane : String) (warnAfterMs : Option Int) (now : Int)
  | setCommandLaneConcurrency (lane : String) (maxConcurrent : Int)
  | clearCommandLane (lane : String)
  | resetAllLanes
  | markGatewayDraining
  | waitForActiveTasks (timeoutMs : Int)

def Op.apply : Op → State ε β → State ε β
  | .enqueueCommandInLane lane warnAfterMs now, s => (CommandQueue.enqueueCommandInLane lane warnAfterMs now s).2
  | .setCommandLaneConcurrency lane n, s => CommandQueue.setCommandLaneConcurrency lane n s
  | .clearCommandLane lane, s => (CommandQueue.clearCommandLane lane s).2
  | .resetAllLanes, s => CommandQueue.resetAllLanes s
  | .markGatewayDraining, s => CommandQueue.markGatewayDraining s
  | .waitForActiveTasks timeoutMs, s => CommandQueue.waitForActiveTasks timeoutMs s

/-! ### Draining a lane -/

/-- One turn of the loop: take the head entry, give it a task id, and enter its
task. `now` is the clock the wait is measured with. -/
def startEntry (l : LaneState) (entry : QueueEntry) (rest : List QueueEntry) (now : Int) (s : State ε β)
    : State ε β :=
  let waitedMs := now - entry.enqueuedAt
  let t : Task := ⟨entry.id, lane, s.nextTaskId, l.generation⟩
  {(s.setLaneState lane {l with queue := rest, activeTaskIds := l.activeTaskIds ++ [s.nextTaskId]}).push
      (.task t) with
    nextTaskId := s.nextTaskId + 1
    started := s.started ++ [t]
    waits := if entry.warnAfterMs ≤ waitedMs then s.waits ++ [(entry.id, waitedMs, rest.length)] else s.waits}

/-- A turn of the loop of `pump`, or its `finally`. The frame is the top of the
stack; it stays there while the started prefix runs above it. -/
def pumpTurn (below : List (Frame ε β)) (now : Int) (s : State ε β) : State ε β :=
  let l := s.getLaneState lane
  match l.queue with
  | entry :: rest =>
    if l.activeTaskIds.length < l.maxConcurrent then startEntry lane l entry rest now s
    else {s.setLaneState lane {l with draining := false} with stack := below}
  | [] => {s.setLaneState lane {l with draining := false} with stack := below}

def drainLane (below : List (Frame ε β)) (s : State ε β) : State ε β :=
  let l := s.getLaneState lane
  if l.draining then {s with stack := below}
  else {s.setLaneState lane {l with draining := true} with stack := .pump lane :: below}

/-- `completeTask`: the lane forgets the task, unless it was reset since. -/
def completeTask (t : Task) (s : State ε β) : Bool × State ε β :=
  let l := s.getLaneState t.lane
  if t.taskGeneration ≠ l.generation then (false, s)
  else (true, s.setLaneState t.lane {l with activeTaskIds := l.activeTaskIds.erase t.taskId})

/-- The task has ended: its entry is settled once what follows is done. -/
def recordEnd (t : Task) (result : Except ε β) (below : List (Frame ε β)) (s : State ε β) : State ε β :=
  {s with stack := .settle t result :: below, finished := s.finished ++ [(t, result)]}

/-- What follows a task's end, over the frames below it: complete, and if the
lane was not reset since, notify and pump; then settle the entry. -/
def finishTask (t : Task) (result : Except ε β) (below : List (Frame ε β)) (s : State ε β) : State ε β :=
  match completeTask t (recordEnd t result below s) with
  | (true, s) => (notifyActiveTaskWaiters s).push (.pump t.lane)
  | (false, s) => s

/-! ### The machine -/

inductive Event (ε β : Type*) where
  /-- The innermost call that is not user code takes its next step. -/
  | advance (now : Int)
  /-- User code calls an operation: a task's prefix, or the event loop. -/
  | call (op : Op)
  /-- The prefix in progress returns its promise. -/
  | suspend
  /-- The prefix in progress throws. -/
  | throw (error : ε)
  /-- A pending task's promise settles; the event loop resumes its closure. -/
  | complete (taskId : Nat) (result : Except ε β)
  /-- A waiter's timer fires. -/
  | timeout (waiterId : Nat)

def advance (now : Int) (s : State ε β) : Option (State ε β) :=
  match s.stack with
  | .drain lane :: below => some (drainLane lane below s)
  | .pump lane :: below => some (pumpTurn lane below now s)
  | .settle t result :: below => some {s with stack := below, settled := s.settled ++ [(t, result)]}
  | .notify :: below => some (notifyActiveTaskWaiters {s with stack := below})
  | .task _ :: _ => none
  | [] => none

/-- Is user code in control? -/
def userControl : Bool :=
  match s.stack with
  | [] => true
  | .task _ :: _ => true
  | _ => false

def step : Machine (State ε β) (Event ε β)
  | .advance now, s => advance now s
  | .call op, s => if userControl s then some (op.apply s) else none
  | .suspend, s =>
    match s.stack with
    | .task t :: below => some {s with stack := below, running := s.running ++ [t]}
    | _ => none
  | .throw error, s =>
    match s.stack with
    | .task t :: below => some (finishTask t (.error error) below s)
    | _ => none
  | .complete taskId result, s =>
    match s.stack, s.running.find? fun t => t.taskId = taskId with
    | [], some t => some (finishTask t result [] {s with running := s.running.erase t})
    | _, _ => none
  | .timeout waiterId, s =>
    match s.stack, s.activeTaskWaiters.find? fun w => w.id = waiterId with
    | [], some w => some {s with
        activeTaskWaiters := s.activeTaskWaiters.filter fun w' => w'.id ≠ waiterId
        resolved := s.resolved ++ [(w, false)]}
    | _, _ => none

/-- The module as it is loaded: no lanes, no tasks, no waiters. -/
def initial : State ε β := {}

end OpenClaw.Process.CommandQueue
