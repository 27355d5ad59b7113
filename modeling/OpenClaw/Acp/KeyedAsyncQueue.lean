import OpenClaw.Foundation.InsertionMap
import OpenClaw.Foundation.Run

/-! Tasks run one after the other, key by key.

`enqueueKeyedTask` chains a task behind the tail of its key with promise reactions. Each
reaction runs in a turn of its own, and the turns of different tasks come in any order:
`QueueEvent` has one event for each reaction, one for the settlement of a task's own
promise, and `enqueue`, which may come at any time, also from within a task.

`ρ` and `ε` are the types of values and errors. The hooks act on a state `σ` of their own
and do not throw; `SessionActorQueue` counts with them. -/
namespace OpenClaw.Acp
open Foundation

/-! ### Promises -/

inductive Settlement (ρ ε : Type*) where
  | fulfilled (value : ρ)
  | rejected (error : ε)
  deriving Repr, DecidableEq

/-- `.catch(() => undefined)` on a promise of nothing. -/
def Settlement.caught {ε : Type*} : Settlement Unit ε → Settlement Unit ε
  | .fulfilled () => .fulfilled ()
  | .rejected _ => .fulfilled ()

/-- `.then(() => undefined, () => undefined)`. -/
def Settlement.toTail {ρ ε : Type*} : Settlement ρ ε → Settlement Unit ε
  | .fulfilled _ => .fulfilled ()
  | .rejected _ => .fulfilled ()

/-- How far the chain of a task has come. -/
inductive Stage (ρ ε : Type*) where
  /-- `.then(params.task)` has not run. -/
  | waiting
  /-- The promise of the task is pending. -/
  | running
  /-- The promise of `.then(params.task)` has settled. -/
  | done (outcome : Settlement ρ ε)
  /-- The callback of `.finally` has run. -/
  | hooked (outcome : Settlement ρ ε)
  /-- `current`, the promise that was returned, has settled. -/
  | settled (outcome : Settlement ρ ε)
  /-- `tail` has settled. -/
  | tailSettled (outcome : Settlement ρ ε)
  /-- The callback of `tail.finally` has run. -/
  | cleaned (outcome : Settlement ρ ε)
  deriving Repr, DecidableEq

/-- What `tail` has settled with. -/
def Stage.tail? {ρ ε : Type*} : Stage ρ ε → Option (Settlement Unit ε)
  | .tailSettled outcome | .cleaned outcome => some outcome.toTail
  | _ => none

/-- What the returned promise has settled with. -/
def Stage.returned? {ρ ε : Type*} : Stage ρ ε → Option (Settlement ρ ε)
  | .settled outcome | .tailSettled outcome | .cleaned outcome => some outcome
  | _ => none

/-- The task's `finally` has not run, which is when a task is told to have settled. -/
def Stage.isPending {ρ ε : Type*} : Stage ρ ε → Bool
  | .waiting | .running | .done _ => true
  | _ => false

/-! ### The queue -/

structure KeyedTask (ρ ε : Type*) where
  key : String
  /-- The task whose tail it waits for; none for a promise that was resolved at once. -/
  previous : Option Nat
  stage : Stage ρ ε := .waiting
  /-- What the task's own promise settled with. -/
  own : Option (Settlement ρ ε) := none
  deriving Repr, DecidableEq

structure KeyedAsyncQueueHooks (σ : Type*) where
  onEnqueue : String → σ → σ
  onSettle : String → σ → σ

/-- A task is known by its number, in the order of the calls; a tail by its task. -/
structure KeyedAsyncQueue (ρ ε σ : Type*) where
  tasks : List (KeyedTask ρ ε) := []
  tails : InsertionMap String Nat := ∅
  hookState : σ

inductive QueueEvent (ρ ε : Type*) where
  | enqueue (key : String)
  | start (i : Nat)
  | settleTask (i : Nat) (outcome : Settlement ρ ε)
  | onSettle (i : Nat)
  | settleCurrent (i : Nat)
  | settleTail (i : Nat)
  | cleanUp (i : Nat)

section Queue
variable {ρ ε σ : Type*} (hooks : KeyedAsyncQueueHooks σ)

namespace KeyedAsyncQueue
variable (q : KeyedAsyncQueue ρ ε σ)

def enqueueKeyedTask (key : String) : KeyedAsyncQueue ρ ε σ :=
  { tasks := q.tasks ++ [{key := key, previous := q.tails.get? key}]
    tails := q.tails.set key q.tasks.length
    hookState := hooks.onEnqueue key q.hookState }

/-- What the promise that a task is chained to has settled with. -/
def previousSettlement (task : KeyedTask ρ ε) : Option (Settlement Unit ε) :=
  match task.previous with
  | none => some (.fulfilled ())
  | some i => q.tasks[i]?.bind fun previous => previous.stage.tail?

def setTask (i : Nat) (task : KeyedTask ρ ε) : KeyedAsyncQueue ρ ε σ := {q with tasks := q.tasks.set i task}

/-- `.then(params.task)`: the task is called, unless a rejection is passed on. -/
def startTask (i : Nat) (task : KeyedTask ρ ε) : Option (KeyedAsyncQueue ρ ε σ) :=
  match task.stage, (q.previousSettlement task).map Settlement.caught with
  | .waiting, some (.fulfilled ()) => some (q.setTask i {task with stage := .running})
  | .waiting, some (.rejected error) => some (q.setTask i {task with stage := .done (.rejected error)})
  | _, _ => none

/-- The callback of `tail.finally`: the tail is removed if it is still the newest. -/
def removeTail (i : Nat) (key : String) : InsertionMap String Nat :=
  if q.tails.get? key = some i then q.tails.erase key else q.tails

/-- A reaction of the task's chain, where it is its turn. -/
def react (task : KeyedTask ρ ε) : QueueEvent ρ ε → Option (KeyedAsyncQueue ρ ε σ)
  | .enqueue _ => none
  | .start i => q.startTask i task
  | .settleTask i outcome =>
    match task.stage with
    | .running => some (q.setTask i {task with stage := .done outcome, own := some outcome})
    | _ => none
  | .onSettle i =>
    match task.stage with
    | .done outcome =>
      some {q.setTask i {task with stage := .hooked outcome} with
        hookState := hooks.onSettle task.key q.hookState}
    | _ => none
  | .settleCurrent i =>
    match task.stage with
    | .hooked outcome => some (q.setTask i {task with stage := .settled outcome})
    | _ => none
  | .settleTail i =>
    match task.stage with
    | .settled outcome => some (q.setTask i {task with stage := .tailSettled outcome})
    | _ => none
  | .cleanUp i =>
    match task.stage with
    | .tailSettled outcome =>
      some {q.setTask i {task with stage := .cleaned outcome} with tails := q.removeTail i task.key}
    | _ => none

end KeyedAsyncQueue

def QueueEvent.task? : QueueEvent ρ ε → Option Nat
  | .enqueue _ => none
  | .start i | .settleTask i _ | .onSettle i | .settleCurrent i | .settleTail i | .cleanUp i => some i

def queueStep : Machine (KeyedAsyncQueue ρ ε σ) (QueueEvent ρ ε) := fun e q =>
  match e with
  | .enqueue key => some (q.enqueueKeyedTask hooks key)
  | e => e.task?.bind fun i => q.tasks[i]?.bind fun task => q.react hooks task e

end Queue

/-! ### The session actor queue -/

abbrev PendingBySession := InsertionMap String Int

/-- The hooks of `SessionActorQueue`. -/
def actorHooks : KeyedAsyncQueueHooks PendingBySession where
  onEnqueue key pending := pending.set key ((pending.get? key).getD 0 + 1)
  onSettle key pending :=
    let count := (pending.get? key).getD 1 - 1
    if count ≤ 0 then pending.erase key else pending.set key count

abbrev SessionActorQueue (ρ ε : Type*) := KeyedAsyncQueue ρ ε PendingBySession

def SessionActorQueue.getPendingCountForSession {ρ ε : Type*} (q : SessionActorQueue ρ ε) (actorKey : String) : Int :=
  (q.hookState.get? actorKey).getD 0

end OpenClaw.Acp
