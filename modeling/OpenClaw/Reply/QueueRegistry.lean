import OpenClaw.Reply.FollowupQueue

/-! The registry of follow-up queues, at one key.

A drain works on the queue it found under its key and goes by the key again when it is
over. A clear in between empties that queue and takes it out of the registry, and the
next call makes a new one. So a queue is an object with a number here, the registry
holds the number of one of them, and each drain under way has the number of its own.

`removals` is the history of what finally blocks removed, each with the number of the
drain's own queue, the one the registry held, and whether a callback was stored. -/
namespace OpenClaw.Reply
open Foundation

variable {φ : Type*}

/-! ### A turn of a drain -/

/-- What a drain does from one wait to the next: it waits again, with its queue as left
and perhaps a call of `runFollowup`, or its loop is over. -/
inductive Turn (φ : Type*)
  | waits (q : FollowupQueueState) (d : Drain φ) (call : Option (Call φ))
  | finished (q : FollowupQueueState)

namespace Turn

def waitAt (q : FollowupQueueState) (d : Drain φ) (point : DrainPoint) : Turn φ :=
  .waits q {d with point := point} none

def callFollowup (q : FollowupQueueState) (d : Drain φ) (content : Content) (followup : FollowupRun)
    (point : DrainPoint) : Turn φ :=
  .waits q {d with point := point} (some ⟨d.runFollowup, content, followup, q.cap⟩)

/-- The head of the loop. -/
def loop (q : FollowupQueueState) (d : Drain φ) : Turn φ := if q.pending then waitAt q d .debounce else .finished q

/-- A turn in collect mode, up to its first wait. -/
def collectTurn (routable : String → Bool) (q : FollowupQueueState) (d : Drain φ) : Turn φ :=
  let isCrossChannel := hasCrossChannelItems q.items (resolveCrossChannelKey routable)
  if d.forceIndividualCollect || isCrossChannel then
    let d := {d with forceIndividualCollect := true}
    match q.items with
    | [] => waitAt q d (.collectResult .empty)
    | item :: _ => callFollowup q d (.item item) item.followup .collectRun
  else waitAt q d (.collectResult .skipped)

def collectBatch (q : FollowupQueueState) (d : Drain φ) : Turn φ :=
  let summary := q.previewQueueSummary
  match (q.items.getLast?.map fun item => item.followup.run) <|> q.lastRun with
  | none => .finished q
  | some run =>
    let content := Content.collect q.items summary
    callFollowup q d content (resolveOriginRoutingMetadata q.items content.prompt run)
      (.batchRun q.items.length summary)

/-- A turn in the other modes, up to its first wait. -/
def itemTurn (q : FollowupQueueState) (d : Drain φ) : Turn φ :=
  match q.previewQueueSummary with
  | some summary =>
    match q.lastRun with
    | none => .finished q
    | some run =>
      match q.items with
      | [] => waitAt q d (.summaryResult summary false)
      | item :: _ =>
        callFollowup q d (.summary summary)
          {item.followup with
            prompt := (Content.summary summary).prompt
            messageId := none
            summaryLine := none
            run := run} (.summaryRun summary)
  | none =>
    match q.items with
    | [] => waitAt q d (.itemResult false)
    | item :: _ => callFollowup q d (.item item) item.followup .itemRun

end Turn

/-- What the drain does on its queue from where it waits. -/
def takeTurn (routable : String → Bool) (q : FollowupQueueState) (d : Drain φ) : Turn φ :=
  match d.point with
  | .debounce => if q.mode = .collect then .collectTurn routable q d else .itemTurn q d
  | .collectRun => .waitAt (shiftItems q 1) d (.collectResult .drained)
  | .collectResult .drained => .loop q d
  | .collectResult .empty => .finished q
  | .collectResult .skipped => .collectBatch q d
  | .batchRun count summary =>
    .loop (if summary.isSome then clearSummary (shiftItems q count) else shiftItems q count) d
  | .summaryRun summary => .waitAt (shiftItems q 1) d (.summaryResult summary true)
  | .summaryResult _ true => .loop (clearSummary q) d
  | .summaryResult _ false => .finished q
  | .itemRun => .waitAt (shiftItems q 1) d (.itemResult true)
  | .itemResult true => .loop q d
  | .itemResult false => .finished q

/-- The state a turn leaves where the key has had one queue only. -/
def Turn.leaves (s : State φ) (d : Drain φ) : Turn φ → State φ
  | .waits q' d' call => {s with queue := some q', drain := some d', calls := s.calls ++ call.toList}
  | .finished q' => Reply.drainFinally s q' d

section Leaves
variable (s : State φ) (q : FollowupQueueState) (d : Drain φ)

theorem leaves_waitAt (point : DrainPoint) : (Turn.waitAt q d point).leaves s d = waitAt s q d point := by
  simp [Turn.leaves, Turn.waitAt, waitAt]

theorem leaves_loop : (Turn.loop q d).leaves s d = drainLoop s q d := by
  rw [Turn.loop, drainLoop]
  split
  · exact leaves_waitAt s q d .debounce
  · rfl

theorem leaves_collectTurn (routable : String → Bool) :
    (Turn.collectTurn routable q d).leaves s d = collectTurn routable s q d := by
  rw [Turn.collectTurn, collectTurn]
  dsimp only
  split
  · cases q.items <;> simp [Turn.leaves, Turn.waitAt, Turn.callFollowup, waitAt, callFollowup]
  · exact leaves_waitAt s q d _

theorem leaves_collectBatch : (Turn.collectBatch q d).leaves s d = collectBatch s q d := by
  rw [Turn.collectBatch, collectBatch]
  dsimp only
  cases (q.items.getLast?.map fun item => item.followup.run) <|> q.lastRun <;>
    simp [Turn.leaves, Turn.callFollowup, waitAt, callFollowup]

theorem leaves_itemTurn : (Turn.itemTurn q d).leaves s d = itemTurn s q d := by
  rw [Turn.itemTurn, itemTurn]
  cases q.previewQueueSummary with
  | none => cases q.items <;> simp [Turn.leaves, Turn.waitAt, Turn.callFollowup, waitAt, callFollowup]
  | some summary =>
    cases q.lastRun with
    | none => rfl
    | some run => cases q.items <;> simp [Turn.leaves, Turn.waitAt, Turn.callFollowup, waitAt, callFollowup]

/-- With one queue for the key, a drain that goes on takes a turn, and goes by the key
when its loop is over. -/
theorem takeTurn_leaves (routable : String → Bool) :
    (takeTurn routable q d).leaves s d = resumeDrain routable s q d := by
  rw [takeTurn, resumeDrain]
  match d.point with
  | .debounce =>
    dsimp only
    split
    · exact leaves_collectTurn s q d routable
    · exact leaves_itemTurn s q d
  | .collectRun => exact leaves_waitAt s _ d _
  | .collectResult .drained => exact leaves_loop s q d
  | .collectResult .empty => rfl
  | .collectResult .skipped => exact leaves_collectBatch s q d
  | .batchRun _ _ => exact leaves_loop s _ d
  | .summaryRun _ => exact leaves_waitAt s _ d _
  | .summaryResult _ true => exact leaves_loop s _ d
  | .summaryResult _ false => rfl
  | .itemRun => exact leaves_waitAt s _ d _
  | .itemResult true => exact leaves_loop s q d
  | .itemResult false => rfl

end Leaves

/-! ### The registry -/

/-- What a finally block removed. -/
structure Removal where
  /-- The queue of the drain that is over. -/
  own : Nat
  /-- The queue the registry held. -/
  entry : Option Nat
  /-- A callback was stored. -/
  callback : Bool
  deriving DecidableEq

structure QueueRegistry (φ : Type*) where
  /-- The queues made so far. -/
  queues : List FollowupQueueState := []
  /-- The entry of the key in `FOLLOWUP_QUEUES`. -/
  entry : Option Nat := none
  /-- The entry of the key in `FOLLOWUP_RUN_CALLBACKS`. -/
  callback : Option φ := none
  /-- The drains under way, each with its queue. -/
  drains : List (Nat × Drain φ) := []
  accepted : Nat := 0
  calls : List (Nat × Call φ) := []
  removals : List Removal := []
  deriving DecidableEq

namespace QueueRegistry

def setQueue (i : Nat) (q : FollowupQueueState) (s : QueueRegistry φ) : QueueRegistry φ :=
  {s with queues := s.queues.set i q}

/-- The end of a finally block with nothing left to drain. -/
def remove (own : Nat) (s : QueueRegistry φ) : QueueRegistry φ :=
  {s with
    entry := none
    callback := none
    removals := s.removals ++ [⟨own, s.entry, s.callback.isSome⟩]}

/-- A drain begins on the queue the registry holds, unless one is under way there. With
nothing to drain it is over at once. -/
def scheduleFollowupDrain (runFollowup : φ) (s : QueueRegistry φ) : QueueRegistry φ :=
  match s.entry with
  | none => s
  | some i =>
    match s.queues[i]? with
    | none => s
    | some q =>
      if q.draining then s
      else
        let effective := s.callback.getD runFollowup
        let s := {s with callback := some effective}
        if q.pending then
          {s.setQueue i {q with draining := true} with drains := s.drains ++ [(i, ⟨effective, false, .debounce⟩)]}
        else s.remove i

def kickFollowupDrainIfIdle (s : QueueRegistry φ) : QueueRegistry φ :=
  match s.callback with
  | none => s
  | some cb => s.scheduleFollowupDrain cb

/-- `getFollowupQueue`: the queue the registry holds, or a new one, under the settings. -/
def openQueue (settings : QueueSettings) (s : QueueRegistry φ) : Nat × FollowupQueueState × QueueRegistry φ :=
  match s.entry.bind fun i => s.queues[i]?.map fun q => (i, q) with
  | some (i, q) =>
    let q := getFollowupQueue settings (some q)
    (i, q, s.setQueue i q)
  | none =>
    let q := getFollowupQueue settings none
    (s.queues.length, q, {s with queues := s.queues ++ [q], entry := some s.queues.length})

/-- The call passes the deduplication and the drop policy of the queue it finds. -/
def takes (e : Enqueue φ) (s : QueueRegistry φ) : Bool :=
  let queue := s.entry.bind fun i => s.queues[i]?
  e.fresh queue && ((getFollowupQueue e.settings queue).toQueueState.applyQueueDropPolicy summarizeRun).1

/-- The call, with what it returns. -/
def enqueueFollowupRun (e : Enqueue φ) (s : QueueRegistry φ) : Bool × QueueRegistry φ :=
  let fresh := e.fresh (s.entry.bind fun i => s.queues[i]?)
  let (i, q, s) := s.openQueue e.settings
  if fresh then
    let q := {q with lastRun := some e.run.run}
    let (taken, after) := q.toQueueState.applyQueueDropPolicy summarizeRun
    if taken then
      let s := {s.setQueue i {q with
          toQueueState := {after with items := after.items ++ [⟨s.accepted, e.run⟩]}} with
        callback := e.runFollowup <|> s.callback
        accepted := s.accepted + 1}
      (true, if e.restartIfIdle && !q.draining then s.kickFollowupDrainIfIdle else s)
    else (false, s.setQueue i q)
  else (false, s)

/-- A queue with everything in it gone. -/
def emptied (q : FollowupQueueState) : FollowupQueueState :=
  {q with items := [], droppedCount := 0, summaryLines := [], lastRun := none}

def clearFollowupQueue (s : QueueRegistry φ) : QueueRegistry φ :=
  match s.entry.bind fun i => s.queues[i]?.map fun q => (i, q) with
  | none => s
  | some (i, q) => {s.setQueue i (emptied q) with entry := none}

/-- What `clearSessionQueues` does for the key. -/
def clearSessionQueues (s : QueueRegistry φ) : QueueRegistry φ := {s.clearFollowupQueue with callback := none}

/-- The finally block of the `n`th drain. -/
def drainFinally (n i : Nat) (q : FollowupQueueState) (d : Drain φ) (s : QueueRegistry φ) : QueueRegistry φ :=
  let s := {s.setQueue i {q with draining := false} with drains := s.drains.eraseIdx n}
  if q.pending then s.scheduleFollowupDrain d.runFollowup else s.remove i

def resumeDrain (routable : String → Bool) (n i : Nat) (q : FollowupQueueState) (d : Drain φ)
    (s : QueueRegistry φ) : QueueRegistry φ :=
  match takeTurn routable q d with
  | .waits q' d' call =>
    {s.setQueue i q' with drains := s.drains.set n (i, d'), calls := s.calls ++ call.toList.map (i, ·)}
  | .finished q' => s.drainFinally n i q' d

end QueueRegistry

inductive QueueEvent (φ : Type*)
  | enqueue (call : Enqueue φ)
  | schedule (runFollowup : φ)
  | refresh (params : Refresh)
  | clearFollowupQueue
  | clearSessionQueues
  /-- What the `n`th drain waits for resolves, and it goes on. -/
  | resume (n : Nat)
  /-- The run the `n`th drain waits for throws. -/
  | reject (n : Nat)

def registryStep (routable : String → Bool) : Machine (QueueRegistry φ) (QueueEvent φ)
  | .enqueue e, s => some (s.enqueueFollowupRun e).2
  | .schedule cb, s => some (s.scheduleFollowupDrain cb)
  | .refresh r, s =>
    match s.entry.bind fun i => s.queues[i]?.map fun q => (i, q) with
    | none => some s
    | some (i, q) => some (s.setQueue i (refreshQueuedFollowupSession r q))
  | .clearFollowupQueue, s => some s.clearFollowupQueue
  | .clearSessionQueues, s => some s.clearSessionQueues
  | .resume n, s =>
    match s.drains[n]? with
    | none => none
    | some (i, d) => s.queues[i]?.map fun q => s.resumeDrain routable n i q d
  | .reject n, s =>
    match s.drains[n]? with
    | none => none
    | some (i, d) => if d.point.isRun then s.queues[i]?.map fun q => s.drainFinally n i q d else none

end OpenClaw.Reply
