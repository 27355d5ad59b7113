import OpenClaw.Foundation.Run
import OpenClaw.Reply.QueueHelpers

/-! The follow-up queue of one key and its drain.

Runs that arrive while an agent is busy wait in a queue. One drain at a time
works the queue off: it reads the first items, hands their prompts to
`runFollowup` and takes the items off the queue once that run is over. The drain
is asynchronous, and each `await` is a point where other calls may come in
between: `DrainPoint` is where the drain waits, `resume` is what it does from
there to its next wait. The step function `step` takes the calls from outside,
the drain going on, and a run that throws, in any order.

`accepted`, `dropped` and `calls` are the history of the key: how many runs were
taken into the queue, which of them the drop policy removed, and what was handed
to `runFollowup`. An item carries the number of its acceptance. The times
(debounce, enqueue time) are left out: a wait may end at any time. -/
namespace OpenClaw.Reply
open Foundation

/-! ### Data -/

inductive ThreadId
  | number (n : Int)
  | text (s : String)
  deriving DecidableEq, Repr

def ThreadId.toText : ThreadId → String
  | .number n => toString n
  | .text s => s

inductive AuthProfileIdSource
  | auto | user
  deriving DecidableEq, Repr

inductive ElevatedLevel
  | off | on | ask | full
  deriving DecidableEq, Repr

structure BashElevated where
  enabled : Bool
  allowed : Bool
  defaultLevel : ElevatedLevel
  deriving DecidableEq, Repr

/-- The agent settings of a run, as far as a refresh rewrites them, and what its
sender may do. -/
structure RunOptions where
  sessionId : String
  sessionFile : String
  provider : String
  model : String
  authProfileId : Option String := none
  authProfileIdSource : Option AuthProfileIdSource := none
  senderIsOwner : Option Bool := none
  bashElevated : Option BashElevated := none
  deriving DecidableEq, Repr

structure FollowupRun where
  prompt : String
  messageId : Option String := none
  summaryLine : Option String := none
  originatingChannel : Option String := none
  originatingTo : Option String := none
  originatingAccountId : Option String := none
  originatingThreadId : Option ThreadId := none
  run : RunOptions
  deriving DecidableEq, Repr

/-- An item of the queue, with the number of its acceptance. -/
structure Queued where
  id : Nat
  followup : FollowupRun
  deriving DecidableEq, Repr

structure FollowupQueueState extends QueueState Queued where
  draining : Bool
  mode : QueueMode
  lastRun : Option RunOptions
  deriving DecidableEq

inductive QueueDedupeMode
  | messageId | prompt | none
  deriving DecidableEq, Repr

/-- What a prompt handed to `runFollowup` is made of. -/
inductive Content
  | item (item : Queued)
  | collect (items : List Queued) (summary : Option QueueSummary)
  | summary (summary : QueueSummary)
  deriving DecidableEq

namespace Content

/-- The items whose own prompts are told. -/
def own : Content → List Queued
  | .item q => [q]
  | .collect items _ => items
  | .summary _ => []

def told : Content → Option QueueSummary
  | .item _ => none
  | .collect _ sm => sm
  | .summary sm => some sm

/-- The text. -/
def prompt : Content → String
  | .item q => q.followup.prompt
  | .collect items sm =>
    buildCollectPrompt "[Queued messages while agent was busy]" items
      (sm.map (buildQueueSummaryPrompt "message"))
      fun q idx => EcmaString.trim ("---\nQueued #" ++ toString (idx + 1) ++ "\n" ++ q.followup.prompt)
  | .summary sm => buildQueueSummaryPrompt "message" sm

end Content

/-- A call of `runFollowup`: the callback, what it was handed, and the cap of the
queue at that time. -/
structure Call (φ : Type*) where
  callback : φ
  content : Content
  followup : FollowupRun
  cap : Nat
  deriving DecidableEq

inductive CollectDrainResult
  | skipped | drained | empty
  deriving DecidableEq, Repr

/-- Where the drain waits. -/
inductive DrainPoint
  /-- For the debounce time to pass, before each turn of the loop. -/
  | debounce
  /-- For the run of the first item, in collect mode. -/
  | collectRun
  /-- For `drainCollectQueueStep` to return. -/
  | collectResult (result : CollectDrainResult)
  /-- For the run of the first `count` items as one. -/
  | batchRun (count : Nat) (summary : Option QueueSummary)
  /-- For the run of a summary. -/
  | summaryRun (summary : QueueSummary)
  /-- For `drainNextQueueItem` to return after that. -/
  | summaryResult (summary : QueueSummary) (drained : Bool)
  /-- For the run of the first item. -/
  | itemRun
  /-- For `drainNextQueueItem` to return after that. -/
  | itemResult (drained : Bool)
  deriving DecidableEq

structure Drain (φ : Type*) where
  runFollowup : φ
  forceIndividualCollect : Bool
  point : DrainPoint
  deriving DecidableEq

structure State (φ : Type*) where
  /-- The entry of the key in the queue registry. -/
  queue : Option FollowupQueueState := none
  /-- The entry of the key among the remembered callbacks. -/
  callback : Option φ := none
  drain : Option (Drain φ) := none
  accepted : Nat := 0
  dropped : List Queued := []
  calls : List (Call φ) := []
  deriving DecidableEq

/-! ### Enqueueing -/

def DEFAULT_QUEUE_CAP : Nat := 20
def DEFAULT_QUEUE_DROP : QueueDropPolicy := .summarize

def applyQueueRuntimeSettings (settings : QueueSettings) (q : FollowupQueueState) : FollowupQueueState :=
  {q with
    mode := settings.mode
    cap := settledCap settings.cap q.cap
    dropPolicy := settings.dropPolicy.getD q.dropPolicy}

def newFollowupQueue (settings : QueueSettings) : FollowupQueueState where
  items := []
  cap := settledCap settings.cap DEFAULT_QUEUE_CAP
  dropPolicy := settings.dropPolicy.getD DEFAULT_QUEUE_DROP
  droppedCount := 0
  summaryLines := []
  draining := false
  mode := settings.mode
  lastRun := none

def getFollowupQueue (settings : QueueSettings) (queue : Option FollowupQueueState) : FollowupQueueState :=
  applyQueueRuntimeSettings settings (queue.getD (newFollowupQueue settings))

def hasSameRouting (a b : FollowupRun) : Bool :=
  decide (a.originatingChannel = b.originatingChannel ∧ a.originatingTo = b.originatingTo ∧
    a.originatingAccountId = b.originatingAccountId ∧ a.originatingThreadId = b.originatingThreadId)

def isRunAlreadyQueued (run : FollowupRun) (items : List Queued) (allowPromptFallback : Bool) : Bool :=
  match EcmaString.trimmed? run.messageId with
  | some messageId => items.any fun item =>
      EcmaString.trimmed? item.followup.messageId = some messageId && hasSameRouting item.followup run
  | none => allowPromptFallback && items.any fun item =>
      item.followup.prompt = run.prompt && hasSameRouting item.followup run

/-- `summaryLine?.trim() || prompt.trim()`. -/
def summarizeRun (item : Queued) : String :=
  (EcmaString.trimmed? item.followup.summaryLine).getD (EcmaString.trim item.followup.prompt)

/-- The line a summary keeps of a dropped item. -/
def summaryLineOf (item : Queued) : String := buildQueueSummaryLine (summarizeRun item)

/-- The arguments of an `enqueueFollowupRun` call. `recent` is what the shared
cache of message ids answers for the run. -/
structure Enqueue (φ : Type*) where
  run : FollowupRun
  settings : QueueSettings
  dedupeMode : QueueDedupeMode := .none
  recent : Bool := false
  runFollowup : Option φ := none
  restartIfIdle : Bool := true

variable {φ : Type*}

namespace Enqueue

def recentlyQueued (e : Enqueue φ) : Bool :=
  e.dedupeMode ≠ .none && (EcmaString.trimmed? e.run.messageId).isSome && e.recent

def shouldSkipQueueItem (e : Enqueue φ) (items : List Queued) : Bool :=
  e.dedupeMode ≠ .none && isRunAlreadyQueued e.run items (e.dedupeMode = .prompt)

/-- The call goes past the deduplication. -/
def fresh (e : Enqueue φ) (queue : Option FollowupQueueState) : Bool :=
  !e.recentlyQueued && !e.shouldSkipQueueItem (getFollowupQueue e.settings queue).items

end Enqueue

/-- A drain of the queue begins, and waits for the debounce time. -/
def startDrain (effective : φ) (q : FollowupQueueState) (s : State φ) : State φ :=
  {s with
    queue := some {q with draining := true}
    callback := some effective
    drain := some ⟨effective, false, .debounce⟩}

variable (routable : String → Bool) (s : State φ) (q : FollowupQueueState)

/-- The drain is over, and with it the queue and the remembered callback. -/
def deleteQueue : State φ := {s with queue := none, callback := none, drain := none}

/-- `beginQueueDrain` and the start of the drain. With nothing to drain it is over
at once. -/
def scheduleFollowupDrain (runFollowup : φ) (s : State φ) : State φ :=
  match s.queue with
  | none => s
  | some q =>
    if q.draining then s
    else if q.pending then startDrain (s.callback.getD runFollowup) q s
    else deleteQueue s

def kickFollowupDrainIfIdle : State φ :=
  match s.callback with
  | none => s
  | some cb => scheduleFollowupDrain cb s

/-- The state once the item is pushed. -/
def pushFollowup (e : Enqueue φ) (q : FollowupQueueState) (s : State φ) : State φ :=
  let after := (q.toQueueState.applyQueueDropPolicy summarizeRun).2
  {s with
    queue := some {q with toQueueState := {after with items := after.items ++ [⟨s.accepted, e.run⟩]}}
    callback := e.runFollowup <|> s.callback
    accepted := s.accepted + 1
    dropped := s.dropped ++ q.toQueueState.removed}

/-- The call, with what it returns. -/
def enqueueFollowupRun (e : Enqueue φ) (s : State φ) : Bool × State φ :=
  let queue := getFollowupQueue e.settings s.queue
  if e.fresh s.queue then
    let queue := {queue with lastRun := some e.run.run}
    if (queue.toQueueState.applyQueueDropPolicy summarizeRun).1 then
      let s' := pushFollowup e queue s
      (true, if e.restartIfIdle && !queue.draining then kickFollowupDrainIfIdle s' else s')
    else (false, {s with queue := some queue})
  else (false, {s with queue := some queue})

/-! ### Refreshing the queued runs of a session -/

structure Refresh where
  previousSessionId : Option String := none
  nextSessionId : Option String := none
  nextSessionFile : Option String := none
  nextProvider : Option String := none
  nextModel : Option String := none
  /-- `none` where the call does not have the property at all. -/
  nextAuthProfileId : Option (Option String) := none
  nextAuthProfileIdSource : Option (Option AuthProfileIdSource) := none

namespace Refresh

/-- The rewrite of the session, if there is one to make. -/
def session (r : Refresh) : Option (String × String) :=
  match r.previousSessionId, r.nextSessionId with
  | some previous, some next =>
    if previous ≠ "" ∧ next ≠ "" ∧ previous ≠ next then some (previous, next) else none
  | _, _ => none

def rewriteRun (r : Refresh) (run : RunOptions) : RunOptions :=
  let run := match r.session with
    | some (previous, next) =>
      if run.sessionId = previous then
        {run with
          sessionId := next
          sessionFile := if (EcmaString.trimmed? r.nextSessionFile).isSome then r.nextSessionFile.getD run.sessionFile
            else run.sessionFile}
      else run
    | none => run
  let run := {run with
    provider := r.nextProvider.getD run.provider
    model := r.nextModel.getD run.model
    authProfileId := match r.nextAuthProfileId with
      | some id => EcmaString.trimmed? id
      | none => run.authProfileId}
  match r.nextAuthProfileIdSource with
  | some source => {run with authProfileIdSource := if run.authProfileId.getD "" = "" then none else source}
  | none => run

end Refresh

def refreshQueuedFollowupSession (r : Refresh) (q : FollowupQueueState) : FollowupQueueState :=
  {q with
    lastRun := q.lastRun.map r.rewriteRun
    items := q.items.map fun item => {item with followup := {item.followup with run := r.rewriteRun item.followup.run}}}

/-! ### The drain -/

/-- The text, if it is there and not empty. -/
def filled (s : Option String) : Option String := s.filter (· ≠ "")

def filledThread (t : Option ThreadId) : Option ThreadId := t.filter (· ≠ .text "")

/-- The places the answers to the items go to, from the first item that has each. -/
def resolveOriginRoutingMetadata (items : List Queued) (prompt : String) (run : RunOptions) : FollowupRun where
  prompt := prompt
  originatingChannel := items.findSome? fun item => filled item.followup.originatingChannel
  originatingTo := items.findSome? fun item => filled item.followup.originatingTo
  originatingAccountId := items.findSome? fun item => filled item.followup.originatingAccountId
  originatingThreadId := items.findSome? fun item => filledThread item.followup.originatingThreadId
  run := run

/-- `isRoutableChannel` is `routable`: which channels there are is up to the plugins. -/
def resolveCrossChannelKey (item : Queued) : ChannelKey :=
  match filled item.followup.originatingChannel, filled item.followup.originatingTo,
      filled item.followup.originatingAccountId, filledThread item.followup.originatingThreadId with
  | none, none, none, none => {}
  | some channel, some target, account, thread =>
    if routable channel then
      {key := some ("|".intercalate [channel, target, account.getD "", (thread.map ThreadId.toText).getD ""])}
    else {cross := true}
  | _, _, _, _ => {cross := true}

/-- The drain waits at `point`, with the queue as given. -/
def waitAt (d : Drain φ) (point : DrainPoint) : State φ :=
  {s with queue := some q, drain := some {d with point := point}}

/-- `effectiveRunFollowup` is called, and the drain waits for it. -/
def callFollowup (d : Drain φ) (content : Content) (followup : FollowupRun) (point : DrainPoint) : State φ :=
  waitAt {s with calls := s.calls ++ [⟨d.runFollowup, content, followup, q.cap⟩]} q d point

/-- The `finally` block: the queue is deleted, or a new drain scheduled. -/
def drainFinally (d : Drain φ) : State φ :=
  if q.pending then
    scheduleFollowupDrain d.runFollowup {s with queue := some {q with draining := false}, drain := none}
  else deleteQueue s

/-- The head of the loop. -/
def drainLoop (d : Drain φ) : State φ :=
  if q.pending then waitAt s q d .debounce else drainFinally s q d

/-- `items.splice(0, n)`. -/
def shiftItems (n : Nat) : FollowupQueueState := {q with items := q.items.drop n}

def clearSummary : FollowupQueueState :=
  {q with toQueueState := q.toQueueState.clearQueueSummaryState}

/-- A turn of the loop in collect mode, up to its first wait. -/
def collectTurn (d : Drain φ) : State φ :=
  let isCrossChannel := hasCrossChannelItems q.items (resolveCrossChannelKey routable)
  if d.forceIndividualCollect || isCrossChannel then
    let d := {d with forceIndividualCollect := true}
    match q.items with
    | [] => waitAt s q d (.collectResult .empty)
    | item :: _ => callFollowup s q d (.item item) item.followup .collectRun
  else waitAt s q d (.collectResult .skipped)

/-- The items are collected into one prompt. -/
def collectBatch (d : Drain φ) : State φ :=
  let summary := q.previewQueueSummary
  match (q.items.getLast?.map fun item => item.followup.run) <|> q.lastRun with
  | none => drainFinally s q d
  | some run =>
    let content := Content.collect q.items summary
    callFollowup s q d content (resolveOriginRoutingMetadata q.items content.prompt run)
      (.batchRun q.items.length summary)

/-- A turn of the loop in the other modes, up to its first wait. -/
def itemTurn (d : Drain φ) : State φ :=
  match q.previewQueueSummary with
  | some summary =>
    match q.lastRun with
    | none => drainFinally s q d
    | some run =>
      match q.items with
      | [] => waitAt s q d (.summaryResult summary false)
      | item :: _ =>
        callFollowup s q d (.summary summary)
          {item.followup with
            prompt := (Content.summary summary).prompt
            messageId := none
            summaryLine := none
            run := run} (.summaryRun summary)
  | none =>
    match q.items with
    | [] => waitAt s q d (.itemResult false)
    | item :: _ => callFollowup s q d (.item item) item.followup .itemRun

/-- The drain goes on from where it waits, what it waited for having resolved. -/
def resumeDrain (d : Drain φ) : State φ :=
  match d.point with
  | .debounce => if q.mode = .collect then collectTurn routable s q d else itemTurn s q d
  | .collectRun => waitAt s (shiftItems q 1) d (.collectResult .drained)
  | .collectResult .drained => drainLoop s q d
  | .collectResult .empty => drainFinally s q d
  | .collectResult .skipped => collectBatch s q d
  | .batchRun count summary =>
    drainLoop s (if summary.isSome then clearSummary (shiftItems q count) else shiftItems q count) d
  | .summaryRun summary => waitAt s (shiftItems q 1) d (.summaryResult summary true)
  | .summaryResult _ true => drainLoop s (clearSummary q) d
  | .summaryResult _ false => drainFinally s q d
  | .itemRun => waitAt s (shiftItems q 1) d (.itemResult true)
  | .itemResult true => drainLoop s q d
  | .itemResult false => drainFinally s q d

/-- The drain waits for a run. -/
def DrainPoint.isRun : DrainPoint → Bool
  | .collectRun | .batchRun _ _ | .summaryRun _ | .itemRun => true
  | _ => false

/-! ### Steps -/

inductive Event (φ : Type*)
  | enqueue (call : Enqueue φ)
  | schedule (runFollowup : φ)
  | refresh (params : Refresh)
  /-- What the drain waits for resolves, and the drain goes on. -/
  | resume
  /-- The run the drain waits for throws. -/
  | reject

def step : Machine (State φ) (Event φ)
  | .enqueue e, s => some (enqueueFollowupRun e s).2
  | .schedule cb, s => some (scheduleFollowupDrain cb s)
  | .refresh r, s => some {s with queue := s.queue.map (refreshQueuedFollowupSession r)}
  | .resume, s =>
    match s.queue, s.drain with
    | some q, some d => some (resumeDrain routable s q d)
    | _, _ => none
  | .reject, s =>
    match s.queue, s.drain with
    | some q, some d => if d.point.isRun then some (drainFinally s q d) else none
    | _, _ => none

/-- The run the drain waits for does not throw. -/
def Event.resolves : Event φ → Prop
  | .reject => False
  | _ => True

instance (e : Event φ) : Decidable e.resolves :=
  match e with
  | .reject => .isFalse id
  | .enqueue _ | .schedule _ | .refresh _ | .resume => .isTrue trivial

/-! ### Plain calls -/

def plainOptions : RunOptions := {sessionId := "s", sessionFile := "s.jsonl", provider := "p", model := "m"}

/-- A call that enqueues a prompt under a cap and a policy. -/
def enqueuePrompt (mode : QueueMode) (cap : ℚ) (policy : QueueDropPolicy) (prompt : String) : Event Unit :=
  .enqueue
    { run := {prompt := prompt, run := plainOptions}
      settings := {mode := mode, cap := some cap, dropPolicy := some policy} }

end OpenClaw.Reply
