import OpenClaw.Foundation.InsertionMap
import OpenClaw.Foundation.Run
import OpenClaw.Reply.QueueHelpers

/-! Chat runs and how they are reported.

An agent run reports its progress as events of its run id; chat clients know the run
by a client run id, which is the run id itself unless the run was registered with
another (`registry`). The handler of agent events buffers the text of the assistant
and broadcasts it as deltas, and a final or error event when the run ends.
`abortChatRunById` reports a run aborted, by its client run id, while the run has a
controller.

`broadcasts` are the chat events broadcast, in order; `registered`, `controlled` and
`ended` which runs were registered, got a controller, and reported their end.
`RunNames` says which runs there are and by which id each is known. -/
namespace OpenClaw.Gateway
open Foundation

/-! ### Text -/

/-- What the handler asks of the modules about texts. -/
structure ChatTextHost where
  stripInlineDirectiveTagsForDisplay : String → String
  isSilentReplyText : String → Bool
  isSilentReplyLeadFragment : String → Bool
  /-- The text of a hidden heartbeat run, and whether it is suppressed. -/
  normalizeHiddenHeartbeatText : String → Bool × String

/-- The longest end of `base` that `suffix` starts with is not repeated. -/
def appendUniqueSuffix (base suffix : String) : String :=
  if suffix = "" then base
  else if base = "" then suffix
  else if EcmaString.endsWith base suffix then base
  else
    let b := base.toList
    let t := suffix.toList
    let overlaps := (List.range (min b.length t.length)).map fun n => min b.length t.length - n
    match overlaps.find? fun overlap => b.drop (b.length - overlap) = t.take overlap with
    | some overlap => String.ofList (b ++ t.drop overlap)
    | none => base ++ suffix

def resolveMergedAssistantText (previousText nextText nextDelta : String) : String :=
  if nextText ≠ "" ∧ previousText ≠ "" ∧ EcmaString.startsWith nextText previousText then nextText
  else if nextText ≠ "" ∧ previousText ≠ "" ∧ EcmaString.startsWith previousText nextText ∧ nextDelta = "" then
    previousText
  else if nextDelta ≠ "" then appendUniqueSuffix previousText nextDelta
  else if nextText ≠ "" then nextText
  else previousText

/-! ### Data -/

structure ChatRunEntry where
  sessionKey : String
  clientRunId : String
  deriving DecidableEq

abbrev ChatRunRegistry := InsertionMap String (List ChatRunEntry)

namespace ChatRunRegistry
variable (registry : ChatRunRegistry)

def add (sessionId : String) (entry : ChatRunEntry) : ChatRunRegistry :=
  match registry.get? sessionId with
  | some queue => registry.set sessionId (queue ++ [entry])
  | none => registry.set sessionId [entry]

def peek (sessionId : String) : Option ChatRunEntry := (registry.get? sessionId).bind List.head?

/-- The queue of a session replaced, gone once it is empty. -/
def setQueue (sessionId : String) (queue : List ChatRunEntry) : ChatRunRegistry :=
  if queue.isEmpty then registry.erase sessionId else registry.set sessionId queue

def shift (sessionId : String) : Option ChatRunEntry × ChatRunRegistry :=
  match registry.get? sessionId with
  | some (entry :: rest) => (some entry, setQueue registry sessionId rest)
  | _ => (none, registry)

def remove (sessionId clientRunId : String) (sessionKey : Option String) : Option ChatRunEntry × ChatRunRegistry :=
  match registry.get? sessionId with
  | none => (none, registry)
  | some queue =>
    let wanted (entry : ChatRunEntry) : Bool :=
      entry.clientRunId = clientRunId && (sessionKey.filter (· ≠ "")).all (entry.sessionKey = ·)
    match queue.find? wanted with
    | none => (none, registry)
    | some entry => (some entry, setQueue registry sessionId (queue.eraseP wanted))

end ChatRunRegistry

structure ChatRunState where
  registry : ChatRunRegistry := ∅
  buffers : InsertionMap String String := ∅
  deltaSentAt : InsertionMap String Nat := ∅
  deltaLastBroadcastLen : InsertionMap String Nat := ∅
  abortedRuns : InsertionMap String Nat := ∅

inductive ChatEventState
  | delta | final | error | aborted
  deriving DecidableEq, Repr

/-- The event ends the run for its clients. -/
def ChatEventState.isTerminal : ChatEventState → Bool
  | .delta => false
  | _ => true

structure ChatBroadcast where
  runId : String
  sessionKey : String
  seq : Nat
  state : ChatEventState
  /-- The text of the assistant, with its time. -/
  message : Option (String × Nat) := none
  stopReason : Option String := none
  errorMessage : Option String := none
  deriving DecidableEq

structure ChatAbortControllerEntry where
  sessionKey : String
  deriving DecidableEq

structure ChatGateway where
  chatRunState : ChatRunState := {}
  agentRunSeq : InsertionMap String Nat := ∅
  chatAbortControllers : InsertionMap String ChatAbortControllerEntry := ∅
  broadcasts : List ChatBroadcast := []
  registered : List String := []
  controlled : List String := []
  ended : List String := []

inductive AgentEventStream
  | lifecycle | tool | assistant | item | other
  deriving DecidableEq, Repr

structure AgentEvent where
  runId : String
  seq : Nat
  stream : AgentEventStream
  phase : Option String := none
  text : Option String := none
  delta : Option String := none
  stopReason : Option String := none
  error : Option String := none
  sessionKey : Option String := none

/-- What the handler reads of a run's context while it handles an event. -/
structure AgentRunView where
  isControlUiVisible : Bool := true
  /-- The output of the run is that of a heartbeat, hidden from chat clients. -/
  shouldHideHeartbeatChatOutput : Bool := false
  resolveSessionKeyForRun : Option String := none

/-- The run reports its end. -/
def AgentEvent.isEnd (evt : AgentEvent) : Bool :=
  evt.stream = .lifecycle && (evt.phase = some "end" || evt.phase = some "error")

/-! ### The handler of agent events -/

section Handler
variable (host : ChatTextHost) (view : AgentRunView) (now : Nat)

namespace ChatGateway

def broadcast (b : ChatBroadcast) (s : ChatGateway) : ChatGateway := {s with broadcasts := s.broadcasts ++ [b]}

/-- A delta is broadcast: when, and up to which length. -/
def sendDelta (b : ChatBroadcast) (length : Nat) (s : ChatGateway) : ChatGateway :=
  {s with
    chatRunState.deltaSentAt := s.chatRunState.deltaSentAt.set b.runId now
    chatRunState.deltaLastBroadcastLen := s.chatRunState.deltaLastBroadcastLen.set b.runId length
    broadcasts := s.broadcasts ++ [b]}

def emitChatDelta (sessionKey clientRunId : String) (seq : Nat) (text : String) (delta : Option String)
    (s : ChatGateway) : ChatGateway :=
  let cleanedText := host.stripInlineDirectiveTagsForDisplay text
  let cleanedDelta := (delta.map host.stripInlineDirectiveTagsForDisplay).getD ""
  let previousText := (s.chatRunState.buffers.get? clientRunId).getD ""
  let mergedText := resolveMergedAssistantText previousText cleanedText cleanedDelta
  if mergedText = "" then s
  else
    let s := {s with chatRunState.buffers := s.chatRunState.buffers.set clientRunId mergedText}
    if host.isSilentReplyText mergedText then s
    else if host.isSilentReplyLeadFragment mergedText then s
    else if view.shouldHideHeartbeatChatOutput then s
    else if now - (s.chatRunState.deltaSentAt.get? clientRunId).getD 0 < 150 then s
    else s.sendDelta now ⟨clientRunId, sessionKey, seq, .delta, some (mergedText, now), none, none⟩
      (Reply.utf16Length mergedText.toList)

/-- The text buffered for a run, and whether it is not to be shown. -/
def resolveBufferedChatTextState (clientRunId : String) (s : ChatGateway) : String × Bool :=
  let bufferedText := EcmaString.trim
    (host.stripInlineDirectiveTagsForDisplay ((s.chatRunState.buffers.get? clientRunId).getD ""))
  let normalized := if view.shouldHideHeartbeatChatOutput then host.normalizeHiddenHeartbeatText bufferedText
    else (false, bufferedText)
  let text := EcmaString.trim normalized.2
  (text, normalized.1 || host.isSilentReplyText text)

def flushBufferedChatDeltaIfNeeded (sessionKey clientRunId : String) (seq : Nat) (s : ChatGateway) : ChatGateway :=
  let (text, shouldSuppressSilent) := s.resolveBufferedChatTextState host view clientRunId
  if text = "" || shouldSuppressSilent || host.isSilentReplyLeadFragment text ||
      view.shouldHideHeartbeatChatOutput then s
  else if Reply.utf16Length text.toList ≤ (s.chatRunState.deltaLastBroadcastLen.get? clientRunId).getD 0 then s
  else s.sendDelta now ⟨clientRunId, sessionKey, seq, .delta, some (text, now), none, none⟩
    (Reply.utf16Length text.toList)

inductive JobState
  | done | error
  deriving DecidableEq, Repr

def emitChatFinal (sessionKey clientRunId : String) (seq : Nat) (jobState : JobState) (error stopReason : Option String)
    (s : ChatGateway) : ChatGateway :=
  let (text, shouldSuppressSilent) := s.resolveBufferedChatTextState host view clientRunId
  let s := s.flushBufferedChatDeltaIfNeeded host view now sessionKey clientRunId seq
  let s := {s with
    chatRunState.deltaLastBroadcastLen := s.chatRunState.deltaLastBroadcastLen.erase clientRunId
    chatRunState.buffers := s.chatRunState.buffers.erase clientRunId
    chatRunState.deltaSentAt := s.chatRunState.deltaSentAt.erase clientRunId}
  match jobState with
  | .done => s.broadcast ⟨clientRunId, sessionKey, seq, .final,
      if text ≠ "" ∧ ¬ shouldSuppressSilent then some (text, now) else none, stopReason.filter (· ≠ ""), none⟩
  | .error => s.broadcast ⟨clientRunId, sessionKey, seq, .error, none, none, error⟩

/-- The session key of an event: that of the run's registration, of the event, or the
one found for the run. An empty one counts for none. -/
def sessionKeyOf (evt : AgentEvent) (s : ChatGateway) : Option String :=
  let eventSessionKey := evt.sessionKey.filter fun key => (EcmaString.trimmed key).isSome
  ((((s.chatRunState.registry.peek evt.runId).map ChatRunEntry.sessionKey).or eventSessionKey).or
    view.resolveSessionKeyForRun).filter (· ≠ "")

/-- The id clients know the run of an event by. -/
def clientRunIdOf (evt : AgentEvent) (s : ChatGateway) : String :=
  ((s.chatRunState.registry.peek evt.runId).map ChatRunEntry.clientRunId).getD evt.runId

def isAborted (evt : AgentEvent) (s : ChatGateway) : Bool :=
  (s.chatRunState.abortedRuns.get? (s.clientRunIdOf evt)).isSome ||
    (s.chatRunState.abortedRuns.get? evt.runId).isSome

/-- Text is flushed before a tool or an item starts. -/
def flushBeforeStart (evt : AgentEvent) (s : ChatGateway) : ChatGateway :=
  if (evt.stream = .tool ∨ evt.stream = .item) ∧ evt.phase = some "start" ∧ view.isControlUiVisible ∧
      ¬ s.isAborted evt then
    match s.sessionKeyOf view evt with
    | some sessionKey => s.flushBufferedChatDeltaIfNeeded host view now sessionKey (s.clientRunIdOf evt) evt.seq
    | none => s
  else s

/-- The run of an event that ends it is reported, unless it was aborted. -/
def finishRun (evt : AgentEvent) (sessionKey : String) (s : ChatGateway) : ChatGateway :=
  let jobState := if evt.phase = some "error" then .error else .done
  match s.chatRunState.registry.peek evt.runId with
  | some _ =>
    match ChatRunRegistry.shift s.chatRunState.registry evt.runId with
    -- Not taken: what `peek` finds `shift` finds.
    | (none, registry) => {s with chatRunState.registry := registry}
    | (some finished, registry) =>
      {s with chatRunState.registry := registry}.emitChatFinal host view now finished.sessionKey finished.clientRunId
        evt.seq jobState evt.error evt.stopReason
  | none => s.emitChatFinal host view now sessionKey (s.clientRunIdOf evt) evt.seq jobState evt.error evt.stopReason

/-- What is left of an aborted run is cleared when the run ends. -/
def finishAborted (evt : AgentEvent) (sessionKey : String) (s : ChatGateway) : ChatGateway :=
  let clientRunId := s.clientRunIdOf evt
  {s with
    chatRunState.abortedRuns := (s.chatRunState.abortedRuns.erase clientRunId).erase evt.runId
    chatRunState.buffers := s.chatRunState.buffers.erase clientRunId
    chatRunState.deltaSentAt := s.chatRunState.deltaSentAt.erase clientRunId
    chatRunState.registry :=
      if (s.chatRunState.registry.peek evt.runId).isSome then
        (ChatRunRegistry.remove s.chatRunState.registry evt.runId clientRunId (some sessionKey)).2
      else s.chatRunState.registry}

/-- What an event means for the chat of its run. -/
def reportChat (evt : AgentEvent) (s : ChatGateway) : ChatGateway :=
  match s.sessionKeyOf view evt with
  | none => s
  | some sessionKey =>
    if view.isControlUiVisible = false then s
    else
      match evt.stream, evt.text with
      | .assistant, some text =>
        if s.isAborted evt then s
        else s.emitChatDelta host view now sessionKey (s.clientRunIdOf evt) evt.seq text evt.delta
      | _, _ =>
        if evt.isEnd then
          if s.isAborted evt then s.finishAborted evt sessionKey else s.finishRun host view now evt sessionKey
        else s

/-- The handler of agent events. -/
def agentEvent (evt : AgentEvent) (s : ChatGateway) : ChatGateway :=
  let clientRunId := s.clientRunIdOf evt
  let s := {s with agentRunSeq := s.agentRunSeq.set evt.runId evt.seq}
  let s := (s.flushBeforeStart host view now evt).reportChat host view now evt
  if evt.isEnd then
    {s with
      agentRunSeq := (s.agentRunSeq.erase evt.runId).erase clientRunId
      ended := s.ended ++ [evt.runId]}
  else s

end ChatGateway

end Handler

/-! ### Aborts -/

/-- A run is aborted by its client run id. -/
def abortChatRunById (runId sessionKey : String) (stopReason : Option String) (now : Nat) (s : ChatGateway) :
    Bool × ChatGateway :=
  match s.chatAbortControllers.get? runId with
  | none => (false, s)
  | some active =>
    if active.sessionKey ≠ sessionKey then (false, s)
    else
      let partialText := (s.chatRunState.buffers.get? runId).filter fun text => (EcmaString.trimmed text).isSome
      let (removed, registry) := ChatRunRegistry.remove s.chatRunState.registry runId runId (some sessionKey)
      let s := {s with
        chatAbortControllers := s.chatAbortControllers.erase runId
        chatRunState.abortedRuns := s.chatRunState.abortedRuns.set runId now
        chatRunState.buffers := s.chatRunState.buffers.erase runId
        chatRunState.deltaSentAt := s.chatRunState.deltaSentAt.erase runId
        chatRunState.deltaLastBroadcastLen := s.chatRunState.deltaLastBroadcastLen.erase runId
        chatRunState.registry := registry}
      let s := s.broadcast ⟨runId, sessionKey, (s.agentRunSeq.get? runId).getD 0 + 1, .aborted,
        partialText.map fun text => (text, now), stopReason, none⟩
      let seqs := s.agentRunSeq.erase runId
      (true, {s with agentRunSeq := ((removed.map fun entry => seqs.erase entry.clientRunId).getD seqs)})

/-! ### Runs -/

/-- The runs there are, each with the one id its clients know it by. An id that is a run
and the client id of a run is both of the same run. -/
structure RunNames where
  clientOf : String → Option String
  runOf : String → Option String
  runOf_eq : ∀ runId client, runOf client = some runId ↔ clientOf runId = some client
  apart : ∀ runId client, clientOf runId = some client → (clientOf client).isSome → client = runId

inductive ChatEvent
  | addChatRun (runId : String) (entry : ChatRunEntry)
  | addController (clientRunId : String) (entry : ChatAbortControllerEntry)
  | removeController (clientRunId : String)
  | abort (runId sessionKey : String) (stopReason : Option String) (now : Nat)
  | agentEvent (view : AgentRunView) (now : Nat) (evt : AgentEvent)

/-- A run is registered once, before it ends and, where its client knows it by another
id, before it reports anything; it gets one controller, and reports nothing after its
end. -/
def chatStep (host : ChatTextHost) (names : RunNames) : Machine ChatGateway ChatEvent
  | .addChatRun runId entry, s =>
    if names.clientOf runId = some entry.clientRunId ∧ runId ∉ s.registered ∧ runId ∉ s.ended then
      some {s with
        chatRunState.registry := ChatRunRegistry.add s.chatRunState.registry runId entry
        registered := runId :: s.registered}
    else none
  | .addController clientRunId entry, s =>
    if (names.runOf clientRunId).isSome ∧ clientRunId ∉ s.controlled then
      some {s with
        chatAbortControllers := s.chatAbortControllers.set clientRunId entry
        controlled := clientRunId :: s.controlled}
    else none
  | .removeController clientRunId, s =>
    some {s with chatAbortControllers := s.chatAbortControllers.erase clientRunId}
  | .abort runId sessionKey stopReason now, s => some (abortChatRunById runId sessionKey stopReason now s).2
  | .agentEvent view now evt, s =>
    if evt.runId ∉ s.ended ∧ (names.clientOf evt.runId = some evt.runId ∨
        (names.clientOf evt.runId).isSome ∧ evt.runId ∈ s.registered) then
      some (s.agentEvent host view now evt)
    else none

end OpenClaw.Gateway
