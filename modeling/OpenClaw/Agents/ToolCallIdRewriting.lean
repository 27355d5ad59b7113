import Mathlib.Data.List.Nodup
import OpenClaw.Agents.ToolCallId
import OpenClaw.Foundation.Splits

/-! Rewriting the tool call ids of a transcript.

Each call gets a new id, which waits in a queue of its raw id; a result takes the first
waiting id of its raw id. A call that no result answers stays in the queue, so that the
results of a later turn with the same raw id are given to the wrong call. -/
namespace OpenClaw.Agents

open List Option

structure ResolverState where
  used : List String := []
  assistantOccurrences : String → Nat := fun _ => 0
  orphanToolResultOccurrences : String → Nat := fun _ => 0
  pendingByRawId : String → List String := fun _ => []

/-- An id to be resolved: of a call, or of a result. -/
inductive IdEvent where
  | call (id : String)
  | result (id : String)
  deriving DecidableEq

variable (messages : List Message) (id : String)

section Resolver
variable (host : ToolIdHost) (mode : ToolCallIdMode) (preserveNativeAnthropicToolUseIds : Bool)

/-- A native id that stays. -/
def staysNative (used : List String) (id : String) (occurrence : Nat) : Bool :=
  preserveNativeAnthropicToolUseIds && isNativeAnthropicToolUseId id && occurrence = 1 && id ∉ used

/-- `allocatePreservingNativeAnthropicId`, with the seed of the occurrence. -/
def allocate (used : List String) (id : String) (occurrence : Nat) (seed : String) : String :=
  if staysNative preserveNativeAnthropicToolUseIds used id occurrence then id
  else makeUniqueToolId host mode seed used

def callSeed (occurrence : Nat) : String :=
  if occurrence = 1 then id else id ++ ":" ++ toString occurrence

def resultSeed (occurrence : Nat) : String := id ++ ":tool_result:" ++ toString occurrence

def resolveAssistantId (s : ResolverState) (id : String) : String × ResolverState :=
  let occurrence := s.assistantOccurrences id + 1
  let next := allocate host mode preserveNativeAnthropicToolUseIds s.used id occurrence (callSeed id occurrence)
  (next,
    { s with
      used := s.used ++ [next]
      assistantOccurrences := Function.update s.assistantOccurrences id occurrence
      pendingByRawId := Function.update s.pendingByRawId id (s.pendingByRawId id ++ [next]) })

def resolveToolResultId (s : ResolverState) (id : String) : String × ResolverState :=
  match s.pendingByRawId id with
  | next :: pending => (next, {s with pendingByRawId := Function.update s.pendingByRawId id pending})
  | [] =>
    let occurrence := s.orphanToolResultOccurrences id + 1
    let next := allocate host mode preserveNativeAnthropicToolUseIds s.used id occurrence (resultSeed id occurrence)
    (next,
      { s with
        used := s.used ++ [next]
        orphanToolResultOccurrences := Function.update s.orphanToolResultOccurrences id occurrence })

/-! ### Messages -/

def rewriteBlocks : ResolverState → List ContentBlock → List ContentBlock × ResolverState
  | s, [] => ([], s)
  | s, block :: blocks =>
    match extractToolCall block with
    | some call =>
      let (nextId, s) := resolveAssistantId host mode preserveNativeAnthropicToolUseIds s call.id
      let (next, s) := rewriteBlocks s blocks
      ({block with id := some nextId} :: next, s)
    | none =>
      let (next, s) := rewriteBlocks s blocks
      (block :: next, s)

def rewriteAssistantToolCallIds (s : ResolverState) (m : AssistantMessage) : AssistantMessage × ResolverState :=
  match m.content with
  | none => (m, s)
  | some content =>
    let (next, s) := rewriteBlocks host mode preserveNativeAnthropicToolUseIds s content
    ({m with content := some next}, s)

/-- An id, if there is one. -/
def resolveResultId? (s : ResolverState) : Option String → Option String × ResolverState
  | none => (none, s)
  | some id =>
    let (next, s) := resolveToolResultId host mode preserveNativeAnthropicToolUseIds s id
    (some next, s)

def rewriteToolResultIds (s : ResolverState) (m : ToolResultMessage) : ToolResultMessage × ResolverState :=
  let toolCallId := m.toolCallId.filter (· ≠ "")
  let toolUseId := m.toolUseId.filter (· ≠ "")
  if toolCallId.isSome ∧ toolCallId = toolUseId then
    let (shared, s) := resolveResultId? host mode preserveNativeAnthropicToolUseIds s toolCallId
    ({m with toolCallId := shared, toolUseId := shared}, s)
  else
    let (nextToolCallId, s) := resolveResultId? host mode preserveNativeAnthropicToolUseIds s toolCallId
    let (nextToolUseId, s) := resolveResultId? host mode preserveNativeAnthropicToolUseIds s toolUseId
    ({m with toolCallId := nextToolCallId.or m.toolCallId, toolUseId := nextToolUseId.or m.toolUseId}, s)

def rewriteMessage (s : ResolverState) : Message → Message × ResolverState
  | .assistant m =>
    let (m, s) := rewriteAssistantToolCallIds host mode preserveNativeAnthropicToolUseIds s m
    (.assistant m, s)
  | .toolResult m =>
    let (m, s) := rewriteToolResultIds host mode preserveNativeAnthropicToolUseIds s m
    (.toolResult m, s)
  | .other m => (.other m, s)

def rewriteMessages : ResolverState → List Message → List Message × ResolverState
  | s, [] => ([], s)
  | s, m :: messages =>
    let (next, s) := rewriteMessage host mode preserveNativeAnthropicToolUseIds s m
    let (rest, s) := rewriteMessages s messages
    (next :: rest, s)

/-- A message in which nothing changes is the given one, so that the messages are these in any case. -/
def sanitizeToolCallIdsForCloudCodeAssist (messages : List Message) : List Message :=
  (rewriteMessages host mode preserveNativeAnthropicToolUseIds {} messages).1

/-! ### Ids alone -/

def resolve (s : ResolverState) : IdEvent → String × ResolverState
  | .call id => resolveAssistantId host mode preserveNativeAnthropicToolUseIds s id
  | .result id => resolveToolResultId host mode preserveNativeAnthropicToolUseIds s id

def resolveAll : ResolverState → List IdEvent → List String × ResolverState
  | s, [] => ([], s)
  | s, e :: events =>
    let (next, s) := resolve host mode preserveNativeAnthropicToolUseIds s e
    let (rest, s) := resolveAll s events
    (next :: rest, s)

/-- The calls with their new ids. -/
def callPairs : ResolverState → List IdEvent → List (String × String)
  | _, [] => []
  | s, .call id :: events =>
    let (next, s) := resolveAssistantId host mode preserveNativeAnthropicToolUseIds s id
    (id, next) :: callPairs s events
  | s, .result id :: events =>
    callPairs (resolveToolResultId host mode preserveNativeAnthropicToolUseIds s id).2 events

end Resolver

def resultIds (m : ToolResultMessage) : List String :=
  let toolCallId := m.toolCallId.filter (· ≠ "")
  let toolUseId := m.toolUseId.filter (· ≠ "")
  if toolCallId.isSome ∧ toolCallId = toolUseId then toolCallId.toList else toolCallId.toList ++ toolUseId.toList

def messageEvents : Message → List IdEvent
  | .assistant m => m.toolCallIds.map .call
  | .toolResult m => (resultIds m).map .result
  | .other _ => []

def transcriptEvents : List IdEvent := messages.flatMap messageEvents

/-! ### What is asked of the rewriting -/

def assistantIds : List String :=
  messages.flatMap fun
    | .assistant m => m.toolCallIds
    | _ => []

section Spec
variable (host : ToolIdHost) (mode : ToolCallIdMode) (preserve : Bool)

/-- Ids are valid and distinct, and a result behind its call has the new id of a call there. -/
structure SanitizesToolCallIds (messages : List Message) : Prop where
  valid : ∀ id ∈ assistantIds (sanitizeToolCallIdsForCloudCodeAssist host mode preserve messages),
    isValidCloudCodeAssistToolId mode id = true ∨ (preserve = true ∧ isNativeAnthropicToolUseId id = true)
  distinct : (assistantIds (sanitizeToolCallIdsForCloudCodeAssist host mode preserve messages)).Nodup
  paired : ∀ (before : List Message) (a : AssistantMessage) (results : List ToolResultMessage) (r : ToolResultMessage)
    (after : List Message) (id : String),
    messages = before ++ .assistant a :: (results.map .toolResult ++ .toolResult r :: after) →
      extractToolResultId r = some id → id ∈ a.toolCallIds →
        ∃ (before' : List Message) (a' : AssistantMessage) (results' : List Message) (r' : ToolResultMessage)
          (after' : List Message),
          sanitizeToolCallIdsForCloudCodeAssist host mode preserve messages =
              before' ++ .assistant a' :: (results' ++ .toolResult r' :: after') ∧
            before'.length = before.length ∧ results'.length = results.length ∧
              ∃ next ∈ a'.toolCallIds, extractToolResultId r' = some next

/-- How many calls with a raw id no result has taken yet. -/
def unanswered (events : List IdEvent) : Nat :=
  events.foldl (fun n e => if e = .call id then n + 1 else if e = .result id then n - 1 else n) 0

def stateAfter (events : List IdEvent) : ResolverState := (resolveAll host mode preserve {} events).2

/-- The new ids of these calls. -/
def newIds (s : ResolverState) (ids : List String) : List String := (resolveAll host mode preserve s (ids.map .call)).1

/-- The new ids of the calls so far. -/
def callIds (events : List IdEvent) : List String := (callPairs host mode preserve {} events).map Prod.snd

/-- The id is stamped, because all candidates of its seed are used. -/
def Stamped (s : ResolverState) (id : String) (occurrence : Nat) (seed next : String) : Prop :=
  staysNative preserve s.used id occurrence = false ∧ (∀ c ∈ toolIdCandidates host mode seed, c ∈ s.used) ∧
    next = stampedToolId host mode seed (host.dateNow s.used.length)

def StampsCall (s : ResolverState) (id next : String) : Prop :=
  Stamped host mode preserve s id (s.assistantOccurrences id + 1) (callSeed id (s.assistantOccurrences id + 1)) next

def StampsResult (s : ResolverState) (id next : String) : Prop :=
  Stamped host mode preserve s id (s.orphanToolResultOccurrences id + 1)
    (resultSeed id (s.orphanToolResultOccurrences id + 1)) next

structure ResolvesInTurn (messages : List Message) : Prop where
  /-- No call is stamped with the id of an earlier call. -/
  unstamped : ∀ before id after, transcriptEvents messages = before ++ .call id :: after →
    ∀ next ∈ callIds host mode preserve before, ¬ StampsCall host mode preserve (stateAfter host mode preserve before) id next
  /-- Some call with the raw id is unanswered, and all unanswered ones are of the turn before the
  result; or none is, and the result happens to be stamped with the id of a call there. -/
  inTurn : ∀ (before : List Message) (a : AssistantMessage) (results : List ToolResultMessage) (r : ToolResultMessage)
    (after : List Message) (id : String),
    messages = before ++ .assistant a :: (results.map .toolResult ++ .toolResult r :: after) →
      extractToolResultId r = some id → id ∈ a.toolCallIds →
        let events := transcriptEvents (before ++ .assistant a :: results.map .toolResult)
        (0 < unanswered id events ∧ unanswered id events ≤ a.toolCallIds.count id) ∨
          unanswered id events = 0 ∧ ∃ next, StampsResult host mode preserve (stateAfter host mode preserve events) id next ∧
            next ∈ newIds host mode preserve (stateAfter host mode preserve (transcriptEvents before)) a.toolCallIds

end Spec

/-! ### One id -/

section Resolve
variable {host : ToolIdHost} {mode : ToolCallIdMode} {preserve : Bool}

/-- What the new ids are. -/
def GoodId (mode : ToolCallIdMode) (preserve : Bool) (id : String) : Prop :=
  isValidCloudCodeAssistToolId mode id = true ∨ (preserve = true ∧ isNativeAnthropicToolUseId id = true)

theorem GoodId.ne_empty {id : String} (h : GoodId mode preserve id) : id ≠ "" := by
  rcases h with h | ⟨-, h⟩
  · exact valid_ne_empty h
  · exact native_ne_empty h

theorem allocate_good (used : List String) (id : String) (occurrence : Nat) (seed : String) :
    GoodId mode preserve (allocate host mode preserve used id occurrence seed) := by
  unfold allocate
  by_cases hstays : staysNative preserve used id occurrence = true
  · rw [if_pos hstays]
    simp only [staysNative, Bool.and_eq_true] at hstays
    exact .inr hstays.1.1
  · rw [if_neg hstays]
    exact .inl (valid_makeUnique host mode seed used)

theorem Stamped.eq {s : ResolverState} {id seed next : String} {occurrence : Nat}
    (h : Stamped host mode preserve s id occurrence seed next) :
    allocate host mode preserve s.used id occurrence seed = next := by
  obtain ⟨hstays, hall, rfl⟩ := h
  rw [allocate, if_neg (by rw [hstays]; exact Bool.false_ne_true)]
  rcases makeUnique_new host mode seed s.used with ⟨⟨c, hc, hnot⟩, -⟩ | ⟨-, h⟩
  · exact absurd (hall c hc) hnot
  · exact h

/-- An allocated id is new or stamped. -/
theorem allocate_new (s : ResolverState) (id seed : String) (occurrence : Nat) :
    allocate host mode preserve s.used id occurrence seed ∉ s.used ∨
      Stamped host mode preserve s id occurrence seed (allocate host mode preserve s.used id occurrence seed) := by
  unfold allocate Stamped
  by_cases hstays : staysNative preserve s.used id occurrence = true
  · rw [if_pos hstays]
    simp only [staysNative, Bool.and_eq_true, decide_eq_true_eq] at hstays
    exact .inl hstays.2
  · rw [if_neg hstays]
    rw [Bool.not_eq_true] at hstays
    rcases makeUnique_new host mode seed s.used with ⟨-, h⟩ | ⟨hall, h⟩
    · exact .inl h
    · exact .inr ⟨hstays, hall, h⟩

/-! ### Runs -/

theorem resolveAll_append (s : ResolverState) (events more : List IdEvent) :
    resolveAll host mode preserve s (events ++ more) =
      ((resolveAll host mode preserve s events).1 ++
          (resolveAll host mode preserve (resolveAll host mode preserve s events).2 more).1,
        (resolveAll host mode preserve (resolveAll host mode preserve s events).2 more).2) := by
  induction events generalizing s with
  | nil => rfl
  | cons e events ih =>
    simp only [cons_append, resolveAll, ih]

theorem callPairs_append (s : ResolverState) (events more : List IdEvent) :
    callPairs host mode preserve s (events ++ more) = callPairs host mode preserve s events ++
      callPairs host mode preserve (resolveAll host mode preserve s events).2 more := by
  induction events generalizing s with
  | nil => rfl
  | cons e events ih =>
    cases e with
    | _ => simp only [cons_append, callPairs, resolveAll, resolve, ih]

theorem stateAfter_append (events more : List IdEvent) :
    stateAfter host mode preserve (events ++ more) =
      (resolveAll host mode preserve (stateAfter host mode preserve events) more).2 := by
  rw [stateAfter, resolveAll_append]
  rfl

theorem callPairs_calls (s : ResolverState) (ids : List String) :
    (callPairs host mode preserve s (ids.map .call)).map Prod.snd = newIds host mode preserve s ids ∧
      (callPairs host mode preserve s (ids.map .call)).map Prod.fst = ids := by
  induction ids generalizing s with
  | nil => exact ⟨rfl, rfl⟩
  | cons id ids ih =>
    obtain ⟨hnew, hraw⟩ := ih (resolveAssistantId host mode preserve s id).2
    exact ⟨congrArg (_ :: ·) hnew, congrArg (_ :: ·) hraw⟩

theorem callPairs_results (s : ResolverState) (ids : List String) :
    callPairs host mode preserve s (ids.map .result) = [] := by
  induction ids generalizing s with
  | nil => rfl
  | cons id ids ih => exact ih _

theorem callPairs_good (s : ResolverState) (events : List IdEvent) :
    ∀ p ∈ callPairs host mode preserve s events, GoodId mode preserve p.2 := by
  induction events generalizing s with
  | nil => exact nofun
  | cons e events ih =>
    cases e with
    | call id =>
      intro p hp
      rcases mem_cons.mp hp with rfl | hp
      · exact allocate_good _ _ _ _
      · exact ih _ p hp
    | result id => exact ih _

/-! ### The queues -/

/-- The new ids of the calls with a raw id. -/
def newsOf (pairs : List (String × String)) : List String := (pairs.filter (·.1 = id)).map Prod.snd

theorem mem_of_newsOf {id next : String} {pairs : List (String × String)} (h : next ∈ newsOf id pairs) :
    next ∈ pairs.map Prod.snd := by
  obtain ⟨p, hp, rfl⟩ := List.mem_map.mp h
  exact List.mem_map_of_mem (mem_filter.mp hp).1

theorem length_newsOf (pairs : List (String × String)) :
    (newsOf id pairs).length = (pairs.map Prod.fst).count id := by
  rw [newsOf, length_map, List.count, countP_map, countP_eq_length_filter]
  rfl

/-- Each queue has the last new ids of its raw id, one for each unanswered call. -/
structure QueueInvariant (s : ResolverState) (pairs : List (String × String)) (n : String → Nat) : Prop where
  used : ∀ p ∈ pairs, p.2 ∈ s.used
  queue : ∀ id, ∃ taken, newsOf id pairs = taken ++ s.pendingByRawId id
  length : ∀ id, (s.pendingByRawId id).length = n id

theorem newsOf_append (pairs more : List (String × String)) :
    newsOf id (pairs ++ more) = newsOf id pairs ++ newsOf id more := by
  rw [newsOf, filter_append, map_append]
  rfl

theorem unanswered_call (id' : String) (events : List IdEvent) :
    unanswered id' (events ++ [.call id]) = if id' = id then unanswered id' events + 1 else unanswered id' events := by
  simp [unanswered, eq_comm]

theorem unanswered_result (id' : String) (events : List IdEvent) :
    unanswered id' (events ++ [.result id]) = if id' = id then unanswered id' events - 1 else unanswered id' events := by
  simp [unanswered, eq_comm]

theorem QueueInvariant.call {s : ResolverState} {pairs : List (String × String)} {events : List IdEvent}
    (h : QueueInvariant s pairs fun id => unanswered id events) (id : String) :
    QueueInvariant (resolveAssistantId host mode preserve s id).2
      (pairs ++ [(id, (resolveAssistantId host mode preserve s id).1)])
      fun id' => unanswered id' (events ++ [.call id]) := by
  unfold resolveAssistantId
  dsimp only
  generalize allocate host mode preserve s.used id _ _ = next
  refine ⟨fun p hp => ?_, fun id' => ?_, fun id' => ?_⟩
  · rcases mem_append.mp hp with hp | hp
    · exact mem_append_left _ (h.used p hp)
    · rw [mem_singleton.mp hp]
      exact mem_append_right _ (mem_singleton_self _)
  · obtain ⟨taken, htaken⟩ := h.queue id'
    refine ⟨taken, ?_⟩
    dsimp only
    rw [newsOf_append, htaken]
    by_cases hid : id' = id
    · subst hid
      rw [Function.update_self, ← append_assoc]
      simp [newsOf]
    · rw [Function.update_of_ne hid]
      simp [newsOf, Ne.symm hid]
  · dsimp only
    rw [unanswered_call]
    by_cases hid : id' = id
    · subst hid
      rw [Function.update_self, if_pos rfl, length_append, h.length]
      rfl
    · rw [Function.update_of_ne hid, if_neg hid, h.length]

theorem QueueInvariant.result {s : ResolverState} {pairs : List (String × String)} {events : List IdEvent}
    (h : QueueInvariant s pairs fun id => unanswered id events) (id : String) :
    QueueInvariant (resolveToolResultId host mode preserve s id).2 pairs
      fun id' => unanswered id' (events ++ [.result id]) := by
  have hlength := h.length id
  unfold resolveToolResultId
  cases hpending : s.pendingByRawId id with
  | nil =>
    dsimp only
    refine ⟨fun p hp => mem_append_left _ (h.used p hp), h.queue, fun id' => ?_⟩
    rw [unanswered_result, h.length]
    by_cases hid : id' = id
    · subst hid
      rw [if_pos rfl, ← hlength, hpending]
      rfl
    · rw [if_neg hid]
  | cons next pending =>
    dsimp only
    refine ⟨h.used, fun id' => ?_, fun id' => ?_⟩
    · obtain ⟨taken, htaken⟩ := h.queue id'
      dsimp only
      by_cases hid : id' = id
      · subst hid
        rw [Function.update_self]
        refine ⟨taken ++ [next], ?_⟩
        rw [htaken, hpending, append_assoc]
        rfl
      · rw [Function.update_of_ne hid]
        exact ⟨taken, htaken⟩
    · dsimp only
      rw [unanswered_result]
      by_cases hid : id' = id
      · subst hid
        rw [Function.update_self, if_pos rfl, ← hlength, hpending]
        rfl
      · rw [Function.update_of_ne hid, if_neg hid, h.length]

theorem queueInvariant (events : List IdEvent) :
    QueueInvariant (stateAfter host mode preserve events) (callPairs host mode preserve {} events)
      fun id => unanswered id events := by
  induction events using List.reverseRecOn with
  | nil => exact ⟨nofun, fun _ => ⟨[], rfl⟩, fun _ => rfl⟩
  | append_singleton events e ih =>
    rw [stateAfter_append, callPairs_append]
    cases e with
    | call id => exact ih.call id
    | result id =>
      show QueueInvariant _ (_ ++ []) _
      rw [append_nil]
      exact ih.result id

/-! ### Distinct ids -/

theorem callIds_used (events : List IdEvent) :
    ∀ id ∈ callIds host mode preserve events, id ∈ (stateAfter host mode preserve events).used := by
  intro id hid
  obtain ⟨p, hp, rfl⟩ := List.mem_map.mp hid
  exact (queueInvariant events).used p hp

theorem nodup_callIds_iff (events : List IdEvent) :
    (callIds host mode preserve events).Nodup ↔ ∀ before id after, events = before ++ .call id :: after →
      ∀ next ∈ callIds host mode preserve before,
        ¬ StampsCall host mode preserve (stateAfter host mode preserve before) id next := by
  induction events using List.reverseRecOn with
  | nil => exact ⟨fun _ before id after h => (by cases before <;> cases h), fun _ => nodup_nil⟩
  | append_singleton events e ih =>
    cases e with
    | call id =>
      have hcalls : callIds host mode preserve (events ++ [.call id]) = callIds host mode preserve events ++
          [(resolveAssistantId host mode preserve (stateAfter host mode preserve events) id).1] := by
        rw [callIds, callPairs_append, map_append]
        rfl
      have hfresh : (resolveAssistantId host mode preserve (stateAfter host mode preserve events) id).1 ∉
            callIds host mode preserve events ↔
          ∀ next ∈ callIds host mode preserve events,
            ¬ StampsCall host mode preserve (stateAfter host mode preserve events) id next := by
        constructor
        · intro h next hnext hstamp
          have heq : (resolveAssistantId host mode preserve (stateAfter host mode preserve events) id).1 = next :=
            Stamped.eq hstamp
          exact h (heq ▸ hnext)
        · intro h hmem
          rcases allocate_new (stateAfter host mode preserve events) id _ _ with hnew | hstamp
          · exact hnew (callIds_used events _ hmem)
          · exact h _ hmem hstamp
      rw [hcalls, nodup_append_comm, singleton_append, nodup_cons, hfresh, ih]
      constructor
      · rintro ⟨hlast, hbefore⟩ before id' after h
        rcases Foundation.split_concat h with ⟨hid, rfl, -⟩ | ⟨mid, hmid, -⟩
        · obtain rfl := IdEvent.call.inj hid
          exact hlast
        · exact hbefore before id' mid hmid
      · intro h
        refine ⟨h events id [] rfl, fun before id' after hevents => h before id' (after ++ [.call id]) ?_⟩
        rw [hevents, append_assoc]
        rfl
    | result id =>
      have hcalls : callIds host mode preserve (events ++ [.result id]) = callIds host mode preserve events := by
        rw [callIds, callPairs_append, map_append]
        exact append_nil _
      rw [hcalls, ih]
      constructor
      · intro hbefore before id' after h
        rcases Foundation.split_concat h with ⟨hid, -, -⟩ | ⟨mid, hmid, -⟩
        · cases hid
        · exact hbefore before id' mid hmid
      · intro h before id' after hevents
        refine h before id' (after ++ [.result id]) ?_
        rw [hevents, append_assoc]
        rfl

/-! ### A result behind its turn -/

/-- What a result takes from its queue is of the last turn if the unanswered calls all are. -/
theorem takes_iff (events : List IdEvent) (ids results : List String) (id : String)
    (hnodup : (callIds host mode preserve (events ++ ids.map .call ++ results.map .result)).Nodup) :
    (resolveToolResultId host mode preserve
        (stateAfter host mode preserve (events ++ ids.map .call ++ results.map .result)) id).1 ∈
          newIds host mode preserve (stateAfter host mode preserve events) ids ↔
      (0 < unanswered id (events ++ ids.map .call ++ results.map .result) ∧
          unanswered id (events ++ ids.map .call ++ results.map .result) ≤ ids.count id) ∨
        unanswered id (events ++ ids.map .call ++ results.map .result) = 0 ∧ ∃ next,
          StampsResult host mode preserve
            (stateAfter host mode preserve (events ++ ids.map .call ++ results.map .result)) id next ∧
          next ∈ newIds host mode preserve (stateAfter host mode preserve events) ids := by
  have hinv := @queueInvariant host mode preserve (events ++ ids.map .call ++ results.map .result)
  have hpairs : callPairs host mode preserve {} (events ++ ids.map .call ++ results.map .result) =
      callPairs host mode preserve {} events ++
        callPairs host mode preserve (stateAfter host mode preserve events) (ids.map .call) := by
    rw [callPairs_append, callPairs_append, callPairs_results, append_nil]
    rfl
  obtain ⟨hnew, hraw⟩ := @callPairs_calls host mode preserve (stateAfter host mode preserve events) ids
  rw [callIds] at hnodup
  rw [hpairs] at hinv hnodup
  rw [← hnew, ← hinv.length id]
  obtain ⟨taken, htaken⟩ := hinv.queue id
  have hused := hinv.used
  have hcount := length_newsOf id (callPairs host mode preserve (stateAfter host mode preserve events) (ids.map .call))
  rw [hraw] at hcount
  rw [← hcount]
  rw [newsOf_append] at htaken
  generalize callPairs host mode preserve (stateAfter host mode preserve events) (ids.map .call) = pairs at *
  generalize callPairs host mode preserve {} events = earlier at *
  generalize stateAfter host mode preserve (events ++ ids.map .call ++ results.map .result) = s at *
  rw [map_append] at hnodup
  cases hpending : s.pendingByRawId id with
  | nil =>
    have hresolve : (resolveToolResultId host mode preserve s id).1 = allocate host mode preserve s.used id
        (s.orphanToolResultOccurrences id + 1) (resultSeed id (s.orphanToolResultOccurrences id + 1)) := by
      rw [resolveToolResultId, hpending]
    rw [hresolve]
    simp only [length_nil, Nat.lt_irrefl, false_and, false_or, true_and]
    constructor
    · intro hmem
      rcases allocate_new s id (resultSeed id (s.orphanToolResultOccurrences id + 1))
        (s.orphanToolResultOccurrences id + 1) with hfresh | hstamp
      · obtain ⟨p, hp, heq⟩ := List.mem_map.mp hmem
        exact absurd (heq ▸ hused p (mem_append_right _ hp)) hfresh
      · exact ⟨_, hstamp, hmem⟩
    · rintro ⟨next, hstamp, hmem⟩
      rwa [Stamped.eq hstamp]
  | cons next pending =>
    have hresolve : (resolveToolResultId host mode preserve s id).1 = next := by rw [resolveToolResultId, hpending]
    rw [hpending] at htaken
    rw [hresolve]
    simp only [length_cons, Nat.add_eq_zero_iff, Nat.one_ne_zero, and_false, false_and, or_false, Nat.succ_pos,
      true_and]
    rcases append_eq_append_iff.mp htaken with ⟨mid, htaken', hlast⟩ | ⟨mid, hearlier, hmid⟩
    · -- the whole queue is of the last turn
      have hmem : next ∈ pairs.map Prod.snd := mem_of_newsOf (by rw [hlast]; simp)
      refine ⟨fun _ => ?_, fun _ => hmem⟩
      rw [hlast, length_append, length_cons]
      exact Nat.le_add_left _ _
    · cases mid with
      | nil =>
        rw [nil_append] at hmid
        have hmem : next ∈ pairs.map Prod.snd := mem_of_newsOf (by rw [← hmid]; exact mem_cons_self ..)
        refine ⟨fun _ => ?_, fun _ => hmem⟩
        rw [← hmid, length_cons]
      | cons first mid =>
        -- the first id of the queue is of an earlier turn
        obtain ⟨rfl, rfl⟩ := List.cons.inj hmid
        have hmem : next ∈ earlier.map Prod.snd := mem_of_newsOf (by rw [hearlier]; simp)
        constructor
        · exact fun hlater => ((nodup_append'.mp hnodup).2.2 hmem hlater).elim
        · intro hle
          have hlength : (mid.append (newsOf id pairs)).length = mid.length + (newsOf id pairs).length :=
            length_append
          omega

/-! ### Messages and their ids -/

section
variable (s : ResolverState)
include s

theorem rewriteBlocks_spec (blocks : List ContentBlock) :
    (rewriteBlocks host mode preserve s blocks).2 =
        (resolveAll host mode preserve s (((blocks.filterMap extractToolCall).map (·.id)).map .call)).2 ∧
      ((rewriteBlocks host mode preserve s blocks).1.filterMap extractToolCall).map (·.id) =
        newIds host mode preserve s ((blocks.filterMap extractToolCall).map (·.id)) := by
  induction blocks generalizing s with
  | nil => exact ⟨rfl, rfl⟩
  | cons block blocks ih =>
    cases hcall : extractToolCall block with
    | none =>
      obtain ⟨hstate, hids⟩ := ih s
      simp only [rewriteBlocks, hcall, filterMap_cons]
      exact ⟨hstate, hids⟩
    | some call =>
      obtain ⟨hstate, hids⟩ := ih (resolveAssistantId host mode preserve s call.id).2
      simp only [rewriteBlocks, hcall, filterMap_cons, map_cons]
      refine ⟨hstate, ?_⟩
      have hgood : GoodId mode preserve (resolveAssistantId host mode preserve s call.id).1 := allocate_good _ _ _ _
      rw [extractToolCall_setId hcall hgood.ne_empty]
      dsimp only
      rw [map_cons, hids]
      rfl

theorem rewriteAssistant_spec (a : AssistantMessage) :
    (rewriteAssistantToolCallIds host mode preserve s a).2 =
        (resolveAll host mode preserve s (a.toolCallIds.map .call)).2 ∧
      (rewriteAssistantToolCallIds host mode preserve s a).1.toolCallIds = newIds host mode preserve s a.toolCallIds := by
  unfold rewriteAssistantToolCallIds AssistantMessage.toolCallIds extractToolCallsFromAssistant
  cases hcontent : a.content with
  | none =>
    dsimp only
    rw [hcontent]
    exact ⟨rfl, rfl⟩
  | some content => exact rewriteBlocks_spec s content

theorem resolveResultId?_state (id : Option String) :
    (resolveResultId? host mode preserve s id).2 =
      (resolveAll host mode preserve s (id.toList.map .result)).2 := by
  cases id <;> rfl

theorem rewriteToolResult_state (m : ToolResultMessage) :
    (rewriteToolResultIds host mode preserve s m).2 =
      (resolveAll host mode preserve s ((resultIds m).map .result)).2 := by
  unfold rewriteToolResultIds resultIds
  dsimp only
  by_cases hshared : (m.toolCallId.filter (· ≠ "")).isSome = true ∧ m.toolCallId.filter (· ≠ "") = m.toolUseId.filter (· ≠ "")
  · rw [if_pos hshared, if_pos hshared]
    exact resolveResultId?_state s _
  · rw [if_neg hshared, if_neg hshared, map_append, resolveAll_append]
    dsimp only
    rw [← resolveResultId?_state s, resolveResultId?_state]

theorem rewriteMessage_state (m : Message) :
    (rewriteMessage host mode preserve s m).2 = (resolveAll host mode preserve s (messageEvents m)).2 := by
  cases m with
  | assistant a => exact (rewriteAssistant_spec s a).1
  | toolResult r => exact rewriteToolResult_state s r
  | other v => rfl

theorem rewriteMessages_state (messages : List Message) :
    (rewriteMessages host mode preserve s messages).2 =
      (resolveAll host mode preserve s (transcriptEvents messages)).2 := by
  induction messages generalizing s with
  | nil => rfl
  | cons m messages ih =>
    rw [rewriteMessages, transcriptEvents, flatMap_cons, resolveAll_append, ← transcriptEvents]
    dsimp only
    rw [ih, rewriteMessage_state]

theorem rewriteMessages_append (more : List Message) :
    (rewriteMessages host mode preserve s (messages ++ more)).1 = (rewriteMessages host mode preserve s messages).1 ++
      (rewriteMessages host mode preserve (rewriteMessages host mode preserve s messages).2 more).1 := by
  induction messages generalizing s with
  | nil => rfl
  | cons m messages ih => simp only [cons_append, rewriteMessages, ih]

theorem length_rewriteMessages :
    (rewriteMessages host mode preserve s messages).1.length = messages.length := by
  induction messages generalizing s with
  | nil => rfl
  | cons m messages ih => exact congrArg (· + 1) (ih _)

/-- The calls of the rewritten transcript have the new ids. -/
theorem assistantIds_rewrite (messages : List Message) :
    assistantIds (rewriteMessages host mode preserve s messages).1 =
      (callPairs host mode preserve s (transcriptEvents messages)).map Prod.snd := by
  induction messages generalizing s with
  | nil => rfl
  | cons m messages ih =>
    rw [transcriptEvents, flatMap_cons, callPairs_append, map_append, ← transcriptEvents,
      ← rewriteMessage_state s m, ← ih, rewriteMessages, assistantIds, flatMap_cons, ← assistantIds]
    refine congrArg (· ++ _) ?_
    cases m with
    | assistant a => rw [messageEvents, (callPairs_calls s a.toolCallIds).1]; exact (rewriteAssistant_spec s a).2
    | toolResult r => rw [messageEvents, callPairs_results]; rfl
    | other v => rfl

end

/-- The result's id is what its raw id is resolved to. -/
theorem rewriteToolResult_id {s : ResolverState} {m : ToolResultMessage} {id : String}
    (hid : extractToolResultId m = some id) (hne : ∀ id, (resolveToolResultId host mode preserve s id).1 ≠ "") :
    extractToolResultId (rewriteToolResultIds host mode preserve s m).1 =
      some (resolveToolResultId host mode preserve s id).1 := by
  unfold extractToolResultId at hid ⊢
  unfold rewriteToolResultIds
  have hkeep {next : String} (h : next ≠ "") : (some next).filter (· ≠ "") = some next :=
    filter_some_pos (decide_eq_true h)
  cases hcall : m.toolCallId.filter (· ≠ "") with
  | some callId =>
    rw [hcall, some_or, Option.some.injEq] at hid
    subst hid
    dsimp only
    by_cases hshared : (some callId).isSome = true ∧ some callId = m.toolUseId.filter (· ≠ "")
    · rw [if_pos hshared]
      dsimp only [resolveResultId?]
      rw [hkeep (hne callId), some_or]
    · rw [if_neg hshared]
      dsimp only [resolveResultId?]
      rw [some_or, hkeep (hne callId), some_or]
  | none =>
    rw [hcall, none_or] at hid
    dsimp only
    rw [if_neg (fun h => Bool.false_ne_true h.1), hid]
    dsimp only [resolveResultId?]
    rw [none_or, hcall, none_or, some_or, hkeep (hne id)]

theorem resolveResult_good (events : List IdEvent) (id : String) :
    GoodId mode preserve (resolveToolResultId host mode preserve (stateAfter host mode preserve events) id).1 := by
  obtain ⟨taken, htaken⟩ := (@queueInvariant host mode preserve events).queue id
  unfold resolveToolResultId
  cases hpending : (stateAfter host mode preserve events).pendingByRawId id with
  | nil => exact allocate_good _ _ _ _
  | cons next pending =>
    rw [hpending] at htaken
    obtain ⟨p, hp, hnext⟩ := List.mem_map.mp (@mem_of_newsOf id _ _ (by rw [htaken]; simp : next ∈ _))
    exact hnext ▸ callPairs_good {} events p hp

theorem transcriptEvents_results (results : List ToolResultMessage) :
    transcriptEvents (results.map .toolResult) = (results.flatMap resultIds).map .result := by
  induction results with
  | nil => rfl
  | cons r results ih =>
    rw [map_cons, transcriptEvents, flatMap_cons, ← transcriptEvents, ih, flatMap_cons, map_append]
    rfl

theorem transcriptEvents_turn (before : List Message) (a : AssistantMessage) (results : List ToolResultMessage) :
    transcriptEvents (before ++ .assistant a :: results.map .toolResult) =
      transcriptEvents before ++ a.toolCallIds.map .call ++ (results.flatMap resultIds).map .result := by
  rw [transcriptEvents, flatMap_append, flatMap_cons, ← transcriptEvents, ← transcriptEvents,
    transcriptEvents_results, append_assoc]
  rfl

theorem callIds_sublist (messages more : List Message) :
    List.Sublist (callIds host mode preserve (transcriptEvents messages))
      (callIds host mode preserve (transcriptEvents (messages ++ more))) := by
  rw [transcriptEvents, transcriptEvents, flatMap_append, callIds, callIds, callPairs_append, map_append]
  exact sublist_append_left _ _

/-- Where the rewritten result is, and what its id is. -/
theorem paired_at {messages before after : List Message} {a : AssistantMessage} {results : List ToolResultMessage}
    {r : ToolResultMessage} {id : String}
    (h : messages = before ++ .assistant a :: (results.map .toolResult ++ .toolResult r :: after))
    (hid : extractToolResultId r = some id) :
    (∃ (before' : List Message) (a' : AssistantMessage) (results' : List Message) (r' : ToolResultMessage)
        (after' : List Message),
        sanitizeToolCallIdsForCloudCodeAssist host mode preserve messages =
            before' ++ .assistant a' :: (results' ++ .toolResult r' :: after') ∧
          before'.length = before.length ∧ results'.length = results.length ∧
            ∃ next ∈ a'.toolCallIds, extractToolResultId r' = some next) ↔
      (resolveToolResultId host mode preserve (stateAfter host mode preserve
          (transcriptEvents before ++ a.toolCallIds.map .call ++ (results.flatMap resultIds).map .result)) id).1 ∈
        newIds host mode preserve (stateAfter host mode preserve (transcriptEvents before)) a.toolCallIds := by
  have hbefore : (rewriteMessages host mode preserve {} before).2 = stateAfter host mode preserve (transcriptEvents before) :=
    rewriteMessages_state {} before
  have hresults : (rewriteMessages host mode preserve
        (rewriteAssistantToolCallIds host mode preserve (stateAfter host mode preserve (transcriptEvents before)) a).2
        (results.map .toolResult)).2 = stateAfter host mode preserve
          (transcriptEvents before ++ a.toolCallIds.map .call ++ (results.flatMap resultIds).map .result) := by
    rw [rewriteMessages_state, (rewriteAssistant_spec _ a).1, transcriptEvents_results, ← stateAfter_append,
      ← stateAfter_append]
  have hout : sanitizeToolCallIdsForCloudCodeAssist host mode preserve messages =
      (rewriteMessages host mode preserve {} before).1 ++
        .assistant (rewriteAssistantToolCallIds host mode preserve
          (stateAfter host mode preserve (transcriptEvents before)) a).1 ::
          ((rewriteMessages host mode preserve
              (rewriteAssistantToolCallIds host mode preserve (stateAfter host mode preserve (transcriptEvents before)) a).2
              (results.map .toolResult)).1 ++
            .toolResult (rewriteToolResultIds host mode preserve (stateAfter host mode preserve
              (transcriptEvents before ++ a.toolCallIds.map .call ++ (results.flatMap resultIds).map .result)) r).1 ::
              (rewriteMessages host mode preserve (rewriteToolResultIds host mode preserve (stateAfter host mode preserve
                (transcriptEvents before ++ a.toolCallIds.map .call ++ (results.flatMap resultIds).map .result)) r).2
                after).1) := by
    rw [sanitizeToolCallIdsForCloudCodeAssist, h, rewriteMessages_append, hbefore, rewriteMessages]
    dsimp only [rewriteMessage]
    rw [rewriteMessages_append, hresults]
    rfl
  have hresult := rewriteToolResult_id (s := stateAfter host mode preserve
    (transcriptEvents before ++ a.toolCallIds.map .call ++ (results.flatMap resultIds).map .result)) hid
      fun id => (resolveResult_good _ id).ne_empty
  have hcalls := (@rewriteAssistant_spec host mode preserve
    (stateAfter host mode preserve (transcriptEvents before)) a).2
  rw [hout]
  constructor
  · rintro ⟨before', a', results', r', after', heq, hlb, hlr, next, hnext, hrid⟩
    obtain ⟨-, htail⟩ := append_inj heq (by rw [length_rewriteMessages, hlb])
    obtain ⟨ha, htail⟩ := List.cons.inj htail
    obtain ⟨-, htail⟩ := append_inj htail (by rw [length_rewriteMessages, length_map, hlr])
    obtain ⟨hr, -⟩ := List.cons.inj htail
    obtain rfl := Message.assistant.inj ha
    obtain rfl := Message.toolResult.inj hr
    rw [hresult, Option.some.injEq] at hrid
    rwa [hrid, ← hcalls]
  · intro hmem
    exact ⟨_, _, _, _, _, rfl, length_rewriteMessages _ _, by rw [length_rewriteMessages, length_map], _,
      hcalls ▸ hmem, hresult⟩

end Resolve

/-- **The rewriting of tool call ids, exactly**: it is sound if the results behind a turn come
in turn, and no call is stamped with the id of an earlier one. -/
theorem sanitizeToolCallIds_iff (host : ToolIdHost) (mode : ToolCallIdMode) (preserve : Bool) (messages : List Message) :
    SanitizesToolCallIds host mode preserve messages ↔ ResolvesInTurn host mode preserve messages := by
  have hids : assistantIds (sanitizeToolCallIdsForCloudCodeAssist host mode preserve messages) =
      callIds host mode preserve (transcriptEvents messages) := assistantIds_rewrite {} messages
  have hturn (hnodup : (callIds host mode preserve (transcriptEvents messages)).Nodup) {before after : List Message}
      {a : AssistantMessage} {results : List ToolResultMessage} {r : ToolResultMessage} (id : String)
      (h : messages = before ++ .assistant a :: (results.map .toolResult ++ .toolResult r :: after)) :=
    @takes_iff host mode preserve (transcriptEvents before) a.toolCallIds
      (results.flatMap resultIds) id (by
        rw [← transcriptEvents_turn]
        refine hnodup.sublist ?_
        rw [h, ← cons_append, ← append_assoc]
        exact callIds_sublist _ _)
  constructor
  · intro hsound
    have hnodup := hids ▸ hsound.distinct
    refine ⟨(nodup_callIds_iff _).mp hnodup, fun before a results r after id h hid hcall => ?_⟩
    rw [transcriptEvents_turn]
    exact (hturn hnodup id h).mp ((paired_at h hid).mp (hsound.paired before a results r after id h hid hcall))
  · intro hin
    have hnodup := (nodup_callIds_iff _).mpr hin.unstamped
    refine ⟨fun id hid => ?_, hids ▸ hnodup, fun before a results r after id h hid hcall => ?_⟩
    · rw [hids] at hid
      obtain ⟨p, hp, rfl⟩ := List.mem_map.mp hid
      exact callPairs_good {} _ p hp
    · have hcond := hin.inTurn before a results r after id h hid hcall
      rw [transcriptEvents_turn] at hcond
      exact (paired_at h hid).mpr ((hturn hnodup id h).mpr hcond)

/-- A digest of zeros. -/
def zeroHost : ToolIdHost where
  sha256Hex _ := List.replicate 64 '0'
  sha256Hex_length _ := List.length_replicate
  sha256Hex_digits _ c hc := by rw [List.eq_of_mem_replicate hc]; decide
  dateNow _ := 0

def callA : AssistantMessage := ⟨some [⟨some "toolCall", some "a", some "read", none, some (.object []), []⟩], none, []⟩

def resultA : ToolResultMessage := ⟨some "a", none, some "read", []⟩

/-- **The result of the second call** of an id goes to the first, which has none. -/
theorem unanswered_call_takes_result :
    ¬ SanitizesToolCallIds zeroHost .strict false [.assistant callA, .assistant callA, .toolResult resultA] := by
  intro h
  obtain ⟨before', a', results', r', after', hout, hbefore, hresults, next, hnext, hid⟩ :=
    h.paired [.assistant callA] callA [] resultA [] "a" rfl rfl (by decide)
  have hrewritten : sanitizeToolCallIdsForCloudCodeAssist zeroHost .strict false
      [.assistant callA, .assistant callA, .toolResult resultA] =
        [.assistant callA, .assistant ⟨some [⟨some "toolCall", some "a2", some "read", none, some (.object []), []⟩],
          none, []⟩, .toolResult resultA] := by rfl
  rw [hrewritten] at hout
  obtain ⟨x, rfl⟩ := length_eq_one_iff.mp hbefore
  obtain rfl := length_eq_zero_iff.mp hresults
  obtain ⟨-, htail⟩ := List.cons.inj hout
  obtain ⟨ha, htail⟩ := List.cons.inj htail
  obtain ⟨hr, -⟩ := List.cons.inj htail
  obtain rfl := Message.assistant.inj ha
  obtain rfl := Message.toolResult.inj hr
  obtain rfl : "a" = next := Option.some.inj hid
  exact absurd hnext (by decide)

end OpenClaw.Agents
