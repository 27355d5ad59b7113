import OpenClaw.Config.Value

/-! Messages of a session transcript.

An assistant message asks for tools with tool call blocks, and tool results answer them by
id. A field that has to be a text is absent where it is anything else; the fields that no
code here reads are kept as they are. -/
namespace OpenClaw.Agents
open Config (Value Entries)
open Foundation.EcmaString (trim trimmed?)

structure ContentBlock where
  type : Option String
  id : Option String
  name : Option String
  input : Option Value := none
  arguments : Option Value := none
  rest : Entries := []

/-- The content is absent where it is no array. -/
structure AssistantMessage where
  content : Option (List ContentBlock)
  stopReason : Option String := none
  rest : Entries := []

structure ToolResultMessage where
  toolCallId : Option String
  toolUseId : Option String := none
  toolName : Option String
  rest : Entries := []

/-- A message of any other role, or what is no message at all, is `other`. -/
inductive Message where
  | assistant (m : AssistantMessage)
  | toolResult (m : ToolResultMessage)
  | other (m : Value)

structure ToolCallLike where
  id : String
  name : Option String
  deriving Repr, DecidableEq

/-! ### Reading a message -/

def toolCallTypes : List String := ["toolCall", "toolUse", "functionCall"]

/-- `isRawToolCallBlock`. -/
def ContentBlock.isRawToolCall (block : ContentBlock) : Bool := block.type.any (· ∈ toolCallTypes)

def extractToolCall (block : ContentBlock) : Option ToolCallLike :=
  match block.id.filter (· ≠ "") with
  | some id => if block.isRawToolCall then some ⟨id, block.name⟩ else none
  | none => none

def extractToolCallsFromAssistant (m : AssistantMessage) : List ToolCallLike :=
  (m.content.getD []).filterMap extractToolCall

def extractToolResultId (m : ToolResultMessage) : Option String :=
  (m.toolCallId.filter (· ≠ "")).or (m.toolUseId.filter (· ≠ ""))

/-- The stop reason is `error` or `aborted`. -/
def AssistantMessage.errored (m : AssistantMessage) : Bool :=
  m.stopReason = some "error" || m.stopReason = some "aborted"

def AssistantMessage.toolCallIds (m : AssistantMessage) : List String :=
  (extractToolCallsFromAssistant m).map (·.id)

def Message.isToolResult : Message → Bool
  | .toolResult _ => true
  | _ => false

/-! ### Answered calls -/

/-- After its turn, and with only results in between, a call has its result. -/
def AnsweredIn (after : List Message) (id : String) : Prop :=
  ∃ (results : List ToolResultMessage) (r : ToolResultMessage) (rest : List Message),
    after = results.map .toolResult ++ .toolResult r :: rest ∧ extractToolResultId r = some id

/-- Every call of a turn that did not fail has its result before the next message that is none. -/
def AnswersEveryCall (file : List Message) : Prop :=
  ∀ before a after, file = before ++ .assistant a :: after → a.errored = false →
    ∀ id ∈ a.toolCallIds, AnsweredIn after id

/-! ### Tool results -/

def missingToolResultText : String :=
  "[openclaw] missing tool result in session history; inserted synthetic error result for transcript repair."

def makeMissingToolResult (now : ℚ) (call : ToolCallLike) : ToolResultMessage where
  toolCallId := some call.id
  toolName := some (call.name.getD "unknown")
  rest := [("content", .array [.object [("type", .string "text"), ("text", .string missingToolResultText)]]),
    ("isError", .bool true), ("timestamp", .number now)]

/-- `normalizeToolResultName`, and `normalizePersistedToolResultName`. -/
def normalizeToolResultName (m : ToolResultMessage) (fallbackName : Option String) : ToolResultMessage :=
  match trimmed? m.toolName with
  | some normalized => {m with toolName := some normalized}
  | none =>
    match trimmed? fallbackName with
    | some normalized => {m with toolName := some normalized}
    | none => if m.toolName.isSome then {m with toolName := some "unknown"} else m

@[simp] theorem extractToolResultId_missing (now : ℚ) (call : ToolCallLike) (h : call.id ≠ "") :
    extractToolResultId (makeMissingToolResult now call) = some call.id := by
  simp [extractToolResultId, makeMissingToolResult, h]

@[simp] theorem extractToolResultId_normalize (m : ToolResultMessage) (fallbackName : Option String) :
    extractToolResultId (normalizeToolResultName m fallbackName) = extractToolResultId m := by
  unfold normalizeToolResultName
  split
  · rfl
  · split
    · rfl
    · split <;> rfl

theorem trimmed?_normalize {m : ToolResultMessage} {fallbackName : Option String} {name : String}
    (h : (normalizeToolResultName m fallbackName).toolName = some name) : trimmed? (some name) = some name := by
  unfold normalizeToolResultName at h
  cases hm : trimmed? m.toolName with
  | some normalized =>
    rw [hm] at h
    obtain rfl := Option.some.inj h
    exact Foundation.EcmaString.trimmed_trimmed? hm
  | none =>
    cases hf : trimmed? fallbackName with
    | some normalized =>
      rw [hm, hf] at h
      obtain rfl := Option.some.inj h
      exact Foundation.EcmaString.trimmed_trimmed? hf
    | none =>
      simp only [hm, hf] at h
      by_cases hsome : m.toolName.isSome = true
      · rw [if_pos hsome] at h
        obtain rfl := Option.some.inj h
        decide
      · rw [if_neg hsome] at h
        rw [h] at hsome
        exact absurd rfl hsome

/-- A result under a trimmed name, or under none where its call has none, is normal. -/
theorem normalize_of_trimmed {m : ToolResultMessage} {name : String} (fallbackName : Option String)
    (hname : m.toolName = some name) (htrimmed : trimmed? (some name) = some name) :
    normalizeToolResultName m fallbackName = m := by
  unfold normalizeToolResultName
  rw [hname, htrimmed]
  dsimp only
  rw [← hname]

theorem normalize_normalize (m : ToolResultMessage) (fallbackName : Option String) :
    normalizeToolResultName (normalizeToolResultName m fallbackName) fallbackName =
      normalizeToolResultName m fallbackName := by
  cases hname : (normalizeToolResultName m fallbackName).toolName with
  | some name => exact normalize_of_trimmed fallbackName hname (trimmed?_normalize hname)
  | none =>
    have hsame : normalizeToolResultName m fallbackName = m := by
      unfold normalizeToolResultName at hname ⊢
      cases hm : trimmed? m.toolName with
      | some normalized => rw [hm] at hname; cases hname
      | none =>
        cases hf : trimmed? fallbackName with
        | some normalized => rw [hm, hf] at hname; cases hname
        | none =>
          simp only [hm, hf] at hname ⊢
          by_cases hsome : m.toolName.isSome = true
          · rw [if_pos hsome] at hname
            cases hname
          · rw [if_neg hsome]
    rw [hsame, hsame]

/-- Only the name of a result is normalised. -/
theorem normalize_eq_of_toolName {m : ToolResultMessage} {fallbackName : Option String}
    (h : (normalizeToolResultName m fallbackName).toolName = m.toolName) :
    normalizeToolResultName m fallbackName = m := by
  have hrest : normalizeToolResultName m fallbackName =
      {m with toolName := (normalizeToolResultName m fallbackName).toolName} := by
    unfold normalizeToolResultName
    split
    · rfl
    · split
      · rfl
      · split <;> rfl
  rw [hrest, h]

theorem extractToolCall_setId {block : ContentBlock} {call : ToolCallLike} (h : extractToolCall block = some call)
    {id : String} (hid : id ≠ "") : extractToolCall {block with id := some id} = some ⟨id, block.name⟩ := by
  have hraw : block.isRawToolCall = true := by
    unfold extractToolCall at h
    cases hfilter : block.id.filter (· ≠ "") with
    | none => rw [hfilter] at h; cases h
    | some old =>
      rw [hfilter] at h
      by_contra hnot
      dsimp only at h
      rw [if_neg hnot] at h
      cases h
  unfold extractToolCall
  rw [show (some id).filter (· ≠ "") = some id from Option.filter_some_pos (decide_eq_true hid)]
  exact if_pos hraw

theorem toolCallIds_ne_empty {m : AssistantMessage} {call : ToolCallLike}
    (h : call ∈ extractToolCallsFromAssistant m) : call.id ≠ "" := by
  obtain ⟨block, -, hcall⟩ := List.mem_filterMap.mp h
  unfold extractToolCall at hcall
  cases hid : block.id.filter (· ≠ "") with
  | none => rw [hid] at hcall; cases hcall
  | some id =>
    rw [hid] at hcall
    have hne := (Option.filter_eq_some_iff.mp hid).2
    cases hraw : block.isRawToolCall with
    | false => simp [hraw] at hcall
    | true =>
      simp only [hraw, if_true, Option.some.injEq] at hcall
      rw [← hcall]
      simpa using hne

/-! ### Repairing tool calls -/

section Sanitize
variable (toLowerCase : String → String)

def hasToolCallInput (block : ContentBlock) : Bool :=
  let present : Value → Bool
    | .undefined | .null => false
    | _ => true
  block.input.any present || block.arguments.any present

def hasToolCallId (block : ContentBlock) : Bool := (trimmed? block.id).isSome

def toolCallNameMaxChars : Nat := 64

/-- `[A-Za-z0-9_:.-]`. -/
def isToolCallNameChar (c : Char) : Bool := c.isAlphanum || c ∈ ['_', ':', '.', '-']

/-- The names in lower case; without any name everything is allowed. -/
def normalizeAllowedToolNames (allowedToolNames : Option (List String)) : Option (List String) :=
  (allowedToolNames.map fun names => names.filterMap fun name => (trimmed? (some name)).map toLowerCase).filter (· ≠ [])

def hasToolCallName (block : ContentBlock) (allowedToolNames : Option (List String)) : Bool :=
  match trimmed? block.name with
  | none => false
  | some name =>
    name.toList.length ≤ toolCallNameMaxChars && name.toList.all isToolCallNameChar &&
      match allowedToolNames with
      | none => true
      | some names => toLowerCase name ∈ names

def redactAttachment : Value → Value
  | .object entries =>
    if (entries.map Prod.fst).contains "content" then
      .object (entries.filter (fun e => e.1 ≠ "content") ++ [("content", .string "__OPENCLAW_REDACTED__")])
    else .object entries
  | item => item

def redactSessionsSpawnAttachmentsArgs : Value → Value
  | .object entries =>
    match entries.lookup "attachments" with
    | some (.array raw) =>
      .object (entries.map fun e => if e.1 = "attachments" then (e.1, .array (raw.map redactAttachment)) else e)
    | _ => .object entries
  | value => value

/-- A kept tool call: its name trimmed, and the attachments of a spawn redacted. -/
def sanitizeToolCallBlock (block : ContentBlock) : ContentBlock :=
  let name := (trimmed? block.name).or block.name
  if (trimmed? block.name).map toLowerCase = some "sessions_spawn" then
    { block with
      name
      arguments := block.arguments.map redactSessionsSpawnAttachmentsArgs
      input := block.input.map redactSessionsSpawnAttachmentsArgs }
  else {block with name}

def isMalformedToolCall (allowedToolNames : Option (List String)) (block : ContentBlock) : Bool :=
  block.isRawToolCall &&
    (!hasToolCallInput block || !hasToolCallId block || !hasToolCallName toLowerCase block allowedToolNames)

/-- One message of `repairToolCallInputs`: malformed tool calls go, and an assistant message
that has nothing else goes with them. -/
def repairToolCallInput (allowedToolNames : Option (List String)) (m : AssistantMessage) : Option AssistantMessage :=
  match m.content with
  | none => some m
  | some content =>
    let kept := content.filter fun block => !isMalformedToolCall toLowerCase allowedToolNames block
    let nextContent := kept.map fun block =>
      if block.isRawToolCall then sanitizeToolCallBlock toLowerCase block else block
    if kept.length < content.length ∧ nextContent = [] then none else some {m with content := some nextContent}

def repairToolCallInputs (allowedToolNames : Option (List String)) (messages : List Message) : List Message :=
  messages.filterMap fun
    | .assistant m =>
      (repairToolCallInput toLowerCase (normalizeAllowedToolNames toLowerCase allowedToolNames) m).map .assistant
    | m => some m

end Sanitize

end OpenClaw.Agents
