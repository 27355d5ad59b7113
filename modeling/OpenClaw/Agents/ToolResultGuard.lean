import Mathlib.Data.List.Forall2
import OpenClaw.Agents.Transcript
import OpenClaw.Foundation.InsertionMap
import OpenClaw.Foundation.Splits

/-! The guard in front of a session file.

The guard remembers the tool calls whose results have not been persisted yet. Before any
message that is no tool result it answers the remaining ones itself, so that a file in
which a turn is interrupted can still be sent to a provider. `GuardInvariant` says of the
file and the pending calls that each call of each turn is answered or pending, and that
calls are pending only while nothing but results came after their turn. -/
namespace OpenClaw.Agents
open List

open Foundation (InsertionMap split_concat)

structure ToolResultMeta where
  toolCallId : Option String
  toolName : Option String
  isSynthetic : Bool

/-- What `beforeMessageWriteHook` returns. -/
inductive WriteHookResult where
  | unchanged
  | block
  | replace (m : Message)

structure GuardOptions where
  transformMessageForPersistence : Message → Message := id
  transformToolResultForPersistence : Message → ToolResultMeta → Message := fun m _ => m
  allowSyntheticToolResults : Bool := true
  allowedToolNames : Option (List String) := none
  beforeMessageWriteHook : Message → WriteHookResult := fun _ => .unchanged

/-- What the guard takes from outside. -/
structure GuardHost where
  toLowerCase : String → String
  /-- `truncateToolResultMessage` on the content and the other fields. -/
  truncate : Config.Entries → Config.Entries
  now : ℚ

/-- A message in the file, and whether the guard made it up. -/
structure Persisted where
  message : Message
  isSynthetic : Bool

structure GuardState where
  pending : InsertionMap String (Option String) := ∅
  file : List Persisted := []

section Guard
variable (host : GuardHost) (opts : GuardOptions)

def capToolResultSize : Message → Message
  | .toolResult m => .toolResult {m with rest := host.truncate m.rest}
  | m => m

def applyBeforeWriteHook (m : Message) : Option Message :=
  match opts.beforeMessageWriteHook m with
  | .unchanged => some m
  | .block => none
  | .replace m' => some m'

/-- `originalAppend`, if the hook lets the message pass. -/
def appendPersisted (isSynthetic : Bool) (m : Option Message) (file : List Persisted) : List Persisted :=
  match m with
  | some m => file ++ [⟨m, isSynthetic⟩]
  | none => file

/-- The result that the guard writes for a pending call. -/
def flushedResult (call : ToolCallLike) : Option Message :=
  applyBeforeWriteHook opts <|
    opts.transformToolResultForPersistence
      (opts.transformMessageForPersistence (.toolResult (makeMissingToolResult host.now call)))
      ⟨some call.id, call.name, true⟩

def flushPendingToolResults (s : GuardState) : GuardState :=
  { pending := ∅
    file :=
      if opts.allowSyntheticToolResults then
        s.pending.entries.foldl (fun file e => appendPersisted true (flushedResult host opts ⟨e.1, e.2⟩) file) s.file
      else s.file }

/-- What is persisted of a tool result. -/
def persistedResult (m : ToolResultMessage) (toolName : Option String) : Option Message :=
  let capped := capToolResultSize host
    (opts.transformMessageForPersistence (.toolResult (normalizeToolResultName m toolName)))
  applyBeforeWriteHook opts
    (opts.transformToolResultForPersistence capped ⟨extractToolResultId m, toolName, false⟩)

/-- What is persisted of any other message. -/
def persistedMessage (m : Message) : Option Message :=
  applyBeforeWriteHook opts (opts.transformMessageForPersistence m)

def trackToolCalls (calls : List ToolCallLike) (pending : InsertionMap String (Option String)) :
    InsertionMap String (Option String) :=
  calls.foldl (fun pending call => pending.set call.id call.name) pending

/-- A message that is no tool result; `calls` are the tool calls to be answered. -/
def appendNonToolResult (isAssistant : Bool) (m : Message) (calls : List ToolCallLike) (s : GuardState) : GuardState :=
  let s := if s.pending.size > 0 ∧ (calls.length = 0 ∨ isAssistant = false) then flushPendingToolResults host opts s
    else s
  let s := if s.pending.size > 0 ∧ calls.length > 0 then flushPendingToolResults host opts s else s
  match persistedMessage opts m with
  | none => s
  | some m =>
    { pending := if calls.length > 0 then trackToolCalls calls s.pending else s.pending
      file := appendPersisted false (some m) s.file }

def guardedAppend (m : Message) (s : GuardState) : GuardState :=
  match m with
  | .assistant _ =>
    match (repairToolCallInputs host.toLowerCase opts.allowedToolNames [m]).head? with
    | none => if s.pending.size > 0 then flushPendingToolResults host opts s else s
    | some (.assistant m) =>
      let toolCalls := if m.errored then [] else extractToolCallsFromAssistant m
      appendNonToolResult host opts true (.assistant m) toolCalls s
    | some m => appendNonToolResult host opts true m [] s
  | .toolResult m =>
    let id := extractToolResultId m
    let toolName := id.bind fun id => (s.pending.get? id).join
    let pending := match id with
      | some id => s.pending.erase id
      | none => s.pending
    {pending, file := appendPersisted false (persistedResult host opts m toolName) s.file}
  | .other _ => appendNonToolResult host opts false m [] s

/-- All messages through the guard, and then the flush. -/
def guardedRun (messages : List Message) : GuardState :=
  flushPendingToolResults host opts (messages.foldl (fun s m => guardedAppend host opts m s) {})

end Guard

/-! ### What the options leave alone -/

inductive RoleAndIds where
  | assistant (toolCallIds : List String)
  | toolResult (id : Option String)
  | other
  deriving DecidableEq

def Message.roleAndIds : Message → RoleAndIds
  | .assistant m => .assistant m.toolCallIds
  | .toolResult m => .toolResult (extractToolResultId m)
  | .other _ => .other

def Message.stopReason : Message → Option String
  | .assistant m => m.stopReason
  | _ => none

/-- No transformer and no hook changes this of a message. -/
structure GuardOptions.Keeps {α : Type} (opts : GuardOptions) (f : Message → α) : Prop where
  transform : ∀ m, f (opts.transformMessageForPersistence m) = f m
  transformResult : ∀ m info, f (opts.transformToolResultForPersistence m info) = f m
  hook : ∀ m m', opts.beforeMessageWriteHook m = .replace m' → f m' = f m

/-- No hook blocks a message. -/
def GuardOptions.NeverBlocks (opts : GuardOptions) : Prop := ∀ m, opts.beforeMessageWriteHook m ≠ .block

/-- The message in the file is the appended one, as the options leave it. -/
def PersistedAs (host : GuardHost) (opts : GuardOptions) : Message → Message → Prop
  | .toolResult m, p => ∃ toolName, persistedResult host opts m toolName = some p
  | m, p => persistedMessage opts m = some p

/-- Each call of each turn is answered or pending, and pending only while results follow. -/
structure GuardInvariant (s : GuardState) : Prop where
  pending_ne_empty : ∀ id ∈ s.pending.keys, id ≠ ""
  answered : ∀ before a after, s.file.map (·.message) = before ++ .assistant a :: after → a.errored = false →
    ∀ id ∈ a.toolCallIds, AnsweredIn after id ∨ (id ∈ s.pending.keys ∧ ∀ m ∈ after, m.isToolResult = true)

section Keeps
variable (host : GuardHost) {opts : GuardOptions}

theorem applyBeforeWriteHook_some (hblock : opts.NeverBlocks) (m : Message) :
    ∃ m', applyBeforeWriteHook opts m = some m' ∧ ∀ {α : Type} {f : Message → α}, opts.Keeps f → f m' = f m := by
  unfold applyBeforeWriteHook
  cases h : opts.beforeMessageWriteHook m with
  | unchanged => exact ⟨m, rfl, fun _ => rfl⟩
  | block => exact absurd h (hblock m)
  | replace m' => exact ⟨m', rfl, fun hk => hk.hook m m' h⟩

theorem persistedMessage_some (hblock : opts.NeverBlocks) (m : Message) :
    ∃ m', persistedMessage opts m = some m' ∧ ∀ {α : Type} {f : Message → α}, opts.Keeps f → f m' = f m := by
  obtain ⟨m', h, hkeep⟩ := applyBeforeWriteHook_some hblock (opts.transformMessageForPersistence m)
  exact ⟨m', h, fun hk => (hkeep hk).trans (hk.transform m)⟩

theorem roleAndIds_cap (m : Message) : (capToolResultSize host m).roleAndIds = m.roleAndIds := by
  cases m <;> rfl

theorem roleAndIds_toolResult {m : Message} {id : Option String} (h : m.roleAndIds = .toolResult id) :
    ∃ r, m = .toolResult r ∧ extractToolResultId r = id := by
  cases m with
  | toolResult r => exact ⟨r, rfl, RoleAndIds.toolResult.inj h⟩
  | _ => cases h

theorem persistedResult_some (hblock : opts.NeverBlocks) (hids : opts.Keeps Message.roleAndIds) (m : ToolResultMessage)
    (toolName : Option String) :
    ∃ r, persistedResult host opts m toolName = some (.toolResult r) ∧ extractToolResultId r = extractToolResultId m := by
  unfold persistedResult
  dsimp only
  obtain ⟨m', h, hkeep⟩ := applyBeforeWriteHook_some hblock
    (opts.transformToolResultForPersistence (capToolResultSize host
      (opts.transformMessageForPersistence (.toolResult (normalizeToolResultName m toolName))))
      ⟨extractToolResultId m, toolName, false⟩)
  have hshape := hkeep hids
  rw [hids.transformResult, roleAndIds_cap, hids.transform] at hshape
  obtain ⟨r, rfl, hr⟩ := roleAndIds_toolResult hshape
  exact ⟨r, h, hr.trans (extractToolResultId_normalize m toolName)⟩

theorem flushedResult_some (hblock : opts.NeverBlocks) (hids : opts.Keeps Message.roleAndIds) {call : ToolCallLike}
    (hid : call.id ≠ "") :
    ∃ r, flushedResult host opts call = some (.toolResult r) ∧ extractToolResultId r = some call.id := by
  unfold flushedResult
  obtain ⟨m', h, hkeep⟩ := applyBeforeWriteHook_some hblock
    (opts.transformToolResultForPersistence
      (opts.transformMessageForPersistence (.toolResult (makeMissingToolResult host.now call)))
      ⟨some call.id, call.name, true⟩)
  have hshape := hkeep hids
  rw [hids.transformResult, hids.transform] at hshape
  obtain ⟨r, rfl, hr⟩ := roleAndIds_toolResult hshape
  exact ⟨r, h, hr.trans (extractToolResultId_missing host.now call hid)⟩

/-! ### The flush -/

/-- The flush writes one result for each pending call, in order. -/
theorem foldl_flushed (hblock : opts.NeverBlocks) (hids : opts.Keeps Message.roleAndIds)
    (entries : List (String × Option String)) (hne : ∀ e ∈ entries, e.1 ≠ "") (file : List Persisted) :
    ∃ results : List ToolResultMessage,
      entries.foldl (fun file e => appendPersisted true (flushedResult host opts ⟨e.1, e.2⟩) file) file =
        file ++ results.map (fun r => ⟨.toolResult r, true⟩) ∧
      results.map extractToolResultId = entries.map fun e => some e.1 := by
  induction entries generalizing file with
  | nil => exact ⟨[], by simp, rfl⟩
  | cons e rest ih =>
    obtain ⟨id, name⟩ := e
    obtain ⟨r, hr, hid⟩ := @flushedResult_some host opts hblock hids ⟨id, name⟩
      (hne (id, name) (mem_cons_self ..))
    obtain ⟨results, hfold, hresults⟩ :=
      ih (fun e he => hne e (mem_cons_of_mem _ he)) (file ++ [⟨.toolResult r, true⟩])
    refine ⟨r :: results, ?_, ?_⟩
    · rw [foldl_cons, hr, appendPersisted, hfold]
      simp
    · rw [map_cons, map_cons, hid, hresults]

theorem flush_eq (hsynth : opts.allowSyntheticToolResults = true) (hblock : opts.NeverBlocks)
    (hids : opts.Keeps Message.roleAndIds) {s : GuardState} (hne : ∀ id ∈ s.pending.keys, id ≠ "") :
    ∃ results : List ToolResultMessage,
      flushPendingToolResults host opts s = ⟨∅, s.file ++ results.map (fun r => ⟨.toolResult r, true⟩)⟩ ∧
      results.map extractToolResultId = s.pending.keys.map some := by
  obtain ⟨results, hfold, hresults⟩ := foldl_flushed host hblock hids s.pending.entries
    (fun e he => hne e.1 (mem_map_of_mem he)) s.file
  refine ⟨results, ?_, ?_⟩
  · rw [flushPendingToolResults, hsynth, if_pos rfl, hfold]
  · rw [hresults, InsertionMap.keys, map_map]
    rfl

/-! ### The invariant -/

theorem AnsweredIn.append {after : List Message} {id : String} (h : AnsweredIn after id) (more : List Message) :
    AnsweredIn (after ++ more) id := by
  obtain ⟨results, r, rest, rfl, hid⟩ := h
  exact ⟨results, r, rest ++ more, by simp, hid⟩

theorem map_toolResult_of_all {after : List Message} (h : ∀ m ∈ after, m.isToolResult = true) :
    ∃ results : List ToolResultMessage, after = results.map .toolResult := by
  induction after with
  | nil => exact ⟨[], rfl⟩
  | cons m rest ih =>
    obtain ⟨results, rfl⟩ := ih fun m hm => h m (mem_cons_of_mem _ hm)
    have hm := h m (mem_cons_self ..)
    cases m with
    | toolResult r => exact ⟨r :: results, rfl⟩
    | _ => cases hm

theorem AnsweredIn.of_result {after : List Message} (h : ∀ m ∈ after, m.isToolResult = true) {r : ToolResultMessage}
    {id : String} (hid : extractToolResultId r = some id) (more : List Message) :
    AnsweredIn (after ++ .toolResult r :: more) id := by
  obtain ⟨results, rfl⟩ := map_toolResult_of_all h
  exact ⟨results, r, more, rfl, hid⟩

/-- A split of a longer file at an assistant message that the added messages do not have. -/
theorem split_append {file more before after : List Message} {a : AssistantMessage}
    (hmore : ∀ m ∈ more, m.isToolResult = true) (h : file ++ more = before ++ .assistant a :: after) :
    ∃ after', file = before ++ .assistant a :: after' ∧ after = after' ++ more := by
  rcases append_eq_append_iff.mp h with ⟨mid, hbefore, hmid⟩ | ⟨mid, hfile, hmid⟩
  · have hmem : Message.assistant a ∈ more := by
      rw [hmid]
      simp
    exact absurd (hmore _ hmem) Bool.false_ne_true
  · cases mid with
    | nil =>
      have hmem : Message.assistant a ∈ more := by
        rw [← nil_append more, ← hmid]
        exact mem_cons_self ..
      exact absurd (hmore _ hmem) Bool.false_ne_true
    | cons m mid =>
      obtain ⟨rfl, rfl⟩ := List.cons.inj hmid
      exact ⟨mid, hfile, rfl⟩

/-- After a flush every call is answered and none is pending. -/
theorem GuardInvariant.flush (hsynth : opts.allowSyntheticToolResults = true) (hblock : opts.NeverBlocks)
    (hids : opts.Keeps Message.roleAndIds) {s : GuardState} (h : GuardInvariant s) :
    AnswersEveryCall ((flushPendingToolResults host opts s).file.map (·.message)) ∧
      (flushPendingToolResults host opts s).pending = ∅ := by
  obtain ⟨results, heq, hresults⟩ := flush_eq host hsynth hblock hids h.pending_ne_empty
  rw [heq]
  refine ⟨?_, rfl⟩
  intro before a after hsplit ha id hid
  rw [map_append, map_map] at hsplit
  obtain ⟨after', hfile, rfl⟩ := split_append (by simp [Message.isToolResult]) hsplit
  rcases h.answered before a after' hfile ha id hid with hanswered | ⟨hpending, hrun⟩
  · exact hanswered.append _
  · have hmem : some id ∈ results.map extractToolResultId := by
      rw [hresults]
      exact mem_map_of_mem hpending
    obtain ⟨r, hr, hrid⟩ := mem_map.mp hmem
    obtain ⟨first, last, rfl⟩ := append_of_mem hr
    rw [map_append, map_cons, ← append_assoc]
    refine AnsweredIn.of_result ?_ hrid _
    intro m hm
    rcases mem_append.mp hm with hm | hm
    · exact hrun m hm
    · obtain ⟨r', -, rfl⟩ := mem_map.mp hm
      rfl

/-- A result takes its call from the pending ones and answers it. -/
theorem GuardInvariant.result (hblock : opts.NeverBlocks) (hids : opts.Keeps Message.roleAndIds) {s : GuardState}
    (h : GuardInvariant s) (m : ToolResultMessage) : GuardInvariant (guardedAppend host opts (.toolResult m) s) := by
  obtain ⟨r, hr, hrid⟩ := persistedResult_some host hblock hids m
    ((extractToolResultId m).bind fun id => (s.pending.get? id).join)
  unfold guardedAppend
  dsimp only
  rw [hr, appendPersisted]
  have hkeys : ∀ id, id ∈ s.pending.keys → extractToolResultId m ≠ some id →
      id ∈ (match extractToolResultId m with | some id => s.pending.erase id | none => s.pending).keys := by
    intro id hid hne
    cases hm : extractToolResultId m with
    | none => exact hid
    | some x =>
      obtain ⟨v, hv⟩ := (InsertionMap.mem_keys ..).mp hid
      refine (InsertionMap.mem_keys ..).mpr ⟨v, ?_⟩
      rw [InsertionMap.get?_erase, if_neg fun heq => hne (hm.trans (congrArg some heq.symm)), hv]
  constructor
  · intro id hid
    refine h.pending_ne_empty id ?_
    cases hm : extractToolResultId m with
    | none => rw [hm] at hid; exact hid
    | some x =>
      rw [hm] at hid
      obtain ⟨v, hv⟩ := (InsertionMap.mem_keys ..).mp hid
      rw [InsertionMap.get?_erase] at hv
      by_cases hx : id = x
      · rw [if_pos hx] at hv
        cases hv
      · rw [if_neg hx] at hv
        exact (InsertionMap.mem_keys ..).mpr ⟨v, hv⟩
  · intro before a after hsplit ha id hid
    rw [map_append, map_singleton] at hsplit
    obtain ⟨after', hfile, rfl⟩ := split_append (by simp [Message.isToolResult]) hsplit
    rcases h.answered before a after' hfile ha id hid with hanswered | ⟨hpending, hrun⟩
    · exact .inl (hanswered.append _)
    · by_cases hown : extractToolResultId m = some id
      · exact .inl (AnsweredIn.of_result hrun (hrid.trans hown) [])
      · refine .inr ⟨hkeys id hpending hown, fun x hx => ?_⟩
        rcases mem_append.mp hx with hx | hx
        · exact hrun x hx
        · rw [mem_singleton.mp hx]
          rfl

theorem mem_trackToolCalls (calls : List ToolCallLike) (pending : InsertionMap String (Option String)) (id : String) :
    id ∈ (trackToolCalls calls pending).keys ↔ id ∈ calls.map (·.id) ∨ id ∈ pending.keys := by
  unfold trackToolCalls
  induction calls generalizing pending with
  | nil => simp
  | cons call rest ih =>
    rw [foldl_cons, ih, map_cons, mem_cons, InsertionMap.mem_keys, InsertionMap.mem_keys]
    by_cases hid : id = call.id
    · simp [hid]
    · simp [InsertionMap.get?_set, hid]

/-- Before a message that is no result the pending calls are flushed, if there are any. -/
theorem settle_eq (isAssistant : Bool) (calls : List ToolCallLike) (s : GuardState) :
    (let s₁ := if s.pending.size > 0 ∧ (calls.length = 0 ∨ isAssistant = false) then flushPendingToolResults host opts s
        else s
      if s₁.pending.size > 0 ∧ calls.length > 0 then flushPendingToolResults host opts s₁ else s₁) =
      if s.pending.size > 0 then flushPendingToolResults host opts s else s := by
  have hempty : ¬ (flushPendingToolResults host opts s).pending.size > 0 := by
    rw [flushPendingToolResults]
    exact Nat.lt_irrefl 0
  dsimp only
  by_cases hsize : s.pending.size > 0
  · rw [if_pos hsize]
    by_cases hfirst : calls.length = 0 ∨ isAssistant = false
    · have hthen : (if s.pending.size > 0 ∧ (calls.length = 0 ∨ isAssistant = false) then
          flushPendingToolResults host opts s else s) = flushPendingToolResults host opts s := if_pos ⟨hsize, hfirst⟩
      rw [hthen, if_neg fun hand => hempty hand.1]
    · have helse : (if s.pending.size > 0 ∧ (calls.length = 0 ∨ isAssistant = false) then
          flushPendingToolResults host opts s else s) = s := if_neg fun hand => hfirst hand.2
      rw [helse, if_pos ⟨hsize, by omega⟩]
  · have helse : (if s.pending.size > 0 ∧ (calls.length = 0 ∨ isAssistant = false) then
        flushPendingToolResults host opts s else s) = s := if_neg fun hand => hsize hand.1
    rw [helse, if_neg fun hand => hsize hand.1, if_neg hsize]

section
variable (hsynth : opts.allowSyntheticToolResults = true) (hblock : opts.NeverBlocks)
  (hids : opts.Keeps Message.roleAndIds)
include hsynth hblock hids

/-- What the guard writes before a message that is no result. -/
theorem GuardInvariant.settle {s : GuardState} (h : GuardInvariant s) :
    AnswersEveryCall ((if s.pending.size > 0 then flushPendingToolResults host opts s else s).file.map (·.message)) ∧
      (if s.pending.size > 0 then flushPendingToolResults host opts s else s).pending.keys = [] := by
  by_cases hsize : s.pending.size > 0
  · rw [if_pos hsize]
    obtain ⟨hall, hpending⟩ := h.flush host hsynth hblock hids
    rw [hpending]
    exact ⟨hall, rfl⟩
  · rw [if_neg hsize]
    have hkeys : s.pending.keys = [] := by
      rw [InsertionMap.keys, map_eq_nil_iff]
      exact length_eq_zero_iff.mp (Nat.eq_zero_of_not_pos hsize)
    refine ⟨fun before a after hsplit ha id hid => ?_, hkeys⟩
    rcases h.answered before a after hsplit ha id hid with hanswered | ⟨hpending, -⟩
    · exact hanswered
    · rw [hkeys] at hpending
      cases hpending

theorem appendNonToolResult_inv (hstop : opts.Keeps Message.stopReason) {s : GuardState}
    (h : GuardInvariant s) (isAssistant : Bool) {m : Message} (calls : List ToolCallLike)
    (hcalls : ∀ call ∈ calls, call.id ≠ "")
    (hm : ∀ a : AssistantMessage, m.roleAndIds = .assistant a.toolCallIds → a.stopReason = m.stopReason →
      a.errored = false → a.toolCallIds = calls.map (·.id)) :
    GuardInvariant (appendNonToolResult host opts isAssistant m calls s) := by
  obtain ⟨hall, hkeys⟩ := h.settle host hsynth hblock hids
  obtain ⟨m', hm', hkeep⟩ := persistedMessage_some hblock m
  unfold appendNonToolResult
  have hsettle := @settle_eq host opts isAssistant calls s
  dsimp only at hsettle ⊢
  rw [hsettle, hm']
  generalize (if s.pending.size > 0 then flushPendingToolResults host opts s else s) = s₂ at hall hkeys
  dsimp only [appendPersisted]
  have hpending : ∀ id, id ∈ (if calls.length > 0 then trackToolCalls calls s₂.pending else s₂.pending).keys ↔
      id ∈ calls.map (·.id) := by
    intro id
    by_cases hlen : calls.length > 0
    · rw [if_pos hlen, mem_trackToolCalls, hkeys]
      simp
    · rw [if_neg hlen, hkeys, length_eq_zero_iff.mp (Nat.eq_zero_of_not_pos hlen)]
      rfl
  constructor
  · intro id hid
    obtain ⟨call, hcall, rfl⟩ := mem_map.mp ((hpending id).mp hid)
    exact hcalls call hcall
  · intro before a after hsplit ha id hid
    rw [map_append, map_singleton] at hsplit
    rcases split_concat hsplit with ⟨rfl, -, rfl⟩ | ⟨mid, hfile, rfl⟩
    · -- the message is the turn itself
      have hcallIds := hm a (hkeep hids).symm (hkeep hstop) ha
      exact .inr ⟨(hpending id).mpr (hcallIds ▸ hid), nofun⟩
    · exact .inl ((hall before a mid hfile ha id hid).append _)

end

theorem errored_of_stopReason {a b : AssistantMessage} (h : a.stopReason = b.stopReason) : a.errored = b.errored := by
  rw [AssistantMessage.errored, AssistantMessage.errored, h]

theorem repairToolCallInputs_assistant (toLowerCase : String → String) (allowed : Option (List String))
    (a : AssistantMessage) :
    repairToolCallInputs toLowerCase allowed [.assistant a] =
      ((repairToolCallInput toLowerCase (normalizeAllowedToolNames toLowerCase allowed) a).map Message.assistant).toList := by
  unfold repairToolCallInputs
  rw [filterMap_cons]
  dsimp only
  cases repairToolCallInput toLowerCase (normalizeAllowedToolNames toLowerCase allowed) a with
  | _ => rfl

section
variable (hsynth : opts.allowSyntheticToolResults = true) (hblock : opts.NeverBlocks)
  (hids : opts.Keeps Message.roleAndIds) (hstop : opts.Keeps Message.stopReason)
include hsynth hblock hids hstop

/-- **One message keeps the invariant.** -/
theorem guardedAppend_inv {s : GuardState} (h : GuardInvariant s) (m : Message) :
    GuardInvariant (guardedAppend host opts m s) := by
  cases m with
  | toolResult r => exact h.result host hblock hids r
  | other v => exact appendNonToolResult_inv host hsynth hblock hids hstop h false [] nofun (fun a ha => by cases ha)
  | assistant b =>
    unfold guardedAppend
    dsimp only
    rw [repairToolCallInputs_assistant]
    cases repairToolCallInput host.toLowerCase (normalizeAllowedToolNames host.toLowerCase opts.allowedToolNames) b with
    | none =>
      obtain ⟨hall, hkeys⟩ := h.settle host hsynth hblock hids
      dsimp only [Option.map_none, Option.toList_none, head?_nil]
      refine ⟨fun id hid => ?_, fun before a after hsplit ha id hid => .inl (hall before a after hsplit ha id hid)⟩
      rw [hkeys] at hid
      cases hid
    | some b =>
      dsimp only [Option.map_some, Option.toList_some, head?_cons]
      refine appendNonToolResult_inv host hsynth hblock hids hstop h true _ ?_ ?_
      · intro call hcall
        by_cases hb : b.errored = true
        · rw [if_pos hb] at hcall
          cases hcall
        · rw [if_neg hb] at hcall
          exact toolCallIds_ne_empty hcall
      · intro a hshape hreason ha
        rw [if_neg (by rw [← errored_of_stopReason hreason, ha]; exact Bool.false_ne_true)]
        exact (RoleAndIds.assistant.inj hshape).symm

theorem guarded_inv (messages : List Message) {s : GuardState} (h : GuardInvariant s) :
    GuardInvariant (messages.foldl (fun s m => guardedAppend host opts m s) s) := by
  induction messages generalizing s with
  | nil => exact h
  | cons m rest ih => exact ih (guardedAppend_inv host hsynth hblock hids hstop h m)

end

theorem guardInvariant_start : GuardInvariant {} :=
  ⟨nofun, fun before _ _ hsplit => by cases before <;> cases hsplit⟩

/-! ### Every message is persisted -/

/-- What the file has of the appended messages. -/
def ownMessages (file : List Persisted) : List Message := (file.filter (!·.isSynthetic)).map (·.message)

theorem ownMessages_append (file more : List Persisted) :
    ownMessages (file ++ more) = ownMessages file ++ ownMessages more := by
  rw [ownMessages, filter_append, map_append]
  rfl

theorem ownMessages_flush (s : GuardState) :
    ownMessages (flushPendingToolResults host opts s).file = ownMessages s.file := by
  unfold flushPendingToolResults
  dsimp only
  by_cases hsynth : opts.allowSyntheticToolResults = true
  · rw [if_pos hsynth]
    generalize s.file = file
    induction s.pending.entries generalizing file with
    | nil => rfl
    | cons e rest ih =>
      rw [foldl_cons, ih]
      cases flushedResult host opts ⟨e.1, e.2⟩ with
      | none => rfl
      | some m =>
        rw [appendPersisted, ownMessages_append]
        exact append_nil _
  · rw [if_neg hsynth]

theorem ownMessages_nonToolResult (hblock : opts.NeverBlocks) (isAssistant : Bool) {m : Message}
    (hm : m.isToolResult = false) (calls : List ToolCallLike) (s : GuardState) :
    ∃ p, ownMessages (appendNonToolResult host opts isAssistant m calls s).file = ownMessages s.file ++ [p] ∧
      PersistedAs host opts m p := by
  obtain ⟨p, hp, -⟩ := persistedMessage_some hblock m
  refine ⟨p, ?_, ?_⟩
  · unfold appendNonToolResult
    have hsettle := @settle_eq host opts isAssistant calls s
    dsimp only at hsettle ⊢
    rw [hsettle, hp]
    dsimp only [appendPersisted]
    rw [ownMessages_append]
    by_cases hsize : s.pending.size > 0
    · rw [if_pos hsize, ownMessages_flush]
      rfl
    · rw [if_neg hsize]
      rfl
  · cases m with
    | toolResult r => cases hm
    | _ => exact hp

/-- One message is persisted once, unless all of it was malformed tool calls. -/
theorem ownMessages_guardedAppend (hblock : opts.NeverBlocks) (hids : opts.Keeps Message.roleAndIds) (m : Message)
    (s : GuardState) :
    ∃ ps, ownMessages (guardedAppend host opts m s).file = ownMessages s.file ++ ps ∧
      List.Forall₂ (PersistedAs host opts) (repairToolCallInputs host.toLowerCase opts.allowedToolNames [m]) ps := by
  cases m with
  | toolResult r =>
    obtain ⟨p, hp, -⟩ := persistedResult_some host hblock hids r
      ((extractToolResultId r).bind fun id => (s.pending.get? id).join)
    refine ⟨[.toolResult p], ?_, .cons ⟨_, hp⟩ .nil⟩
    unfold guardedAppend
    dsimp only
    rw [hp, appendPersisted, ownMessages_append]
    rfl
  | other v =>
    obtain ⟨p, hfile, hp⟩ := ownMessages_nonToolResult host hblock false (m := .other v) rfl [] s
    exact ⟨[p], hfile, .cons hp .nil⟩
  | assistant b =>
    unfold guardedAppend
    dsimp only
    rw [repairToolCallInputs_assistant]
    cases repairToolCallInput host.toLowerCase (normalizeAllowedToolNames host.toLowerCase opts.allowedToolNames) b with
    | none =>
      refine ⟨[], ?_, .nil⟩
      dsimp only [Option.map_none, Option.toList_none, head?_nil]
      rw [append_nil]
      by_cases hsize : s.pending.size > 0
      · rw [if_pos hsize, ownMessages_flush]
      · rw [if_neg hsize]
    | some b =>
      dsimp only [Option.map_some, Option.toList_some, head?_cons]
      obtain ⟨p, hfile, hp⟩ := ownMessages_nonToolResult host hblock true (m := .assistant b) rfl
        (if b.errored then [] else extractToolCallsFromAssistant b) s
      exact ⟨[p], hfile, .cons hp .nil⟩

theorem ownMessages_foldl (hblock : opts.NeverBlocks) (hids : opts.Keeps Message.roleAndIds) (messages : List Message)
    (s : GuardState) :
    ∃ ps, ownMessages (messages.foldl (fun s m => guardedAppend host opts m s) s).file = ownMessages s.file ++ ps ∧
      List.Forall₂ (PersistedAs host opts) (repairToolCallInputs host.toLowerCase opts.allowedToolNames messages) ps := by
  induction messages generalizing s with
  | nil => exact ⟨[], (append_nil _).symm, .nil⟩
  | cons m rest ih =>
    obtain ⟨ps, hps, hone⟩ := ownMessages_guardedAppend host hblock hids m s
    obtain ⟨qs, hqs, hrest⟩ := ih (guardedAppend host opts m s)
    refine ⟨ps ++ qs, ?_, ?_⟩
    · rw [foldl_cons, hqs, hps, append_assoc]
    · have hsplit : repairToolCallInputs host.toLowerCase opts.allowedToolNames (m :: rest) =
          repairToolCallInputs host.toLowerCase opts.allowedToolNames [m] ++
            repairToolCallInputs host.toLowerCase opts.allowedToolNames rest :=
        @filterMap_append _ _ [m] rest _
      rw [hsplit]
      exact rel_append hone hrest

end Keeps

/-- **A guarded file has no unanswered tool call**, and it has every message once and in order. -/
theorem guarded_file_answered (host : GuardHost) (opts : GuardOptions) (messages : List Message)
    (hsynth : opts.allowSyntheticToolResults = true) (hblock : opts.NeverBlocks)
    (hids : opts.Keeps Message.roleAndIds) (hstop : opts.Keeps Message.stopReason) :
    AnswersEveryCall ((guardedRun host opts messages).file.map (·.message)) ∧
      List.Forall₂ (PersistedAs host opts) (repairToolCallInputs host.toLowerCase opts.allowedToolNames messages)
        (ownMessages (guardedRun host opts messages).file) := by
  constructor
  · exact ((guarded_inv host hsynth hblock hids hstop messages guardInvariant_start).flush host hsynth hblock hids).1
  · obtain ⟨ps, hps, hall⟩ := ownMessages_foldl host hblock hids messages {}
    rw [guardedRun, ownMessages_flush, hps]
    exact hall

def plainGuardHost : GuardHost := ⟨id, id, 0⟩

def readCall : ContentBlock where
  type := some "toolCall"
  id := some "call_1"
  name := some "read"
  arguments := some (.object [])

theorem guardOptions_keep {α : Type} (f : Message → α) : ({} : GuardOptions).Keeps f where
  transform _ := rfl
  transformResult _ _ := rfl
  hook _ _ h := by cases h

/-- A call that the user interrupts. -/
theorem guarded_file_answered_interrupted :
    AnswersEveryCall ((guardedRun plainGuardHost {} [.assistant ⟨some [readCall], none, []⟩, .other .null]).file.map
        (·.message)) ∧
      List.Forall₂ (PersistedAs plainGuardHost {})
        (repairToolCallInputs id none [.assistant ⟨some [readCall], none, []⟩, .other .null])
        (ownMessages (guardedRun plainGuardHost {} [.assistant ⟨some [readCall], none, []⟩, .other .null]).file) :=
  guarded_file_answered plainGuardHost {} _ rfl (fun _ h => by cases h) (guardOptions_keep _) (guardOptions_keep _)

/-- A hook that lets a failed turn look like a finished one. -/
def finishFailedTurn : GuardOptions where
  beforeMessageWriteHook
    | .assistant a => .replace (.assistant {a with stopReason := some "stop"})
    | _ => .unchanged

/-- **The stop reason matters**: the guard reads it before the hook and tracks no call of a failed turn. -/
theorem finished_by_hook_unanswered :
    finishFailedTurn.allowSyntheticToolResults = true ∧ finishFailedTurn.NeverBlocks ∧
      finishFailedTurn.Keeps Message.roleAndIds ∧
      ¬ AnswersEveryCall ((guardedRun plainGuardHost finishFailedTurn
        [.assistant ⟨some [readCall], some "error", []⟩]).file.map (·.message)) := by
  refine ⟨rfl, fun m h => (by cases m <;> cases h), ⟨fun _ => rfl, fun _ _ => rfl, fun m m' h => ?_⟩, fun h => ?_⟩
  · cases m with
    | assistant a => cases h; rfl
    | _ => cases h
  · have hfile : (guardedRun plainGuardHost finishFailedTurn
        [.assistant ⟨some [readCall], some "error", []⟩]).file.map (·.message) =
          [.assistant ⟨some [readCall], some "stop", []⟩] := by rfl
    obtain ⟨results, r, rest, hnil, -⟩ := h [] _ [] hfile rfl "call_1" (by decide)
    cases results <;> cases hnil

end OpenClaw.Agents
