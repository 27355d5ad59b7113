import Mathlib.Data.List.Chain
import OpenClaw.Config.Value
import OpenClaw.Foundation.Entries

/-! What a provider's turn order makes of a transcript.

One provider refuses two user messages in a row, another two assistant messages: a run of
them becomes one message. Before that, an assistant message in front of a user message loses
the tool calls that the user message has no results for, and a message that would be left
empty says so. Messages are read as they were stored, so every field may be anything. -/
namespace OpenClaw.Agents
open List

open Config (Value Entries toObjectRecord toItems)
open Foundation.Entries (setEntry lookup_setEntry)

/-! ### Reading a message -/

/-- What the operators `&&`, `||` and `!` take for true. -/
def isTruthy : Value → Bool
  | .undefined | .null => false
  | .bool b => b
  | .number n => n ≠ 0
  | .string s => s ≠ ""
  | .array _ | .object _ => true

/-- A field, `undefined` where there is none. -/
def fieldOf (value : Value) (key : String) : Value := ((toObjectRecord (some value)).lookup key).getD .undefined

/-- The blocks of a message, none if its content is no array. -/
def contentOf (msg : Value) : List Value := toItems (some (fieldOf msg "content"))

def HasType (type : String) (block : Value) : Prop := (fieldOf block "type").text? = some type

def HasRole (role : String) (msg : Value) : Prop := (fieldOf msg "role").text? = some role

instance (type : String) (block : Value) : Decidable (HasType type block) := inferInstanceAs (Decidable (_ = _))

instance (role : String) (msg : Value) : Decidable (HasRole role msg) := inferInstanceAs (Decidable (_ = _))

/-- What a `Set` takes for one value: arrays and objects from two places never are. -/
def sameValue : Value → Value → Bool
  | .undefined, .undefined => true
  | .null, .null => true
  | .bool a, .bool b => a = b
  | .number a, .number b => a = b
  | .string a, .string b => a = b
  | _, _ => false

/-- The properties that `{...value}` copies. -/
def spread : Value → Entries
  | .object entries => entries
  | .array items => items.zipIdx.map fun (item, i) => (toString i, item)
  | _ => []

/-! ### Tool calls without a result -/

def validToolUseIds (nextMsg : Value) : List Value :=
  ((contentOf nextMsg).filter fun block =>
    isTruthy block && decide (HasType "toolResult" block) && isTruthy (fieldOf block "toolUseId")).map
      (fieldOf · "toolUseId")

def keepsBlock (validIds : List Value) (block : Value) : Bool :=
  if !isTruthy block then false
  else if ¬ HasType "toolUse" block then true
  else
    let id := fieldOf block "id"
    validIds.any (sameValue · (if isTruthy id then id else .string ""))

def toolCallsOmitted : Value := .object [("type", .string "text"), ("text", .string "[tool calls omitted]")]

/-- One turn of the loop of `stripDanglingAnthropicToolUses`. -/
def stripTurn (msg : Value) (nextMsg : Option Value) : Value :=
  if !msg.isObject then msg
  else if ¬ HasRole "assistant" msg then msg
  else
    match nextMsg.filter (HasRole "user" ·) with
    | none => msg
    | some nextUserMsg =>
      let originalContent := contentOf msg
      let filteredContent := originalContent.filter (keepsBlock (validToolUseIds nextUserMsg))
      let content :=
        if !originalContent.isEmpty && filteredContent.isEmpty then [toolCallsOmitted] else filteredContent
      .object (setEntry "content" (.array content) (spread msg))

def stripDanglingAnthropicToolUses : List Value → List Value
  | [] => []
  | msg :: rest => stripTurn msg rest.head? :: stripDanglingAnthropicToolUses rest

/-! ### Merging runs -/

structure MergeState where
  result : List Value := []
  lastRole : Value := .undefined

def mergeStep (role : String) (merge : Value → Value → Value) (s : MergeState) (msg : Value) : MergeState :=
  if !msg.isObject then {s with result := s.result ++ [msg]}
  else
    let msgRole := fieldOf msg "role"
    if !isTruthy msgRole then {s with result := s.result ++ [msg]}
    else
      match s.result.getLast?.filter (·.isObject) with
      | some lastMsg =>
        if msgRole.text? = some role ∧ s.lastRole.text? = some role then
          {s with result := s.result.dropLast ++ [merge lastMsg msg]}
        else {result := s.result ++ [msg], lastRole := msgRole}
      | none => {result := s.result ++ [msg], lastRole := msgRole}

def validateTurnsWithConsecutiveMerge (messages : List Value) (role : String) (merge : Value → Value → Value) :
    List Value :=
  (messages.foldl (mergeStep role merge) {}).result

/-- `...(from[key] && { [key]: from[key] })`. -/
def setTruthy (key : String) (source : Value) (entries : Entries) : Entries :=
  if isTruthy (fieldOf source key) then setEntry key (fieldOf source key) entries else entries

def mergeConsecutiveAssistantTurns (previous current : Value) : Value :=
  let merged := setEntry "content" (.array (contentOf previous ++ contentOf current)) (spread previous)
  .object (setTruthy "errorMessage" current (setTruthy "stopReason" current (setTruthy "usage" current merged)))

/-- `a ?? b`. -/
def orElse : Value → Value → Value
  | .undefined, b | .null, b => b
  | a, _ => a

def mergeConsecutiveUserTurns (previous current : Value) : Value :=
  .object (setEntry "timestamp" (orElse (fieldOf current "timestamp") (fieldOf previous "timestamp"))
    (setEntry "content" (.array (contentOf previous ++ contentOf current)) (spread current)))

def validateGeminiTurns (messages : List Value) : List Value :=
  validateTurnsWithConsecutiveMerge messages "assistant" mergeConsecutiveAssistantTurns

def validateAnthropicTurns (messages : List Value) : List Value :=
  validateTurnsWithConsecutiveMerge (stripDanglingAnthropicToolUses messages) "user" mergeConsecutiveUserTurns

/-! ### What is left of a message -/

/-- The text of a block, if it is one of text. -/
def blockText (block : Value) : String :=
  if HasType "text" block then (fieldOf block "text").text?.getD "" else ""

def messageText (msg : Value) : String :=
  match fieldOf msg "content" with
  | .string s => s
  | .array items => String.join (items.map blockText)
  | _ => ""

/-- The message is an object that says whose it is, or no object at all. -/
def NamesItsRole (msg : Value) : Prop := msg.isObject = true → isTruthy (fieldOf msg "role") = true

/-- A message that stands alone, or the one that a run of messages became. -/
inductive Merged (role : String) : List Value → Value → Prop
  | alone (msg : Value) : Merged role [msg] msg
  | run {run : List Value} {msg : Value} (hlen : 2 ≤ run.length) (hruns : ∀ m ∈ run, HasRole role m)
      (hrole : HasRole role msg)
      (hcontent : (∀ m ∈ run, ∃ blocks, fieldOf m "content" = .array blocks) →
        fieldOf msg "content" = .array (run.flatMap contentOf) ∧ messageText msg = String.join (run.map messageText)) :
      Merged role run msg

def Apart (role : String) (a b : Value) : Prop := ¬ (HasRole role a ∧ HasRole role b)

/-- A tool call that the next message has no result for. -/
def IsDangling (nextMsg block : Value) : Prop :=
  HasType "toolUse" block ∧ ∀ answer ∈ contentOf nextMsg, HasType "toolResult" answer →
    isTruthy (fieldOf answer "toolUseId") = true → sameValue (fieldOf answer "toolUseId") (fieldOf block "id") = false

instance (nextMsg block : Value) : Decidable (IsDangling nextMsg block) := inferInstanceAs (Decidable (_ ∧ _))

/-- What is left of the blocks of an assistant message before a user message. -/
def keptBlocks (nextMsg : Value) (blocks : List Value) : List Value :=
  let kept := blocks.filter fun block => isTruthy block && !decide (IsDangling nextMsg block)
  if kept.isEmpty && !blocks.isEmpty then [toolCallsOmitted] else kept

/-- An assistant message before a user message keeps all but its missing blocks and its dangling
tool calls; any other message stays as it is. -/
structure Stripped (msg : Value) (nextMsg : Option Value) (out : Value) : Prop where
  kept : (HasRole "assistant" msg → ∀ next ∈ nextMsg, ¬ HasRole "user" next) → out = msg
  fields : ∀ key, key ≠ "content" → fieldOf out key = fieldOf msg key
  content : HasRole "assistant" msg → ∀ next ∈ nextMsg, HasRole "user" next → ∀ blocks,
    fieldOf msg "content" = .array blocks → fieldOf out "content" = .array (keptBlocks next blocks)

inductive AllStripped : List Value → List Value → Prop
  | nil : AllStripped [] []
  | cons {msg out : Value} {rest outs : List Value} (h : Stripped msg rest.head? out) (hrest : AllStripped rest outs) :
      AllStripped (msg :: rest) (out :: outs)

/-! ### Stripping -/

theorem fieldOf_object (entries : Entries) (key : String) :
    fieldOf (.object entries) key = (entries.lookup key).getD .undefined := rfl

theorem fieldOf_setEntry (entries : Entries) (key k : String) (value : Value) :
    fieldOf (.object (setEntry k value entries)) key = if key = k then value else fieldOf (.object entries) key := by
  rw [fieldOf_object, fieldOf_object, lookup_setEntry]
  split <;> rfl

/-- Only an object with properties has a role. -/
theorem HasRole.object {role : String} {msg : Value} (h : HasRole role msg) : ∃ entries, msg = .object entries := by
  cases msg with
  | object entries => exact ⟨entries, rfl⟩
  | _ => cases h

theorem HasRole.isObject {role : String} {msg : Value} (h : HasRole role msg) : msg.isObject = true := by
  obtain ⟨entries, rfl⟩ := h.object
  rfl

theorem isTruthy_of_sameValue {a b : Value} (h : sameValue a b = true) : isTruthy a = isTruthy b := by
  unfold sameValue at h
  split at h <;> simp_all [isTruthy]

theorem keepsBlock_eq (nextMsg block : Value) :
    keepsBlock (validToolUseIds nextMsg) block = (isTruthy block && !decide (IsDangling nextMsg block)) := by
  unfold keepsBlock
  cases hblock : isTruthy block with
  | false => rfl
  | true =>
    rw [Bool.not_true, if_neg Bool.false_ne_true, Bool.true_and]
    by_cases htool : HasType "toolUse" block
    · rw [if_neg (not_not.mpr htool)]
      rw [Bool.eq_iff_iff, any_eq_true, Bool.not_eq_true', decide_eq_false_iff_not, IsDangling, not_and]
      constructor
      · rintro ⟨id, hid, hsame⟩ - hall
        obtain ⟨answer, hanswer, rfl⟩ := mem_map.mp hid
        obtain ⟨hmem, hkept⟩ := mem_filter.mp hanswer
        simp only [Bool.and_eq_true, decide_eq_true_eq] at hkept
        by_cases hid : isTruthy (fieldOf block "id") = true
        · rw [if_pos hid] at hsame
          exact absurd hsame (Bool.eq_false_iff.mp (hall answer hmem hkept.1.2 hkept.2))
        · rw [if_neg hid] at hsame
          have := isTruthy_of_sameValue hsame
          rw [hkept.2] at this
          exact absurd this (by decide)
      · intro hsome
        have := hsome htool
        push Not at this
        obtain ⟨answer, hmem, htype, hid, hsame⟩ := this
        have hsame : sameValue (fieldOf answer "toolUseId") (fieldOf block "id") = true := by simpa using hsame
        have hblockId : isTruthy (fieldOf block "id") = true := isTruthy_of_sameValue hsame ▸ hid
        refine ⟨_, mem_map.mpr ⟨answer, mem_filter.mpr ⟨hmem, ?_⟩, rfl⟩, by rwa [if_pos hblockId]⟩
        have hanswer : isTruthy answer = true := by
          cases answer with
          | object entries => rfl
          | _ => cases htype
        simp only [hanswer, htype, hid, decide_true, Bool.and_self]
    · rw [if_pos htool, decide_eq_false fun h => htool h.1]
      rfl

theorem stripTurn_stripped (msg : Value) (nextMsg : Option Value) : Stripped msg nextMsg (stripTurn msg nextMsg) := by
  have hsame (h : HasRole "assistant" msg → ∀ next ∈ nextMsg, ¬ HasRole "user" next) : Stripped msg nextMsg msg :=
    ⟨fun _ => rfl, fun _ _ => rfl, fun hrole next hnext huser => absurd huser (h hrole next hnext)⟩
  unfold stripTurn
  by_cases hobject : (!msg.isObject) = true
  · rw [if_pos hobject]
    exact hsame fun hrole => absurd hrole.isObject (by simpa using hobject)
  rw [if_neg hobject]
  by_cases hrole : HasRole "assistant" msg
  · rw [if_neg (not_not.mpr hrole)]
    cases hnext : nextMsg.filter (HasRole "user" ·) with
    | none =>
      refine hsame fun _ next hmem huser => ?_
      rw [Option.filter_eq_none_iff] at hnext
      exact hnext next hmem (decide_eq_true huser)
    | some next =>
      obtain ⟨hmem, huser⟩ := Option.filter_eq_some_iff.mp hnext
      have huser := of_decide_eq_true huser
      obtain ⟨entries, rfl⟩ := hrole.object
      refine ⟨fun h => absurd huser (h hrole next hmem), fun key hkey => ?_, fun _ next' hnext' _ blocks hblocks => ?_⟩
      · exact (fieldOf_setEntry entries key "content" _).trans (if_neg hkey)
      · cases (Option.mem_unique hmem hnext' : next = next')
        refine (fieldOf_setEntry entries "content" "content" _).trans ?_
        rw [if_pos rfl, contentOf, hblocks, toItems, keptBlocks,
          funext (keepsBlock_eq next), Bool.and_comm]
  · rw [if_pos hrole]
    exact hsame fun h => absurd h hrole

theorem allStripped (messages : List Value) : AllStripped messages (stripDanglingAnthropicToolUses messages) := by
  induction messages with
  | nil => exact .nil
  | cons msg rest ih => exact .cons (stripTurn_stripped msg rest.head?) ih

theorem namesItsRole_stripTurn {msg : Value} (h : NamesItsRole msg) (nextMsg : Option Value) :
    NamesItsRole (stripTurn msg nextMsg) := by
  intro hobject
  have hs := stripTurn_stripped msg nextMsg
  rw [hs.fields "role" (by decide)]
  by_cases hmsg : msg.isObject = true
  · exact h hmsg
  · have hsame := hs.kept fun hrole => absurd hrole.isObject hmsg
    exact absurd (hsame ▸ hobject) hmsg

/-! ### Merging -/

/-- What the merge of two messages of a role keeps. -/
structure KeepsContent (role : String) (merge : Value → Value → Value) : Prop where
  role : ∀ {previous current}, HasRole role previous → HasRole role current → HasRole role (merge previous current)
  content : ∀ previous current,
    fieldOf (merge previous current) "content" = .array (contentOf previous ++ contentOf current)

theorem fieldOf_setTruthy (entries : Entries) (key k : String) (source : Value) (h : key ≠ k) :
    fieldOf (.object (setTruthy k source entries)) key = fieldOf (.object entries) key := by
  unfold setTruthy
  split
  · rw [fieldOf_setEntry, if_neg h]
  · rfl

theorem keepsContent_assistant : KeepsContent "assistant" mergeConsecutiveAssistantTurns where
  role {previous current} hprevious _ := by
    obtain ⟨entries, rfl⟩ := hprevious.object
    simp only [HasRole, mergeConsecutiveAssistantTurns, spread, fieldOf_setTruthy _ _ _ _ (show "role" ≠ "errorMessage" by decide),
      fieldOf_setTruthy _ _ _ _ (show "role" ≠ "stopReason" by decide),
      fieldOf_setTruthy _ _ _ _ (show "role" ≠ "usage" by decide), fieldOf_setEntry]
    exact hprevious
  content previous current := by
    simp only [mergeConsecutiveAssistantTurns, fieldOf_setTruthy _ _ _ _ (show "content" ≠ "errorMessage" by decide),
      fieldOf_setTruthy _ _ _ _ (show "content" ≠ "stopReason" by decide),
      fieldOf_setTruthy _ _ _ _ (show "content" ≠ "usage" by decide), fieldOf_setEntry, if_pos]

theorem keepsContent_user : KeepsContent "user" mergeConsecutiveUserTurns where
  role {previous current} _ hcurrent := by
    obtain ⟨entries, rfl⟩ := hcurrent.object
    simp only [HasRole, mergeConsecutiveUserTurns, spread, fieldOf_setEntry]
    exact hcurrent
  content previous current := by
    simp only [mergeConsecutiveUserTurns, fieldOf_setEntry]
    rfl

theorem contentOf_of_array {msg : Value} {blocks : List Value} (h : fieldOf msg "content" = .array blocks) :
    contentOf msg = blocks := by
  rw [contentOf, h]
  rfl

theorem messageText_of_array {msg : Value} {blocks : List Value} (h : fieldOf msg "content" = .array blocks) :
    messageText msg = String.join (blocks.map blockText) := by
  rw [messageText, h]

theorem join_append (a b : List String) : String.join (a ++ b) = String.join a ++ String.join b := by
  apply String.toList_injective
  simp only [String.toList_join, flatMap_append, String.toList_append]

theorem join_messageText {run : List Value} (h : ∀ m ∈ run, ∃ blocks, fieldOf m "content" = .array blocks) :
    String.join (run.map messageText) = String.join ((run.flatMap contentOf).map blockText) := by
  induction run with
  | nil => rfl
  | cons m run ih =>
    obtain ⟨blocks, hblocks⟩ := h m mem_cons_self
    have hm : String.join [messageText m] = String.join ((contentOf m).map blockText) := by
      rw [contentOf_of_array hblocks, ← messageText_of_array hblocks]
      simp [String.join]
    have hcons : (m :: run).map messageText = [messageText m] ++ run.map messageText := rfl
    rw [hcons, join_append, ih fun m hm => h m (mem_cons_of_mem _ hm), hm, flatMap_cons, map_append, join_append]

section Merging
variable {role : String} {merge : Value → Value → Value}

/-- One more message of the role is merged into what the run became. -/
theorem Merged.snoc (hmerge : KeepsContent role merge) {run : List Value} {last msg : Value} (h : Merged role run last)
    (hlast : HasRole role last) (hmsg : HasRole role msg) : Merged role (run ++ [msg]) (merge last msg) := by
  have hrun : (∀ m ∈ run, HasRole role m) ∧ 1 ≤ run.length ∧
      ((∀ m ∈ run, ∃ blocks, fieldOf m "content" = .array blocks) → contentOf last = run.flatMap contentOf) := by
    cases h with
    | alone =>
      refine ⟨fun m hm => mem_singleton.mp hm ▸ hlast, le_rfl, fun _ => ?_⟩
      rw [flatMap_cons, flatMap_nil, append_nil]
    | run hlen hruns hrole hcontent =>
      exact ⟨hruns, by omega, fun harrays => contentOf_of_array (hcontent harrays).1⟩
  obtain ⟨hruns, hlen, hcontent⟩ := hrun
  refine .run (by rw [length_append, length_singleton]; omega) (fun m hm => ?_) (hmerge.role hlast hmsg)
    fun harrays => ?_
  · rcases mem_append.mp hm with hm | hm
    · exact hruns m hm
    · exact mem_singleton.mp hm ▸ hmsg
  · have hall : fieldOf (merge last msg) "content" = .array ((run ++ [msg]).flatMap contentOf) := by
      rw [hmerge.content, hcontent fun m hm => harrays m (mem_append_left _ hm), flatMap_append,
        flatMap_cons, flatMap_nil, append_nil]
    exact ⟨hall, by rw [messageText_of_array hall, join_messageText harrays]⟩

/-- What the loop has made of the messages so far. -/
structure MergedSoFar (role : String) (messages : List Value) (s : MergeState) : Prop where
  merged : ∃ runs, runs.flatten = messages ∧ List.Forall₂ (Merged role) runs s.result
  apart : s.result.IsChain (Apart role)
  last : ∀ m ∈ s.result.getLast?, m.isObject = true → (HasRole role m ↔ s.lastRole.text? = some role)

theorem MergedSoFar.push {messages : List Value} {s : MergeState} (h : MergedSoFar role messages s) {msg : Value}
    (hapart : ∀ m ∈ s.result.getLast?, Apart role m msg) {lastRole : Value}
    (hlast : msg.isObject = true → (HasRole role msg ↔ lastRole.text? = some role)) :
    MergedSoFar role (messages ++ [msg]) ⟨s.result ++ [msg], lastRole⟩ where
  merged := by
    obtain ⟨runs, hruns, hmerged⟩ := h.merged
    refine ⟨runs ++ [[msg]], ?_, rel_append hmerged (.cons (.alone msg) .nil)⟩
    rw [flatten_append, hruns, flatten_singleton]
  apart := h.apart.append (isChain_singleton msg) fun m hm n hn => by
    rw [head?_cons, Option.mem_some_iff] at hn
    exact hn ▸ hapart m hm
  last m hm := by
    rw [getLast?_concat, Option.mem_some_iff] at hm
    exact hm ▸ hlast

theorem forall₂_concat_right {α β : Type*} {R : α → β → Prop} {l : List α} {init : List β} {last : β}
    (h : List.Forall₂ R l (init ++ [last])) : ∃ front back, l = front ++ [back] ∧ List.Forall₂ R front init ∧ R back last := by
  rw [← forall₂_reverse_iff, reverse_concat] at h
  cases hl : l.reverse with
  | nil =>
    rw [hl] at h
    cases h
  | cons back front =>
    rw [hl] at h
    cases h with
    | cons hback hfront =>
      refine ⟨front.reverse, back, ?_, ?_, hback⟩
      · rw [← reverse_reverse l, hl, reverse_cons]
      · rwa [← forall₂_reverse_iff, reverse_reverse]

/-- The last message takes one more of its role in. -/
theorem MergedSoFar.extend (hmerge : KeepsContent role merge) {messages init : List Value} {lastRole last msg : Value}
    (h : MergedSoFar role messages ⟨init ++ [last], lastRole⟩) (hlastRole : lastRole.text? = some role)
    (hlast : HasRole role last) (hmsg : HasRole role msg) :
    MergedSoFar role (messages ++ [msg]) ⟨init ++ [merge last msg], lastRole⟩ where
  merged := by
    obtain ⟨runs, hruns, hmerged⟩ := h.merged
    obtain ⟨front, back, rfl, hfront, hback⟩ := forall₂_concat_right hmerged
    refine ⟨front ++ [back ++ [msg]], ?_, rel_append hfront (.cons (hback.snoc hmerge hlast hmsg) .nil)⟩
    rw [← hruns, flatten_append, flatten_append, flatten_singleton, flatten_singleton, append_assoc]
  apart := by
    obtain ⟨hinit, -, hnext⟩ := isChain_append.mp h.apart
    refine hinit.append (isChain_singleton _) fun m hm n hn => ?_
    have := hnext m hm last (Option.mem_some_self last)
    exact fun hboth => this ⟨hboth.1, hlast⟩
  last m hm := by
    rw [getLast?_concat, Option.mem_some_iff] at hm
    exact fun _ => hm ▸ iff_of_true (hmerge.role hlast hmsg) hlastRole

theorem mergeStep_merged (hmerge : KeepsContent role merge) {messages : List Value} {s : MergeState} {msg : Value}
    (h : MergedSoFar role messages s) (hmsg : NamesItsRole msg) :
    MergedSoFar role (messages ++ [msg]) (mergeStep role merge s msg) := by
  unfold mergeStep
  by_cases hobject : msg.isObject = true
  · rw [if_neg (by simp [hobject])]
    dsimp only
    rw [if_neg (by simp [hmsg hobject])]
    -- a message is only put behind one of its role if that is no object
    have hpush (hlast : ∀ m ∈ s.result.getLast?, m.isObject = true →
        ¬ ((fieldOf msg "role").text? = some role ∧ s.lastRole.text? = some role)) :
        MergedSoFar role (messages ++ [msg]) ⟨s.result ++ [msg], fieldOf msg "role"⟩ :=
      h.push (fun m hm hboth => hlast m hm hboth.1.isObject ⟨hboth.2, (h.last m hm hboth.1.isObject).mp hboth.1⟩)
        fun _ => Iff.rfl
    split
    · rename_i last hlast
      obtain ⟨hmem, hlastObject⟩ := Option.filter_eq_some_iff.mp hlast
      split
      · rename_i hroles
        obtain ⟨init, hinit⟩ := getLast?_eq_some_iff.mp hmem
        have hs : s = ⟨init ++ [last], s.lastRole⟩ := by rw [← hinit]
        rw [hinit, dropLast_concat]
        exact (hs ▸ h).extend hmerge hroles.2 ((h.last last hmem hlastObject).mpr hroles.2) hroles.1
      · rename_i hroles
        exact hpush fun m hm _ => hroles
    · rename_i hnone
      refine hpush fun m hm hm' => ?_
      rw [Option.filter_eq_none_iff] at hnone
      exact absurd hm' (hnone m hm)
  · rw [if_pos (by simp [hobject])]
    exact h.push (fun m _ hboth => hobject hboth.2.isObject) fun hobj => absurd hobj hobject

theorem validateTurns_merged (hmerge : KeepsContent role merge) {messages : List Value}
    (hroles : ∀ msg ∈ messages, NamesItsRole msg) :
    (∃ runs, runs.flatten = messages ∧
        List.Forall₂ (Merged role) runs (validateTurnsWithConsecutiveMerge messages role merge)) ∧
      (validateTurnsWithConsecutiveMerge messages role merge).IsChain (Apart role) := by
  have hloop : ∀ (rest before : List Value) (s : MergeState), MergedSoFar role before s →
      (∀ msg ∈ rest, NamesItsRole msg) → MergedSoFar role (before ++ rest) (rest.foldl (mergeStep role merge) s) := by
    intro rest
    induction rest with
    | nil =>
      intro before s h _
      rwa [append_nil]
    | cons msg rest ih =>
      intro before s h hrest
      have := ih (before ++ [msg]) _ (mergeStep_merged hmerge h (hrest msg mem_cons_self)) fun m hm =>
        hrest m (mem_cons_of_mem _ hm)
      rwa [append_assoc] at this
  have h := hloop messages [] {} ⟨⟨[], rfl, .nil⟩, .nil, fun m hm => nomatch hm⟩ hroles
  exact ⟨h.merged, h.apart⟩

end Merging

theorem namesItsRole_strip {messages : List Value} (h : ∀ msg ∈ messages, NamesItsRole msg) :
    ∀ msg ∈ stripDanglingAnthropicToolUses messages, NamesItsRole msg := by
  induction messages with
  | nil => exact fun _ hm => absurd hm not_mem_nil
  | cons msg rest ih =>
    exact forall_mem_cons.mpr ⟨namesItsRole_stripTurn (h msg mem_cons_self) _,
      ih fun m hm => h m (mem_cons_of_mem _ hm)⟩

/-- **The messages that a provider is given are those of the transcript**, each alone or in one
message with its whole run, which has their blocks in order; before that an assistant message in
front of a user message loses its dangling tool calls and says so if nothing else is left. No two
user messages, or for the other provider assistant messages, are neighbours. -/
theorem validateTurns_keepContent {messages : List Value} (hroles : ∀ msg ∈ messages, NamesItsRole msg) :
    (∃ stripped runs, AllStripped messages stripped ∧ runs.flatten = stripped ∧
        List.Forall₂ (Merged "user") runs (validateAnthropicTurns messages)) ∧
      (validateAnthropicTurns messages).IsChain (Apart "user") ∧
      (∃ runs, runs.flatten = messages ∧ List.Forall₂ (Merged "assistant") runs (validateGeminiTurns messages)) ∧
      (validateGeminiTurns messages).IsChain (Apart "assistant") := by
  obtain ⟨⟨runs, hruns, hmerged⟩, hapart⟩ := validateTurns_merged keepsContent_user (namesItsRole_strip hroles)
  obtain ⟨hgemini, hgeminiApart⟩ := validateTurns_merged keepsContent_assistant hroles
  exact ⟨⟨_, runs, allStripped messages, hruns, hmerged⟩, hapart, hgemini, hgeminiApart⟩

/-- Two user messages with a block each become one with both. -/
theorem validateTurns_keepContent_two :
    (validateAnthropicTurns
      [.object [("role", .string "user"), ("content", .array [.object [("type", .string "text"), ("text", .string "a")]])],
        .object [("role", .string "user"), ("content", .array [.object [("type", .string "text"), ("text", .string "b")]])]]).IsChain
      (Apart "user") :=
  (validateTurns_keepContent (forall_mem_cons.mpr ⟨fun _ => by decide, forall_mem_cons.mpr
    ⟨fun _ => by decide, fun _ h => absurd h not_mem_nil⟩⟩)).2.1

/-- An assistant message of tool calls only, before a user message: a text that nobody wrote
stands in their place. Texts that are no block arrays do not survive, and an object without a
role lets two user messages through. -/
theorem turn_validation_changes_content :
    (validateAnthropicTurns
        [.object [("role", .string "assistant"),
            ("content", .array [.object [("type", .string "toolUse"), ("id", .string "tool-1")]])],
          .object [("role", .string "user"), ("content", .array [])]] =
        [.object [("role", .string "assistant"), ("content", .array [toolCallsOmitted])],
          .object [("role", .string "user"), ("content", .array [])]] ∧
      ¬ [toolCallsOmitted].Sublist [.object [("type", .string "toolUse"), ("id", .string "tool-1")]]) ∧
    (validateAnthropicTurns
        [.object [("role", .string "user"), ("content", .string "a")],
          .object [("role", .string "user"), ("content", .string "b")]]).map messageText = [""] ∧
    (validateAnthropicTurns
        [.object [("role", .string "assistant"), ("content", .string "a")],
          .object [("role", .string "user"), ("content", .string "b")]]).map messageText = ["", "b"] ∧
    ¬ (validateAnthropicTurns
        [.object [("role", .string "user")], .object [], .object [("role", .string "user")]]).IsChain (Apart "user") := by
  refine ⟨⟨rfl, fun h => ?_⟩, by decide, by decide, fun h => ?_⟩
  · have heq := singleton_sublist.mp h
    simp [toolCallsOmitted] at heq
  · exact (isChain_cons_cons.mp h).1 ⟨by decide, by decide⟩

end OpenClaw.Agents
