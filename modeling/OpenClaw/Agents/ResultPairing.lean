import OpenClaw.Agents.Turns
import OpenClaw.Foundation.InsertionMap
import OpenClaw.Foundation.Splits

/-! The pairing repair in front of a provider.

Each turn collects the results of its span, drops those of no call and those of calls that
were answered before, and writes what is left, with made-up results for the calls that
have none, directly after its assistant message. The repaired transcript is returned only
if something was noticed on the way; otherwise the given one is. -/
namespace OpenClaw.Agents
open List
open Option hiding or_assoc filter_map filter_filter map_id

open Foundation (InsertionMap exists_split_cons)

/-- `erroredAssistantResultPolicy`. -/
inductive ErroredAssistantResultPolicy where
  | preserve
  | drop
  deriving DecidableEq

structure ToolUseRepairReport where
  messages : List Message
  added : List ToolResultMessage
  droppedDuplicateCount : Nat
  droppedOrphanCount : Nat
  moved : Bool

/-- The locals of `repairToolUseResultPairing`. -/
structure RepairState where
  out : List Message := []
  added : List ToolResultMessage := []
  seenToolResultIds : List String := []
  droppedDuplicateCount : Nat := 0
  droppedOrphanCount : Nat := 0
  moved : Bool := false
  changed : Bool := false

/-- The locals of the loop over one span. -/
structure SpanState where
  repair : RepairState
  spanResultsById : InsertionMap String ToolResultMessage := ∅
  remainder : List Message := []

def toolCallNamesById (toolCalls : List ToolCallLike) : InsertionMap String (Option String) :=
  toolCalls.foldl (fun names call => names.set call.id call.name) ∅

namespace RepairState

def pushToolResult (s : RepairState) (m : ToolResultMessage) : RepairState :=
  match extractToolResultId m with
  | some id =>
    if id ∈ s.seenToolResultIds then
      {s with droppedDuplicateCount := s.droppedDuplicateCount + 1, changed := true}
    else {s with seenToolResultIds := s.seenToolResultIds ++ [id], out := s.out ++ [.toolResult m]}
  | none => {s with out := s.out ++ [.toolResult m]}

/-- A message that belongs to no turn with tool calls. -/
def pushFree (s : RepairState) : Message → RepairState
  | .toolResult _ => {s with droppedOrphanCount := s.droppedOrphanCount + 1, changed := true}
  | m => {s with out := s.out ++ [m]}

end RepairState

def spanStep (toolCalls : List ToolCallLike) (t : SpanState) (next : Message) : SpanState :=
  match next with
  | .toolResult toolResult =>
    match (extractToolResultId toolResult).filter (· ∈ toolCalls.map (·.id)) with
    | some id =>
      if id ∈ t.repair.seenToolResultIds then
        { t with
          repair := { t.repair with droppedDuplicateCount := t.repair.droppedDuplicateCount + 1, changed := true } }
      else
        let normalized := normalizeToolResultName toolResult ((toolCallNamesById toolCalls).get? id).join
        { t with
          repair := { t.repair with changed := t.repair.changed || normalized.toolName ≠ toolResult.toolName }
          spanResultsById :=
            if (t.spanResultsById.get? id).isSome then t.spanResultsById else t.spanResultsById.set id normalized }
    | none =>
      { t with repair := { t.repair with droppedOrphanCount := t.repair.droppedOrphanCount + 1, changed := true } }
  | next => { t with remainder := t.remainder ++ [next] }

section Repair
variable (policy : ErroredAssistantResultPolicy) (now : ℚ)

/-- The results that a failed turn keeps. -/
def pushSpanResults (spanResultsById : InsertionMap String ToolResultMessage) (s : RepairState)
    (toolCall : ToolCallLike) : RepairState :=
  match spanResultsById.get? toolCall.id with
  | some result => s.pushToolResult result
  | none => s

/-- The result of a call, made up if there is none. -/
def pushAnswer (spanResultsById : InsertionMap String ToolResultMessage) (s : RepairState) (call : ToolCallLike) :
    RepairState :=
  match spanResultsById.get? call.id with
  | some existing => s.pushToolResult existing
  | none =>
    let missing := makeMissingToolResult now call
    RepairState.pushToolResult {s with added := s.added ++ [missing], changed := true} missing

def repairTurn (s : RepairState) (turn : Turn) : RepairState :=
  let toolCalls := extractToolCallsFromAssistant turn.assistant
  if toolCalls = [] then turn.span.foldl RepairState.pushFree {s with out := s.out ++ [.assistant turn.assistant]}
  else
    let t := turn.span.foldl (spanStep toolCalls) {repair := s}
    let s := {t.repair with out := t.repair.out ++ [.assistant turn.assistant]}
    let s :=
      if turn.assistant.errored then
        match policy with
        | .preserve => toolCalls.foldl (pushSpanResults t.spanResultsById) s
        | .drop => if t.spanResultsById.size > 0 then {s with changed := true} else s
      else
        let s := if t.spanResultsById.size > 0 ∧ t.remainder.length > 0 then {s with moved := true, changed := true}
          else s
        toolCalls.foldl (pushAnswer now t.spanResultsById) s
    {s with out := s.out ++ t.remainder}

/-- The outer loop goes from one assistant message to the next. -/
def repairMessages (messages : List Message) : RepairState :=
  let (preamble, turns) := splitTurns messages
  turns.foldl (repairTurn policy now) (preamble.foldl RepairState.pushFree {})

def repairToolUseResultPairing (messages : List Message) : ToolUseRepairReport :=
  let s := repairMessages policy now messages
  let changedOrMoved := s.changed || s.moved
  { messages := if changedOrMoved then s.out else messages
    added := s.added
    droppedDuplicateCount := s.droppedDuplicateCount
    droppedOrphanCount := s.droppedOrphanCount
    moved := changedOrMoved }

end Repair

/-! ### What is repaired, and when -/

def resultsOf (messages : List Message) : List ToolResultMessage :=
  messages.filterMap fun
    | .toolResult r => some r
    | _ => none

/-- All messages but the tool results. -/
def otherMessages (messages : List Message) : List Message := messages.filter (!·.isToolResult)

/-- The span of the turn has a result with this id. -/
def Turn.HasResult (t : Turn) (id : String) : Prop := ∃ r ∈ resultsOf t.span, extractToolResultId r = some id

/-- The repaired transcript is well paired, has every other message, and stays as it is when repaired again. -/
structure RepairsPairing (policy : ErroredAssistantResultPolicy) (now : ℚ) (messages : List Message) : Prop where
  paired : WellPaired (repairToolUseResultPairing policy now messages).messages
  kept : otherMessages (repairToolUseResultPairing policy now messages).messages = otherMessages messages
  stable : ∀ later, (repairToolUseResultPairing policy later
    (repairToolUseResultPairing policy now messages).messages).messages =
      (repairToolUseResultPairing policy now messages).messages

/-- An earlier turn has a result for this id once it is repaired. -/
def AnsweredBefore (policy : ErroredAssistantResultPolicy) (earlier : List Turn) (id : String) : Prop :=
  ∃ t ∈ earlier, id ∈ t.assistant.toolCallIds ∧
    (t.assistant.errored = false ∨ policy = .preserve ∧ t.HasResult id)

/-- What makes the repair return the repaired transcript. -/
inductive Noticed (policy : ErroredAssistantResultPolicy) (answered : String → Prop) (t : Turn) : Prop where
  | orphan (r : ToolResultMessage) (hr : r ∈ resultsOf t.span)
      (hid : ∀ id ∈ t.assistant.toolCallIds, extractToolResultId r ≠ some id)
  | duplicate (id : String) (hid : id ∈ t.assistant.toolCallIds) (hr : t.HasResult id) (hbefore : answered id)
  | renamed (r : ToolResultMessage) (hr : r ∈ resultsOf t.span) (id : String) (hid : id ∈ t.assistant.toolCallIds)
      (hrid : extractToolResultId r = some id)
      (hname : (normalizeToolResultName r
        ((toolCallNamesById (extractToolCallsFromAssistant t.assistant)).get? id).join).toolName ≠ r.toolName)
  | errored (herrored : t.assistant.errored = true) (hpolicy : policy = .drop) (id : String)
      (hid : id ∈ t.assistant.toolCallIds) (hr : t.HasResult id)
  | repeated (id : String) (hid : 2 ≤ t.assistant.toolCallIds.count id)
      (hr : t.assistant.errored = false ∨ t.HasResult id)
  | moved (herrored : t.assistant.errored = false) (id : String) (hid : id ∈ t.assistant.toolCallIds)
      (hr : t.HasResult id) (hother : otherMessages t.span ≠ [])
  | missing (herrored : t.assistant.errored = false) (id : String) (hid : id ∈ t.assistant.toolCallIds)
      (hr : ¬ t.HasResult id)

/-- Something in the transcript makes the repair return the repaired one. -/
def Registers (policy : ErroredAssistantResultPolicy) (messages : List Message) : Prop :=
  (∃ m ∈ (splitTurns messages).1, m.isToolResult = true) ∨
    ∃ earlier t later, (splitTurns messages).2 = earlier ++ t :: later ∧ Noticed policy (AnsweredBefore policy earlier) t

/-- The results in the span come first and once for each id. -/
def Turn.Tidy (t : Turn) : Prop :=
  (∀ m ∈ t.span.drop (resultRun t.span).length, m.isToolResult = false) ∧
    ((resultRun t.span).map extractToolResultId).Nodup

structure Repairable (policy : ErroredAssistantResultPolicy) (messages : List Message) : Prop where
  /-- No call of a turn that did not fail was answered before. -/
  fresh : ∀ earlier t later, (splitTurns messages).2 = earlier ++ t :: later → t.assistant.errored = false →
    ∀ id ∈ t.assistant.toolCallIds, ¬ AnsweredBefore policy earlier id
  /-- The first call with an id that has no result has a trimmed name, or none. -/
  named : ∀ t ∈ (splitTurns messages).2, t.assistant.errored = false → ∀ calls call more,
    extractToolCallsFromAssistant t.assistant = calls ++ call :: more → call.id ∉ calls.map (·.id) →
      ¬ t.HasResult call.id → ∀ name, call.name = some name → Foundation.EcmaString.trimmed? (some name) = some name
  tidy : Registers policy messages ∨ ∀ t ∈ (splitTurns messages).2, t.Tidy

/-! ### One pass -/

/-- What a part of the pass adds, and whether it noticed something. -/
structure RepairState.Adds (s s' : RepairState) (messages : List Message) (ids : List String) (noticed : Prop) :
    Prop where
  out : s'.out = s.out ++ messages
  seen : s'.seenToolResultIds = s.seenToolResultIds ++ ids
  shown : (s'.changed || s'.moved) = true ↔ (s.changed || s.moved) = true ∨ noticed

variable {id : String} {r : ToolResultMessage} {c : ToolCallLike} {turns : List Turn}

namespace RepairState
variable {s s' s'' : RepairState} {messages more : List Message} {ids moreIds : List String} {p q : Prop}

theorem Adds.refl (s : RepairState) : s.Adds s [] [] False :=
  ⟨(append_nil _).symm, (append_nil _).symm, by rw [or_false]⟩

theorem Adds.trans (h : s.Adds s' messages ids p) (h' : s'.Adds s'' more moreIds q) :
    s.Adds s'' (messages ++ more) (ids ++ moreIds) (p ∨ q) where
  out := by rw [h'.out, h.out, append_assoc]
  seen := by rw [h'.seen, h.seen, append_assoc]
  shown := by rw [h'.shown, h.shown, or_assoc]

theorem Adds.congr (h : s.Adds s' messages ids p) (hmessages : messages = more) (hids : ids = moreIds) (hpq : p ↔ q) :
    s.Adds s' more moreIds q where
  out := hmessages ▸ h.out
  seen := hids ▸ h.seen
  shown := by rw [h.shown, hpq]

/-- A mark set on a condition. -/
theorem Adds.mark [Decidable p] (h : s.Adds s' [] [] True) : s.Adds (if p then s' else s) [] [] p := by
  by_cases hp : p
  · rw [if_pos hp]
    exact h.congr rfl rfl (by simp [hp])
  · rw [if_neg hp]
    exact (Adds.refl s).congr rfl rfl (by simp [hp])

theorem adds_free (span : List Message) (s : RepairState) :
    s.Adds (span.foldl pushFree s) (otherMessages span) [] (resultsOf span ≠ []) := by
  induction span generalizing s with
  | nil => exact (Adds.refl s).congr rfl rfl (by simp [resultsOf])
  | cons m span ih =>
    have hone : s.Adds (s.pushFree m) (otherMessages [m]) [] (resultsOf [m] ≠ []) := by
      cases m with
      | toolResult r => exact ⟨(append_nil _).symm, (append_nil _).symm, by simp [pushFree, resultsOf]⟩
      | _ => exact ⟨rfl, (append_nil _).symm, by simp [pushFree, resultsOf]⟩
    refine (hone.trans (ih _)).congr ?_ rfl ?_
    · exact (filter_append [m] span).symm
    · rw [show resultsOf (m :: span) = resultsOf [m] ++ resultsOf span from
      @filterMap_append _ _ [m] span _]
      simp only [ne_eq, append_eq_nil_iff]
      tauto

/-- Pushing a result writes it, unless its id was seen. -/
theorem adds_push {m : ToolResultMessage} (hid : extractToolResultId m = some id) (s : RepairState) :
    s.Adds (s.pushToolResult m) (if id ∈ s.seenToolResultIds then [] else [.toolResult m])
      (if id ∈ s.seenToolResultIds then [] else [id]) (id ∈ s.seenToolResultIds) := by
  unfold pushToolResult
  rw [hid]
  dsimp only
  by_cases hseen : id ∈ s.seenToolResultIds
  · rw [if_pos hseen, if_pos hseen, if_pos hseen]
    exact ⟨(append_nil _).symm, (append_nil _).symm, by simp [hseen]⟩
  · rw [if_neg hseen, if_neg hseen, if_neg hseen]
    exact ⟨rfl, rfl, by simp [hseen]⟩

end RepairState

/-- The answers to the calls, once for each id and none for a seen one. -/
def freshAnswers (answer : ToolCallLike → Option ToolResultMessage) :
    List String → List ToolCallLike → List ToolResultMessage
  | _, [] => []
  | seen, call :: calls =>
    match answer call with
    | none => freshAnswers answer seen calls
    | some r =>
      if call.id ∈ seen then freshAnswers answer seen calls else r :: freshAnswers answer (seen ++ [call.id]) calls

/-- An answered call with a seen id, or two with the same. -/
def DropsAnswer (answer : ToolCallLike → Option ToolResultMessage) (seen : List String) (calls : List ToolCallLike) :
    Prop :=
  (∃ call ∈ calls, (answer call).isSome = true ∧ call.id ∈ seen) ∨
    ¬ ((calls.filter fun call => (answer call).isSome).map (·.id)).Nodup

def idsOf (results : List ToolResultMessage) : List String := results.filterMap extractToolResultId

section Answers
variable {answer : ToolCallLike → Option ToolResultMessage}

theorem freshAnswers_skip {seen : List String} (calls : List ToolCallLike) (h : answer c = none ∨ c.id ∈ seen) :
    freshAnswers answer seen (c :: calls) = freshAnswers answer seen calls := by
  rw [freshAnswers]
  cases hc : answer c with
  | none => rfl
  | some r => exact if_pos (h.resolve_left (by simp [hc]))

theorem freshAnswers_take {seen : List String} (calls : List ToolCallLike) (hc : answer c = some r) (hseen : c.id ∉ seen) :
    freshAnswers answer seen (c :: calls) = r :: freshAnswers answer (seen ++ [c.id]) calls := by
  rw [freshAnswers, hc]
  exact if_neg hseen

theorem skip_or_take (answer : ToolCallLike → Option ToolResultMessage) (seen : List String) (c : ToolCallLike) :
    (answer c = none ∨ c.id ∈ seen) ∨ ∃ r, answer c = some r ∧ c.id ∉ seen := by
  by_cases hseen : c.id ∈ seen
  · exact .inl (.inr hseen)
  · cases hc : answer c with
    | none => exact .inl (.inl rfl)
    | some r => exact .inr ⟨r, rfl, hseen⟩

theorem mem_freshAnswers {seen : List String} {calls : List ToolCallLike} (h : r ∈ freshAnswers answer seen calls) :
    ∃ before call after, calls = before ++ call :: after ∧ answer call = some r ∧ call.id ∉ seen ∧
      ∀ c ∈ before, c.id = call.id → answer c = none := by
  induction calls generalizing seen with
  | nil => cases h
  | cons c calls ih =>
    rcases skip_or_take answer seen c with hskip | ⟨a, hc, hseen⟩
    · rw [freshAnswers_skip calls hskip] at h
      obtain ⟨before, call, after, rfl, hcall, hcseen, hfirst⟩ := ih h
      refine ⟨c :: before, call, after, rfl, hcall, hcseen, fun d hd hid => ?_⟩
      rcases mem_cons.mp hd with rfl | hd
      · exact hskip.resolve_right (hid ▸ hcseen)
      · exact hfirst d hd hid
    · rw [freshAnswers_take calls hc hseen] at h
      rcases mem_cons.mp h with rfl | h
      · exact ⟨[], c, calls, rfl, hc, hseen, nofun⟩
      · obtain ⟨before, call, after, rfl, hcall, hcseen, hfirst⟩ := ih h
        rw [mem_append, mem_singleton, not_or] at hcseen
        refine ⟨c :: before, call, after, rfl, hcall, hcseen.1, fun d hd hid => ?_⟩
        rcases mem_cons.mp hd with rfl | hd
        · exact absurd hid.symm hcseen.2
        · exact hfirst d hd hid

/-- The answers to these calls have their ids. -/
def AnswersWithId (answer : ToolCallLike → Option ToolResultMessage) (calls : List ToolCallLike) : Prop :=
  ∀ call ∈ calls, ∀ r, answer call = some r → extractToolResultId r = some call.id

theorem AnswersWithId.tail {calls : List ToolCallLike} (h : AnswersWithId answer (c :: calls)) :
    AnswersWithId answer calls := fun call hcall => h call (mem_cons_of_mem _ hcall)

theorem AnswersWithId.head {calls : List ToolCallLike} (h : AnswersWithId answer (c :: calls))
    (hr : answer c = some r) : extractToolResultId r = some c.id :=
  h c (mem_cons_self ..) r hr

section
variable {calls : List ToolCallLike} (seen : List String) (hanswer : AnswersWithId answer calls)
include seen hanswer

theorem mem_idsOf_freshAnswers (id : String) :
    id ∈ idsOf (freshAnswers answer seen calls) ↔
      id ∉ seen ∧ ∃ call ∈ calls, call.id = id ∧ (answer call).isSome = true := by
  induction calls generalizing seen with
  | nil => simp [freshAnswers, idsOf]
  | cons c calls ih =>
    have ih := fun seen => ih seen hanswer.tail
    rcases skip_or_take answer seen c with hskip | ⟨r, hc, hseen⟩
    · rw [freshAnswers_skip calls hskip, ih, exists_mem_cons_iff]
      refine and_congr_right fun hid => (or_iff_right ?_).symm
      rintro ⟨rfl, h⟩
      rw [hskip.resolve_right hid] at h
      cases h
    · rw [freshAnswers_take calls hc hseen, idsOf, filterMap_cons, hanswer.head hc]
      rw [mem_cons, ← idsOf, ih, mem_append, mem_singleton, exists_mem_cons_iff, hc]
      by_cases hid : id = c.id
      · subst hid
        simp [hseen]
      · simp [hid, Ne.symm hid]

theorem nodup_freshAnswers :
    ((freshAnswers answer seen calls).map extractToolResultId).Nodup := by
  induction calls generalizing seen with
  | nil => exact nodup_nil
  | cons c calls ih =>
    have ih := fun seen => ih seen hanswer.tail
    rcases skip_or_take answer seen c with hskip | ⟨r, hc, hseen⟩
    · rw [freshAnswers_skip calls hskip]
      exact ih seen
    · rw [freshAnswers_take calls hc hseen, map_cons, nodup_cons, hanswer.head hc]
      refine ⟨fun hmem => ?_, ih _⟩
      obtain ⟨r', hr', hid⟩ := List.mem_map.mp hmem
      have hids := (mem_idsOf_freshAnswers (seen ++ [c.id]) hanswer.tail c.id).mp
        (mem_filterMap.mpr ⟨r', hr', hid⟩)
      exact hids.1 (mem_append_right _ (mem_singleton_self _))

/-- Answers that agree with the given ones, up to a renaming, are the renamed ones. -/
theorem freshAnswers_again {again : ToolCallLike → Option ToolResultMessage} {f : ToolResultMessage → ToolResultMessage}
    (hid : ∀ c ∈ calls, ∀ d ∈ calls, c.id = d.id → (answer c).isSome = (answer d).isSome)
    (hagain : ∀ c ∈ calls, c.id ∉ seen → again c =
      ((freshAnswers answer seen calls).find? fun r => extractToolResultId r = some c.id).map f) :
    freshAnswers again seen calls = (freshAnswers answer seen calls).map f := by
  induction calls generalizing seen with
  | nil => rfl
  | cons c calls ih =>
    have ih := fun seen => ih seen hanswer.tail
    have hrest := fun d hd e he => hid d (mem_cons_of_mem _ hd) e (mem_cons_of_mem _ he)
    have htail := fun d hd => hagain d (mem_cons_of_mem _ hd)
    have hc := hagain c (mem_cons_self ..)
    rcases skip_or_take answer seen c with hskip | ⟨r, ha, hseen⟩
    · rw [freshAnswers_skip calls hskip] at hc htail ⊢
      rw [freshAnswers_skip calls ?_]
      · exact ih seen hrest htail
      -- a call that is not seen has no answer, nor has any other of its id
      by_cases hseen : c.id ∈ seen
      · exact .inr hseen
      have hnone : (freshAnswers answer seen calls).find? (fun r => extractToolResultId r = some c.id) = none := by
        rw [find?_eq_none]
        intro r hr
        obtain ⟨before, call, after, hcalls, hcall, -, -⟩ := mem_freshAnswers hr
        have hsame := hid c (mem_cons_self ..) call (mem_cons_of_mem _ (by rw [hcalls]; simp))
        rw [hskip.resolve_right hseen, hcall] at hsame
        rw [hanswer.tail call (by rw [hcalls]; simp) r hcall, decide_eq_true_iff, Option.some.injEq]
        exact fun he => Bool.false_ne_true (hsame he.symm)
      rw [hc hseen, hnone]
      exact .inl rfl
    · rw [freshAnswers_take calls ha hseen] at hc htail ⊢
      have hfound : again c = some (f r) := by
        rw [hc hseen, find?_cons_of_pos (by rw [hanswer.head ha]; exact decide_eq_true rfl)]
        rfl
      rw [freshAnswers_take calls hfound hseen, map_cons]
      refine congrArg (f r :: ·) (ih _ hrest fun d hd hdseen => ?_)
      rw [mem_append, mem_singleton, not_or] at hdseen
      rw [htail d hd hdseen.1, find?_cons_of_neg]
      rw [hanswer.head ha, decide_eq_true_iff, Option.some.injEq]
      exact fun he => hdseen.2 he.symm

end

theorem freshAnswers_cons (seen : List String) {calls : List ToolCallLike}
    (hanswer : AnswersWithId answer (c :: calls)) :
    freshAnswers answer seen (c :: calls) = freshAnswers answer seen [c] ++
      freshAnswers answer (seen ++ idsOf (freshAnswers answer seen [c])) calls := by
  rcases skip_or_take answer seen c with hskip | ⟨r, hc, hseen⟩
  · rw [freshAnswers_skip calls hskip, freshAnswers_skip [] hskip]
    simp [freshAnswers, idsOf]
  · rw [freshAnswers_take calls hc hseen, freshAnswers_take [] hc hseen]
    simp [freshAnswers, idsOf, hanswer.head hc]

theorem dropsAnswer_cons (seen : List String) {calls : List ToolCallLike}
    (hanswer : AnswersWithId answer (c :: calls)) :
    DropsAnswer answer seen (c :: calls) ↔ ((answer c).isSome = true ∧ c.id ∈ seen) ∨
      DropsAnswer answer (seen ++ idsOf (freshAnswers answer seen [c])) calls := by
  unfold DropsAnswer
  simp only [freshAnswers, exists_mem_cons_iff]
  cases hc : answer c with
  | none => simp [idsOf, hc]
  | some r =>
    dsimp only
    by_cases hseen : c.id ∈ seen
    · simp [hseen]
    · have hmem : c.id ∈ (calls.filter fun call => (answer call).isSome).map (·.id) ↔
          ∃ call ∈ calls, (answer call).isSome = true ∧ call.id = c.id := by
        simp only [List.mem_map, mem_filter, and_assoc]
      rw [filter_cons_of_pos (by rw [hc]; rfl), map_cons, nodup_cons, hmem, if_neg hseen]
      simp only [idsOf, filterMap_cons, hanswer.head hc, filterMap_nil, mem_append, mem_singleton,
        and_or_left, exists_or, hseen, and_false, false_or]
      rw [not_and_or, not_not, or_assoc]

theorem adds_answers {step : RepairState → ToolCallLike → RepairState} {marked : ToolCallLike → Prop}
    {calls : List ToolCallLike} (hanswer : AnswersWithId answer calls)
    (hstep : ∀ c ∈ calls, ∀ s : RepairState,
      s.Adds (step s c) ((freshAnswers answer s.seenToolResultIds [c]).map .toolResult)
        (idsOf (freshAnswers answer s.seenToolResultIds [c]))
        (marked c ∨ ((answer c).isSome = true ∧ c.id ∈ s.seenToolResultIds))) (s : RepairState) :
    s.Adds (calls.foldl step s) ((freshAnswers answer s.seenToolResultIds calls).map .toolResult)
      (idsOf (freshAnswers answer s.seenToolResultIds calls))
      ((∃ c ∈ calls, marked c) ∨ DropsAnswer answer s.seenToolResultIds calls) := by
  induction calls generalizing s with
  | nil => exact (RepairState.Adds.refl s).congr rfl rfl (by simp [DropsAnswer])
  | cons c calls ih =>
    have hone := hstep c (mem_cons_self ..) s
    have hrest := ih hanswer.tail (fun d hd => hstep d (mem_cons_of_mem _ hd)) (step s c)
    rw [hone.seen] at hrest
    refine (hone.trans hrest).congr ?_ ?_ ?_
    · rw [freshAnswers_cons s.seenToolResultIds hanswer, map_append]
    · rw [freshAnswers_cons s.seenToolResultIds hanswer, idsOf, idsOf, idsOf, filterMap_append]
    · rw [dropsAnswer_cons s.seenToolResultIds hanswer, exists_mem_cons_iff]
      exact or_or_or_comm

end Answers

/-! ### One span -/

section Span
variable (toolCalls : List ToolCallLike)

/-- The result under the name of its call. -/
def renameFor (r : ToolResultMessage) : ToolResultMessage :=
  normalizeToolResultName r ((extractToolResultId r).bind fun id => ((toolCallNamesById toolCalls).get? id).join)

/-- The result of an id that a span collects. -/
def collected (seen : List String) (span : List Message) (id : String) : Option ToolResultMessage :=
  if id ∈ toolCalls.map (·.id) ∧ id ∉ seen then
    ((resultsOf span).find? fun r => extractToolResultId r = some id).map (renameFor toolCalls)
  else none

def NoticedInSpan (seen : List String) (r : ToolResultMessage) : Prop :=
  (∀ id ∈ toolCalls.map (·.id), extractToolResultId r ≠ some id) ∨
    ∃ id ∈ toolCalls.map (·.id), extractToolResultId r = some id ∧
      (id ∈ seen ∨ (renameFor toolCalls r).toolName ≠ r.toolName)

theorem extractToolResultId_renameFor (r : ToolResultMessage) :
    extractToolResultId (renameFor toolCalls r) = extractToolResultId r := extractToolResultId_normalize r _

theorem collected_cons (seen : List String) (m : Message) (span : List Message) (id : String) :
    collected toolCalls seen (m :: span) id =
      (collected toolCalls seen [m] id).or (collected toolCalls seen span id) := by
  unfold collected
  by_cases h : id ∈ toolCalls.map (·.id) ∧ id ∉ seen
  · rw [if_pos h, if_pos h, if_pos h, show resultsOf (m :: span) = resultsOf [m] ++ resultsOf span from
      @filterMap_append _ _ [m] span _, find?_append, map_or]
  · rw [if_neg h, if_neg h, if_neg h]
    rfl

theorem collected_id {seen : List String} {span : List Message} (h : collected toolCalls seen span id = some r) :
    extractToolResultId r = some id := by
  unfold collected at h
  by_cases hid : id ∈ toolCalls.map (·.id) ∧ id ∉ seen
  · rw [if_pos hid] at h
    obtain ⟨r', hr', rfl⟩ := map_eq_some_iff.mp h
    rw [extractToolResultId_renameFor]
    exact of_decide_eq_true (find?_some hr' :)
  · rw [if_neg hid] at h
    cases h

theorem spanStep_spec (t : SpanState) (m : Message) :
    t.repair.Adds (spanStep toolCalls t m).repair [] []
        (∃ r ∈ resultsOf [m], NoticedInSpan toolCalls t.repair.seenToolResultIds r) ∧
      (spanStep toolCalls t m).remainder = t.remainder ++ otherMessages [m] ∧
      ∀ id, (spanStep toolCalls t m).spanResultsById.get? id =
        (t.spanResultsById.get? id).or (collected toolCalls t.repair.seenToolResultIds [m] id) := by
  cases m with
  | toolResult r =>
    have hresults : resultsOf [.toolResult r] = [r] := rfl
    have hother : t.remainder = t.remainder ++ otherMessages [.toolResult r] := (append_nil _).symm
    simp only [hresults, mem_singleton, exists_eq_left, collected, find?_cons, find?_nil]
    unfold spanStep
    dsimp only
    cases hid : (extractToolResultId r).filter (· ∈ toolCalls.map (·.id)) with
    | none =>
      have horphan : ∀ id ∈ toolCalls.map (·.id), extractToolResultId r ≠ some id := fun id hmem he => by
        rw [filter_eq_none_iff] at hid
        exact hid id he (decide_eq_true hmem)
      refine ⟨⟨(append_nil _).symm, (append_nil _).symm, ?_⟩, hother, fun id => ?_⟩
      · simpa using .inr (.inl horphan)
      · by_cases h : id ∈ toolCalls.map (·.id) ∧ id ∉ t.repair.seenToolResultIds
        · rw [if_pos h, decide_eq_false (horphan id h.1)]
          exact or_none.symm
        · rw [if_neg h, or_none]
    | some rid =>
      obtain ⟨hrid, hmem⟩ := filter_eq_some_iff.mp hid
      have hmem := of_decide_eq_true hmem
      dsimp only
      by_cases hseen : rid ∈ t.repair.seenToolResultIds
      · rw [if_pos hseen]
        refine ⟨⟨(append_nil _).symm, (append_nil _).symm, ?_⟩, hother, fun id => ?_⟩
        · simpa using .inr (.inr ⟨rid, by simpa using hmem, hrid, .inl hseen⟩)
        · by_cases h : id ∈ toolCalls.map (·.id) ∧ id ∉ t.repair.seenToolResultIds
          · have hne : extractToolResultId r ≠ some id := by
              rw [hrid, ne_eq, Option.some.injEq]
              exact fun he => h.2 (he ▸ hseen)
            rw [if_pos h, decide_eq_false hne]
            exact or_none.symm
          · rw [if_neg h, or_none]
      · rw [if_neg hseen]
        have hname : renameFor toolCalls r = normalizeToolResultName r ((toolCallNamesById toolCalls).get? rid).join := by
          rw [renameFor, hrid]
          rfl
        refine ⟨⟨(append_nil _).symm, (append_nil _).symm, ?_⟩, hother, fun id => ?_⟩
        · rw [← hname]
          have hnoticed : NoticedInSpan toolCalls t.repair.seenToolResultIds r ↔
              (renameFor toolCalls r).toolName ≠ r.toolName := by
            constructor
            · rintro (horphan | ⟨id, -, hid', hor⟩)
              · exact absurd hrid (horphan rid hmem)
              · rw [hrid, Option.some.injEq] at hid'
                subst hid'
                exact hor.resolve_left hseen
            · exact fun h => .inr ⟨rid, hmem, hrid, .inr h⟩
          rw [hnoticed]
          simp only [Bool.or_eq_true, decide_eq_true_eq]
          tauto
        · dsimp only
          rw [← hname]
          by_cases hold : (t.spanResultsById.get? rid).isSome = true
          · rw [if_pos hold]
            by_cases hi : id = rid
            · subst hi
              obtain ⟨r', hr'⟩ := isSome_iff_exists.mp hold
              rw [hr']
              rfl
            · rw [decide_eq_false (by rw [hrid, Option.some.injEq]; exact fun he => hi he.symm)]
              exact ((congrArg _ (ite_self _)).trans or_none).symm
          · rw [if_neg hold, InsertionMap.get?_set]
            rw [Bool.not_eq_true, isSome_eq_false_iff, isNone_iff_eq_none] at hold
            by_cases hi : id = rid
            · subst hi
              rw [if_pos rfl, hold, if_pos ⟨hmem, hseen⟩, decide_eq_true hrid]
              rfl
            · rw [if_neg hi, decide_eq_false (by rw [hrid, Option.some.injEq]; exact fun he => hi he.symm)]
              exact ((congrArg _ (ite_self _)).trans or_none).symm
  | assistant a =>
    refine ⟨(RepairState.Adds.refl _).congr rfl rfl (by simp [resultsOf]), rfl, fun id => ?_⟩
    rw [show collected toolCalls t.repair.seenToolResultIds [.assistant a] id = none from ite_self _, or_none]
    rfl
  | other v =>
    refine ⟨(RepairState.Adds.refl _).congr rfl rfl (by simp [resultsOf]), rfl, fun id => ?_⟩
    rw [show collected toolCalls t.repair.seenToolResultIds [.other v] id = none from ite_self _, or_none]
    rfl

/-- The loop over a span. -/
theorem span_spec (span : List Message) (t : SpanState) :
    t.repair.Adds (span.foldl (spanStep toolCalls) t).repair [] []
        (∃ r ∈ resultsOf span, NoticedInSpan toolCalls t.repair.seenToolResultIds r) ∧
      (span.foldl (spanStep toolCalls) t).remainder = t.remainder ++ otherMessages span ∧
      ∀ id, (span.foldl (spanStep toolCalls) t).spanResultsById.get? id =
        (t.spanResultsById.get? id).or (collected toolCalls t.repair.seenToolResultIds span id) := by
  induction span generalizing t with
  | nil =>
    refine ⟨(RepairState.Adds.refl _).congr rfl rfl (by simp [resultsOf]), (append_nil _).symm, fun id => ?_⟩
    rw [show collected toolCalls t.repair.seenToolResultIds [] id = none from ite_self _, or_none]
    rfl
  | cons m span ih =>
    obtain ⟨hadds, hother, hcollected⟩ := spanStep_spec toolCalls t m
    obtain ⟨hadds', hother', hcollected'⟩ := ih (spanStep toolCalls t m)
    rw [hadds.seen, append_nil] at hadds' hcollected'
    refine ⟨(hadds.trans hadds').congr rfl rfl ?_, ?_, fun id => ?_⟩
    · rw [show resultsOf (m :: span) = resultsOf [m] ++ resultsOf span from @filterMap_append _ _ [m] span _]
      simp only [mem_append, or_and_right, exists_or]
    · rw [foldl_cons, hother', hother, append_assoc]
      exact congrArg _ (filter_append [m] span).symm
    · rw [foldl_cons, hcollected', hcollected, Option.or_assoc, ← collected_cons]

end Span

/-! ### One turn -/

section Turn
variable (policy : ErroredAssistantResultPolicy) (now : ℚ)

/-- What the repair writes for a call, where the ids in `seen` have results. -/
def turnAnswer (seen : List String) (t : Turn) (call : ToolCallLike) : Option ToolResultMessage :=
  let existing := collected (extractToolCallsFromAssistant t.assistant) seen t.span call.id
  if t.assistant.errored = true then if policy = .preserve then existing else none
  else some (existing.getD (makeMissingToolResult now call))

/-- The results after the assistant message of the repaired turn. -/
def turnResults (seen : List String) (t : Turn) : List ToolResultMessage :=
  freshAnswers (turnAnswer policy now seen t) seen (extractToolCallsFromAssistant t.assistant)

theorem turnAnswer_cases {seen : List String} {t : Turn} (h : turnAnswer policy now seen t c = some r) :
    collected (extractToolCallsFromAssistant t.assistant) seen t.span c.id = some r ∨
      t.assistant.errored = false ∧ collected (extractToolCallsFromAssistant t.assistant) seen t.span c.id = none ∧
        makeMissingToolResult now c = r := by
  rw [turnAnswer] at h
  by_cases herrored : t.assistant.errored = true
  · rw [if_pos herrored] at h
    by_cases hpolicy : policy = .preserve
    · rw [if_pos hpolicy] at h
      exact .inl h
    · rw [if_neg hpolicy] at h
      cases h
  · rw [if_neg herrored, Option.some.injEq] at h
    cases hc : collected (extractToolCallsFromAssistant t.assistant) seen t.span c.id with
    | none =>
      rw [hc] at h
      exact .inr ⟨Bool.not_eq_true _ ▸ herrored, rfl, h⟩
    | some r' =>
      rw [hc] at h
      exact .inl (congrArg some h)

theorem turnAnswer_id (seen : List String) (t : Turn) :
    AnswersWithId (turnAnswer policy now seen t) (extractToolCallsFromAssistant t.assistant) := by
  intro call hcall r hr
  rcases turnAnswer_cases policy now hr with hc | ⟨-, -, rfl⟩
  · exact collected_id _ hc
  · exact extractToolResultId_missing now call (toolCallIds_ne_empty hcall)

/-- A call has an answer, or none, with every other call of its id. -/
theorem turnAnswer_isSome (seen : List String) (t : Turn) {d : ToolCallLike} (h : c.id = d.id) :
    (turnAnswer policy now seen t c).isSome = (turnAnswer policy now seen t d).isSome := by
  unfold turnAnswer
  rw [h]
  by_cases herrored : t.assistant.errored = true
  · rw [if_pos herrored, if_pos herrored]
  · rw [if_neg herrored, if_neg herrored]
    rfl

theorem collected_isSome {seen : List String} {t : Turn} :
    (collected (extractToolCallsFromAssistant t.assistant) seen t.span id).isSome = true ↔
      id ∈ t.assistant.toolCallIds ∧ id ∉ seen ∧ t.HasResult id := by
  unfold collected
  by_cases h : id ∈ (extractToolCallsFromAssistant t.assistant).map (·.id) ∧ id ∉ seen
  · rw [if_pos h, isSome_map, find?_isSome]
    simp only [decide_eq_true_eq]
    exact ⟨fun hr => ⟨h.1, h.2, hr⟩, fun hr => hr.2.2⟩
  · rw [if_neg h]
    exact ⟨nofun, fun hr => absurd ⟨hr.1, hr.2.1⟩ h⟩

theorem not_nodup_iff {l : List String} : ¬ l.Nodup ↔ ∃ id, 2 ≤ l.count id := by
  rw [nodup_iff_count_le_one]
  simp only [not_forall, Nat.not_le]
  rfl

variable {policy : ErroredAssistantResultPolicy} {seen : List String} {t : Turn}

theorem Noticed.of_span (hr : r ∈ resultsOf t.span)
    (h : NoticedInSpan (extractToolCallsFromAssistant t.assistant) seen r) : Noticed policy (· ∈ seen) t := by
  rcases h with horphan | ⟨id, hid, hrid, hseen | hname⟩
  · exact .orphan r hr horphan
  · exact .duplicate id hid ⟨r, hr, hrid⟩ hseen
  · rw [renameFor, hrid] at hname
    exact .renamed r hr id hid hrid hname

/-- What is noticed in a span, and what only once the span is read. -/
theorem noticed_iff :
    Noticed policy (· ∈ seen) t ↔
      (∃ r ∈ resultsOf t.span, NoticedInSpan (extractToolCallsFromAssistant t.assistant) seen r) ∨
        (t.assistant.errored = true ∧ policy = .drop ∧ ∃ id ∈ t.assistant.toolCallIds, id ∉ seen ∧ t.HasResult id) ∨
        (∃ id, 2 ≤ t.assistant.toolCallIds.count id ∧
          (t.assistant.errored = false ∨ id ∉ seen ∧ t.HasResult id)) ∨
        t.assistant.errored = false ∧
          ((∃ id ∈ t.assistant.toolCallIds, id ∉ seen ∧ t.HasResult id) ∧ otherMessages t.span ≠ [] ∨
            ∃ id ∈ t.assistant.toolCallIds, id ∈ seen ∨ ¬ t.HasResult id) := by
  have hspan {id : String} (hid : id ∈ t.assistant.toolCallIds) (hseen : id ∈ seen) (hr : t.HasResult id) :
      ∃ r ∈ resultsOf t.span, NoticedInSpan (extractToolCallsFromAssistant t.assistant) seen r := by
    obtain ⟨r, hr, hrid⟩ := hr
    exact ⟨r, hr, .inr ⟨id, hid, hrid, .inl hseen⟩⟩
  constructor
  · intro h
    cases h with
    | orphan r hr hid => exact .inl ⟨r, hr, .inl hid⟩
    | duplicate id hid hr hseen => exact .inl (hspan hid hseen hr)
    | renamed r hr id hid hrid hname =>
      refine .inl ⟨r, hr, .inr ⟨id, hid, hrid, .inr ?_⟩⟩
      rw [renameFor, hrid]
      exact hname
    | errored herrored hpolicy id hid hr =>
      by_cases hseen : id ∈ seen
      · exact .inl (hspan hid hseen hr)
      · exact .inr (.inl ⟨herrored, hpolicy, id, hid, hseen, hr⟩)
    | repeated id hid hr =>
      by_cases hseen : id ∈ seen
      · rcases hr with herrored | hr
        · exact .inr (.inr (.inl ⟨id, hid, .inl herrored⟩))
        · exact .inl (hspan (count_pos_iff.mp (by omega)) hseen hr)
      · exact .inr (.inr (.inl ⟨id, hid, hr.imp_right fun hr => ⟨hseen, hr⟩⟩))
    | moved herrored id hid hr hother =>
      by_cases hseen : id ∈ seen
      · exact .inl (hspan hid hseen hr)
      · exact .inr (.inr (.inr ⟨herrored, .inl ⟨⟨id, hid, hseen, hr⟩, hother⟩⟩))
    | missing herrored id hid hr => exact .inr (.inr (.inr ⟨herrored, .inr ⟨id, hid, .inr hr⟩⟩))
  · rintro (⟨r, hr, h⟩ | ⟨herrored, hpolicy, id, hid, -, hr⟩ | ⟨id, hid, h⟩ |
      ⟨herrored, ⟨⟨id, hid, -, hr⟩, hother⟩ | ⟨id, hid, h⟩⟩)
    · exact .of_span hr h
    · exact .errored herrored hpolicy id hid hr
    · exact .repeated id hid (h.imp_right And.right)
    · exact .moved herrored id hid hr hother
    · by_cases hr : t.HasResult id
      · exact .duplicate id hid hr (h.resolve_right (not_not_intro hr))
      · exact .missing herrored id hid hr

theorem dropsAnswer_iff :
    DropsAnswer (turnAnswer policy now seen t) seen (extractToolCallsFromAssistant t.assistant) ↔
      if t.assistant.errored = true then
        policy = .preserve ∧ ∃ id, 2 ≤ t.assistant.toolCallIds.count id ∧ id ∉ seen ∧ t.HasResult id
      else (∃ id ∈ t.assistant.toolCallIds, id ∈ seen) ∨ ∃ id, 2 ≤ t.assistant.toolCallIds.count id := by
  unfold DropsAnswer turnAnswer
  dsimp only
  by_cases herrored : t.assistant.errored = true
  · simp only [if_pos herrored]
    by_cases hpolicy : policy = .preserve
    · simp only [hpolicy, if_true, true_and, collected_isSome]
      rw [not_nodup_iff]
      have hfilter : ((extractToolCallsFromAssistant t.assistant).filter fun call =>
            (collected (extractToolCallsFromAssistant t.assistant) seen t.span call.id).isSome).map (·.id) =
          t.assistant.toolCallIds.filter fun id =>
            (collected (extractToolCallsFromAssistant t.assistant) seen t.span id).isSome := by
        rw [AssistantMessage.toolCallIds, filter_map]
        rfl
      rw [hfilter]
      have hcount {id : String} (hid : id ∈ t.assistant.toolCallIds) (hseen : id ∉ seen) (hr : t.HasResult id) :
          (t.assistant.toolCallIds.filter fun id =>
            (collected (extractToolCallsFromAssistant t.assistant) seen t.span id).isSome).count id =
              t.assistant.toolCallIds.count id :=
        count_filter (p := fun id => (collected (extractToolCallsFromAssistant t.assistant) seen t.span id).isSome)
          (collected_isSome.mpr ⟨hid, hseen, hr⟩)
      constructor
      · rintro (⟨call, -, ⟨-, hseen, -⟩, hseen'⟩ | ⟨id, hid⟩)
        · exact absurd hseen' hseen
        · have hmem := count_pos_iff.mp (Nat.lt_of_lt_of_le Nat.zero_lt_two hid)
          obtain ⟨hmem, hseen, hr⟩ := collected_isSome.mp (mem_filter.mp hmem).2
          rw [hcount hmem hseen hr] at hid
          exact ⟨id, hid, hseen, hr⟩
      · rintro ⟨id, hid, hseen, hr⟩
        have hmem := count_pos_iff.mp (Nat.lt_of_lt_of_le Nat.zero_lt_two hid)
        exact .inr ⟨id, by rwa [hcount hmem hseen hr]⟩
    · simp [hpolicy]
  · simp only [if_neg herrored, isSome_some, true_and, filter_true]
    rw [not_nodup_iff]
    refine or_congr ?_ Iff.rfl
    simp only [AssistantMessage.toolCallIds, List.mem_map]
    constructor
    · rintro ⟨call, hcall, hseen⟩
      exact ⟨call.id, ⟨call, hcall, rfl⟩, hseen⟩
    · rintro ⟨_, ⟨call, hcall, rfl⟩, hseen⟩
      exact ⟨call, hcall, hseen⟩

theorem adds_answer {answer : ToolCallLike → Option ToolResultMessage} (ha : answer c = some r)
    (hid : extractToolResultId r = some c.id) (s : RepairState) :
    s.Adds (s.pushToolResult r) ((freshAnswers answer s.seenToolResultIds [c]).map .toolResult)
      (idsOf (freshAnswers answer s.seenToolResultIds [c]))
      ((answer c).isSome = true ∧ c.id ∈ s.seenToolResultIds) := by
  have hone : freshAnswers answer s.seenToolResultIds [c] = if c.id ∈ s.seenToolResultIds then [] else [r] := by
    simp only [freshAnswers, ha]
  refine (RepairState.adds_push hid s).congr ?_ ?_ (by simp [ha])
  · rw [hone, apply_ite (List.map _)]
    rfl
  · rw [hone, apply_ite idsOf]
    simp [idsOf, hid]

section Pushes
variable {m : InsertionMap String ToolResultMessage} {calls : List ToolCallLike}
  {answer : ToolCallLike → Option ToolResultMessage} (hanswer : AnswersWithId answer calls)
include hanswer

theorem adds_pushSpanResults (hm : ∀ c ∈ calls, m.get? c.id = answer c) {s : RepairState} {seen : List String}
    (hseen : s.seenToolResultIds = seen) :
    s.Adds (calls.foldl (pushSpanResults m) s) ((freshAnswers answer seen calls).map .toolResult)
      (idsOf (freshAnswers answer seen calls)) (DropsAnswer answer seen calls) := by
  subst hseen
  refine (@adds_answers answer (pushSpanResults m) (fun _ => False) calls hanswer (fun c hc s => ?_) s).congr rfl rfl (by simp)
  rw [pushSpanResults, hm c hc]
  cases ha : answer c with
  | none => exact (RepairState.Adds.refl s).congr (by simp [freshAnswers, ha]) (by simp [freshAnswers, ha, idsOf]) (by simp)
  | some r =>
    refine (adds_answer ha (hanswer c hc r ha) s).congr rfl rfl ?_
    rw [ha, false_or]

theorem adds_pushAnswer (hm : ∀ c ∈ calls, answer c = some ((m.get? c.id).getD (makeMissingToolResult now c)))
    {s : RepairState} {seen : List String} (hseen : s.seenToolResultIds = seen) :
    s.Adds (calls.foldl (pushAnswer now m) s) ((freshAnswers answer seen calls).map .toolResult)
      (idsOf (freshAnswers answer seen calls))
      ((∃ c ∈ calls, m.get? c.id = none) ∨ DropsAnswer answer seen calls) := by
  subst hseen
  refine adds_answers hanswer (fun c hc s => ?_) s
  have ha := hm c hc
  rw [pushAnswer]
  cases hget : m.get? c.id with
  | none =>
    rw [hget, getD_none] at ha
    have hmarked : s.Adds {s with added := s.added ++ [makeMissingToolResult now c], changed := true} [] [] True :=
      ⟨(append_nil _).symm, (append_nil _).symm, by simp⟩
    exact (hmarked.trans (adds_answer ha (hanswer c hc _ ha) _)).congr rfl rfl (by simp)
  | some r =>
    rw [hget, getD_some] at ha
    exact (adds_answer ha (hanswer c hc r ha) s).congr rfl rfl (by simp)

end Pushes

/-- **One repaired turn**: the assistant message, its results, and everything else in the span. -/
theorem repairTurn_adds (s : RepairState) :
    s.Adds (repairTurn policy now s t)
      (.assistant t.assistant :: ((turnResults policy now s.seenToolResultIds t).map .toolResult ++ otherMessages t.span))
      (idsOf (turnResults policy now s.seenToolResultIds t)) (Noticed policy (· ∈ s.seenToolResultIds) t) := by
  unfold repairTurn
  dsimp only
  have hassistant (s : RepairState) : s.Adds {s with out := s.out ++ [.assistant t.assistant]} [.assistant t.assistant] []
      False := ⟨rfl, (append_nil _).symm, by simp⟩
  by_cases hcalls : extractToolCallsFromAssistant t.assistant = []
  · rw [if_pos hcalls]
    have hids : t.assistant.toolCallIds = [] := by rw [AssistantMessage.toolCallIds, hcalls]; rfl
    have hnone : turnResults policy now s.seenToolResultIds t = [] := by rw [turnResults, hcalls]; rfl
    refine ((hassistant s).trans (RepairState.adds_free t.span _)).congr ?_ ?_ ?_
    · rw [hnone]
      rfl
    · rw [hnone]
      rfl
    · rw [noticed_iff, hids, hcalls, false_or]
      simp [NoticedInSpan, eq_nil_iff_forall_not_mem]
  · rw [if_neg hcalls]
    obtain ⟨hadds, hother, hcollected⟩ := span_spec (extractToolCallsFromAssistant t.assistant) t.span {repair := s}
    generalize t.span.foldl (spanStep (extractToolCallsFromAssistant t.assistant)) {repair := s} = u
      at hadds hother hcollected
    dsimp only at hadds hother hcollected
    rw [nil_append] at hother
    simp only [InsertionMap.get?_empty, none_or] at hcollected
    have hseen : u.repair.seenToolResultIds = s.seenToolResultIds := by rw [hadds.seen, append_nil]
    have hremainder (s : RepairState) : s.Adds {s with out := s.out ++ u.remainder} (otherMessages t.span) [] False :=
      ⟨by rw [hother], (append_nil _).symm, by simp⟩
    have hsize : u.spanResultsById.size > 0 ↔
        ∃ id ∈ t.assistant.toolCallIds, id ∉ s.seenToolResultIds ∧ t.HasResult id := by
      simp only [InsertionMap.size_pos_iff, hcollected, collected_isSome]
    have hanswer := turnAnswer_id policy now s.seenToolResultIds t
    have hnot := @noticed_iff policy s.seenToolResultIds t
    have hdrops := @dropsAnswer_iff now policy s.seenToolResultIds t
    have hresults : turnResults policy now s.seenToolResultIds t = freshAnswers
        (turnAnswer policy now s.seenToolResultIds t) s.seenToolResultIds (extractToolCallsFromAssistant t.assistant) := rfl
    have hstart := hadds.trans (hassistant u.repair)
    by_cases herrored : t.assistant.errored = true
    · rw [if_pos herrored]
      cases policy with
      | preserve =>
        have hpush := adds_pushSpanResults (m := u.spanResultsById) hanswer (fun c _ => by
          rw [hcollected, turnAnswer, if_pos herrored, if_pos rfl])
          (s := {u.repair with out := u.repair.out ++ [.assistant t.assistant]}) hseen
        rw [← hresults] at hpush
        refine ((hstart.trans hpush).trans (hremainder _)).congr (by simp) (by simp) ?_
        rw [hdrops, if_pos herrored, hnot]
        simp [herrored]
      | drop =>
        have hnone : turnResults .drop now s.seenToolResultIds t = [] := by
          rw [hresults, eq_nil_iff_forall_not_mem]
          intro r hr
          obtain ⟨_, c, _, _, hc, -⟩ := mem_freshAnswers hr
          rw [turnAnswer, if_pos herrored, if_neg (by decide)] at hc
          cases hc
        have hdrop (s : RepairState) : s.Adds (if u.spanResultsById.size > 0 then {s with changed := true} else s) [] []
            (u.spanResultsById.size > 0) :=
          .mark ⟨(append_nil _).symm, (append_nil _).symm, by simp⟩
        rw [hnone]
        refine ((hstart.trans (hdrop _)).trans (hremainder _)).congr (by simp) (by simp [idsOf]) ?_
        rw [hsize, hnot]
        have hrepeated : (∃ id, 2 ≤ t.assistant.toolCallIds.count id ∧ id ∉ s.seenToolResultIds ∧ t.HasResult id) →
            ∃ id ∈ t.assistant.toolCallIds, id ∉ s.seenToolResultIds ∧ t.HasResult id := by
          rintro ⟨id, hid, hr⟩
          exact ⟨id, count_pos_iff.mp (Nat.lt_of_lt_of_le Nat.zero_lt_two hid), hr⟩
        simp only [herrored, or_false, true_and, false_and, Bool.true_eq_false, false_or]
        rw [or_iff_left_of_imp hrepeated]
    · rw [if_neg herrored]
      have hmoved (s : RepairState) : s.Adds
          (if u.spanResultsById.size > 0 ∧ u.remainder.length > 0 then {s with moved := true, changed := true} else s)
          [] [] (u.spanResultsById.size > 0 ∧ u.remainder.length > 0) :=
        .mark ⟨(append_nil _).symm, (append_nil _).symm, by simp⟩
      have hbefore := hstart.trans (hmoved _)
      have hpush := adds_pushAnswer now (m := u.spanResultsById) hanswer (fun c _ => by
        rw [hcollected, turnAnswer, if_neg herrored]) (hbefore.seen.trans (append_nil _))
      rw [← hresults] at hpush
      refine ((hbefore.trans hpush).trans (hremainder _)).congr (by simp) (by simp) ?_
      have hmissing : (∃ c ∈ extractToolCallsFromAssistant t.assistant, u.spanResultsById.get? c.id = none) ↔
          ∃ id ∈ t.assistant.toolCallIds, id ∈ s.seenToolResultIds ∨ ¬ t.HasResult id := by
        have hnone {id : String} (hid : id ∈ t.assistant.toolCallIds) :
            u.spanResultsById.get? id = none ↔ id ∈ s.seenToolResultIds ∨ ¬ t.HasResult id := by
          rw [hcollected, ← not_isSome_iff_eq_none, collected_isSome]
          simp only [hid, true_and, not_and_or, not_not]
        constructor
        · rintro ⟨c, hc, h⟩
          exact ⟨c.id, List.mem_map_of_mem hc, (hnone (List.mem_map_of_mem hc)).mp h⟩
        · rintro ⟨id, hid, h⟩
          obtain ⟨c, hc, rfl⟩ := List.mem_map.mp hid
          exact ⟨c, hc, (hnone hid).mpr h⟩
      have hseenCall : (∃ id ∈ t.assistant.toolCallIds, id ∈ s.seenToolResultIds) →
          ∃ id ∈ t.assistant.toolCallIds, id ∈ s.seenToolResultIds ∨ ¬ t.HasResult id := by
        rintro ⟨id, hid, h⟩
        exact ⟨id, hid, .inl h⟩
      rw [hdrops, if_neg herrored, hnot, hmissing, hsize, hother, gt_iff_lt, length_pos_iff]
      rw [Bool.not_eq_true] at herrored
      simp only [herrored, or_false, true_and, false_and, Bool.false_eq_true, false_or, true_or, and_true]
      constructor
      · rintro ((h | h) | h | h | h)
        · exact .inl h
        · exact .inr (.inr (.inl h))
        · exact .inr (.inr (.inr h))
        · exact .inr (.inr (.inr (hseenCall h)))
        · exact .inr (.inl h)
      · rintro (h | h | h | h)
        · exact .inl (.inl h)
        · exact .inr (.inr (.inr h))
        · exact .inl (.inr h)
        · exact .inr (.inl h)

end Turn

/-! ### All turns -/

section Turns
variable (policy : ErroredAssistantResultPolicy) (now : ℚ)

def repairedTurn (seen : List String) (t : Turn) : Turn :=
  ⟨t.assistant, (turnResults policy now seen t).map .toolResult ++ otherMessages t.span⟩

def repairedTurns : List String → List Turn → List Turn
  | _, [] => []
  | seen, t :: turns =>
    repairedTurn policy now seen t :: repairedTurns (seen ++ idsOf (turnResults policy now seen t)) turns

def seenAfter (seen : List String) (turns : List Turn) : List String :=
  turns.foldl (fun seen t => seen ++ idsOf (turnResults policy now seen t)) seen

/-- **The loop over the turns.** -/
theorem repairTurns_spec (turns : List Turn) (s : RepairState) :
    (turns.foldl (repairTurn policy now) s).out =
        s.out ++ (repairedTurns policy now s.seenToolResultIds turns).flatMap Turn.messages ∧
      (((turns.foldl (repairTurn policy now) s).changed || (turns.foldl (repairTurn policy now) s).moved) = true ↔
        (s.changed || s.moved) = true ∨ ∃ earlier t later, turns = earlier ++ t :: later ∧
          Noticed policy (· ∈ seenAfter policy now s.seenToolResultIds earlier) t) := by
  induction turns generalizing s with
  | nil => exact ⟨(append_nil _).symm, by simp⟩
  | cons t turns ih =>
    have hturn := @repairTurn_adds now policy t s
    obtain ⟨hout, hshown⟩ := ih (repairTurn policy now s t)
    rw [hturn.seen] at hout hshown
    rw [foldl_cons]
    constructor
    · rw [hout, hturn.out, repairedTurns, flatMap_cons, append_assoc]
      rfl
    · rw [hshown, hturn.shown, exists_split_cons, or_assoc]
      rfl

theorem mem_repairedTurns {seen : List String} {t' : Turn} :
    t' ∈ repairedTurns policy now seen turns ↔
      ∃ earlier t later, turns = earlier ++ t :: later ∧ t' = repairedTurn policy now (seenAfter policy now seen earlier) t := by
  induction turns generalizing seen with
  | nil => simp [repairedTurns]
  | cons t turns ih =>
    rw [repairedTurns, mem_cons, ih, exists_split_cons]
    rfl

theorem turnAnswer_isSome_iff {seen : List String} {t : Turn} {call : ToolCallLike}
    (hcall : call.id ∈ t.assistant.toolCallIds) :
    (turnAnswer policy now seen t call).isSome = true ↔
      t.assistant.errored = false ∨ policy = .preserve ∧ call.id ∉ seen ∧ t.HasResult call.id := by
  unfold turnAnswer
  dsimp only
  by_cases herrored : t.assistant.errored = true
  · rw [if_pos herrored, herrored]
    by_cases hpolicy : policy = .preserve
    · rw [if_pos hpolicy, collected_isSome]
      simp [hpolicy, hcall]
    · simp [hpolicy]
  · rw [if_neg herrored]
    simp [herrored]

theorem mem_idsOf_turnResults {seen : List String} {t : Turn} :
    id ∈ idsOf (turnResults policy now seen t) ↔ id ∉ seen ∧ id ∈ t.assistant.toolCallIds ∧
      (t.assistant.errored = false ∨ policy = .preserve ∧ t.HasResult id) := by
  rw [turnResults, mem_idsOf_freshAnswers seen (turnAnswer_id policy now seen t)]
  refine and_congr_right fun hseen => ?_
  constructor
  · rintro ⟨call, hcall, rfl, h⟩
    have hmem : call.id ∈ t.assistant.toolCallIds := List.mem_map_of_mem hcall
    exact ⟨hmem, ((turnAnswer_isSome_iff policy now hmem).mp h).imp_right fun h => ⟨h.1, h.2.2⟩⟩
  · rintro ⟨hmem, h⟩
    obtain ⟨call, hcall, rfl⟩ := List.mem_map.mp hmem
    exact ⟨call, hcall, rfl, (turnAnswer_isSome_iff policy now hmem).mpr (h.imp_right fun h => ⟨h.1, hseen, h.2⟩)⟩

theorem answeredBefore_cons {t : Turn} :
    AnsweredBefore policy (t :: turns) id ↔
      (id ∈ t.assistant.toolCallIds ∧ (t.assistant.errored = false ∨ policy = .preserve ∧ t.HasResult id)) ∨
        AnsweredBefore policy turns id := exists_mem_cons_iff ..

/-- The seen ids are those that earlier turns have results for. -/
theorem mem_seenAfter (turns : List Turn) (seen : List String) (id : String) :
    id ∈ seenAfter policy now seen turns ↔ id ∈ seen ∨ AnsweredBefore policy turns id := by
  induction turns generalizing seen with
  | nil => simp [seenAfter, AnsweredBefore]
  | cons t turns ih =>
    rw [seenAfter, foldl_cons, ← seenAfter, ih, mem_append, mem_idsOf_turnResults, answeredBefore_cons]
    by_cases hseen : id ∈ seen
    · simp [hseen]
    · simp [hseen]

theorem seenAfter_eq (earlier : List Turn) :
    (fun id => id ∈ seenAfter policy now [] earlier) = AnsweredBefore policy earlier := by
  funext id
  rw [eq_iff_iff, mem_seenAfter]
  simp

theorem repairMessages_spec (messages : List Message) :
    (repairMessages policy now messages).out =
        ofTurns (otherMessages (splitTurns messages).1) (repairedTurns policy now [] (splitTurns messages).2) ∧
      (((repairMessages policy now messages).changed || (repairMessages policy now messages).moved) = true ↔
        Registers policy messages) := by
  have hfree := RepairState.adds_free (splitTurns messages).1 {}
  obtain ⟨hout, hshown⟩ := repairTurns_spec policy now (splitTurns messages).2
    ((splitTurns messages).1.foldl RepairState.pushFree {})
  rw [hfree.seen] at hout hshown
  refine ⟨?_, ?_⟩
  · rw [repairMessages, ofTurns]
    dsimp only
    rw [hout, hfree.out]
    rfl
  · rw [repairMessages]
    dsimp only
    rw [hshown, hfree.shown, Registers]
    refine or_congr ?_ ?_
    · rw [show ((({} : RepairState).changed || ({} : RepairState).moved) = true) = False from eq_false Bool.false_ne_true, false_or,
        ne_eq, eq_nil_iff_forall_not_mem]
      simp only [not_forall, not_not, resultsOf, mem_filterMap]
      constructor
      · rintro ⟨r, m, hm, hr⟩
        exact ⟨m, hm, by cases m <;> cases hr; rfl⟩
      · rintro ⟨m, hm, hr⟩
        cases m with
        | toolResult r => exact ⟨r, _, hm, rfl⟩
        | _ => cases hr
    · simp only [← seenAfter_eq policy now]
      rfl

theorem repaired_of_registers {messages : List Message} (h : Registers policy messages) :
    (repairToolUseResultPairing policy now messages).messages =
      ofTurns (otherMessages (splitTurns messages).1) (repairedTurns policy now [] (splitTurns messages).2) := by
  obtain ⟨hout, hshown⟩ := repairMessages_spec policy now messages
  rw [repairToolUseResultPairing]
  dsimp only
  rw [if_pos (hshown.mpr h), hout]

theorem repaired_of_not_registers {messages : List Message} (h : ¬ Registers policy messages) :
    (repairToolUseResultPairing policy now messages).messages = messages := by
  exact if_neg fun hshown => h ((repairMessages_spec policy now messages).2.mp hshown)

end Turns

/-! ### Results and other messages -/

theorem otherMessages_append (l l' : List Message) : otherMessages (l ++ l') = otherMessages l ++ otherMessages l' :=
  filter_append ..

theorem otherMessages_results (results : List ToolResultMessage) :
    otherMessages (results.map .toolResult) = [] := by
  rw [otherMessages, filter_eq_nil_iff]
  intro m hm
  obtain ⟨r, -, rfl⟩ := List.mem_map.mp hm
  exact Bool.false_ne_true

theorem otherMessages_otherMessages (l : List Message) : otherMessages (otherMessages l) = otherMessages l := by
  rw [otherMessages, otherMessages, filter_filter]
  simp

theorem mem_otherMessages {l : List Message} {m : Message} (h : m ∈ otherMessages l) :
    m ∈ l ∧ m.isToolResult = false := by
  obtain ⟨hm, hr⟩ := mem_filter.mp h
  exact ⟨hm, by simpa using hr⟩

theorem mem_resultsOf {l : List Message} : r ∈ resultsOf l ↔ .toolResult r ∈ l := by
  rw [resultsOf, mem_filterMap]
  constructor
  · rintro ⟨m, hm, hr⟩
    cases m with
    | toolResult r' => exact Option.some.inj hr ▸ hm
    | _ => cases hr
  · exact fun h => ⟨_, h, rfl⟩

theorem resultRun_results (results : List ToolResultMessage) (l : List Message) :
    resultRun (results.map .toolResult ++ otherMessages l) = results := by
  induction results with
  | nil =>
    cases h : otherMessages l with
    | nil => rfl
    | cons m rest =>
      have hm := (mem_otherMessages (h ▸ mem_cons_self .. : m ∈ otherMessages l)).2
      cases m with
      | toolResult r => cases hm
      | _ => rfl
  | cons r results ih => exact congrArg (r :: ·) ih

theorem resultsOf_results (results : List ToolResultMessage) (l : List Message) :
    resultsOf (results.map .toolResult ++ otherMessages l) = results := by
  have hnone : resultsOf (otherMessages l) = [] := by
    rw [resultsOf, filterMap_eq_nil_iff]
    intro m hm
    have hm := (mem_otherMessages hm).2
    cases m with
    | toolResult r => cases hm
    | _ => rfl
  rw [resultsOf, filterMap_append, ← resultsOf, ← resultsOf, hnone, append_nil, resultsOf,
    filterMap_map]
  exact filterMap_some

section Turns
variable (policy : ErroredAssistantResultPolicy) (now : ℚ)

theorem kept_turns (seen : List String) (turns : List Turn) :
    otherMessages ((repairedTurns policy now seen turns).flatMap Turn.messages) =
      otherMessages (turns.flatMap Turn.messages) := by
  induction turns generalizing seen with
  | nil => rfl
  | cons t turns ih =>
    have hturn : otherMessages (repairedTurn policy now seen t).messages = otherMessages t.messages := by
      refine congrArg (Message.assistant t.assistant :: ·) ?_
      show otherMessages (_ ++ _) = otherMessages t.span
      rw [otherMessages_append, otherMessages_results, otherMessages_otherMessages]
      rfl
    rw [repairedTurns, flatMap_cons, flatMap_cons, otherMessages_append, otherMessages_append, ih, hturn]

theorem kept_of_registers (messages : List Message) :
    otherMessages (ofTurns (otherMessages (splitTurns messages).1) (repairedTurns policy now [] (splitTurns messages).2)) =
      otherMessages messages := by
  conv_rhs => rw [← ofTurns_splitTurns messages]
  rw [ofTurns, ofTurns, otherMessages_append, otherMessages_append, kept_turns, otherMessages_otherMessages]

/-- The turns of the repaired transcript. -/
theorem splitTurns_repaired (messages : List Message) :
    splitTurns (ofTurns (otherMessages (splitTurns messages).1) (repairedTurns policy now [] (splitTurns messages).2)) =
      (otherMessages (splitTurns messages).1, repairedTurns policy now [] (splitTurns messages).2) := by
  refine splitTurns_ofTurns (fun m hm => preamble_isAssistant (mem_otherMessages hm).1) fun t' ht' m hm => ?_
  obtain ⟨earlier, t, later, hturns, rfl⟩ := (mem_repairedTurns policy now).mp ht'
  rcases mem_append.mp hm with hm | hm
  · obtain ⟨r, -, rfl⟩ := List.mem_map.mp hm
    rfl
  · exact span_isAssistant (hturns ▸ mem_append_right _ (mem_cons_self ..)) (mem_otherMessages hm).1

/-- A repaired turn is paired, but for calls that were answered before. -/
theorem pairedTurn_repaired (seen : List String) (t : Turn) :
    PairedTurn (repairedTurn policy now seen t) ↔
      (t.assistant.errored = false → ∀ id ∈ t.assistant.toolCallIds, id ∉ seen) := by
  have hrun : resultRun (repairedTurn policy now seen t).span = turnResults policy now seen t := resultRun_results _ _
  have hids {id : String} : some id ∈ (turnResults policy now seen t).map extractToolResultId ↔
      id ∈ idsOf (turnResults policy now seen t) := by
    rw [idsOf, List.mem_map, mem_filterMap]
  constructor
  · intro h herrored id hid
    have hmem := h.answered herrored id hid
    rw [hrun, hids, mem_idsOf_turnResults] at hmem
    exact hmem.1
  · intro h
    refine ⟨fun m hm => ?_, fun r hr => ?_, ?_, fun herrored id hid => ?_⟩
    · rw [hrun, repairedTurn, drop_left' (length_map _)] at hm
      exact (mem_otherMessages hm).2
    · rw [hrun] at hr
      obtain ⟨before, call, after, hcalls, hcall, -, -⟩ := mem_freshAnswers hr
      have hmem : call ∈ extractToolCallsFromAssistant t.assistant := by rw [hcalls]; simp
      exact ⟨call.id, List.mem_map_of_mem hmem, turnAnswer_id policy now seen t call hmem r hcall⟩
    · rw [hrun]
      exact nodup_freshAnswers seen (turnAnswer_id policy now seen t)
    · rw [hrun, hids, mem_idsOf_turnResults]
      exact ⟨h herrored id hid, hid, .inl herrored⟩

/-- Without a further turn noticed, a turn is paired exactly if it is tidy. -/
theorem pairedTurn_unnoticed {answered : String → Prop} {t : Turn} (h : ¬ Noticed policy answered t) :
    PairedTurn t ↔ t.Tidy := by
  refine ⟨fun hpaired => ⟨hpaired.front, hpaired.once⟩, fun htidy => ⟨htidy.1, fun r hr => ?_, htidy.2, ?_⟩⟩
  · by_contra hnone
    refine h (.orphan r (mem_resultsOf.mpr ?_) fun id hid hr => hnone ⟨id, hid, hr⟩)
    rw [span_eq_run t.span]
    exact mem_append_left _ (List.mem_map_of_mem hr)
  · intro herrored id hid
    by_contra hnone
    refine h (.missing herrored id hid fun ⟨r, hr, hrid⟩ => hnone ?_)
    obtain ⟨l, rest, hspan⟩ := append_of_mem (mem_resultsOf.mp hr)
    exact List.mem_map.mpr ⟨r, (mem_run_of_front htidy.1 hspan).1, hrid⟩

/-! ### The second pass -/

theorem renameFor_renameFor (toolCalls : List ToolCallLike) (r : ToolResultMessage) :
    renameFor toolCalls (renameFor toolCalls r) = renameFor toolCalls r := by
  rw [renameFor, extractToolResultId_renameFor]
  exact normalize_normalize r _

/-- A repaired turn keeps its results, under the names of their calls. -/
theorem turnResults_again (later : ℚ) (seen : List String) (t : Turn) :
    turnResults policy later seen (repairedTurn policy now seen t) =
      (turnResults policy now seen t).map (renameFor (extractToolCallsFromAssistant t.assistant)) := by
  refine freshAnswers_again seen (turnAnswer_id policy now seen t)
    (fun c _ d _ h => turnAnswer_isSome policy now seen t h) fun c hc hseen => ?_
  have hid : c.id ∈ (extractToolCallsFromAssistant t.assistant).map (·.id) := List.mem_map_of_mem hc
  have hcollected : collected (extractToolCallsFromAssistant t.assistant) seen (repairedTurn policy now seen t).span c.id =
      ((turnResults policy now seen t).find? fun r => extractToolResultId r = some c.id).map
        (renameFor (extractToolCallsFromAssistant t.assistant)) := by
    rw [collected, if_pos ⟨hid, hseen⟩, repairedTurn, resultsOf_results]
  show turnAnswer policy later seen (repairedTurn policy now seen t) c =
    ((turnResults policy now seen t).find? fun r => extractToolResultId r = some c.id).map _
  unfold turnAnswer
  dsimp only
  rw [show (repairedTurn policy now seen t).assistant = t.assistant from rfl, hcollected]
  by_cases herrored : t.assistant.errored = true
  · rw [if_pos herrored]
    by_cases hpolicy : policy = .preserve
    · rw [if_pos hpolicy]
    · rw [if_neg hpolicy]
      cases hfind : (turnResults policy now seen t).find? fun r => extractToolResultId r = some c.id with
      | none => rfl
      | some r =>
        obtain ⟨_, d, _, _, hd, -⟩ := mem_freshAnswers (mem_of_find?_eq_some hfind)
        rw [turnAnswer, if_pos herrored, if_neg hpolicy] at hd
        cases hd
  · rw [if_neg herrored]
    rw [Bool.not_eq_true] at herrored
    obtain ⟨r, hr, hrid⟩ := mem_filterMap.mp ((mem_idsOf_turnResults policy now).mpr ⟨hseen, hid, .inl herrored⟩)
    have hfind : ((turnResults policy now seen t).find? fun r => extractToolResultId r = some c.id).isSome = true :=
      find?_isSome.mpr ⟨r, hr, decide_eq_true hrid⟩
    obtain ⟨r', hr'⟩ := isSome_iff_exists.mp hfind
    rw [hr']
    rfl

theorem idsOf_rename (toolCalls : List ToolCallLike) (results : List ToolResultMessage) :
    idsOf (results.map (renameFor toolCalls)) = idsOf results := by
  rw [idsOf, filterMap_map, idsOf]
  exact congrArg (results.filterMap ·) (funext fun r => extractToolResultId_renameFor toolCalls r)

theorem repairedTurn_again (later : ℚ) (seen : List String) (t : Turn) :
    repairedTurn policy later seen (repairedTurn policy now seen t) = repairedTurn policy now seen t ↔
      ∀ r ∈ turnResults policy now seen t, renameFor (extractToolCallsFromAssistant t.assistant) r = r := by
  have hother : otherMessages (repairedTurn policy now seen t).span = otherMessages t.span := by
    rw [repairedTurn, otherMessages_append, otherMessages_results, otherMessages_otherMessages]
    rfl
  rw [repairedTurn, turnResults_again, hother, repairedTurn, Turn.mk.injEq, and_iff_right rfl, append_left_inj,
    List.map_inj_right fun r r' h => Message.toolResult.inj h]
  have hmap := @map_inj_left _ _ (turnResults policy now seen t)
    (renameFor (extractToolCallsFromAssistant t.assistant)) id
  rwa [map_id] at hmap

theorem repairedTurns_again (later : ℚ) (seen : List String) (turns : List Turn) :
    repairedTurns policy later seen (repairedTurns policy now seen turns) = repairedTurns policy now seen turns ↔
      ∀ t' ∈ repairedTurns policy now seen turns, ∀ r ∈ resultsOf t'.span,
        renameFor (extractToolCallsFromAssistant t'.assistant) r = r := by
  induction turns generalizing seen with
  | nil => simp [repairedTurns]
  | cons t turns ih =>
    rw [repairedTurns, repairedTurns, turnResults_again, idsOf_rename, List.cons.injEq, repairedTurn_again, ih,
      forall_mem_cons]
    refine and_congr_left fun _ => ?_
    rw [repairedTurn, resultsOf_results]

/-- Repairing again changes nothing exactly if the results have their calls' names. -/
theorem stable_iff {messages : List Message} (h : Registers policy messages) :
    (∀ later, (repairToolUseResultPairing policy later
        (repairToolUseResultPairing policy now messages).messages).messages =
          (repairToolUseResultPairing policy now messages).messages) ↔
      ∀ t' ∈ repairedTurns policy now [] (splitTurns messages).2, ∀ r ∈ resultsOf t'.span,
        renameFor (extractToolCallsFromAssistant t'.assistant) r = r := by
  rw [repaired_of_registers policy now h]
  have hsplit := splitTurns_repaired policy now messages
  generalize hpre : otherMessages (splitTurns messages).1 = pre at hsplit ⊢
  have hother : otherMessages pre = pre := by rw [← hpre, otherMessages_otherMessages]
  have hagain (later : ℚ) := repairedTurns_again policy now later [] (splitTurns messages).2
  generalize repairedTurns policy now [] (splitTurns messages).2 = turns at hsplit hagain ⊢
  by_cases hregisters : Registers policy (ofTurns pre turns)
  · have hrepaired (later : ℚ) := repaired_of_registers policy later hregisters
    simp only [hsplit, hother] at hrepaired
    constructor
    · intro hstable
      have hsame := hstable now
      rw [hrepaired now] at hsame
      have hturns := splitTurns_repaired policy now (ofTurns pre turns)
      rw [hsplit, hother, hsame, hsplit] at hturns
      exact (hagain now).mp (Prod.mk.inj hturns).2.symm
    · intro hnames later
      rw [hrepaired later, (hagain later).mpr hnames]
  · refine ⟨fun _ t' ht' r hr => ?_, fun _ later => repaired_of_not_registers policy later hregisters⟩
    obtain ⟨earlier, later, hturns⟩ := append_of_mem ht'
    have hunnoticed : ¬ Noticed policy (AnsweredBefore policy earlier) t' := fun hnoticed =>
      hregisters (.inr ⟨earlier, t', later, by rw [hsplit, hturns], hnoticed⟩)
    by_contra hname
    have hid : ∃ id ∈ t'.assistant.toolCallIds, extractToolResultId r = some id := by
      by_contra hnone
      exact hunnoticed (.orphan r hr fun id hid hrid => hnone ⟨id, hid, hrid⟩)
    obtain ⟨id, hid, hrid⟩ := hid
    refine hunnoticed (.renamed r hr id hid hrid fun hsame => hname ?_)
    rw [renameFor, hrid]
    exact normalize_eq_of_toolName hsame

/-! ### The names of made-up results -/

theorem mem_freshAnswers_of_first {answer : ToolCallLike → Option ToolResultMessage} {seen : List String}
    {before after : List ToolCallLike} {call : ToolCallLike} (hcall : answer call = some r)
    (hseen : call.id ∉ seen) (hfirst : call.id ∉ before.map (·.id)) :
    r ∈ freshAnswers answer seen (before ++ call :: after) := by
  induction before generalizing seen with
  | nil =>
    rw [nil_append, freshAnswers_take after hcall hseen]
    exact mem_cons_self ..
  | cons c before ih =>
    rw [map_cons, mem_cons, not_or] at hfirst
    rw [cons_append]
    rcases skip_or_take answer seen c with hskip | ⟨r', hc, hcseen⟩
    · rw [freshAnswers_skip _ hskip]
      exact ih hseen hfirst.2
    · rw [freshAnswers_take _ hc hcseen]
      refine mem_cons_of_mem _ (ih ?_ hfirst.2)
      rw [mem_append, mem_singleton, not_or]
      exact ⟨hseen, hfirst.1⟩

/-- The results of a turn have their calls' names if the calls without a result have proper ones. -/
theorem named_iff {seen : List String} {t : Turn}
    (hfresh : t.assistant.errored = false → ∀ id ∈ t.assistant.toolCallIds, id ∉ seen) :
    (∀ r ∈ turnResults policy now seen t, renameFor (extractToolCallsFromAssistant t.assistant) r = r) ↔
      (t.assistant.errored = false → ∀ calls call more,
        extractToolCallsFromAssistant t.assistant = calls ++ call :: more → call.id ∉ calls.map (·.id) →
          ¬ t.HasResult call.id → ∀ name, call.name = some name →
            Foundation.EcmaString.trimmed? (some name) = some name) := by
  constructor
  · intro h herrored calls call more hcalls hfirst hnone name hname
    have hmem : call.id ∈ t.assistant.toolCallIds := List.mem_map_of_mem (by rw [hcalls]; simp)
    have hcollected : collected (extractToolCallsFromAssistant t.assistant) seen t.span call.id = none := by
      rw [← not_isSome_iff_eq_none, collected_isSome]
      exact fun hr => hnone hr.2.2
    have hanswer : turnAnswer policy now seen t call = some (makeMissingToolResult now call) := by
      rw [turnAnswer, if_neg (by rw [herrored]; exact Bool.false_ne_true), hcollected]
      rfl
    have hresult : makeMissingToolResult now call ∈ turnResults policy now seen t := by
      rw [turnResults, hcalls]
      exact mem_freshAnswers_of_first hanswer (hfresh herrored _ hmem) hfirst
    have hrename := h _ hresult
    refine @trimmed?_normalize (makeMissingToolResult now call) _ name (congrArg ToolResultMessage.toolName hrename |>.trans ?_)
    rw [makeMissingToolResult, hname]
    rfl
  · intro h r hr
    obtain ⟨before, call, after, hcalls, hcall, hseen, hfirst⟩ := mem_freshAnswers hr
    have hmem : call.id ∈ t.assistant.toolCallIds := List.mem_map_of_mem (by rw [hcalls]; simp)
    rcases turnAnswer_cases policy now hcall with hcollected | ⟨herrored, hcollected, rfl⟩
    · rw [collected, if_pos ⟨hmem, hseen⟩] at hcollected
      obtain ⟨r₀, -, rfl⟩ := map_eq_some_iff.mp hcollected
      exact renameFor_renameFor _ _
    · have hnone : ¬ t.HasResult call.id := fun hr => by
        have := collected_isSome.mpr ⟨hmem, hseen, hr⟩
        rw [hcollected] at this
        cases this
      have hcallFirst : call.id ∉ before.map (·.id) := fun hmem' => by
        obtain ⟨c, hc, hcid⟩ := List.mem_map.mp hmem'
        have := hfirst c hc hcid
        rw [turnAnswer, herrored] at this
        cases this
      have hname := h herrored before call after hcalls hcallFirst hnone
      rw [renameFor]
      cases hn : call.name with
      | none =>
        refine @normalize_of_trimmed (makeMissingToolResult now call) "unknown" _ ?_ (by decide)
        rw [makeMissingToolResult, hn]
        rfl
      | some name =>
        refine @normalize_of_trimmed (makeMissingToolResult now call) name _ ?_ (hname name hn)
        rw [makeMissingToolResult, hn]
        rfl

/-! ### When the repair repairs -/

theorem forall_repairedTurns {P : Turn → Prop} :
    (∀ t' ∈ repairedTurns policy now [] turns, P t') ↔ ∀ earlier t later, turns = earlier ++ t :: later →
      P (repairedTurn policy now (seenAfter policy now [] earlier) t) := by
  constructor
  · intro h earlier t later hturns
    exact h _ ((mem_repairedTurns policy now).mpr ⟨earlier, t, later, hturns, rfl⟩)
  · intro h t' ht'
    obtain ⟨earlier, t, later, hturns, rfl⟩ := (mem_repairedTurns policy now).mp ht'
    exact h earlier t later hturns

theorem repairs_of_registers {messages : List Message} (h : Registers policy messages) :
    RepairsPairing policy now messages ↔ Repairable policy messages := by
  have hrepaired := repaired_of_registers policy now h
  have hkept := kept_of_registers policy now messages
  have hpaired : WellPaired (repairToolUseResultPairing policy now messages).messages ↔
      ∀ earlier t later, (splitTurns messages).2 = earlier ++ t :: later → t.assistant.errored = false →
        ∀ id ∈ t.assistant.toolCallIds, ¬ AnsweredBefore policy earlier id := by
    rw [hrepaired, wellPaired_iff, splitTurns_repaired, and_iff_right fun m hm => (mem_otherMessages hm).2,
      forall_repairedTurns]
    simp only [pairedTurn_repaired, mem_seenAfter, not_mem_nil, false_or]
  have hnamed (hfresh : ∀ earlier t later, (splitTurns messages).2 = earlier ++ t :: later →
      t.assistant.errored = false → ∀ id ∈ t.assistant.toolCallIds, ¬ AnsweredBefore policy earlier id) :
      (∀ t' ∈ repairedTurns policy now [] (splitTurns messages).2, ∀ r ∈ resultsOf t'.span,
          renameFor (extractToolCallsFromAssistant t'.assistant) r = r) ↔
        ∀ t ∈ (splitTurns messages).2, t.assistant.errored = false → ∀ calls call more,
          extractToolCallsFromAssistant t.assistant = calls ++ call :: more → call.id ∉ calls.map (·.id) →
            ¬ t.HasResult call.id → ∀ name, call.name = some name →
              Foundation.EcmaString.trimmed? (some name) = some name := by
    have hturn (earlier : List Turn) (t : Turn) (later : List Turn)
        (hturns : (splitTurns messages).2 = earlier ++ t :: later) :=
      @named_iff policy now (seenAfter policy now [] earlier) t fun herrored id hid hseen =>
        hfresh earlier t later hturns herrored id hid (by simpa [mem_seenAfter] using hseen)
    have hresults (seen : List String) (t : Turn) :
        resultsOf (repairedTurn policy now seen t).span = turnResults policy now seen t := resultsOf_results _ _
    rw [forall_repairedTurns]
    simp only [hresults]
    constructor
    · intro hall t ht
      obtain ⟨earlier, later, hturns⟩ := append_of_mem ht
      exact (hturn earlier t later hturns).mp (hall earlier t later hturns)
    · intro hall earlier t later hturns
      exact (hturn earlier t later hturns).mpr (hall t (hturns ▸ mem_append_right _ (mem_cons_self ..)))
  constructor
  · intro hrepairs
    have hfresh := hpaired.mp hrepairs.paired
    exact ⟨hfresh, (hnamed hfresh).mp ((stable_iff policy now h).mp hrepairs.stable), .inl h⟩
  · intro hrepairable
    refine ⟨hpaired.mpr hrepairable.fresh, ?_, (stable_iff policy now h).mpr
      ((hnamed hrepairable.fresh).mpr hrepairable.named)⟩
    rw [hrepaired, hkept]

theorem repairs_of_not_registers {messages : List Message} (h : ¬ Registers policy messages) :
    RepairsPairing policy now messages ↔ Repairable policy messages := by
  have hsame (now : ℚ) := repaired_of_not_registers policy now h
  have hunnoticed {earlier later : List Turn} {t : Turn} (hturns : (splitTurns messages).2 = earlier ++ t :: later) :
      ¬ Noticed policy (AnsweredBefore policy earlier) t := fun hnoticed =>
    h (.inr ⟨earlier, t, later, hturns, hnoticed⟩)
  have hpre : ∀ m ∈ (splitTurns messages).1, m.isToolResult = false := by
    intro m hm
    rw [← Bool.not_eq_true]
    exact fun hr => h (.inl ⟨m, hm, hr⟩)
  have hpaired : WellPaired messages ↔ ∀ t ∈ (splitTurns messages).2, t.Tidy := by
    rw [wellPaired_iff, and_iff_right hpre]
    refine forall₂_congr fun t ht => ?_
    obtain ⟨earlier, later, hturns⟩ := append_of_mem ht
    exact pairedTurn_unnoticed policy (hunnoticed hturns)
  constructor
  · intro hrepairs
    refine ⟨fun earlier t later hturns herrored id hid hbefore => ?_,
      fun t ht herrored calls call more hcalls _ hnone => ?_, .inr (hpaired.mp ?_)⟩
    · by_cases hr : t.HasResult id
      · exact hunnoticed hturns (.duplicate id hid hr hbefore)
      · exact hunnoticed hturns (.missing herrored id hid hr)
    · obtain ⟨earlier, later, hturns⟩ := append_of_mem ht
      exact absurd (.missing herrored call.id (List.mem_map_of_mem (by rw [hcalls]; simp)) hnone) (hunnoticed hturns)
    · have := hrepairs.paired
      rwa [hsame] at this
  · intro hrepairable
    refine ⟨?_, by rw [hsame], fun later => by rw [hsame, hsame]⟩
    rw [hsame]
    exact hpaired.mpr (hrepairable.tidy.resolve_left h)

end Turns

/-- **The pairing repair, exactly**: it repairs a transcript if no call of a turn that did not
fail was answered before, every made-up result gets a proper name, and the results are tidy
unless something makes the repair return what it repaired. -/
theorem repairToolUseResultPairing_repairs_iff (policy : ErroredAssistantResultPolicy) (now : ℚ)
    (messages : List Message) : RepairsPairing policy now messages ↔ Repairable policy messages := by
  by_cases h : Registers policy messages
  · exact repairs_of_registers policy now h
  · exact repairs_of_not_registers policy now h

def readTurn : AssistantMessage :=
  ⟨some [⟨some "toolCall", some "call_1", some "read", none, some (.object []), []⟩], none, []⟩

def readResult : ToolResultMessage := ⟨some "call_1", none, some "read", []⟩

/-- **The same result twice** in an otherwise clean transcript is left there. -/
theorem duplicate_result_kept :
    (repairToolUseResultPairing .preserve 0 [.assistant readTurn, .toolResult readResult, .toolResult readResult]).messages =
        [.assistant readTurn, .toolResult readResult, .toolResult readResult] ∧
      ¬ RepairsPairing .preserve 0 [.assistant readTurn, .toolResult readResult, .toolResult readResult] := by
  have hsame : (repairToolUseResultPairing .preserve 0
      [.assistant readTurn, .toolResult readResult, .toolResult readResult]).messages =
        [.assistant readTurn, .toolResult readResult, .toolResult readResult] := by rfl
  refine ⟨hsame, fun h => ?_⟩
  have hpaired := h.paired
  rw [hsame] at hpaired
  exact absurd (hpaired.once [] readTurn _ rfl) (by decide)

end OpenClaw.Agents
