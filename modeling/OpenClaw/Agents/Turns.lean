import OpenClaw.Agents.Transcript

/-! The turns of a transcript.

A turn is an assistant message with what follows up to the next one. A provider takes a
transcript whose tool results come directly after the turn that asked for them, once each
and for every call; `wellPaired_iff` says so turn by turn. -/
namespace OpenClaw.Agents

open List

structure Turn where
  assistant : AssistantMessage
  span : List Message

def Turn.messages (t : Turn) : List Message := .assistant t.assistant :: t.span

/-- The messages before the first assistant message, and the turns. -/
def splitTurns : List Message → List Message × List Turn
  | [] => ([], [])
  | .assistant a :: rest => ([], ⟨a, (splitTurns rest).1⟩ :: (splitTurns rest).2)
  | m :: rest => (m :: (splitTurns rest).1, (splitTurns rest).2)

def ofTurns (preamble : List Message) (turns : List Turn) : List Message := preamble ++ turns.flatMap Turn.messages

def Message.isAssistant : Message → Bool
  | .assistant _ => true
  | _ => false

/-- The tool results that a list of messages starts with. -/
def resultRun : List Message → List ToolResultMessage
  | .toolResult r :: rest => r :: resultRun rest
  | _ => []

/-- Between a result and the assistant message that called for it are only results. -/
def FollowsItsCall (before : List Message) (r : ToolResultMessage) : Prop :=
  ∃ (before' : List Message) (a : AssistantMessage) (results : List ToolResultMessage),
    before = before' ++ .assistant a :: results.map .toolResult ∧
      ∃ id ∈ a.toolCallIds, extractToolResultId r = some id

/-- What a provider requires of a transcript. -/
structure WellPaired (messages : List Message) : Prop where
  placed : ∀ before r after, messages = before ++ .toolResult r :: after → FollowsItsCall before r
  once : ∀ before a after, messages = before ++ .assistant a :: after →
    ((resultRun after).map extractToolResultId).Nodup
  answered : AnswersEveryCall messages

/-- The same of one turn. -/
structure PairedTurn (t : Turn) : Prop where
  front : ∀ m ∈ t.span.drop (resultRun t.span).length, m.isToolResult = false
  placed : ∀ r ∈ resultRun t.span, ∃ id ∈ t.assistant.toolCallIds, extractToolResultId r = some id
  once : ((resultRun t.span).map extractToolResultId).Nodup
  answered : t.assistant.errored = false → ∀ id ∈ t.assistant.toolCallIds,
    some id ∈ (resultRun t.span).map extractToolResultId

/-! ### Splitting -/

theorem ofTurns_splitTurns (messages : List Message) :
    ofTurns (splitTurns messages).1 (splitTurns messages).2 = messages := by
  induction messages with
  | nil => rfl
  | cons m rest ih =>
    rw [ofTurns] at ih
    cases m with
    | assistant a => exact congrArg (.assistant a :: ·) ih
    | toolResult r => exact congrArg (.toolResult r :: ·) ih
    | other v => exact congrArg (.other v :: ·) ih

/-- Messages before the first assistant message go to the preamble. -/
theorem splitTurns_append {l : List Message} (h : ∀ m ∈ l, m.isAssistant = false) (rest : List Message) :
    splitTurns (l ++ rest) = (l ++ (splitTurns rest).1, (splitTurns rest).2) := by
  induction l with
  | nil => rfl
  | cons m l ih =>
    have hl := ih fun m hm => h m (mem_cons_of_mem _ hm)
    have hm := h m (mem_cons_self ..)
    cases m with
    | assistant a => cases hm
    | _ => rw [cons_append, splitTurns, hl, cons_append]; exact nofun

theorem splitTurns_assistant (before : List Message) (a : AssistantMessage) (after : List Message) :
    splitTurns (before ++ .assistant a :: after) =
      ((splitTurns before).1, (splitTurns before).2 ++ ⟨a, (splitTurns after).1⟩ :: (splitTurns after).2) := by
  induction before with
  | nil => rfl
  | cons m before ih =>
    cases m with
    | assistant b => rw [cons_append, splitTurns, ih]; rfl
    | _ => rw [cons_append, splitTurns, ih]; rfl; exact nofun

theorem preamble_isAssistant {messages : List Message} {m : Message} (h : m ∈ (splitTurns messages).1) :
    m.isAssistant = false := by
  induction messages with
  | nil => cases h
  | cons x rest ih =>
    cases x with
    | assistant a => cases h
    | _ =>
      rcases mem_cons.mp h with rfl | h
      · rfl
      · exact ih h

theorem span_isAssistant {messages : List Message} {t : Turn} (ht : t ∈ (splitTurns messages).2) {m : Message}
    (h : m ∈ t.span) : m.isAssistant = false := by
  induction messages with
  | nil => cases ht
  | cons x rest ih =>
    cases x with
    | assistant a =>
      rcases mem_cons.mp ht with rfl | ht
      · exact preamble_isAssistant h
      · exact ih ht
    | _ => exact ih ht

theorem splitTurns_ofTurns {preamble : List Message} {turns : List Turn}
    (hpre : ∀ m ∈ preamble, m.isAssistant = false) (hspan : ∀ t ∈ turns, ∀ m ∈ t.span, m.isAssistant = false) :
    splitTurns (ofTurns preamble turns) = (preamble, turns) := by
  rw [ofTurns, splitTurns_append hpre]
  have hturns : splitTurns (turns.flatMap Turn.messages) = ([], turns) := by
    clear hpre
    induction turns with
    | nil => rfl
    | cons t turns ih =>
      have hrest := ih fun t ht => hspan t (mem_cons_of_mem _ ht)
      rw [flatMap_cons, Turn.messages, cons_append, splitTurns,
        splitTurns_append (hspan t (mem_cons_self ..)), hrest, append_nil]
  rw [hturns, append_nil]

/-- The turn that an assistant message starts. -/
theorem mem_turns_of_split {messages before after : List Message} {a : AssistantMessage}
    (h : messages = before ++ .assistant a :: after) : ⟨a, (splitTurns after).1⟩ ∈ (splitTurns messages).2 := by
  rw [h, splitTurns_assistant]
  exact mem_append_right _ (mem_cons_self ..)

/-- Where a turn is in its transcript. -/
theorem split_of_mem_turns {messages : List Message} {t : Turn} (h : t ∈ (splitTurns messages).2) :
    ∃ (before : List Message) (turns : List Turn), messages = before ++ .assistant t.assistant :: (t.span ++ turns.flatMap Turn.messages) := by
  obtain ⟨ts, turns, hturns⟩ := append_of_mem h
  refine ⟨ofTurns (splitTurns messages).1 ts, turns, ?_⟩
  conv_lhs => rw [← ofTurns_splitTurns messages]
  rw [hturns, ofTurns, flatMap_append, flatMap_cons, ofTurns, append_assoc]
  rfl

/-- The last assistant message and what follows it are determined. -/
theorem last_assistant_inj {before before' l l' : List Message} {a a' : AssistantMessage}
    (hl : ∀ m ∈ l, m.isAssistant = false) (hl' : ∀ m ∈ l', m.isAssistant = false)
    (h : before ++ .assistant a :: l = before' ++ .assistant a' :: l') : a = a' ∧ l = l' := by
  have hsplit := congrArg (fun messages => (splitTurns messages).2) h
  have hnil {l : List Message} (hl : ∀ m ∈ l, m.isAssistant = false) : splitTurns l = (l, []) := by
    have := splitTurns_append hl []
    rwa [append_nil, splitTurns, append_nil] at this
  simp only [splitTurns_assistant, hnil hl, hnil hl'] at hsplit
  have hlast := (append_inj' hsplit rfl).2
  obtain ⟨ha, hspan⟩ := Turn.mk.inj (List.cons.inj hlast).1
  exact ⟨ha, hspan⟩

/-! ### Runs of results -/

theorem resultRun_append_turns (span : List Message) (turns : List Turn) :
    resultRun (span ++ turns.flatMap Turn.messages) = resultRun span := by
  induction span with
  | nil => cases turns <;> rfl
  | cons m span ih =>
    cases m with
    | toolResult r => exact congrArg (r :: ·) ih
    | _ => rfl

theorem span_eq_run (span : List Message) :
    span = (resultRun span).map .toolResult ++ span.drop (resultRun span).length := by
  induction span with
  | nil => rfl
  | cons m span ih =>
    cases m with
    | toolResult r => exact congrArg (.toolResult r :: ·) ih
    | _ => rfl

theorem head_after_run (span : List Message) (m : Message) (rest : List Message)
    (h : span.drop (resultRun span).length = m :: rest) : m.isToolResult = false := by
  induction span with
  | nil => cases h
  | cons x span ih =>
    cases x with
    | toolResult r => exact ih h
    | _ => cases h; rfl

/-- A result with none after the run is in the run. -/
theorem mem_run_of_front {span l rest : List Message} {r : ToolResultMessage}
    (hfront : ∀ m ∈ span.drop (resultRun span).length, m.isToolResult = false)
    (h : span = l ++ .toolResult r :: rest) :
    r ∈ resultRun span ∧ ∃ results : List ToolResultMessage, l = results.map .toolResult := by
  subst h
  induction l with
  | nil => exact ⟨mem_cons_self .., [], rfl⟩
  | cons m l ih =>
    have hr : Message.toolResult r ∈ l ++ .toolResult r :: rest := mem_append_right _ (mem_cons_self ..)
    cases m with
    | toolResult r' =>
      obtain ⟨hmem, results, hl⟩ := ih hfront
      exact ⟨mem_cons_of_mem _ hmem, r' :: results, congrArg (.toolResult r' :: ·) hl⟩
    | _ => cases hfront _ (mem_cons_of_mem _ hr)

theorem answeredIn_iff (after : List Message) (id : String) :
    AnsweredIn after id ↔ some id ∈ (resultRun after).map extractToolResultId := by
  constructor
  · rintro ⟨results, r, rest, rfl, hid⟩
    rw [mem_map]
    refine ⟨r, ?_, hid⟩
    induction results with
    | nil => exact mem_cons_self ..
    | cons r' results ih => exact mem_cons_of_mem _ ih
  · intro h
    obtain ⟨r, hr, hid⟩ := mem_map.mp h
    obtain ⟨results, more, hrun⟩ := append_of_mem hr
    have hafter := span_eq_run after
    rw [hrun, map_append, append_assoc] at hafter
    exact ⟨results, r, _, hafter, hid⟩

/-! ### The transcript, turn by turn -/

/-- What holds of every assistant message and the results after it holds of every turn. -/
theorem forall_turns_iff (messages : List Message) (P : AssistantMessage → List ToolResultMessage → Prop) :
    (∀ before a after, messages = before ++ .assistant a :: after → P a (resultRun after)) ↔
      ∀ t ∈ (splitTurns messages).2, P t.assistant (resultRun t.span) := by
  constructor
  · intro h t ht
    obtain ⟨before, turns, hmessages⟩ := split_of_mem_turns ht
    have hturn := h before t.assistant _ hmessages
    rwa [resultRun_append_turns] at hturn
  · intro h before a after hmessages
    have hturn := h _ (mem_turns_of_split hmessages)
    rwa [← resultRun_append_turns, show (splitTurns after).1 ++ (splitTurns after).2.flatMap Turn.messages = after from
      ofTurns_splitTurns after] at hturn

theorem PairedTurn.of_placed {messages : List Message}
    (h : ∀ before r after, messages = before ++ .toolResult r :: after → FollowsItsCall before r) {t : Turn} (ht : t ∈ (splitTurns messages).2) :
    (∀ m ∈ t.span.drop (resultRun t.span).length, m.isToolResult = false) ∧
      ∀ r ∈ resultRun t.span, ∃ id ∈ t.assistant.toolCallIds, extractToolResultId r = some id := by
  obtain ⟨before, turns, hmessages⟩ := split_of_mem_turns ht
  have hresults (results : List ToolResultMessage) : ∀ m ∈ results.map Message.toolResult, m.isAssistant = false := by
    intro m hm
    obtain ⟨r, -, rfl⟩ := mem_map.mp hm
    rfl
  constructor
  · intro m hm
    cases m with
    | toolResult r =>
      obtain ⟨l, rest, hdrop⟩ := append_of_mem hm
      have hspan := span_eq_run t.span
      rw [hdrop, ← append_assoc] at hspan
      obtain ⟨before', a, results, hbefore, -⟩ := h (before ++ .assistant t.assistant ::
        ((resultRun t.span).map .toolResult ++ l)) r (rest ++ turns.flatMap Turn.messages) (by
          rw [hmessages]
          conv_lhs => rw [hspan]
          simp)
      have hl : ∀ m ∈ (resultRun t.span).map .toolResult ++ l, m.isAssistant = false := by
        intro m hm
        refine span_isAssistant ht ?_
        rw [hspan]
        exact mem_append_left _ hm
      have hrun := (last_assistant_inj hl (hresults results) hbefore).2
      -- the first message after the run is none of the results, and yet one of them
      cases l with
      | nil => cases head_after_run _ _ _ hdrop
      | cons x l =>
        have hx := head_after_run _ _ _ hdrop
        have hmem : x ∈ results.map Message.toolResult := by
          rw [← hrun]
          simp
        obtain ⟨r', -, rfl⟩ := mem_map.mp hmem
        cases hx
    | _ => rfl
  · intro r hr
    obtain ⟨results, more, hrun⟩ := append_of_mem hr
    have hspan := span_eq_run t.span
    rw [hrun] at hspan
    obtain ⟨before', a, results', hbefore, hid⟩ := h (before ++ .assistant t.assistant :: results.map .toolResult) r
      (more.map .toolResult ++ t.span.drop (results ++ r :: more).length ++ turns.flatMap Turn.messages) (by
        rw [hmessages]
        conv_lhs => rw [hspan]
        simp)
    rw [(last_assistant_inj (hresults results) (hresults results') hbefore).1]
    exact hid

theorem placed_of_turns {messages : List Message} (hpre : ∀ m ∈ (splitTurns messages).1, m.isToolResult = false)
    (hturns : ∀ t ∈ (splitTurns messages).2,
      (∀ m ∈ t.span.drop (resultRun t.span).length, m.isToolResult = false) ∧
        ∀ r ∈ resultRun t.span, ∃ id ∈ t.assistant.toolCallIds, extractToolResultId r = some id)
    {before after : List Message} {r : ToolResultMessage} (h : messages = before ++ .toolResult r :: after) :
    FollowsItsCall before r := by
  have hbefore := ofTurns_splitTurns before
  rcases eq_nil_or_concat (splitTurns before).2 with hnil | ⟨ts, t, hlast⟩
  · rw [hnil, ofTurns, flatMap_nil, append_nil] at hbefore
    have hnone : ∀ m ∈ before, m.isAssistant = false := fun m hm => preamble_isAssistant (hbefore.symm ▸ hm)
    have hsplit := splitTurns_append hnone (.toolResult r :: after)
    rw [← h] at hsplit
    have hmem : Message.toolResult r ∈ (splitTurns messages).1 := by
      rw [hsplit]
      exact mem_append_right _ (mem_cons_self ..)
    cases hpre _ hmem
  · rw [hlast, ofTurns, concat_eq_append, flatMap_append, flatMap_singleton, Turn.messages,
      ← append_assoc] at hbefore
    have hmessages : messages = ((splitTurns before).1 ++ ts.flatMap Turn.messages) ++ .assistant t.assistant ::
        (t.span ++ .toolResult r :: after) := by
      rw [h]
      conv_lhs => rw [← hbefore]
      simp
    have hturn := mem_turns_of_split hmessages
    have hspan : ∀ m ∈ t.span, m.isAssistant = false := fun m hm =>
      @span_isAssistant before t (by rw [hlast]; simp) m hm
    rw [splitTurns_append hspan] at hturn
    obtain ⟨hfront, hplaced⟩ := hturns _ hturn
    obtain ⟨hr, results, hresults⟩ := mem_run_of_front hfront rfl
    exact ⟨_, t.assistant, results, by rw [← hresults, hbefore], hplaced r hr⟩

/-- **A transcript is well paired turn by turn.** -/
theorem wellPaired_iff (messages : List Message) :
    WellPaired messages ↔
      (∀ m ∈ (splitTurns messages).1, m.isToolResult = false) ∧ ∀ t ∈ (splitTurns messages).2, PairedTurn t := by
  have honce := forall_turns_iff messages fun _ results => (results.map extractToolResultId).Nodup
  have hanswered := forall_turns_iff messages fun a results =>
    a.errored = false → ∀ id ∈ a.toolCallIds, some id ∈ results.map extractToolResultId
  constructor
  · intro h
    refine ⟨fun m hm => ?_, fun t ht => ?_⟩
    · cases m with
      | toolResult r =>
        obtain ⟨l, rest, hl⟩ := append_of_mem hm
        obtain ⟨before, a, results, rfl, -⟩ := h.placed l r (rest ++ (splitTurns messages).2.flatMap Turn.messages) (by
          conv_lhs => rw [← ofTurns_splitTurns messages, ofTurns, hl]
          simp)
        have ha : Message.assistant a ∈ (splitTurns messages).1 := by
          rw [hl]
          simp
        cases preamble_isAssistant ha
      | _ => rfl
    · obtain ⟨hfront, hplaced⟩ := PairedTurn.of_placed h.placed ht
      refine ⟨hfront, hplaced, honce.mp h.once t ht, hanswered.mp (fun before a after hm ha id hid => ?_) t ht⟩
      exact (answeredIn_iff after id).mp (h.answered before a after hm ha id hid)
  · rintro ⟨hpre, hturns⟩
    refine ⟨fun before r after => placed_of_turns hpre fun t ht => ⟨(hturns t ht).front, (hturns t ht).placed⟩,
      honce.mpr fun t ht => (hturns t ht).once, fun before a after hm ha id hid => (answeredIn_iff after id).mpr ?_⟩
    exact hanswered.mpr (fun t ht => (hturns t ht).answered) before a after hm ha id hid

end OpenClaw.Agents
