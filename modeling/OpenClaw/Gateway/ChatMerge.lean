import OpenClaw.Gateway.ChatRuns

/-! The text that the deltas of a run are put together to.

The handler keeps one buffer for a run, while each message counts its own text from nothing. To
find out what an event adds it compares texts: a text that begins with the buffer replaces it,
and what a delta repeats of the end of the buffer is not added. From the second message on both
may meet a text that is new (`Mistakable`); nothing puts back what such an event loses
(`lost_stays_lost`), so the deltas are all there exactly if none is met. -/
namespace OpenClaw.Gateway
open Foundation List

/-- The events of a message after the text `sofar`: the text until then, and what is new. -/
def messageEvents : String → List String → List (String × String)
  | _, [] => []
  | sofar, delta :: deltas => (sofar ++ delta, delta) :: messageEvents (sofar ++ delta) deltas

/-- The buffer after the events. -/
def bufferAfter (buffer : String) (events : List (String × String)) : String :=
  events.foldl (fun previousText e => resolveMergedAssistantText previousText e.1 e.2) buffer

/-- A run is a sequence of messages, a message a sequence of deltas. -/
def runEvents (messages : List (List String)) : List (String × String) := messages.flatMap (messageEvents "")

/-- The text ends with what the delta begins with. -/
def Overlaps (text delta : String) : Prop := ∃ s, s ≠ [] ∧ s <:+ text.toList ∧ s <+: delta.toList

/-- The delta cannot be told from a repeat: `before` is the text of the messages before, `sofar`
that of the delta's own message. -/
def Mistakable (before sofar delta : String) : Prop :=
  before ≠ "" ∧ (EcmaString.startsWith (sofar ++ delta) (before ++ sofar) = true ∨ Overlaps (before ++ sofar) delta)

/-- No delta of the message is mistakable. -/
def MessageClear (before : String) : String → List String → Prop
  | _, [] => True
  | sofar, delta :: deltas => ¬ Mistakable before sofar delta ∧ MessageClear before (sofar ++ delta) deltas

/-- No delta of the messages is. -/
def RunClear : String → List (List String) → Prop
  | _, [] => True
  | before, deltas :: messages => MessageClear before "" deltas ∧ RunClear (before ++ String.join deltas) messages

/-! ### One event -/

theorem startsWith_iff {s start : String} : EcmaString.startsWith s start = true ↔ start.toList <+: s.toList :=
  isPrefixOf_iff_prefix

theorem mem_overlaps {m o : Nat} : o ∈ (List.range m).map (m - ·) ↔ 0 < o ∧ o ≤ m := by
  rw [mem_map]
  constructor
  · rintro ⟨n, hn, rfl⟩
    rw [mem_range] at hn
    omega
  · exact fun h => ⟨m - o, mem_range.mpr (by omega), by omega⟩

/-- **A delta is added whole, or the text that comes out is shorter.** -/
theorem appendUniqueSuffix_length (base suffix : String) :
    (¬ Overlaps base suffix ∧ appendUniqueSuffix base suffix = base ++ suffix) ∨
      Overlaps base suffix ∧
        (appendUniqueSuffix base suffix).toList.length < base.toList.length + suffix.toList.length := by
  unfold appendUniqueSuffix
  split_ifs with hsuffix hbase hends
  · subst hsuffix
    exact .inl ⟨fun ⟨_, hne, _, hs⟩ => hne (prefix_nil.mp hs), (String.append_empty).symm⟩
  · subst hbase
    exact .inl ⟨fun ⟨_, hne, hs, _⟩ => hne (suffix_nil.mp hs), (String.empty_append).symm⟩
  · have hne : suffix.toList ≠ [] := fun h => hsuffix (String.toList_eq_nil_iff.mp h)
    have hpos := length_pos_iff.mpr hne
    exact .inr ⟨⟨suffix.toList, hne, isSuffixOf_iff_suffix.mp hends, prefix_rfl⟩, by omega⟩
  · dsimp only
    split
    · rename_i o hfound
      have hsame := find?_some hfound
      rw [decide_eq_true_eq] at hsame
      obtain ⟨hpos, hle⟩ := mem_overlaps.mp (mem_of_find?_eq_some hfound)
      have hlen : (suffix.toList.take o).length = o := by rw [length_take]; omega
      refine .inr ⟨⟨suffix.toList.take o, ?_, hsame ▸ drop_suffix .., take_prefix ..⟩, ?_⟩
      · exact fun hnil => by rw [hnil] at hlen; exact absurd hlen.symm (by simpa using Nat.pos_iff_ne_zero.mp hpos)
      · rw [String.toList_ofList, length_append, length_drop]
        omega
    · rename_i hnone
      refine .inl ⟨fun ⟨s, hne, hbase, hdelta⟩ => ?_, rfl⟩
      have hpos := length_pos_iff.mpr hne
      have hdiffer := find?_eq_none.mp hnone s.length
        (mem_overlaps.mpr ⟨hpos, le_min hbase.length_le hdelta.length_le⟩)
      refine hdiffer (decide_eq_true ?_)
      rw [← suffix_iff_eq_drop.mp hbase, ← prefix_iff_eq_take.mp hdelta]

section Delta
variable {before sofar delta : String} (hdelta : delta ≠ "")
include hdelta

theorem text_ne_empty : sofar ++ delta ≠ "" := by
  rw [ne_eq, String.append_eq_empty_iff]
  exact fun h => hdelta h.2

theorem resolve_eq (buffer : String) : resolveMergedAssistantText buffer (sofar ++ delta) delta =
    if buffer ≠ "" ∧ EcmaString.startsWith (sofar ++ delta) buffer = true then sofar ++ delta
    else appendUniqueSuffix buffer delta := by
  have htext : sofar ++ delta ≠ "" := text_ne_empty hdelta
  rw [resolveMergedAssistantText]
  simp only [ne_eq, htext, not_false_eq_true, true_and, hdelta, and_false, if_false, if_true]

/-- **An event of which the buffer has the text before adds its delta, unless it is mistakable.** -/
theorem resolve_delta :
    (¬ Mistakable before sofar delta ∧
        resolveMergedAssistantText (before ++ sofar) (sofar ++ delta) delta = before ++ sofar ++ delta) ∨
      Mistakable before sofar delta ∧
        (resolveMergedAssistantText (before ++ sofar) (sofar ++ delta) delta).toList.length <
          (before ++ sofar ++ delta).toList.length := by
  rw [resolve_eq hdelta]
  by_cases hbefore : before = ""
  · subst hbefore
    refine .inl ⟨fun h => h.1 rfl, ?_⟩
    rw [String.empty_append]
    by_cases hsofar : sofar = ""
    · subst hsofar
      rw [if_neg (fun h => h.1 rfl), appendUniqueSuffix, if_neg hdelta, if_pos rfl, String.empty_append]
    · exact if_pos ⟨hsofar, startsWith_iff.mpr (by simp)⟩
  · have hbuffer : before ++ sofar ≠ "" := fun h => hbefore (String.append_eq_empty_iff.mp h).1
    have hpos : 0 < before.toList.length :=
      length_pos_iff.mpr fun h => hbefore (String.toList_eq_nil_iff.mp h)
    by_cases hstarts : EcmaString.startsWith (sofar ++ delta) (before ++ sofar) = true
    · rw [if_pos ⟨hbuffer, hstarts⟩]
      refine .inr ⟨⟨hbefore, .inl hstarts⟩, ?_⟩
      simp only [String.toList_append, length_append]
      omega
    · rw [if_neg fun h => hstarts h.2]
      rcases appendUniqueSuffix_length (before ++ sofar) delta with ⟨hnone, heq⟩ | ⟨hoverlaps, hlt⟩
      · exact .inl ⟨fun h => h.2.elim hstarts hnone, heq⟩
      · refine .inr ⟨⟨hbefore, .inr hoverlaps⟩, ?_⟩
        rwa [String.toList_append, length_append]

/-- **A buffer that is too short stays too short.** -/
theorem lost_stays_lost {buffer : String} (hbefore : before ≠ "")
    (h : buffer.toList.length < (before ++ sofar).toList.length) :
    (resolveMergedAssistantText buffer (sofar ++ delta) delta).toList.length <
      (before ++ sofar ++ delta).toList.length := by
  have hpos : 0 < before.toList.length := length_pos_iff.mpr fun h => hbefore (String.toList_eq_nil_iff.mp h)
  rw [resolve_eq hdelta]
  simp only [String.toList_append, length_append] at h ⊢
  split_ifs
  · rw [String.toList_append, length_append]
    omega
  · rcases appendUniqueSuffix_length buffer delta with ⟨-, heq⟩ | ⟨-, hlt⟩
    · rw [heq, String.toList_append, length_append]
      omega
    · omega

end Delta

/-! ### A message, and a run -/

/-- What a buffer has kept of a text: all of it, or a part only. -/
def Kept (buffer text : String) (clear : Prop) : Prop :=
  (clear ∧ buffer = text) ∨ ¬ clear ∧ buffer.toList.length < text.toList.length

theorem bufferAfter_cons (buffer : String) (e : String × String) (events : List (String × String)) :
    bufferAfter buffer (e :: events) = bufferAfter (resolveMergedAssistantText buffer e.1 e.2) events := rfl

theorem bufferAfter_append (buffer : String) (events others : List (String × String)) :
    bufferAfter buffer (events ++ others) = bufferAfter (bufferAfter buffer events) others := foldl_append

theorem message_lost {before sofar buffer : String} {deltas : List String} (hdeltas : ∀ d ∈ deltas, d ≠ "")
    (hbefore : before ≠ "") (h : buffer.toList.length < (before ++ sofar).toList.length) :
    (bufferAfter buffer (messageEvents sofar deltas)).toList.length <
      (before ++ sofar ++ String.join deltas).toList.length := by
  induction deltas generalizing buffer sofar with
  | nil => rwa [String.join_nil, String.append_empty]
  | cons delta deltas ih =>
    rw [forall_mem_cons] at hdeltas
    rw [messageEvents, bufferAfter_cons, String.join_cons, ← String.append_assoc, @String.append_assoc before sofar delta]
    exact ih hdeltas.2 (by rw [← String.append_assoc]; exact lost_stays_lost hdeltas.1 hbefore h)

/-- **A message is kept if none of its deltas is mistakable, and otherwise a part only.** -/
theorem message_kept {before sofar : String} {deltas : List String} (hdeltas : ∀ d ∈ deltas, d ≠ "") :
    Kept (bufferAfter (before ++ sofar) (messageEvents sofar deltas)) (before ++ sofar ++ String.join deltas)
      (MessageClear before sofar deltas) := by
  induction deltas generalizing sofar with
  | nil => exact .inl ⟨trivial, String.append_empty.symm⟩
  | cons delta deltas ih =>
    rw [forall_mem_cons] at hdeltas
    rw [messageEvents, bufferAfter_cons, String.join_cons, ← String.append_assoc, @String.append_assoc before sofar delta]
    rcases @resolve_delta before sofar delta hdeltas.1 with ⟨hclear, heq⟩ | ⟨hmistakable, hlt⟩
    · rw [heq, String.append_assoc]
      rcases @ih (sofar ++ delta) hdeltas.2 with ⟨hrest, hkept⟩ | ⟨hrest, hkept⟩
      · exact .inl ⟨⟨hclear, hrest⟩, hkept⟩
      · exact .inr ⟨fun h => hrest h.2, hkept⟩
    · refine .inr ⟨fun h => h.1 hmistakable, message_lost hdeltas.2 hmistakable.1 ?_⟩
      rwa [String.append_assoc] at hlt

theorem run_lost {before buffer : String} {messages : List (List String)} (hdeltas : ∀ m ∈ messages, ∀ d ∈ m, d ≠ "")
    (hbefore : before ≠ "") (h : buffer.toList.length < before.toList.length) :
    (bufferAfter buffer (runEvents messages)).toList.length <
      (before ++ String.join (messages.map String.join)).toList.length := by
  induction messages generalizing before buffer with
  | nil => rwa [map_nil, String.join_nil, String.append_empty]
  | cons m messages ih =>
    rw [forall_mem_cons] at hdeltas
    have hmessage := @message_lost before "" buffer m hdeltas.1 hbefore (by rwa [String.append_empty])
    rw [String.append_empty] at hmessage
    rw [runEvents, flatMap_cons, bufferAfter_append, map_cons, String.join_cons, ← String.append_assoc]
    exact ih hdeltas.2 (fun hnil => hbefore (String.append_eq_empty_iff.mp hnil).1) hmessage

theorem run_kept {before : String} {messages : List (List String)} (hdeltas : ∀ m ∈ messages, ∀ d ∈ m, d ≠ "") :
    Kept (bufferAfter before (runEvents messages)) (before ++ String.join (messages.map String.join))
      (RunClear before messages) := by
  induction messages generalizing before with
  | nil => exact .inl ⟨trivial, String.append_empty.symm⟩
  | cons m messages ih =>
    rw [forall_mem_cons] at hdeltas
    have hmessage := @message_kept before "" m hdeltas.1
    rw [String.append_empty] at hmessage
    rw [runEvents, flatMap_cons, bufferAfter_append, map_cons, String.join_cons, ← String.append_assoc]
    rcases hmessage with ⟨hclear, heq⟩ | ⟨hnot, hlt⟩
    · rw [heq]
      rcases @ih (before ++ String.join m) hdeltas.2 with ⟨hrest, hkept⟩ | ⟨hrest, hkept⟩
      · exact .inl ⟨⟨hclear, hrest⟩, hkept⟩
      · exact .inr ⟨fun h => hrest h.2, hkept⟩
    · have hne : before ++ String.join m ≠ "" := fun hnil => by
        rw [hnil] at hlt
        exact absurd hlt (Nat.not_lt_zero _)
      exact .inr ⟨fun h => hnot h.1, run_lost hdeltas.2 hne hlt⟩

/-- **The buffer of a run ends as the text of all its deltas exactly if none is mistakable.** -/
theorem run_reassembled_iff (messages : List (List String)) (hdeltas : ∀ m ∈ messages, ∀ d ∈ m, d ≠ "") :
    bufferAfter "" (runEvents messages) = String.join (messages.map String.join) ↔ RunClear "" messages := by
  have hkept := @run_kept "" messages hdeltas
  rw [String.empty_append] at hkept
  rcases hkept with ⟨hclear, heq⟩ | ⟨hnot, hlt⟩
  · exact iff_of_true heq hclear
  · exact iff_of_false (fun heq => absurd hlt (by rw [heq]; exact lt_irrefl _)) hnot

/-- A tool call between two messages. -/
theorem run_reassembled_tool_call : RunClear "" [["Before", " the call."], [" Done", "."]] :=
  (run_reassembled_iff [["Before", " the call."], [" Done", "."]] (by decide)).mp (by decide)

/-- The second message begins like the first, and the first is gone; its second delta repeats
its first, and is gone. -/
theorem repeated_text_is_lost :
    bufferAfter "" (runEvents [["Yes"], ["Yes", ", done"]]) = "Yes, done" ∧
      String.join ([["Yes"], ["Yes", ", done"]].map String.join) = "YesYes, done" ∧
      bufferAfter "" (runEvents [["Well,"], [" ha", "ha"]]) = "Well, ha" ∧
      String.join ([["Well,"], [" ha", "ha"]].map String.join) = "Well, haha" := by
  decide

end OpenClaw.Gateway
