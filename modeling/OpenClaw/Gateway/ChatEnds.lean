import OpenClaw.Gateway.ChatRuns

/-! How chat runs end.

`Tidy` is what holds between events: entries are kept of runs only that have not
ended, a run whose client knows it by another id stays registered until it ends, an
aborted run has no controller and no broadcast length, and nothing is broadcast of a
run after a terminal event. An event that ends a run clears every entry of it
(`EndsRun`), unless the run is hidden from clients or has no session key, and what is
aborted after its end is reported, and kept, once more. -/
namespace OpenClaw.Gateway
open Foundation List InsertionMap Option

variable {host : ChatTextHost} {names : RunNames}

/-! ### Names -/

theorem RunNames.run_unique {runId runId' client : String} (h : names.clientOf runId = some client)
    (h' : names.clientOf runId' = some client) : runId = runId' := by
  have hrun := (names.runOf_eq runId client).mpr h
  rw [(names.runOf_eq runId' client).mpr h'] at hrun
  exact (Option.some.inj hrun).symm

/-! ### What holds between events -/

/-- Nothing is broadcast of a run after a terminal event. -/
def TerminalLast (broadcasts : List ChatBroadcast) : Prop :=
  broadcasts.Pairwise fun b later => b.state.isTerminal = true → later.runId ≠ b.runId

structure Tidy (names : RunNames) (s : ChatGateway) : Prop where
  links : ∀ runId queue, s.chatRunState.registry.get? runId = some queue → ∃ entry, queue = [entry] ∧
    names.clientOf runId = some entry.clientRunId ∧ runId ∈ s.registered ∧ runId ∉ s.ended
  linked : ∀ runId ∈ s.registered, runId ∉ s.ended → ∀ client, names.clientOf runId = some client →
    client ≠ runId → (s.chatRunState.registry.get? runId).isSome
  controllers : ∀ client, (s.chatAbortControllers.get? client).isSome →
    client ∈ s.controlled ∧ (names.runOf client).isSome
  aborted : ∀ client, (s.chatRunState.abortedRuns.get? client).isSome → client ∈ s.controlled ∧
    s.chatAbortControllers.get? client = none ∧ s.chatRunState.deltaLastBroadcastLen.get? client = none
  live : ∀ client, (s.chatRunState.buffers.get? client).isSome ∨ (s.chatRunState.deltaSentAt.get? client).isSome ∨
    (s.chatRunState.deltaLastBroadcastLen.get? client).isSome ∨ (s.chatRunState.abortedRuns.get? client).isSome →
    ∃ runId, names.clientOf runId = some client ∧ runId ∉ s.ended
  reported : ∀ b ∈ s.broadcasts, b.state.isTerminal = true → (s.chatRunState.abortedRuns.get? b.runId).isSome ∨
    ∃ runId, names.clientOf runId = some b.runId ∧ runId ∈ s.ended
  last : TerminalLast s.broadcasts

theorem tidy_empty : Tidy names {} := by
  refine ⟨?_, ?_, ?_, ?_, ?_, ?_, List.Pairwise.nil⟩ <;> simp

theorem terminalLast_append {broadcasts more : List ChatBroadcast} (h : TerminalLast broadcasts)
    (hmore : TerminalLast more) {client : String} (hid : ∀ b ∈ more, b.runId = client)
    (hopen : ∀ b ∈ broadcasts, b.state.isTerminal = true → b.runId ≠ client) : TerminalLast (broadcasts ++ more) := by
  refine pairwise_append.mpr ⟨h, hmore, fun b hb later hlater hterminal heq => ?_⟩
  exact hopen b hb hterminal (heq.symm.trans (hid later hlater))

section Tidy
variable {s : ChatGateway} {runId client : String}

/-- Of a run that has not ended and is not aborted no terminal event was broadcast. -/
theorem Tidy.no_terminal (hs : Tidy names s) (hname : names.clientOf runId = some client) (hrun : runId ∉ s.ended)
    (haborted : s.chatRunState.abortedRuns.get? client = none) :
    ∀ b ∈ s.broadcasts, b.state.isTerminal = true → b.runId ≠ client := by
  rintro b hb hterminal rfl
  rcases hs.reported b hb hterminal with h | ⟨runId', hname', hended⟩
  · rw [haborted] at h
    cases h
  · exact hrun (names.run_unique hname hname' ▸ hended)

/-- The registration of a run, if there is one, is its own. -/
theorem Tidy.peek_eq (hs : Tidy names s) (runId : String) :
    ((s.chatRunState.registry.get? runId = none ∧ s.chatRunState.registry.peek runId = none) ∨
      ∃ entry, s.chatRunState.registry.get? runId = some [entry] ∧
        s.chatRunState.registry.peek runId = some entry ∧ names.clientOf runId = some entry.clientRunId) := by
  unfold ChatRunRegistry.peek
  cases hget : s.chatRunState.registry.get? runId with
  | none => exact .inl ⟨rfl, rfl⟩
  | some queue =>
    obtain ⟨entry, rfl, hname, -, -⟩ := hs.links runId queue hget
    exact .inr ⟨entry, rfl, rfl, hname⟩

section
variable (hs : Tidy names s) (hname : names.clientOf runId = some client)
include hs hname

/-- Aborts are recorded by client run ids. -/
theorem Tidy.client_of_aborted (h : (s.chatRunState.abortedRuns.get? runId).isSome) : runId = client := by
  obtain ⟨runId', hname', -⟩ := hs.live runId (.inr (.inr (.inr h)))
  have heq : runId = runId' := names.apart runId' runId hname' (by rw [hname]; rfl)
  subst heq
  rw [hname] at hname'
  exact (Option.some.inj hname').symm

/-- The buffer of a run that has not ended. -/
theorem Tidy.buffer (hrun : runId ∉ s.ended) (text : String) :
    Tidy names {s with chatRunState.buffers := s.chatRunState.buffers.set client text} := by
  refine ⟨hs.links, hs.linked, hs.controllers, hs.aborted, fun client' h => ?_, hs.reported, hs.last⟩
  by_cases heq : client' = client
  · subst heq
    exact ⟨runId, hname, hrun⟩
  · rw [get?_set_ne _ heq] at h
    exact hs.live client' h

/-- A delta of a run that has not ended and is not aborted. -/
theorem Tidy.sendDelta (hrun : runId ∉ s.ended) (haborted : s.chatRunState.abortedRuns.get? client = none)
    {b : ChatBroadcast} (hid : b.runId = client) (hdelta : b.state = .delta) (now length : Nat) :
    Tidy names (s.sendDelta now b length) := by
  subst hid
  refine ⟨hs.links, hs.linked, hs.controllers, fun client' h => ?_, fun client' h => ?_, fun b' hb' hterminal => ?_, ?_⟩
  · obtain ⟨hcontrolled, hcontroller, hlength⟩ := hs.aborted client' h
    refine ⟨hcontrolled, hcontroller, ?_⟩
    have hne : client' ≠ b.runId := by
      rintro rfl
      have h' : (s.chatRunState.abortedRuns.get? b.runId).isSome := h
      rw [haborted] at h'
      cases h'
    exact (get?_set_ne _ hne _).trans hlength
  · by_cases heq : client' = b.runId
    · exact ⟨runId, heq ▸ hname, hrun⟩
    · simp only [ChatGateway.sendDelta, get?_set_ne _ heq] at h
      exact hs.live client' h
  · rcases mem_append.mp hb' with hb' | hb'
    · exact hs.reported b' hb' hterminal
    · rw [mem_singleton.mp hb', hdelta] at hterminal
      cases hterminal
  · refine terminalLast_append hs.last (pairwise_singleton _ _) ?_ (hs.no_terminal hname hrun haborted)
    simp

end

end Tidy

/-! ### Events -/

/-- A run ends: every entry of it is gone, and what is broadcast of it ends the log. -/
structure EndsRun (runId client : String) (s t : ChatGateway) : Prop where
  buffers : ∀ k, t.chatRunState.buffers.get? k = if k = client then none else s.chatRunState.buffers.get? k
  deltaSentAt : ∀ k, t.chatRunState.deltaSentAt.get? k =
    if k = client then none else s.chatRunState.deltaSentAt.get? k
  deltaLastBroadcastLen : ∀ k, t.chatRunState.deltaLastBroadcastLen.get? k =
    if k = client then none else s.chatRunState.deltaLastBroadcastLen.get? k
  abortedRuns : ∀ k, t.chatRunState.abortedRuns.get? k =
    if k = client then none else s.chatRunState.abortedRuns.get? k
  registry : ∀ k, t.chatRunState.registry.get? k = if k = runId then none else s.chatRunState.registry.get? k
  controllers : t.chatAbortControllers = s.chatAbortControllers
  registered : t.registered = s.registered
  controlled : t.controlled = s.controlled
  ended : t.ended = s.ended ++ [runId]
  broadcasts : ∃ more, t.broadcasts = s.broadcasts ++ more ∧ (∀ b ∈ more, b.runId = client) ∧ TerminalLast more ∧
    (more ≠ [] → s.chatRunState.abortedRuns.get? client = none)

theorem EndsRun.tidy {s t : ChatGateway} {runId client : String} (h : EndsRun runId client s t) (hs : Tidy names s)
    (hname : names.clientOf runId = some client) (hrun : runId ∉ s.ended) : Tidy names t := by
  refine ⟨fun k queue hk => ?_, fun k hk hended c hc hne => ?_, fun c hc => ?_, fun c hc => ?_, fun c hc => ?_,
    fun b hb hterminal => ?_, ?_⟩
  · rw [h.registry] at hk
    split_ifs at hk with heq
    obtain ⟨entry, rfl, hentry, hregistered, hended⟩ := hs.links k queue hk
    refine ⟨entry, rfl, hentry, h.registered ▸ hregistered, ?_⟩
    rw [h.ended]
    simp [hended, heq]
  · rw [h.ended, mem_append, mem_singleton, not_or] at hended
    rw [h.registry, if_neg hended.2]
    exact hs.linked k (h.registered ▸ hk) hended.1 c hc hne
  · rw [h.controllers] at hc
    exact h.controlled ▸ hs.controllers c hc
  · rw [h.abortedRuns] at hc
    split_ifs at hc with heq
    · cases hc
    · rw [h.controllers, h.controlled, h.deltaLastBroadcastLen, if_neg heq]
      exact hs.aborted c hc
  · rw [h.buffers, h.deltaSentAt, h.deltaLastBroadcastLen, h.abortedRuns] at hc
    by_cases heq : c = client
    · simp [heq] at hc
    · simp only [if_neg heq] at hc
      obtain ⟨k, hk, hended⟩ := hs.live c hc
      refine ⟨k, hk, ?_⟩
      rw [h.ended, mem_append, mem_singleton, not_or]
      refine ⟨hended, ?_⟩
      rintro rfl
      rw [hname] at hk
      exact heq (Option.some.inj hk).symm
  · obtain ⟨more, hmore, hid, -, -⟩ := h.broadcasts
    rw [hmore, mem_append] at hb
    rw [h.ended, h.abortedRuns]
    rcases hb with hb | hb
    · by_cases heq : b.runId = client
      · exact .inr ⟨runId, heq ▸ hname, by simp⟩
      · rw [if_neg heq]
        refine (hs.reported b hb hterminal).imp_right ?_
        rintro ⟨k, hk, hended⟩
        exact ⟨k, hk, mem_append_left _ hended⟩
    · exact .inr ⟨runId, hid b hb ▸ hname, by simp⟩
  · obtain ⟨more, hmore, hid, hlast, haborted⟩ := h.broadcasts
    rw [hmore]
    by_cases hnil : more = []
    · rw [hnil, append_nil]
      exact hs.last
    · exact terminalLast_append hs.last hlast hid (hs.no_terminal hname hrun (haborted hnil))

theorem flush_cases (host : ChatTextHost) (view : AgentRunView) (now : Nat) (s : ChatGateway)
    (sessionKey client : String) (seq : Nat) : s.flushBufferedChatDeltaIfNeeded host view now sessionKey client seq = s ∨
    ∃ b length, b.runId = client ∧ b.state = .delta ∧
      s.flushBufferedChatDeltaIfNeeded host view now sessionKey client seq = s.sendDelta now b length := by
  unfold ChatGateway.flushBufferedChatDeltaIfNeeded
  generalize s.resolveBufferedChatTextState host view client = state
  dsimp only
  split_ifs
  · exact .inl rfl
  · exact .inl rfl
  · exact .inr ⟨_, _, rfl, rfl, rfl⟩

theorem emitChatDelta_cases (host : ChatTextHost) (view : AgentRunView) (now : Nat) (s : ChatGateway)
    (sessionKey client : String) (seq : Nat) (text : String) (delta : Option String) :
    s.emitChatDelta host view now sessionKey client seq text delta = s ∨ ∃ merged,
      let buffered := {s with chatRunState.buffers := s.chatRunState.buffers.set client merged}
      s.emitChatDelta host view now sessionKey client seq text delta = buffered ∨
      ∃ b length, b.runId = client ∧ b.state = .delta ∧
        s.emitChatDelta host view now sessionKey client seq text delta = buffered.sendDelta now b length := by
  unfold ChatGateway.emitChatDelta
  dsimp only
  split_ifs
  · exact .inl rfl
  · exact .inr ⟨_, .inl rfl⟩
  · exact .inr ⟨_, .inl rfl⟩
  · exact .inr ⟨_, .inl rfl⟩
  · exact .inr ⟨_, .inl rfl⟩
  · exact .inr ⟨_, .inr ⟨_, _, rfl, rfl, rfl⟩⟩

/-- What a final report does, up to a delta flushed before it. -/
theorem emitChatFinal_eq (host : ChatTextHost) (view : AgentRunView) (now : Nat) (s : ChatGateway)
    (sessionKey client : String) (seq : Nat) (jobState : ChatGateway.JobState) (error stopReason : Option String) :
    ∃ sentAt lastLen more, s.emitChatFinal host view now sessionKey client seq jobState error stopReason =
      {s with
        chatRunState.buffers := s.chatRunState.buffers.erase client
        chatRunState.deltaSentAt := sentAt
        chatRunState.deltaLastBroadcastLen := lastLen
        broadcasts := s.broadcasts ++ more} ∧
      (∀ k, sentAt.get? k = if k = client then none else s.chatRunState.deltaSentAt.get? k) ∧
      (∀ k, lastLen.get? k = if k = client then none else s.chatRunState.deltaLastBroadcastLen.get? k) ∧
      (∀ b ∈ more, b.runId = client) ∧ TerminalLast more := by
  have hset : ∀ {α : Type} (m : InsertionMap String α) (v : α) (k : String),
      ((m.set client v).erase client).get? k = if k = client then none else m.get? k := by
    intro α m v k
    rw [get?_erase, get?_set]
    split_ifs <;> rfl
  obtain ⟨b, hid, hfinal⟩ : ∃ b : ChatBroadcast, b.runId = client ∧
      s.emitChatFinal host view now sessionKey client seq jobState error stopReason =
        ChatGateway.broadcast b
          (let flushed := s.flushBufferedChatDeltaIfNeeded host view now sessionKey client seq
          {flushed with
            chatRunState.deltaLastBroadcastLen := flushed.chatRunState.deltaLastBroadcastLen.erase client
            chatRunState.buffers := flushed.chatRunState.buffers.erase client
            chatRunState.deltaSentAt := flushed.chatRunState.deltaSentAt.erase client}) := by
    cases jobState
    · exact ⟨_, rfl, rfl⟩
    · exact ⟨_, rfl, rfl⟩
  rw [hfinal]
  rcases flush_cases host view now s sessionKey client seq with hflush | ⟨d, length, hdid, hdelta, hflush⟩
  · rw [hflush]
    refine ⟨_, _, [b], rfl, fun k => get?_erase _ _ _, fun k => get?_erase _ _ _, ?_,
      pairwise_singleton _ _⟩
    simpa using hid
  · rw [hflush]
    subst hdid
    refine ⟨_, _, [d, b], ?_, fun k => hset _ now k, fun k => hset _ length k, ?_, ?_⟩
    · simp [ChatGateway.broadcast, ChatGateway.sendDelta]
    · simpa using hid
    · refine pairwise_pair.mpr fun hterminal => ?_
      rw [hdelta] at hterminal
      cases hterminal

/-! ### Steps -/

/-- Nothing is kept of a run. -/
def ChatRunState.holdsNothing (runId client : String) (chat : ChatRunState) : Bool :=
  (chat.buffers.get? client).isNone && (chat.deltaSentAt.get? client).isNone &&
    (chat.deltaLastBroadcastLen.get? client).isNone && (chat.abortedRuns.get? client).isNone &&
    (chat.registry.get? runId).isNone

/-- If the step reports the end of a run, the run is shown to clients and has a session
key, or nothing is kept of it; if it aborts a run, the run has not ended. -/
def endsCleanly (names : RunNames) : ChatEvent → ChatGateway → Bool
  | .agentEvent view _ evt, s => !evt.isEnd || (view.isControlUiVisible && (s.sessionKeyOf view evt).isSome) ||
      s.chatRunState.holdsNothing evt.runId (s.clientRunIdOf evt)
  | .abort runId sessionKey _ _, s =>
    (s.chatAbortControllers.get? runId).all (fun active => active.sessionKey ≠ sessionKey) ||
      (names.runOf runId).all (fun run => run ∉ s.ended)
  | _, _ => true

abbrev EndsCleanly (names : RunNames) (e : ChatEvent) (s : ChatGateway) : Prop := endsCleanly names e s = true

section Events
variable {view : AgentRunView} {now : Nat} {s : ChatGateway} {evt : AgentEvent} {client : String}

/-- The handler knows a run by the id its clients do. -/
theorem Tidy.clientRunIdOf (hs : Tidy names s) (hrun : evt.runId ∉ s.ended)
    (hevt : names.clientOf evt.runId = some evt.runId ∨
      (names.clientOf evt.runId).isSome ∧ evt.runId ∈ s.registered) :
    names.clientOf evt.runId = some (s.clientRunIdOf evt) := by
  unfold ChatGateway.clientRunIdOf
  rcases hs.peek_eq evt.runId with ⟨hget, hpeek⟩ | ⟨entry, -, hpeek, hname⟩
  · rw [hpeek]
    rcases hevt with h | ⟨hsome, hregistered⟩
    · exact h
    · obtain ⟨c, hc⟩ := isSome_iff_exists.mp hsome
      by_cases heq : c = evt.runId
      · exact heq ▸ hc
      · have hlinked := hs.linked evt.runId hregistered hrun c hc heq
        rw [hget] at hlinked
        cases hlinked
  · rw [hpeek]
    exact hname

theorem Tidy.not_aborted (h : s.isAborted evt = false) : s.chatRunState.abortedRuns.get? (s.clientRunIdOf evt) = none := by
  simpa using (Bool.or_eq_false_iff.mp h).1

theorem Tidy.flushBeforeStart (hs : Tidy names s) (hrun : evt.runId ∉ s.ended)
    (hname : names.clientOf evt.runId = some (s.clientRunIdOf evt)) :
    Tidy names (s.flushBeforeStart host view now evt) := by
  unfold ChatGateway.flushBeforeStart
  split_ifs with hstart
  · have haborted : s.isAborted evt = false := by simpa using hstart.2.2.2
    cases hkey : s.sessionKeyOf view evt with
    | none => exact hs
    | some sessionKey =>
      rcases flush_cases host view now s sessionKey (s.clientRunIdOf evt) evt.seq with hflush | ⟨b, length, hid, hdelta, hflush⟩
      · simp only [hflush]
        exact hs
      · simp only [hflush]
        exact hs.sendDelta hname hrun (Tidy.not_aborted haborted) hid hdelta now length
  · exact hs

/-- Flushing changes no entry an event is read by. -/
theorem flushBeforeStart_frame (host : ChatTextHost) (view : AgentRunView) (now : Nat) (s : ChatGateway)
    (evt : AgentEvent) :
    (s.flushBeforeStart host view now evt).chatRunState.registry = s.chatRunState.registry ∧
    (s.flushBeforeStart host view now evt).ended = s.ended := by
  unfold ChatGateway.flushBeforeStart
  split_ifs
  · cases hkey : s.sessionKeyOf view evt with
    | none => exact ⟨rfl, rfl⟩
    | some sessionKey =>
      rcases flush_cases host view now s sessionKey (s.clientRunIdOf evt) evt.seq with hflush | ⟨b, length, -, -, hflush⟩
      · simp [hflush]
      · simp [hflush, ChatGateway.sendDelta]
  · exact ⟨rfl, rfl⟩

theorem Tidy.reportChat (hs : Tidy names s) (hend : evt.isEnd = false) (hrun : evt.runId ∉ s.ended)
    (hname : names.clientOf evt.runId = some (s.clientRunIdOf evt)) : Tidy names (s.reportChat host view now evt) := by
  unfold ChatGateway.reportChat
  cases hkey : s.sessionKeyOf view evt with
  | none => exact hs
  | some sessionKey =>
    dsimp only
    by_cases hvisible : view.isControlUiVisible = false
    · rw [if_pos hvisible]
      exact hs
    · rw [if_neg hvisible]
      split
      · rename_i text _ _
        split_ifs with haborted
        · exact hs
        · have haborted' := Tidy.not_aborted (by simpa using haborted)
          rcases emitChatDelta_cases host view now s sessionKey (s.clientRunIdOf evt) evt.seq text evt.delta with
            h | ⟨merged, h | ⟨b, length, hid, hdelta, h⟩⟩
          · rw [h]
            exact hs
          · rw [h]
            exact hs.buffer hname hrun merged
          · rw [h]
            exact (hs.buffer hname hrun merged).sendDelta hname hrun haborted' hid hdelta now length
      · simp only [hend, Bool.false_eq_true, if_false]
        exact hs

/-- A run that is reported ends. -/
theorem finishRun_ends (hs : Tidy names s) (haborted : s.isAborted evt = false) (sessionKey : String) :
    EndsRun evt.runId (s.clientRunIdOf evt) s
      {s.finishRun host view now evt sessionKey with
        ended := (s.finishRun host view now evt sessionKey).ended ++ [evt.runId]} := by
  have hnone := Tidy.not_aborted haborted
  have hkept : ∀ k, s.chatRunState.abortedRuns.get? k =
      if k = s.clientRunIdOf evt then none else s.chatRunState.abortedRuns.get? k := by
    intro k
    split_ifs with h
    · rw [h, hnone]
    · rfl
  unfold ChatGateway.finishRun
  rcases hs.peek_eq evt.runId with ⟨hget, hpeek⟩ | ⟨entry, hget, hpeek, -⟩
  · rw [hpeek]
    obtain ⟨sentAt, lastLen, more, heq, hsent, hlen, hid, hlast⟩ := emitChatFinal_eq host view now s sessionKey
      (s.clientRunIdOf evt) evt.seq (if evt.phase = some "error" then .error else .done) evt.error evt.stopReason
    dsimp only
    rw [heq]
    refine ⟨fun k => get?_erase _ _ _, hsent, hlen, hkept, fun k => ?_, rfl, rfl, rfl, rfl,
      more, rfl, hid, hlast, fun _ => hnone⟩
    split_ifs with h
    · exact h ▸ hget
    · rfl
  · have hclient : s.clientRunIdOf evt = entry.clientRunId := by simp [ChatGateway.clientRunIdOf, hpeek]
    have hshift : ChatRunRegistry.shift s.chatRunState.registry evt.runId =
        (some entry, s.chatRunState.registry.erase evt.runId) := by
      simp [ChatRunRegistry.shift, hget, ChatRunRegistry.setQueue]
    obtain ⟨sentAt, lastLen, more, heq, hsent, hlen, hid, hlast⟩ := emitChatFinal_eq host view now
      {s with chatRunState.registry := s.chatRunState.registry.erase evt.runId} entry.sessionKey
      (s.clientRunIdOf evt) evt.seq (if evt.phase = some "error" then .error else .done) evt.error evt.stopReason
    rw [hpeek]
    rw [hshift]
    dsimp only
    rw [← hclient, heq]
    exact ⟨fun k => get?_erase _ _ _, hsent, hlen, hkept, fun k => get?_erase _ _ _, rfl, rfl,
      rfl, rfl, more, rfl, hid, hlast, fun _ => hnone⟩

/-- So does one that was aborted. -/
theorem finishAborted_ends (hs : Tidy names s) (hname : names.clientOf evt.runId = some (s.clientRunIdOf evt))
    (haborted : s.isAborted evt = true) {sessionKey : String} (hkey : s.sessionKeyOf view evt = some sessionKey) :
    EndsRun evt.runId (s.clientRunIdOf evt) s
      {s.finishAborted evt sessionKey with ended := (s.finishAborted evt sessionKey).ended ++ [evt.runId]} := by
  -- An abort is recorded by the client run id, so the run id is that or is not recorded.
  have hclient : (s.chatRunState.abortedRuns.get? (s.clientRunIdOf evt)).isSome := by
    rcases Bool.or_eq_true_iff.mp haborted with h | h
    · exact h
    · rwa [← hs.client_of_aborted hname h]
  have hother : ∀ k, k = evt.runId → k ≠ s.clientRunIdOf evt → s.chatRunState.abortedRuns.get? k = none := by
    rintro k rfl hne
    cases hget : s.chatRunState.abortedRuns.get? evt.runId with
    | none => rfl
    | some abortedAt => exact absurd (hs.client_of_aborted hname (by rw [hget]; rfl)) hne
  refine ⟨fun k => get?_erase _ _ _, fun k => get?_erase _ _ _, fun k => ?_, fun k => ?_,
    fun k => ?_, rfl, rfl, rfl, rfl, [], (append_nil _).symm, by simp, List.Pairwise.nil, by simp⟩
  · split_ifs with h
    · rw [h]
      exact (hs.aborted _ hclient).2.2
    · rfl
  · show ((s.chatRunState.abortedRuns.erase (s.clientRunIdOf evt)).erase evt.runId).get? k = _
    rw [get?_erase, get?_erase]
    split_ifs with hrun hclient'
    · rfl
    · exact (hother k hrun hclient').symm
    · rfl
    · rfl
  · rcases hs.peek_eq evt.runId with ⟨hget, hpeek⟩ | ⟨entry, hget, hpeek, -⟩
    · simp only [ChatGateway.finishAborted, hpeek, isSome_none, Bool.false_eq_true, if_false]
      split_ifs with h
      · exact h ▸ hget
      · rfl
    · have hentry : s.clientRunIdOf evt = entry.clientRunId := by simp [ChatGateway.clientRunIdOf, hpeek]
      have hsession : entry.sessionKey = sessionKey ∧ sessionKey ≠ "" := by
        simp only [ChatGateway.sessionKeyOf, hpeek, map_some, some_or,
          filter_eq_some_iff] at hkey
        exact ⟨Option.some.inj hkey.1, by simpa using hkey.2⟩
      have hremove : (ChatRunRegistry.remove s.chatRunState.registry evt.runId (s.clientRunIdOf evt)
          (some sessionKey)).2 = s.chatRunState.registry.erase evt.runId := by
        simp [ChatRunRegistry.remove, hget, hentry, hsession, Option.filter, ChatRunRegistry.setQueue]
      simp only [ChatGateway.finishAborted, hpeek, isSome_some, if_true, hremove]
      exact get?_erase _ _ _

end Events

section Steps
variable {s t : ChatGateway}

theorem Tidy.seq (hs : Tidy names s) (agentRunSeq : InsertionMap String Nat) :
    Tidy names {s with agentRunSeq := agentRunSeq} :=
  ⟨hs.links, hs.linked, hs.controllers, hs.aborted, hs.live, hs.reported, hs.last⟩

/-- Of a run of which nothing is kept, nothing is left to clear. -/
theorem holdsNothing_ends {runId client : String} (h : s.chatRunState.holdsNothing runId client = true) :
    EndsRun runId client s {s with ended := s.ended ++ [runId]} := by
  have hkept : ∀ {α : Type} (m : InsertionMap String α) (k k' : String), m.get? k' = none →
      m.get? k = if k = k' then none else m.get? k := by
    intro α m k k' hnone
    split_ifs with heq
    · exact heq ▸ hnone
    · rfl
  simp only [ChatRunState.holdsNothing, Bool.and_eq_true, isNone_iff_eq_none] at h
  obtain ⟨⟨⟨⟨hbuffers, hsent⟩, hlength⟩, haborted⟩, hregistry⟩ := h
  exact ⟨fun k => hkept _ k _ hbuffers, fun k => hkept _ k _ hsent, fun k => hkept _ k _ hlength,
    fun k => hkept _ k _ haborted, fun k => hkept _ k _ hregistry, rfl, rfl, rfl, rfl, [],
    (append_nil _).symm, by simp, List.Pairwise.nil, by simp⟩

theorem Tidy.agentEvent {view : AgentRunView} {now : Nat} {evt : AgentEvent} (hs : Tidy names s)
    (hrun : evt.runId ∉ s.ended) (hevt : names.clientOf evt.runId = some evt.runId ∨
      (names.clientOf evt.runId).isSome ∧ evt.runId ∈ s.registered)
    (hclean : EndsCleanly names (.agentEvent view now evt) s) : Tidy names (s.agentEvent host view now evt) := by
  have hname := hs.clientRunIdOf hrun hevt
  have hseq := hs.seq (s.agentRunSeq.set evt.runId evt.seq)
  unfold ChatGateway.agentEvent
  dsimp only
  by_cases hend : evt.isEnd = true
  · rw [if_pos hend]
    -- Nothing is flushed before an end.
    have hflush : ∀ u : ChatGateway, u.flushBeforeStart host view now evt = u := by
      intro u
      have hstream : evt.stream = .lifecycle := by
        simp only [AgentEvent.isEnd, Bool.and_eq_true, decide_eq_true_eq] at hend
        exact hend.1
      simp [ChatGateway.flushBeforeStart, hstream]
    rw [hflush]
    set u : ChatGateway := {s with agentRunSeq := s.agentRunSeq.set evt.runId evt.seq} with hu
    have hends : EndsRun evt.runId (u.clientRunIdOf evt) u
        {u.reportChat host view now evt with ended := (u.reportChat host view now evt).ended ++ [evt.runId]} := by
      have hstream : evt.stream ≠ .assistant := by
        intro h
        simp [AgentEvent.isEnd, h] at hend
      unfold ChatGateway.reportChat
      cases hkey : u.sessionKeyOf view evt with
      | none =>
        have hnothing : u.chatRunState.holdsNothing evt.runId (u.clientRunIdOf evt) = true := by
          have hkey' : s.sessionKeyOf view evt = none := hkey
          have hclean' : s.chatRunState.holdsNothing evt.runId (s.clientRunIdOf evt) = true := by
            simpa [EndsCleanly, endsCleanly, hend, hkey'] using hclean
          exact hclean'
        exact holdsNothing_ends hnothing
      | some sessionKey =>
        dsimp only
        by_cases hvisible : view.isControlUiVisible = false
        · have hnothing : u.chatRunState.holdsNothing evt.runId (u.clientRunIdOf evt) = true := by
            have hclean' : s.chatRunState.holdsNothing evt.runId (s.clientRunIdOf evt) = true := by
              simpa [EndsCleanly, endsCleanly, hend, hvisible] using hclean
            exact hclean'
          simp only [if_pos hvisible]
          exact holdsNothing_ends hnothing
        · simp only [if_neg hvisible]
          split
          · rename_i hassistant _
            exact absurd hassistant hstream
          · simp only [hend, if_true]
            by_cases haborted : u.isAborted evt = true
            · simp only [haborted, if_true]
              exact finishAborted_ends hseq hname haborted hkey
            · have haborted' : u.isAborted evt = false := by simpa using haborted
              simp only [haborted', Bool.false_eq_true, if_false]
              exact finishRun_ends hseq haborted' sessionKey
    exact (hends.tidy hseq hname hrun).seq _
  · rw [if_neg hend]
    obtain ⟨hregistry, hended⟩ := flushBeforeStart_frame host view now
      {s with agentRunSeq := s.agentRunSeq.set evt.runId evt.seq} evt
    refine (hseq.flushBeforeStart hrun hname).reportChat (by simpa using hend) (by rw [hended]; exact hrun) ?_
    rw [ChatGateway.clientRunIdOf, hregistry]
    exact hname

/-- A registration is removed, or another's. -/
theorem remove_cases {registry : ChatRunRegistry} {runId : String} {entry : ChatRunEntry}
    (hget : registry.get? runId = some [entry]) (client : String) (sessionKey : Option String) :
    (ChatRunRegistry.remove registry runId client sessionKey).2 = registry ∨
      (ChatRunRegistry.remove registry runId client sessionKey).2 = registry.erase runId := by
  unfold ChatRunRegistry.remove
  rw [hget]
  dsimp only
  generalize (fun entry : ChatRunEntry => decide (entry.clientRunId = client) &&
    (sessionKey.filter fun key => decide (key ≠ "")).all fun key => decide (entry.sessionKey = key)) = wanted
  by_cases hwanted : wanted entry = true
  · refine .inr ?_
    simp [List.find?, hwanted, ChatRunRegistry.setQueue]
  · refine .inl ?_
    simp [List.find?, hwanted]

theorem abort_eq {runId sessionKey : String} {active : ChatAbortControllerEntry}
    (hactive : s.chatAbortControllers.get? runId = some active) (hkey : active.sessionKey = sessionKey)
    (stopReason : Option String) (now : Nat) : ∃ b seqs, b.runId = runId ∧
      (abortChatRunById runId sessionKey stopReason now s).2 = {s with
        chatRunState := {
          registry := (ChatRunRegistry.remove s.chatRunState.registry runId runId (some sessionKey)).2
          buffers := s.chatRunState.buffers.erase runId
          deltaSentAt := s.chatRunState.deltaSentAt.erase runId
          deltaLastBroadcastLen := s.chatRunState.deltaLastBroadcastLen.erase runId
          abortedRuns := s.chatRunState.abortedRuns.set runId now}
        chatAbortControllers := s.chatAbortControllers.erase runId
        broadcasts := s.broadcasts ++ [b]
        agentRunSeq := seqs} := by
  unfold abortChatRunById
  rw [hactive]
  dsimp only
  rw [if_neg (not_not.mpr hkey)]
  exact ⟨_, _, rfl, rfl⟩

theorem Tidy.abort {runId sessionKey : String} {stopReason : Option String} {now : Nat} (hs : Tidy names s)
    (hclean : EndsCleanly names (.abort runId sessionKey stopReason now) s) :
    Tidy names (abortChatRunById runId sessionKey stopReason now s).2 := by
  cases hactive : s.chatAbortControllers.get? runId with
  | none => simpa [abortChatRunById, hactive] using hs
  | some active =>
    by_cases hkey : active.sessionKey = sessionKey
    case neg => simpa [abortChatRunById, hactive, hkey] using hs
    obtain ⟨hcontrolled, hsome⟩ := hs.controllers runId (by rw [hactive]; rfl)
    obtain ⟨run, hrunOf⟩ := isSome_iff_exists.mp hsome
    have hname : names.clientOf run = some runId := (names.runOf_eq run runId).mp hrunOf
    have hrun : run ∉ s.ended := by simpa [EndsCleanly, endsCleanly, hactive, hkey, hrunOf] using hclean
    have haborted : s.chatRunState.abortedRuns.get? runId = none := by
      cases hget : s.chatRunState.abortedRuns.get? runId with
      | none => rfl
      | some abortedAt =>
        have hnone := (hs.aborted runId (by rw [hget]; rfl)).2.1
        rw [hactive] at hnone
        cases hnone
    obtain ⟨b, seqs, hid, heq⟩ := abort_eq hactive hkey stopReason now
    rw [heq]
    generalize hremoved : (ChatRunRegistry.remove s.chatRunState.registry runId runId (some sessionKey)).2 = registry
    -- What is registered under a client run id is the run of that id.
    have hregistry : ∀ k, registry.get? k = s.chatRunState.registry.get? k ∨ k = runId ∧ registry.get? k = none := by
      intro k
      rcases hs.peek_eq runId with ⟨hget, -⟩ | ⟨entry, hget, -, -⟩
      · have hsame : registry = s.chatRunState.registry := by
          rw [← hremoved]
          simp [ChatRunRegistry.remove, hget]
        exact .inl (by rw [hsame])
      · rcases remove_cases hget runId (some sessionKey) with h | h
        · exact .inl (by rw [← hremoved, h])
        · rw [← hremoved, h, get?_erase]
          split_ifs with hk
          · exact .inr ⟨hk, rfl⟩
          · exact .inl rfl
    refine ⟨fun k queue hk => ?_, fun k hk hended c hc hne => ?_, fun c hc => ?_, fun c hc => ?_, fun c hc => ?_,
      fun b' hb hterminal => ?_, ?_⟩
    · rcases hregistry k with h | ⟨-, h⟩
      · exact hs.links k queue (h ▸ hk)
      · rw [show registry.get? k = some queue from hk] at h
        cases h
    · rcases hregistry k with h | ⟨rfl, -⟩
      · show (registry.get? k).isSome
        rw [h]
        exact hs.linked k hk hended c hc hne
      · have hown := names.apart run k hname (by rw [hc]; rfl)
        rw [hown, hname] at hc
        exact absurd (Option.some.inj hc).symm (hown ▸ hne)
    · simp only [get?_erase] at hc
      split_ifs at hc
      · cases hc
      · exact hs.controllers c hc
    · by_cases hc' : c = runId
      · subst hc'
        simp [get?_erase, hcontrolled]
      · simp only [get?_set_ne _ hc'] at hc
        simp only [get?_erase, if_neg hc']
        exact hs.aborted c hc
    · by_cases hc' : c = runId
      · exact ⟨run, hc' ▸ hname, hrun⟩
      · simp only [get?_erase, if_neg hc', get?_set_ne _ hc'] at hc
        exact hs.live c hc
    · rcases mem_append.mp hb with hb | hb
      · refine (hs.reported b' hb hterminal).imp_left fun h => ?_
        simp only [get?_set]
        split_ifs
        · rfl
        · exact h
      · rw [mem_singleton.mp hb, hid]
        exact .inl (by simp)
    · refine terminalLast_append hs.last (pairwise_singleton _ _) ?_ (hs.no_terminal hname hrun haborted)
      simpa using hid

theorem Tidy.step {e : ChatEvent} (hs : Tidy names s) (hclean : EndsCleanly names e s)
    (h : chatStep host names e s = some t) : Tidy names t := by
  cases e with
  | addChatRun runId entry =>
    obtain ⟨⟨hname, hregistered, hended⟩, ⟨⟩⟩ := ite_none_right_eq_some.mp h
    have hnone : s.chatRunState.registry.get? runId = none := by
      cases hget : s.chatRunState.registry.get? runId with
      | none => rfl
      | some queue =>
        obtain ⟨-, -, -, hin, -⟩ := hs.links runId queue hget
        exact absurd hin hregistered
    have hadd : ChatRunRegistry.add s.chatRunState.registry runId entry =
        s.chatRunState.registry.set runId [entry] := by simp [ChatRunRegistry.add, hnone]
    rw [hadd]
    refine ⟨fun k queue hk => ?_, fun k hk hopen c hc hne => ?_, hs.controllers, hs.aborted, hs.live, hs.reported,
      hs.last⟩
    · simp only [get?_set] at hk
      split_ifs at hk with heq
      · subst heq
        exact ⟨entry, (Option.some.inj hk).symm, hname, mem_cons_self, hended⟩
      · obtain ⟨entry', rfl, hname', hin, hopen⟩ := hs.links k queue hk
        exact ⟨entry', rfl, hname', mem_cons_of_mem _ hin, hopen⟩
    · simp only [get?_set]
      split_ifs with heq
      · rfl
      · exact hs.linked k ((mem_cons.mp hk).resolve_left heq) hopen c hc hne
  | addController client entry =>
    obtain ⟨⟨hrun, hcontrolled⟩, ⟨⟩⟩ := ite_none_right_eq_some.mp h
    refine ⟨hs.links, hs.linked, fun c hc => ?_, fun c hc => ?_, hs.live, hs.reported, hs.last⟩
    · by_cases heq : c = client
      · subst heq
        exact ⟨mem_cons_self, hrun⟩
      · simp only [get?_set_ne _ heq] at hc
        exact (hs.controllers c hc).imp_left (mem_cons_of_mem _)
    · obtain ⟨hin, hcontroller, hlength⟩ := hs.aborted c hc
      have hne : c ≠ client := fun heq => hcontrolled (heq ▸ hin)
      exact ⟨mem_cons_of_mem _ hin, (get?_set_ne _ hne _).trans hcontroller, hlength⟩
  | removeController client =>
    cases h
    refine ⟨hs.links, hs.linked, fun c hc => ?_, fun c hc => ?_, hs.live, hs.reported, hs.last⟩
    · simp only [get?_erase] at hc
      split_ifs at hc
      · cases hc
      · exact hs.controllers c hc
    · obtain ⟨hin, hcontroller, hlength⟩ := hs.aborted c hc
      refine ⟨hin, ?_, hlength⟩
      simp only [get?_erase]
      split_ifs
      · rfl
      · exact hcontroller
  | abort runId sessionKey stopReason now =>
    cases h
    exact hs.abort hclean
  | agentEvent view now evt =>
    obtain ⟨⟨hrun, hevt⟩, ⟨⟩⟩ := ite_none_right_eq_some.mp h
    exact hs.agentEvent hrun hevt hclean

end Steps

/-- Chat runs end once, as long as the ends of runs are shown to clients and nothing is
aborted after its end: nothing is broadcast of a run after a terminal event, and nothing
is kept of a run that has ended. -/
theorem chat_runs_end_once {events : List ChatEvent} {s : ChatGateway}
    (hclean : (chatStep host names).Within (EndsCleanly names) events {})
    (hrun : (chatStep host names).run events {} = some s) :
    (s.broadcasts.Pairwise fun b later => b.state.isTerminal = true → later.runId ≠ b.runId) ∧
    ∀ runId ∈ s.ended, ∀ client, names.clientOf runId = some client →
      s.chatRunState.buffers.get? client = none ∧ s.chatRunState.deltaSentAt.get? client = none ∧
      s.chatRunState.deltaLastBroadcastLen.get? client = none ∧ s.chatRunState.abortedRuns.get? client = none ∧
      ∀ sessionId queue, s.chatRunState.registry.get? sessionId = some queue →
        ∀ entry ∈ queue, entry.clientRunId ≠ client := by
  have hs : Tidy names s := (chatStep host names).run_within_invariant (fun _ _ _ hs hc => hs.step hc) events
    tidy_empty hclean hrun
  refine ⟨hs.last, fun runId hended client hname => ?_⟩
  have hgone : ¬ ((s.chatRunState.buffers.get? client).isSome ∨ (s.chatRunState.deltaSentAt.get? client).isSome ∨
      (s.chatRunState.deltaLastBroadcastLen.get? client).isSome ∨
      (s.chatRunState.abortedRuns.get? client).isSome) := by
    intro h
    obtain ⟨runId', hname', hopen⟩ := hs.live client h
    exact hopen (names.run_unique hname hname' ▸ hended)
  simp only [not_or, not_isSome_iff_eq_none] at hgone
  refine ⟨hgone.1, hgone.2.1, hgone.2.2.1, hgone.2.2.2, ?_⟩
  rintro sessionId queue hqueue entry hentry rfl
  obtain ⟨entry', rfl, hname', -, hopen⟩ := hs.links sessionId queue hqueue
  rw [mem_singleton.mp hentry] at hname
  exact hopen (names.run_unique hname' hname ▸ hended)

/-! ### One run -/

/-- Every run is known by its own id. -/
def ownNames : RunNames where
  clientOf := some
  runOf := some
  runOf_eq := fun _ _ => by rw [Option.some.injEq, Option.some.injEq, eq_comm]
  apart := fun _ _ h _ => (Option.some.inj h).symm

def plainTexts : ChatTextHost where
  stripInlineDirectiveTagsForDisplay := id
  isSilentReplyText text := text == "NO_REPLY"
  isSilentReplyLeadFragment _ := false
  normalizeHiddenHeartbeatText text := (false, text)

def startRun : ChatEvent := .addController "run-1" ⟨"main"⟩

def saysHello : ChatEvent :=
  .agentEvent {} 1000 {runId := "run-1", seq := 1, stream := .assistant, text := some "hello", sessionKey := some "main"}

def abortRun : ChatEvent := .abort "run-1" "main" none 1100

def endRun (isControlUiVisible : Bool) : ChatEvent :=
  .agentEvent {isControlUiVisible := isControlUiVisible} 1200
    {runId := "run-1", seq := 2, stream := .lifecycle, phase := some "end", sessionKey := some "main"}

theorem aborted_run_ends_once : ∃ s, (chatStep plainTexts ownNames).run
    [startRun, saysHello, abortRun, endRun true] {} = some s ∧
    s.broadcasts.map (fun b => (b.runId, b.state)) = [("run-1", .delta), ("run-1", .aborted)] ∧
    (s.broadcasts.Pairwise fun b later => b.state.isTerminal = true → later.runId ≠ b.runId) ∧
    s.chatRunState.abortedRuns.get? "run-1" = none := by
  have hrun : ((chatStep plainTexts ownNames).run [startRun, saysHello, abortRun, endRun true] {}).any
      (fun s => s.broadcasts.map (fun b => (b.runId, b.state)) = [("run-1", .delta), ("run-1", .aborted)] ∧
        "run-1" ∈ s.ended) = true := by decide
  obtain ⟨s, hs, hstate⟩ := (Option.any_eq_true _ _).mp hrun
  obtain ⟨hbroadcasts, hended⟩ := of_decide_eq_true hstate
  have honce := chat_runs_end_once (by decide) hs
  exact ⟨s, hs, hbroadcasts, honce.1, (honce.2 "run-1" hended "run-1" rfl).2.2.2.1⟩

/-- A run aborted after its end, while its controller is still there, ends twice and stays
recorded as aborted. So does one that was aborted and whose end is hidden. -/
theorem late_abort_ends_twice :
    (∃ s, (chatStep plainTexts ownNames).run [startRun, saysHello, endRun true, abortRun] {} = some s ∧
      s.broadcasts.map (fun b => (b.runId, b.state)) =
        [("run-1", .delta), ("run-1", .final), ("run-1", .aborted)] ∧
      "run-1" ∈ s.ended ∧ (s.chatRunState.abortedRuns.get? "run-1").isSome) ∧
    ∃ s, (chatStep plainTexts ownNames).run [startRun, saysHello, abortRun, endRun false] {} = some s ∧
      "run-1" ∈ s.ended ∧ (s.chatRunState.abortedRuns.get? "run-1").isSome := by
  have hlate : ((chatStep plainTexts ownNames).run [startRun, saysHello, endRun true, abortRun] {}).any
      (fun s => s.broadcasts.map (fun b => (b.runId, b.state)) =
        [("run-1", .delta), ("run-1", .final), ("run-1", .aborted)] ∧
        "run-1" ∈ s.ended ∧ (s.chatRunState.abortedRuns.get? "run-1").isSome) = true := by decide
  have hhidden : ((chatStep plainTexts ownNames).run [startRun, saysHello, abortRun, endRun false] {}).any
      (fun s => "run-1" ∈ s.ended ∧ (s.chatRunState.abortedRuns.get? "run-1").isSome) = true := by decide
  obtain ⟨s, hs, hstate⟩ := (Option.any_eq_true _ _).mp hlate
  obtain ⟨t, ht, hkept⟩ := (Option.any_eq_true _ _).mp hhidden
  exact ⟨⟨s, hs, of_decide_eq_true hstate⟩, t, ht, of_decide_eq_true hkept⟩

end OpenClaw.Gateway
