import OpenClaw.Exec.SurroundingSpace

/-! A part of a chain is not a chain.

The analysis splits each part once more. It finds no operator there: as long as the
splitter adds to its buffer, splitting the buffer alone would add the same characters,
or stop at a comment the buffer begins with. -/
namespace OpenClaw.Exec
open Foundation (Scan ScanStep)
open Foundation.EcmaString List

/-- What a step can do, and that it would do it with another buffer, and at the end of the text. -/
inductive ChainMove (s : ChainState) (c : Char) (rest : Text) : Scan ChainState Unit → Prop where
  | one (q : Quotes)
      (again : ∀ (s' : ChainState) (b : Option Char) (rest' : Text), s'.quotes = s.quotes →
        rest' = [] ∨ rest'.head? = rest.head? →
        chainStep s' b c rest' = .go (s'.add [c] q) 0 ∨ chainStep s' b c rest' = .stop s') :
      ChainMove s c rest (.go (s.add [c] q) 0)
  | two (d : Char) (tail : Text) (hrest : rest = d :: tail)
      (again : ∀ (s' : ChainState) (b : Option Char) (rest' : Text), s'.quotes = s.quotes →
        chainStep s' b c (d :: rest') = .go (s'.add [c, d] s.quotes) 1) :
      ChainMove s c rest (.go (s.add [c, d] s.quotes) 1)
  | cut (hquotes : s.quotes = {}) (op : ShellChainOperator) (skip : Nat) : ChainMove s c rest (.go (s.cut op) skip)
  | stop (invalid : Bool) (hinvalid : s.invalidChain = true → invalid = true) : ChainMove s c rest (.stop {s with invalidChain := invalid})

theorem chainStep_move (s : ChainState) (b : Option Char) (c : Char) (rest : Text) :
    ChainMove s c rest (chainStep s b c rest) := by
  unfold chainStep
  dsimp only
  by_cases hescaped : s.quotes.escaped = true
  · rw [if_pos hescaped]
    exact .one _ fun s' _ _ hq _ => Or.inl (by simp [chainStep, hq, hescaped])
  rw [if_neg hescaped]
  by_cases hslash : (!s.quotes.inSingle && !s.quotes.inDouble && c = '\\') = true
  · rw [if_pos hslash]
    refine .one _ fun s' _ _ hq _ => Or.inl ?_
    unfold chainStep
    dsimp only
    rw [hq, if_neg hescaped, if_pos hslash]
  rw [if_neg hslash]
  by_cases hsingle : s.quotes.inSingle = true
  · rw [if_pos hsingle]
    refine .one _ fun s' _ _ hq _ => Or.inl ?_
    unfold chainStep
    dsimp only
    rw [hq, if_neg hescaped, if_neg hslash, if_pos hsingle]
  rw [if_neg hsingle]
  by_cases hdouble : s.quotes.inDouble = true
  · rw [if_pos hdouble]
    by_cases hline : (c = '\\' && isEscapedLineContinuation rest.head?) = true
    · rw [if_pos hline]
      exact .stop true fun _ => rfl
    rw [if_neg hline]
    by_cases hescape : (c = '\\' && isDoubleQuoteEscape doubleQuoteEscapes rest.head?) = true
    · rw [if_pos hescape]
      cases rest with
      | nil => simp [isDoubleQuoteEscape] at hescape
      | cons d tail =>
        refine .two d tail rfl fun s' _ _ hq => ?_
        unfold chainStep
        dsimp only
        rw [hq, if_neg hescaped, if_neg hslash, if_neg hsingle, if_pos hdouble]
        exact (if_neg hline).trans (if_pos hescape)
    rw [if_neg hescape]
    refine .one _ fun s' _ rest' hq hnext => Or.inl ?_
    have hline' : ¬ (c = '\\' && isEscapedLineContinuation rest'.head?) = true := by
      rcases hnext with rfl | hnext
      · simp [isEscapedLineContinuation]
      · rwa [hnext]
    have hescape' : ¬ (c = '\\' && isDoubleQuoteEscape doubleQuoteEscapes rest'.head?) = true := by
      rcases hnext with rfl | hnext
      · simp [isDoubleQuoteEscape]
      · rwa [hnext]
    unfold chainStep
    dsimp only
    rw [hq, if_neg hescaped, if_neg hslash, if_neg hsingle, if_pos hdouble, if_neg hline', if_neg hescape']
  rw [if_neg hdouble]
  by_cases hquote : c = '\''
  · rw [if_pos hquote]
    refine .one _ fun s' _ _ hq _ => Or.inl ?_
    unfold chainStep
    dsimp only
    rw [hq, if_neg hescaped, if_neg hslash, if_neg hsingle, if_neg hdouble, if_pos hquote]
  rw [if_neg hquote]
  by_cases hopen : c = '"'
  · rw [if_pos hopen]
    refine .one _ fun s' _ _ hq _ => Or.inl ?_
    unfold chainStep
    dsimp only
    rw [hq, if_neg hescaped, if_neg hslash, if_neg hsingle, if_neg hdouble, if_neg hquote, if_pos hopen]
  rw [if_neg hopen]
  by_cases hcomment : isShellCommentStart b c = true
  · rw [if_pos hcomment]
    exact .stop s.invalidChain id
  rw [if_neg hcomment]
  have hquotes : s.quotes = {} := by
    have hfields (q : Quotes) (h1 : ¬ q.escaped = true) (h2 : ¬ q.inSingle = true) (h3 : ¬ q.inDouble = true) :
        q = {} := by
      cases q
      simp_all
    exact hfields _ hescaped hsingle hdouble
  by_cases hand : (c = '&' && rest.head? = some '&') = true
  · rw [if_pos hand]
    exact .cut hquotes .and 1
  rw [if_neg hand]
  by_cases hor : (c = '|' && rest.head? = some '|') = true
  · rw [if_pos hor]
    exact .cut hquotes .or 1
  rw [if_neg hor]
  by_cases hsemi : c = ';'
  · rw [if_pos hsemi]
    exact .cut hquotes .semicolon 0
  rw [if_neg hsemi]
  refine .one _ fun s' b' rest' hq hnext => ?_
  have hand' : ¬ (c = '&' && rest'.head? = some '&') = true := by
    rcases hnext with rfl | hnext
    · simp
    · rwa [hnext]
  have hor' : ¬ (c = '|' && rest'.head? = some '|') = true := by
    rcases hnext with rfl | hnext
    · simp
    · rwa [hnext]
  unfold chainStep
  dsimp only
  rw [hq, if_neg hescaped, if_neg hslash, if_neg hsingle, if_neg hdouble, if_neg hquote, if_neg hopen,
    if_neg hand', if_neg hor', if_neg hsemi]
  by_cases hcomment' : isShellCommentStart b' c = true
  · rw [if_pos hcomment']
    exact Or.inr rfl
  · rw [if_neg hcomment']
    exact Or.inl rfl

/-- Splitting the buffer anew, before `rest`, finds no operator: it stops, or gets to `rest` as the
splitter did. -/
def QuietTo (buf : Text) (q : Quotes) (rest : Text) : Prop :=
  (∃ t, Scan.scan chainStep {} none 0 (buf ++ rest) = .ok t ∧ t.foundChain = false) ∨
    Scan.scan chainStep {} none 0 (buf ++ rest) =
      Scan.scan chainStep {buf := buf, quotes := q} (Scan.before none buf) 0 rest

theorem QuietTo.stops {buf : Text} {q : Quotes} {rest : Text} {t : ChainState}
    (h : QuietTo buf q rest) (ht : Scan.scan chainStep {buf := buf, quotes := q} (Scan.before none buf) 0 rest = .ok t)
    (hfound : t.foundChain = false) : ∃ t, Scan.scan chainStep {} none 0 (buf ++ rest) = .ok t ∧ t.foundChain = false := by
  rcases h with h | h
  · exact h
  · exact ⟨t, h.trans ht, hfound⟩

/-- What the splitter keeps: its buffer is quiet up to what follows, and so is every part. -/
structure QuietState (s : ChainState) (rest : Text) : Prop where
  buf : ∀ rest', rest' = [] ∨ rest'.head? = rest.head? → QuietTo s.buf s.quotes rest'
  parts : ∀ p ∈ s.parts, splitCommandChainWithOperators p.part = none
  continuation : hasShellLineContinuation (s.buf ++ rest) = false

theorem quietTo_nil (rest : Text) : QuietTo [] {} rest := Or.inr rfl

theorem QuietState.part {s : ChainState} {rest : Text} (h : QuietState s rest) :
    splitCommandChainWithOperators (trimChars s.buf) = none := by
  rw [splitCommandChain_trim (continuation_left h.continuation)]
  obtain ⟨t, ht, hfound⟩ := (h.buf [] (Or.inl rfl)).stops (Scan.scan_nil ..) rfl
  rw [append_nil] at ht
  rw [splitCommandChainWithOperators, ht]
  show t.finish = none
  rw [ChainState.finish, hfound]
  rfl

theorem QuietState.cut {s : ChainState} {c : Char} {rest : Text} (h : QuietState s (c :: rest))
    (hquotes : s.quotes = {}) (op : ShellChainOperator) (skip : Nat) :
    QuietState (s.cut op) (rest.drop skip) := by
  have hpart := h.part
  have hrest : hasShellLineContinuation (rest.drop skip) = false := by
    have hsplit := take_append_drop skip rest
    have := h.continuation
    rw [← singleton_append, ← hsplit, ← append_assoc, ← append_assoc] at this
    exact continuation_suffix this
  unfold ChainState.cut
  split
  · exact ⟨fun rest' _ => by rw [hquotes]; exact quietTo_nil rest', h.parts, hrest⟩
  · refine ⟨fun rest' _ => by rw [hquotes]; exact quietTo_nil rest', ?_, hrest⟩
    intro p hp
    rcases mem_append.mp hp with hp | hp
    · exact h.parts p hp
    · rw [mem_singleton.mp hp]
      exact hpart

theorem QuietState.one {s : ChainState} {c : Char} {rest : Text} (h : QuietState s (c :: rest)) (q : Quotes)
    (again : ∀ (s' : ChainState) (b : Option Char) (rest' : Text), s'.quotes = s.quotes →
      rest' = [] ∨ rest'.head? = rest.head? →
      chainStep s' b c rest' = .go (s'.add [c] q) 0 ∨ chainStep s' b c rest' = .stop s') :
    QuietState (s.add [c] q) rest := by
  refine ⟨fun rest' hrest' => ?_, h.parts, ?_⟩
  · have hbuf := h.buf (c :: rest') (Or.inr rfl)
    have hassoc : (s.add [c] q).buf ++ rest' = s.buf ++ c :: rest' := by
      rw [ChainState.add, append_assoc, singleton_append]
    unfold QuietTo
    rw [hassoc]
    rcases again {buf := s.buf, quotes := s.quotes} (Scan.before none s.buf) rest' rfl hrest' with hstep | hstep
    · rcases hbuf with hstop | hgo
      · exact Or.inl hstop
      · right
        have hbefore : Scan.before none (s.add [c] q).buf = some c := Scan.before_append none s.buf [c]
        rw [hgo, Scan.scan_cons, hstep, hbefore]
        rfl
    · exact Or.inl (hbuf.stops (by rw [Scan.scan_cons, hstep]) rfl)
  · have := h.continuation
    rwa [ChainState.add, append_assoc, singleton_append]

theorem QuietState.two {s : ChainState} {c d : Char} {tail : Text} (h : QuietState s (c :: d :: tail))
    (again : ∀ (s' : ChainState) (b : Option Char) (rest' : Text), s'.quotes = s.quotes →
      chainStep s' b c (d :: rest') = .go (s'.add [c, d] s.quotes) 1) :
    QuietState (s.add [c, d] s.quotes) tail := by
  refine ⟨fun rest' _ => ?_, h.parts, ?_⟩
  · have hbuf := h.buf (c :: d :: rest') (Or.inr rfl)
    have hassoc : (s.add [c, d] s.quotes).buf ++ rest' = s.buf ++ c :: d :: rest' := by
      rw [ChainState.add, append_assoc]
      rfl
    unfold QuietTo
    rw [hassoc]
    rcases hbuf with hstop | hgo
    · exact Or.inl hstop
    · right
      have hbefore : Scan.before none (s.add [c, d] s.quotes).buf = some d := Scan.before_append none s.buf [c, d]
      rw [hgo, Scan.scan_cons, again {buf := s.buf, quotes := s.quotes} _ _ rfl, hbefore]
      rfl
  · have := h.continuation
    rw [ChainState.add, append_assoc]
    exact this

/-- No part of a chain has an operator of its own. -/
theorem chain_parts_plain {command : Text} {parts : List ShellChainPart}
    (hcontinuation : hasShellLineContinuation command = false)
    (h : splitCommandChainWithOperators command = some parts) :
    ∀ p ∈ parts, splitCommandChainWithOperators p.part = none := by
  rw [splitCommandChainWithOperators] at h
  cases hscan : Scan.scan chainStep {} none 0 command with
  | error e => rw [hscan] at h; cases h
  | ok t =>
    rw [hscan] at h
    have hquiet : ∃ rest, QuietState t rest := by
      refine Scan.scan_invariant chainStep QuietState (fun t => ∃ rest, QuietState t rest)
        ?_ ?_ (fun s hs => ⟨[], hs⟩) ?_ hscan
      · intro s b c rest s' skip hs hstep
        have hmove := chainStep_move s b c rest
        rw [hstep] at hmove
        cases hmove with
        | one q again => exact hs.one q again
        | two d tail hrest again =>
          subst hrest
          exact hs.two again
        | cut hquotes op skip => exact hs.cut hquotes op skip
      · intro s b c rest s' hs hstep
        have hmove := chainStep_move s b c rest
        rw [hstep] at hmove
        cases hmove with
        | stop invalid hinvalid => exact ⟨c :: rest, hs.buf, hs.parts, hs.continuation⟩
      · exact ⟨fun rest _ => quietTo_nil rest, fun p hp => absurd hp not_mem_nil, hcontinuation⟩
    obtain ⟨rest, hquiet⟩ := hquiet
    dsimp only at h
    unfold ChainState.finish at h
    split at h
    · cases h
    · cases h
      intro p hp
      rcases mem_append.mp hp with hp | hp
      · exact hquiet.parts p hp
      · rw [mem_singleton.mp hp]
        exact hquiet.part

end OpenClaw.Exec
