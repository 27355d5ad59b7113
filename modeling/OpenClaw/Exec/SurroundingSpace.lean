import OpenClaw.Exec.ShellSplit

/-! White space around a command line.

The line that was analysed is split as it came, the line that is enforced is trimmed
first. Both splitters see the same parts: leading white space is added to a buffer that
is trimmed later, and trailing white space only ends up there too. -/
namespace OpenClaw.Exec
open Foundation (Scan ScanStep)
open Foundation.Scan (Consumes Goes Related)
open Foundation.EcmaString List

/-- Nothing but white space. -/
def White (l : Text) : Prop := ∀ c ∈ l, isWhiteSpace c = true

variable {w c quote : Char} {y x : Text} {b : Option Char} {s t : PipelineState} {segments : List Text}

theorem ne_of_white (hw : isWhiteSpace w = true) (hc : isWhiteSpace c = false) : w ≠ c := by
  rintro rfl
  rw [hw] at hc
  cases hc

theorem white_ne (hw : isWhiteSpace w = true) :
    w ≠ '\\' ∧ w ≠ '#' ∧ w ≠ '\'' ∧ w ≠ '"' ∧ w ≠ '&' ∧ w ≠ '|' ∧ w ≠ ';' ∧ w ≠ '<' ∧ w ≠ '(' ∧ w ≠ '-' ∧
      w ≠ '$' ∧ w ≠ '\u0060' := by
  and_intros <;> exact ne_of_white hw (by decide)

theorem not_escape_of_white (hw : isWhiteSpace w = true) :
    isDoubleQuoteEscape doubleQuoteEscapes (some w) = false := by
  simp [isDoubleQuoteEscape, doubleQuoteEscapes, white_ne hw]

/-! ### Line continuations -/

theorem continuation_suffix {pre l : Text} (h : hasShellLineContinuation (pre ++ l) = false) :
    hasShellLineContinuation l = false := by
  induction pre with
  | nil => exact h
  | cons c rest ih =>
    rw [cons_append, hasShellLineContinuation, Bool.or_eq_false_iff] at h
    exact ih h.2

theorem continuation_left {l post : Text} (h : hasShellLineContinuation (l ++ post) = false) :
    hasShellLineContinuation l = false := by
  induction l with
  | nil => rfl
  | cons c rest ih =>
    rw [cons_append, hasShellLineContinuation, Bool.or_eq_false_iff] at h
    rw [hasShellLineContinuation, ih h.2, Bool.or_false]
    cases rest with
    | nil => simp [isEscapedLineContinuation]
    | cons d rest => exact h.1

/-- The last character of a text and what follows are not a line continuation. -/
theorem continuation_last {pre : Text} (h : hasShellLineContinuation (pre ++ [c] ++ y) = false) :
    (c = '\\' && isEscapedLineContinuation y.head?) = false := by
  rw [append_assoc] at h
  have := continuation_suffix h
  rw [singleton_append, hasShellLineContinuation, Bool.or_eq_false_iff] at this
  exact this.1

/-! ### Chains -/

theorem chainStep_before (hb : b.all isWhiteSpace = true) (s : ChainState) (c : Char)
    (rest : Text) : chainStep s b c rest = chainStep s none c rest := by
  have hcomment : isShellCommentStart b c = isShellCommentStart none c := by
    simp only [isShellCommentStart, hb, Option.all_none]
  unfold chainStep
  rw [hcomment]

theorem chainStep_agree (hy : White y) {rest : Text}
    (hlast : rest = [] → (c = '\\' && isEscapedLineContinuation y.head?) = false) (s : ChainState) (b : Option Char) :
    chainStep s b c (rest ++ y) = chainStep s b c rest := by
  cases rest with
  | cons d rest => rfl
  | nil =>
    cases y with
    | nil => rfl
    | cons w y =>
      have hw := hy w (mem_cons_self ..)
      have hescape := not_escape_of_white hw
      have hcontinuation := hlast rfl
      rw [head?_cons] at hcontinuation
      have hnone : isEscapedLineContinuation none = false := rfl
      have hnone' : isDoubleQuoteEscape doubleQuoteEscapes none = false := rfl
      by_cases hslash : c = '\\'
      · subst hslash
        have hw' : isEscapedLineContinuation (some w) = false := by simpa using hcontinuation
        simp [chainStep, hw', hescape, hnone, hnone']
      · simp [chainStep, hslash, white_ne hw]

/-- White space is added to the buffer, whatever the state. -/
theorem chainStep_white (hw : isWhiteSpace w = true) (s : ChainState) (b : Option Char) (rest : Text) :
    ∃ q, chainStep s b w rest = .go (s.add [w] q) 0 := by
  simp only [chainStep, isShellCommentStart, white_ne hw, decide_false, Bool.and_false, Bool.false_and, Bool.false_eq_true, if_false]
  split
  · exact ⟨_, rfl⟩
  · split
    · exact ⟨_, rfl⟩
    · split
      · exact ⟨_, rfl⟩
      · exact ⟨_, rfl⟩

theorem chainStep_leading (hw : isWhiteSpace w = true) (buf : Text) (b : Option Char) (rest : Text) :
    chainStep {buf := buf} b w rest = .go {buf := buf ++ [w]} 0 := by
  simp [chainStep, isShellCommentStart, white_ne hw, ChainState.add]

theorem chain_leading (hx : White x) (buf : Text) :
    Consumes chainStep {buf := buf} x {buf := buf ++ x} := by
  induction x generalizing buf with
  | nil => rw [append_nil]; exact Consumes.nil _
  | cons w x ih =>
    have hrest := ih (fun c hc => hx c (mem_cons_of_mem _ hc)) (buf ++ [w])
    rw [append_assoc, singleton_append] at hrest
    exact Consumes.cons (chainStep_leading (hx w (mem_cons_self ..)) buf) hrest

theorem chain_trailing (hy : White y) (s : ChainState) (b : Option Char) (k : Nat) :
    ∃ t, Scan.scan chainStep s b k y = .ok t ∧ t.finish = s.finish := by
  induction y generalizing s b k with
  | nil => exact ⟨s, Scan.scan_nil .., rfl⟩
  | cons w y ih =>
    have hrest : White y := fun c hc => hy c (mem_cons_of_mem _ hc)
    cases k with
    | succ k => exact ih hrest s (some w) k
    | zero =>
      obtain ⟨q, hstep⟩ := chainStep_white (hy w (mem_cons_self ..)) s b y
      obtain ⟨t, hscan, hfinish⟩ := ih hrest (s.add [w] q) (some w) 0
      refine ⟨t, by rw [Scan.scan_cons, hstep]; exact hscan, ?_⟩
      have htrim : trimChars (s.buf ++ [w]) = trimChars s.buf :=
        trimChars_append_right (fun c hc => by
          rw [mem_singleton.mp hc]
          exact hy w (mem_cons_self ..)) s.buf
      rw [hfinish]
      simp only [ChainState.finish, ChainState.add, htrim]

/-- The same state, but for white space at the start of the buffer. -/
def ChainState.Padded (x : Text) (s t : ChainState) : Prop := t = s ∨ t = {s with buf := x ++ s.buf}

theorem ChainState.Padded.refl (x : Text) (s : ChainState) : s.Padded x s := Or.inl rfl

theorem chainStep_padded (hx : White x) (s t : ChainState) (b : Option Char) (c : Char) (rest : Text)
    (h : s.Padded x t) : Related (ChainState.Padded x) (chainStep s b c rest) (chainStep t b c rest) := by
  rcases h with rfl | rfl
  · exact Related.refl (ChainState.Padded.refl x) _
  · have hadd (text : Text) (q : Quotes) (skip : Nat) : Related (ε := Unit) (ChainState.Padded x)
        (.go (s.add text q) skip) (.go ({s with buf := x ++ s.buf}.add text q) skip) := by
      refine Related.go (R := ChainState.Padded x) (Or.inr ?_) skip
      simp only [ChainState.add, append_assoc]
    have hcut (op : ShellChainOperator) (skip : Nat) : Related (ε := Unit) (ChainState.Padded x)
        (.go (s.cut op) skip) (.go ({s with buf := x ++ s.buf}.cut op) skip) := by
      refine Related.go (R := ChainState.Padded x) (Or.inl ?_) skip
      simp only [ChainState.cut, trimChars_append_left hx]
    have hstop (invalid : Bool) : Related (ε := Unit) (ChainState.Padded x)
        (.stop {s with invalidChain := invalid}) (.stop {s with buf := x ++ s.buf, invalidChain := invalid}) :=
      .stop (Or.inr rfl)
    exact .ite (hadd _ _ _) (.ite (hadd _ _ _) (.ite (hadd _ _ _)
      (.ite (.ite (hstop true) (.ite (hadd _ _ _) (hadd _ _ _)))
        (.ite (hadd _ _ _) (.ite (hadd _ _ _) (.ite (hstop _) (.ite (hcut _ _) (.ite (hcut _ _)
          (.ite (hcut _ _) (hadd _ _ _))))))))))

theorem ChainState.Padded.finish_eq (hx : White x) {s t : ChainState} (h : s.Padded x t) :
    t.finish = s.finish := by
  rcases h with rfl | rfl
  · rfl
  · simp only [ChainState.finish, trimChars_append_left hx]

theorem before_white (hx : White x) : (Scan.before none x).all isWhiteSpace = true := by
  rw [Scan.before, Option.or_none]
  cases hlast : x.getLast? with
  | none => rfl
  | some c => exact hx c (mem_of_getLast? hlast)

theorem splitCommandChain_leading (hx : White x) (text : Text) :
    splitCommandChainWithOperators (x ++ text) = splitCommandChainWithOperators text := by
  have hbefore := before_white hx
  have hread : Scan.scan chainStep {} none 0 (x ++ text) = Scan.scan chainStep {buf := x} none 0 text := by
    rw [chain_leading hx [] none text, nil_append]
    exact Scan.scan_before chainStep _ _ (chainStep_before hbefore) _ _ _
  rw [splitCommandChainWithOperators, splitCommandChainWithOperators, hread]
  have hstart : ChainState.Padded x {} {buf := x} := Or.inr (by rw [append_nil])
  rcases Scan.scan_related chainStep (chainStep_padded hx) hstart none 0 text with ⟨s', t', hs, ht, h⟩ | ⟨e, hs, ht⟩
  · rw [hs, ht]
    exact h.finish_eq hx
  · rw [hs, ht]

theorem splitCommandChain_trailing (hy : White y) (hcontinuation : hasShellLineContinuation (x ++ y) = false) :
    splitCommandChainWithOperators (x ++ y) = splitCommandChainWithOperators x := by
  have hagree : ∀ pre c rest, x = pre ++ c :: rest → ∀ s b, chainStep s b c (rest ++ y) = chainStep s b c rest := by
    rintro pre c rest rfl s b
    refine chainStep_agree hy (fun hrest => ?_) s b
    subst hrest
    exact continuation_last hcontinuation
  rw [splitCommandChainWithOperators, splitCommandChainWithOperators]
  rcases Scan.scan_append_or chainStep x y hagree {} none 0 with h | ⟨t, b, k, hx, hxy⟩
  · rw [h]
  · obtain ⟨t', hscan, hfinish⟩ := chain_trailing hy t b k
    rw [hxy, hx, hscan]
    exact hfinish

/-- Trimming a line leaves its chain as it is. -/
theorem splitCommandChain_trim {command : Text} (h : hasShellLineContinuation command = false) :
    splitCommandChainWithOperators (trimChars command) = splitCommandChainWithOperators command := by
  obtain ⟨pre, post, hcommand, hpre, hpost, _⟩ := trimChars_split command
  rw [hcommand, append_assoc] at h
  conv_rhs => rw [hcommand, append_assoc]
  rw [splitCommandChain_leading hpre, splitCommandChain_trailing hpost (continuation_suffix h)]

/-! ### Heredoc delimiters -/

theorem quotedDelimiter_white (hquote : isWhiteSpace quote = false) (escaped : Bool) (hy : White y) :
    quotedDelimiter quote escaped y = none := by
  induction y generalizing escaped with
  | nil => cases escaped <;> rfl
  | cons w y ih =>
    have hrest (escaped : Bool) := ih escaped fun c hc => hy c (mem_cons_of_mem _ hc)
    cases escaped with
    | true => rw [quotedDelimiter, hrest, Option.map_none]
    | false =>
      have hne : w ≠ quote := ne_of_white (hy w (mem_cons_self ..)) hquote
      simp only [quotedDelimiter, hrest, Option.map_none, if_neg hne, ite_self]

theorem quotedDelimiter_append (hquote : isWhiteSpace quote = false) (escaped : Bool)
    (source : Text) (hy : White y) :
    quotedDelimiter quote escaped (source ++ y) = quotedDelimiter quote escaped source := by
  induction source generalizing escaped with
  | nil =>
    rw [nil_append, quotedDelimiter_white hquote escaped hy]
    cases escaped <;> rfl
  | cons c rest ih =>
    cases escaped with
    | true => rw [cons_append, quotedDelimiter, quotedDelimiter, ih]
    | false =>
      simp only [cons_append, quotedDelimiter, ih]
      cases rest with
      | cons d rest => rfl
      | nil =>
        -- an escape at the end leaves the quote open either way
        have hempty (escaped : Bool) : quotedDelimiter quote escaped [] = none := by cases escaped <;> rfl
        by_cases hquote' : quote = '"'
        · subst hquote'
          by_cases hslash : c = '\\'
          · subst hslash
            simp [hempty]
          · simp [hslash]
        · simp [hquote']

theorem quotedDelimiter_length {escaped : Bool} {source : Text} {d : Text × Nat}
    (h : quotedDelimiter quote escaped source = some d) : d.2 ≤ source.length := by
  induction source generalizing escaped d with
  | nil => cases escaped <;> cases h
  | cons c rest ih =>
    have hmore {escaped : Bool} {f : Text × Nat → Text × Nat} (hf : ∀ e, (f e).2 = e.2 + 1)
        (h : (quotedDelimiter quote escaped rest).map f = some d) : d.2 ≤ (c :: rest).length := by
      obtain ⟨e, he, rfl⟩ := Option.map_eq_some_iff.mp h
      rw [hf]
      exact Nat.succ_le_succ (ih he)
    cases escaped with
    | true => exact hmore (fun _ => rfl) h
    | false =>
      rw [quotedDelimiter] at h
      split at h
      · cases h
      split at h
      · exact hmore (fun _ => rfl) h
      split at h
      · cases h
        exact Nat.succ_le_succ (Nat.zero_le _)
      · exact hmore (fun _ => rfl) h

theorem not_bare_of_white (hw : isWhiteSpace w = true) : isBareDelimiterChar w = false := by
  simp [isBareDelimiterChar, hw]

theorem takeWhile_bare_append (l : Text) (hy : White y) :
    (l ++ y).takeWhile isBareDelimiterChar = l.takeWhile isBareDelimiterChar := by
  have hyield : y.takeWhile isBareDelimiterChar = [] := by
    cases y with
    | nil => rfl
    | cons w y => rw [takeWhile_cons, not_bare_of_white (hy w (mem_cons_self ..))]; rfl
  rw [takeWhile_append, hyield, append_nil]
  split
  · rename_i hall
    exact (List.IsPrefix.eq_of_length ( takeWhile_prefix _) hall).symm
  · rfl

theorem parseHeredocDelimiter_white (hy : White y) : parseHeredocDelimiter y = none := by
  have hrest : White (y.dropWhile isBlank) := fun c hc => hy c ((dropWhile_suffix _).subset hc)
  unfold parseHeredocDelimiter
  dsimp only
  split
  · rfl
  · rename_i first rest heq
    rw [heq] at hrest
    have hfirst := hrest first (mem_cons_self ..)
    simp [white_ne hfirst, takeWhile_cons, not_bare_of_white hfirst]

theorem parseHeredocDelimiter_append (source : Text) (hy : White y) :
    parseHeredocDelimiter (source ++ y) = parseHeredocDelimiter source := by
  by_cases hblank : source.dropWhile isBlank = []
  · have hwhite : White source := by
      intro c hc
      have := dropWhile_eq_nil_iff.mp hblank c hc
      simp only [isBlank, Bool.or_eq_true, decide_eq_true_eq] at this
      rcases this with rfl | rfl <;> decide
    rw [parseHeredocDelimiter_white hwhite, parseHeredocDelimiter_white]
    intro c hc
    exact (mem_append.mp hc).elim (hwhite c) (hy c)
  · have hdrop : (source ++ y).dropWhile isBlank = source.dropWhile isBlank ++ y := by
      rw [dropWhile_append, if_neg]
      simpa using hblank
    have htake : (source ++ y).takeWhile isBlank = source.takeWhile isBlank := by
      rw [takeWhile_append, if_neg]
      intro hall
      have hsource := takeWhile_append_dropWhile (p := isBlank) (l := source)
      refine hblank (eq_nil_of_length_eq_zero ?_)
      have hlength := congrArg List.length hsource
      rw [length_append] at hlength
      omega
    unfold parseHeredocDelimiter
    rw [hdrop, htake]
    cases hrest : source.dropWhile isBlank with
    | nil => exact absurd hrest hblank
    | cons first rest =>
      rw [cons_append]
      dsimp only
      by_cases hquote : (first = '\'' || first = '"') = true
      · rw [if_pos hquote, if_pos hquote, quotedDelimiter_append _ false rest hy]
        rw [Bool.or_eq_true, decide_eq_true_eq, decide_eq_true_eq] at hquote
        rcases hquote with rfl | rfl <;> decide
      · rw [if_neg hquote, if_neg hquote, ← cons_append, takeWhile_bare_append _ hy]

theorem parseHeredocDelimiter_length {source : Text} {parsed : ParsedDelimiter}
    (h : parseHeredocDelimiter source = some parsed) : parsed.length ≤ source.length := by
  have hsource := congrArg List.length (takeWhile_append_dropWhile (p := isBlank) (l := source))
  rw [length_append] at hsource
  unfold parseHeredocDelimiter at h
  dsimp only at h
  split at h
  · cases h
  · rename_i first rest heq
    rw [heq, length_cons] at hsource
    split at h
    · obtain ⟨d, hd, rfl⟩ := Option.map_eq_some_iff.mp h
      have := quotedDelimiter_length hd
      dsimp only
      omega
    · split at h
      · cases h
      · cases h
        have hstarts := ( takeWhile_prefix (l := first :: rest) isBareDelimiterChar).length_le
        rw [length_cons] at hstarts
        dsimp only
        omega

/-! ### Pipelines -/

theorem openHeredoc_append (s : PipelineState) (source : Text) (hy : White y) :
    s.openHeredoc (source ++ y) = s.openHeredoc source := by
  have hdash : ((source ++ y).head? = some '-') ↔ source.head? = some '-' := by
    cases source with
    | cons c source => rfl
    | nil =>
      cases y with
      | nil => rfl
      | cons w y => simp [white_ne (hy w (mem_cons_self ..))]
  unfold PipelineState.openHeredoc
  simp only [hdash]
  generalize hd : (if decide (source.head? = some '-') = true then ['-'] else []) = dash
  have hlength : dash.length ≤ source.length := by
    by_cases h : source.head? = some '-'
    · rw [if_pos (by simpa using h)] at hd
      obtain ⟨rest, rfl⟩ : ∃ rest, source = '-' :: rest := by
        cases source with
        | nil => cases h
        | cons c rest => exact ⟨rest, by rw [Option.some.inj h]⟩
      subst hd
      exact Nat.succ_le_succ (Nat.zero_le _)
    · rw [if_neg (by simpa using h)] at hd
      subst hd
      exact Nat.zero_le _
  rw [drop_append_of_le_length hlength, parseHeredocDelimiter_append _ hy]
  cases hparsed : parseHeredocDelimiter (source.drop dash.length) with
  | none => rfl
  | some parsed =>
    have htaken := parseHeredocDelimiter_length hparsed
    rw [length_drop] at htaken
    dsimp only
    rw [take_append_of_le_length (by omega)]

theorem pipelineStep_before (hb : b.all isWhiteSpace = true) (s : PipelineState) (c : Char)
    (rest : Text) : pipelineStep s b c rest = pipelineStep s none c rest := by
  have hcomment : isShellCommentStart b c = isShellCommentStart none c := by
    simp only [isShellCommentStart, hb, Option.all_none]
  unfold pipelineStep unquotedStep
  rw [hcomment]

theorem pipelineStep_agree (hy : White y) {rest : Text}
    (hlast : rest = [] → isWhiteSpace c = false ∧ (c = '\\' && isEscapedLineContinuation y.head?) = false)
    (s : PipelineState) (b : Option Char) : pipelineStep s b c (rest ++ y) = pipelineStep s b c rest := by
  cases rest with
  | cons d rest =>
    have hopen := openHeredoc_append s rest hy
    show pipelineStep s b c (d :: (rest ++ y)) = pipelineStep s b c (d :: rest)
    unfold pipelineStep unquotedStep
    rw [tail_cons, tail_cons, hopen]
    rfl
  | nil =>
    cases y with
    | nil => rfl
    | cons w y =>
      obtain ⟨hc, hcontinuation⟩ := hlast rfl
      have hw := hy w (mem_cons_self ..)
      rw [head?_cons] at hcontinuation
      have hnewline : isNewline c = false := by
        rw [isNewline, Bool.or_eq_false_iff]
        exact ⟨by simpa using (ne_of_white (c := c) (w := '\n') (by decide) hc).symm,
          by simpa using (ne_of_white (c := c) (w := '\r') (by decide) hc).symm⟩
      have hescape := not_escape_of_white hw
      have hnone : isEscapedLineContinuation none = false := rfl
      have hnone' : isDoubleQuoteEscape doubleQuoteEscapes none = false := rfl
      by_cases hslash : c = '\\'
      · subst hslash
        have hw' : isEscapedLineContinuation (some w) = false := by simpa using hcontinuation
        simp [pipelineStep, heredocBodyStep, doubleQuotedStep, unquotedStep, hnewline, hw', hescape, hnone, hnone',
          isShellCommentStart]
      · simp [pipelineStep, heredocBodyStep, doubleQuotedStep, unquotedStep, hnewline, hslash, white_ne hw]

/-- The same segments so far, and the same one when the buffer is pushed. -/
def PipelineState.SameParts (s t : PipelineState) : Prop :=
  t.segments = s.segments ∧ trimChars t.buf = trimChars s.buf

theorem PipelineState.SameParts.trans {u : PipelineState} (h : s.SameParts t) (h' : t.SameParts u) :
    s.SameParts u := ⟨h'.1.trans h.1, h'.2.trans h.2⟩

theorem sameParts_add (hw : isWhiteSpace w = true) (s : PipelineState) (q : Quotes) :
    s.SameParts (s.add [w] q) :=
  ⟨rfl, trimChars_append_right (fun c hc => by rwa [mem_singleton.mp hc]) s.buf⟩

theorem endHeredocLine_parts (h : s.endHeredocLine = .ok t) :
    t.segments = s.segments ∧ t.buf = s.buf := by
  unfold PipelineState.endHeredocLine at h
  split at h
  · cases h
    exact ⟨rfl, rfl⟩
  split at h
  · cases h
    exact ⟨rfl, rfl⟩
  split at h
  · cases h
  · cases h
    exact ⟨rfl, rfl⟩

theorem heredocBodyStep_parts (s : PipelineState) (c : Char) (next : Option Char) :
    Goes s.SameParts (heredocBodyStep s c next) := by
  refine .ite ?_ (.go ⟨rfl, rfl⟩ 0)
  cases ht : s.endHeredocLine with
  | error e => exact .fail e
  | ok t =>
    obtain ⟨hsegments, hbuf⟩ := endHeredocLine_parts ht
    have hsame : s.SameParts {t with heredocLine := [], inHeredocBody := t.pendingHeredocs ≠ []} :=
      ⟨hsegments, congrArg trimChars hbuf⟩
    exact .go hsame _

/-- White space in any state: refused, or without an effect on the segments. -/
theorem pipelineStep_white (hw : isWhiteSpace w = true) (s : PipelineState) (b : Option Char)
    (rest : Text) : Goes s.SameParts (pipelineStep s b w rest) := by
  have hadd (q : Quotes) : Goes (ε := Text) s.SameParts (.go (s.add [w] q) 0) := .go (sameParts_add hw s q) 0
  refine .ite (heredocBodyStep_parts s w _) ?_
  simp only [doubleQuotedStep, unquotedStep, isShellCommentStart, white_ne hw, decide_false, Bool.and_false,
    Bool.false_and, Bool.or_self, Bool.false_eq_true, if_false]
  exact .ite (hadd _) (.ite (hadd _) (.ite (.ite (.fail _) (hadd _))
    (.ite (.go ⟨rfl, rfl⟩ _) (.ite (.fail _) (hadd _)))))

theorem pipeline_trailing (hy : White y) {k : Nat} (h : Scan.scan pipelineStep s b k y = .ok t) : s.SameParts t := by
  induction y generalizing s b k with
  | nil =>
    rw [Scan.scan_nil] at h
    cases h
    exact ⟨rfl, rfl⟩
  | cons w y ih =>
    have hrest : White y := fun c hc => hy c (mem_cons_of_mem _ hc)
    cases k with
    | succ k => exact ih hrest h
    | zero =>
      have hgoes := pipelineStep_white (hy w (mem_cons_self ..)) s b y
      rw [Scan.scan_cons] at h
      generalize pipelineStep s b w y = x at h hgoes
      cases hgoes with
      | go hsame skip => exact hsame.trans (ih hrest h)
      | fail e => cases h

/-- Leading white space ends up in the buffer, or is a newline and refused. -/
theorem pipeline_leading {x : Text} (hx : White x) {buf text : Text} {b : Option Char} {t : PipelineState}
    (h : Scan.scan pipelineStep {buf := buf} b 0 (x ++ text) = .ok t) :
    Scan.scan pipelineStep {buf := buf ++ x} (Scan.before b x) 0 text = .ok t := by
  induction x generalizing buf b with
  | nil => rwa [append_nil]
  | cons w x ih =>
    have hw := hx w (mem_cons_self ..)
    rw [cons_append, Scan.scan_cons] at h
    by_cases hdisallowed : w ∈ disallowedPipelineTokens
    · simp [pipelineStep, unquotedStep, isShellCommentStart, white_ne hw, hdisallowed] at h
    · have hstep : pipelineStep {buf := buf} b w (x ++ text) = .go {buf := buf ++ [w]} 0 := by
        simp [pipelineStep, unquotedStep, isShellCommentStart, white_ne hw, hdisallowed, PipelineState.add]
      rw [hstep] at h
      have hrest := ih (fun c hc => hx c (mem_cons_of_mem _ hc)) h
      rwa [append_assoc, singleton_append, ← Scan.before_cons] at hrest

def PipelineState.pad (x : Text) (s : PipelineState) : PipelineState := {s with buf := x ++ s.buf}

theorem endHeredocLine_pad (x : Text) (s : PipelineState) :
    (s.pad x).endHeredocLine = s.endHeredocLine.map (·.pad x) := by
  unfold PipelineState.endHeredocLine
  cases hpending : s.pendingHeredocs with
  | nil =>
    rw [show (s.pad x).pendingHeredocs = [] from hpending]
    rfl
  | cons current rest =>
    rw [show (s.pad x).pendingHeredocs = current :: rest from hpending]
    dsimp only
    rw [show (s.pad x).heredocLine = s.heredocLine from rfl]
    split
    · rfl
    · split <;> rfl

theorem openHeredoc_pad (x : Text) (s : PipelineState) (source : Text) :
    (s.pad x).openHeredoc source = ((s.openHeredoc source).1.pad x, (s.openHeredoc source).2) := by
  unfold PipelineState.openHeredoc
  dsimp only
  split
  · simp only [PipelineState.add, PipelineState.pad, append_assoc]
  · simp only [PipelineState.add, PipelineState.pad, append_assoc]

/-- The same state, but for white space at the start of the buffer. -/
def PipelineState.Padded (x : Text) (s t : PipelineState) : Prop := t = s ∨ t = s.pad x

theorem PipelineState.Padded.refl (x : Text) (s : PipelineState) : s.Padded x s := Or.inl rfl

theorem PipelineState.Padded.sameParts (hx : White x) (h : s.Padded x t) :
    s.SameParts t := by
  rcases h with rfl | rfl
  · exact ⟨rfl, rfl⟩
  · exact ⟨rfl, trimChars_append_left hx s.buf⟩

theorem related_pad (x : Text) (s : PipelineState) (skip : Nat) :
    Related (ε := Text) (PipelineState.Padded x) (.go s skip) (.go (s.pad x) skip) :=
  Related.go (R := PipelineState.Padded x) (Or.inr rfl) skip

theorem heredocBodyStep_padded (x : Text) (s : PipelineState) (c : Char) (next : Option Char) :
    Related (PipelineState.Padded x) (heredocBodyStep s c next) (heredocBodyStep (s.pad x) c next) := by
  refine .ite ?_ (related_pad x {s with heredocLine := s.heredocLine ++ [c]} 0)
  rw [endHeredocLine_pad]
  cases s.endHeredocLine with
  | error e => exact .fail e
  | ok t => exact related_pad x {t with heredocLine := [], inHeredocBody := t.pendingHeredocs ≠ []} _

theorem pipelineStep_padded (hx : White x) (s t : PipelineState) (b : Option Char) (c : Char)
    (rest : Text) (h : s.Padded x t) :
    Related (PipelineState.Padded x) (pipelineStep s b c rest) (pipelineStep t b c rest) := by
  rcases h with rfl | rfl
  · exact Related.refl (PipelineState.Padded.refl x) _
  have hadd (text : Text) (q : Quotes) (skip : Nat) : Related (ε := Text) (PipelineState.Padded x)
      (.go (s.add text q) skip) (.go ((s.pad x).add text q) skip) := by
    rw [show (s.pad x).add text q = (s.add text q).pad x by
      simp only [PipelineState.add, PipelineState.pad, append_assoc]]
    exact related_pad x _ skip
  have hpush : Related (ε := Text) (PipelineState.Padded x) (.go {s with emptySegment := true}.pushPart 0)
      (.go {s.pad x with emptySegment := true}.pushPart 0) := by
    refine Related.go (R := PipelineState.Padded x) (Or.inl ?_) 0
    simp only [PipelineState.pushPart, PipelineState.pad, trimChars_append_left hx]
  have hopen (source : Text) : Related (ε := Text) (PipelineState.Padded x)
      (.go (s.openHeredoc source).1 (1 + (s.openHeredoc source).2))
      (.go ((s.pad x).openHeredoc source).1 (1 + ((s.pad x).openHeredoc source).2)) := by
    rw [openHeredoc_pad]
    exact related_pad x _ _
  have hbody (skip : Nat) := related_pad x {s with inHeredocBody := true, heredocLine := []} skip
  exact .ite (heredocBodyStep_padded x s c _) (.ite (hadd _ _ _) (.ite (hadd _ _ _) (.ite (hadd _ _ _)
    (.ite (.ite (.fail _) (.ite (hadd _ _ _) (.ite (.fail _) (.ite (.fail _) (.ite (.fail _) (hadd _ _ _))))))
      (.ite (hadd _ _ _) (.ite (hadd _ _ _) (.ite (.stop (Or.inr rfl)) (.ite (hbody _) (.ite (.fail _)
        (.ite (.fail _) (.ite hpush (.ite (.fail _) (.ite (hopen _) (.ite (.fail _) (.ite (.fail _)
          (hadd _ _ _))))))))))))))))

theorem finish_segments (h : s.finish = .ok segments) :
    segments = s.pushPart.segments := by
  unfold PipelineState.finish at h
  repeat' split at h
  all_goals cases h
  rfl

theorem PipelineState.SameParts.finish_eq (h : s.SameParts t) {segments' : List Text}
    (hs : s.finish = .ok segments) (ht : t.finish = .ok segments') : segments' = segments := by
  rw [finish_segments hs, finish_segments ht]
  simp only [PipelineState.pushPart, h.1, h.2]

theorem splitShellPipeline_ok {text : Text} (h : splitShellPipeline text = .ok segments) :
    ∃ s, Scan.scan pipelineStep {} none 0 text = .ok s ∧ s.finish = .ok segments := by
  unfold splitShellPipeline at h
  cases hs : Scan.scan pipelineStep {} none 0 text with
  | error e => rw [hs] at h; cases h
  | ok s => exact ⟨s, rfl, by rwa [hs] at h⟩

/-- A line and the trimmed line have the same segments, where both have any. -/
theorem splitShellPipeline_trim {command : Text} (hcontinuation : hasShellLineContinuation command = false)
    {segments' : List Text} (h : splitShellPipeline command = .ok segments)
    (h' : splitShellPipeline (trimChars command) = .ok segments') : segments' = segments := by
  obtain ⟨pre, post, hcommand, hpre, hpost, hlast⟩ := trimChars_split command
  rw [hcommand, append_assoc] at h hcontinuation
  have hagree : ∀ l c rest, trimChars command = l ++ c :: rest →
      ∀ s b, pipelineStep s b c (rest ++ post) = pipelineStep s b c rest := by
    intro l c rest heq s b
    refine pipelineStep_agree hpost (fun hrest => ?_) s b
    subst hrest
    refine ⟨hlast c (by rw [heq, getLast?_concat]; rfl), ?_⟩
    rw [heq] at hcontinuation
    exact continuation_last (continuation_suffix hcontinuation)
  obtain ⟨t, ht, hfinish⟩ := splitShellPipeline_ok h
  obtain ⟨s, hs, hfinish'⟩ := splitShellPipeline_ok h'
  have hread := @pipeline_leading _ hpre [] _ _ _ ht
  rw [nil_append, Scan.scan_before pipelineStep _ _ (pipelineStep_before (before_white hpre))] at hread
  have hsame : s.SameParts t := by
    have hstart : PipelineState.Padded pre {} {buf := pre} := Or.inr (by simp [PipelineState.pad])
    rcases Scan.scan_related pipelineStep (pipelineStep_padded hpre) hstart none 0 (trimChars command ++ post) with
      ⟨s', t', hs', ht', hpadded⟩ | ⟨e, _, he⟩
    · rw [hread] at ht'
      cases ht'
      refine PipelineState.SameParts.trans ?_ (hpadded.sameParts hpre)
      rcases Scan.scan_append_or pipelineStep (trimChars command) post hagree {} none 0 with heq | ⟨u, b, k, hu, hrest⟩
      · rw [hs', hs] at heq
        cases heq
        exact ⟨rfl, rfl⟩
      · rw [hs] at hu
        cases hu
        rw [hs'] at hrest
        exact pipeline_trailing hpost hrest.symm
    · rw [hread] at he
      cases he
  exact (hsame.finish_eq hfinish' hfinish).symm

end OpenClaw.Exec
