import OpenClaw.Exec.Analysis
import OpenClaw.Exec.ChainParts

/-! Splitting a command line that was written from argvs.

A line of single-quoted tokens, with `|` between segments and chain operators between
parts, is split where it was put together. Both splitters pass over a quoted token in
the same way, which `ReadsQuotes` says once. -/
namespace OpenClaw.Exec
open Foundation (Scan ScanStep)
open Foundation.Scan (Consumes)
open Foundation.EcmaString List

/-! ### Quoted tokens -/

/-- How a splitter reads quotes: it adds them and what is between them to its buffer. -/
structure ReadsQuotes {σ ε : Type} (step : ScanStep σ ε) (state : Text → Quotes → σ) : Prop where
  opens : ∀ buf b rest, step (state buf {}) b '\'' rest = .go (state (buf ++ ['\'']) {inSingle := true}) 0
  quoted : ∀ buf b c rest, step (state buf {inSingle := true}) b c rest =
    .go (state (buf ++ [c]) {inSingle := c ≠ '\''}) 0
  opensDouble : ∀ buf b rest, step (state buf {}) b '"' rest = .go (state (buf ++ ['"']) {inDouble := true}) 0
  doubleQuoted : ∀ buf b c rest, c = '\'' ∨ c = '"' → step (state buf {inDouble := true}) b c rest =
    .go (state (buf ++ [c]) {inDouble := c ≠ '"'}) 0
  blank : ∀ buf b rest, step (state buf {}) b ' ' rest = .go (state (buf ++ [' ']) {}) 0

section
variable {σ ε : Type} {step : ScanStep σ ε} {state : Text → Quotes → σ} (R : ReadsQuotes step state)
include R

theorem ReadsQuotes.inside (buf t : Text) :
    Consumes step (state buf {inSingle := true}) (replaceChar '\'' singleQuoteEscape t)
      (state (buf ++ replaceChar '\'' singleQuoteEscape t) {inSingle := true}) := by
  induction t generalizing buf with
  | nil =>
    rw [replaceChar, flatMap_nil, append_nil]
    exact Consumes.nil _
  | cons c rest ih =>
    have hsplit : replaceChar '\'' singleQuoteEscape (c :: rest) =
        (if c = '\'' then singleQuoteEscape else [c]) ++ replaceChar '\'' singleQuoteEscape rest := rfl
    rw [hsplit, ← append_assoc]
    refine Consumes.append ?_ (ih _)
    by_cases hc : c = '\''
    · -- out of the single quotes, through the double ones, and in again
      rw [if_pos hc]
      have hclose := R.quoted buf
      have hpass (buf : Text) : Consumes step (state buf {}) ['"', '\'', '"', '\'']
          (state (buf ++ ['"', '\'', '"', '\'']) {inSingle := true}) := by
        have h1 := R.opensDouble buf
        have h2 := fun b rest => R.doubleQuoted (buf ++ ['"']) b '\'' rest (Or.inl rfl)
        have h3 := fun b rest => R.doubleQuoted (buf ++ ['"'] ++ ['\'']) b '"' rest (Or.inr rfl)
        have h4 := R.opens (buf ++ ['"'] ++ ['\''] ++ ['"'])
        simp only [append_assoc, singleton_append] at h2 h3 h4
        exact Consumes.cons h1 (Consumes.cons h2 (Consumes.cons h3 (Consumes.one h4)))
      have hrest := hpass (buf ++ ['\''])
      rw [append_assoc] at hrest
      exact Consumes.cons (fun b rest => hclose b '\'' rest) hrest
    · rw [if_neg hc]
      refine Consumes.one fun b rest => ?_
      rw [R.quoted]
      simp [hc]

theorem ReadsQuotes.token (buf t : Text) :
    Consumes step (state buf {}) (shellEscapeSingleArg t) (state (buf ++ shellEscapeSingleArg t) {}) := by
  have hinside := R.inside (buf ++ ['\'']) t
  have hclose := fun b rest => R.quoted (buf ++ ['\''] ++ replaceChar '\'' singleQuoteEscape t) b '\'' rest
  have h := (Consumes.cons (R.opens buf) hinside).append (Consumes.one hclose)
  have hbuf : buf ++ ['\''] ++ replaceChar '\'' singleQuoteEscape t ++ ['\''] = buf ++ shellEscapeSingleArg t := by
    simp [shellEscapeSingleArg]
  rw [hbuf] at h
  exact h

/-- An argv with single-quoted tokens. -/
theorem ReadsQuotes.argv (buf : Text) (argv : List Text) :
    Consumes step (state buf {}) (renderPosixQuotedArgv argv) (state (buf ++ renderPosixQuotedArgv argv) {}) := by
  unfold renderPosixQuotedArgv
  induction argv generalizing buf with
  | nil =>
    rw [map_nil, joinWith_nil, append_nil]
    exact Consumes.nil _
  | cons t rest ih =>
    cases rest with
    | nil =>
      rw [map_singleton, joinWith_singleton]
      exact R.token buf t
    | cons next rest =>
      have hrest := ih (buf ++ shellEscapeSingleArg t ++ [' '])
      have h := (R.token buf t).append ((Consumes.one (R.blank _)).append hrest)
      simpa only [map_cons, joinWith_cons_cons, append_assoc, singleton_append] using h

end

theorem chain_readsQuotes (s : ChainState) :
    ReadsQuotes chainStep fun buf quotes => {s with buf := buf, quotes := quotes} where
  opens _ _ _ := rfl
  quoted _ _ _ _ := by simp [chainStep, ChainState.add]
  opensDouble _ _ _ := rfl
  doubleQuoted _ _ _ _ hc := by rcases hc with rfl | rfl <;> rfl
  blank buf b rest := by simp [chainStep, ChainState.add, isShellCommentStart]

theorem pipeline_readsQuotes (segments : List Text) :
    ReadsQuotes pipelineStep fun buf quotes => {segments := segments, buf := buf, quotes := quotes} where
  opens _ _ _ := rfl
  quoted _ _ _ _ := by simp [pipelineStep, PipelineState.add]
  opensDouble _ _ _ := rfl
  doubleQuoted _ _ _ _ hc := by rcases hc with rfl | rfl <;> rfl
  blank buf b rest := by
    simp [pipelineStep, unquotedStep, PipelineState.add, isShellCommentStart, isNewline, disallowedPipelineTokens]

/-! ### Text between quotes -/

/-- A text that starts and ends with a quote: trimming leaves it as it is. -/
structure QuoteEnds (t : Text) : Prop where
  head : t.head? = some '\''
  last : t.getLast? = some '\''

theorem QuoteEnds.trim {t : Text} (h : QuoteEnds t) {pre post : Text} (hpre : White pre) (hpost : White post) :
    trimChars (pre ++ t ++ post) = t := by
  rw [trimChars_append_right hpost, trimChars_append_left hpre]
  refine trimChars_eq_self ?_ ?_
  · rw [h.head]
    rintro c ⟨⟩
    decide
  · rw [h.last]
    rintro c ⟨⟩
    decide

theorem quoteEnds_joinWith (separator : Text) {parts : List Text} (hne : parts ≠ [])
    (h : ∀ p ∈ parts, QuoteEnds p) : QuoteEnds (joinWith separator parts) := by
  induction parts with
  | nil => exact absurd rfl hne
  | cons p rest ih =>
    have hp := h p (mem_cons_self ..)
    cases rest with
    | nil => rwa [joinWith_singleton]
    | cons q rest =>
      have hrest := ih (cons_ne_nil _ _) fun r hr => h r (mem_cons_of_mem _ hr)
      rw [joinWith_cons_cons]
      refine ⟨?_, ?_⟩
      · rw [head?_append, hp.head]
        rfl
      · rw [getLast?_append, getLast?_append, hrest.last]
        rfl

theorem quoteEnds_token (t : Text) : QuoteEnds (shellEscapeSingleArg t) := by
  refine ⟨rfl, ?_⟩
  rw [shellEscapeSingleArg, getLast?_append]
  rfl

theorem quoteEnds_argv {argv : List Text} (h : argv ≠ []) : QuoteEnds (renderPosixQuotedArgv argv) := by
  refine quoteEnds_joinWith _ (by simpa using h) fun p hp => ?_
  obtain ⟨t, _, rfl⟩ := mem_map.mp hp
  exact quoteEnds_token t

theorem white_blank : White [' '] := fun c hc => by
  rw [mem_singleton.mp hc]
  decide

theorem white_nil : White [] := fun _ hc => absurd hc not_mem_nil

/-! ### Pipelines -/

/-- Between two segments: the one before is pushed, and a blank starts the next. -/
theorem pipeline_bar {segments : List Text} {buf : Text} (h : trimChars buf ≠ []) :
    Consumes pipelineStep {segments := segments, buf := buf} " | ".toList
      {segments := segments ++ [trimChars buf], buf := [' ']} := by
  intro b rest
  have hblank := (pipeline_readsQuotes segments).blank buf
  have htrim : trimChars (buf ++ [' ']) = trimChars buf := trimChars_append_right white_blank buf
  have hbar (b : Option Char) : pipelineStep {segments := segments, buf := buf ++ [' ']} b '|' (' ' :: rest) =
      .go {segments := segments ++ [trimChars buf], emptySegment := true} 0 := by
    simp [pipelineStep, unquotedStep, PipelineState.pushPart, isShellCommentStart, isNewline, htrim, h]
  have hlast (b : Option Char) :
      pipelineStep {segments := segments ++ [trimChars buf], emptySegment := true} b ' ' rest =
        .go {segments := segments ++ [trimChars buf], buf := [' ']} 0 := by
    simp [pipelineStep, unquotedStep, PipelineState.add, isShellCommentStart, isNewline, disallowedPipelineTokens]
  show Scan.scan pipelineStep _ b 0 (' ' :: '|' :: ' ' :: rest) = _
  rw [Scan.scan_go _ (hblank b _), Scan.scan_go _ (hbar _), Scan.scan_go _ (hlast _)]
  rfl

/-- Segments that are argvs: all but the last are pushed. -/
theorem pipeline_reads (segments : List Text) {pre : Text} (hpre : White pre) (argv : List Text)
    (argvs : List (List Text)) (h : ∀ a ∈ argv :: argvs, a ≠ []) :
    ∃ segments' buf, Consumes pipelineStep {segments := segments, buf := pre}
        (joinWith " | ".toList ((argv :: argvs).map renderPosixQuotedArgv))
        {segments := segments', buf := buf} ∧ trimChars buf ≠ [] ∧
      segments' ++ [trimChars buf] = segments ++ (argv :: argvs).map renderPosixQuotedArgv := by
  have hargv := quoteEnds_argv (h argv (mem_cons_self ..))
  have htrim : trimChars (pre ++ renderPosixQuotedArgv argv) = renderPosixQuotedArgv argv := by
    have := hargv.trim hpre white_nil
    rwa [append_nil] at this
  have hne : trimChars (pre ++ renderPosixQuotedArgv argv) ≠ [] := by
    rw [htrim]
    intro he
    have := hargv.head
    rw [he] at this
    cases this
  have hreads := (pipeline_readsQuotes segments).argv pre argv
  induction argvs generalizing segments pre argv with
  | nil =>
    refine ⟨segments, pre ++ renderPosixQuotedArgv argv, ?_, hne, ?_⟩
    · rw [map_singleton, joinWith_singleton]
      exact hreads
    · rw [htrim, map_singleton]
  | cons next rest ih =>
    have hrest : ∀ a ∈ next :: rest, a ≠ [] := fun a ha => h a (mem_cons_of_mem _ ha)
    have hnext := quoteEnds_argv (hrest next (mem_cons_self ..))
    have htrim' : trimChars ([' '] ++ renderPosixQuotedArgv next) = renderPosixQuotedArgv next := by
      have := hnext.trim white_blank white_nil
      rwa [append_nil] at this
    obtain ⟨segments', buf, hread', hbuf, hsegments⟩ :=
      ih (segments ++ [renderPosixQuotedArgv argv]) white_blank next hrest hnext htrim' (by
        rw [htrim']
        intro he
        have := hnext.head
        rw [he] at this
        cases this) ((pipeline_readsQuotes _).argv [' '] next)
    refine ⟨segments', buf, ?_, hbuf, ?_⟩
    · have hbar := @pipeline_bar segments _ hne
      rw [htrim] at hbar
      simp only [map_cons, joinWith_cons_cons] at hread' ⊢
      exact hreads.append (hbar.append hread')
    · rw [hsegments, append_assoc]
      rfl

theorem splitShellPipeline_rendered {argvs : List (List Text)} (hne : argvs ≠ []) (h : ∀ a ∈ argvs, a ≠ []) :
    splitShellPipeline (joinWith " | ".toList (argvs.map renderPosixQuotedArgv)) =
      .ok (argvs.map renderPosixQuotedArgv) := by
  cases argvs with
  | nil => exact absurd rfl hne
  | cons argv argvs =>
    obtain ⟨segments, buf, hreads, hbuf, hsegments⟩ := pipeline_reads [] white_nil argv argvs h
    rw [nil_append] at hsegments
    rw [splitShellPipeline, hreads.scan_eq, ← hsegments]
    simp [Except.bind, PipelineState.finish, PipelineState.closeHeredoc, PipelineState.pushPart, hbuf]

/-! ### Chains -/

/-- A chain with its operators written between the parts. -/
def renderChain (parts : List ShellChainPart) : Text :=
  parts.flatMap fun p => p.part ++ renderOperator p.opToNext

/-- A part the chain splitter adds to its buffer as it is. -/
structure ReadablePart (t : Text) : Prop where
  ends : QuoteEnds t
  reads : ∀ (s : ChainState) (buf : Text),
    Consumes chainStep {s with buf := buf, quotes := {}} t {s with buf := buf ++ t, quotes := {}}

theorem chain_bar (s : ChainState) (buf : Text) :
    Consumes chainStep {s with buf := buf, quotes := {}} " | ".toList
      {s with buf := buf ++ " | ".toList, quotes := {}} := by
  intro b rest
  have hfirst := (chain_readsQuotes s).blank buf b ('|' :: ' ' :: rest)
  have hbar (b : Option Char) : chainStep {s with buf := buf ++ [' '], quotes := {}} b '|' (' ' :: rest) =
      .go {s with buf := buf ++ [' '] ++ ['|'], quotes := {}} 0 := by
    simp [chainStep, ChainState.add, isShellCommentStart]
  have hlast (b : Option Char) := (chain_readsQuotes s).blank (buf ++ [' '] ++ ['|']) b rest
  show Scan.scan chainStep _ b 0 (' ' :: '|' :: ' ' :: rest) = _
  rw [Scan.scan_go _ hfirst, Scan.scan_go _ (hbar _), Scan.scan_go _ (hlast _), append_assoc, append_assoc]
  rfl

theorem readablePart_rendered {argvs : List (List Text)} (hne : argvs ≠ []) (h : ∀ a ∈ argvs, a ≠ []) :
    ReadablePart (joinWith " | ".toList (argvs.map renderPosixQuotedArgv)) := by
  refine ⟨quoteEnds_joinWith _ (by simpa using hne) fun p hp => ?_, fun s buf => ?_⟩
  · obtain ⟨a, ha, rfl⟩ := mem_map.mp hp
    exact quoteEnds_argv (h a ha)
  · clear hne h
    induction argvs generalizing buf with
    | nil =>
      rw [map_nil, joinWith_nil, append_nil]
      exact Consumes.nil _
    | cons argv rest ih =>
      have hargv := (chain_readsQuotes s).argv buf argv
      cases rest with
      | nil =>
        rw [map_singleton, joinWith_singleton]
        exact hargv
      | cons next rest =>
        have hrest := ih (buf ++ renderPosixQuotedArgv argv ++ " | ".toList)
        have h := hargv.append ((chain_bar s _).append hrest)
        rw [append_assoc, append_assoc] at h
        simp only [map_cons, joinWith_cons_cons] at h ⊢
        exact h

/-- An operator cuts what is in the buffer off as a part. -/
theorem chain_operator (parts : List ShellChainPart) {buf : Text} (h : trimChars buf ≠ []) (found : Bool)
    (op : ShellChainOperator) :
    Consumes chainStep {parts := parts, buf := buf, foundChain := found} (renderOperator (some op))
      {parts := parts ++ [⟨trimChars buf, some op⟩], buf := [' '], foundChain := true} := by
  have htrim : trimChars (buf ++ [' ']) = trimChars buf := trimChars_append_right white_blank buf
  have hblank : Consumes chainStep {parts := parts, buf := buf, foundChain := found} [' ']
      {parts := parts, buf := buf ++ [' '], foundChain := found} :=
    Consumes.one fun b rest => by simp [chainStep, ChainState.add, isShellCommentStart]
  have hcut : Consumes chainStep {parts := parts, buf := buf ++ [' '], foundChain := found} op.text
      {parts := parts ++ [⟨trimChars buf, some op⟩], foundChain := true} := by
    intro b rest
    cases op with
    | and =>
      have hstep : chainStep {parts := parts, buf := buf ++ [' '], foundChain := found} b '&' ('&' :: rest) =
          .go {parts := parts ++ [⟨trimChars buf, some .and⟩], foundChain := true} 1 := by
        simp [chainStep, isShellCommentStart, ChainState.cut, htrim, h]
      exact Scan.scan_go _ hstep
    | or =>
      have hstep : chainStep {parts := parts, buf := buf ++ [' '], foundChain := found} b '|' ('|' :: rest) =
          .go {parts := parts ++ [⟨trimChars buf, some .or⟩], foundChain := true} 1 := by
        simp [chainStep, isShellCommentStart, ChainState.cut, htrim, h]
      exact Scan.scan_go _ hstep
    | semicolon =>
      have hstep : chainStep {parts := parts, buf := buf ++ [' '], foundChain := found} b ';' rest =
          .go {parts := parts ++ [⟨trimChars buf, some .semicolon⟩], foundChain := true} 0 := by
        simp [chainStep, isShellCommentStart, ChainState.cut, htrim, h]
      exact Scan.scan_go _ hstep
  have hlast : Consumes chainStep {parts := parts ++ [⟨trimChars buf, some op⟩], foundChain := true} [' ']
      {parts := parts ++ [⟨trimChars buf, some op⟩], buf := [' '], foundChain := true} :=
    Consumes.one fun b rest => by simp [chainStep, ChainState.add, isShellCommentStart]
  exact hblank.append (hcut.append hlast)

theorem chain_reads (parts init : List ShellChainPart) (last : Text) {pre : Text} (hpre : White pre) (found : Bool)
    (hinit : ∀ p ∈ init, ReadablePart p.part ∧ p.opToNext ≠ none) (hlast : ReadablePart last) :
    ∃ pre', White pre' ∧
      Consumes chainStep {parts := parts, buf := pre, foundChain := found} (renderChain (init ++ [⟨last, none⟩]))
        {parts := parts ++ init, buf := pre' ++ last, foundChain := found || init ≠ []} := by
  induction init generalizing parts pre found with
  | nil =>
    refine ⟨pre, hpre, ?_⟩
    have h := hlast.reads {parts := parts, foundChain := found} pre
    simpa [renderChain, renderOperator] using h
  | cons p rest ih =>
    obtain ⟨hp, hop⟩ := hinit p (mem_cons_self ..)
    obtain ⟨op, hop⟩ := Option.ne_none_iff_exists'.mp hop
    have htrim : trimChars (pre ++ p.part) = p.part := by
      have := hp.ends.trim hpre white_nil
      rwa [append_nil] at this
    have hne : trimChars (pre ++ p.part) ≠ [] := by
      rw [htrim]
      intro he
      have := hp.ends.head
      rw [he] at this
      cases this
    have hpart := hp.reads {parts := parts, foundChain := found} pre
    have hoperator := chain_operator parts hne found op
    rw [htrim, ← hop] at hoperator
    obtain ⟨pre', hpre', hrest⟩ := ih (parts ++ [p]) white_blank true fun q hq => hinit q (mem_cons_of_mem _ hq)
    refine ⟨pre', hpre', ?_⟩
    have h := hpart.append (hoperator.append hrest)
    have htext : p.part ++ (renderOperator p.opToNext ++ renderChain (rest ++ [⟨last, none⟩])) =
        renderChain (p :: rest ++ [⟨last, none⟩]) := by
      rw [cons_append, renderChain, renderChain, flatMap_cons, append_assoc]
    rw [htext] at h
    simpa using h

/-- A written chain is split into its parts. A single part is no chain. -/
theorem splitCommandChain_rendered {init : List ShellChainPart} {last : Text}
    (hinit : ∀ p ∈ init, ReadablePart p.part ∧ p.opToNext ≠ none) (hlast : ReadablePart last) :
    splitCommandChainWithOperators (renderChain (init ++ [⟨last, none⟩])) =
      if init = [] then none else some (init ++ [⟨last, none⟩]) := by
  obtain ⟨pre, hpre, hreads⟩ := chain_reads [] init last white_nil false hinit hlast
  have htrim : trimChars (pre ++ last) = last := by
    have := hlast.ends.trim hpre white_nil
    rwa [append_nil] at this
  have hne : last ≠ [] := by
    intro he
    have := hlast.ends.head
    rw [he] at this
    cases this
  rw [splitCommandChainWithOperators, hreads.scan_eq]
  by_cases hempty : init = []
  · simp [ChainState.finish, hempty]
  · simp [ChainState.finish, hempty, htrim, hne]

end OpenClaw.Exec
