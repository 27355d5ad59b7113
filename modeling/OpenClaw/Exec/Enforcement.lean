import OpenClaw.Exec.Allowlist
import OpenClaw.Exec.ReadBack
import OpenClaw.Foundation.MapM

/-! What is executed is what was approved.

`approved_command_enforced`: where a line is approved and its enforced line is built,
analysing the enforced line gives the operators and the pipelines of the approved one,
and each segment's argv is the plan of the approved segment with its index. -/
namespace OpenClaw.Exec
open Foundation (Scan)
open Foundation.EcmaString List

/-! ### No token is empty -/

variable {raw command : Text} {argv : List Text} {segments : List ExecCommandSegment} {n : Nat}
  {argvs : List (List Text)} {parts : List ShellChainPart} {plans : List (List (List Text))}

theorem splitShellArgs_tokens (h : splitShellArgs raw = some argv) : [] ∉ argv := by
  have hpush (s : ArgsState) (hs : [] ∉ s.tokens) : [] ∉ s.pushToken.tokens := by
    unfold ArgsState.pushToken
    split
    · rename_i hlength
      intro hmem
      rcases mem_append.mp hmem with hmem | hmem
      · exact hs hmem
      · rw [← mem_singleton.mp hmem] at hlength
        exact absurd hlength (by decide)
    · exact hs
  unfold splitShellArgs at h
  cases hscan : Scan.scan argsStep {} none 0 raw with
  | error e => rw [hscan] at h; cases h
  | ok t =>
    rw [hscan] at h
    have ht : [] ∉ t.tokens := by
      refine Scan.scan_invariant argsStep (fun s _ => [] ∉ s.tokens) (fun s => [] ∉ s.tokens)
        ?_ ?_ (fun _ hs => hs) not_mem_nil hscan
      · intro s b c rest s' skip hs hstep
        unfold argsStep at hstep
        repeat' split at hstep
        all_goals cases hstep
        all_goals first
          | exact hs
          | exact hpush s hs
      · intro s b c rest s' hs hstep
        unfold argsStep at hstep
        repeat' split at hstep
        all_goals cases hstep
        exact hs
    dsimp only at h
    split at h
    · cases h
    · cases h
      exact hpush t ht

section
variable {host : Host}

/-- A planned argv is not empty, and neither is any token of it. -/
theorem planned_tokens {segment : ExecCommandSegment} (hsegment : parseSegment host raw = some segment)
    (h : resolvePlannedSegmentArgv segment = some argv) :
    argv ≠ [] ∧ [] ∉ argv := by
  obtain ⟨tokens, htokens, rfl⟩ := Option.map_eq_some_iff.mp hsegment
  obtain ⟨hsplit, hne⟩ := Option.filter_eq_some_iff.mp htokens
  have hfree := splitShellArgs_tokens hsplit
  unfold resolvePlannedSegmentArgv at h
  dsimp only at h
  split at h
  · split at h
    · cases h
    · cases h
      exact ⟨by simpa using hne, hfree⟩
  · rename_i resolution hresolution
    split at h
    · cases h
    · obtain ⟨token, _, hresolved⟩ := Option.map_eq_some_iff.mp hresolution
      have hbase : [] ∉ (if resolution.effectiveArgv ≠ [] then resolution.effectiveArgv else tokens) := by
        split
        · rw [← hresolved]
          exact fun hmem => hfree ((execPlan_suffix tokens).subset hmem)
        · exact hfree
      split at h
      · cases h
      · rename_i executable rest hargv
        cases h
        rw [hargv] at hbase
        refine ⟨cons_ne_nil _ _, fun hmem => ?_⟩
        rcases mem_cons.mp hmem with hhead | htail
        · split at hhead
          · rename_i hexecutable
            exact hexecutable hhead.symm
          · rw [← hhead] at hbase
            exact hbase (mem_cons_self ..)
        · exact hbase (mem_cons_of_mem _ htail)

/-! ### Rendering a plan -/

theorem renderPlannedSegment_ok {rendered : Text} (h : renderPlannedSegment segments raw n = .ok rendered) :
    ∃ segment argv, segments[n]? = some segment ∧ resolvePlannedSegmentArgv segment = some argv ∧
      rendered = renderPosixQuotedArgv argv := by
  unfold renderPlannedSegment at h
  split at h
  · cases h
  · rename_i segment hsegment
    split at h
    · cases h
    · rename_i argv hargv
      split at h
      · cases h
      · rename_i text htext
        cases h
        refine ⟨segment, argv, hsegment, hargv, ?_⟩
        rw [renderQuotedArgv, if_neg Bool.false_ne_true, Option.filter_eq_some_iff] at htext
        exact (Option.some.inj htext.1).symm

/-- The plans of the segments from index `n` on. -/
def Planned (segments : List ExecCommandSegment) (n : Nat) (argvs : List (List Text)) : Prop :=
  ((segments.drop n).take argvs.length).map resolvePlannedSegmentArgv = argvs.map some

theorem Planned.append {others : List (List Text)} (h : Planned segments n argvs)
    (h' : Planned segments (n + argvs.length) others) :
    Planned segments n (argvs ++ others) := by
  unfold Planned at h h' ⊢
  rw [length_append, take_add, map_append, map_append, h, drop_drop, h']

theorem renderSegments_ok {raws rendered : List Text}
    (h : renderSegments (renderPlannedSegment segments) n raws = .ok rendered) :
    ∃ argvs : List (List Text), rendered = argvs.map renderPosixQuotedArgv ∧ argvs.length = raws.length ∧
      Planned segments n argvs := by
  induction raws generalizing n rendered with
  | nil =>
    cases h
    exact ⟨[], rfl, rfl, rfl⟩
  | cons raw rest ih =>
    unfold renderSegments at h
    cases hfirst : renderPlannedSegment segments raw n with
    | error e => rw [hfirst] at h; cases h
    | ok text =>
      cases hothers : renderSegments (renderPlannedSegment segments) (n + 1) rest with
      | error e => rw [hfirst, hothers] at h; cases h
      | ok texts =>
        rw [hfirst, hothers] at h
        cases h
        obtain ⟨segment, argv, hsegment, hargv, rfl⟩ := renderPlannedSegment_ok hfirst
        obtain ⟨argvs, rfl, hlength, hplanned⟩ := ih hothers
        refine ⟨argv :: argvs, rfl, by rw [length_cons, length_cons, hlength], ?_⟩
        have hone : Planned segments n [argv] := by
          obtain ⟨hn, rfl⟩ := List.getElem?_eq_some_iff.mp hsegment
          unfold Planned
          rw [drop_eq_getElem_cons hn]
          exact congrArg (fun o => [o]) hargv
        exact hone.append hplanned

/-- What is rendered for a chain part: its plans, one for each segment the part is split into. -/
def RendersPart (part : ShellChainPart) (argvs : List (List Text)) : Prop :=
  ∃ raws, splitShellPipeline part.part = .ok raws ∧ argvs.length = raws.length

/-- The part that stands for `argvs` in the enforced line. -/
def renderedPart (part : ShellChainPart) (argvs : List (List Text)) : ShellChainPart :=
  ⟨joinWith " | ".toList (argvs.map renderPosixQuotedArgv), part.opToNext⟩

theorem rebuildParts_ok {rebuilt : RebuiltShellCommand}
    (h : rebuildParts (renderPlannedSegment segments) n parts = .ok rebuilt) :
    ∃ plans, List.Forall₂ RendersPart parts plans ∧
      rebuilt.command = renderChain (parts.zipWith renderedPart plans) ∧
      rebuilt.segmentCount = n + plans.flatten.length ∧ Planned segments n plans.flatten := by
  induction parts generalizing n rebuilt with
  | nil =>
    cases h
    exact ⟨[], .nil, rfl, rfl, rfl⟩
  | cons part rest ih =>
    unfold rebuildParts at h
    cases hraws : splitShellPipeline part.part with
    | error e => rw [hraws] at h; cases h
    | ok raws =>
      cases hrendered : renderSegments (renderPlannedSegment segments) n raws with
      | error e => simp only [hraws, hrendered, bind, Except.bind] at h; cases h
      | ok rendered =>
        cases hothers : rebuildParts (renderPlannedSegment segments) (n + raws.length) rest with
        | error e => simp only [hraws, hrendered, hothers, bind, Except.bind] at h; cases h
        | ok others =>
          simp only [hraws, hrendered, hothers, bind, Except.bind] at h
          cases h
          obtain ⟨argvs, rfl, hlength, hplanned⟩ := renderSegments_ok hrendered
          obtain ⟨plans, hparts, hcommand, hcount, hrest⟩ := ih hothers
          refine ⟨argvs :: plans, .cons ⟨raws, hraws, hlength⟩ hparts, ?_, ?_, ?_⟩
          · rw [hcommand, zipWith_cons_cons, renderChain, renderChain, flatMap_cons]
            rfl
          · rw [hcount, flatten_cons, length_append]
            omega
          · rw [flatten_cons]
            exact hplanned.append (by rwa [hlength])

/-! ### The approved line -/

variable (host) in
/-- The segments of a chain part. -/
def AnalyzesPart (part : ShellChainPart) (segments : List ExecCommandSegment) : Prop :=
  ∃ raws, splitShellPipeline part.part = .ok raws ∧
    List.Forall₂ (fun raw segment => parseSegment host raw = some segment) raws segments

theorem analyzePipeline_ok (h : analyzePipeline host command = .ok segments) (op : Option ShellChainOperator) :
    AnalyzesPart host ⟨command, op⟩ segments := by
  unfold analyzePipeline at h
  split at h
  · cases h
  · rename_i raws hraws
    split at h
    · cases h
    · rename_i parsed hparsed
      cases h
      exact ⟨raws, hraws, Foundation.mapM_some_iff.mp hparsed⟩

/-- A part that is rendered and analysed has one plan for each segment. -/
theorem lengths_agree {part : ShellChainPart} (h : RendersPart part argvs) (h' : AnalyzesPart host part segments) :
    segments.length = argvs.length := by
  obtain ⟨raws, hraws, hlength⟩ := h
  obtain ⟨raws', hraws', hsegments⟩ := h'
  rw [hraws] at hraws'
  cases hraws'
  rw [hlength, hsegments.length_eq]

theorem allowSkillPreludes_length (rules : AllowlistRules) (entries : List ChainEvaluation) :
    (allowSkillPreludes rules entries).2.length = entries.length := by
  induction entries with
  | nil => rfl
  | cons entry rest ih =>
    have hcons (p : Prop) [Decidable p] (a b : List Text × Bool) (preludes : List Bool) :
        (if p then (a.1, a.2 :: preludes) else (b.1, b.2 :: preludes)).2.length = preludes.length + 1 := by
      split <;> rfl
    unfold allowSkillPreludes
    dsimp only
    split
    · rw [length_cons, length_cons, ih]
    · refine (hcons _ (_, true) ([], false) _).trans ?_
      rw [ih, length_cons]

/-- Where every part is satisfied, no segment is left out. -/
theorem collectEvaluations_segments {result : ExecAllowlistAnalysis} {entries : List (ChainEvaluation × Bool)}
    (h : (collectEvaluations result entries).allowlistSatisfied = true) :
    (collectEvaluations result entries).segments =
      result.segments ++ (entries.map fun entry => entry.1.analysis.segments).flatten := by
  induction entries generalizing result with
  | nil => simp [collectEvaluations]
  | cons entry rest ih =>
    obtain ⟨entry, prelude⟩ := entry
    rw [collectEvaluations] at h ⊢
    dsimp only at h ⊢
    split at h
    · cases h
    · rename_i hgoes
      rw [if_neg hgoes, ih h, map_cons, flatten_cons, append_assoc]

theorem splitCommandChain_none (h : splitCommandChainWithOperators command = none) :
    analyzeShellCommand host command = (analyzePipeline host command).map fun segments => ⟨segments, none⟩ := by
  rw [analyzeShellCommand, splitCommandChain, h]
  rfl

theorem splitCommandChain_some (h : splitCommandChainWithOperators command = some parts) :
    analyzeShellCommand host command = ((parts.map (·.part)).mapM (analyzePipeline host)).map fun chains =>
      ⟨chains.flatten, some chains⟩ := by
  rw [analyzeShellCommand, splitCommandChain, h]
  rfl

/-- The groups of the analysis: one for each part of the line. -/
theorem analysis_groups {approved : ExecCommandAnalysis} (h : analyzeShellCommand host command = .ok approved) :
    List.Forall₂ (AnalyzesPart host) ((splitCommandChainWithOperators command).getD [⟨command, none⟩])
        approved.groups ∧ approved.segments = approved.groups.flatten := by
  cases hchain : splitCommandChainWithOperators command with
  | none =>
    rw [splitCommandChain_none hchain] at h
    cases hsegments : analyzePipeline host command with
    | error e => rw [hsegments] at h; cases h
    | ok segments =>
      rw [hsegments] at h
      cases h
      exact ⟨.cons (analyzePipeline_ok hsegments none) .nil, (append_nil _).symm⟩
  | some parts =>
    rw [splitCommandChain_some hchain] at h
    cases hchains : (parts.map (·.part)).mapM (analyzePipeline host) with
    | error e => rw [hchains] at h; cases h
    | ok chains =>
      rw [hchains] at h
      cases h
      refine ⟨?_, rfl⟩
      have hall := forall₂_map_left_iff.mp (Foundation.mapM_ok_iff.mp hchains)
      exact hall.imp fun part segments hsegments => analyzePipeline_ok hsegments part.opToNext

/-- A satisfied evaluation returns the segments of the whole line's analysis. -/
theorem evaluateShellAllowlist_segments {rules : AllowlistRules}
    (h : (evaluateShellAllowlist host rules command).allowlistSatisfied = true) :
    hasShellLineContinuation command = false ∧
    ∃ approved, analyzeShellCommand host command = .ok approved ∧
      (evaluateShellAllowlist host rules command).segments = approved.segments := by
  unfold evaluateShellAllowlist at h ⊢
  by_cases hcontinuation : hasShellLineContinuation command = true
  · rw [if_pos hcontinuation] at h
    cases h
  rw [if_neg hcontinuation] at h ⊢
  refine ⟨by simpa using hcontinuation, ?_⟩
  cases hchain : splitCommandChainWithOperators command with
  | none =>
    rw [hchain] at h
    cases hanalysis : analyzeShellCommand host command with
    | error e => rw [hanalysis] at h; cases h
    | ok approved => exact ⟨approved, rfl, rfl⟩
  | some parts =>
    rw [hchain] at h
    dsimp only at h ⊢
    cases hentries : parts.mapM (evaluateChainPart host rules) with
    | error e => rw [hentries] at h; cases h
    | ok entries =>
      rw [hentries] at h
      dsimp only at h ⊢
      have hplain := chain_parts_plain (by simpa using hcontinuation) hchain
      have hparts : List.Forall₂ (fun part entry => analyzePipeline host part.part = .ok entry.analysis.segments)
          parts entries := by
        refine ((forall₂_and_left _ _).mpr ⟨hplain, Foundation.mapM_ok_iff.mp hentries⟩).imp ?_
        rintro part entry ⟨hnone, hentry⟩
        rw [evaluateChainPart, splitCommandChain_none hnone] at hentry
        cases hsegments : analyzePipeline host part.part with
        | error e => rw [hsegments] at hentry; cases hentry
        | ok segments =>
          rw [hsegments] at hentry
          cases hentry
          rfl
      have hchains : (parts.map (·.part)).mapM (analyzePipeline host) =
          .ok (entries.map fun entry => entry.analysis.segments) := by
        rw [Foundation.mapM_ok_iff, forall₂_map_left_iff, forall₂_map_right_iff]
        exact hparts
      refine ⟨⟨(entries.map fun entry => entry.analysis.segments).flatten,
        some (entries.map fun entry => entry.analysis.segments)⟩, ?_, ?_⟩
      · rw [splitCommandChain_some hchain, hchains]
        rfl
      · rw [collectEvaluations_segments h, nil_append]
        have hzip : (entries.zip (allowSkillPreludes rules entries).2).map (fun entry => entry.1.analysis.segments) =
            entries.map fun entry => entry.analysis.segments := by
          have hfst := @map_fst_zip _ _ entries (allowSkillPreludes rules entries).2
            (allowSkillPreludes_length rules entries).ge
          conv_rhs => rw [← hfst, map_map]
          rfl
        rw [hzip]

/-! ### The enforced line -/

variable (host) in
/-- The segment read back for an argv. -/
def segmentOf (argv : List Text) : ExecCommandSegment :=
  {raw := renderPosixQuotedArgv argv, argv, resolution := resolveCommandResolutionFromArgv host argv}

/-- Plans that are read back as they are. -/
def ReadableArgv (argv : List Text) : Prop := argv ≠ [] ∧ [] ∉ argv

theorem parseSegment_rendered (h : ReadableArgv argv) :
    parseSegment host (renderPosixQuotedArgv argv) = some (segmentOf host argv) := by
  have hkeep : argv.filter (· ≠ []) = argv :=
    filter_eq_self.mpr fun token htoken => decide_eq_true fun he => h.2 (he ▸ htoken)
  rw [parseSegment, splitShellArgs_rendered, hkeep, Option.filter_some, if_pos (by simpa using h.1)]
  rfl

theorem analyzePipeline_rendered (hne : argvs ≠ []) (h : ∀ a ∈ argvs, ReadableArgv a) :
    analyzePipeline host (joinWith " | ".toList (argvs.map renderPosixQuotedArgv)) =
      .ok (argvs.map (segmentOf host)) := by
  have hparse : parseSegmentsFromParts host (argvs.map renderPosixQuotedArgv) =
      some (argvs.map (segmentOf host)) := by
    rw [parseSegmentsFromParts, Foundation.mapM_some_iff, forall₂_map_left_iff, forall₂_map_right_iff,
      forall₂_same]
    exact fun argv hargv => parseSegment_rendered (h argv hargv)
  rw [analyzePipeline, splitShellPipeline_rendered hne fun a ha => (h a ha).1]
  dsimp only
  rw [hparse]

/-- A chain: every part but the last has an operator, and there is more than one part. -/
theorem splitCommandChain_form (h : splitCommandChainWithOperators command = some parts) :
    ∃ init last, parts = init ++ [⟨last, none⟩] ∧ init ≠ [] ∧ ∀ p ∈ init, p.opToNext ≠ none := by
  unfold splitCommandChainWithOperators at h
  cases hscan : Scan.scan chainStep {} none 0 command with
  | error e => rw [hscan] at h; cases h
  | ok t =>
    rw [hscan] at h
    have ht : (∀ p ∈ t.parts, p.opToNext ≠ none) ∧ (t.foundChain = true → t.invalidChain = true ∨ t.parts ≠ []) := by
      refine Scan.scan_invariant chainStep
        (fun s _ => (∀ p ∈ s.parts, p.opToNext ≠ none) ∧
          (s.foundChain = true → s.invalidChain = true ∨ s.parts ≠ []))
        (fun s => (∀ p ∈ s.parts, p.opToNext ≠ none) ∧
          (s.foundChain = true → s.invalidChain = true ∨ s.parts ≠ []))
        ?_ ?_ (fun _ hs => hs) ⟨fun p hp => absurd hp not_mem_nil, fun hfound => absurd hfound (by decide)⟩ hscan
      · intro s b c rest s' skip hs hstep
        have hmove := chainStep_move s b c rest
        rw [hstep] at hmove
        cases hmove with
        | cut hquotes op skip =>
          unfold ChainState.cut
          split
          · exact ⟨hs.1, fun _ => Or.inl rfl⟩
          · refine ⟨fun p hp => ?_, fun _ => Or.inr (by simp)⟩
            rcases mem_append.mp hp with hp | hp
            · exact hs.1 p hp
            · rw [mem_singleton.mp hp]
              exact Option.some_ne_none op
        | _ => exact hs
      · intro s b c rest s' hs hstep
        have hmove := chainStep_move s b c rest
        rw [hstep] at hmove
        cases hmove with
        | stop invalid hinvalid => exact ⟨hs.1, fun hfound => (hs.2 hfound).imp_left hinvalid⟩
    dsimp only at h
    unfold ChainState.finish at h
    split at h
    · cases h
    · rename_i hfinish
      cases h
      simp only [Bool.or_eq_true, Bool.not_eq_true', not_or, Bool.not_eq_false, Bool.not_eq_true,
        decide_eq_true_eq] at hfinish
      refine ⟨t.parts, _, rfl, ?_, ht.1⟩
      rcases ht.2 hfinish.1.1 with hinvalid | hne
      · rw [hfinish.2] at hinvalid
        cases hinvalid
      · exact hne

theorem renderedPart_texts (h : parts.length = plans.length) :
    (parts.zipWith renderedPart plans).map (·.part) =
      plans.map fun argvs => joinWith " | ".toList (argvs.map renderPosixQuotedArgv) := by
  induction parts generalizing plans with
  | nil => rw [eq_nil_of_length_eq_zero h.symm, zipWith_nil_left, map_nil, map_nil]
  | cons part rest ih =>
    cases plans with
    | nil => cases h
    | cons argvs plans =>
      rw [zipWith_cons_cons, map_cons, map_cons, ih (Nat.succ.inj h)]
      rfl

theorem renderedPart_operators (h : parts.length = plans.length) :
    (parts.zipWith renderedPart plans).map (·.opToNext) = parts.map (·.opToNext) := by
  induction parts generalizing plans with
  | nil => rfl
  | cons part rest ih =>
    cases plans with
    | nil => cases h
    | cons argvs plans =>
      rw [zipWith_cons_cons, map_cons, map_cons, ih (Nat.succ.inj h)]
      rfl

/-- The enforced line's analysis, from the plans. -/
theorem analyze_rendered {parts : List ShellChainPart} {plans : List (List (List Text))}
    {init : List ShellChainPart} {last : Text} (hform : parts = init ++ [⟨last, none⟩])
    (hops : ∀ p ∈ init, p.opToNext ≠ none) (hlength : parts.length = plans.length)
    (hplans : ∀ argvs ∈ plans, argvs ≠ [] ∧ ∀ a ∈ argvs, ReadableArgv a) :
    splitCommandChainWithOperators (renderChain (parts.zipWith renderedPart plans)) =
        (if init = [] then none else some (parts.zipWith renderedPart plans)) ∧
      ∃ again, analyzeShellCommand host (renderChain (parts.zipWith renderedPart plans)) = .ok again ∧
        again.groups = plans.map (·.map (segmentOf host)) ∧ again.segments = again.groups.flatten := by
  subst hform
  have hplansne : plans ≠ [] := by
    rintro rfl
    simp at hlength
  obtain ⟨front, final, rfl⟩ : ∃ front final, plans = front ++ [final] :=
    ⟨plans.dropLast, plans.getLast hplansne, (dropLast_append_getLast hplansne).symm⟩
  have hfront : init.length = front.length := by
    simpa using hlength
  have hfinal := hplans final (mem_append_right _ (mem_singleton_self _))
  have htexts := renderedPart_texts hlength
  have hzip : List.zipWith renderedPart (init ++ [⟨last, none⟩]) (front ++ [final]) =
      init.zipWith renderedPart front ++ [⟨joinWith " | ".toList (final.map renderPosixQuotedArgv), none⟩] :=
    zipWith_append hfront
  rw [hzip] at htexts ⊢
  have hreadable (argvs : List (List Text)) (h : argvs ≠ [] ∧ ∀ a ∈ argvs, ReadableArgv a) :
      ReadablePart (joinWith " | ".toList (argvs.map renderPosixQuotedArgv)) :=
    readablePart_rendered h.1 fun a ha => (h.2 a ha).1
  have hinit : ∀ p ∈ init.zipWith renderedPart front, ReadablePart p.part ∧ p.opToNext ≠ none := by
    intro p hp
    rw [← map_uncurry_zip_eq_zipWith, mem_map] at hp
    obtain ⟨⟨part, argvs⟩, hzip, rfl⟩ := hp
    obtain ⟨hpart, hargvs⟩ := of_mem_zip hzip
    exact ⟨hreadable argvs (hplans argvs (mem_append_left _ hargvs)), hops part hpart⟩
  have hsplit := splitCommandChain_rendered hinit (hreadable final hfinal)
  have hempty : init.zipWith renderedPart front = [] ↔ init = [] := by
    rw [zipWith_eq_nil_iff]
    constructor
    · rintro (h | h)
      · exact h
      · rw [h] at hfront
        exact eq_nil_of_length_eq_zero hfront
    · exact Or.inl
  simp only [hempty] at hsplit
  refine ⟨hsplit, ?_⟩
  by_cases hsingle : init = []
  · subst hsingle
    obtain rfl : front = [] := eq_nil_of_length_eq_zero hfront.symm
    rw [if_pos rfl] at hsplit
    refine ⟨⟨final.map (segmentOf host), none⟩, ?_, rfl, (append_nil _).symm⟩
    rw [splitCommandChain_none hsplit]
    have htext : renderChain (List.zipWith renderedPart [] [] ++
        [⟨joinWith " | ".toList (final.map renderPosixQuotedArgv), none⟩]) =
          joinWith " | ".toList (final.map renderPosixQuotedArgv) := by
      simp [renderChain, renderOperator]
    rw [htext, analyzePipeline_rendered hfinal.1 hfinal.2]
    rfl
  · rw [if_neg hsingle] at hsplit
    refine ⟨⟨((front ++ [final]).map (·.map (segmentOf host))).flatten,
      some ((front ++ [final]).map (·.map (segmentOf host)))⟩, ?_, rfl, rfl⟩
    rw [splitCommandChain_some hsplit]
    have hall : ((front ++ [final]).map fun argvs => joinWith " | ".toList (argvs.map renderPosixQuotedArgv)).mapM
        (analyzePipeline host) = .ok ((front ++ [final]).map (·.map (segmentOf host))) := by
      rw [Foundation.mapM_ok_iff, forall₂_map_left_iff, forall₂_map_right_iff, forall₂_same]
      exact fun argvs hargvs => analyzePipeline_rendered (hplans argvs hargvs).1 (hplans argvs hargvs).2
    rw [htexts, hall]
    rfl

/-! ### Approved and enforced -/

/-- The parts enforcement sees: those of the trimmed line. -/
def enforcedParts (command : Text) : List ShellChainPart :=
  (splitCommandChainWithOperators (trimChars command)).getD [⟨trimChars command, none⟩]

theorem buildEnforcedShellCommand_ok {enforced : Text}
    (h : buildEnforcedShellCommand command segments = .ok enforced) :
    ∃ plans, List.Forall₂ RendersPart (enforcedParts command) plans ∧
      enforced = renderChain ((enforcedParts command).zipWith renderedPart plans) ∧
      segments.map resolvePlannedSegmentArgv = plans.flatten.map some := by
  unfold buildEnforcedShellCommand finalizeRebuiltShellCommand rebuildShellCommandFromSource at h
  dsimp only at h
  split at h
  · cases h
  · rename_i rebuilt hrebuilt
    split at hrebuilt
    · cases hrebuilt
    · obtain ⟨plans, hparts, hcommand, hcount, hplanned⟩ := rebuildParts_ok hrebuilt
      split at h
      · cases h
      · rename_i hsame
        cases h
        refine ⟨plans, hparts, hcommand, ?_⟩
        rw [Nat.zero_add, Decidable.not_not.mp hsame] at hcount
        unfold Planned at hplanned
        rwa [drop_zero, ← hcount, take_length] at hplanned

theorem splitShellPipeline_ne_nil {text : Text} {raws : List Text} (h : splitShellPipeline text = .ok raws) :
    raws ≠ [] := by
  obtain ⟨s, _, hfinish⟩ := splitShellPipeline_ok h
  have hraws := finish_segments hfinish
  rintro rfl
  unfold PipelineState.finish at hfinish
  rw [if_pos hraws.symm] at hfinish
  repeat' split at hfinish
  all_goals cases hfinish

/-- The enforced parts are those of the line, with as many plans as there are segments. -/
theorem enforcedParts_lengths (hcontinuation : hasShellLineContinuation command = false)
    {groups : List (List ExecCommandSegment)} (hplans : List.Forall₂ RendersPart (enforcedParts command) plans)
    (hgroups : List.Forall₂ (AnalyzesPart host) ((splitCommandChainWithOperators command).getD [⟨command, none⟩]) groups) :
    groups.map List.length = plans.map List.length := by
  rw [enforcedParts, splitCommandChain_trim hcontinuation] at hplans
  cases hchain : splitCommandChainWithOperators command with
  | some parts =>
    rw [hchain, Option.getD_some] at hplans hgroups
    clear hchain hcontinuation
    induction hplans generalizing groups with
    | nil =>
      cases hgroups
      rfl
    | cons hpart _ ih =>
      cases hgroups with
      | cons hgroup hrest => rw [map_cons, map_cons, lengths_agree hpart hgroup, ih hrest]
  | none =>
    rw [hchain, Option.getD_none] at hplans hgroups
    obtain ⟨argvs, _, hpart, hnil, rfl⟩ := forall₂_cons_left_iff.mp hplans
    obtain ⟨segments, _, hgroup, hnil', rfl⟩ := forall₂_cons_left_iff.mp hgroups
    cases hnil
    cases hnil'
    obtain ⟨raws', hraws', hlength⟩ := hpart
    obtain ⟨raws, hraws, hsegments⟩ := hgroup
    obtain rfl := splitShellPipeline_trim hcontinuation hraws hraws'
    rw [map_singleton, map_singleton, hlength, hsegments.length_eq]

theorem enforcedParts_form (command : Text) :
    ∃ init last, enforcedParts command = init ++ [⟨last, none⟩] ∧ (∀ p ∈ init, p.opToNext ≠ none) ∧
      splitCommandChainWithOperators (trimChars command) =
        if init = [] then none else some (enforcedParts command) := by
  unfold enforcedParts
  cases hchain : splitCommandChainWithOperators (trimChars command) with
  | none => exact ⟨[], trimChars command, rfl, fun p hp => absurd hp not_mem_nil, (if_pos rfl).symm⟩
  | some parts =>
    obtain ⟨init, last, hform, hne, hops⟩ := splitCommandChain_form hchain
    exact ⟨init, last, hform, hops, (if_neg hne).symm⟩

theorem approved_command_enforced (host : Host) (rules : AllowlistRules) (command enforced : Text)
    (hsatisfied : (evaluateShellAllowlist host rules command).allowlistSatisfied = true)
    (hbuilt : buildEnforcedShellCommand command (evaluateShellAllowlist host rules command).segments = .ok enforced) :
    (splitCommandChainWithOperators enforced).map (·.map (·.opToNext)) =
        (splitCommandChainWithOperators command).map (·.map (·.opToNext)) ∧
      ∃ approved again, analyzeShellCommand host command = .ok approved ∧
        approved.segments = (evaluateShellAllowlist host rules command).segments ∧
        analyzeShellCommand host enforced = .ok again ∧
        again.groups.map List.length = approved.groups.map List.length ∧
        again.segments.map (fun segment => some segment.argv) =
          approved.segments.map resolvePlannedSegmentArgv := by
  obtain ⟨hcontinuation, approved, hanalysis, hsegments⟩ := evaluateShellAllowlist_segments hsatisfied
  rw [hsegments] at hbuilt
  obtain ⟨plans, hrenders, henforced, hplanned⟩ := buildEnforcedShellCommand_ok hbuilt
  obtain ⟨hgroups, hflatten⟩ := analysis_groups hanalysis
  have hlengths := enforcedParts_lengths hcontinuation hrenders hgroups
  have hreadable : ∀ argvs ∈ plans, argvs ≠ [] ∧ ∀ a ∈ argvs, ReadableArgv a := by
    intro argvs hargvs
    constructor
    · obtain ⟨part, _, raws, hraws, hlength⟩ := Foundation.forall₂_exists_left hrenders hargvs
      rintro rfl
      exact splitShellPipeline_ne_nil hraws (eq_nil_of_length_eq_zero hlength.symm)
    · intro argv hargv
      have hmem : some argv ∈ approved.segments.map resolvePlannedSegmentArgv := by
        rw [hplanned]
        exact mem_map_of_mem (mem_flatten_of_mem hargvs hargv)
      obtain ⟨segment, hsegment, hargv⟩ := mem_map.mp hmem
      rw [hflatten, mem_flatten] at hsegment
      obtain ⟨group, hgroup, hsegment⟩ := hsegment
      obtain ⟨part, _, raws, _, hparsed⟩ := Foundation.forall₂_exists_left hgroups hgroup
      obtain ⟨raw, _, hparse⟩ := Foundation.forall₂_exists_left hparsed hsegment
      exact planned_tokens hparse hargv
  obtain ⟨init, last, hform, hops, hchain⟩ := enforcedParts_form command
  obtain ⟨hsplit, again, hagain, hagainGroups, hagainSegments⟩ :=
    @analyze_rendered host _ _ _ _ hform hops hrenders.length_eq hreadable
  rw [← henforced] at hsplit hagain
  refine ⟨?_, approved, again, hanalysis, hsegments.symm, hagain, ?_, ?_⟩
  · rw [hsplit, ← splitCommandChain_trim hcontinuation, hchain]
    split
    · rfl
    · rw [Option.map_some, Option.map_some, renderedPart_operators hrenders.length_eq]
  · rw [hlengths, hagainGroups, map_map]
    exact map_congr_left fun argvs _ => length_map _
  · rw [hplanned, hagainSegments, hagainGroups, ← map_flatten, map_map]
    rfl

/-- A host that finds every name in one directory. -/
def usrBinHost : Host where
  platform := .linux
  toLowerCase := List.map lowerAscii
  resolveExecutablePath name := some ("/usr/bin/".toList ++ name)
  realpathSync path := some path

/-- Rules that let everything run. -/
def permissiveRules : AllowlistRules where
  evaluateExecAllowlist analysis :=
    ⟨true, [], analysis.segments.map fun _ => none, analysis.segments.map fun _ => some .allowlist⟩
  resolveTrustedSkillExecutionIds _ _ := []
  isSkillPreludeOnlyEvaluation _ := false
  resolveSkillPreludeIds _ := []

theorem approved_command_enforced_pipeline :
    ∃ approved again, analyzeShellCommand usrBinHost "nice ls 'a b' | wc && id # x".toList = .ok approved ∧
      analyzeShellCommand usrBinHost "'/usr/bin/ls' 'a b' | '/usr/bin/wc' && '/usr/bin/id'".toList = .ok again ∧
      again.segments.map (fun segment => some segment.argv) = approved.segments.map resolvePlannedSegmentArgv := by
  have h := approved_command_enforced usrBinHost permissiveRules "nice ls 'a b' | wc && id # x".toList
    "'/usr/bin/ls' 'a b' | '/usr/bin/wc' && '/usr/bin/id'".toList (by decide) (by decide)
  obtain ⟨_, approved, again, happroved, _, hagain, _, hargvs⟩ := h
  exact ⟨approved, again, happroved, hagain, hargvs⟩

end

end OpenClaw.Exec
