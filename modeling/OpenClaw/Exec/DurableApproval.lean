import OpenClaw.Exec.Enforcement
import OpenClaw.Exec.SegmentEvaluation

/-! A durable approval is one of the whole command.

A command runs without being asked about when each of its segments was allowed for good.
The list of entries that says so may stop early, but only behind a segment without an
entry, so a list of nothing but entries is complete. -/
namespace OpenClaw.Exec

open List

section
variable {host : PathHost} {context : ExecAllowlistContext}

/-! ### Segments -/

/-- An entry for each segment, or one is missing. -/
def Complete (satisfied : Bool) (entries : List (Option ExecAllowlistEntry)) (segments : List ExecCommandSegment) : Prop :=
  if satisfied then entries.length = segments.length else none ∈ entries

theorem Complete.push {rest : SegmentsEvaluation} {segments : List ExecCommandSegment}
    (h : Complete rest.satisfied rest.segmentAllowlistEntries segments) (entriesMatched : List ExecAllowlistEntry)
    (entry : Option ExecAllowlistEntry) (satisfiedBy : Option ExecSegmentSatisfiedBy) (segment : ExecCommandSegment) :
    let result := rest.push entriesMatched entry satisfiedBy
    Complete result.satisfied result.segmentAllowlistEntries (segment :: segments) := by
  intro result
  show Complete rest.satisfied (entry :: rest.segmentAllowlistEntries) (segment :: segments)
  unfold Complete at h ⊢
  split at h
  · rw [if_pos ‹_›, length_cons, length_cons, h]
  · rw [if_neg ‹_›]
    exact mem_cons_of_mem _ h

theorem evaluateSegmentsWith_complete (inlineChain : Text → Option (List ExecAllowlistEntry))
    (segments : List ExecCommandSegment) :
    let result := evaluateSegmentsWith host context inlineChain segments
    Complete result.satisfied result.segmentAllowlistEntries segments := by
  induction segments with
  | nil => exact rfl
  | cons segment rest ih =>
    unfold evaluateSegmentsWith
    dsimp only at ih ⊢
    split
    · exact mem_singleton_self _
    · split
      · exact ih.push _ _ _ segment
      · rename_i hnone
        split
        · exact ih.push _ _ _ segment
        · -- nothing satisfies the segment, an entry least of all
          have hentry : (resolveSegmentAllowlistMatch host context segment).entry = none := by
            by_contra hne
            rw [resolveSegmentSatisfaction, if_pos hne] at hnone
            cases hnone
          show none ∈ [_]
          rw [hentry]
          exact mem_singleton_self _

theorem evaluateSegments_complete (depth : Nat) (segments : List ExecCommandSegment) :
    let result := evaluateSegments host context depth segments
    Complete result.satisfied result.segmentAllowlistEntries segments := by
  cases depth <;> exact evaluateSegmentsWith_complete _ segments

theorem evaluateExecAllowlist_complete {analysis : ExecCommandAnalysis} (hchains : analysis.chains = none)
    (hsegments : analysis.segments ≠ []) :
    let evaluation := evaluateExecAllowlist host context analysis
    Complete evaluation.allowlistSatisfied evaluation.segmentAllowlistEntries analysis.segments := by
  rw [evaluateExecAllowlist, if_neg hsegments, hchains]
  exact evaluateSegments_complete _ _

/-! ### Chains -/

/-- A part that is judged completely. -/
def CompletePart (entry : ChainEvaluation) : Prop :=
  entry.analysis.segments ≠ [] ∧
    Complete entry.evaluation.allowlistSatisfied entry.evaluation.segmentAllowlistEntries entry.analysis.segments

/-- The result with one part more. -/
def pushPart (result : ExecAllowlistAnalysis) (entry : ChainEvaluation) (prelude : Bool) : ExecAllowlistAnalysis :=
  {result with
    segments := result.segments ++ entry.analysis.segments
    allowlistMatches := result.allowlistMatches ++ entry.evaluation.allowlistMatches
    segmentAllowlistEntries := result.segmentAllowlistEntries ++
      (if prelude then entry.analysis.segments.map fun _ => none else entry.evaluation.segmentAllowlistEntries)
    segmentSatisfiedBy := result.segmentSatisfiedBy ++
      (if prelude then entry.analysis.segments.map fun _ => some .skillPrelude else entry.evaluation.segmentSatisfiedBy)}

theorem collectEvaluations_cons (result : ExecAllowlistAnalysis) (entry : ChainEvaluation) (prelude : Bool)
    (rest : List (ChainEvaluation × Bool)) :
    collectEvaluations result ((entry, prelude) :: rest) =
      if !entry.evaluation.allowlistSatisfied && !prelude then
        {pushPart result entry prelude with allowlistSatisfied := false}
      else collectEvaluations (pushPart result entry prelude) rest := rfl

theorem collectEvaluations_entries (result : ExecAllowlistAnalysis) (entries : List (ChainEvaluation × Bool)) :
    result.segmentAllowlistEntries <+: (collectEvaluations result entries).segmentAllowlistEntries := by
  induction entries generalizing result with
  | nil => exact prefix_refl _
  | cons pair rest ih =>
    obtain ⟨entry, prelude⟩ := pair
    have hpush : result.segmentAllowlistEntries <+: (pushPart result entry prelude).segmentAllowlistEntries :=
      prefix_append _ _
    rw [collectEvaluations_cons]
    split
    · exact hpush
    · exact hpush.trans (ih _)

/-- Where no entry is missing, every part was satisfied, and none was taken for a prelude. -/
theorem collectEvaluations_complete {result : ExecAllowlistAnalysis} {entries : List (ChainEvaluation × Bool)}
    (hparts : ∀ entry ∈ entries, CompletePart entry.1) (hresult : result.allowlistSatisfied = true)
    (hlength : result.segmentAllowlistEntries.length = result.segments.length)
    (hentries : none ∉ (collectEvaluations result entries).segmentAllowlistEntries) :
    (collectEvaluations result entries).allowlistSatisfied = true ∧
      (collectEvaluations result entries).segmentAllowlistEntries.length =
        (collectEvaluations result entries).segments.length := by
  induction entries generalizing result with
  | nil => exact ⟨hresult, hlength⟩
  | cons pair rest ih =>
    obtain ⟨entry, prelude⟩ := pair
    obtain ⟨hsegments, hcomplete⟩ := hparts _ mem_cons_self
    have hpushed : none ∉ (pushPart result entry prelude).segmentAllowlistEntries := by
      intro hmem
      rw [collectEvaluations_cons] at hentries
      split at hentries
      · exact hentries hmem
      · exact hentries ((collectEvaluations_entries _ _).mem hmem)
    have hprelude : prelude = false := by
      rw [Bool.eq_false_iff]
      rintro rfl
      obtain ⟨segment, hsegment⟩ := exists_mem_of_ne_nil _ hsegments
      exact hpushed (mem_append_right _ (mem_map.mpr ⟨segment, hsegment, rfl⟩))
    subst hprelude
    unfold Complete at hcomplete
    cases hsatisfied : entry.evaluation.allowlistSatisfied with
    | false =>
      rw [hsatisfied] at hcomplete
      exact absurd (mem_append_right _ hcomplete) hpushed
    | true =>
      rw [hsatisfied, if_pos rfl] at hcomplete
      rw [collectEvaluations_cons, hsatisfied] at hentries ⊢
      refine ih (fun entry hentry => hparts entry (mem_cons_of_mem _ hentry)) hresult ?_ hentries
      show (result.segmentAllowlistEntries ++ entry.evaluation.segmentAllowlistEntries).length =
        (result.segments ++ entry.analysis.segments).length
      rw [length_append, length_append, hlength, hcomplete]

/-! ### The command -/

theorem analyzePipeline_ne_nil {command : Text} {segments : List ExecCommandSegment}
    (h : analyzePipeline host.toHost command = .ok segments) : segments ≠ [] := by
  obtain ⟨raws, hraws, hsegments⟩ := analyzePipeline_ok h none
  rintro rfl
  cases hsegments
  exact splitShellPipeline_ne_nil hraws rfl

theorem windows_analysis_plain {command : Text} {analysis : ExecCommandAnalysis}
    (h : analyzeWindowsShellCommand host.toHost command = .ok analysis) :
    analysis.chains = none ∧ analysis.segments ≠ [] := by
  unfold analyzeWindowsShellCommand at h
  dsimp only at h
  split at h
  · cases h
  · split at h
    · cases h
    · split at h
      · cases h
      · cases h
        exact ⟨rfl, cons_ne_nil _ _⟩

/-- Entries for all that was judged, if none is missing. -/
def NoneMissing (result : ExecAllowlistAnalysis) : Prop :=
  result.analysisOk = true → none ∉ result.segmentAllowlistEntries →
    result.allowlistSatisfied = true ∧ result.segmentAllowlistEntries.length = result.segments.length

theorem noneMissing_evaluation {analysis : ExecCommandAnalysis} (hchains : analysis.chains = none)
    (hsegments : analysis.segments ≠ []) :
    let evaluation := evaluateExecAllowlist host context analysis
    NoneMissing ⟨true, evaluation.allowlistSatisfied, evaluation.allowlistMatches, analysis.segments,
      evaluation.segmentAllowlistEntries, evaluation.segmentSatisfiedBy⟩ := by
  intro evaluation _ hentries
  have hcomplete := @evaluateExecAllowlist_complete host context analysis hchains hsegments
  dsimp only at hcomplete
  unfold Complete at hcomplete
  split at hcomplete
  · exact ⟨‹_›, hcomplete⟩
  · exact absurd hcomplete hentries

theorem noneMissing_failure : NoneMissing analysisFailure := by
  intro h
  cases h

theorem evaluateShellAllowlist_noneMissing (command : Text) :
    NoneMissing (evaluateShellAllowlist host.toHost (allowlistRules host context) command) := by
  unfold evaluateShellAllowlist
  by_cases hcontinuation : hasShellLineContinuation command = true
  · rw [if_pos hcontinuation]
    exact noneMissing_failure
  rw [if_neg hcontinuation]
  cases hchain : splitCommandChainWithOperators command with
  | none =>
    dsimp only
    rw [splitCommandChain_none hchain]
    cases hsegments : analyzePipeline host.toHost command with
    | error e => exact noneMissing_failure
    | ok segments => exact noneMissing_evaluation rfl (analyzePipeline_ne_nil hsegments)
  | some parts =>
    dsimp only
    cases hentries : parts.mapM (evaluateChainPart host.toHost (allowlistRules host context)) with
    | error e => exact noneMissing_failure
    | ok entries =>
      have hplain := chain_parts_plain (by simpa using hcontinuation) hchain
      have hparts : ∀ entry ∈ entries, CompletePart entry := by
        intro entry hentry
        obtain ⟨part, hpart, heval⟩ :=
          Foundation.forall₂_exists_left (Foundation.mapM_ok_iff.mp hentries) hentry
        rw [evaluateChainPart, splitCommandChain_none (hplain part hpart)] at heval
        cases hsegments : analyzePipeline host.toHost part.part with
        | error e => rw [hsegments] at heval; cases heval
        | ok segments =>
          rw [hsegments] at heval
          cases heval
          have hne := analyzePipeline_ne_nil hsegments
          exact ⟨hne, evaluateExecAllowlist_complete rfl hne⟩
      intro _ hnone
      refine collectEvaluations_complete (fun pair hpair => hparts pair.1 ?_) rfl rfl hnone
      exact (of_mem_zip hpair).1

end

theorem no_entry_missing {analysisOk : Bool} {entries : List (Option ExecAllowlistEntry)}
    (h : hasSegmentDurableExecApproval analysisOk entries = true) : analysisOk = true ∧ none ∉ entries := by
  simp only [hasSegmentDurableExecApproval, Bool.and_eq_true, all_eq_true] at h
  refine ⟨h.1.1, fun hmem => ?_⟩
  have := h.2 none hmem
  cases this

/-- **A durable approval of the segments is one of the whole command**: everything in it was
satisfied, and each of its segments has an entry. -/
theorem durable_approval_satisfied (host : PathHost) (context : ExecAllowlistContext) (command : Text)
    (h : let result := evaluateCommandAllowlist host context command
      hasSegmentDurableExecApproval result.analysisOk result.segmentAllowlistEntries = true) :
    let result := evaluateCommandAllowlist host context command
    result.allowlistSatisfied = true ∧
      ∃ analysis, analyzeCommand host context command = .ok analysis ∧ result.segments = analysis.segments ∧
        result.segmentAllowlistEntries.length = analysis.segments.length := by
  obtain ⟨hok, hnone⟩ := no_entry_missing h
  dsimp only at hok hnone ⊢
  unfold evaluateCommandAllowlist at hok hnone ⊢
  by_cases hcontinuation : hasShellLineContinuation command = true
  · rw [if_pos hcontinuation] at hok
    cases hok
  rw [if_neg hcontinuation] at hok hnone ⊢
  by_cases hwindows : context.platform.any isWindowsPlatform = true
  · rw [if_pos hwindows] at hok hnone ⊢
    cases hanalysis : analyzeWindowsShellCommand host.toHost command with
    | error e =>
      rw [hanalysis] at hok
      cases hok
    | ok analysis =>
      rw [hanalysis] at hok hnone
      obtain ⟨hchains, hsegments⟩ := windows_analysis_plain hanalysis
      obtain ⟨hsatisfied, hlength⟩ := noneMissing_evaluation hchains hsegments hok hnone
      refine ⟨hsatisfied, analysis, ?_, rfl, hlength⟩
      rw [analyzeCommand, if_pos hwindows, hanalysis]
  · rw [if_neg hwindows] at hok hnone ⊢
    obtain ⟨hsatisfied, hlength⟩ := evaluateShellAllowlist_noneMissing command hok hnone
    obtain ⟨-, analysis, hanalysis, hsegments⟩ := evaluateShellAllowlist_segments hsatisfied
    refine ⟨hsatisfied, analysis, ?_, hsegments, hlength.trans (congrArg _ hsegments)⟩
    rw [analyzeCommand, if_neg hwindows, hanalysis]

/-- A host that finds every name in one directory, with its own paths. -/
def usrBinPaths : PathHost where
  toHost := usrBinHost
  cwd := "/work".toList
  resolve := fun base path => if path.head? = some '/' then path else joinWith ['/'] [base, path]
  dirname := fun path => (path.reverse.dropWhile (· ≠ '/')).tail.reverse
  expandHomePrefix := fun path => "/home/u".toList ++ path.tail
  canonicalize := Char.toUpper
  regExp := fun _ => none

/-- Listing and counting are allowed for good. -/
def listAndCount : ExecAllowlistContext where
  allowlist := [{pattern := "/usr/bin/ls".toList, source := some .allowAlways},
    {pattern := "/usr/bin/wc".toList, source := some .allowAlways}]
  safeBins := []

theorem durable_approval_satisfied_pipeline :
    let result := evaluateCommandAllowlist usrBinPaths listAndCount "ls -l | wc && ls".toList
    result.allowlistSatisfied = true ∧
      ∃ analysis, analyzeCommand usrBinPaths listAndCount "ls -l | wc && ls".toList = .ok analysis ∧
        result.segments = analysis.segments ∧ result.segmentAllowlistEntries.length = analysis.segments.length :=
  durable_approval_satisfied usrBinPaths listAndCount "ls -l | wc && ls".toList (by decide +kernel)

end OpenClaw.Exec
