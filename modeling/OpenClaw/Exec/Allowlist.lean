import OpenClaw.Exec.Analysis

/-! Evaluating a command line against the allowlist.

`evaluateShellAllowlist` analyses a line part by part and judges each part. How one part
is judged does not matter to what is returned as its segments, and is left open here: an
`AllowlistRules` answers for the allowlist, the safe bins and the skills. -/
namespace OpenClaw.Exec

inductive ExecAllowlistSource where
  | allowAlways
  deriving Repr, DecidableEq

structure ExecAllowlistEntry where
  id : Option Text := none
  pattern : Text
  source : Option ExecAllowlistSource := none
  commandText : Option Text := none
  argPattern : Option Text := none
  lastUsedAt : Option Int := none
  lastUsedCommand : Option Text := none
  lastResolvedPath : Option Text := none
  deriving Repr, DecidableEq

inductive ExecSegmentSatisfiedBy where
  | allowlist
  | safeBins
  | skills
  | skillPrelude
  deriving Repr, DecidableEq

structure ExecAllowlistEvaluation where
  allowlistSatisfied : Bool
  allowlistMatches : List ExecAllowlistEntry
  segmentAllowlistEntries : List (Option ExecAllowlistEntry)
  segmentSatisfiedBy : List (Option ExecSegmentSatisfiedBy)
  deriving Repr, DecidableEq

structure ExecAllowlistAnalysis where
  analysisOk : Bool
  allowlistSatisfied : Bool
  allowlistMatches : List ExecAllowlistEntry := []
  segments : List ExecCommandSegment := []
  segmentAllowlistEntries : List (Option ExecAllowlistEntry) := []
  segmentSatisfiedBy : List (Option ExecSegmentSatisfiedBy) := []
  deriving Repr, DecidableEq

structure AllowlistRules where
  evaluateExecAllowlist : ExecCommandAnalysis → ExecAllowlistEvaluation
  resolveTrustedSkillExecutionIds : ExecCommandAnalysis → ExecAllowlistEvaluation → List Text
  isSkillPreludeOnlyEvaluation : List ExecCommandSegment → Bool
  resolveSkillPreludeIds : List ExecCommandSegment → List Text

/-- A chain part, analysed and judged. -/
structure ChainEvaluation where
  analysis : ExecCommandAnalysis
  evaluation : ExecAllowlistEvaluation
  opToNext : Option ShellChainOperator

def analysisFailure : ExecAllowlistAnalysis := {analysisOk := false, allowlistSatisfied := false}

section
variable (host : Host) (rules : AllowlistRules)

def evaluateChainPart (part : ShellChainPart) : Except Text ChainEvaluation :=
  (analyzeShellCommand host part.part).map fun analysis =>
    ⟨analysis, rules.evaluateExecAllowlist analysis, part.opToNext⟩

/-- From the last part to the first: the skills that are still reached, and for each part
whether it is only a prelude to one of them. -/
def allowSkillPreludes : List ChainEvaluation → List Text × List Bool
  | [] => ([], [])
  | entry :: rest =>
    let (reachable, preludes) := allowSkillPreludes rest
    let trusted := rules.resolveTrustedSkillExecutionIds entry.analysis entry.evaluation
    if trusted ≠ [] then (reachable ++ trusted, false :: preludes)
    else
      let isPreludeOnly :=
        !entry.evaluation.allowlistSatisfied && rules.isSkillPreludeOnlyEvaluation entry.analysis.segments
      let preludeIds := if isPreludeOnly then rules.resolveSkillPreludeIds entry.analysis.segments else []
      let reachesTrusted := entry.opToNext = some .and &&
        (if preludeIds = [] then reachable ≠ [] else preludeIds.any (· ∈ reachable))
      if isPreludeOnly && reachesTrusted then (reachable, true :: preludes) else ([], false :: preludes)

/-- The parts one after the other, up to the first that is not satisfied. -/
def collectEvaluations (result : ExecAllowlistAnalysis) : List (ChainEvaluation × Bool) → ExecAllowlistAnalysis
  | [] => result
  | (entry, prelude) :: rest =>
    let segments := entry.analysis.segments
    let result' : ExecAllowlistAnalysis := {result with
      segments := result.segments ++ segments
      allowlistMatches := result.allowlistMatches ++ entry.evaluation.allowlistMatches
      segmentAllowlistEntries := result.segmentAllowlistEntries ++
        (if prelude then segments.map fun _ => none else entry.evaluation.segmentAllowlistEntries)
      segmentSatisfiedBy := result.segmentSatisfiedBy ++
        (if prelude then segments.map fun _ => some .skillPrelude else entry.evaluation.segmentSatisfiedBy)}
    if !entry.evaluation.allowlistSatisfied && !prelude then {result' with allowlistSatisfied := false}
    else collectEvaluations result' rest

def evaluateShellAllowlist (command : Text) : ExecAllowlistAnalysis :=
  if hasShellLineContinuation command then analysisFailure
  else
    match splitCommandChainWithOperators command with
    | none =>
      match analyzeShellCommand host command with
      | .error _ => analysisFailure
      | .ok analysis =>
        let evaluation := rules.evaluateExecAllowlist analysis
        { analysisOk := true
          allowlistSatisfied := evaluation.allowlistSatisfied
          allowlistMatches := evaluation.allowlistMatches
          segments := analysis.segments
          segmentAllowlistEntries := evaluation.segmentAllowlistEntries
          segmentSatisfiedBy := evaluation.segmentSatisfiedBy }
    | some chainParts =>
      match chainParts.mapM (evaluateChainPart host rules) with
      | .error _ => analysisFailure
      | .ok entries =>
        collectEvaluations {analysisOk := true, allowlistSatisfied := true}
          (entries.zip (allowSkillPreludes rules entries).2)

end

end OpenClaw.Exec
