import OpenClaw.Exec.Approvals
import OpenClaw.Exec.SafeBins
import OpenClaw.Exec.SkillTrust
import OpenClaw.Exec.WindowsAnalysis

/-! Judging the segments of a command line.

A segment is satisfied by an entry of the allowlist, by the rules for safe bins, or by a
trusted skill. A shell whose inline command is a chain is also satisfied if every part of
that chain is, and it then has no entry of its own. The segments after the first one that
is not satisfied are not judged. -/
namespace OpenClaw.Exec

structure ExecAllowlistContext where
  allowlist : List ExecAllowlistEntry
  safeBins : List Text
  safeBinProfiles : Option (List (Text × SafeBinProfile)) := none
  cwd : Option Text := none
  platform : Option Text := none
  trustedSafeBinDirs : Option (List Text) := none
  skillBins : List SkillBinTrustEntry := []
  autoAllowSkills : Bool := false

section
variable (host : PathHost) (context : ExecAllowlistContext)

/-! ### Safe bins -/

def isTrustedSafeBinPath (resolvedPath : Text) : Bool :=
  let trustedDirs := context.trustedSafeBinDirs.getD ((texts ["/bin", "/usr/bin"]).map (host.resolve host.cwd))
  host.dirname (host.resolve host.cwd resolvedPath) ∈ trustedDirs

def safeBinProfile (execName : Text) : Option SafeBinProfile :=
  match context.safeBinProfiles with
  | some profiles => profiles.lookup execName
  | none => (SAFE_BIN_PROFILE_FIXTURES.lookup execName).map compileSafeBinProfile

def isSafeBinUsage (argv : List Text) (resolution : Option ExecutableResolution) : Bool :=
  !host.isWindows context.platform && resolution.any fun resolution =>
    let execName := host.toLowerCase resolution.executableName
    execName ≠ [] && execName ∈ context.safeBins &&
      match resolution.resolvedPath.filter (· ≠ []), safeBinProfile context execName with
      | some resolvedPath, some profile =>
        isTrustedSafeBinPath host context resolvedPath &&
          validateSafeBinArgv host.toHost argv.tail profile (some execName)
      | _, _ => false

/-! ### One segment -/

structure SegmentMatchEvaluation where
  effectiveArgv : List Text
  inlineCommand : Option Text
  entry : Option ExecAllowlistEntry

/-- An executable known by its path alone. -/
def resolutionOf (path : Text) : ExecutableResolution :=
  {rawExecutable := path, resolvedPath := some path, resolvedRealPath := none, executableName := host.basename path}

def resolveSegmentAllowlistMatch (segment : ExecCommandSegment) : SegmentMatchEvaluation :=
  let effectiveArgv := ((segment.resolution.map (·.effectiveArgv)).filter (· ≠ [])).getD segment.argv
  let allowlistSegment := {segment with argv := effectiveArgv}
  let executableResolution := segment.resolution.map (·.policy)
  let candidatePath := (resolvePolicyTargetCandidatePath host context.cwd segment.resolution).filter (· ≠ [])
  let candidateResolution := executableResolution.map fun resolution =>
    {resolution with resolvedPath := candidatePath.or resolution.resolvedPath}
  let inlineCommand := extractShellWrapperInlineCommand host.toHost effectiveArgv
  let executableMatch :=
    if inlineCommand.any isDirectShellPositionalCarrierInvocation then none
    else matchAllowlist host context.allowlist candidateResolution (some effectiveArgv) context.platform
  let shellPositionalArgvMatch :=
    ((resolveShellWrapperPositionalArgvCandidatePath host context.cwd allowlistSegment).filter (· ≠ [])).bind
      fun path => matchAllowlist host context.allowlist (resolutionOf host path) none context.platform
  let shellScriptMatch :=
    if inlineCommand ≠ none then none
    else
      ((resolveShellWrapperScriptCandidatePath host context.cwd allowlistSegment).filter (· ≠ [])).bind fun path =>
        matchAllowlist host context.allowlist (resolutionOf host path)
          (some (resolveShellWrapperScriptArgv host context.cwd path effectiveArgv)) context.platform
  { effectiveArgv
    inlineCommand
    entry := (executableMatch.or shellPositionalArgvMatch).or shellScriptMatch }

def resolveSegmentSatisfaction (segment : ExecCommandSegment) (found : SegmentMatchEvaluation) (allowSkills : Bool)
    (skillBinTrust : List (Text × Text)) : Option ExecSegmentSatisfiedBy :=
  if found.entry ≠ none then some .allowlist
  else if isSafeBinUsage host context found.effectiveArgv (segment.resolution.map (·.execution)) then some .safeBins
  else if isSkillAutoAllowedSegment host segment allowSkills skillBinTrust then some .skills
  else none

/-! ### All segments -/

structure SegmentsEvaluation where
  satisfied : Bool
  entriesMatched : List ExecAllowlistEntry
  segmentAllowlistEntries : List (Option ExecAllowlistEntry)
  segmentSatisfiedBy : List (Option ExecSegmentSatisfiedBy)

/-- A satisfied segment, ahead of the others. -/
def SegmentsEvaluation.push (rest : SegmentsEvaluation) (entriesMatched : List ExecAllowlistEntry)
    (entry : Option ExecAllowlistEntry) (satisfiedBy : Option ExecSegmentSatisfiedBy) : SegmentsEvaluation :=
  { rest with
    entriesMatched := entriesMatched ++ rest.entriesMatched
    segmentAllowlistEntries := entry :: rest.segmentAllowlistEntries
    segmentSatisfiedBy := satisfiedBy :: rest.segmentSatisfiedBy }

/-- The segments in turn, up to the first that is not satisfied, with a way to judge an inline
command that is a chain. -/
def evaluateSegmentsWith (inlineChain : Text → Option (List ExecAllowlistEntry)) :
    List ExecCommandSegment → SegmentsEvaluation
  | [] => ⟨true, [], [], []⟩
  | segment :: rest =>
    if segment.resolution.any (·.policyBlocked) then ⟨false, [], [none], [none]⟩
    else
      let found := resolveSegmentAllowlistMatch host context segment
      let skillBinTrust := buildSkillBinTrustIndex host context.skillBins
      let satisfiedBy := resolveSegmentSatisfaction host context segment found
        (context.autoAllowSkills && skillBinTrust ≠ []) skillBinTrust
      match satisfiedBy with
      | some rule =>
        (evaluateSegmentsWith inlineChain rest).push found.entry.toList found.entry (some rule)
      | none =>
        match found.inlineCommand.bind inlineChain with
        | some inlineMatches =>
          (evaluateSegmentsWith inlineChain rest).push (found.entry.toList ++ inlineMatches) found.entry
            (some .allowlist)
        | none => ⟨false, found.entry.toList, [found.entry], [none]⟩

/-- `evaluateShellWrapperInlineChain`: what the parts of a chain match, if all are satisfied. -/
def evaluateInlineChain (evaluate : List ExecCommandSegment → SegmentsEvaluation) (inlineCommand : Text) :
    Option (List ExecAllowlistEntry) :=
  if context.platform.any isWindowsPlatform then none
  else
    ((splitCommandChain inlineCommand).filter (·.length > 1)).bind fun chainParts =>
      (chainParts.mapM fun part =>
        match analyzeShellCommand host.toHost part with
        | .error _ => none
        | .ok analysis =>
          let result := evaluate analysis.segments
          if result.satisfied then some result.entriesMatched else none).map List.flatten

/-- The segments, when inline chains may be nested so many times more. -/
def evaluateSegments : Nat → List ExecCommandSegment → SegmentsEvaluation
  | 0 => evaluateSegmentsWith host context fun _ => none
  | depth + 1 => evaluateSegmentsWith host context (evaluateInlineChain host context (evaluateSegments depth))

/-- An inline chain at depth `MAX_SHELL_WRAPPER_INLINE_EVAL_DEPTH`, which is 3, is not judged. -/
def inlineEvalDepth : Nat := 2

/-! ### The command -/

/-- The groups in turn: the result so far, or nothing once one is not satisfied. -/
def evaluateGroups : List (List ExecCommandSegment) → Option SegmentsEvaluation
  | [] => some ⟨true, [], [], []⟩
  | group :: rest =>
    let result := evaluateSegments host context inlineEvalDepth group
    if !result.satisfied then none
    else
      (evaluateGroups rest).map fun others =>
        ⟨true, result.entriesMatched ++ others.entriesMatched,
          result.segmentAllowlistEntries ++ others.segmentAllowlistEntries,
          result.segmentSatisfiedBy ++ others.segmentSatisfiedBy⟩

def SegmentsEvaluation.evaluation (result : SegmentsEvaluation) : ExecAllowlistEvaluation :=
  ⟨result.satisfied, result.entriesMatched, result.segmentAllowlistEntries, result.segmentSatisfiedBy⟩

def evaluateExecAllowlist (analysis : ExecCommandAnalysis) : ExecAllowlistEvaluation :=
  if analysis.segments = [] then ⟨false, [], [], []⟩
  else
    match analysis.chains with
    | none => (evaluateSegments host context inlineEvalDepth analysis.segments).evaluation
    | some chains =>
      match evaluateGroups host context chains with
      | some result => result.evaluation
      | none => ⟨false, [], [], []⟩

def allowlistRules : AllowlistRules where
  evaluateExecAllowlist := evaluateExecAllowlist host context
  resolveTrustedSkillExecutionIds := resolveTrustedSkillExecutionIds host
  isSkillPreludeOnlyEvaluation := isSkillPreludeOnlyEvaluation host context.cwd
  resolveSkillPreludeIds := resolveSkillPreludeIds host context.cwd

/-- The analysis of a command for its platform. -/
def analyzeCommand (command : Text) : Except Text ExecCommandAnalysis :=
  if context.platform.any isWindowsPlatform then analyzeWindowsShellCommand host.toHost command
  else analyzeShellCommand host.toHost command

/-- `evaluateShellAllowlist`: a command for Windows is one part. -/
def evaluateCommandAllowlist (command : Text) : ExecAllowlistAnalysis :=
  if hasShellLineContinuation command then analysisFailure
  else if context.platform.any isWindowsPlatform then
    match analyzeWindowsShellCommand host.toHost command with
    | .error _ => analysisFailure
    | .ok analysis =>
      let evaluation := evaluateExecAllowlist host context analysis
      ⟨true, evaluation.allowlistSatisfied, evaluation.allowlistMatches, analysis.segments,
        evaluation.segmentAllowlistEntries, evaluation.segmentSatisfiedBy⟩
  else evaluateShellAllowlist host.toHost (allowlistRules host context) command

/-! ### Durable approvals -/

def hasSegmentDurableExecApproval (analysisOk : Bool) (segmentAllowlistEntries : List (Option ExecAllowlistEntry)) :
    Bool :=
  analysisOk && segmentAllowlistEntries.length > 0 &&
    segmentAllowlistEntries.all fun entry => entry.any (·.source = some .allowAlways)

end

end OpenClaw.Exec
