import OpenClaw.Exec.ArgvRendering
import OpenClaw.Exec.ShellSplit
import OpenClaw.Exec.ShellWrappers

/-! Analysing a command line, and writing the one that is run instead.

`analyzeShellCommand` splits a POSIX line into segments and resolves the executable of
each. `buildEnforcedShellCommand` splits the line once more and writes the planned argv
of the segment with the same index in each segment's place. -/
namespace OpenClaw.Exec
open Foundation.EcmaString (trimChars)

/-! ### Resolutions -/

structure ExecutableResolution where
  rawExecutable : Text
  resolvedPath : Option Text
  resolvedRealPath : Option Text
  executableName : Text
  deriving Repr, DecidableEq

structure CommandResolution where
  execution : ExecutableResolution
  policy : ExecutableResolution
  effectiveArgv : List Text
  wrapperChain : List Text
  policyBlocked : Bool
  blockedWrapper : Option Text
  deriving Repr, DecidableEq

structure ExecCommandSegment where
  raw : Text
  argv : List Text
  resolution : Option CommandResolution
  deriving Repr, DecidableEq

section
variable (host : Host)

def buildExecutableResolution (rawExecutable : Text) : ExecutableResolution :=
  let resolvedPath := host.resolveExecutablePath rawExecutable
  { rawExecutable
    resolvedPath
    resolvedRealPath := (resolvedPath.filter (· ≠ [])).bind host.realpathSync
    executableName := ((resolvedPath.filter (· ≠ [])).map host.basename).getD rawExecutable }

def resolveCommandResolutionFromArgv (argv : List Text) : Option CommandResolution :=
  let plan := resolveExecWrapperTrustPlan host argv
  (executableToken plan.argv).map fun rawExecutable =>
    let execution := buildExecutableResolution host rawExecutable
    { execution
      policy := ((executableToken plan.policyArgv).map (buildExecutableResolution host)).getD execution
      effectiveArgv := plan.argv
      wrapperChain := plan.wrapperChain
      policyBlocked := plan.policyBlocked
      blockedWrapper := plan.blockedWrapper }

/-! ### Analysis -/

/-- Segments, grouped by chain operator where there is a chain. -/
structure ExecCommandAnalysis where
  segments : List ExecCommandSegment
  chains : Option (List (List ExecCommandSegment))
  deriving Repr, DecidableEq

/-- `resolveAnalysisSegmentGroups`. -/
def ExecCommandAnalysis.groups (analysis : ExecCommandAnalysis) : List (List ExecCommandSegment) :=
  analysis.chains.getD [analysis.segments]

def parseSegment (raw : Text) : Option ExecCommandSegment :=
  ((splitShellArgs raw).filter (· ≠ [])).map fun argv =>
    {raw, argv, resolution := resolveCommandResolutionFromArgv host argv}

def parseSegmentsFromParts (parts : List Text) : Option (List ExecCommandSegment) :=
  parts.mapM (parseSegment host)

/-- One chain part: a pipeline and its segments. -/
def analyzePipeline (command : Text) : Except Text (List ExecCommandSegment) :=
  match splitShellPipeline command with
  | .error reason => .error reason
  | .ok parts =>
    match parseSegmentsFromParts host parts with
    | none => .error "unable to parse shell segment".toList
    | some segments => .ok segments

def analyzeShellCommand (command : Text) : Except Text ExecCommandAnalysis :=
  match splitCommandChain command with
  | some chainParts =>
    (chainParts.mapM (analyzePipeline host)).map fun chains => ⟨chains.flatten, some chains⟩
  | none => (analyzePipeline host command).map fun segments => ⟨segments, none⟩

end

/-! ### Enforcement -/

/-- What an approved segment runs: its argv behind the wrappers, with the resolved executable. -/
def resolvePlannedSegmentArgv (segment : ExecCommandSegment) : Option (List Text) :=
  match segment.resolution with
  | none => if segment.argv = [] then none else some segment.argv
  | some resolution =>
    if resolution.policyBlocked then none
    else
      let baseArgv := if resolution.effectiveArgv ≠ [] then resolution.effectiveArgv else segment.argv
      let execution := resolution.execution
      let resolvedExecutable :=
        ((execution.resolvedRealPath.or execution.resolvedPath).map trimChars).getD []
      match baseArgv with
      | [] => none
      | executable :: rest => some ((if resolvedExecutable ≠ [] then resolvedExecutable else executable) :: rest)

structure RebuiltShellCommand where
  command : Text
  segmentCount : Nat
  deriving Repr, DecidableEq

/-- The segments of one part, from index `n` on. -/
def renderSegments (renderSegment : Text → Nat → Except Text Text) : Nat → List Text → Except Text (List Text)
  | _, [] => .ok []
  | n, raw :: rest => do
    let rendered ← renderSegment raw n
    let others ← renderSegments renderSegment (n + 1) rest
    .ok (rendered :: others)

def renderOperator : Option ShellChainOperator → Text
  | none => []
  | some op => ' ' :: op.text ++ [' ']

/-- The parts of the chain, the first segment of which has index `n`. -/
def rebuildParts (renderSegment : Text → Nat → Except Text Text) :
    Nat → List ShellChainPart → Except Text RebuiltShellCommand
  | n, [] => .ok ⟨[], n⟩
  | n, part :: rest => do
    let segments ← splitShellPipeline part.part
    let rendered ← renderSegments renderSegment n segments
    let others ← rebuildParts renderSegment (n + segments.length) rest
    .ok ⟨joinWith " | ".toList rendered ++ renderOperator part.opToNext ++ others.command, others.segmentCount⟩

def rebuildShellCommandFromSource (command : Text) (renderSegment : Text → Nat → Except Text Text) :
    Except Text RebuiltShellCommand :=
  let source := trimChars command
  if source = [] then .error "empty command".toList
  else rebuildParts renderSegment 0 ((splitCommandChainWithOperators source).getD [⟨source, none⟩])

def finalizeRebuiltShellCommand (rebuilt : Except Text RebuiltShellCommand) (expectedSegmentCount : Nat) :
    Except Text Text :=
  match rebuilt with
  | .error reason => .error reason
  | .ok rebuilt =>
    if rebuilt.segmentCount ≠ expectedSegmentCount then .error "segment count mismatch".toList
    else .ok rebuilt.command

/-- The planned argv of the segment with this index, whatever the source has there. -/
def renderPlannedSegment (segments : List ExecCommandSegment) (_ : Text) (segmentIndex : Nat) : Except Text Text :=
  match segments[segmentIndex]? with
  | none => .error "segment mapping failed".toList
  | some segment =>
    match resolvePlannedSegmentArgv segment with
    | none => .error "segment execution plan unavailable".toList
    | some argv =>
      match (renderQuotedArgv argv false).filter (· ≠ []) with
      | none => .error "unsafe windows token in argv".toList
      | some rendered => .ok rendered

def buildEnforcedShellCommand (command : Text) (segments : List ExecCommandSegment) : Except Text Text :=
  finalizeRebuiltShellCommand (rebuildShellCommandFromSource command (renderPlannedSegment segments)) segments.length

end OpenClaw.Exec
