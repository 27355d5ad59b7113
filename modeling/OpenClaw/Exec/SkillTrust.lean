import OpenClaw.Exec.WrapperCandidates

/-! Skills: the binaries they bring, and the preludes that only show one to the model.

A skill's binary may run under its bare name if it is found where the skill installed it.
A prelude prints a skill's `SKILL.md`, or a marker, ahead of the skill's own command. -/
namespace OpenClaw.Exec
open Foundation.EcmaString (trimChars)

structure SkillBinTrustEntry where
  name : Text
  resolvedPath : Text
  deriving Repr, DecidableEq

section
variable (host : PathHost)

/-! ### Trusted binaries -/

def normalizeSkillBinName (value : Text) : Option Text :=
  some (host.toLowerCase (trimChars value)) |>.filter (· ≠ [])

def normalizeSkillBinResolvedPath (value : Text) : Option Text :=
  (nonBlank value).map fun trimmed =>
    let resolved := host.resolve host.cwd trimmed
    if host.platform = .win32 then host.toLowerCase (resolved.map fun c => if c = '\\' then '/' else c)
    else resolved

/-- `buildSkillBinTrustIndex`: each name with a path it is trusted at. -/
def buildSkillBinTrustIndex (entries : List SkillBinTrustEntry) : List (Text × Text) :=
  entries.filterMap fun entry => do
    let name ← normalizeSkillBinName host entry.name
    let resolvedPath ← (normalizeSkillBinResolvedPath host entry.resolvedPath).filter (· ≠ [])
    some (name, resolvedPath)

def isSkillAutoAllowedSegment (segment : ExecCommandSegment) (allowSkills : Bool)
    (skillBinTrust : List (Text × Text)) : Bool :=
  allowSkills && segment.resolution.any fun resolution =>
    let execution := resolution.execution
    match execution.resolvedPath.filter (· ≠ []), nonBlank execution.rawExecutable with
    | some resolvedPath, some rawExecutable =>
      !hasPathSeparator rawExecutable &&
        match normalizeSkillBinName host execution.executableName, normalizeSkillBinResolvedPath host resolvedPath with
        | some executableName, some resolvedPath => (executableName, resolvedPath) ∈ skillBinTrust
        | _, _ => false
    | _, _ => false

/-! ### Preludes -/

/-- The parts of a path between slashes. -/
def pathParts (path : Text) : List Text :=
  (path.foldr (fun c parts =>
    if c = '/' then [] :: parts
    else
      match parts with
      | [] => [[c]]
      | part :: others => (c :: part) :: others) [[]]).filter (· ≠ [])

def resolveSkillPreludePath (cwd : Option Text) (rawPath : Text) : Text :=
  let expanded := expandTilde host rawPath
  if host.isAbsolute expanded then host.resolve host.cwd expanded
  else host.resolve (((cwd.map trimChars).filter (· ≠ [])).getD host.cwd) expanded

/-- The lower-case parts of the path of a `SKILL.md`. -/
def skillMarkdownParts (filePath : Text) : Option (List Text) :=
  let lowerNormalized := host.toLowerCase (filePath.map fun c => if c = '\\' then '/' else c)
  if "/skill.md".toList.isSuffixOf lowerNormalized then some (pathParts lowerNormalized) else none

def isSkillMarkdownPreludePath (filePath : Text) : Bool :=
  (skillMarkdownParts host filePath).any fun parts =>
    (List.range (parts.length - 1)).any fun index =>
      parts[index]? = some "skills".toList && (parts.length - index - 1 = 1 || parts.length - index - 1 = 2)

def resolveSkillMarkdownPreludeId (filePath : Text) : Option Text :=
  (skillMarkdownParts host filePath).bind fun parts =>
    ((List.range (parts.length - 1)).reverse.find? fun index =>
      parts[index]? = some "skills".toList && parts.length - index - 1 = 2).bind fun index =>
        parts[index + 1]?.bind nonBlank

/-- The name of the executable that a segment runs, in lower case. -/
def runsLower (segment : ExecCommandSegment) (name : Text) : Bool :=
  segment.resolution.any fun resolution => host.toLowerCase resolution.execution.executableName = name

/-- What a segment prints, if it prints one file and does nothing else. -/
def preludeReadPath (segment : ExecCommandSegment) : Option Text :=
  if runsLower host segment "cat".toList && segment.argv.length = 2 then segment.argv[1]?.bind nonBlank else none

def isSkillPreludeReadSegment (cwd : Option Text) (segment : ExecCommandSegment) : Bool :=
  (preludeReadPath host segment).any fun rawPath =>
    isSkillMarkdownPreludePath host (resolveSkillPreludePath host cwd rawPath)

def isSkillPreludeMarkerSegment (segment : ExecCommandSegment) : Bool :=
  runsLower host segment "printf".toList && segment.argv.length = 2 &&
    segment.argv[1]?.any fun marker => marker = "\\n---CMD---\\n".toList || marker = "\n---CMD---\n".toList

def isSkillPreludeSegment (cwd : Option Text) (segment : ExecCommandSegment) : Bool :=
  isSkillPreludeReadSegment host cwd segment || isSkillPreludeMarkerSegment host segment

def isSkillPreludeOnlyEvaluation (cwd : Option Text) (segments : List ExecCommandSegment) : Bool :=
  segments ≠ [] && segments.all (isSkillPreludeSegment host cwd)

/-- The skills that a prelude reads. -/
def resolveSkillPreludeIds (cwd : Option Text) (segments : List ExecCommandSegment) : List Text :=
  segments.filterMap fun segment =>
    if isSkillPreludeReadSegment host cwd segment then
      (preludeReadPath host segment).bind fun rawPath =>
        resolveSkillMarkdownPreludeId host (resolveSkillPreludePath host cwd rawPath)
    else none

/-! ### Trusted executions -/

def wrapperSuffix : Text := "-wrapper".toList

def resolveAllowlistedSkillWrapperId (segment : ExecCommandSegment) : Option Text :=
  let executableName := normalizeExecutableToken host.toHost
    (((segment.resolution.map (·.execution.executableName)).or segment.argv.head?).getD [])
  if wrapperSuffix.isSuffixOf executableName then
    nonBlank (executableName.take (executableName.length - wrapperSuffix.length))
  else none

/-- The skill that a segment runs, by what it was satisfied by. -/
def trustedSkillId (segment : ExecCommandSegment) (satisfiedBy : Option ExecSegmentSatisfiedBy) : Option Text :=
  match satisfiedBy with
  | some .skills =>
    some (normalizeExecutableToken host.toHost
      (((segment.resolution.map (·.execution.executableName)).or segment.argv.head?).getD [])) |>.filter (· ≠ [])
  | some .allowlist => resolveAllowlistedSkillWrapperId host segment
  | _ => none

def resolveTrustedSkillExecutionIds (analysis : ExecCommandAnalysis) (evaluation : ExecAllowlistEvaluation) :
    List Text :=
  if !evaluation.allowlistSatisfied then []
  else
    (List.range analysis.segments.length).filterMap fun index =>
      analysis.segments[index]?.bind fun segment =>
        trustedSkillId host segment (evaluation.segmentSatisfiedBy[index]?.join)

end

end OpenClaw.Exec
