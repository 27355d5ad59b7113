import OpenClaw.Exec.Allowlist
import OpenClaw.Exec.ArgPattern
import OpenClaw.Foundation.ReplaceAll

/-! Matching an executable against the allowlist.

An entry's pattern is a glob over paths, matched against where the executable was found.
On Windows an entry may also have a pattern for the arguments, and one that fits them is
preferred to one that leaves them open. -/
namespace OpenClaw.Exec
open Foundation
open Foundation.EcmaString (trimChars)

section
variable (host : PathHost)

/-! ### Candidate paths -/

def hasPathSeparator (value : Text) : Bool := '/' ∈ value || '\\' ∈ value

def expandTilde (value : Text) : Text := if value.head? = some '~' then host.expandHomePrefix value else value

def isDriveLessWindowsRootedPath (value : Text) : Bool :=
  host.platform = .win32 && value.head? = some ':' && value.tail.head?.any isWindowsSeparator

/-- `resolveExecutablePathCandidate`, for an executable that has to be given by its path. -/
def resolveExecutablePathCandidate (cwd : Option Text) (rawExecutable : Text) : Option Text :=
  let expanded := expandTilde host rawExecutable
  if isDriveLessWindowsRootedPath host expanded then none
  else if !hasPathSeparator expanded then none
  else some (resolveArgPath host cwd expanded)

def resolveExecutableCandidatePathFromResolution (cwd : Option Text) (resolution : ExecutableResolution) :
    Option Text :=
  match resolution.resolvedPath.filter (· ≠ []) with
  | some resolvedPath => some resolvedPath
  | none => (nonBlank resolution.rawExecutable).bind (resolveExecutablePathCandidate host cwd)

def resolveExecutionTargetCandidatePath (cwd : Option Text) (resolution : Option CommandResolution) : Option Text :=
  resolution.bind fun resolution => resolveExecutableCandidatePathFromResolution host cwd resolution.execution

def resolvePolicyTargetCandidatePath (cwd : Option Text) (resolution : Option CommandResolution) : Option Text :=
  resolution.bind fun resolution => resolveExecutableCandidatePathFromResolution host cwd resolution.policy

/-! ### Globs -/

/-- `/^\\\\[?.]\\/`, taken off. -/
def stripDevicePrefix (value : Text) : Text :=
  match value with
  | '\\' :: '\\' :: c :: '\\' :: rest => if c = '?' || c = '.' then rest else value
  | _ => value

def normalizeMatchTarget (value : Text) : Text :=
  if host.platform = .win32 then
    host.toLowerCase ((stripDevicePrefix value).map fun c => if c = '\\' then '/' else c)
  else replaceAll ['\\', '\\'] ['/'] value

def isLineTerminator (c : Char) : Bool := c ∈ ['\n', '\r', '\u2028', '\u2029']

/-- A literal of the glob. Case does not matter on Windows. -/
def globLiteral (ch : Char) : Regex :=
  .char fun c => if host.platform = .win32 then host.canonicalize c = host.canonicalize ch else c = ch

def globTerms : Text → List Regex
  | [] => []
  | '*' :: '*' :: rest => .star (.char fun c => !isLineTerminator c) :: globTerms rest
  | ch :: rest =>
    (if ch = '*' then .star (.char (· ≠ '/')) else if ch = '?' then .char (· ≠ '/') else globLiteral host ch) ::
      globTerms rest

def compileGlobRegex (pattern : Text) : Regex := .sequence (.atStart :: (globTerms host pattern ++ [.atEnd]))

def matchesExecAllowlistPattern (pattern target : Text) : Bool :=
  let trimmed := trimChars pattern
  if trimmed = [] then false
  else
    let expanded := expandTilde host trimmed
    let hasWildcard := '*' ∈ expanded || '?' ∈ expanded
    let realpath := fun value =>
      if host.platform = .win32 && !hasWildcard then (host.realpathSync value).getD value else value
    (compileGlobRegex host (normalizeMatchTarget host (realpath expanded))).test
      (normalizeMatchTarget host (realpath target))

/-! ### The allowlist -/

/-- The loop over the entries, with the first that fits the path and leaves the arguments open. -/
def matchEntries (resolvedPath : Text) (argv : Option (List Text)) (platform : Option Text) :
    Option ExecAllowlistEntry → List ExecAllowlistEntry → Option ExecAllowlistEntry
  | pathOnlyMatch, [] => pathOnlyMatch
  | pathOnlyMatch, entry :: rest =>
    let pattern := trimChars entry.pattern
    let hasPath := hasPathSeparator pattern || '~' ∈ pattern
    if pattern = [] || !hasPath || !matchesExecAllowlistPattern host pattern resolvedPath then
      matchEntries resolvedPath argv platform pathOnlyMatch rest
    else if !host.isWindows platform then some entry
    else
      match entry.argPattern.filter (· ≠ []) with
      | none => matchEntries resolvedPath argv platform (pathOnlyMatch.or (some entry)) rest
      | some argPattern =>
        if argv.any fun argv => matchArgPattern host argPattern argv platform then some entry
        else matchEntries resolvedPath argv platform pathOnlyMatch rest

/-- An entry for any executable and any arguments. -/
def isBareWildcard (entry : ExecAllowlistEntry) : Bool :=
  trimChars entry.pattern = ['*'] && entry.argPattern.filter (· ≠ []) = none

def matchAllowlist (entries : List ExecAllowlistEntry) (resolution : Option ExecutableResolution)
    (argv : Option (List Text)) (platform : Option Text) : Option ExecAllowlistEntry :=
  resolution.bind fun resolution =>
    match entries.find? isBareWildcard with
    | some bareWild => some bareWild
    | none =>
      (resolution.resolvedPath.filter (· ≠ [])).bind fun resolvedPath =>
        matchEntries host resolvedPath argv platform none entries

end

end OpenClaw.Exec
