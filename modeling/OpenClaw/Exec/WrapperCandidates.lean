import OpenClaw.Exec.AllowlistMatch

/-! What a shell wrapper is approved for instead of the shell.

A shell that is given a script runs the script, and one whose inline command only hands
its positional arguments on (`sh -c '"$0" "$@"' tool …`) runs the executable it carries. -/
namespace OpenClaw.Exec
open Foundation
open Foundation.EcmaString (isWhiteSpace trimChars lowerAscii)

section
variable (host : PathHost)

/-! ### Shell segments -/

def hasSegmentExecutableMatch (segment : ExecCommandSegment) (predicate : Text → Bool) : Bool :=
  let candidates := [segment.resolution.map (·.execution.executableName),
    segment.resolution.map (·.execution.rawExecutable), segment.argv.head?]
  candidates.any fun candidate => (candidate.bind nonBlank).any predicate

def isShellWrapperSegment (segment : ExecCommandSegment) : Bool :=
  hasSegmentExecutableMatch segment (isShellWrapperExecutable host.toHost)

/-! ### Scripts -/

def SHELL_WRAPPER_OPTIONS_WITH_VALUE : List Text := texts ["-c", "--command", "-o", "-O", "+O"]

def SHELL_WRAPPER_DISQUALIFYING_SCRIPT_OPTIONS : List Text := texts ["--rcfile", "--init-file", "--startup-file"]

def hasDisqualifyingShellWrapperScriptOption (token : Text) : Bool :=
  SHELL_WRAPPER_DISQUALIFYING_SCRIPT_OPTIONS.any fun option => token = option || (option ++ ['=']).isPrefixOf token

/-- The options of `POWERSHELL_OPTIONS_WITH_VALUE_RE`, in any case. -/
def powershellOptionsWithValue : List Text :=
  texts ["-executionpolicy", "-ep", "-windowstyle", "-w", "-workingdirectory", "-wd", "-inputformat", "-outputformat",
    "-settingsfile", "-configurationfile", "-version", "-v", "-psconsolefile", "-pscf", "-encodedcommand", "-en",
    "-enc", "-encodedarguments", "-ea"]

/-- `/^-[^-]*s[^-]*$/i`. -/
def isCombinedS (token : Text) : Bool :=
  token.head? = some '-' && '-' ∉ token.tail && ('s' ∈ token.tail || 'S' ∈ token.tail)

/-- The loop over the arguments of a shell, `skip` of which belong to the option before: the
script, unless the shell reads its commands from elsewhere. -/
def findScriptToken (isPowerShell : Bool) : Nat → List Text → Option Text
  | _, [] => none
  | skip + 1, _ :: rest => findScriptToken isPowerShell skip rest
  | 0, raw :: rest =>
    let token := trimChars raw
    if token = [] then findScriptToken isPowerShell 0 rest
    else if token = "--".toList then rest.head?.bind nonBlank
    else if token = "-c".toList || token = "--command".toList then none
    else if !isPowerShell && isCombinedC token then none
    else if token = "-s".toList || (!isPowerShell && isCombinedS token) then none
    else if hasDisqualifyingShellWrapperScriptOption token then none
    else if token ∈ SHELL_WRAPPER_OPTIONS_WITH_VALUE then findScriptToken isPowerShell 1 rest
    else if isPowerShell && token.map lowerAscii ∈ powershellOptionsWithValue then findScriptToken isPowerShell 1 rest
    else if token.head? = some '-' || token.head? = some '+' then findScriptToken isPowerShell 0 rest
    else some token

def isPowerShellArgv (argv : List Text) : Bool :=
  normalizeExecutableToken host.toHost (argv.headD []) ∈ powershellWrapperNames

def resolveShellWrapperScriptCandidatePath (cwd : Option Text) (segment : ExecCommandSegment) : Option Text :=
  if !isShellWrapperSegment host segment then none
  else if segment.argv.length < 2 then none
  else
    (findScriptToken (isPowerShellArgv host segment.argv) 0 segment.argv.tail).map fun scriptToken =>
      if host.isAbsolute scriptToken then scriptToken
      else
        let base := (cwd.filter fun cwd => trimChars cwd ≠ []).getD host.cwd
        host.resolve base (expandTilde host scriptToken)

/-- `resolveShellWrapperScriptArgv`. -/
def resolveShellWrapperScriptArgv (cwd : Option Text) (shellScriptCandidatePath : Text) (effectiveArgv : List Text) :
    List Text :=
  shellScriptCandidatePath :: scriptArgs host effectiveArgv shellScriptCandidatePath cwd

/-! ### Carried executables -/

namespace Carrier
open Regex

/-- `[^\S\r\n]+`. -/
def shellWhitespace : Regex := plus (char fun c => isWhiteSpace c && c ≠ '\r' && c ≠ '\n')

/-- `$` before a name, in braces or not, in double quotes or not. -/
def parameter (name braced : Char → Bool) : Regex :=
  let bare := seq (lit '$') (alt (char name) (sequence [lit '{', char braced, lit '}']))
  alt bare (sequence [lit '"', bare, lit '"'])

def positionalZero : Regex := parameter (· = '0') (· = '0')

def positionalArg : Regex :=
  let name := fun c : Char => c = '@' || c = '*' || ('1' ≤ c && c ≤ '9')
  parameter name name

def invocation : Regex :=
  let exec := sequence [lit 'e', lit 'x', lit 'e', lit 'c', shellWhitespace,
    opt (sequence [lit '-', lit '-', shellWhitespace])]
  sequence [atStart, opt exec, positionalZero, star (seq shellWhitespace positionalArg), atEnd]

end Carrier

def isDirectShellPositionalCarrierInvocation (command : Text) : Bool :=
  let trimmed := trimChars command
  trimmed ≠ [] && Carrier.invocation.test trimmed

/-- The executable that an inline command of the shell hands on. -/
def findCarriedExecutable (argv : List Text) : Option Text :=
  if argv.length < 4 then none
  else if normalizeExecutableToken host.toHost (argv.headD []) ∉ posixShellWrapperNames then none
  else
    let inlineMatch := resolveInlineCommandMatch host.toHost argv posixInlineCommandFlags true
    match inlineMatch.valueTokenIndex, inlineMatch.command with
    | some valueTokenIndex, some command =>
      if !isDirectShellPositionalCarrierInvocation command then none
      else (argv.drop (valueTokenIndex + 1)).findSome? nonBlank
    | _, _ => none

def resolveShellWrapperPositionalArgvCandidatePath (cwd : Option Text) (segment : ExecCommandSegment) :
    Option Text :=
  if !isShellWrapperSegment host segment then none
  else
    (findCarriedExecutable host segment.argv).bind fun carriedExecutable =>
      let carriedName := normalizeExecutableToken host.toHost carriedExecutable
      if isDispatchWrapperExecutable host.toHost carriedName || isShellWrapperExecutable host.toHost carriedName then
        none
      else
        resolveExecutionTargetCandidatePath host cwd
          (resolveCommandResolutionFromArgv host.toHost [carriedExecutable])

end

example : isDirectShellPositionalCarrierInvocation "exec \"$0\" \"${@}\"".toList = true := by decide
example : isDirectShellPositionalCarrierInvocation "\"$0\"; rm \"$@\"".toList = false := by decide

end OpenClaw.Exec
