import OpenClaw.Exec.ArgPattern

/-! Interpreters, and programs given to them inline.

An interpreter runs whatever it is given, so its path on the allowlist would let
everything run. Some take a program behind a flag (`python -c`), others as their first
operand (`awk`, `xargs`). Only what is found here on an interpreter is inline. -/
namespace OpenClaw.Exec
open Foundation.EcmaString (trimChars)

structure InterpreterInlineEvalHit where
  executable : Text
  normalizedExecutable : Text
  flag : Text
  argv : List Text
  deriving Repr, DecidableEq

/-! ### Specs -/

/-- A flag with its value behind `start`, and what it is called. -/
structure PrefixFlagSpec where
  label : Text
  start : Text

structure InterpreterFlagSpec where
  names : List Text
  exactFlags : List Text
  rawExactFlags : List (Text × Text) := []
  rawPrefixFlags : List PrefixFlagSpec := []
  prefixFlags : List PrefixFlagSpec := []
  scanPastDoubleDash : Bool := false

structure PositionalInterpreterSpec where
  names : List Text
  fileFlags : List Text := []
  fileFlagPrefixes : List Text := []
  exactValueFlags : List Text := []
  exactOptionalValueFlags : List Text := []
  prefixValueFlags : List Text := []
  flag : Text

def PrefixFlagSpec.of (label start : String) : PrefixFlagSpec := ⟨label.toList, start.toList⟩

def FLAG_INTERPRETER_INLINE_EVAL_SPECS : List InterpreterFlagSpec :=
  [ {names := texts ["python", "python2", "python3", "pypy", "pypy3"], exactFlags := texts ["-c"]},
    { names := texts ["node", "nodejs", "bun", "deno"]
      exactFlags := texts ["-e", "--eval", "-p", "--print"] },
    { names := texts ["awk", "gawk", "mawk", "nawk"]
      exactFlags := texts ["-e", "--source"]
      prefixFlags := [.of "--source" "--source="] },
    {names := texts ["ruby"], exactFlags := texts ["-e"]},
    {names := texts ["perl"], exactFlags := texts ["-e", "-E"]},
    {names := texts ["php"], exactFlags := texts ["-r"]},
    {names := texts ["lua"], exactFlags := texts ["-e"]},
    {names := texts ["osascript"], exactFlags := texts ["-e"]},
    { names := texts ["find"]
      exactFlags := texts ["-exec", "-execdir", "-ok", "-okdir"]
      scanPastDoubleDash := true },
    { names := texts ["make", "gmake"]
      exactFlags := texts ["-f", "--file", "--makefile", "--eval"]
      rawExactFlags := [("-E".toList, "-E".toList)]
      rawPrefixFlags := [.of "-E" "-E"]
      prefixFlags :=
        [.of "-f" "-f", .of "--file" "--file=", .of "--makefile" "--makefile=", .of "--eval" "--eval="] },
    { names := texts ["sed", "gsed"]
      exactFlags := []
      rawExactFlags := [("-e".toList, "-e".toList)]
      rawPrefixFlags := [.of "-e" "-e"] } ]

def POSITIONAL_INTERPRETER_INLINE_EVAL_SPECS : List PositionalInterpreterSpec :=
  [ { names := texts ["awk", "gawk", "mawk", "nawk"]
      fileFlags := texts ["-f", "--file"]
      fileFlagPrefixes := texts ["-f", "--file="]
      exactValueFlags := texts ["-f", "--file", "-F", "--field-separator", "-v", "--assign", "-i", "--include", "-l",
        "--load", "-W"]
      prefixValueFlags := texts ["-F", "--field-separator=", "-v", "--assign=", "--include=", "--load="]
      flag := "<program>".toList },
    { names := texts ["xargs"]
      exactValueFlags := texts ["-a", "--arg-file", "-d", "--delimiter", "-E", "-I", "-L", "--max-lines", "-n",
        "--max-args", "-P", "--max-procs", "-s", "--max-chars"]
      exactOptionalValueFlags := texts ["--eof", "--replace"]
      prefixValueFlags := texts ["-a", "--arg-file=", "-d", "--delimiter=", "-E", "--eof=", "-I", "--replace=", "-i",
        "-L", "--max-lines=", "-l", "-n", "--max-args=", "-P", "--max-procs=", "-s", "--max-chars="]
      flag := "<command>".toList },
    { names := texts ["sed", "gsed"]
      fileFlags := texts ["-f", "--file"]
      fileFlagPrefixes := texts ["-f", "--file="]
      exactValueFlags := texts ["-f", "--file", "-l", "--line-length"]
      exactOptionalValueFlags := texts ["-i", "--in-place"]
      prefixValueFlags := texts ["-f", "--file=", "--in-place=", "--line-length="]
      flag := "<program>".toList } ]

def INTERPRETER_ALLOWLIST_NAMES : List Text :=
  FLAG_INTERPRETER_INLINE_EVAL_SPECS.flatMap (·.names) ++ POSITIONAL_INTERPRETER_INLINE_EVAL_SPECS.flatMap (·.names)

/-! ### Finding the program -/

/-- `token.startsWith(start) && token.length > start.length`. -/
def flagWithValue (start token : Text) : Bool := start.isPrefixOf token && token.length > start.length

section
variable (host : Host)

def findInterpreterSpec (executable : Text) : Option InterpreterFlagSpec :=
  FLAG_INTERPRETER_INLINE_EVAL_SPECS.find? fun spec => normalizeExecutableToken host executable ∈ spec.names

def findPositionalInterpreterSpec (executable : Text) : Option PositionalInterpreterSpec :=
  POSITIONAL_INTERPRETER_INLINE_EVAL_SPECS.find? fun spec => normalizeExecutableToken host executable ∈ spec.names

/-- The flag that a token is, if a program comes with it. -/
def InterpreterFlagSpec.match? (spec : InterpreterFlagSpec) (token : Text) : Option Text :=
  let lower := host.toLowerCase token
  (((spec.rawExactFlags.lookup token).or
    ((spec.rawPrefixFlags.find? fun flag => flagWithValue flag.start token).map (·.label))).or
    (if lower ∈ spec.exactFlags then some lower else none)).or
    ((spec.prefixFlags.find? fun flag => flagWithValue flag.start lower).map (·.label))

/-- The loop over the flags. -/
def findInlineFlag (spec : InterpreterFlagSpec) : List Text → Option Text
  | [] => none
  | raw :: rest =>
    let token := trimChars raw
    if token = [] then findInlineFlag spec rest
    else if token = "--".toList then if spec.scanPastDoubleDash then findInlineFlag spec rest else none
    else (spec.match? host token).or (findInlineFlag spec rest)

end

/-- The loop up to the first operand, `skip` tokens of which belong to the option before. -/
def findInlineOperand (spec : PositionalInterpreterSpec) : Nat → List Text → Option Text
  | _, [] => none
  | skip + 1, _ :: rest => findInlineOperand spec skip rest
  | 0, raw :: rest =>
    let token := trimChars raw
    if token = [] then findInlineOperand spec 0 rest
    else if token = "--".toList then (rest.head?.bind nonBlank).map fun _ => spec.flag
    else if token ∈ spec.fileFlags then none
    else if spec.fileFlagPrefixes.any (flagWithValue · token) then none
    else if token ∈ spec.exactValueFlags then findInlineOperand spec 1 rest
    else if token ∈ spec.exactOptionalValueFlags then findInlineOperand spec 0 rest
    else if spec.prefixValueFlags.any (flagWithValue · token) then findInlineOperand spec 0 rest
    else if token.head? = some '-' then findInlineOperand spec 0 rest
    else some spec.flag

section
variable (host : Host)

def detectInterpreterInlineEvalArgv (argv : List Text) : Option InterpreterInlineEvalHit :=
  (argv.head?.bind nonBlank).bind fun executable =>
    let flag := ((findInterpreterSpec host executable).bind (findInlineFlag host · argv.tail)).or
      ((findPositionalInterpreterSpec host executable).bind (findInlineOperand · 0 argv.tail))
    flag.map fun flag => ⟨executable, normalizeExecutableToken host executable, flag, argv⟩

/-- What is behind the last separator, without `.exe`. -/
def patternName (pattern : Text) : Text :=
  let basename := (pattern.reverse.takeWhile fun c => !isWindowsSeparator c).reverse
  if ".exe".toList.isSuffixOf basename then basename.take (basename.length - 4) else basename

def isInterpreterLikeAllowlistPattern (pattern : Text) : Bool :=
  let trimmed := host.toLowerCase (trimChars pattern)
  trimmed ≠ [] &&
    (normalizeExecutableToken host trimmed ∈ INTERPRETER_ALLOWLIST_NAMES ||
      (patternName trimmed).filter (· ∉ "*?[]{}()".toList) ∈ INTERPRETER_ALLOWLIST_NAMES)

end

/-! ### Only interpreters -/

end OpenClaw.Exec
