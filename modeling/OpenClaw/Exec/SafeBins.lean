import OpenClaw.Exec.ArgPattern
import OpenClaw.Foundation.InsertionMap

/-! The arguments of the safe bins.

A safe bin may run without an approval as long as it only reads its standard input. Its
profile names the flags that take a value and those that are denied, and
`validateSafeBinArgv` reads the arguments from left to right and gives up on whatever the
profile does not cover. -/
namespace OpenClaw.Exec
open Foundation
open Foundation.EcmaString (trimChars)

/-! ### Tokens -/

inductive ExecArgvToken where
  | empty
  | terminator
  | stdin
  | positional (raw : Text)
  | long (flag : Text) (inlineValue : Option Text)
  | shortCluster (cluster : Text)
  deriving Repr, DecidableEq

def parseExecArgvToken (raw : Text) : ExecArgvToken :=
  if raw = [] then .empty
  else if raw = ['-', '-'] then .terminator
  else if raw = ['-'] then .stdin
  else if ¬['-'].isPrefixOf raw then .positional raw
  else if ['-', '-'].isPrefixOf raw then
    match raw.findIdx? (· = '=') with
    | some eqIndex => if eqIndex > 0 then .long (raw.take eqIndex) (some (raw.drop (eqIndex + 1))) else .long raw none
    | none => .long raw none
  else .shortCluster raw.tail

/-! ### Profiles -/

/-- The flags that start with two dashes. -/
def collectKnownLongFlags (allowedValueFlags deniedFlags : List Text) : List Text :=
  ((allowedValueFlags ++ deniedFlags).filter ['-', '-'].isPrefixOf).eraseDups

/-- What a flag makes of the entry of one of its prefixes. -/
def sharePrefix (flag : Text) (existing : Option (Option Text)) : Option Text :=
  match existing with
  | none => some flag
  | some existing => if existing = some flag then existing else none

def addPrefix (flag : Text) (prefixMap : InsertionMap Text (Option Text)) (length : Nat) :
    InsertionMap Text (Option Text) :=
  prefixMap.set (flag.take length) (sharePrefix flag (prefixMap.get? (flag.take length)))

def addPrefixes (prefixMap : InsertionMap Text (Option Text)) (flag : Text) : InsertionMap Text (Option Text) :=
  if ¬['-', '-'].isPrefixOf flag || flag.length ≤ 2 then prefixMap
  else (List.range' 3 (flag.length - 2)).foldl (addPrefix flag) prefixMap

/-- Every prefix of a long flag, with the flag it stands for if there is only one. -/
def buildLongFlagPrefixMap (knownLongFlags : List Text) : InsertionMap Text (Option Text) :=
  knownLongFlags.foldl addPrefixes ∅

structure SafeBinProfileFixture where
  minPositional : Option Int := none
  maxPositional : Option Int := none
  allowedValueFlags : List Text := []
  deniedFlags : List Text := []
  deriving Repr, DecidableEq

/-- A profile. What it has of the long flags in advance is what would be computed from them. -/
structure SafeBinProfile where
  minPositional : Option Int := none
  maxPositional : Option Int := none
  allowedValueFlags : Option (List Text) := none
  deniedFlags : Option (List Text) := none
  knownLongFlags : Option (List Text) := none
  knownLongFlagsSet : Option (List Text) := none
  longFlagPrefixMap : Option (InsertionMap Text (Option Text)) := none
  set_eq : ∀ s ∈ knownLongFlagsSet,
    s = knownLongFlags.getD (collectKnownLongFlags (allowedValueFlags.getD []) (deniedFlags.getD []))
  map_eq : ∀ m ∈ longFlagPrefixMap, m = buildLongFlagPrefixMap
    (knownLongFlags.getD (collectKnownLongFlags (allowedValueFlags.getD []) (deniedFlags.getD [])))

def compileSafeBinProfile (fixture : SafeBinProfileFixture) : SafeBinProfile :=
  let knownLongFlags := collectKnownLongFlags fixture.allowedValueFlags fixture.deniedFlags
  { minPositional := fixture.minPositional
    maxPositional := fixture.maxPositional
    allowedValueFlags := some fixture.allowedValueFlags
    deniedFlags := some fixture.deniedFlags
    knownLongFlags := some knownLongFlags
    knownLongFlagsSet := some knownLongFlags
    longFlagPrefixMap := some (buildLongFlagPrefixMap knownLongFlags)
    set_eq := by
      rintro s ⟨⟩
      rfl
    map_eq := by
      rintro m ⟨⟩
      rfl }

/-- The profiles that come with the program. -/
def SAFE_BIN_PROFILE_FIXTURES : List (Text × SafeBinProfileFixture) :=
  [("jq".toList, {
      maxPositional := some 1
      allowedValueFlags := texts ["--arg", "--argjson", "--argstr"]
      deniedFlags := texts ["--argfile", "--rawfile", "--slurpfile", "--from-file", "--library-path", "-L",
        "-f"] }),
   ("grep".toList, {
      maxPositional := some 0
      allowedValueFlags := texts ["--regexp", "--max-count", "--after-context", "--before-context", "--context",
        "--devices", "--binary-files", "--exclude", "--include", "--label", "-e", "-m",
        "-A", "-B", "-C", "-D"]
      deniedFlags := texts ["--file", "--exclude-from", "--dereference-recursive", "--directories",
        "--recursive", "-f", "-d", "-r", "-R"] }),
   ("cut".toList, {
      maxPositional := some 0
      allowedValueFlags := texts ["--bytes", "--characters", "--fields", "--delimiter", "--output-delimiter",
        "-b", "-c", "-f", "-d"] }),
   ("sort".toList, {
      maxPositional := some 0
      allowedValueFlags := texts ["--key", "--field-separator", "--buffer-size", "--parallel", "--batch-size",
        "-k", "-t", "-S"]
      deniedFlags := texts ["--compress-program", "--files0-from", "--output", "--random-source",
        "--temporary-directory", "-T", "-o"] }),
   ("uniq".toList, {
      maxPositional := some 0
      allowedValueFlags := texts ["--skip-fields", "--skip-chars", "--check-chars", "--group", "-f", "-s", "-w"] }),
   ("head".toList, {
      maxPositional := some 0
      allowedValueFlags := texts ["--lines", "--bytes", "-n", "-c"] }),
   ("tail".toList, {
      maxPositional := some 0
      allowedValueFlags := texts ["--lines", "--bytes", "--sleep-interval", "--max-unchanged-stats", "--pid",
        "-n", "-c"] }),
   ("tr".toList, {
      minPositional := some 1
      maxPositional := some 2 }),
   ("wc".toList, {
      maxPositional := some 0
      deniedFlags := texts ["--files0-from"] })]

namespace SafeBinProfile
variable (profile : SafeBinProfile)

def allowed : List Text := profile.allowedValueFlags.getD []

def denied : List Text := profile.deniedFlags.getD []

def known : List Text := profile.knownLongFlags.getD (collectKnownLongFlags profile.allowed profile.denied)

def knownSet : List Text := profile.knownLongFlagsSet.getD profile.known

def prefixMap : InsertionMap Text (Option Text) :=
  profile.longFlagPrefixMap.getD (buildLongFlagPrefixMap profile.known)

end SafeBinProfile

/-! ### Values -/

def isPathLikeToken (value : Text) : Bool :=
  let trimmed := trimChars value
  if trimmed = [] || trimmed = ['-'] then false
  else
    "./".toList.isPrefixOf trimmed || "../".toList.isPrefixOf trimmed || ['~'].isPrefixOf trimmed ||
      ['/'].isPrefixOf trimmed ||
      match trimmed with
      | letter :: ':' :: separator :: _ => letter.isAlpha && (separator = '\\' || separator = '/')
      | _ => false

def hasGlobToken (value : Text) : Bool := value.any (· ∈ ['*', '?', '[', ']'])

def isSafeLiteralToken (value : Text) : Bool :=
  if value = [] || value = ['-'] then true else !hasGlobToken value && !isPathLikeToken value

def isInvalidValueToken (value : Option Text) : Bool :=
  match value with
  | none => true
  | some value => value = [] || !isSafeLiteralToken value

/-! ### Reading the arguments -/

section
variable (profile : SafeBinProfile)

def resolveCanonicalLongFlag (flag : Text) : Option Text :=
  if ¬['-', '-'].isPrefixOf flag || flag.length ≤ 2 then none
  else if flag ∈ profile.knownSet then some flag
  else (profile.prefixMap.get? flag).join

/-- How many of the arguments behind an option belong to it, if it is allowed. -/
def consumeLongOptionToken (next : Option Text) (flag : Text) (inlineValue : Option Text) : Option Nat :=
  match resolveCanonicalLongFlag profile flag with
  | none => none
  | some canonicalFlag =>
    if canonicalFlag ∈ profile.denied then none
    else
      let expectsValue := canonicalFlag ∈ profile.allowed
      match inlineValue with
      | some inlineValue => if ¬expectsValue then none else if isSafeLiteralToken inlineValue then some 0 else none
      | none => if ¬expectsValue then some 0 else if isInvalidValueToken next then none else some 1

def consumeShortOptionClusterToken (next : Option Text) : Text → Option Nat
  | [] => none
  | ch :: inlineValue =>
    if ['-', ch] ∈ profile.denied then none
    else if ['-', ch] ∉ profile.allowed then consumeShortOptionClusterToken next inlineValue
    else if inlineValue ≠ [] then if isSafeLiteralToken inlineValue then some 0 else none
    else if isInvalidValueToken next then none
    else some 1

def consumePositionalToken (token : Text) (positional : Option (List Text)) : Option (List Text) :=
  if isSafeLiteralToken token then positional.map (token :: ·) else none

/-- The arguments behind the terminator. -/
def collectRest : List Text → Option (List Text)
  | [] => some []
  | rest :: others =>
    if rest = [] || rest = ['-'] then collectRest others else consumePositionalToken rest (collectRest others)

/-- The positional arguments, when `skip` of the arguments belong to the option before. -/
def collectFrom : Nat → List Text → Option (List Text)
  | _, [] => some []
  | skip + 1, _ :: args => collectFrom skip args
  | 0, rawToken :: args =>
    match parseExecArgvToken rawToken with
    | .empty => collectFrom 0 args
    | .stdin => collectFrom 0 args
    | .terminator => collectRest args
    | .positional raw => consumePositionalToken raw (collectFrom 0 args)
    | .long flag inlineValue =>
      match consumeLongOptionToken profile args.head? flag inlineValue with
      | none => none
      | some taken => collectFrom taken args
    | .shortCluster cluster =>
      match consumeShortOptionClusterToken profile args.head? cluster with
      | none => none
      | some taken => collectFrom taken args

def collectPositionalTokens (args : List Text) : Option (List Text) := collectFrom profile 0 args

def validatePositionalCount (positional : List Text) : Bool :=
  !((positional.length : Int) < profile.minPositional.getD 0) &&
    !profile.maxPositional.any fun maxPositional => (positional.length : Int) > maxPositional

end

/-! ### What the bins make of it -/

/-- `/(^|[^.$A-Za-z0-9_])env([^A-Za-z0-9_]|$)/`. -/
def JQ_ENV_FILTER_PATTERN : Regex :=
  .sequence [.alt .atStart (.char fun c => !Regex.isWordChar c && c ≠ '.' && c ≠ '$'), .lit 'e', .lit 'n', .lit 'v',
    .alt (.char fun c => !Regex.isWordChar c) .atEnd]

/-- `/\$ENV\b/`. -/
def JQ_ENV_VARIABLE_PATTERN : Regex := .sequence [.lit '$', .lit 'E', .lit 'N', .lit 'V', .wordBoundary]

def unsafeSafeBins : List Text := texts ["awk", "gawk", "mawk", "nawk", "sed", "gsed"]

def normalizeSafeBinName (host : Host) (raw : Text) : Text :=
  let trimmed := host.toLowerCase (trimChars raw)
  stripWindowsExecutableSuffix (trimmed.reverse.takeWhile fun c => !isWindowsSeparator c).reverse

def validateSafeBinSemantics (host : Host) (binName : Option Text) (positional : List Text) : Bool :=
  let bin := (binName.map (normalizeSafeBinName host)).getD []
  if bin = "jq".toList then
    !positional.any fun token => JQ_ENV_FILTER_PATTERN.test token || JQ_ENV_VARIABLE_PATTERN.test token
  else bin ∉ unsafeSafeBins

def validateSafeBinArgv (host : Host) (args : List Text) (profile : SafeBinProfile) (binName : Option Text) : Bool :=
  match collectPositionalTokens profile args with
  | none => false
  | some positional => validatePositionalCount profile positional && validateSafeBinSemantics host binName positional

end OpenClaw.Exec
