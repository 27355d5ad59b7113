import OpenClaw.Exec.ShellArgv

/-! Commands that run another command.

`env`, `nice`, `timeout` and their like are looked through: `unwrap…Invocation` finds
where the wrapped command starts in the argv, or gives up on an option it does not
know. `resolveDispatchWrapperTrustPlan` unwraps up to a depth and blocks what changes
more than how the command is run. Whatever is unwrapped is a suffix of the argv. -/
namespace OpenClaw.Exec
open List

open Foundation.EcmaString (isWhiteSpace trimChars)

/-! ### The host -/

inductive HostPlatform where
  | darwin
  | freebsd
  | linux
  | win32
  | other
  deriving Repr, DecidableEq

/-- What the analysis asks of the machine it runs on, in a fixed directory and environment. -/
structure Host where
  platform : HostPlatform
  /-- The case mapping of Unicode. -/
  toLowerCase : Text → Text
  resolveExecutablePath : Text → Option Text
  realpathSync : Text → Option Text

def texts (l : List String) : List Text := l.map String.toList

/-! ### Names of executables -/

/-- The last component, whatever separators follow it. -/
def basenameOf (isSeparator : Char → Bool) (path : Text) : Text :=
  ((path.reverse.dropWhile isSeparator).takeWhile fun c => !isSeparator c).reverse

def posixBasename (path : Text) : Text := basenameOf (· = '/') path

def win32Basename (path : Text) : Text :=
  basenameOf (· ∈ ['/', '\\'])
    (if (path.head?.any Char.isAlpha) && path.tail.head? = some ':' then path.drop 2 else path)

/-- `path.basename` on the host. -/
def Host.basename (host : Host) (path : Text) : Text :=
  if host.platform = .win32 then win32Basename path else posixBasename path

def windowsExecutableSuffixes : List Text := texts [".exe", ".cmd", ".bat", ".com"]

def stripWindowsExecutableSuffix (value : Text) : Text :=
  match windowsExecutableSuffixes.find? (·.isSuffixOf value) with
  | some suffix => value.take (value.length - suffix.length)
  | none => value

section
variable (host : Host)

def basenameLower (token : Text) : Text :=
  let win := win32Basename token
  let posix := posixBasename token
  host.toLowerCase (trimChars (if win.length < posix.length then win else posix))

def normalizeExecutableToken (token : Text) : Text := stripWindowsExecutableSuffix (basenameLower host token)

/-! ### Scanning an invocation -/

inductive WrapperScanDirective where
  | goOn
  | consumeNext
  | stop
  | invalid
  deriving Repr, DecidableEq

/-- The loop of `scanWrapperInvocation`, on what is left of the argv. `onToken` sees the
trimmed token and its lower case, and may keep a state. -/
def scanWrapperTokens {σ : Type} (separators : List Text)
    (onToken : σ → Text → Text → σ × WrapperScanDirective) : Bool → σ → List Text → Option (List Text)
  | expectsOptionValue, _, [] => if expectsOptionValue then none else some []
  | expectsOptionValue, s, raw :: rest =>
    let token := trimChars raw
    if token = [] then scanWrapperTokens separators onToken expectsOptionValue s rest
    else if expectsOptionValue then scanWrapperTokens separators onToken false s rest
    else if token ∈ separators then some rest
    else
      match onToken s token (host.toLowerCase token) with
      | (_, .stop) => some (raw :: rest)
      | (_, .invalid) => none
      | (s', .consumeNext) => scanWrapperTokens separators onToken true s' rest
      | (s', .goOn) => scanWrapperTokens separators onToken false s' rest

/-- The wrapped command, which `adjust` may look for further on. -/
def scanWrapperInvocation {σ : Type} (separators : List Text)
    (onToken : σ → Text → Text → σ × WrapperScanDirective) (s : σ)
    (adjust : List Text → Option (List Text)) (argv : List Text) : Option (List Text) :=
  ((scanWrapperTokens host separators onToken false s (argv.drop 1)).bind adjust).filter (· ≠ [])

/-- An `onToken` without a state. -/
def stateless (onToken : Text → Text → WrapperScanDirective) :
    Unit → Text → Text → Unit × WrapperScanDirective := fun _ token lower => ((), onToken token lower)

/-- `!token.startsWith("-") || token === "-"`. -/
def isOperand (token : Text) : Bool := token.head? ≠ some '-' || token = ['-']

/-- `lower.split("=", 2)[0]`. -/
def flagOf (token : Text) : Text := token.takeWhile (· ≠ '=')

/-- Whether an option takes its value from the next token. -/
def takesValue (inline : Bool) : WrapperScanDirective := if inline then .goOn else .consumeNext

def unwrapDashOptionInvocation (onFlag : Text → Text → WrapperScanDirective)
    (adjust : List Text → Option (List Text)) (argv : List Text) : Option (List Text) :=
  scanWrapperInvocation host (texts ["--"])
    (stateless fun token lower => if isOperand token then .stop else onFlag (flagOf lower) lower) () adjust argv

/-! ### The wrappers -/

def envOptionsWithValue : List Text :=
  texts ["-u", "--unset", "-c", "--chdir", "-s", "--split-string", "--default-signal", "--ignore-signal",
    "--block-signal"]
def envInlineValuePrefixes : List Text :=
  texts ["-u", "-c", "-s", "--unset=", "--chdir=", "--split-string=", "--default-signal=", "--ignore-signal=",
    "--block-signal="]
def envFlagOptions : List Text := texts ["-i", "--ignore-environment", "-0", "--null"]
def niceOptionsWithValue : List Text := texts ["-n", "--adjustment", "--priority"]
def caffeinateFlagOptions : List Text := texts ["-d", "-i", "-m", "-s", "-u"]
def caffeinateOptionsWithValue : List Text := texts ["-t", "-w"]
def stdbufOptionsWithValue : List Text := texts ["-i", "--input", "-o", "--output", "-e", "--error"]
def timeFlagOptions : List Text :=
  texts ["-a", "--append", "-h", "--help", "-l", "-p", "-q", "--quiet", "-v", "--verbose", "-V", "--version"]
def timeOptionsWithValue : List Text := texts ["-f", "--format", "-o", "--output"]
def bsdScriptFlagOptions : List Text := texts ["-a", "-d", "-k", "-p", "-q", "-r"]
def bsdScriptOptionsWithValue : List Text := texts ["-F", "-t"]
def sandboxExecOptionsWithValue : List Text := texts ["-f", "-p", "-d"]
def timeoutFlagOptions : List Text := texts ["--foreground", "--preserve-status", "-v", "--verbose"]
def timeoutOptionsWithValue : List Text := texts ["-k", "--kill-after", "-s", "--signal"]
def xcrunFlagOptions : List Text :=
  texts ["-k", "--kill-cache", "-l", "--log", "-n", "--no-cache", "-r", "--run", "-v", "--verbose"]
def knownArchSelectors : List Text := texts ["-arm64", "-arm64e", "-i386", "-x86_64", "-x86_64h"]

def isNameChar (c : Char) : Bool := c.isAlphanum || c = '_'

def isEnvAssignment (token : Text) : Bool :=
  match token with
  | [] => false
  | c :: rest => (c.isAlpha || c = '_') && (rest.dropWhile isNameChar).head? = some '='

def hasEnvInlineValuePrefix (lower : Text) : Bool := envInlineValuePrefixes.any (·.isPrefixOf lower)

def envOnToken (token lower : Text) : WrapperScanDirective :=
  if isEnvAssignment token then .goOn
  else if isOperand token then .stop
  else if flagOf lower ∈ envFlagOptions then .goOn
  else if flagOf lower ∈ envOptionsWithValue then takesValue ('=' ∈ lower)
  else if hasEnvInlineValuePrefix lower then .goOn
  else .invalid

def unwrapEnvInvocation (argv : List Text) : Option (List Text) :=
  scanWrapperInvocation host (texts ["--", "-"]) (stateless envOnToken) () some argv

/-- The loop of `envInvocationUsesModifiers`: any option but a separator changes the environment. -/
def envTokensUseModifiers : Bool → List Text → Bool
  | _, [] => false
  | expectsOptionValue, raw :: rest =>
    let token := trimChars raw
    let lower := host.toLowerCase token
    if token = [] then envTokensUseModifiers expectsOptionValue rest
    else if expectsOptionValue then true
    else if token ∈ texts ["--", "-"] then false
    else if isEnvAssignment token then true
    else if isOperand token then false
    else if flagOf lower ∈ envFlagOptions then true
    else if flagOf lower ∈ envOptionsWithValue && '=' ∉ lower then envTokensUseModifiers true rest
    else true

def envInvocationUsesModifiers (argv : List Text) : Bool := envTokensUseModifiers host false (argv.drop 1)

def niceOnFlag (flag lower : Text) : WrapperScanDirective :=
  if lower.head? = some '-' && lower.tail ≠ [] && lower.tail.all Char.isDigit then .goOn
  else if flag ∈ niceOptionsWithValue then takesValue ('=' ∈ lower || lower ≠ flag)
  else if (texts ["-n"]).any (·.isPrefixOf lower) && lower.length > 2 then .goOn
  else .invalid

def caffeinateOnFlag (flag lower : Text) : WrapperScanDirective :=
  if flag ∈ caffeinateFlagOptions then .goOn
  else if flag ∈ caffeinateOptionsWithValue then takesValue (lower ≠ flag || '=' ∈ lower)
  else .invalid

def sandboxExecOnFlag (flag lower : Text) : WrapperScanDirective :=
  if flag ∈ sandboxExecOptionsWithValue then takesValue (lower ≠ flag || '=' ∈ lower) else .invalid

/-- The options of `stdbuf`, `time` and `timeout`: flags, and options with a value. -/
def plainOnFlag (flags withValue : List Text) (flag lower : Text) : WrapperScanDirective :=
  if flag ∈ flags then .goOn else if flag ∈ withValue then takesValue ('=' ∈ lower) else .invalid

def unwrapNiceInvocation := unwrapDashOptionInvocation host niceOnFlag some
def unwrapCaffeinateInvocation := unwrapDashOptionInvocation host caffeinateOnFlag some
def unwrapSandboxExecInvocation := unwrapDashOptionInvocation host sandboxExecOnFlag some
def unwrapStdbufInvocation := unwrapDashOptionInvocation host (plainOnFlag [] stdbufOptionsWithValue) some
def unwrapTimeInvocation := unwrapDashOptionInvocation host (plainOnFlag timeFlagOptions timeOptionsWithValue) some
/-- The duration stands before the command. -/
def unwrapTimeoutInvocation :=
  unwrapDashOptionInvocation host (plainOnFlag timeoutFlagOptions timeoutOptionsWithValue) fun rest =>
    if rest.tail = [] then none else some rest.tail

def unwrapNohupInvocation (argv : List Text) : Option (List Text) :=
  scanWrapperInvocation host (texts ["--"])
    (stateless fun token lower =>
      if isOperand token then .stop else if lower ∈ texts ["--help", "--version"] then .goOn else .invalid)
    () some argv

def supportsScriptPositionalCommand : Bool := host.platform = .darwin || host.platform = .freebsd

/-- The transcript stands before the command. -/
def afterTranscript (rest : List Text) : Option (List Text) :=
  let isEmpty (raw : Text) : Bool := trimChars raw = []
  let command := ((rest.dropWhile isEmpty).tail).dropWhile isEmpty
  if command = [] then none else some command

def unwrapScriptInvocation (argv : List Text) : Option (List Text) :=
  if !supportsScriptPositionalCommand host then none
  else
    scanWrapperInvocation host (texts ["--"])
      (stateless fun token lower =>
        if isOperand lower then .stop
        else if flagOf token ∈ bsdScriptOptionsWithValue then takesValue ('=' ∈ token)
        else if flagOf token ∈ bsdScriptFlagOptions then .goOn
        else .invalid)
      () afterTranscript argv

def isDarwin : Bool := host.platform = .darwin

/-- The state says that the name of an architecture is expected. -/
def archOnToken (expectsArchName : Bool) (token lower : Text) : Bool × WrapperScanDirective :=
  if expectsArchName then (false, if '-' :: lower ∈ knownArchSelectors then .goOn else .invalid)
  else if isOperand token then (false, .stop)
  else if lower ∈ texts ["-32", "-64"] then (false, .goOn)
  else if lower = "-arch".toList then (true, .goOn)
  else if lower ∈ texts ["-c", "-d", "-e", "-h"] then (false, .invalid)
  else
    let isSelector := token.tail ≠ [] && token.tail.all isNameChar
    (false, if isSelector && lower ∈ knownArchSelectors then .goOn else .invalid)

def unwrapArchInvocation (argv : List Text) : Option (List Text) :=
  if isDarwin host then scanWrapperInvocation host [] archOnToken false some argv else none

def unwrapXcrunInvocation (argv : List Text) : Option (List Text) :=
  if isDarwin host then
    scanWrapperInvocation host []
      (stateless fun token lower =>
        if isOperand token then .stop else if lower ∈ xcrunFlagOptions then .goOn else .invalid)
      () some argv
  else none

structure DispatchWrapperSpec where
  name : Text
  unwrap : Option (List Text → Option (List Text))
  transparentUsage : List Text → Bool

/-- `DISPATCH_WRAPPER_SPECS`. -/
def dispatchWrapperSpecs : List DispatchWrapperSpec :=
  [ ⟨"arch".toList, some (unwrapArchInvocation host), fun _ => isDarwin host⟩,
    ⟨"caffeinate".toList, some (unwrapCaffeinateInvocation host), fun _ => true⟩,
    ⟨"chrt".toList, none, fun _ => false⟩,
    ⟨"doas".toList, none, fun _ => false⟩,
    ⟨"env".toList, some (unwrapEnvInvocation host), fun argv => !envInvocationUsesModifiers host argv⟩,
    ⟨"ionice".toList, none, fun _ => false⟩,
    ⟨"nice".toList, some (unwrapNiceInvocation host), fun _ => true⟩,
    ⟨"nohup".toList, some (unwrapNohupInvocation host), fun _ => true⟩,
    ⟨"sandbox-exec".toList, some (unwrapSandboxExecInvocation host), fun _ => true⟩,
    ⟨"script".toList, some (unwrapScriptInvocation host), fun _ => true⟩,
    ⟨"setsid".toList, none, fun _ => false⟩,
    ⟨"stdbuf".toList, some (unwrapStdbufInvocation host), fun _ => true⟩,
    ⟨"sudo".toList, none, fun _ => false⟩,
    ⟨"taskset".toList, none, fun _ => false⟩,
    ⟨"time".toList, some (unwrapTimeInvocation host), fun _ => true⟩,
    ⟨"timeout".toList, some (unwrapTimeoutInvocation host), fun _ => true⟩,
    ⟨"xcrun".toList, some (unwrapXcrunInvocation host), fun _ => isDarwin host⟩ ]

def dispatchWrapperSpec? (name : Text) : Option DispatchWrapperSpec :=
  (dispatchWrapperSpecs host).find? (·.name = name)

inductive WrapperUnwrapResult where
  | notWrapper
  | blocked (wrapper : Text)
  | unwrapped (wrapper : Text) (argv : List Text)
  deriving Repr, DecidableEq

def isDispatchWrapperExecutable (token : Text) : Bool :=
  (dispatchWrapperSpec? host (normalizeExecutableToken host token)).isSome

/-- `argv[0]?.trim()`, when anything is left of it. -/
def executableToken (argv : List Text) : Option Text := (argv.head?.map trimChars).filter (· ≠ [])

def unwrapKnownDispatchWrapperInvocation (argv : List Text) : WrapperUnwrapResult :=
  match executableToken argv with
  | none => .notWrapper
  | some token0 =>
    let wrapper := normalizeExecutableToken host token0
    match dispatchWrapperSpec? host wrapper with
    | none => .notWrapper
    | some spec =>
      match spec.unwrap.bind (· argv) with
      | none => .blocked wrapper
      | some unwrapped => .unwrapped wrapper unwrapped

def isSemanticDispatchWrapperUsage (wrapper : Text) (argv : List Text) : Bool :=
  match dispatchWrapperSpec? host wrapper with
  | none => true
  | some spec => spec.unwrap.isNone || !spec.transparentUsage argv

/-! ### The dispatch plan -/

structure DispatchWrapperTrustPlan where
  argv : List Text
  wrappers : List Text
  policyBlocked : Bool
  blockedWrapper : Option Text
  deriving Repr, DecidableEq

def blockedDispatchWrapperPlan (argv wrappers : List Text) (wrapper : Text) : DispatchWrapperTrustPlan :=
  ⟨argv, wrappers, true, some wrapper⟩

/-- The loop over the depth: a plan when it returns, the command and its wrappers when it ends. -/
def unwrapDispatchWrappers : Nat → List Text → List Text →
    Except DispatchWrapperTrustPlan (List Text × List Text)
  | 0, current, wrappers => .ok (current, wrappers)
  | depth + 1, current, wrappers =>
    match unwrapKnownDispatchWrapperInvocation host current with
    | .blocked wrapper => .error (blockedDispatchWrapperPlan current wrappers wrapper)
    | .notWrapper => .ok (current, wrappers)
    | .unwrapped wrapper argv =>
      if argv = [] then .ok (current, wrappers)
      else if isSemanticDispatchWrapperUsage host wrapper current then
        .error (blockedDispatchWrapperPlan current (wrappers ++ [wrapper]) wrapper)
      else unwrapDispatchWrappers depth argv (wrappers ++ [wrapper])

def resolveDispatchWrapperTrustPlan (argv : List Text) (maxDepth : Nat) : DispatchWrapperTrustPlan :=
  match unwrapDispatchWrappers host maxDepth argv [] with
  | .error plan => plan
  | .ok (current, wrappers) =>
    match unwrapKnownDispatchWrapperInvocation host current with
    | .notWrapper => ⟨current, wrappers, false, none⟩
    | .blocked wrapper | .unwrapped wrapper _ =>
      if wrappers.length ≥ maxDepth then blockedDispatchWrapperPlan current wrappers wrapper
      else ⟨current, wrappers, false, none⟩

/-! ### What is unwrapped is a suffix -/

variable {host}

/-- What is found is a suffix of the argv. -/
def Shortens (f : List Text → Option (List Text)) : Prop :=
  ∀ argv rest : List Text, f argv = some rest → rest <:+ argv

theorem shortens_some : Shortens some := by
  intro argv rest h
  cases h
  exact suffix_refl _

theorem shortens_ite (b : Bool) {f : List Text → Option (List Text)} (h : Shortens f) :
    Shortens fun argv => if b then f argv else none := by
  intro argv rest hrest
  cases b
  · cases hrest
  · exact h argv rest hrest

theorem shortens_duration : Shortens fun rest => if rest.tail = [] then none else some rest.tail := by
  intro argv rest h
  dsimp only at h
  split at h
  · cases h
  · cases h
    exact tail_suffix argv

theorem shortens_transcript : Shortens afterTranscript := by
  intro argv rest h
  unfold afterTranscript at h
  dsimp only at h
  split at h
  · cases h
  · cases h
    exact (dropWhile_suffix _).trans ((tail_suffix _).trans (dropWhile_suffix _))

theorem scanWrapperTokens_suffix {σ : Type} {separators : List Text}
    {onToken : σ → Text → Text → σ × WrapperScanDirective} {expects : Bool} {s : σ} {argv rest : List Text}
    (h : scanWrapperTokens host separators onToken expects s argv = some rest) : rest <:+ argv := by
  induction argv generalizing expects s with
  | nil =>
    unfold scanWrapperTokens at h
    split at h
    · cases h
    · cases h
      exact suffix_refl _
  | cons raw tail ih =>
    have htail : tail <:+ raw :: tail := suffix_cons raw tail
    unfold scanWrapperTokens at h
    dsimp only at h
    split at h
    · exact (ih h).trans htail
    split at h
    · exact (ih h).trans htail
    split at h
    · cases h
      exact htail
    split at h
    · cases h
      exact suffix_refl _
    · cases h
    · exact (ih h).trans htail
    · exact (ih h).trans htail

theorem shortens_scan {σ : Type} (separators : List Text)
    (onToken : σ → Text → Text → σ × WrapperScanDirective) (s : σ) {adjust : List Text → Option (List Text)}
    (hadjust : Shortens adjust) : Shortens (scanWrapperInvocation host separators onToken s adjust) := by
  intro argv rest h
  rw [scanWrapperInvocation, Option.filter_eq_some_iff, Option.bind_eq_some_iff] at h
  obtain ⟨⟨tail, hscan, hrest⟩, _⟩ := h
  exact (hadjust _ _ hrest).trans ((scanWrapperTokens_suffix hscan).trans (drop_suffix 1 argv))

theorem shortens_script : Shortens (unwrapScriptInvocation host) := by
  intro argv rest h
  unfold unwrapScriptInvocation at h
  split at h
  · cases h
  · exact shortens_scan _ _ _ shortens_transcript argv rest h

theorem dispatchWrapperSpecs_shorten :
    ∀ spec ∈ dispatchWrapperSpecs host, ∀ unwrap ∈ spec.unwrap, Shortens unwrap := by
  have hdash (onFlag : Text → Text → WrapperScanDirective) :
      Shortens (unwrapDashOptionInvocation host onFlag some) := shortens_scan _ _ _ shortens_some
  simp only [dispatchWrapperSpecs, forall_mem_cons, Option.mem_def, Option.some.injEq, forall_eq',
    reduceCtorEq, false_implies, implies_true, true_and, not_mem_nil, and_true]
  exact ⟨shortens_ite _ (shortens_scan _ _ _ shortens_some), hdash _, shortens_scan _ _ _ shortens_some,
    hdash _, shortens_scan _ _ _ shortens_some, hdash _, shortens_script, hdash _, hdash _,
    shortens_scan _ _ _ shortens_duration, shortens_ite _ (shortens_scan _ _ _ shortens_some)⟩

theorem dispatchWrapper_suffix {argv unwrapped : List Text} {wrapper : Text}
    (h : unwrapKnownDispatchWrapperInvocation host argv = .unwrapped wrapper unwrapped) : unwrapped <:+ argv := by
  unfold unwrapKnownDispatchWrapperInvocation at h
  split at h
  · cases h
  · dsimp only at h
    split at h
    · cases h
    · rename_i spec hspec
      split at h
      · cases h
      · rename_i found hfound
        cases h
        obtain ⟨unwrap, hunwrap, hargv⟩ := Option.bind_eq_some_iff.mp hfound
        exact dispatchWrapperSpecs_shorten spec (mem_of_find?_eq_some hspec) unwrap hunwrap argv _ hargv

theorem unwrapDispatchWrappers_suffix (depth : Nat) {argv wrappers : List Text} :
    match unwrapDispatchWrappers host depth argv wrappers with
    | .error plan => plan.argv <:+ argv
    | .ok (current, _) => current <:+ argv := by
  induction depth generalizing argv wrappers with
  | zero => exact suffix_refl argv
  | succ depth ih =>
    unfold unwrapDispatchWrappers
    cases hunwrap : unwrapKnownDispatchWrapperInvocation host argv with
    | unwrapped wrapper inner =>
      have hinner := dispatchWrapper_suffix hunwrap
      dsimp only
      by_cases hempty : inner = []
      · simpa only [if_pos hempty] using suffix_refl argv
      rw [if_neg hempty]
      by_cases hsemantic : isSemanticDispatchWrapperUsage host wrapper argv = true
      · have hblocked : (blockedDispatchWrapperPlan argv (wrappers ++ [wrapper]) wrapper).argv <:+ argv :=
          suffix_refl argv
        simpa only [if_pos hsemantic] using hblocked
      · rw [if_neg hsemantic]
        have hrest := @ih inner (wrappers ++ [wrapper])
        split at hrest
        · exact hrest.trans hinner
        · exact hrest.trans hinner
    | _ => exact suffix_refl argv

theorem dispatchPlan_suffix (argv : List Text) (maxDepth : Nat) :
    (resolveDispatchWrapperTrustPlan host argv maxDepth).argv <:+ argv := by
  have hloop := @unwrapDispatchWrappers_suffix host maxDepth argv []
  unfold resolveDispatchWrapperTrustPlan
  cases hresult : unwrapDispatchWrappers host maxDepth argv [] with
  | error plan =>
    rw [hresult] at hloop
    exact hloop
  | ok result =>
    rw [hresult] at hloop
    dsimp only at hloop ⊢
    split
    · exact hloop
    · split <;> exact hloop
    · split <;> exact hloop

end

end OpenClaw.Exec
