import OpenClaw.Exec.DispatchWrappers

/-! Shells, and the plan for a whole argv.

A shell may carry a command line inline (`sh -c '…'`), and a shell multiplexer runs a
shell as an applet (`busybox sh`). `resolveExecWrapperTrustPlan` looks through dispatch
wrappers and multiplexers until neither is left. -/
namespace OpenClaw.Exec
open Foundation.EcmaString (trimChars)

/-! ### Inline commands -/

def posixInlineCommandFlags : List Text := texts ["-lc", "-c", "--command"]

def powershellInlineCommandFlags : List Text :=
  texts ["-c", "-command", "--command", "-f", "-file", "-encodedcommand", "-enc", "-e"]

structure InlineCommandMatch where
  command : Option Text
  valueTokenIndex : Option Nat
  deriving Repr, DecidableEq

/-- The trimmed text if anything is left of it. -/
def nonBlank (text : Text) : Option Text := some (trimChars text) |>.filter (· ≠ [])

/-- `/^-[^-]*c[^-]*$/i`. -/
def isCombinedC (token : Text) : Bool :=
  token.head? = some '-' && '-' ∉ token.tail && ('c' ∈ token.tail || 'C' ∈ token.tail)

section
variable (host : Host)

/-- The loop over the argv, at index `i`. -/
def findInlineCommand (flags : List Text) (allowCombinedC : Bool) : Nat → List Text → InlineCommandMatch
  | _, [] => ⟨none, none⟩
  | i, raw :: rest =>
    let token := trimChars raw
    let lower := host.toLowerCase token
    let next : InlineCommandMatch := ⟨rest.head?.bind nonBlank, if rest = [] then none else some (i + 1)⟩
    if token = [] then findInlineCommand flags allowCombinedC (i + 1) rest
    else if lower = "--".toList then ⟨none, none⟩
    else if lower ∈ flags then next
    else if allowCombinedC && isCombinedC token then
      match nonBlank (token.drop (lower.idxOf 'c' + 1)) with
      | some inline => ⟨some inline, some i⟩
      | none => next
    else findInlineCommand flags allowCombinedC (i + 1) rest

def resolveInlineCommandMatch (argv flags : List Text) (allowCombinedC : Bool) : InlineCommandMatch :=
  findInlineCommand host flags allowCombinedC 1 (argv.drop 1)

/-! ### Shells -/

def posixShellWrapperNames : List Text := texts ["ash", "bash", "dash", "fish", "ksh", "sh", "zsh"]
def windowsCmdWrapperNames : List Text := texts ["cmd"]
def powershellWrapperNames : List Text := texts ["powershell", "pwsh"]
def shellMultiplexerWrapperNames : List Text := texts ["busybox", "toybox"]

inductive ShellWrapperKind where
  | posix
  | cmd
  | powershell
  deriving Repr, DecidableEq

/-- `findShellWrapperSpec`. -/
def findShellWrapperKind (baseExecutable : Text) : Option ShellWrapperKind :=
  if baseExecutable ∈ posixShellWrapperNames then some .posix
  else if baseExecutable ∈ windowsCmdWrapperNames then some .cmd
  else if baseExecutable ∈ powershellWrapperNames then some .powershell
  else none

def isShellWrapperExecutable (token : Text) : Bool :=
  (findShellWrapperKind (normalizeExecutableToken host token)).isSome

def unwrapKnownShellMultiplexerInvocation (argv : List Text) : WrapperUnwrapResult :=
  match executableToken argv with
  | none => .notWrapper
  | some token0 =>
    let wrapper := normalizeExecutableToken host token0
    if wrapper ∉ shellMultiplexerWrapperNames then .notWrapper
    else
      let unwrapped := if argv[1]?.map trimChars = some "--".toList then argv.drop 2 else argv.drop 1
      match executableToken unwrapped with
      | none => .blocked wrapper
      | some applet => if isShellWrapperExecutable host applet then .unwrapped wrapper unwrapped else .blocked wrapper

def isCmdRunFlag (item : Text) : Bool := host.toLowerCase (trimChars item) ∈ texts ["/c", "/k"]

/-- `tail.join(" ")`. -/
def joinBlank (l : List Text) : Text := [' '].intercalate l

def extractCmdInlineCommand (argv : List Text) : Option Text :=
  match (argv.dropWhile fun item => !isCmdRunFlag host item).tail with
  | [] => none
  | tail => nonBlank (joinBlank tail)

def extractShellWrapperPayload (argv : List Text) : ShellWrapperKind → Option Text
  | .posix => (resolveInlineCommandMatch host argv posixInlineCommandFlags true).command
  | .cmd => extractCmdInlineCommand host argv
  | .powershell => (resolveInlineCommandMatch host argv powershellInlineCommandFlags false).command

def maxDispatchWrapperDepth : Nat := 4

/-- The recursion of `extractShellWrapperCommandInternal`, for so many more calls. -/
def extractInlineCommandWithin : Nat → List Text → Option Text
  | 0, _ => none
  | depth + 1, argv =>
    match executableToken argv with
    | none => none
    | some token0 =>
      match unwrapKnownDispatchWrapperInvocation host argv with
      | .blocked _ => none
      | .unwrapped _ inner => extractInlineCommandWithin depth inner
      | .notWrapper =>
        match unwrapKnownShellMultiplexerInvocation host argv with
        | .blocked _ => none
        | .unwrapped _ inner => extractInlineCommandWithin depth inner
        | .notWrapper =>
          (findShellWrapperKind (normalizeExecutableToken host token0)).bind
            (extractShellWrapperPayload host argv)

def extractShellWrapperInlineCommand (argv : List Text) : Option Text :=
  extractInlineCommandWithin host (maxDispatchWrapperDepth + 1) argv

/-! ### The plan -/

structure ExecWrapperTrustPlan where
  argv : List Text
  policyArgv : List Text
  wrapperChain : List Text
  policyBlocked : Bool
  blockedWrapper : Option Text
  shellWrapperExecutable : Bool
  shellInlineCommand : Option Text
  deriving Repr, DecidableEq

def blockedExecWrapperTrustPlan (argv policyArgv wrapperChain : List Text) (wrapper : Text) :
    ExecWrapperTrustPlan :=
  ⟨argv, policyArgv, wrapperChain, true, some wrapper, false, none⟩

def finalizeExecWrapperTrustPlan (argv policyArgv wrapperChain : List Text) : ExecWrapperTrustPlan :=
  let shellWrapperExecutable := (executableToken argv).any (isShellWrapperExecutable host)
  ⟨argv, policyArgv, wrapperChain, false, none, shellWrapperExecutable,
    if shellWrapperExecutable then extractShellWrapperInlineCommand host argv else none⟩

structure TrustPlanState where
  current : List Text
  policyArgv : List Text
  sawShellMultiplexer : Bool := false
  wrapperChain : List Text := []
  deriving Repr, DecidableEq

/-- The loop over the depth: a plan when it returns, its state when it ends. -/
def unwrapExecWrappers (maxDepth : Nat) : Nat → TrustPlanState → Except ExecWrapperTrustPlan TrustPlanState
  | 0, s => .ok s
  | depth + 1, s =>
    let plan := resolveDispatchWrapperTrustPlan host s.current (maxDepth - s.wrapperChain.length)
    if plan.policyBlocked then
      .error (blockedExecWrapperTrustPlan plan.argv plan.argv s.wrapperChain
        (plan.blockedWrapper.getD (s.current.headD "unknown".toList)))
    else if plan.wrappers ≠ [] then
      let s' := {s with
        current := plan.argv
        policyArgv := if s.sawShellMultiplexer then s.policyArgv else plan.argv
        wrapperChain := s.wrapperChain ++ plan.wrappers}
      if s'.wrapperChain.length ≥ maxDepth then .ok s' else unwrapExecWrappers maxDepth depth s'
    else
      match unwrapKnownShellMultiplexerInvocation host s.current with
      | .blocked wrapper => .error (blockedExecWrapperTrustPlan s.current s.policyArgv s.wrapperChain wrapper)
      | .notWrapper => .ok s
      | .unwrapped wrapper argv =>
        -- the multiplexer is the executable whose trust is checked
        let s' : TrustPlanState :=
          ⟨argv, if s.sawShellMultiplexer then s.policyArgv else s.current, true, s.wrapperChain ++ [wrapper]⟩
        if s'.wrapperChain.length ≥ maxDepth then .ok s' else unwrapExecWrappers maxDepth depth s'

/-- What is still to be unwrapped once the depth is used up. -/
def overflowingWrapper (argv : List Text) : Option Text :=
  match unwrapKnownDispatchWrapperInvocation host argv with
  | .blocked wrapper | .unwrapped wrapper _ => some wrapper
  | .notWrapper =>
    match unwrapKnownShellMultiplexerInvocation host argv with
    | .blocked wrapper | .unwrapped wrapper _ => some wrapper
    | .notWrapper => none

def resolveExecWrapperTrustPlanWithin (maxDepth : Nat) (argv : List Text) : ExecWrapperTrustPlan :=
  match unwrapExecWrappers host maxDepth maxDepth {current := argv, policyArgv := argv} with
  | .error plan => plan
  | .ok s =>
    match overflowingWrapper host s.current with
    | some wrapper =>
      if s.wrapperChain.length ≥ maxDepth then
        blockedExecWrapperTrustPlan s.current s.policyArgv s.wrapperChain wrapper
      else finalizeExecWrapperTrustPlan host s.current s.policyArgv s.wrapperChain
    | none => finalizeExecWrapperTrustPlan host s.current s.policyArgv s.wrapperChain

def resolveExecWrapperTrustPlan (argv : List Text) : ExecWrapperTrustPlan :=
  resolveExecWrapperTrustPlanWithin host maxDispatchWrapperDepth argv

/-! ### The plan's argv is a suffix -/

variable {host}

theorem shellMultiplexer_suffix {argv unwrapped : List Text} {wrapper : Text}
    (h : unwrapKnownShellMultiplexerInvocation host argv = .unwrapped wrapper unwrapped) :
    unwrapped <:+ argv := by
  have hdrop : (if argv[1]?.map trimChars = some "--".toList then argv.drop 2 else argv.drop 1) <:+ argv := by
    split <;> exact List.drop_suffix _ _
  unfold unwrapKnownShellMultiplexerInvocation at h
  split at h
  · cases h
  · dsimp only at h
    split at h
    · cases h
    · split at h
      · cases h
      · split at h
        · cases h
          exact hdrop
        · cases h

theorem unwrapExecWrappers_suffix (maxDepth depth : Nat) (s : TrustPlanState) :
    match unwrapExecWrappers host maxDepth depth s with
    | .error plan => plan.argv <:+ s.current
    | .ok s' => s'.current <:+ s.current := by
  induction depth generalizing s with
  | zero => exact List.suffix_refl _
  | succ depth ih =>
    -- one level down, wherever the loop goes on from a suffix
    have hdown (s' : TrustPlanState) (hs' : s'.current <:+ s.current) :
        match (if s'.wrapperChain.length ≥ maxDepth then .ok s' else unwrapExecWrappers host maxDepth depth s') with
        | .error plan => plan.argv <:+ s.current
        | .ok t => t.current <:+ s.current := by
      by_cases hfull : s'.wrapperChain.length ≥ maxDepth
      · rw [if_pos hfull]
        exact hs'
      · rw [if_neg hfull]
        have hrest := ih s'
        split at hrest
        · exact hrest.trans hs'
        · exact hrest.trans hs'
    have hplan := @dispatchPlan_suffix host s.current (maxDepth - s.wrapperChain.length)
    unfold unwrapExecWrappers
    dsimp only
    by_cases hblocked :
        (resolveDispatchWrapperTrustPlan host s.current (maxDepth - s.wrapperChain.length)).policyBlocked = true
    · rw [if_pos hblocked]
      exact hplan
    rw [if_neg hblocked]
    by_cases hwrappers :
        (resolveDispatchWrapperTrustPlan host s.current (maxDepth - s.wrapperChain.length)).wrappers ≠ []
    · rw [if_pos hwrappers]
      exact hdown {s with
        current := (resolveDispatchWrapperTrustPlan host s.current (maxDepth - s.wrapperChain.length)).argv
        policyArgv := _
        wrapperChain := _} hplan
    rw [if_neg hwrappers]
    cases hunwrap : unwrapKnownShellMultiplexerInvocation host s.current with
    | unwrapped wrapper argv => exact hdown ⟨argv, _, true, _⟩ (shellMultiplexer_suffix hunwrap)
    | _ => exact List.suffix_refl _

theorem execPlan_suffix (argv : List Text) : (resolveExecWrapperTrustPlan host argv).argv <:+ argv := by
  have hloop := @unwrapExecWrappers_suffix host maxDispatchWrapperDepth maxDispatchWrapperDepth
    {current := argv, policyArgv := argv}
  unfold resolveExecWrapperTrustPlan resolveExecWrapperTrustPlanWithin
  split at hloop
  · exact hloop
  · split
    · split
      · exact hloop
      · exact hloop
    · exact hloop

end

end OpenClaw.Exec
