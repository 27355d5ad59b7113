import OpenClaw.Exec.DurableApproval
import OpenClaw.Exec.InlineEval
import OpenClaw.Exec.TrustPlan

/-! What is allowed for good when a command is.

The executable that a segment runs is kept, not the wrappers in front of it. Of a shell
neither its path is kept: what it hands its arguments to is, or its script, or else the
segments of its inline command are gone through the same way, three deep at most. Each
of these ways checks something else of the path it keeps. -/
namespace OpenClaw.Exec
open Foundation.EcmaString (trimChars)

structure AllowAlwaysPattern where
  pattern : Text
  argPattern : Option Text := none
  deriving Repr, DecidableEq

/-- What the decision is given besides the segments. -/
structure AllowAlwaysParams where
  cwd : Option Text := none
  platform : Option Text := none
  strictInlineEval : Bool := false

def addAllowAlwaysPattern (out : List AllowAlwaysPattern) (pattern : AllowAlwaysPattern) : List AllowAlwaysPattern :=
  if pattern ∈ out then out else out ++ [pattern]

section
variable (host : PathHost) (params : AllowAlwaysParams)

/-! ### One segment -/

/-- The segment without its wrappers. -/
def unwrapSegment (segment : ExecCommandSegment) : ExecCommandSegment :=
  let trustPlan := resolveExecWrapperTrustPlan host.toHost segment.argv
  if trustPlan.argv = segment.argv then segment
  else
    { raw := joinBlank trustPlan.argv
      argv := trustPlan.argv
      resolution := resolveCommandResolutionFromArgv host.toHost trustPlan.argv }

/-- An interpreter, unless it is strictly seen that no program is given inline. -/
def isRefusedInterpreter (segment : ExecCommandSegment) (candidatePath : Text) : Bool :=
  isInterpreterLikeAllowlistPattern host.toHost candidatePath &&
    let effectiveArgv := (segment.resolution.map (·.effectiveArgv)).getD segment.argv
    !params.strictInlineEval || (detectInterpreterInlineEvalArgv host.toHost effectiveArgv).isSome

def isPowerShellFileInvocation (argv : List Text) : Bool :=
  let has := fun flags => argv.any fun t => host.toLowerCase (trimChars t) ∈ texts flags
  isPowerShellArgv host argv && has ["-file", "-f"] && !has ["-command", "-c", "--command"]

/-- The inline command of a shell, the argv of which has no wrappers. -/
def inlineCommandOf (trustPlan : ExecWrapperTrustPlan) (argv : List Text) : Option Text :=
  if isPowerShellFileInvocation host argv then none
  else (trustPlan.shellInlineCommand.or (extractShellWrapperInlineCommand host.toHost argv)).filter (· ≠ [])

inductive AllowAlwaysStep where
  | nothing
  | pattern (pattern : AllowAlwaysPattern)
  | inline (command : Text)
  deriving Repr, DecidableEq

/-- What is kept for a segment, or the inline command to go through instead. -/
def allowAlwaysStep (segment : ExecCommandSegment) : AllowAlwaysStep :=
  let trustPlan := resolveExecWrapperTrustPlan host.toHost segment.argv
  let unwrapped := unwrapSegment host segment
  if trustPlan.policyBlocked then .nothing
  else
    match (resolveExecutionTargetCandidatePath host params.cwd unwrapped.resolution).filter (· ≠ []) with
    | none => .nothing
    | some candidatePath =>
      if isRefusedInterpreter host params unwrapped candidatePath then .nothing
      else if !trustPlan.shellWrapperExecutable then
        .pattern ⟨candidatePath, buildArgPatternFromArgv host unwrapped.argv params.platform⟩
      else
        match (resolveShellWrapperPositionalArgvCandidatePath host params.cwd unwrapped).filter (· ≠ []) with
        | some positionalArgvPath => .pattern ⟨positionalArgvPath, none⟩
        | none =>
          match inlineCommandOf host trustPlan unwrapped.argv with
          | some inlineCommand => .inline inlineCommand
          | none =>
            match (resolveShellWrapperScriptCandidatePath host params.cwd unwrapped).filter (· ≠ []) with
            | some scriptPath =>
              .pattern ⟨scriptPath,
                buildScriptArgPatternFromArgv host segment.argv scriptPath params.cwd params.platform⟩
            | none => .nothing

/-! ### All segments -/

/-- `analyzeShellCommand`, which looks at the platform alone. -/
def analyzeNested (inlineCommand : Text) : Except Text ExecCommandAnalysis :=
  analyzeCommand host {allowlist := [], safeBins := [], platform := params.platform} inlineCommand

/-- The recursion, for so many more levels. -/
def collectAllowAlwaysPatterns : Nat → List AllowAlwaysPattern → ExecCommandSegment → List AllowAlwaysPattern
  | 0, out, _ => out
  | depth + 1, out, segment =>
    match allowAlwaysStep host params segment with
    | .nothing => out
    | .pattern pattern => addAllowAlwaysPattern out pattern
    | .inline inlineCommand =>
      match analyzeNested host params inlineCommand with
      | .error _ => out
      | .ok nested => nested.segments.foldl (collectAllowAlwaysPatterns depth) out

def maxAllowAlwaysDepth : Nat := 3

def resolveAllowAlwaysPatternEntries (segments : List ExecCommandSegment) : List AllowAlwaysPattern :=
  segments.foldl (collectAllowAlwaysPatterns host params maxAllowAlwaysDepth) []

end


/-! ### Whom a segment is kept for -/

section
variable (host : PathHost) (params : AllowAlwaysParams)

def isWrapperName (token : Text) : Bool :=
  isShellWrapperExecutable host.toHost token || isDispatchWrapperExecutable host.toHost token

/-- What runs commands: a wrapper, or an interpreter unless inline programs are looked for. -/
def IsRunner (path : Text) : Prop :=
  isWrapperName host path = true ∨
    params.strictInlineEval = false ∧ isInterpreterLikeAllowlistPattern host.toHost path = true

/-- A segment that is not passed over, the executable of which is at `candidatePath`. -/
structure Considered (segment : ExecCommandSegment) (candidatePath : Text) : Prop where
  unblocked : (resolveExecWrapperTrustPlan host.toHost segment.argv).policyBlocked = false
  found : (resolveExecutionTargetCandidatePath host params.cwd (unwrapSegment host segment).resolution).filter (· ≠ []) =
    some candidatePath
  admitted : isRefusedInterpreter host params (unwrapSegment host segment) candidatePath = false

/-- A segment that runs an executable which is no shell. -/
structure RunsDirectly (segment : ExecCommandSegment) (path : Text) : Prop where
  considered : Considered host params segment path
  direct : (resolveExecWrapperTrustPlan host.toHost segment.argv).shellWrapperExecutable = false

/-- A segment that runs a shell. -/
structure RunsShell (segment : ExecCommandSegment) : Prop where
  considered : ∃ candidatePath, Considered host params segment candidatePath
  shell : (resolveExecWrapperTrustPlan host.toHost segment.argv).shellWrapperExecutable = true

/-- A shell that only hands its arguments on to an executable. -/
structure Carries (segment : ExecCommandSegment) (executable path : Text) : Prop where
  shell : RunsShell host params segment
  segmentShell : isShellWrapperSegment host (unwrapSegment host segment) = true
  carried : findCarriedExecutable host (unwrapSegment host segment).argv = some executable
  name : isWrapperName host (normalizeExecutableToken host.toHost executable) = false
  found : (resolveExecutionTargetCandidatePath host params.cwd
    (resolveCommandResolutionFromArgv host.toHost [executable])).filter (· ≠ []) = some path

/-- A shell that hands nothing on, with its inline command if it has one. -/
structure RunsItself (segment : ExecCommandSegment) (inlineCommand : Option Text) : Prop where
  shell : RunsShell host params segment
  carries : ∀ executable path, ¬ Carries host params segment executable path
  inline : inlineCommandOf host (resolveExecWrapperTrustPlan host.toHost segment.argv)
    (unwrapSegment host segment).argv = inlineCommand

/-- A shell that is given a script. -/
structure RunsScript (segment : ExecCommandSegment) (path : Text) : Prop where
  itself : RunsItself host params segment none
  found : (resolveShellWrapperScriptCandidatePath host params.cwd (unwrapSegment host segment)).filter (· ≠ []) =
    some path

/-- The segments gone through for one, when so many more levels are. -/
inductive GoesThrough : Nat → ExecCommandSegment → ExecCommandSegment → Prop
  | here {depth : Nat} (segment : ExecCommandSegment) : GoesThrough (depth + 1) segment segment
  | inline {depth : Nat} {outer inner segment : ExecCommandSegment} {inlineCommand : Text}
      {nested : ExecCommandAnalysis} (hruns : RunsItself host params outer (some inlineCommand))
      (hnested : analyzeNested host params inlineCommand = .ok nested) (hinner : inner ∈ nested.segments)
      (hreaches : GoesThrough depth inner segment) : GoesThrough (depth + 1) outer segment

/-- The ways in which a segment is kept for a runner: its executable is found under the name of a
wrapper that it is not written with, which also goes for an executable handed on by a shell; that one
may be an interpreter; and a script may have any name. -/
inductive KeptForRunner (segment : ExecCommandSegment) : Prop
  | renamed {path : Text} (hruns : RunsDirectly host params segment path) (hname : isWrapperName host path = true)
      (hwritten : (executableToken (resolveExecWrapperTrustPlan host.toHost segment.argv).argv).any
        (isWrapperName host) = false)
  | carriedRenamed {executable path : Text} (hcarries : Carries host params segment executable path)
      (hname : isWrapperName host path = true)
      (hwritten : isWrapperName host (normalizeExecutableToken host.toHost executable) = false)
  | carriedInterpreter {executable path : Text} (hcarries : Carries host params segment executable path)
      (hstrict : params.strictInlineEval = false)
      (hinterpreter : isInterpreterLikeAllowlistPattern host.toHost path = true)
  | script {path : Text} (hruns : RunsScript host params segment path) (hrunner : IsRunner host params path)

end

variable {segment : ExecCommandSegment} {path : Text} {pattern : AllowAlwaysPattern}

section
variable {host : PathHost} {params : AllowAlwaysParams}

/-! ### The plan of a segment -/

theorem shellWrapperExecutable_eq {host : Host} {argv : List Text}
    (h : (resolveExecWrapperTrustPlan host argv).policyBlocked = false) :
    (resolveExecWrapperTrustPlan host argv).shellWrapperExecutable =
      (executableToken (resolveExecWrapperTrustPlan host argv).argv).any (isShellWrapperExecutable host) := by
  unfold resolveExecWrapperTrustPlan resolveExecWrapperTrustPlanWithin at h ⊢
  cases hloop : unwrapExecWrappers host maxDispatchWrapperDepth maxDispatchWrapperDepth
      {current := argv, policyArgv := argv} with
  | error plan =>
    have hblocked := unwrapExecWrappers_error _ _ hloop
    rw [hloop, hblocked] at h
    cases h
  | ok t =>
    rw [hloop] at h
    dsimp only at h ⊢
    split at h
    · split at h
      · cases h
      · rename_i hdepth
        rw [if_neg hdepth]
        rfl
    · rfl

theorem notDispatch_of_unwrapped {host : Host} {argv : List Text} (h : Unwrapped host argv) :
    (executableToken argv).any (isDispatchWrapperExecutable host) = false := by
  obtain ⟨hdispatch, -⟩ := h
  unfold unwrapKnownDispatchWrapperInvocation at hdispatch
  split at hdispatch
  · rename_i hnone
    rw [hnone]
    rfl
  · rename_i token0 hsome
    rw [hsome]
    show (dispatchWrapperSpec? host _).isSome = false
    dsimp only at hdispatch
    split at hdispatch
    · rename_i hspec
      rw [hspec]
      rfl
    · split at hdispatch <;> cases hdispatch

/-- What a segment runs directly is not written as a wrapper. -/
theorem RunsDirectly.written (h : RunsDirectly host params segment path) :
    (executableToken (resolveExecWrapperTrustPlan host.toHost segment.argv).argv).any (isWrapperName host) = false := by
  have hshell := h.direct
  rw [shellWrapperExecutable_eq h.considered.unblocked] at hshell
  have hsound := trust_plan_sound host.toHost segment.argv maxDispatchWrapperDepth
  rcases hsound with hblocked | ⟨-, hunwrapped, -⟩
  · rw [show (resolveExecWrapperTrustPlanWithin host.toHost maxDispatchWrapperDepth segment.argv).policyBlocked = false
      from h.considered.unblocked] at hblocked
    cases hblocked
  · have hdispatch := notDispatch_of_unwrapped hunwrapped
    change (executableToken (resolveExecWrapperTrustPlan host.toHost segment.argv).argv).any _ = false at hdispatch
    cases htoken : executableToken (resolveExecWrapperTrustPlan host.toHost segment.argv).argv with
    | none => rfl
    | some token =>
      rw [htoken] at hshell hdispatch
      show (_ || _) = false
      rw [show isShellWrapperExecutable host.toHost token = false from hshell,
        show isDispatchWrapperExecutable host.toHost token = false from hdispatch]
      rfl

/-- Without strictness no interpreter is admitted. -/
theorem Considered.not_interpreter (h : Considered host params segment path)
    (hstrict : params.strictInlineEval = false) :
    isInterpreterLikeAllowlistPattern host.toHost path = false := by
  have hadmitted := h.admitted
  unfold isRefusedInterpreter at hadmitted
  rw [hstrict] at hadmitted
  simpa using hadmitted

/-! ### What is kept -/

theorem positionalPath_eq_some :
    (resolveShellWrapperPositionalArgvCandidatePath host params.cwd segment).filter (· ≠ []) = some path ↔
      isShellWrapperSegment host segment = true ∧ ∃ executable,
        findCarriedExecutable host segment.argv = some executable ∧
        isWrapperName host (normalizeExecutableToken host.toHost executable) = false ∧
        (resolveExecutionTargetCandidatePath host params.cwd
          (resolveCommandResolutionFromArgv host.toHost [executable])).filter (· ≠ []) = some path := by
  unfold resolveShellWrapperPositionalArgvCandidatePath
  cases hsegment : isShellWrapperSegment host segment with
  | false => simp
  | true =>
    cases hcarried : findCarriedExecutable host segment.argv with
    | none => simp
    | some executable =>
      have hname : isWrapperName host (normalizeExecutableToken host.toHost executable) =
          (isDispatchWrapperExecutable host.toHost (normalizeExecutableToken host.toHost executable) ||
            isShellWrapperExecutable host.toHost (normalizeExecutableToken host.toHost executable)) :=
        Bool.or_comm _ _
      dsimp only [Option.bind_some]
      rw [← hname]
      cases hwrapper : isWrapperName host (normalizeExecutableToken host.toHost executable) <;> simp [hwrapper]

/-- What a segment is kept for. -/
def KeptFor (host : PathHost) (params : AllowAlwaysParams) (segment : ExecCommandSegment) (path : Text) : Prop :=
  RunsDirectly host params segment path ∨ (∃ executable, Carries host params segment executable path) ∨
    RunsScript host params segment path

theorem RunsDirectly.step (h : RunsDirectly host params segment path) :
    allowAlwaysStep host params segment =
      .pattern ⟨path, buildArgPatternFromArgv host (unwrapSegment host segment).argv params.platform⟩ := by
  obtain ⟨⟨hunblocked, hfound, hadmitted⟩, hdirect⟩ := h
  unfold allowAlwaysStep
  simp only [hunblocked, hfound, hadmitted, hdirect, Bool.false_eq_true, if_false, Bool.not_false, if_true]

theorem Carries.step {executable : Text} (h : Carries host params segment executable path) :
    allowAlwaysStep host params segment = .pattern ⟨path, none⟩ := by
  obtain ⟨⟨⟨candidatePath, hunblocked, hfound, hadmitted⟩, hshell⟩, hsegment, hcarried, hname, hpath⟩ := h
  have hpositional := positionalPath_eq_some.mpr ⟨hsegment, executable, hcarried, hname, hpath⟩
  unfold allowAlwaysStep
  simp only [hunblocked, hfound, hadmitted, hshell, hpositional, Bool.false_eq_true, if_false, Bool.not_true]

theorem positionalPath_eq_none (hshell : RunsShell host params segment)
    (h : ∀ executable path, ¬ Carries host params segment executable path) :
    (resolveShellWrapperPositionalArgvCandidatePath host params.cwd (unwrapSegment host segment)).filter (· ≠ []) =
      none := by
  cases hpositional : (resolveShellWrapperPositionalArgvCandidatePath host params.cwd
      (unwrapSegment host segment)).filter (· ≠ []) with
  | none => rfl
  | some path =>
    obtain ⟨hsegment, executable, hcarried, hname, hpath⟩ := positionalPath_eq_some.mp hpositional
    exact absurd ⟨hshell, hsegment, hcarried, hname, hpath⟩ (h executable path)

theorem RunsItself.step {inlineCommand : Text} (h : RunsItself host params segment (some inlineCommand)) :
    allowAlwaysStep host params segment = .inline inlineCommand := by
  have hpositional := positionalPath_eq_none h.shell h.carries
  obtain ⟨⟨⟨candidatePath, hunblocked, hfound, hadmitted⟩, hshell⟩, -, hinline⟩ := h
  unfold allowAlwaysStep
  simp only [hunblocked, hfound, hadmitted, hshell, hpositional, hinline, Bool.false_eq_true, if_false, Bool.not_true]

theorem RunsScript.step (h : RunsScript host params segment path) :
    allowAlwaysStep host params segment =
      .pattern ⟨path, buildScriptArgPatternFromArgv host segment.argv path params.cwd params.platform⟩ := by
  have hpositional := positionalPath_eq_none h.itself.shell h.itself.carries
  obtain ⟨⟨⟨⟨candidatePath, hunblocked, hfound, hadmitted⟩, hshell⟩, -, hinline⟩, hscript⟩ := h
  unfold allowAlwaysStep
  simp only [hunblocked, hfound, hadmitted, hshell, hpositional, hinline, hscript, Bool.false_eq_true, if_false,
    Bool.not_true]

theorem KeptFor.step (h : KeptFor host params segment path) :
    ∃ argPattern, allowAlwaysStep host params segment = .pattern ⟨path, argPattern⟩ := by
  rcases h with hdirect | ⟨executable, hcarries⟩ | hscript
  · exact ⟨_, hdirect.step⟩
  · exact ⟨_, hcarries.step⟩
  · exact ⟨_, hscript.step⟩

/-- A segment is passed over, kept, or runs a shell whose inline command is gone through. -/
theorem allowAlwaysStep_cases (host : PathHost) (params : AllowAlwaysParams) (segment : ExecCommandSegment) :
    allowAlwaysStep host params segment = .nothing ∨
    (∃ path argPattern, KeptFor host params segment path ∧
      allowAlwaysStep host params segment = .pattern ⟨path, argPattern⟩) ∨
    ∃ inlineCommand, RunsItself host params segment (some inlineCommand) ∧
      allowAlwaysStep host params segment = .inline inlineCommand := by
  by_cases hconsidered : ∃ candidatePath, Considered host params segment candidatePath
  · cases hshell : (resolveExecWrapperTrustPlan host.toHost segment.argv).shellWrapperExecutable with
    | false =>
      obtain ⟨candidatePath, hpath⟩ := hconsidered
      exact .inr (.inl ⟨_, _, .inl ⟨hpath, hshell⟩, RunsDirectly.step ⟨hpath, hshell⟩⟩)
    | true =>
      have hruns : RunsShell host params segment := ⟨hconsidered, hshell⟩
      by_cases hcarries : ∃ executable path, Carries host params segment executable path
      · obtain ⟨executable, path, hcarries⟩ := hcarries
        exact .inr (.inl ⟨_, _, .inr (.inl ⟨executable, hcarries⟩), hcarries.step⟩)
      have hitself (inlineCommand : Option Text) (hinline : _ = inlineCommand) :
          RunsItself host params segment inlineCommand :=
        ⟨hruns, fun executable path h => hcarries ⟨executable, path, h⟩, hinline⟩
      cases hinline : inlineCommandOf host (resolveExecWrapperTrustPlan host.toHost segment.argv)
          (unwrapSegment host segment).argv with
      | some inlineCommand => exact .inr (.inr ⟨_, hitself _ hinline, (hitself _ hinline).step⟩)
      | none =>
        cases hscript : (resolveShellWrapperScriptCandidatePath host params.cwd
            (unwrapSegment host segment)).filter (· ≠ []) with
        | some path => exact .inr (.inl ⟨_, _, .inr (.inr ⟨hitself _ hinline, hscript⟩),
            RunsScript.step ⟨hitself _ hinline, hscript⟩⟩)
        | none =>
          have hpositional := positionalPath_eq_none hruns (hitself _ hinline).carries
          obtain ⟨⟨candidatePath, hunblocked, hfound, hadmitted⟩, -⟩ := hruns
          left
          unfold allowAlwaysStep
          simp only [hunblocked, hfound, hadmitted, hshell, hpositional, hinline, hscript, Bool.false_eq_true,
            if_false, Bool.not_true]
  · left
    unfold allowAlwaysStep
    dsimp only
    split
    · rfl
    · rename_i hunblocked
      split
      · rfl
      · rename_i candidatePath hfound
        split
        · rfl
        · rename_i hadmitted
          exact absurd ⟨candidatePath, by simpa using hunblocked, hfound, by simpa using hadmitted⟩ hconsidered

/-- One step keeps no runner if and only if the segment is not kept for one. -/
theorem keptFor_not_runner (host : PathHost) (params : AllowAlwaysParams) (segment : ExecCommandSegment) :
    (∀ path, KeptFor host params segment path → ¬ IsRunner host params path) ↔
      ¬ KeptForRunner host params segment := by
  constructor
  · rintro hsound (⟨hruns, hname, -⟩ | ⟨hcarries, hname, -⟩ | ⟨hcarries, hstrict, hinterpreter⟩ | ⟨hruns, hrunner⟩)
    · exact hsound _ (.inl hruns) (.inl hname)
    · exact hsound _ (.inr (.inl ⟨_, hcarries⟩)) (.inl hname)
    · exact hsound _ (.inr (.inl ⟨_, hcarries⟩)) (.inr ⟨hstrict, hinterpreter⟩)
    · exact hsound _ (.inr (.inr hruns)) hrunner
  · rintro hnot path (hruns | ⟨executable, hcarries⟩ | hruns) hrunner
    · rcases hrunner with hname | ⟨hstrict, hinterpreter⟩
      · exact hnot (.renamed hruns hname hruns.written)
      · rw [hruns.considered.not_interpreter hstrict] at hinterpreter
        cases hinterpreter
    · rcases hrunner with hname | ⟨hstrict, hinterpreter⟩
      · exact hnot (.carriedRenamed hcarries hname hcarries.name)
      · exact hnot (.carriedInterpreter hcarries hstrict hinterpreter)
    · exact hnot (.script hruns hrunner)

/-! ### The walk -/

theorem mem_addAllowAlwaysPattern {out : List AllowAlwaysPattern} {added : AllowAlwaysPattern} :
    pattern ∈ addAllowAlwaysPattern out added ↔ pattern ∈ out ∨ pattern = added := by
  unfold addAllowAlwaysPattern
  split
  · rename_i hmem
    constructor
    · exact .inl
    · rintro (h | rfl)
      · exact h
      · exact hmem
  · rw [List.mem_append, List.mem_singleton]

/-- What a fold adds is what it adds for one of the elements. -/
theorem mem_foldl_of_step {α β : Type} {f : List β → α → List β} {adds : α → β → Prop}
    (hstep : ∀ out a b, b ∈ f out a ↔ b ∈ out ∨ adds a b) (l : List α) (out : List β) (b : β) :
    b ∈ l.foldl f out ↔ b ∈ out ∨ ∃ a ∈ l, adds a b := by
  induction l generalizing out with
  | nil => simp
  | cons a rest ih =>
    rw [List.foldl_cons, ih, hstep, or_assoc]
    simp only [List.mem_cons, exists_eq_or_imp]

theorem runsItself_of_step {inlineCommand : Text} (h : allowAlwaysStep host params segment = .inline inlineCommand) :
    RunsItself host params segment (some inlineCommand) := by
  rcases allowAlwaysStep_cases host params segment with hstep | ⟨path, argPattern, -, hstep⟩ | ⟨_, hruns, hstep⟩
  · rw [hstep] at h
    cases h
  · rw [hstep] at h
    cases h
  · rw [hstep] at h
    cases h
    exact hruns

theorem keptFor_of_step (h : allowAlwaysStep host params segment = .pattern pattern) :
    KeptFor host params segment pattern.pattern := by
  rcases allowAlwaysStep_cases host params segment with hstep | ⟨path, argPattern, hkept, hstep⟩ | ⟨_, -, hstep⟩
  · rw [hstep] at h
    cases h
  · rw [hstep] at h
    cases h
    exact hkept
  · rw [hstep] at h
    cases h

/-- A segment gone through is the first one, or one of its inline command. -/
theorem goesThrough_succ {depth : Nat} {outer : ExecCommandSegment} :
    GoesThrough host params (depth + 1) outer segment ↔ segment = outer ∨
      ∃ inlineCommand nested inner, allowAlwaysStep host params outer = .inline inlineCommand ∧
        analyzeNested host params inlineCommand = .ok nested ∧ inner ∈ nested.segments ∧
        GoesThrough host params depth inner segment := by
  constructor
  · intro h
    cases h with
    | here => exact .inl rfl
    | inline hruns hnested hinner hreaches => exact .inr ⟨_, _, _, hruns.step, hnested, hinner, hreaches⟩
  · rintro (rfl | ⟨inlineCommand, nested, inner, hstep, hnested, hinner, hreaches⟩)
    · exact .here _
    · exact .inline (runsItself_of_step hstep) hnested hinner hreaches

/-- A segment gone through whose step keeps a pattern. -/
def Adds (host : PathHost) (params : AllowAlwaysParams) (depth : Nat) (outer : ExecCommandSegment)
    (pattern : AllowAlwaysPattern) : Prop :=
  ∃ segment, GoesThrough host params depth outer segment ∧ allowAlwaysStep host params segment = .pattern pattern

theorem adds_succ {depth : Nat} {outer : ExecCommandSegment} :
    Adds host params (depth + 1) outer pattern ↔ allowAlwaysStep host params outer = .pattern pattern ∨
      ∃ inlineCommand nested inner, allowAlwaysStep host params outer = .inline inlineCommand ∧
        analyzeNested host params inlineCommand = .ok nested ∧ inner ∈ nested.segments ∧
        Adds host params depth inner pattern := by
  constructor
  · rintro ⟨segment, hreaches, hpattern⟩
    rcases goesThrough_succ.mp hreaches with rfl | ⟨inlineCommand, nested, inner, hstep, hnested, hinner, hreaches⟩
    · exact .inl hpattern
    · exact .inr ⟨inlineCommand, nested, inner, hstep, hnested, hinner, segment, hreaches, hpattern⟩
  · rintro (hpattern | ⟨inlineCommand, nested, inner, hstep, hnested, hinner, segment, hreaches, hpattern⟩)
    · exact ⟨outer, .here outer, hpattern⟩
    · exact ⟨segment, goesThrough_succ.mpr (.inr ⟨inlineCommand, nested, inner, hstep, hnested, hinner, hreaches⟩),
        hpattern⟩

theorem mem_collectAllowAlwaysPatterns (depth : Nat) (out : List AllowAlwaysPattern) (outer : ExecCommandSegment)
    (pattern : AllowAlwaysPattern) :
    pattern ∈ collectAllowAlwaysPatterns host params depth out outer ↔
      pattern ∈ out ∨ Adds host params depth outer pattern := by
  induction depth generalizing out outer pattern with
  | zero =>
    show pattern ∈ out ↔ _
    constructor
    · exact .inl
    · rintro (h | ⟨segment, hreaches, -⟩)
      · exact h
      · cases hreaches
  | succ depth ih =>
    unfold collectAllowAlwaysPatterns
    rw [adds_succ]
    cases hstep : allowAlwaysStep host params outer with
    | nothing => simp
    | pattern added =>
      dsimp only
      rw [mem_addAllowAlwaysPattern]
      simp [eq_comm]
    | inline inlineCommand =>
      dsimp only
      cases hnested : analyzeNested host params inlineCommand with
      | error reason => simp [hnested]
      | ok nested =>
        dsimp only
        rw [mem_foldl_of_step ih]
        simp [hnested]

/-- What is kept is no runner if and only if no segment gone through is kept for one. -/
theorem allow_always_keeps_no_runner (host : PathHost) (params : AllowAlwaysParams)
    (segments : List ExecCommandSegment) :
    (∀ pattern ∈ resolveAllowAlwaysPatternEntries host params segments, ¬ IsRunner host params pattern.pattern) ↔
      ∀ outer ∈ segments, ∀ segment, GoesThrough host params maxAllowAlwaysDepth outer segment →
        ¬ KeptForRunner host params segment := by
  have hmem (pattern : AllowAlwaysPattern) : pattern ∈ resolveAllowAlwaysPatternEntries host params segments ↔
      ∃ outer ∈ segments, Adds host params maxAllowAlwaysDepth outer pattern := by
    unfold resolveAllowAlwaysPatternEntries
    rw [mem_foldl_of_step (mem_collectAllowAlwaysPatterns maxAllowAlwaysDepth)]
    simp only [List.not_mem_nil, false_or]
  constructor
  · intro hsound outer houter segment hreaches
    rw [← keptFor_not_runner]
    intro path hkept
    obtain ⟨argPattern, hstep⟩ := hkept.step
    exact hsound ⟨path, argPattern⟩ ((hmem _).mpr ⟨outer, houter, segment, hreaches, hstep⟩)
  · intro hnot pattern hpattern
    obtain ⟨outer, houter, segment, hreaches, hstep⟩ := (hmem pattern).mp hpattern
    exact (keptFor_not_runner host params segment).mpr (hnot outer houter segment hreaches) _ (keptFor_of_step hstep)

end

/-! ### Runners that are kept -/

/-- What is kept for a command. -/
def allowAlwaysPatternsOf (host : PathHost) (params : AllowAlwaysParams) (command : Text) : List AllowAlwaysPattern :=
  match analyzeNested host params command with
  | .error _ => []
  | .ok analysis => resolveAllowAlwaysPatternEntries host params analysis.segments

/-- A shell that is given to a shell as its script, and an interpreter that a shell hands its
arguments on to. -/
theorem allow_always_keeps_runner :
    (∃ pattern ∈ allowAlwaysPatternsOf usrBinPaths {} "bash /usr/bin/sh".toList,
      IsRunner usrBinPaths {} pattern.pattern) ∧
    ∃ pattern ∈ allowAlwaysPatternsOf usrBinPaths {} "sh -c '$0 \"$@\"' python3 x.py".toList,
      IsRunner usrBinPaths {} pattern.pattern :=
  ⟨⟨⟨"/usr/bin/sh".toList, none⟩, by decide, .inl (by decide)⟩,
    ⟨⟨"/usr/bin/python3".toList, none⟩, by decide, .inr ⟨rfl, by decide⟩⟩⟩

example : (allowAlwaysPatternsOf usrBinPaths {} "sh -c 'ls | wc && nice python3 x.py'".toList).map (·.pattern) =
    texts ["/usr/bin/ls", "/usr/bin/wc"] := by decide

end OpenClaw.Exec
