import OpenClaw.Exec.ShellWrappers

/-! What a trusted plan has looked through.

A plan that is not blocked names a command that no wrapper is left in front of. On the way it has
passed dispatch wrappers whose use changes nothing of the command, and multiplexers that run a
shell; every one of them is in its chain, and there are no more of them than the depth allows. -/
namespace OpenClaw.Exec
open List

open Foundation.EcmaString (trimChars)

/-! ### An environment left as it is -/

variable {tokens inner argv last : List Text} {wrapper : Text}

section
variable {host : Host}

/-- Nothing between `env` and its command but blanks and a separator: no assignment, no option. -/
def PlainEnv (argv inner : List Text) : Prop :=
  ∃ skipped, argv.drop 1 = skipped ++ inner ∧
    ∀ token ∈ skipped, trimChars token = [] ∨ trimChars token ∈ texts ["--", "-"]

/-- A value that an option waits for changes the environment. -/
theorem blank_of_expectsValue (h : envTokensUseModifiers host true tokens = false) :
    ∀ token ∈ tokens, trimChars token = [] := by
  induction tokens with
  | nil =>
    intro token htoken
    cases htoken
  | cons raw rest ih =>
    unfold envTokensUseModifiers at h
    dsimp only at h
    split at h
    · rename_i hblank
      intro token htoken
      rcases mem_cons.mp htoken with rfl | hrest
      · exact hblank
      · exact ih h token hrest
    · rw [if_pos rfl] at h
      cases h

theorem scan_expecting_blank (hblank : ∀ token ∈ tokens, trimChars token = []) :
    scanWrapperTokens host (texts ["--", "-"]) (stateless envOnToken) true () tokens = none := by
  induction tokens with
  | nil => rfl
  | cons raw rest ih =>
    unfold scanWrapperTokens
    dsimp only
    rw [if_pos (hblank raw mem_cons_self)]
    exact ih fun token htoken => hblank token (mem_cons_of_mem _ htoken)

theorem plainEnv_scan (hplain : envTokensUseModifiers host false tokens = false)
    (hscan : scanWrapperTokens host (texts ["--", "-"]) (stateless envOnToken) false () tokens = some inner) :
    ∃ skipped, tokens = skipped ++ inner ∧
      ∀ token ∈ skipped, trimChars token = [] ∨ trimChars token ∈ texts ["--", "-"] := by
  induction tokens with
  | nil =>
    unfold scanWrapperTokens at hscan
    rw [if_neg Bool.false_ne_true] at hscan
    cases hscan
    exact ⟨[], rfl, fun token h => by cases h⟩
  | cons raw rest ih =>
    unfold envTokensUseModifiers at hplain
    unfold scanWrapperTokens at hscan
    dsimp only at hplain hscan
    by_cases hblank : trimChars raw = []
    · rw [if_pos hblank] at hplain hscan
      obtain ⟨skipped, rfl, hskipped⟩ := ih hplain hscan
      refine ⟨raw :: skipped, rfl, ?_⟩
      intro token htoken
      rcases mem_cons.mp htoken with rfl | hrest
      · exact .inl hblank
      · exact hskipped token hrest
    rw [if_neg hblank, if_neg Bool.false_ne_true] at hplain hscan
    by_cases hseparator : trimChars raw ∈ texts ["--", "-"]
    · rw [if_pos hseparator] at hscan
      cases hscan
      refine ⟨[raw], rfl, ?_⟩
      intro token htoken
      rw [mem_singleton.mp htoken]
      exact .inr hseparator
    rw [if_neg hseparator] at hplain hscan
    by_cases hassignment : isEnvAssignment (trimChars raw) = true
    · rw [if_pos hassignment] at hplain
      cases hplain
    rw [if_neg hassignment] at hplain
    by_cases hoperand : isOperand (trimChars raw) = true
    · have hstop : stateless envOnToken () (trimChars raw) (host.toLowerCase (trimChars raw)) = ((), .stop) := by
        unfold stateless envOnToken
        rw [if_neg hassignment, if_pos hoperand]
      rw [hstop] at hscan
      cases hscan
      exact ⟨[], rfl, fun token h => by cases h⟩
    rw [if_neg hoperand] at hplain
    split at hplain
    · cases hplain
    split at hplain
    · -- An option that waits for its value: nothing but blanks follow, and the scan gives up.
      rename_i hflag hvalue
      rw [Bool.and_eq_true, decide_eq_true_eq, decide_eq_true_eq] at hvalue
      have hconsume : stateless envOnToken () (trimChars raw) (host.toLowerCase (trimChars raw)) =
          ((), .consumeNext) := by
        unfold stateless envOnToken takesValue
        rw [if_neg hassignment, if_neg hoperand, if_neg hflag, if_pos hvalue.1, if_neg (by simpa using hvalue.2)]
      rw [hconsume] at hscan
      dsimp only at hscan
      rw [scan_expecting_blank (blank_of_expectsValue hplain)] at hscan
      cases hscan
    · cases hplain

theorem plainEnv (hunwrap : unwrapEnvInvocation host argv = some inner)
    (hplain : envInvocationUsesModifiers host argv = false) : PlainEnv argv inner := by
  rw [unwrapEnvInvocation, scanWrapperInvocation, Option.filter_eq_some_iff, Option.bind_eq_some_iff] at hunwrap
  obtain ⟨⟨tail, hscan, htail⟩, _⟩ := hunwrap
  cases htail
  exact plainEnv_scan hplain hscan

/-! ### What is unwrapped is not empty -/

theorem scan_ne_nil {σ : Type} {separators : List Text} {onToken : σ → Text → Text → σ × WrapperScanDirective} {s : σ}
    {adjust : List Text → Option (List Text)}
    (h : scanWrapperInvocation host separators onToken s adjust argv = some inner) : inner ≠ [] := by
  rw [scanWrapperInvocation, Option.filter_eq_some_iff] at h
  simpa using h.2

theorem ite_ne_nil (b : Bool) {f : List Text → Option (List Text)} (h : ∀ argv, f argv ≠ some []) :
    ∀ argv, (if b then f argv else none) ≠ some [] := by
  intro argv
  cases b
  · exact nofun
  · exact h argv

theorem dispatchWrapperSpecs_ne_nil :
    ∀ spec ∈ dispatchWrapperSpecs host, ∀ unwrap ∈ spec.unwrap, ∀ argv, unwrap argv ≠ some [] := by
  have hscan {σ : Type} (separators : List Text) (onToken : σ → Text → Text → σ × WrapperScanDirective) (s : σ)
      (adjust : List Text → Option (List Text)) (argv : List Text) :
      scanWrapperInvocation host separators onToken s adjust argv ≠ some [] := fun h => scan_ne_nil h rfl
  have hscript (argv : List Text) : unwrapScriptInvocation host argv ≠ some [] := by
    unfold unwrapScriptInvocation
    split
    · exact nofun
    · exact hscan _ _ _ _ argv
  simp only [dispatchWrapperSpecs, forall_mem_cons, Option.mem_def, Option.some.injEq, forall_eq',
    reduceCtorEq, false_implies, implies_true, true_and, not_mem_nil, and_true]
  exact ⟨ite_ne_nil _ (hscan _ _ _ _), hscan _ _ _ _, hscan _ _ _ _, hscan _ _ _ _, hscan _ _ _ _, hscan _ _ _ _,
    hscript, hscan _ _ _ _, hscan _ _ _ _, hscan _ _ _ _, ite_ne_nil _ (hscan _ _ _ _)⟩

section
variable (h : unwrapKnownDispatchWrapperInvocation host argv = .unwrapped wrapper inner)
include h

theorem unwrapped_spec :
    ∃ spec unwrap, dispatchWrapperSpec? host wrapper = some spec ∧ spec.unwrap = some unwrap ∧
      unwrap argv = some inner := by
  unfold unwrapKnownDispatchWrapperInvocation at h
  split at h
  · cases h
  · dsimp only at h
    split at h
    · cases h
    · rename_i spec hspec
      split at h
      · cases h
      · rename_i found hfound
        cases h
        obtain ⟨unwrap, hunwrap, hargv⟩ := Option.bind_eq_some_iff.mp hfound
        exact ⟨spec, unwrap, hspec, hunwrap, hargv⟩

theorem unwrapped_ne_nil :
    inner ≠ [] := by
  obtain ⟨spec, unwrap, hspec, hunwrap, hargv⟩ := unwrapped_spec h
  rintro rfl
  exact dispatchWrapperSpecs_ne_nil spec (mem_of_find?_eq_some hspec) unwrap hunwrap argv hargv

theorem plainEnv_of_transparent (htransparent : isSemanticDispatchWrapperUsage host wrapper argv = false)
    (hname : wrapper = "env".toList) :
    PlainEnv argv inner := by
  obtain ⟨spec, unwrap, hspec, hunwrap, hargv⟩ := unwrapped_spec h
  have henv : dispatchWrapperSpec? host "env".toList =
      some ⟨"env".toList, some (unwrapEnvInvocation host), fun argv => !envInvocationUsesModifiers host argv⟩ := rfl
  subst hname
  unfold isSemanticDispatchWrapperUsage at htransparent
  rw [henv] at hspec htransparent
  cases hspec
  cases hunwrap
  exact plainEnv hargv (by simpa using htransparent)

end

/-! ### The way of a plan -/

variable (host) in
/-- The way from an argv to what it runs, with the wrappers passed. -/
inductive Passes : List Text → List Text → List Text → Prop
  | here (argv : List Text) : Passes argv [] argv
  | dispatch {argv inner chain last : List Text} {wrapper : Text} :
    unwrapKnownDispatchWrapperInvocation host argv = .unwrapped wrapper inner →
    isSemanticDispatchWrapperUsage host wrapper argv = false →
    (wrapper = "env".toList → PlainEnv argv inner) →
    Passes inner chain last → Passes argv (wrapper :: chain) last
  | multiplexer {argv inner chain last : List Text} {wrapper : Text} :
    unwrapKnownShellMultiplexerInvocation host argv = .unwrapped wrapper inner →
    Passes inner chain last → Passes argv (wrapper :: chain) last

theorem Passes.eq_of_nil (h : Passes host argv [] last) : last = argv := by
  cases h
  rfl

theorem Passes.suffix {chain : List Text} (h : Passes host argv chain last) : last <:+ argv := by
  induction h with
  | here argv => exact suffix_refl argv
  | dispatch hunwrap _ _ _ ih => exact ih.trans (dispatchWrapper_suffix hunwrap)
  | multiplexer hunwrap _ ih => exact ih.trans (shellMultiplexer_suffix hunwrap)

theorem Passes.trans {chain middle chain' : List Text} (h : Passes host argv chain middle)
    (h' : Passes host middle chain' last) : Passes host argv (chain ++ chain') last := by
  induction h with
  | here argv => exact h'
  | dispatch hunwrap htransparent hplain _ ih => exact .dispatch hunwrap htransparent hplain (ih h')
  | multiplexer hunwrap _ ih => exact .multiplexer hunwrap (ih h')

/-- What the dispatch loop ends with: transparent wrappers passed, one for each step, and no wrapper in
front while there are steps left. -/
theorem unwrapDispatchWrappers_passes (depth : Nat) {wrappers current wrappers' : List Text}
    (h : unwrapDispatchWrappers host depth argv wrappers = .ok (current, wrappers')) :
    ∃ chain, wrappers' = wrappers ++ chain ∧ Passes host argv chain current ∧ chain.length ≤ depth ∧
      (chain.length < depth → unwrapKnownDispatchWrapperInvocation host current = .notWrapper) := by
  induction depth generalizing argv wrappers with
  | zero =>
    cases h
    exact ⟨[], (append_nil _).symm, .here _, Nat.le_refl _, fun hlt => absurd hlt (Nat.lt_irrefl _)⟩
  | succ depth ih =>
    unfold unwrapDispatchWrappers at h
    cases hunwrap : unwrapKnownDispatchWrapperInvocation host argv with
    | blocked wrapper =>
      rw [hunwrap] at h
      cases h
    | notWrapper =>
      rw [hunwrap] at h
      cases h
      exact ⟨[], (append_nil _).symm, .here _, Nat.zero_le _, fun _ => hunwrap⟩
    | unwrapped wrapper inner =>
      rw [hunwrap] at h
      dsimp only at h
      rw [if_neg (unwrapped_ne_nil hunwrap)] at h
      by_cases hsemantic : isSemanticDispatchWrapperUsage host wrapper argv = true
      · rw [if_pos hsemantic] at h
        cases h
      · rw [if_neg hsemantic] at h
        have htransparent : isSemanticDispatchWrapperUsage host wrapper argv = false := by simpa using hsemantic
        obtain ⟨chain, hchain, hpasses, hlength, hclear⟩ := ih h
        refine ⟨wrapper :: chain, ?_, ?_, ?_, ?_⟩
        · rw [hchain, append_assoc]
          rfl
        · exact .dispatch hunwrap htransparent (plainEnv_of_transparent hunwrap htransparent) hpasses
        · exact Nat.succ_le_succ hlength
        · exact fun hlt => hclear (Nat.lt_of_succ_lt_succ hlt)

theorem unwrapDispatchWrappers_error (depth : Nat) {wrappers : List Text} {plan : DispatchWrapperTrustPlan}
    (h : unwrapDispatchWrappers host depth argv wrappers = .error plan) : plan.policyBlocked = true := by
  induction depth generalizing argv wrappers with
  | zero => cases h
  | succ depth ih =>
    unfold unwrapDispatchWrappers at h
    split at h
    · cases h
      rfl
    · cases h
    · split at h
      · cases h
      · split at h
        · cases h
          rfl
        · exact ih h

/-- A dispatch plan that is not blocked leaves no dispatch wrapper in front. -/
theorem dispatchPlan_passes {maxDepth : Nat}
    (h : (resolveDispatchWrapperTrustPlan host argv maxDepth).policyBlocked = false) :
    Passes host argv (resolveDispatchWrapperTrustPlan host argv maxDepth).wrappers
      (resolveDispatchWrapperTrustPlan host argv maxDepth).argv ∧
    (resolveDispatchWrapperTrustPlan host argv maxDepth).wrappers.length ≤ maxDepth ∧
    unwrapKnownDispatchWrapperInvocation host (resolveDispatchWrapperTrustPlan host argv maxDepth).argv =
      .notWrapper := by
  unfold resolveDispatchWrapperTrustPlan at h ⊢
  cases hloop : unwrapDispatchWrappers host maxDepth argv [] with
  | error plan =>
    rw [hloop] at h
    have hblocked := unwrapDispatchWrappers_error maxDepth hloop
    rw [show plan.policyBlocked = false from h] at hblocked
    cases hblocked
  | ok result =>
    obtain ⟨current, wrappers⟩ := result
    obtain ⟨chain, hchain, hpasses, hlength, hclear⟩ := unwrapDispatchWrappers_passes maxDepth hloop
    rw [nil_append] at hchain
    subst hchain
    rw [hloop] at h
    dsimp only at h ⊢
    by_cases hfull : wrappers.length ≥ maxDepth
    · simp only [if_pos hfull] at h
      cases hunwrap : unwrapKnownDispatchWrapperInvocation host current with
      | notWrapper => exact ⟨hpasses, hlength, hunwrap⟩
      | _ =>
        rw [hunwrap] at h
        cases h
    · have hunwrap := hclear (Nat.lt_of_not_le hfull)
      rw [hunwrap]
      exact ⟨hpasses, hlength, hunwrap⟩

/-- No wrapper is in front. -/
def Unwrapped (host : Host) (argv : List Text) : Prop :=
  unwrapKnownDispatchWrapperInvocation host argv = .notWrapper ∧
    unwrapKnownShellMultiplexerInvocation host argv = .notWrapper

theorem unwrapped_of_overflowing (h : overflowingWrapper host argv = none) :
    Unwrapped host argv := by
  unfold overflowingWrapper at h
  cases hdispatch : unwrapKnownDispatchWrapperInvocation host argv with
  | notWrapper =>
    cases hmultiplexer : unwrapKnownShellMultiplexerInvocation host argv with
    | notWrapper => exact ⟨hdispatch, hmultiplexer⟩
    | _ => simp [hdispatch, hmultiplexer] at h
  | _ => simp [hdispatch] at h

/-- What the outer loop ends with. Every step adds to the chain, so a loop that runs out of depth has a
full chain; one that stops before has no wrapper in front. -/
structure LoopEnd (host : Host) (maxDepth : Nat) (s t : TrustPlanState) : Prop where
  passes : ∃ chain, t.wrapperChain = s.wrapperChain ++ chain ∧ Passes host s.current chain t.current
  bounded : t.wrapperChain.length ≤ maxDepth
  clear : t.wrapperChain.length < maxDepth → Unwrapped host t.current

theorem unwrapExecWrappers_end (maxDepth depth : Nat) {s t : TrustPlanState}
    (hdepth : maxDepth ≤ depth + s.wrapperChain.length) (hs : s.wrapperChain.length < maxDepth)
    (h : unwrapExecWrappers host maxDepth depth s = .ok t) : LoopEnd host maxDepth s t := by
  induction depth generalizing s with
  | zero => exact absurd hdepth (by omega)
  | succ depth ih =>
    -- The loop ends after this step, or goes on with a longer chain.
    have hdown (s' : TrustPlanState) (chain : List Text) (hchain : s'.wrapperChain = s.wrapperChain ++ chain)
        (hne : chain ≠ []) (hpasses : Passes host s.current chain s'.current)
        (hbounded : s'.wrapperChain.length ≤ maxDepth)
        (hnext : (if s'.wrapperChain.length ≥ maxDepth then .ok s' else unwrapExecWrappers host maxDepth depth s') =
          .ok t) : LoopEnd host maxDepth s t := by
      by_cases hfull : s'.wrapperChain.length ≥ maxDepth
      · rw [if_pos hfull] at hnext
        cases hnext
        exact ⟨⟨chain, hchain, hpasses⟩, hbounded, fun hlt => absurd hlt (by omega)⟩
      · rw [if_neg hfull] at hnext
        have hlonger : s.wrapperChain.length < s'.wrapperChain.length := by
          rw [hchain, length_append]
          have := length_pos_iff.mpr hne
          omega
        obtain ⟨⟨chain', hchain', hpasses'⟩, hb, hc⟩ := ih (by omega) (by omega) hnext
        refine ⟨⟨chain ++ chain', ?_, hpasses.trans hpasses'⟩, hb, hc⟩
        rw [hchain', hchain, append_assoc]
    unfold unwrapExecWrappers at h
    dsimp only at h
    by_cases hblocked :
        (resolveDispatchWrapperTrustPlan host s.current (maxDepth - s.wrapperChain.length)).policyBlocked = true
    · rw [if_pos hblocked] at h
      cases h
    rw [if_neg hblocked] at h
    obtain ⟨hpasses, hlength, hdispatch⟩ := dispatchPlan_passes (by simpa using hblocked)
    by_cases hwrappers :
        (resolveDispatchWrapperTrustPlan host s.current (maxDepth - s.wrapperChain.length)).wrappers ≠ []
    · rw [if_pos hwrappers] at h
      refine hdown {s with
        current := (resolveDispatchWrapperTrustPlan host s.current (maxDepth - s.wrapperChain.length)).argv
        policyArgv := _
        wrapperChain := _} _ rfl hwrappers hpasses ?_ h
      show (s.wrapperChain ++ _).length ≤ maxDepth
      rw [length_append]
      omega
    rw [if_neg hwrappers] at h
    -- No dispatch wrapper: the plan's argv is the one it was asked for.
    have hsame : (resolveDispatchWrapperTrustPlan host s.current (maxDepth - s.wrapperChain.length)).argv =
        s.current := by
      rw [Classical.not_not.mp hwrappers] at hpasses
      exact hpasses.eq_of_nil
    rw [hsame] at hdispatch
    cases hunwrap : unwrapKnownShellMultiplexerInvocation host s.current with
    | notWrapper =>
      rw [hunwrap] at h
      cases h
      exact ⟨⟨[], (append_nil _).symm, .here _⟩, Nat.le_of_lt hs, fun _ => ⟨hdispatch, hunwrap⟩⟩
    | blocked wrapper =>
      rw [hunwrap] at h
      cases h
    | unwrapped wrapper inner =>
      rw [hunwrap] at h
      dsimp only at h
      refine hdown ⟨inner, _, true, s.wrapperChain ++ [wrapper]⟩ [wrapper] rfl (cons_ne_nil _ _)
        (.multiplexer hunwrap (.here _)) ?_ h
      rw [length_append]
      exact hs

theorem unwrapExecWrappers_error (maxDepth depth : Nat) {s : TrustPlanState} {plan : ExecWrapperTrustPlan}
    (h : unwrapExecWrappers host maxDepth depth s = .error plan) : plan.policyBlocked = true := by
  induction depth generalizing s with
  | zero => cases h
  | succ depth ih =>
    unfold unwrapExecWrappers at h
    dsimp only at h
    split at h
    · cases h
      rfl
    split at h
    · split at h
      · cases h
      · exact ih h
    split at h
    · cases h
      rfl
    · cases h
    · split at h
      · cases h
      · exact ih h

/-- A plan is blocked, or it has unwrapped all there is: what it runs is a suffix of the argv with no
wrapper in front, behind transparent dispatch wrappers and multiplexers, at most `maxDepth` of them. -/
theorem trust_plan_sound (host : Host) (argv : List Text) (maxDepth : Nat) :
    (resolveExecWrapperTrustPlanWithin host maxDepth argv).policyBlocked = true ∨
    ((resolveExecWrapperTrustPlanWithin host maxDepth argv).argv <:+ argv ∧
      Unwrapped host (resolveExecWrapperTrustPlanWithin host maxDepth argv).argv ∧
      (resolveExecWrapperTrustPlanWithin host maxDepth argv).wrapperChain.length ≤ maxDepth ∧
      Passes host argv (resolveExecWrapperTrustPlanWithin host maxDepth argv).wrapperChain
        (resolveExecWrapperTrustPlanWithin host maxDepth argv).argv) := by
  unfold resolveExecWrapperTrustPlanWithin
  cases hloop : unwrapExecWrappers host maxDepth maxDepth {current := argv, policyArgv := argv} with
  | error plan => exact .inl (unwrapExecWrappers_error maxDepth maxDepth hloop)
  | ok t =>
    have hend : LoopEnd host maxDepth {current := argv, policyArgv := argv} t := by
      cases maxDepth with
      | zero =>
        cases hloop
        exact ⟨⟨[], rfl, .here _⟩, Nat.le_refl _, fun hlt => absurd hlt (Nat.lt_irrefl _)⟩
      | succ n => exact unwrapExecWrappers_end _ _ (Nat.le_refl _) (Nat.succ_pos n) hloop
    obtain ⟨⟨chain, hchain, hpasses⟩, hbounded, hclear⟩ := hend
    rw [nil_append] at hchain
    subst hchain
    dsimp only
    cases hoverflow : overflowingWrapper host t.current with
    | none => exact .inr ⟨hpasses.suffix, unwrapped_of_overflowing hoverflow, hbounded, hpasses⟩
    | some wrapper =>
      dsimp only
      by_cases hfull : t.wrapperChain.length ≥ maxDepth
      · rw [if_pos hfull]
        exact .inl rfl
      · rw [if_neg hfull]
        exact .inr ⟨hpasses.suffix, hclear (Nat.lt_of_not_le hfull), hbounded, hpasses⟩

end

end OpenClaw.Exec
