import OpenClaw.Exec.Analysis
import OpenClaw.Foundation.Regex
import OpenClaw.Foundation.Splits

/-! Argument patterns: what an approval on Windows says about the arguments.

The approved arguments are written into one anchored regular expression, each followed by
a NUL, and the arguments of a later command are written the same way and matched. No
argument has a NUL in it, so two lists give one text only where the text of no arguments,
two NULs, is also the text of two empty ones. -/
namespace OpenClaw.Exec
open Foundation List
open Foundation.EcmaString (isWhiteSpace trimChars lowerAscii)

/-! ### Paths and patterns of the host -/

/-- What the host knows of paths, and of the regular expressions that are not literal. -/
structure PathHost extends Host where
  /-- `process.cwd()`. -/
  cwd : Text
  /-- `path.resolve`, of a path against a directory. -/
  resolve : Text → Text → Text
  dirname : Text → Text
  expandHomePrefix : Text → Text
  /-- What a character is compared by where case does not matter. -/
  canonicalize : Char → Char
  /-- What tests a text against a pattern, if the pattern is one. -/
  regExp : Text → Option (Text → Bool)

def isWindowsSeparator (c : Char) : Bool := c = '/' || c = '\\'

/-- `path.isAbsolute` on the host. -/
def Host.isAbsolute (host : Host) (path : Text) : Bool :=
  if host.platform = .win32 then
    match path with
    | [] => false
    | c :: rest =>
      isWindowsSeparator c || (c.isAlpha && rest.head? = some ':' && rest.tail.head?.any isWindowsSeparator)
  else path.head? = some '/'

/-- Nothing but these letters, in either case, has them as its lower case. -/
def isWindowsPlatform (platform : Text) : Bool :=
  "win".toList.isPrefixOf ((trimChars platform).map lowerAscii)

/-- The platform a command is for: the host's own where none is named. -/
def Host.isWindows (host : Host) (platform : Option Text) : Bool :=
  match platform with
  | some platform => isWindowsPlatform platform
  | none => host.platform = .win32

def NUL : Char := '\x00'

def toBackslashes (value : Text) : Text := value.map fun c => if c = '/' then '\\' else c

/-! ### Writing the pattern -/

def escapeRegExpLiteral (input : Text) : Text :=
  input.flatMap fun c =>
    if c ∈ ['.', '*', '+', '?', '^', '$', '{', '}', '(', ')', '|', '[', ']', '\\'] then ['\\', c] else [c]

def argsAfter (p : Text → Bool) (argv : List Text) : Option (List Text) :=
  (argv.findIdx? p).map fun idx => argv.drop (idx + 1)

section
variable (host : PathHost)

def resolveArgPath (cwd : Option Text) (arg : Text) : Text :=
  let base := ((cwd.map trimChars).filter (· ≠ [])).getD host.cwd
  if host.isAbsolute arg then arg else host.resolve base arg

/-- The arguments behind the script, which is found by its path or else by its name. -/
def scriptArgs (argv : List Text) (scriptPath : Text) (cwd : Option Text) : List Text :=
  let scriptBase := host.toLowerCase (host.basename scriptPath)
  ((argsAfter (fun arg => resolveArgPath host cwd arg = scriptPath) argv).or
    (argsAfter (fun arg => host.toLowerCase (host.basename arg) = scriptBase) argv)).getD []

def buildScriptArgPatternFromArgv (argv : List Text) (scriptPath : Text) (cwd platform : Option Text) :
    Option Text :=
  if !host.isWindows platform then none
  else
    let normalized := (scriptArgs host argv scriptPath cwd).map toBackslashes
    if normalized = [] then some ['^', NUL, NUL, '$']
    else some ('^' :: (joinWith [NUL] (normalized.map escapeRegExpLiteral) ++ [NUL, '$']))

def buildArgPatternFromArgv (argv : List Text) (platform : Option Text) : Option Text :=
  if !host.isWindows platform then none
  else
    let normalized := argv.tail.map toBackslashes
    if normalized = [] then some ['^', NUL, NUL, '$']
    else some ('^' :: (escapeRegExpLiteral (joinWith [NUL] normalized) ++ [NUL, '$']))

/-! ### Matching it -/

/-- `\s+(?:[12]>&[12]|[12]>\/dev\/null)\s*$`. -/
def TRAILING_SHELL_REDIRECTIONS_RE : Regex :=
  let stream := Regex.char (· ∈ ['1', '2'])
  let device := Regex.sequence ("/dev/null".toList.map Regex.lit)
  .sequence [.plus (.char isWhiteSpace), stream, .lit '>', .alt (.seq (.lit '&') stream) device,
    .star (.char isWhiteSpace), .atEnd]

def stripTrailingRedirections (value : Text) : Text :=
  let next := TRAILING_SHELL_REDIRECTIONS_RE.removeFirst value
  if next = value then next else stripTrailingRedirections next
  termination_by value.length
  decreasing_by exact Regex.removeFirst_shorter _ ‹_›

/-- `new RegExp(pattern)`: its test, or nothing where the pattern is not one. -/
def PathHost.newRegExp (pattern : Text) : Option (Text → Bool) :=
  match Regex.parse pattern with
  | some regex => some regex.test
  | none => host.regExp pattern

/-- The arguments as one text, in the style the pattern is written in. -/
def argsString (sep : Char) (args : List Text) : Text :=
  if sep = NUL then
    if args = [] then [NUL, NUL] else joinWith [sep] args ++ [sep]
  else joinWith [sep] args

def matchArgPattern (argPattern : Text) (argv : List Text) (platform : Option Text) : Bool :=
  let sep := if NUL ∈ argPattern then NUL else ' '
  let args := argsString sep argv.tail
  match host.newRegExp argPattern with
  | none => false
  | some test =>
    test args ||
    (host.isWindows platform && toBackslashes args ≠ args && test (toBackslashes args)) ||
    (sep = ' ' && stripTrailingRedirections args ≠ args && test (stripTrailingRedirections args))

end

/-! ### The lists that one text stands for -/

/-- No arguments, and two empty ones. -/
def Confused (args args' : List Text) : Prop :=
  args = [] ∧ args' = [[], []] ∨ args = [[], []] ∧ args' = []

/-- The lists of arguments that an approval takes for the same. -/
def SameArgs (args args' : List Text) : Prop := args.map toBackslashes = args'.map toBackslashes

theorem joinWith_append (sep : Text) {args : List Text} (h : args ≠ []) :
    joinWith sep args ++ sep = args.flatMap (· ++ sep) := by
  induction args with
  | nil => exact absurd rfl h
  | cons arg rest ih =>
    cases rest with
    | nil => simp [joinWith_singleton]
    | cons next rest =>
      rw [joinWith_cons_cons, append_assoc, append_assoc, ih (by simp)]
      simp

theorem argsString_NUL {args : List Text} (h : args ≠ []) : argsString NUL args = args.flatMap (· ++ [NUL]) := by
  rw [argsString, if_pos rfl, if_neg h, joinWith_append _ h]

theorem argsString_NUL_nil : argsString NUL [] = [NUL, NUL] := rfl

/-- Lists of texts that a separator ends are read back from the one text. -/
theorem flatMap_terminated_inj {x : Char} {l r : List Text} (hl : ∀ t ∈ l, x ∉ t) (hr : ∀ t ∈ r, x ∉ t)
    (h : l.flatMap (· ++ [x]) = r.flatMap (· ++ [x])) : l = r := by
  induction l generalizing r with
  | nil =>
    cases r with
    | nil => rfl
    | cons t r => simp at h
  | cons t l ih =>
    cases r with
    | nil => simp at h
    | cons u r =>
      simp only [flatMap_cons, append_assoc, singleton_append] at h
      obtain ⟨rfl, hrest⟩ := append_cons_inj (hl t mem_cons_self) (hr u mem_cons_self) h
      rw [ih (fun s hs => hl s (mem_cons_of_mem _ hs)) (fun s hs => hr s (mem_cons_of_mem _ hs)) hrest]

theorem twoNULs_iff {args : List Text} (hargs : ∀ t ∈ args, NUL ∉ t) (h : args ≠ []) :
    argsString NUL args = [NUL, NUL] ↔ args = [[], []] := by
  constructor
  · intro he
    rw [argsString_NUL h] at he
    exact flatMap_terminated_inj hargs (by simp) (he.trans (by rfl))
  · rintro rfl
    rfl

/-- Two lists have one text if they are the same, or the two that are confused. -/
theorem argsString_inj {args args' : List Text} (hargs : ∀ t ∈ args, NUL ∉ t) (hargs' : ∀ t ∈ args', NUL ∉ t) :
    argsString NUL args = argsString NUL args' ↔ args = args' ∨ Confused args args' := by
  by_cases hnil : args = []
  · subst hnil
    by_cases hnil' : args' = []
    · simp [hnil']
    · rw [argsString_NUL_nil, eq_comm, twoNULs_iff hargs' hnil']
      simp [Confused, Ne.symm hnil']
  · by_cases hnil' : args' = []
    · subst hnil'
      rw [argsString_NUL_nil, twoNULs_iff hargs hnil]
      simp [Confused, hnil]
    · rw [argsString_NUL hnil, argsString_NUL hnil']
      simp only [Confused, hnil, hnil', false_and, and_false, or_false]
      exact ⟨flatMap_terminated_inj hargs hargs', congrArg _⟩

/-! ### What the written pattern matches -/

theorem escapeRegExpLiteral_eq (input : Text) : escapeRegExpLiteral input = Regex.escape input := by
  unfold escapeRegExpLiteral Regex.escape
  congr 1
  funext c
  apply if_congr ?_ rfl rfl
  simp only [Regex.syntaxCharacters, mem_cons, not_mem_nil, or_false]
  tauto

theorem toBackslashes_mem {value : Text} (h : NUL ∉ value) : NUL ∉ toBackslashes value := by
  intro hmem
  obtain ⟨c, hc, he⟩ := mem_map.mp hmem
  split at he
  · cases he
  · exact h (he ▸ hc)

theorem toBackslashes_twice (value : Text) : toBackslashes (toBackslashes value) = toBackslashes value := by
  unfold toBackslashes
  rw [map_map]
  apply map_congr_left
  intro c _
  by_cases h : c = '/' <;> simp [h]

theorem toBackslashes_argsString (args : List Text) :
    toBackslashes (argsString NUL args) = argsString NUL (args.map toBackslashes) := by
  by_cases h : args = []
  · subst h
    rfl
  · rw [argsString_NUL h, argsString_NUL (by simpa using h), flatMap_map, toBackslashes, map_flatMap]
    congr 1
    funext value
    rw [map_append]
    rfl

/-- The pattern of a list of arguments. -/
def anchoredPattern (args : List Text) : Text :=
  '^' :: (Regex.escape (argsString NUL (args.map toBackslashes)) ++ ['$'])

section
variable {host : PathHost} {platform : Option Text}

theorem escape_NUL : Regex.escape [NUL] = [NUL] := rfl

theorem escape_append (l r : Text) : Regex.escape (l ++ r) = Regex.escape l ++ Regex.escape r := by
  simp [Regex.escape]

theorem escape_joinWith (args : List Text) :
    joinWith [NUL] (args.map Regex.escape) = Regex.escape (joinWith [NUL] args) := by
  induction args with
  | nil => rfl
  | cons arg rest ih =>
    cases rest with
    | nil => simp [joinWith_singleton]
    | cons next rest =>
      rw [map_cons, map_cons, joinWith_cons_cons, joinWith_cons_cons, escape_append, escape_append,
        ← map_cons, ih, escape_NUL]

theorem buildArgPattern_eq (hplatform : host.isWindows platform = true) (argv : List Text) :
    buildArgPatternFromArgv host argv platform = some (anchoredPattern argv.tail) := by
  simp only [buildArgPatternFromArgv, hplatform, Bool.not_true, Bool.false_eq_true, if_false, anchoredPattern]
  generalize argv.tail.map toBackslashes = normalized
  by_cases h : normalized = []
  · subst h
    rfl
  · simp [argsString, h, escapeRegExpLiteral_eq, escape_append, escape_NUL]

theorem buildScriptArgPattern_eq (hplatform : host.isWindows platform = true) (argv : List Text)
    (scriptPath : Text) (cwd : Option Text) :
    buildScriptArgPatternFromArgv host argv scriptPath cwd platform =
      some (anchoredPattern (scriptArgs host argv scriptPath cwd)) := by
  have hescape : escapeRegExpLiteral = Regex.escape := funext escapeRegExpLiteral_eq
  simp only [buildScriptArgPatternFromArgv, hplatform, Bool.not_true, Bool.false_eq_true, if_false,
    anchoredPattern, hescape, escape_joinWith]
  generalize (scriptArgs host argv scriptPath cwd).map toBackslashes = normalized
  by_cases h : normalized = []
  · subst h
    rfl
  · simp [argsString, h, escape_append, escape_NUL]

theorem newRegExp_anchored (args : List Text) :
    host.newRegExp (anchoredPattern args) =
      some (fun subject => decide (subject = argsString NUL (args.map toBackslashes))) := by
  rw [PathHost.newRegExp, anchoredPattern, Regex.parse_anchored]
  dsimp only
  congr 1
  funext subject
  rw [Bool.eq_iff_iff, Regex.test_anchored, decide_eq_true_eq]

theorem NUL_mem_anchored (args : List Text) : NUL ∈ anchoredPattern args := by
  have hmem : NUL ∈ argsString NUL (args.map toBackslashes) := by
    rw [argsString, if_pos rfl]
    split <;> simp
  have hescaped : NUL ∈ Regex.escape (argsString NUL (args.map toBackslashes)) :=
    mem_flatMap.mpr ⟨NUL, hmem, by decide⟩
  simp [anchoredPattern, hescaped]

theorem scriptArgs_mem {argv : List Text} {scriptPath : Text} {cwd : Option Text} {t : Text}
    (h : t ∈ scriptArgs host argv scriptPath cwd) : t ∈ argv := by
  have hafter : ∀ (p : Text → Bool) (args : List Text), argsAfter p argv = some args → args ⊆ argv := by
    intro p args hargs
    obtain ⟨idx, -, rfl⟩ := Option.map_eq_some_iff.mp hargs
    exact drop_subset _ _
  obtain ⟨args, hargs, hmem⟩ : ∃ args, (argsAfter (fun arg => resolveArgPath host cwd arg = scriptPath) argv = some args ∨
      argsAfter (fun arg => host.toLowerCase (host.basename arg) = host.toLowerCase (host.basename scriptPath))
        argv = some args) ∧ t ∈ args := by
    simp only [scriptArgs] at h
    generalize argsAfter (fun arg => decide (resolveArgPath host cwd arg = scriptPath)) argv = byPath at h ⊢
    generalize argsAfter (fun arg => decide (host.toLowerCase (host.basename arg) =
      host.toLowerCase (host.basename scriptPath))) argv = byName at h ⊢
    cases byPath with
    | some args => exact ⟨args, .inl rfl, h⟩
    | none =>
      cases byName with
      | some args => exact ⟨args, .inr rfl, h⟩
      | none => cases h
  exact hargs.elim (hafter _ _ · hmem) (hafter _ _ · hmem)

/-- A written pattern matches the arguments that it is also the pattern of. -/
theorem matchArgPattern_anchored (hplatform : host.isWindows platform = true) (args argv' : List Text) :
    matchArgPattern host (anchoredPattern args) argv' platform = true ↔
      argsString NUL (args.map toBackslashes) = argsString NUL (argv'.tail.map toBackslashes) := by
  have hsep : ¬NUL = ' ' := by decide
  simp only [matchArgPattern, NUL_mem_anchored, if_true, newRegExp_anchored, hplatform, hsep, decide_false,
    Bool.false_and, Bool.or_false, Bool.true_and, Bool.or_eq_true, Bool.and_eq_true, decide_eq_true_eq]
  rw [← toBackslashes_argsString, ← toBackslashes_argsString]
  generalize argsString NUL args = written
  generalize argsString NUL argv'.tail = joined
  constructor
  · rintro (h | ⟨-, h⟩)
    · rw [h, toBackslashes_twice]
    · exact h.symm
  · intro h
    by_cases hsame : toBackslashes joined = joined
    · exact .inl (hsame.symm.trans h.symm)
    · exact .inr ⟨hsame, h.symm⟩

theorem matchArgPattern_exact (hplatform : host.isWindows platform = true) {args : List Text}
    (hargs : ∀ t ∈ args, NUL ∉ t) {argv' : List Text} (hargv' : ∀ t ∈ argv', NUL ∉ t) :
    (matchArgPattern host (anchoredPattern args) argv' platform = true ↔ SameArgs args argv'.tail) ↔
      ¬Confused args argv'.tail := by
  have hmapped : Confused (args.map toBackslashes) (argv'.tail.map toBackslashes) ↔ Confused args argv'.tail := by
    have hempty : ∀ l : List Text, l.map toBackslashes = [[], []] ↔ l = [[], []] := by
      intro l
      simp [map_eq_cons_iff, toBackslashes]
    simp only [Confused, map_eq_nil_iff, hempty]
  have hslashes : ∀ {l : List Text}, (∀ t ∈ l, NUL ∉ t) → ∀ t ∈ l.map toBackslashes, NUL ∉ t := by
    intro l hl t ht
    obtain ⟨u, hu, rfl⟩ := mem_map.mp ht
    exact toBackslashes_mem (hl u hu)
  rw [matchArgPattern_anchored hplatform,
    argsString_inj (hslashes hargs) (hslashes fun t ht => hargv' t (mem_of_mem_tail ht)), hmapped]
  unfold SameArgs
  constructor
  · intro h hconfused
    have hsame := h.mp (.inr hconfused)
    rcases hconfused with ⟨h1, h2⟩ | ⟨h1, h2⟩ <;> simp [h1, h2] at hsame
  · intro hnot
    simp [hnot]

end

/-- **A written pattern matches exactly the approved arguments, unless these and those of
the command are the two lists that share one text.** -/
theorem argPattern_exact (host : PathHost) (argv argv' : List Text) (hargv : ∀ t ∈ argv, NUL ∉ t)
    (hargv' : ∀ t ∈ argv', NUL ∉ t) :
    (∃ argPattern, buildArgPatternFromArgv host argv (some "win32".toList) = some argPattern ∧
      ((matchArgPattern host argPattern argv' (some "win32".toList) = true ↔ SameArgs argv.tail argv'.tail) ↔
        ¬Confused argv.tail argv'.tail)) ∧
    ∀ scriptPath cwd, ∃ argPattern,
      buildScriptArgPatternFromArgv host argv scriptPath cwd (some "win32".toList) = some argPattern ∧
      ((matchArgPattern host argPattern argv' (some "win32".toList) = true ↔
          SameArgs (scriptArgs host argv scriptPath cwd) argv'.tail) ↔
        ¬Confused (scriptArgs host argv scriptPath cwd) argv'.tail) := by
  have hplatform : host.isWindows (some "win32".toList) = true := by
    show isWindowsPlatform "win32".toList = true
    decide
  refine ⟨⟨_, buildArgPattern_eq hplatform argv, ?_⟩, fun scriptPath cwd =>
    ⟨_, buildScriptArgPattern_eq hplatform argv scriptPath cwd, ?_⟩⟩
  · exact matchArgPattern_exact hplatform (fun t ht => hargv t (mem_of_mem_tail ht)) hargv'
  · exact matchArgPattern_exact hplatform (fun t ht => hargv t (scriptArgs_mem ht)) hargv'

/-- A Windows host, on whose paths nothing below depends. -/
def windowsHost : PathHost where
  platform := .win32
  toLowerCase := List.map lowerAscii
  resolveExecutablePath := fun _ => none
  realpathSync := fun _ => none
  cwd := "C:\\work".toList
  resolve := fun base path => joinWith ['\\'] [base, path]
  dirname := fun path => (path.reverse.dropWhile fun c => !isWindowsSeparator c).tail.reverse
  expandHomePrefix := id
  canonicalize := Char.toUpper
  regExp := fun _ => none

theorem argPattern_exact_slashes :
    ∃ argPattern, buildArgPatternFromArgv windowsHost (texts ["node", "a/b.js"]) (some "win32".toList) = some argPattern ∧
      ((matchArgPattern windowsHost argPattern (texts ["node", "a\\b.js"]) (some "win32".toList) = true ↔
          SameArgs (texts ["a/b.js"]) (texts ["a\\b.js"])) ↔
        ¬Confused (texts ["a/b.js"]) (texts ["a\\b.js"])) :=
  (argPattern_exact windowsHost (texts ["node", "a/b.js"]) (texts ["node", "a\\b.js"]) (by decide) (by decide)).1

/-- No arguments are approved, and two empty ones are let through. -/
theorem two_empty_args_let_through :
    ¬∀ (argv argv' : List Text), (∀ t ∈ argv, NUL ∉ t) → (∀ t ∈ argv', NUL ∉ t) → ∀ argPattern,
      buildArgPatternFromArgv windowsHost argv (some "win32".toList) = some argPattern →
      (matchArgPattern windowsHost argPattern argv' (some "win32".toList) = true ↔ SameArgs argv.tail argv'.tail) := by
  intro h
  have hplatform : windowsHost.isWindows (some "win32".toList) = true := by decide
  have hmatch := (matchArgPattern_anchored hplatform [] (texts ["python", "", ""])).mpr rfl
  have hsame := (h (texts ["python"]) (texts ["python", "", ""]) (by decide) (by decide) _
    (buildArgPattern_eq hplatform _)).mp hmatch
  exact absurd hsame (by simp [SameArgs, texts])

end OpenClaw.Exec
