import OpenClaw.Exec.ShellArgv

/-! Rendering an argv, and reading it back.

An enforced command is written by `shellEscapeSingleArg` or `windowsEscapeArg` and read
by the splitters of `ShellArgv`. The POSIX splitter drops a token that is empty even
where it was quoted, and the Windows tokenizer reads a doubled quote as two quotes, not
as the one it stands for. `argv_round_trip` says that nothing else is lost. -/
namespace OpenClaw.Exec
open List

open Foundation (Scan)
open Foundation.Scan (Consumes)
open Foundation.EcmaString (isWhiteSpace isWhiteSpace_toNat)

/-! ### The renderers -/

/-- `value.replace(/x/g, by)` for a single character `x`. -/
def replaceChar (x : Char) (by' : Text) (value : Text) : Text :=
  value.flatMap fun c => if c = x then by' else [c]

/-- Leave the single quotes, write one between double quotes, and open them again. -/
def singleQuoteEscape : Text := ['\'', '"', '\'', '"', '\'']

def shellEscapeSingleArg (value : Text) : Text :=
  '\'' :: replaceChar '\'' singleQuoteEscape value ++ ['\'']

/-- `WINDOWS_UNSAFE_CMD_META`: a percent sign or a backtick, or a dollar sign that
PowerShell expands. -/
def hasUnsafeCmdMeta : Text → Bool
  | [] => false
  | c :: rest =>
    c = '%' || c = '\u0060' ||
      (c = '$' && rest.head?.any fun next => next.isAlpha || next ∈ ['_', '{', '(', '?', '$']) ||
      hasUnsafeCmdMeta rest

def isWindowsSafeChar (c : Char) : Bool :=
  c.isAlphanum || c ∈ ['_', '.', '/', ':', '~', '\\', '=', '-']

def windowsEscapeArg (value : Text) : Option Text :=
  if value = [] then some ['"', '"']
  else if hasUnsafeCmdMeta value then none
  else if value.all isWindowsSafeChar then some value
  else some ('"' :: replaceChar '"' ['"', '"'] value ++ ['"'])

/-- `parts.join(separator)`. -/
def joinWith (separator : Text) (parts : List Text) : Text := separator.intercalate parts

def renderPosixQuotedArgv (argv : List Text) : Text := joinWith [' '] (argv.map shellEscapeSingleArg)

def windowsEscapeToken (token : Text) : Except Text Text :=
  match windowsEscapeArg token with
  | none => .error ("unsafe windows token: ".toList ++ token)
  | some escaped => .ok escaped

def renderWindowsQuotedArgv (argv : List Text) : Except Text Text :=
  (argv.mapM windowsEscapeToken).map (joinWith [' '])

/-- `renderQuotedArgv`. -/
def renderQuotedArgv (argv : List Text) (windows : Bool) : Option Text :=
  if windows then (renderWindowsQuotedArgv argv).toOption else some (renderPosixQuotedArgv argv)

theorem joinWith_nil (separator : Text) : joinWith separator [] = [] := rfl

theorem joinWith_singleton (separator part : Text) : joinWith separator [part] = part := by
  simp [joinWith, List.intercalate]

theorem joinWith_cons_cons (separator part next : Text) (rest : List Text) :
    joinWith separator (part :: next :: rest) =
      part ++ (separator ++ joinWith separator (next :: rest)) := by
  simp [joinWith, List.intercalate]

/-! ### POSIX -/

variable (T : List Text)

theorem posix_quoted (b t : Text) :
    Consumes argsStep ⟨T, b, true, false, false⟩ (replaceChar '\'' singleQuoteEscape t)
      ⟨T, b ++ t, true, false, false⟩ := by
  induction t generalizing b with
  | nil => rw [append_nil]; exact Consumes.nil _
  | cons c rest ih =>
    have hrest := ih (b ++ [c])
    rw [append_assoc, singleton_append] at hrest
    unfold replaceChar at hrest ⊢
    rw [flatMap_cons]
    by_cases hc : c = '\''
    · subst hc
      -- out of the single quotes, through the double ones, and in again
      have hescape : Consumes argsStep ⟨T, b, true, false, false⟩ singleQuoteEscape
          ⟨T, b ++ ['\''], true, false, false⟩ := by
        have hclose : Consumes argsStep ⟨T, b, true, false, false⟩ ['\'', '"'] ⟨T, b, false, true, false⟩ :=
          Consumes.cons (fun _ _ => rfl) (Consumes.one fun _ _ => rfl)
        have hquote : Consumes argsStep ⟨T, b, false, true, false⟩ ['\'']
            ⟨T, b ++ ['\''], false, true, false⟩ :=
          Consumes.one fun _ _ => by simp [argsStep, ArgsState.add]
        have hopen : Consumes argsStep ⟨T, b ++ ['\''], false, true, false⟩ ['"', '\'']
            ⟨T, b ++ ['\''], true, false, false⟩ :=
          Consumes.cons (fun _ _ => rfl) (Consumes.one fun _ _ => rfl)
        exact hclose.append (hquote.append hopen)
      exact hescape.append hrest
    · rw [if_neg hc]
      refine (Consumes.one fun _ _ => ?_).append hrest
      simp [argsStep, ArgsState.add, hc]

theorem posix_token (b t : Text) :
    Consumes argsStep ⟨T, b, false, false, false⟩ (shellEscapeSingleArg t)
      ⟨T, b ++ t, false, false, false⟩ := by
  refine (Consumes.cons (fun _ _ => rfl) (posix_quoted T b t)).append (Consumes.one fun _ _ => ?_)
  simp [argsStep]

theorem posix_separator (b : Text) :
    Consumes argsStep ⟨T, b, false, false, false⟩ [' ']
      ⟨T ++ [b].filter (· ≠ []), [], false, false, false⟩ := by
  refine Consumes.one fun _ _ => ?_
  have hw : isWhiteSpace ' ' = true := by decide
  cases b <;> simp [argsStep, ArgsState.pushToken, hw]

/-- The tokens read, of which the last is still in the buffer. -/
theorem posix_argv (t : Text) (argv : List Text) :
    ∃ T' b, Consumes argsStep ⟨T, [], false, false, false⟩ (renderPosixQuotedArgv (t :: argv))
        ⟨T', b, false, false, false⟩ ∧
      T' ++ [b].filter (· ≠ []) = T ++ (t :: argv).filter (· ≠ []) := by
  induction argv generalizing T t with
  | nil =>
    refine ⟨T, t, ?_, rfl⟩
    rw [renderPosixQuotedArgv, map_singleton, joinWith_singleton]
    exact posix_token T [] t
  | cons next rest ih =>
    obtain ⟨T', b, hreads, htokens⟩ := ih (T ++ [t].filter (· ≠ [])) next
    refine ⟨T', b, ?_, ?_⟩
    · simp only [renderPosixQuotedArgv, map_cons, joinWith_cons_cons] at hreads ⊢
      exact (posix_token T [] t).append ((posix_separator T t).append hreads)
    · rw [htokens, append_assoc, ← filter_append, singleton_append]

theorem splitShellArgs_rendered (argv : List Text) :
    splitShellArgs (renderPosixQuotedArgv argv) = some (argv.filter (· ≠ [])) := by
  cases argv with
  | nil => rfl
  | cons t rest =>
    obtain ⟨T, b, hreads, htokens⟩ := posix_argv [] t rest
    rw [nil_append] at htokens
    rw [splitShellArgs, hreads.scan_eq, ← htokens]
    cases b <;> simp [ArgsState.pushToken]

/-! ### Windows -/

/-- What the tokenizer makes of a rendered token: the token without its double quotes. -/
def dropDoubleQuotes (t : Text) : Text := t.filter (· ≠ '"')

theorem dropDoubleQuotes_eq_self (t : Text) : dropDoubleQuotes t = t ↔ '"' ∉ t := by
  rw [dropDoubleQuotes, filter_eq_self]
  constructor
  · intro h hmem
    simpa using h _ hmem
  · intro h c hc
    simpa using fun heq : c = '"' => h (heq ▸ hc)

/-- Text between double quotes, where each double quote was doubled. -/
theorem windows_quoted (b t : Text) :
    Consumes windowsStep ⟨T, b, true, false, true⟩ (replaceChar '"' ['"', '"'] t)
      ⟨T, b ++ dropDoubleQuotes t, true, false, true⟩ := by
  induction t generalizing b with
  | nil => rw [dropDoubleQuotes, filter_nil, append_nil]; exact Consumes.nil _
  | cons c rest ih =>
    unfold replaceChar dropDoubleQuotes at ih ⊢
    rw [flatMap_cons]
    by_cases hc : c = '"'
    · rw [if_pos hc, filter_cons_of_neg (by simpa using hc)]
      -- the quotes close and open again, and leave nothing behind
      have hquotes : Consumes windowsStep ⟨T, b, true, false, true⟩ ['"', '"'] ⟨T, b, true, false, true⟩ :=
        Consumes.cons (fun _ _ => rfl) (Consumes.one fun _ _ => rfl)
      exact hquotes.append (ih b)
    · have hrest := ih (b ++ [c])
      rw [append_assoc, singleton_append] at hrest
      rw [if_neg hc, filter_cons_of_pos (by simpa using hc)]
      refine (Consumes.one fun _ _ => ?_).append hrest
      simp [windowsStep, WindowsState.add, hc]

theorem isWindowsSafeChar_toNat {c : Char} (h : isWindowsSafeChar c = true) :
    0x2D ≤ c.toNat ∧ c.toNat ≤ 0x7E := by
  rw [isWindowsSafeChar, Bool.or_eq_true, decide_eq_true_eq] at h
  rcases h with h | h
  · unfold Char.isAlphanum Char.isAlpha Char.isUpper Char.isLower Char.isDigit at h
    simp only [Bool.or_eq_true, Bool.and_eq_true, decide_eq_true_eq, ge_iff_le, UInt32.le_iff_toNat_le, Char.toNat_val] at h
    simp at h
    omega
  · simp only [mem_cons, not_mem_nil, or_false] at h
    rcases h with rfl | rfl | rfl | rfl | rfl | rfl | rfl | rfl <;> decide

theorem isWindowsSafeChar_plain {c : Char} (h : isWindowsSafeChar c = true) :
    c ≠ '"' ∧ c ≠ '\'' ∧ isWhiteSpace c = false := by
  have hbounds := isWindowsSafeChar_toNat h
  refine ⟨?_, ?_, ?_⟩
  · rintro rfl
    exact absurd hbounds.1 (by decide)
  · rintro rfl
    exact absurd hbounds.1 (by decide)
  · rw [Bool.eq_false_iff]
    intro hw
    have := isWhiteSpace_toNat hw
    omega

theorem windows_safe (b t : Text) (h : t.all isWindowsSafeChar = true) :
    Consumes windowsStep ⟨T, b, false, false, false⟩ t ⟨T, b ++ t, false, false, false⟩ := by
  induction t generalizing b with
  | nil => rw [append_nil]; exact Consumes.nil _
  | cons c rest ih =>
    rw [all_cons, Bool.and_eq_true] at h
    obtain ⟨hd, hs, hw⟩ := isWindowsSafeChar_plain h.1
    have hrest := ih (b ++ [c]) h.2
    rw [append_assoc, singleton_append] at hrest
    refine Consumes.cons (fun _ _ => ?_) hrest
    simp [windowsStep, WindowsState.add, hd, hs, hw]

theorem windows_token {t escaped : Text} (h : windowsEscapeArg t = some escaped) :
    ∃ q, Consumes windowsStep ⟨T, [], false, false, false⟩ escaped
        ⟨T, dropDoubleQuotes t, false, false, q⟩ ∧ (q = true ∨ dropDoubleQuotes t ≠ []) := by
  unfold windowsEscapeArg at h
  split at h
  · rename_i he
    cases h
    exact ⟨true, by rw [he]; exact Consumes.cons (fun _ _ => rfl) (Consumes.one fun _ _ => rfl), Or.inl rfl⟩
  · rename_i hne
    split at h
    · cases h
    · split at h
      · rename_i hsafe
        cases h
        have hplain : dropDoubleQuotes t = t := (dropDoubleQuotes_eq_self t).mpr fun hmem =>
          (isWindowsSafeChar_plain (all_eq_true.mp hsafe _ hmem)).1 rfl
        rw [hplain]
        exact ⟨false, windows_safe T [] t hsafe, Or.inr hne⟩
      · cases h
        refine ⟨true, ?_, Or.inl rfl⟩
        exact (Consumes.cons (fun _ _ => rfl) (windows_quoted T [] t)).append
          (Consumes.one fun _ _ => rfl)

theorem windows_separator (b : Text) (q : Bool) (h : q = true ∨ b ≠ []) :
    Consumes windowsStep ⟨T, b, false, false, q⟩ [' '] ⟨T ++ [b], [], false, false, false⟩ := by
  refine Consumes.one fun _ _ => ?_
  have hw : isWhiteSpace ' ' = true := by decide
  rcases h with rfl | h
  · simp [windowsStep, WindowsState.pushToken, hw]
  · simp [windowsStep, WindowsState.pushToken, hw, length_pos_iff, h]

theorem windowsEscapeToken_ok {t escaped : Text} (h : windowsEscapeToken t = .ok escaped) :
    windowsEscapeArg t = some escaped := by
  unfold windowsEscapeToken at h
  split at h
  · cases h
  · rename_i heq
    cases h
    exact heq

theorem windowsEscapeToken_cons {t : Text} {argv parts : List Text}
    (h : (t :: argv).mapM windowsEscapeToken = .ok parts) :
    ∃ escaped rest, parts = escaped :: rest ∧ windowsEscapeArg t = some escaped ∧
      argv.mapM windowsEscapeToken = .ok rest := by
  rw [mapM_cons] at h
  cases ht : windowsEscapeToken t with
  | error e => rw [ht] at h; cases h
  | ok escaped =>
    cases hrest : argv.mapM windowsEscapeToken with
    | error e => rw [ht, hrest] at h; cases h
    | ok rest =>
      rw [ht, hrest] at h
      cases h
      exact ⟨escaped, rest, rfl, windowsEscapeToken_ok ht, rfl⟩

/-- The tokens read, of which the last is still in the buffer. -/
theorem windows_argv (t : Text) (argv parts : List Text) (h : (t :: argv).mapM windowsEscapeToken = .ok parts) :
    ∃ T' b q, Consumes windowsStep ⟨T, [], false, false, false⟩ (joinWith [' '] parts)
        ⟨T', b, false, false, q⟩ ∧ (q = true ∨ b ≠ []) ∧
      T' ++ [b] = T ++ (t :: argv).map dropDoubleQuotes := by
  induction argv generalizing T t parts with
  | nil =>
    obtain ⟨escaped, rest, rfl, ht, hrest⟩ := windowsEscapeToken_cons h
    obtain rfl : rest = [] := (Except.ok.inj hrest).symm
    obtain ⟨q, hreads, hq⟩ := windows_token T ht
    exact ⟨T, dropDoubleQuotes t, q, by rwa [joinWith_singleton], hq, rfl⟩
  | cons next rest ih =>
    obtain ⟨escaped, parts', rfl, ht, hrest⟩ := windowsEscapeToken_cons h
    obtain ⟨q, hreads, hq⟩ := windows_token T ht
    obtain ⟨T', b, q', hreads', hq', htokens⟩ := ih (T ++ [dropDoubleQuotes t]) next parts' hrest
    obtain ⟨escaped', parts'', rfl, _, _⟩ := windowsEscapeToken_cons hrest
    refine ⟨T', b, q', ?_, hq', ?_⟩
    · rw [joinWith_cons_cons]
      exact hreads.append ((windows_separator T _ q hq).append hreads')
    · rw [htokens, append_assoc]
      rfl

theorem tokenizeWindowsSegment_rendered {argv : List Text} {rendered : Text}
    (h : renderWindowsQuotedArgv argv = .ok rendered) :
    tokenizeWindowsSegment rendered = if argv = [] then none else some (argv.map dropDoubleQuotes) := by
  cases argv with
  | nil =>
    cases h
    rfl
  | cons t rest =>
    rw [renderWindowsQuotedArgv] at h
    cases hparts : (t :: rest).mapM windowsEscapeToken with
    | error e => rw [hparts] at h; cases h
    | ok parts =>
      rw [hparts] at h
      cases h
      obtain ⟨T, b, q, hreads, hq, htokens⟩ := windows_argv [] t rest parts hparts
      rw [nil_append] at htokens
      rw [tokenizeWindowsSegment, hreads.scan_eq, if_neg (cons_ne_nil _ _), ← htokens]
      rcases hq with rfl | hb
      · simp [WindowsState.pushToken]
      · simp [WindowsState.pushToken, length_pos_iff, hb]

/-! ### The round trip -/

theorem map_eq_self_iff {α : Type} (f : α → α) (l : List α) : l.map f = l ↔ ∀ a ∈ l, f a = a := by
  constructor
  · intro h a ha
    exact map_inj_left.mp (h.trans (map_id l).symm) a ha
  · intro h
    exact (map_congr_left h).trans (map_id l)

/-- Reading an argv back gives the argv exactly when no token is empty, on POSIX, and
when there is a token and none has a double quote, on Windows. -/
theorem argv_round_trip (argv : List Text) :
    (splitShellArgs (renderPosixQuotedArgv argv) = some argv ↔ [] ∉ argv) ∧
    ∀ rendered : Text, renderWindowsQuotedArgv argv = .ok rendered →
      (tokenizeWindowsSegment rendered = some argv ↔ argv ≠ [] ∧ ∀ token ∈ argv, '"' ∉ token) := by
  constructor
  · rw [splitShellArgs_rendered, Option.some_inj, filter_eq_self]
    constructor
    · intro h hmem
      simpa using h [] hmem
    · intro h token htoken
      simpa using fun heq : token = [] => h (heq ▸ htoken)
  · intro rendered h
    rw [tokenizeWindowsSegment_rendered h]
    by_cases he : argv = []
    · simp [he]
    · rw [if_neg he, Option.some_inj, map_eq_self_iff]
      simp only [dropDoubleQuotes_eq_self, ne_eq, he, not_false_eq_true, true_and]

theorem argv_round_trip_quoted :
    tokenizeWindowsSegment "node \"a b\"".toList = some ["node".toList, "a b".toList] :=
  ((argv_round_trip ["node".toList, "a b".toList]).2 "node \"a b\"".toList (by decide)).mpr (by decide)

/-- An empty token disappears on POSIX, and a double quote on Windows. -/
theorem rendered_token_lost :
    splitShellArgs (renderPosixQuotedArgv ["node".toList, []]) ≠ some ["node".toList, []] ∧
    renderWindowsQuotedArgv ["node".toList, "a\"b".toList] = .ok "node \"a\"\"b\"".toList ∧
    tokenizeWindowsSegment "node \"a\"\"b\"".toList ≠ some ["node".toList, "a\"b".toList] := by
  decide

end OpenClaw.Exec
