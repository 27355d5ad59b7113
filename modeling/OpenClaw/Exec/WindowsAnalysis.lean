import OpenClaw.Exec.ArgPattern
import OpenClaw.Foundation.ReplaceAll

/-! Analysing a Windows command line.

Shell wrappers around the command are taken off, what is left is searched for characters
that a Windows shell gives a meaning, and is then split into an argv. The search takes
every double quote for one that opens or closes a string, as `cmd.exe` does; the splitting
knows single quotes too, and passes over the double quotes between them. -/
namespace OpenClaw.Exec
open Foundation
open Foundation.EcmaString (isWhiteSpace trimChars)

/-! ### Wrappers -/

namespace WindowsWrapper
open Regex

def space : Regex := char isWhiteSpace

def anything : Regex := capture (plus (char fun _ => true))

/-- A string between quotes, in which a doubled quote stands for one. -/
def quoted (q : Char) : Regex :=
  let inner := star (char (· ≠ q))
  sequence [lit q, inner, star (sequence [lit q, lit q, inner]), lit q]

/-- Flags before the one that introduces the command, each with a value or without. -/
def psFlags : Regex :=
  let command := alt (sequence [word "c", opt (word "ommand"), wordBoundary]) (seq (word "-command") wordBoundary)
  let value := alt (quoted '"') (alt (quoted '\'') (plus (char fun c => !isWhiteSpace c)))
  star (sequence [lit '-', notAhead command, plus (char isWordChar),
    opt (sequence [plus space, notAhead (lit '-'), value]), plus space])

def psCommandFlag : Regex := alt (word "-command") (alt (word "-c") (word "--command"))

/-- PowerShell, its flags and the one that introduces the command, up to the payload. -/
def psInvoke (payload : List Regex) : Regex :=
  sequence ([atStart, alt (word "powershell") (word "pwsh"), opt (seq (lit '.') (word "exe")), plus space, psFlags,
    psCommandFlag, plus space] ++ payload ++ [atEnd])

end WindowsWrapper

open WindowsWrapper in
def stripWindowsShellWrapperOnce (command : Text) : Text :=
  let captured := fun r : Regex => (r.exec command).bind (·.captured.head?)
  match captured (.sequence [.atStart, .lit '&', .plus space, anything, .atEnd]) with
  | some payload => payload
  | none =>
    match captured (psInvoke [.lit '"', anything, .lit '"']) with
    | some payload => replaceAll ['"', '"'] ['"'] payload
    | none =>
      match captured (psInvoke [.lit '\'', anything, .lit '\'']) with
      | some payload => replaceAll ['\'', '\''] ['\''] payload
      | none => (captured (psInvoke [anything])).getD command

def stripWrappers : Nat → Text → Text
  | 0, result => result
  | depth + 1, prev =>
    let result := stripWindowsShellWrapperOnce (trimChars prev)
    if result = prev then result else stripWrappers depth result

def stripWindowsShellWrapper (command : Text) : Text := stripWrappers 5 command

/-! ### Unsupported characters -/

def WINDOWS_UNSUPPORTED_TOKENS : List Char :=
  ['&', '|', '<', '>', '^', '(', ')', '%', '!', '\u0060', '\n', '\r']

def WINDOWS_ALWAYS_UNSAFE_TOKENS : List Char := ['\n', '\r', '%', '\u0060']

/-- A `$` before it is expanded by PowerShell, in a string too. -/
def isExpandedAfterDollar (c : Char) : Bool := c.isAlpha || c ∈ ['_', '{', '(', '?', '$']

def findUnsupportedFrom : Bool → Text → Option Text
  | _, [] => none
  | inDouble, ch :: rest =>
    if ch = '"' then findUnsupportedFrom (!inDouble) rest
    else if ch = '$' then
      if rest.head?.any isExpandedAfterDollar then some ['$'] else findUnsupportedFrom inDouble rest
    else if ch ∈ WINDOWS_UNSUPPORTED_TOKENS then
      if inDouble && ch ∉ WINDOWS_ALWAYS_UNSAFE_TOKENS then findUnsupportedFrom inDouble rest
      else if ch = '\n' || ch = '\r' then some "newline".toList
      else some [ch]
    else findUnsupportedFrom inDouble rest

def findWindowsUnsupportedToken (command : Text) : Option Text := findUnsupportedFrom false command

/-- The command that is searched and split: what is left inside the wrappers. -/
def windowsSource (command : Text) : Text := stripWindowsShellWrapper (trimChars command)

def analyzeWindowsShellCommand (host : Host) (command : Text) : Except Text ExecCommandAnalysis :=
  let effective := windowsSource command
  match findWindowsUnsupportedToken effective with
  | some unsupported => .error ("unsupported windows shell token: ".toList ++ unsupported)
  | none =>
    match tokenizeWindowsSegment effective with
    | none => .error "unable to parse windows command".toList
    | some argv =>
      if argv = [] then .error "unable to parse windows command".toList
      else .ok ⟨[{raw := command, argv, resolution := resolveCommandResolutionFromArgv host argv}], none⟩

example : windowsSource "powershell -NoProfile -Command \"& node 'C:\\path' --count 3\"".toList =
    "node 'C:\\path' --count 3".toList := by decide

/-! ### What a Windows command line quotes -/

/-- Where the splitting stands in the text: between quotes of either kind, or outside. -/
inductive QuoteRegion where
  | plain
  | double
  | single
  deriving Repr, DecidableEq

namespace QuoteRegion

def read (r : QuoteRegion) (c : Char) : QuoteRegion :=
  match r with
  | plain => if c = '"' then double else if c = '\'' then single else plain
  | double => if c = '"' then plain else double
  | single => if c = '\'' then plain else single

def after (r : QuoteRegion) (text : Text) : QuoteRegion := text.foldl read r

/-- How many double quotes of a text stand between single ones. -/
def hidden : QuoteRegion → Text → Nat
  | _, [] => 0
  | r, c :: rest => (if r = single ∧ c = '"' then 1 else 0) + hidden (r.read c) rest

/-- The flags of the splitting in this region. -/
def Holds (r : QuoteRegion) (s : WindowsState) : Prop := s.inDouble = (r = double : Bool) ∧ s.inSingle = (r = single : Bool)

/-- Every double quote opens or closes a string, but for the hidden ones. -/
theorem count_parity (r : QuoteRegion) (text : Text) :
    ((if r = double then 1 else 0) + text.count '"') % 2 =
      (r.hidden text + if r.after text = double then 1 else 0) % 2 := by
  induction text generalizing r with
  | nil => cases r <;> rfl
  | cons c rest ih =>
    have hrest := ih (r.read c)
    rw [after, List.foldl_cons, ← after, hidden, List.count_cons]
    cases r <;> by_cases hd : c = '"' <;> by_cases hs : c = '\'' <;>
      simp [read, hd, hs] at hrest ⊢ <;> omega

theorem pushToken_holds {r : QuoteRegion} {s : WindowsState} (h : r.Holds s) : r.Holds s.pushToken := by
  unfold WindowsState.pushToken
  split <;> exact h

/-- One character is read in the region it stands in, or two single quotes in a string between
single quotes. -/
theorem windowsStep_region {r : QuoteRegion} {s : WindowsState} (h : r.Holds s) (before : Option Char) (c : Char)
    (rest : Text) :
    (∃ s', windowsStep s before c rest = .go s' 0 ∧ (r.read c).Holds s') ∨
      ∃ s', windowsStep s before c rest = .go s' 1 ∧ r = single ∧ r.Holds s' ∧ c = '\'' ∧ rest.head? = some '\'' := by
  obtain ⟨hdouble, hsingle⟩ := h
  by_cases hd : c = '"'
  · subst hd
    refine .inl ?_
    cases r <;> simp [windowsStep, hdouble, hsingle, read, Holds, WindowsState.add]
  by_cases hs : c = '\''
  · subst hs
    by_cases hnext : rest.head? = some '\''
    · cases r <;> simp [windowsStep, hdouble, hsingle, read, Holds, WindowsState.add, hnext]
    · refine .inl ?_
      cases r <;> simp [windowsStep, hdouble, hsingle, read, Holds, WindowsState.add, hnext]
  · have hread : r.read c = r := by cases r <;> simp [read, hd, hs]
    refine .inl ?_
    rw [hread]
    by_cases hblank : (!s.inDouble && !s.inSingle && isWhiteSpace c) = true
    · exact ⟨s.pushToken, by simp [windowsStep, hd, hs, hblank], pushToken_holds ⟨hdouble, hsingle⟩⟩
    · exact ⟨s.add c, by simp [windowsStep, hd, hs, hblank], hdouble, hsingle⟩

end QuoteRegion

/-- The splitting reads every character but a second single quote, in the region it stands in. -/
theorem stateAt_region {r : QuoteRegion} {s : WindowsState} (h : r.Holds s) (before : Option Char) (text : Text)
    (n : Nat) {ch : Char} (hn : text[n]? = some ch) (hch : ch ≠ '\'') :
    ∃ s', Scan.stateAt windowsStep s before 0 text n = some s' ∧ (r.after (text.take n)).Holds s' := by
  induction hlen : text.length using Nat.strong_induction_on generalizing r s before text n with
  | _ len ih =>
    subst hlen
    cases text with
    | nil => cases hn
    | cons c rest =>
      cases n with
      | zero => exact ⟨s, rfl, h⟩
      | succ n =>
        rw [List.getElem?_cons_succ] at hn
        rcases QuoteRegion.windowsStep_region h before c rest with ⟨s', hstep, hs'⟩ | ⟨s', hstep, rfl, hs', rfl, hnext⟩
        · rw [Scan.stateAt, hstep]
          exact ih rest.length (by simp) hs' (some c) rest n hn rfl
        · -- the second quote of the pair is passed over, and closes and opens nothing
          cases rest with
          | nil => cases hn
          | cons d rest =>
            obtain rfl : d = '\'' := by simpa using hnext
            cases n with
            | zero => exact absurd (by simpa using hn.symm) hch
            | succ n =>
              rw [List.getElem?_cons_succ] at hn
              rw [Scan.stateAt, hstep]
              exact ih rest.length (by simp only [List.length_cons]; omega) hs' (some '\'') rest n hn rfl

/-- The search lets a metacharacter pass only behind an odd number of double quotes. -/
theorem findUnsupportedFrom_none {inDouble : Bool} {text : Text} (h : findUnsupportedFrom inDouble text = none)
    {n : Nat} {ch : Char} (hn : text[n]? = some ch) (hch : ch ∈ WINDOWS_UNSUPPORTED_TOKENS) :
    ((if inDouble then 1 else 0) + (text.take n).count '"') % 2 = 1 := by
  induction text generalizing inDouble n with
  | nil => cases hn
  | cons c rest ih =>
    cases n with
    | zero =>
      obtain rfl : c = ch := by simpa using hn
      have hne : c ≠ '"' ∧ c ≠ '$' := by constructor <;> (rintro rfl; exact absurd hch (by decide))
      cases inDouble with
      | true => rfl
      | false =>
        rw [findUnsupportedFrom, if_neg hne.1, if_neg hne.2, if_pos hch, Bool.false_and,
          if_neg Bool.false_ne_true] at h
        split at h <;> cases h
    | succ n =>
      rw [List.getElem?_cons_succ] at hn
      rw [List.take_succ_cons, List.count_cons]
      by_cases hd : c = '"'
      · rw [findUnsupportedFrom, if_pos hd] at h
        have := ih h hn
        cases inDouble <;> simp [hd] at this ⊢ <;> omega
      · have hrest : findUnsupportedFrom inDouble rest = none := by
          rw [findUnsupportedFrom, if_neg hd] at h
          split at h
          · split at h
            · cases h
            · exact h
          · split at h
            · split at h
              · exact h
              · split at h <;> cases h
            · exact h
        simpa [hd] using ih hrest hn

/-- Every unsupported character is read inside a string between double quotes. -/
def MetacharsQuoted (source : Text) : Prop :=
  ∀ n ch, source[n]? = some ch → ch ∈ WINDOWS_UNSUPPORTED_TOKENS →
    ∃ s, Scan.stateAt windowsStep {} none 0 source n = some s ∧ s.inDouble = true

/-- Before every unsupported character, an even number of double quotes stands between single
ones. -/
def HiddenInPairs (source : Text) : Prop :=
  ∀ n ch, source[n]? = some ch → ch ∈ WINDOWS_UNSUPPORTED_TOKENS → QuoteRegion.plain.hidden (source.take n) % 2 = 0

/-- **In a command line that is accepted, the unsupported characters are quoted exactly if the
double quotes between single ones come in pairs before each of them.** -/
theorem windows_metachars_quoted_iff (host : Host) (command : Text) (analysis : ExecCommandAnalysis)
    (h : analyzeWindowsShellCommand host command = .ok analysis) :
    MetacharsQuoted (windowsSource command) ↔ HiddenInPairs (windowsSource command) := by
  have hfound : findWindowsUnsupportedToken (windowsSource command) = none := by
    unfold analyzeWindowsShellCommand at h
    cases hscan : findWindowsUnsupportedToken (windowsSource command) with
    | none => rfl
    | some unsupported => simp [hscan] at h
  generalize windowsSource command = source at hfound ⊢
  have hread : ∀ n ch, source[n]? = some ch → ch ∈ WINDOWS_UNSUPPORTED_TOKENS →
      ((∃ s, Scan.stateAt windowsStep {} none 0 source n = some s ∧ s.inDouble = true) ↔
        QuoteRegion.plain.hidden (source.take n) % 2 = 0) := by
    intro n ch hn hch
    have hquote : ch ≠ '\'' := by rintro rfl; exact absurd hch (by decide)
    obtain ⟨s, hs, hdouble, -⟩ := stateAt_region (r := .plain) (s := {}) ⟨rfl, rfl⟩ none source n hn hquote
    have hodd := findUnsupportedFrom_none hfound hn hch
    have hparity := QuoteRegion.count_parity .plain (source.take n)
    rw [hs]
    simp only [Option.some.injEq, exists_eq_left', hdouble, decide_eq_true_eq]
    simp only [reduceCtorEq, Bool.false_eq_true, if_false, Nat.zero_add] at hodd hparity
    rw [hodd] at hparity
    by_cases hinside : QuoteRegion.plain.after (source.take n) = .double
    · rw [if_pos hinside] at hparity
      simp only [hinside, true_iff]
      omega
    · rw [if_neg hinside] at hparity
      simp only [hinside, false_iff]
      omega
  exact forall_congr' fun n => forall_congr' fun ch => forall_congr' fun hn => forall_congr' fun hch => hread n ch hn hch

def nodeCommand : Text := "node 'it''s' \"a (b)\"".toList

theorem windows_metachars_quoted_node :
    MetacharsQuoted (windowsSource nodeCommand) ↔ HiddenInPairs (windowsSource nodeCommand) :=
  windows_metachars_quoted_iff windowsHost.toHost nodeCommand
    ⟨[⟨nodeCommand, texts ["node", "it's", "a (b)"],
      resolveCommandResolutionFromArgv windowsHost.toHost (texts ["node", "it's", "a (b)"])⟩], none⟩ (by decide)

def hiddenCommand : Text := "echo 'a\"' & whoami 'b\"'".toList

/-- Between two strings that each hold a double quote, an ampersand is outside of any. -/
theorem hidden_quote_lets_ampersand_through :
    (∃ analysis, analyzeWindowsShellCommand windowsHost.toHost hiddenCommand = .ok analysis) ∧
      ¬MetacharsQuoted (windowsSource hiddenCommand) := by
  refine ⟨⟨⟨[⟨hiddenCommand, texts ["echo", "a\"", "&", "whoami", "b\""],
      resolveCommandResolutionFromArgv windowsHost.toHost (texts ["echo", "a\"", "&", "whoami", "b\""])⟩], none⟩,
    by decide⟩, fun h => ?_⟩
  obtain ⟨s, hs, hdouble⟩ := h 10 '&' (by decide) (by decide)
  have hread : Scan.stateAt windowsStep {} none 0 (windowsSource hiddenCommand) 10 =
      some {tokens := texts ["echo", "a\""]} := by decide
  rw [hread] at hs
  obtain rfl := Option.some.inj hs
  cases hdouble

end OpenClaw.Exec
