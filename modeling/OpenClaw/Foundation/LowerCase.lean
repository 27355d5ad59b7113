import OpenClaw.Foundation.EcmaString

/-! Lower case.

`toLowerCase` maps each character as the tables of the runtime say, and a capital
sigma by what is around it. What the tables are is left open; `CaseTables` says what
is relied on: within ASCII only the capital letters change, and what a character
becomes changes no more. -/
namespace OpenClaw.Foundation

open List

def capitalSigma : Char := Char.ofNat 0x3A3
def smallSigma : Char := Char.ofNat 0x3C3
def finalSigma : Char := Char.ofNat 0x3C2

structure CaseTables where
  lower : Char → List Char
  cased : Char → Bool
  caseIgnorable : Char → Bool
  lower_ne_nil : ∀ c, lower c ≠ []
  lower_ascii : ∀ c, c.toNat < 128 → lower c = [EcmaString.lowerAscii c]
  lower_lower : ∀ c, ∀ d ∈ lower c, lower d = [d] ∧ d ≠ capitalSigma
  lower_smallSigma : lower smallSigma = [smallSigma]
  lower_finalSigma : lower finalSigma = [finalSigma]
  lower_white : ∀ c, ∀ d ∈ lower c, EcmaString.isWhiteSpace d = EcmaString.isWhiteSpace c
  lower_colon : ∀ c, ':' ∈ lower c → c = ':'

namespace CaseTables

variable (cases : CaseTables)

/-- A capital sigma ends a word: a letter comes before it and none after. -/
def isFinalSigma (before rest : List Char) : Bool :=
  (before.dropWhile cases.caseIgnorable).head?.any cases.cased &&
    !(rest.dropWhile cases.caseIgnorable).head?.any cases.cased

/-- The characters, each lowered after those before it, which are given last first. -/
def lowerFrom (before : List Char) : List Char → List Char
  | [] => []
  | c :: rest =>
    (if c = capitalSigma then [if cases.isFinalSigma before rest then finalSigma else smallSigma]
      else cases.lower c) ++ lowerFrom (c :: before) rest

def toLowerChars (l : List Char) : List Char := cases.lowerFrom [] l

def toLowerCase (s : String) : String := String.ofList (cases.toLowerChars s.toList)

/-- The character is in lower case. -/
def IsLower (c : Char) : Prop := cases.lower c = [c] ∧ c ≠ capitalSigma

variable {cases}

theorem isLower_of_ascii {c : Char} (hascii : c.toNat < 128) (h : EcmaString.lowerAscii c = c) : cases.IsLower c := by
  refine ⟨by rw [cases.lower_ascii c hascii, h], ?_⟩
  rintro rfl
  revert hascii
  decide

/-- What a character becomes is in lower case, blank if it is, and no colon unless it is. -/
theorem lowerFrom_spec {before l : List Char} : ∀ d ∈ cases.lowerFrom before l, cases.IsLower d ∧
    (∃ c ∈ l, EcmaString.isWhiteSpace d = EcmaString.isWhiteSpace c) ∧ (d = ':' → ':' ∈ l) := by
  induction l generalizing before with
  | nil => simp [lowerFrom]
  | cons c rest ih =>
    intro d hd
    rw [lowerFrom, mem_append] at hd
    rcases hd with hd | hd
    · by_cases hc : c = capitalSigma
      · rw [if_pos hc, mem_singleton] at hd
        have hsigma : d = finalSigma ∨ d = smallSigma := by
          rw [hd]
          split_ifs <;> simp
        have hwhite : EcmaString.isWhiteSpace d = EcmaString.isWhiteSpace capitalSigma ∧ d ≠ ':' := by
          rcases hsigma with rfl | rfl <;> decide
        refine ⟨?_, ⟨c, mem_cons_self, by rw [hc]; exact hwhite.1⟩, fun h => absurd h hwhite.2⟩
        rcases hsigma with rfl | rfl
        · exact ⟨cases.lower_finalSigma, by decide⟩
        · exact ⟨cases.lower_smallSigma, by decide⟩
      · rw [if_neg hc] at hd
        refine ⟨cases.lower_lower c d hd, ⟨c, mem_cons_self, cases.lower_white c d hd⟩, ?_⟩
        rintro rfl
        rw [cases.lower_colon c hd]
        exact mem_cons_self
    · obtain ⟨hlower, ⟨c', hc', hwhite⟩, hcolon⟩ := ih d hd
      exact ⟨hlower, ⟨c', mem_cons_of_mem _ hc', hwhite⟩, fun h => mem_cons_of_mem _ (hcolon h)⟩

theorem lowerFrom_of_lower {before l : List Char} (h : ∀ c ∈ l, cases.IsLower c) : cases.lowerFrom before l = l := by
  induction l generalizing before with
  | nil => rfl
  | cons c rest ih =>
    obtain ⟨hlower, hne⟩ := h c mem_cons_self
    rw [lowerFrom, if_neg hne, hlower, ih fun c' hc' => h c' (mem_cons_of_mem _ hc')]
    rfl

/-- Texts in lower case stay as they are. -/
theorem toLowerChars_of_lower {l : List Char} (h : ∀ c ∈ l, cases.IsLower c) : cases.toLowerChars l = l :=
  lowerFrom_of_lower h

theorem toLowerChars_isLower (l : List Char) : ∀ c ∈ cases.toLowerChars l, cases.IsLower c :=
  fun c hc => (lowerFrom_spec c hc).1

theorem toLowerChars_toLowerChars (l : List Char) :
    cases.toLowerChars (cases.toLowerChars l) = cases.toLowerChars l :=
  toLowerChars_of_lower (toLowerChars_isLower l)

theorem colon_not_mem_toLowerChars {l : List Char} (h : ':' ∉ l) : ':' ∉ cases.toLowerChars l :=
  fun hc => h ((lowerFrom_spec _ hc).2.2 rfl)

theorem lowerFrom_eq_nil {before l : List Char} : cases.lowerFrom before l = [] ↔ l = [] := by
  cases l with
  | nil => simp [lowerFrom]
  | cons c rest =>
    rw [lowerFrom]
    split_ifs <;> simp [cases.lower_ne_nil]

theorem toLowerChars_eq_nil {l : List Char} : cases.toLowerChars l = [] ↔ l = [] := lowerFrom_eq_nil

/-- The first character of a lowered text is blank only if that of the text is. -/
theorem head?_lowerFrom {before l : List Char} (h : ∀ c ∈ l.head?, EcmaString.isWhiteSpace c = false) :
    ∀ d ∈ (cases.lowerFrom before l).head?, EcmaString.isWhiteSpace d = false := by
  cases l with
  | nil => simp [lowerFrom]
  | cons c rest =>
    intro d hd
    have hc : EcmaString.isWhiteSpace c = false := h c rfl
    rw [lowerFrom] at hd
    by_cases hsigma : c = capitalSigma
    · rw [if_pos hsigma, singleton_append, head?_cons, Option.mem_some_iff] at hd
      rw [← hd]
      split_ifs <;> decide
    · rw [if_neg hsigma, head?_append_of_ne_nil _ (cases.lower_ne_nil c)] at hd
      rw [cases.lower_white c d (mem_of_head? hd)]
      exact hc

/-- So is the last. -/
theorem getLast?_lowerFrom {before l : List Char} (h : ∀ c ∈ l.getLast?, EcmaString.isWhiteSpace c = false) :
    ∀ d ∈ (cases.lowerFrom before l).getLast?, EcmaString.isWhiteSpace d = false := by
  induction l generalizing before with
  | nil => simp [lowerFrom]
  | cons c rest ih =>
    intro d hd
    rw [lowerFrom] at hd
    by_cases hrest : rest = []
    · subst hrest
      have hc : EcmaString.isWhiteSpace c = false := h c rfl
      have hd' := mem_of_getLast? hd
      rw [lowerFrom, append_nil] at hd'
      split_ifs at hd' with hsigma hfinal
      · rw [mem_singleton.mp hd']
        decide
      · rw [mem_singleton.mp hd']
        decide
      · rw [cases.lower_white c d hd']
        exact hc
    · have hne : cases.lowerFrom (c :: before) rest ≠ [] := mt lowerFrom_eq_nil.mp hrest
      rw [getLast?_append_of_ne_nil _ hne] at hd
      refine ih (fun c' hc' => h c' ?_) d hd
      rw [getLast?_cons_of_ne_nil hrest]
      exact hc'

/-- What is trimmed stays trimmed in lower case. -/
theorem trimChars_toLowerChars {l : List Char} (h : EcmaString.trimChars l = l) :
    EcmaString.trimChars (cases.toLowerChars l) = cases.toLowerChars l := by
  obtain ⟨hhead, hlast⟩ := EcmaString.trimChars_ends h
  exact EcmaString.trimChars_eq_self (head?_lowerFrom hhead) (getLast?_lowerFrom hlast)

end CaseTables

/-! ### ASCII -/

/-- Lower case in ASCII and of the sigma alone. -/
def asciiLower (c : Char) : Char := if c = capitalSigma then smallSigma else EcmaString.lowerAscii c

theorem asciiLower_cases (c : Char) : asciiLower c = c ∧ c ≠ capitalSigma ∧ EcmaString.lowerAscii c = c ∨
    c = capitalSigma ∧ asciiLower c = smallSigma ∨
    65 ≤ c.toNat ∧ c.toNat ≤ 90 ∧ (asciiLower c).toNat = c.toNat + 32 := by
  by_cases hsigma : c = capitalSigma
  · exact .inr (.inl ⟨hsigma, if_pos hsigma⟩)
  · rw [asciiLower, if_neg hsigma]
    rcases EcmaString.lowerAscii_cases c with ⟨-, h⟩ | h
    · exact .inl ⟨h, hsigma, h⟩
    · exact .inr (.inr h)

theorem asciiLower_asciiLower (c : Char) : asciiLower (asciiLower c) = asciiLower c ∧ asciiLower c ≠ capitalSigma := by
  rcases asciiLower_cases c with ⟨h, hne, -⟩ | ⟨-, h⟩ | ⟨hge, hle, h⟩
  · rw [h]
    exact ⟨h, hne⟩
  · rw [h]
    decide
  · have hsmall : ¬ (65 ≤ (asciiLower c).toNat ∧ (asciiLower c).toNat ≤ 90) := by omega
    have hne : asciiLower c ≠ capitalSigma := by
      intro heq
      rw [heq] at h
      have hsigma : capitalSigma.toNat = 931 := by decide
      omega
    refine ⟨?_, hne⟩
    rcases EcmaString.lowerAscii_cases (asciiLower c) with ⟨-, heq⟩ | heq
    · rw [asciiLower, if_neg hne, heq]
    · exact absurd ⟨heq.1, heq.2.1⟩ hsmall

theorem asciiLower_white (c : Char) : EcmaString.isWhiteSpace (asciiLower c) = EcmaString.isWhiteSpace c := by
  have hletter : ∀ d : Char, 65 ≤ d.toNat → d.toNat ≤ 122 → EcmaString.isWhiteSpace d = false := by
    intro d hge hle
    by_contra h
    have hwhite := EcmaString.isWhiteSpace_toNat (by simpa using h : EcmaString.isWhiteSpace d = true)
    omega
  rcases asciiLower_cases c with ⟨h, -, -⟩ | ⟨rfl, h⟩ | ⟨hge, hle, h⟩
  · rw [h]
  · rw [h]
    decide
  · rw [hletter c hge (by omega), hletter (asciiLower c) (by omega) (by omega)]

theorem asciiLower_colon {c : Char} (h : asciiLower c = ':') : c = ':' := by
  rcases asciiLower_cases c with ⟨h', -, -⟩ | ⟨-, h'⟩ | ⟨hge, hle, h'⟩
  · rw [← h', h]
  · rw [h] at h'
    exact absurd h' (by decide)
  · rw [h] at h'
    have hcolon : ':'.toNat = 58 := by decide
    omega

/-- Tables that know ASCII and the sigmas. -/
def asciiTables : CaseTables where
  lower c := [asciiLower c]
  cased c := ('a' ≤ asciiLower c && asciiLower c ≤ 'z') || asciiLower c = smallSigma || c = finalSigma
  caseIgnorable _ := false
  lower_ne_nil _ := List.cons_ne_nil _ _
  lower_ascii c h := by
    have hne : c ≠ capitalSigma := by
      rintro rfl
      revert h
      decide
    rw [asciiLower, if_neg hne]
  lower_lower c d hd := by
    rw [List.mem_singleton.mp hd]
    exact ⟨congrArg (fun e => [e]) (asciiLower_asciiLower c).1, (asciiLower_asciiLower c).2⟩
  lower_smallSigma := by decide
  lower_finalSigma := by decide
  lower_white c d hd := by
    rw [List.mem_singleton.mp hd]
    exact asciiLower_white c
  lower_colon c hc := asciiLower_colon (List.mem_singleton.mp hc).symm

end OpenClaw.Foundation
