import Mathlib.Data.List.Basic

/-! Regular expressions, matched by backtracking.

An expression sends a place of a text to the places where a match from there may end, the
preferred one first. A pattern is found at the first place from which it matches at all.
The repetition is the greedy one, and never repeats an empty match.

Only what is literal is read from the text of a pattern: characters, escaped or not, and
the two anchors. Whoever needs more of the notation builds the expression. -/
namespace OpenClaw.Foundation

open List

inductive Regex where
  | empty
  | char (accepts : Char → Bool)
  | seq (first second : Regex)
  | alt (first second : Regex)
  | star (body : Regex)
  | notAhead (body : Regex)
  | atStart
  | atEnd
  | wordBoundary
  | capture (body : Regex)

variable (r : Regex) (text : List Char)

namespace Regex

/-- A place in a text, with the character before it and what was captured on the way. -/
structure Place where
  before : Option Char
  rest : List Char
  captured : List (List Char) := []
  deriving Repr, DecidableEq

/-- A letter, a digit or an underscore of ASCII. -/
def isWordChar (c : Char) : Bool := c.isAlphanum || c = '_'

/-- At most `n` repetitions, each of which moves on. -/
def repeated (step : Place → List Place) : Nat → Place → List Place
  | 0, p => [p]
  | n + 1, p =>
    ((step p).filter fun q => q.rest.length < p.rest.length).flatMap (repeated step n) ++ [p]

/-- Where a match from this place may end. -/
def run : Regex → Place → List Place
  | empty, p => [p]
  | char accepts, p =>
    match p.rest with
    | [] => []
    | c :: rest => if accepts c then [{p with before := some c, rest}] else []
  | seq first second, p => (first.run p).flatMap second.run
  | alt first second, p => first.run p ++ second.run p
  | star body, p => repeated body.run p.rest.length p
  | notAhead body, p => if body.run p = [] then [p] else []
  | atStart, p => if p.before = none then [p] else []
  | atEnd, p => if p.rest = [] then [p] else []
  | wordBoundary, p => if p.before.any isWordChar ≠ p.rest.head?.any isWordChar then [p] else []
  | capture body, p =>
    (body.run p).map fun q => {q with captured := q.captured ++ [p.rest.take (p.rest.length - q.rest.length)]}

/-- The first match from this place on, with the number of characters before it. -/
def find (r : Regex) : Option Char → List Char → Option (Nat × Place)
  | before, [] => (r.run {before, rest := []}).head?.map (0, ·)
  | before, c :: rest =>
    match (r.run {before, rest := c :: rest}).head? with
    | some p => some (0, p)
    | none => (r.find (some c) rest).map fun (n, p) => (n + 1, p)

def exec : Option Place := (r.find none text).map Prod.snd

def test : Bool := (r.exec text).isSome

/-- The text without the first match. -/
def removeFirst : List Char :=
  match r.find none text with
  | some (n, p) => text.take n ++ p.rest
  | none => text

/-! ### How far a match goes -/

theorem repeated_suffix {step : Place → List Place} (hstep : ∀ p, ∀ q ∈ step p, q.rest <:+ p.rest) (n : Nat)
    (p : Place) : ∀ q ∈ repeated step n p, q.rest <:+ p.rest := by
  induction n generalizing p with
  | zero =>
    intro q hq
    obtain rfl := mem_singleton.mp hq
    exact suffix_refl _
  | succ n ih =>
    intro q hq
    rcases mem_append.mp hq with hmore | hdone
    · obtain ⟨mid, hmid, hq⟩ := mem_flatMap.mp hmore
      exact (ih mid q hq).trans (hstep p mid (mem_filter.mp hmid).1)
    · obtain rfl := mem_singleton.mp hdone
      exact suffix_refl _

/-- A match ends further on in the same text. -/
theorem run_suffix (p : Place) : ∀ q ∈ r.run p, q.rest <:+ p.rest := by
  induction r generalizing p with
  | empty => simp [run]
  | char accepts =>
    obtain ⟨before, rest, captured⟩ := p
    cases rest with
    | nil => simp [run]
    | cons c rest =>
      by_cases hc : accepts c = true <;> simp [run, hc]
  | seq first second ihf ihs =>
    intro q hq
    obtain ⟨mid, hmid, hq⟩ := mem_flatMap.mp hq
    exact (ihs mid q hq).trans (ihf p mid hmid)
  | alt first second ihf ihs =>
    intro q hq
    rcases mem_append.mp hq with h | h
    · exact ihf p q h
    · exact ihs p q h
  | star body ih => exact repeated_suffix ih _ p
  | notAhead body => by_cases h : body.run p = [] <;> simp [run, h]
  | atStart => by_cases h : p.before = none <;> simp [run, h]
  | atEnd => by_cases h : p.rest = [] <;> simp [run, h]
  | wordBoundary =>
    intro q hq
    rw [run] at hq
    split at hq
    · obtain rfl := mem_singleton.mp hq
      exact suffix_refl _
    · cases hq
  | capture body ih =>
    intro q hq
    obtain ⟨inner, hinner, rfl⟩ := mem_map.mp hq
    exact ih p inner hinner

theorem find_suffix (before : Option Char) (text : List Char) {n : Nat} {p : Place}
    (h : r.find before text = some (n, p)) : n ≤ text.length ∧ p.rest <:+ text.drop n := by
  induction text generalizing before n with
  | nil =>
    obtain ⟨q, hq, he⟩ := Option.map_eq_some_iff.mp h
    obtain ⟨rfl, rfl⟩ := Prod.mk.inj he
    exact ⟨Nat.le_refl _, r.run_suffix _ _ (mem_of_mem_head? hq)⟩
  | cons c text ih =>
    rw [find] at h
    split at h
    · rename_i q hq
      obtain ⟨rfl, rfl⟩ := Prod.mk.inj (Option.some.inj h)
      exact ⟨Nat.zero_le _, r.run_suffix _ _ (mem_of_mem_head? hq)⟩
    · obtain ⟨⟨m, q⟩, hq, he⟩ := Option.map_eq_some_iff.mp h
      obtain ⟨rfl, rfl⟩ := Prod.mk.inj he
      obtain ⟨hm, hsuffix⟩ := ih (some c) hq
      exact ⟨Nat.succ_le_succ hm, hsuffix⟩

/-- A text that changes when a match is taken out of it becomes shorter. -/
theorem removeFirst_shorter {text : List Char} (h : r.removeFirst text ≠ text) :
    (r.removeFirst text).length < text.length := by
  unfold removeFirst at h ⊢
  split at h
  · rename_i n p hfind
    obtain ⟨hn, hsuffix⟩ := r.find_suffix none text hfind
    have hle : p.rest.length ≤ text.length - n := by simpa using hsuffix.length_le
    have hne : p.rest.length ≠ text.length - n := by
      intro heq
      have hrest : p.rest = text.drop n := hsuffix.eq_of_length (by simpa using heq)
      exact h (by rw [hrest, take_append_drop])
    simp only [length_append, length_take]
    omega
  · exact absurd rfl h

/-! ### Building expressions -/

def lit (c : Char) : Regex := char (· = c)

/-- The letters of a lower-case word in either case, its other characters as they are. -/
def word (text : String) : Regex := text.toList.foldr (fun c r => seq (char (·.toLower = c)) r) empty

def sequence (rs : List Regex) : Regex := rs.foldr seq empty

def opt : Regex := alt r empty

def plus : Regex := seq r (star r)

/-! ### Literal patterns -/

/-- The characters that the notation gives a meaning of their own. -/
def syntaxCharacters : List Char := ['^', '$', '\\', '.', '*', '+', '?', '(', ')', '[', ']', '{', '}', '|']

def parseTerms : List Char → Option (List Regex)
  | [] => some []
  | c :: rest =>
    if c = '\\' then
      match rest with
      | [] => none
      | d :: rest => if d ∈ syntaxCharacters then (parseTerms rest).map (lit d :: ·) else none
    else if c = '^' then (parseTerms rest).map (atStart :: ·)
    else if c = '$' then (parseTerms rest).map (atEnd :: ·)
    else if c ∈ syntaxCharacters then none
    else (parseTerms rest).map (lit c :: ·)

/-- The expression a pattern is written for, if it is a literal one. -/
def parse (pattern : List Char) : Option Regex := (parseTerms pattern).map sequence

/-- The pattern of a text that is to be found as it is. -/
def escape : List Char :=
  text.flatMap fun c => if c ∈ syntaxCharacters then ['\\', c] else [c]

theorem parseTerms_anchor (rest : List Char) : parseTerms ('^' :: rest) = (parseTerms rest).map (atStart :: ·) := by
  rw [parseTerms.eq_def]
  rfl

theorem parseTerms_escaped {c : Char} (h : c ∈ syntaxCharacters) (rest : List Char) :
    parseTerms ('\\' :: c :: rest) = (parseTerms rest).map (lit c :: ·) := by
  rw [parseTerms.eq_def]
  simp [h]

theorem parseTerms_plain {c : Char} (h : c ∉ syntaxCharacters) (rest : List Char) :
    parseTerms (c :: rest) = (parseTerms rest).map (lit c :: ·) := by
  have hne : c ≠ '\\' ∧ c ≠ '^' ∧ c ≠ '$' := by
    refine ⟨?_, ?_, ?_⟩ <;> (rintro rfl; simp [syntaxCharacters] at h)
  rw [parseTerms.eq_def]
  simp [h, hne]

theorem parseTerms_escape (rest : List Char) :
    parseTerms (escape text ++ rest) = (parseTerms rest).map (text.map lit ++ ·) := by
  induction text with
  | nil => simp [escape]
  | cons c text ih =>
    have hcons : escape (c :: text) ++ rest =
        (if c ∈ syntaxCharacters then ['\\', c] else [c]) ++ (escape text ++ rest) := by
      simp [escape]
    rw [hcons]
    by_cases hc : c ∈ syntaxCharacters
    · rw [if_pos hc, cons_append, singleton_append, parseTerms_escaped hc, ih]
      simp [Function.comp_def]
    · rw [if_neg hc, singleton_append, parseTerms_plain hc, ih]
      simp [Function.comp_def]

/-- An anchored literal pattern is read as the text between its anchors. -/
theorem parse_anchored :
    parse ('^' :: (escape text ++ ['$'])) = some (sequence (atStart :: (text.map lit ++ [atEnd]))) := by
  have hend : parseTerms ['$'] = some [atEnd] := by simp [parseTerms]
  simp [parse, parseTerms_anchor, parseTerms_escape, hend]

theorem run_literal (p : Place) :
    (sequence (text.map lit ++ [atEnd])).run p ≠ [] ↔ p.rest = text := by
  induction text generalizing p with
  | nil => simp [sequence, run]
  | cons c text ih =>
    obtain ⟨before, rest, captured⟩ := p
    cases rest with
    | nil => simp [sequence, run, lit]
    | cons d rest =>
      have := ih {before := some d, rest, captured}
      by_cases hd : d = c
      · subst hd
        simpa [sequence, run, lit] using this
      · simp [sequence, run, lit, hd]

/-- What has to match from the start is not found further on. -/
theorem find_atStart {before : Option Char} (hbefore : before ≠ none) (text : List Char) :
    (seq atStart r).find before text = none := by
  induction text generalizing before with
  | nil => simp [find, run, hbefore]
  | cons c text ih =>
    have hnext := ih (show some c ≠ none by simp)
    simp [find, run, hbefore, hnext]

theorem test_atStart :
    (seq atStart r).test text = true ↔ r.run {before := none, rest := text} ≠ [] := by
  cases text with
  | nil => cases h : r.run {before := none, rest := []} <;> simp [test, exec, find, run, h]
  | cons c text =>
    have hnext := find_atStart r (show some c ≠ none by simp) text
    cases h : r.run {before := none, rest := c :: text} <;> simp [test, exec, find, run, h, hnext]

/-- **An anchored literal pattern matches its text and no other.** -/
theorem test_anchored (subject : List Char) :
    (sequence (atStart :: (text.map lit ++ [atEnd]))).test subject = true ↔ subject = text := by
  show (seq atStart (sequence (text.map lit ++ [atEnd]))).test subject = true ↔ subject = text
  rw [test_atStart, run_literal]

end Regex

end OpenClaw.Foundation
