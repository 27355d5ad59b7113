import Mathlib.Data.List.Infix

/-! The string literals of JSON5.

A literal is a body between two equal quotes. Its escapes make the same string
spellable in many ways; `decodeBody` gives the UTF-16 units a body stands for. What
matters here is that plain text always stands for itself, even behind a backslash. -/
namespace OpenClaw.Config

open List Option

/-- The UTF-16 units of a character. -/
def utf16 (c : Char) : List Nat :=
  if c.toNat < 0x10000 then [c.toNat]
  else [0xD800 + (c.toNat - 0x10000) / 0x400, 0xDC00 + (c.toNat - 0x10000) % 0x400]

def units (l : List Char) : List Nat := l.flatMap utf16

@[simp] theorem units_nil : units [] = [] := rfl

@[simp] theorem units_cons (c : Char) (l : List Char) : units (c :: l) = utf16 c ++ units l := rfl

/-! ### Decoding -/

def hexDigit? (c : Char) : Option Nat :=
  if '0' ≤ c ∧ c ≤ '9' then some (c.toNat - '0'.toNat)
  else if 'a' ≤ c ∧ c ≤ 'f' then some (c.toNat - 'a'.toNat + 10)
  else if 'A' ≤ c ∧ c ≤ 'F' then some (c.toNat - 'A'.toNat + 10)
  else none

/-- The unit that exactly `n` hexadecimal digits at the start of a text stand for. -/
def hexUnit : Nat → Nat → List Char → Option Nat
  | 0, unit, _ => some unit
  | _ + 1, _, [] => none
  | n + 1, unit, c :: rest => (hexDigit? c).bind fun d => hexUnit n (16 * unit + d) rest

/-- `SingleEscapeCharacter` and `NonEscapeCharacter`. -/
def escapedUnits (c : Char) : List Nat :=
  match c with
  | 'b' => [8]
  | 't' => [9]
  | 'n' => [10]
  | 'v' => [11]
  | 'f' => [12]
  | 'r' => [13]
  | c => utf16 c

/-- The text after a backslash: the units it stands for and the characters it takes. -/
def unescape : List Char → Option (List Nat × Nat)
  | [] => none
  | c :: rest =>
    if c = 'x' then (hexUnit 2 0 rest).map fun unit => ([unit], 3)
    else if c = 'u' then (hexUnit 4 0 rest).map fun unit => ([unit], 5)
    -- a line continuation stands for nothing
    else if c = '\r' then some ([], if rest.head? = some '\n' then 2 else 1)
    else if c = '\n' || c = '\u2028' || c = '\u2029' then some ([], 1)
    else if c = '0' then (if rest.head?.any Char.isDigit then none else some ([0], 1))
    else if c.isDigit then none
    else some (escapedUnits c, 1)

def decodeFrom (quote : Char) : Nat → List Char → Option (List Nat)
  | _, [] => some []
  | skip + 1, _ :: rest => decodeFrom quote skip rest
  | 0, c :: rest =>
    if c = '\\' then (unescape rest).bind fun (us, n) => (decodeFrom quote n rest).map (us ++ ·)
    else if c = quote || c = '\n' || c = '\r' then none
    else (decodeFrom quote 0 rest).map (utf16 c ++ ·)

/-- What the text between two quotes stands for. -/
def decodeBody (quote : Char) (body : List Char) : Option (List Nat) := decodeFrom quote 0 body

/-- Some literal in the text stands for the string. -/
def Spelled (text : List Char) (s : String) : Prop :=
  ∃ quote body, (quote = '"' ∨ quote = '\'') ∧ (quote :: body ++ [quote]) <:+: text ∧
    decodeBody quote body = some (units s.toList)

example : decodeBody '"' "a\\x62\\\r\nc\\u0064".toList = some (units "abcd".toList) := by decide

/-! ### Plain text inside a body -/

/-- Read as itself, wherever no backslash is before it. -/
structure Plain (quote c : Char) : Prop where
  noBackslash : c ≠ '\\'
  noQuote : c ≠ quote
  noBreak : c ≠ '\n' ∧ c ≠ '\r'

theorem decodeFrom_plain {quote c : Char} {rest : List Char} (h : Plain quote c) :
    decodeFrom quote 0 (c :: rest) = (decodeFrom quote 0 rest).map (utf16 c ++ ·) := by
  rw [decodeFrom, if_neg h.noBackslash, if_neg (by simp [h.noQuote, h.noBreak])]

theorem decodeFrom_skip (quote : Char) (skip : Nat) (text : List Char) :
    decodeFrom quote skip text = decodeFrom quote 0 (text.drop skip) := by
  induction skip generalizing text with
  | zero => rfl
  | succ skip ih =>
    cases text with
    | nil => rfl
    | cons c rest => exact ih rest

/-- Plain text stands for itself, and the rest follows. -/
theorem decodeFrom_append {quote : Char} {l rest : List Char} (h : ∀ c ∈ l, Plain quote c) :
    decodeFrom quote 0 (l ++ rest) = (decodeFrom quote 0 rest).map (units l ++ ·) := by
  induction l with
  | nil =>
    rw [nil_append]
    cases decodeFrom quote 0 rest <;> rfl
  | cons c l ih =>
    rw [cons_append, decodeFrom_plain (h c (mem_cons_self ..)),
      ih fun d hd => h d (mem_cons_of_mem _ hd)]
    cases decodeFrom quote 0 rest <;> simp

theorem hexUnit_underscore {n unit v : Nat} {l rest : List Char}
    (h : hexUnit n unit (l ++ '_' :: rest) = some v) : n ≤ l.length := by
  induction n generalizing unit l with
  | zero => exact Nat.zero_le _
  | succ n ih =>
    cases l with
    | nil =>
      have hd : hexDigit? '_' = none := by decide
      rw [nil_append, hexUnit, hd] at h
      cases h
    | cons c l =>
      rw [cons_append, hexUnit] at h
      obtain ⟨d, -, hrest⟩ := bind_eq_some_iff.mp h
      have := ih hrest
      rw [length_cons]
      omega

/-- An escape ends before an underscore, or takes it for itself. -/
theorem unescape_underscore {l rest : List Char} {us : List Nat} {n : Nat}
    (h : unescape (l ++ '_' :: rest) = some (us, n)) :
    n ≤ l.length ∨ (l = [] ∧ us = utf16 '_' ∧ n = 1) := by
  cases l with
  | nil =>
    have hu : unescape ('_' :: rest) = some (utf16 '_', 1) := rfl
    rw [nil_append, hu, Option.some.injEq, Prod.mk.injEq] at h
    exact Or.inr ⟨rfl, h.1.symm, h.2.symm⟩
  | cons c l =>
    refine Or.inl ?_
    rw [cons_append, unescape] at h
    rw [length_cons]
    split at h
    · obtain ⟨unit, hunit, heq⟩ := map_eq_some_iff.mp h
      have := hexUnit_underscore hunit
      simp only [Prod.mk.injEq] at heq
      omega
    · split at h
      · obtain ⟨unit, hunit, heq⟩ := map_eq_some_iff.mp h
        have := hexUnit_underscore hunit
        simp only [Prod.mk.injEq] at heq
        omega
      · split at h
        · simp only [Option.some.injEq, Prod.mk.injEq] at h
          rw [← h.2]
          cases l with
          | nil => simp
          | cons d l =>
            rw [length_cons]
            split <;> omega
        · repeat' split at h
          all_goals cases h
          all_goals omega

/-- Text that starts with an underscore and is otherwise plain shows in what a body
stands for, whatever stands around it. -/
theorem decodeFrom_shows {quote : Char} {marker : List Char} (h : ∀ c ∈ '_' :: marker, Plain quote c)
    (l rest : List Char) {us : List Nat} (hus : decodeFrom quote 0 (l ++ ('_' :: marker ++ rest)) = some us) :
    units ('_' :: marker) <:+: us := by
  obtain ⟨n, hn⟩ : ∃ n, l.length = n := ⟨_, rfl⟩
  induction n using Nat.strongRecOn generalizing l us with
  | ind n ih =>
    cases l with
    | nil =>
      rw [nil_append, decodeFrom_append h] at hus
      obtain ⟨us', -, rfl⟩ := map_eq_some_iff.mp hus
      exact (prefix_append _ _).isInfix
    | cons c l =>
      rw [length_cons] at hn
      rw [cons_append, decodeFrom] at hus
      split at hus
      · obtain ⟨⟨us₁, k⟩, hescape, hus⟩ := bind_eq_some_iff.mp hus
        obtain ⟨us₂, hrest, rfl⟩ := map_eq_some_iff.mp hus
        rw [decodeFrom_skip] at hrest
        rcases unescape_underscore hescape with hk | ⟨rfl, rfl, rfl⟩
        · rw [drop_append_of_le_length hk] at hrest
          have hlength : (l.drop k).length < n := by
            rw [length_drop]
            omega
          exact (ih _ hlength _ hrest rfl).trans (suffix_append ..).isInfix
        · -- the escape took the underscore, and the rest is plain
          have htail : ∀ d ∈ marker, Plain quote d := fun d hd => h d (mem_cons_of_mem _ hd)
          rw [nil_append, cons_append, drop_succ_cons, drop_zero, decodeFrom_append htail] at hrest
          obtain ⟨us', -, rfl⟩ := map_eq_some_iff.mp hrest
          rw [units_cons, ← append_assoc]
          exact (prefix_append _ _).isInfix
      · split at hus
        · cases hus
        · obtain ⟨us', hrest, rfl⟩ := map_eq_some_iff.mp hus
          exact (ih _ (by omega) _ hrest rfl).trans (suffix_append ..).isInfix

/-! ### Units of ASCII text -/

theorem utf16_ascii {c : Char} (h : c.toNat < 0x80) : utf16 c = [c.toNat] := by
  rw [utf16, if_pos (by omega)]

theorem prefix_of_units {l r : List Char} (hl : ∀ c ∈ l, c.toNat < 0x80) (h : units l <+: units r) : l <+: r := by
  induction l generalizing r with
  | nil => exact nil_prefix
  | cons c l ih =>
    have hc := hl c (mem_cons_self ..)
    rw [units_cons, utf16_ascii hc, singleton_append] at h
    cases r with
    | nil => cases prefix_nil.mp h
    | cons d r =>
      rw [units_cons, utf16] at h
      split at h
      · rw [singleton_append, cons_prefix_cons] at h
        obtain rfl := Char.toNat_inj.mp h.1
        exact cons_prefix_cons.mpr ⟨rfl, ih (fun e he => hl e (mem_cons_of_mem _ he)) h.2⟩
      · rw [cons_append, cons_prefix_cons] at h
        omega

/-- ASCII text shows in the units of a string only where it is in the string. -/
theorem infix_of_units {l r : List Char} (hl : ∀ c ∈ l, c.toNat < 0x80) (h : units l <:+: units r) :
    l <:+: r := by
  cases l with
  | nil => exact nil_infix
  | cons c l =>
    have hc := hl c (mem_cons_self ..)
    induction r with
    | nil =>
      rw [units_cons, utf16_ascii hc] at h
      cases infix_nil.mp h
    | cons d r ih =>
      have hwhole (hp : units (c :: l) <+: units (d :: r)) : c :: l <:+: d :: r :=
        (prefix_of_units hl hp).isInfix
      have hrest (hr : units (c :: l) <:+: units r) : c :: l <:+: d :: r :=
        (ih hr).trans (suffix_cons d r).isInfix
      have hd : units (d :: r) = utf16 d ++ units r := rfl
      rw [hd, utf16] at h hwhole
      split at h
      · rename_i hb
        rw [if_pos hb] at hwhole
        exact (infix_cons_iff.mp h).elim hwhole hrest
      · rename_i hb
        rw [if_neg hb] at hwhole
        rcases infix_cons_iff.mp h with hp | hp
        · exact hwhole hp
        · rcases infix_cons_iff.mp hp with hp | hp
          · -- the second half of a surrogate pair is no ASCII character
            rw [units_cons, utf16_ascii hc, singleton_append, cons_prefix_cons] at hp
            omega
          · exact hrest hp

/-! ### Literals without escapes -/

theorem not_surrogate (c : Char) : c.toNat < 0xD800 ∨ (0xDFFF < c.toNat ∧ c.toNat < 0x110000) := c.valid

theorem units_injective {l r : List Char} (h : units l = units r) : l = r := by
  induction l generalizing r with
  | nil =>
    cases r with
    | nil => rfl
    | cons d r =>
      rw [units_nil, units_cons, utf16] at h
      split at h <;> cases h
  | cons c l ih =>
    cases r with
    | nil =>
      rw [units_nil, units_cons, utf16] at h
      split at h <;> cases h
    | cons d r =>
      have hc := not_surrogate c
      have hd := not_surrogate d
      rw [units_cons, units_cons, utf16, utf16] at h
      split at h <;> split at h <;> simp only [cons_append, nil_append, List.cons.injEq] at h
      · rw [Char.toNat_inj.mp h.1, ih h.2]
      · omega
      · omega
      · obtain ⟨hhigh, hlow, hrest⟩ := h
        have heq : c.toNat = d.toNat := by omega
        rw [Char.toNat_inj.mp heq, ih hrest]

/-- A body without a backslash stands for itself. -/
theorem decodeBody_verbatim {quote : Char} {body : List Char} {us : List Nat} (hb : '\\' ∉ body)
    (h : decodeBody quote body = some us) : us = units body := by
  unfold decodeBody at h
  induction body generalizing us with
  | nil => exact (Option.some.inj h).symm
  | cons c rest ih =>
    have hc : c ≠ '\\' := fun hc => hb (hc ▸ mem_cons_self ..)
    rw [decodeFrom, if_neg hc] at h
    split at h
    · cases h
    · obtain ⟨us', hrest, rfl⟩ := map_eq_some_iff.mp h
      rw [ih (fun hm => hb (mem_cons_of_mem _ hm)) hrest, units_cons]

end OpenClaw.Config
