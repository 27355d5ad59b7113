import Mathlib.Data.List.DropRight

/-! Base64 texts.

`encode` writes three bytes as four digits and fills the last group up with `=`;
`urlEncode` is the form for addresses, with `-` and `_` for the last two digits
and no filling. Its texts use sixty-four characters and no others
(`urlEncode_alphabet`). -/
namespace OpenClaw.Foundation.Base64

def digit (n : Nat) : Char :=
  if n < 26 then Char.ofNat (65 + n)
  else if n < 52 then Char.ofNat (97 + (n - 26))
  else if n < 62 then Char.ofNat (48 + (n - 52))
  else if n = 62 then '+'
  else '/'

def encode : List UInt8 → List Char
  | [] => []
  | [a] => [digit (a.toNat / 4), digit (a.toNat % 4 * 16), '=', '=']
  | [a, b] => [digit (a.toNat / 4), digit (a.toNat % 4 * 16 + b.toNat / 16), digit (b.toNat % 16 * 4), '=']
  | a :: b :: c :: rest =>
    digit (a.toNat / 4) :: digit (a.toNat % 4 * 16 + b.toNat / 16) ::
      digit (b.toNat % 16 * 4 + c.toNat / 64) :: digit (c.toNat % 64) :: encode rest

/-- The character that stands for a digit in an address. -/
def urlDigit (c : Char) : Char := if c = '+' then '-' else if c = '/' then '_' else c

def urlEncode (bytes : List UInt8) : List Char := ((encode bytes).map urlDigit).rdropWhile (· = '=')

def isUrlChar (c : Char) : Bool := c.isAlphanum || c == '-' || c == '_'

theorem urlDigit_digit (n : Nat) : isUrlChar (urlDigit (digit n)) = true := by
  have hsmall : ∀ n < 62, isUrlChar (urlDigit (digit n)) = true := by decide
  by_cases h : n < 62
  · exact hsmall n h
  · by_cases h62 : n = 62
    · rw [h62]
      decide
    · have hlast : digit n = '/' := by
        rw [digit, if_neg (by omega), if_neg (by omega), if_neg h, if_neg h62]
      rw [hlast]
      decide

/-- An encoded text is digits followed by filling. -/
theorem encode_split : (bytes : List UInt8) → ∃ digits filling, encode bytes = digits ++ filling ∧
    (∀ c ∈ digits, ∃ n, c = digit n) ∧ ∀ c ∈ filling, c = '='
  | [] => ⟨[], [], rfl, by simp, by simp⟩
  | [a] => ⟨[digit (a.toNat / 4), digit (a.toNat % 4 * 16)], ['=', '='], rfl, by simp, by simp⟩
  | [a, b] => ⟨[digit (a.toNat / 4), digit (a.toNat % 4 * 16 + b.toNat / 16), digit (b.toNat % 16 * 4)], ['='],
      rfl, by simp, by simp⟩
  | a :: b :: c :: rest => by
    obtain ⟨digits, filling, he, hd, hf⟩ := encode_split rest
    refine ⟨_ :: _ :: _ :: _ :: digits, filling, by rw [encode, he]; rfl, ?_, hf⟩
    intro x hx
    simp only [List.mem_cons] at hx
    rcases hx with rfl | rfl | rfl | rfl | hx
    · exact ⟨_, rfl⟩
    · exact ⟨_, rfl⟩
    · exact ⟨_, rfl⟩
    · exact ⟨_, rfl⟩
    · exact hd x hx

theorem urlEncode_alphabet (bytes : List UInt8) : ∀ c ∈ urlEncode bytes, isUrlChar c = true := by
  obtain ⟨digits, filling, he, hd, hf⟩ := encode_split bytes
  have hurl : ∀ c ∈ digits.map urlDigit, isUrlChar c = true := by
    intro c hc
    obtain ⟨d, hd', rfl⟩ := List.mem_map.mp hc
    obtain ⟨n, rfl⟩ := hd d hd'
    exact urlDigit_digit n
  have hfill : ∀ c ∈ (filling.map urlDigit).reverse, decide (c = '=') = true := by
    intro c hc
    obtain ⟨f, hf', rfl⟩ := List.mem_map.mp (List.mem_reverse.mp hc)
    rw [hf f hf']
    rfl
  intro c hc
  rw [urlEncode, he, List.map_append, List.rdropWhile, List.reverse_append,
    List.dropWhile_append_of_pos hfill] at hc
  exact hurl c (List.mem_reverse.mp ((List.dropWhile_sublist _).subset (List.mem_reverse.mp hc)))

end OpenClaw.Foundation.Base64
