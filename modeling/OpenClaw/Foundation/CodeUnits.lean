import OpenClaw.Foundation.Spaced

/-! Texts as the source language holds them.

A string is a list of UTF-16 code units: a length or an index counts units, and a cut may fall
inside a surrogate pair. White space is what `\s` matches and what `trim` removes. -/
namespace OpenClaw.Foundation.CodeUnits

open List

abbrev Text := List UInt16

/-- The code units of a literal. -/
def units (s : String) : Text := s.toList.flatMap fun c =>
  if c.toNat < 0x10000 then [c.toNat.toUInt16]
  else [(0xD800 + (c.toNat - 0x10000) / 0x400).toUInt16, (0xDC00 + (c.toNat - 0x10000) % 0x400).toUInt16]

def tab : UInt16 := 0x09
def newline : UInt16 := 0x0A
def carriageReturn : UInt16 := 0x0D
def space : UInt16 := 0x20
def openParen : UInt16 := 0x28
def closeParen : UInt16 := 0x29
def backtick : UInt16 := 0x60
def tilde : UInt16 := 0x7E

/-- `/\s/`. -/
def isWhiteSpace (c : UInt16) : Bool :=
  c ∈ [0x09, 0x0A, 0x0B, 0x0C, 0x0D, 0x20, 0xA0, 0x1680, 0x2028, 0x2029, 0x202F, 0x205F, 0x3000, 0xFEFF] ||
    (0x2000 ≤ c && c ≤ 0x200A)

variable (l : Text)

def trimStart : Text := l.dropWhile isWhiteSpace

def trimEnd : Text := l.rdropWhile isWhiteSpace

def trim : Text := trimEnd (trimStart l)

/-- `/\s/.test(text[index])`, where there is such a unit. -/
def whiteAt (index : Nat) : Bool := (l[index]?).any isWhiteSpace

/-- The units that are no white space. -/
def visible : Text := l.filter (! isWhiteSpace ·)

abbrev White : Prop := Gap isWhiteSpace l

@[simp] theorem visible_nil : visible [] = [] := rfl

@[simp] theorem visible_append (a b : Text) : visible (a ++ b) = visible a ++ visible b := filter_append ..

@[simp] theorem visible_trimStart : visible (trimStart l) = visible l := filter_dropWhile l

@[simp] theorem visible_trimEnd : visible (trimEnd l) = visible l := filter_rdropWhile l

@[simp] theorem visible_trim : visible (trim l) = visible l := by rw [trim, visible_trimEnd, visible_trimStart]

theorem white_iff {l : Text} : White l ↔ visible l = [] := gap_iff_filter

theorem trimEnd_eq_nil {l : Text} : trimEnd l = [] ↔ White l := rdropWhile_eq_nil

theorem trim_eq_nil {l : Text} : trim l = [] ↔ White l :=
  calc trim l = [] ↔ White (trimStart l) := trimEnd_eq_nil
    _ ↔ visible (trimStart l) = [] := white_iff
    _ ↔ visible l = [] := by rw [visible_trimStart]
    _ ↔ White l := white_iff.symm

theorem trimStart_eq_nil {l : Text} : trimStart l = [] ↔ White l := dropWhile_eq_nil

theorem prefix_trimEnd : trimEnd l <+: l := rdropWhile_prefix isWhiteSpace l

theorem trimStart_suffix : trimStart l <:+ l := dropWhile_suffix isWhiteSpace

theorem length_trimEnd_le : (trimEnd l).length ≤ l.length := (prefix_trimEnd l).length_le

theorem length_trimStart_le : (trimStart l).length ≤ l.length := (trimStart_suffix l).length_le

/-- The text begins, and not with white space. -/
def StartsVisible : Prop := ∃ c ∈ l.head?, isWhiteSpace c = false

theorem StartsVisible.ne_nil {l : Text} (h : StartsVisible l) : l ≠ [] := by
  rintro rfl
  obtain ⟨c, hc, -⟩ := h
  cases hc

theorem startsVisible_trimStart {l : Text} (h : trimStart l ≠ []) : StartsVisible (trimStart l) := by
  have hhead := head?_dropWhile_not isWhiteSpace l
  obtain ⟨c, rest, hl⟩ := exists_cons_of_ne_nil h
  rw [trimStart] at hl
  rw [hl] at hhead
  exact ⟨c, by rw [trimStart, hl]; rfl, hhead⟩

theorem StartsVisible.of_prefix {a b : Text} (h : StartsVisible b) (hab : a <+: b) (ha : a ≠ []) : StartsVisible a := by
  obtain ⟨c, hc, hwhite⟩ := h
  obtain ⟨rest, rfl⟩ := hab
  obtain ⟨d, a, rfl⟩ := exists_cons_of_ne_nil ha
  exact ⟨c, hc, hwhite⟩

/-- White space before a text that begins without is all that is skipped. -/
theorem takeWhile_gap {gap l : Text} (hgap : White gap) (hl : StartsVisible l) :
    (gap ++ l).takeWhile isWhiteSpace = gap := by
  obtain ⟨c, hc, hwhite⟩ := hl
  obtain ⟨rest, rfl⟩ := head?_eq_some_iff.mp hc
  rw [takeWhile_append_of_pos hgap, takeWhile_cons, hwhite]
  exact append_nil gap

theorem white_newlines (n : Nat) : White (List.replicate n newline) := fun c hc => by
  rw [eq_of_mem_replicate hc]
  rfl

example : units "é😀" = [0xE9, 0xD83D, 0xDE00] := by decide

end OpenClaw.Foundation.CodeUnits
