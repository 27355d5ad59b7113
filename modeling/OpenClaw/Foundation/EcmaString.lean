import Mathlib.Data.List.DropRight

/-! The string operations of the source language that the models need.

`trim` strips the white space and line terminators of ECMAScript, which are more
than the blanks Lean's own trimming knows. An absent or blank string is `none`
once trimmed: `trimmed` is the `value?.trim() || undefined` of the source. -/
namespace OpenClaw.Foundation.EcmaString

open List

instance lawfulBEqChars : LawfulBEq (List Char) := inferInstance

/-- White space and line terminators. -/
def isWhiteSpace (c : Char) : Bool :=
  c.toNat ∈ [0x09, 0x0A, 0x0B, 0x0C, 0x0D, 0x20, 0xA0, 0x1680, 0x2028, 0x2029, 0x202F, 0x205F,
    0x3000, 0xFEFF] || (0x2000 ≤ c.toNat && c.toNat ≤ 0x200A)

def trimChars (l : List Char) : List Char :=
  (((l.dropWhile isWhiteSpace).reverse).dropWhile isWhiteSpace).reverse

def trim (s : String) : String := String.ofList (trimChars s.toList)

/-- The trimmed string if anything is left of it. -/
def trimmed (s : String) : Option String :=
  if trim s = "" then none else some (trim s)

/-- `value?.trim() || undefined`. -/
def trimmed? (s : Option String) : Option String := s.bind trimmed

/-- `replace(/\s+/g, " ")`: each run of white space becomes one blank. -/
def collapseChars : Bool → List Char → List Char
  | _, [] => []
  | inRun, c :: rest =>
    if isWhiteSpace c then (if inRun then collapseChars true rest else ' ' :: collapseChars true rest)
    else c :: collapseChars false rest

def collapseWhiteSpace (s : String) : String := String.ofList (collapseChars false s.toList)

/-- The lower case of an ASCII letter. -/
def lowerAscii (c : Char) : Char := if 'A' ≤ c ∧ c ≤ 'Z' then Char.ofNat (c.toNat + 32) else c

/-- `includes`, on characters. -/
def includesChars (needle hay : List Char) : Bool := hay.tails.any fun rest => needle.isPrefixOf rest

/-- `split(/\s+/).filter(Boolean)`. -/
def words (l : List Char) : List (List Char) :=
  (l.splitOnP isWhiteSpace).filter (· ≠ [])

def startsWith (s start : String) : Bool := start.toList.isPrefixOf s.toList

def endsWith (s last : String) : Bool := last.toList.isSuffixOf s.toList

/-- `slice(0, -n)`. -/
def dropEnd (s : String) (n : Nat) : String := String.ofList (s.toList.take (s.toList.length - n))

/-- White space is a blank or a control character, or lies beyond ASCII. -/
theorem isWhiteSpace_toNat {c : Char} (h : isWhiteSpace c = true) : c.toNat ≤ 0x20 ∨ 0xA0 ≤ c.toNat := by
  simp only [isWhiteSpace, Bool.or_eq_true, Bool.and_eq_true, decide_eq_true_eq, mem_cons,
    not_mem_nil, or_false] at h
  omega

/-- Only the capital letters change. -/
theorem lowerAscii_cases (c : Char) :
    (¬ (65 ≤ c.toNat ∧ c.toNat ≤ 90) ∧ lowerAscii c = c) ∨
      (65 ≤ c.toNat ∧ c.toNat ≤ 90 ∧ (lowerAscii c).toNat = c.toNat + 32) := by
  have hiff : ('A' ≤ c ∧ c ≤ 'Z') ↔ (65 ≤ c.toNat ∧ c.toNat ≤ 90) := Iff.rfl
  unfold lowerAscii
  split_ifs with h
  · refine .inr ⟨(hiff.mp h).1, (hiff.mp h).2, ?_⟩
    have hvalid : (c.toNat + 32).isValidChar := Or.inl (by have := (hiff.mp h).2; omega)
    rw [Char.ofNat, dif_pos hvalid]
    rfl
  · exact .inl ⟨mt hiff.mpr h, rfl⟩

@[simp] theorem trimmed?_none : trimmed? none = none := rfl

theorem trimmed_ne_empty {s t : String} (h : trimmed s = some t) : t ≠ "" := by
  unfold trimmed at h
  split at h
  · cases h
  · rename_i hne
    cases h
    exact hne

theorem trim_of_trimmed {s t : String} (h : trimmed s = some t) : trim s = t := by
  unfold trimmed at h
  split at h
  · cases h
  · exact Option.some.inj h

theorem trimmed?_ne_empty {s : Option String} {t : String} (h : trimmed? s = some t) : t ≠ "" := by
  obtain ⟨r, _, hr⟩ := Option.bind_eq_some_iff.mp h
  exact trimmed_ne_empty hr

theorem trimChars_trimChars (l : List Char) : trimChars (trimChars l) = trimChars l := by
  have hr (l : List Char) : trimChars l = (l.dropWhile isWhiteSpace).rdropWhile isWhiteSpace := rfl
  have hhead : (trimChars l).dropWhile isWhiteSpace = trimChars l := by
    rw [dropWhile_eq_self_iff]
    intro hl
    -- the first character left is the first one `dropWhile` stopped at
    obtain ⟨rest, hrest⟩ := rdropWhile_prefix isWhiteSpace (l := l.dropWhile isWhiteSpace)
    rw [← hr] at hrest
    have hpos : 0 < (l.dropWhile isWhiteSpace).length := by
      rw [← hrest, length_append]
      omega
    have hget : (trimChars l)[0] = (l.dropWhile isWhiteSpace)[0] := by
      simp only [← hrest, getElem_append_left hl]
    rw [hget]
    exact dropWhile_get_zero_not isWhiteSpace l hpos
  rw [hr (trimChars l), hhead, hr l, rdropWhile_idempotent]

theorem trimChars_append_left {l : List Char} (hl : ∀ c ∈ l, isWhiteSpace c = true) (r : List Char) :
    trimChars (l ++ r) = trimChars r := by
  rw [trimChars, dropWhile_append_of_pos hl, ← trimChars]

theorem trimChars_of_white {l : List Char} (hl : ∀ c ∈ l, isWhiteSpace c = true) : trimChars l = [] := by
  rw [← append_nil l, trimChars_append_left hl]
  rfl

theorem trimChars_append_right {r : List Char} (hr : ∀ c ∈ r, isWhiteSpace c = true) (l : List Char) :
    trimChars (l ++ r) = trimChars l := by
  by_cases hl : ∀ c ∈ l, isWhiteSpace c = true
  · rw [trimChars_append_left hl, trimChars_of_white hr, trimChars_of_white hl]
  · have hne : l.dropWhile isWhiteSpace ≠ [] := fun h => hl (dropWhile_eq_nil_iff.mp h)
    have hhead : (l ++ r).dropWhile isWhiteSpace = l.dropWhile isWhiteSpace ++ r := by
      rw [dropWhile_append, if_neg]
      simpa using hne
    have hback : ∀ c ∈ r.reverse, isWhiteSpace c = true := fun c hc => hr c (mem_reverse.mp hc)
    rw [trimChars, hhead, reverse_append, dropWhile_append_of_pos hback, ← trimChars]

/-- A text is what is left of it, between white space, and what is left ends in none. -/
theorem trimChars_split (l : List Char) :
    ∃ pre post, l = pre ++ trimChars l ++ post ∧ (∀ c ∈ pre, isWhiteSpace c = true) ∧
      (∀ c ∈ post, isWhiteSpace c = true) ∧ ∀ c ∈ (trimChars l).getLast?, isWhiteSpace c = false := by
  have hr : trimChars l = (l.dropWhile isWhiteSpace).rdropWhile isWhiteSpace := rfl
  refine ⟨l.takeWhile isWhiteSpace, (l.dropWhile isWhiteSpace).rtakeWhile isWhiteSpace, ?_, ?_, ?_, ?_⟩
  · rw [append_assoc, hr, List.rdropWhile, List.rtakeWhile, ← reverse_append,
      takeWhile_append_dropWhile, reverse_reverse, takeWhile_append_dropWhile]
  · exact fun c hc => mem_takeWhile_imp hc
  · exact fun c hc => mem_rtakeWhile_imp hc
  · intro c hc
    rw [hr] at hc
    have hne : (l.dropWhile isWhiteSpace).rdropWhile isWhiteSpace ≠ [] := by
      intro h
      rw [h] at hc
      cases hc
    have hlast := rdropWhile_last_not isWhiteSpace (l.dropWhile isWhiteSpace) hne
    rw [getLast?_eq_getLast_of_ne_nil hne, Option.mem_some_iff] at hc
    rw [← hc]
    simpa using hlast

theorem trimChars_eq_self {l : List Char} (hhead : ∀ c ∈ l.head?, isWhiteSpace c = false)
    (hlast : ∀ c ∈ l.getLast?, isWhiteSpace c = false) : trimChars l = l := by
  have hfirst : l.dropWhile isWhiteSpace = l := by
    rw [dropWhile_eq_self_iff]
    intro hl
    rw [hhead l[0] (by rw [head?_eq_getElem?, getElem?_eq_getElem hl]; rfl)]
    exact Bool.false_ne_true
  have hback : l.reverse.dropWhile isWhiteSpace = l.reverse := by
    rw [dropWhile_eq_self_iff]
    intro hl
    rw [hlast l.reverse[0] (by
      rw [← head?_reverse, head?_eq_getElem?, getElem?_eq_getElem hl]; rfl)]
    exact Bool.false_ne_true
  rw [trimChars, hfirst, hback, reverse_reverse]

/-- What is trimmed neither begins nor ends blank. -/
theorem trimChars_ends {l : List Char} (h : trimChars l = l) :
    (∀ c ∈ l.head?, isWhiteSpace c = false) ∧ ∀ c ∈ l.getLast?, isWhiteSpace c = false := by
  obtain ⟨pre, post, hsplit, -, -, hlast⟩ := trimChars_split l
  rw [h] at hsplit hlast
  refine ⟨fun c hc => ?_, hlast⟩
  have hprefix : trimChars l <+: l.dropWhile isWhiteSpace := rdropWhile_prefix isWhiteSpace _
  rw [h] at hprefix
  have hdrop : l.dropWhile isWhiteSpace = l :=
    (dropWhile_suffix isWhiteSpace).eq_of_length_le hprefix.length_le
  have hpos : 0 < l.length := length_pos_of_mem (mem_of_head? hc)
  have hfirst := dropWhile_eq_self_iff.mp hdrop hpos
  rw [head?_eq_getElem?, getElem?_eq_getElem hpos, Option.mem_some_iff] at hc
  rw [← hc]
  simpa using hfirst

theorem trim_trim (s : String) : trim (trim s) = trim s := by
  unfold trim
  rw [String.toList_ofList, trimChars_trimChars]

/-- What is trimmed stays as it is. -/
theorem trimmed_trimmed {s t : String} (h : trimmed s = some t) : trimmed t = some t := by
  have hne := trimmed_ne_empty h
  unfold trimmed at h
  split at h
  · cases h
  · cases h
    rw [trimmed, trim_trim, if_neg hne]

theorem trimmed_trimmed? {s : Option String} {t : String} (h : trimmed? s = some t) : trimmed t = some t := by
  obtain ⟨r, _, hr⟩ := Option.bind_eq_some_iff.mp h
  exact trimmed_trimmed hr

@[simp] theorem trimmed?_trimmed? (s : Option String) : trimmed? (trimmed? s) = trimmed? s := by
  cases h : trimmed? s with
  | none => rfl
  | some t => exact trimmed_trimmed? h

example : trimmed " \tmain\n" = some "main" := by decide

end OpenClaw.Foundation.EcmaString
