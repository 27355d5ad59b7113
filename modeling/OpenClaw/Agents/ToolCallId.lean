import OpenClaw.Agents.Transcript

/-! Tool call ids for providers that take only letters and digits.

An id keeps its letters and digits, cut to the length of the mode. Where that id is used,
candidates with a hash and with a number are tried; only when all of them are used, the id
is stamped with the time, and nothing checks whether that one is used too. -/
namespace OpenClaw.Agents

open List

inductive ToolCallIdMode where
  | strict
  | strict9
  deriving DecidableEq

def hexDigits : List Char := "0123456789abcdef".toList

/-- What id making takes from outside; `dateNow n` is the clock when `n` ids are used. -/
structure ToolIdHost where
  sha256Hex : String → List Char
  sha256Hex_length : ∀ text, (sha256Hex text).length = 64
  sha256Hex_digits : ∀ text, ∀ c ∈ sha256Hex text, c ∈ hexDigits
  dateNow : Nat → Nat

/-- `slice(0, n)`. -/
def slice (s : String) (n : Nat) : String := String.ofList (s.toList.take n)

/-- `replace(/[^a-zA-Z0-9]/g, "")`. -/
def alphanumericOnly (id : String) : String := String.ofList (id.toList.filter Char.isAlphanum)

/-- `toolu_`, and at least one letter, digit or underscore. -/
def isNativeAnthropicToolUseId (id : String) : Bool :=
  "toolu_".toList.isPrefixOf id.toList && (id.toList.drop 6).length > 0 &&
    (id.toList.drop 6).all fun c => c.isAlphanum || c = '_'

def isValidCloudCodeAssistToolId (mode : ToolCallIdMode) (id : String) : Bool :=
  match mode with
  | .strict9 => id.toList.length = 9 && id.toList.all Char.isAlphanum
  | .strict => id.toList.length > 0 && id.toList.all Char.isAlphanum

section Ids
variable (host : ToolIdHost)

def shortHash (text : String) (length : Nat) : String := String.ofList ((host.sha256Hex text).take length)

def strict9Len : Nat := 9

def maxLen : Nat := 40

def sanitizeToolCallId (mode : ToolCallIdMode) (id : String) : String :=
  match mode with
  | .strict9 =>
    if id = "" then "defaultid"
    else if (alphanumericOnly id).length ≥ strict9Len then slice (alphanumericOnly id) strict9Len
    else if (alphanumericOnly id).length > 0 then shortHash host (alphanumericOnly id) strict9Len
    else shortHash host "sanitized" strict9Len
  | .strict =>
    if id = "" then "defaulttoolid"
    else if (alphanumericOnly id).length > 0 then alphanumericOnly id else "sanitizedtoolid"

/-- A base with a number, or with the time, after it. -/
def suffixed (base suffix : String) : String := slice base (maxLen - suffix.length) ++ suffix

/-- The base of a strict id, clipped for a hash. -/
def hashedBase (id base : String) : String :=
  let hash := shortHash host id 8
  let maxBaseLen := maxLen - hash.length
  (if base.length > maxBaseLen then slice base maxBaseLen else base) ++ hash

/-- The id that is made without a look at the used ones. -/
def stampedToolId (mode : ToolCallIdMode) (id : String) (now : Nat) : String :=
  match mode with
  | .strict9 => shortHash host (id ++ ":" ++ toString now) strict9Len
  | .strict => suffixed (hashedBase host id (slice (sanitizeToolCallId host .strict id) maxLen)) ("t" ++ toString now)

def makeUniqueToolId (mode : ToolCallIdMode) (id : String) (used : List String) : String :=
  match mode with
  | .strict9 =>
    let base := sanitizeToolCallId host .strict9 id
    let candidate := if base.length ≥ strict9Len then slice base strict9Len else ""
    if candidate ≠ "" ∧ candidate ∉ used then candidate
    else
      match ((List.range 1000).map fun i => shortHash host (id ++ ":" ++ toString i) strict9Len).find? (· ∉ used) with
      | some hashed => hashed
      | none => stampedToolId host .strict9 id (host.dateNow used.length)
  | .strict =>
    let base := slice (sanitizeToolCallId host .strict id) maxLen
    if base ∉ used then base
    else
      let candidate := hashedBase host id base
      if candidate ∉ used then candidate
      else
        match ((List.range' 2 998).map fun i => suffixed candidate ("x" ++ toString i)).find? (· ∉ used) with
        | some next => next
        | none => stampedToolId host .strict id (host.dateNow used.length)

/-- The ids that are tried, in order. -/
def toolIdCandidates (mode : ToolCallIdMode) (id : String) : List String :=
  match mode with
  | .strict9 =>
    slice (sanitizeToolCallId host .strict9 id) strict9Len ::
      (List.range 1000).map fun i => shortHash host (id ++ ":" ++ toString i) strict9Len
  | .strict =>
    let base := slice (sanitizeToolCallId host .strict id) maxLen
    let candidate := hashedBase host id base
    base :: candidate :: (List.range' 2 998).map fun i => suffixed candidate ("x" ++ toString i)

/-! ### Letters and digits -/

def Alphanumeric (s : String) : Prop := s.toList ≠ [] ∧ ∀ c ∈ s.toList, c.isAlphanum = true

theorem Alphanumeric.of_all {s : String} (hne : s.toList ≠ []) (hall : s.toList.all Char.isAlphanum = true) :
    Alphanumeric s := ⟨hne, all_eq_true.mp hall⟩

theorem Alphanumeric.append {s t : String} (hs : ∀ c ∈ s.toList, c.isAlphanum = true) (ht : Alphanumeric t) :
    Alphanumeric (s ++ t) := by
  rw [Alphanumeric, String.toList_append]
  refine ⟨append_ne_nil_of_right_ne_nil _ ht.1, fun c hc => ?_⟩
  rcases mem_append.mp hc with hc | hc
  · exact hs c hc
  · exact ht.2 c hc

theorem alphanum_slice {s : String} (h : ∀ c ∈ s.toList, c.isAlphanum = true) (n : Nat) :
    ∀ c ∈ (slice s n).toList, c.isAlphanum = true := by
  intro c hc
  rw [slice, String.toList_ofList] at hc
  exact h c (mem_of_mem_take hc)

theorem alphanumeric_slice {s : String} (h : Alphanumeric s) {n : Nat} (hn : 0 < n) : Alphanumeric (slice s n) := by
  refine ⟨?_, alphanum_slice h.2 n⟩
  rw [slice, String.toList_ofList, ne_eq, take_eq_nil_iff, not_or]
  exact ⟨Nat.ne_of_gt hn, h.1⟩

theorem alphanumeric_shortHash (text : String) {n : Nat} (hn : 0 < n) : Alphanumeric (shortHash host text n) := by
  rw [Alphanumeric, shortHash, String.toList_ofList]
  constructor
  · rw [ne_eq, take_eq_nil_iff, not_or]
    refine ⟨Nat.ne_of_gt hn, fun hnil => ?_⟩
    have := host.sha256Hex_length text
    rw [hnil] at this
    cases this
  · intro c hc
    have hdigit := host.sha256Hex_digits text c (mem_of_mem_take hc)
    have hall : hexDigits.all Char.isAlphanum = true := by decide
    exact all_eq_true.mp hall c hdigit

theorem alphanum_toString (n : Nat) : ∀ c ∈ (toString n).toList, c.isAlphanum = true := by
  intro c hc
  rw [Nat.toString_eq_repr, Nat.toList_repr] at hc
  rw [Char.isAlphanum, Nat.isDigit_of_mem_toDigits (by decide) (by decide) hc, Bool.or_true]

theorem alphanumeric_numbered {letter : String} (h : Alphanumeric letter) (n : Nat) :
    Alphanumeric (letter ++ toString n) := by
  rw [Alphanumeric, String.toList_append]
  refine ⟨append_ne_nil_of_left_ne_nil h.1 _, fun c hc => ?_⟩
  rcases mem_append.mp hc with hc | hc
  · exact h.2 c hc
  · exact alphanum_toString n c hc

theorem alphanumeric_suffixed {base suffix : String} (hbase : Alphanumeric base) (hsuffix : Alphanumeric suffix) :
    Alphanumeric (suffixed base suffix) := .append (alphanum_slice hbase.2 _) hsuffix

theorem alphanumeric_hashedBase (id : String) {base : String} (h : Alphanumeric base) :
    Alphanumeric (hashedBase host id base) := by
  refine .append ?_ (alphanumeric_shortHash host id (by decide))
  split
  · exact alphanum_slice h.2 _
  · exact h.2

theorem alphanumericOnly_alphanumeric {id : String} (h : (alphanumericOnly id).length > 0) :
    Alphanumeric (alphanumericOnly id) := by
  refine ⟨fun hnil => ?_, fun c hc => ?_⟩
  · rw [← String.length_toList, hnil] at h
    exact absurd h (by decide)
  · rw [alphanumericOnly, String.toList_ofList] at hc
    exact (mem_filter.mp hc).2

theorem alphanumeric_sanitize (mode : ToolCallIdMode) (id : String) : Alphanumeric (sanitizeToolCallId host mode id) := by
  cases mode with
  | strict9 =>
    unfold sanitizeToolCallId
    dsimp only
    by_cases hid : id = ""
    · rw [if_pos hid]
      exact .of_all (by decide) (by decide)
    rw [if_neg hid]
    by_cases hlong : (alphanumericOnly id).length ≥ strict9Len
    · rw [if_pos hlong]
      exact alphanumeric_slice (alphanumericOnly_alphanumeric (Nat.lt_of_lt_of_le (by decide) hlong)) (by decide)
    rw [if_neg hlong]
    by_cases hsome : (alphanumericOnly id).length > 0
    · rw [if_pos hsome]
      exact alphanumeric_shortHash host _ (by decide)
    · rw [if_neg hsome]
      exact alphanumeric_shortHash host _ (by decide)
  | strict =>
    unfold sanitizeToolCallId
    dsimp only
    by_cases hid : id = ""
    · rw [if_pos hid]
      exact .of_all (by decide) (by decide)
    rw [if_neg hid]
    by_cases hsome : (alphanumericOnly id).length > 0
    · rw [if_pos hsome]
      exact alphanumericOnly_alphanumeric hsome
    · rw [if_neg hsome]
      exact .of_all (by decide) (by decide)

/-! ### Valid ids -/

theorem valid_strict {id : String} (h : Alphanumeric id) : isValidCloudCodeAssistToolId .strict id = true := by
  rw [isValidCloudCodeAssistToolId, Bool.and_eq_true, decide_eq_true_iff, all_eq_true]
  exact ⟨length_pos_of_ne_nil h.1, h.2⟩

theorem valid_strict9 {id : String} (h : Alphanumeric id) (hlength : id.toList.length = 9) :
    isValidCloudCodeAssistToolId .strict9 id = true := by
  rw [isValidCloudCodeAssistToolId, Bool.and_eq_true, decide_eq_true_iff, all_eq_true]
  exact ⟨hlength, h.2⟩

theorem valid_ne_empty {mode : ToolCallIdMode} {id : String} (h : isValidCloudCodeAssistToolId mode id = true) :
    id ≠ "" := by
  rintro rfl
  cases mode <;> exact absurd h (by decide)

theorem native_ne_empty {id : String} (h : isNativeAnthropicToolUseId id = true) : id ≠ "" := by
  rintro rfl
  exact absurd h (by decide)

theorem length_shortHash (text : String) : (shortHash host text strict9Len).toList.length = 9 := by
  rw [shortHash, String.toList_ofList, length_take, host.sha256Hex_length]
  rfl

theorem length_slice9 {s : String} (h : s.length ≥ strict9Len) : (slice s strict9Len).toList.length = 9 := by
  rw [slice, String.toList_ofList, length_take, String.length_toList]
  exact Nat.min_eq_left h

theorem length_sanitize9 (id : String) : (sanitizeToolCallId host .strict9 id).length = 9 := by
  rw [← String.length_toList]
  unfold sanitizeToolCallId
  dsimp only
  by_cases hid : id = ""
  · rw [if_pos hid]
    rfl
  rw [if_neg hid]
  by_cases hlong : (alphanumericOnly id).length ≥ strict9Len
  · rw [if_pos hlong, length_slice9 hlong]
  rw [if_neg hlong]
  by_cases hsome : (alphanumericOnly id).length > 0
  · rw [if_pos hsome, length_shortHash]
  · rw [if_neg hsome, length_shortHash]

theorem valid_hash9 (text : String) : isValidCloudCodeAssistToolId .strict9 (shortHash host text strict9Len) = true :=
  valid_strict9 (alphanumeric_shortHash host text (by decide)) (length_shortHash host text)

theorem valid_candidate {mode : ToolCallIdMode} {id candidate : String} (h : candidate ∈ toolIdCandidates host mode id) :
    isValidCloudCodeAssistToolId mode candidate = true := by
  cases mode with
  | strict9 =>
    rcases mem_cons.mp h with rfl | h
    · exact valid_strict9 (alphanumeric_slice (alphanumeric_sanitize host .strict9 id) (by decide))
        (length_slice9 (Nat.le_of_eq (length_sanitize9 host id).symm))
    · obtain ⟨i, -, rfl⟩ := mem_map.mp h
      exact valid_hash9 host _
  | strict =>
    have hbase := alphanumeric_slice (alphanumeric_sanitize host .strict id) (by decide : 0 < maxLen)
    rcases mem_cons.mp h with rfl | h
    · exact valid_strict hbase
    rcases mem_cons.mp h with rfl | h
    · exact valid_strict (alphanumeric_hashedBase host id hbase)
    · obtain ⟨i, -, rfl⟩ := mem_map.mp h
      exact valid_strict (alphanumeric_suffixed (alphanumeric_hashedBase host id hbase)
        (alphanumeric_numbered (.of_all (by decide) (by decide)) i))

section
variable (mode : ToolCallIdMode) (id : String)
include mode id

theorem valid_stamped (now : Nat) :
    isValidCloudCodeAssistToolId mode (stampedToolId host mode id now) = true := by
  cases mode with
  | strict9 => exact valid_hash9 host _
  | strict =>
    have hbase := alphanumeric_slice (alphanumeric_sanitize host .strict id) (by decide : 0 < maxLen)
    exact valid_strict (alphanumeric_suffixed (alphanumeric_hashedBase host id hbase)
      (alphanumeric_numbered (.of_all (by decide) (by decide)) now))

/-- The first candidate that is not used, or the stamped id. -/
theorem makeUniqueToolId_eq (used : List String) :
    makeUniqueToolId host mode id used = ((toolIdCandidates host mode id).find? (· ∉ used)).getD
      (stampedToolId host mode id (host.dateNow used.length)) := by
  have hget (candidates : List String) (stamped : String) :
      (match candidates.find? (· ∉ used) with
        | some next => next
        | none => stamped) = (candidates.find? (· ∉ used)).getD stamped := by
    cases candidates.find? (· ∉ used) <;> rfl
  cases mode with
  | strict9 =>
    have hlength : (sanitizeToolCallId host .strict9 id).length ≥ strict9Len :=
      Nat.le_of_eq (length_sanitize9 host id).symm
    have hne : slice (sanitizeToolCallId host .strict9 id) strict9Len ≠ "" :=
      valid_ne_empty (@valid_candidate host .strict9 id _ (mem_cons_self ..))
    unfold makeUniqueToolId toolIdCandidates
    dsimp only
    rw [if_pos hlength, find?_cons, hget]
    by_cases hused : slice (sanitizeToolCallId host .strict9 id) strict9Len ∈ used
    · rw [if_neg fun h => h.2 hused, decide_eq_false (not_not_intro hused)]
    · rw [if_pos ⟨hne, hused⟩, decide_eq_true hused]
      rfl
  | strict =>
    unfold makeUniqueToolId toolIdCandidates
    dsimp only
    rw [find?_cons, find?_cons, hget]
    by_cases hbase : slice (sanitizeToolCallId host .strict id) maxLen ∈ used
    · rw [if_neg (not_not_intro hbase), decide_eq_false (not_not_intro hbase)]
      dsimp only
      by_cases hhashed : hashedBase host id (slice (sanitizeToolCallId host .strict id) maxLen) ∈ used
      · rw [if_neg (not_not_intro hhashed), decide_eq_false (not_not_intro hhashed)]
      · rw [if_pos hhashed, decide_eq_true hhashed]
        rfl
    · rw [if_pos hbase, decide_eq_true hbase]
      rfl

theorem valid_makeUnique (used : List String) :
    isValidCloudCodeAssistToolId mode (makeUniqueToolId host mode id used) = true := by
  rw [makeUniqueToolId_eq]
  cases h : (toolIdCandidates host mode id).find? (· ∉ used) with
  | none => exact valid_stamped host mode id _
  | some next => exact valid_candidate host (mem_of_find?_eq_some h)

/-- **An id is new**, or all candidates are used and it is stamped. -/
theorem makeUnique_new (used : List String) :
    ((∃ c ∈ toolIdCandidates host mode id, c ∉ used) ∧ makeUniqueToolId host mode id used ∉ used) ∨
      ((∀ c ∈ toolIdCandidates host mode id, c ∈ used) ∧
        makeUniqueToolId host mode id used = stampedToolId host mode id (host.dateNow used.length)) := by
  rw [makeUniqueToolId_eq]
  cases h : (toolIdCandidates host mode id).find? (· ∉ used) with
  | none =>
    refine .inr ⟨fun c hc => ?_, rfl⟩
    have hnot := find?_eq_none.mp h c hc
    rwa [decide_eq_true_iff, not_not] at hnot
  | some next =>
    have hnext : next ∉ used := of_decide_eq_true (find?_some h :)
    exact .inl ⟨⟨next, mem_of_find?_eq_some h, hnext⟩, hnext⟩

end

end Ids

end OpenClaw.Agents
