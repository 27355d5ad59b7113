import OpenClaw.Foundation.Splits
import OpenClaw.Routing.SessionKey

/-! The parts a session key is put together from.

Ids are of letters, digits, dashes and underscores; channels have no colon where the
channel has none; the id of a peer comes last, as it is but for case. `sessionTail` is
what follows the agent in a key. -/
namespace OpenClaw.Routing
open Foundation
open Foundation.EcmaString (trim trimmed trimmed? trimChars lowerAscii isWhiteSpace)
open Cron (normalizeAgentId isValidAgentId isAgentIdChar collapseInvalid lowerCodes)

/-! ### Ids -/

/-- A character of an id in lower case. -/
def IsIdChar (c : Char) : Prop := isAgentIdChar c = true ∧ lowerAscii c = c

theorem lowerAscii_lowerAscii (c : Char) : lowerAscii (lowerAscii c) = lowerAscii c := by
  rcases EcmaString.lowerAscii_cases c with ⟨-, h⟩ | ⟨hge, hle, h⟩
  · rw [h, h]
  · rcases EcmaString.lowerAscii_cases (lowerAscii c) with ⟨-, h'⟩ | ⟨-, hle', -⟩
    · exact h'
    · omega

theorem isIdChar_lowerAscii {c : Char} (h : isAgentIdChar c = true) : IsIdChar (lowerAscii c) := by
  refine ⟨?_, lowerAscii_lowerAscii c⟩
  rw [isAgentIdChar] at h ⊢
  rwa [lowerAscii_lowerAscii]

theorem isIdChar_toNat {c : Char} (h : IsIdChar c) : c.toNat = 45 ∨ 48 ≤ c.toNat ∧ c.toNat ≤ 57 ∨ c.toNat = 95 ∨
    97 ≤ c.toNat ∧ c.toNat ≤ 122 := by
  obtain ⟨hchar, hlower⟩ := h
  rw [isAgentIdChar, hlower] at hchar
  simp only [Bool.or_eq_true, Bool.and_eq_true, decide_eq_true_eq] at hchar
  rcases hchar with ((⟨hge, hle⟩ | hdigit) | rfl) | rfl
  · exact .inr (.inr (.inr ⟨hge, hle⟩))
  · have hdigit' : 48 ≤ c.val ∧ c.val ≤ 57 := by simpa [Char.isDigit] using hdigit
    exact .inr (.inl hdigit')
  · exact .inr (.inr (.inl rfl))
  · exact .inl rfl

theorem isIdChar_ne_colon {c : Char} (h : IsIdChar c) : c ≠ ':' := by
  rintro rfl
  have hcolon : ':'.toNat = 58 := rfl
  have := isIdChar_toNat h
  omega

theorem isIdChar_not_white {c : Char} (h : IsIdChar c) : isWhiteSpace c = false := by
  by_contra hwhite
  have := isIdChar_toNat h
  have := EcmaString.isWhiteSpace_toNat (by simpa using hwhite : isWhiteSpace c = true)
  omega

theorem isIdChar_isLower {cases : CaseTables} {c : Char} (h : IsIdChar c) : cases.IsLower c := by
  have := isIdChar_toNat h
  exact CaseTables.isLower_of_ascii (by omega) h.2

def isPlainAscii (c : Char) : Bool := decide (c.toNat < 128) && decide (lowerAscii c = c)

theorem isLower_of_plain {cases : CaseTables} {l : List Char} (h : l.all isPlainAscii = true) : ∀ c ∈ l, cases.IsLower c := by
  intro c hc
  have hplain := List.all_eq_true.mp h c hc
  rw [isPlainAscii, Bool.and_eq_true, decide_eq_true_iff, decide_eq_true_iff] at hplain
  exact CaseTables.isLower_of_ascii hplain.1 hplain.2

/-- A text all of whose characters are seen to be of an id. -/
theorem isIdChar_of_all {l : List Char} (h : l.all (fun c => isAgentIdChar c && decide (lowerAscii c = c)) = true) :
    ∀ c ∈ l, IsIdChar c := by
  intro c hc
  have hid := List.all_eq_true.mp h c hc
  rw [Bool.and_eq_true, decide_eq_true_iff] at hid
  exact hid

theorem collapseInvalid_chars {inRun : Bool} {l : List Char} : ∀ c ∈ collapseInvalid inRun l, IsIdChar c := by
  have hdash : IsIdChar '-' := ⟨by decide, by decide⟩
  induction l generalizing inRun with
  | nil => simp [collapseInvalid]
  | cons x rest ih =>
    intro c hc
    unfold collapseInvalid at hc
    split_ifs at hc with hvalid
    · rcases List.mem_cons.mp hc with rfl | hc
      · simpa [IsIdChar] using hvalid
      · exact ih c hc
    · exact ih c hc
    · rcases List.mem_cons.mp hc with rfl | hc
      · exact hdash
      · exact ih c hc

theorem isValidAgentId_chars {l : List Char} (h : isValidAgentId l = true) : ∀ c ∈ l, isAgentIdChar c = true := by
  cases l with
  | nil => cases h
  | cons first rest =>
    simp only [isValidAgentId, Bool.and_eq_true, List.all_eq_true] at h
    intro c hc
    rcases List.mem_cons.mp hc with rfl | hc
    · exact h.1.1.1.1
    · exact h.1.2 c hc

/-! ### Channels -/

section Channels
variable {cases : CaseTables}

theorem mem_of_mem_trim {s : String} {c : Char} (h : c ∈ (trim s).toList) : c ∈ s.toList := by
  rw [trim, String.toList_ofList] at h
  obtain ⟨pre, post, hsplit, -⟩ := EcmaString.trimChars_split s.toList
  rw [hsplit]
  exact List.mem_append_left _ (List.mem_append_right _ h)

theorem channelToken_no_colon {channel : String} (h : ':' ∉ channel.toList) :
    ':' ∉ (channelToken cases (some channel)).toList := by
  simp only [channelToken]
  split_ifs
  · decide
  · rw [normalizeToken, CaseTables.toLowerCase, String.toList_ofList]
    exact CaseTables.colon_not_mem_toLowerChars fun hc => h (mem_of_mem_trim hc)

theorem channelToken_ne_empty (channel : Option String) : (channelToken cases channel).toList ≠ [] := by
  simp only [channelToken]
  split_ifs with h
  · decide
  · exact fun hnil => h (String.toList_eq_nil_iff.mp hnil)

theorem channelToken_isLower (channel : Option String) : ∀ c ∈ (channelToken cases channel).toList, cases.IsLower c := by
  simp only [channelToken]
  split_ifs
  · intro c hc
    exact isLower_of_plain (by decide) c hc
  · rw [normalizeToken, CaseTables.toLowerCase, String.toList_ofList]
    exact CaseTables.toLowerChars_isLower _

end Channels

end OpenClaw.Routing
