import OpenClaw.Routing.KeySegments

/-! Normalised ids.

An id that is valid is put in lower case; any other is cleaned of characters that no id has and
of dashes at its ends, and then cut to length. The cut may leave a dash at the end, and an id
that begins with an underscore is never valid: cleaned again it loses that dash (`CutAtDash`).
All other ids are normalised to ids that stay as they are (`normalizedId_twice`). -/
namespace OpenClaw.Routing
open Foundation List
open Foundation.EcmaString (trim trimmed trimmed? lowerAscii)
open Cron (normalizeAgentId isValidAgentId isAgentIdChar collapseInvalid lowerCodes)

/-! ### What an id is made of -/

variable (value : Option String) (id : List Char)

/-- The id in lower case, without characters that no id has and dashes at its ends. -/
def cleanedId : List Char :=
  (((collapseInvalid false (id.flatMap lowerCodes)).dropWhile (· = '-')).reverse.dropWhile (· = '-')).reverse

def canonicalId : List Char :=
  if isValidAgentId id then id.map lowerAscii else (cleanedId id).take 64

/-- What the two normalisations have in common: an id that is empty or rejected becomes the
fallback. -/
def normalizedId (fallback : String) (rejects : String → Bool) (value : Option String) : String :=
  match trimmed? value with
  | none => fallback
  | some id =>
    let canonical := String.ofList (canonicalId id.toList)
    if canonical = "" || rejects canonical then fallback else canonical

/-- The id is cut behind a dash and begins with an underscore. -/
def CutAtDash : Prop :=
  ∃ id, trimmed? value = some id ∧ (cleanedId id.toList).head? = some '_' ∧ (cleanedId id.toList)[63]? = some '-'

theorem normalizeAgentId_eq :
    normalizeAgentId value = normalizedId DEFAULT_AGENT_ID (fun _ => false) value := by
  unfold normalizeAgentId normalizedId
  cases trimmed? value with
  | none => rfl
  | some id =>
    simp only [Bool.or_false, decide_eq_true_eq, String.ofList_eq_empty_iff]
    unfold canonicalId
    by_cases hvalid : isValidAgentId id.toList = true
    · rw [if_pos hvalid, if_pos hvalid, if_neg]
      intro h
      rw [map_eq_nil_iff.mp h] at hvalid
      cases hvalid
    · rw [if_neg hvalid, if_neg hvalid]
      rfl

theorem normalizeAccountId_eq :
    normalizeAccountId value = normalizedId DEFAULT_ACCOUNT_ID isBlockedObjectKey value := by
  unfold normalizeAccountId normalizedId
  cases trimmed? value with
  | none => rfl
  | some id =>
    have hcanonical : canonicalizeAccountId id = String.ofList (canonicalId id.toList) := by
      unfold canonicalizeAccountId canonicalId
      split <;> rfl
    simp only [normalizeCanonicalAccountId, hcanonical]
    split <;> rfl

/-! ### Canonical ids -/

theorem isValidAgentId_cons (first : Char) (rest : List Char) : isValidAgentId (first :: rest) = true ↔
    isAgentIdChar first = true ∧ first ≠ '_' ∧ first ≠ '-' ∧ (∀ c ∈ rest, isAgentIdChar c = true) ∧
      rest.length ≤ 63 := by
  simp [isValidAgentId, and_assoc]

theorem lowerAscii_ne {c d : Char} (hd : d = '-' ∨ d = '_') (h : c ≠ d) : lowerAscii c ≠ d := by
  intro heq
  rcases EcmaString.lowerAscii_cases c with ⟨-, hsame⟩ | ⟨hge, -, hsum⟩
  · exact h (hsame.symm.trans heq)
  · rw [heq] at hsum
    have hnat : d.toNat = 45 ∨ d.toNat = 95 := by rcases hd with rfl | rfl <;> decide
    omega

theorem cleanedId_eq :
    cleanedId id = ((collapseInvalid false (id.flatMap lowerCodes)).dropWhile (· = '-')).rdropWhile (· = '-') := rfl

theorem cleanedId_chars : ∀ c ∈ cleanedId id, IsIdChar c := fun c hc =>
  collapseInvalid_chars c ((dropWhile_sublist _).subset (( rdropWhile_prefix _ _).subset (cleanedId_eq id ▸ hc)))

theorem cleanedId_head : (cleanedId id).head? ≠ some '-' := by
  rw [ne_eq, ← singleton_prefix_iff_head?_eq_some, cleanedId_eq]
  intro h
  have hfirst := singleton_prefix_iff_head?_eq_some.mp (h.trans ( rdropWhile_prefix _ _))
  have hnot := head?_dropWhile_not (fun c => decide (c = '-')) (collapseInvalid false (id.flatMap lowerCodes))
  rw [hfirst] at hnot
  exact of_decide_eq_false hnot rfl

theorem cleanedId_last : (cleanedId id).getLast? ≠ some '-' := by
  intro h
  rw [cleanedId, getLast?_reverse] at h
  have hnot := head?_dropWhile_not (fun c => decide (c = '-'))
    ((collapseInvalid false (id.flatMap lowerCodes)).dropWhile (· = '-')).reverse
  rw [h] at hnot
  exact of_decide_eq_false hnot rfl

/-- Characters of ids are put in lower case and stay. -/
theorem collapse_of_chars {id : List Char} (h : ∀ c ∈ id, isAgentIdChar c = true) :
    collapseInvalid false (id.flatMap lowerCodes) = id.map lowerAscii := by
  induction id with
  | nil => rfl
  | cons c rest ih =>
    rw [forall_mem_cons] at h
    have hc := isIdChar_lowerAscii h.1
    have hnat := isIdChar_toNat hc
    have hcode : lowerCodes c = [lowerAscii c] := by
      rcases EcmaString.lowerAscii_cases c with ⟨-, hsame⟩ | ⟨-, hle, -⟩
      · rw [hsame] at hnat
        rw [lowerCodes, if_neg (by omega), if_neg (by omega)]
      · rw [lowerCodes, if_neg (by omega), if_neg (by omega)]
    rw [flatMap_cons, hcode, singleton_append, collapseInvalid, if_pos (by simp [hc.1, hc.2]), ih h.2,
      map_cons]

theorem map_lowerAscii {id : List Char} (h : ∀ c ∈ id, IsIdChar c) : id.map lowerAscii = id := by
  have hsame : ∀ c ∈ id, lowerAscii c = (fun x => x) c := fun c hc => (h c hc).2
  rw [map_congr_left hsame, map_id']

theorem cleanedId_of_chars {id : List Char} (h : ∀ c ∈ id, IsIdChar c) (hhead : id.head? ≠ some '-') :
    cleanedId id = id.rdropWhile (· = '-') := by
  rw [cleanedId_eq, collapse_of_chars fun c hc => (h c hc).1, map_lowerAscii h]
  cases id with
  | nil => rfl
  | cons c rest => rw [dropWhile_cons_of_neg (by simpa using hhead)]

theorem canonicalId_chars : ∀ c ∈ canonicalId id, IsIdChar c := by
  unfold canonicalId
  split
  · rename_i hvalid
    intro c hc
    obtain ⟨x, hx, rfl⟩ := mem_map.mp hc
    exact isIdChar_lowerAscii (isValidAgentId_chars hvalid x hx)
  · exact fun c hc => cleanedId_chars id c (mem_of_mem_take hc)

theorem canonicalId_bounds : (canonicalId id).length ≤ 64 ∧ (canonicalId id).head? ≠ some '-' := by
  unfold canonicalId
  split
  · rename_i hvalid
    cases id with
    | nil => exact ⟨by simp, by simp⟩
    | cons first rest =>
      obtain ⟨-, -, hdash, -, hlen⟩ := (isValidAgentId_cons first rest).mp hvalid
      refine ⟨?_, fun h => lowerAscii_ne (.inl rfl) hdash (by simpa using h)⟩
      rw [length_map, length_cons]
      omega
  · refine ⟨length_take_le _ _, ?_⟩
    rw [head?_take, if_neg (by decide)]
    exact cleanedId_head id

/-- **A canonical id ends with a dash behind an underscore in front exactly if it is cut there.** -/
theorem canonicalId_cut :
    (canonicalId id).head? = some '_' ∧ (canonicalId id).getLast? = some '-' ↔
      (cleanedId id).head? = some '_' ∧ (cleanedId id)[63]? = some '-' := by
  unfold canonicalId
  split
  · rename_i hvalid
    cases id with
    | nil => cases hvalid
    | cons first rest =>
      obtain ⟨hfirst, hunder, hdash, hrest, -⟩ := (isValidAgentId_cons first rest).mp hvalid
      have hne := lowerAscii_ne (.inr rfl) hunder
      have hclean : cleanedId (first :: rest) <+: (first :: rest).map lowerAscii := by
        rw [cleanedId_eq, collapse_of_chars (forall_mem_cons.mpr ⟨hfirst, hrest⟩), map_cons,
          dropWhile_cons_of_neg (by simpa using lowerAscii_ne (.inl rfl) hdash)]
        exact rdropWhile_prefix _ _
      refine iff_of_false (fun h => hne (by simpa using h.1)) fun h => hne ?_
      have hhead := (singleton_prefix_iff_head?_eq_some.mpr h.1).trans hclean
      simpa using singleton_prefix_iff_head?_eq_some.mp hhead
  · rw [head?_take, if_neg (by decide)]
    refine and_congr_right fun _ => ?_
    by_cases hlen : 64 ≤ (cleanedId id).length
    · rw [getLast?_take, if_neg (by decide), getElem?_eq_getElem (by omega), Option.some_or]
    · rw [take_of_length_le (by omega), getElem?_eq_none (by omega)]
      exact iff_of_false (cleanedId_last id) (by simp)

/-- **An id in canonical form stays as it is unless it begins with an underscore and ends with a
dash.** -/
theorem canonicalId_eq_self {id : List Char} (hchars : ∀ c ∈ id, IsIdChar c) (hne : id ≠ []) (hlen : id.length ≤ 64)
    (hhead : id.head? ≠ some '-') : canonicalId id = id ↔ ¬ (id.head? = some '_' ∧ id.getLast? = some '-') := by
  obtain ⟨first, rest, rfl⟩ := exists_cons_of_ne_nil hne
  have hdash : first ≠ '-' := by simpa using hhead
  by_cases hunder : first = '_'
  · -- only the fallback takes such an id
    subst hunder
    have hinvalid : isValidAgentId ('_' :: rest) = false := rfl
    rw [canonicalId, hinvalid, if_neg Bool.false_ne_true, cleanedId_of_chars hchars hhead,
      take_of_length_le (( rdropWhile_prefix _ _).length_le.trans hlen), rdropWhile_eq_self_iff]
    rw [getLast?_eq_getLast_of_ne_nil hne]
    constructor
    · exact fun h hlast => h hne (by simpa using hlast.2)
    · exact fun h _ hlast => h ⟨rfl, by simpa using hlast⟩
  · have hvalid : isValidAgentId (first :: rest) = true := by
      rw [forall_mem_cons] at hchars
      rw [length_cons] at hlen
      exact (isValidAgentId_cons first rest).mpr
        ⟨hchars.1.1, hunder, hdash, fun c hc => (hchars.2 c hc).1, by omega⟩
    rw [canonicalId, if_pos hvalid, map_lowerAscii hchars]
    exact iff_of_true rfl fun h => hunder (by simpa using h.1)

/-! ### Normalised ids -/

/-- What an id is that is used as a directory, a map key or a part of a session key. -/
structure IsNormalId (id : String) : Prop where
  nonempty : id.toList ≠ []
  length : id.toList.length ≤ 64
  chars : ∀ c ∈ id.toList, IsIdChar c
  head : id.toList.head? ≠ some '-'

theorem IsNormalId.trim {id : String} (h : IsNormalId id) : trim id = id := by
  rw [EcmaString.trim, EcmaString.trimChars_eq_self (fun c hc => isIdChar_not_white (h.chars c (mem_of_head? hc)))
    fun c hc => isIdChar_not_white (h.chars c (mem_of_getLast? hc)), String.ofList_toList]

theorem IsNormalId.trimmed? {id : String} (h : IsNormalId id) : trimmed? (some id) = some id := by
  have hid : id ≠ "" := fun hnil => h.nonempty (String.toList_eq_nil_iff.mpr hnil)
  simp [EcmaString.trimmed?, trimmed, h.trim, hid]

section Normalize
variable {fallback : String} {rejects : String → Bool}

theorem normalizedId_isNormalId (hfallback : IsNormalId fallback) (value : Option String) :
    IsNormalId (normalizedId fallback rejects value) := by
  unfold normalizedId
  split
  · exact hfallback
  · rename_i id _
    dsimp only
    split_ifs with hrejected
    · exact hfallback
    · rw [Bool.or_eq_true, not_or, decide_eq_true_eq] at hrejected
      obtain ⟨hlen, hhead⟩ := canonicalId_bounds id.toList
      rw [← @String.toList_ofList (canonicalId id.toList)] at hlen hhead
      refine ⟨fun hnil => hrejected.1 (String.toList_eq_nil_iff.mp hnil), hlen, fun c hc => ?_, hhead⟩
      exact canonicalId_chars id.toList c (by rwa [String.toList_ofList] at hc)

theorem normalizedId_not_rejected (hfallback : rejects fallback = false) (value : Option String) :
    rejects (normalizedId fallback rejects value) = false := by
  unfold normalizedId
  split
  · exact hfallback
  · dsimp only
    split_ifs with hrejected
    · exact hfallback
    · rw [Bool.or_eq_true, not_or] at hrejected
      exact Bool.eq_false_iff.mpr hrejected.2

/-- The id is cut behind a dash exactly if it was. -/
theorem normalizedId_cut (hfallback : fallback.toList.getLast? ≠ some '-')
    (hrejects : ∀ s, rejects s = true → s.toList.getLast? ≠ some '-') (value : Option String) :
    (normalizedId fallback rejects value).toList.head? = some '_' ∧
      (normalizedId fallback rejects value).toList.getLast? = some '-' ↔ CutAtDash value := by
  unfold normalizedId CutAtDash
  cases trimmed? value with
  | none => exact iff_of_false (fun h => hfallback h.2) fun ⟨_, h, _⟩ => nomatch h
  | some id =>
    have hcut := canonicalId_cut id.toList
    have hexists : (∃ i, some id = some i ∧ (cleanedId i.toList).head? = some '_' ∧ (cleanedId i.toList)[63]? = some '-') ↔
        (cleanedId id.toList).head? = some '_' ∧ (cleanedId id.toList)[63]? = some '-' := by simp
    rw [hexists, ← hcut]
    dsimp only
    split_ifs with hrejected
    · refine iff_of_false (fun h => hfallback h.2) fun h => ?_
      rw [Bool.or_eq_true, decide_eq_true_eq, String.ofList_eq_empty_iff] at hrejected
      rcases hrejected with hnil | hrejected
      · rw [hnil] at h
        cases h.1
      · exact hrejects _ hrejected (by rw [String.toList_ofList]; exact h.2)
    · rw [String.toList_ofList]

/-- **A normalised id stays as it is unless it begins with an underscore and ends with a dash.** -/
theorem normalizedId_twice (hfallback : IsNormalId fallback) (hlast : fallback.toList.getLast? ≠ some '-')
    (haccepted : rejects fallback = false) (value : Option String) :
    normalizedId fallback rejects (some (normalizedId fallback rejects value)) = normalizedId fallback rejects value ↔
      ¬ ((normalizedId fallback rejects value).toList.head? = some '_' ∧
        (normalizedId fallback rejects value).toList.getLast? = some '-') := by
  have hnormal := @normalizedId_isNormalId _ rejects hfallback value
  have hkept := @normalizedId_not_rejected _ rejects haccepted value
  generalize normalizedId fallback rejects value = id at hnormal hkept
  have hself := canonicalId_eq_self hnormal.chars hnormal.nonempty hnormal.length hnormal.head
  rw [← hself, normalizedId, hnormal.trimmed?]
  dsimp only
  constructor
  · intro h
    split_ifs at h with hrejected
    · -- the id is the fallback, which ends with no dash
      rw [hself]
      exact fun hcut => hlast (h ▸ hcut.2)
    · rw [← String.toList_inj, String.toList_ofList] at h
      exact h
  · intro h
    have hid : id ≠ "" := fun hnil => hnormal.nonempty (String.toList_eq_nil_iff.mpr hnil)
    rw [h, String.ofList_toList, hkept, if_neg (by simpa using hid)]

end Normalize

theorem isBlockedObjectKey_last {s : String} (h : isBlockedObjectKey s = true) : s.toList.getLast? ≠ some '-' := by
  have hmem : s ∈ ["__proto__", "prototype", "constructor"] := of_decide_eq_true h
  simp only [mem_cons, not_mem_nil, or_false] at hmem
  rcases hmem with rfl | rfl | rfl <;> decide

theorem isNormalId_main : IsNormalId DEFAULT_AGENT_ID := ⟨by decide, by decide, isIdChar_of_all (by decide), by decide⟩

theorem isNormalId_default : IsNormalId DEFAULT_ACCOUNT_ID :=
  ⟨by decide, by decide, isIdChar_of_all (by decide), by decide⟩

theorem normalizeAgentId_isNormalId : IsNormalId (normalizeAgentId value) :=
  normalizeAgentId_eq value ▸ normalizedId_isNormalId isNormalId_main value

theorem normalizeAccountId_isNormalId : IsNormalId (normalizeAccountId value) :=
  normalizeAccountId_eq value ▸ normalizedId_isNormalId isNormalId_default value

/-- **Ids are normalised to ids, no account id to a prototype key, and each stays as it is unless
it was cut behind a dash.** -/
theorem normalized_ids_canonical (value : Option String) :
    IsNormalId (normalizeAgentId value) ∧ IsNormalId (normalizeAccountId value) ∧
      isBlockedObjectKey (normalizeAccountId value) = false ∧
      (normalizeAgentId (some (normalizeAgentId value)) = normalizeAgentId value ↔ ¬ CutAtDash value) ∧
      (normalizeAccountId (some (normalizeAccountId value)) = normalizeAccountId value ↔ ¬ CutAtDash value) := by
  refine ⟨normalizeAgentId_isNormalId value, normalizeAccountId_isNormalId value, ?_, ?_, ?_⟩
  · exact normalizeAccountId_eq value ▸ normalizedId_not_rejected (by decide) value
  · rw [normalizeAgentId_eq, normalizeAgentId_eq, normalizedId_twice isNormalId_main (by decide) rfl]
    exact not_congr (normalizedId_cut (by decide) (by simp) value)
  · rw [normalizeAccountId_eq, normalizeAccountId_eq, normalizedId_twice isNormalId_default (by decide) (by decide)]
    exact not_congr (normalizedId_cut (by decide) (fun _ => isBlockedObjectKey_last) value)

/-- The 64th character of this id is a dash, and the next normalisation takes it off. -/
theorem cut_id_not_canonical :
    let id := String.ofList ('_' :: List.replicate 62 'a' ++ ['-', 'b'])
    let cut := String.ofList ('_' :: List.replicate 62 'a' ++ ['-'])
    let next := String.ofList ('_' :: List.replicate 62 'a')
    normalizeAgentId (some id) = cut ∧ normalizeAgentId (some cut) = next ∧
      normalizeAccountId (some id) = cut ∧ normalizeAccountId (some cut) = next ∧ cut ≠ next :=
  ⟨by decide, by decide, by decide, by decide, by decide⟩

end OpenClaw.Routing
