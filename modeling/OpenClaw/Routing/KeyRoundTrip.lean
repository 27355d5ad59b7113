import OpenClaw.Routing.CanonicalIds

/-! Taking session keys apart again.

A key is `agent`, the agent, and some more segments without colons, and last an id that
may have any (`PeerSession.last`). The parser drops empty segments, so a key comes out
as it went in when the last id has none (`Unbroken`); the agent comes out as it is
when its id is settled by normalising it (`Settled`); a thread id comes out when it
does not go on with a thread marker (`PlainThread`). -/
namespace OpenClaw.Routing
open Foundation List
open Foundation.EcmaString (trim trimmed trimmed? trimChars lowerAscii isWhiteSpace)
open Cron (normalizeAgentId isValidAgentId isAgentIdChar collapseInvalid lowerCodes)

/-! ### Segments -/

/-- Segments, and what comes after them, with colons between. -/
def joinSegments : List (List Char) → List Char → List Char
  | [], last => last
  | segment :: rest, last => segment ++ ':' :: joinSegments rest last

/-- No segment of the text is empty. -/
def Unbroken (l : List Char) : Prop := [] ∉ l.splitOn ':'

theorem splitOn_joinSegments {segments : List (List Char)} (h : ∀ s ∈ segments, ':' ∉ s) (last : List Char) :
    (joinSegments segments last).splitOn ':' = segments ++ last.splitOn ':' := by
  induction segments with
  | nil => rfl
  | cons s rest ih =>
    rw [joinSegments, splitOn_append_cons_self_of_not_mem (h s mem_cons_self),
      ih fun s' hs' => h s' (mem_cons_of_mem _ hs')]
    rfl

/-- Joining the segments that are not empty gives the text back when none is empty. -/
theorem intercalate_keyParts {l : List Char} (hne : l ≠ []) : [':'].intercalate (keyParts l) = l ↔ Unbroken l := by
  unfold Unbroken keyParts
  constructor
  · intro h hmem
    have hfree : ∀ s ∈ (l.splitOn ':').filter (· ≠ []), ':' ∉ s := by
      intro s hs hcolon
      have hsplit := mem_filter.mp hs
      exact not_mem_of_mem_splitOn hsplit.1 hcolon
    by_cases hparts : (l.splitOn ':').filter (· ≠ []) = []
    · rw [hparts] at h
      exact hne h.symm
    · have hsame := splitOn_intercalate ':' hfree hparts
      rw [h] at hsame
      have hin : ([] : List Char) ∈ (l.splitOn ':').filter (· ≠ []) := hsame ▸ hmem
      exact absurd rfl (of_decide_eq_true (mem_filter.mp hin).2)
  · intro h
    have hall : (l.splitOn ':').filter (· ≠ []) = l.splitOn ':' := by
      rw [filter_eq_self]
      intro s hs
      exact decide_eq_true fun hnil => h (hnil ▸ hs)
    rw [hall, intercalate_splitOn]

/-! ### The parts of a key -/

section Parts
variable (cases : CaseTables)

namespace PeerSession
variable (params : PeerSession)

/-- The scope of a direct chat that has an id to be told apart by. -/
def directScope : DmScope := if params.directPeerId cases = "" then .main else params.dmScope.getD .main

/-- The segments of a key after the agent and before the last id. -/
def segments : List String :=
  match params.peerKind.getD .direct with
  | .direct =>
    match params.directScope cases with
    | .main => []
    | .perPeer => ["direct"]
    | .perChannelPeer => [channelToken cases (some params.channel), "direct"]
    | .perAccountChannelPeer =>
      [channelToken cases (some params.channel), normalizeAccountId params.accountId, "direct"]
  | kind => [channelToken cases (some params.channel), kind.text]

/-- The id a key ends with. -/
def last : String :=
  match params.peerKind.getD .direct with
  | .direct => if params.directScope cases = .main then normalizeMainKey cases params.mainKey
    else params.directPeerId cases
  | _ => cases.toLowerCase ((trimmed? params.peerId).getD "unknown")

def agent : String := normalizeAgentId (some params.agentId)

/-- What follows the agent. -/
def tail : List Char := joinSegments ((params.segments cases).map String.toList) (params.last cases).toList

end PeerSession

variable {cases} {params : PeerSession}

theorem sessionKey_toList (params : PeerSession) : (buildAgentPeerSessionKey cases params).toList =
    "agent".toList ++ ':' :: (params.agent.toList ++ ':' :: params.tail cases) := by
  unfold buildAgentPeerSessionKey PeerSession.tail PeerSession.segments PeerSession.last PeerSession.directScope
  cases hkind : params.peerKind.getD .direct with
  | direct =>
    by_cases hpeer : params.directPeerId cases = ""
    · simp [hpeer, joinSegments, buildAgentMainSessionKey, PeerSession.agent]
    · cases hscope : params.dmScope.getD .main <;>
        simp [hpeer, joinSegments, buildAgentMainSessionKey, PeerSession.agent]
  | _ => simp [joinSegments, PeerSession.agent]

/-- An id as keys have it at the end: not empty, in lower case, and trimmed. -/
structure IsLast (cases : CaseTables) (l : List Char) : Prop where
  ne_nil : l ≠ []
  lower : ∀ c ∈ l, cases.IsLower c
  trimmed : trimChars l = l

theorem isLast_toLowerCase {s : String} (hne : s ≠ "") (htrim : trim s = s) :
    IsLast cases (cases.toLowerCase s).toList := by
  rw [CaseTables.toLowerCase, String.toList_ofList]
  have hchars : trimChars s.toList = s.toList := by
    have h := congrArg String.toList htrim
    rwa [trim, String.toList_ofList] at h
  exact ⟨fun h => hne (String.toList_eq_nil_iff.mp (CaseTables.toLowerChars_eq_nil.mp h)),
    CaseTables.toLowerChars_isLower _, CaseTables.trimChars_toLowerChars hchars⟩

theorem isLast_ascii {s : String} (hne : s.toList ≠ []) (hascii : s.toList.all isPlainAscii = true)
    (htrim : trimChars s.toList = s.toList) : IsLast cases s.toList :=
  ⟨hne, isLower_of_plain hascii, htrim⟩

theorem linked_trimmed {identityLinks : Option IdentityLinks} {channel : Option String} {peerId name : String}
    (h : resolveLinkedPeerId cases identityLinks channel peerId = some name) : name ≠ "" ∧ trim name = name := by
  unfold resolveLinkedPeerId at h
  cases hpeer : trimmed peerId with
  | none => simp [hpeer] at h
  | some peer =>
    simp only [hpeer] at h
    obtain ⟨⟨canonical, ids⟩, -, hname⟩ := exists_of_findSome?_eq_some h
    have htrimmed := (Option.filter_eq_some_iff.mp hname).1
    have hself := EcmaString.trimmed_trimmed htrimmed
    exact ⟨EcmaString.trimmed_ne_empty htrimmed, EcmaString.trim_of_trimmed hself⟩

theorem directPeerId_isLast (h : params.directPeerId cases ≠ "") : IsLast cases (params.directPeerId cases).toList := by
  unfold PeerSession.directPeerId at h ⊢
  dsimp only at h ⊢
  generalize hlinked : (if params.dmScope.getD .main = .main then none
    else resolveLinkedPeerId cases params.identityLinks (some params.channel) (trim (params.peerId.getD ""))) = linked
    at h ⊢
  have hid : ∀ s, cases.toLowerCase s ≠ "" → s ≠ "" := by
    rintro s hs rfl
    exact hs rfl
  refine isLast_toLowerCase (hid _ h) ?_
  cases linked with
  | none => exact EcmaString.trim_trim _
  | some name =>
    split_ifs at hlinked
    exact (linked_trimmed hlinked).2

theorem last_isLast (cases : CaseTables) (params : PeerSession) : IsLast cases (params.last cases).toList := by
  unfold PeerSession.last
  have hunknown : IsLast cases (cases.toLowerCase "unknown").toList :=
    isLast_toLowerCase (by decide) (by decide)
  have hgroup : IsLast cases (cases.toLowerCase ((trimmed? params.peerId).getD "unknown")).toList := by
    cases hpeer : trimmed? params.peerId with
    | none => exact hunknown
    | some peer =>
      have hself := EcmaString.trimmed_trimmed? hpeer
      exact isLast_toLowerCase (EcmaString.trimmed_ne_empty hself) (EcmaString.trim_of_trimmed hself)
  cases params.peerKind.getD .direct with
  | direct =>
    dsimp only
    split_ifs with hscope
    · unfold normalizeMainKey
      cases hmain : trimmed? params.mainKey with
      | none =>
        have hdefault : IsLast cases DEFAULT_MAIN_KEY.toList := isLast_ascii (by decide) (by decide) (by decide)
        exact hdefault
      | some key =>
        have hself := EcmaString.trimmed_trimmed? hmain
        exact isLast_toLowerCase (EcmaString.trimmed_ne_empty hself) (EcmaString.trim_of_trimmed hself)
    · refine directPeerId_isLast fun hpeer => hscope ?_
      rw [PeerSession.directScope, if_pos hpeer]
  | _ => exact hgroup

/-- A segment before the last: not empty, in lower case, and without colons. -/
structure IsSegment (cases : CaseTables) (l : List Char) : Prop where
  ne_nil : l ≠ []
  lower : ∀ c ∈ l, cases.IsLower c
  no_colon : ':' ∉ l

theorem isSegment_of_ascii {l : List Char} (hne : l ≠ []) (hascii : l.all isPlainAscii = true)
    (hcolon : ':' ∉ l) : IsSegment cases l :=
  ⟨hne, isLower_of_plain hascii, hcolon⟩

theorem isSegment_of_id {l : List Char} (hne : l ≠ []) (h : ∀ c ∈ l, IsIdChar c) : IsSegment cases l :=
  ⟨hne, fun c hc => isIdChar_isLower (h c hc), fun hc => isIdChar_ne_colon (h _ hc) rfl⟩

theorem segments_isSegment (h : ':' ∉ params.channel.toList) :
    ∀ s ∈ params.segments cases, IsSegment cases s.toList := by
  have hdirect : IsSegment cases "direct".toList := isSegment_of_ascii (by decide) (by decide) (by decide)
  have hchannel : IsSegment cases (channelToken cases (some params.channel)).toList :=
    ⟨channelToken_ne_empty _, channelToken_isLower _, channelToken_no_colon h⟩
  have haccount : IsSegment cases (normalizeAccountId params.accountId).toList :=
    isSegment_of_id (normalizeAccountId_isNormalId _).nonempty (normalizeAccountId_isNormalId _).chars
  unfold PeerSession.segments
  cases params.peerKind.getD .direct with
  | direct =>
    cases params.directScope cases with
    | main => simp
    | perPeer => simpa using hdirect
    | perChannelPeer => simpa using ⟨hchannel, hdirect⟩
    | perAccountChannelPeer => simpa using ⟨hchannel, haccount, hdirect⟩
  | _ => simpa using ⟨hchannel, isSegment_of_ascii (by decide) (by decide) (by decide)⟩

end Parts

/-! ### Parsing -/

section Parsing
variable {cases : CaseTables} {params : PeerSession}

theorem agent_isSegment (cases : CaseTables) (params : PeerSession) : IsSegment cases params.agent.toList :=
  isSegment_of_id (normalizeAgentId_isNormalId _).nonempty (normalizeAgentId_isNormalId _).chars

theorem joinSegments_isLower {segments : List (List Char)} {last : List Char}
    (h : ∀ s ∈ segments, IsSegment cases s) (hlast : IsLast cases last) :
    ∀ c ∈ joinSegments segments last, cases.IsLower c := by
  have hcolon : cases.IsLower ':' := CaseTables.isLower_of_ascii (by decide) (by decide)
  induction segments with
  | nil => exact hlast.lower
  | cons s rest ih =>
    intro c hc
    rcases mem_append.mp hc with hc | hc
    · exact (h s mem_cons_self).lower c hc
    · rcases mem_cons.mp hc with rfl | hc
      · exact hcolon
      · exact ih (fun s' hs' => h s' (mem_cons_of_mem _ hs')) c hc

theorem getLast?_joinSegments (segments : List (List Char)) {last : List Char} (hne : last ≠ []) :
    joinSegments segments last ≠ [] ∧ (joinSegments segments last).getLast? = last.getLast? := by
  induction segments with
  | nil => exact ⟨hne, rfl⟩
  | cons s rest ih =>
    refine ⟨by simp [joinSegments], ?_⟩
    rw [joinSegments, getLast?_append_of_ne_nil _ (cons_ne_nil _ _), getLast?_cons_of_ne_nil ih.1, ih.2]

theorem segments_chars (h : ':' ∉ params.channel.toList) :
    ∀ s ∈ (params.segments cases).map String.toList, IsSegment cases s := by
  intro s hs
  obtain ⟨t, ht, rfl⟩ := mem_map.mp hs
  exact segments_isSegment h t ht

/-- A key is the same when it is trimmed and lowered. -/
theorem sessionKey_settled (cases : CaseTables) (h : ':' ∉ params.channel.toList) (suffix : List Char)
    (hsuffix : ∀ c ∈ suffix, cases.IsLower c) (hends : ∀ c ∈ suffix.getLast?, isWhiteSpace c = false) :
    let l := (buildAgentPeerSessionKey cases params).toList ++ suffix
    trimChars l = l ∧ cases.toLowerChars l = l := by
  intro l
  have hcolon : cases.IsLower ':' := CaseTables.isLower_of_ascii (by decide) (by decide)
  have hlast := last_isLast cases params
  have hl : l = "agent".toList ++ ':' :: (params.agent.toList ++ ':' :: params.tail cases) ++ suffix := by
    show (buildAgentPeerSessionKey cases params).toList ++ suffix = _
    rw [sessionKey_toList]
  rw [hl]
  constructor
  · refine EcmaString.trimChars_eq_self ?_ ?_
    · intro c hc
      have hfirst : c = 'a' := (Option.some.inj hc).symm
      rw [hfirst]
      decide
    · obtain ⟨hne, hsame⟩ : params.tail cases ≠ [] ∧
          (params.tail cases).getLast? = (params.last cases).toList.getLast? :=
        getLast?_joinSegments _ hlast.ne_nil
      intro c hc
      by_cases hnil : suffix = []
      · rw [hnil, append_nil, getLast?_append_of_ne_nil _ (cons_ne_nil _ _),
          getLast?_cons_of_ne_nil (by simp), getLast?_append_of_ne_nil _ (cons_ne_nil _ _),
          getLast?_cons_of_ne_nil hne, hsame] at hc
        exact (EcmaString.trimChars_ends hlast.trimmed).2 c hc
      · rw [getLast?_append_of_ne_nil _ hnil] at hc
        exact hends c hc
  · refine CaseTables.toLowerChars_of_lower fun c hc => ?_
    rcases mem_append.mp hc with hc | hc
    · rcases mem_append.mp hc with hc | hc
      · exact isLower_of_plain (by decide) c hc
      · rcases mem_cons.mp hc with rfl | hc
        · exact hcolon
        · rcases mem_append.mp hc with hc | hc
          · exact (agent_isSegment cases params).lower c hc
          · rcases mem_cons.mp hc with rfl | hc
            · exact hcolon
            · exact joinSegments_isLower (segments_chars h) hlast c hc
    · exact hsuffix c hc

theorem trim_eq {s : String} (h : trimChars s.toList = s.toList) : trim s = s := by
  rw [trim, h, String.ofList_toList]

theorem toLowerCase_eq {s : String} (h : cases.toLowerChars s.toList = s.toList) : cases.toLowerCase s = s := by
  rw [CaseTables.toLowerCase, h, String.ofList_toList]

theorem key_settled (cases : CaseTables) (h : ':' ∉ params.channel.toList) :
    trim (buildAgentPeerSessionKey cases params) = buildAgentPeerSessionKey cases params ∧
      cases.toLowerCase (buildAgentPeerSessionKey cases params) = buildAgentPeerSessionKey cases params := by
  obtain ⟨htrim, hlower⟩ := sessionKey_settled cases h [] (by simp) (by simp)
  rw [append_nil] at htrim hlower
  exact ⟨trim_eq htrim, toLowerCase_eq hlower⟩

theorem keyParts_sessionKey (params : PeerSession) : keyParts (buildAgentPeerSessionKey cases params).toList =
    "agent".toList :: params.agent.toList :: keyParts (params.tail cases) := by
  have hagent := agent_isSegment cases params
  unfold keyParts
  rw [sessionKey_toList, splitOn_append_cons_self_of_not_mem (by decide),
    splitOn_append_cons_self_of_not_mem hagent.no_colon,
    filter_cons_of_pos (by decide), filter_cons_of_pos (by simpa using hagent.ne_nil)]

/-- What the parser makes of a key: the agent, and the segments that are not empty. -/
theorem parse_sessionKey (h : ':' ∉ params.channel.toList) :
    parseAgentSessionKey cases (some (buildAgentPeerSessionKey cases params)) =
      if keyParts (params.tail cases) = [] then none
      else some ⟨params.agent, String.ofList ([':'].intercalate (keyParts (params.tail cases)))⟩ := by
  obtain ⟨htrim, hlower⟩ := key_settled cases h
  have hagent := agent_isSegment cases params
  have hagenttrim : trim (String.ofList params.agent.toList) = params.agent := by
    rw [String.ofList_toList]
    exact (normalizeAgentId_isNormalId _).trim
  have hagentne : params.agent ≠ "" := fun hnil => hagent.ne_nil (String.toList_eq_nil_iff.mpr hnil)
  unfold parseAgentSessionKey
  dsimp only
  rw [Option.getD_some, htrim, hlower, keyParts_sessionKey]
  cases hparts : keyParts (params.tail cases) with
  | nil => rfl
  | cons part more =>
    have hpart : part ≠ [] := by
      have hmem : part ∈ keyParts (params.tail cases) := hparts ▸ mem_cons_self
      exact of_decide_eq_true (mem_filter.mp hmem).2
    have hrest : String.ofList ([':'].intercalate (part :: more)) ≠ "" := by
      intro hnil
      have hnil' := String.ofList_eq_empty_iff.mp hnil
      cases more with
      | nil => exact hpart (by simpa using hnil')
      | cons next more => simp at hnil'
    simp only [hagenttrim, ne_eq, not_true_eq_false, if_false, hagentne, hrest, or_self, reduceCtorEq]

/-- A key comes out as it went in when its last id has no empty segment. -/
theorem parse_roundtrip (h : ':' ∉ params.channel.toList) :
    (∃ rest, parseAgentSessionKey cases (some (buildAgentPeerSessionKey cases params)) = some ⟨params.agent, rest⟩ ∧
      buildAgentPeerSessionKey cases params = "agent:" ++ params.agent ++ ":" ++ rest) ↔
    Unbroken (params.last cases).toList := by
  have hlast := last_isLast cases params
  have htail : params.tail cases ≠ [] := (getLast?_joinSegments _ hlast.ne_nil).1
  have hunbroken : Unbroken (params.tail cases) ↔ Unbroken (params.last cases).toList := by
    unfold Unbroken PeerSession.tail
    rw [splitOn_joinSegments fun s hs => (segments_chars h s hs).no_colon, mem_append, not_or]
    exact and_iff_right fun hmem => (segments_chars h [] hmem).ne_nil rfl
  have hkey : ∀ rest, buildAgentPeerSessionKey cases params = "agent:" ++ params.agent ++ ":" ++ rest ↔
      params.tail cases = rest.toList := by
    intro rest
    rw [← String.toList_inj, sessionKey_toList]
    simp
  rw [parse_sessionKey h, ← hunbroken, ← intercalate_keyParts htail]
  constructor
  · rintro ⟨rest, hparse, heq⟩
    split_ifs at hparse
    cases hparse
    have hrest := (hkey _).mp heq
    rw [String.toList_ofList] at hrest
    exact hrest.symm
  · intro hinter
    have hparts : keyParts (params.tail cases) ≠ [] := by
      intro hnil
      rw [hnil] at hinter
      exact htail hinter.symm
    refine ⟨_, if_neg hparts, (hkey _).mpr ?_⟩
    rw [String.toList_ofList, hinter]

end Parsing

/-! ### Agent ids -/

/-- Normalising leaves the id as it is. An id that begins with an underscore is cut to
length after its last dashes are taken off, so it may end with one. -/
def Settled (id : String) : Prop := ¬ (id.toList.head? = some '_' ∧ id.toList.getLast? = some '-')

/-- A normalised id is normalised once more to itself when it is settled. -/
theorem normalizeAgentId_twice (value : Option String) :
    normalizeAgentId (some (normalizeAgentId value)) = normalizeAgentId value ↔ Settled (normalizeAgentId value) := by
  rw [normalizeAgentId_eq, normalizeAgentId_eq]
  exact normalizedId_twice isNormalId_main (by decide) rfl value

/-! ### Threads -/

section Threads
variable {cases : CaseTables} {params : PeerSession}

theorem lastIndexOf_eq_none {marker : List Char} (hne : marker ≠ []) (l : List Char) :
    lastIndexOf marker l = none ↔ ¬ marker <:+: l := by
  induction l with
  | nil => simp [lastIndexOf, hne]
  | cons c rest ih =>
    rw [lastIndexOf, infix_cons_iff, not_or]
    cases hrest : lastIndexOf marker rest with
    | none => simp [ih.mp hrest]
    | some n =>
      refine iff_of_false (by simp) fun h => ?_
      rw [ih.mpr h.2] at hrest
      cases hrest

theorem lastIndexOf_append {marker l : List Char} {n : Nat} (h : lastIndexOf marker l = some n) (before : List Char) :
    lastIndexOf marker (before ++ l) = some (before.length + n) := by
  induction before with
  | nil => simpa using h
  | cons c rest ih =>
    rw [cons_append, lastIndexOf, ih]
    simp only [length_cons, Option.some.injEq]
    omega

theorem lastIndexOf_le {marker l : List Char} {n : Nat} (h : lastIndexOf marker l = some n) : n ≤ l.length := by
  induction l generalizing n with
  | nil =>
    rw [lastIndexOf] at h
    split_ifs at h
    cases h
    simp
  | cons c rest ih =>
    rw [lastIndexOf] at h
    cases hrest : lastIndexOf marker rest with
    | none =>
      rw [hrest] at h
      dsimp only at h
      split_ifs at h
      cases h
      simp
    | some m =>
      rw [hrest] at h
      cases h
      have := ih hrest
      simpa using this

/-- A thread id that does not go on with a thread marker. -/
def PlainThread (l : List Char) : Prop := ¬ threadMarker <:+: ':' :: l

theorem lastIndexOf_append_none {first : Char} {marker before l : List Char} (h : first ∉ before)
    (hnone : lastIndexOf (first :: marker) l = none) : lastIndexOf (first :: marker) (before ++ l) = none := by
  induction before with
  | nil => exact hnone
  | cons c rest ih =>
    rw [mem_cons, not_or] at h
    have hhead : (first :: marker).isPrefixOf (c :: (rest ++ l)) = false := by
      simp [List.isPrefixOf, h.1]
    rw [cons_append, lastIndexOf, ih h.2]
    simp [hhead]

theorem toList_marker : ":thread:".toList = threadMarker := by decide


/-- The last marker of a key with a thread is the thread's, unless its id has another. -/
theorem lastIndexOf_thread (key thread : List Char) :
    ∃ n, lastIndexOf threadMarker (key ++ (threadMarker ++ thread)) = some (key.length + n) ∧
      (n = 0 ↔ PlainThread thread) := by
  have hne : threadMarker ≠ [] := cons_ne_nil _ _
  have hword : ':' ∉ ['t', 'h', 'r', 'e', 'a', 'd'] := by decide
  have hsplit : threadMarker ++ thread = ':' :: (['t', 'h', 'r', 'e', 'a', 'd'] ++ ':' :: thread) := rfl
  rw [hsplit]
  cases hlast : lastIndexOf threadMarker (':' :: thread) with
  | some n =>
    refine ⟨6 + n + 1, ?_, iff_of_false (by omega) fun h => ?_⟩
    · refine lastIndexOf_append ?_ key
      rw [lastIndexOf, lastIndexOf_append hlast]
      rfl
    · rw [(lastIndexOf_eq_none hne _).mpr h] at hlast
      cases hlast
  | none =>
    refine ⟨0, lastIndexOf_append ?_ key, iff_of_true rfl ((lastIndexOf_eq_none hne _).mp hlast)⟩
    have hrest : lastIndexOf threadMarker (['t', 'h', 'r', 'e', 'a', 'd'] ++ ':' :: thread) = none :=
      lastIndexOf_append_none hword hlast
    have hhead : threadMarker.isPrefixOf (':' :: (['t', 'h', 'r', 'e', 'a', 'd'] ++ ':' :: thread)) = true :=
      isPrefixOf_iff_prefix.mpr ⟨thread, rfl⟩
    rw [lastIndexOf, hrest]
    simp only [hhead, if_true]

theorem toList_threadKey (key thread : String) :
    (key ++ ":thread:" ++ thread).toList = key.toList ++ (threadMarker ++ thread.toList) := by
  rw [String.toList_append, String.toList_append, toList_marker, append_assoc]

theorem parseThread_ne_empty (key : Option String) : (parseThreadSessionSuffix cases key).threadId ≠ some "" := by
  have hempty : ∀ s, trimmed s ≠ some "" := fun s hs => EcmaString.trimmed_ne_empty hs rfl
  unfold parseThreadSessionSuffix
  split
  · simp
  · split
    · simp
    · dsimp only
      exact hempty _

/-- A thread comes out as it went in, unless it is blank or goes on with a marker. -/
theorem thread_roundtrip (h : ':' ∉ params.channel.toList) (threadId : String) :
    parseThreadSessionSuffix cases (some (resolveThreadSessionKeys cases (buildAgentPeerSessionKey cases params)
        (some threadId) none true none).1) =
      ⟨some (buildAgentPeerSessionKey cases params), some (cases.toLowerCase (trim threadId))⟩ ↔
    trim threadId ≠ "" ∧ PlainThread (cases.toLowerCase (trim threadId)).toList := by
  by_cases hblank : trim threadId = ""
  · -- A blank thread id is no thread, and an empty one is never parsed.
    refine iff_of_false (fun heq => ?_) fun hc => hc.1 hblank
    have hlower : cases.toLowerCase "" = "" := rfl
    rw [hblank, hlower] at heq
    exact parseThread_ne_empty _ (congrArg ParsedThreadSessionSuffix.threadId heq)
  · have hid : trimmed? (some threadId) = some (trim threadId) := by simp [trimmed?, trimmed, hblank]
    have hlast : IsLast cases (cases.toLowerCase (trim threadId)).toList :=
      isLast_toLowerCase hblank (EcmaString.trim_trim _)
    simp only [resolveThreadSessionKeys, hid, Option.getD_none, if_true]
    generalize cases.toLowerCase (trim threadId) = thread at hlast
    obtain ⟨htrim, hlower⟩ := sessionKey_settled cases h (threadMarker ++ thread.toList) (by
        intro c hc
        rcases mem_append.mp hc with hc | hc
        · exact isLower_of_plain (by decide) c hc
        · exact hlast.lower c hc) (by
        rw [getLast?_append_of_ne_nil _ hlast.ne_nil]
        exact (EcmaString.trimChars_ends hlast.trimmed).2)
    generalize buildAgentPeerSessionKey cases params = key at htrim hlower
    rw [← toList_threadKey] at htrim hlower
    have hkey : trimmed? (some (key ++ ":thread:" ++ thread)) = some (key ++ ":thread:" ++ thread) := by
      have hne : key ++ ":thread:" ++ thread ≠ "" := by
        intro hnil
        have hnil' := congrArg String.toList hnil
        rw [toList_threadKey, String.toList_empty, append_eq_nil_iff] at hnil'
        exact cons_ne_nil _ _ (append_eq_nil_iff.mp hnil'.2).1
      simp [trimmed?, trimmed, trim_eq htrim, hne]
    obtain ⟨n, hindex, hplain⟩ := lastIndexOf_thread key.toList thread.toList
    unfold parseThreadSessionSuffix
    rw [hkey]
    dsimp only
    rw [hlower, toList_threadKey, hindex]
    dsimp only
    rw [and_iff_right hblank, ← hplain]
    constructor
    · intro heq
      -- A later marker leaves a longer base.
      have hbase := congrArg String.toList (Option.some.inj (congrArg ParsedThreadSessionSuffix.baseSessionKey heq))
      have hle := lastIndexOf_le hindex
      have hlen := congrArg List.length hbase
      rw [String.toList_ofList, length_take] at hlen
      omega
    · rintro rfl
      have hthread : trimmed thread = some thread := by
        have hne : thread ≠ "" := fun hnil => hlast.ne_nil (String.toList_eq_nil_iff.mpr hnil)
        simp [trimmed, trim_eq hlast.trimmed, hne]
      have hdrop : (key.toList ++ (threadMarker ++ thread.toList)).drop (key.toList.length + 0 + threadMarker.length) =
          thread.toList := by
        rw [Nat.add_zero, ← drop_drop, drop_left, drop_left]
      rw [hdrop, Nat.add_zero, take_left, String.ofList_toList, String.ofList_toList, hthread]

end Threads

/-! ### The round trip -/

section RoundTrip

/-- A key comes out of the parsers as it went in exactly when its last id has no empty
segment, its agent id is settled, and its thread id is not blank and has no marker. -/
theorem session_key_survives (cases : CaseTables) (params : PeerSession) (threadId : String)
    (h : ':' ∉ params.channel.toList) :
    let key := buildAgentPeerSessionKey cases params
    let agentId := normalizeAgentId (some params.agentId)
    ((∃ rest, parseAgentSessionKey cases (some key) = some ⟨agentId, rest⟩ ∧ key = "agent:" ++ agentId ++ ":" ++ rest) ∧
      (∀ agentId mainKey, toAgentStoreSessionKey cases agentId (some key) mainKey = key) ∧
      resolveAgentIdFromSessionKey cases (some key) = agentId ∧
      parseThreadSessionSuffix cases (some (resolveThreadSessionKeys cases key (some threadId) none true none).1) =
        ⟨some key, some (cases.toLowerCase (trim threadId))⟩) ↔
    Unbroken (params.last cases).toList ∧ Settled agentId ∧
      trim threadId ≠ "" ∧ PlainThread (cases.toLowerCase (trim threadId)).toList := by
  intro key agentId
  rw [thread_roundtrip h, ← parse_roundtrip h, ← normalizeAgentId_twice]
  have hresolve : ∀ rest, parseAgentSessionKey cases (some key) = some ⟨agentId, rest⟩ →
      resolveAgentIdFromSessionKey cases (some key) = normalizeAgentId (some agentId) := by
    intro rest hparse
    simp [resolveAgentIdFromSessionKey, hparse]
  constructor
  · rintro ⟨⟨rest, hparse, heq⟩, -, hagent, hthread⟩
    exact ⟨⟨rest, hparse, heq⟩, (hresolve rest hparse).symm.trans hagent, hthread⟩
  · rintro ⟨⟨rest, hparse, heq⟩, hagent, hthread⟩
    refine ⟨⟨rest, hparse, heq⟩, fun other mainKey => ?_, (hresolve rest hparse).trans hagent, hthread⟩
    obtain ⟨htrim, hlower⟩ := key_settled cases h
    have hcolon : ':' ∈ key.toList := by
      show ':' ∈ (buildAgentPeerSessionKey cases params).toList
      rw [sessionKey_toList]
      simp
    have hne : key ≠ "" := by
      intro hnil
      rw [hnil] at hcolon
      cases hcolon
    have hmain : cases.toLowerCase key ≠ DEFAULT_MAIN_KEY := by
      intro hmain
      rw [show cases.toLowerCase key = key from hlower] at hmain
      rw [hmain] at hcolon
      exact absurd hcolon (by decide)
    unfold toAgentStoreSessionKey
    rw [Option.getD_some, show trim key = key from htrim]
    dsimp only
    rw [if_neg (not_or.mpr ⟨hne, hmain⟩), hparse]
    exact heq.symm

end RoundTrip

/-! ### A group with a thread -/

def telegramGroup (peerId : String) : PeerSession where
  agentId := "Main"
  channel := "telegram"
  peerKind := some .group
  peerId := some peerId

/-- Its id is longer than an id can be. -/
def longAgent : PeerSession where
  agentId := String.ofList ('_' :: (List.replicate 62 'a' ++ ['-', 'b']))
  channel := "telegram"

theorem telegram_key_survives :
    (∃ rest, parseAgentSessionKey asciiTables (some "agent:main:telegram:group:-100:77") = some ⟨"main", rest⟩ ∧
      "agent:main:telegram:group:-100:77" = "agent:" ++ "main" ++ ":" ++ rest) ∧
    parseThreadSessionSuffix asciiTables (some "agent:main:telegram:group:-100:77:thread:5") =
      ⟨some "agent:main:telegram:group:-100:77", some "5"⟩ := by
  have hkey : buildAgentPeerSessionKey asciiTables (telegramGroup "-100:77") =
      "agent:main:telegram:group:-100:77" := by decide
  have hlast : (telegramGroup "-100:77").last asciiTables = "-100:77" := by decide
  have hagent : normalizeAgentId (some (telegramGroup "-100:77").agentId) = "main" := by decide
  have hthread : asciiTables.toLowerCase (trim "5") = "5" := by decide
  have hkeys : (resolveThreadSessionKeys asciiTables "agent:main:telegram:group:-100:77" (some "5") none true none).1 =
      "agent:main:telegram:group:-100:77:thread:5" := by decide
  have hsurvives := session_key_survives asciiTables (telegramGroup "-100:77") "5" (by decide)
  simp only [hkey, hlast, hagent, hthread, hkeys] at hsurvives
  obtain ⟨hparse, -, -, hsuffix⟩ := hsurvives.mpr
    ⟨by unfold Unbroken; decide, by unfold Settled; decide, by decide,
      by unfold PlainThread; decide⟩
  exact ⟨hparse, hsuffix⟩

/-- An id with two colons together loses one, an agent id that is cut to length after an
underscore loses its last dash, and a thread id that goes on with a marker is split
there. -/
theorem broken_key_parsed :
    parseAgentSessionKey asciiTables (some (buildAgentPeerSessionKey asciiTables (telegramGroup "a::b"))) =
      some ⟨"main", "telegram:group:a:b"⟩ ∧
    buildAgentPeerSessionKey asciiTables (telegramGroup "a::b") = "agent:main:telegram:group:a::b" ∧
    resolveAgentIdFromSessionKey asciiTables (some (buildAgentPeerSessionKey asciiTables longAgent)) ≠
      normalizeAgentId (some longAgent.agentId) ∧
    parseThreadSessionSuffix asciiTables (some (resolveThreadSessionKeys asciiTables
        (buildAgentPeerSessionKey asciiTables (telegramGroup "a")) (some "x:thread:y") none true none).1) =
      ⟨some "agent:main:telegram:group:a:thread:x", some "y"⟩ := by
  have hkey : buildAgentPeerSessionKey asciiTables (telegramGroup "a::b") = "agent:main:telegram:group:a::b" := by
    decide
  have hgroup : buildAgentPeerSessionKey asciiTables (telegramGroup "a") = "agent:main:telegram:group:a" := by
    decide
  have hthread : (resolveThreadSessionKeys asciiTables "agent:main:telegram:group:a" (some "x:thread:y") none true
      none).1 = "agent:main:telegram:group:a:thread:x:thread:y" := by decide
  have hcut : normalizeAgentId (some longAgent.agentId) = String.ofList ('_' :: (List.replicate 62 'a' ++ ['-'])) := by
    decide
  have hlong : buildAgentPeerSessionKey asciiTables longAgent =
      "agent:" ++ String.ofList ('_' :: (List.replicate 62 'a' ++ ['-'])) ++ ":main" := by decide
  have hparse : parseAgentSessionKey asciiTables
      (some ("agent:" ++ String.ofList ('_' :: (List.replicate 62 'a' ++ ['-'])) ++ ":main")) =
        some ⟨String.ofList ('_' :: (List.replicate 62 'a' ++ ['-'])), "main"⟩ := by decide
  rw [hkey, hgroup, hthread, hcut, hlong, resolveAgentIdFromSessionKey, hparse]
  exact ⟨by decide, rfl, by decide, by decide⟩

end OpenClaw.Routing
