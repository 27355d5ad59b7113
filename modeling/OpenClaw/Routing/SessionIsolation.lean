import OpenClaw.Routing.CanonicalIds

/-! Which conversations share a session.

With one scope for direct chats, and no identity links, two conversations of one agent
share a session when they are the same group or channel, or direct chats that the
scope merges (`SameSession`). Beside these only one kind of pair does: a direct chat
and a group of which one is named after the other's key (`Imitates`). -/
namespace OpenClaw.Routing
open Foundation
open Foundation.EcmaString (trim trimmed trimmed? trimChars)
open Cron (normalizeAgentId)

/-- Where a message comes from. -/
structure InboundContext where
  agentId : String
  channel : String
  accountId : Option String
  peerKind : ChatType
  peerId : String

section Contexts
variable (cases : CaseTables) (dmScope : DmScope)

namespace InboundContext
variable (c : InboundContext)

/-- The session of a context, by its own ids alone. -/
def session : PeerSession where
  agentId := c.agentId
  channel := c.channel
  accountId := c.accountId
  peerKind := some c.peerKind
  peerId := some c.peerId
  dmScope := some dmScope

def sessionKey : String := buildAgentPeerSessionKey cases (c.session dmScope)

def agent : String := normalizeAgentId (some c.agentId)

def channelName : String := channelToken cases (some c.channel)

def account : String := normalizeAccountId c.accountId

def peer : String := cases.toLowerCase (trim c.peerId)

end InboundContext

/-- Direct chats that the scope merges. -/
def mergesDirect (a b : InboundContext) : Prop :=
  match dmScope with
  | .main => True
  | .perPeer => a.peer cases = b.peer cases
  | .perChannelPeer => a.channelName cases = b.channelName cases ∧ a.peer cases = b.peer cases
  | .perAccountChannelPeer =>
    a.channelName cases = b.channelName cases ∧ a.account = b.account ∧ a.peer cases = b.peer cases

def SameSession (a b : InboundContext) : Prop :=
  a.agent = b.agent ∧
    ((a.peerKind = .direct ∧ b.peerKind = .direct ∧ mergesDirect cases dmScope a b) ∨
      (a.peerKind ≠ .direct ∧ a.peerKind = b.peerKind ∧ a.channelName cases = b.channelName cases ∧
        a.peer cases = b.peer cases))

/-- A direct chat has the key of a group: by peer, its peer has the name of the group on
a channel called `direct`; by account, its account is called as the kind of group, and
the group is named after the peer. -/
def Imitates (direct group : InboundContext) : Prop :=
  direct.peerKind = .direct ∧ group.peerKind ≠ .direct ∧ direct.agent = group.agent ∧
    ((dmScope = .perPeer ∧ group.channelName cases = "direct" ∧
        direct.peer cases = group.peerKind.text ++ ":" ++ group.peer cases) ∨
      (dmScope = .perAccountChannelPeer ∧ direct.channelName cases = group.channelName cases ∧
        direct.account = group.peerKind.text ∧ group.peer cases = "direct:" ++ direct.peer cases))

end Contexts

/-! ### The parts of a key -/

section Keys
variable {cases : CaseTables} {dmScope : DmScope} {c : InboundContext}

theorem InboundContext.agent_no_colon (c : InboundContext) : ':' ∉ c.agent.toList :=
  fun h => isIdChar_ne_colon ((normalizeAgentId_isNormalId _).chars _ h) rfl

theorem InboundContext.account_no_colon (c : InboundContext) : ':' ∉ c.account.toList :=
  fun h => isIdChar_ne_colon ((normalizeAccountId_isNormalId _).chars _ h) rfl

theorem ChatType.text_no_colon (kind : ChatType) : ':' ∉ kind.text.toList := by
  cases kind <;> decide

theorem ChatType.text_injective {kind kind' : ChatType} (h : kind.text = kind'.text) : kind = kind' := by
  cases kind <;> cases kind' <;> first | rfl | exact absurd h (by decide)

/-- What follows the agent in the key of a context. -/
def InboundContext.tail (cases : CaseTables) (dmScope : DmScope) (c : InboundContext) : List Char :=
  match c.peerKind with
  | .direct =>
    match dmScope with
    | .main => "main".toList
    | .perPeer => "direct".toList ++ ':' :: (c.peer cases).toList
    | .perChannelPeer => (c.channelName cases).toList ++ ':' :: ("direct".toList ++ ':' :: (c.peer cases).toList)
    | .perAccountChannelPeer => (c.channelName cases).toList ++ ':' ::
        (c.account.toList ++ ':' :: ("direct".toList ++ ':' :: (c.peer cases).toList))
  | kind => (c.channelName cases).toList ++ ':' :: (kind.text.toList ++ ':' :: (c.peer cases).toList)

theorem InboundContext.peer_ne_empty (cases : CaseTables) (h : trim c.peerId ≠ "") : c.peer cases ≠ "" := by
  intro hpeer
  rw [InboundContext.peer, CaseTables.toLowerCase] at hpeer
  have hnil := String.ofList_eq_empty_iff.mp hpeer
  rw [CaseTables.toLowerChars_eq_nil] at hnil
  exact h (String.toList_eq_nil_iff.mp hnil)

theorem InboundContext.directPeerId_eq (cases : CaseTables) (dmScope : DmScope) (c : InboundContext) :
    (c.session dmScope).directPeerId cases = c.peer cases := by
  have hlinked : ∀ channel peerId, resolveLinkedPeerId cases none channel peerId = none := by
    intro channel peerId
    unfold resolveLinkedPeerId
    cases trimmed peerId <;> rfl
  simp [PeerSession.directPeerId, InboundContext.session, InboundContext.peer, hlinked]

theorem InboundContext.sessionKey_toList (h : trim c.peerId ≠ "") :
    (c.sessionKey cases dmScope).toList = "agent:".toList ++ (c.agent.toList ++ ':' :: c.tail cases dmScope) := by
  have hdirect := InboundContext.directPeerId_eq cases dmScope c
  have hpeer := InboundContext.peer_ne_empty cases h
  have htrimmed : trimmed? (some c.peerId) = some (trim c.peerId) := by
    simp [trimmed?, trimmed, h]
  unfold InboundContext.sessionKey InboundContext.tail buildAgentPeerSessionKey
  rw [hdirect]
  cases hkind : c.peerKind with
  | direct =>
    cases dmScope <;>
      simp [InboundContext.session, hkind, hpeer, buildAgentMainSessionKey, InboundContext.agent,
        InboundContext.channelName, InboundContext.account, normalizeMainKey, trimmed?, DEFAULT_MAIN_KEY]
  | _ =>
    simp [InboundContext.session, hkind, htrimmed, InboundContext.agent, InboundContext.channelName,
      InboundContext.peer, ChatType.text]

end Keys

/-! ### Keys that are the same -/

section Same
variable {cases : CaseTables} {dmScope : DmScope} {a b : InboundContext}

theorem InboundContext.tail_group (h : b.peerKind ≠ .direct) : b.tail cases dmScope =
    (b.channelName cases).toList ++ ':' :: (b.peerKind.text.toList ++ ':' :: (b.peer cases).toList) := by
  unfold InboundContext.tail
  cases hkind : b.peerKind with
  | direct => exact absurd hkind h
  | _ => rfl

section
variable (ha : ':' ∉ a.channel.toList) (hb : ':' ∉ b.channel.toList)
include ha hb

theorem direct_tails (hda : a.peerKind = .direct) (hdb : b.peerKind = .direct)
    (h : a.tail cases dmScope = b.tail cases dmScope) : mergesDirect cases dmScope a b := by
  have hca : ':' ∉ (a.channelName cases).toList := channelToken_no_colon ha
  have hcb : ':' ∉ (b.channelName cases).toList := channelToken_no_colon hb
  have hdirect : ':' ∉ "direct".toList := by decide
  unfold InboundContext.tail at h
  rw [hda, hdb] at h
  cases dmScope with
  | main => trivial
  | perPeer => exact String.toList_inj.mp (append_cons_inj hdirect hdirect h).2
  | perChannelPeer =>
    obtain ⟨hchannel, hrest⟩ := append_cons_inj hca hcb h
    exact ⟨String.toList_inj.mp hchannel, String.toList_inj.mp (append_cons_inj hdirect hdirect hrest).2⟩
  | perAccountChannelPeer =>
    obtain ⟨hchannel, hrest⟩ := append_cons_inj hca hcb h
    obtain ⟨haccount, hrest'⟩ := append_cons_inj a.account_no_colon b.account_no_colon hrest
    exact ⟨String.toList_inj.mp hchannel, String.toList_inj.mp haccount,
      String.toList_inj.mp (append_cons_inj hdirect hdirect hrest').2⟩

theorem group_tails (hga : a.peerKind ≠ .direct) (hgb : b.peerKind ≠ .direct)
    (h : a.tail cases dmScope = b.tail cases dmScope) :
    a.peerKind = b.peerKind ∧ a.channelName cases = b.channelName cases ∧ a.peer cases = b.peer cases := by
  rw [InboundContext.tail_group hga, InboundContext.tail_group hgb] at h
  obtain ⟨hchannel, hrest⟩ := append_cons_inj (channelToken_no_colon ha) (channelToken_no_colon hb) h
  obtain ⟨hkind, hpeer⟩ := append_cons_inj a.peerKind.text_no_colon b.peerKind.text_no_colon hrest
  exact ⟨ChatType.text_injective (String.toList_inj.mp hkind), String.toList_inj.mp hchannel,
    String.toList_inj.mp hpeer⟩

/-- A direct chat and a group have the same tail when the one imitates the other. -/
theorem mixed_tails (hda : a.peerKind = .direct) (hgb : b.peerKind ≠ .direct) (hagent : a.agent = b.agent) :
    a.tail cases dmScope = b.tail cases dmScope ↔ Imitates cases dmScope a b := by
  have hca : ':' ∉ (a.channelName cases).toList := channelToken_no_colon ha
  have hcb : ':' ∉ (b.channelName cases).toList := channelToken_no_colon hb
  have hdirect : ':' ∉ "direct".toList := by decide
  have hjoined : ∀ s t : String, (s ++ ":" ++ t).toList = s.toList ++ ':' :: t.toList := by simp
  rw [InboundContext.tail_group hgb]
  unfold InboundContext.tail
  rw [hda]
  constructor
  · intro h
    refine ⟨hda, hgb, hagent, ?_⟩
    cases dmScope with
    | main =>
      have hcolon : ':' ∈ "main".toList := by
        dsimp only at h
        rw [h]
        simp
      exact absurd hcolon (by decide)
    | perPeer =>
      obtain ⟨hchannel, hpeer⟩ := append_cons_inj hdirect hcb h
      exact .inl ⟨rfl, String.toList_inj.mp hchannel.symm, String.toList_inj.mp (by rw [hjoined]; exact hpeer)⟩
    | perChannelPeer =>
      obtain ⟨-, hrest⟩ := append_cons_inj hca hcb h
      have hkind := (append_cons_inj hdirect b.peerKind.text_no_colon hrest).1
      have hdb : b.peerKind = .direct := ChatType.text_injective (String.toList_inj.mp hkind.symm)
      exact absurd hdb hgb
    | perAccountChannelPeer =>
      obtain ⟨hchannel, hrest⟩ := append_cons_inj hca hcb h
      obtain ⟨haccount, hpeer⟩ := append_cons_inj a.account_no_colon b.peerKind.text_no_colon hrest
      refine .inr ⟨rfl, String.toList_inj.mp hchannel, String.toList_inj.mp haccount, String.toList_inj.mp ?_⟩
      rw [← hpeer]
      simp
  · rintro ⟨-, -, -, ⟨rfl, hchannel, hpeer⟩ | ⟨rfl, hchannel, haccount, hpeer⟩⟩
    · dsimp only
      rw [hchannel, hpeer, hjoined]
    · dsimp only
      rw [hchannel, haccount, hpeer]
      simp

end

theorem sessionKey_eq_iff (ha : trim a.peerId ≠ "") (hb : trim b.peerId ≠ "") :
    a.sessionKey cases dmScope = b.sessionKey cases dmScope ↔
      a.agent = b.agent ∧ a.tail cases dmScope = b.tail cases dmScope := by
  rw [← String.toList_inj, InboundContext.sessionKey_toList ha, InboundContext.sessionKey_toList hb,
    List.append_cancel_left_eq]
  constructor
  · intro h
    obtain ⟨hagent, htail⟩ := append_cons_inj a.agent_no_colon b.agent_no_colon h
    exact ⟨String.toList_inj.mp hagent, htail⟩
  · rintro ⟨hagent, htail⟩
    rw [hagent, htail]

/-- Two conversations share a session only as the scope means them to, unless one
imitates the other's key. -/
theorem sessions_isolated (cases : CaseTables) (dmScope : DmScope) (a b : InboundContext)
    (hca : ':' ∉ a.channel.toList) (hcb : ':' ∉ b.channel.toList) (ha : trim a.peerId ≠ "")
    (hb : trim b.peerId ≠ "") :
    (a.sessionKey cases dmScope = b.sessionKey cases dmScope → SameSession cases dmScope a b) ↔
      ¬ (Imitates cases dmScope a b ∨ Imitates cases dmScope b a) := by
  rw [sessionKey_eq_iff ha hb]
  constructor
  · rintro hsame (himitates | himitates)
    · obtain ⟨hda, hgb, hagent, -⟩ := id himitates
      obtain ⟨-, ⟨-, hdb, -⟩ | ⟨hga, -⟩⟩ :=
        hsame ⟨hagent, (mixed_tails hca hcb hda hgb hagent).mpr himitates⟩
      · exact hgb hdb
      · exact hga hda
    · obtain ⟨hdb, hga, hagent, -⟩ := id himitates
      obtain ⟨-, ⟨hda, -⟩ | ⟨-, hkind, -⟩⟩ :=
        hsame ⟨hagent.symm, ((mixed_tails hcb hca hdb hga hagent).mpr himitates).symm⟩
      · exact hga hda
      · exact hga (hkind.trans hdb)
  · rintro hapart ⟨hagent, htail⟩
    refine ⟨hagent, ?_⟩
    by_cases hda : a.peerKind = .direct
    · by_cases hdb : b.peerKind = .direct
      · exact .inl ⟨hda, hdb, direct_tails hca hcb hda hdb htail⟩
      · exact absurd (.inl ((mixed_tails hca hcb hda hdb hagent).mp htail)) hapart
    · by_cases hdb : b.peerKind = .direct
      · exact absurd (.inr ((mixed_tails hcb hca hdb hda hagent.symm).mp htail.symm)) hapart
      · exact .inr ⟨hda, group_tails hca hcb hda hdb htail⟩

end Same

/-! ### A direct chat and a group -/

def directChat (accountId : String) (peerId : String) : InboundContext :=
  ⟨"main", "telegram", some accountId, .direct, peerId⟩

def groupChat (channel : String) (peerId : String) : InboundContext := ⟨"main", channel, some "default", .group, peerId⟩

/-- Direct chats and groups of ordinary names are told apart. -/
theorem ordinary_sessions_isolated :
    (directChat "default" "42").sessionKey asciiTables .perPeer ≠
      (groupChat "telegram" "42").sessionKey asciiTables .perPeer := by
  intro h
  have hsame := (sessions_isolated asciiTables .perPeer (directChat "default" "42") (groupChat "telegram" "42")
    (by decide) (by decide) (by decide) (by decide)).mpr (by
      rintro (⟨-, -, -, ⟨-, hchannel, -⟩ | ⟨hscope, -⟩⟩ | ⟨hdirect, -⟩)
      · exact absurd hchannel (by decide)
      · cases hscope
      · cases hdirect) h
  obtain ⟨-, ⟨-, hdirect, -⟩ | ⟨hgroup, -⟩⟩ := hsame
  · cases hdirect
  · exact hgroup rfl

/-- A peer called `group:42` has the key of the group 42 of a channel called `direct`, and
a direct chat of an account called `group` that of a group named after its peer. -/
theorem imitated_sessions_shared :
    (directChat "default" "group:42").sessionKey asciiTables .perPeer =
      (groupChat "direct" "42").sessionKey asciiTables .perPeer ∧
    (directChat "group" "42").sessionKey asciiTables .perAccountChannelPeer =
      (groupChat "telegram" "direct:42").sessionKey asciiTables .perAccountChannelPeer ∧
    ¬ SameSession asciiTables .perPeer (directChat "default" "group:42") (groupChat "direct" "42") ∧
    ¬ SameSession asciiTables .perAccountChannelPeer (directChat "group" "42") (groupChat "telegram" "direct:42") := by
  refine ⟨by decide, by decide, ?_, ?_⟩
  · rintro ⟨-, ⟨-, hdirect, -⟩ | ⟨hgroup, -⟩⟩
    · cases hdirect
    · exact hgroup rfl
  · rintro ⟨-, ⟨-, hdirect, -⟩ | ⟨hgroup, -⟩⟩
    · cases hdirect
    · exact hgroup rfl

end OpenClaw.Routing
