import OpenClaw.Foundation.Buckets
import OpenClaw.Routing.ResolveRoute

/-! What the maps of bindings hold.

Bindings are kept by channel and account and then in an index by what they are bound to.
Each of these lists is the bindings that belong there, in the order of the
configuration. -/
namespace OpenClaw.Routing
open Foundation List
open Foundation.Buckets
open Foundation.EcmaString (trim trimmed trimmed?)

variable (cases : CaseTables)

/-! ### Evaluated bindings -/

/-- The order of evaluated bindings, which tells them apart. -/
def InOrder (bindings : List EvaluatedBinding) : Prop := bindings.Pairwise fun a b => a.order < b.order

theorem evaluateFrom_order (bindings : List AgentBinding) (n : Nat) :
    (evaluateFrom cases n bindings).Pairwise (fun a b => a.2.order < b.2.order) ∧
      ∀ entry ∈ evaluateFrom cases n bindings, n ≤ entry.2.order := by
  induction bindings generalizing n with
  | nil => simp [evaluateFrom]
  | cons binding rest ih =>
    rw [evaluateFrom]
    split
    · exact ih n
    · obtain ⟨hpairs, hle⟩ := ih (n + 1)
      refine ⟨pairwise_cons.mpr ⟨hle, hpairs⟩, ?_⟩
      intro entry hentry
      rcases mem_cons.mp hentry with rfl | hin
      · exact Nat.le_refl n
      · have := hle entry hin
        omega

/-- What a binding is matched by is made from the binding. -/
def EvaluatedBinding.Normalized (b : EvaluatedBinding) : Prop := b.bound = normalizeBindingMatch cases b.binding.bound

theorem evaluateFrom_normalized (bindings : List AgentBinding) (n : Nat) :
    ∀ entry ∈ evaluateFrom cases n bindings, entry.2.Normalized cases := by
  induction bindings generalizing n with
  | nil => simp [evaluateFrom]
  | cons binding rest ih =>
    rw [evaluateFrom]
    split
    · exact ih n
    · intro entry hentry
      rcases mem_cons.mp hentry with rfl | hin
      · rfl
      · exact ih (n + 1) entry hin

section Normalized
variable {cases}

theorem EvaluatedBinding.Normalized.guildId {b : EvaluatedBinding} (hb : b.Normalized cases) {id : String}
    (h : b.bound.guildId = some id) : id ≠ "" := by
  rw [hb] at h
  exact EcmaString.trimmed?_ne_empty h

theorem EvaluatedBinding.Normalized.teamId {b : EvaluatedBinding} (hb : b.Normalized cases) {id : String}
    (h : b.bound.teamId = some id) : id ≠ "" := by
  rw [hb] at h
  exact EcmaString.trimmed?_ne_empty h

end Normalized

/-! ### By channel and account -/

/-- The bindings of a channel, in the order of the configuration. -/
def channelBindings (cfg : RouteConfig) (channel : String) : List EvaluatedBinding :=
  ((evaluateBindings cases cfg).filter fun entry => entry.1 = channel).map Prod.snd

theorem channelBindings_inOrder (cfg : RouteConfig) (channel : String) :
    InOrder (channelBindings cases cfg channel) := by
  apply pairwise_map.mpr
  exact (evaluateFrom_order cases (listRouteBindings cfg) 0).1.filter _

theorem channelBindings_normalized (cfg : RouteConfig) (channel : String) :
    ∀ b ∈ channelBindings cases cfg channel, b.Normalized cases := by
  intro b hb
  obtain ⟨entry, hentry, rfl⟩ := mem_map.mp hb
  exact evaluateFrom_normalized cases _ 0 entry (mem_filter.mp hentry).1

/-- A list kept for each channel, where a binding pushed to the channel is appended if
it passes the test. -/
theorem byChannel_list (f : EvaluatedBindingsByChannel → List EvaluatedBinding) (p : EvaluatedBinding → Bool)
    (hempty : f {} = []) (hpush : ∀ bucket b, f (bucket.push b) = f bucket ++ if p b then [b] else [])
    (cfg : RouteConfig) (channel : String) :
    f (((buildEvaluatedBindingsByChannel cases cfg).get? channel).getD {}) =
      (channelBindings cases cfg channel).filter p := by
  have hfold := view_foldl
    (fun (byChannel : InsertionMap String EvaluatedBindingsByChannel) (entry : String × EvaluatedBinding) =>
      byChannel.set entry.1 (((byChannel.get? entry.1).getD {}).push entry.2))
    (fun byChannel => f ((byChannel.get? channel).getD {}))
    (fun entry => if entry.1 = channel then if p entry.2 then some entry.2 else none else none)
    (by
      intro byChannel entry
      by_cases hc : entry.1 = channel
      · subst hc
        rw [InsertionMap.get?_set_self, Option.getD_some, hpush, if_pos rfl]
        split <;> rfl
      · rw [InsertionMap.get?_set_ne _ (Ne.symm hc), if_neg hc]
        simp)
    ∅ (evaluateBindings cases cfg)
  simp only [InsertionMap.get?_empty, Option.getD_none, hempty, nil_append] at hfold
  refine hfold.trans ?_
  rw [channelBindings]
  generalize evaluateBindings cases cfg = entries
  induction entries with
  | nil => rfl
  | cons entry rest ih =>
    by_cases hc : entry.1 = channel
    · cases hp : p entry.2 <;> simp [hc, hp, ih]
    · simp [hc, ih]

theorem resolveAccountPatternKey_eq (accountPattern : String) :
    resolveAccountPatternKey accountPattern = normalizeAccountId (some accountPattern) := by
  rw [resolveAccountPatternKey]
  split
  · rename_i h
    have hnone : trimmed? (some accountPattern) = none := by
      simp [trimmed?, trimmed, h]
    rw [normalizeAccountId, hnone]
  · rfl

/-- A binding is for an account. -/
def EvaluatedBinding.isFor (accountId : String) (b : EvaluatedBinding) : Bool :=
  b.bound.accountPattern = "*" || normalizeAccountId (some b.bound.accountPattern) = accountId

/-- The bindings of a channel and an account are those of the channel that are for the account. -/
theorem scopedBindings_eq (cfg : RouteConfig) (channel accountId : String) :
    scopedBindings (buildEvaluatedBindingsByChannel cases cfg) channel accountId =
      (channelBindings cases cfg channel).filter (·.isFor accountId) := by
  have hany := byChannel_list cases EvaluatedBindingsByChannel.byAnyAccount (·.bound.accountPattern = "*") rfl
    (by
      intro bucket b
      rw [EvaluatedBindingsByChannel.push]
      split <;> rename_i h <;> simp [h]) cfg channel
  have hown := byChannel_list cases (fun perChannel => bucket perChannel.byAccount accountId)
    (fun b => b.bound.accountPattern ≠ "*" && normalizeAccountId (some b.bound.accountPattern) = accountId) rfl
    (by
      intro perChannel b
      rw [EvaluatedBindingsByChannel.push]
      split <;> rename_i h
      · simp [h]
      · dsimp only
        rw [bucket_push, resolveAccountPatternKey_eq]
        by_cases hkey : normalizeAccountId (some b.bound.accountPattern) = accountId
        · simp [h, hkey]
        · simp [h, hkey, Ne.symm hkey]) cfg channel
  have hlists : scopedBindings (buildEvaluatedBindingsByChannel cases cfg) channel accountId =
      mergeEvaluatedBindingsInSourceOrder
        (bucket (((buildEvaluatedBindingsByChannel cases cfg).get? channel).getD {}).byAccount accountId)
        (((buildEvaluatedBindingsByChannel cases cfg).get? channel).getD {}).byAnyAccount := by
    rw [scopedBindings]
    cases (buildEvaluatedBindingsByChannel cases cfg).get? channel <;> rfl
  rw [hlists, hany, hown, mergeEvaluatedBindingsInSourceOrder,
    merge_filters EvaluatedBinding.order (channelBindings_inOrder cases cfg channel)]
  · apply filter_congr
    intro b _
    by_cases h : b.bound.accountPattern = "*" <;> simp [EvaluatedBinding.isFor, h]
  · intro b _ h
    simp_all

/-! ### The index -/

/-- Where the index puts a binding. -/
inductive Slot
  | peer (kind : ChatType) (id : String)
  | peerWildcard
  | guildRoles (guildId : String)
  | guild (guildId : String)
  | team (teamId : String)
  | account
  | channel
  deriving DecidableEq

def EvaluatedBinding.slot (b : EvaluatedBinding) : Slot :=
  match b.bound.peer with
  | .valid kind id => .peer kind id
  | .wildcardKind _ => .peerWildcard
  | _ =>
    match b.bound.guildId, b.bound.roles with
    | some guildId, some _ => .guildRoles guildId
    | some guildId, none => .guild guildId
    | none, _ =>
      match b.bound.teamId with
      | some teamId => .team teamId
      | none => if b.bound.accountPattern ≠ "*" then .account else .channel

namespace EvaluatedBindingsIndex

theorem place_eq (index : EvaluatedBindingsIndex) (b : EvaluatedBinding) :
    index.place b =
      match b.slot with
      | .peer kind id =>
        {index with byPeer := (peerLookupKeys kind id).foldl (fun map key => pushToIndexMap map key b) index.byPeer}
      | .peerWildcard => {index with byPeerWildcard := index.byPeerWildcard ++ [b]}
      | .guildRoles guildId => {index with byGuildWithRoles := pushToIndexMap index.byGuildWithRoles guildId b}
      | .guild guildId => {index with byGuild := pushToIndexMap index.byGuild guildId b}
      | .team teamId => {index with byTeam := pushToIndexMap index.byTeam teamId b}
      | .account => {index with byAccount := index.byAccount ++ [b]}
      | .channel => {index with byChannel := index.byChannel ++ [b]} := by
  rw [place, EvaluatedBinding.slot]
  rcases b.bound with ⟨accountPattern, peer, guildId, teamId, roles⟩
  cases peer <;> cases guildId <;> cases roles <;> cases teamId <;> try rfl
  all_goals by_cases h : accountPattern ≠ "*" <;> simp [h]

end EvaluatedBindingsIndex

variable (map : InsertionMap String (List EvaluatedBinding))

theorem bucket_pushToIndexMap (key key' : String) (b : EvaluatedBinding) :
    bucket (pushToIndexMap map key b) key' = bucket map key' ++ if key' = key ∧ key ≠ "" then [b] else [] := by
  rw [pushToIndexMap]
  split <;> rename_i h
  · simp [h]
  · rw [bucket_push]
    simp [h]

theorem bucket_pushToIndexMap_ne (key : String) {key' : String} (h : key' ≠ "") (b : EvaluatedBinding) :
    bucket (pushToIndexMap map key b) key' = bucket map key' ++ if key = key' then [b] else [] := by
  rw [bucket_pushToIndexMap]
  by_cases he : key = key'
  · subst he
    simp [h]
  · simp [he, Ne.symm he]

/-- A peer is found under a key exactly when the kinds match and the ids are the same. -/
theorem mem_peerLookupKeys {kind kind' : ChatType} {id id' key : String} (h : key ∈ peerLookupKeys kind' id') :
    key ∈ peerLookupKeys kind id ↔ peerKindMatches kind kind' = true ∧ id' = id := by
  cases kind' <;> cases kind <;> simp only [peerLookupKeys, mem_cons, not_mem_nil, or_false] at h ⊢ <;>
    (try rcases h with rfl | rfl) <;>
    simp [← String.toList_inj, String.toList_append, peerKindMatches]

theorem bucket_peerLookupKeys (kind : ChatType) (id key : String) (b : EvaluatedBinding) :
    bucket ((peerLookupKeys kind id).foldl (fun map key => pushToIndexMap map key b) map) key =
      bucket map key ++ if key ∈ peerLookupKeys kind id then [b] else [] := by
  have hdirect : "direct:" ++ id ≠ "" := by simp
  have hgroup : "group:" ++ id ≠ "" := by simp
  have hchannel : "channel:" ++ id ≠ "" := by simp
  have hne : "group:" ++ id ≠ "channel:" ++ id := by simp [← String.toList_inj, String.toList_append]
  cases kind <;> simp only [peerLookupKeys, foldl_cons, foldl_nil, bucket_pushToIndexMap, mem_cons,
    not_mem_nil, or_false, append_assoc]
  · simp [hdirect]
  · by_cases hk : key = "group:" ++ id
    · simp [hk, hne, hgroup]
    · simp [hk, hchannel]
  · by_cases hk : key = "channel:" ++ id
    · simp [hk, hne.symm, hchannel]
    · simp [hk, hgroup]

/-- The keys a slot has among the peers. -/
def Slot.peerKeys : Slot → List String
  | .peer kind id => peerLookupKeys kind id
  | _ => []

namespace EvaluatedBindingsIndex

/-- A list of the index, to which a binding is appended if its slot passes the test. -/
theorem build_list (f : EvaluatedBindingsIndex → List EvaluatedBinding) (p : Slot → Bool) (hempty : f {} = [])
    (hplace : ∀ index b, f (place index b) = f index ++ if p b.slot then [b] else [])
    (bindings : List EvaluatedBinding) :
    f (buildEvaluatedBindingsIndex bindings) = bindings.filter fun b => p b.slot := by
  have hfold := view_foldl_filter place f (fun b => p b.slot) hplace {} bindings
  rw [hempty, nil_append] at hfold
  exact hfold

variable (bindings : List EvaluatedBinding)

theorem build_byPeer (key : String) :
    bucket (buildEvaluatedBindingsIndex bindings).byPeer key = bindings.filter fun b => key ∈ b.slot.peerKeys := by
  apply build_list (fun index => bucket index.byPeer key) (fun slot => key ∈ slot.peerKeys) rfl
  intro index b
  rw [place_eq]
  cases b.slot with
  | peer kind id =>
    by_cases hkey : key ∈ peerLookupKeys kind id <;> simp [Slot.peerKeys, bucket_peerLookupKeys, hkey]
  | _ => simp [Slot.peerKeys]

theorem build_byPeerWildcard :
    (buildEvaluatedBindingsIndex bindings).byPeerWildcard = bindings.filter fun b => b.slot = .peerWildcard := by
  apply build_list byPeerWildcard (fun slot => slot = .peerWildcard) rfl
  intro index b
  rw [place_eq]
  cases b.slot <;> simp

theorem build_byGuildWithRoles {guildId : String} (h : guildId ≠ "") :
    bucket (buildEvaluatedBindingsIndex bindings).byGuildWithRoles guildId =
      bindings.filter fun b => b.slot = .guildRoles guildId := by
  apply build_list (fun index => bucket index.byGuildWithRoles guildId) (fun slot => slot = .guildRoles guildId) rfl
  intro index b
  rw [place_eq]
  cases b.slot with
  | guildRoles id => simp [bucket_pushToIndexMap_ne _ _ h]
  | _ => simp

theorem build_byGuild {guildId : String} (h : guildId ≠ "") :
    bucket (buildEvaluatedBindingsIndex bindings).byGuild guildId =
      bindings.filter fun b => b.slot = .guild guildId := by
  apply build_list (fun index => bucket index.byGuild guildId) (fun slot => slot = .guild guildId) rfl
  intro index b
  rw [place_eq]
  cases b.slot with
  | guild id => simp [bucket_pushToIndexMap_ne _ _ h]
  | _ => simp

theorem build_byTeam {teamId : String} (h : teamId ≠ "") :
    bucket (buildEvaluatedBindingsIndex bindings).byTeam teamId =
      bindings.filter fun b => b.slot = .team teamId := by
  apply build_list (fun index => bucket index.byTeam teamId) (fun slot => slot = .team teamId) rfl
  intro index b
  rw [place_eq]
  cases b.slot with
  | team id => simp [bucket_pushToIndexMap_ne _ _ h]
  | _ => simp

theorem build_byAccount :
    (buildEvaluatedBindingsIndex bindings).byAccount = bindings.filter fun b => b.slot = .account := by
  apply build_list byAccount (fun slot => slot = .account) rfl
  intro index b
  rw [place_eq]
  cases b.slot <;> simp

theorem build_byChannel :
    (buildEvaluatedBindingsIndex bindings).byChannel = bindings.filter fun b => b.slot = .channel := by
  apply build_list byChannel (fun slot => slot = .channel) rfl
  intro index b
  rw [place_eq]
  cases b.slot <;> simp

end EvaluatedBindingsIndex

end OpenClaw.Routing
