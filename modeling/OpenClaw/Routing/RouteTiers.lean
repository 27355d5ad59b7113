import OpenClaw.Routing.BindingIndex
import OpenClaw.Routing.CanonicalIds

/-! The index chooses what the plain rule chooses.

The plain rule tries every binding of the channel that is for the account, tier by tier.
The index offers a tier only the bindings placed for it; what it leaves out either does
not match or has matched in an earlier tier. -/
namespace OpenClaw.Routing
open Foundation List
open Foundation.Buckets
open Foundation.EcmaString (trim trimmed trimmed?)

/-! ### Candidates -/

/-- A slot is one the index offers a tier. -/
def Slot.serves (scope : RouteScope) : MatchedBy → Slot → Bool
  | .peer, .peer kind id => scope.peer.any fun peer => peerKindMatches kind peer.kind && peer.id = id
  | .peerParent, .peer kind id => scope.parentPeer.any fun peer => peerKindMatches kind peer.kind && peer.id = id
  | .peerWildcard, .peerWildcard => true
  | .guildRoles, .guildRoles guildId => guildId = scope.guildId && guildId ≠ ""
  | .guild, .guild guildId => guildId = scope.guildId && guildId ≠ ""
  | .team, .team teamId => teamId = scope.teamId && teamId ≠ ""
  | .account, .account => true
  | .channel, .channel => true
  | _, _ => false

theorem collectUnseen_of_seen {seen l : List EvaluatedBinding} (h : ∀ b ∈ l, b ∈ seen) :
    collectUnseen seen l = seen := by
  induction l with
  | nil => rfl
  | cons b rest ih =>
    have hb : (seen.any fun other => other.order = b.order) = true :=
      any_eq_true.mpr ⟨b, h b mem_cons_self, by simp⟩
    rw [collectUnseen, if_pos hb]
    exact ih fun b hb => h b (mem_cons_of_mem _ hb)

theorem collectUnseen_inOrder {seen l : List EvaluatedBinding} (h : InOrder (seen ++ l)) :
    collectUnseen seen l = seen ++ l := by
  induction l generalizing seen with
  | nil => simp [collectUnseen]
  | cons b rest ih =>
    have hb : ¬(seen.any fun other => other.order = b.order) = true := by
      intro hany
      obtain ⟨other, hother, heq⟩ := any_eq_true.mp hany
      have hlt := (pairwise_append.mp h).2.2 other hother b mem_cons_self
      have : other.order = b.order := by simpa using heq
      omega
    rw [collectUnseen, if_neg hb, ih (by simpa using h), append_assoc, singleton_append]

/-- The bindings found for a peer are those placed under a peer it matches. -/
theorem collectPeerIndexedBindings_build {bindings : List EvaluatedBinding} (h : InOrder bindings)
    (peer : Option RoutePeer) :
    collectPeerIndexedBindings (buildEvaluatedBindingsIndex bindings) peer =
      bindings.filter fun b => peer.any fun peer =>
        match b.slot with
        | .peer kind id => peerKindMatches kind peer.kind && peer.id = id
        | _ => false := by
  cases peer with
  | none => simp [collectPeerIndexedBindings]
  | some peer =>
    set found := bindings.filter fun b => (some peer).any fun peer =>
      match b.slot with
      | .peer kind id => peerKindMatches kind peer.kind && peer.id = id
      | _ => false with hfound
    have hkeys : ∀ key ∈ peerLookupKeys peer.kind peer.id,
        ((buildEvaluatedBindingsIndex bindings).byPeer.get? key).getD [] = found := by
      intro key hkey
      show bucket (buildEvaluatedBindingsIndex bindings).byPeer key = found
      rw [EvaluatedBindingsIndex.build_byPeer]
      apply filter_congr
      intro b _
      cases b.slot with
      | peer kind id => simp [Slot.peerKeys, mem_peerLookupKeys hkey]
      | _ => simp [Slot.peerKeys]
    have hfirst : collectUnseen [] found = found := collectUnseen_inOrder (h.filter _)
    have hagain : collectUnseen found found = found := collectUnseen_of_seen fun _ hb => hb
    -- A group's and a channel's bindings stand under both keys and are collected once.
    show (peerLookupKeys peer.kind peer.id).foldl _ [] = found
    cases hkind : peer.kind <;> simp only [hkind, peerLookupKeys] at hkeys ⊢ <;>
      simp [hkeys, hfirst, hagain]

/-- The candidates of a tier are the bindings whose slot serves it. -/
theorem candidates_build {bindings : List EvaluatedBinding} (h : InOrder bindings) (scope : RouteScope)
    (matchedBy : MatchedBy) :
    (buildEvaluatedBindingsIndex bindings).candidates scope matchedBy =
      bindings.filter fun b => b.slot.serves scope matchedBy := by
  cases matchedBy with
  | peerWildcard =>
    rw [EvaluatedBindingsIndex.candidates, EvaluatedBindingsIndex.build_byPeerWildcard]
    apply filter_congr
    intro b _
    cases b.slot <;> simp [Slot.serves]
  | guildRoles =>
    rw [EvaluatedBindingsIndex.candidates]
    split <;> rename_i hguild
    · symm
      apply filter_eq_nil_iff.mpr
      intro b _
      cases b.slot <;> simp_all [Slot.serves]
    · rw [show ((buildEvaluatedBindingsIndex bindings).byGuildWithRoles.get? scope.guildId).getD [] = _ from
        EvaluatedBindingsIndex.build_byGuildWithRoles bindings hguild]
      apply filter_congr
      intro b _
      cases b.slot <;> simp_all [Slot.serves]
  | guild =>
    rw [EvaluatedBindingsIndex.candidates]
    split <;> rename_i hguild
    · symm
      apply filter_eq_nil_iff.mpr
      intro b _
      cases b.slot <;> simp_all [Slot.serves]
    · rw [show ((buildEvaluatedBindingsIndex bindings).byGuild.get? scope.guildId).getD [] = _ from
        EvaluatedBindingsIndex.build_byGuild bindings hguild]
      apply filter_congr
      intro b _
      cases b.slot <;> simp_all [Slot.serves]
  | team =>
    rw [EvaluatedBindingsIndex.candidates]
    split <;> rename_i hteam
    · symm
      apply filter_eq_nil_iff.mpr
      intro b _
      cases b.slot <;> simp_all [Slot.serves]
    · rw [show ((buildEvaluatedBindingsIndex bindings).byTeam.get? scope.teamId).getD [] = _ from
        EvaluatedBindingsIndex.build_byTeam bindings hteam]
      apply filter_congr
      intro b _
      cases b.slot <;> simp_all [Slot.serves]
  | account =>
    rw [EvaluatedBindingsIndex.candidates, EvaluatedBindingsIndex.build_byAccount]
    apply filter_congr
    intro b _
    cases b.slot <;> simp [Slot.serves]
  | channel =>
    rw [EvaluatedBindingsIndex.candidates, EvaluatedBindingsIndex.build_byChannel]
    apply filter_congr
    intro b _
    cases b.slot <;> simp [Slot.serves]
  | default =>
    symm
    apply filter_eq_nil_iff.mpr
    intro b _
    cases b.slot <;> simp [Slot.serves]
  | _ =>
    rw [EvaluatedBindingsIndex.candidates, collectPeerIndexedBindings_build h]
    apply filter_congr
    intro b _
    cases b.slot <;> simp [Slot.serves]

/-! ### Tiers -/

def MatchedBy.rank : MatchedBy → Nat
  | .peer => 0
  | .peerParent => 1
  | .peerWildcard => 2
  | .guildRoles => 3
  | .guild => 4
  | .team => 5
  | .account => 6
  | .channel => 7
  | .default => 8

/-- The tier the bindings of a slot are for. -/
def Slot.matchedBy : Slot → MatchedBy
  | .peer .. => .peer
  | .peerWildcard => .peerWildcard
  | .guildRoles _ => .guildRoles
  | .guild _ => .guild
  | .team _ => .team
  | .account => .account
  | .channel => .channel

theorem tiers_ranked (scope : RouteScope) :
    scope.tiers.Pairwise fun t t' => t.matchedBy.rank < t'.matchedBy.rank := by
  simp [RouteScope.tiers, MatchedBy.rank]

variable {scope : RouteScope} {t : Tier} {b : EvaluatedBinding} {accountId : String} {caches : RouteCaches}

/-- A tier is not for slots of later tiers. -/
theorem slot_rank_le (ht : t ∈ scope.tiers) (h : t.predicate b = true) : b.slot.matchedBy.rank ≤ t.matchedBy.rank := by
  simp only [RouteScope.tiers, mem_cons, not_mem_nil, or_false] at ht
  rcases b with ⟨binding, ⟨accountPattern, peer, guildId, teamId, roles⟩, order⟩
  rcases ht with rfl | rfl | rfl | rfl | rfl | rfl | rfl | rfl <;>
    cases peer <;> cases guildId <;> cases roles <;> cases teamId <;>
    simp_all [EvaluatedBinding.slot, Slot.matchedBy, MatchedBy.rank]

theorem isSome_of_any {α : Type*} {o : Option α} {p : α → Bool} (h : o.any p = true) : o.isSome = true := by
  cases o with
  | none => simp at h
  | some _ => rfl

/-- A binding that matches the scope matches in the tier of its slot, which is offered it. -/
theorem matching_of_slot {cases : CaseTables} (hb : b.Normalized cases)
    (h : matchesBindingScope b.bound ⟨scope.peer, scope.guildId, scope.teamId, scope.memberRoleIds⟩ = true) :
    b.slot.serves scope b.slot.matchedBy = true ∧
      ∃ t ∈ scope.tiers, t.matchedBy = b.slot.matchedBy ∧ t.matching scope b = true := by
  have hguild : ∀ id, b.bound.guildId = some id → id ≠ "" := fun _ h => hb.guildId h
  have hteam : ∀ id, b.bound.teamId = some id → id ≠ "" := fun _ h => hb.teamId h
  have hmatch := h
  simp only [matchesBindingScope, Bool.and_eq_true] at h
  obtain ⟨⟨⟨hpeer, hguildId⟩, hteamId⟩, hroles⟩ := h
  rcases b with ⟨binding, ⟨accountPattern, peer, guildId, teamId, roles⟩, order⟩
  cases peer with
  | invalid => simp [NormalizedPeerConstraint.allows] at hpeer
  | valid kind id =>
    refine ⟨hpeer, _, mem_of_getElem? (rfl : scope.tiers[0]? = some _), rfl, ?_⟩
    simp only [Tier.matching, isSome_of_any hpeer, hmatch, Bool.and_self]
  | wildcardKind kind =>
    refine ⟨rfl, _, mem_of_getElem? (rfl : scope.tiers[2]? = some _), rfl, ?_⟩
    simp only [Tier.matching, isSome_of_any hpeer, hmatch, Bool.and_self]
  | none =>
    cases guildId with
    | some id =>
      have hid : id = scope.guildId := by simpa using hguildId
      have hne : scope.guildId ≠ "" := hid ▸ hguild id rfl
      cases roles with
      | some roles =>
        have hmember : scope.memberRoleIds ≠ [] := by
          intro hnil
          simp [hnil] at hroles
        refine ⟨by simp [EvaluatedBinding.slot, Slot.matchedBy, Slot.serves, hid, hne], _,
          mem_of_getElem? (rfl : scope.tiers[3]? = some _), rfl, ?_⟩
        simp [Tier.matching, hmatch, hne, hmember]
      | none =>
        refine ⟨by simp [EvaluatedBinding.slot, Slot.matchedBy, Slot.serves, hid, hne], _,
          mem_of_getElem? (rfl : scope.tiers[4]? = some _), rfl, ?_⟩
        simp [Tier.matching, hmatch, hne]
    | none =>
      cases teamId with
      | some id =>
        have hid : id = scope.teamId := by simpa using hteamId
        have hne : scope.teamId ≠ "" := hid ▸ hteam id rfl
        refine ⟨by simp [EvaluatedBinding.slot, Slot.matchedBy, Slot.serves, hid, hne], _,
          mem_of_getElem? (rfl : scope.tiers[5]? = some _), rfl, ?_⟩
        simp [Tier.matching, hmatch, hne]
      | none =>
        by_cases hpattern : accountPattern = "*"
        · refine ⟨by simp [EvaluatedBinding.slot, Slot.matchedBy, Slot.serves, hpattern], _,
            mem_of_getElem? (rfl : scope.tiers[7]? = some _), ?_, ?_⟩
          · show MatchedBy.channel = _
            simp [EvaluatedBinding.slot, Slot.matchedBy, hpattern]
          · simpa [Tier.matching, hpattern] using hmatch
        · refine ⟨by simp [EvaluatedBinding.slot, Slot.matchedBy, Slot.serves, hpattern], _,
            mem_of_getElem? (rfl : scope.tiers[6]? = some _), ?_, ?_⟩
          · show MatchedBy.account = _
            simp [EvaluatedBinding.slot, Slot.matchedBy, hpattern]
          · simp [Tier.matching, hmatch, hpattern]

/-- The parent's tier is offered what matches the parent. -/
theorem serves_parent (ht : t ∈ scope.tiers) (hparent : t.matchedBy = .peerParent) (h : t.matching scope b = true) :
    b.slot.serves scope .peerParent = true := by
  simp only [RouteScope.tiers, mem_cons, not_mem_nil, or_false] at ht
  rcases ht with rfl | rfl | rfl | rfl | rfl | rfl | rfl | rfl <;> cases hparent
  simp only [Tier.matching, matchesBindingScope, Bool.and_eq_true] at h
  obtain ⟨⟨_, hvalid⟩, ⟨⟨hpeer, _⟩, _⟩, _⟩ := h
  rcases b with ⟨binding, ⟨accountPattern, peer, guildId, teamId, roles⟩, order⟩
  cases peer <;> simp at hvalid
  rename_i kind id
  cases hscope : scope.parentPeer with
  | none => simp [hscope, NormalizedPeerConstraint.allows] at hpeer
  | some parent =>
    simp only [hscope, NormalizedPeerConstraint.allows] at hpeer
    simp only [EvaluatedBinding.slot, Slot.serves, hscope, Option.any_some]
    by_cases hid : parent.id = ""
    · simp [hid] at hpeer
    · simpa [Option.filter, hid] using hpeer

theorem scopePeer_of_not_parent (ht : t ∈ scope.tiers) (hparent : t.matchedBy ≠ .peerParent) :
    t.scopePeer = scope.peer := by
  simp only [RouteScope.tiers, mem_cons, not_mem_nil, or_false] at ht
  rcases ht with rfl | rfl | rfl | rfl | rfl | rfl | rfl | rfl <;> first | rfl | exact absurd rfl hparent

/-- The first match among the candidates of the index is the first among all bindings. -/
theorem firstMatch_build {cases : CaseTables} {bindings : List EvaluatedBinding} (horder : InOrder bindings)
    (hnormalized : ∀ b ∈ bindings, b.Normalized cases) (scope : RouteScope) :
    scope.firstMatch ((buildEvaluatedBindingsIndex bindings).candidates scope) =
      scope.firstMatch fun _ => bindings := by
  simp only [RouteScope.firstMatch, candidates_build horder]
  apply findSome?_narrowed (fun (t : Tier) b => t.matching scope b)
    (fun (t : Tier) b => b.slot.serves scope t.matchedBy) bindings
    (fun (t : Tier) found => found.map (·, t.matchedBy)) (fun _ => rfl) (fun _ _ => rfl)
    (fun (t : Tier) => t.matchedBy.rank) (tiers_ranked scope)
  intro t ht b hb hit
  by_cases hparent : t.matchedBy = .peerParent
  · exact .inl (hparent ▸ serves_parent ht hparent hit)
  · have hmatches := hit
    simp only [Tier.matching, Bool.and_eq_true, scopePeer_of_not_parent ht hparent] at hmatches
    obtain ⟨hserves, t', ht', hslot, hit'⟩ := matching_of_slot (hnormalized b hb) hmatches.2
    rcases Nat.lt_or_eq_of_le (slot_rank_le ht hmatches.1.2) with hlt | heq
    · exact .inr ⟨t', ht', hslot ▸ hlt, hit'⟩
    · left
      have hsame : b.slot.matchedBy = t.matchedBy := by
        revert heq
        cases b.slot.matchedBy <;> cases t.matchedBy <;> simp [MatchedBy.rank]
      rw [← hsame]
      exact hserves

/-! ### The plain rule -/

section Plain
variable (cases : CaseTables)

/-- All bindings of a channel that are for an account, in the order of the configuration. -/
def plainBindings (cfg : RouteConfig) (channel accountId : String) : List EvaluatedBinding :=
  (channelBindings cases cfg channel).filter (·.isFor accountId)

/-- The route to the first binding, in the order of tiers and of the configuration, that
a tier is for and the scope matches. -/
def plainRoute (cfg : RouteConfig) (scope : RouteScope) : ResolvedAgentRoute :=
  scope.routeOf cases cfg (scope.firstMatch fun _ => plainBindings cases cfg scope.channel scope.accountId)

theorem firstMatch_scopedBindings (cfg : RouteConfig) (scope : RouteScope) :
    scope.firstMatch ((buildEvaluatedBindingsIndex (scopedBindings (buildEvaluatedBindingsByChannel cases cfg)
      scope.channel scope.accountId)).candidates scope) =
      scope.firstMatch fun _ => plainBindings cases cfg scope.channel scope.accountId := by
  rw [scopedBindings_eq]
  apply @firstMatch_build cases _ ((channelBindings_inOrder cases cfg scope.channel).filter _)
  intro b hb
  exact channelBindings_normalized cases cfg scope.channel b (mem_filter.mp hb).1

/-! ### Kept bindings -/

/-- What is kept of a configuration's bindings is what it would be computed as. -/
structure EvaluatedBindingsCache.Kept (cfg : RouteConfig) (cache : EvaluatedBindingsCache) : Prop where
  byChannel : cache.byChannel = buildEvaluatedBindingsByChannel cases cfg
  bindings : ∀ channel accountId hit, '\t' ∉ accountId.toList →
    cache.byChannelAccount.get? (channel ++ "\t" ++ accountId) = some hit →
      hit = scopedBindings (buildEvaluatedBindingsByChannel cases cfg) channel accountId
  index : ∀ channel accountId hit, '\t' ∉ accountId.toList →
    cache.byChannelAccountIndex.get? (channel ++ "\t" ++ accountId) = some hit →
      hit = buildEvaluatedBindingsIndex
        (scopedBindings (buildEvaluatedBindingsByChannel cases cfg) channel accountId)

/-- A key of a channel and an account is read back, as no account has a tab. -/
theorem channelAccountKey_inj {channel channel' accountId' : String} (h : '\t' ∉ accountId.toList)
    (h' : '\t' ∉ accountId'.toList) (he : channel ++ "\t" ++ accountId = channel' ++ "\t" ++ accountId') :
    channel = channel' ∧ accountId = accountId' := by
  have hlist := congrArg (List.reverse ∘ String.toList) he
  simp only [Function.comp_apply, String.toList_append, reverse_append, String.reduceToList,
    reverse_cons, reverse_nil, nil_append, singleton_append] at hlist
  obtain ⟨haccount, hchannel⟩ := append_cons_inj (by simpa using h) (by simpa using h') hlist
  exact ⟨String.toList_inj.mp (reverse_injective hchannel),
    String.toList_inj.mp (reverse_injective haccount)⟩

theorem no_tab_accountId (input : RouteInput) : '\t' ∉ (input.scope cases).accountId.toList := by
  intro h
  exact absurd (isIdChar_not_white ((normalizeAccountId_isNormalId input.accountId).chars '\t' h)) (by decide)

variable {cases} {cfg : RouteConfig}

theorem EvaluatedBindingsCache.kept_new :
    EvaluatedBindingsCache.Kept cases cfg {byChannel := buildEvaluatedBindingsByChannel cases cfg} :=
  ⟨rfl, fun _ _ _ _ h => by simp at h, fun _ _ _ _ h => by simp at h⟩

/-- A map in which every value is the one of its channel and account stays so when one more
is set, also when all others are dropped. -/
theorem set_channelAccount {α : Type*} (value : String → String → α) {map : InsertionMap String α}
    (hmap : ∀ channel accountId hit, '\t' ∉ accountId.toList →
      map.get? (channel ++ "\t" ++ accountId) = some hit → hit = value channel accountId)
    (channel : String) (h : '\t' ∉ accountId.toList) :
    ∀ channel' accountId' hit, '\t' ∉ accountId'.toList →
      (map.set (channel ++ "\t" ++ accountId) (value channel accountId)).get? (channel' ++ "\t" ++ accountId') =
        some hit → hit = value channel' accountId' := by
  intro channel' accountId' hit h' hget
  rw [InsertionMap.get?_set] at hget
  split at hget <;> rename_i hkey
  · obtain ⟨rfl, rfl⟩ := channelAccountKey_inj h' h hkey
    exact (Option.some.inj hget).symm
  · exact hmap channel' accountId' hit h' hget

theorem getEvaluatedBindingsForChannelAccount_kept {existing : Option EvaluatedBindingsCache}
    (hkept : ∀ cache ∈ existing, cache.Kept cases cfg) (channel : String)
    (h : '\t' ∉ accountId.toList) :
    (getEvaluatedBindingsForChannelAccount cases cfg channel accountId existing).1 =
        scopedBindings (buildEvaluatedBindingsByChannel cases cfg) channel accountId ∧
      (getEvaluatedBindingsForChannelAccount cases cfg channel accountId existing).2.Kept cases cfg := by
  have hcache : (existing.getD {byChannel := buildEvaluatedBindingsByChannel cases cfg}).Kept cases cfg := by
    cases existing with
    | none => exact EvaluatedBindingsCache.kept_new
    | some cache => exact hkept cache rfl
  let inScope := scopedBindings (buildEvaluatedBindingsByChannel cases cfg)
  let indexed := fun channel accountId => buildEvaluatedBindingsIndex (inScope channel accountId)
  rw [getEvaluatedBindingsForChannelAccount]
  generalize existing.getD {byChannel := buildEvaluatedBindingsByChannel cases cfg} = cache at hcache
  dsimp only
  cases hget : cache.byChannelAccount.get? (channel ++ "\t" ++ accountId) with
  | some hit => exact ⟨hcache.bindings channel accountId hit h hget, hcache⟩
  | none =>
    dsimp only
    rw [hcache.byChannel]
    split
    · exact ⟨rfl, rfl, set_channelAccount inScope (fun _ _ _ _ hempty => by cases hempty) channel h,
        set_channelAccount indexed (fun _ _ _ _ hempty => by cases hempty) channel h⟩
    · exact ⟨rfl, rfl, set_channelAccount inScope hcache.bindings channel h,
        set_channelAccount indexed hcache.index channel h⟩

theorem computeRoute_kept {existing : Option EvaluatedBindingsCache}
    (hkept : ∀ cache ∈ existing, cache.Kept cases cfg) (h : '\t' ∉ scope.accountId.toList) :
    (computeRoute cases cfg scope existing).1 = plainRoute cases cfg scope ∧
      (computeRoute cases cfg scope existing).2.Kept cases cfg := by
  obtain ⟨_, hcache⟩ := getEvaluatedBindingsForChannelAccount_kept hkept scope.channel h
  rw [computeRoute]
  dsimp only
  generalize (getEvaluatedBindingsForChannelAccount cases cfg scope.channel scope.accountId existing).2 = cache
    at hcache ⊢
  have hsome : ∀ kept ∈ some cache, kept.Kept cases cfg := by
    rintro _ ⟨⟩
    exact hcache
  obtain ⟨hbindings, hcache⟩ := getEvaluatedBindingsForChannelAccount_kept hsome scope.channel h
  rw [getEvaluatedBindingIndexForChannelAccount]
  generalize getEvaluatedBindingsForChannelAccount cases cfg scope.channel scope.accountId (some cache) = found
    at hbindings hcache ⊢
  obtain ⟨bindings, cache⟩ := found
  dsimp only at hbindings hcache ⊢
  subst hbindings
  cases hget : cache.byChannelAccountIndex.get? (scope.channel ++ "\t" ++ scope.accountId) with
  | some indexed =>
    obtain rfl := hcache.index _ _ _ h hget
    exact ⟨congrArg (scope.routeOf cases cfg) (firstMatch_scopedBindings cases cfg scope), hcache⟩
  | none =>
    exact ⟨congrArg (scope.routeOf cases cfg) (firstMatch_scopedBindings cases cfg scope),
      hcache.byChannel, hcache.bindings,
      set_channelAccount (fun channel accountId => buildEvaluatedBindingsIndex
        (scopedBindings (buildEvaluatedBindingsByChannel cases cfg) channel accountId)) hcache.index scope.channel h⟩

/-- What is kept of the bindings after a call. -/
theorem resolveAgentRoute_kept (hkept : ∀ cache ∈ caches.evaluated, cache.Kept cases cfg)
    (shouldLogDebug : Bool) (input : RouteInput) :
    ∀ cache ∈ (resolveAgentRoute cases cfg shouldLogDebug input caches).2.evaluated, cache.Kept cases cfg := by
  have hcompute := (computeRoute_kept hkept (no_tab_accountId cases input)).2
  rw [resolveAgentRoute]
  dsimp only
  split
  · rintro cache ⟨⟩
    exact hcompute
  · cases caches.byKey.get? (buildResolvedRouteCacheKey (input.scope cases) (cfg.dmScope.getD .main)) with
    | some route => exact hkept
    | none =>
      rintro cache ⟨⟩
      exact hcompute

theorem resolveAll_kept (calls : List (Bool × RouteInput))
    (hkept : ∀ cache ∈ caches.evaluated, cache.Kept cases cfg) :
    ∀ cache ∈ (resolveAll cases cfg calls caches).2.evaluated, cache.Kept cases cfg := by
  induction calls generalizing caches with
  | nil => exact hkept
  | cons call rest ih => exact ih (resolveAgentRoute_kept hkept call.1 call.2)

/-- With no routes kept, a call computes its route. -/
theorem resolveAgentRoute_computed (hkept : ∀ cache ∈ caches.evaluated, cache.Kept cases cfg)
    (hroutes : caches.byKey = ∅) (shouldLogDebug : Bool) (input : RouteInput) :
    (resolveAgentRoute cases cfg shouldLogDebug input caches).1 = plainRoute cases cfg (input.scope cases) := by
  have hroute := (computeRoute_kept hkept (no_tab_accountId cases input)).1
  rw [resolveAgentRoute]
  dsimp only
  split
  · exact hroute
  · rw [hroutes]
    exact hroute

end Plain

/-- After any calls, a route computed without the kept routes is the plain rule's. -/
theorem computed_route_plain (cases : CaseTables) (cfg : RouteConfig) (before : List (Bool × RouteInput))
    (shouldLogDebug : Bool) (input : RouteInput) :
    (resolveAgentRoute cases cfg shouldLogDebug input {(resolveAll cases cfg before {}).2 with byKey := ∅}).1 =
      plainRoute cases cfg (input.scope cases) := by
  apply resolveAgentRoute_computed _ rfl
  exact resolveAll_kept before (by rintro _ ⟨⟩)

end OpenClaw.Routing
