import OpenClaw.Routing.RouteTiers

/-! Kept routes.

A route is kept under a key made of the input's fields, joined by tabs. Inputs with one
key share the route, so the key has to tell apart what routing tells apart. It does for
inputs whose fields hold no tab and are not the placeholder of a missing field, with no
comma in a role; a peer with an empty id is keyed as no peer. -/
namespace OpenClaw.Routing
open Foundation List
open Foundation.Buckets

/-! ### Keys -/

/-- The fields that are joined by tabs hold none, none is the placeholder of a missing
field, a peer has an id and no role has a comma. -/
structure RouteScope.Clean (scope : RouteScope) : Prop where
  channel : '\t' ∉ scope.channel.toList
  peer : ∀ peer ∈ scope.peer, peer.id ≠ "" ∧ '\t' ∉ peer.id.toList
  parentPeer : ∀ peer ∈ scope.parentPeer, '\t' ∉ peer.id.toList
  guildId : scope.guildId ≠ "-" ∧ '\t' ∉ scope.guildId.toList
  teamId : scope.teamId ≠ "-" ∧ '\t' ∉ scope.teamId.toList
  roles : scope.memberRoleIds ≠ ["-"] ∧
    ∀ role ∈ scope.memberRoleIds, '\t' ∉ role.toList ∧ ',' ∉ role.toList

/-- Roles that are listed are keyed by their sorted list. -/
theorem formatRoleIdsCacheKey_eq {roleIds : List String} (h : roleIds ≠ []) :
    formatRoleIdsCacheKey roleIds = ",".intercalate (roleIds.insertionSort unitsLe) := by
  match roleIds, h with
  | [id], _ => simp [formatRoleIdsCacheKey]
  | [first, second], _ =>
    by_cases hle : unitsLe first second <;>
      simp [formatRoleIdsCacheKey, hle, String.append_assoc, String.intercalate_cons_cons]
  | _ :: _ :: _ :: _, _ => rfl

theorem formatRoleIdsCacheKey_perm {roleIds roleIds' : List String} (hne : roleIds ≠ ["-"])
    (hne' : roleIds' ≠ ["-"]) (h : ∀ role ∈ roleIds, ',' ∉ role.toList)
    (h' : ∀ role ∈ roleIds', ',' ∉ role.toList)
    (he : formatRoleIdsCacheKey roleIds = formatRoleIdsCacheKey roleIds') : roleIds.Perm roleIds' := by
  -- Roles that are not listed are keyed as the one role "-" would be.
  let listed : List String → List String := fun ids => if ids = [] then ["-"] else ids
  have hkey : ∀ ids, formatRoleIdsCacheKey ids = ",".intercalate ((listed ids).insertionSort unitsLe) := by
    intro ids
    by_cases hnil : ids = []
    · simp [listed, hnil, formatRoleIdsCacheKey]
    · simp only [listed, hnil, if_false, formatRoleIdsCacheKey_eq hnil]
  have hlisted : ∀ ids, (listed ids).insertionSort unitsLe ≠ [] := by
    intro ids
    apply ne_nil_of_length_pos
    rw [length_insertionSort]
    by_cases hnil : ids = []
    · simp [listed, hnil]
    · simpa [listed, hnil] using length_pos_of_ne_nil hnil
  have hfree : ∀ ids : List String, (∀ role ∈ ids, ',' ∉ role.toList) →
      ∀ role ∈ (listed ids).insertionSort unitsLe, ',' ∉ role.toList := by
    intro ids hids role hrole
    rw [mem_insertionSort] at hrole
    by_cases hnil : ids = []
    · obtain rfl : role = "-" := by simpa [listed, hnil] using hrole
      decide
    · exact hids role (by simpa [listed, hnil] using hrole)
  rw [hkey, hkey] at he
  have hsorted := intercalate_inj (by rfl) (hlisted roleIds) (hlisted roleIds') (hfree roleIds h)
    (hfree roleIds' h') he
  have hperm : (listed roleIds).Perm (listed roleIds') :=
    (perm_insertionSort unitsLe _).symm.trans (hsorted ▸ perm_insertionSort unitsLe _)
  by_cases hnil : roleIds = [] <;> by_cases hnil' : roleIds' = []
  · rw [hnil, hnil']
  · simp only [listed, hnil, hnil', if_true, if_false] at hperm
    exact absurd (perm_singleton.mp hperm.symm) hne'
  · simp only [listed, hnil, hnil', if_true, if_false] at hperm
    exact absurd (perm_singleton.mp hperm) hne
  · simpa only [listed, hnil, hnil', if_false] using hperm

theorem chatType_text_inj {kind kind' : ChatType} (h : kind.text = kind'.text) : kind = kind' := by
  cases kind <;> cases kind' <;> first | rfl | exact absurd h (by decide)

theorem colon_not_mem_text (kind : ChatType) : ':' ∉ kind.text.toList := by
  cases kind <;> decide

/-- Peers with one key are the same, where a peer with an empty id counts as none. -/
theorem formatRouteCachePeer_inj {peer peer' : Option RoutePeer}
    (h : formatRouteCachePeer peer = formatRouteCachePeer peer') :
    peer.filter (fun peer => peer.id ≠ "") = peer'.filter fun peer => peer.id ≠ "" := by
  have hform : ∀ peer : Option RoutePeer, formatRouteCachePeer peer =
      (peer.filter fun peer => peer.id ≠ "").elim "-" fun peer => peer.kind.text ++ ":" ++ peer.id := by
    intro peer
    rcases peer with _ | ⟨kind, id⟩
    · rfl
    · by_cases hid : id = "" <;> simp [formatRouteCachePeer, Option.filter, hid]
  have hcolon : ∀ kind : ChatType, ∀ id, kind.text ++ ":" ++ id ≠ "-" := by
    intro kind id he
    have := congrArg (fun s : String => ':' ∈ s.toList) he
    simp [String.toList_append] at this
  rw [hform, hform] at h
  generalize peer.filter (fun peer => peer.id ≠ "") = found at h ⊢
  generalize peer'.filter (fun peer => peer.id ≠ "") = found' at h ⊢
  rcases found with _ | ⟨kind, id⟩ <;> rcases found' with _ | ⟨kind', id'⟩
  · rfl
  · exact absurd h.symm (hcolon kind' id')
  · exact absurd h (hcolon kind id)
  · have hlist := congrArg String.toList h
    simp only [Option.elim_some, String.toList_append, append_assoc] at hlist
    obtain ⟨hkind, hid⟩ := append_cons_inj (colon_not_mem_text kind) (colon_not_mem_text kind') hlist
    rw [chatType_text_inj (String.toList_inj.mp hkind), String.toList_inj.mp hid]

/-! ### Inputs with one key -/

/-- Inputs that routing does not tell apart. -/
structure RouteScope.Same (scope scope' : RouteScope) : Prop where
  channel : scope.channel = scope'.channel
  accountId : scope.accountId = scope'.accountId
  peer : scope.peer = scope'.peer
  parentPeer : (scope.parentPeer.filter fun peer => peer.id ≠ "") =
    scope'.parentPeer.filter fun peer => peer.id ≠ ""
  guildId : scope.guildId = scope'.guildId
  teamId : scope.teamId = scope'.teamId
  roles : scope.memberRoleIds.Perm scope'.memberRoleIds

/-- The fields a key is made of. -/
def RouteScope.keyFields (scope : RouteScope) (dmScope : DmScope) : List String :=
  [scope.channel, scope.accountId, formatRouteCachePeer scope.peer, formatRouteCachePeer scope.parentPeer,
    if scope.guildId = "" then "-" else scope.guildId, if scope.teamId = "" then "-" else scope.teamId,
    formatRoleIdsCacheKey scope.memberRoleIds, dmScope.text]

theorem formatRouteCachePeer_no_tab {peer : Option RoutePeer} (h : ∀ found ∈ peer, '\t' ∉ found.id.toList) :
    '\t' ∉ (formatRouteCachePeer peer).toList := by
  rcases peer with _ | ⟨kind, id⟩
  · decide
  · have hid := h ⟨kind, id⟩ rfl
    rw [formatRouteCachePeer]
    split
    · decide
    · cases kind <;> simpa [String.toList_append, ChatType.text] using hid

theorem formatRoleIdsCacheKey_no_tab {roleIds : List String} (h : ∀ role ∈ roleIds, '\t' ∉ role.toList) :
    '\t' ∉ (formatRoleIdsCacheKey roleIds).toList := by
  by_cases hnil : roleIds = []
  · rw [hnil]
    decide
  · rw [formatRoleIdsCacheKey_eq hnil]
    apply not_mem_intercalate (by decide)
    intro role hrole
    exact h role ((mem_insertionSort _).mp hrole)

theorem RouteScope.Clean.no_tab {scope : RouteScope} (h : scope.Clean) (haccount : '\t' ∉ scope.accountId.toList)
    (dmScope : DmScope) : ∀ field ∈ scope.keyFields dmScope, '\t' ∉ field.toList := by
  have hplaceholder : ∀ id : String, '\t' ∉ id.toList → '\t' ∉ (if id = "" then "-" else id).toList := by
    intro id hid
    split
    · decide
    · exact hid
  intro field hfield
  simp only [keyFields, mem_cons, not_mem_nil, or_false] at hfield
  rcases hfield with rfl | rfl | rfl | rfl | rfl | rfl | rfl | rfl
  · exact h.channel
  · exact haccount
  · exact formatRouteCachePeer_no_tab fun peer hpeer => (h.peer peer hpeer).2
  · exact formatRouteCachePeer_no_tab h.parentPeer
  · exact hplaceholder _ h.guildId.2
  · exact hplaceholder _ h.teamId.2
  · exact formatRoleIdsCacheKey_no_tab fun role hrole => (h.roles.2 role hrole).1
  · cases dmScope <;> decide

theorem RouteScope.Clean.peer_filter {scope : RouteScope} (h : scope.Clean) :
    (scope.peer.filter fun peer => peer.id ≠ "") = scope.peer := by
  cases hpeer : scope.peer with
  | none => rfl
  | some peer => simp [Option.filter, (h.peer peer hpeer).1]

/-- Clean inputs with one key are not told apart. -/
theorem same_of_key {scope scope' : RouteScope} (h : scope.Clean) (h' : scope'.Clean)
    (haccount : '\t' ∉ scope.accountId.toList) (haccount' : '\t' ∉ scope'.accountId.toList) {dmScope : DmScope}
    (he : buildResolvedRouteCacheKey scope dmScope = buildResolvedRouteCacheKey scope' dmScope) :
    scope.Same scope' := by
  have hplaceholder : ∀ id id' : String, id ≠ "-" → id' ≠ "-" →
      (if id = "" then "-" else id) = (if id' = "" then "-" else id') → id = id' := by
    intro id id' hid hid' hsame
    split_ifs at hsame with hempty hempty'
    · rw [hempty, hempty']
    · exact absurd hsame.symm hid'
    · exact absurd hsame hid
    · exact hsame
  have hfields : scope.keyFields dmScope = scope'.keyFields dmScope :=
    intercalate_inj (by rfl) (by simp [RouteScope.keyFields]) (by simp [RouteScope.keyFields])
      (h.no_tab haccount dmScope) (h'.no_tab haccount' dmScope) he
  simp only [RouteScope.keyFields, List.cons.injEq, and_true] at hfields
  obtain ⟨hchannel, haccountId, hpeer, hparent, hguild, hteam, hroles⟩ := hfields
  refine ⟨hchannel, haccountId, ?_, formatRouteCachePeer_inj hparent,
    hplaceholder _ _ h.guildId.1 h'.guildId.1 hguild, hplaceholder _ _ h.teamId.1 h'.teamId.1 hteam,
    formatRoleIdsCacheKey_perm h.roles.1 h'.roles.1 (fun role hrole => (h.roles.2 role hrole).2)
      (fun role hrole => (h'.roles.2 role hrole).2) hroles⟩
  rw [← h.peer_filter, ← h'.peer_filter]
  exact formatRouteCachePeer_inj hpeer

/-- Inputs that are not told apart have one route. -/
theorem plainRoute_same (cases : CaseTables) (cfg : RouteConfig) {scope scope' : RouteScope}
    (h : scope.Same scope') : plainRoute cases cfg scope = plainRoute cases cfg scope' := by
  obtain ⟨channel, accountId, peer, parentPeer, guildId, teamId, memberRoleIds⟩ := scope
  obtain ⟨channel', accountId', peer', parentPeer', guildId', teamId', memberRoleIds'⟩ := scope'
  obtain ⟨rfl, rfl, rfl, hparent, rfl, rfl, hroles⟩ := h
  dsimp only at hparent hroles
  set scope : RouteScope := ⟨channel, accountId, peer, parentPeer, guildId, teamId, memberRoleIds⟩ with hscope
  set scope' : RouteScope := ⟨channel, accountId, peer, parentPeer', guildId, teamId, memberRoleIds'⟩ with hscope'
  have hany : (parentPeer.any fun peer => peer.id ≠ "") = parentPeer'.any fun peer => peer.id ≠ "" := by
    have := congrArg Option.isSome hparent
    simpa only [Option.isSome_filter] using this
  have hnil : decide (memberRoleIds ≠ []) = decide (memberRoleIds' ≠ []) := by
    apply decide_eq_decide.mpr
    rw [ne_eq, ne_eq, ← length_eq_zero_iff, ← length_eq_zero_iff, hroles.length_eq]
  have htiers : scope.tiers = scope'.tiers := by
    simp only [RouteScope.tiers, hscope, hscope', hany, hnil, hparent]
  have hmatching : ∀ t : Tier, t.matching scope = t.matching scope' := by
    intro t
    funext b
    simp only [Tier.matching, matchesBindingScope, hscope, hscope', hroles.mem_iff]
  have hfirst : ∀ bindings, (scope.firstMatch fun _ => bindings) = scope'.firstMatch fun _ => bindings := by
    intro bindings
    simp only [RouteScope.firstMatch, htiers, hmatching]
  show scope.routeOf cases cfg _ = scope'.routeOf cases cfg _
  rw [hfirst]
  rfl

/-! ### Runs -/

section Runs
variable {cases : CaseTables} {cfg : RouteConfig}

/-- What is kept is what would be computed, and a route is kept for a clean input. -/
structure RouteCaches.Fresh (cases : CaseTables) (cfg : RouteConfig) (caches : RouteCaches) : Prop where
  evaluated : ∀ cache ∈ caches.evaluated, cache.Kept cases cfg
  byKey : ∀ key route, caches.byKey.get? key = some route →
    ∃ input : RouteInput, (input.scope cases).Clean ∧
      key = buildResolvedRouteCacheKey (input.scope cases) (cfg.dmScope.getD .main) ∧
      route = plainRoute cases cfg (input.scope cases)

theorem RouteCaches.fresh_empty : RouteCaches.Fresh cases cfg {} :=
  ⟨by rintro _ ⟨⟩, fun _ _ h => by cases h⟩

/-- The call computes its route, or its input is clean. -/
def KeyedApart (cases : CaseTables) (cfg : RouteConfig) (call : Bool × RouteInput) : Prop :=
  (call.1 || cfg.identityLinks.isSome) = true ∨ (call.2.scope cases).Clean

theorem resolveAgentRoute_fresh {caches : RouteCaches} (hfresh : caches.Fresh cases cfg) {shouldLogDebug : Bool}
    {input : RouteInput} (h : KeyedApart cases cfg (shouldLogDebug, input)) :
    (resolveAgentRoute cases cfg shouldLogDebug input caches).1 = plainRoute cases cfg (input.scope cases) ∧
      (resolveAgentRoute cases cfg shouldLogDebug input caches).2.Fresh cases cfg := by
  obtain ⟨hroute, hkept⟩ := computeRoute_kept hfresh.evaluated (no_tab_accountId cases input)
  have hevaluated := resolveAgentRoute_kept hfresh.evaluated shouldLogDebug input
  revert hevaluated
  rw [resolveAgentRoute]
  dsimp only
  split <;> rename_i hskip
  · exact fun hevaluated => ⟨hroute, hevaluated, hfresh.byKey⟩
  · have hclean : (input.scope cases).Clean := h.resolve_left hskip
    cases hget : caches.byKey.get? (buildResolvedRouteCacheKey (input.scope cases) (cfg.dmScope.getD .main)) with
    | some route =>
      obtain ⟨kept, hkeptClean, hkey, rfl⟩ := hfresh.byKey _ _ hget
      have hsame := same_of_key hkeptClean hclean (no_tab_accountId cases kept) (no_tab_accountId cases input)
        hkey.symm
      exact fun _ => ⟨plainRoute_same cases cfg hsame, hfresh⟩
    | none =>
      intro hevaluated
      refine ⟨hroute, hevaluated, ?_⟩
      intro key route hin
      dsimp only at hin
      split at hin <;> rw [InsertionMap.get?_set] at hin <;> split at hin
      · exact ⟨input, hclean, by assumption, (Option.some.inj hin).symm.trans hroute⟩
      · cases hin
      · exact ⟨input, hclean, by assumption, (Option.some.inj hin).symm.trans hroute⟩
      · exact hfresh.byKey key route hin

theorem resolveAll_fresh {calls : List (Bool × RouteInput)} (h : ∀ call ∈ calls, KeyedApart cases cfg call)
    {caches : RouteCaches} (hfresh : caches.Fresh cases cfg) :
    (resolveAll cases cfg calls caches).1 = calls.map fun call => plainRoute cases cfg (call.2.scope cases) := by
  induction calls generalizing caches with
  | nil => rfl
  | cons call rest ih =>
    obtain ⟨hroute, hnext⟩ := resolveAgentRoute_fresh hfresh (h call mem_cons_self)
    rw [map_cons, ← hroute, ← ih (fun c hc => h c (mem_cons_of_mem _ hc)) hnext]
    rfl

theorem resolveAgentRoute_first (shouldLogDebug : Bool) (input : RouteInput) :
    (resolveAgentRoute cases cfg shouldLogDebug input {}).1 = plainRoute cases cfg (input.scope cases) := by
  exact resolveAgentRoute_computed (by rintro _ ⟨⟩) rfl shouldLogDebug input

/-- The second of two inputs with one key is given the route of the first. -/
theorem resolveAll_shared (hlinks : cfg.identityLinks = none) {input input' : RouteInput}
    (hkey : buildResolvedRouteCacheKey (input.scope cases) (cfg.dmScope.getD .main) =
      buildResolvedRouteCacheKey (input'.scope cases) (cfg.dmScope.getD .main)) :
    (resolveAll cases cfg [(false, input), (false, input')] {}).1 =
      [plainRoute cases cfg (input.scope cases), plainRoute cases cfg (input.scope cases)] := by
  have hfirst := @resolveAgentRoute_first cases cfg false input
  have hkept : (resolveAgentRoute cases cfg false input {}).2.byKey.get?
      (buildResolvedRouteCacheKey (input'.scope cases) (cfg.dmScope.getD .main)) =
        some (plainRoute cases cfg (input.scope cases)) := by
    rw [← hfirst, ← hkey]
    simp only [resolveAgentRoute, hlinks, InsertionMap.get?_empty, Option.isSome_none, Bool.or_self,
      Bool.false_eq_true, if_false]
    split <;> exact InsertionMap.get?_set_self _ _ _
  have hsecond : ∀ caches : RouteCaches, caches.byKey.get?
      (buildResolvedRouteCacheKey (input'.scope cases) (cfg.dmScope.getD .main)) =
        some (plainRoute cases cfg (input.scope cases)) →
      (resolveAgentRoute cases cfg false input' caches).1 = plainRoute cases cfg (input.scope cases) := by
    intro caches hget
    simp only [resolveAgentRoute, hlinks, hget, Option.isSome_none, Bool.or_self, Bool.false_eq_true, if_false]
  simp only [resolveAll, hfirst, hsecond _ hkept]

end Runs

/-- Calls whose inputs the keys tell apart are answered as with nothing kept. -/
theorem kept_routes_transparent (cases : CaseTables) (cfg : RouteConfig) (calls : List (Bool × RouteInput))
    (h : ∀ call ∈ calls, KeyedApart cases cfg call) :
    (resolveAll cases cfg calls {}).1 = calls.map fun call => (resolveAgentRoute cases cfg call.1 call.2 {}).1 := by
  rw [resolveAll_fresh h RouteCaches.fresh_empty]
  apply map_congr_left
  intro call hcall
  exact (resolveAgentRoute_fresh RouteCaches.fresh_empty (h call hcall)).1.symm

/-- A group asked for twice, with its roles the other way round the second time. -/
def groupCalls : List (Bool × RouteInput) := [
  (false, {channel := "discord", peer := some ⟨.group, "g"⟩, memberRoleIds := some ["r1", "r2"]}),
  (false, {channel := "discord", peer := some ⟨.group, "g"⟩, memberRoleIds := some ["r2", "r1"]})]

theorem kept_routes_transparent_groupCalls :
    (∀ call ∈ groupCalls, KeyedApart asciiTables {} call) ∧
      (resolveAll asciiTables {} groupCalls {}).1 =
        groupCalls.map fun call => (resolveAgentRoute asciiTables {} call.1 call.2 {}).1 := by
  have h : ∀ call ∈ groupCalls, KeyedApart asciiTables {} call := by
    intro call hcall
    right
    rcases hcall with _ | ⟨_, _ | ⟨_, ⟨⟩⟩⟩ <;>
      exact ⟨by decide, by rintro _ ⟨⟩; decide, by rintro _ ⟨⟩, by decide, by decide, by decide⟩
  exact ⟨h, kept_routes_transparent asciiTables {} groupCalls h⟩

/-- A group without an id, then no peer. -/
def unnamedGroupCalls : List (Bool × RouteInput) :=
  [(false, {channel := "discord", peer := some ⟨.group, ""⟩}), (false, {channel := "discord"})]

/-- The second call is answered with the session of the unnamed group. -/
theorem kept_routes_not_transparent :
    ¬ (resolveAll asciiTables {} unnamedGroupCalls {}).1 =
      unnamedGroupCalls.map fun call => (resolveAgentRoute asciiTables {} call.1 call.2 {}).1 := by
  have hshared : (resolveAll asciiTables {} unnamedGroupCalls {}).1 = _ := resolveAll_shared rfl (by decide)
  rw [hshared]
  simp only [unnamedGroupCalls, map_cons, map_nil, resolveAgentRoute_first, List.cons.injEq, and_true,
    true_and]
  decide

end OpenClaw.Routing
