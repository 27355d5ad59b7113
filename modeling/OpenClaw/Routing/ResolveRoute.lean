import Mathlib.Data.List.Lex
import Mathlib.Data.List.Sort
import OpenClaw.Config.Json5String
import OpenClaw.Routing.Bindings

/-! Which agent a conversation goes to.

The bindings of the channel and account are tried tier by tier, from those to the peer
itself down to those to the whole channel; the first that matches names the agent. A
configuration keeps what was computed for it: the bindings of each channel and account
with their index, and the routes themselves, under a key made of the input. -/
namespace OpenClaw.Routing
open Foundation
open Foundation.EcmaString (trim trimmed trimmed?)
open Cron (normalizeAgentId)

/-! ### Data -/

structure RouteInput where
  channel : String
  accountId : Option String := none
  peer : Option RoutePeer := none
  parentPeer : Option RoutePeer := none
  guildId : Option String := none
  teamId : Option String := none
  memberRoleIds : Option (List String) := none
  deriving DecidableEq

inductive MatchedBy
  | peer | peerParent | peerWildcard | guildRoles | guild | team | account | channel | default
  deriving DecidableEq, Repr

inductive LastRoutePolicy
  | main | session
  deriving DecidableEq, Repr

structure ResolvedAgentRoute where
  agentId : String
  channel : String
  accountId : String
  sessionKey : String
  mainSessionKey : String
  lastRoutePolicy : LastRoutePolicy
  matchedBy : MatchedBy
  deriving DecidableEq

def deriveLastRoutePolicy (sessionKey mainSessionKey : String) : LastRoutePolicy :=
  if sessionKey = mainSessionKey then .main else .session

def MAX_EVALUATED_BINDINGS_CACHE_KEYS : Nat := 2000
def MAX_RESOLVED_ROUTE_CACHE_KEYS : Nat := 4000

/-! ### Agents -/

def resolveDefaultAgentId (cfg : RouteConfig) : String :=
  let agents := cfg.agents.getD []
  if agents.isEmpty then DEFAULT_AGENT_ID
  else
    let chosen := ((agents.filter AgentEntry.default).head?.or agents.head?).bind fun agent => trimmed? agent.id
    normalizeAgentId (some (chosen.getD DEFAULT_AGENT_ID))

/-- The agents of the configuration, by their normalised ids. -/
def agentsByNormalizedId (cfg : RouteConfig) : InsertionMap String String :=
  ((cfg.agents.getD []).filterMap fun agent => trimmed? agent.id).foldl
    (fun byNormalizedId rawId => byNormalizedId.set (normalizeAgentId (some rawId)) (normalizeAgentId (some rawId))) ∅

def pickFirstExistingAgentId (cfg : RouteConfig) (agentId : String) : String :=
  let fallbackDefaultAgentId := normalizeAgentId (some (resolveDefaultAgentId cfg))
  match trimmed agentId with
  | none => fallbackDefaultAgentId
  | some agentId =>
    if (agentsByNormalizedId cfg).size = 0 then normalizeAgentId (some agentId)
    else ((agentsByNormalizedId cfg).get? (normalizeAgentId (some agentId))).getD fallbackDefaultAgentId

/-! ### Inputs -/

/-- An input as it is matched and put into keys. -/
structure RouteScope where
  channel : String
  accountId : String
  peer : Option RoutePeer
  parentPeer : Option RoutePeer
  guildId : String
  teamId : String
  memberRoleIds : List String
  deriving DecidableEq

section Routes
variable (cases : CaseTables)

def RouteInput.scope (input : RouteInput) : RouteScope where
  channel := normalizeToken cases (some input.channel)
  accountId := normalizeAccountId input.accountId
  peer := input.peer.map fun peer => ⟨peer.kind, trim peer.id⟩
  parentPeer := input.parentPeer.map fun peer => ⟨peer.kind, trim peer.id⟩
  guildId := normalizeId input.guildId
  teamId := normalizeId input.teamId
  memberRoleIds := input.memberRoleIds.getD []

def buildAgentSessionKey (agentId : String) (scope : RouteScope) (dmScope : DmScope)
    (identityLinks : Option IdentityLinks) : String :=
  buildAgentPeerSessionKey cases {
    agentId := agentId
    mainKey := some DEFAULT_MAIN_KEY
    channel := channelToken cases (some scope.channel)
    accountId := some scope.accountId
    peerKind := some ((scope.peer.map RoutePeer.kind).getD .direct)
    peerId := scope.peer.map fun peer => if trim peer.id = "" then "unknown" else trim peer.id
    dmScope := some dmScope
    identityLinks := identityLinks}

/-! ### Tiers -/

/-- A tier: the bindings tried, for which peer, and which of them it is for. -/
structure Tier where
  matchedBy : MatchedBy
  enabled : Bool
  scopePeer : Option RoutePeer
  predicate : EvaluatedBinding → Bool

def RouteScope.tiers (scope : RouteScope) : List Tier := [
  ⟨.peer, scope.peer.isSome, scope.peer, fun b => b.bound.peer matches .valid ..⟩,
  ⟨.peerParent, scope.parentPeer.any fun peer => peer.id ≠ "", scope.parentPeer.filter fun peer => peer.id ≠ "",
    fun b => b.bound.peer matches .valid ..⟩,
  ⟨.peerWildcard, scope.peer.isSome, scope.peer, fun b => b.bound.peer matches .wildcardKind ..⟩,
  ⟨.guildRoles, scope.guildId ≠ "" && scope.memberRoleIds ≠ [], scope.peer,
    fun b => b.bound.guildId.isSome && b.bound.roles.isSome⟩,
  ⟨.guild, scope.guildId ≠ "", scope.peer, fun b => b.bound.guildId.isSome && b.bound.roles.isNone⟩,
  ⟨.team, scope.teamId ≠ "", scope.peer, fun b => b.bound.teamId.isSome⟩,
  ⟨.account, true, scope.peer, fun b => b.bound.accountPattern ≠ "*"⟩,
  ⟨.channel, true, scope.peer, fun b => b.bound.accountPattern = "*"⟩]

/-- The binding of a tier. -/
def Tier.matching (tier : Tier) (scope : RouteScope) (b : EvaluatedBinding) : Bool :=
  tier.enabled && tier.predicate b &&
    matchesBindingScope b.bound ⟨tier.scopePeer, scope.guildId, scope.teamId, scope.memberRoleIds⟩

/-- The bindings the index has for a tier. -/
def EvaluatedBindingsIndex.candidates (index : EvaluatedBindingsIndex) (scope : RouteScope) :
    MatchedBy → List EvaluatedBinding
  | .peer => collectPeerIndexedBindings index scope.peer
  | .peerParent => collectPeerIndexedBindings index scope.parentPeer
  | .peerWildcard => index.byPeerWildcard
  | .guildRoles => if scope.guildId = "" then [] else (index.byGuildWithRoles.get? scope.guildId).getD []
  | .guild => if scope.guildId = "" then [] else (index.byGuild.get? scope.guildId).getD []
  | .team => if scope.teamId = "" then [] else (index.byTeam.get? scope.teamId).getD []
  | .account => index.byAccount
  | .channel => index.byChannel
  | .default => []

/-- The first candidate of the first tier that has one. -/
def RouteScope.firstMatch (scope : RouteScope) (candidates : MatchedBy → List EvaluatedBinding) :
    Option (EvaluatedBinding × MatchedBy) :=
  scope.tiers.findSome? fun tier => ((candidates tier.matchedBy).find? (tier.matching scope)).map (·, tier.matchedBy)

/-- The route to an agent. -/
def RouteScope.choose (cfg : RouteConfig) (agentId : String) (matchedBy : MatchedBy) (scope : RouteScope) :
    ResolvedAgentRoute :=
  let resolvedAgentId := pickFirstExistingAgentId cfg agentId
  let sessionKey := cases.toLowerCase
    (buildAgentSessionKey cases resolvedAgentId scope (cfg.dmScope.getD .main) cfg.identityLinks)
  let mainSessionKey := cases.toLowerCase
    (buildAgentMainSessionKey cases (some resolvedAgentId) (some DEFAULT_MAIN_KEY))
  ⟨resolvedAgentId, scope.channel, scope.accountId, sessionKey, mainSessionKey,
    deriveLastRoutePolicy sessionKey mainSessionKey, matchedBy⟩

/-- The route a match gives, or the default. -/
def RouteScope.routeOf (cfg : RouteConfig) (scope : RouteScope) (found : Option (EvaluatedBinding × MatchedBy)) :
    ResolvedAgentRoute :=
  match found with
  | some (matched, matchedBy) => scope.choose cases cfg matched.binding.agentId matchedBy
  | none => scope.choose cases cfg (resolveDefaultAgentId cfg) .default

/-! ### What is kept of the bindings -/

structure EvaluatedBindingsCache where
  byChannel : InsertionMap String EvaluatedBindingsByChannel
  byChannelAccount : InsertionMap String (List EvaluatedBinding) := ∅
  byChannelAccountIndex : InsertionMap String EvaluatedBindingsIndex := ∅

/-- What is kept of a configuration. -/
structure RouteCaches where
  evaluated : Option EvaluatedBindingsCache := none
  byKey : InsertionMap String ResolvedAgentRoute := ∅

/-- The bindings of a channel and an account. -/
def scopedBindings (byChannel : InsertionMap String EvaluatedBindingsByChannel) (channel accountId : String) :
    List EvaluatedBinding :=
  let channelBindings := byChannel.get? channel
  mergeEvaluatedBindingsInSourceOrder
    ((channelBindings.bind fun bucket => bucket.byAccount.get? accountId).getD [])
    ((channelBindings.map EvaluatedBindingsByChannel.byAnyAccount).getD [])

def getEvaluatedBindingsForChannelAccount (cfg : RouteConfig) (channel accountId : String)
    (existing : Option EvaluatedBindingsCache) : List EvaluatedBinding × EvaluatedBindingsCache :=
  let cache := existing.getD {byChannel := buildEvaluatedBindingsByChannel cases cfg}
  let cacheKey := channel ++ "\t" ++ accountId
  match cache.byChannelAccount.get? cacheKey with
  | some hit => (hit, cache)
  | none =>
    let evaluated := scopedBindings cache.byChannel channel accountId
    let byChannelAccount := cache.byChannelAccount.set cacheKey evaluated
    let byChannelAccountIndex := cache.byChannelAccountIndex.set cacheKey (buildEvaluatedBindingsIndex evaluated)
    if MAX_EVALUATED_BINDINGS_CACHE_KEYS < byChannelAccount.size then
      (evaluated, {cache with
        byChannelAccount := InsertionMap.set ∅ cacheKey evaluated
        byChannelAccountIndex := InsertionMap.set ∅ cacheKey (buildEvaluatedBindingsIndex evaluated)})
    else (evaluated, {cache with
      byChannelAccount := byChannelAccount
      byChannelAccountIndex := byChannelAccountIndex})

def getEvaluatedBindingIndexForChannelAccount (cfg : RouteConfig) (channel accountId : String)
    (existing : Option EvaluatedBindingsCache) : EvaluatedBindingsIndex × EvaluatedBindingsCache :=
  let (bindings, cache) := getEvaluatedBindingsForChannelAccount cases cfg channel accountId existing
  let cacheKey := channel ++ "\t" ++ accountId
  match cache.byChannelAccountIndex.get? cacheKey with
  | some indexed => (indexed, cache)
  | none =>
    let built := buildEvaluatedBindingsIndex bindings
    (built, {cache with byChannelAccountIndex := cache.byChannelAccountIndex.set cacheKey built})

/-! ### What is kept of the routes -/

def formatRouteCachePeer (peer : Option RoutePeer) : String :=
  match peer with
  | none => "-"
  | some peer => if peer.id = "" then "-" else peer.kind.text ++ ":" ++ peer.id

/-- The order of texts, by their UTF-16 units. -/
def unitsLe (a b : String) : Prop := Config.units a.toList ≤ Config.units b.toList

instance : DecidableRel unitsLe := fun a b => inferInstanceAs (Decidable (Config.units a.toList ≤ Config.units b.toList))

def formatRoleIdsCacheKey (roleIds : List String) : String :=
  match roleIds with
  | [] => "-"
  | [id] => id
  | [first, second] => if unitsLe first second then first ++ "," ++ second else second ++ "," ++ first
  | _ => ",".intercalate (roleIds.insertionSort unitsLe)

def buildResolvedRouteCacheKey (scope : RouteScope) (dmScope : DmScope) : String :=
  "\t".intercalate [scope.channel, scope.accountId, formatRouteCachePeer scope.peer,
    formatRouteCachePeer scope.parentPeer, if scope.guildId = "" then "-" else scope.guildId,
    if scope.teamId = "" then "-" else scope.teamId, formatRoleIdsCacheKey scope.memberRoleIds, dmScope.text]

/-! ### Routes -/

/-- A route computed from the bindings, without the kept routes. -/
def computeRoute (cfg : RouteConfig) (scope : RouteScope) (existing : Option EvaluatedBindingsCache) :
    ResolvedAgentRoute × EvaluatedBindingsCache :=
  let (_, cache) := getEvaluatedBindingsForChannelAccount cases cfg scope.channel scope.accountId existing
  let (index, cache) := getEvaluatedBindingIndexForChannelAccount cases cfg scope.channel scope.accountId (some cache)
  (scope.routeOf cases cfg (scope.firstMatch (index.candidates scope)), cache)

def resolveAgentRoute (cfg : RouteConfig) (shouldLogDebug : Bool) (input : RouteInput) (caches : RouteCaches) :
    ResolvedAgentRoute × RouteCaches :=
  let scope := input.scope cases
  -- Routes are not kept with identity links, nor while the reasons are logged.
  if shouldLogDebug || cfg.identityLinks.isSome then
    let (route, evaluated) := computeRoute cases cfg scope caches.evaluated
    (route, {caches with evaluated := some evaluated})
  else
    let routeCacheKey := buildResolvedRouteCacheKey scope (cfg.dmScope.getD .main)
    match caches.byKey.get? routeCacheKey with
    | some cachedRoute => (cachedRoute, caches)
    | none =>
      let (route, evaluated) := computeRoute cases cfg scope caches.evaluated
      let byKey := caches.byKey.set routeCacheKey route
      (route, {
        evaluated := some evaluated
        byKey := if MAX_RESOLVED_ROUTE_CACHE_KEYS < byKey.size then InsertionMap.set ∅ routeCacheKey route else byKey})

/-- Calls one after another, with what each answers. -/
def resolveAll (cfg : RouteConfig) : List (Bool × RouteInput) → RouteCaches → List ResolvedAgentRoute × RouteCaches
  | [], caches => ([], caches)
  | (shouldLogDebug, input) :: rest, caches =>
    let (route, caches) := resolveAgentRoute cases cfg shouldLogDebug input caches
    let (routes, caches) := resolveAll cfg rest caches
    (route :: routes, caches)

end Routes

end OpenClaw.Routing
