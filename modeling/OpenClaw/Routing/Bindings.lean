import OpenClaw.Foundation.InsertionMap
import OpenClaw.Routing.SessionKey

/-! Bindings of conversations to agents.

A binding names an agent and what it is bound to: a channel, and there an account, a
peer, a guild, a team or roles. Bindings are evaluated once for a configuration, sorted
by channel and account, and placed in an index by what they are bound to. An evaluated
binding is told from others by its order. -/
namespace OpenClaw.Routing
open Foundation
open Foundation.EcmaString (trim trimmed trimmed?)

/-! ### Data -/

structure RoutePeer where
  kind : ChatType
  id : String
  deriving DecidableEq

structure BindingPeer where
  kind : Option String
  id : Option String
  deriving DecidableEq

structure AgentBindingMatch where
  channel : Option String := none
  accountId : Option String := none
  peer : Option BindingPeer := none
  guildId : Option String := none
  teamId : Option String := none
  roles : Option (List String) := none
  deriving DecidableEq

inductive BindingType
  | route | acp
  deriving DecidableEq, Repr

structure AgentBinding where
  type : Option BindingType := none
  agentId : String
  bound : AgentBindingMatch
  deriving DecidableEq

structure AgentEntry where
  id : Option String
  default : Bool := false
  deriving DecidableEq

structure RouteConfig where
  bindings : Option (List AgentBinding) := none
  agents : Option (List AgentEntry) := none
  dmScope : Option DmScope := none
  identityLinks : Option IdentityLinks := none

inductive NormalizedPeerConstraint
  | none | invalid
  | wildcardKind (kind : ChatType)
  | valid (kind : ChatType) (id : String)
  deriving DecidableEq

structure NormalizedBindingMatch where
  accountPattern : String
  peer : NormalizedPeerConstraint
  guildId : Option String
  teamId : Option String
  roles : Option (List String)
  deriving DecidableEq

structure EvaluatedBinding where
  binding : AgentBinding
  bound : NormalizedBindingMatch
  order : Nat
  deriving DecidableEq

/-! ### Evaluating -/

section Evaluating
variable (cases : CaseTables)

def normalizeChatType (raw : Option String) : Option ChatType :=
  let value := normalizeToken cases raw
  if value = "direct" ∨ value = "dm" then some .direct
  else if value = "group" then some .group
  else if value = "channel" then some .channel
  else none

def normalizeId (value : Option String) : String := trim (value.getD "")

def normalizePeerConstraint : Option BindingPeer → NormalizedPeerConstraint
  | none => .none
  | some peer =>
    let id := normalizeId peer.id
    match normalizeChatType cases peer.kind with
    | none => .invalid
    | some kind => if id = "" then .invalid else if id = "*" then .wildcardKind kind else .valid kind id

def normalizeBindingMatch (bound : AgentBindingMatch) : NormalizedBindingMatch where
  accountPattern := trim (bound.accountId.getD "")
  peer := normalizePeerConstraint cases bound.peer
  guildId := trimmed? bound.guildId
  teamId := trimmed? bound.teamId
  roles := bound.roles.filter fun roles => roles ≠ []

def listRouteBindings (cfg : RouteConfig) : List AgentBinding :=
  (cfg.bindings.getD []).filter fun binding => binding.type ≠ some .acp

/-- The bindings that have a channel, with it, numbered from `order`. -/
def evaluateFrom (order : Nat) : List AgentBinding → List (String × EvaluatedBinding)
  | [] => []
  | binding :: rest =>
    let channel := normalizeToken cases binding.bound.channel
    if channel = "" then evaluateFrom order rest
    else (channel, ⟨binding, normalizeBindingMatch cases binding.bound, order⟩) :: evaluateFrom (order + 1) rest

def evaluateBindings (cfg : RouteConfig) : List (String × EvaluatedBinding) :=
  evaluateFrom cases 0 (listRouteBindings cfg)

end Evaluating

/-! ### By channel and account -/

structure EvaluatedBindingsByChannel where
  byAccount : InsertionMap String (List EvaluatedBinding) := ∅
  byAnyAccount : List EvaluatedBinding := []

def resolveAccountPatternKey (accountPattern : String) : String :=
  if trim accountPattern = "" then DEFAULT_ACCOUNT_ID else normalizeAccountId (some accountPattern)

/-- A binding put with the others of its account. -/
def EvaluatedBindingsByChannel.push (evaluated : EvaluatedBinding) (bucket : EvaluatedBindingsByChannel) :
    EvaluatedBindingsByChannel :=
  if evaluated.bound.accountPattern = "*" then {bucket with byAnyAccount := bucket.byAnyAccount ++ [evaluated]}
  else
    let accountKey := resolveAccountPatternKey evaluated.bound.accountPattern
    {bucket with
      byAccount := bucket.byAccount.set accountKey ((bucket.byAccount.get? accountKey).getD [] ++ [evaluated])}

def buildEvaluatedBindingsByChannel (cases : CaseTables) (cfg : RouteConfig) :
    InsertionMap String EvaluatedBindingsByChannel :=
  (evaluateBindings cases cfg).foldl
    (fun byChannel (channel, evaluated) =>
      byChannel.set channel (((byChannel.get? channel).getD {}).push evaluated)) ∅

/-- Two lists that are in order, merged in order. -/
def mergeEvaluatedBindingsInSourceOrder (accountScoped anyAccount : List EvaluatedBinding) : List EvaluatedBinding :=
  accountScoped.merge anyAccount fun accountBinding anyBinding => accountBinding.order ≤ anyBinding.order

/-! ### The index -/

structure EvaluatedBindingsIndex where
  byPeer : InsertionMap String (List EvaluatedBinding) := ∅
  byPeerWildcard : List EvaluatedBinding := []
  byGuildWithRoles : InsertionMap String (List EvaluatedBinding) := ∅
  byGuild : InsertionMap String (List EvaluatedBinding) := ∅
  byTeam : InsertionMap String (List EvaluatedBinding) := ∅
  byAccount : List EvaluatedBinding := []
  byChannel : List EvaluatedBinding := []

def pushToIndexMap (map : InsertionMap String (List EvaluatedBinding)) (key : String) (binding : EvaluatedBinding) :
    InsertionMap String (List EvaluatedBinding) :=
  if key = "" then map else map.set key ((map.get? key).getD [] ++ [binding])

def peerLookupKeys (kind : ChatType) (id : String) : List String :=
  match kind with
  | .group => ["group:" ++ id, "channel:" ++ id]
  | .channel => ["channel:" ++ id, "group:" ++ id]
  | .direct => ["direct:" ++ id]

namespace EvaluatedBindingsIndex

/-- A binding put where it belongs. -/
def place (index : EvaluatedBindingsIndex) (b : EvaluatedBinding) : EvaluatedBindingsIndex :=
  match b.bound.peer with
  | .valid kind id =>
    {index with byPeer := (peerLookupKeys kind id).foldl (fun map key => pushToIndexMap map key b) index.byPeer}
  | .wildcardKind _ => {index with byPeerWildcard := index.byPeerWildcard ++ [b]}
  | _ =>
    match b.bound.guildId, b.bound.roles with
    | some guildId, some _ => {index with byGuildWithRoles := pushToIndexMap index.byGuildWithRoles guildId b}
    | some guildId, none => {index with byGuild := pushToIndexMap index.byGuild guildId b}
    | none, _ =>
      match b.bound.teamId with
      | some teamId => {index with byTeam := pushToIndexMap index.byTeam teamId b}
      | none =>
        if b.bound.accountPattern ≠ "*" then {index with byAccount := index.byAccount ++ [b]}
        else {index with byChannel := index.byChannel ++ [b]}

end EvaluatedBindingsIndex

def buildEvaluatedBindingsIndex (bindings : List EvaluatedBinding) : EvaluatedBindingsIndex :=
  bindings.foldl EvaluatedBindingsIndex.place {}

/-- Bindings that are not among those seen, in their order. -/
def collectUnseen (seen : List EvaluatedBinding) : List EvaluatedBinding → List EvaluatedBinding
  | [] => seen
  | b :: rest =>
    if seen.any fun other => other.order = b.order then collectUnseen seen rest else collectUnseen (seen ++ [b]) rest

def collectPeerIndexedBindings (index : EvaluatedBindingsIndex) (peer : Option RoutePeer) : List EvaluatedBinding :=
  match peer with
  | none => []
  | some peer => (peerLookupKeys peer.kind peer.id).foldl
      (fun out key => collectUnseen out ((index.byPeer.get? key).getD [])) []

/-! ### Matching -/

structure BindingScope where
  peer : Option RoutePeer
  guildId : String
  teamId : String
  memberRoleIds : List String

def peerKindMatches (bindingKind scopeKind : ChatType) : Bool :=
  bindingKind = scopeKind ||
    (bindingKind = .group && scopeKind = .channel || bindingKind = .channel && scopeKind = .group)

/-- The peer of the scope is one the binding is bound to. -/
def NormalizedPeerConstraint.allows (scopePeer : Option RoutePeer) : NormalizedPeerConstraint → Bool
  | .invalid => false
  | .none => true
  | .valid kind id => scopePeer.any fun peer => peerKindMatches kind peer.kind && peer.id = id
  | .wildcardKind kind => scopePeer.any fun peer => peerKindMatches kind peer.kind

def matchesBindingScope (bound : NormalizedBindingMatch) (scope : BindingScope) : Bool :=
  bound.peer.allows scope.peer &&
    bound.guildId.all (· = scope.guildId) &&
    bound.teamId.all (· = scope.teamId) &&
    bound.roles.all fun roles => roles.any (· ∈ scope.memberRoleIds)

end OpenClaw.Routing
