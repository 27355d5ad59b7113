import OpenClaw.Cron.Patch
import OpenClaw.Foundation.LowerCase

/-! Session keys.

A conversation is kept under a key made of the agent, the channel and the peer,
joined by colons; `dmScope` says how much of it a direct chat is told apart by. The
parsers take such a key apart again: `parseAgentSessionKey` at the colons, and
`parseThreadSessionSuffix` at the last `:thread:`. Agent ids are normalised as for
cron jobs. -/
namespace OpenClaw.Routing
open Foundation
open Foundation.EcmaString (trim trimmed trimmed? startsWith)
open Cron (normalizeAgentId isValidAgentId collapseInvalid lowerCodes)

/-! ### Ids -/

def DEFAULT_ACCOUNT_ID : String := "default"

def DEFAULT_AGENT_ID : String := Cron.DEFAULT_AGENT_ID

def DEFAULT_MAIN_KEY : String := "main"

def isBlockedObjectKey (key : String) : Bool := key ∈ ["__proto__", "prototype", "constructor"]

def canonicalizeAccountId (value : String) : String :=
  if isValidAgentId value.toList then String.ofList (value.toList.map EcmaString.lowerAscii)
  else
    let collapsed := collapseInvalid false (value.toList.flatMap lowerCodes)
    String.ofList (((collapsed.dropWhile (· = '-')).reverse.dropWhile (· = '-')).reverse.take 64)

def normalizeCanonicalAccountId (value : String) : Option String :=
  let canonical := canonicalizeAccountId value
  if canonical = "" || isBlockedObjectKey canonical then none else some canonical

def normalizeAccountId (value : Option String) : String :=
  match trimmed? value with
  | none => DEFAULT_ACCOUNT_ID
  | some id => (normalizeCanonicalAccountId id).getD DEFAULT_ACCOUNT_ID

inductive ChatType
  | direct | group | channel
  deriving DecidableEq, Repr

def ChatType.text : ChatType → String
  | .direct => "direct"
  | .group => "group"
  | .channel => "channel"

inductive DmScope
  | main | perPeer | perChannelPeer | perAccountChannelPeer
  deriving DecidableEq, Repr

def DmScope.text : DmScope → String
  | .main => "main"
  | .perPeer => "per-peer"
  | .perChannelPeer => "per-channel-peer"
  | .perAccountChannelPeer => "per-account-channel-peer"

/-- Names of people, each with the peer ids they are known by. -/
abbrev IdentityLinks := List (String × List String)

/-! ### Building keys -/

section Keys
variable (cases : CaseTables)

def normalizeToken (value : Option String) : String := cases.toLowerCase (trim (value.getD ""))

def normalizeMainKey (value : Option String) : String :=
  match trimmed? value with
  | some key => cases.toLowerCase key
  | none => DEFAULT_MAIN_KEY

def buildAgentMainSessionKey (agentId mainKey : Option String) : String :=
  "agent:" ++ normalizeAgentId agentId ++ ":" ++ normalizeMainKey cases mainKey

/-- The name a peer is linked to, by its id alone or with its channel. -/
def resolveLinkedPeerId (identityLinks : Option IdentityLinks) (channel : Option String) (peerId : String) :
    Option String :=
  match trimmed peerId with
  | none => none
  | some peerId =>
    let channel := normalizeToken cases channel
    let candidates := normalizeToken cases (some peerId) ::
      (if channel = "" then [] else [normalizeToken cases (some (channel ++ ":" ++ peerId))])
    (identityLinks.getD []).findSome? fun (canonical, ids) =>
      (trimmed canonical).filter fun _ => ids.any fun id =>
        normalizeToken cases (some id) ≠ "" && normalizeToken cases (some id) ∈ candidates

/-- A channel as it stands in a key. -/
def channelToken (channel : Option String) : String :=
  let token := normalizeToken cases channel
  if token = "" then "unknown" else token

structure PeerSession where
  agentId : String
  mainKey : Option String := none
  channel : String
  accountId : Option String := none
  peerKind : Option ChatType := none
  peerId : Option String := none
  identityLinks : Option IdentityLinks := none
  dmScope : Option DmScope := none

/-- The id a direct chat is told apart by. -/
def PeerSession.directPeerId (params : PeerSession) : String :=
  let peerId := trim (params.peerId.getD "")
  let linkedPeerId := if params.dmScope.getD .main = .main then none
    else resolveLinkedPeerId cases params.identityLinks (some params.channel) peerId
  cases.toLowerCase (linkedPeerId.getD peerId)

def buildAgentPeerSessionKey (params : PeerSession) : String :=
  match params.peerKind.getD .direct with
  | .direct =>
    let peerId := params.directPeerId cases
    if params.dmScope.getD .main = .perAccountChannelPeer ∧ peerId ≠ "" then
      "agent:" ++ normalizeAgentId (some params.agentId) ++ ":" ++ channelToken cases (some params.channel) ++ ":" ++
        normalizeAccountId params.accountId ++ ":direct:" ++ peerId
    else if params.dmScope.getD .main = .perChannelPeer ∧ peerId ≠ "" then
      "agent:" ++ normalizeAgentId (some params.agentId) ++ ":" ++ channelToken cases (some params.channel) ++
        ":direct:" ++ peerId
    else if params.dmScope.getD .main = .perPeer ∧ peerId ≠ "" then
      "agent:" ++ normalizeAgentId (some params.agentId) ++ ":direct:" ++ peerId
    else buildAgentMainSessionKey cases (some params.agentId) params.mainKey
  | kind =>
    let peerId := cases.toLowerCase ((trimmed? params.peerId).getD "unknown")
    "agent:" ++ normalizeAgentId (some params.agentId) ++ ":" ++ channelToken cases (some params.channel) ++ ":" ++
      kind.text ++ ":" ++ peerId

/-! ### Parsing keys -/

structure ParsedAgentSessionKey where
  agentId : String
  rest : String
  deriving DecidableEq

/-- `split(":").filter(Boolean)`. -/
def keyParts (raw : List Char) : List (List Char) := (raw.splitOn ':').filter (· ≠ [])

def parseAgentSessionKey (sessionKey : Option String) : Option ParsedAgentSessionKey :=
  let raw := cases.toLowerCase (trim (sessionKey.getD ""))
  match keyParts raw.toList with
  | first :: agent :: part :: more =>
    if first ≠ "agent".toList then none
    else
      let agentId := trim (String.ofList agent)
      let rest := String.ofList ([':'].intercalate (part :: more))
      if agentId = "" ∨ rest = "" then none else some ⟨agentId, rest⟩
  | _ => none

def toAgentStoreSessionKey (agentId requestKey mainKey : Option String) : String :=
  let raw := trim (requestKey.getD "")
  if raw = "" ∨ cases.toLowerCase raw = DEFAULT_MAIN_KEY then buildAgentMainSessionKey cases agentId mainKey
  else
    match parseAgentSessionKey cases (some raw) with
    | some parsed => "agent:" ++ parsed.agentId ++ ":" ++ parsed.rest
    | none =>
      let lowered := cases.toLowerCase raw
      if startsWith lowered "agent:" then lowered
      else "agent:" ++ normalizeAgentId agentId ++ ":" ++ lowered

def resolveAgentIdFromSessionKey (sessionKey : Option String) : String :=
  let parsed := parseAgentSessionKey cases sessionKey
  normalizeAgentId (some ((parsed.map ParsedAgentSessionKey.agentId).getD DEFAULT_AGENT_ID))

/-! ### Threads -/

def resolveThreadSessionKeys (baseSessionKey : String) (threadId parentSessionKey : Option String)
    (useSuffix : Bool) (normalizeThreadId : Option (String → String)) : String × Option String :=
  match trimmed? threadId with
  | none => (baseSessionKey, none)
  | some threadId =>
    let normalizedThreadId := (normalizeThreadId.getD cases.toLowerCase) threadId
    (if useSuffix then baseSessionKey ++ ":thread:" ++ normalizedThreadId else baseSessionKey, parentSessionKey)

/-- `lastIndexOf`. -/
def lastIndexOf (marker : List Char) : List Char → Option Nat
  | [] => if marker = [] then some 0 else none
  | c :: rest =>
    match lastIndexOf marker rest with
    | some n => some (n + 1)
    | none => if marker.isPrefixOf (c :: rest) then some 0 else none

structure ParsedThreadSessionSuffix where
  baseSessionKey : Option String
  threadId : Option String
  deriving DecidableEq

/-- `:thread:`. -/
def threadMarker : List Char := [':', 't', 'h', 'r', 'e', 'a', 'd', ':']

def parseThreadSessionSuffix (sessionKey : Option String) : ParsedThreadSessionSuffix :=
  match trimmed? sessionKey with
  | none => ⟨none, none⟩
  | some raw =>
    match lastIndexOf threadMarker (cases.toLowerChars raw.toList) with
    | none => ⟨some raw, none⟩
    | some index => ⟨some (String.ofList (raw.toList.take index)),
        trimmed (String.ofList (raw.toList.drop (index + threadMarker.length)))⟩

end Keys

end OpenClaw.Routing
