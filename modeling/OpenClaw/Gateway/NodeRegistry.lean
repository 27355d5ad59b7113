import OpenClaw.Foundation.InsertionMap
import OpenClaw.Foundation.Run

/-! The nodes connected to the gateway.

A node is known by an id of its own, a connection by the id the gateway gave its
socket. A node may connect again before the gateway has seen its old socket
close: then two connections of it are registered at once. `nodesById` holds the
session of a node, `nodesByConn` the node behind a connection, `pendingInvokes`
the commands sent to nodes that have no answer yet.

The last fields of `Registry` are the history: the sessions registered (newest
first), the connections unregistered, the invokes sent with the connection each
went over, the results that arrived for them, and how invokes were settled. `π`
is the type of payloads. -/
namespace OpenClaw.Gateway
open Foundation

/-! ### Data -/

/-- What a client says of itself when it connects. The schema of the message asks
for ids that are not empty. -/
structure ConnectParams where
  deviceId : Option String := none
  clientId : String
  clientMode : String
  displayName : Option String := none
  platform : String
  version : String
  coreVersion : Option String := none
  uiVersion : Option String := none
  deviceFamily : Option String := none
  modelIdentifier : Option String := none
  caps : Option (List String) := none
  commands : Option (List String) := none
  permissions : Option (List (String × Bool)) := none
  pathEnv : Option String := none
  deviceId_ne : deviceId ≠ some "" := by decide
  clientId_ne : clientId ≠ "" := by decide

structure Client where
  connId : String
  connect : ConnectParams

structure NodeSession where
  nodeId : String
  connId : String
  client : Client
  clientId : String
  clientMode : String
  displayName : Option String
  platform : String
  version : String
  coreVersion : Option String
  uiVersion : Option String
  deviceFamily : Option String
  modelIdentifier : Option String
  remoteIp : Option String
  caps : List String
  commands : List String
  permissions : Option (List (String × Bool))
  pathEnv : Option String
  connectedAtMs : Nat

structure PendingInvoke where
  nodeId : String
  command : String
  deriving DecidableEq, Repr

structure NodeInvokeError where
  code : Option String := none
  message : Option String := none
  deriving DecidableEq, Repr

structure NodeInvokeResult (π : Type*) where
  ok : Bool
  payload : Option π := none
  payloadJSON : Option String := none
  error : Option NodeInvokeError := none
  deriving DecidableEq, Repr

/-- A result a node reports. -/
structure InvokeReport (π : Type*) extends NodeInvokeResult π where
  id : String
  nodeId : String
  deriving DecidableEq, Repr

/-- How an invoke is settled. -/
inductive Settlement (π : Type*)
  | result (report : InvokeReport π)
  | timeout
  /-- By the end of a connection. -/
  | disconnect (connId command : String)
  deriving DecidableEq, Repr

/-- What the caller of `invoke` gets: a result, or the message of an error. -/
def Settlement.outcome {π : Type*} : Settlement π → Except String (NodeInvokeResult π)
  | .result report => .ok report.toNodeInvokeResult
  | .timeout => .ok {ok := false, error := some {code := some "TIMEOUT", message := some "node invoke timed out"}}
  | .disconnect _ command => .error s!"node disconnected ({command})"

/-- An invoke that was sent. -/
structure SentInvoke where
  id : String
  nodeId : String
  command : String
  connId : String
  deriving DecidableEq, Repr

structure Registry (π : Type*) where
  nodesById : InsertionMap String NodeSession := ∅
  nodesByConn : InsertionMap String String := ∅
  pendingInvokes : InsertionMap String PendingInvoke := ∅
  registered : List NodeSession := []
  unregistered : List String := []
  sent : List SentInvoke := []
  arrived : List (InvokeReport π) := []
  settled : List (String × Settlement π) := []

variable {π : Type*}

/-! ### Operations -/

def ConnectParams.nodeId (connect : ConnectParams) : String := connect.deviceId.getD connect.clientId

theorem ConnectParams.nodeId_ne (connect : ConnectParams) : connect.nodeId ≠ "" := by
  unfold nodeId
  cases h : connect.deviceId with
  | none => exact connect.clientId_ne
  | some id =>
    intro heq
    exact connect.deviceId_ne (by rw [h, ← heq]; rfl)

def nodeSession (client : Client) (remoteIp : Option String) (now : Nat) : NodeSession where
  nodeId := client.connect.nodeId
  connId := client.connId
  client := client
  clientId := client.connect.clientId
  clientMode := client.connect.clientMode
  displayName := client.connect.displayName
  platform := client.connect.platform
  version := client.connect.version
  coreVersion := client.connect.coreVersion
  uiVersion := client.connect.uiVersion
  deviceFamily := client.connect.deviceFamily
  modelIdentifier := client.connect.modelIdentifier
  remoteIp := remoteIp
  caps := client.connect.caps.getD []
  commands := client.connect.commands.getD []
  permissions := client.connect.permissions
  pathEnv := client.connect.pathEnv
  connectedAtMs := now

namespace Registry

def register (client : Client) (remoteIp : Option String) (now : Nat) (s : Registry π) : Registry π :=
  let session := nodeSession client remoteIp now
  {s with
    nodesById := s.nodesById.set session.nodeId session
    nodesByConn := s.nodesByConn.set client.connId session.nodeId
    registered := session :: s.registered}

/-- The pending invokes of a node, in the order they were sent. -/
def pendingOf (nodeId : String) (s : Registry π) : List (String × PendingInvoke) :=
  s.pendingInvokes.entries.filter fun p => p.2.nodeId = nodeId

/-- The call, with what it returns. -/
def unregister (connId : String) (s : Registry π) : Option String × Registry π :=
  match s.nodesByConn.get? connId with
  | none => (none, s)
  | some nodeId =>
    if nodeId = "" then (none, s)
    else (some nodeId, {s with
      nodesByConn := s.nodesByConn.erase connId
      nodesById := s.nodesById.erase nodeId
      pendingInvokes := s.pendingInvokes.keepValues fun p => p.nodeId ≠ nodeId
      unregistered := connId :: s.unregistered
      settled := s.settled ++ (s.pendingOf nodeId).map fun p => (p.1, .disconnect connId p.2.command)})

def listConnected (s : Registry π) : List NodeSession := s.nodesById.values

def get (nodeId : String) (s : Registry π) : Option NodeSession := s.nodesById.get? nodeId

/-- The call, up to its wait, with what it returns if it does not wait. Whether the
socket takes the request is up to the socket. -/
def invoke (requestId nodeId command : String) (sends : Bool) (s : Registry π) :
    Option (NodeInvokeResult π) × Registry π :=
  match s.nodesById.get? nodeId with
  | none =>
    (some {ok := false, error := some {code := some "NOT_CONNECTED", message := some "node not connected"}}, s)
  | some node =>
    if sends then (none, {s with
      pendingInvokes := s.pendingInvokes.set requestId ⟨nodeId, command⟩
      sent := s.sent ++ [⟨requestId, nodeId, command, node.connId⟩]})
    else
      (some {ok := false, error := some {code := some "UNAVAILABLE", message := some "failed to send invoke to node"}}, s)

/-- A pending invoke is settled, and its timer cleared. -/
def settle (requestId : String) (how : Settlement π) (s : Registry π) : Registry π :=
  {s with
    pendingInvokes := s.pendingInvokes.erase requestId
    settled := s.settled ++ [(requestId, how)]}

/-- A report goes to the history if it is for an invoke that was sent. -/
def arrive (report : InvokeReport π) (s : Registry π) : Registry π :=
  if report.id ∈ s.sent.map SentInvoke.id then {s with arrived := s.arrived ++ [report]} else s

def handleInvokeResult (report : InvokeReport π) (s : Registry π) : Bool × Registry π :=
  match s.pendingInvokes.get? report.id with
  | none => (false, s.arrive report)
  | some pending =>
    if pending.nodeId ≠ report.nodeId then (false, s.arrive report)
    else (true, (s.arrive report).settle report.id (.result report))

end Registry

/-! ### Steps -/

inductive RegistryEvent (π : Type*)
  | register (client : Client) (remoteIp : Option String) (now : Nat)
  | unregister (connId : String)
  | invoke (requestId nodeId command : String) (sends : Bool)
  | result (report : InvokeReport π)
  /-- The timer of an invoke fires. -/
  | timeout (requestId : String)

/-- Connections and requests have ids of their own, drawn by the gateway. -/
def registryStep : Machine (Registry π) (RegistryEvent π)
  | .register client remoteIp now, s =>
    if client.connId ∈ s.registered.map NodeSession.connId then none else some (s.register client remoteIp now)
  | .unregister connId, s => some (s.unregister connId).2
  | .invoke requestId nodeId command sends, s =>
    if requestId ∈ s.sent.map SentInvoke.id then none else some (s.invoke requestId nodeId command sends).2
  | .result report, s => some (s.handleInvokeResult report).2
  | .timeout requestId, s => (s.pendingInvokes.get? requestId).map fun _ => s.settle requestId .timeout

end OpenClaw.Gateway
