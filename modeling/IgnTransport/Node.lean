import Mathlib
import IgnTransport.Lib.Run
import IgnTransport.DiscoveryRun
import IgnTransport.NodeShared
import IgnTransport.TopicUtils

/-!
# IgnTransport.Node — a process and its nodes (`Node.hh`, `Node.cc`)

A process is its discovery service, its shared tables and its nodes.  Each entry point of a node, each message of the
service threads and each step of the constructor of `NodeShared` is one operation, which runs as a whole: `perform`
is what it does to the state before its first ZeroMQ call and the program with its calls, `exec` runs it.  An
exception ends a service thread and with it the process; one that a node throws goes to the user and the process goes
on.
-/

namespace IgnTransport

open Lib

/-! ## State -/

section State

/-- `NodePrivate`, under its UUID. -/
structure Node where
  partition : Str := []
  ns : Str := []
  topicsSubscribed : StrSet := ∅
  topicsAdvertised : StrSet := ∅
  srvsAdvertised : StrSet := ∅

namespace Node

/-- The default constructor; `IGN_PARTITION` may be set. -/
def constructDefault (envPartition : Option Str) : Node :=
  match envPartition with
  | none => {}
  | some partition => if TopicUtils.isValidNamespace partition then { partition } else {}

/-- The two constructors. -/
def construct (envPartition : Option Str) : Option (Str × Str) → Node
  | none => constructDefault envPartition
  | some (partition, ns) =>
    let node := constructDefault envPartition
    { node with
      ns := if TopicUtils.isValidNamespace ns then ns else node.ns
      partition := if TopicUtils.isValidNamespace partition then partition else node.partition }

/-- A node starts with nothing. -/
theorem construct_empty (envPartition : Option Str) (args : Option (Str × Str)) :
    (construct envPartition args).topicsSubscribed = ∅ ∧ (construct envPartition args).topicsAdvertised = ∅ ∧
      (construct envPartition args).srvsAdvertised = ∅ := by
  have hdefault : (constructDefault envPartition).topicsSubscribed = ∅ ∧
      (constructDefault envPartition).topicsAdvertised = ∅ ∧ (constructDefault envPartition).srvsAdvertised = ∅ := by
    unfold constructDefault
    cases envPartition with
    | none => exact ⟨rfl, rfl, rfl⟩
    | some partition => dsimp only; split_ifs <;> exact ⟨rfl, rfl, rfl⟩
  cases args with
  | none => exact hdefault
  | some args => exact hdefault

/-- The fully qualified name of a topic of this node. -/
def fqn (node : Node) (topic : Str) : Option Str :=
  TopicUtils.getFullyQualifiedName node.partition node.ns topic

end Node

/-- A process. -/
structure Process where
  discovery : Discovery
  shared : NodeShared
  nodes : StrMap Node := ∅

namespace Process

/-- A process at the start of the constructor of `NodeShared`, with its sockets bound. -/
def start (shared : NodeShared) (hostAddr : Str) : Process where
  discovery := Discovery.start shared.pUuid hostAddr
  shared := { shared with
    connections := Table.empty
    srvConnections := []
    remoteSubscribers := Table.empty
    localSubscriptions := Table.empty
    repliers := Table.empty
    requests := Table.empty }

/-- What can happen to a process. -/
inductive Op where
  /-- The constructor of `NodeShared` sets a callback of the discovery service. -/
  | setConnectionsCb (type : MsgType)
  | setDisconnectionsCb (type : MsgType)
  | construct (nUuid : Uuid) (envPartition : Option Str) (args : Option (Str × Str))
  | subscribe (nUuid topic hUuid : Str)
  | unsubscribe (nUuid topic : Str)
  | advertise (nUuid topic : Str) (scope : Scope)
  | unadvertise (nUuid topic : Str)
  | publish (nUuid topic data : Str)
  | advertiseSrv (nUuid topic hUuid : Str) (scope : Scope)
  | unadvertiseSrv (nUuid topic : Str)
  | request (nUuid topic hUuid data : Str)
  /-- `Discover`, on its own. -/
  | discover (topic : Str) (isSrv : Bool)
  | datagram (g : Datagram)
  | heartbeat
  | sweep (now : Timestamp)
  | control (topic procUuid nodeUuid data : Str)
  deriving DecidableEq, Repr

/-- The operations of the service threads. -/
def Op.OnServiceThread : Op → Bool
  | .datagram _ | .heartbeat | .sweep _ | .control .. => true
  | _ => false

/-- An operation, and which of its ZeroMQ calls throw. -/
structure Event where
  op : Op
  throwsAt : List ℕ := []
  deriving DecidableEq, Repr

end Process

end State

namespace Process

/-! ## Operations -/

section Operations

open NodeShared

variable (p : Process)

/-- The fully qualified name of a topic, for a node of the process. -/
def fqn (nUuid topic : Str) : Option Str := p.nodes[nUuid]?.bind fun node => node.fqn topic

/-- A change of a node. -/
def modifyNode (nUuid : Str) (f : Node → Node) : Process :=
  { p with nodes := p.nodes.modify nUuid f }

/-- The program that does what the discovery service puts out. -/
def reactAll (d : Discovery) (out : List Output) : NodeM Unit := CallM.forEach (react d) out

/-- The state with the discovery service after an operation, and what it puts out. -/
def discovered (r : Discovery × List Output) : Process × NodeM Bool :=
  ({ p with discovery := r.1 }, do
    reactAll r.1 r.2
    return true)

/-- All callbacks are set. -/
def constructed : Bool :=
  p.discovery.connectionCb && p.discovery.disconnectionCb && p.discovery.connectionSrvCb &&
    p.discovery.disconnectionSrvCb

/-- The part of `Subscribe` after the name is known. -/
def subscribe (nUuid name hUuid : Str) : Option (Process × NodeM Bool) :=
  -- Store the subscription handler, and the topic in the list of subscribed topics.
  let p := { p.modifyNode nUuid fun node => { node with topicsSubscribed := node.topicsSubscribed.insert name } with
    shared := { p.shared with
      localSubscriptions := p.shared.localSubscriptions.addHandler name nUuid { hUuid, nUuid } } }
  -- Discover the list of nodes that publish on the topic.
  (p.discovery.discover name false).map p.discovered

/-- Remove the filter for a topic if I am the last subscriber. -/
def removeFilter (name : Str) : NodeM Unit := do
  let s ← CallM.look
  if s.localSubscriptions.hasHandlersForTopic name then return () else zmq (.unsubscribe name)

/-- The control message of `Unsubscribe`: its process UUID is the address of the publisher socket. -/
def notifyEnd (nUuid name ctrl : Str) : NodeM Unit := do
  openDealer
  let s ← CallM.look
  sendFrames (controlFrames name s.myAddress nUuid EndConnection) (.control (cStr ctrl))

/-- The calls of `Unsubscribe`. -/
def notifyUnsubscribed (nUuid name : Str) (infoMsg : TopicStorage) : NodeM Bool := do
  removeFilter name
  -- Notify to the publishers that I am no longer interested in the topic.
  match infoMsg.getAddresses name with
  | none => return false
  | some addresses =>
    CallM.forEach (fun (node : Address) => notifyEnd nUuid name node.ctrl)
      (addresses.toList.flatMap fun proc => proc.2)
    return true

/-- The part of `Unsubscribe` after the name is known. -/
def unsubscribe (nUuid name : Str) : Process × NodeM Bool :=
  let p := { p.modifyNode nUuid fun node => { node with topicsSubscribed := node.topicsSubscribed.erase name } with
    shared := { p.shared with
      localSubscriptions := (p.shared.localSubscriptions.removeHandlersForNode name nUuid).1 } }
  (p, notifyUnsubscribed nUuid name p.discovery.infoMsg)

/-- The part of `Advertise` after the name is known. -/
def advertise (nUuid name : Str) (scope : Scope) : Option (Process × NodeM Bool) :=
  let p := p.modifyNode nUuid fun node => { node with topicsAdvertised := node.topicsAdvertised.insert name }
  (p.discovery.advertise .msg name p.shared.myAddress p.shared.myControlAddress nUuid scope).map p.discovered

/-- The part of `Unadvertise` after the name is known. -/
def unadvertise (nUuid name : Str) : Option (Process × NodeM Bool) :=
  let p := p.modifyNode nUuid fun node => { node with topicsAdvertised := node.topicsAdvertised.erase name }
  (p.discovery.unadvertise .msg name nUuid).map p.discovered

/-- `RunLocalCallback` of every local handler of a topic. -/
def runLocalCallbacks (name data : Str) (s : HandlerStorage SubscriptionHandler) : NodeM Unit :=
  match s.getHandlers name with
  | none => return ()
  | some handlers =>
    CallM.forEach (fun (handler : SubscriptionHandler) =>
      if handler.cb then CallM.emit (.callback handler name data) else return ())
      (HandlerStorage.handlersOf handlers)

/-- The calls of `Publish` on an advertised topic. -/
def publishTo (name data : Str) : NodeM Bool := do
  let s ← CallM.look
  -- Local subscribers.
  runLocalCallbacks name data s.localSubscriptions
  -- Remote subscribers.
  if s.remoteSubscribers.hasTopic name then
    let _ ← NodeShared.publish name data
    return true
  else return true

/-- The part of `Publish` after the name is known; the message is its serialization. -/
def publish (node : Node) (name data : Str) : NodeM Bool :=
  -- Topic not advertised before.
  if !node.topicsAdvertised.contains name then return false else publishTo name data

/-- The part of the service `Advertise` after the name is known. -/
def advertiseSrv (nUuid name hUuid : Str) (scope : Scope) : Option (Process × NodeM Bool) :=
  let p := { p.modifyNode nUuid fun node => { node with srvsAdvertised := node.srvsAdvertised.insert name } with
    shared := { p.shared with repliers := p.shared.repliers.addHandler name nUuid { hUuid } } }
  (p.discovery.advertise .srv name p.shared.myReplierAddress p.shared.replierId nUuid scope).map p.discovered

/-- The part of `UnadvertiseSrv` after the name is known: what it unadvertises is the message of this name. -/
def unadvertiseSrv (nUuid name : Str) : Option (Process × NodeM Bool) :=
  let p := { p.modifyNode nUuid fun node => { node with srvsAdvertised := node.srvsAdvertised.erase name } with
    shared := { p.shared with repliers := (p.shared.repliers.removeHandlersForNode name nUuid).1 } }
  (p.discovery.unadvertise .msg name nUuid).map p.discovered

/-- The part of `Request` after the name is known, up to the wait for the response. -/
def request (nUuid name hUuid data : Str) : Option (Process × NodeM Bool) :=
  -- If the responser is within my process.
  if (p.shared.repliers.getFirstHandler name).isSome then some (p, return true)
  else
    -- Store the request handler.
    let p := { p with
      shared := { p.shared with requests := p.shared.requests.addHandler name nUuid { hUuid, nUuid, data } } }
    match p.discovery.infoSrv.getAddresses name with
    -- If the responser's address is known, make the request.
    | some _ => some (p, do
        sendPendingRemoteReqs p.discovery.infoSrv name
        return true)
    -- Discover the service responser.
    | none => (p.discovery.discover name true).map p.discovered

/-- What a node does about a topic: nothing if its name is not valid. -/
def named (nUuid topic : Str) (f : Node → Str → Option (Process × NodeM Bool)) : Option (Process × NodeM Bool) := do
  let node ← p.nodes[nUuid]?
  match node.fqn topic with
  | none => return (p, return false)
  | some name => f node name

/-- The state before the first ZeroMQ call of an operation, and the program with its calls. -/
def perform : Op → Option (Process × NodeM Bool)
  | .setConnectionsCb type => some ({ p with discovery := p.discovery.setConnectionsCb type true }, return true)
  | .setDisconnectionsCb type => some ({ p with discovery := p.discovery.setDisconnectionsCb type true }, return true)
  | .construct nUuid envPartition args =>
    -- The shared object is there when its constructor has returned, and a UUID is new.
    if p.constructed ∧ nUuid.1 ∉ p.nodes then
      some ({ p with nodes := p.nodes.insert nUuid.1 (Node.construct envPartition args) }, return true)
    else none
  | .subscribe nUuid topic hUuid => p.named nUuid topic fun _ name => p.subscribe nUuid name hUuid
  | .unsubscribe nUuid topic => p.named nUuid topic fun _ name => some (p.unsubscribe nUuid name)
  | .advertise nUuid topic scope => p.named nUuid topic fun _ name => p.advertise nUuid name scope
  | .unadvertise nUuid topic => p.named nUuid topic fun _ name => p.unadvertise nUuid name
  | .publish nUuid topic data => p.named nUuid topic fun node name => some (p, publish node name data)
  | .advertiseSrv nUuid topic hUuid scope => p.named nUuid topic fun _ name => p.advertiseSrv nUuid name hUuid scope
  | .unadvertiseSrv nUuid topic => p.named nUuid topic fun _ name => p.unadvertiseSrv nUuid name
  | .request nUuid topic hUuid data => p.named nUuid topic fun _ name => p.request nUuid name hUuid data
  | .discover topic isSrv => (p.discovery.discover topic isSrv).map p.discovered
  | .datagram g => (p.discovery.dispatchDiscoveryMsg g.fromIp g.now g.msg).map p.discovered
  | .heartbeat => p.discovery.heartbeat.map p.discovered
  | .sweep now => (p.discovery.runActivityTask now).map p.discovered
  | .control topic procUuid nodeUuid data => some (p, do
      recvControlUpdate topic procUuid nodeUuid data
      return true)

/-- What comes of an operation. -/
structure Outcome where
  process : Process
  value : Except Thrown Bool
  effects : List Effect

/-- Run the program of an operation. -/
def finish (throwsAt : List ℕ) (r : Process × NodeM Bool) : Outcome :=
  let (value, w) := r.2 { state := r.1.shared, throwsAt }
  { process := { r.1 with shared := w.state }, value, effects := w.effects }

/-- An operation, as long as the process survives it. -/
def exec (e : Event) : Option Outcome := do
  let r ← p.perform e.op
  let o := finish e.throwsAt r
  if e.op.OnServiceThread ∧ o.value.toOption = none then none else some o

/-- The state after an operation. -/
def step (e : Event) : Option Process := (p.exec e).map Outcome.process

end Operations

/-! ## Sample processes -/

section Samples

/-- The callbacks that the constructor of `NodeShared` sets. -/
def setCallbacks : List Event :=
  [{ op := .setConnectionsCb .msg }, { op := .setDisconnectionsCb .msg }, { op := .setConnectionsCb .srv },
    { op := .setDisconnectionsCb .srv }]

/-- A UUID of one letter. -/
def uuidOf (c : UInt8) : Uuid := ⟨List.replicate 36 c, List.length_replicate⟩

/-- The letters of the sample processes. -/
def letterA : {c : UInt8 // c ≠ 0} := ⟨65, by decide⟩

def letterB : {c : UInt8 // c ≠ 0} := ⟨66, by decide⟩

/-- The shared object of a process that has its own letter in its UUIDs and endpoints. -/
def sample (c : {c : UInt8 // c ≠ 0}) : NodeShared where
  pUuid := uuidOf c
  myAddress := ⟨[c, 1], by simpa using c.2.symm⟩
  myControlAddress := ⟨[c, 2], by simpa using c.2.symm⟩
  myRequesterAddress := ⟨[c, 3], by simpa using c.2.symm⟩
  myReplierAddress := ⟨[c, 4], by simpa using c.2.symm⟩
  responseReceiverId := ⟨List.replicate 35 c.1 ++ [1], by simp⟩
  replierId := ⟨List.replicate 35 c.1 ++ [2], by simp⟩

end Samples

end Process

end IgnTransport
