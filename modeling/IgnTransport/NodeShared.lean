import Mathlib
import IgnTransport.Lib.Calls
import IgnTransport.HandlerStorage
import IgnTransport.Discovery

/-!
# IgnTransport.NodeShared — what the nodes of a process share (`NodeShared.hh`, `NodeShared.cc`)

The tables of a process and the callbacks that the discovery service and the control socket run on them.  Each ZeroMQ
call may throw; what the calls of a run that did not throw amount to are its effects.  A message of several frames
is an effect once its last frame was sent.
-/

namespace IgnTransport

open Lib

/-! ## State and effects -/

section State

/-- `ISubscriptionHandler`; a callback is known by whether it is set. -/
structure SubscriptionHandler where
  hUuid : Str
  nUuid : Str
  cb : Bool := true
  deriving DecidableEq, Repr

/-- `IRepHandler`. -/
structure RepHandler where
  hUuid : Str
  deriving DecidableEq, Repr

/-- `IReqHandler`, with the serialized request. -/
structure ReqHandler where
  hUuid : Str
  nUuid : Str
  data : Str
  requested : Bool := false
  deriving DecidableEq, Repr

instance : Handler SubscriptionHandler := ⟨SubscriptionHandler.hUuid⟩
instance : Handler RepHandler := ⟨RepHandler.hUuid⟩
instance : Handler ReqHandler := ⟨ReqHandler.hUuid⟩

/-- `NodeShared`, without its sockets and its discovery service. -/
structure NodeShared where
  pUuid : Uuid
  myAddress : Endpoint
  myControlAddress : Endpoint
  myRequesterAddress : Endpoint
  myReplierAddress : Endpoint
  responseReceiverId : Uuid
  replierId : Uuid
  connections : TopicStorage := Table.empty
  srvConnections : List Str := []
  remoteSubscribers : TopicStorage := Table.empty
  localSubscriptions : HandlerStorage SubscriptionHandler := Table.empty
  repliers : HandlerStorage RepHandler := Table.empty
  requests : HandlerStorage ReqHandler := Table.empty

/-- The sockets of a process. -/
inductive Socket where
  | publisher
  | subscriber
  | requester
  | replier
  deriving DecidableEq, Repr

/-- What a process does besides changing its state. -/
inductive Effect where
  /-- A discovery datagram for the multicast group. -/
  | datagram (b : Buffer)
  | connect (socket : Socket) (endpoint : Str)
  | disconnect (socket : Socket) (endpoint : Str)
  /-- `ZMQ_SUBSCRIBE`. -/
  | subscribe (filter : Str)
  /-- `ZMQ_UNSUBSCRIBE`. -/
  | unsubscribe (filter : Str)
  | send (socket : Socket) (frames : List Str)
  /-- A message to a control socket, through a `ZMQ_DEALER` socket of its own. -/
  | control (ctrl : Str) (frames : List Str)
  /-- The callback of a subscription handler. -/
  | callback (handler : SubscriptionHandler) (topic data : Str)
  /-- `RunCallback` of a replier. -/
  | serve (handler : RepHandler) (topic req : Str)
  /-- `NotifyResult` of a request handler. -/
  | notify (handler : ReqHandler) (topic rep : Str) (result : Bool)
  deriving DecidableEq, Repr

/-- What can be thrown. -/
inductive Thrown where
  | zmqError
  | invalidArgument
  | outOfRange
  deriving DecidableEq, Repr

/-- A function of `NodeShared`. -/
abbrev NodeM := CallM Thrown NodeShared Effect

end State

/-! ## Numbers as text -/

section Numbers

/-- `std::to_string`. -/
def toDecimal (n : ℕ) : Str := ascii (Nat.toDigits 10 n)

def isSpace (c : UInt8) : Bool := c = 32 || (9 ≤ c && c ≤ 13)

def isDigit (c : UInt8) : Bool := 48 ≤ c && c ≤ 57

/-- `std::stoi`. -/
def stoi (s : Str) : Except Thrown ℤ :=
  let s := s.dropWhile isSpace
  let (negative, s) := match s with
    | 45 :: rest => (true, rest)
    | 43 :: rest => (false, rest)
    | _ => (false, s)
  let digits := s.takeWhile isDigit
  if digits = [] then .error .invalidArgument
  else
    let n : ℤ := digits.foldl (fun n c => 10 * n + (c.toNat - 48)) 0
    let n := if negative then -n else n
    if n < -2 ^ 31 ∨ 2 ^ 31 ≤ n then .error .outOfRange else .ok n

example : stoi (toDecimal NewConnection.toNat) = .ok NewConnection.toNat := by decide

example : stoi (toDecimal EndConnection.toNat) = .ok EndConnection.toNat := by decide

end Numbers

namespace NodeShared

/-! ## Publishing -/

section Publishing

/-- A ZeroMQ call. -/
def zmq (e : Effect) : NodeM Unit := CallM.call .zmqError e

/-- A ZeroMQ call that has no effect of its own. -/
def zmqCall : NodeM Unit := CallM.attempt .zmqError

/-- One `send` for each frame. -/
def sendFrames (frames : List Str) (e : List Str → Effect) : NodeM Unit := do
  CallM.forEach (fun _ => zmqCall) frames
  CallM.emit (e frames)

/-- `Publish`. -/
def publish (topic data : Str) : NodeM Bool := do
  let s ← CallM.look
  CallM.completes .zmqError (sendFrames [topic, s.myAddress, data] (.send .publisher))

end Publishing

/-! ## Remote subscribers -/

section Control

/-- What a control message does to the table of the remote subscribers. -/
def applyControl (topic procUuid nodeUuid : Str) (n : ℤ) (s : TopicStorage) : TopicStorage :=
  if n = NewConnection.toNat then
    -- Register that we have another remote subscriber.
    (s.addAddress topic [] [] procUuid nodeUuid .all).1
  else if n = EndConnection.toNat then
    -- Delete a remote subscriber.
    (s.delAddressByNode topic procUuid nodeUuid).1
  else s

/-- `RecvControlUpdate`, of a message with these frames. -/
def recvControlUpdate (topic procUuid nodeUuid data : Str) : NodeM Unit := do
  let received ← CallM.completes .zmqError
    (CallM.forEach (fun _ => zmqCall) [topic, procUuid, nodeUuid, data])
  if received then
    match stoi data with
    | .error x => CallM.throw x
    | .ok n =>
      CallM.update fun s =>
        { s with remoteSubscribers := applyControl topic procUuid nodeUuid n s.remoteSubscribers }
  else return ()

end Control

/-! ## Topics -/

section Topics

/-- The frames of a control message about a node. -/
def controlFrames (topic procUuid nodeUuid : Str) (data : UInt8) : List Str :=
  [topic, procUuid, nodeUuid, toDecimal data.toNat]

/-- A socket of its own for the messages of one loop to a control socket. -/
def openDealer : NodeM Unit := do
  zmqCall
  -- ZMQ_LINGER
  zmqCall
  -- connect
  zmqCall

/-- Connect the subscriber socket to an address to which I am not connected. -/
def connectSubscriber (addr : Str) : NodeM Unit := do
  let s ← CallM.look
  if s.connections.hasAddress addr then return () else zmq (.connect .subscriber (cStr addr))

/-- Register the new connection with the publisher. -/
def addConnection (args : CallbackArgs) (s : NodeShared) : NodeShared := { s with
  connections := (s.connections.addAddress args.topic args.addr args.ctrl args.pUuid args.nUuid args.scope).1 }

/-- Notify a publisher's control socket about all my remote subscribers. -/
def notifySubscribers (topic ctrl : Str) : NodeM Unit := do
  openDealer
  let s ← CallM.look
  match s.localSubscriptions.getHandlers topic with
  | none => return ()
  | some handlers =>
    CallM.forEach (fun (handler : SubscriptionHandler) =>
      sendFrames (controlFrames topic s.pUuid handler.nUuid NewConnection) (.control (cStr ctrl)))
      (HandlerStorage.handlersOf handlers)

/-- The `try` block of `OnNewConnection`. -/
def connectTo (args : CallbackArgs) : NodeM Unit := do
  connectSubscriber args.addr
  -- Add a new filter for the topic.
  zmq (.subscribe args.topic)
  CallM.update (addConnection args)
  notifySubscribers args.topic args.ctrl

/-- The process is interested in a topic that another process publishes. -/
def Interested (s : NodeShared) (topic pUuid : Str) : Prop :=
  s.localSubscriptions.hasHandlersForTopic topic = true ∧ s.pUuid.1 ≠ pUuid

instance (s : NodeShared) (topic pUuid : Str) : Decidable (s.Interested topic pUuid) := by
  unfold Interested; infer_instance

/-- `OnNewConnection`. -/
def onNewConnection (args : CallbackArgs) : NodeM Unit := do
  let s ← CallM.look
  if s.Interested args.topic args.pUuid then
    -- The remote node might not be available when we are connecting.
    let _ ← CallM.completes .zmqError (connectTo args)
    return ()
  else return ()

/-- A notification about one node, not about a process as a whole. -/
def AboutNode (args : CallbackArgs) : Prop := args.topic ≠ [] ∧ args.nUuid ≠ []

instance (args : CallbackArgs) : Decidable (AboutNode args) := by unfold AboutNode; infer_instance

/-- What a notification deletes from the remote subscribers. -/
def dropRemote (args : CallbackArgs) (s : TopicStorage) : TopicStorage :=
  if AboutNode args then (s.delAddressByNode args.topic args.pUuid args.nUuid).1
  else (s.delAddressesByProc args.pUuid).1

/-- The end of a connection to one node. -/
def disconnectNode (topic pUuid nUuid : Str) : NodeM Unit := do
  let s ← CallM.look
  match s.connections.getAddress topic pUuid nUuid with
  | none => return ()
  | some connection =>
    -- Disconnect from a publisher's socket.
    zmq (.disconnect .subscriber (cStr connection.addr))
    -- I am no longer connected.
    CallM.update fun s => { s with connections := (s.connections.delAddressByNode topic pUuid nUuid).1 }

/-- The end of the connections to a process, found through one topic. -/
def disconnectProc (topic pUuid : Str) : NodeM Unit := do
  let s ← CallM.look
  match s.connections.getAddresses topic with
  | none => return ()
  | some info =>
    -- Disconnect from all the connections of that publisher.
    CallM.forEach (fun (connection : Address) => zmq (.disconnect .subscriber (cStr connection.addr)))
      (info.getD pUuid [])
    -- Remove all the connections from the process disconnected.
    CallM.update fun s => { s with connections := (s.connections.delAddressesByProc pUuid).1 }

/-- `OnNewDisconnection`. -/
def onNewDisconnection (args : CallbackArgs) : NodeM Unit := do
  -- A remote subscriber[s] has been disconnected.
  CallM.update fun s => { s with remoteSubscribers := dropRemote args s.remoteSubscribers }
  if AboutNode args then disconnectNode args.topic args.pUuid args.nUuid
  else disconnectProc args.topic args.pUuid

end Topics

/-! ## Services -/

section Services

/-- Mark the handler as requested. -/
def setRequested (topic nUuid : Str) (req : ReqHandler) (s : NodeShared) : NodeShared :=
  { s with
    requests := s.requests.set topic nUuid
      ((s.requests.cell topic nUuid).insert req.hUuid { req with requested := true }) }

/-- One round of the loop of `SendPendingRemoteReqs`. -/
def sendPendingReq (topic nUuid responserId : Str) (req : ReqHandler) : NodeM Unit := do
  -- Check if this service call has been already requested.
  if req.requested then return ()
  else
    CallM.update (setRequested topic nUuid req)
    let s ← CallM.look
    let _ ← CallM.completes .zmqError (sendFrames
      [responserId, topic, s.myRequesterAddress, s.responseReceiverId, req.nUuid, req.hUuid, req.data]
      (.send .requester))
    return ()

/-- `SendPendingRemoteReqs`, with the services that the discovery service knows. -/
def sendPendingRemoteReqs (infoSrv : TopicStorage) (topic : Str) : NodeM Unit := do
  match (infoSrv.getAddresses topic).bind fun addresses => Std.ExtTreeMap.minEntry? addresses with
  | none => return ()
  | some (_, v) =>
    -- Get the first responder.
    match v with
    | [] => CallM.throw .outOfRange
    | responser :: _ =>
      let s ← CallM.look
      match s.requests.getHandlers topic with
      | none => return ()
      | some reqs =>
        CallM.forEach (fun (node : Str × StrMap ReqHandler) =>
          CallM.forEach (fun (req : Str × ReqHandler) => sendPendingReq topic node.1 responser.ctrl req.2)
            node.2.toList) reqs.toList

/-- What `OnNewSrvConnection` and `RecvSrvRequest` do about an address. -/
def connectNew (socket : Socket) (addr : Str) : NodeM Unit := do
  let s ← CallM.look
  if addr ∈ s.srvConnections then return ()
  else
    zmq (.connect socket (cStr addr))
    CallM.update fun s => { s with srvConnections := s.srvConnections ++ [addr] }

/-- Connect the requester socket to an address to which I am still not connected. -/
def connectRequester (addr : Str) : NodeM Unit := connectNew .requester addr

/-- `OnNewSrvConnection`. -/
def onNewSrvConnection (infoSrv : TopicStorage) (args : CallbackArgs) : NodeM Unit := do
  connectRequester args.addr
  -- Request all pending service calls for this topic.
  sendPendingRemoteReqs infoSrv args.topic

/-- `OnNewSrvDisconnection`: the address is compared as a C string. -/
def onNewSrvDisconnection (args : CallbackArgs) : NodeM Unit :=
  CallM.update fun s => { s with srvConnections := s.srvConnections.filter fun addr => addr ≠ cStr args.addr }

end Services

/-- What the process does about an output of its discovery service `d`. -/
def react (d : Discovery) : Output → NodeM Unit
  | .sendto b => CallM.emit (.datagram b)
  | .connection .msg args => onNewConnection args
  | .connection .srv args => onNewSrvConnection d.infoSrv args
  | .disconnection .msg args => onNewDisconnection args
  | .disconnection .srv args => onNewSrvDisconnection args

end NodeShared

end IgnTransport
