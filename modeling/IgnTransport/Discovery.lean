import Mathlib
import IgnTransport.Lib.Floating
import IgnTransport.Packet
import IgnTransport.TopicStorage

/-!
# IgnTransport.Discovery — the discovery service of a process (`Discovery.hh`, `Discovery.cc`)

The state of `DiscoveryPrivate` and the bodies of its entry points and of its three threads, each of which runs under
the one mutex.  What an operation does besides changing the state is returned in order: the datagrams it hands to
`sendto` and the callbacks it executes.  `none` is an operation that does not return: a byte read or written outside
its buffer, `std::out_of_range`, or `std::bad_function_call`.
-/

namespace IgnTransport

open Lib

/-- The arguments of a `DiscoveryCallback`. -/
structure CallbackArgs where
  topic : Str
  addr : Str
  ctrl : Str
  pUuid : Str
  nUuid : Str
  scope : Scope
  deriving DecidableEq, Repr

/-- What an operation does besides changing the state. -/
inductive Output where
  /-- A datagram for the multicast group. -/
  | sendto (datagram : Buffer)
  /-- `connectionCb` or `connectionSrvCb`. -/
  | connection (type : MsgType) (args : CallbackArgs)
  /-- `disconnectionCb` or `disconnectionSrvCb`. -/
  | disconnection (type : MsgType) (args : CallbackArgs)
  deriving DecidableEq, Repr

/-- `DiscoveryPrivate`; a callback is known by whether it is set. -/
structure Discovery where
  pUuid : Str
  hostAddr : Str
  silenceInterval : ℕ := 3000
  connectionCb : Bool := false
  disconnectionCb : Bool := false
  connectionSrvCb : Bool := false
  disconnectionSrvCb : Bool := false
  infoMsg : TopicStorage := Table.empty
  infoSrv : TopicStorage := Table.empty
  activity : StrMap Timestamp := ∅

namespace Discovery

/-- Discovery protocol version. -/
def Version : UInt16 := 1

/-- Longest string to receive. -/
def MaxRcvStr : ℕ := 65536

/-! ## Messages or services -/

section Storage

variable (d : Discovery)

/-- `infoMsg` or `infoSrv`. -/
def info : MsgType → TopicStorage
  | .msg => d.infoMsg
  | .srv => d.infoSrv

def setInfo (type : MsgType) (s : TopicStorage) : Discovery :=
  match type with
  | .msg => { d with infoMsg := s }
  | .srv => { d with infoSrv := s }

/-- Whether `connectionCb` or `connectionSrvCb` is set. -/
def hasConnectionCb : MsgType → Bool
  | .msg => d.connectionCb
  | .srv => d.connectionSrvCb

/-- Whether `disconnectionCb` or `disconnectionSrvCb` is set. -/
def hasDisconnectionCb : MsgType → Bool
  | .msg => d.disconnectionCb
  | .srv => d.disconnectionSrvCb

/-- Both `DelAddressesByProc`. -/
def delAddressesByProc (pUuid : Str) : Discovery :=
  { d with
    infoMsg := (d.infoMsg.delAddressesByProc pUuid).1
    infoSrv := (d.infoSrv.delAddressesByProc pUuid).1 }

def advType : MsgType → UInt8
  | .msg => AdvType
  | .srv => AdvSrvType

def unadvType : MsgType → UInt8
  | .msg => UnadvType
  | .srv => UnadvSrvType

def subType : MsgType → UInt8
  | .msg => SubType
  | .srv => SubSrvType

end Storage

/-! ## Sending -/

section Send

variable (d : Discovery)

/-- The header of every message of this process. -/
def header (type : UInt8) (flags : UInt16) : Header := { version := Version, pUuid := d.pUuid, type, flags }

/-- The [UN]ADVERTISE message of `SendMsg`. -/
def advMsg (type : UInt8) (topic addr ctrl nUuid : Str) (scope : Scope) (flags : UInt16) : AdvertiseMsg :=
  { header := d.header type flags, topic, addr, ctrl, nUuid, scope,
    msgTypeName := ascii ['n', 'o', 't', ' ', 'u', 's', 'e', 'd'] }

/-- The SUBSCRIBE message of `SendMsg`. -/
def subMsg (type : UInt8) (topic : Str) (flags : UInt16) : SubscriptionMsg :=
  { header := d.header type flags, topic }

/-- `SendMsg`: the buffer is sent whatever `Pack` returned. -/
def sendMsg (type : UInt8) (topic addr ctrl nUuid : Str) (scope : Scope) (flags : UInt16 := 0) :
    Option (List Output) :=
  if type ∈ [AdvType, UnadvType, AdvSrvType, UnadvSrvType] then do
    let m := d.advMsg type topic addr ctrl nUuid scope flags
    let (buffer, _) ← (m.pack (List.replicate m.getMsgLength.toNat 0) (some 0)).toOption
    return [.sendto buffer]
  else if type ∈ [SubType, SubSrvType] then do
    let m := d.subMsg type topic flags
    let (buffer, _) ← (m.pack (List.replicate m.getMsgLength.toNat 0) (some 0)).toOption
    return [.sendto buffer]
  else if type ∈ [HeartbeatType, ByeType] then do
    let h := d.header type flags
    let (buffer, _) ← (h.pack (List.replicate h.getHeaderLength.toNat 0) (some 0)).toOption
    return [.sendto buffer]
  -- Unrecognized message type.
  else return []

/-- One `SendMsg` for each of these addresses. -/
def sendEach (type : UInt8) (topic : Str) : List Address → Option (List Output)
  | [] => some []
  | a :: as => do
    let out ← d.sendMsg type topic a.addr a.ctrl a.nUuid a.scope
    let outs ← sendEach type topic as
    return out ++ outs

/-- `sendEach` for each of these topics. -/
def sendTopics (type : UInt8) : List (Str × List Address) → Option (List Output)
  | [] => some []
  | t :: ts => do
    let out ← d.sendEach type t.1 t.2
    let outs ← sendTopics type ts
    return out ++ outs

end Send

/-! ## Entry points -/

section EntryPoints

variable (d : Discovery)

/-- `Advertise`. -/
def advertise (type : MsgType) (topic addr ctrl nUuid : Str) (scope : Scope) : Option (Discovery × List Output) :=
  -- Add the addressing information (local node).
  let d := d.setInfo type ((d.info type).addAddress topic addr ctrl d.pUuid nUuid scope).1
  -- If the scope is 'Process', do not advertise a message outside this process.
  if scope = .process then return (d, [])
  else do
    let out ← d.sendMsg (advType type) topic addr ctrl nUuid scope
    return (d, out)

/-- `Unadvertise`. -/
def unadvertise (type : MsgType) (topic nUuid : Str) : Option (Discovery × List Output) :=
  match (d.info type).getAddress topic d.pUuid nUuid with
  -- The topic is not advertised by any of my nodes.
  | none => return (d, [])
  | some inf => do
    let d := d.setInfo type ((d.info type).delAddressByNode topic d.pUuid nUuid).1
    if inf.scope = .process then return (d, [])
    else
      let out ← d.sendMsg (unadvType type) topic inf.addr inf.ctrl nUuid inf.scope
      return (d, out)

/-- The callbacks of `Discover` for the stored addresses of a topic, process by process. -/
def replay (type : MsgType) (topic : Str) (addresses : Addresses) : List Output :=
  addresses.toList.flatMap fun proc => proc.2.map fun node =>
    .connection type ⟨topic, node.addr, node.ctrl, proc.1, node.nUuid, node.scope⟩

/-- `Discover`. -/
def discover (topic : Str) (isSrv : Bool) : Option (Discovery × List Output) := do
  let type := if isSrv then MsgType.srv else MsgType.msg
  let out ← d.sendMsg (subType type) topic [] [] [] .all
  match (d.info type).getAddresses topic with
  | none => return (d, out)
  -- I already have information about this topic.
  | some addresses => return (d, out ++ if d.hasConnectionCb type then replay type topic addresses else [])

/-- One round of `RunHeartbeatTask`. -/
def heartbeat : Option (Discovery × List Output) := do
  let out ← d.sendMsg HeartbeatType [] [] [] [] .all
  let msgs ← d.sendTopics AdvType (d.infoMsg.getAddressesByProc d.pUuid)
  let srvs ← d.sendTopics AdvSrvType (d.infoSrv.getAddressesByProc d.pUuid)
  return (d, out ++ msgs ++ srvs)

/-- The milliseconds between two clock readings as the code counts them: the nanoseconds become a `duration<double>`
of seconds, and `duration_cast` multiplies these by 1000 and truncates.  1001000000 nanoseconds count as 1000
milliseconds. -/
def elapsedMs (now last : Timestamp) : ℕ :=
  let elapsed : Floating 52 1074 := (Floating.ofNat (now - last)).div (Floating.ofNat 1000000000)
  (elapsed.mul (Floating.ofNat 1000)).toNat

/-- The arguments of a notification without topic information. -/
def goneArgs (pUuid : Str) : CallbackArgs := ⟨[], [], [], pUuid, [], .all⟩

/-- A process that expires: its entries and its activity go. -/
def expire (pUuid : Str) : Discovery :=
  { d.delAddressesByProc pUuid with activity := d.activity.erase pUuid }

/-- The loop of `RunActivityTask` over the activity entries. -/
def sweepFrom (now : Timestamp) : List (Str × Timestamp) → Discovery → Option (Discovery × List Output)
  | [], d => some (d, [])
  | (pUuid, last) :: entries, d =>
    if elapsedMs now last > d.silenceInterval then
      -- The callback is executed without a check.
      if d.disconnectionCb then do
        let (d, out) ← sweepFrom now entries (d.expire pUuid)
        return (d, .disconnection .msg (goneArgs pUuid) :: out)
      else none
    else sweepFrom now entries d

/-- One round of `RunActivityTask`. -/
def runActivityTask (now : Timestamp) : Option (Discovery × List Output) := sweepFrom now d.activity.toList d

end EntryPoints

/-! ## Reception -/

section Reception

variable (d : Discovery)

/-- The body of a message, as its type says. -/
inductive Body where
  | advertise (type : MsgType) (m : AdvertiseMsg)
  | subscribe (type : MsgType) (m : SubscriptionMsg)
  | heartbeat
  | bye
  | unadvertise (type : MsgType) (m : AdvertiseMsg)
  /-- Unknown message type. -/
  | unknown
  deriving DecidableEq, Repr

/-- Read the rest of the fields, by the `switch` on the type of the header. -/
def readBody (type : UInt8) (msg : Buffer) (pBody : ℕ) : Option Body :=
  if type = AdvType ∨ type = AdvSrvType then do
    let (m, _) ← AdvertiseMsg.unpackBody {} msg (some pBody)
    return .advertise (if type = AdvType then .msg else .srv) m
  else if type = SubType ∨ type = SubSrvType then do
    let (m, _) ← SubscriptionMsg.unpackBody {} msg (some pBody)
    return .subscribe (if type = SubType then .msg else .srv) m
  else if type = HeartbeatType then return .heartbeat
  else if type = ByeType then return .bye
  else if type = UnadvType ∨ type = UnadvSrvType then do
    let (m, _) ← AdvertiseMsg.unpackBody {} msg (some pBody)
    return .unadvertise (if type = UnadvType then .msg else .srv) m
  else return .unknown

/-- The scope check: a topic that is not for a process at this address. -/
def Hides (hostAddr fromIp : Str) (scope : Scope) : Prop :=
  scope = .process ∨ (scope = .host ∧ fromIp ≠ hostAddr)

instance (hostAddr fromIp : Str) (scope : Scope) : Decidable (Hides hostAddr fromIp scope) := by
  unfold Hides; infer_instance

/-- The arguments of a callback about an [UN]ADVERTISE message. -/
def advArgs (pUuid : Str) (m : AdvertiseMsg) : CallbackArgs := ⟨m.topic, m.addr, m.ctrl, pUuid, m.nUuid, m.scope⟩

/-- ADVERTISE and ADV_SRV. -/
def recvAdvertise (fromIp pUuid : Str) (type : MsgType) (m : AdvertiseMsg) : Discovery × List Output :=
  if Hides d.hostAddr fromIp m.scope then (d, [])
  else
    let (storage, added) := (d.info type).addAddress m.topic m.addr m.ctrl pUuid m.nUuid m.scope
    (d.setInfo type storage,
      if added && d.hasConnectionCb type then [.connection type (advArgs pUuid m)] else [])

/-- SUBSCRIBE and SUB_SRV. -/
def recvSubscribe (fromIp : Str) (type : MsgType) (m : SubscriptionMsg) : Option (Discovery × List Output) :=
  -- Check if at least one of my nodes advertises the topic requested.
  if (d.info type).hasAnyAddresses m.topic d.pUuid then
    match (d.info type).getAddresses m.topic with
    | none => return (d, [])
    | some addresses => do
      let out ← d.sendEach (advType type) m.topic
        ((addresses.getD d.pUuid []).filter fun a => ¬ Hides d.hostAddr fromIp a.scope)
      return (d, out)
  else return (d, [])

/-- BYE. -/
def recvBye (pUuid : Str) : Discovery × List Output :=
  let d := { d with activity := d.activity.erase pUuid }
  (d.delAddressesByProc pUuid,
    (if d.disconnectionCb then [.disconnection .msg (goneArgs pUuid)] else []) ++
      if d.disconnectionSrvCb then [.disconnection .srv (goneArgs pUuid)] else [])

/-- UNADVERTISE and UNADVERTISE_SRV. -/
def recvUnadvertise (fromIp pUuid : Str) (type : MsgType) (m : AdvertiseMsg) : Discovery × List Output :=
  if Hides d.hostAddr fromIp m.scope then (d, [])
  else
    (d.setInfo type ((d.info type).delAddressByNode m.topic pUuid m.nUuid).1,
      if d.hasDisconnectionCb type then [.disconnection type (advArgs pUuid m)] else [])

/-- The branches of the `switch`. -/
def handle (fromIp pUuid : Str) : Body → Option (Discovery × List Output)
  | .advertise type m => some (d.recvAdvertise fromIp pUuid type m)
  | .subscribe type m => d.recvSubscribe fromIp type m
  | .heartbeat => some (d, [])
  | .bye => some (d.recvBye pUuid)
  | .unadvertise type m => some (d.recvUnadvertise fromIp pUuid type m)
  | .unknown => some (d, [])

/-- `activity[pUuid] = now`. -/
def touch (pUuid : Str) (now : Timestamp) : Discovery := { d with activity := d.activity.insert pUuid now }

/-- `DispatchDiscoveryMsg`; a datagram is at most `MaxRcvStr` bytes long, so `GetHeaderLength` is positive. -/
def dispatchDiscoveryMsg (fromIp : Str) (now : Timestamp) (msg : Buffer) : Option (Discovery × List Output) := do
  -- Create the header from the raw bytes.
  let (header, _) ← Header.unpack {} msg (some 0)
  let pBody := header.getHeaderLength.toNat
  let recvPUuid := header.pUuid
  -- Discard our own discovery messages.
  if recvPUuid = d.pUuid then return (d, [])
  else
    -- Update timestamp.
    let d := d.touch recvPUuid now
    let body ← readBody header.type msg pBody
    d.handle fromIp recvPUuid body

/-- `RecvDiscoveryUpdate`: the datagram lands in front of what `rcvStr` held, and its length is not passed on. -/
def recvDiscoveryUpdate (fromIp : Str) (now : Timestamp) (datagram rcvStr : Buffer) :
    Option (Discovery × List Output) :=
  d.dispatchDiscoveryMsg fromIp now (datagram.take MaxRcvStr ++ rcvStr.drop datagram.length)

end Reception

end Discovery

end IgnTransport
