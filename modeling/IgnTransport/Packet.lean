import Mathlib
import IgnTransport.Lib.Cursor
import IgnTransport.TransportTypes

/-!
# IgnTransport.Packet — the discovery packets (`Packet.hh`, `Packet.cc`)

`Pack` and `UnpackBody` as the source computes them: a buffer, a `char *` that is moved by hand (`none` is the null
pointer, `some p` the offset `p` into the buffer), `memcpy` of native integers (little-endian hosts) and three
separate length formulas in `int` and `size_t` arithmetic.  `Pack` may fault in two ways, by throwing
`std::out_of_range` while it prints an incomplete message and by writing outside the buffer; a reader that leaves the
buffer yields `none`.
-/

namespace IgnTransport

open Lib

/-- A `char` buffer. -/
abbrev Buffer := List UInt8

/-- The ways packing can fail to return. -/
inductive Fault where
  /-- `std::out_of_range`, thrown by `MsgTypesStr.at`. -/
  | outOfRange
  /-- A byte outside the buffer was written. -/
  | overrun
  deriving DecidableEq, Repr

/-! ## Message types -/

def Uninitialized : UInt8 := 0
def AdvType : UInt8 := 1
def SubType : UInt8 := 2
def UnadvType : UInt8 := 3
def HeartbeatType : UInt8 := 4
def ByeType : UInt8 := 5
def AdvSrvType : UInt8 := 6
def SubSrvType : UInt8 := 7
def UnadvSrvType : UInt8 := 8
def NewConnection : UInt8 := 9
def EndConnection : UInt8 := 10

/-- Used for debugging the message type received or sent. -/
def MsgTypesStr : List String :=
  ["UNINITIALIZED", "ADVERTISE", "SUBSCRIBE", "UNADVERTISE", "HEARTBEAT", "BYE", "ADV_SRV", "SUB_SRV",
    "UNADVERTISE_SRV", "NEW_CONNECTION", "END_CONNECTION"]

/-! ## Field access -/

section Fields

/-- `memcpy` into the output buffer. -/
def memcpyTo (buf : Buffer) (p : ℕ) (src : List UInt8) : Except Fault Buffer :=
  store .overrun buf p src

/-- Pack the length of a string, move, pack the string, move. -/
def packString (s : Str) (buf : Buffer) (p : ℕ) : Except Fault (Buffer × ℕ) := do
  let length : UInt64 := .ofNat s.length
  let buf ← memcpyTo buf p (leBytes 8 length.toNat)
  let p := p + 8
  let buf ← memcpyTo buf p (s.take length.toNat)
  return (buf, p + length.toNat)

/-- Unpack the length of a string, move, unpack the string, move. -/
def unpackString (buf : Buffer) (p : ℕ) : Option (Str × ℕ) := do
  let b ← load buf p 8
  let length := leNat b
  let p := p + 8
  let s ← load buf p length
  return (s, p + length)

/-- `memcpy` of a `w`-byte unsigned integer out of the input buffer. -/
def unpackUInt (w : ℕ) (buf : Buffer) (p : ℕ) : Option (ℕ × ℕ) := do
  let b ← load buf p w
  return (leNat b, p + w)

end Fields

/-! ## Header -/

/-- `Header`. -/
structure Header where
  version : UInt16 := 0
  pUuid : Str := []
  type : UInt8 := Uninitialized
  flags : UInt16 := 0
  deriving DecidableEq, Repr

namespace Header

/-- `GetHeaderLength`: a `size_t` sum returned as an `int`. -/
def getHeaderLength (h : Header) : ℤ := Int.bmod (2 + 8 + h.pUuid.length + 1 + 2 : ℕ) (2 ^ 32)

/-- `operator<<`: the name of the message type, looked up with a bounds check. -/
def print (h : Header) : Except Fault String :=
  match MsgTypesStr[h.type.toNat]? with
  | some name => .ok name
  | none => .error .outOfRange

/-- `Header::Pack`. -/
def pack (h : Header) (buf : Buffer) (buffer : Option ℕ) : Except Fault (Buffer × UInt64) :=
  -- Uninitialized.
  if h.version = 0 ∨ h.pUuid = [] ∨ h.type = Uninitialized then do
    let _ ← h.print
    return (buf, 0)
  else match buffer with
    -- null buffer.
    | none => return (buf, 0)
    | some p => do
      let buf ← memcpyTo buf p (leBytes 2 h.version.toNat)
      let p := p + 2
      let (buf, p) ← packString h.pUuid buf p
      let buf ← memcpyTo buf p (leBytes 1 h.type.toNat)
      let p := p + 1
      let buf ← memcpyTo buf p (leBytes 2 h.flags.toNat)
      return (buf, .ofInt h.getHeaderLength)

/-- `Header::Unpack`: sets the fields of the receiving object. -/
def unpack (h : Header) (buf : Buffer) (buffer : Option ℕ) : Option (Header × UInt64) :=
  match buffer with
  -- null buffer.
  | none => return (h, 0)
  | some p => do
    let (version, p) ← unpackUInt 2 buf p
    let (pUuid, p) ← unpackString buf p
    let (type, p) ← unpackUInt 1 buf p
    let (flags, _) ← unpackUInt 2 buf p
    let h : Header := { version := .ofNat version, pUuid, type := .ofNat type, flags := .ofNat flags }
    return (h, .ofInt h.getHeaderLength)

end Header

/-! ## SubscriptionMsg -/

/-- `SubscriptionMsg`. -/
structure SubscriptionMsg where
  header : Header := {}
  topic : Str := []
  deriving DecidableEq, Repr

namespace SubscriptionMsg

/-- `SubscriptionMsg::SetHeader`. -/
def setHeader (m : SubscriptionMsg) (h : Header) : SubscriptionMsg := { m with header := h }

/-- `SubscriptionMsg::GetMsgLength`. -/
def getMsgLength (m : SubscriptionMsg) : UInt64 :=
  .ofInt m.header.getHeaderLength + 8 + .ofNat m.topic.length

/-- `SubscriptionMsg::Pack`. -/
def pack (m : SubscriptionMsg) (buf : Buffer) (buffer : Option ℕ) : Except Fault (Buffer × UInt64) := do
  let (buf, headerLen) ← m.header.pack buf buffer
  if headerLen = 0 then
    return (buf, 0)
  else if m.topic = [] then
    return (buf, 0)
  else match buffer with
    | none => return (buf, 0)
    | some p => do
      let p := p + headerLen.toNat
      let (buf, _) ← packString m.topic buf p
      return (buf, m.getMsgLength)

/-- `SubscriptionMsg::UnpackBody`. -/
def unpackBody (m : SubscriptionMsg) (buf : Buffer) (buffer : Option ℕ) : Option (SubscriptionMsg × UInt64) :=
  match buffer with
  -- null buffer.
  | none => return (m, 0)
  | some p => do
    let (topic, _) ← unpackString buf p
    return ({ m with topic }, 8 + .ofNat topic.length)

end SubscriptionMsg

/-! ## AdvertiseBase -/

/-- `AdvertiseBase`. -/
structure AdvertiseBase where
  header : Header := {}
  topic : Str := []
  addr : Str := []
  ctrl : Str := []
  nUuid : Str := []
  scope : Scope := .all
  deriving DecidableEq, Repr

namespace AdvertiseBase

/-- `AdvertiseBase::SetHeader`. -/
def setHeader (m : AdvertiseBase) (h : Header) : AdvertiseBase := { m with header := h }

/-- `AdvertiseBase::GetMsgLength`. -/
def getMsgLength (m : AdvertiseBase) : UInt64 :=
  .ofInt m.header.getHeaderLength + 8 + .ofNat m.topic.length + 8 + .ofNat m.addr.length + 8 +
    .ofNat m.ctrl.length + 8 + .ofNat m.nUuid.length + 1

/-- `AdvertiseBase::Pack`. -/
def pack (m : AdvertiseBase) (buf : Buffer) (buffer : Option ℕ) : Except Fault (Buffer × UInt64) := do
  let (buf, headerLen) ← m.header.pack buf buffer
  if headerLen = 0 then
    return (buf, 0)
  else if m.topic = [] ∨ m.addr = [] ∨ m.nUuid = [] then do
    let _ ← m.header.print
    return (buf, 0)
  else match buffer with
    | none => return (buf, 0)
    | some p => do
      let p := p + headerLen.toNat
      let (buf, p) ← packString m.topic buf p
      let (buf, p) ← packString m.addr buf p
      let (buf, p) ← packString m.ctrl buf p
      let (buf, p) ← packString m.nUuid buf p
      let buf ← memcpyTo buf p (leBytes 1 m.scope.value.toNat)
      return (buf, m.getMsgLength)

/-- `AdvertiseBase::UnpackBody`. -/
def unpackBody (m : AdvertiseBase) (buf : Buffer) (buffer : Option ℕ) : Option (AdvertiseBase × UInt64) :=
  match buffer with
  -- null buffer.
  | none => return (m, 0)
  | some p => do
    let (topic, p) ← unpackString buf p
    let (addr, p) ← unpackString buf p
    let (ctrl, p) ← unpackString buf p
    let (nUuid, p) ← unpackString buf p
    let (intscope, _) ← unpackUInt 1 buf p
    return ({ m with topic, addr, ctrl, nUuid, scope := ⟨.ofNat intscope⟩ },
      8 + .ofNat topic.length + 8 + .ofNat addr.length + 8 + .ofNat ctrl.length + 8 + .ofNat nUuid.length + 1)

end AdvertiseBase

/-! ## AdvertiseMsg and AdvertiseSrv -/

/-- `AdvertiseMsg`. -/
structure AdvertiseMsg extends AdvertiseBase where
  msgTypeName : Str := []
  deriving DecidableEq, Repr

namespace AdvertiseMsg

/-- `AdvertiseBase::SetHeader`. -/
def setHeader (m : AdvertiseMsg) (h : Header) : AdvertiseMsg :=
  { m with toAdvertiseBase := m.toAdvertiseBase.setHeader h }

/-- `AdvertiseMsg::GetMsgLength`. -/
def getMsgLength (m : AdvertiseMsg) : UInt64 :=
  m.toAdvertiseBase.getMsgLength + 8 + .ofNat m.msgTypeName.length

/-- `AdvertiseMsg::Pack`. -/
def pack (m : AdvertiseMsg) (buf : Buffer) (buffer : Option ℕ) : Except Fault (Buffer × UInt64) := do
  let (buf, len) ← m.toAdvertiseBase.pack buf buffer
  if len = 0 then
    return (buf, 0)
  else if m.msgTypeName = [] then
    return (buf, 0)
  else match buffer with
    | none => return (buf, 0)
    | some p => do
      let p := p + len.toNat
      let (buf, _) ← packString m.msgTypeName buf p
      return (buf, m.getMsgLength)

/-- `AdvertiseMsg::UnpackBody`. -/
def unpackBody (m : AdvertiseMsg) (buf : Buffer) (buffer : Option ℕ) : Option (AdvertiseMsg × UInt64) := do
  let (base, advCommonLen) ← m.toAdvertiseBase.unpackBody buf buffer
  if advCommonLen = 0 then
    return ({ m with toAdvertiseBase := base }, 0)
  else match buffer with
    | none => return ({ m with toAdvertiseBase := base }, 0)
    | some p => do
      let p := p + advCommonLen.toNat
      let (msgTypeName, _) ← unpackString buf p
      let m : AdvertiseMsg := { base with msgTypeName }
      return (m, m.getMsgLength - .ofInt m.header.getHeaderLength)

end AdvertiseMsg

/-- `AdvertiseSrv`. -/
structure AdvertiseSrv extends AdvertiseBase where
  reqTypeName : Str := []
  repTypeName : Str := []
  deriving DecidableEq, Repr

namespace AdvertiseSrv

/-- `AdvertiseBase::SetHeader`. -/
def setHeader (m : AdvertiseSrv) (h : Header) : AdvertiseSrv :=
  { m with toAdvertiseBase := m.toAdvertiseBase.setHeader h }

/-- `AdvertiseSrv::GetMsgLength`. -/
def getMsgLength (m : AdvertiseSrv) : UInt64 :=
  m.toAdvertiseBase.getMsgLength + 8 + .ofNat m.reqTypeName.length + 8 + .ofNat m.repTypeName.length

/-- `AdvertiseSrv::Pack`. -/
def pack (m : AdvertiseSrv) (buf : Buffer) (buffer : Option ℕ) : Except Fault (Buffer × UInt64) := do
  let (buf, len) ← m.toAdvertiseBase.pack buf buffer
  if len = 0 then
    return (buf, 0)
  else if m.reqTypeName = [] ∨ m.repTypeName = [] then do
    let _ ← m.header.print
    return (buf, 0)
  else match buffer with
    | none => return (buf, 0)
    | some p => do
      let p := p + len.toNat
      let (buf, p) ← packString m.reqTypeName buf p
      let (buf, _) ← packString m.repTypeName buf p
      return (buf, m.getMsgLength)

/-- `AdvertiseSrv::UnpackBody`. -/
def unpackBody (m : AdvertiseSrv) (buf : Buffer) (buffer : Option ℕ) : Option (AdvertiseSrv × UInt64) := do
  let (base, advCommonLen) ← m.toAdvertiseBase.unpackBody buf buffer
  if advCommonLen = 0 then
    return ({ m with toAdvertiseBase := base }, 0)
  else match buffer with
    | none => return ({ m with toAdvertiseBase := base }, 0)
    | some p => do
      let p := p + advCommonLen.toNat
      let (reqTypeName, p) ← unpackString buf p
      let (repTypeName, _) ← unpackString buf p
      let m : AdvertiseSrv := { base with reqTypeName, repTypeName }
      return (m, m.getMsgLength - .ofInt m.header.getHeaderLength)

end AdvertiseSrv

end IgnTransport
