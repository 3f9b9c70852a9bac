import Mathlib
import IgnTransport.PacketWire
import IgnTransport.Discovery

/-!
# IgnTransport.DiscoveryWire — what `DispatchDiscoveryMsg` reads

`DispatchDiscoveryMsg` gets a pointer and no length.  Against the format, what it reads is `decodeBody` of the bytes
after the header (`dispatch_of_decode`).  A datagram is `CompleteEncoding` if a header and the body that its type calls
for can be decoded from it; for such a datagram what lies behind it in `rcvStr` has no effect.
`malformed_rejected_iff` says for which datagrams nothing behind the received bytes is touched.
-/

namespace IgnTransport

open Lib

namespace Discovery

/-! ## Bodies in terms of the format -/

section Decode

/-- The advertise message that `UnpackBody` fills in, with its default header. -/
def advertiseOf (b : BaseBody × Str) : AdvertiseMsg :=
  { ({} : AdvertiseMsg).withBody b.1 with msgTypeName := b.2 }

/-- The body that the bytes after a header of this type hold. -/
def decodeBody (type : UInt8) (bytes : List UInt8) : Option Body :=
  if type = AdvType ∨ type = AdvSrvType then
    (msgCodec.decode bytes).map fun r => .advertise (if type = AdvType then .msg else .srv) (advertiseOf r.1)
  else if type = SubType ∨ type = SubSrvType then
    (strCodec.decode bytes).map fun r => .subscribe (if type = SubType then .msg else .srv) { topic := r.1 }
  else if type = HeartbeatType then some .heartbeat
  else if type = ByeType then some .bye
  else if type = UnadvType ∨ type = UnadvSrvType then
    (msgCodec.decode bytes).map fun r => .unadvertise (if type = UnadvType then .msg else .srv) (advertiseOf r.1)
  else some .unknown

theorem readBody_eq (type : UInt8) (pre : List UInt8) {suf : List UInt8} (hfit : BaseFits suf) :
    readBody type (pre ++ suf) pre.length = decodeBody type suf := by
  unfold readBody decodeBody
  split_ifs
  · rw [msg_unpackBody _ pre hfit]
    cases msgCodec.decode suf <;> rfl
  · rw [msg_unpackBody _ pre hfit]
    cases msgCodec.decode suf <;> rfl
  · rw [subscription_unpackBody _ pre suf]
    cases strCodec.decode suf <;> rfl
  · rw [subscription_unpackBody _ pre suf]
    cases strCodec.decode suf <;> rfl
  · rfl
  · rfl
  · rw [msg_unpackBody _ pre hfit]
    cases msgCodec.decode suf <;> rfl
  · rw [msg_unpackBody _ pre hfit]
    cases msgCodec.decode suf <;> rfl
  · rfl

/-- What `DispatchDiscoveryMsg` reads: the header and, unless the message is its own, the body. -/
def readMessage (pUuid : Str) (msg : Buffer) : Option (Header × Option Body) := do
  let (header, _) ← Header.unpack {} msg (some 0)
  if header.pUuid = pUuid then return (header, none)
  else
    let body ← readBody header.type msg header.getHeaderLength.toNat
    return (header, some body)

theorem dispatch_eq_readMessage (d : Discovery) (fromIp : Str) (now : Timestamp) (msg : Buffer) :
    d.dispatchDiscoveryMsg fromIp now msg =
      (readMessage d.pUuid msg).bind fun r => match r.2 with
        | none => some (d, [])
        | some body => (d.touch r.1.pUuid now).handle fromIp r.1.pUuid body := by
  unfold dispatchDiscoveryMsg readMessage
  cases Header.unpack {} msg (some 0) with
  | none => rfl
  | some r =>
    simp only [bind, pure, Option.bind_some]
    split_ifs
    · rfl
    · cases readBody r.1.type msg r.1.getHeaderLength.toNat <;> rfl

/-- A buffer no longer than an `int` can say. -/
theorem readMessage_of_decode {msg : Buffer} (hlen : msg.length < 2 ^ 31) (pUuid : Str) :
    readMessage pUuid msg = (headerCodec.decode msg).bind fun r =>
      if r.1.pUuid = pUuid then some (r.1, none)
      else (decodeBody r.1.type r.2).map fun body => (r.1, some body) := by
  have hread := header_unpack {} [] msg
  rw [List.nil_append, List.length_nil] at hread
  unfold readMessage
  rw [hread]
  cases hdec : headerCodec.decode msg with
  | none => rfl
  | some r =>
    obtain ⟨h, rest⟩ := r
    have hmsg := headerCodec.eq_encode_append hdec
    have hsum := congrArg List.length hmsg
    rw [List.length_append, length_encode_header] at hsum
    have hfit : h.pUuid.length < 2 ^ 31 - 13 := by omega
    have hbase : BaseFits rest := baseFits_of_length (by omega)
    have hoff : h.getHeaderLength.toNat = (headerCodec.encode h).length := by
      rw [Header.getHeaderLength_eq hfit, Int.toNat_natCast]
    have hbody : readBody h.type msg (headerCodec.encode h).length = decodeBody h.type rest := by
      rw [hmsg]
      exact readBody_eq h.type (headerCodec.encode h) hbase
    simp only [Option.map_some, bind, pure, Option.bind_some, hoff, hbody]
    cases decodeBody h.type rest <;> rfl

end Decode

/-! ## Malformed datagrams -/

section Malformed

/-- The bytes start with a body that a header of this type calls for. -/
def CompleteBody (type : UInt8) (bytes : List UInt8) : Prop :=
  (type ∈ [AdvType, AdvSrvType, UnadvType, UnadvSrvType] →
    ∃ v rest, msgCodec.Valid v ∧ bytes = msgCodec.encode v ++ rest) ∧
  (type ∈ [SubType, SubSrvType] → ∃ t rest, strCodec.Valid t ∧ bytes = strCodec.encode t ++ rest)

/-- The bytes start with a header and the body that its type calls for. -/
def CompleteEncoding (bytes : List UInt8) : Prop :=
  ∃ h rest, headerCodec.Valid h ∧ bytes = headerCodec.encode h ++ rest ∧ CompleteBody h.type rest

/-- The bytes start with a header of this process. -/
def OwnHeader (pUuid : Str) (bytes : List UInt8) : Prop :=
  ∃ h rest, headerCodec.Valid h ∧ bytes = headerCodec.encode h ++ rest ∧ h.pUuid = pUuid

theorem isSome_decodeBody (type : UInt8) (bytes : List UInt8) :
    (decodeBody type bytes).isSome ↔ CompleteBody type bytes := by
  unfold decodeBody CompleteBody
  rw [← Codec.isSome_decode, ← Codec.isSome_decode]
  simp only [List.mem_cons, List.not_mem_nil, or_false]
  split_ifs with h1 h2 h3 h4 h5 h6 h7
  all_goals simp only [Option.isSome_map, Option.isSome_some, true_iff]
  all_goals grind [AdvType, AdvSrvType, UnadvType, UnadvSrvType, SubType, SubSrvType, HeartbeatType, ByeType]

/-- A callback, as opposed to a datagram. -/
def IsCallback : Output → Prop
  | .sendto _ => False
  | .connection _ _ => True
  | .disconnection _ _ => True

/-- What is asked of the reception of a datagram: no byte behind the received ones is needed, and a datagram that is
not a complete encoding changes nothing and executes no callback. -/
def Rejects (d : Discovery) (fromIp : Str) (now : Timestamp) (received : Buffer) : Prop :=
  (readMessage d.pUuid received).isSome ∧
  (¬ CompleteEncoding received → ∀ rcvStr : Buffer, rcvStr.length = MaxRcvStr →
    ∃ d' out, d.recvDiscoveryUpdate fromIp now received rcvStr = some (d', out) ∧
      d'.infoMsg = d.infoMsg ∧ d'.infoSrv = d.infoSrv ∧ d'.activity = d.activity ∧ ∀ o ∈ out, ¬ IsCallback o)

theorem recvDiscoveryUpdate_own {d : Discovery} {received rcvStr : Buffer} (fromIp : Str) (now : Timestamp)
    (hlen : received.length ≤ MaxRcvStr) (hown : OwnHeader d.pUuid received) (hstr : rcvStr.length = MaxRcvStr) :
    d.recvDiscoveryUpdate fromIp now received rcvStr = some (d, []) := by
  obtain ⟨h, rest, hvalid, rfl, hp⟩ := hown
  have hbuf : (headerCodec.encode h ++ rest ++ rcvStr.drop (headerCodec.encode h ++ rest).length).length < 2 ^ 31 := by
    rw [List.length_append, List.length_drop, hstr]
    unfold MaxRcvStr at hlen ⊢
    omega
  rw [recvDiscoveryUpdate, List.take_of_length_le hlen, dispatch_eq_readMessage, readMessage_of_decode hbuf,
    List.append_assoc, headerCodec.decode_encode hvalid, Option.bind_some, if_pos hp]
  rfl

theorem isSome_readMessage {received : Buffer} (hlen : received.length ≤ MaxRcvStr) (pUuid : Str) :
    (readMessage pUuid received).isSome ↔ CompleteEncoding received ∨ OwnHeader pUuid received := by
  have hshort : received.length < 2 ^ 31 := Nat.lt_of_le_of_lt hlen (by decide)
  rw [readMessage_of_decode hshort]
  constructor
  · intro h
    cases hdec : headerCodec.decode received with
    | none => simp [hdec] at h
    | some r =>
      obtain ⟨hdr, rest⟩ := r
      obtain ⟨hvalid, hmsg⟩ := (headerCodec.exact _ _ _).mp hdec
      by_cases hp : hdr.pUuid = pUuid
      · exact .inr ⟨hdr, rest, hvalid, hmsg, hp⟩
      · simp only [hdec, Option.bind_some, if_neg hp, Option.isSome_map] at h
        exact .inl ⟨hdr, rest, hvalid, hmsg, (isSome_decodeBody _ _).mp h⟩
  · rintro (⟨hdr, rest, hvalid, rfl, hbody⟩ | ⟨hdr, rest, hvalid, rfl, hp⟩)
    · rw [headerCodec.decode_encode hvalid, Option.bind_some]
      split_ifs
      · rfl
      · rw [Option.isSome_map]
        exact (isSome_decodeBody _ _).mpr hbody
    · rw [headerCodec.decode_encode hvalid, Option.bind_some, if_pos hp]
      rfl

/-- **Malformed datagrams are rejected exactly when they carry this process's own header**: the received length is
lost, so any other incomplete encoding is completed by what `rcvStr` held. -/
theorem malformed_rejected_iff (d : Discovery) (fromIp : Str) (now : Timestamp) (received : Buffer)
    (hlen : received.length ≤ MaxRcvStr) :
    Rejects d fromIp now received ↔ CompleteEncoding received ∨ OwnHeader d.pUuid received := by
  constructor
  · rintro ⟨hread, -⟩
    exact (isSome_readMessage hlen d.pUuid).mp hread
  · intro h
    refine ⟨(isSome_readMessage hlen d.pUuid).mpr h, fun hinc rcvStr hstr => ?_⟩
    have hown := h.resolve_left hinc
    exact ⟨d, [], recvDiscoveryUpdate_own fromIp now hlen hown hstr, rfl, rfl, rfl, by simp⟩

/-- An ADVERTISE of this very process, without its body. -/
theorem malformed_rejected_own_header :
    Rejects { pUuid := [65], hostAddr := [1] } [1] 0
      (headerCodec.encode { version := 1, pUuid := [65], type := AdvType }) :=
  (malformed_rejected_iff _ [1] 0 _ (by decide)).mpr
    (.inr ⟨{ version := 1, pUuid := [65], type := AdvType }, [], valid_header.mpr (by decide), by simp, rfl⟩)

/-- An ADVERTISE that was cut off behind its header. -/
def truncatedAdvertise : Buffer := headerCodec.encode { version := 1, pUuid := [66], type := AdvType }

/-- Its topic length is whatever the last datagram left behind. -/
theorem truncated_advertise_not_rejected :
    ¬ ∀ (d : Discovery) (fromIp : Str) (now : Timestamp) (received : Buffer),
      received.length ≤ MaxRcvStr → Rejects d fromIp now received := by
  intro h
  have hread := (h { pUuid := [65], hostAddr := [1] } [2] 0 truncatedAdvertise (by decide)).1
  exact absurd hread (by decide)

end Malformed

end Discovery

end IgnTransport
