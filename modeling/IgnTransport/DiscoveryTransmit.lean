import Mathlib
import IgnTransport.DiscoveryAnnouncements

/-!
# IgnTransport.DiscoveryTransmit — `SendMsg` up to its call of `sendto`

`SendMsg` makes three calls for a message: `GetMsgLength` for the size of the buffer, `Pack`, and `GetMsgLength` again
for the length that it gives to `sendto`, which it keeps in an `int`.  What `Pack` returned is not looked at.

* `transmit_eq_sendMsg`: for messages that an `int` can measure this is `sendMsg`.
* `complete_sent_iff`: what is sent is a complete message exactly if no string that `Pack` insists on is empty and the
  length is one of an `int`; and when `Advertise` and `Discover` make a peer decode a message with an empty topic.
-/

namespace IgnTransport

open Lib

namespace Discovery

/-! ## The call -/

section Call

/-- A call of `sendto`: the buffer that it is given, and the length. -/
structure SendCall where
  buffer : Buffer
  msgLength : ℤ
  deriving DecidableEq, Repr

/-- What `SendMsg` does with the message of a type: `GetMsgLength`, `Pack`, and the encoding that it is after. -/
structure Packing where
  length : UInt64
  pack : Buffer → Except Fault (Buffer × UInt64)
  encoding : List UInt8

/-- `buffer.resize(n)` of an empty vector, or `std::length_error`. -/
def resize (n : UInt64) : Option Buffer := if n.toNat < 2 ^ 63 then some (List.replicate n.toNat 0) else none

/-- A `size_t` in an `int`. -/
def toInt (n : UInt64) : ℤ := Int.bmod n.toNat (2 ^ 32)

variable (d : Discovery) (type : UInt8) (topic addr ctrl nUuid : Str) (scope : Scope) (flags : ℤ)

/-- The `switch` of `SendMsg`. -/
def packing : Option Packing :=
  if type ∈ [AdvType, UnadvType, AdvSrvType, UnadvSrvType] then
    let m := d.advMsg type topic addr ctrl nUuid scope (.ofInt flags)
    some ⟨m.getMsgLength, fun buffer => m.pack buffer (some 0), m.encode⟩
  else if type ∈ [SubType, SubSrvType] then
    let m := d.subMsg type topic (.ofInt flags)
    some ⟨m.getMsgLength, fun buffer => m.pack buffer (some 0), m.encode⟩
  else if type ∈ [HeartbeatType, ByeType] then
    let h := d.header type (.ofInt flags)
    some ⟨.ofInt h.getHeaderLength, fun buffer => h.pack buffer (some 0), headerCodec.encode h⟩
  else none

/-- `SendMsg`: the call of `sendto`, if it comes to one. -/
def transmit : Option (Option SendCall) :=
  match d.packing type topic addr ctrl nUuid scope flags with
  -- Unrecognized message type.
  | none => some none
  | some p => do
    let buffer ← resize p.length
    let (buffer, _) ← (p.pack buffer).toOption
    return some ⟨buffer, toInt p.length⟩

/-- `SendMsg` returns, and what it hands to `sendto` is what `Pack` wrote and returned the length of: the encoding of
the message, as long as `sendto` is told. -/
def SendsComplete : Prop :=
  ∃ r, d.transmit type topic addr ctrl nUuid scope flags = some r ∧ ∀ call, r = some call →
    ∃ p buffer n, d.packing type topic addr ctrl nUuid scope flags = some p ∧ resize p.length = some buffer ∧
      p.pack buffer = .ok (call.buffer, n) ∧ n ≠ 0 ∧ call.msgLength = n.toNat ∧ call.buffer.length = n.toNat ∧
      call.buffer = p.encoding

/-- The strings that `Pack` insists on. -/
def Acceptable : Prop :=
  d.pUuid ≠ [] ∧ (type ∈ [AdvType, UnadvType, AdvSrvType, UnadvSrvType] → topic ≠ [] ∧ addr ≠ [] ∧ nUuid ≠ []) ∧
    (type ∈ [SubType, SubSrvType] → topic ≠ [])

instance : Decidable (d.Acceptable type topic addr nUuid) := by unfold Acceptable; infer_instance

end Call

/-! ## What is packed -/

section Packed

variable {d : Discovery} {type : UInt8} {topic addr ctrl nUuid : Str} {scope : Scope} {flags : ℤ}

theorem toInt_of_lt {n : UInt64} (h : n.toNat < 2 ^ 31) : toInt n = n.toNat := by
  unfold toInt
  apply Int.bmod_eq_of_le <;> omega

theorem toInt_lt_of_eq {n : UInt64} {k : ℕ} (h : toInt n = k) : k < 2 ^ 31 := by
  unfold toInt at h
  have hlt := Int.bmod_lt (x := (n.toNat : ℤ)) (m := 2 ^ 32) (by norm_num)
  omega

theorem resize_of_lt {n : UInt64} (h : n.toNat < 2 ^ 31) : resize n = some (List.replicate n.toNat 0) := by
  rw [resize, if_pos (by omega)]

theorem fits_of_short {m : AdvertiseMsg} (h : m.encode.length < 2 ^ 31) : m.Fits := by
  rw [length_encode_adv] at h
  refine ⟨⟨?_, ?_, ?_, ?_, ?_⟩, ?_⟩ <;> omega

theorem subscription_fits_of_short {m : SubscriptionMsg} (h : m.encode.length < 2 ^ 31) : m.Fits := by
  rw [SubscriptionMsg.encode, List.length_append, length_encode_header, length_encode_str] at h
  refine ⟨?_, ?_⟩ <;> omega

theorem header_fits_of_short {h : Header} (hshort : (headerCodec.encode h).length < 2 ^ 31) :
    h.pUuid.length < 2 ^ 31 - 13 := by
  rw [length_encode_header] at hshort
  omega

theorem complete_header {w : UInt8} {f : UInt16} (hp : d.pUuid ≠ []) (hw : w ≠ Uninitialized) :
    (d.header w f).Complete := ⟨show Version ≠ 0 by decide, hp, hw⟩

theorem ne_uninitialized {p : Packing} (h : d.packing type topic addr ctrl nUuid scope flags = some p) :
    type ≠ Uninitialized := by
  rintro rfl
  cases h

def advPacking (m : AdvertiseMsg) : Packing := ⟨m.getMsgLength, fun buffer => m.pack buffer (some 0), m.encode⟩

def subPacking (m : SubscriptionMsg) : Packing := ⟨m.getMsgLength, fun buffer => m.pack buffer (some 0), m.encode⟩

def headerPacking (h : Header) : Packing :=
  ⟨.ofInt h.getHeaderLength, fun buffer => h.pack buffer (some 0), headerCodec.encode h⟩

/-- The three kinds of messages. -/
theorem packing_cases {p : Packing} (h : d.packing type topic addr ctrl nUuid scope flags = some p) :
    (type ∈ [AdvType, UnadvType, AdvSrvType, UnadvSrvType] ∧
      p = advPacking (d.advMsg type topic addr ctrl nUuid scope (.ofInt flags))) ∨
    (type ∉ [AdvType, UnadvType, AdvSrvType, UnadvSrvType] ∧ type ∈ [SubType, SubSrvType] ∧
      p = subPacking (d.subMsg type topic (.ofInt flags))) ∨
    (type ∉ [AdvType, UnadvType, AdvSrvType, UnadvSrvType] ∧ type ∉ [SubType, SubSrvType] ∧
      type ∈ [HeartbeatType, ByeType] ∧ p = headerPacking (d.header type (.ofInt flags))) := by
  unfold packing at h
  split_ifs at h with ha hs hh
  · exact .inl ⟨ha, (Option.some.inj h).symm⟩
  · exact .inr (.inl ⟨ha, hs, (Option.some.inj h).symm⟩)
  · exact .inr (.inr ⟨ha, hs, hh, (Option.some.inj h).symm⟩)

/-- Every message has a header. -/
theorem header_le_encoding {p : Packing} (h : d.packing type topic addr ctrl nUuid scope flags = some p) :
    13 ≤ p.encoding.length := by
  rcases packing_cases h with ⟨-, rfl⟩ | ⟨-, -, rfl⟩ | ⟨-, -, -, rfl⟩
  · have hlen := length_encode_adv (d.advMsg type topic addr ctrl nUuid scope (.ofInt flags))
    dsimp only [advPacking]
    omega
  · dsimp only [subPacking]
    rw [SubscriptionMsg.encode, List.length_append, length_encode_header]
    omega
  · dsimp only [headerPacking]
    rw [length_encode_header]
    omega

/-- Of a short message `GetMsgLength` is the length of the encoding. -/
theorem packing_length {p : Packing} (h : d.packing type topic addr ctrl nUuid scope flags = some p)
    (hshort : p.encoding.length < 2 ^ 31) : p.length.toNat = p.encoding.length := by
  rcases packing_cases h with ⟨-, rfl⟩ | ⟨-, -, rfl⟩ | ⟨-, -, -, rfl⟩
  · exact (fits_of_short hshort).toNat_getMsgLength
  · exact (subscription_fits_of_short hshort).toNat_getMsgLength
  · exact toNat_getHeaderLength (header_fits_of_short hshort)

/-- A message that is accepted and short is packed as its encoding. -/
theorem packing_complete {p : Packing} (h : d.packing type topic addr ctrl nUuid scope flags = some p)
    (hacc : d.Acceptable type topic addr nUuid) (hshort : p.encoding.length < 2 ^ 31) :
    p.pack (List.replicate p.encoding.length 0) = .ok (p.encoding, p.length) := by
  have htype := ne_uninitialized h
  obtain ⟨hp, hadv, hsub⟩ := hacc
  -- the whole buffer is overwritten
  have hwhole : ∀ bytes : List UInt8, bytes ++ (List.replicate bytes.length (0 : UInt8)).drop bytes.length = bytes := by
    intro bytes
    rw [List.drop_replicate, Nat.sub_self, List.replicate_zero, List.append_nil]
  rcases packing_cases h with ⟨ha, rfl⟩ | ⟨-, hs, rfl⟩ | ⟨-, -, -, rfl⟩
  · obtain ⟨ht, haddr, hn⟩ := hadv ha
    have hpack := msg_pack ⟨⟨complete_header hp htype, ht, haddr, hn⟩, by simp [advMsg, ascii]⟩
      (fits_of_short hshort) [] (List.replicate _ 0) (List.length_replicate ..).ge
    rw [List.nil_append, List.nil_append, hwhole] at hpack
    exact hpack
  · have hpack := @subscription_pack (d.subMsg type topic (.ofInt flags)) (complete_header hp htype) (hsub hs)
      (subscription_fits_of_short hshort) [] (List.replicate _ 0) (List.length_replicate ..).ge
    rw [List.nil_append, List.nil_append, hwhole] at hpack
    exact hpack
  · have hpack := header_pack (complete_header (f := .ofInt flags) hp htype) (lt_of_fit (header_fits_of_short hshort))
      [] (List.replicate _ 0) (List.length_replicate ..).ge
    rw [List.nil_append, List.nil_append, hwhole] at hpack
    exact hpack

/-- `Pack` returns no length unless it has found what it insists on. -/
theorem acceptable_of_pack {p : Packing} (h : d.packing type topic addr ctrl nUuid scope flags = some p)
    {buffer buffer' : Buffer} {n : UInt64} (hpack : p.pack buffer = .ok (buffer', n)) (hn : n ≠ 0) :
    d.Acceptable type topic addr nUuid := by
  rcases packing_cases h with ⟨-, rfl⟩ | ⟨ha, -, rfl⟩ | ⟨ha, hs, -, rfl⟩
  · obtain ⟨⟨hc, hbody⟩, -⟩ := msg_pack_complete hpack hn
    exact ⟨hc.2.1, fun _ => hbody, fun _ => hbody.1⟩
  · obtain ⟨hc, ht⟩ := subscription_pack_complete hpack hn
    exact ⟨hc.2.1, fun ha' => absurd ha' ha, fun _ => ht⟩
  · have hpack' : (d.header type (.ofInt flags)).pack buffer (some 0) = .ok (buffer', n) := hpack
    have hc := header_pack_complete hpack' hn
    exact ⟨hc.2.1, fun ha' => absurd ha' ha, fun hs' => absurd hs' hs⟩

/-- What comes of a message that an `int` can measure. -/
theorem transmit_of_pack {p : Packing} (h : d.packing type topic addr ctrl nUuid scope flags = some p)
    (hshort : p.encoding.length < 2 ^ 31) {buffer : Buffer} {n : UInt64}
    (hpack : p.pack (List.replicate p.encoding.length 0) = .ok (buffer, n)) :
    d.transmit type topic addr ctrl nUuid scope flags = some (some ⟨buffer, p.encoding.length⟩) := by
  have hlen := packing_length h hshort
  have hlt : p.length.toNat < 2 ^ 31 := by rw [hlen]; exact hshort
  simp only [transmit, h, resize_of_lt hlt, hlen, bind, pure, Option.bind_some, hpack, Except.toOption,
    toInt_of_lt hlt]

/-- **What is sent is complete exactly if `Pack` accepts it and an `int` can measure it.** -/
theorem sendsComplete_iff : d.SendsComplete type topic addr ctrl nUuid scope flags ↔
    ∀ p, d.packing type topic addr ctrl nUuid scope flags = some p →
      d.Acceptable type topic addr nUuid ∧ p.encoding.length < 2 ^ 31 := by
  constructor
  · rintro ⟨r, hr, hcall⟩ p hp
    simp only [transmit, hp, bind, pure, Option.bind_eq_some_iff, Option.some.injEq] at hr
    obtain ⟨buffer₀, -, ⟨buffer, n₀⟩, -, hsome⟩ := hr
    obtain ⟨p', buffer', n, hp', -, hpack, hn, hlength, hsize, hbytes⟩ := hcall _ hsome.symm
    obtain rfl : p' = p := Option.some.inj (hp'.symm.trans hp)
    dsimp only at hpack hlength hsize hbytes
    refine ⟨acceptable_of_pack hp hpack hn, ?_⟩
    rw [← hbytes, hsize]
    exact toInt_lt_of_eq hlength
  · intro h
    cases hp : d.packing type topic addr ctrl nUuid scope flags with
    | none => exact ⟨none, by simp only [transmit, hp], by simp⟩
    | some p =>
      obtain ⟨hacc, hshort⟩ := h p hp
      have hlen := packing_length hp hshort
      have hpack := packing_complete hp hacc hshort
      have hne : p.length ≠ 0 := by
        intro h0
        have hpos := header_le_encoding hp
        rw [← hlen, h0, UInt64.toNat_zero] at hpos
        omega
      refine ⟨_, transmit_of_pack hp hshort hpack, fun call heq => ?_⟩
      obtain rfl := Option.some.inj heq
      refine ⟨p, _, p.length, hp, resize_of_lt (by rw [hlen]; exact hshort), ?_, hne, ?_, ?_, rfl⟩
      · rw [hlen]
        exact hpack
      · rw [hlen]
      · exact hlen.symm

/-- For messages that an `int` can measure, `SendMsg` is as above. -/
theorem transmit_eq_sendMsg
    (hshort : ∀ p, d.packing type topic addr ctrl nUuid scope flags = some p → p.encoding.length < 2 ^ 31) :
    d.sendMsg type topic addr ctrl nUuid scope (.ofInt flags) =
      (d.transmit type topic addr ctrl nUuid scope flags).map fun r =>
        r.toList.map fun call => .sendto call.buffer := by
  cases hp : d.packing type topic addr ctrl nUuid scope flags with
  | none =>
    unfold packing at hp
    split_ifs at hp with ha hs hh
    rw [sendMsg, if_neg ha, if_neg hs, if_neg hh]
    simp only [transmit, packing, if_neg ha, if_neg hs, if_neg hh]
    rfl
  | some p =>
    have hsmall := hshort p hp
    have hlen := packing_length hp hsmall
    have hlt : p.length.toNat < 2 ^ 31 := by rw [hlen]; exact hsmall
    have hsent : d.sendMsg type topic addr ctrl nUuid scope (.ofInt flags) =
        (p.pack (List.replicate p.length.toNat 0)).toOption.map fun r => [.sendto r.1] := by
      rcases packing_cases hp with ⟨ha, rfl⟩ | ⟨ha, hs, rfl⟩ | ⟨ha, hs, hh, rfl⟩
      · rw [sendMsg, if_pos ha, Option.map_eq_bind]
        rfl
      · rw [sendMsg, if_neg ha, if_pos hs, Option.map_eq_bind]
        rfl
      · have hheader : (d.header type (.ofInt flags)).getHeaderLength.toNat =
            (headerCodec.encode (d.header type (.ofInt flags))).length := by
          rw [Header.getHeaderLength_eq (header_fits_of_short hsmall), Int.toNat_natCast]
        rw [sendMsg, if_neg ha, if_neg hs, if_pos hh, Option.map_eq_bind, hlen]
        simp only [hheader]
        rfl
    rw [hsent]
    simp only [transmit, hp, resize_of_lt hlt, bind, pure, Option.bind_some]
    cases (p.pack (List.replicate p.length.toNat 0)).toOption <;> rfl

end Packed

/-! ## Empty topics -/

section EmptyTopics

/-- The message is about a topic without a name. -/
def Nameless : Body → Prop
  | .advertise _ m => m.topic = []
  | .subscribe _ m => m.topic = []
  | .unadvertise _ m => m.topic = []
  | _ => False

/-- A process to which the datagram gets reads a message with an empty topic, with something or other behind the
datagram in its `rcvStr`. -/
def Misleads (d : Discovery) (call : SendCall) : Prop :=
  ∃ datagram stale : Buffer, datagram <+: call.buffer ∧ call.msgLength = datagram.length ∧
    datagram.length ≤ maxPayload ∧ (datagram ++ stale).length = MaxRcvStr ∧
    ∃ pUuid header body, pUuid ≠ d.pUuid ∧ readMessage pUuid (datagram ++ stale) = some (header, some body) ∧
      Nameless body

variable (d : Discovery)

/-- The call of `sendto` of `Advertise`. -/
def advertiseCall (type : MsgType) (topic addr ctrl nUuid : Str) (scope : Scope) : Option (Option SendCall) :=
  if scope = .process then some none else d.transmit (advType type) topic addr ctrl nUuid scope 0

/-- The call of `sendto` of `Discover`. -/
def discoverCall (topic : Str) (isSrv : Bool) : Option (Option SendCall) :=
  d.transmit (if isSrv then SubSrvType else SubType) topic [] [] [] .all 0

variable {d} {type : MsgType} {topic addr ctrl nUuid : Str} {scope : Scope}

/-- A whole buffer, in front of what a receiver held before. -/
theorem misleads_iff {buffer : Buffer} : d.Misleads ⟨buffer, buffer.length⟩ ↔
    buffer.length ≤ maxPayload ∧ ∃ stale : Buffer, (buffer ++ stale).length = MaxRcvStr ∧
      ∃ pUuid header body, pUuid ≠ d.pUuid ∧ readMessage pUuid (buffer ++ stale) = some (header, some body) ∧
        Nameless body := by
  constructor
  · rintro ⟨datagram, stale, hpre, hlength, hsmall, hsize, hread⟩
    obtain rfl : datagram = buffer := hpre.eq_of_length (Int.natCast_inj.mp hlength.symm)
    exact ⟨hsmall, stale, hsize, hread⟩
  · rintro ⟨hsmall, stale, hsize, hread⟩
    exact ⟨buffer, stale, List.prefix_rfl, rfl, hsmall, hsize, hread⟩

theorem nameless_bodyOf (w : UInt8) (m : AdvertiseMsg) : Nameless (bodyOf w m) ↔ m.topic = [] := by
  unfold bodyOf
  split_ifs <;> rfl

theorem fill_stale {buffer : Buffer} (h : buffer.length ≤ maxPayload) :
    (buffer ++ List.replicate (MaxRcvStr - buffer.length) 0).length = MaxRcvStr := by
  rw [List.length_append, List.length_replicate]
  exact Nat.add_sub_cancel' (h.trans (by decide))

/-- The message of `Advertise`, as far as `Pack` is concerned. -/
theorem packable_advMsg {f : UInt16} :
    (d.advMsg (advType type) topic addr ctrl nUuid scope f).toAdvertiseBase.Packable ↔
      d.pUuid ≠ [] ∧ topic ≠ [] ∧ addr ≠ [] ∧ nUuid ≠ [] := by
  constructor
  · rintro ⟨hc, hbody⟩
    exact ⟨hc.2.1, hbody⟩
  · rintro ⟨hp, hbody⟩
    exact ⟨complete_header hp (by cases type <;> decide), hbody⟩

theorem advertiseCall_eq (hscope : scope ≠ .process)
    (hshort : (d.advMsg (advType type) topic addr ctrl nUuid scope 0).encode.length < 2 ^ 31) :
    d.advertiseCall type topic addr ctrl nUuid scope =
      some (some ⟨advDatagram (d.advMsg (advType type) topic addr ctrl nUuid scope 0),
        (advDatagram (d.advMsg (advType type) topic addr ctrl nUuid scope 0)).length⟩) := by
  have hfit := fits_of_short hshort
  obtain ⟨n, hpack⟩ := pack_advDatagram hfit (show (advType type).toNat < 11 by cases type <;> decide)
    (by simp [advMsg, ascii])
  have hp : d.packing (advType type) topic addr ctrl nUuid scope 0 =
      some (advPacking (d.advMsg (advType type) topic addr ctrl nUuid scope 0)) := by
    rw [packing, if_pos (advType_mem type)]
    rfl
  rw [hfit.toNat_getMsgLength] at hpack
  rw [advertiseCall, if_neg hscope, transmit_of_pack hp hshort hpack, length_advDatagram]
  rfl

/-- **When `Advertise` makes a peer decode an empty topic.** -/
theorem advertise_misleads_iff
    (hshort : (d.advMsg (advType type) topic addr ctrl nUuid scope 0).encode.length < 2 ^ 31) :
    (∃ call, d.advertiseCall type topic addr ctrl nUuid scope = some (some call) ∧ d.Misleads call) ↔
      scope ≠ .process ∧ (d.advMsg (advType type) topic addr ctrl nUuid scope 0).encode.length ≤ maxPayload ∧
        d.pUuid ≠ [] ∧ ¬ (topic ≠ [] ∧ addr ≠ [] ∧ nUuid ≠ []) := by
  by_cases hscope : scope = .process
  · simp [advertiseCall, hscope]
  · have hread := fun pUuid (hne : d.pUuid ≠ pUuid) (stale : Buffer) =>
      @read_advDatagram pUuid (d.advMsg (advType type) topic addr ctrl nUuid scope 0) hne
        (show Version ≠ 0 by decide) (advType_mem type) (fits_of_short hshort) stale
    rw [advertiseCall_eq hscope hshort]
    constructor
    · rintro ⟨call, hcall, hmis⟩
      obtain rfl := Option.some.inj (Option.some.inj hcall)
      obtain ⟨hsmall, stale, hsize, pUuid, header, body, hne, hbody, hnameless⟩ := misleads_iff.mp hmis
      rw [length_advDatagram] at hsmall
      have hlt := hsize.trans_lt (show MaxRcvStr < 2 ^ 31 by decide)
      rcases hread pUuid hne.symm stale hlt with ⟨hp, h⟩ | ⟨hp, hc, -⟩ | ⟨-, -, h⟩
      · rw [hbody, Option.some.injEq, Prod.mk.injEq, Option.some.injEq] at h
        rw [h.2, nameless_bodyOf] at hnameless
        exact absurd hnameless (packable_advMsg.mp hp).2.1
      · exact ⟨hscope, hsmall, hc.2.1, fun h => hp (packable_advMsg.mpr ⟨hc.2.1, h⟩)⟩
      · rw [hbody, Option.some.injEq, Prod.mk.injEq, Option.some.injEq] at h
        rw [h.2] at hnameless
        exact hnameless.elim
    · rintro ⟨-, hsmall, hp, hrefused⟩
      refine ⟨_, rfl, misleads_iff.mpr ?_⟩
      rw [← length_advDatagram] at hsmall
      have hsize := fill_stale hsmall
      refine ⟨hsmall, _, hsize, [], ?_⟩
      rcases hread [] hp _ (hsize.trans_lt (show MaxRcvStr < 2 ^ 31 by decide)) with
        ⟨hpack, -⟩ | ⟨-, -, h⟩ | ⟨-, hnil, -⟩
      · exact absurd (packable_advMsg.mp hpack).2 hrefused
      · exact ⟨_, _, hp.symm, h, (nameless_bodyOf _ _).mpr rfl⟩
      · exact absurd hnil hp

theorem discoverCall_eq {isSrv : Bool}
    (hshort : (d.subMsg (if isSrv then SubSrvType else SubType) topic 0).encode.length < 2 ^ 31) :
    d.discoverCall topic isSrv =
      some (some ⟨subDatagram (d.subMsg (if isSrv then SubSrvType else SubType) topic 0),
        (subDatagram (d.subMsg (if isSrv then SubSrvType else SubType) topic 0)).length⟩) := by
  obtain ⟨k, hpack⟩ := pack_subDatagram (subscription_fits_of_short hshort)
    (show (if isSrv then SubSrvType else SubType).toNat < 11 by cases isSrv <;> decide)
  have hp : d.packing (if isSrv then SubSrvType else SubType) topic [] [] [] .all 0 =
      some (subPacking (d.subMsg (if isSrv then SubSrvType else SubType) topic 0)) := by
    rw [packing, if_neg (by cases isSrv <;> decide), if_pos (by cases isSrv <;> decide)]
    rfl
  rw [discoverCall, transmit_of_pack hp hshort hpack, length_subDatagram]
  rfl

/-- What a peer reads in the datagram of a SUBSCRIBE message. -/
theorem read_subDatagram {pUuid : Str} {m : SubscriptionMsg} (hne : m.header.pUuid ≠ pUuid)
    (hversion : m.header.version ≠ 0) (htype : m.header.type ∈ [SubType, SubSrvType]) {stale : Buffer}
    (hstale : (subDatagram m ++ stale).length < 2 ^ 31) :
    (m.header.pUuid ≠ [] ∧ ∃ type, readMessage pUuid (subDatagram m ++ stale) =
      some (m.header, some (.subscribe type { topic := m.topic }))) ∨
    (m.header.pUuid = [] ∧ readMessage pUuid (subDatagram m ++ stale) = some ({}, some .unknown)) := by
  by_cases hc : m.header.Complete
  · rw [subDatagram, if_pos hc] at hstale ⊢
    have htopic : m.topic.length < 2 ^ 64 := by
      rw [List.length_append, SubscriptionMsg.encode, List.length_append, length_encode_str] at hstale
      omega
    rw [SubscriptionMsg.encode, List.append_assoc] at hstale ⊢
    refine .inl ⟨hc.2.1, if m.header.type = SubType then .msg else .srv, ?_⟩
    have hbody : decodeBody m.header.type (strCodec.encode m.topic ++ stale) =
        some (.subscribe (if m.header.type = SubType then .msg else .srv) { topic := m.topic }) := by
      have hadv : ¬ (m.header.type = AdvType ∨ m.header.type = AdvSrvType) := by
        simp only [List.mem_cons, List.not_mem_nil, or_false] at htype
        rcases htype with h | h <;> rw [h] <;> decide
      rw [decodeBody, if_neg hadv, if_pos (by simpa using htype), strCodec.decode_encode (valid_str.mpr htopic)]
      rfl
    rw [readMessage_encode hne hstale, hbody]
    rfl
  · have hnil : m.header.pUuid = [] := by
      by_contra hnil
      refine hc ⟨hversion, hnil, fun h0 => ?_⟩
      rw [h0] at htype
      exact absurd htype (by decide)
    rw [subDatagram, if_neg hc] at hstale ⊢
    have hn : 13 ≤ m.encode.length := by
      rw [SubscriptionMsg.encode, List.length_append, length_encode_header]
      omega
    exact .inr ⟨hnil, readMessage_zeros (hnil ▸ hne) hn hstale⟩

/-- **When `Discover` makes a peer decode an empty topic.** -/
theorem discover_misleads_iff {isSrv : Bool}
    (hshort : (d.subMsg (if isSrv then SubSrvType else SubType) topic 0).encode.length < 2 ^ 31) :
    (∃ call, d.discoverCall topic isSrv = some (some call) ∧ d.Misleads call) ↔
      (d.subMsg (if isSrv then SubSrvType else SubType) topic 0).encode.length ≤ maxPayload ∧
        d.pUuid ≠ [] ∧ topic = [] := by
  have hread := fun pUuid (hne : d.pUuid ≠ pUuid) (stale : Buffer) =>
    @read_subDatagram pUuid (d.subMsg (if isSrv then SubSrvType else SubType) topic 0) hne
      (show Version ≠ 0 by decide)
      (show (if isSrv then SubSrvType else SubType) ∈ [SubType, SubSrvType] by cases isSrv <;> decide) stale
  rw [discoverCall_eq hshort]
  constructor
  · rintro ⟨call, hcall, hmis⟩
    obtain rfl := Option.some.inj (Option.some.inj hcall)
    obtain ⟨hsmall, stale, hsize, pUuid, header, body, hne, hbody, hnameless⟩ := misleads_iff.mp hmis
    rw [length_subDatagram] at hsmall
    have hlt := hsize.trans_lt (show MaxRcvStr < 2 ^ 31 by decide)
    rcases hread pUuid hne.symm stale hlt with ⟨hp, type, h⟩ | ⟨-, h⟩
    · rw [hbody, Option.some.injEq, Prod.mk.injEq, Option.some.injEq] at h
      rw [h.2] at hnameless
      exact ⟨hsmall, hp, hnameless⟩
    · rw [hbody, Option.some.injEq, Prod.mk.injEq, Option.some.injEq] at h
      rw [h.2] at hnameless
      exact hnameless.elim
  · rintro ⟨hsmall, hp, ht⟩
    refine ⟨_, rfl, misleads_iff.mpr ?_⟩
    rw [← length_subDatagram] at hsmall
    have hsize := fill_stale hsmall
    refine ⟨hsmall, _, hsize, [], ?_⟩
    rcases hread [] hp _ (hsize.trans_lt (show MaxRcvStr < 2 ^ 31 by decide)) with ⟨-, type, h⟩ | ⟨hnil, -⟩
    · exact ⟨_, _, hp.symm, h, ht⟩
    · exact absurd hnil hp

/-- A peer that reads a complete message reads its topic. -/
theorem not_misleads_of_complete {w : UInt8} {flags : ℤ} (h : d.SendsComplete w topic addr ctrl nUuid scope flags)
    {call : SendCall} (hcall : d.transmit w topic addr ctrl nUuid scope flags = some (some call)) :
    ¬ d.Misleads call := by
  cases hp : d.packing w topic addr ctrl nUuid scope flags with
  | none => simp [transmit, hp] at hcall
  | some p =>
    obtain ⟨hacc, hshort⟩ := sendsComplete_iff.mp h p hp
    have hne := ne_uninitialized hp
    rw [transmit_of_pack hp hshort (packing_complete hp hacc hshort)] at hcall
    obtain rfl := Option.some.inj (Option.some.inj hcall)
    intro hmis
    obtain ⟨-, stale, hsize, pUuid, header, body, hother, hbody, hnameless⟩ := misleads_iff.mp hmis
    have hlt := hsize.trans_lt (show MaxRcvStr < 2 ^ 31 by decide)
    obtain ⟨hnil, hadv, hsub⟩ := hacc
    rcases packing_cases hp with ⟨ha, rfl⟩ | ⟨-, hs, rfl⟩ | ⟨-, -, hh, rfl⟩
    · obtain ⟨ht, haddr, hn⟩ := hadv ha
      have hpackable : (d.advMsg w topic addr ctrl nUuid scope (.ofInt flags)).toAdvertiseBase.Packable :=
        ⟨complete_header hnil hne, ht, haddr, hn⟩
      have hdatagram : advDatagram (d.advMsg w topic addr ctrl nUuid scope (.ofInt flags)) =
          (d.advMsg w topic addr ctrl nUuid scope (.ofInt flags)).encode := if_pos hpackable
      dsimp only [advPacking] at hbody hlt hshort
      rw [← hdatagram] at hbody hlt
      rcases read_advDatagram hother.symm (show Version ≠ 0 by decide) ha (fits_of_short hshort) hlt with
        ⟨-, h⟩ | ⟨hrefused, -⟩ | ⟨hrefused, -⟩
      · rw [hbody, Option.some.injEq, Prod.mk.injEq, Option.some.injEq] at h
        rw [h.2, nameless_bodyOf] at hnameless
        exact ht hnameless
      · exact hrefused hpackable
      · exact hrefused hpackable
    · have hdatagram : subDatagram (d.subMsg w topic (.ofInt flags)) = (d.subMsg w topic (.ofInt flags)).encode :=
        if_pos (complete_header hnil hne)
      dsimp only [subPacking] at hbody hlt
      rw [← hdatagram] at hbody hlt
      rcases read_subDatagram hother.symm (show Version ≠ 0 by decide) hs hlt with ⟨-, type, h⟩ | ⟨h, -⟩
      · rw [hbody, Option.some.injEq, Prod.mk.injEq, Option.some.injEq] at h
        rw [h.2] at hnameless
        exact hsub hs hnameless
      · exact hnil h
    · dsimp only [headerPacking] at hbody hlt
      rw [readMessage_encode hother.symm hlt] at hbody
      obtain ⟨body', hdec, hpair⟩ := Option.map_eq_some_iff.mp hbody
      obtain rfl := Option.some.inj (Prod.mk.inj hpair).2
      -- neither a HEARTBEAT nor a BYE has a topic
      have hnone : body' = .heartbeat ∨ body' = .bye := by
        simp only [List.mem_cons, List.not_mem_nil, or_false] at hh
        rcases hh with rfl | rfl
        · exact .inl (Option.some.inj hdec).symm
        · exact .inr (Option.some.inj hdec).symm
      rcases hnone with rfl | rfl
      · exact hnameless
      · exact hnameless

/-! ### The calls of `Advertise` and `Discover` -/

/-- What `Advertise` sends, if an `int` can measure it, is what its call of `sendto` is given. -/
theorem advertise_sends (hshort : (d.advMsg (advType type) topic addr ctrl nUuid scope 0).encode.length < 2 ^ 31) :
    (d.advertise type topic addr ctrl nUuid scope).map Prod.snd =
      (d.advertiseCall type topic addr ctrl nUuid scope).map fun r =>
        r.toList.map fun call => .sendto call.buffer := by
  by_cases hscope : scope = .process
  · rw [advertise, if_pos hscope, advertiseCall, if_pos hscope]
    rfl
  · rw [advertiseCall, if_neg hscope, advertise, if_neg hscope]
    have hsent : ∀ x, (d.setInfo type x).sendMsg (advType type) topic addr ctrl nUuid scope =
        (d.transmit (advType type) topic addr ctrl nUuid scope 0).map fun r =>
          r.toList.map fun call => .sendto call.buffer := by
      intro x
      refine Eq.trans (by cases type <;> rfl) (transmit_eq_sendMsg fun p hp => ?_)
      rw [packing, if_pos (advType_mem type)] at hp
      obtain rfl := (Option.some.inj hp).symm
      exact hshort
    rw [hsent]
    cases d.transmit (advType type) topic addr ctrl nUuid scope 0 <;> rfl

/-- What `Discover` sends, if an `int` can measure it, is what its call of `sendto` is given. -/
theorem discover_sends {isSrv : Bool}
    (hshort : (d.subMsg (if isSrv then SubSrvType else SubType) topic 0).encode.length < 2 ^ 31) :
    ∃ callbacks, (∀ o ∈ callbacks, IsCallback o) ∧ (d.discover topic isSrv).map Prod.snd =
      (d.discoverCall topic isSrv).map fun r =>
        (r.toList.map fun call => Output.sendto call.buffer) ++ callbacks := by
  have hsent : d.sendMsg (subType (if isSrv then MsgType.srv else MsgType.msg)) topic [] [] [] .all =
      (d.discoverCall topic isSrv).map fun r => r.toList.map fun call => .sendto call.buffer := by
    refine Eq.trans (by cases isSrv <;> rfl) (transmit_eq_sendMsg fun p hp => ?_)
    rw [packing, if_neg (by cases isSrv <;> decide), if_pos (by cases isSrv <;> decide)] at hp
    obtain rfl := (Option.some.inj hp).symm
    exact hshort
  have hreplay : ∀ type' addresses, ∀ o ∈ (if d.hasConnectionCb type' then replay type' topic addresses else []),
      IsCallback o := by
    intro type' addresses o ho
    split_ifs at ho
    · simp only [replay, List.mem_flatMap, List.mem_map] at ho
      obtain ⟨proc, -, node, -, rfl⟩ := ho
      trivial
    · cases ho
  rw [discover, hsent]
  cases (d.info (if isSrv then MsgType.srv else MsgType.msg)).getAddresses topic with
  | none =>
    refine ⟨[], by simp, ?_⟩
    cases d.discoverCall topic isSrv with
    | none => rfl
    | some r => exact congrArg some (List.append_nil _).symm
  | some addresses =>
    refine ⟨_, hreplay (if isSrv then MsgType.srv else MsgType.msg) addresses, ?_⟩
    cases d.discoverCall topic isSrv <;> rfl

end EmptyTopics

/-! ## All calls -/

section Calls

/-- **What is sent is complete, and no peer reads an empty topic in it, exactly if no string that `Pack` insists on is
empty and an `int` can measure the message.**  `Advertise` and `Discover` mislead peers when `Pack` refuses a message
that has a header and fits into a datagram. -/
theorem complete_sent_iff (d : Discovery) (topic addr ctrl nUuid : Str) (scope : Scope) :
    (∀ (w : UInt8) (flags : ℤ), (d.SendsComplete w topic addr ctrl nUuid scope flags ∧
        ∀ call, d.transmit w topic addr ctrl nUuid scope flags = some (some call) → ¬ d.Misleads call) ↔
      ∀ p, d.packing w topic addr ctrl nUuid scope flags = some p →
        d.Acceptable w topic addr nUuid ∧ p.encoding.length < 2 ^ 31) ∧
    (∀ type, (d.advMsg (advType type) topic addr ctrl nUuid scope 0).encode.length < 2 ^ 31 →
      ((∃ call, d.advertiseCall type topic addr ctrl nUuid scope = some (some call) ∧ d.Misleads call) ↔
        scope ≠ .process ∧ (d.advMsg (advType type) topic addr ctrl nUuid scope 0).encode.length ≤ maxPayload ∧
          d.pUuid ≠ [] ∧ ¬ (topic ≠ [] ∧ addr ≠ [] ∧ nUuid ≠ []))) ∧
    ∀ isSrv : Bool, (d.subMsg (if isSrv then SubSrvType else SubType) topic 0).encode.length < 2 ^ 31 →
      ((∃ call, d.discoverCall topic isSrv = some (some call) ∧ d.Misleads call) ↔
        (d.subMsg (if isSrv then SubSrvType else SubType) topic 0).encode.length ≤ maxPayload ∧
          d.pUuid ≠ [] ∧ topic = []) := by
  refine ⟨fun w flags => ?_, fun type hshort => advertise_misleads_iff hshort,
    fun isSrv hshort => discover_misleads_iff hshort⟩
  constructor
  · rintro ⟨h, -⟩
    exact sendsComplete_iff.mp h
  · intro h
    have hcomplete := sendsComplete_iff.mpr h
    exact ⟨hcomplete, fun call hcall => not_misleads_of_complete hcomplete hcall⟩

/-- `Advertise` with an empty topic: the header of an ADVERTISE and zeros are sent, and read. -/
theorem refused_message_sent :
    ¬ ∀ (d : Discovery) (w : UInt8) (topic addr ctrl nUuid : Str) (scope : Scope) (flags : ℤ),
      d.SendsComplete w topic addr ctrl nUuid scope flags ∧
        ∀ call, d.transmit w topic addr ctrl nUuid scope flags = some (some call) → ¬ d.Misleads call := by
  intro h
  have hcall := (h { pUuid := [65], hostAddr := [1] } AdvType [] [97] [] [110] .all 0).2
  have hmisleads : ∃ call, advertiseCall { pUuid := [65], hostAddr := [1] } .msg [] [97] [] [110] .all =
      some (some call) ∧ Misleads { pUuid := [65], hostAddr := [1] } call :=
    (advertise_misleads_iff (by decide)).mpr (by decide)
  obtain ⟨call, htransmit, hmis⟩ := hmisleads
  exact hcall call htransmit hmis

end Calls

end Discovery

end IgnTransport
