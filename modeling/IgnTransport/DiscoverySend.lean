import Mathlib
import IgnTransport.PacketWire
import IgnTransport.Discovery

/-!
# IgnTransport.DiscoverySend — what `SendMsg` puts on the wire

`SendMsg` sizes the buffer by `GetMsgLength`, packs and sends the whole buffer, whatever `Pack` returned.  A message
that `Pack` accepts is sent as its encoding; of one that it refuses, the header is sent if it is complete, and zeros
for everything else.
-/

namespace IgnTransport

open Lib

namespace Discovery

/-! ## Refused messages -/

section Refused

/-- The bytes of a complete header, or nothing. -/
def sentHeader (h : Header) : List UInt8 := if h.Complete then headerCodec.encode h else []

theorem base_pack_refused {m : AdvertiseBase} (hp : ¬ m.Packable) (htype : m.header.type.toNat < 11)
    (hfit : m.header.pUuid.length < 2 ^ 31 - 13) (buf : Buffer)
    (hroom : (headerCodec.encode m.header).length ≤ buf.length) :
    m.pack buf (some 0) = .ok (sentHeader m.header ++ buf.drop (sentHeader m.header).length, 0) := by
  by_cases hc : m.header.Complete
  · have h := base_pack_incomplete hc hp htype hfit [] buf hroom
    rw [List.nil_append, List.nil_append] at h
    rw [sentHeader, if_pos hc]
    exact h
  · rw [AdvertiseBase.pack, header_pack_incomplete hc htype, ok_bind, sentHeader, if_neg hc]
    rfl

end Refused

/-! ## Datagrams -/

section Datagrams

/-- The datagram of an [UN]ADVERTISE message. -/
def advDatagram (m : AdvertiseMsg) : Buffer :=
  if m.toAdvertiseBase.Packable then m.encode
  else sentHeader m.header ++ List.replicate (m.encode.length - (sentHeader m.header).length) 0

theorem room_header {m : AdvertiseMsg} {n : ℕ} (hn : n = m.encode.length) :
    (headerCodec.encode m.header).length ≤ n := by
  rw [hn, AdvertiseMsg.encode, List.length_append]
  exact Nat.le_add_right _ _

/-- The buffer after `Pack` is the datagram. -/
theorem pack_advDatagram {m : AdvertiseMsg} (hfit : m.Fits) (htype : m.header.type.toNat < 11)
    (hname : m.msgTypeName ≠ []) :
    ∃ n, m.pack (List.replicate m.getMsgLength.toNat 0) (some 0) = .ok (advDatagram m, n) := by
  have hlen := hfit.toNat_getMsgLength
  by_cases hp : m.toAdvertiseBase.Packable
  · have h := msg_pack ⟨hp, hname⟩ hfit [] (List.replicate m.getMsgLength.toNat 0)
      (by rw [List.length_replicate, hlen])
    rw [List.nil_append, List.nil_append, List.drop_replicate, hlen, Nat.sub_self, List.replicate_zero,
      List.append_nil] at h
    refine ⟨m.getMsgLength, ?_⟩
    rw [hlen, advDatagram, if_pos hp]
    exact h
  · have h := base_pack_refused hp htype hfit.1.pUuid (List.replicate m.getMsgLength.toNat 0)
      (by rw [List.length_replicate]; exact room_header hlen)
    refine ⟨0, ?_⟩
    rw [AdvertiseMsg.pack, h, ok_bind, advDatagram, if_neg hp, List.drop_replicate, hlen]
    rfl

variable {d : Discovery}

theorem sendMsg_adv {type : UInt8} {topic addr ctrl nUuid : Str} {scope : Scope} {flags : UInt16}
    (htype : type ∈ [AdvType, UnadvType, AdvSrvType, UnadvSrvType])
    (hfit : (d.advMsg type topic addr ctrl nUuid scope flags).Fits) :
    d.sendMsg type topic addr ctrl nUuid scope flags =
      some [.sendto (advDatagram (d.advMsg type topic addr ctrl nUuid scope flags))] := by
  have hsmall : (d.advMsg type topic addr ctrl nUuid scope flags).header.type.toNat < 11 := by
    change type.toNat < 11
    simp only [List.mem_cons, List.not_mem_nil, or_false] at htype
    rcases htype with rfl | rfl | rfl | rfl <;> decide
  obtain ⟨n, hpack⟩ := pack_advDatagram hfit hsmall (by simp [advMsg, ascii])
  rw [sendMsg, if_pos htype]
  simp only [hpack]
  rfl

/-- A header alone: HEARTBEAT and BYE. -/
theorem sendMsg_header {type : UInt8} (htype : type ∈ [HeartbeatType, ByeType]) {topic addr ctrl nUuid : Str}
    {scope : Scope} {flags : UInt16} (hfit : d.pUuid.length < 2 ^ 31 - 13) :
    d.sendMsg type topic addr ctrl nUuid scope flags =
      some [.sendto (sentHeader (d.header type flags) ++
        List.replicate (13 + d.pUuid.length - (sentHeader (d.header type flags)).length) 0)] := by
  have hsmall : (d.header type flags).type.toNat < 11 := by
    change type.toNat < 11
    simp only [List.mem_cons, List.not_mem_nil, or_false] at htype
    rcases htype with rfl | rfl <;> decide
  have hadv : type ∉ [AdvType, UnadvType, AdvSrvType, UnadvSrvType] := by
    simp only [List.mem_cons, List.not_mem_nil, or_false] at htype
    rcases htype with rfl | rfl <;> decide
  have hsub : type ∉ [SubType, SubSrvType] := by
    simp only [List.mem_cons, List.not_mem_nil, or_false] at htype
    rcases htype with rfl | rfl <;> decide
  have hlen : (d.header type flags).getHeaderLength.toNat = 13 + d.pUuid.length := by
    rw [Header.getHeaderLength_eq hfit, Int.toNat_natCast, length_encode_header]
    rfl
  rw [sendMsg, if_neg hadv, if_neg hsub, if_pos htype]
  simp only [hlen]
  by_cases hc : (d.header type flags).Complete
  · have h := header_pack hc (lt_of_fit hfit) [] (List.replicate (13 + d.pUuid.length) 0)
      (by rw [List.length_replicate, length_encode_header]; exact Nat.le_refl _)
    rw [List.nil_append, List.nil_append] at h
    rw [List.length_nil] at h
    rw [h, sentHeader, if_pos hc, List.drop_replicate]
    rfl
  · rw [header_pack_incomplete hc hsmall, sentHeader, if_neg hc]
    rfl

/-- The datagram of a SUBSCRIBE message; an empty topic is the zeros that the buffer holds already. -/
def subDatagram (m : SubscriptionMsg) : Buffer :=
  if m.header.Complete then m.encode else List.replicate m.encode.length 0

theorem length_subDatagram (m : SubscriptionMsg) : (subDatagram m).length = m.encode.length := by
  unfold subDatagram
  split_ifs
  · rfl
  · exact List.length_replicate

theorem encode_empty_str : strCodec.encode [] = List.replicate 8 0 := by decide

theorem pack_subDatagram {m : SubscriptionMsg} (hfit : m.Fits) (htype : m.header.type.toNat < 11) :
    ∃ k, m.pack (List.replicate m.encode.length 0) (some 0) = .ok (subDatagram m, k) := by
  by_cases hc : m.header.Complete
  · have hsplit : m.encode.length = (headerCodec.encode m.header).length + (strCodec.encode m.topic).length := by
      rw [SubscriptionMsg.encode, List.length_append]
    by_cases ht : m.topic = []
    · have hhdr := header_pack hc (lt_of_fit hfit.pUuid) [] (List.replicate m.encode.length 0)
        (by rw [List.length_replicate, hsplit]; exact Nat.le_add_right _ _)
      rw [List.nil_append, List.nil_append, List.length_nil, List.drop_replicate, hsplit, Nat.add_sub_cancel_left, ht,
        length_encode_str, List.length_nil, Nat.add_zero] at hhdr
      refine ⟨0, ?_⟩
      rw [SubscriptionMsg.pack, hsplit, ht, length_encode_str, List.length_nil, Nat.add_zero, hhdr, ok_bind]
      dsimp only
      rw [if_neg (ofInt_getHeaderLength_ne_zero hfit.pUuid), if_pos rfl, subDatagram, if_pos hc,
        SubscriptionMsg.encode, ht, encode_empty_str]
      rfl
    · have hpack := @subscription_pack m hc ht hfit [] (List.replicate m.encode.length 0)
        (List.length_replicate ..).ge
      rw [List.nil_append, List.nil_append, List.length_nil, List.drop_replicate, Nat.sub_self,
        List.replicate_zero, List.append_nil] at hpack
      exact ⟨_, by rw [subDatagram, if_pos hc]; exact hpack⟩
  · refine ⟨0, ?_⟩
    rw [SubscriptionMsg.pack, header_pack_incomplete hc htype, ok_bind, subDatagram, if_neg hc]
    rfl

end Datagrams

/-! ## Message types -/

section Types

/-- A buffer of the same length, and the same rest. -/
def SameRoom {α : Type} (r r' : Buffer × α) : Prop := SameLength r.1 r'.1 ∧ r.2 = r'.2

/-- The types of the messages with the addressing information of a topic. -/
def CarriesAddress (type : UInt8) : Prop := type ∈ [AdvType, UnadvType, AdvSrvType, UnadvSrvType]

theorem alike_packString (s : Str) {buf buf' : Buffer} (h : SameLength buf buf') (p : ℕ) :
    Alike SameRoom (packString s buf p) (packString s buf' p) := by
  unfold packString
  refine (alike_store _ h rfl p).bind fun b b' hb => ?_
  refine (alike_store _ hb rfl _).bind fun b b' hb => ?_
  exact alike_ok ⟨hb, rfl⟩

theorem print_of_carriesAddress {h : Header} (htype : CarriesAddress h.type) : ∃ name, h.print = .ok name := by
  refine header_print ?_
  simp only [CarriesAddress, List.mem_cons, List.not_mem_nil, or_false] at htype
  rcases htype with htype | htype | htype | htype <;> rw [htype] <;> decide

theorem alike_header_pack {h : Header} {type : UInt8} (htype : CarriesAddress h.type) (htype' : CarriesAddress type)
    (buf : Buffer) (p : ℕ) : Alike SameRoom (h.pack buf (some p)) ({ h with type }.pack buf (some p)) := by
  have hne : ∀ {t : UInt8}, CarriesAddress t → t ≠ Uninitialized := by
    intro t ht
    simp only [CarriesAddress, List.mem_cons, List.not_mem_nil, or_false] at ht
    rcases ht with rfl | rfl | rfl | rfl <;> decide
  unfold Header.pack
  by_cases hc : h.version = 0 ∨ h.pUuid = []
  · obtain ⟨name, hname⟩ := print_of_carriesAddress htype
    obtain ⟨name', hname'⟩ := print_of_carriesAddress (h := { h with type }) htype'
    rw [if_pos (or_assoc.mp (.inl hc)), if_pos (or_assoc.mp (.inl hc)), hname, hname', ok_bind, ok_bind]
    exact alike_ok ⟨rfl, rfl⟩
  · have hcomplete : ∀ {t : UInt8}, CarriesAddress t → ¬ (h.version = 0 ∨ h.pUuid = [] ∨ t = Uninitialized) :=
      fun ht hor => (or_assoc.mpr hor).elim hc (hne ht)
    rw [if_neg (hcomplete htype), if_neg (hcomplete htype')]
    refine (alike_store _ rfl rfl p).bind fun b b' hb => ?_
    refine (alike_packString _ hb _).bind ?_
    rintro ⟨b, q⟩ ⟨b', _⟩ ⟨hb, rfl⟩
    refine (alike_store _ hb (by simp) _).bind fun b b' hb => ?_
    refine (alike_store _ hb rfl _).bind fun b b' hb => ?_
    exact alike_ok ⟨hb, rfl⟩

theorem alike_base_pack {m : AdvertiseBase} {type : UInt8} (htype : CarriesAddress m.header.type)
    (htype' : CarriesAddress type) (buf : Buffer) (p : ℕ) :
    Alike SameRoom (m.pack buf (some p)) ({ m with header := { m.header with type } }.pack buf (some p)) := by
  unfold AdvertiseBase.pack
  refine (alike_header_pack htype htype' buf p).bind ?_
  rintro ⟨b, n⟩ ⟨b', _⟩ ⟨hb, rfl⟩
  dsimp only
  split_ifs
  · exact alike_ok ⟨hb, rfl⟩
  · obtain ⟨name, hname⟩ := print_of_carriesAddress htype
    obtain ⟨name', hname'⟩ := print_of_carriesAddress (h := { m.header with type }) htype'
    rw [hname, hname', ok_bind, ok_bind]
    exact alike_ok ⟨hb, rfl⟩
  · refine (alike_packString _ hb _).bind ?_
    rintro ⟨b, q⟩ ⟨b', _⟩ ⟨hb, rfl⟩
    refine (alike_packString _ hb _).bind ?_
    rintro ⟨b, q⟩ ⟨b', _⟩ ⟨hb, rfl⟩
    refine (alike_packString _ hb _).bind ?_
    rintro ⟨b, q⟩ ⟨b', _⟩ ⟨hb, rfl⟩
    refine (alike_packString _ hb _).bind ?_
    rintro ⟨b, q⟩ ⟨b', _⟩ ⟨hb, rfl⟩
    refine (alike_store _ hb rfl _).bind fun b b' hb => ?_
    exact alike_ok ⟨hb, rfl⟩

theorem alike_msg_pack {m : AdvertiseMsg} {type : UInt8} (htype : CarriesAddress m.header.type)
    (htype' : CarriesAddress type) (buf : Buffer) (p : ℕ) :
    Alike SameRoom (m.pack buf (some p)) ({ m with header := { m.header with type } }.pack buf (some p)) := by
  unfold AdvertiseMsg.pack
  refine (alike_base_pack (m := m.toAdvertiseBase) htype htype' buf p).bind ?_
  rintro ⟨b, n⟩ ⟨b', _⟩ ⟨hb, rfl⟩
  dsimp only
  split_ifs
  · exact alike_ok ⟨hb, rfl⟩
  · exact alike_ok ⟨hb, rfl⟩
  · refine (alike_packString _ hb _).bind ?_
    rintro ⟨b, q⟩ ⟨b', _⟩ ⟨hb, rfl⟩
    exact alike_ok ⟨hb, rfl⟩

/-- A message about an address can be sent under one type iff it can be under another. -/
theorem isSome_sendMsg_type (d : Discovery) {type type' : UInt8} (htype : CarriesAddress type)
    (htype' : CarriesAddress type') (topic addr ctrl nUuid : Str) (scope : Scope) (flags : UInt16) :
    (d.sendMsg type topic addr ctrl nUuid scope flags).isSome =
      (d.sendMsg type' topic addr ctrl nUuid scope flags).isSome := by
  have hsent : ∀ {t : UInt8}, CarriesAddress t → (d.sendMsg t topic addr ctrl nUuid scope flags).isSome =
      ((d.advMsg t topic addr ctrl nUuid scope flags).pack (List.replicate
        (d.advMsg t topic addr ctrl nUuid scope flags).getMsgLength.toNat 0) (some 0)).toOption.isSome := by
    intro t ht
    unfold CarriesAddress at ht
    rw [sendMsg, if_pos ht]
    dsimp only
    cases ((d.advMsg t topic addr ctrl nUuid scope flags).pack _ _).toOption <;> rfl
  rw [hsent htype, hsent htype']
  exact (alike_msg_pack (m := d.advMsg type topic addr ctrl nUuid scope flags) htype htype' _ 0).isSome

end Types

end Discovery

end IgnTransport
