import Mathlib
import IgnTransport.TopicStorageMap
import IgnTransport.DiscoveryScope
import IgnTransport.DiscoveryAgreement

/-!
# IgnTransport.DiscoveryAnnouncements — what an instance tells the network about itself

Which datagrams are about an entry of the process itself.  `Advertise` and `Unadvertise` look at the scope they are
given or find, and the answer to a SUBSCRIBE at the stored one; the heartbeat looks at none.  `announcements_iff` says
exactly which runs keep the entries of scope Process from the network.
-/

namespace IgnTransport

open Lib

namespace Discovery

/-! ## Datagrams about an entry -/

section Datagrams

/-- The datagram is an [UN]ADVERTISE or [UN]ADVERTISE_SRV of process `pUuid` about an entry: of its topic, its address
and its node. -/
def Announces (pUuid : Str) (type : MsgType) (t : Str) (a : Address) (b : Buffer) : Prop :=
  ∃ m : AdvertiseMsg, b = m.encode ∧ m.header.pUuid = pUuid ∧ m.header.type ∈ [advType type, unadvType type] ∧
    m.topic = t ∧ m.addr = a.addr ∧ m.nUuid = a.nUuid

/-- The message about an entry. -/
def entryMsg (d : Discovery) (type : UInt8) (t : Str) (a : Address) : AdvertiseMsg :=
  d.advMsg type t a.addr a.ctrl a.nUuid a.scope 0

theorem length_encode_adv (m : AdvertiseMsg) : m.encode.length = 13 + m.header.pUuid.length + (33 + m.topic.length +
    m.addr.length + m.ctrl.length + m.nUuid.length + (8 + m.msgTypeName.length)) := by
  rw [AdvertiseMsg.encode, List.length_append, length_encode_header, msgCodec, Codec.encode_pair, List.length_append,
    length_encode_base, length_encode_str]
  rfl

theorem valid_msg {v : BaseBody × Str} (hlen : (msgCodec.encode v).length < 2 ^ 64) : msgCodec.Valid v := by
  rw [msgCodec, Codec.encode_pair, List.length_append, length_encode_base, length_encode_str] at hlen
  refine ⟨valid_base.mpr ?_, valid_str.mpr (by omega)⟩
  omega

/-- What a header and a message are read as. -/
theorem decode_encode_adv {m : AdvertiseMsg} (hlen : m.encode.length < 2 ^ 64) :
    headerCodec.decode m.encode = some (m.header, msgCodec.encode (m.body, m.msgTypeName)) ∧
      msgCodec.decode (msgCodec.encode (m.body, m.msgTypeName)) = some ((m.body, m.msgTypeName), []) := by
  rw [AdvertiseMsg.encode, List.length_append, length_encode_header] at hlen
  refine ⟨headerCodec.decode_encode (valid_header.mpr (by omega)) _, ?_⟩
  have hbody := msgCodec.decode_encode (valid_msg (v := (m.body, m.msgTypeName)) (by omega)) []
  rwa [List.append_nil] at hbody

theorem encode_injective {m m' : AdvertiseMsg} (h : m.encode = m'.encode) (hlen : m.encode.length < 2 ^ 64) :
    m = m' := by
  obtain ⟨hheader, hbody⟩ := decode_encode_adv hlen
  obtain ⟨hheader', hbody'⟩ := decode_encode_adv (h ▸ hlen)
  rw [h, hheader', Option.some.injEq, Prod.mk.injEq] at hheader
  rw [← hheader.2, hbody', Option.some.injEq, Prod.mk.injEq, Prod.mk.injEq] at hbody
  obtain ⟨⟨hb, hname⟩, -⟩ := hbody
  have hhdr := hheader.1
  simp only [AdvertiseBase.body, Prod.mk.injEq] at hb
  rcases m with ⟨⟨_, _, _, _, _, _⟩, _⟩
  rcases m' with ⟨⟨_, _, _, _, _, _⟩, _⟩
  simp_all only

theorem decode_zero_header {n : ℕ} (hn : 13 ≤ n) :
    headerCodec.decode (List.replicate n 0) = some ({}, List.replicate (n - 13) 0) := by
  rw [replicate_split hn, ← encode_zero_header, headerCodec.decode_encode (valid_header.mpr (by decide))]

theorem decode_zero_body {n : ℕ} (hn : 41 ≤ n) :
    msgCodec.decode (List.replicate n 0) =
      some ((([], [], [], [], Scope.process), []), List.replicate (n - 41) 0) := by
  rw [replicate_split hn, ← encode_zero_body,
    msgCodec.decode_encode ⟨valid_base.mpr (by decide), valid_str.mpr (by decide)⟩]

theorem type_of_mem {type : MsgType} {w : UInt8} (h : w ∈ [advType type, unadvType type]) : w ≠ Uninitialized := by
  simp only [List.mem_cons, List.not_mem_nil, or_false] at h
  rcases h with rfl | rfl <;> cases type <;> decide

/-- The datagram of a message that `Pack` refuses is no encoding of a message with a type. -/
theorem refused_ne_encode {m m' : AdvertiseMsg} (hp : ¬ m.toAdvertiseBase.Packable) (hname : m.msgTypeName ≠ [])
    (hlen : m.encode.length < 2 ^ 64) (htype : m'.header.type ≠ Uninitialized) : advDatagram m ≠ m'.encode := by
  intro heq
  obtain ⟨hheader, hbody⟩ := decode_encode_adv (m := m') (by rw [← heq, length_advDatagram]; exact hlen)
  rw [← heq, advDatagram, if_neg hp] at hheader
  have hsize := length_encode_adv m
  by_cases hc : m.header.Complete
  · -- the zeros behind the header are too long for the message that they would be
    rw [sentHeader, if_pos hc, length_encode_header, headerCodec.decode_encode (valid_header.mpr (by omega)),
      Option.some.injEq, Prod.mk.injEq] at hheader
    rw [← hheader.2, decode_zero_body (by omega), Option.some.injEq, Prod.mk.injEq] at hbody
    have hnil := List.replicate_eq_nil_iff _ |>.mp hbody.2
    have hpos := List.length_pos_of_ne_nil hname
    omega
  · rw [sentHeader, if_neg hc, List.nil_append, List.length_nil, Nat.sub_zero, decode_zero_header (by omega),
      Option.some.injEq, Prod.mk.injEq] at hheader
    exact htype (by rw [← hheader.1])

theorem type_eq_of_mem {type type' : MsgType} {w : UInt8} (h : w ∈ [advType type, unadvType type])
    (h' : w ∈ [advType type', unadvType type']) : type = type' := by
  simp only [List.mem_cons, List.not_mem_nil, or_false] at h h'
  cases type <;> cases type' <;> first | rfl | (rcases h with rfl | rfl <;> revert h' <;> decide)

/-- The datagram of a message is about the one entry that the message names, if `Pack` accepts the message. -/
theorem announces_advDatagram {m : AdvertiseMsg} {type type' : MsgType} {t : Str} {a : Address}
    (hname : m.msgTypeName ≠ []) (hlen : m.encode.length < 2 ^ 64)
    (htype : m.header.type ∈ [advType type', unadvType type']) :
    Announces m.header.pUuid type t a (advDatagram m) ↔
      m.toAdvertiseBase.Packable ∧ type = type' ∧ t = m.topic ∧ a.addr = m.addr ∧ a.nUuid = m.nUuid := by
  constructor
  · rintro ⟨m', heq, -, htype', ht, ha, hn⟩
    by_cases hp : m.toAdvertiseBase.Packable
    · rw [advDatagram, if_pos hp] at heq
      obtain rfl := encode_injective heq hlen
      exact ⟨hp, type_eq_of_mem htype' htype, ht.symm, ha.symm, hn.symm⟩
    · exact absurd heq (refused_ne_encode hp hname hlen (type_of_mem htype'))
  · rintro ⟨hp, rfl, ht, ha, hn⟩
    exact ⟨m, if_pos hp, rfl, htype, ht.symm, ha.symm, hn.symm⟩

/-- A datagram that starts with the header of another type is about no entry. -/
theorem not_announces_header {pUuid : Str} {type : MsgType} {t : Str} {a : Address} {h : Header} {b rest : Buffer}
    (hb : b = headerCodec.encode h ++ rest) (hlen : b.length < 2 ^ 64)
    (htype : h.type ∉ [advType type, unadvType type]) : ¬ Announces pUuid type t a b := by
  rintro ⟨m, rfl, -, hm, -⟩
  have hheader := (decode_encode_adv hlen).1
  have hvalid : headerCodec.Valid h := by
    rw [hb, List.length_append, length_encode_header] at hlen
    exact valid_header.mpr (by omega)
  rw [hb, headerCodec.decode_encode hvalid, Option.some.injEq, Prod.mk.injEq] at hheader
  exact htype (hheader.1 ▸ hm)

end Datagrams

/-! ## What is sent -/

section Sent

variable {d : Discovery}

/-- A datagram of zeros, from a process without a UUID, is about no entry. -/
theorem not_announces_zeros {pUuid : Str} {type : MsgType} {t : Str} {a : Address} {n : ℕ} (hn : 13 ≤ n)
    (hlen : n < 2 ^ 64) : ¬ Announces pUuid type t a (List.replicate n 0) := by
  have hzeros : List.replicate n (0 : UInt8) = headerCodec.encode {} ++ List.replicate (n - 13) 0 := by
    rw [encode_zero_header, replicate_split hn]
  exact not_announces_header hzeros (by rwa [List.length_replicate]) (by cases type <;> decide)

/-- A discovery request is about no entry. -/
theorem not_announces_sub {sought type : MsgType} {topic t : Str} {a : Address} {out : List Output}
    (hp : d.pUuid.length < 2 ^ 31 - 13) (htopic : topic.length < 2 ^ 31)
    (h : d.sendMsg (subType sought) topic [] [] [] .all = some out) {b : Buffer} (hb : .sendto b ∈ out) :
    ¬ Announces d.pUuid type t a b := by
  have hfit : (d.subMsg (subType sought) topic 0).Fits := ⟨hp, htopic⟩
  have hlen : (d.subMsg (subType sought) topic 0).encode.length = 21 + d.pUuid.length + topic.length := by
    rw [SubscriptionMsg.encode, List.length_append, length_encode_header, length_encode_str]
    show 13 + d.pUuid.length + (8 + topic.length) = _
    omega
  have htype : (d.subMsg (subType sought) topic 0).header.type.toNat < 11 := by
    show (subType sought).toNat < 11
    cases sought <;> decide
  obtain ⟨k, hpack⟩ := pack_subDatagram hfit htype
  have hsub : subType sought ∉ [AdvType, UnadvType, AdvSrvType, UnadvSrvType] ∧
      subType sought ∈ [SubType, SubSrvType] := by cases sought <;> decide
  rw [sendMsg, if_neg hsub.1, if_pos hsub.2] at h
  simp only [hfit.toNat_getMsgLength, hpack] at h
  obtain rfl : [Output.sendto (subDatagram (d.subMsg (subType sought) topic 0))] = out := Option.some.inj h
  obtain rfl : b = _ := Output.sendto.inj (List.mem_singleton.mp hb)
  by_cases hc : (d.subMsg (subType sought) topic 0).header.Complete
  · rw [subDatagram, if_pos hc]
    refine not_announces_header (show _ = headerCodec.encode _ ++ strCodec.encode topic from rfl) (by omega) ?_
    show subType sought ∉ _
    cases sought <;> cases type <;> decide
  · rw [subDatagram, if_neg hc, hlen]
    exact not_announces_zeros (by omega) (by omega)

/-- The datagram about an entry that is sent under a type, whatever its scope. -/
def entrySent (d : Discovery) (type : UInt8) (e : Str × Address) : Output :=
  .sendto (advDatagram (d.entryMsg type e.1 e.2))

theorem sendEach_eq {type : UInt8} (htype : type ∈ [AdvType, UnadvType, AdvSrvType, UnadvSrvType])
    (hp : d.pUuid.length < 2 ^ 31 - 13) {topic : Str} {as : List Address}
    (has : ∀ a ∈ as, topic.length < 2 ^ 31 ∧
      a.addr.length < 2 ^ 31 ∧ a.ctrl.length < 2 ^ 31 ∧ a.nUuid.length < 2 ^ 31) :
    d.sendEach type topic as = some (as.map fun a => d.entrySent type (topic, a)) := by
  induction as with
  | nil => rfl
  | cons a as ih =>
    obtain ⟨ha, has⟩ := List.forall_mem_cons.mp has
    rw [sendEach, sendMsg_adv htype (fits_advMsg hp ha.1 ha.2), ih has]
    rfl

theorem sendTopics_eq {type : UInt8} (htype : type ∈ [AdvType, UnadvType, AdvSrvType, UnadvSrvType])
    (hp : d.pUuid.length < 2 ^ 31 - 13) {ts : List (Str × List Address)}
    (hts : ∀ t ∈ ts, ∀ a ∈ t.2, t.1.length < 2 ^ 31 ∧
      a.addr.length < 2 ^ 31 ∧ a.ctrl.length < 2 ^ 31 ∧ a.nUuid.length < 2 ^ 31) :
    d.sendTopics type ts = some ((ts.flatMap fun t => t.2.map fun a => (t.1, a)).map (d.entrySent type)) := by
  induction ts with
  | nil => rfl
  | cons t ts ih =>
    obtain ⟨ht, hts⟩ := List.forall_mem_cons.mp hts
    rw [sendTopics, sendEach_eq htype hp ht, ih hts, List.flatMap_cons, List.map_append, List.map_map]
    rfl

/-- The entries of the process itself, topic by topic. -/
def ownEntries (d : Discovery) (type : MsgType) : List (Str × Address) :=
  ((d.info type).getAddressesByProc d.pUuid).flatMap fun t => t.2.map fun a => (t.1, a)

theorem mem_ownEntries {type : MsgType} {e : Str × Address} :
    e ∈ d.ownEntries type ↔ e.2 ∈ (d.info type).cell e.1 d.pUuid := by
  simp only [ownEntries, List.mem_flatMap, List.mem_map, Prod.exists]
  constructor
  · rintro ⟨t, v, hv, a, ha, rfl⟩
    rw [((d.info type).mem_getAddressesByProc t d.pUuid v |>.mp hv).1]
    exact ha
  · intro ha
    exact ⟨e.1, _, ((d.info type).mem_getAddressesByProc e.1 d.pUuid _).mpr ⟨rfl, List.ne_nil_of_mem ha⟩, e.2, ha,
      rfl⟩

/-- A heartbeat round sends a datagram about every own entry. -/
theorem entrySent_mem {type : MsgType} {t : Str} {a : Address} (ha : a ∈ (d.info type).cell t d.pUuid) :
    d.entrySent (advType type) (t, a) ∈ (d.ownEntries .msg).map (d.entrySent (advType .msg)) ++
      (d.ownEntries .srv).map (d.entrySent (advType .srv)) := by
  have hmem : (t, a) ∈ d.ownEntries type := mem_ownEntries.mpr ha
  cases type with
  | msg => exact List.mem_append_left _ (List.mem_map_of_mem hmem)
  | srv => exact List.mem_append_right _ (List.mem_map_of_mem hmem)

/-- The datagram of a heartbeat. -/
def heartbeatSent (d : Discovery) : Buffer :=
  sentHeader (d.header HeartbeatType 0) ++
    List.replicate (13 + d.pUuid.length - (sentHeader (d.header HeartbeatType 0)).length) 0

/-- **A heartbeat round announces every own entry.** -/
theorem heartbeat_eq (hfits : SenderFits d) : d.heartbeat = some (d, .sendto d.heartbeatSent ::
    ((d.ownEntries .msg).map (d.entrySent (advType .msg)) ++
      (d.ownEntries .srv).map (d.entrySent (advType .srv)))) := by
  have htopics : ∀ type, d.sendTopics (advType type) ((d.info type).getAddressesByProc d.pUuid) =
      some ((d.ownEntries type).map (d.entrySent (advType type))) := by
    intro type
    refine sendTopics_eq (advType_mem type) hfits.pUuid fun t ht a ha => ?_
    obtain ⟨hcell, hne⟩ := ((d.info type).mem_getAddressesByProc t.1 d.pUuid t.2).mp ht
    exact ⟨hfits.topic type t.1 (hcell ▸ hne), hfits.entry type t.1 a (hcell ▸ ha)⟩
  have hmsgs := htopics .msg
  have hsrvs := htopics .srv
  simp only [advType, info] at hmsgs hsrvs
  rw [heartbeat, sendMsg_header (by decide) hfits.pUuid, hmsgs, hsrvs]
  rfl

end Sent

/-! ## What ought to be sent -/

section Announcements

variable {d d' : Discovery}

/-- An address that is for more than the process. -/
def Public (a : Address) : Prop := a.scope = .host ∨ a.scope = .all

instance (a : Address) : Decidable (Public a) := by unfold Public; infer_instance

/-- The ADVERTISE or ADV_SRV with the fields of an own entry. -/
def advertised (d : Discovery) (type : MsgType) (e : Str × Address) : Output :=
  .sendto (d.entryMsg (advType type) e.1 e.2).encode

/-- The list has every own entry of scope Host or All, with its topic, once, and nothing else. -/
def ListsPublic (d : Discovery) (type : MsgType) (l : List (Str × Address)) : Prop :=
  l.Nodup ∧ ∀ e, e ∈ l ↔ e.2 ∈ (d.info type).cell e.1 d.pUuid ∧ Public e.2

/-- The own entries of scope Host or All, topic by topic. -/
def publicEntries (d : Discovery) (type : MsgType) : List (Str × Address) :=
  (d.ownEntries type).filter fun e => Public e.2

/-- What a heartbeat round ought to send for some entries. -/
def round (d : Discovery) (msgs srvs : List (Str × Address)) : List Output :=
  .sendto (headerCodec.encode (d.header HeartbeatType 0)) ::
    (msgs.map (d.advertised .msg) ++ srvs.map (d.advertised .srv))

/-- Every own entry is for others, and `Pack` accepts its message. -/
def AllPublic (d : Discovery) : Prop :=
  (d.header HeartbeatType 0).Complete ∧ ∀ type t, ∀ a ∈ (d.info type).cell t d.pUuid,
    Public a ∧ (d.entryMsg (advType type) t a).toAdvertiseBase.Packable

/-- An `int` can measure the messages about the own entries. -/
def Measurable (d : Discovery) : Prop := ∀ type t, ∀ a ∈ (d.info type).cell t d.pUuid,
  (d.entryMsg (advType type) t a).encode.length < 2 ^ 31

theorem length_entryMsg (hfits : SenderFits d) {type : MsgType} {w : UInt8} {t : Str} {a : Address}
    (ha : a ∈ (d.info type).cell t d.pUuid) : (d.entryMsg w t a).encode.length < 2 ^ 64 := by
  have ht := hfits.topic type t (List.ne_nil_of_mem ha)
  have hp := hfits.pUuid
  obtain ⟨h1, h2, h3⟩ := hfits.entry type t a ha
  rw [length_encode_adv]
  simp only [entryMsg, advMsg, header, ascii, List.length_map, List.length_cons, List.length_nil]
  omega

theorem heartbeatSent_of_complete (hc : (d.header HeartbeatType 0).Complete) :
    d.heartbeatSent = headerCodec.encode (d.header HeartbeatType 0) := by
  have hlen := length_encode_header (d.header HeartbeatType 0)
  rw [heartbeatSent, sentHeader, if_pos hc, hlen]
  exact (congrArg _ (by rw [show (d.header HeartbeatType 0).pUuid = d.pUuid from rfl, Nat.sub_self]; rfl)).trans
    (List.append_nil _)

/-- Without a UUID nothing but zeros is sent. -/
theorem zeros_of_incomplete (hc : ¬ (d.header HeartbeatType 0).Complete) {b : Buffer}
    (hb : .sendto b ∈ Output.sendto d.heartbeatSent ::
      ((d.ownEntries .msg).map (d.entrySent (advType .msg)) ++ (d.ownEntries .srv).map (d.entrySent (advType .srv)))) :
    ∃ n, b = List.replicate n 0 := by
  have hnil : d.pUuid = [] := by
    by_contra hne
    exact hc ⟨show Version ≠ 0 by decide, hne, show HeartbeatType ≠ Uninitialized by decide⟩
  have hentry : ∀ (w : UInt8) (e : Str × Address), d.entrySent w e = .sendto b → ∃ n, b = List.replicate n 0 := by
    intro w e heq
    have hincomplete : ¬ (d.entryMsg w e.1 e.2).header.Complete := fun h => h.2.1 hnil
    have hb := (Output.sendto.inj heq).symm
    rw [advDatagram, if_neg fun h => hincomplete h.1, sentHeader, if_neg hincomplete, List.nil_append] at hb
    exact ⟨_, hb⟩
  rcases List.mem_cons.mp hb with hb | hb
  · have hb := Output.sendto.inj hb
    rw [heartbeatSent, sentHeader, if_neg hc, List.nil_append] at hb
    exact ⟨_, hb⟩
  · rcases List.mem_append.mp hb with hb | hb
    · obtain ⟨e, -, he⟩ := List.mem_map.mp hb
      exact hentry _ e he
    · obtain ⟨e, -, he⟩ := List.mem_map.mp hb
      exact hentry _ e he

/-- A round with as many datagrams as own entries leaves none of them out. -/
theorem public_of_length (hsize : ((d.ownEntries .msg).map (d.entrySent (advType .msg)) ++
      (d.ownEntries .srv).map (d.entrySent (advType .srv))).length + 1 =
        (d.round (d.publicEntries .msg) (d.publicEntries .srv)).length) {type : MsgType} {e : Str × Address}
    (he : e ∈ d.ownEntries type) : Public e.2 := by
  have hle : ∀ type, ((d.ownEntries type).filter fun e => Public e.2).length ≤ (d.ownEntries type).length :=
    fun type => List.length_filter_le _ _
  have hmsg := hle .msg
  have hsrv := hle .srv
  simp only [round, publicEntries, List.length_cons, List.length_append, List.length_map] at hsize
  have hall : ((d.ownEntries type).filter fun e => Public e.2).length = (d.ownEntries type).length := by
    cases type <;> omega
  simpa using List.length_filter_eq_length_iff.mp hall e he

/-- A HEARTBEAT that is sent was accepted by `Pack`: it is not all zeros. -/
theorem complete_of_heartbeat_sent (hfits : SenderFits d)
    (hsent : Output.sendto (headerCodec.encode (d.header HeartbeatType 0)) ∈ Output.sendto d.heartbeatSent ::
      ((d.ownEntries .msg).map (d.entrySent (advType .msg)) ++ (d.ownEntries .srv).map (d.entrySent (advType .srv)))) :
    (d.header HeartbeatType 0).Complete := by
  by_contra hc
  obtain ⟨n, hn⟩ := zeros_of_incomplete hc hsent
  have hlen := congrArg List.length hn
  rw [length_encode_header, List.length_replicate] at hlen
  have hdecode := headerCodec.decode_encode (v := d.header HeartbeatType 0)
    (valid_header.mpr (lt_of_fit hfits.pUuid)) []
  rw [List.append_nil, hn, decode_zero_header (by omega), Option.some.injEq, Prod.mk.injEq] at hdecode
  exact absurd (congrArg Header.version hdecode.1) (by simp [header, Version])

/-- What is sent for an own entry is no encoding if `Pack` refuses its message. -/
theorem packable_of_entry_sent (hfits : SenderFits d) {type : MsgType} {t : Str} {a : Address}
    (ha : a ∈ (d.info type).cell t d.pUuid) {msgs srvs : List (Str × Address)}
    (hsent : d.entrySent (advType type) (t, a) ∈ msgs.map (d.advertised .msg) ++ srvs.map (d.advertised .srv)) :
    (d.entryMsg (advType type) t a).toAdvertiseBase.Packable := by
  by_contra hp
  have hrefused : ∀ (w : UInt8) (hw : w ≠ Uninitialized) (e : Str × Address),
      d.entrySent (advType type) (t, a) ≠ .sendto (d.entryMsg w e.1 e.2).encode := fun w hw e heq =>
    refused_ne_encode hp (by simp [entryMsg, advMsg, ascii]) (length_entryMsg hfits ha) hw (Output.sendto.inj heq)
  rcases List.mem_append.mp hsent with h | h
  · obtain ⟨e, -, he⟩ := List.mem_map.mp h
    exact hrefused _ (by decide) e he.symm
  · obtain ⟨e, -, he⟩ := List.mem_map.mp h
    exact hrefused _ (by decide) e he.symm

/-- **A heartbeat round sends what it ought to exactly if there is nothing to hide.** -/
theorem heartbeat_perm_iff (hfits : SenderFits d) : (Output.sendto d.heartbeatSent ::
    ((d.ownEntries .msg).map (d.entrySent (advType .msg)) ++
      (d.ownEntries .srv).map (d.entrySent (advType .srv)))).Perm
        (d.round (d.publicEntries .msg) (d.publicEntries .srv)) ↔ d.AllPublic := by
  constructor
  · intro hperm
    have hc := complete_of_heartbeat_sent hfits (hperm.mem_iff.mpr List.mem_cons_self)
    refine ⟨hc, fun type t a ha => ?_⟩
    have hpublic := public_of_length hperm.length_eq (mem_ownEntries (e := (t, a)).mpr ha)
    rw [heartbeatSent_of_complete hc] at hperm
    exact ⟨hpublic, packable_of_entry_sent hfits ha ((List.Perm.cons_inv hperm).mem_iff.mp (entrySent_mem ha))⟩
  · rintro ⟨hc, hall⟩
    have htype : ∀ type, (d.publicEntries type).map (d.advertised type) =
        (d.ownEntries type).map (d.entrySent (advType type)) := by
      intro type
      rw [publicEntries, List.filter_eq_self.mpr fun e he => by
        simpa using (hall type e.1 e.2 (mem_ownEntries.mp he)).1]
      refine List.map_congr_left fun e he => ?_
      rw [entrySent, advDatagram, if_pos (hall type e.1 e.2 (mem_ownEntries.mp he)).2]
      rfl
    rw [round, htype, htype, heartbeatSent_of_complete hc]

end Announcements

/-! ## The operations -/

section Operations

variable {d d' : Discovery} {op : Op} {out : List Output}

/-- What an operation ought to send, that is, hand to `sendto` with its length in an `int`: no datagram about an own
entry of scope Process, and for a heartbeat one HEARTBEAT and the advertisements of the other own entries, in whatever
order.  The system may still refuse a datagram that is too large. -/
structure Discreet (d : Discovery) (op : Op) (d' : Discovery) (out : List Output) : Prop where
  hidden : ∀ type t a, a ∈ (d.info type).cell t d.pUuid ∨ a ∈ (d'.info type).cell t d.pUuid → a.scope = .process →
    ∀ b, .sendto b ∈ out → ¬ Announces d.pUuid type t a b
  heartbeat : op = .heartbeat → (∃ msgs srvs, d.ListsPublic .msg msgs ∧ d.ListsPublic .srv srvs ∧
    out.Perm (d.round msgs srvs)) ∧ ∀ b, .sendto b ∈ out → b.length < 2 ^ 31

/-- The condition: a heartbeat finds own entries for others only, all of which `Pack` accepts and an `int` can measure,
and no address and node that is stored for the process alone is advertised again for others. -/
def Confined (d : Discovery) : Op → Prop
  | .advertise type topic addr ctrl nUuid scope => scope ≠ .process →
    (d.advMsg (advType type) topic addr ctrl nUuid scope 0).toAdvertiseBase.Packable →
      ∀ a ∈ (d.info type).cell topic d.pUuid, a.addr = addr → a.nUuid = nUuid → a.scope ≠ .process
  | .heartbeat => d.AllPublic ∧ d.Measurable
  | _ => True

/-- The strings of an operation are short enough to be packed. -/
def Op.Fits : Op → Prop
  | .advertise _ topic addr ctrl nUuid _ =>
    topic.length < 2 ^ 31 ∧ addr.length < 2 ^ 31 ∧ ctrl.length < 2 ^ 31 ∧ nUuid.length < 2 ^ 31
  | .discover topic _ => topic.length < 2 ^ 31
  | _ => True

/-- The invariant of a run: what is stored of the process itself can be packed, and none of it twice. -/
structure OwnReady (d : Discovery) : Prop where
  heard : (d.peer d.pUuid).lastHeard = none
  fits : SenderFits d
  distinct : ∀ type t, Distinct ((d.info type).cell t d.pUuid)

theorem eq_of_distinct {v : List Address} (h : Distinct v) {a b : Address} (ha : a ∈ v) (hb : b ∈ v)
    (haddr : a.addr = b.addr) (hn : a.nUuid = b.nUuid) : a = b := by
  induction v with
  | nil => cases ha
  | cons c v ih =>
    obtain ⟨hc, hv⟩ := List.pairwise_cons.mp h
    rcases List.mem_cons.mp ha with rfl | ha'
    · rcases List.mem_cons.mp hb with rfl | hb'
      · rfl
      · exact absurd ⟨haddr, hn⟩ (hc b hb')
    · rcases List.mem_cons.mp hb with rfl | hb'
      · exact absurd ⟨haddr.symm, hn.symm⟩ (hc a ha')
      · exact ih hv ha' hb'

theorem senderFits_of_cells (hfits : SenderFits d) (hp : d'.pUuid = d.pUuid)
    (hcell : ∀ type t, (d'.info type).cell t d.pUuid = (d.info type).cell t d.pUuid) : SenderFits d' := by
  refine ⟨by rw [hp]; exact hfits.pUuid, fun type t hne => ?_, fun type t a ha => ?_⟩
  · rw [hp, hcell] at hne
    exact hfits.topic type t hne
  · rw [hp, hcell] at ha
    exact hfits.entry type t a ha

theorem ownReady_start {pUuid : Str} (hp : pUuid.length < 2 ^ 31 - 13) (hostAddr : Str) :
    (start pUuid hostAddr).OwnReady := by
  have hnil : ∀ type t, ((start pUuid hostAddr).info type).cell t pUuid = [] := fun type t => by
    cases type <;> exact Table.cell_empty t pUuid
  refine ⟨((accounted_start pUuid hostAddr).2 pUuid).own rfl, ⟨hp, fun type t hne => absurd (hnil type t) hne,
    fun type t a ha => ?_⟩, fun type t => ?_⟩
  · rw [show (start pUuid hostAddr).pUuid = pUuid from rfl, hnil] at ha
    cases ha
  · rw [show (start pUuid hostAddr).pUuid = pUuid from rfl, hnil]
    exact List.Pairwise.nil

theorem ownReady_step (hready : d.OwnReady) (hfit : op.Fits) (h : d.step op = some d') : d'.OwnReady := by
  have hp := (fixed_step h).1
  have hown := own_step h hready.heard
  have hcell := cell_of_peer hown
  have hheard : (d'.peer d'.pUuid).lastHeard = none := by
    rw [hp, hown, lastHeard_ownAct]
    exact hready.heard
  have hsame : (∀ type t, (ownAct op (d.peer d.pUuid)).entries type t = (d.info type).cell t d.pUuid) →
      d'.OwnReady := fun hkept =>
    ⟨hheard, senderFits_of_cells hready.fits hp fun type t => (hcell type t).trans (hkept type t), fun type t => by
      rw [hp, hcell, hkept]
      exact hready.distinct type t⟩
  cases op with
  | advertise type topic addr ctrl nUuid scope =>
    obtain ⟨⟨e, out⟩, he, rfl⟩ := Option.map_eq_some_iff.mp h
    refine ⟨hheard, senderFits_advertise hready.fits hfit he, fun type' t => ?_⟩
    rw [hp, hcell, ownAct, Peer.entries_edit]
    split_ifs
    · exact distinct_addEntry (hready.distinct type' t) _
    · exact hready.distinct type' t
  | unadvertise type topic nUuid =>
    obtain ⟨⟨e, out⟩, he, rfl⟩ := Option.map_eq_some_iff.mp h
    refine ⟨hheard, senderFits_unadvertise hready.fits he, fun type' t => ?_⟩
    rw [hp, hcell, ownAct, Peer.entries_edit]
    split_ifs
    · exact distinct_delNode (hready.distinct type' t) nUuid
    · exact hready.distinct type' t
  | _ => exact hsame fun _ _ => rfl

theorem nodup_ownEntries (hready : d.OwnReady) (type : MsgType) : (d.ownEntries type).Nodup := by
  have htopics : ((d.info type).getAddressesByProc d.pUuid).Pairwise fun t u => t.1 ≠ u.1 := by
    refine List.Pairwise.filterMap _ (fun t u hne x hx y hy => ?_) (distinct_toList (d.info type).rows)
    obtain ⟨_, -, rfl⟩ := Option.map_eq_some_iff.mp hx
    obtain ⟨_, -, rfl⟩ := Option.map_eq_some_iff.mp hy
    exact hne
  refine List.nodup_flatMap.mpr ⟨fun t ht => ?_, htopics.imp fun hne => ?_⟩
  · obtain ⟨hcell, -⟩ := ((d.info type).mem_getAddressesByProc t.1 d.pUuid t.2).mp ht
    have hv : t.2.Nodup := hcell ▸ (hready.distinct type t.1).imp fun hab heq => hab ⟨by rw [heq], by rw [heq]⟩
    exact hv.map fun a b heq => (Prod.mk.inj heq).2
  · refine List.disjoint_left.mpr fun e he he' => hne ?_
    obtain ⟨_, -, rfl⟩ := List.mem_map.mp he
    obtain ⟨_, -, heq⟩ := List.mem_map.mp he'
    exact (congrArg Prod.fst heq).symm

theorem listsPublic_publicEntries (hready : d.OwnReady) (type : MsgType) :
    d.ListsPublic type (d.publicEntries type) :=
  ⟨(nodup_ownEntries hready type).filter _, fun e => by
    rw [publicEntries, List.mem_filter, mem_ownEntries, decide_eq_true_eq]⟩

/-- In whatever order the entries are listed, the round is the same but for its order. -/
theorem perm_round {msgs srvs msgs' srvs' : List (Str × Address)} (hm : d.ListsPublic .msg msgs)
    (hs : d.ListsPublic .srv srvs) (hm' : d.ListsPublic .msg msgs') (hs' : d.ListsPublic .srv srvs') :
    (d.round msgs srvs).Perm (d.round msgs' srvs') := by
  have hlist : ∀ {type l l'}, d.ListsPublic type l → d.ListsPublic type l' → l.Perm l' := fun h h' =>
    (List.perm_ext_iff_of_nodup h.1 h'.1).mpr fun e => (h.2 e).trans (h'.2 e).symm
  exact (((hlist hm hm').map _).append ((hlist hs hs').map _)).cons _

/-- What an [UN]ADVERTISE message is about. -/
theorem announces_adv (hfits : SenderFits d) {type type' : MsgType} {w : UInt8} {topic addr ctrl nUuid t : Str}
    {scope : Scope} {a : Address} (hw : w ∈ [advType type', unadvType type']) (ht : topic.length < 2 ^ 31)
    (ha : addr.length < 2 ^ 31 ∧ ctrl.length < 2 ^ 31 ∧ nUuid.length < 2 ^ 31) :
    Announces d.pUuid type t a (advDatagram (d.advMsg w topic addr ctrl nUuid scope 0)) ↔
      (d.advMsg w topic addr ctrl nUuid scope 0).toAdvertiseBase.Packable ∧ type = type' ∧ t = topic ∧
        a.addr = addr ∧ a.nUuid = nUuid := by
  have hlen : (d.advMsg w topic addr ctrl nUuid scope 0).encode.length < 2 ^ 64 := by
    have hp := hfits.pUuid
    rw [length_encode_adv]
    simp only [advMsg, header, ascii, List.length_map, List.length_cons, List.length_nil]
    omega
  exact announces_advDatagram (by simp [advMsg, ascii]) hlen hw

theorem discreet_advertise (hready : d.OwnReady) {type : MsgType} {topic addr ctrl nUuid : Str} {scope : Scope}
    (hfit : (Op.advertise type topic addr ctrl nUuid scope).Fits)
    (h : d.advertise type topic addr ctrl nUuid scope = some (d', out)) :
    Discreet d (.advertise type topic addr ctrl nUuid scope) d' out ↔
      d.Confined (.advertise type topic addr ctrl nUuid scope) := by
  obtain ⟨-, hcell⟩ := own_advertise h
  obtain ⟨-, hout⟩ := advertise_eq_some.mp h
  split_ifs at hout with hscope
  · obtain rfl := Option.some.inj hout
    exact iff_of_true ⟨fun _ _ _ _ _ b hb => by simp at hb, fun heq => by cases heq⟩ fun hne => absurd hscope hne
  rw [sendMsg_adv (advType_mem type) (fits_advMsg hready.fits.pUuid hfit.1 hfit.2), Option.some.injEq] at hout
  subst hout
  have hann : ∀ type' t a, Announces d.pUuid type' t a
      (advDatagram (d.advMsg (advType type) topic addr ctrl nUuid scope 0)) ↔ _ := fun type' t a =>
    announces_adv hready.fits List.mem_cons_self hfit.1 hfit.2
  constructor
  · intro hdiscreet _ hp a ha haddr hn hproc
    exact hdiscreet.hidden type topic a (.inl ha) hproc _ List.mem_cons_self
      ((hann type topic a).mpr ⟨hp, rfl, rfl, haddr, hn⟩)
  · intro hconfined
    refine ⟨fun type' t a ha hproc b hb hb' => ?_, fun heq => by cases heq⟩
    obtain rfl := Output.sendto.inj (List.mem_singleton.mp hb)
    obtain ⟨hp, rfl, rfl, haddr, hn⟩ := (hann type' t a).mp hb'
    -- the entry is not the one that was added: that one is for others
    have hold : a ∈ (d.info type').cell t d.pUuid := by
      rcases ha with ha | ha
      · exact ha
      · rw [hcell, if_pos ⟨rfl, rfl⟩] at ha
        rcases mem_addEntry_sub ha with ha | rfl
        · exact ha
        · exact absurd hproc hscope
    exact hconfined hscope hp a hold haddr hn hproc

/-- `Unadvertise` and the answer to a SUBSCRIBE look at the stored scope. -/
theorem discreet_stored (hready : d.OwnReady) {type : MsgType} {topic : Str} {w : UInt8} {as : List Address}
    (hw : w ∈ [advType type, unadvType type])
    (has : ∀ x ∈ as, x ∈ (d.info type).cell topic d.pUuid ∧ x.scope ≠ .process)
    (hkept : ∀ type t, ∀ a ∈ (d'.info type).cell t d.pUuid, a ∈ (d.info type).cell t d.pUuid) {op : Op}
    (hop : op ≠ .heartbeat) : Discreet d op d' (as.map fun a => d.entrySent w (topic, a)) := by
  refine ⟨fun type' t a ha hproc b hb hb' => ?_, fun heq => absurd heq hop⟩
  obtain ⟨x, hx, hsent⟩ := List.mem_map.mp hb
  obtain rfl := Output.sendto.inj hsent
  obtain ⟨hmem, hscope⟩ := has x hx
  obtain ⟨-, rfl, rfl, haddr, hn⟩ := (announces_adv hready.fits hw
    (hready.fits.topic type topic (List.ne_nil_of_mem hmem)) (hready.fits.entry type topic x hmem)).mp hb'
  have hold := ha.elim id (hkept type' t a)
  exact hscope (eq_of_distinct (hready.distinct type' t) hold hmem haddr hn ▸ hproc)

theorem discreet_unadvertise (hready : d.OwnReady) {type : MsgType} {topic nUuid : Str}
    (h : d.unadvertise type topic nUuid = some (d', out)) :
    Discreet d (.unadvertise type topic nUuid) d' out := by
  obtain ⟨-, hcell⟩ := own_unadvertise h
  have hkept : ∀ type t, ∀ a ∈ (d'.info type).cell t d.pUuid, a ∈ (d.info type).cell t d.pUuid := by
    intro type' t a ha
    rw [hcell] at ha
    split_ifs at ha
    · exact List.mem_of_mem_filter ha
    · exact ha
  have hnothing : Discreet d (.unadvertise type topic nUuid) d' [] :=
    ⟨fun _ _ _ _ _ b hb => by simp at hb, fun heq => by cases heq⟩
  rcases unadvertise_eq_some h with ⟨-, rfl, -⟩ | ⟨inf, hget, -, hout⟩
  · exact hnothing
  · have hmem : inf ∈ (d.info type).cell topic d.pUuid := List.mem_of_find?_eq_some hget
    obtain rfl : inf.nUuid = nUuid := by simpa using List.find?_some hget
    split_ifs at hout with hscope
    · rw [← Option.some.inj hout]
      exact hnothing
    · rw [sendMsg_adv (unadvType_mem type) (fits_advMsg hready.fits.pUuid
        (hready.fits.topic type topic (List.ne_nil_of_mem hmem)) (hready.fits.entry type topic inf hmem)),
        Option.some.injEq] at hout
      rw [← hout]
      have hsole : ∀ x ∈ [inf], x ∈ (d.info type).cell topic d.pUuid ∧ x.scope ≠ .process :=
        List.forall_mem_singleton.mpr ⟨hmem, hscope⟩
      exact discreet_stored hready (List.mem_cons_of_mem _ List.mem_cons_self) hsole hkept (by simp)

theorem discreet_of_unsent (hop : op ≠ .heartbeat)
    (hout : ∀ b, .sendto b ∈ out → ∀ type t a, ¬ Announces d.pUuid type t a b) : Discreet d op d' out :=
  ⟨fun type t a _ _ b hb => hout b hb type t a, fun heq => absurd heq hop⟩

theorem discreet_discover (hready : d.OwnReady) {topic : Str} {isSrv : Bool} (hfit : topic.length < 2 ^ 31)
    (h : d.discover topic isSrv = some (d', out)) : Discreet d (.discover topic isSrv) d' out := by
  refine discreet_of_unsent (by simp) fun b hb type t a => ?_
  unfold discover at h
  rw [show (if isSrv then MsgType.srv else .msg) = soughtType isSrv from rfl] at h
  generalize soughtType isSrv = sought at h
  obtain ⟨sent, hsent, h⟩ := Option.bind_eq_some_iff.mp h
  refine not_announces_sub hready.fits.pUuid hfit hsent ?_
  split at h
  · rw [← (Prod.mk.inj (Option.some.inj h)).2] at hb
    exact hb
  · rw [← (Prod.mk.inj (Option.some.inj h)).2] at hb
    refine (List.mem_append.mp hb).resolve_right fun hreplay => ?_
    split_ifs at hreplay
    · simp [replay] at hreplay
    · cases hreplay

theorem discreet_datagram (hready : d.OwnReady) {g : Datagram} (h : d.perform (.datagram g) = some (d', out)) :
    Discreet d (.datagram g) d' out := by
  rcases dispatch_cases h with ⟨header, -, -, -, rfl⟩ | ⟨header, body, -, -, hhandle⟩
  · exact discreet_of_unsent (by simp) fun b hb => by cases hb
  by_cases hsub : ∃ type m, body = .subscribe type m
  · obtain ⟨type, m, rfl⟩ := hsub
    rw [handle, recvSubscribe_eq, Option.map_eq_some_iff, sendEach_touch, info_touch, pUuid_touch,
      hostAddr_touch] at hhandle
    obtain ⟨o, ho, hpair⟩ := hhandle
    obtain ⟨rfl, rfl⟩ := Prod.mk.inj hpair
    have hmem : ∀ a ∈ ((d.info type).cell m.topic d.pUuid).filter fun a => ¬ Hides d.hostAddr g.fromIp a.scope,
        a ∈ (d.info type).cell m.topic d.pUuid ∧ a.scope ≠ .process := by
      intro a ha
      obtain ⟨ha, hshown⟩ := List.mem_filter.mp ha
      exact ⟨ha, (not_hides_iff.mp (of_decide_eq_true hshown)).1⟩
    rw [sendEach_eq (advType_mem type) hready.fits.pUuid fun a ha =>
      ⟨hready.fits.topic type m.topic (List.ne_nil_of_mem (hmem a ha).1),
        hready.fits.entry type m.topic a (hmem a ha).1⟩,
      Option.some.injEq] at ho
    rw [← ho]
    exact discreet_stored hready List.mem_cons_self hmem (fun type t a ha => by rwa [info_touch] at ha) (by simp)
  · rw [out_handle_of_ne_subscribe hhandle fun type m hb => hsub ⟨type, m, hb⟩]
    exact discreet_of_unsent (by simp) fun b hb => absurd hb (sendto_not_mem_callbacks _ _ _ _ b)

theorem discreet_heartbeat (hready : d.OwnReady) (h : d.heartbeat = some (d', out)) :
    Discreet d .heartbeat d' out ↔ d.Confined .heartbeat := by
  rw [heartbeat_eq hready.fits, Option.some.injEq, Prod.mk.injEq] at h
  obtain ⟨rfl, rfl⟩ := h
  have hlists := listsPublic_publicEntries hready
  constructor
  · intro hdiscreet
    obtain ⟨⟨msgs, srvs, hm, hs, hperm⟩, hshort⟩ := hdiscreet.heartbeat rfl
    refine ⟨(heartbeat_perm_iff hready.fits).mp (hperm.trans (perm_round hm hs (hlists .msg) (hlists .srv))),
      fun type t a ha => ?_⟩
    rw [← length_advDatagram]
    exact hshort _ (List.mem_cons_of_mem _ (entrySent_mem ha))
  · rintro ⟨hall, hmeasurable⟩
    refine ⟨fun type t a ha hproc => ?_, fun _ => ⟨⟨_, _, hlists .msg, hlists .srv,
      (heartbeat_perm_iff hready.fits).mpr hall⟩, fun b hb => ?_⟩⟩
    · have hpublic : Public a := (hall.2 type t a (ha.elim id id)).1
      rw [Public, hproc] at hpublic
      exact absurd hpublic (by decide)
    · have hentry : ∀ type, ∀ e ∈ d.ownEntries type, d.entrySent (advType type) e = .sendto b → b.length < 2 ^ 31 := by
        intro type e he heq
        rw [← Output.sendto.inj heq, length_advDatagram]
        exact hmeasurable type e.1 e.2 (mem_ownEntries.mp he)
      rcases List.mem_cons.mp hb with hb | hb
      · rw [Output.sendto.inj hb, heartbeatSent_of_complete hall.1, length_encode_header]
        have hp := hready.fits.pUuid
        show 13 + d.pUuid.length < 2 ^ 31
        omega
      · rcases List.mem_append.mp hb with hb | hb
        · obtain ⟨e, he, heq⟩ := List.mem_map.mp hb
          exact hentry .msg e he heq
        · obtain ⟨e, he, heq⟩ := List.mem_map.mp hb
          exact hentry .srv e he heq

/-- **One operation** is discreet exactly under the condition. -/
theorem discreet_iff (hready : d.OwnReady) (hfit : op.Fits) (h : d.perform op = some (d', out)) :
    Discreet d op d' out ↔ d.Confined op := by
  cases op with
  | advertise type topic addr ctrl nUuid scope => exact discreet_advertise hready hfit h
  | unadvertise type topic nUuid => exact iff_of_true (discreet_unadvertise hready h) trivial
  | discover topic isSrv => exact iff_of_true (discreet_discover hready hfit h) trivial
  | datagram g => exact iff_of_true (discreet_datagram hready h) trivial
  | heartbeat => exact discreet_heartbeat hready h
  | sweep now =>
    refine iff_of_true (discreet_of_unsent (by simp) fun b hb => ?_) trivial
    obtain ⟨p, -, heq⟩ := (mem_out_sweep h _).mp hb
    cases heq
  | setConnectionsCb type set =>
    obtain ⟨-, rfl⟩ := Prod.mk.inj (Option.some.inj h)
    exact iff_of_true (discreet_of_unsent (by simp) fun b hb => by cases hb) trivial
  | setDisconnectionsCb type set =>
    obtain ⟨-, rfl⟩ := Prod.mk.inj (Option.some.inj h)
    exact iff_of_true (discreet_of_unsent (by simp) fun b hb => by cases hb) trivial
  | setSilenceInterval ms =>
    obtain ⟨-, rfl⟩ := Prod.mk.inj (Option.some.inj h)
    exact iff_of_true (discreet_of_unsent (by simp) fun b hb => by cases hb) trivial

end Operations

/-! ## Runs -/

section Runs

theorem ownReady_run {pUuid hostAddr : Str} (hp : pUuid.length < 2 ^ 31 - 13) {ops : List Op}
    (hfit : ∀ op ∈ ops, op.Fits) {d : Discovery} (h : run step (start pUuid hostAddr) ops = some d) : d.OwnReady := by
  induction ops using List.reverseRecOn generalizing d with
  | nil => exact Option.some.inj h ▸ ownReady_start hp hostAddr
  | append_singleton ops op ih =>
    obtain ⟨e, he, hstep⟩ := run_concat.mp h
    exact ownReady_step (ih (fun op hop => hfit op (List.mem_append_left _ hop)) he) (hfit op (by simp)) hstep

/-- **Exactly which runs keep to themselves what is for the process alone.** -/
theorem announcements_iff {pUuid hostAddr : Str} (hp : pUuid.length < 2 ^ 31 - 13) {ops : List Op}
    (hfit : ∀ op ∈ ops, op.Fits) {d : Discovery} (hrun : run step (start pUuid hostAddr) ops = some d) :
    Along step (fun _ e op => ∃ e' out, e.perform op = some (e', out) ∧ Discreet e op e' out)
        (start pUuid hostAddr) ops ↔
      Along step (fun _ e op => e.Confined op) (start pUuid hostAddr) ops := by
  have hstep : ∀ pre op e, pre ++ [op] <+: ops → run step (start pUuid hostAddr) pre = some e →
      ((∃ e' out, e.perform op = some (e', out) ∧ Discreet e op e' out) ↔ e.Confined op) := by
    intro pre op e hpre he
    have hops : ∀ x ∈ pre ++ [op], x.Fits := fun x hx => hfit x (hpre.subset hx)
    have hready := ownReady_run hp (fun x hx => hops x (List.mem_append_left _ hx)) he
    -- the step is one of the run, so it returns
    obtain ⟨f, hf⟩ := run_prefix hpre hrun
    obtain ⟨e', he', hnext⟩ := run_concat.mp hf
    obtain rfl : e' = e := Option.some.inj (he'.symm.trans he)
    obtain ⟨out, hperform⟩ := step_eq_some.mp hnext
    have hiff := discreet_iff hready (hops op (by simp)) hperform
    constructor
    · rintro ⟨g, out', hg, hdiscreet⟩
      obtain ⟨rfl, rfl⟩ := Prod.mk.inj (Option.some.inj (hg.symm.trans hperform))
      exact hiff.mp hdiscreet
    · exact fun hconfined => ⟨f, out, hperform, hiff.mpr hconfined⟩
  exact ⟨fun h pre op e hpre he => (hstep pre op e hpre he).mp (h pre op e hpre he),
    fun h pre op e hpre he => (hstep pre op e hpre he).mpr (h pre op e hpre he)⟩

/-- A topic for the process alone, and a heartbeat. -/
def privateTopic : List Op := [.advertise .msg [116] [97] [] [110] .process, .heartbeat]

theorem announcements_iff_privateTopic :
    Along step (fun _ e op => ∃ e' out, e.perform op = some (e', out) ∧ Discreet e op e' out)
        (start [65] [1]) privateTopic ↔
      Along step (fun _ e op => e.Confined op) (start [65] [1]) privateTopic := by
  have hdef : (run step (start [65] [1]) privateTopic).isSome := by decide
  obtain ⟨d, hd⟩ := Option.isSome_iff_exists.mp hdef
  exact announcements_iff (by decide) (by simp [privateTopic, Op.Fits]) hd

/-- The heartbeat sends an ADVERTISE of the topic. -/
theorem private_topic_announced :
    ∃ e e' out, run step (start [65] [1]) [.advertise .msg [116] [97] [] [110] .process] = some e ∧
      e.perform .heartbeat = some (e', out) ∧ ¬ Discreet e .heartbeat e' out ∧
      ∃ b, .sendto b ∈ out ∧ Announces [65] .msg [116] ⟨[97], [], [110], .process⟩ b := by
  have hstored : (run step (start [65] [1]) [.advertise .msg [116] [97] [] [110] .process]).any (fun e =>
      (e.info .msg).cell [116] [65] = [⟨[97], [], [110], .process⟩]) = true := by decide
  obtain ⟨e, he, hstored⟩ := exists_of_any hstored
  have hp : e.pUuid = [65] := (accounted_run he).1
  have hready : e.OwnReady := ownReady_run (by decide) (by simp [Op.Fits]) he
  have hmem : ⟨[97], [], [110], .process⟩ ∈ (e.info .msg).cell [116] e.pUuid := by simp [hp, hstored]
  have hpackable : (e.entryMsg AdvType [116] ⟨[97], [], [110], .process⟩).toAdvertiseBase.Packable := by
    refine ⟨⟨show Version ≠ 0 by decide, ?_, show AdvType ≠ Uninitialized by decide⟩, ?_⟩
    · show e.pUuid ≠ []
      rw [hp]
      decide
    · simp [entryMsg, advMsg]
  have hann : Announces e.pUuid .msg [116] ⟨[97], [], [110], .process⟩
      (advDatagram (e.entryMsg AdvType [116] ⟨[97], [], [110], .process⟩)) :=
    (@announces_adv e hready.fits .msg .msg AdvType [116] [97] [] [110] [116] .process _ List.mem_cons_self
      (by decide) (by decide)).mpr ⟨hpackable, rfl, rfl, rfl, rfl⟩
  refine ⟨e, _, _, he, heartbeat_eq hready.fits, ?_, ?_⟩
  · intro hdiscreet
    exact hdiscreet.hidden .msg [116] _ (.inl hmem) rfl _
      (List.mem_cons_of_mem _ (List.mem_append_left _
        (List.mem_map_of_mem (mem_ownEntries (e := ([116], _)).mpr hmem))))
      hann
  · exact ⟨_, List.mem_cons_of_mem _ (List.mem_append_left _
      (List.mem_map_of_mem (mem_ownEntries (e := ([116], _)).mpr hmem))), hp ▸ hann⟩

end Runs

end Discovery

end IgnTransport
