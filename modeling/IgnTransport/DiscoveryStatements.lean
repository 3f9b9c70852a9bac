import Mathlib
import IgnTransport.DiscoveryAnnouncements
import IgnTransport.DiscoveryTransmit

/-!
# IgnTransport.DiscoveryStatements — what an instance says in its datagrams

A datagram that leaves the host can be read whatever lies behind it in `rcvStr`, carries the UUID of its process, and
says something that the operation allows (`says_perform`): it advertises what the process was told to advertise or has
stored of itself, it unadvertises what it was told to unadvertise, or it has scope Process and nobody listens.  BYE is
left to the destructor (`says_destroy`).
-/

namespace IgnTransport

open Lib

namespace Discovery

/-! ## Datagrams and their readers -/

section Reading

/-- A datagram of process `p` that is read as a body that satisfies `Q`, whatever lies behind it. -/
def Says (p : Str) (g : Buffer) (Q : Body → Prop) : Prop :=
  g.length ≤ maxPayload ∧ ∀ stale : Buffer, (g ++ stale).length < 2 ^ 31 → ∃ header rest body,
    headerCodec.decode (g ++ stale) = some (header, rest) ∧ header.pUuid = p ∧
    decodeBody header.type rest = some body ∧ Q body

variable {p : Str} {g : Buffer} {Q Q' : Body → Prop}

theorem Says.mono (h : Says p g Q) (hQ : ∀ body, Q body → Q' body) : Says p g Q' := by
  refine ⟨h.1, fun stale hstale => ?_⟩
  obtain ⟨header, rest, body, hheader, hp, hbody, hq⟩ := h.2 stale hstale
  exact ⟨header, rest, body, hheader, hp, hbody, hQ body hq⟩

/-- What one reader makes of a message does not depend on the reader. -/
theorem decode_of_readMessage {pUuid : Str} {msg : Buffer} {header : Header} {body : Body}
    (hlen : msg.length < 2 ^ 31) (h : readMessage pUuid msg = some (header, some body)) :
    ∃ rest, headerCodec.decode msg = some (header, rest) ∧ decodeBody header.type rest = some body := by
  rw [readMessage_of_decode hlen, Option.bind_eq_some_iff] at h
  obtain ⟨⟨hdr, rest⟩, hdecode, h⟩ := h
  dsimp only at h
  split_ifs at h with hp
  · cases h
  · obtain ⟨b, hb, heq⟩ := Option.map_eq_some_iff.mp h
    obtain ⟨rfl, hbody⟩ := Prod.mk.inj heq
    exact ⟨rest, hdecode, hb.trans hbody⟩

/-- A datagram that every other process reads as such a body. -/
theorem says_of_read (hlen : g.length ≤ maxPayload) (h : ∀ pUuid, p ≠ pUuid → ∀ stale : Buffer,
      (g ++ stale).length < 2 ^ 31 → ∃ header body, readMessage pUuid (g ++ stale) = some (header, some body) ∧
        header.pUuid = p ∧ Q body) : Says p g Q := by
  refine ⟨hlen, fun stale hstale => ?_⟩
  obtain ⟨header, body, hread, hp, hq⟩ := h (0 :: p) (List.cons_ne_self 0 p).symm stale hstale
  obtain ⟨rest, hheader, hbody⟩ := decode_of_readMessage hstale hread
  exact ⟨header, rest, body, hheader, hp, hbody, hq⟩

/-- The contents of `rcvStr` when a datagram has landed in it. -/
theorem fill_rcvStr {rcvStr : Buffer} (hlen : g.length ≤ maxPayload) (hstr : rcvStr.length = MaxRcvStr) :
    g.take MaxRcvStr ++ rcvStr.drop g.length = g ++ rcvStr.drop g.length ∧
      (g ++ rcvStr.drop g.length).length < 2 ^ 31 := by
  have hle : g.length ≤ MaxRcvStr := hlen.trans (by decide)
  refine ⟨by rw [List.take_of_length_le hle], ?_⟩
  rw [List.length_append, List.length_drop, hstr]
  unfold MaxRcvStr at hle ⊢
  omega

/-- A process hears what another one says, and nothing of what it said itself. -/
theorem recv_says {d : Discovery} (h : Says p g Q) (fromIp : Str) (now : Timestamp) {rcvStr : Buffer}
    (hstr : rcvStr.length = MaxRcvStr) :
    (p = d.pUuid ∧ d.recvDiscoveryUpdate fromIp now g rcvStr = some (d, [])) ∨
    (p ≠ d.pUuid ∧ ∃ header body, header.pUuid = p ∧ Q body ∧
      readMessage d.pUuid (g.take MaxRcvStr ++ rcvStr.drop g.length) = some (header, some body) ∧
      d.recvDiscoveryUpdate fromIp now g rcvStr = (d.touch p now).handle fromIp p body) := by
  obtain ⟨hfill, hshort⟩ := fill_rcvStr h.1 hstr
  obtain ⟨header, rest, body, hheader, rfl, hbody, hq⟩ := h.2 _ hshort
  have hread := readMessage_of_decode hshort d.pUuid
  rw [hheader, Option.bind_some] at hread
  by_cases hp : header.pUuid = d.pUuid
  · rw [if_pos hp] at hread
    refine .inl ⟨hp, ?_⟩
    rw [recvDiscoveryUpdate, hfill, dispatch_eq_readMessage, hread]
    rfl
  · rw [if_neg hp, hbody] at hread
    refine .inr ⟨hp, header, body, rfl, hq, by rw [hfill]; exact hread, ?_⟩
    rw [recvDiscoveryUpdate, hfill, dispatch_eq_readMessage, hread]
    rfl

end Reading

/-! ## What is said -/

section Saying

theorem mem_transmitted {out : List Output} {b : Buffer} :
    b ∈ transmitted out ↔ .sendto b ∈ out ∧ b.length ≤ maxPayload := by
  rw [transmitted, List.mem_filterMap]
  constructor
  · rintro ⟨o, ho, hb⟩
    cases o with
    | sendto c =>
      dsimp only at hb
      split_ifs at hb with hlen
      obtain rfl := Option.some.inj hb
      exact ⟨ho, hlen⟩
    | _ => cases hb
  · rintro ⟨ho, hlen⟩
    exact ⟨_, ho, if_pos hlen⟩

/-- What the datagram of an [UN]ADVERTISE message says: the message, or something that is for nobody. -/
def SaysOf (m : AdvertiseMsg) (body : Body) : Prop :=
  (Sendable m ∧ body = bodyOf m.header.type (advertiseOf (m.body, m.msgTypeName))) ∨
    (¬ Sendable m ∧ ((∃ m', body = bodyOf m.header.type m' ∧ m'.scope = .process) ∨ body = .unknown))

theorem says_advDatagram {m : AdvertiseMsg} (hversion : m.header.version ≠ 0)
    (htype : m.header.type ∈ [AdvType, UnadvType, AdvSrvType, UnadvSrvType]) (hfit : m.Fits)
    (hlen : (advDatagram m).length ≤ maxPayload) : Says m.header.pUuid (advDatagram m) (SaysOf m) := by
  refine says_of_read hlen fun pUuid hne stale hstale => ?_
  rcases read_advDatagram hne hversion htype hfit hstale with ⟨hp, hread⟩ | ⟨hp, -, hread⟩ | ⟨hp, hnil, hread⟩
  · exact ⟨_, _, hread, rfl, .inl ⟨⟨hp, by rw [← length_advDatagram]; exact hlen⟩, rfl⟩⟩
  · exact ⟨_, _, hread, rfl, .inr ⟨fun h => hp h.1, .inl ⟨_, rfl, rfl⟩⟩⟩
  · exact ⟨_, _, hread, hnil.symm, .inr ⟨fun h => hp h.1, .inr rfl⟩⟩

variable {d d' : Discovery} {out : List Output} {b : Buffer}

/-- One [UN]ADVERTISE message. -/
theorem says_sendMsg_adv {type : UInt8} {topic addr ctrl nUuid : Str} {scope : Scope}
    (htype : type ∈ [AdvType, UnadvType, AdvSrvType, UnadvSrvType])
    (hfit : (d.advMsg type topic addr ctrl nUuid scope 0).Fits)
    (h : d.sendMsg type topic addr ctrl nUuid scope = some out) (hb : b ∈ transmitted out) :
    Says d.pUuid b (SaysOf (d.advMsg type topic addr ctrl nUuid scope 0)) := by
  rw [sendMsg_adv htype hfit, Option.some.injEq] at h
  subst h
  obtain ⟨hmem, hlen⟩ := mem_transmitted.mp hb
  obtain rfl := Output.sendto.inj (List.mem_singleton.mp hmem)
  exact says_advDatagram (m := d.advMsg type topic addr ctrl nUuid scope 0)
    (by simp [advMsg, header, Version]) htype hfit hlen

/-- The SUBSCRIBE message of a discovery request. -/
theorem sendMsg_sub (type : MsgType) {topic : Str} (hp : d.pUuid.length < 2 ^ 31 - 13)
    (htopic : topic.length < 2 ^ 31) : d.sendMsg (subType type) topic [] [] [] .all =
      some [.sendto (subDatagram (d.subMsg (subType type) topic 0))] := by
  have hfit : (d.subMsg (subType type) topic 0).Fits := ⟨hp, htopic⟩
  have hsmall : (d.subMsg (subType type) topic 0).header.type.toNat < 11 := by
    change (subType type).toNat < 11
    cases type <;> decide
  have hsub : subType type ∉ [AdvType, UnadvType, AdvSrvType, UnadvSrvType] ∧
      subType type ∈ [SubType, SubSrvType] := by cases type <;> decide
  obtain ⟨k, hpack⟩ := pack_subDatagram hfit hsmall
  rw [sendMsg, if_neg hsub.1, if_pos hsub.2]
  simp only [hfit.toNat_getMsgLength, hpack]
  rfl

/-- A discovery request says nothing about a topic. -/
def Asks (body : Body) : Prop := (∃ type m, body = .subscribe type m) ∨ body = .unknown

theorem says_sub (type : MsgType) {topic : Str}
    (hlen : (subDatagram (d.subMsg (subType type) topic 0)).length ≤ maxPayload) :
    Says d.pUuid (subDatagram (d.subMsg (subType type) topic 0)) Asks := by
  refine says_of_read hlen fun pUuid hne stale hstale => ?_
  have htype : (d.subMsg (subType type) topic 0).header.type ∈ [SubType, SubSrvType] := by
    change subType type ∈ _
    cases type <;> decide
  rcases read_subDatagram (m := d.subMsg (subType type) topic 0) hne (by simp [subMsg, header, Version]) htype
    hstale with ⟨-, type', hread⟩ | ⟨hnil, hread⟩
  · exact ⟨_, _, hread, rfl, .inl ⟨_, _, rfl⟩⟩
  · exact ⟨_, _, hread, hnil.symm, .inr rfl⟩

/-- A header alone: HEARTBEAT or BYE. -/
theorem says_header {type : UInt8} (htype : type ∈ [HeartbeatType, ByeType]) {g : Buffer}
    (hg : g = sentHeader (d.header type 0) ++
      List.replicate (13 + d.pUuid.length - (sentHeader (d.header type 0)).length) 0)
    (hlen : g.length ≤ maxPayload) : Says d.pUuid g fun body =>
      body = (if type = HeartbeatType then .heartbeat else .bye) ∨ body = .unknown ∧ d.pUuid = [] := by
  refine says_of_read hlen fun pUuid hne stale hstale => ?_
  subst hg
  have hversion : (d.header type 0).version ≠ 0 := by simp [header, Version]
  rw [List.append_assoc] at hstale ⊢
  by_cases hc : (d.header type 0).Complete
  · rw [sentHeader, if_pos hc] at hstale ⊢
    refine ⟨d.header type 0, if type = HeartbeatType then .heartbeat else .bye, ?_, rfl, .inl rfl⟩
    rw [readMessage_encode (h := d.header type 0) hne hstale]
    simp only [List.mem_cons, List.not_mem_nil, or_false] at htype
    rcases htype with rfl | rfl <;> rfl
  · have hnil : d.pUuid = [] := by
      by_contra hnil
      refine hc ⟨hversion, hnil, fun h0 => ?_⟩
      have h0' : type = Uninitialized := h0
      rw [h0'] at htype
      exact absurd htype (by decide)
    rw [sentHeader, if_neg hc, List.nil_append, List.length_nil, hnil, List.length_nil] at hstale ⊢
    exact ⟨{}, .unknown, readMessage_zeros (hnil ▸ hne) (by omega) hstale, rfl, .inr ⟨rfl, rfl⟩⟩

end Saying

/-! ## Operations -/

section Operations

/-- What an operation lets a process say. -/
def Allowed (d : Discovery) (op : Op) : Body → Prop
  | .advertise type m => m.scope ≠ .process →
    op = .advertise type m.topic m.addr m.ctrl m.nUuid m.scope ∨
      Peer.addressOf m ∈ (d.info type).cell m.topic d.pUuid
  | .unadvertise type m => m.scope ≠ .process → op = .unadvertise type m.topic m.nUuid
  | .bye => False
  | _ => True

variable {d d' : Discovery} {op : Op} {out : List Output} {b : Buffer}

theorem allowed_of_asks {body : Body} (h : Asks body) : d.Allowed op body := by
  rcases h with ⟨type, m, rfl⟩ | rfl <;> exact trivial

/-- The message of an entry that may be advertised. -/
theorem allowed_adv {type : MsgType} {topic addr ctrl nUuid : Str} {scope : Scope}
    (hok : op = .advertise type topic addr ctrl nUuid scope ∨
      ⟨addr, ctrl, nUuid, scope⟩ ∈ (d.info type).cell topic d.pUuid)
    {body : Body} (h : SaysOf (d.advMsg (advType type) topic addr ctrl nUuid scope 0) body) : d.Allowed op body := by
  rcases h with ⟨-, rfl⟩ | ⟨-, ⟨m', rfl, hscope⟩ | rfl⟩
  · rw [show (d.advMsg (advType type) topic addr ctrl nUuid scope 0).header.type = advType type from rfl,
      bodyOf_advType]
    exact fun _ => hok
  · rw [show (d.advMsg (advType type) topic addr ctrl nUuid scope 0).header.type = advType type from rfl,
      bodyOf_advType]
    exact fun hne => absurd hscope hne
  · exact trivial

theorem allowed_unadv {type : MsgType} {topic addr ctrl nUuid : Str} {scope : Scope} {body : Body}
    (h : SaysOf (d.advMsg (unadvType type) topic addr ctrl nUuid scope 0) body) :
    d.Allowed (.unadvertise type topic nUuid) body := by
  rcases h with ⟨-, rfl⟩ | ⟨-, ⟨m', rfl, hscope⟩ | rfl⟩
  · rw [show (d.advMsg (unadvType type) topic addr ctrl nUuid scope 0).header.type = unadvType type from rfl,
      bodyOf_unadvType]
    exact fun _ => rfl
  · rw [show (d.advMsg (unadvType type) topic addr ctrl nUuid scope 0).header.type = unadvType type from rfl,
      bodyOf_unadvType]
    exact fun hne => absurd hscope hne
  · exact trivial

/-- The datagram of an own entry. -/
theorem says_entry (hfits : SenderFits d) {type : MsgType} {topic : Str} {a : Address}
    (ha : a ∈ (d.info type).cell topic d.pUuid) (hb : d.entrySent (advType type) (topic, a) = .sendto b)
    (hlen : b.length ≤ maxPayload) : Says d.pUuid b (SaysOf (d.entryMsg (advType type) topic a)) := by
  obtain rfl := (Output.sendto.inj hb).symm
  exact says_advDatagram (m := d.entryMsg (advType type) topic a) (by simp [entryMsg, advMsg, header, Version])
    (advType_mem type)
    (fits_advMsg hfits.pUuid (hfits.topic type topic (List.ne_nil_of_mem ha)) (hfits.entry type topic a ha)) hlen

theorem says_advertise (hready : d.OwnReady) {type : MsgType} {topic addr ctrl nUuid : Str} {scope : Scope}
    (hfit : (Op.advertise type topic addr ctrl nUuid scope).Fits)
    (h : d.advertise type topic addr ctrl nUuid scope = some (d', out)) (hb : b ∈ transmitted out) :
    Says d.pUuid b (d.Allowed (.advertise type topic addr ctrl nUuid scope)) := by
  obtain ⟨-, hout⟩ := advertise_eq_some.mp h
  split_ifs at hout with hscope
  · obtain rfl := Option.some.inj hout
    cases hb
  · exact (says_sendMsg_adv (advType_mem type) (fits_advMsg hready.fits.pUuid hfit.1 hfit.2) hout hb).mono
      fun _ => allowed_adv (.inl rfl)

theorem says_unadvertise (hready : d.OwnReady) {type : MsgType} {topic nUuid : Str}
    (h : d.unadvertise type topic nUuid = some (d', out)) (hb : b ∈ transmitted out) :
    Says d.pUuid b (d.Allowed (.unadvertise type topic nUuid)) := by
  rcases unadvertise_eq_some h with ⟨-, rfl, -⟩ | ⟨inf, hget, -, hout⟩
  · cases hb
  have hmem : inf ∈ (d.info type).cell topic d.pUuid := List.mem_of_find?_eq_some hget
  obtain rfl : inf.nUuid = nUuid := by simpa using List.find?_some hget
  split_ifs at hout with hscope
  · obtain rfl := Option.some.inj hout
    cases hb
  · exact (says_sendMsg_adv (unadvType_mem type) (fits_advMsg hready.fits.pUuid
      (hready.fits.topic type topic (List.ne_nil_of_mem hmem)) (hready.fits.entry type topic inf hmem)) hout hb).mono
      fun _ => allowed_unadv

theorem says_discover (hready : d.OwnReady) {topic : Str} {isSrv : Bool} (hfit : topic.length < 2 ^ 31)
    (h : d.discover topic isSrv = some (d', out)) (hb : b ∈ transmitted out) :
    Says d.pUuid b (d.Allowed (.discover topic isSrv)) := by
  obtain ⟨hmem, hlen⟩ := mem_transmitted.mp hb
  unfold discover at h
  rw [show (if isSrv then MsgType.srv else .msg) = soughtType isSrv from rfl] at h
  generalize soughtType isSrv = sought at h
  obtain ⟨sent, hask, h⟩ := Option.bind_eq_some_iff.mp h
  have hsent : .sendto b ∈ sent := by
    split at h
    · rw [← (Prod.mk.inj (Option.some.inj h)).2] at hmem
      exact hmem
    · rw [← (Prod.mk.inj (Option.some.inj h)).2] at hmem
      refine (List.mem_append.mp hmem).resolve_right fun hreplay => ?_
      split_ifs at hreplay
      · simp [replay] at hreplay
      · cases hreplay
  rw [sendMsg_sub sought hready.fits.pUuid hfit, Option.some.injEq] at hask
  subst hask
  obtain rfl := Output.sendto.inj (List.mem_singleton.mp hsent)
  exact (says_sub sought hlen).mono fun _ => allowed_of_asks

/-- The answer to a discovery request. -/
theorem says_datagram (hready : d.OwnReady) {g : Datagram} (h : d.perform (.datagram g) = some (d', out))
    (hb : b ∈ transmitted out) : Says d.pUuid b (d.Allowed (.datagram g)) := by
  obtain ⟨hmem, hlen⟩ := mem_transmitted.mp hb
  rcases dispatch_cases h with ⟨header, -, -, -, rfl⟩ | ⟨header, body, -, -, hhandle⟩
  · cases hmem
  by_cases hsub : ∃ type m, body = .subscribe type m
  · obtain ⟨type, m, rfl⟩ := hsub
    rw [handle, recvSubscribe_eq, Option.map_eq_some_iff, sendEach_touch, info_touch, pUuid_touch,
      hostAddr_touch] at hhandle
    obtain ⟨o, ho, hpair⟩ := hhandle
    obtain ⟨-, rfl⟩ := Prod.mk.inj hpair
    have hown : ∀ a ∈ ((d.info type).cell m.topic d.pUuid).filter fun a => ¬ Hides d.hostAddr g.fromIp a.scope,
        a ∈ (d.info type).cell m.topic d.pUuid := fun a ha => List.mem_of_mem_filter ha
    rw [sendEach_eq (advType_mem type) hready.fits.pUuid fun a ha =>
      ⟨hready.fits.topic type m.topic (List.ne_nil_of_mem (hown a ha)),
        hready.fits.entry type m.topic a (hown a ha)⟩, Option.some.injEq] at ho
    subst ho
    obtain ⟨a, ha, hsent⟩ := List.mem_map.mp hmem
    exact (says_entry hready.fits (hown a ha) hsent hlen).mono fun _ => allowed_adv (.inr (hown a ha))
  · rw [out_handle_of_ne_subscribe hhandle fun type m hb => hsub ⟨type, m, hb⟩] at hmem
    exact absurd hmem (sendto_not_mem_callbacks _ _ _ _ b)

theorem says_heartbeat (hready : d.OwnReady) (h : d.heartbeat = some (d', out)) (hb : b ∈ transmitted out) :
    Says d.pUuid b (d.Allowed .heartbeat) := by
  obtain ⟨hmem, hlen⟩ := mem_transmitted.mp hb
  rw [heartbeat_eq hready.fits, Option.some.injEq, Prod.mk.injEq] at h
  obtain ⟨-, rfl⟩ := h
  have hentry : ∀ type, .sendto b ∈ (d.ownEntries type).map (d.entrySent (advType type)) →
      Says d.pUuid b (d.Allowed .heartbeat) := by
    intro type hmem
    obtain ⟨e, he, hsent⟩ := List.mem_map.mp hmem
    have hown := mem_ownEntries.mp he
    exact (says_entry hready.fits hown hsent hlen).mono fun _ => allowed_adv (.inr hown)
  rcases List.mem_cons.mp hmem with hmem | hmem
  · refine (says_header (by decide) (Output.sendto.inj hmem) hlen).mono fun body hbody => ?_
    rcases hbody with rfl | ⟨rfl, -⟩ <;> exact trivial
  · exact (List.mem_append.mp hmem).elim (hentry .msg) (hentry .srv)

/-- **What an operation puts on the wire says only what it may say.** -/
theorem says_perform (hready : d.OwnReady) (hfit : op.Fits) (h : d.perform op = some (d', out))
    (hb : b ∈ transmitted out) : Says d.pUuid b (d.Allowed op) := by
  cases op with
  | advertise type topic addr ctrl nUuid scope => exact says_advertise hready hfit h hb
  | unadvertise type topic nUuid => exact says_unadvertise hready h hb
  | discover topic isSrv => exact says_discover hready hfit h hb
  | datagram g => exact says_datagram hready h hb
  | heartbeat => exact says_heartbeat hready h hb
  | sweep now =>
    obtain ⟨p, -, heq⟩ := (mem_out_sweep h _).mp (mem_transmitted.mp hb).1
    cases heq
  | setConnectionsCb type set =>
    obtain ⟨-, rfl⟩ := Prod.mk.inj (Option.some.inj h)
    cases hb
  | setDisconnectionsCb type set =>
    obtain ⟨-, rfl⟩ := Prod.mk.inj (Option.some.inj h)
    cases hb
  | setSilenceInterval ms =>
    obtain ⟨-, rfl⟩ := Prod.mk.inj (Option.some.inj h)
    cases hb

/-- What the destructor broadcasts when its threads have ended. -/
def destroy (d : Discovery) : Option (List Output) := d.sendMsg ByeType [] [] [] [] .all

theorem says_destroy (hp : d.pUuid.length < 2 ^ 31 - 13) (h : d.destroy = some out) (hb : b ∈ transmitted out) :
    Says d.pUuid b fun body => body = .bye ∨ body = .unknown ∧ d.pUuid = [] := by
  obtain ⟨hmem, hlen⟩ := mem_transmitted.mp hb
  rw [destroy, sendMsg_header (by decide) hp, Option.some.injEq] at h
  subst h
  exact says_header (by decide) (Output.sendto.inj (List.mem_singleton.mp hmem)) hlen

end Operations

/-! ## Listeners -/

section Listeners

variable {d d' : Discovery} {type : MsgType} {t : Str} {a : Address}

/-- A message is handled, whatever it is. -/
theorem isSome_handle_of_ready {d : Discovery} (hready : d.OwnReady) (fromIp q : Str) (now : Timestamp) (body : Body) :
    ((d.touch q now).handle fromIp q body).isSome := by
  refine (isSome_handle _ _ _ _).mpr fun type m hbody => ?_
  rw [sendEach_touch, info_touch, pUuid_touch, hostAddr_touch,
    sendEach_eq (advType_mem type) hready.fits.pUuid fun a ha => ?_]
  · rfl
  · have hown := List.mem_of_mem_filter ha
    exact ⟨hready.fits.topic type m.topic (List.ne_nil_of_mem hown), hready.fits.entry type m.topic a hown⟩

theorem mem_addEntry_of_mem {l : List Address} (x : Address) (ha : a ∈ l) : a ∈ TopicStorage.addEntry l x := by
  unfold TopicStorage.addEntry
  split_ifs
  · exact ha
  · exact List.mem_append_left _ ha

theorem exists_mem_addEntry (l : List Address) (x : Address) :
    ∃ b ∈ TopicStorage.addEntry l x, b.addr = x.addr ∧ b.nUuid = x.nUuid := by
  unfold TopicStorage.addEntry
  split_ifs with h
  · exact h
  · exact ⟨x, List.mem_append_right _ (List.mem_singleton.mpr rfl), rfl, rfl⟩

/-- What a message makes go. -/
theorem lost_apply {hostAddr fromIp : Str} {v : Peer} {body : Body} (ha : a ∈ v.entries type t)
    (hgone : a ∉ (v.apply hostAddr fromIp body).entries type t) : body = .bye ∨
      ∃ m, body = .unadvertise type m ∧ m.topic = t ∧ m.nUuid = a.nUuid ∧ m.scope ≠ .process := by
  cases body with
  | advertise type' m =>
    simp only [Peer.apply] at hgone
    split_ifs at hgone with hh
    · exact absurd ha hgone
    · rw [Peer.entries_edit] at hgone
      split_ifs at hgone
      · exact absurd (mem_addEntry_of_mem _ ha) hgone
      · exact absurd ha hgone
  | unadvertise type' m =>
    simp only [Peer.apply] at hgone
    split_ifs at hgone with hh
    · exact absurd ha hgone
    · rw [Peer.entries_edit] at hgone
      split_ifs at hgone with hc
      · obtain ⟨rfl, rfl⟩ := hc
        refine .inr ⟨m, rfl, rfl, ?_, (not_hides_iff.mp hh).1⟩
        by_contra hne
        exact hgone (List.mem_filter.mpr ⟨ha, by simpa using Ne.symm hne⟩)
      · exact absurd ha hgone
  | bye => exact .inl rfl
  | _ => exact absurd ha hgone

/-- The message of an entry makes its reader know the entry. -/
theorem known_of_recv {d d' : Discovery} {p : Str} {g : Buffer} {m : AdvertiseMsg} (hne : p ≠ d.pUuid)
    (hspoken : Says p g fun body => body = .advertise type m) {fromIp : Str} {now : Timestamp} {rcvStr : Buffer}
    (hstr : rcvStr.length = MaxRcvStr) (hshown : ¬ Hides d.hostAddr fromIp m.scope) {o : List Output}
    (hrecv : d.recvDiscoveryUpdate fromIp now g rcvStr = some (d', o)) :
    ∃ b ∈ (d'.info type).cell m.topic p, b.addr = m.addr ∧ b.nUuid = m.nUuid := by
  rcases recv_says (d := d) hspoken fromIp now hstr with ⟨hown, -⟩ | ⟨-, header, body, -, rfl, -, hother⟩
  · exact absurd hown hne
  · rw [hother] at hrecv
    rw [cell_handle hrecv, if_pos rfl, hostAddr_touch]
    simp only [Peer.apply, if_neg hshown, Peer.entries_edit, and_self, if_true]
    exact exists_mem_addEntry _ (Peer.addressOf m)

/-- What the datagram of an own entry says. -/
theorem says_entry_advertise {d : Discovery} (hfits : SenderFits d) (ha : a ∈ (d.info type).cell t d.pUuid)
    (hsend : Sendable (d.entryMsg (advType type) t a)) :
    Says d.pUuid (advDatagram (d.entryMsg (advType type) t a)) fun body =>
      body = .advertise type (advertiseOf ((d.entryMsg (advType type) t a).body,
        (d.entryMsg (advType type) t a).msgTypeName)) := by
  have hlen : (advDatagram (d.entryMsg (advType type) t a)).length ≤ maxPayload := by
    rw [length_advDatagram]
    exact hsend.2
  refine (says_entry hfits ha rfl hlen).mono fun body hbody => ?_
  rcases hbody with ⟨-, rfl⟩ | ⟨hnot, -⟩
  · exact bodyOf_advType type _
  · exact absurd hsend hnot

end Listeners

/-! ## Operations that return -/

section Returning

variable {d : Discovery}

theorem isSome_advertise (hp : d.pUuid.length < 2 ^ 31 - 13) {type : MsgType} {topic addr ctrl nUuid : Str}
    {scope : Scope} (hfit : (Op.advertise type topic addr ctrl nUuid scope).Fits) :
    (d.advertise type topic addr ctrl nUuid scope).isSome := by
  have hmsg : (d.advMsg (advType type) topic addr ctrl nUuid scope 0).Fits := fits_advMsg hp hfit.1 hfit.2
  have hsend := sendMsg_adv (advType_mem type) hmsg
  by_cases hscope : scope = .process
  · exact Option.isSome_iff_exists.mpr ⟨_, advertise_eq_some.mpr ⟨rfl, if_pos hscope⟩⟩
  · exact Option.isSome_iff_exists.mpr ⟨_, advertise_eq_some.mpr ⟨rfl, (if_neg hscope).trans hsend⟩⟩

/-- `Unadvertise` announces an entry that could be announced. -/
theorem isSome_unadvertise_of_ready (hready : d.OwnReady) (type : MsgType) (topic nUuid : Str) :
    (d.unadvertise type topic nUuid).isSome := by
  refine isSome_unadvertise (fun type t a ha _ => ?_) type topic nUuid
  rw [sendMsg_adv (advType_mem type) (fits_advMsg hready.fits.pUuid
    (hready.fits.topic type t (List.ne_nil_of_mem ha)) (hready.fits.entry type t a ha))]
  rfl

theorem isSome_discover (hp : d.pUuid.length < 2 ^ 31 - 13) {topic : Str} (htopic : topic.length < 2 ^ 31)
    (isSrv : Bool) : (d.discover topic isSrv).isSome := by
  unfold discover
  rw [show (if isSrv then MsgType.srv else .msg) = soughtType isSrv from rfl]
  generalize soughtType isSrv = type
  dsimp only
  rw [sendMsg_sub type hp htopic]
  cases (d.info type).getAddresses topic <;> rfl

/-- **An operation returns**, but for the sweep of an instance without a disconnection callback. -/
theorem isSome_perform (hready : d.OwnReady) {op : Op} (hfit : op.Fits) (hdatagram : ∀ g, op ≠ .datagram g)
    (hsweep : ∀ now, op = .sweep now → d.disconnectionCb = true) : (d.perform op).isSome := by
  cases op with
  | advertise type topic addr ctrl nUuid scope => exact isSome_advertise hready.fits.pUuid hfit
  | unadvertise type topic nUuid => exact isSome_unadvertise_of_ready hready type topic nUuid
  | discover topic isSrv => exact isSome_discover hready.fits.pUuid hfit isSrv
  | datagram g => exact absurd rfl (hdatagram g)
  | heartbeat => exact congrArg Option.isSome (heartbeat_eq hready.fits)
  | sweep now => exact isSome_sweepFrom now _ (hsweep now rfl)
  | _ => rfl

theorem isSome_destroy (hp : d.pUuid.length < 2 ^ 31 - 13) : d.destroy.isSome := by
  rw [destroy, sendMsg_header (by decide) hp]
  rfl

end Returning

end Discovery

end IgnTransport
