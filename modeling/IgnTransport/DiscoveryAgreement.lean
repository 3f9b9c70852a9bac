import Mathlib
import IgnTransport.DiscoveryRun

/-!
# IgnTransport.DiscoveryAgreement — does a peer know what a process advertises?

Two instances: the sender advertises, unadvertises and sends heartbeats, the receiver gets every datagram once and in
order.  `discovery_agreement_iff` says exactly which runs keep the receiver's entries for the sender equal to what the
sender stores for itself and shows: `AddAddress` ignores a change of scope that is nevertheless announced, and
`Unadvertise` announces the withdrawal of all entries of a node under the scope of the first.
-/

namespace IgnTransport

open Lib

namespace Discovery

/-! ## The link -/

section Link

/-- The largest payload of a UDP datagram; `sendto` fails above it. -/
def maxPayload : ℕ := 65507

/-- The datagrams that leave the host. -/
def transmitted (out : List Output) : List Buffer :=
  out.filterMap fun
    | .sendto b => if b.length ≤ maxPayload then some b else none
    | _ => none

/-- Two instances and the datagrams between them. -/
structure Link where
  sender : Discovery
  receiver : Discovery
  inFlight : List Buffer := []

/-- What happens on a link. -/
inductive LinkEvent where
  | advertise (type : MsgType) (topic addr ctrl nUuid : Str) (scope : Scope)
  | unadvertise (type : MsgType) (topic nUuid : Str)
  | heartbeat
  /-- The receiver gets the next datagram, in a `rcvStr` that held something. -/
  | deliver (now : Timestamp) (rcvStr : Buffer)
  /-- Anything else at the receiver, except that it expires nothing and that only the link delivers datagrams of
  the sender. -/
  | other (op : Op)
  deriving DecidableEq, Repr

/-- Nothing expires, and no datagram of `pUuid` is delivered. -/
def Op.Unrelated (pUuid : Str) : Op → Prop
  | .sweep _ => False
  | .datagram g => g.sender ≠ some pUuid
  | _ => True

instance (pUuid : Str) (op : Op) : Decidable (op.Unrelated pUuid) := by
  cases op <;> unfold Op.Unrelated <;> infer_instance

namespace Link

/-- The sender after an operation, and what it sent on the way. -/
def send (l : Link) (r : Discovery × List Output) : Link :=
  { l with sender := r.1, inFlight := l.inFlight ++ transmitted r.2 }

/-- One step of a link whose sender is at `ip`. -/
def step (ip : Str) (l : Link) : LinkEvent → Option Link
  | .advertise type topic addr ctrl nUuid scope => (l.sender.advertise type topic addr ctrl nUuid scope).map l.send
  | .unadvertise type topic nUuid => (l.sender.unadvertise type topic nUuid).map l.send
  | .heartbeat => l.sender.heartbeat.map l.send
  | .deliver now rcvStr =>
    match l.inFlight with
    | [] => none
    | g :: rest =>
      if rcvStr.length = MaxRcvStr then
        (l.receiver.recvDiscoveryUpdate ip now g rcvStr).map fun r => { l with receiver := r.1, inFlight := rest }
      else none
  | .other op =>
    if op.Unrelated l.sender.pUuid then (l.receiver.step op).map fun d => { l with receiver := d } else none

end Link

end Link

/-! ## What a datagram of the sender says -/

section Datagrams

/-- What an [UN]ADVERTISE message of this type says. -/
def bodyOf (type : UInt8) (m : AdvertiseMsg) : Body :=
  if type = AdvType ∨ type = AdvSrvType then .advertise (if type = AdvType then .msg else .srv) m
  else .unadvertise (if type = UnadvType then .msg else .srv) m

/-- A message of which the receiver can make sense: accepted by `Pack`, and small enough to leave the host. -/
def Sendable (m : AdvertiseMsg) : Prop := m.toAdvertiseBase.Packable ∧ m.encode.length ≤ maxPayload

instance (m : AdvertiseMsg) : Decidable (Sendable m) := by unfold Sendable; infer_instance

/-- A datagram of process `p` that is read, whatever follows it, as a body that acts like `effect` on the entries. -/
def Tells (pUuid p : Str) (g : Buffer) (effect : Str → Str → Peer → Peer) : Prop :=
  g.length ≤ maxPayload ∧ ∀ stale : Buffer, (g ++ stale).length < 2 ^ 31 → ∃ header body,
    readMessage pUuid (g ++ stale) = some (header, some body) ∧ header.pUuid = p ∧
    (∀ type m, body ≠ .subscribe type m) ∧ body ≠ .bye ∧
    ∀ hostAddr fromIp v, Peer.apply hostAddr fromIp v body = effect hostAddr fromIp v

theorem replicate_split {n k : ℕ} (h : k ≤ n) :
    List.replicate n (0 : UInt8) = List.replicate k 0 ++ List.replicate (n - k) 0 := by
  rw [← List.replicate_add, Nat.add_sub_cancel' h]

theorem encode_zero_header : headerCodec.encode {} = List.replicate 13 0 := by decide

theorem encode_zero_body :
    msgCodec.encode (([], [], [], [], Scope.process), []) = List.replicate 41 0 := by decide

theorem apply_advertiseOf (hostAddr fromIp : Str) (v : Peer) (type : UInt8) (m : AdvertiseMsg) :
    Peer.apply hostAddr fromIp v (bodyOf type (advertiseOf (m.body, m.msgTypeName))) =
      Peer.apply hostAddr fromIp v (bodyOf type m) := by
  unfold bodyOf
  split_ifs <;> rfl

theorem decodeBody_adv {type : UInt8} (htype : type ∈ [AdvType, UnadvType, AdvSrvType, UnadvSrvType])
    (bytes : List UInt8) :
    decodeBody type bytes = (msgCodec.decode bytes).map fun r => bodyOf type (advertiseOf r.1) := by
  simp only [List.mem_cons, List.not_mem_nil, or_false] at htype
  rcases htype with rfl | rfl | rfl | rfl <;> rfl

theorem length_sentHeader (h : Header) : (sentHeader h).length ≤ (headerCodec.encode h).length := by
  unfold sentHeader
  split_ifs
  · exact Nat.le_refl _
  · exact Nat.zero_le _

theorem length_advDatagram (m : AdvertiseMsg) : (advDatagram m).length = m.encode.length := by
  unfold advDatagram
  split_ifs
  · rfl
  · rw [List.length_append, List.length_replicate]
    exact Nat.add_sub_cancel' ((length_sentHeader _).trans (room_header rfl))

/-- Nothing but zeros: a message without a type, from a process without a UUID. -/
theorem readMessage_zeros {pUuid : Str} (hne : [] ≠ pUuid) {n : ℕ} (hn : 13 ≤ n) {stale : Buffer}
    (hlen : (List.replicate n 0 ++ stale).length < 2 ^ 31) :
    readMessage pUuid (List.replicate n 0 ++ stale) = some ({}, some .unknown) := by
  rw [readMessage_of_decode hlen, replicate_split hn, List.append_assoc, ← encode_zero_header,
    headerCodec.decode_encode (valid_header.mpr (by decide)), Option.bind_some, if_neg hne]
  rfl

/-- A header of the sender and what its type calls for. -/
theorem readMessage_encode {pUuid : Str} {h : Header} (hne : h.pUuid ≠ pUuid) {rest : Buffer}
    (hlen : (headerCodec.encode h ++ rest).length < 2 ^ 31) :
    readMessage pUuid (headerCodec.encode h ++ rest) =
      (decodeBody h.type rest).map fun body => (h, some body) := by
  have hvalid : headerCodec.Valid h := valid_header.mpr (by
    rw [List.length_append, length_encode_header] at hlen
    omega)
  rw [readMessage_of_decode hlen, headerCodec.decode_encode hvalid, Option.bind_some, if_neg hne]

theorem bodyOf_ne (type : UInt8) (m : AdvertiseMsg) :
    (∀ t s, bodyOf type m ≠ .subscribe t s) ∧ bodyOf type m ≠ .bye := by
  unfold bodyOf
  split_ifs <;> exact ⟨by simp, by simp⟩

/-- The body of zeros has scope 'Process'. -/
theorem apply_zero_body (hostAddr fromIp : Str) (v : Peer) (type : UInt8) :
    Peer.apply hostAddr fromIp v (bodyOf type (advertiseOf (([], [], [], [], Scope.process), []))) = v := by
  have hhides : Hides hostAddr fromIp Scope.process := .inl rfl
  unfold bodyOf
  split_ifs
  all_goals
    simp only [Peer.apply, advertiseOf, AdvertiseBase.withBody]
    exact if_pos hhides

/-- What a peer reads in the datagram of an [UN]ADVERTISE message: the message, if `Pack` accepts it, or a body of
zeros behind a complete header, or nothing but zeros. -/
theorem read_advDatagram {pUuid : Str} {m : AdvertiseMsg} (hne : m.header.pUuid ≠ pUuid)
    (hversion : m.header.version ≠ 0)
    (htype : m.header.type ∈ [AdvType, UnadvType, AdvSrvType, UnadvSrvType]) (hfit : m.Fits) {stale : Buffer}
    (hstale : (advDatagram m ++ stale).length < 2 ^ 31) :
    (m.toAdvertiseBase.Packable ∧ readMessage pUuid (advDatagram m ++ stale) =
      some (m.header, some (bodyOf m.header.type (advertiseOf (m.body, m.msgTypeName))))) ∨
    (¬ m.toAdvertiseBase.Packable ∧ m.header.Complete ∧ readMessage pUuid (advDatagram m ++ stale) =
      some (m.header, some (bodyOf m.header.type (advertiseOf (([], [], [], [], Scope.process), []))))) ∨
    (¬ m.toAdvertiseBase.Packable ∧ m.header.pUuid = [] ∧
      readMessage pUuid (advDatagram m ++ stale) = some ({}, some .unknown)) := by
  by_cases hp : m.toAdvertiseBase.Packable
  · rw [advDatagram, if_pos hp, AdvertiseMsg.encode, List.append_assoc] at hstale ⊢
    refine .inl ⟨hp, ?_⟩
    rw [readMessage_encode hne hstale, decodeBody_adv htype,
      msgCodec.decode_encode ⟨hfit.1.valid, valid_str.mpr (lt_64_of_lt_31 hfit.2)⟩]
    rfl
  · have hroom : 41 ≤ (msgCodec.encode (m.body, m.msgTypeName)).length := by
      rw [msgCodec, Codec.encode_pair, List.length_append, length_encode_base, length_encode_str]
      omega
    rw [advDatagram, if_neg hp, List.append_assoc] at hstale ⊢
    by_cases hc : m.header.Complete
    · have hzeros : 41 ≤ m.encode.length - (sentHeader m.header).length := by
        rw [sentHeader, if_pos hc, AdvertiseMsg.encode, List.length_append, Nat.add_sub_cancel_left]
        exact hroom
      rw [sentHeader, if_pos hc] at hstale hzeros ⊢
      refine .inr (.inl ⟨hp, hc, ?_⟩)
      rw [readMessage_encode hne hstale, decodeBody_adv htype, replicate_split hzeros, List.append_assoc,
        ← encode_zero_body, msgCodec.decode_encode ⟨valid_base.mpr (by decide), valid_str.mpr (by decide)⟩]
      rfl
    · -- the process has no UUID: not even the header was written
      have hnil : m.header.pUuid = [] := by
        by_contra hnil
        refine hc ⟨hversion, hnil, fun h0 => ?_⟩
        rw [h0] at htype
        exact absurd htype (by decide)
      have hn : 13 ≤ m.encode.length := by
        rw [AdvertiseMsg.encode, List.length_append, length_encode_header]
        omega
      rw [sentHeader, if_neg hc, List.nil_append, List.length_nil, Nat.sub_zero] at hstale ⊢
      exact .inr (.inr ⟨hp, hnil, readMessage_zeros (hnil ▸ hne) hn hstale⟩)

/-- What a peer makes of the datagram of an [UN]ADVERTISE message. -/
theorem tells_advDatagram (pUuid : Str) {m : AdvertiseMsg} (hne : m.header.pUuid ≠ pUuid)
    (hversion : m.header.version ≠ 0)
    (htype : m.header.type ∈ [AdvType, UnadvType, AdvSrvType, UnadvSrvType]) (hfit : m.Fits)
    (hlen : (advDatagram m).length ≤ maxPayload) :
    Tells pUuid m.header.pUuid (advDatagram m) fun hostAddr fromIp v =>
      if Sendable m then Peer.apply hostAddr fromIp v (bodyOf m.header.type m) else v := by
  refine ⟨hlen, fun stale hstale => ?_⟩
  rcases read_advDatagram hne hversion htype hfit hstale with ⟨hp, hread⟩ | ⟨hp, -, hread⟩ | ⟨hp, hnil, hread⟩
  · have hsend : Sendable m := ⟨hp, by rw [← length_advDatagram]; exact hlen⟩
    refine ⟨_, _, hread, rfl, (bodyOf_ne _ _).1, (bodyOf_ne _ _).2, fun hostAddr fromIp v => ?_⟩
    simp only [if_pos hsend, apply_advertiseOf]
  · have hsend : ¬ Sendable m := fun h => hp h.1
    refine ⟨_, _, hread, rfl, (bodyOf_ne _ _).1, (bodyOf_ne _ _).2, fun hostAddr fromIp v => ?_⟩
    simp only [if_neg hsend, apply_zero_body]
  · have hsend : ¬ Sendable m := fun h => hp h.1
    refine ⟨_, _, hread, hnil.symm, by simp, by simp, fun hostAddr fromIp v => ?_⟩
    simp only [if_neg hsend]
    rfl

/-- A heartbeat says nothing about topics. -/
theorem tells_heartbeat {pUuid : Str} {h : Header} (hne : h.pUuid ≠ pUuid) (hversion : h.version ≠ 0)
    (htype : h.type = HeartbeatType) {n : ℕ} (hn : n = 13 + h.pUuid.length - (sentHeader h).length)
    (hlen : (sentHeader h ++ List.replicate n 0).length ≤ maxPayload) :
    Tells pUuid h.pUuid (sentHeader h ++ List.replicate n 0) fun _ _ v => v := by
  refine ⟨hlen, fun stale hstale => ?_⟩
  rw [List.append_assoc] at hstale ⊢
  by_cases hc : h.Complete
  · rw [sentHeader, if_pos hc] at hstale ⊢
    refine ⟨h, .heartbeat, ?_, rfl, by simp, by simp, fun _ _ _ => rfl⟩
    rw [readMessage_encode hne hstale, htype]
    rfl
  · have hnil : h.pUuid = [] := by
      by_contra hnil
      exact hc ⟨hversion, hnil, by rw [htype]; decide⟩
    rw [sentHeader, if_neg hc, List.length_nil, hnil, List.length_nil] at hn
    rw [sentHeader, if_neg hc, List.nil_append] at hstale ⊢
    exact ⟨{}, .unknown, readMessage_zeros (hnil ▸ hne) (by omega) hstale, hnil.symm, by simp, by simp,
      fun _ _ _ => rfl⟩

end Datagrams

/-! ## What the receiver will know -/

section Effects

/-- What a datagram does to the entries of its sender. -/
def effect (pUuid : Str) (g : Buffer) (hostAddr fromIp : Str) (v : Peer) : Peer :=
  match readMessage pUuid g with
  | some (_, some body) => Peer.apply hostAddr fromIp v body
  | _ => v

theorem Tells.eq_effect {pUuid p : Str} {g : Buffer} {F : Str → Str → Peer → Peer} (h : Tells pUuid p g F) :
    effect pUuid g = F := by
  obtain ⟨hlen, hread⟩ := h
  have hshort : (g ++ []).length < 2 ^ 31 := by
    rw [List.append_nil]
    exact Nat.lt_of_le_of_lt hlen (by decide)
  obtain ⟨header, body, hread, -, -, -, happly⟩ := hread [] hshort
  rw [List.append_nil] at hread
  funext hostAddr fromIp v
  simp only [effect, hread, happly]

/-- A message acts on the entries of a peer, whenever that was last heard. -/
theorem entries_apply (hostAddr fromIp : Str) (v : Peer) (last : Option Timestamp) (body : Body) :
    (Peer.apply hostAddr fromIp { v with lastHeard := last } body).entries =
      (Peer.apply hostAddr fromIp v body).entries := by
  cases body with
  | advertise type m => simp only [Peer.apply]; split_ifs <;> rfl
  | unadvertise type m => simp only [Peer.apply]; split_ifs <;> rfl
  | _ => rfl

theorem entries_effect {pUuid : Str} {g : Buffer} {hostAddr fromIp : Str} {v w : Peer}
    (h : v.entries = w.entries) : (effect pUuid g hostAddr fromIp v).entries =
      (effect pUuid g hostAddr fromIp w).entries := by
  have hv : v = { w with lastHeard := v.lastHeard } := by
    ext1
    · exact h
    · rfl
  unfold effect
  split
  · rw [hv, entries_apply]
  · exact h

theorem entries_foldl_effect {pUuid hostAddr fromIp : Str} {gs : List Buffer} {v w : Peer}
    (h : v.entries = w.entries) : (gs.foldl (fun v g => effect pUuid g hostAddr fromIp v) v).entries =
      (gs.foldl (fun v g => effect pUuid g hostAddr fromIp v) w).entries := by
  induction gs generalizing v w with
  | nil => exact h
  | cons g gs ih => exact ih (entries_effect h)

/-- A datagram of the sender is received, and does to the sender's entries what it says. -/
theorem recvDiscoveryUpdate_tells {d : Discovery} {p : Str} {g : Buffer} {F : Str → Str → Peer → Peer}
    (h : Tells d.pUuid p g F) (fromIp : Str) (now : Timestamp) {rcvStr : Buffer}
    (hstr : rcvStr.length = MaxRcvStr) :
    ∃ r, d.recvDiscoveryUpdate fromIp now g rcvStr = some r ∧ r.1.fixed = d.fixed ∧
      (r.1.peer p).entries = (effect d.pUuid g d.hostAddr fromIp (d.peer p)).entries := by
  have heff := h.eq_effect
  obtain ⟨hlen, hread⟩ := h
  have hlen' : g.length ≤ MaxRcvStr := hlen.trans (by decide)
  have hbuf : (g ++ rcvStr.drop g.length).length < 2 ^ 31 := by
    rw [List.length_append, List.length_drop, hstr]
    unfold MaxRcvStr at hlen' ⊢
    omega
  obtain ⟨header, body, hread, hp, hsub, -, happly⟩ := hread _ hbuf
  obtain ⟨r, hr⟩ := Option.isSome_iff_exists.mp
    ((isSome_handle (d.touch header.pUuid now) fromIp header.pUuid body).mpr
      fun type m hb => absurd hb (hsub type m))
  have hdisp : d.recvDiscoveryUpdate fromIp now g rcvStr = some r := by
    rw [recvDiscoveryUpdate, List.take_of_length_le hlen', dispatch_eq_readMessage, hread]
    exact hr
  have hdisp' : d.dispatchDiscoveryMsg fromIp now (g ++ rcvStr.drop g.length) = some (r.1, r.2) := by
    rw [recvDiscoveryUpdate, List.take_of_length_le hlen'] at hdisp
    exact hdisp
  obtain ⟨hfixed, hpeer⟩ := peer_dispatch hread hdisp'
  refine ⟨r, hdisp, hfixed, ?_⟩
  rw [hpeer p, if_pos hp.symm, entries_apply, heff, happly]

end Effects

/-! ## Agreement -/

section Agreement

namespace Link

variable (ip : Str) (l : Link)

/-- The receiver may see an entry of this scope. -/
def Visible (scope : Scope) : Prop := ¬ Hides l.receiver.hostAddr ip scope

/-- The sender has an entry of the node for the topic that the receiver may see. -/
def Shows (type : MsgType) (topic nUuid : Str) : Prop :=
  ∃ a ∈ (l.sender.info type).cell topic l.sender.pUuid, a.nUuid = nUuid ∧ l.Visible ip a.scope

/-- The receiver has an entry of the sender's node for the topic. -/
def Knows (type : MsgType) (topic nUuid : Str) : Prop :=
  ∃ a ∈ (l.receiver.info type).cell topic l.sender.pUuid, a.nUuid = nUuid

/-- The receiver knows what the sender shows, for messages and for services. -/
def Agrees : Prop := ∀ type topic nUuid, l.Knows type topic nUuid ↔ l.Shows ip type topic nUuid

/-- The receiver agrees once everything in flight has been delivered. -/
def Settles : Prop :=
  ∀ ds l', (∀ e ∈ ds, ∃ now rcvStr, e = .deliver now rcvStr) → run (step ip) l ds = some l' →
    l'.inFlight = [] → l'.Agrees ip

/-- The condition on a step: an entry that the receiver may see is announced exactly when it is new to the sender, or
the node was shown already; a shown node is withdrawn under a scope that the receiver may see. -/
def Faithful : LinkEvent → Prop
  | .advertise type topic addr ctrl nUuid scope =>
    l.Visible ip scope → l.Shows ip type topic nUuid ∨
      (Sendable (l.sender.advMsg (advType type) topic addr ctrl nUuid scope 0) ↔
        ¬ (l.sender.info type).Known topic l.sender.pUuid nUuid addr)
  | .unadvertise type topic nUuid =>
    ∀ inf, (l.sender.info type).getAddress topic l.sender.pUuid nUuid = some inf →
      l.Shows ip type topic nUuid → l.Visible ip inf.scope ∧
        Sendable (l.sender.advMsg (unadvType type) topic inf.addr inf.ctrl nUuid inf.scope 0)
  | _ => True

instance (scope : Scope) : Decidable (l.Visible ip scope) := by unfold Visible; infer_instance

instance (type : MsgType) (topic nUuid : Str) : Decidable (l.Shows ip type topic nUuid) := by
  unfold Shows; infer_instance

instance (e : LinkEvent) : Decidable (l.Faithful ip e) := by
  unfold Faithful
  cases e with
  | unadvertise type topic nUuid =>
    cases hget : (l.sender.info type).getAddress topic l.sender.pUuid nUuid with
    | none => exact isTrue (by simp [hget])
    | some inf =>
      exact decidable_of_iff (l.Shows ip type topic nUuid → l.Visible ip inf.scope ∧
        Sendable (l.sender.advMsg (unadvType type) topic inf.addr inf.ctrl nUuid inf.scope 0)) (by simp [hget])
  | _ => dsimp only; infer_instance

/-- The sender's peer as the receiver will know it when everything in flight has been delivered. -/
def settled : Peer :=
  l.inFlight.foldl (fun v g => effect l.receiver.pUuid g l.receiver.hostAddr ip v)
    (l.receiver.peer l.sender.pUuid)

end Link

/-! ### Entries of a node -/

theorem mem_addEntry_visible {l : List Address} {x : Address} {n : Str} {P : Scope → Prop} :
    (∃ a ∈ TopicStorage.addEntry l x, a.nUuid = n ∧ P a.scope) ↔
      (∃ a ∈ l, a.nUuid = n ∧ P a.scope) ∨
        (n = x.nUuid ∧ P x.scope ∧ ¬ ∃ b ∈ l, b.addr = x.addr ∧ b.nUuid = x.nUuid) := by
  unfold TopicStorage.addEntry
  split_ifs with h
  · simp [h]
  · simp only [List.mem_append, List.mem_singleton, h, not_false_eq_true, and_true]
    constructor
    · rintro ⟨a, ha | rfl, hn, hP⟩
      · exact .inl ⟨a, ha, hn, hP⟩
      · exact .inr ⟨hn.symm, hP⟩
    · rintro (⟨a, ha, hn, hP⟩ | ⟨rfl, hP⟩)
      · exact ⟨a, .inl ha, hn, hP⟩
      · exact ⟨x, .inr rfl, rfl, hP⟩

/-! ### Sending -/

/-- The strings of a process and of what it advertises, topics included, are short enough to be packed. -/
structure SenderFits (d : Discovery) : Prop where
  pUuid : d.pUuid.length < 2 ^ 31 - 13
  topic : ∀ type t, (d.info type).cell t d.pUuid ≠ [] → t.length < 2 ^ 31
  entry : ∀ type t, ∀ a ∈ (d.info type).cell t d.pUuid,
    a.addr.length < 2 ^ 31 ∧ a.ctrl.length < 2 ^ 31 ∧ a.nUuid.length < 2 ^ 31

theorem fits_advMsg {d : Discovery} {type : UInt8} {topic addr ctrl nUuid : Str} {scope : Scope}
    (hp : d.pUuid.length < 2 ^ 31 - 13) (ht : topic.length < 2 ^ 31)
    (ha : addr.length < 2 ^ 31 ∧ ctrl.length < 2 ^ 31 ∧ nUuid.length < 2 ^ 31) :
    (d.advMsg type topic addr ctrl nUuid scope 0).Fits :=
  ⟨⟨hp, ht, ha.1, ha.2.1, ha.2.2⟩, by simp [advMsg, ascii]⟩

/-- One [UN]ADVERTISE message on its way to a peer. -/
theorem transmitted_adv {d : Discovery} {pUuid : Str} {type : UInt8} {topic addr ctrl nUuid : Str} {scope : Scope}
    {out : List Output} (htype : type ∈ [AdvType, UnadvType, AdvSrvType, UnadvSrvType]) (hne : d.pUuid ≠ pUuid)
    (hfit : (d.advMsg type topic addr ctrl nUuid scope 0).Fits)
    (h : d.sendMsg type topic addr ctrl nUuid scope = some out) :
    (∀ g ∈ transmitted out, Tells pUuid d.pUuid g (effect pUuid g)) ∧
    ∀ hostAddr ip v, (transmitted out).foldl (fun v g => effect pUuid g hostAddr ip v) v =
      if Sendable (d.advMsg type topic addr ctrl nUuid scope 0) then
        Peer.apply hostAddr ip v (bodyOf type (d.advMsg type topic addr ctrl nUuid scope 0))
      else v := by
  rw [sendMsg_adv htype hfit, Option.some.injEq] at h
  subst h
  by_cases hlen : (advDatagram (d.advMsg type topic addr ctrl nUuid scope 0)).length ≤ maxPayload
  · have htells := tells_advDatagram pUuid (m := d.advMsg type topic addr ctrl nUuid scope 0)
      hne (by simp [advMsg, header, Version]) htype hfit hlen
    have heff := htells.eq_effect
    simp only [transmitted, List.filterMap_cons, List.filterMap_nil, if_pos hlen, List.foldl_cons, List.foldl_nil,
      List.forall_mem_singleton, heff]
    exact ⟨htells, fun _ _ _ => rfl⟩
  · have hsend : ¬ Sendable (d.advMsg type topic addr ctrl nUuid scope 0) := fun hs =>
      hlen (by rw [length_advDatagram]; exact hs.2)
    simp only [transmitted, List.filterMap_cons, List.filterMap_nil, if_neg hlen, List.foldl_nil, if_neg hsend]
    exact ⟨by simp, fun _ _ _ => trivial⟩

/-! ### Refreshing -/

/-- The nodes of these entries are the ones that `Q` shows. -/
def AgreesOn (Q : MsgType → Str → Str → Prop) (v : Peer) : Prop :=
  ∀ type topic n, (∃ a ∈ v.entries type topic, a.nUuid = n) ↔ Q type topic n

/-- Datagrams of `p` that a peer can read and that repeat what it knows. -/
def Refreshes (pUuid p hostAddr ip : Str) (Q : MsgType → Str → Str → Prop) (gs : List Buffer) : Prop :=
  (∀ g ∈ gs, Tells pUuid p g (effect pUuid g)) ∧
    ∀ v, AgreesOn Q v → AgreesOn Q (gs.foldl (fun v g => effect pUuid g hostAddr ip v) v)

variable {pUuid hostAddr ip : Str} {Q : MsgType → Str → Str → Prop} {d : Discovery}

theorem refreshes_nil (p : Str) : Refreshes pUuid p hostAddr ip Q [] := ⟨by simp, fun _ h => h⟩

theorem Refreshes.append {p : Str} {gs hs : List Buffer} (hg : Refreshes pUuid p hostAddr ip Q gs)
    (hh : Refreshes pUuid p hostAddr ip Q hs) : Refreshes pUuid p hostAddr ip Q (gs ++ hs) := by
  refine ⟨List.forall_mem_append.mpr ⟨hg.1, hh.1⟩, fun v hv => ?_⟩
  rw [List.foldl_append]
  exact hh.2 _ (hg.2 v hv)

theorem transmitted_append (a b : List Output) : transmitted (a ++ b) = transmitted a ++ transmitted b :=
  List.filterMap_append

/-- An entry that is shown already is announced again. -/
theorem agreesOn_refresh {v : Peer} (hv : AgreesOn Q v) (type : MsgType) (m : AdvertiseMsg)
    (hm : ¬ Hides hostAddr ip m.scope → Q type m.topic m.nUuid) :
    AgreesOn Q (Peer.apply hostAddr ip v (.advertise type m)) := by
  simp only [Peer.apply]
  split_ifs with hh
  · exact hv
  · intro type' topic n
    rw [Peer.entries_edit]
    split_ifs with hc
    · rw [TopicStorage.mem_addEntry_node, hv type' topic n, hc.1, hc.2]
      exact ⟨fun h => h.elim id fun hn => hn ▸ hm hh, .inl⟩
    · exact hv type' topic n

theorem bodyOf_advType (type : MsgType) (m : AdvertiseMsg) : bodyOf (advType type) m = .advertise type m := by
  cases type <;> rfl

theorem bodyOf_unadvType (type : MsgType) (m : AdvertiseMsg) :
    bodyOf (unadvType type) m = .unadvertise type m := by
  cases type <;> rfl

theorem advType_mem (type : MsgType) : advType type ∈ [AdvType, UnadvType, AdvSrvType, UnadvSrvType] := by
  cases type <;> decide

theorem unadvType_mem (type : MsgType) : unadvType type ∈ [AdvType, UnadvType, AdvSrvType, UnadvSrvType] := by
  cases type <;> decide

theorem refreshes_sendEach {type : MsgType} {topic : Str} (hne : d.pUuid ≠ pUuid)
    (hp : d.pUuid.length < 2 ^ 31 - 13) {as : List Address}
    (hfit : ∀ a ∈ as, topic.length < 2 ^ 31 ∧
      a.addr.length < 2 ^ 31 ∧ a.ctrl.length < 2 ^ 31 ∧ a.nUuid.length < 2 ^ 31)
    (hQ : ∀ a ∈ as, ¬ Hides hostAddr ip a.scope → Q type topic a.nUuid) {out : List Output}
    (h : d.sendEach (advType type) topic as = some out) :
    Refreshes pUuid d.pUuid hostAddr ip Q (transmitted out) := by
  induction as generalizing out with
  | nil =>
    rw [sendEach, Option.some.injEq] at h
    exact h ▸ refreshes_nil d.pUuid
  | cons a as ih =>
    simp only [sendEach, bind, pure, Option.bind_eq_some_iff, Option.some.injEq] at h
    obtain ⟨o, ho, os, hos, rfl⟩ := h
    obtain ⟨hfa, hfas⟩ := List.forall_mem_cons.mp hfit
    obtain ⟨hQa, hQas⟩ := List.forall_mem_cons.mp hQ
    obtain ⟨htells, hfold⟩ := transmitted_adv (advType_mem type) hne (fits_advMsg hp hfa.1 hfa.2) ho
    rw [transmitted_append]
    refine Refreshes.append ⟨htells, fun v hv => ?_⟩ (ih hfas hQas hos)
    rw [hfold, bodyOf_advType]
    split_ifs
    · exact agreesOn_refresh hv type _ hQa
    · exact hv

theorem refreshes_sendTopics (type : MsgType) (hne : d.pUuid ≠ pUuid) (hfits : SenderFits d)
    {ts : List (Str × List Address)} (hts : ∀ t ∈ ts, (d.info type).cell t.1 d.pUuid = t.2 ∧ t.2 ≠ [])
    (hQ : ∀ t ∈ ts, ∀ a ∈ t.2, ¬ Hides hostAddr ip a.scope → Q type t.1 a.nUuid) {out : List Output}
    (h : d.sendTopics (advType type) ts = some out) :
    Refreshes pUuid d.pUuid hostAddr ip Q (transmitted out) := by
  induction ts generalizing out with
  | nil =>
    rw [sendTopics, Option.some.injEq] at h
    exact h ▸ refreshes_nil d.pUuid
  | cons t ts ih =>
    simp only [sendTopics, bind, pure, Option.bind_eq_some_iff, Option.some.injEq] at h
    obtain ⟨o, ho, os, hos, rfl⟩ := h
    obtain ⟨⟨hcell, hnil⟩, hts⟩ := List.forall_mem_cons.mp hts
    obtain ⟨hQt, hQts⟩ := List.forall_mem_cons.mp hQ
    rw [transmitted_append]
    refine (refreshes_sendEach hne hfits.pUuid (fun a ha => ?_) hQt ho).append (ih hts hQts hos)
    exact ⟨hfits.topic type t.1 (hcell ▸ hnil), hfits.entry type t.1 a (hcell ▸ ha)⟩

/-- A heartbeat round repeats what is shown. -/
theorem refreshes_heartbeat {d' : Discovery} {out : List Output} (hne : d.pUuid ≠ pUuid) (hfits : SenderFits d)
    (hQ : ∀ type t, ∀ a ∈ (d.info type).cell t d.pUuid, ¬ Hides hostAddr ip a.scope → Q type t a.nUuid)
    (h : d.heartbeat = some (d', out)) : Refreshes pUuid d.pUuid hostAddr ip Q (transmitted out) := by
  unfold heartbeat at h
  simp only [bind, pure, Option.bind_eq_some_iff, Option.some.injEq, Prod.mk.injEq] at h
  obtain ⟨o, ho, msgs, hmsgs, srvs, hsrvs, -, rfl⟩ := h
  rw [transmitted_append, transmitted_append]
  have htopics : ∀ type, ∀ t ∈ (d.info type).getAddressesByProc d.pUuid,
      (d.info type).cell t.1 d.pUuid = t.2 ∧ t.2 ≠ [] := fun type t ht =>
    (TopicStorage.mem_getAddressesByProc (d.info type) t.1 d.pUuid t.2).mp ht
  have hQ' : ∀ type, ∀ t ∈ (d.info type).getAddressesByProc d.pUuid, ∀ a ∈ t.2,
      ¬ Hides hostAddr ip a.scope → Q type t.1 a.nUuid := fun type t ht a ha =>
    hQ type t.1 a ((htopics type t ht).1 ▸ ha)
  refine (Refreshes.append ?_ (refreshes_sendTopics .msg hne hfits (htopics .msg) (hQ' .msg) hmsgs)).append
    (refreshes_sendTopics .srv hne hfits (htopics .srv) (hQ' .srv) hsrvs)
  rw [sendMsg_header (by decide) hfits.pUuid, Option.some.injEq] at ho
  subst ho
  simp only [transmitted, List.filterMap_cons, List.filterMap_nil]
  split_ifs with hlen
  · have htells : Tells pUuid d.pUuid (sentHeader (d.header HeartbeatType 0) ++
        List.replicate (13 + d.pUuid.length - (sentHeader (d.header HeartbeatType 0)).length) 0) fun _ _ v => v :=
      tells_heartbeat (h := d.header HeartbeatType 0) hne (by simp [header, Version]) rfl rfl hlen
    refine ⟨by simpa using htells.eq_effect ▸ htells, fun v hv => ?_⟩
    rw [List.foldl_cons, List.foldl_nil, htells.eq_effect]
    exact hv
  · exact refreshes_nil d.pUuid

/-! ### The invariant -/

/-- The two processes differ, the sender's strings can be packed, and everything in flight can be read. -/
structure Link.Ready (l : Link) : Prop where
  ne : l.sender.pUuid ≠ l.receiver.pUuid
  fits : SenderFits l.sender
  tells : ∀ g ∈ l.inFlight, Tells l.receiver.pUuid l.sender.pUuid g (effect l.receiver.pUuid g)

/-- The strings of an advertised topic are short enough to be packed. -/
def LinkEvent.Fits : LinkEvent → Prop
  | .advertise _ topic addr ctrl nUuid _ =>
    topic.length < 2 ^ 31 ∧ addr.length < 2 ^ 31 ∧ ctrl.length < 2 ^ 31 ∧ nUuid.length < 2 ^ 31
  | _ => True

/-- What a delivery does. -/
theorem deliver_eq_some {ip : Str} {l l' : Link} (hready : l.Ready) {now : Timestamp} {rcvStr : Buffer}
    (h : l.step ip (.deliver now rcvStr) = some l') :
    ∃ g, l.inFlight = g :: l'.inFlight ∧ l'.sender = l.sender ∧ l'.receiver.fixed = l.receiver.fixed ∧
      (l'.receiver.peer l.sender.pUuid).entries =
        (effect l.receiver.pUuid g l.receiver.hostAddr ip (l.receiver.peer l.sender.pUuid)).entries := by
  simp only [Link.step] at h
  cases hfl : l.inFlight with
  | nil => simp [hfl] at h
  | cons g rest =>
    simp only [hfl] at h
    split_ifs at h with hstr
    obtain ⟨r, hr, hfixed, hentries⟩ := recvDiscoveryUpdate_tells
      (hready.tells g (by rw [hfl]; simp)) ip now hstr
    rw [hr, Option.map_some, Option.some.injEq] at h
    subst h
    exact ⟨g, rfl, rfl, hfixed, hentries⟩

theorem ready_deliver {ip : Str} {l l' : Link} (hready : l.Ready) {now : Timestamp} {rcvStr : Buffer}
    (h : l.step ip (.deliver now rcvStr) = some l') :
    l'.Ready ∧ (l'.settled ip).entries = (l.settled ip).entries ∧
      (∀ type t n, l'.Shows ip type t n ↔ l.Shows ip type t n) := by
  obtain ⟨g, hfl, hs, hfixed, hentries⟩ := deliver_eq_some hready h
  have hp := pUuid_of_fixed hfixed
  have hhost := hostAddr_of_fixed hfixed
  refine ⟨⟨by rw [hs, hp]; exact hready.ne, by rw [hs]; exact hready.fits, fun g' hg' => ?_⟩, ?_, ?_⟩
  · rw [hs, hp]
    exact hready.tells g' (by rw [hfl]; exact List.mem_cons_of_mem _ hg')
  · unfold Link.settled
    rw [hfl, hs, hp, hhost, List.foldl_cons]
    exact entries_foldl_effect hentries
  · intro type t n
    unfold Link.Shows Link.Visible
    rw [hs, hhost]

/-- Deliveries change nothing that will be known. -/
theorem settled_deliveries {ip : Str} {l l' : Link} (hready : l.Ready) {ds : List LinkEvent}
    (hds : ∀ e ∈ ds, ∃ now rcvStr, e = .deliver now rcvStr) (h : run (Link.step ip) l ds = some l') :
    l'.Ready ∧ (l'.settled ip).entries = (l.settled ip).entries ∧
      (∀ type t n, l'.Shows ip type t n ↔ l.Shows ip type t n) := by
  induction ds generalizing l with
  | nil =>
    obtain rfl := Option.some.inj h
    exact ⟨hready, rfl, fun _ _ _ => Iff.rfl⟩
  | cons e ds ih =>
    obtain ⟨⟨now, rcvStr, rfl⟩, hrest⟩ := List.forall_mem_cons.mp hds
    obtain ⟨m, hm, hrun⟩ := run_cons_eq_some.mp h
    obtain ⟨hready', hsettled, hshows⟩ := ready_deliver hready hm
    obtain ⟨hready'', hsettled', hshows'⟩ := ih hready' hrest hrun
    exact ⟨hready'', hsettled'.trans hsettled,
      fun type t n => (hshows' type t n).trans (hshows type t n)⟩

/-- Everything in flight can be delivered. -/
theorem exists_deliveries (ip : Str) {l : Link} (hready : l.Ready) :
    ∃ ds l', (∀ e ∈ ds, ∃ now rcvStr, e = .deliver now rcvStr) ∧ run (Link.step ip) l ds = some l' ∧
      l'.inFlight = [] := by
  induction hfl : l.inFlight generalizing l with
  | nil => exact ⟨[], l, by simp, rfl, hfl⟩
  | cons g rest ih =>
    have hstr : (List.replicate MaxRcvStr (0 : UInt8)).length = MaxRcvStr := List.length_replicate
    obtain ⟨r, hr, -⟩ := recvDiscoveryUpdate_tells (hready.tells g (by rw [hfl]; simp)) ip 0 hstr
    have hstep : l.step ip (.deliver 0 (List.replicate MaxRcvStr 0)) =
        some { l with receiver := r.1, inFlight := rest } := by
      simp only [Link.step, hfl, if_pos hstr, hr, Option.map_some]
    obtain ⟨ds, l', hds, hrun, hempty⟩ := ih (ready_deliver hready hstep).1 rfl
    exact ⟨.deliver 0 (List.replicate MaxRcvStr 0) :: ds, l',
      List.forall_mem_cons.mpr ⟨⟨_, _, rfl⟩, hds⟩, run_cons_eq_some.mpr ⟨_, hstep, hrun⟩, hempty⟩

/-- With nothing in flight, what will be known is known. -/
theorem settled_of_empty {ip : Str} {l : Link} (h : l.inFlight = []) :
    l.settled ip = l.receiver.peer l.sender.pUuid := by
  rw [Link.settled, h]
  rfl

/-- **Whether a link settles in agreement is decided by what is in flight.** -/
theorem settles_iff {ip : Str} {l : Link} (hready : l.Ready) :
    l.Settles ip ↔ AgreesOn (l.Shows ip) (l.settled ip) := by
  have hagree : ∀ ds l', (∀ e ∈ ds, ∃ now rcvStr, e = .deliver now rcvStr) → run (Link.step ip) l ds = some l' →
      l'.inFlight = [] → (l'.Agrees ip ↔ AgreesOn (l.Shows ip) (l.settled ip)) := by
    intro ds l' hds hrun hempty
    obtain ⟨-, hentries, hshows⟩ := settled_deliveries hready hds hrun
    rw [settled_of_empty hempty] at hentries
    unfold Link.Agrees AgreesOn
    simp only [hshows, ← hentries]
    exact Iff.rfl
  constructor
  · intro h
    obtain ⟨ds, l', hds, hrun, hempty⟩ := exists_deliveries ip hready
    exact (hagree ds l' hds hrun hempty).mp (h ds l' hds hrun hempty)
  · intro h ds l' hds hrun hempty
    exact (hagree ds l' hds hrun hempty).mpr h

/-! ### The steps -/

theorem peer_step_unrelated {d d' : Discovery} {op : Op} {p : Str} (hp : p ≠ d.pUuid) (hop : op.Unrelated p)
    (h : d.step op = some d') :
    d'.pUuid = d.pUuid ∧ d'.hostAddr = d.hostAddr ∧ (d'.peer p).entries = (d.peer p).entries := by
  cases op with
  | advertise type topic addr ctrl nUuid scope =>
    obtain ⟨⟨e, out⟩, he, rfl⟩ := Option.map_eq_some_iff.mp h
    obtain ⟨hfixed, hpeer⟩ := peer_advertise he
    exact ⟨pUuid_of_fixed hfixed, hostAddr_of_fixed hfixed, by rw [hpeer p, if_neg hp]⟩
  | unadvertise type topic nUuid =>
    obtain ⟨⟨e, out⟩, he, rfl⟩ := Option.map_eq_some_iff.mp h
    obtain ⟨hfixed, hpeer⟩ := peer_unadvertise he
    exact ⟨pUuid_of_fixed hfixed, hostAddr_of_fixed hfixed, by rw [hpeer p, if_neg hp]⟩
  | discover topic isSrv =>
    obtain ⟨⟨e, out⟩, he, rfl⟩ := Option.map_eq_some_iff.mp h
    obtain rfl := state_discover he
    exact ⟨rfl, rfl, rfl⟩
  | datagram g =>
    have hfixed := fixed_dispatch h
    have hab : about d.pUuid g ≠ some p := mt (about_iff_sender h hp).mp hop
    exact ⟨pUuid_of_fixed hfixed, hostAddr_of_fixed hfixed, by rw [view_dispatch h, if_neg hab]⟩
  | heartbeat =>
    obtain ⟨⟨e, out⟩, he, rfl⟩ := Option.map_eq_some_iff.mp h
    obtain rfl := state_heartbeat he
    exact ⟨rfl, rfl, rfl⟩
  | sweep now => exact absurd hop (by simp [Op.Unrelated])
  | setConnectionsCb type set =>
    obtain rfl := Option.some.inj h
    cases type <;> exact ⟨rfl, rfl, rfl⟩
  | setDisconnectionsCb type set =>
    obtain rfl := Option.some.inj h
    cases type <;> exact ⟨rfl, rfl, rfl⟩
  | setSilenceInterval ms =>
    obtain rfl := Option.some.inj h
    exact ⟨rfl, rfl, rfl⟩

/-- After the sender did something, what it sent comes last. -/
theorem settled_send {l : Link} {r : Discovery × List Output} (hp : r.1.pUuid = l.sender.pUuid) (ip : Str) :
    (l.send r).settled ip = (transmitted r.2).foldl
      (fun v g => effect l.receiver.pUuid g l.receiver.hostAddr ip v) (l.settled ip) := by
  unfold Link.settled Link.send
  simp only [hp, List.foldl_append]

theorem ready_send {l : Link} (hready : l.Ready) {r : Discovery × List Output}
    (hp : r.1.pUuid = l.sender.pUuid) (hfits : SenderFits r.1)
    (htells : ∀ g ∈ transmitted r.2, Tells l.receiver.pUuid l.sender.pUuid g (effect l.receiver.pUuid g)) :
    (l.send r).Ready where
  ne := by
    change r.1.pUuid ≠ l.receiver.pUuid
    rw [hp]
    exact hready.ne
  fits := hfits
  tells := by
    change ∀ g ∈ l.inFlight ++ transmitted r.2, Tells l.receiver.pUuid r.1.pUuid g _
    rw [hp]
    exact List.forall_mem_append.mpr ⟨hready.tells, htells⟩

theorem cell_of_peer {d' : Discovery} {p : Str} {v : Peer} (h : d'.peer p = v) (type : MsgType) (t : Str) :
    (d'.info type).cell t p = v.entries type t :=
  congrFun (congrFun (congrArg Peer.entries h) type) t

/-- What the sender's own entries are after `Advertise`. -/
theorem own_advertise {d d' : Discovery} {type : MsgType} {topic addr ctrl nUuid : Str} {scope : Scope}
    {out : List Output} (h : d.advertise type topic addr ctrl nUuid scope = some (d', out)) :
    d'.pUuid = d.pUuid ∧ ∀ type' t, (d'.info type').cell t d.pUuid =
      if type' = type ∧ t = topic then
        TopicStorage.addEntry ((d.info type').cell t d.pUuid) ⟨addr, ctrl, nUuid, scope⟩
      else (d.info type').cell t d.pUuid := by
  obtain ⟨hfixed, hpeer⟩ := peer_advertise h
  have hown := hpeer d.pUuid
  rw [if_pos rfl] at hown
  exact ⟨pUuid_of_fixed hfixed, cell_of_peer hown⟩

theorem own_unadvertise {d d' : Discovery} {type : MsgType} {topic nUuid : Str} {out : List Output}
    (h : d.unadvertise type topic nUuid = some (d', out)) :
    d'.pUuid = d.pUuid ∧ ∀ type' t, (d'.info type').cell t d.pUuid =
      if type' = type ∧ t = topic then TopicStorage.delNode ((d.info type').cell t d.pUuid) nUuid
      else (d.info type').cell t d.pUuid := by
  obtain ⟨hfixed, hpeer⟩ := peer_unadvertise h
  have hown := hpeer d.pUuid
  rw [if_pos rfl] at hown
  exact ⟨pUuid_of_fixed hfixed, cell_of_peer hown⟩

theorem mem_addEntry_sub {l : List Address} {x a : Address} (h : a ∈ TopicStorage.addEntry l x) :
    a ∈ l ∨ a = x := by
  unfold TopicStorage.addEntry at h
  split_ifs at h
  · exact .inl h
  · simpa using h

theorem senderFits_advertise {d d' : Discovery} {type : MsgType} {topic addr ctrl nUuid : Str} {scope : Scope}
    {out : List Output} (hfits : SenderFits d)
    (hlen : topic.length < 2 ^ 31 ∧ addr.length < 2 ^ 31 ∧ ctrl.length < 2 ^ 31 ∧ nUuid.length < 2 ^ 31)
    (h : d.advertise type topic addr ctrl nUuid scope = some (d', out)) : SenderFits d' := by
  obtain ⟨hp, hcell⟩ := own_advertise h
  refine ⟨by rw [hp]; exact hfits.pUuid, fun type' t hne => ?_, fun type' t a ha => ?_⟩
  · rw [hp, hcell] at hne
    split_ifs at hne with hc
    · rw [hc.2]
      exact hlen.1
    · exact hfits.topic type' t hne
  · rw [hp, hcell] at ha
    split_ifs at ha with hc
    · rcases mem_addEntry_sub ha with ha | rfl
      · exact hfits.entry type' t a ha
      · exact hlen.2
    · exact hfits.entry type' t a ha

theorem senderFits_unadvertise {d d' : Discovery} {type : MsgType} {topic nUuid : Str} {out : List Output}
    (hfits : SenderFits d) (h : d.unadvertise type topic nUuid = some (d', out)) : SenderFits d' := by
  obtain ⟨hp, hcell⟩ := own_unadvertise h
  have hsub : ∀ type' t a, a ∈ (d'.info type').cell t d.pUuid → a ∈ (d.info type').cell t d.pUuid := by
    intro type' t a ha
    rw [hcell] at ha
    split_ifs at ha
    · exact List.mem_of_mem_filter ha
    · exact ha
  refine ⟨by rw [hp]; exact hfits.pUuid, fun type' t hne => ?_, fun type' t a ha => ?_⟩
  · rw [hp] at hne
    obtain ⟨a, ha⟩ := List.exists_mem_of_ne_nil _ hne
    exact hfits.topic type' t (List.ne_nil_of_mem (hsub type' t a ha))
  · rw [hp] at ha
    exact hfits.entry type' t a (hsub type' t a ha)

/-- The own entries that the receiver may see, after `Advertise`. -/
theorem shows_advertise {ip : Str} {l : Link} {type : MsgType} {topic addr ctrl nUuid : Str} {scope : Scope}
    {r : Discovery × List Output} (h : l.sender.advertise type topic addr ctrl nUuid scope = some r)
    (type' : MsgType) (t n : Str) : (l.send r).Shows ip type' t n ↔ l.Shows ip type' t n ∨
      ((type' = type ∧ t = topic) ∧ n = nUuid ∧ l.Visible ip scope ∧
        ¬ (l.sender.info type).Known topic l.sender.pUuid nUuid addr) := by
  obtain ⟨hp, hcell⟩ := own_advertise h
  change (∃ a ∈ (r.1.info type').cell t r.1.pUuid, a.nUuid = n ∧ l.Visible ip a.scope) ↔ _
  rw [hp, hcell]
  split_ifs with hc
  · rw [mem_addEntry_visible, hc.1, hc.2]
    simp only [and_self, true_and]
    exact Iff.rfl
  · simp only [hc, false_and, or_false]
    exact Iff.rfl

theorem shows_unadvertise {ip : Str} {l : Link} {type : MsgType} {topic nUuid : Str}
    {r : Discovery × List Output} (h : l.sender.unadvertise type topic nUuid = some r)
    (type' : MsgType) (t n : Str) : (l.send r).Shows ip type' t n ↔ l.Shows ip type' t n ∧
      ¬ ((type' = type ∧ t = topic) ∧ n = nUuid) := by
  obtain ⟨hp, hcell⟩ := own_unadvertise h
  change (∃ a ∈ (r.1.info type').cell t r.1.pUuid, a.nUuid = n ∧ l.Visible ip a.scope) ↔ _
  rw [hp, hcell]
  split_ifs with hc
  · obtain ⟨rfl, rfl⟩ := hc
    rw [TopicStorage.mem_delNode]
    simp only [and_self, true_and]
    constructor
    · rintro ⟨a, ha, hne, rfl, hv⟩
      exact ⟨⟨a, ha, rfl, hv⟩, hne⟩
    · rintro ⟨⟨a, ha, rfl, hv⟩, hne⟩
      exact ⟨a, ha, hne, rfl, hv⟩
  · simp only [hc, false_and, not_false_eq_true, and_true]
    exact Iff.rfl

/-- The nodes that the receiver will know after an announcement. -/
theorem nodes_apply_advertise {hostAddr ip : Str} {v : Peer} {type type' : MsgType} {m : AdvertiseMsg} {t n : Str} :
    (∃ a ∈ (Peer.apply hostAddr ip v (.advertise type m)).entries type' t, a.nUuid = n) ↔
      (∃ a ∈ v.entries type' t, a.nUuid = n) ∨
        ((type' = type ∧ t = m.topic) ∧ n = m.nUuid ∧ ¬ Hides hostAddr ip m.scope) := by
  simp only [Peer.apply]
  split_ifs with hh
  · simp [hh]
  · rw [Peer.entries_edit]
    split_ifs with hc
    · rw [TopicStorage.mem_addEntry_node]
      simp only [hc, hh, Peer.addressOf, and_self, true_and, not_false_eq_true, and_true]
    · simp only [hc, false_and, or_false]

theorem nodes_apply_unadvertise {hostAddr ip : Str} {v : Peer} {type type' : MsgType} {m : AdvertiseMsg}
    {t n : Str} :
    (∃ a ∈ (Peer.apply hostAddr ip v (.unadvertise type m)).entries type' t, a.nUuid = n) ↔
      (∃ a ∈ v.entries type' t, a.nUuid = n) ∧
        ¬ ((type' = type ∧ t = m.topic) ∧ n = m.nUuid ∧ ¬ Hides hostAddr ip m.scope) := by
  simp only [Peer.apply]
  split_ifs with hh
  · simp [hh]
  · rw [Peer.entries_edit]
    split_ifs with hc
    · rw [TopicStorage.mem_delNode]
      simp only [hc, hh, and_self, true_and, not_false_eq_true, and_true]
      constructor
      · rintro ⟨a, ha, hne, rfl⟩
        exact ⟨⟨a, ha, rfl⟩, hne⟩
      · rintro ⟨⟨a, ha, rfl⟩, hne⟩
        exact ⟨a, ha, hne, rfl⟩
    · simp only [hc, false_and, not_false_eq_true, and_true]

theorem settled_advertise (ip : Str) {l : Link} (hready : l.Ready) {type : MsgType} {topic addr ctrl nUuid : Str}
    {scope : Scope} {r : Discovery × List Output}
    (hlen : topic.length < 2 ^ 31 ∧ addr.length < 2 ^ 31 ∧ ctrl.length < 2 ^ 31 ∧ nUuid.length < 2 ^ 31)
    (h : l.sender.advertise type topic addr ctrl nUuid scope = some r) :
    (∀ g ∈ transmitted r.2, Tells l.receiver.pUuid l.sender.pUuid g (effect l.receiver.pUuid g)) ∧
    ∀ type' t n, (∃ a ∈ ((l.send r).settled ip).entries type' t, a.nUuid = n) ↔
      (∃ a ∈ (l.settled ip).entries type' t, a.nUuid = n) ∨
        ((type' = type ∧ t = topic) ∧ n = nUuid ∧ l.Visible ip scope ∧
          Sendable (l.sender.advMsg (advType type) topic addr ctrl nUuid scope 0)) := by
  obtain ⟨-, hout⟩ := advertise_eq_some.mp h
  have hsettled := settled_send (own_advertise h).1 ip
  split_ifs at hout with hscope
  · -- nothing leaves the process
    rw [← Option.some.inj hout] at hsettled ⊢
    have hvis : ¬ l.Visible ip scope := fun hv => hv (.inl hscope)
    rw [hsettled]
    exact ⟨by simp [transmitted], fun type' t n => by simp [hvis, transmitted]⟩
  · obtain ⟨htells, hfold⟩ := transmitted_adv (advType_mem type) hready.ne
      (fits_advMsg hready.fits.pUuid hlen.1 hlen.2) hout
    refine ⟨htells, fun type' t n => ?_⟩
    rw [hsettled, hfold, bodyOf_advType]
    split_ifs with hs
    · rw [nodes_apply_advertise]
      simp only [hs, and_true]
      exact Iff.rfl
    · simp only [hs, and_false, or_false]

theorem settled_unadvertise (ip : Str) {l : Link} (hready : l.Ready) {type : MsgType} {topic nUuid : Str}
    {r : Discovery × List Output} {inf : Address}
    (hget : (l.sender.info type).getAddress topic l.sender.pUuid nUuid = some inf)
    (h : l.sender.unadvertise type topic nUuid = some r) :
    (∀ g ∈ transmitted r.2, Tells l.receiver.pUuid l.sender.pUuid g (effect l.receiver.pUuid g)) ∧
    ∀ type' t n, (∃ a ∈ ((l.send r).settled ip).entries type' t, a.nUuid = n) ↔
      (∃ a ∈ (l.settled ip).entries type' t, a.nUuid = n) ∧
        ¬ ((type' = type ∧ t = topic) ∧ n = nUuid ∧ l.Visible ip inf.scope ∧
          Sendable (l.sender.advMsg (unadvType type) topic inf.addr inf.ctrl nUuid inf.scope 0)) := by
  have hsettled := settled_send (own_unadvertise h).1 ip
  have hmem : inf ∈ (l.sender.info type).cell topic l.sender.pUuid := List.mem_of_find?_eq_some hget
  have hnode : inf.nUuid = nUuid := by simpa using List.find?_some hget
  rcases unadvertise_eq_some h with ⟨-, -, hnone⟩ | ⟨inf', hget', -, hout⟩
  · rw [hget] at hnone
    cases hnone
  obtain rfl : inf' = inf := Option.some.inj (hget'.symm.trans hget)
  have hentry := hready.fits.entry type topic inf' hmem
  split_ifs at hout with hscope
  · rw [← Option.some.inj hout] at hsettled ⊢
    have hvis : ¬ l.Visible ip inf'.scope := fun hv => hv (.inl hscope)
    rw [hsettled]
    exact ⟨by simp [transmitted], fun type' t n => by simp [hvis, transmitted]⟩
  · obtain ⟨htells, hfold⟩ := transmitted_adv (unadvType_mem type) hready.ne
      (fits_advMsg hready.fits.pUuid (hready.fits.topic type topic (List.ne_nil_of_mem hmem))
        ⟨hentry.1, hentry.2.1, hnode ▸ hentry.2.2⟩) hout
    refine ⟨htells, fun type' t n => ?_⟩
    rw [hsettled, hfold, bodyOf_unadvType]
    split_ifs with hs
    · rw [nodes_apply_unadvertise]
      simp only [hs, and_true]
      exact Iff.rfl
    · simp only [hs, and_false, not_false_eq_true, and_true]

/-- Agreement after both sides may have gained the same node. -/
theorem agreesOn_gain {Q' : MsgType → Str → Str → Prop} {v v' : Peer} {type : MsgType} {topic nUuid : Str}
    {gained shown : Prop} (hagree : AgreesOn Q v)
    (hv : ∀ type' t n, (∃ a ∈ v'.entries type' t, a.nUuid = n) ↔
      (∃ a ∈ v.entries type' t, a.nUuid = n) ∨ ((type' = type ∧ t = topic) ∧ n = nUuid ∧ gained))
    (hQ : ∀ type' t n, Q' type' t n ↔ Q type' t n ∨ ((type' = type ∧ t = topic) ∧ n = nUuid ∧ shown)) :
    AgreesOn Q' v' ↔ (Q type topic nUuid ∨ (gained ↔ shown)) := by
  constructor
  · intro hall
    have hnode := hall type topic nUuid
    rw [hv, hQ, hagree] at hnode
    simp only [and_self, true_and] at hnode
    by_cases hq : Q type topic nUuid
    · exact .inl hq
    · rw [or_iff_right hq, or_iff_right hq] at hnode
      exact .inr hnode
  · intro hgood type' t n
    rw [hv, hQ, hagree]
    by_cases hc : (type' = type ∧ t = topic) ∧ n = nUuid
    · obtain ⟨⟨rfl, rfl⟩, rfl⟩ := hc
      simp only [and_self, true_and]
      rcases hgood with hq | hiff
      · exact iff_of_true (.inl hq) (.inl hq)
      · exact or_congr_right hiff
    · simp only [← and_assoc, hc, false_and, or_false]

/-- Agreement after both sides may have lost the same node. -/
theorem agreesOn_loss {Q' : MsgType → Str → Str → Prop} {v v' : Peer} {type : MsgType} {topic nUuid : Str}
    {lost : Prop} (hagree : AgreesOn Q v)
    (hv : ∀ type' t n, (∃ a ∈ v'.entries type' t, a.nUuid = n) ↔
      (∃ a ∈ v.entries type' t, a.nUuid = n) ∧ ¬ ((type' = type ∧ t = topic) ∧ n = nUuid ∧ lost))
    (hQ : ∀ type' t n, Q' type' t n ↔ Q type' t n ∧ ¬ ((type' = type ∧ t = topic) ∧ n = nUuid)) :
    AgreesOn Q' v' ↔ (Q type topic nUuid → lost) := by
  constructor
  · intro hall hq
    have hnode := hall type topic nUuid
    rw [hv, hQ, hagree] at hnode
    simp only [and_self, true_and, not_true_eq_false, and_false, iff_false] at hnode
    by_contra hkept
    exact hnode ⟨hq, hkept⟩
  · intro hgood type' t n
    rw [hv, hQ, hagree]
    refine and_congr_right fun hq => not_congr ?_
    rw [← and_assoc]
    refine and_iff_left_of_imp fun hc => ?_
    obtain ⟨⟨rfl, rfl⟩, rfl⟩ := hc
    exact hgood hq

variable {l : Link}

theorem agreement_advertise (hready : l.Ready) (hagree : AgreesOn (l.Shows ip) (l.settled ip)) {type : MsgType}
    {topic addr ctrl nUuid : Str} {scope : Scope} {r : Discovery × List Output}
    (hfit : (LinkEvent.advertise type topic addr ctrl nUuid scope).Fits)
    (hr : l.sender.advertise type topic addr ctrl nUuid scope = some r) :
    (l.send r).Ready ∧ (AgreesOn ((l.send r).Shows ip) ((l.send r).settled ip) ↔
      l.Faithful ip (.advertise type topic addr ctrl nUuid scope)) := by
  obtain ⟨htells, hsettled⟩ := settled_advertise ip hready hfit hr
  refine ⟨ready_send hready (own_advertise hr).1 (senderFits_advertise hready.fits hfit hr) htells, ?_⟩
  rw [agreesOn_gain hagree hsettled (shows_advertise hr), and_congr_right_iff]
  constructor
  · exact fun h hvis => h.imp id fun h => h hvis
  · intro h
    by_cases hvis : l.Visible ip scope
    · exact (h hvis).imp id fun h _ => h
    · exact .inr fun hv => absurd hv hvis

theorem agreement_unadvertise (hready : l.Ready) (hagree : AgreesOn (l.Shows ip) (l.settled ip)) {type : MsgType}
    {topic nUuid : Str} {r : Discovery × List Output} (hr : l.sender.unadvertise type topic nUuid = some r) :
    (l.send r).Ready ∧ (AgreesOn ((l.send r).Shows ip) ((l.send r).settled ip) ↔
      l.Faithful ip (.unadvertise type topic nUuid)) := by
  cases hget : (l.sender.info type).getAddress topic l.sender.pUuid nUuid with
  | none =>
    have hfaithful : l.Faithful ip (.unadvertise type topic nUuid) := fun inf hinf => by
      rw [hget] at hinf
      cases hinf
    rcases unadvertise_eq_some hr with ⟨hd, hout, -⟩ | ⟨inf, hinf, -⟩
    · have hl : l.send r = l := by
        simp only [Link.send, hd, hout, transmitted, List.filterMap_nil, List.append_nil]
      rw [hl]
      exact ⟨hready, iff_of_true hagree hfaithful⟩
    · rw [hget] at hinf
      cases hinf
  | some inf =>
    obtain ⟨htells, hsettled⟩ := settled_unadvertise ip hready hget hr
    refine ⟨ready_send hready (own_unadvertise hr).1 (senderFits_unadvertise hready.fits hr) htells, ?_⟩
    rw [agreesOn_loss hagree hsettled (shows_unadvertise hr)]
    constructor
    · intro hgood inf' hinf
      obtain rfl := Option.some.inj (hget.symm.trans hinf)
      exact hgood
    · exact fun hgood => hgood inf hget

theorem agreement_heartbeat (hready : l.Ready) (hagree : AgreesOn (l.Shows ip) (l.settled ip))
    {r : Discovery × List Output} (hr : l.sender.heartbeat = some r) :
    (l.send r).Ready ∧ AgreesOn ((l.send r).Shows ip) ((l.send r).settled ip) := by
  obtain hd := state_heartbeat hr
  have href : Refreshes l.receiver.pUuid l.sender.pUuid l.receiver.hostAddr ip (l.Shows ip) (transmitted r.2) :=
    refreshes_heartbeat hready.ne hready.fits (fun type t a ha hv => ⟨a, ha, rfl, hv⟩) hr
  refine ⟨ready_send hready (by rw [hd]) (by rw [hd]; exact hready.fits) href.1, ?_⟩
  have hshows : (l.send r).Shows ip = l.Shows ip := by
    unfold Link.Shows Link.Visible Link.send
    simp only [hd]
  rw [hshows, settled_send (by rw [hd])]
  exact href.2 _ hagree

theorem agreement_other (hready : l.Ready) (hagree : AgreesOn (l.Shows ip) (l.settled ip)) {op : Op}
    (hop : op.Unrelated l.sender.pUuid) {d : Discovery} (hd : l.receiver.step op = some d) :
    ({ l with receiver := d } : Link).Ready ∧
      AgreesOn (({ l with receiver := d } : Link).Shows ip) (({ l with receiver := d } : Link).settled ip) := by
  obtain ⟨hp, hhost, hentries⟩ := peer_step_unrelated hready.ne hop hd
  refine ⟨⟨by rw [hp]; exact hready.ne, hready.fits, fun g hg => by rw [hp]; exact hready.tells g hg⟩, ?_⟩
  have hsettled : (({ l with receiver := d } : Link).settled ip).entries = (l.settled ip).entries := by
    unfold Link.settled
    simp only [hp, hhost]
    exact entries_foldl_effect hentries
  have hshows : ({ l with receiver := d } : Link).Shows ip = l.Shows ip := by
    unfold Link.Shows Link.Visible
    simp only [hhost]
  intro type t n
  rw [hsettled, hshows]
  exact hagree type t n

/-- **One step**: the link stays ready, and agreement in what is known and in flight survives exactly under the
condition. -/
theorem agreement_step {l' : Link} {e : LinkEvent} (hready : l.Ready) (hfit : e.Fits)
    (hagree : AgreesOn (l.Shows ip) (l.settled ip)) (h : l.step ip e = some l') :
    l'.Ready ∧ (AgreesOn (l'.Shows ip) (l'.settled ip) ↔ l.Faithful ip e) := by
  cases e with
  | advertise type topic addr ctrl nUuid scope =>
    obtain ⟨r, hr, rfl⟩ := Option.map_eq_some_iff.mp h
    exact agreement_advertise hready hagree hfit hr
  | unadvertise type topic nUuid =>
    obtain ⟨r, hr, rfl⟩ := Option.map_eq_some_iff.mp h
    exact agreement_unadvertise hready hagree hr
  | heartbeat =>
    obtain ⟨r, hr, rfl⟩ := Option.map_eq_some_iff.mp h
    exact (agreement_heartbeat hready hagree hr).imp_right fun hagree' => iff_of_true hagree' trivial
  | deliver now rcvStr =>
    obtain ⟨hready', hentries, hshows⟩ := ready_deliver hready h
    refine ⟨hready', iff_of_true ?_ trivial⟩
    intro type t n
    rw [hentries, hshows]
    exact hagree type t n
  | other op =>
    simp only [Link.step] at h
    split_ifs at h with hop
    obtain ⟨d, hd, rfl⟩ := Option.map_eq_some_iff.mp h
    exact (agreement_other hready hagree hop hd).imp_right fun hagree' => iff_of_true hagree' trivial

/-! ### Runs -/

/-- Two instances fresh from their constructors. -/
def Link.start (a hostA b hostB : Str) : Link := ⟨Discovery.start a hostA, Discovery.start b hostB, []⟩

theorem ready_start {a hostA b hostB : Str} (hne : a ≠ b) (hlen : a.length < 2 ^ 31 - 13) :
    (Link.start a hostA b hostB).Ready := by
  have hcell : ∀ type t, ((Discovery.start a hostA).info type).cell t a = [] := fun type t => by
    cases type <;> exact Table.cell_empty t a
  refine ⟨hne, ⟨hlen, fun type t h => absurd (hcell type t) h, fun type t x hx => ?_⟩, by simp [Link.start]⟩
  have hx' : x ∈ ((Discovery.start a hostA).info type).cell t a := hx
  rw [hcell] at hx'
  cases hx'

theorem agreesOn_start (a hostA b hostB ip : Str) :
    AgreesOn ((Link.start a hostA b hostB).Shows ip) ((Link.start a hostA b hostB).settled ip) := by
  intro type t n
  cases type <;> simp [Link.Shows, Link.settled, Link.start, peer, Discovery.start, info]

/-- **Agreement.**  Along a run of two processes, the receiver agrees with the sender about the (topic, node) pairs
that it may see, as soon as everything in flight is delivered, exactly when every step is faithful.  In particular
it agrees in every state in which nothing is in flight. -/
theorem discovery_agreement_iff {a hostA b hostB ip : Str} (hne : a ≠ b) (hlen : a.length < 2 ^ 31 - 13)
    {es : List LinkEvent} (hfit : ∀ e ∈ es, e.Fits) {l : Link}
    (hrun : run (Link.step ip) (Link.start a hostA b hostB) es = some l) :
    (Always (Link.step ip) (fun _ l => l.Settles ip) (Link.start a hostA b hostB) es ↔
      Along (Link.step ip) (fun _ l e => l.Faithful ip e) (Link.start a hostA b hostB) es) ∧
    (Along (Link.step ip) (fun _ l e => l.Faithful ip e) (Link.start a hostA b hostB) es →
      Always (Link.step ip) (fun _ l => l.inFlight = [] → l.Agrees ip) (Link.start a hostA b hostB) es) := by
  have hiff : Always (Link.step ip) (fun _ l => l.Settles ip) (Link.start a hostA b hostB) es ↔
      Along (Link.step ip) (fun _ l e => l.Faithful ip e) (Link.start a hostA b hostB) es := by
    refine always_iff_along (fun _ l => l.Ready ∧ AgreesOn (l.Shows ip) (l.settled ip)) LinkEvent.Fits
      ⟨ready_start hne hlen, agreesOn_start a hostA b hostB ip⟩ ?_ ?_ ?_ hfit hrun
    · rintro pre m ⟨hready, hagree⟩
      exact (settles_iff hready).mpr hagree
    · rintro pre m e m' hok ⟨hready, hagree⟩ hstep hgood
      obtain ⟨hready', hstep'⟩ := agreement_step hready hok hagree hstep
      exact ⟨hready', hstep'.mpr hgood⟩
    · rintro pre m e m' hok ⟨hready, hagree⟩ hstep hbad hsettles
      obtain ⟨hready', hstep'⟩ := agreement_step hready hok hagree hstep
      exact hbad (hstep'.mp ((settles_iff hready').mp hsettles))
  refine ⟨hiff, fun halong pre m hpre hm hempty => ?_⟩
  exact hiff.mpr halong pre m hpre hm [] m (by simp) rfl hempty

/-- The only datagram in flight can be delivered. -/
theorem exists_deliver {l : Link} (hready : l.Ready) {g : Buffer} (hg : l.inFlight = [g]) (ip : Str) : ∃ d,
    l.step ip (.deliver 0 (List.replicate MaxRcvStr 0)) = some { l with receiver := d, inFlight := [] } := by
  have hstr : (List.replicate MaxRcvStr (0 : UInt8)).length = MaxRcvStr := List.length_replicate
  obtain ⟨r, hr, -⟩ := recvDiscoveryUpdate_tells (hready.tells g (by rw [hg]; simp)) ip 0 hstr
  exact ⟨r.1, by simp only [Link.step, hg, if_pos hstr, hr, Option.map_some]⟩

/-- One advertisement that everybody may see, and its delivery. -/
theorem discovery_agreement_advertised : ∃ l,
    run (Link.step [2]) (Link.start [65] [1] [66] [2])
      [.advertise .msg [116] [97] [] [110] .all, .deliver 0 (List.replicate MaxRcvStr 0)] = some l ∧
    l.Shows [2] .msg [116] [110] ∧ l.inFlight = [] ∧ l.Agrees [2] := by
  have hfirst : (run (Link.step [2]) (Link.start [65] [1] [66] [2]) [.advertise .msg [116] [97] [] [110] .all]).any
      (fun l => l.inFlight.length = 1 ∧ l.Shows [2] .msg [116] [110]) = true := by decide
  obtain ⟨l₁, hrun₁, hflight, hshown⟩ := exists_of_any hfirst
  have h₁ := run_singleton.mp hrun₁
  obtain ⟨hready, -⟩ := agreement_step (ready_start (by decide) (by decide)) (by simp [LinkEvent.Fits])
    (agreesOn_start [65] [1] [66] [2] [2]) h₁
  obtain ⟨g, hg⟩ := List.length_eq_one_iff.mp hflight
  obtain ⟨d, h₂⟩ := exists_deliver hready hg [2]
  have hrun := run_cons_eq_some.mpr ⟨l₁, h₁, run_singleton.mpr h₂⟩
  obtain ⟨-, -, hshows⟩ := ready_deliver hready h₂
  refine ⟨_, hrun, (hshows ..).mpr hshown, rfl, ?_⟩
  refine (discovery_agreement_iff (by decide) (by decide) (by simp [LinkEvent.Fits]) hrun).2 ?_ _ _ List.prefix_rfl
    hrun rfl
  intro pre e m hpre hm
  rcases List.prefix_concat_iff.mp (show pre ++ [e] <+: [.advertise .msg [116] [97] [] [110] .all] ++ [_] from hpre)
    with heq | hpre
  · -- the delivery
    obtain rfl := List.singleton_inj.mp (List.append_inj' heq rfl).2
    trivial
  · obtain ⟨rfl, rfl⟩ : pre = [] ∧ e = .advertise .msg [116] [97] [] [110] .all := by
      have hlen := hpre.length_le
      rw [List.length_append, List.length_singleton, List.length_singleton] at hlen
      obtain rfl : pre = [] := List.eq_nil_of_length_eq_zero (by omega)
      exact ⟨rfl, by simpa using hpre⟩
    obtain rfl := Option.some.inj hm
    exact fun _ => .inr (by decide)

/-- A node that advertises a topic again with a wider scope: the announcement goes out, while the stored entry keeps
the scope 'Process'. -/
def rescoped : List LinkEvent :=
  [.advertise .msg [116] [97] [] [110] .process, .advertise .msg [116] [97] [] [110] .all,
    .deliver 0 (List.replicate MaxRcvStr 0)]

/-- The receiver knows a node whose only entry is not for it. -/
theorem agreement_fails_rescoped :
    ¬ ∀ l, run (Link.step [2]) (Link.start [65] [1] [66] [2]) rescoped = some l → l.inFlight = [] →
      l.Agrees [2] := by
  intro hall
  have hflight : (run (Link.step [2]) (Link.start [65] [1] [66] [2]) (rescoped.take 2)).any (fun l =>
      l.inFlight.length = 1) = true := by decide
  obtain ⟨l₂, hl₂, hflight⟩ := exists_of_any hflight
  obtain ⟨l₁, h₁, hrest⟩ := run_cons_eq_some.mp hl₂
  have h₂ := run_singleton.mp hrest
  obtain ⟨hready₁, hagree₁⟩ := agreement_step (ready_start (by decide) (by decide)) (by simp [LinkEvent.Fits])
    (agreesOn_start [65] [1] [66] [2] [2]) h₁
  have hgood : (Link.start [65] [1] [66] [2]).Faithful [2] (.advertise .msg [116] [97] [] [110] .process) := by decide
  have hbad : (Link.step [2] (Link.start [65] [1] [66] [2]) (.advertise .msg [116] [97] [] [110] .process)).map
      (fun l => (decide (l.Faithful [2] (.advertise .msg [116] [97] [] [110] .all)), l.inFlight.length)) =
        some (false, 0) := by decide
  rw [h₁, Option.map_some, Option.some.injEq, Prod.mk.injEq, decide_eq_false_iff_not] at hbad
  obtain ⟨hready₂, hagree₂⟩ := agreement_step hready₁ (by simp [LinkEvent.Fits]) (hagree₁.mpr hgood) h₂
  -- the only datagram in flight is delivered
  obtain ⟨g, hg⟩ := List.length_eq_one_iff.mp hflight
  obtain ⟨d, h₃⟩ := exists_deliver hready₂ hg [2]
  have hsettles : l₂.Settles [2] := by
    refine (settles_iff hready₂).mpr ?_
    obtain ⟨hready₃, hentries, hshows⟩ := ready_deliver hready₂ h₃
    have hfinal := hall _ (run_cons_eq_some.mpr ⟨l₁, h₁, run_cons_eq_some.mpr ⟨l₂, h₂, run_singleton.mpr h₃⟩⟩) rfl
    rw [settled_of_empty rfl] at hentries
    unfold AgreesOn
    simp only [← hshows, ← hentries]
    exact hfinal
  exact hbad.1 (hagree₂.mp ((settles_iff hready₂).mp hsettles))

end Agreement

end Discovery

end IgnTransport
