import Mathlib
import IgnTransport.DiscoveryRun

/-!
# IgnTransport.DiscoveryOutputs — what a discovery instance puts out

Which datagrams and callbacks come of each operation.  The entry points of a node only send, or replay what is stored;
a dispatched datagram makes at most the callbacks of its own message; a sweep reports the expired processes.
-/

namespace IgnTransport

open Lib

/-- A datagram, not a callback. -/
def Output.IsDatagram : Output → Prop
  | .sendto _ => True
  | _ => False

namespace Discovery

/-! ## Sending -/

section Sending

variable {d d' : Discovery} {out : List Output}

theorem isDatagram_sendMsg {type : UInt8} {topic addr ctrl nUuid : Str} {scope : Scope} {flags : UInt16}
    (h : d.sendMsg type topic addr ctrl nUuid scope flags = some out) : ∀ o ∈ out, o.IsDatagram := by
  unfold sendMsg at h
  split_ifs at h
  · obtain ⟨r, -, hr⟩ := Option.bind_eq_some_iff.mp h
    rw [← Option.some.inj hr]
    simp [Output.IsDatagram]
  · obtain ⟨r, -, hr⟩ := Option.bind_eq_some_iff.mp h
    rw [← Option.some.inj hr]
    simp [Output.IsDatagram]
  · obtain ⟨r, -, hr⟩ := Option.bind_eq_some_iff.mp h
    rw [← Option.some.inj hr]
    simp [Output.IsDatagram]
  · rw [← Option.some.inj h]
    simp

theorem isDatagram_sendEach {type : UInt8} {topic : Str} {as : List Address}
    (h : d.sendEach type topic as = some out) : ∀ o ∈ out, o.IsDatagram := by
  induction as generalizing out with
  | nil =>
    rw [← Option.some.inj h]
    simp
  | cons a as ih =>
    simp only [sendEach, bind, pure, Option.bind_eq_some_iff, Option.some.injEq] at h
    obtain ⟨o, ho, os, hos, rfl⟩ := h
    exact List.forall_mem_append.mpr ⟨isDatagram_sendMsg ho, ih hos⟩

theorem isDatagram_sendTopics {type : UInt8} {ts : List (Str × List Address)}
    (h : d.sendTopics type ts = some out) : ∀ o ∈ out, o.IsDatagram := by
  induction ts generalizing out with
  | nil =>
    rw [← Option.some.inj h]
    simp
  | cons t ts ih =>
    simp only [sendTopics, bind, pure, Option.bind_eq_some_iff, Option.some.injEq] at h
    obtain ⟨o, ho, os, hos, rfl⟩ := h
    exact List.forall_mem_append.mpr ⟨isDatagram_sendEach ho, ih hos⟩

theorem isDatagram_advertise {type : MsgType} {topic addr ctrl nUuid : Str} {scope : Scope}
    (h : d.advertise type topic addr ctrl nUuid scope = some (d', out)) : ∀ o ∈ out, o.IsDatagram := by
  obtain ⟨-, hout⟩ := advertise_eq_some.mp h
  split_ifs at hout
  · rw [← Option.some.inj hout]
    simp
  · exact isDatagram_sendMsg hout

theorem isDatagram_unadvertise {type : MsgType} {topic nUuid : Str}
    (h : d.unadvertise type topic nUuid = some (d', out)) : ∀ o ∈ out, o.IsDatagram := by
  rcases unadvertise_eq_some h with ⟨-, rfl, -⟩ | ⟨inf, -, -, hout⟩
  · simp
  · split_ifs at hout
    · rw [← Option.some.inj hout]
      simp
    · exact isDatagram_sendMsg hout

theorem isDatagram_heartbeat (h : d.heartbeat = some (d', out)) : ∀ o ∈ out, o.IsDatagram := by
  unfold heartbeat at h
  simp only [bind, pure, Option.bind_eq_some_iff, Option.some.injEq, Prod.mk.injEq] at h
  obtain ⟨o, ho, msgs, hmsgs, srvs, hsrvs, -, rfl⟩ := h
  simp only [List.forall_mem_append]
  exact ⟨⟨isDatagram_sendMsg ho, isDatagram_sendTopics hmsgs⟩, isDatagram_sendTopics hsrvs⟩

end Sending

/-! ## Callbacks -/

section Callbacks

variable {d d' : Discovery} {out : List Output}

/-- The callback that `Discover` makes for a stored address. -/
def connectionOf (type : MsgType) (topic pUuid : Str) (a : Address) : Output :=
  .connection type ⟨topic, a.addr, a.ctrl, pUuid, a.nUuid, a.scope⟩

theorem mem_replay {type : MsgType} {topic : Str} {o : Output} :
    o ∈ replay type topic ((d.info type).row topic) ↔
      ∃ p, ∃ a ∈ (d.info type).cell topic p, o = connectionOf type topic p a := by
  simp only [replay, List.mem_flatMap, List.mem_map, Prod.exists]
  constructor
  · rintro ⟨p, as, hp, a, ha, rfl⟩
    rw [← ((d.info type).mem_row_toList topic p as |>.mp hp).1] at ha
    exact ⟨p, a, ha, rfl⟩
  · rintro ⟨p, a, ha, rfl⟩
    exact ⟨p, _, ((d.info type).mem_row_toList topic p _).mpr ⟨rfl, List.ne_nil_of_mem ha⟩, a, ha, rfl⟩

/-- What `Discover` looks for. -/
def soughtType (isSrv : Bool) : MsgType := if isSrv then .srv else .msg

/-- `Discover` sends a SUBSCRIBE and replays what is stored of the topic. -/
theorem discover_eq_some {topic : Str} {isSrv : Bool} (h : d.discover topic isSrv = some (d', out)) :
    d' = d ∧ ∃ sent replayed, out = sent ++ replayed ∧ (∀ o ∈ sent, o.IsDatagram) ∧
      ∀ o, o ∈ replayed ↔ d.hasConnectionCb (soughtType isSrv) = true ∧
        ∃ p, ∃ a ∈ (d.info (soughtType isSrv)).cell topic p, o = connectionOf (soughtType isSrv) topic p a := by
  unfold discover at h
  rw [show (if isSrv then MsgType.srv else .msg) = soughtType isSrv from rfl] at h
  generalize soughtType isSrv = type at h ⊢
  obtain ⟨sent, hsent, h⟩ := Option.bind_eq_some_iff.mp h
  cases hget : (d.info type).getAddresses topic with
  | none =>
    simp only [hget, pure, Option.some.injEq, Prod.mk.injEq] at h
    obtain ⟨rfl, rfl⟩ := h
    refine ⟨rfl, sent, [], (List.append_nil _).symm, isDatagram_sendMsg hsent, fun o => ?_⟩
    refine iff_of_false (List.not_mem_nil) ?_
    rintro ⟨-, p, a, ha, -⟩
    have htopic := (TopicStorage.hasTopic_iff _ topic).mpr ⟨p, List.ne_nil_of_mem ha⟩
    rw [TopicStorage.getAddresses, if_pos htopic] at hget
    cases hget
  | some addresses =>
    simp only [hget, pure, Option.some.injEq, Prod.mk.injEq] at h
    obtain ⟨rfl, rfl⟩ := h
    obtain ⟨-, rfl⟩ := (TopicStorage.getAddresses_eq_some_iff _ _ _).mp hget
    refine ⟨rfl, sent, _, rfl, isDatagram_sendMsg hsent, fun o => ?_⟩
    by_cases hcb : d.hasConnectionCb type = true
    · rw [if_pos hcb, mem_replay]
      exact (and_iff_right hcb).symm
    · rw [if_neg hcb]
      simp [hcb]

/-- An expired process is reported to the disconnection callback. -/
theorem out_sweepFrom {now : Timestamp} {entries : List (Str × Timestamp)}
    (h : sweepFrom now entries d = some (d', out)) :
    out = (entries.filter fun e => elapsedMs now e.2 > d.silenceInterval).map
      fun e => .disconnection .msg (goneArgs e.1) := by
  induction entries generalizing d d' out with
  | nil =>
    rw [sweepFrom, Option.some.injEq, Prod.mk.injEq] at h
    exact h.2.symm
  | cons e entries ih =>
    obtain ⟨q, last⟩ := e
    rw [sweepFrom] at h
    split_ifs at h with hexp hcb
    · simp only [bind, pure, Option.bind_eq_some_iff, Option.some.injEq, Prod.mk.injEq, Prod.exists] at h
      obtain ⟨d₁, out₁, h, -, rfl⟩ := h
      rw [List.filter_cons_of_pos (by simpa using hexp), List.map_cons, ih h]
      rfl
    · rw [List.filter_cons_of_neg (by simpa using hexp), ih h]

theorem mem_out_sweep {now : Timestamp} (h : d.runActivityTask now = some (d', out)) (o : Output) :
    o ∈ out ↔ ∃ p, d.Expired now p ∧ o = .disconnection .msg (goneArgs p) := by
  rw [out_sweepFrom h]
  simp only [List.mem_map, List.mem_filter, decide_eq_true_eq, Prod.exists,
    Std.ExtTreeMap.mem_toList_iff_getElem?_eq_some]
  constructor
  · rintro ⟨p, last, ⟨hp, hexp⟩, rfl⟩
    exact ⟨p, ⟨last, hp, hexp⟩, rfl⟩
  · rintro ⟨p, ⟨last, hp, hexp⟩, rfl⟩
    exact ⟨p, last, ⟨hp, hexp⟩, rfl⟩

/-- The callbacks that a message makes an instance execute. -/
def callbacks (d : Discovery) (fromIp q : Str) : Body → List Output
  | .advertise type m =>
    if ¬ Hides d.hostAddr fromIp m.scope ∧ ¬ (d.info type).Known m.topic q m.nUuid m.addr ∧
        d.hasConnectionCb type = true then
      [.connection type (advArgs q m)]
    else []
  | .bye =>
    (if d.disconnectionCb then [.disconnection .msg (goneArgs q)] else []) ++
      if d.disconnectionSrvCb then [.disconnection .srv (goneArgs q)] else []
  | .unadvertise type m =>
    if ¬ Hides d.hostAddr fromIp m.scope ∧ d.hasDisconnectionCb type = true then
      [.disconnection type (advArgs q m)]
    else []
  | _ => []

theorem snd_recvAdvertise (d : Discovery) (fromIp q : Str) (type : MsgType) (m : AdvertiseMsg) :
    (d.recvAdvertise fromIp q type m).2 = d.callbacks fromIp q (.advertise type m) := by
  unfold recvAdvertise
  dsimp only [callbacks]
  by_cases hh : Hides d.hostAddr fromIp m.scope
  · rw [if_pos hh, if_neg fun hc => hc.1 hh]
  · rw [if_neg hh]
    simp only [TopicStorage.snd_addAddress, Bool.and_eq_true, decide_eq_true_eq, hh, not_false_eq_true, true_and]

theorem snd_recvUnadvertise (d : Discovery) (fromIp q : Str) (type : MsgType) (m : AdvertiseMsg) :
    (d.recvUnadvertise fromIp q type m).2 = d.callbacks fromIp q (.unadvertise type m) := by
  unfold recvUnadvertise
  dsimp only [callbacks]
  by_cases hh : Hides d.hostAddr fromIp m.scope
  · rw [if_pos hh, if_neg fun hc => hc.1 hh]
  · rw [if_neg hh]
    simp only [hh, not_false_eq_true, true_and]

/-- Only a SUBSCRIBE is answered; another message makes the callbacks of its own. -/
theorem out_handle_of_ne_subscribe {fromIp q : Str} {body : Body} (h : d.handle fromIp q body = some (d', out))
    (hsub : ∀ type m, body ≠ .subscribe type m) : out = d.callbacks fromIp q body := by
  cases body with
  | advertise type m =>
    exact (congrArg Prod.snd (Option.some.inj h)).symm.trans (snd_recvAdvertise d fromIp q type m)
  | subscribe type m => exact absurd rfl (hsub type m)
  | unadvertise type m =>
    exact (congrArg Prod.snd (Option.some.inj h)).symm.trans (snd_recvUnadvertise d fromIp q type m)
  | _ => exact (congrArg Prod.snd (Option.some.inj h)).symm

theorem sendto_not_mem_callbacks (d : Discovery) (fromIp q : Str) (body : Body) (b : Buffer) :
    .sendto b ∉ d.callbacks fromIp q body := by
  cases body with
  | advertise type m => dsimp only [callbacks]; split_ifs <;> simp
  | bye => dsimp only [callbacks]; split_ifs <;> simp
  | unadvertise type m => dsimp only [callbacks]; split_ifs <;> simp
  | _ => exact List.not_mem_nil

/-- A message makes an instance send, and execute the callbacks of the message. -/
theorem out_handle {fromIp q : Str} {body : Body} (h : d.handle fromIp q body = some (d', out)) :
    ∃ sent, out = sent ++ d.callbacks fromIp q body ∧ ∀ o ∈ sent, o.IsDatagram := by
  by_cases hsub : ∃ type m, body = .subscribe type m
  · obtain ⟨type, m, rfl⟩ := hsub
    rw [handle, recvSubscribe_eq, Option.map_eq_some_iff] at h
    obtain ⟨o, ho, h⟩ := h
    exact ⟨o, (congrArg Prod.snd h).symm.trans (List.append_nil o).symm, isDatagram_sendEach ho⟩
  · have hout := out_handle_of_ne_subscribe h fun type m hb => hsub ⟨type, m, hb⟩
    exact ⟨[], hout, by simp⟩

@[simp] theorem callbacks_touch (d : Discovery) (p fromIp q : Str) (now : Timestamp) (body : Body) :
    (d.touch p now).callbacks fromIp q body = d.callbacks fromIp q body := by
  cases body with
  | advertise type m => cases type <;> rfl
  | unadvertise type m => cases type <;> rfl
  | _ => rfl

theorem mem_callbacks_unadvertise {fromIp q : Str} {m : AdvertiseMsg} {args : CallbackArgs}
    (h : .disconnection .msg args ∈ d.callbacks fromIp q (.unadvertise .msg m)) :
    ¬ Hides d.hostAddr fromIp m.scope ∧ d.disconnectionCb = true ∧ args = advArgs q m := by
  dsimp only [callbacks] at h
  split_ifs at h with hc
  · obtain rfl : args = advArgs q m := by simpa using h
    exact ⟨hc.1, hc.2, rfl⟩
  · cases h

/-- Only an ADVERTISE of an address that is not stored makes a connection callback. -/
theorem mem_callbacks_connection {fromIp q : Str} {body : Body} {type : MsgType} {args : CallbackArgs} :
    .connection type args ∈ d.callbacks fromIp q body ↔ ∃ m, body = .advertise type m ∧
      ¬ Hides d.hostAddr fromIp m.scope ∧ ¬ (d.info type).Known m.topic q m.nUuid m.addr ∧
        d.hasConnectionCb type = true ∧ args = advArgs q m := by
  constructor
  · intro h
    cases body with
    | advertise type' m =>
      dsimp only [callbacks] at h
      split_ifs at h with hc
      · obtain ⟨rfl, rfl⟩ : type = type' ∧ args = advArgs q m := by simpa using h
        exact ⟨m, rfl, hc.1, hc.2.1, hc.2.2, rfl⟩
      · cases h
    | bye | unadvertise =>
      dsimp only [callbacks] at h
      split_ifs at h <;> simp at h
    | _ => cases h
  · rintro ⟨m, rfl, hshown, hnew, hcb, rfl⟩
    dsimp only [callbacks]
    rw [if_pos ⟨hshown, hnew, hcb⟩]
    exact List.mem_singleton.mpr rfl

/-- A callback is about the sender of the message. -/
theorem pUuid_of_mem_callbacks {fromIp q : Str} {body : Body} {type : MsgType} {args : CallbackArgs}
    (h : .disconnection type args ∈ d.callbacks fromIp q body) : args.pUuid = q := by
  cases body with
  | advertise type' m =>
    dsimp only [callbacks] at h
    split_ifs at h <;> simp at h
  | bye =>
    rcases List.mem_append.mp h with h | h
    · split_ifs at h
      · obtain ⟨-, rfl⟩ : type = .msg ∧ args = goneArgs q := by simpa using h
        rfl
      · cases h
    · split_ifs at h
      · obtain ⟨-, rfl⟩ : type = .srv ∧ args = goneArgs q := by simpa using h
        rfl
      · cases h
  | unadvertise type' m =>
    dsimp only [callbacks] at h
    split_ifs at h
    · obtain ⟨-, rfl⟩ : type = type' ∧ args = advArgs q m := by simpa using h
      rfl
    · cases h
  | _ => cases h

/-- Only BYE and UNADVERTISE report a disconnection of topics. -/
theorem not_mem_callbacks {fromIp q : Str} {body : Body} {args : CallbackArgs} (hbye : body ≠ .bye)
    (hunadv : ∀ m, body ≠ .unadvertise .msg m) : .disconnection .msg args ∉ d.callbacks fromIp q body := by
  intro h
  cases body with
  | advertise type m =>
    dsimp only [callbacks] at h
    split_ifs at h <;> simp at h
  | bye => exact hbye rfl
  | unadvertise type m =>
    cases type with
    | msg => exact hunadv m rfl
    | srv =>
      dsimp only [callbacks] at h
      split_ifs at h <;> simp at h
  | _ => cases h

/-- What a message leaves of the entries of a topic. -/
theorem cell_handle {fromIp q : Str} {body : Body} (h : d.handle fromIp q body = some (d', out)) (type : MsgType)
    (t r : Str) : (d'.info type).cell t r =
      if r = q then ((d.peer r).apply d.hostAddr fromIp body).entries type t else (d.info type).cell t r := by
  have hcell := congrArg (fun v : Peer => v.entries type t) ((peer_handle h).2 r)
  refine (show (d'.info type).cell t r = (d'.peer r).entries type t from rfl).trans (hcell.trans ?_)
  split_ifs <;> rfl

/-- An entry after a message was there before, and not unadvertised, or it is the one that the message added. -/
theorem mem_info_handle {fromIp q : Str} {body : Body} (h : d.handle fromIp q body = some (d', out)) {type : MsgType}
    {t r : Str} {a : Address} (ha : a ∈ (d'.info type).cell t r) :
    (a ∈ (d.info type).cell t r ∧ ∀ m, body = .unadvertise type m → ¬ Hides d.hostAddr fromIp m.scope →
      ¬ (t = m.topic ∧ r = q ∧ a.nUuid = m.nUuid)) ∨
    (r = q ∧ ∃ m, body = .advertise type m ∧ ¬ Hides d.hostAddr fromIp m.scope ∧
      ¬ (d.info type).Known m.topic q m.nUuid m.addr ∧ t = m.topic ∧ a = Peer.addressOf m) := by
  rw [cell_handle h] at ha
  split_ifs at ha with hr
  · subst hr
    cases body with
    | advertise type' m =>
      dsimp only [Peer.apply] at ha
      split_ifs at ha with hh
      · exact .inl ⟨ha, fun _ hm => by cases hm⟩
      · rw [Peer.entries_edit] at ha
        split_ifs at ha with hc
        · obtain ⟨rfl, rfl⟩ := hc
          unfold TopicStorage.addEntry at ha
          split_ifs at ha with hknown
          · exact .inl ⟨ha, fun _ hm => by cases hm⟩
          · rcases List.mem_append.mp ha with ha | ha
            · exact .inl ⟨ha, fun _ hm => by cases hm⟩
            · exact .inr ⟨rfl, m, rfl, hh, hknown, rfl, List.mem_singleton.mp ha⟩
        · exact .inl ⟨ha, fun _ hm => by cases hm⟩
    | unadvertise type' m =>
      dsimp only [Peer.apply] at ha
      split_ifs at ha with hh
      · refine .inl ⟨ha, fun m' hm hshown => ?_⟩
        cases hm
        exact absurd hh hshown
      · rw [Peer.entries_edit] at ha
        split_ifs at ha with hc
        · obtain ⟨ha, hne⟩ := List.mem_filter.mp ha
          refine .inl ⟨ha, fun m' hm _ hc' => ?_⟩
          cases hm
          exact (of_decide_eq_true hne) hc'.2.2
        · refine .inl ⟨ha, fun m' hm _ hc' => ?_⟩
          cases hm
          exact hc ⟨rfl, hc'.1⟩
    | bye => cases ha
    | _ => exact .inl ⟨ha, fun _ hm => by cases hm⟩
  · exact .inl ⟨ha, fun _ _ _ hc => hr hc.2.1⟩

theorem mem_cell_handle {fromIp q : Str} {body : Body} (h : d.handle fromIp q body = some (d', out)) {t r : Str}
    {a : Address} (ha : a ∈ d'.infoMsg.cell t r) :
    (a ∈ d.infoMsg.cell t r ∧ ∀ m, body = .unadvertise .msg m → ¬ Hides d.hostAddr fromIp m.scope →
      ¬ (t = m.topic ∧ r = q ∧ a.nUuid = m.nUuid)) ∨
    (r = q ∧ ∃ m, body = .advertise .msg m ∧ ¬ Hides d.hostAddr fromIp m.scope ∧
      ¬ d.infoMsg.Known m.topic q m.nUuid m.addr ∧ t = m.topic ∧ a = Peer.addressOf m) :=
  @mem_info_handle _ _ _ _ _ _ h .msg t r a ha

/-- What an operation leaves and puts out. -/
def perform (d : Discovery) : Op → Option (Discovery × List Output)
  | .advertise type topic addr ctrl nUuid scope => d.advertise type topic addr ctrl nUuid scope
  | .unadvertise type topic nUuid => d.unadvertise type topic nUuid
  | .discover topic isSrv => d.discover topic isSrv
  | .datagram g => d.dispatchDiscoveryMsg g.fromIp g.now g.msg
  | .heartbeat => d.heartbeat
  | .sweep now => d.runActivityTask now
  | .setConnectionsCb type set => some (d.setConnectionsCb type set, [])
  | .setDisconnectionsCb type set => some (d.setDisconnectionsCb type set, [])
  | .setSilenceInterval ms => some ({ d with silenceInterval := ms }, [])

theorem step_of_perform {d d' : Discovery} {op : Op} {out : List Output} (h : d.perform op = some (d', out)) :
    d.step op = some d' := by
  cases op <;> exact congrArg (Option.map Prod.fst) h

/-- An operation finds an address: an ADVERTISE brings one that is not stored, or somebody looks for what is stored. -/
def Finds (d : Discovery) (type : MsgType) (args : CallbackArgs) : Op → Prop
  | .datagram g => ∃ header m, readMessage d.pUuid g.msg = some (header, some (.advertise type m)) ∧
      ¬ Hides d.hostAddr g.fromIp m.scope ∧ ¬ (d.info type).Known m.topic header.pUuid m.nUuid m.addr ∧
        args = advArgs header.pUuid m
  | .discover topic isSrv => soughtType isSrv = type ∧
      ∃ q, ∃ a ∈ (d.info type).cell topic q, args = ⟨topic, a.addr, a.ctrl, q, a.nUuid, a.scope⟩
  | _ => False

/-- The connection callback is told what an operation finds. -/
theorem mem_connection_perform {d d' : Discovery} {op : Op} {out : List Output} (h : d.perform op = some (d', out))
    {type : MsgType} {args : CallbackArgs} :
    .connection type args ∈ out ↔ d.hasConnectionCb type = true ∧ d.Finds type args op := by
  have hsent : (∀ o ∈ out, o.IsDatagram) → .connection type args ∉ out := fun hout hmem => hout _ hmem
  cases op with
  | advertise => exact iff_of_false (hsent (isDatagram_advertise h)) fun hfinds => hfinds.2
  | unadvertise => exact iff_of_false (hsent (isDatagram_unadvertise h)) fun hfinds => hfinds.2
  | heartbeat => exact iff_of_false (hsent (isDatagram_heartbeat h)) fun hfinds => hfinds.2
  | sweep now =>
    refine iff_of_false (fun hmem => ?_) fun hfinds => hfinds.2
    obtain ⟨q, -, heq⟩ := (mem_out_sweep h _).mp hmem
    cases heq
  | setConnectionsCb | setDisconnectionsCb | setSilenceInterval =>
    cases h
    exact iff_of_false List.not_mem_nil fun hfinds => hfinds.2
  | discover topic isSrv =>
    obtain ⟨rfl, sent, replayed, rfl, hdatagrams, hreplayed⟩ := discover_eq_some h
    have hmem : .connection type args ∈ sent ++ replayed ↔ .connection type args ∈ replayed :=
      List.mem_append.trans (or_iff_right fun ho => hdatagrams _ ho)
    rw [hmem, hreplayed]
    constructor
    · rintro ⟨hcb, q, a, ha, heq⟩
      obtain ⟨rfl, rfl⟩ := Output.connection.inj heq
      exact ⟨hcb, rfl, q, a, ha, rfl⟩
    · rintro ⟨hcb, rfl, q, a, ha, rfl⟩
      exact ⟨hcb, q, a, ha, rfl⟩
  | datagram g =>
    rcases dispatch_cases h with ⟨header, hread, -, -, rfl⟩ | ⟨header, body, hread, -, hhandle⟩
    · refine iff_of_false List.not_mem_nil ?_
      rintro ⟨-, header', m, hread', -⟩
      cases hread.symm.trans hread'
    · obtain ⟨sent, rfl, hdatagrams⟩ := out_handle hhandle
      have hmem : .connection type args ∈ sent ++ d.callbacks g.fromIp header.pUuid body ↔
          .connection type args ∈ d.callbacks g.fromIp header.pUuid body :=
        List.mem_append.trans (or_iff_right fun ho => hdatagrams _ ho)
      rw [callbacks_touch, hmem, mem_callbacks_connection]
      constructor
      · rintro ⟨m, rfl, hshown, hnew, hcb, rfl⟩
        exact ⟨hcb, header, m, hread, hshown, hnew, rfl⟩
      · rintro ⟨hcb, header', m, hread', hshown, hnew, rfl⟩
        cases hread.symm.trans hread'
        exact ⟨m, rfl, hshown, hnew, hcb, rfl⟩

/-- Where an entry comes from: it was there, or the process itself advertised it, or an ADVERTISE brought it, which
the connection callback is told if it is set. -/
theorem mem_info_perform {d d' : Discovery} {op : Op} {out : List Output} (h : d.perform op = some (d', out))
    (hown : (d.peer d.pUuid).lastHeard = none) {type : MsgType} {t q : Str} {a : Address}
    (ha : a ∈ (d'.info type).cell t q) :
    a ∈ (d.info type).cell t q ∨
    (q = d.pUuid ∧ ∃ addr ctrl n scope, op = .advertise type t addr ctrl n scope ∧ a = ⟨addr, ctrl, n, scope⟩) ∨
    (q ≠ d.pUuid ∧ ∃ g header m, op = .datagram g ∧
      readMessage d.pUuid g.msg = some (header, some (.advertise type m)) ∧ q = header.pUuid ∧
      ¬ Hides d.hostAddr g.fromIp m.scope ∧ ¬ (d.info type).Known m.topic q m.nUuid m.addr ∧ t = m.topic ∧
      a = Peer.addressOf m ∧ (d.hasConnectionCb type = true → .connection type (advArgs q m) ∈ out)) := by
  have hstep := step_of_perform h
  by_cases hq : q = d.pUuid
  · subst hq
    have hentries : (d'.info type).cell t d.pUuid = (ownAct op (d.peer d.pUuid)).entries type t :=
      congrArg (fun v : Peer => v.entries type t) (own_step hstep hown)
    rw [hentries] at ha
    cases op with
    | advertise type' topic addr ctrl nUuid scope =>
      rw [ownAct, Peer.entries_edit] at ha
      split_ifs at ha with hc
      · obtain ⟨rfl, rfl⟩ := hc
        unfold TopicStorage.addEntry at ha
        split_ifs at ha
        · exact .inl ha
        · rcases List.mem_append.mp ha with ha | ha
          · exact .inl ha
          · exact .inr (.inl ⟨rfl, addr, ctrl, nUuid, scope, rfl, List.mem_singleton.mp ha⟩)
      · exact .inl ha
    | unadvertise type' topic nUuid =>
      rw [ownAct, Peer.entries_edit] at ha
      split_ifs at ha
      · exact .inl (List.mem_of_mem_filter ha)
      · exact .inl ha
    | _ => exact .inl ha
  · by_cases hop : ∃ g, op = .datagram g
    · obtain ⟨g, rfl⟩ := hop
      rcases dispatch_cases h with ⟨header, -, -, rfl, -⟩ | ⟨header, body, hread, -, hhandle⟩
      · exact .inl ha
      · have hinfo : ((d.touch header.pUuid g.now).info type) = d.info type := info_touch _ _ _ _
        rcases mem_info_handle hhandle ha with ⟨hold, -⟩ | ⟨rfl, m, rfl, hshown, hnew, rfl, rfl⟩
        · rw [hinfo] at hold
          exact .inl hold
        · rw [hinfo] at hnew
          refine .inr (.inr ⟨hq, g, header, m, rfl, hread, rfl, hshown, hnew, rfl, rfl, fun hcb => ?_⟩)
          obtain ⟨sent, rfl, -⟩ := out_handle hhandle
          refine List.mem_append_right _ ?_
          rw [callbacks_touch, callbacks, if_pos ⟨hshown, hnew, hcb⟩]
          exact List.mem_singleton.mpr rfl
    · exact .inl (entries_step hstep (fun g heq => hop ⟨g, heq⟩) hq ha)

end Callbacks

end Discovery

end IgnTransport
