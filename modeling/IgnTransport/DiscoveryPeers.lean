import Mathlib
import IgnTransport.Lib.Run
import IgnTransport.DiscoveryWire

/-!
# IgnTransport.DiscoveryPeers — what a discovery instance knows of each process

The abstract view: for every process UUID, the addresses it announced, topic by topic, and when it was last heard.
Every operation is a simple edit of that view (`peer_advertise`, `peer_unadvertise`, `peer_handle`, `peer_expire`),
and a state is its fixed part and its peers (`ext_peer`), so properties of the three maps are proved peer by peer.
-/

namespace IgnTransport

open Lib

/-- What is known of one process. -/
@[ext] structure Peer where
  entries : MsgType → Str → List Address
  lastHeard : Option Timestamp

namespace Peer

/-- Nothing is known. -/
def gone : Peer := ⟨fun _ _ => [], none⟩

/-- Change the entries of one topic. -/
def edit (v : Peer) (type : MsgType) (topic : Str) (f : List Address → List Address) : Peer :=
  { v with entries := fun type' topic' =>
      if type' = type ∧ topic' = topic then f (v.entries type' topic') else v.entries type' topic' }

@[simp] theorem lastHeard_edit (v : Peer) (type : MsgType) (topic : Str) (f : List Address → List Address) :
    (v.edit type topic f).lastHeard = v.lastHeard := rfl

theorem entries_edit (v : Peer) (type type' : MsgType) (topic topic' : Str) (f : List Address → List Address) :
    (v.edit type topic f).entries type' topic' =
      if type' = type ∧ topic' = topic then f (v.entries type' topic') else v.entries type' topic' := rfl

/-- The address of an [UN]ADVERTISE message. -/
def addressOf (m : AdvertiseMsg) : Address := ⟨m.addr, m.ctrl, m.nUuid, m.scope⟩

/-- What a message does to the entries of its sender. -/
def apply (hostAddr fromIp : Str) (v : Peer) : Discovery.Body → Peer
  | .advertise type m =>
    if Discovery.Hides hostAddr fromIp m.scope then v
    else v.edit type m.topic fun l => TopicStorage.addEntry l (addressOf m)
  | .subscribe _ _ => v
  | .heartbeat => v
  | .bye => gone
  | .unadvertise type m =>
    if Discovery.Hides hostAddr fromIp m.scope then v
    else v.edit type m.topic fun l => TopicStorage.delNode l m.nUuid
  | .unknown => v

/-- Something is stored of the process. -/
def Stored (v : Peer) : Prop := ∃ type t, v.entries type t ≠ []

/-- A message leaves the time of its sender alone, unless it is a BYE. -/
theorem lastHeard_apply (hostAddr fromIp : Str) (v : Peer) (body : Discovery.Body) :
    (v.apply hostAddr fromIp body).lastHeard = v.lastHeard ∨ v.apply hostAddr fromIp body = gone := by
  cases body with
  | bye => exact .inr rfl
  | advertise type m => left; simp only [apply]; split_ifs <;> rfl
  | unadvertise type m => left; simp only [apply]; split_ifs <;> rfl
  | _ => exact .inl rfl

theorem stored_gone : ¬ gone.Stored := by
  rintro ⟨type, t, h⟩
  exact h rfl

end Peer

namespace Discovery

/-! ## The view -/

section View

variable (d : Discovery)

/-- What is known of a process. -/
def peer (pUuid : Str) : Peer where
  entries type topic := (d.info type).cell topic pUuid
  lastHeard := d.activity[pUuid]?

/-- The part of the state that no operation changes. -/
def fixed : Discovery := { d with infoMsg := Table.empty, infoSrv := Table.empty, activity := ∅ }

/-- **A state is its fixed part and its peers.** -/
theorem ext_peer {d e : Discovery} (hfixed : d.fixed = e.fixed) (hpeer : ∀ p, d.peer p = e.peer p) : d = e := by
  have hinfo : ∀ type, d.info type = e.info type := fun type =>
    Table.ext_cell fun t p => congrFun (congrFun (congrArg Peer.entries (hpeer p)) type) t
  have hmsg : d.infoMsg = e.infoMsg := hinfo .msg
  have hsrv : d.infoSrv = e.infoSrv := hinfo .srv
  have hact : d.activity = e.activity :=
    Std.ExtTreeMap.ext_getElem? fun p => congrArg Peer.lastHeard (hpeer p)
  cases d
  cases e
  simp only [fixed, Discovery.mk.injEq] at hfixed
  simp only at hmsg hsrv hact
  simp only [Discovery.mk.injEq, hmsg, hsrv, hact, and_self, and_true]
  exact ⟨hfixed.1, hfixed.2.1, hfixed.2.2.1, hfixed.2.2.2.1, hfixed.2.2.2.2.1, hfixed.2.2.2.2.2.1,
    hfixed.2.2.2.2.2.2.1⟩

theorem pUuid_of_fixed {d e : Discovery} (h : d.fixed = e.fixed) : d.pUuid = e.pUuid :=
  congrArg (·.pUuid) h

theorem hostAddr_of_fixed {d e : Discovery} (h : d.fixed = e.fixed) : d.hostAddr = e.hostAddr :=
  congrArg (·.hostAddr) h

@[simp] theorem fixed_setInfo (type : MsgType) (s : TopicStorage) : (d.setInfo type s).fixed = d.fixed := by
  cases type <;> rfl

@[simp] theorem pUuid_setInfo (type : MsgType) (s : TopicStorage) : (d.setInfo type s).pUuid = d.pUuid := by
  cases type <;> rfl

@[simp] theorem activity_setInfo (type : MsgType) (s : TopicStorage) :
    (d.setInfo type s).activity = d.activity := by
  cases type <;> rfl

theorem info_setInfo (type type' : MsgType) (s : TopicStorage) :
    (d.setInfo type s).info type' = if type' = type then s else d.info type' := by
  cases type <;> cases type' <;> rfl

@[simp] theorem fixed_touch (p : Str) (now : Timestamp) : (d.touch p now).fixed = d.fixed := rfl

@[simp] theorem pUuid_touch (p : Str) (now : Timestamp) : (d.touch p now).pUuid = d.pUuid := rfl

@[simp] theorem hostAddr_touch (p : Str) (now : Timestamp) : (d.touch p now).hostAddr = d.hostAddr := rfl

@[simp] theorem info_touch (p : Str) (now : Timestamp) (type : MsgType) :
    (d.touch p now).info type = d.info type := by
  cases type <;> rfl

theorem info_delAddressesByProc (p : Str) (type : MsgType) :
    (d.delAddressesByProc p).info type = ((d.info type).delAddressesByProc p).1 := by
  cases type <;> rfl

theorem peer_touch (p q : Str) (now : Timestamp) :
    (d.touch p now).peer q = if q = p then { d.peer q with lastHeard := some now } else d.peer q := by
  have hact : (d.touch p now).activity[q]? = if q = p then some now else d.activity[q]? := getElem?_insert' _ _ _ _
  ext1
  · split_ifs <;> rfl
  · change (d.touch p now).activity[q]? = _
    rw [hact]
    split_ifs <;> rfl

/-- A store operation on one process and topic is an edit of that process. -/
theorem peer_setInfo {type : MsgType} {s : TopicStorage} {topic p : Str} {f : List Address → List Address}
    (hs : ∀ u q, s.cell u q = if u = topic ∧ q = p then f ((d.info type).cell u q) else (d.info type).cell u q)
    (q : Str) : (d.setInfo type s).peer q = if q = p then (d.peer q).edit type topic f else d.peer q := by
  ext1
  · funext type' u
    change ((d.setInfo type s).info type').cell u q = _
    rw [info_setInfo]
    by_cases htype : type' = type
    · rw [if_pos htype, hs]
      by_cases hq : q = p
      · simp only [hq, and_true, if_true, Peer.entries_edit, htype, true_and]
        rfl
      · simp only [hq, and_false, if_false, htype]
        rfl
    · rw [if_neg htype]
      split_ifs
      · rw [Peer.entries_edit, if_neg fun h => htype h.1]
        rfl
      · rfl
  · change (d.setInfo type s).activity[q]? = _
    rw [activity_setInfo]
    split_ifs <;> rfl

/-- A process that expires or says BYE is gone; no other is touched. -/
theorem peer_expire (p q : Str) : (d.expire p).peer q = if q = p then Peer.gone else d.peer q := by
  have hact : (d.expire p).activity[q]? = if q = p then none else d.activity[q]? := getElem?_erase' _ _ _
  ext1
  · funext type u
    change ((d.delAddressesByProc p).info type).cell u q = _
    rw [info_delAddressesByProc, TopicStorage.cell_delAddressesByProc]
    split_ifs <;> rfl
  · change (d.expire p).activity[q]? = _
    rw [hact]
    split_ifs <;> rfl

@[simp] theorem fixed_expire (p : Str) : (d.expire p).fixed = d.fixed := rfl

end View

/-! ## The operations -/

section Operations

variable {d d' : Discovery} {out : List Output}

/-- `SendMsg` looks at the process UUID only. -/
theorem sendMsg_congr {d e : Discovery} (h : d.pUuid = e.pUuid) (type : UInt8) (topic addr ctrl nUuid : Str)
    (scope : Scope) (flags : UInt16) :
    d.sendMsg type topic addr ctrl nUuid scope flags = e.sendMsg type topic addr ctrl nUuid scope flags := by
  simp only [sendMsg, advMsg, subMsg, header, h]

theorem sendEach_congr {d e : Discovery} (h : d.pUuid = e.pUuid) (type : UInt8) (topic : Str)
    (as : List Address) : d.sendEach type topic as = e.sendEach type topic as := by
  induction as with
  | nil => rfl
  | cons a as ih => rw [sendEach, sendEach, sendMsg_congr h, ih]

@[simp] theorem sendEach_touch (d : Discovery) (p : Str) (now : Timestamp) (type : UInt8) (topic : Str)
    (as : List Address) : (d.touch p now).sendEach type topic as = d.sendEach type topic as :=
  sendEach_congr (d := d.touch p now) (e := d) rfl type topic as

/-- What `Advertise` changes and sends. -/
theorem advertise_eq_some {type : MsgType} {topic addr ctrl nUuid : Str} {scope : Scope} :
    d.advertise type topic addr ctrl nUuid scope = some (d', out) ↔
      d' = d.setInfo type ((d.info type).addAddress topic addr ctrl d.pUuid nUuid scope).1 ∧
      (if scope = .process then some [] else d.sendMsg (advType type) topic addr ctrl nUuid scope) = some out := by
  unfold advertise
  have hsend := sendMsg_congr (pUuid_setInfo d type ((d.info type).addAddress topic addr ctrl d.pUuid nUuid scope).1)
    (advType type) topic addr ctrl nUuid scope 0
  split_ifs with h
  · simp [pure, eq_comm]
  · dsimp only
    rw [hsend]
    simp only [bind, pure, Option.bind_eq_some_iff, Option.some.injEq, Prod.mk.injEq]
    constructor
    · rintro ⟨o, ho, rfl, rfl⟩
      exact ⟨rfl, ho⟩
    · rintro ⟨rfl, ho⟩
      exact ⟨out, ho, rfl, rfl⟩

theorem peer_advertise {type : MsgType} {topic addr ctrl nUuid : Str} {scope : Scope}
    (h : d.advertise type topic addr ctrl nUuid scope = some (d', out)) :
    d'.fixed = d.fixed ∧ ∀ p, d'.peer p =
      if p = d.pUuid then
        (d.peer p).edit type topic fun l => TopicStorage.addEntry l ⟨addr, ctrl, nUuid, scope⟩
      else d.peer p := by
  obtain ⟨rfl, -⟩ := advertise_eq_some.mp h
  exact ⟨fixed_setInfo _ _ _, peer_setInfo d fun u q => TopicStorage.cell_addAddress _ _ _ _ _ _ _ _ _⟩

theorem Peer.edit_eq_self {v : Peer} {type : MsgType} {topic : Str} {f : List Address → List Address}
    (h : f (v.entries type topic) = v.entries type topic) : v.edit type topic f = v := by
  ext1
  · funext type' topic'
    rw [Peer.entries_edit]
    split_ifs with hc
    · rw [hc.1, hc.2, h]
    · rfl
  · rfl

theorem delNode_of_find?_none {l : List Address} {nUuid : Str} (h : l.find? (fun a => a.nUuid = nUuid) = none) :
    TopicStorage.delNode l nUuid = l := by
  rw [List.find?_eq_none] at h
  exact List.filter_eq_self.mpr fun a ha => by simpa using h a ha

/-- What `Unadvertise` changes and sends. -/
theorem unadvertise_eq_some {type : MsgType} {topic nUuid : Str}
    (h : d.unadvertise type topic nUuid = some (d', out)) :
    (d' = d ∧ out = [] ∧ (d.info type).getAddress topic d.pUuid nUuid = none) ∨
    ∃ inf, (d.info type).getAddress topic d.pUuid nUuid = some inf ∧
      d' = d.setInfo type ((d.info type).delAddressByNode topic d.pUuid nUuid).1 ∧
      (if inf.scope = .process then some []
        else d.sendMsg (unadvType type) topic inf.addr inf.ctrl nUuid inf.scope) = some out := by
  unfold unadvertise at h
  cases hget : (d.info type).getAddress topic d.pUuid nUuid with
  | none =>
    simp only [hget, pure, Option.some.injEq, Prod.mk.injEq] at h
    exact .inl ⟨h.1.symm, h.2.symm, rfl⟩
  | some inf =>
    right
    have hsend := sendMsg_congr (pUuid_setInfo d type ((d.info type).delAddressByNode topic d.pUuid nUuid).1)
      (unadvType type) topic inf.addr inf.ctrl nUuid inf.scope 0
    simp only [hget] at h
    rw [hsend] at h
    refine ⟨inf, rfl, ?_⟩
    split_ifs at h ⊢ with hs
    · simp only [pure, Option.some.injEq, Prod.mk.injEq] at h
      exact ⟨h.1.symm, congrArg some h.2⟩
    · simp only [bind, pure, Option.bind_eq_some_iff, Option.some.injEq, Prod.mk.injEq] at h
      obtain ⟨o, ho, rfl, rfl⟩ := h
      exact ⟨rfl, ho⟩

theorem peer_unadvertise {type : MsgType} {topic nUuid : Str}
    (h : d.unadvertise type topic nUuid = some (d', out)) :
    d'.fixed = d.fixed ∧ ∀ p, d'.peer p =
      if p = d.pUuid then (d.peer p).edit type topic fun l => TopicStorage.delNode l nUuid else d.peer p := by
  rcases unadvertise_eq_some h with ⟨rfl, -, hnone⟩ | ⟨inf, -, rfl, -⟩
  · refine ⟨rfl, fun p => ?_⟩
    split_ifs with hp
    · have hdel : TopicStorage.delNode ((d'.peer p).entries type topic) nUuid = (d'.peer p).entries type topic :=
        hp ▸ delNode_of_find?_none hnone
      exact (Peer.edit_eq_self hdel).symm
    · rfl
  · exact ⟨fixed_setInfo _ _ _, peer_setInfo d fun u q => TopicStorage.cell_delAddressByNode _ _ _ _ _ _⟩

theorem state_discover {topic : Str} {isSrv : Bool} (h : d.discover topic isSrv = some (d', out)) : d' = d := by
  unfold discover at h
  simp only [bind, pure, Option.bind_eq_some_iff] at h
  obtain ⟨o, -, h⟩ := h
  cases hget : (d.info (if isSrv = true then MsgType.srv else MsgType.msg)).getAddresses topic with
  | none => simp only [hget, Option.some.injEq, Prod.mk.injEq] at h; exact h.1.symm
  | some m => simp only [hget, Option.some.injEq, Prod.mk.injEq] at h; exact h.1.symm

theorem state_heartbeat (h : d.heartbeat = some (d', out)) : d' = d := by
  unfold heartbeat at h
  simp only [bind, pure, Option.bind_eq_some_iff, Option.some.injEq, Prod.mk.injEq] at h
  obtain ⟨-, -, -, -, -, -, h, -⟩ := h
  exact h.symm

/-- The loop of the sweep makes exactly the expired processes go. -/
theorem peer_sweepFrom {now : Timestamp} {entries : List (Str × Timestamp)}
    (h : sweepFrom now entries d = some (d', out)) :
    d'.fixed = d.fixed ∧ ∀ p, d'.peer p =
      if ∃ e ∈ entries, e.1 = p ∧ elapsedMs now e.2 > d.silenceInterval then Peer.gone else d.peer p := by
  induction entries generalizing d d' out with
  | nil =>
    rw [sweepFrom, Option.some.injEq, Prod.mk.injEq] at h
    obtain ⟨rfl, -⟩ := h
    exact ⟨rfl, fun p => by simp⟩
  | cons e entries ih =>
    obtain ⟨q, last⟩ := e
    rw [sweepFrom] at h
    split_ifs at h with hexp hcb
    · simp only [bind, pure, Option.bind_eq_some_iff, Option.some.injEq, Prod.mk.injEq, Prod.exists] at h
      obtain ⟨d₁, out₁, h, rfl, -⟩ := h
      obtain ⟨hfixed, hpeer⟩ := ih h
      refine ⟨hfixed, fun p => ?_⟩
      rw [hpeer p, peer_expire]
      by_cases hp : p = q
      · rw [if_pos hp, if_pos (⟨(q, last), by simp, hp.symm, hexp⟩ :
          ∃ e ∈ (q, last) :: entries, e.1 = p ∧ elapsedMs now e.2 > d.silenceInterval)]
        split_ifs <;> rfl
      · have hiff : (∃ e ∈ entries, e.1 = p ∧ elapsedMs now e.2 > (d.expire q).silenceInterval) ↔
            ∃ e ∈ (q, last) :: entries, e.1 = p ∧ elapsedMs now e.2 > d.silenceInterval := by
          simp only [List.mem_cons, exists_eq_or_imp]
          exact ⟨.inr, fun h => h.resolve_left fun h => hp h.1.symm⟩
        rw [if_neg hp]
        simp only [hiff]
    · obtain ⟨hfixed, hpeer⟩ := ih h
      refine ⟨hfixed, fun p => ?_⟩
      rw [hpeer p]
      have hiff : (∃ e ∈ entries, e.1 = p ∧ elapsedMs now e.2 > d.silenceInterval) ↔
          ∃ e ∈ (q, last) :: entries, e.1 = p ∧ elapsedMs now e.2 > d.silenceInterval := by
        simp only [List.mem_cons, exists_eq_or_imp]
        exact ⟨.inr, fun h => h.resolve_left fun h => hexp h.2⟩
      simp only [hiff]

/-- The process was last heard longer than the silence interval ago. -/
def Expired (d : Discovery) (now : Timestamp) (p : Str) : Prop :=
  ∃ last, d.activity[p]? = some last ∧ elapsedMs now last > d.silenceInterval

instance (d : Discovery) (now : Timestamp) (p : Str) : Decidable (d.Expired now p) :=
  decidable_of_iff ((d.activity[p]?).any (fun last => elapsedMs now last > d.silenceInterval) = true) (by
    rw [Option.any_eq_true]
    simp only [decide_eq_true_eq, Expired])

theorem peer_runActivityTask {now : Timestamp} (h : d.runActivityTask now = some (d', out)) :
    d'.fixed = d.fixed ∧ (∀ p, d.Expired now p → d'.peer p = Peer.gone) ∧
      ∀ p, ¬ d.Expired now p → d'.peer p = d.peer p := by
  obtain ⟨hfixed, hpeer⟩ := peer_sweepFrom h
  have hiff : ∀ p, (∃ e ∈ d.activity.toList, e.1 = p ∧ elapsedMs now e.2 > d.silenceInterval) ↔
      d.Expired now p := by
    intro p
    simp only [Prod.exists, Std.ExtTreeMap.mem_toList_iff_getElem?_eq_some, Expired]
    constructor
    · rintro ⟨q, last, hmem, rfl, hexp⟩
      exact ⟨last, hmem, hexp⟩
    · rintro ⟨last, hmem, hexp⟩
      exact ⟨p, last, hmem, rfl, hexp⟩
  refine ⟨hfixed, fun p hp => ?_, fun p hp => ?_⟩
  · rw [hpeer p, if_pos ((hiff p).mpr hp)]
  · rw [hpeer p, if_neg (mt (hiff p).mp hp)]

/-! ## Reception -/

theorem fst_recvAdvertise (d : Discovery) (fromIp q : Str) (type : MsgType) (m : AdvertiseMsg) :
    (d.recvAdvertise fromIp q type m).1 = if Hides d.hostAddr fromIp m.scope then d
      else d.setInfo type ((d.info type).addAddress m.topic m.addr m.ctrl q m.nUuid m.scope).1 := by
  unfold recvAdvertise
  split_ifs <;> rfl

theorem fst_recvUnadvertise (d : Discovery) (fromIp q : Str) (type : MsgType) (m : AdvertiseMsg) :
    (d.recvUnadvertise fromIp q type m).1 = if Hides d.hostAddr fromIp m.scope then d
      else d.setInfo type ((d.info type).delAddressByNode m.topic q m.nUuid).1 := by
  unfold recvUnadvertise
  split_ifs <;> rfl

/-- The answer to a discovery request: the own entries that are not hidden from the requester. -/
theorem recvSubscribe_eq (d : Discovery) (fromIp : Str) (type : MsgType) (m : SubscriptionMsg) :
    d.recvSubscribe fromIp type m = (d.sendEach (advType type) m.topic
      (((d.info type).cell m.topic d.pUuid).filter fun a => ¬ Hides d.hostAddr fromIp a.scope)).map
        fun out => (d, out) := by
  unfold recvSubscribe
  by_cases hany : (d.info type).hasAnyAddresses m.topic d.pUuid = true
  · have htopic : (d.info type).hasTopic m.topic = true :=
      (TopicStorage.hasTopic_iff _ _).mpr ⟨_, (TopicStorage.hasAnyAddresses_iff _ _ _).mp hany⟩
    have hget : (d.info type).getAddresses m.topic = some ((d.info type).row m.topic) :=
      (TopicStorage.getAddresses_eq_some_iff _ _ _).mpr ⟨htopic, rfl⟩
    rw [if_pos hany, hget]
    change ((d.sendEach _ _ _).bind fun out => some (d, out)) = _
    rw [Option.map_eq_bind]
    rfl
  · have hnil : (d.info type).cell m.topic d.pUuid = [] := by
      rw [TopicStorage.hasAnyAddresses_iff] at hany
      exact not_not.mp hany
    rw [if_neg hany, hnil]
    rfl

theorem state_recvSubscribe {fromIp : Str} {type : MsgType} {m : SubscriptionMsg}
    (h : d.recvSubscribe fromIp type m = some (d', out)) : d' = d := by
  rw [recvSubscribe_eq, Option.map_eq_some_iff] at h
  obtain ⟨_, _, h⟩ := h
  exact (congrArg Prod.fst h).symm

theorem peer_recvAdvertise (d : Discovery) (fromIp q : Str) (type : MsgType) (m : AdvertiseMsg) :
    (d.recvAdvertise fromIp q type m).1.fixed = d.fixed ∧ ∀ p, (d.recvAdvertise fromIp q type m).1.peer p =
      if p = q then (d.peer p).apply d.hostAddr fromIp (.advertise type m) else d.peer p := by
  rw [fst_recvAdvertise]
  split_ifs with hh
  · exact ⟨rfl, fun p => by simp [Peer.apply, if_pos hh]⟩
  · refine ⟨fixed_setInfo _ _ _, fun p => ?_⟩
    have hs := fun u q' => TopicStorage.cell_addAddress (d.info type) m.topic u q q' m.nUuid m.addr m.ctrl m.scope
    rw [peer_setInfo d (f := fun l => TopicStorage.addEntry l (Peer.addressOf m)) hs]
    simp only [Peer.apply, if_neg hh]

theorem peer_recvUnadvertise (d : Discovery) (fromIp q : Str) (type : MsgType) (m : AdvertiseMsg) :
    (d.recvUnadvertise fromIp q type m).1.fixed = d.fixed ∧ ∀ p, (d.recvUnadvertise fromIp q type m).1.peer p =
      if p = q then (d.peer p).apply d.hostAddr fromIp (.unadvertise type m) else d.peer p := by
  rw [fst_recvUnadvertise]
  split_ifs with hh
  · exact ⟨rfl, fun p => by simp [Peer.apply, if_pos hh]⟩
  · refine ⟨fixed_setInfo _ _ _, fun p => ?_⟩
    have hs := fun u q' => TopicStorage.cell_delAddressByNode (d.info type) m.topic u q q' m.nUuid
    rw [peer_setInfo d (f := fun l => TopicStorage.delNode l m.nUuid) hs]
    simp only [Peer.apply, if_neg hh]

/-- A message acts on what is known of its sender, and on nothing else. -/
theorem peer_handle {fromIp q : Str} {body : Body} (h : d.handle fromIp q body = some (d', out)) :
    d'.fixed = d.fixed ∧ ∀ p, d'.peer p = if p = q then (d.peer p).apply d.hostAddr fromIp body else d.peer p := by
  cases body with
  | advertise type m =>
    have hd : d' = (d.recvAdvertise fromIp q type m).1 := congrArg Prod.fst (Option.some.inj h).symm
    exact hd ▸ peer_recvAdvertise d fromIp q type m
  | subscribe type m =>
    obtain rfl := state_recvSubscribe h
    exact ⟨rfl, fun p => by simp [Peer.apply]⟩
  | heartbeat =>
    obtain rfl : d' = d := congrArg Prod.fst (Option.some.inj h).symm
    exact ⟨rfl, fun p => by simp [Peer.apply]⟩
  | bye =>
    obtain rfl : d' = d.expire q := congrArg Prod.fst (Option.some.inj h).symm
    exact ⟨rfl, peer_expire d q⟩
  | unadvertise type m =>
    have hd : d' = (d.recvUnadvertise fromIp q type m).1 := congrArg Prod.fst (Option.some.inj h).symm
    exact hd ▸ peer_recvUnadvertise d fromIp q type m
  | unknown =>
    obtain rfl : d' = d := congrArg Prod.fst (Option.some.inj h).symm
    exact ⟨rfl, fun p => by simp [Peer.apply]⟩

/-- The two ways a dispatch can go. -/
theorem dispatch_cases {fromIp : Str} {now : Timestamp} {msg : Buffer}
    (h : d.dispatchDiscoveryMsg fromIp now msg = some (d', out)) :
    (∃ header, readMessage d.pUuid msg = some (header, none) ∧ header.pUuid = d.pUuid ∧ d' = d ∧ out = []) ∨
    ∃ header body, readMessage d.pUuid msg = some (header, some body) ∧ header.pUuid ≠ d.pUuid ∧
      (d.touch header.pUuid now).handle fromIp header.pUuid body = some (d', out) := by
  rw [dispatch_eq_readMessage, Option.bind_eq_some_iff] at h
  obtain ⟨⟨header, body⟩, hread, h⟩ := h
  have hown : header.pUuid = d.pUuid ↔ body = none := by
    unfold readMessage at hread
    simp only [bind, pure, Option.bind_eq_some_iff] at hread
    obtain ⟨⟨hdr, n⟩, -, hread⟩ := hread
    split_ifs at hread with hp
    · simp only [Option.some.injEq, Prod.mk.injEq] at hread
      obtain ⟨rfl, rfl⟩ := hread
      exact iff_of_true hp rfl
    · simp only [Option.bind_eq_some_iff, Option.some.injEq, Prod.mk.injEq] at hread
      obtain ⟨b, -, rfl, rfl⟩ := hread
      exact iff_of_false hp (by simp)
  cases body with
  | none =>
    simp only [Option.some.injEq, Prod.mk.injEq] at h
    exact .inl ⟨header, hread, hown.mpr rfl, h.1.symm, h.2.symm⟩
  | some body => exact .inr ⟨header, body, hread, by simp [hown], h⟩

/-- A dispatch acts on what is known of the sender of the datagram, and on nothing else. -/
theorem peer_dispatch {fromIp : Str} {now : Timestamp} {msg : Buffer} {header : Header} {body : Body}
    (hread : readMessage d.pUuid msg = some (header, some body))
    (h : d.dispatchDiscoveryMsg fromIp now msg = some (d', out)) :
    d'.fixed = d.fixed ∧ ∀ p, d'.peer p =
      if p = header.pUuid then
        Peer.apply d.hostAddr fromIp { d.peer p with lastHeard := some now } body
      else d.peer p := by
  rcases dispatch_cases h with ⟨hdr, hnone, -⟩ | ⟨hdr, b, hsome, -, hh⟩
  · rw [hread] at hnone
    simp at hnone
  · rw [hread, Option.some.injEq, Prod.mk.injEq, Option.some.injEq] at hsome
    obtain ⟨rfl, rfl⟩ := hsome
    obtain ⟨hfixed, hpeer⟩ := peer_handle hh
    refine ⟨hfixed, fun p => ?_⟩
    rw [hpeer p, peer_touch]
    split_ifs <;> rfl

end Operations

end Discovery

end IgnTransport
