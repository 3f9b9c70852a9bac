import Mathlib
import IgnTransport.DiscoveryPeers
import IgnTransport.DiscoverySend

/-!
# IgnTransport.DiscoveryNoninterference — a sender cannot touch what is known of another

A dispatched datagram acts on the view of its sender (`view_dispatch`), so what is known of a process after any
sequence of datagrams is what its own datagrams make of it, and the order in which the senders are interleaved does
not matter.
-/

namespace IgnTransport

open Lib

/-- A datagram as it is dispatched: its source address, the clock reading and the contents of `rcvStr`. -/
structure Datagram where
  fromIp : Str
  now : Timestamp
  msg : Buffer
  deriving DecidableEq, Repr

namespace Datagram

/-- The UUID in the header. -/
def sender (g : Datagram) : Option Str := (Header.unpack {} g.msg (some 0)).map fun r => r.1.pUuid

/-- A complete encoding in a buffer of `RecvDiscoveryUpdate`. -/
def WellFormed (g : Datagram) : Prop := Discovery.CompleteEncoding g.msg ∧ g.msg.length ≤ Discovery.MaxRcvStr

end Datagram

namespace Discovery

/-! ## Sequences of datagrams -/

section Sequences

/-- The state after a dispatch. -/
def dispatch (d : Discovery) (g : Datagram) : Option Discovery :=
  (d.dispatchDiscoveryMsg g.fromIp g.now g.msg).map Prod.fst

/-- The state after a sequence of dispatches. -/
def dispatchAll (d : Discovery) (gs : List Datagram) : Option Discovery := run dispatch d gs

/-- The peer that a datagram is about: its sender, unless that is this very process. -/
def about (pUuid : Str) (g : Datagram) : Option Str :=
  (readMessage pUuid g.msg).bind fun r => r.2.map fun _ => r.1.pUuid

/-- What a datagram does to what is known of the peer it is about. -/
def act (pUuid hostAddr : Str) (g : Datagram) (v : Peer) : Peer :=
  match readMessage pUuid g.msg with
  | some (_, some body) => Peer.apply hostAddr g.fromIp { v with lastHeard := some g.now } body
  | _ => v

theorem dispatch_eq_some {d d' : Discovery} {g : Datagram} (h : d.dispatch g = some d') :
    ∃ out, d.dispatchDiscoveryMsg g.fromIp g.now g.msg = some (d', out) := by
  obtain ⟨⟨e, out⟩, hmsg, rfl⟩ := Option.map_eq_some_iff.mp h
  exact ⟨out, hmsg⟩

theorem fixed_dispatch {d d' : Discovery} {g : Datagram} (h : d.dispatch g = some d') : d'.fixed = d.fixed := by
  obtain ⟨out, h⟩ := dispatch_eq_some h
  rcases dispatch_cases h with ⟨_, _, _, rfl, _⟩ | ⟨header, body, hread, _⟩
  · rfl
  · exact (peer_dispatch hread h).1

/-- **A datagram acts on the view of its sender only.** -/
theorem view_dispatch {d d' : Discovery} {g : Datagram} (h : d.dispatch g = some d') (p : Str) :
    d'.peer p = if about d.pUuid g = some p then act d.pUuid d.hostAddr g (d.peer p) else d.peer p := by
  obtain ⟨out, h⟩ := dispatch_eq_some h
  rcases dispatch_cases h with ⟨header, hread, _, rfl, _⟩ | ⟨header, body, hread, _⟩
  · simp [about, hread]
  · rw [(peer_dispatch hread h).2 p]
    simp only [about, hread, act, Option.bind_some, Option.map_some, Option.some.injEq, eq_comm (a := p)]

theorem about_ne_own (pUuid : Str) (g : Datagram) : about pUuid g ≠ some pUuid := by
  intro h
  simp only [about, Option.bind_eq_some_iff, Option.map_eq_some_iff] at h
  obtain ⟨⟨header, body⟩, hread, b, hb, hp⟩ := h
  simp only at hb hp
  unfold readMessage at hread
  simp only [bind, pure, Option.bind_eq_some_iff] at hread
  obtain ⟨⟨hdr, n⟩, -, hread⟩ := hread
  split_ifs at hread with hown
  · simp only [Option.some.injEq, Prod.mk.injEq] at hread
    rw [← hread.2] at hb
    exact absurd hb (by simp)
  · simp only [Option.bind_eq_some_iff, Option.some.injEq, Prod.mk.injEq] at hread
    obtain ⟨_, _, hhdr, _⟩ := hread
    rw [← hhdr] at hp
    exact hown hp

theorem sender_of_readMessage {pUuid : Str} {g : Datagram} {header : Header} {body : Option Body}
    (hread : readMessage pUuid g.msg = some (header, body)) : g.sender = some header.pUuid := by
  unfold readMessage at hread
  simp only [bind, pure, Option.bind_eq_some_iff] at hread
  obtain ⟨⟨hdr, n⟩, hunpack, hread⟩ := hread
  have hhdr : hdr = header := by
    split_ifs at hread
    · simp only [Option.some.injEq, Prod.mk.injEq] at hread
      exact hread.1
    · simp only [Option.bind_eq_some_iff, Option.some.injEq, Prod.mk.injEq] at hread
      obtain ⟨_, _, hhdr, _⟩ := hread
      exact hhdr
  rw [Datagram.sender, hunpack, Option.map_some, hhdr]

/-- For another process, the datagrams about it are the ones it sent. -/
theorem about_iff_sender {d d' : Discovery} {g : Datagram} (h : d.dispatch g = some d') {p : Str}
    (hp : p ≠ d.pUuid) : about d.pUuid g = some p ↔ g.sender = some p := by
  obtain ⟨out, h⟩ := dispatch_eq_some h
  rcases dispatch_cases h with ⟨header, hread, hown, -⟩ | ⟨header, body, hread, -⟩
  · rw [sender_of_readMessage hread, hown]
    simp [about, hread, hp.symm]
  · rw [sender_of_readMessage hread]
    simp [about, hread]

/-! ## Definedness -/

/-- The part of a state that decides whether a dispatch returns and that no dispatch changes. -/
def SameOwn (d e : Discovery) : Prop :=
  e.fixed = d.fixed ∧ e.peer d.pUuid = d.peer d.pUuid

theorem sameOwn_dispatch {d d' : Discovery} {g : Datagram} (h : d.dispatch g = some d') : SameOwn d d' := by
  refine ⟨fixed_dispatch h, ?_⟩
  rw [view_dispatch h, if_neg (about_ne_own _ _)]

theorem SameOwn.trans {d e f : Discovery} (h : SameOwn d e) (h' : SameOwn e f) : SameOwn d f := by
  have hp := pUuid_of_fixed h.1
  exact ⟨h'.1.trans h.1, by rw [← h.2, ← hp, h'.2]⟩

/-- A handler returns unless a reply to a discovery request cannot be packed. -/
theorem isSome_handle (d : Discovery) (fromIp q : Str) (body : Body) : (d.handle fromIp q body).isSome ↔
    ∀ type m, body = .subscribe type m → (d.sendEach (advType type) m.topic
      (((d.info type).cell m.topic d.pUuid).filter fun a => ¬ Hides d.hostAddr fromIp a.scope)).isSome := by
  cases body with
  | subscribe type m =>
    simp only [handle, recvSubscribe_eq, Option.isSome_map, Body.subscribe.injEq, and_imp]
    exact ⟨fun h => by rintro _ _ rfl rfl; exact h, fun h => h _ _ rfl rfl⟩
  | _ => simp [handle]

theorem isSome_dispatch (d : Discovery) (g : Datagram) : (d.dispatch g).isSome ↔
    (readMessage d.pUuid g.msg).isSome ∧
      ∀ header type m, readMessage d.pUuid g.msg = some (header, some (.subscribe type m)) →
        (d.sendEach (advType type) m.topic
          (((d.info type).cell m.topic d.pUuid).filter fun a => ¬ Hides d.hostAddr g.fromIp a.scope)).isSome := by
  rw [dispatch, Option.isSome_map, dispatch_eq_readMessage]
  cases hread : readMessage d.pUuid g.msg with
  | none => simp
  | some r =>
    obtain ⟨header, body⟩ := r
    cases body with
    | none => simp
    | some body =>
      simp only [Option.bind_some, isSome_handle, Option.isSome_some, true_and, Option.some.injEq,
        Prod.mk.injEq, info_touch, sendEach_touch, pUuid_touch, hostAddr_touch]
      constructor
      · rintro h _ type m ⟨_, hb⟩
        exact h type m hb
      · intro h type m hb
        exact h header type m ⟨rfl, hb⟩

theorem isSome_dispatch_congr {d e : Discovery} (h : SameOwn d e) (g : Datagram) :
    (d.dispatch g).isSome = (e.dispatch g).isSome := by
  obtain ⟨hfixed, hpeer⟩ := h
  have hp := pUuid_of_fixed hfixed
  have hhost := hostAddr_of_fixed hfixed
  have hcell : ∀ type t, (e.info type).cell t d.pUuid = (d.info type).cell t d.pUuid := fun type t =>
    congrFun (congrFun (congrArg Peer.entries hpeer) type) t
  rw [Bool.eq_iff_iff, isSome_dispatch, isSome_dispatch, hp, hhost]
  simp only [hcell, sendEach_congr hp]

/-- A sequence of dispatches returns when each of them does from the first state. -/
theorem isSome_dispatchAll (d : Discovery) (gs : List Datagram) :
    (d.dispatchAll gs).isSome ↔ ∀ g ∈ gs, (d.dispatch g).isSome :=
  isSome_run SameOwn (fun _ _ _ => SameOwn.trans) (fun _ _ _ => sameOwn_dispatch)
    (fun _ _ g h => isSome_dispatch_congr h g) ⟨rfl, rfl⟩

end Sequences

/-! ## Noninterference -/

section Noninterference

/-- The strings of a process and of what it advertises are short enough for `SendMsg` to pack them. -/
def Fits (d : Discovery) : Prop :=
  d.pUuid.length < 2 ^ 31 - 13 ∧ ∀ type t, ∀ a ∈ (d.info type).cell t d.pUuid,
    a.addr.length < 2 ^ 31 ∧ a.ctrl.length < 2 ^ 31 ∧ a.nUuid.length < 2 ^ 31

theorem isSome_sendEach {d : Discovery} {type : UInt8} (htype : type ∈ [AdvType, UnadvType, AdvSrvType, UnadvSrvType])
    {topic : Str} (hp : d.pUuid.length < 2 ^ 31 - 13) (ht : topic.length < 2 ^ 31) {as : List Address}
    (has : ∀ a ∈ as, a.addr.length < 2 ^ 31 ∧ a.ctrl.length < 2 ^ 31 ∧ a.nUuid.length < 2 ^ 31) :
    (d.sendEach type topic as).isSome := by
  induction as with
  | nil => rfl
  | cons a as ih =>
    obtain ⟨ha, has⟩ := List.forall_mem_cons.mp has
    have hfit : (d.advMsg type topic a.addr a.ctrl a.nUuid a.scope 0).Fits :=
      ⟨⟨hp, ht, ha.1, ha.2.1, ha.2.2⟩, by simp [advMsg, ascii]⟩
    obtain ⟨outs, houts⟩ := Option.isSome_iff_exists.mp (ih has)
    rw [sendEach, sendMsg_adv htype hfit, houts]
    rfl

theorem topic_length_of_read {pUuid : Str} {msg : Buffer} (hlen : msg.length ≤ MaxRcvStr) {header : Header}
    {type : MsgType} {m : SubscriptionMsg}
    (h : readMessage pUuid msg = some (header, some (.subscribe type m))) : m.topic.length < 2 ^ 31 := by
  have hshort : msg.length < 2 ^ 31 := Nat.lt_of_le_of_lt hlen (by decide)
  rw [readMessage_of_decode hshort, Option.bind_eq_some_iff] at h
  obtain ⟨⟨hdr, rest⟩, hdec, h⟩ := h
  have hrest : rest.length ≤ msg.length := by
    have := congrArg List.length (headerCodec.eq_encode_append hdec)
    rw [List.length_append] at this
    omega
  simp only at h
  split_ifs at h
  · simp at h
  · simp only [Option.map_eq_some_iff, Prod.mk.injEq, Option.some.injEq] at h
    obtain ⟨body, hbody, -, rfl⟩ := h
    unfold decodeBody at hbody
    split_ifs at hbody <;> simp only [Option.map_eq_some_iff, Option.some.injEq, reduceCtorEq, and_false,
      exists_false, Body.subscribe.injEq] at hbody
    all_goals
      obtain ⟨⟨t, more⟩, hdecode, -, rfl⟩ := hbody
      have hlen' := congrArg List.length (strCodec.eq_encode_append hdecode)
      rw [List.length_append, length_encode_str] at hlen'
      simp only
      omega

theorem isSome_dispatch_of_wellFormed {d : Discovery} (hfit : d.Fits) {g : Datagram} (hg : g.WellFormed) :
    (d.dispatch g).isSome := by
  obtain ⟨hcomplete, hlen⟩ := hg
  refine (isSome_dispatch d g).mpr ⟨(isSome_readMessage hlen d.pUuid).mpr (.inl hcomplete), ?_⟩
  intro header type m hread
  have htype : advType type ∈ [AdvType, UnadvType, AdvSrvType, UnadvSrvType] := by
    cases type <;> decide
  refine isSome_sendEach htype hfit.1 (topic_length_of_read hlen hread) fun a ha => ?_
  exact hfit.2 type m.topic a (List.mem_of_mem_filter ha)

theorem peer_dispatchAll {d d' : Discovery} {gs : List Datagram} (h : d.dispatchAll gs = some d') (p : Str) :
    d'.peer p = (gs.filter fun g => about d.pUuid g = some p).foldl
      (fun v g => act d.pUuid d.hostAddr g v) (d.peer p) :=
  view_run (fun e => e.fixed = d.fixed)
    (fun _ _ _ he hstep => (fixed_dispatch hstep).trans he)
    (fun e g e' he hstep k => by
      rw [view_dispatch hstep k, pUuid_of_fixed he, hostAddr_of_fixed he])
    rfl h p

theorem fixed_dispatchAll {d d' : Discovery} {gs : List Datagram} (h : d.dispatchAll gs = some d') :
    d'.fixed = d.fixed :=
  run_invariant (fun e => e.fixed = d.fixed) rfl
    (fun _ _ _ he hstep => (fixed_dispatch hstep).trans he) h

/-- The datagrams of one sender. -/
def sentBy (p : Str) (gs : List Datagram) : List Datagram := gs.filter fun g => g.sender = some p

theorem filter_about {d : Discovery} {gs : List Datagram} (hdef : ∀ g ∈ gs, (d.dispatch g).isSome) {p : Str}
    (hp : p ≠ d.pUuid) : (gs.filter fun g => about d.pUuid g = some p) = sentBy p gs := by
  refine List.filter_congr fun g hg => ?_
  obtain ⟨d', hd'⟩ := Option.isSome_iff_exists.mp (hdef g hg)
  exact decide_eq_decide.mpr (about_iff_sender hd' hp)

theorem filter_about_own (d : Discovery) (gs : List Datagram) :
    (gs.filter fun g => about d.pUuid g = some d.pUuid) = [] :=
  List.filter_eq_nil_iff.mpr fun g _ => by simp [about_ne_own]

theorem sender_of_wellFormed {g : Datagram} (hg : g.WellFormed) : ∃ p, g.sender = some p := by
  obtain ⟨⟨h, rest, hvalid, hmsg, -⟩, -⟩ := hg
  have hunpack := header_unpack {} [] g.msg
  rw [hmsg, headerCodec.decode_encode hvalid, ← hmsg] at hunpack
  exact ⟨h.pUuid, by rw [Datagram.sender]; exact congrArg (Option.map _) hunpack⟩

theorem mem_of_sentBy_eq {gs gs' : List Datagram} (h : ∀ p, sentBy p gs' = sentBy p gs)
    (hwf : ∀ g ∈ gs', g.WellFormed) {g : Datagram} (hg : g ∈ gs') : g ∈ gs := by
  obtain ⟨p, hp⟩ := sender_of_wellFormed (hwf g hg)
  have hmem : g ∈ sentBy p gs' := List.mem_filter.mpr ⟨hg, by simpa using hp⟩
  rw [h p] at hmem
  exact List.mem_of_mem_filter hmem

/-- What is known of another process, from its own datagrams. -/
theorem peer_dispatchAll_sentBy {d d₁ : Discovery} {gs : List Datagram} (h : d.dispatchAll gs = some d₁) {p : Str}
    (hp : p ≠ d.pUuid) :
    d₁.peer p = (sentBy p gs).foldl (fun v g => act d.pUuid d.hostAddr g v) (d.peer p) := by
  have hdef := (isSome_dispatchAll d gs).mp (Option.isSome_iff_exists.mpr ⟨d₁, h⟩)
  rw [peer_dispatchAll h p, filter_about hdef hp]

theorem peer_dispatchAll_own {d d₁ : Discovery} {gs : List Datagram} (h : d.dispatchAll gs = some d₁) :
    d₁.peer d.pUuid = d.peer d.pUuid := by
  rw [peer_dispatchAll h, filter_about_own]
  rfl

theorem sentBy_sentBy (p : Str) (gs : List Datagram) : sentBy p (sentBy p gs) = sentBy p gs := by
  unfold sentBy
  rw [List.filter_filter]
  simp

/-- **Per-sender noninterference.**  A sequence of well-formed datagrams is dispatched; what is then known of another
process is what its own datagrams alone leave, what is known of this process is unchanged, and any interleaving of the
same senders' datagrams reaches the same state. -/
theorem discovery_noninterference (d : Discovery) (gs : List Datagram) (hwf : ∀ g ∈ gs, g.WellFormed) :
    (d.Fits → ∃ d₁, d.dispatchAll gs = some d₁) ∧
    ∀ d₁, d.dispatchAll gs = some d₁ →
      (∀ p, p ≠ d.pUuid → ∃ d₂, d.dispatchAll (sentBy p gs) = some d₂ ∧
        (∀ type t, (d₁.info type).cell t p = (d₂.info type).cell t p) ∧ d₁.activity[p]? = d₂.activity[p]?) ∧
      (∀ type t, (d₁.info type).cell t d.pUuid = (d.info type).cell t d.pUuid) ∧
      ∀ gs', (∀ g ∈ gs', g.WellFormed) → (∀ p, sentBy p gs' = sentBy p gs) → d.dispatchAll gs' = some d₁ := by
  refine ⟨fun hfit => ?_, fun d₁ hrun => ?_⟩
  · exact Option.isSome_iff_exists.mp
      ((isSome_dispatchAll d gs).mpr fun g hg => isSome_dispatch_of_wellFormed hfit (hwf g hg))
  have hdef := (isSome_dispatchAll d gs).mp (Option.isSome_iff_exists.mpr ⟨d₁, hrun⟩)
  refine ⟨fun p hp => ?_, fun type t => ?_, fun gs' hwf' hperm => ?_⟩
  · obtain ⟨d₂, hrun₂⟩ := Option.isSome_iff_exists.mp
      ((isSome_dispatchAll d (sentBy p gs)).mpr fun g hg => hdef g (List.mem_of_mem_filter hg))
    have hpeer : d₁.peer p = d₂.peer p := by
      rw [peer_dispatchAll_sentBy hrun hp, peer_dispatchAll_sentBy hrun₂ hp, sentBy_sentBy]
    exact ⟨d₂, hrun₂, fun type t => congrFun (congrFun (congrArg Peer.entries hpeer) type) t,
      congrArg Peer.lastHeard hpeer⟩
  · exact congrFun (congrFun (congrArg Peer.entries (peer_dispatchAll_own hrun)) type) t
  · obtain ⟨d₃, hrun₃⟩ := Option.isSome_iff_exists.mp
      ((isSome_dispatchAll d gs').mpr fun g hg => hdef g (mem_of_sentBy_eq hperm hwf' hg))
    have heq : d₃ = d₁ := by
      refine ext_peer ((fixed_dispatchAll hrun₃).trans (fixed_dispatchAll hrun).symm) fun p => ?_
      by_cases hp : p = d.pUuid
      · rw [hp, peer_dispatchAll_own hrun₃, peer_dispatchAll_own hrun]
      · rw [peer_dispatchAll_sentBy hrun₃ hp, peer_dispatchAll_sentBy hrun hp, hperm p]
    rw [hrun₃, heq]

/-- A heartbeat of a process. -/
def heartbeatFrom (pUuid : Str) (now : Timestamp) : Datagram :=
  ⟨[2], now, headerCodec.encode { version := 1, pUuid, type := HeartbeatType }⟩

theorem wellFormed_heartbeatFrom {pUuid : Str} (hlen : pUuid.length < 1000) (now : Timestamp) :
    (heartbeatFrom pUuid now).WellFormed := by
  have hbody : CompleteBody HeartbeatType [] := ⟨fun h => absurd h (by decide), fun h => absurd h (by decide)⟩
  refine ⟨⟨{ version := 1, pUuid, type := HeartbeatType }, [], valid_header.mpr (by simp only; omega),
    by simp [heartbeatFrom], hbody⟩, ?_⟩
  rw [heartbeatFrom, length_encode_header, MaxRcvStr]
  simp only
  omega

/-- An ADVERTISE of a process. -/
def advertisementFrom (pUuid : Str) (now : Timestamp) : Datagram :=
  ⟨[2], now, (({ pUuid, hostAddr := [2] } : Discovery).advMsg AdvType [116] [97] [] [110] .all 0).encode⟩

theorem wellFormed_advertisementFrom {pUuid : Str} (hlen : pUuid.length < 1000) (now : Timestamp) :
    (advertisementFrom pUuid now).WellFormed := by
  obtain ⟨h, hh⟩ : ∃ h : Header, h = { version := Version, pUuid, type := AdvType } := ⟨_, rfl⟩
  obtain ⟨v, hv⟩ : ∃ v : BaseBody × Str, v = (([116], [97], [], [110], .all),
    ascii ['n', 'o', 't', ' ', 'u', 's', 'e', 'd']) := ⟨_, rfl⟩
  have hmsg : (advertisementFrom pUuid now).msg = headerCodec.encode h ++ msgCodec.encode v := by
    rw [hh, hv]
    rfl
  have hpUuid : h.pUuid = pUuid := by rw [hh]
  have hvalid : msgCodec.Valid v := by
    rw [hv]
    exact ⟨valid_base.mpr (by decide), valid_str.mpr (by decide)⟩
  have hlength : (msgCodec.encode v).length = 52 := by
    rw [hv]
    decide
  have htype : h.type = AdvType := by rw [hh]
  have hbody : CompleteBody h.type (msgCodec.encode v) := by
    rw [htype]
    exact ⟨fun _ => ⟨v, [], hvalid, (List.append_nil _).symm⟩, fun h => absurd h (by decide)⟩
  refine ⟨⟨h, _, valid_header.mpr (by rw [hpUuid]; omega), hmsg, hbody⟩, ?_⟩
  rw [hmsg, List.length_append, length_encode_header, hlength, hpUuid, MaxRcvStr]
  omega

theorem discovery_noninterference_advertised :
    ∃ d₁ d₂ : Discovery,
      ({ pUuid := [65], hostAddr := [1] } : Discovery).dispatchAll
        [advertisementFrom [66] 5, advertisementFrom [67] 6, heartbeatFrom [66] 7] = some d₁ ∧
      ({ pUuid := [65], hostAddr := [1] } : Discovery).dispatchAll
        [advertisementFrom [66] 5, heartbeatFrom [66] 7] = some d₂ ∧
      (d₁.info .msg).cell [116] [66] = [⟨[97], [], [110], .all⟩] ∧
      (∀ type t, (d₁.info type).cell t [66] = (d₂.info type).cell t [66]) ∧
      d₁.activity[([66] : Str)]? = d₂.activity[([66] : Str)]? ∧
      ({ pUuid := [65], hostAddr := [1] } : Discovery).dispatchAll
        [advertisementFrom [67] 6, advertisementFrom [66] 5, heartbeatFrom [66] 7] = some d₁ := by
  have h66 : (advertisementFrom [66] 5).WellFormed := wellFormed_advertisementFrom (by decide) 5
  have h67 : (advertisementFrom [67] 6).WellFormed := wellFormed_advertisementFrom (by decide) 6
  have hbeat : (heartbeatFrom [66] 7).WellFormed := wellFormed_heartbeatFrom (by decide) 7
  obtain ⟨hdef, hrun⟩ := discovery_noninterference { pUuid := [65], hostAddr := [1] }
    [advertisementFrom [66] 5, advertisementFrom [67] 6, heartbeatFrom [66] 7] (by simp [h66, h67, hbeat])
  obtain ⟨d₁, h₁⟩ := hdef ⟨by decide, fun type t a ha => by cases type <;> simp [info] at ha⟩
  obtain ⟨hothers, -, hinterleaved⟩ := hrun d₁ h₁
  obtain ⟨d₂, h₂, hcells, hact⟩ := hothers [66] (by decide)
  have hstored : (({ pUuid := [65], hostAddr := [1] } : Discovery).dispatchAll
      [advertisementFrom [66] 5, advertisementFrom [67] 6, heartbeatFrom [66] 7]).all (fun d =>
        (d.info .msg).cell [116] [66] = [⟨[97], [], [110], .all⟩]) = true := by decide
  rw [h₁, Option.all_some, decide_eq_true_eq] at hstored
  refine ⟨d₁, d₂, h₁, h₂, hstored, hcells, hact, hinterleaved _ (by simp [h66, h67, hbeat]) fun p => ?_⟩
  have hsenders : (advertisementFrom [66] 5).sender = some [66] ∧ (advertisementFrom [67] 6).sender = some [67] ∧
      (heartbeatFrom [66] 7).sender = some [66] := by decide
  by_cases hp : ([66] : Str) = p
  · subst hp
    simp [sentBy, hsenders]
  · by_cases hq : ([67] : Str) = p
    · subst hq
      simp [sentBy, hsenders]
    · simp [sentBy, hsenders, hp, hq]

end Noninterference

end Discovery

end IgnTransport
