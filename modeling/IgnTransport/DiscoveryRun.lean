import Mathlib
import IgnTransport.DiscoveryNoninterference

/-!
# IgnTransport.DiscoveryRun — whole runs of a discovery instance

Every entry point and every thread of an instance is one kind of event.  Along any run, what is stored of another
process is accompanied by the time of its last datagram (`no_orphaned_information`), so a sweep drops exactly the
processes that were silent for too long, and never this one.
-/

namespace IgnTransport

open Lib

namespace Discovery

/-! ## Runs -/

section Runs

/-- What can happen to a discovery instance. -/
inductive Op where
  | advertise (type : MsgType) (topic addr ctrl nUuid : Str) (scope : Scope)
  | unadvertise (type : MsgType) (topic nUuid : Str)
  | discover (topic : Str) (isSrv : Bool)
  | datagram (g : Datagram)
  | heartbeat
  | sweep (now : Timestamp)
  | setConnectionsCb (type : MsgType) (set : Bool)
  | setDisconnectionsCb (type : MsgType) (set : Bool)
  | setSilenceInterval (ms : ℕ)
  deriving DecidableEq, Repr

/-- `SetConnectionsCb` and `SetConnectionsSrvCb`. -/
def setConnectionsCb (d : Discovery) : MsgType → Bool → Discovery
  | .msg, set => { d with connectionCb := set }
  | .srv, set => { d with connectionSrvCb := set }

/-- `SetDisconnectionsCb` and `SetDisconnectionsSrvCb`. -/
def setDisconnectionsCb (d : Discovery) : MsgType → Bool → Discovery
  | .msg, set => { d with disconnectionCb := set }
  | .srv, set => { d with disconnectionSrvCb := set }

/-- The state after an event, if it returns. -/
def step (d : Discovery) : Op → Option Discovery
  | .advertise type topic addr ctrl nUuid scope => (d.advertise type topic addr ctrl nUuid scope).map Prod.fst
  | .unadvertise type topic nUuid => (d.unadvertise type topic nUuid).map Prod.fst
  | .discover topic isSrv => (d.discover topic isSrv).map Prod.fst
  | .datagram g => d.dispatch g
  | .heartbeat => d.heartbeat.map Prod.fst
  | .sweep now => (d.runActivityTask now).map Prod.fst
  | .setConnectionsCb type set => some (d.setConnectionsCb type set)
  | .setDisconnectionsCb type set => some (d.setDisconnectionsCb type set)
  | .setSilenceInterval ms => some { d with silenceInterval := ms }

/-- The constructor. -/
def start (pUuid hostAddr : Str) : Discovery := { pUuid, hostAddr }

/-- The clock readings of the datagrams that came from a process. -/
def heardAt (ops : List Op) (p : Str) : List Timestamp :=
  ops.filterMap fun
    | .datagram g => if g.sender = some p then some g.now else none
    | _ => none

/-- The clock readings of a run. -/
def clock (ops : List Op) : List Timestamp :=
  ops.filterMap fun
    | .datagram g => some g.now
    | .sweep now => some now
    | _ => none

/-- The clock is steady: no reading is before an earlier one. -/
def Steady (ops : List Op) : Prop := (clock ops).Pairwise (· ≤ ·)

theorem heardAt_concat (ops : List Op) (op : Op) (p : Str) :
    heardAt (ops ++ [op]) p = heardAt ops p ++ heardAt [op] p := List.filterMap_append

end Runs

/-! ## Steps -/

section Steps

variable {d d' : Discovery} {op : Op}

theorem hasConnectionCb_of_fixed (h : d'.fixed = d.fixed) (type : MsgType) :
    d'.hasConnectionCb type = d.hasConnectionCb type := by
  cases type with
  | msg => exact congrArg (·.connectionCb) h
  | srv => exact congrArg (·.connectionSrvCb) h

/-- The steps that change no entry of another process but by dropping it: all but the dispatch of a datagram. -/
theorem entries_step (h : d.step op = some d') (hop : ∀ g, op ≠ .datagram g) {q : Str} (hq : q ≠ d.pUuid)
    {type : MsgType} {t : Str} {a : Address} (ha : a ∈ (d'.info type).cell t q) : a ∈ (d.info type).cell t q := by
  have hpeer : ∀ {e : Discovery}, e.peer q = d.peer q → a ∈ (e.info type).cell t q → a ∈ (d.info type).cell t q :=
    fun he ha => (congrArg (fun v : Peer => a ∈ v.entries type t) he).mp ha
  cases op with
  | advertise type' topic addr ctrl nUuid scope =>
    obtain ⟨⟨e, out⟩, he, rfl⟩ := Option.map_eq_some_iff.mp h
    exact hpeer (((peer_advertise he).2 q).trans (if_neg hq)) ha
  | unadvertise type' topic nUuid =>
    obtain ⟨⟨e, out⟩, he, rfl⟩ := Option.map_eq_some_iff.mp h
    exact hpeer (((peer_unadvertise he).2 q).trans (if_neg hq)) ha
  | discover topic isSrv =>
    obtain ⟨⟨e, out⟩, he, rfl⟩ := Option.map_eq_some_iff.mp h
    obtain rfl := state_discover he
    exact ha
  | datagram g => exact absurd rfl (hop g)
  | heartbeat =>
    obtain ⟨⟨e, out⟩, he, rfl⟩ := Option.map_eq_some_iff.mp h
    obtain rfl := state_heartbeat he
    exact ha
  | sweep now =>
    obtain ⟨⟨e, out⟩, he, rfl⟩ := Option.map_eq_some_iff.mp h
    obtain ⟨-, hgone, hkept⟩ := peer_runActivityTask he
    by_cases hexpired : d.Expired now q
    · have hnil := congrArg (fun v : Peer => v.entries type t) (hgone q hexpired)
      have ha' : a ∈ (e.peer q).entries type t := ha
      rw [show (e.peer q).entries type t = [] from hnil] at ha'
      cases ha'
    · exact hpeer (hkept q hexpired) ha
  | setConnectionsCb type' set =>
    obtain rfl := Option.some.inj h
    cases type' <;> exact ha
  | setDisconnectionsCb type' set =>
    obtain rfl := Option.some.inj h
    cases type' <;> exact ha
  | setSilenceInterval ms =>
    obtain rfl := Option.some.inj h
    exact ha

/-- The process UUID is fixed, and a connection callback stays set until it is unset. -/
theorem fixed_step (h : d.step op = some d') : d'.pUuid = d.pUuid ∧ ∀ type, op ≠ .setConnectionsCb type false →
    d.hasConnectionCb type = true → d'.hasConnectionCb type = true := by
  have hfixed : d'.fixed = d.fixed → d'.pUuid = d.pUuid ∧ ∀ type, op ≠ .setConnectionsCb type false →
      d.hasConnectionCb type = true → d'.hasConnectionCb type = true := fun hf =>
    ⟨pUuid_of_fixed hf, fun type _ hset => (hasConnectionCb_of_fixed hf type).trans hset⟩
  cases op with
  | advertise type topic addr ctrl nUuid scope =>
    obtain ⟨⟨e, out⟩, he, rfl⟩ := Option.map_eq_some_iff.mp h
    exact hfixed (peer_advertise he).1
  | unadvertise type topic nUuid =>
    obtain ⟨⟨e, out⟩, he, rfl⟩ := Option.map_eq_some_iff.mp h
    exact hfixed (peer_unadvertise he).1
  | discover topic isSrv =>
    obtain ⟨⟨e, out⟩, he, rfl⟩ := Option.map_eq_some_iff.mp h
    exact hfixed (congrArg fixed (state_discover he))
  | datagram g => exact hfixed (fixed_dispatch h)
  | heartbeat =>
    obtain ⟨⟨e, out⟩, he, rfl⟩ := Option.map_eq_some_iff.mp h
    exact hfixed (congrArg fixed (state_heartbeat he))
  | sweep now =>
    obtain ⟨⟨e, out⟩, he, rfl⟩ := Option.map_eq_some_iff.mp h
    exact hfixed (peer_runActivityTask he).1
  | setConnectionsCb type set =>
    obtain rfl := Option.some.inj h
    refine ⟨by cases type <;> rfl, fun type' hne hset => ?_⟩
    cases type <;> cases type' <;> cases set <;> first | rfl | exact hset | exact absurd rfl hne
  | setDisconnectionsCb type set =>
    obtain rfl := Option.some.inj h
    cases type <;> exact ⟨rfl, fun type' _ hset => by cases type' <;> exact hset⟩
  | setSilenceInterval ms =>
    obtain rfl := Option.some.inj h
    exact ⟨rfl, fun type _ hset => by cases type <;> exact hset⟩

end Steps

/-! ## The process itself -/

section Own

/-- What an operation does to the entries of the process itself. -/
def ownAct (op : Op) (v : Peer) : Peer :=
  match op with
  | .advertise type topic addr ctrl nUuid scope =>
    v.edit type topic fun l => TopicStorage.addEntry l ⟨addr, ctrl, nUuid, scope⟩
  | .unadvertise type topic nUuid => v.edit type topic fun l => TopicStorage.delNode l nUuid
  | _ => v

variable {d d' : Discovery} {op : Op}

theorem lastHeard_ownAct (op : Op) (v : Peer) : (ownAct op v).lastHeard = v.lastHeard := by
  cases op with
  | _ => rfl

/-- **No datagram and no sweep touches the entries of the process itself.** -/
theorem own_step (h : d.step op = some d') (hown : (d.peer d.pUuid).lastHeard = none) :
    d'.peer d.pUuid = ownAct op (d.peer d.pUuid) := by
  cases op with
  | advertise type topic addr ctrl nUuid scope =>
    obtain ⟨⟨e, out⟩, he, rfl⟩ := Option.map_eq_some_iff.mp h
    exact ((peer_advertise he).2 _).trans (if_pos rfl)
  | unadvertise type topic nUuid =>
    obtain ⟨⟨e, out⟩, he, rfl⟩ := Option.map_eq_some_iff.mp h
    exact ((peer_unadvertise he).2 _).trans (if_pos rfl)
  | discover topic isSrv =>
    obtain ⟨⟨e, out⟩, he, rfl⟩ := Option.map_eq_some_iff.mp h
    obtain rfl := state_discover he
    rfl
  | datagram g => exact (view_dispatch h _).trans (if_neg (about_ne_own d.pUuid g))
  | heartbeat =>
    obtain ⟨⟨e, out⟩, he, rfl⟩ := Option.map_eq_some_iff.mp h
    obtain rfl := state_heartbeat he
    rfl
  | sweep now =>
    obtain ⟨⟨e, out⟩, he, rfl⟩ := Option.map_eq_some_iff.mp h
    refine (peer_runActivityTask he).2.2 _ ?_
    rintro ⟨last, hlast, -⟩
    rw [show d.activity[d.pUuid]? = none from hown] at hlast
    cases hlast
  | setConnectionsCb type set =>
    obtain rfl := Option.some.inj h
    cases type <;> rfl
  | setDisconnectionsCb type set =>
    obtain rfl := Option.some.inj h
    cases type <;> rfl
  | setSilenceInterval ms =>
    obtain rfl := Option.some.inj h
    rfl

/-- The nodes of the process itself that are stored for a topic, after an operation. -/
theorem hasNode_own_step (h : d.step op = some d') (hown : (d.peer d.pUuid).lastHeard = none) (type : MsgType)
    (t n : Str) : (d'.info type).HasNode t d.pUuid n ↔
      (∃ addr ctrl scope, op = .advertise type t addr ctrl n scope) ∨
        ((d.info type).HasNode t d.pUuid n ∧ op ≠ .unadvertise type t n) := by
  have hentries : (d'.info type).cell t d.pUuid = (ownAct op (d.peer d.pUuid)).entries type t :=
    congrArg (fun v : Peer => v.entries type t) (own_step h hown)
  unfold TopicStorage.HasNode
  rw [hentries]
  cases op with
  | advertise type' topic addr ctrl nUuid scope =>
    rw [ownAct, Peer.entries_edit]
    split_ifs with hc
    · obtain ⟨rfl, rfl⟩ := hc
      rw [TopicStorage.mem_addEntry_node]
      simp only [Op.advertise.injEq, true_and, ne_eq, reduceCtorEq, not_false_eq_true, and_true]
      rw [or_comm]
      refine or_congr ?_ Iff.rfl
      constructor
      · rintro rfl
        exact ⟨addr, ctrl, scope, rfl, rfl, rfl, rfl⟩
      · rintro ⟨_, _, _, -, -, rfl, -⟩
        rfl
    · constructor
      · exact fun hn => .inr ⟨hn, by simp⟩
      · rintro (⟨_, _, _, heq⟩ | hn)
        · cases heq
          exact absurd ⟨rfl, rfl⟩ hc
        · exact hn.1
  | unadvertise type' topic nUuid =>
    rw [ownAct, Peer.entries_edit]
    split_ifs with hc
    · obtain ⟨rfl, rfl⟩ := hc
      rw [TopicStorage.mem_delNode]
      constructor
      · rintro ⟨a, ha, hne, rfl⟩
        refine .inr ⟨⟨a, ha, rfl⟩, fun heq => ?_⟩
        cases heq
        exact hne rfl
      · rintro (⟨_, _, _, heq⟩ | ⟨⟨a, ha, rfl⟩, hne⟩)
        · cases heq
        · refine ⟨a, ha, fun heq => hne ?_, rfl⟩
          rw [heq]
    · constructor
      · refine fun hn => .inr ⟨hn, fun heq => ?_⟩
        cases heq
        exact hc ⟨rfl, rfl⟩
      · rintro (⟨_, _, _, heq⟩ | hn)
        · cases heq
        · exact hn.1
  | _ =>
    constructor
    · exact fun hn => .inr ⟨hn, by simp⟩
    · rintro (⟨_, _, _, heq⟩ | hn)
      · cases heq
      · exact hn.1

/-- What is stored of the process itself beyond its own scope was sent, and can be sent again. -/
def OwnSent (d : Discovery) : Prop :=
  ∀ type t, ∀ a ∈ (d.info type).cell t d.pUuid, a.scope ≠ .process →
    (d.sendMsg (advType type) t a.addr a.ctrl a.nUuid a.scope).isSome = true

theorem ownSent_start (pUuid hostAddr : Str) : (start pUuid hostAddr).OwnSent := by
  intro type t a ha
  cases type <;> exact absurd ha (by simp [start, info])

theorem ownSent_step (h : d.step op = some d') (hown : (d.peer d.pUuid).lastHeard = none) (hs : d.OwnSent) :
    d'.OwnSent := by
  have hp := (fixed_step h).1
  intro type t a ha hscope
  rw [sendMsg_congr hp]
  have hentries : (d'.info type).cell t d.pUuid = (ownAct op (d.peer d.pUuid)).entries type t :=
    congrArg (fun v : Peer => v.entries type t) (own_step h hown)
  rw [hp, hentries] at ha
  cases op with
  | advertise type' topic addr ctrl nUuid scope =>
    rw [ownAct, Peer.entries_edit] at ha
    split_ifs at ha with hc
    · obtain ⟨rfl, rfl⟩ := hc
      unfold TopicStorage.addEntry at ha
      split_ifs at ha
      · exact hs _ _ a ha hscope
      · rcases List.mem_append.mp ha with ha | ha
        · exact hs _ _ a ha hscope
        · obtain rfl := List.mem_singleton.mp ha
          obtain ⟨⟨e, out⟩, he, -⟩ := Option.map_eq_some_iff.mp h
          obtain ⟨-, hsent⟩ := advertise_eq_some.mp he
          have hscope' : scope ≠ .process := hscope
          rw [if_neg hscope'] at hsent
          rw [hsent]
          rfl
    · exact hs _ _ a ha hscope
  | unadvertise type' topic nUuid =>
    rw [ownAct, Peer.entries_edit] at ha
    split_ifs at ha
    · exact hs _ _ a (List.mem_of_mem_filter ha) hscope
    · exact hs _ _ a ha hscope
  | _ => exact hs _ _ a ha hscope

/-- `Unadvertise` of what was advertised returns. -/
theorem isSome_unadvertise (hs : d.OwnSent) (type : MsgType) (topic nUuid : Str) :
    (d.unadvertise type topic nUuid).isSome = true := by
  unfold unadvertise
  cases hget : (d.info type).getAddress topic d.pUuid nUuid with
  | none => rfl
  | some inf =>
    have hmem : inf ∈ (d.info type).cell topic d.pUuid := List.mem_of_find?_eq_some hget
    obtain rfl : inf.nUuid = nUuid := by simpa using List.find?_some hget
    dsimp only
    split_ifs with hscope
    · rfl
    · have hadv : CarriesAddress (advType type) := by cases type <;> simp [advType, CarriesAddress]
      have hunadv : CarriesAddress (unadvType type) := by cases type <;> simp [unadvType, CarriesAddress]
      have hsome := hs type topic inf hmem hscope
      rw [isSome_sendMsg_type d hadv hunadv] at hsome
      rw [sendMsg_congr (pUuid_setInfo d type _)]
      obtain ⟨out, hout⟩ := Option.isSome_iff_exists.mp hsome
      rw [hout]
      rfl

end Own

/-! ## The invariant -/

section Invariant

/-- What is known of a process after `ops` goes back to the last datagram heard from it. -/
structure Heard (pUuid : Str) (ops : List Op) (p : Str) (v : Peer) : Prop where
  stored : p ≠ pUuid → v.Stored → v.lastHeard ≠ none
  last : ∀ t, v.lastHeard = some t → (heardAt ops p).getLast? = some t
  own : p = pUuid → v.lastHeard = none

/-- The invariant of a run. -/
def Accounted (pUuid : Str) (ops : List Op) (d : Discovery) : Prop :=
  d.pUuid = pUuid ∧ ∀ p, Heard pUuid ops p (d.peer p)

theorem Heard.mono {pUuid p : Str} {ops : List Op} {op : Op} {v v' : Peer} (h : Heard pUuid ops p v)
    (hlast : v'.lastHeard = v.lastHeard) (hstored : p ≠ pUuid → v'.Stored → v.Stored)
    (hquiet : heardAt [op] p = [] ∨ p = pUuid) : Heard pUuid (ops ++ [op]) p v' where
  stored hp hs := by rw [hlast]; exact h.stored hp (hstored hp hs)
  last t ht := by
    rw [hlast] at ht
    rcases hquiet with hquiet | hp
    · rw [heardAt_concat, hquiet, List.append_nil]
      exact h.last t ht
    · rw [h.own hp] at ht
      cases ht
  own hp := by rw [hlast]; exact h.own hp

theorem heard_gone (pUuid p : Str) (ops : List Op) : Heard pUuid ops p Peer.gone where
  stored _ hs := absurd hs Peer.stored_gone
  last t ht := by cases ht
  own _ := rfl

/-- An event that leaves every peer but this process alone. -/
theorem Accounted.of_peer {pUuid : Str} {ops : List Op} {op : Op} {d d' : Discovery} (h : Accounted pUuid ops d)
    (hp : d'.pUuid = d.pUuid) (hquiet : ∀ p, heardAt [op] p = [])
    (hpeer : ∀ p, (d'.peer p).lastHeard = (d.peer p).lastHeard ∧ (p ≠ d.pUuid → d'.peer p = d.peer p)) :
    Accounted pUuid (ops ++ [op]) d' := by
  refine ⟨hp.trans h.1, fun p => (h.2 p).mono (hpeer p).1 (fun hne hs => ?_) (.inl (hquiet p))⟩
  rw [← (hpeer p).2 (h.1 ▸ hne)]
  exact hs

theorem accounted_datagram {pUuid : Str} {ops : List Op} {d d' : Discovery} {g : Datagram}
    (h : Accounted pUuid ops d) (hstep : d.dispatch g = some d') : Accounted pUuid (ops ++ [.datagram g]) d' := by
  refine ⟨(pUuid_of_fixed (fixed_dispatch hstep)).trans h.1, fun p => ?_⟩
  rw [view_dispatch hstep p]
  by_cases habout : about d.pUuid g = some p
  · -- the sender: its time is the one of this datagram, unless it said BYE
    have hne : p ≠ d.pUuid := fun hp => about_ne_own d.pUuid g (hp ▸ habout)
    have hsender := (about_iff_sender hstep hne).mp habout
    have hlast : (heardAt (ops ++ [.datagram g]) p).getLast? = some g.now := by
      rw [heardAt_concat]
      simp [heardAt, hsender]
    rw [if_pos habout]
    have hact : (act d.pUuid d.hostAddr g (d.peer p)).lastHeard = some g.now ∨
        act d.pUuid d.hostAddr g (d.peer p) = Peer.gone := by
      simp only [about, Option.bind_eq_some_iff, Option.map_eq_some_iff] at habout
      obtain ⟨⟨header, body⟩, hread, b, rfl, -⟩ := habout
      simp only [act, hread]
      exact Peer.lastHeard_apply _ _ _ _
    rcases hact with hact | hact
    · exact ⟨fun _ _ => by rw [hact]; simp, fun t ht => by rw [hlast, ← ht, hact],
        fun hp => absurd (hp.trans h.1.symm) hne⟩
    · rw [hact]
      exact heard_gone _ _ _
  · rw [if_neg habout]
    refine (h.2 p).mono rfl (fun _ hs => hs) ?_
    by_cases hp : p = pUuid
    · exact .inr hp
    · have hsender : g.sender ≠ some p := mt (about_iff_sender hstep (h.1 ▸ hp)).mpr habout
      exact .inl (by simp [heardAt, hsender])

theorem accounted_sweep {pUuid : Str} {ops : List Op} {d d' : Discovery} {now : Timestamp} {out : List Output}
    (h : Accounted pUuid ops d) (hstep : d.runActivityTask now = some (d', out)) :
    Accounted pUuid (ops ++ [.sweep now]) d' := by
  obtain ⟨hfixed, hgone, hkept⟩ := peer_runActivityTask hstep
  refine ⟨(pUuid_of_fixed hfixed).trans h.1, fun p => ?_⟩
  by_cases hexp : d.Expired now p
  · rw [hgone p hexp]
    exact heard_gone _ _ _
  · rw [hkept p hexp]
    exact (h.2 p).mono rfl (fun _ hs => hs) (.inl rfl)

theorem accounted_step {pUuid : Str} {ops : List Op} {d d' : Discovery} {op : Op} (h : Accounted pUuid ops d)
    (hstep : d.step op = some d') : Accounted pUuid (ops ++ [op]) d' := by
  cases op with
  | advertise type topic addr ctrl nUuid scope =>
    obtain ⟨⟨e, out⟩, he, rfl⟩ := Option.map_eq_some_iff.mp hstep
    obtain ⟨hfixed, hpeer⟩ := peer_advertise he
    refine h.of_peer (pUuid_of_fixed hfixed) (fun _ => rfl) fun p => ?_
    rw [hpeer p]
    exact ⟨by split_ifs <;> rfl, fun hp => if_neg hp⟩
  | unadvertise type topic nUuid =>
    obtain ⟨⟨e, out⟩, he, rfl⟩ := Option.map_eq_some_iff.mp hstep
    obtain ⟨hfixed, hpeer⟩ := peer_unadvertise he
    refine h.of_peer (pUuid_of_fixed hfixed) (fun _ => rfl) fun p => ?_
    rw [hpeer p]
    exact ⟨by split_ifs <;> rfl, fun hp => if_neg hp⟩
  | discover topic isSrv =>
    obtain ⟨⟨e, out⟩, he, rfl⟩ := Option.map_eq_some_iff.mp hstep
    obtain rfl := state_discover he
    exact h.of_peer rfl (fun _ => rfl) fun p => ⟨rfl, fun _ => rfl⟩
  | datagram g => exact accounted_datagram h hstep
  | heartbeat =>
    obtain ⟨⟨e, out⟩, he, rfl⟩ := Option.map_eq_some_iff.mp hstep
    obtain rfl := state_heartbeat he
    exact h.of_peer rfl (fun _ => rfl) fun p => ⟨rfl, fun _ => rfl⟩
  | sweep now =>
    obtain ⟨⟨e, out⟩, he, rfl⟩ := Option.map_eq_some_iff.mp hstep
    exact accounted_sweep h he
  | setConnectionsCb type set =>
    obtain rfl := Option.some.inj hstep
    cases type <;> exact h.of_peer rfl (fun _ => rfl) fun p => ⟨rfl, fun _ => rfl⟩
  | setDisconnectionsCb type set =>
    obtain rfl := Option.some.inj hstep
    cases type <;> exact h.of_peer rfl (fun _ => rfl) fun p => ⟨rfl, fun _ => rfl⟩
  | setSilenceInterval ms =>
    obtain rfl := Option.some.inj hstep
    exact h.of_peer rfl (fun _ => rfl) fun p => ⟨rfl, fun _ => rfl⟩

theorem accounted_start (pUuid hostAddr : Str) : Accounted pUuid [] (start pUuid hostAddr) := by
  refine ⟨rfl, fun p => ⟨fun _ hs => ?_, fun t ht => ?_, fun _ => ?_⟩⟩
  · obtain ⟨type, t, ht⟩ := hs
    cases type <;> exact absurd (Table.cell_empty t p) ht
  · rw [peer, start] at ht
    simp at ht
  · simp [peer, start]

theorem accounted_run {pUuid hostAddr : Str} {ops : List Op} {d : Discovery}
    (h : run step (start pUuid hostAddr) ops = some d) : Accounted pUuid ops d :=
  run_induct _ (accounted_start pUuid hostAddr) (fun _ _ _ _ => accounted_step) h

end Invariant

/-! ## Expiry -/

section Expiry

theorem elapsedMs_mono {now now' last last' : Timestamp} (h : now - last ≤ now' - last') :
    elapsedMs now last ≤ elapsedMs now' last' := by
  have hsecond : 0 < (Floating.ofNat 1000000000 : Floating 52 1074).units := by
    rw [Floating.units_ofNat (by norm_num)]
    positivity
  exact Floating.toNat_mono (Floating.mul_mono _ (Floating.div_mono hsecond (Floating.ofNat_mono h)))

/-- The count of a whole number of milliseconds. -/
theorem elapsedMs_whole (ms : ℕ) : elapsedMs (ms * 1000000) 0 = Floating.scale 52 1074 1000000 1000 ms := by
  rw [elapsedMs, Nat.sub_zero, Floating.scale]

theorem elapsedMs_le {now last : Timestamp} {ms : ℕ} (hms : ms < 2 ^ 32) (h : now - last ≤ ms * 1000000) :
    elapsedMs now last ≤ ms := by
  have hle : elapsedMs now last ≤ elapsedMs (ms * 1000000) 0 := elapsedMs_mono (by rwa [Nat.sub_zero])
  refine hle.trans ?_
  rw [elapsedMs_whole]
  exact Floating.scale_le (j := 10) (by decide) (by decide) (by omega) (by norm_num) (by decide) (by decide) (by omega)

/-- A millisecond may be lost. -/
theorem lt_elapsedMs {now last : Timestamp} {ms : ℕ} (hms : ms < 2 ^ 32) (h : (ms + 2) * 1000000 ≤ now - last) :
    ms < elapsedMs now last := by
  have hmono : elapsedMs ((ms + 2) * 1000000) 0 ≤ elapsedMs now last := elapsedMs_mono (by rwa [Nat.sub_zero])
  refine Nat.lt_of_lt_of_le ?_ hmono
  rw [elapsedMs_whole]
  have hle : ms + 2 ≤ Floating.scale 52 1074 1000000 1000 (ms + 2) + 1 :=
    Floating.le_scale (j := 10) (by decide) (by decide) (by omega) (by norm_num) (by decide) (by decide) (by omega)
  omega

theorem heardAt_sublist (ops : List Op) (p : Str) : (heardAt ops p).Sublist (clock ops) := by
  induction ops with
  | nil => exact List.Sublist.refl _
  | cons op ops ih =>
    cases op with
    | datagram g =>
      by_cases hg : g.sender = some p
      · simp only [heardAt, clock, List.filterMap_cons, if_pos hg]
        exact ih.cons_cons _
      · simp only [heardAt, clock, List.filterMap_cons, if_neg hg]
        exact ih.cons _
    | sweep now =>
      simp only [heardAt, clock, List.filterMap_cons]
      exact ih.cons _
    | _ => exact ih

/-- With a steady clock the last datagram of a process is the latest. -/
theorem le_last {ops : List Op} (hsteady : Steady ops) {p : Str} {last t : Timestamp}
    (hlast : (heardAt ops p).getLast? = some last) (ht : t ∈ heardAt ops p) : t ≤ last := by
  have hpair := hsteady.sublist (heardAt_sublist ops p)
  obtain ⟨init, hinit⟩ := List.getLast?_eq_some_iff.mp hlast
  rw [hinit] at hpair ht
  rcases List.mem_append.mp ht with ht | ht
  · exact (List.pairwise_append.mp hpair).2.2 t ht last (by simp)
  · rw [List.mem_singleton] at ht
    exact ht.le

theorem isSome_sweepFrom (now : Timestamp) (entries : List (Str × Timestamp)) {d : Discovery}
    (hcb : d.disconnectionCb = true) : (sweepFrom now entries d).isSome := by
  induction entries generalizing d with
  | nil => rfl
  | cons e entries ih =>
    rw [sweepFrom]
    split_ifs with hexp
    · obtain ⟨r, hr⟩ := Option.isSome_iff_exists.mp (ih (d := d.expire e.1) hcb)
      rw [hr]
      rfl
    · exact ih hcb

/-- A process of which something is stored expires when all that was heard from it is too old. -/
theorem expired_iff {pUuid : Str} {ops : List Op} {d : Discovery} (h : Accounted pUuid ops d)
    (hsteady : Steady ops) {p : Str} (hp : p ≠ pUuid) (hs : (d.peer p).Stored) (now : Timestamp) :
    d.Expired now p ↔ ∀ t ∈ heardAt ops p, elapsedMs now t > d.silenceInterval := by
  obtain ⟨last, hact⟩ := Option.ne_none_iff_exists'.mp ((h.2 p).stored hp hs)
  have hlast := (h.2 p).last last hact
  constructor
  · rintro ⟨last', hact', hexp⟩ t ht
    obtain rfl : last' = last := Option.some.inj (hact'.symm.trans hact)
    have hle := le_last hsteady hlast ht
    exact Nat.lt_of_lt_of_le hexp (elapsedMs_mono (Nat.sub_le_sub_left hle now))
  · intro hall
    exact ⟨last, hact, hall last (List.mem_of_getLast? hlast)⟩

/-- **No orphaned remote information.**  In every reachable state, a process other than this one of which something
is stored has an activity entry; an activity entry is the clock reading of the last datagram dispatched from its
process; this process has none.  So a sweep removes what is stored of a process exactly when the milliseconds that the
code counts since each of its datagrams exceed `silenceInterval`, keeps it unchanged otherwise, and keeps the
advertisements of this process.  For an `unsigned int` interval nothing goes that was heard within it, and all goes that
was not heard for two milliseconds more. -/
theorem no_orphaned_information (pUuid hostAddr : Str) (ops : List Op) (d : Discovery)
    (hrun : run step (start pUuid hostAddr) ops = some d) :
    (∀ p, p ≠ pUuid → (∃ type t, (d.info type).cell t p ≠ []) → d.activity[p]? ≠ none) ∧
    (∀ p last, d.activity[p]? = some last → (heardAt ops p).getLast? = some last) ∧
    d.activity[pUuid]? = none ∧
    ∀ now, Steady (ops ++ [.sweep now]) →
      (d.disconnectionCb = true → ∃ d', d.step (.sweep now) = some d') ∧
      ∀ d', d.step (.sweep now) = some d' →
        (∀ p, p ≠ pUuid → (∃ type t, (d.info type).cell t p ≠ []) →
          ((∀ type t, (d'.info type).cell t p = []) ↔
            ∀ t ∈ heardAt ops p, elapsedMs now t > d.silenceInterval) ∧
          ((∀ type t, (d'.info type).cell t p = []) ∨
            ∀ type t, (d'.info type).cell t p = (d.info type).cell t p) ∧
          (d.silenceInterval < 2 ^ 32 →
            ((∃ t ∈ heardAt ops p, now - t ≤ d.silenceInterval * 1000000) →
              ∀ type t, (d'.info type).cell t p = (d.info type).cell t p) ∧
            ((∀ t ∈ heardAt ops p, (d.silenceInterval + 2) * 1000000 ≤ now - t) →
              ∀ type t, (d'.info type).cell t p = []))) ∧
        ∀ type t, (d'.info type).cell t pUuid = (d.info type).cell t pUuid := by
  have hacc := accounted_run hrun
  refine ⟨fun p hp hs => (hacc.2 p).stored hp hs, fun p => (hacc.2 p).last, (hacc.2 pUuid).own rfl,
    fun now hsteady => ⟨fun hcb => ?_, fun d' hstep => ?_⟩⟩
  · obtain ⟨r, hr⟩ := Option.isSome_iff_exists.mp (isSome_sweepFrom now d.activity.toList hcb)
    exact ⟨r.1, congrArg (Option.map Prod.fst) hr⟩
  · obtain ⟨⟨e, out⟩, he, rfl⟩ := Option.map_eq_some_iff.mp hstep
    obtain ⟨-, hgone, hkept⟩ := peer_runActivityTask he
    have hsteady' : Steady ops :=
      List.Pairwise.sublist (by simp [clock]) hsteady
    have hcells : ∀ {p : Str} {v : Peer}, (e.peer p) = v → ∀ type t, (e.info type).cell t p = v.entries type t :=
      fun hv type t => congrFun (congrFun (congrArg Peer.entries hv) type) t
    refine ⟨fun p hp hs => ?_, fun type t => ?_⟩
    · have hiff := expired_iff hacc hsteady' hp hs now
      have hempty : d.Expired now p → ∀ type t, (e.info type).cell t p = [] := fun hexp => hcells (hgone p hexp)
      have hsame : ¬ d.Expired now p → ∀ type t, (e.info type).cell t p = (d.info type).cell t p :=
        fun hexp => hcells (hkept p hexp)
      have hremoved : (∀ type t, (e.info type).cell t p = []) ↔
          ∀ t ∈ heardAt ops p, elapsedMs now t > d.silenceInterval := by
        refine ⟨fun hall => hiff.mp (by_contra fun hexp => ?_), fun hall => hempty (hiff.mpr hall)⟩
        obtain ⟨type, t, hne⟩ := hs
        exact hne ((hsame hexp type t).symm.trans (hall type t))
      refine ⟨hremoved, (em (d.Expired now p)).imp hempty hsame, fun hms => ⟨?_, fun hlong => ?_⟩⟩
      · rintro ⟨t, ht, hwithin⟩
        refine hsame fun hexp => ?_
        have hgt := hiff.mp hexp t ht
        exact absurd (elapsedMs_le hms hwithin) (by omega)
      · exact hremoved.mpr fun t ht => lt_elapsedMs hms (hlong t ht)
    · have hown : ¬ d.Expired now pUuid := by
        rintro ⟨last, hact, -⟩
        have hnone : d.activity[pUuid]? = none := (hacc.2 pUuid).own rfl
        rw [hnone] at hact
        cases hact
      exact hcells (hkept pUuid hown) type t

/-- An ADVERTISE of process `[66]`. -/
def sampleAdvertisement : Datagram :=
  let d : Discovery := start [66] [2]
  ⟨[2], 5, (d.advMsg AdvType [116] [97] [] [110] .all 0).encode⟩

theorem no_orphaned_information_sample :
    ∃ d, run step (start [65] [1]) [.datagram sampleAdvertisement] = some d ∧
      (d.info .msg).cell [116] [66] ≠ [] ∧ d.activity[([66] : Str)]? ≠ none := by
  have hstored : (run step (start [65] [1]) [.datagram sampleAdvertisement]).any (fun d =>
      (d.info .msg).cell [116] [66] = [⟨[97], [], [110], .all⟩]) = true := by decide
  obtain ⟨d, hd, hstored⟩ := exists_of_any hstored
  have hne : (d.info .msg).cell [116] [66] ≠ [] := by simp [hstored]
  exact ⟨d, hd, hne, (no_orphaned_information [65] [1] _ d hd).1 [66] (by decide) ⟨.msg, [116], hne⟩⟩

/-- The code compares whole milliseconds: after 3000.5 ms of silence a process outlives an interval of 3000 ms. -/
theorem outlives_interval :
    ∃ d d', run step (start [65] [1]) [.setDisconnectionsCb .msg true, .datagram sampleAdvertisement] = some d ∧
      Steady [.setDisconnectionsCb .msg true, .datagram sampleAdvertisement, .sweep 3000500005] ∧
      d.silenceInterval = 3000 ∧
      (∀ t ∈ heardAt [.setDisconnectionsCb .msg true, .datagram sampleAdvertisement] [66],
        d.silenceInterval * 1000000 < 3000500005 - t) ∧
      d.step (.sweep 3000500005) = some d' ∧ (d'.info .msg).cell [116] [66] = [⟨[97], [], [110], .all⟩] := by
  have hstored : (run step (start [65] [1]) [.setDisconnectionsCb .msg true, .datagram sampleAdvertisement]).any
      (fun d => d.silenceInterval = 3000 ∧ (d.step (.sweep 3000500005)).any (fun d' =>
        (d'.info .msg).cell [116] [66] = [⟨[97], [], [110], .all⟩])) = true := by decide +kernel
  obtain ⟨d, hd, hstored⟩ := exists_of_any hstored
  obtain ⟨hms, hswept⟩ := hstored
  obtain ⟨d', hd', hkept⟩ := exists_of_any hswept
  have hheard : ∀ t ∈ heardAt [.setDisconnectionsCb .msg true, .datagram sampleAdvertisement] [66],
      3000 * 1000000 < 3000500005 - t := by decide
  exact ⟨d, d', hd, by simp [Steady, clock, sampleAdvertisement], hms, hms.symm ▸ hheard, hd', hkept⟩

end Expiry

end Discovery

end IgnTransport
