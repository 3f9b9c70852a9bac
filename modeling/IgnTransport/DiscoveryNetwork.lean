import Mathlib
import IgnTransport.Lib.Network
import IgnTransport.DiscoveryStatements
import IgnTransport.Node

/-!
# IgnTransport.DiscoveryNetwork — any number of discovery instances on one multicast group

Every instance runs its entry points and threads; a datagram that it sends may reach any instance at any time, any
number of times, or never.  An instance ends in its destructor, which says BYE, or in a crash, which says nothing.

* `network_progress`: no member of the group gets stuck, whatever the others send.
* `nothing_invented`: whatever is stored anywhere of a process was advertised by that very process.
-/

namespace IgnTransport

open Lib

namespace Discovery

/-! ## The network -/

section Network

/-- The members of a multicast group: their process UUIDs and host addresses, and the source address `ip i j` of the
datagrams of `j` at the host of `i`. -/
structure Group (ι : Type) where
  pUuid : ι → Uuid
  host : ι → Str
  ip : ι → ι → Str

/-- A discovery instance, until its end. -/
structure Instance where
  state : Discovery
  up : Bool := true

/-- What happens to an instance. -/
inductive Happening (ι : Type) where
  /-- An entry point, a heartbeat round or a sweep. -/
  | op (op : Op)
  /-- The destructor. -/
  | destroy
  /-- The end of the process without its destructors. -/
  | crash
  /-- A datagram of instance `j` lands in `rcvStr`. -/
  | recv (now : Timestamp) (rcvStr : Buffer) (j : ι) (datagram : Buffer)
  deriving DecidableEq, Repr

/-- An operation that is not the dispatch of a datagram. -/
def Op.Internal : Op → Prop
  | .datagram _ => False
  | _ => True

instance : DecidablePred Op.Internal
  | .datagram _ => isFalse id
  | .advertise .. | .unadvertise .. | .discover .. | .heartbeat | .sweep _ | .setConnectionsCb .. |
    .setDisconnectionsCb .. | .setSilenceInterval _ => isTrue trivial

variable {ι : Type} (G : Group ι)

/-- What an instance does. -/
def program (i : ι) (s : Instance) (x : Happening ι) : Option (Instance × List Buffer) :=
  if s.up then
    match x with
    | .op op =>
      if op.Internal then (s.state.perform op).map fun r => ({ state := r.1 }, transmitted r.2) else none
    | .destroy => s.state.destroy.map fun out => ({ s with up := false }, transmitted out)
    | .crash => some ({ s with up := false }, [])
    | .recv now rcvStr j datagram =>
      if rcvStr.length = MaxRcvStr then
        (s.state.recvDiscoveryUpdate (G.ip i j) now datagram rcvStr).map fun r => ({ state := r.1 }, transmitted r.2)
      else none
  else none

/-- The datagrams that must have been sent. -/
def consumes : Happening ι → List (ι × Buffer)
  | .recv _ _ j datagram => [(j, datagram)]
  | _ => []

variable [DecidableEq ι]

/-- One step of the network. -/
def networkStep : Net ι Instance Buffer → NetEvent ι (Happening ι) → Option (Net ι Instance Buffer) :=
  netStep (program G) consumes

/-- All instances fresh from their constructors. -/
def network : Net ι Instance Buffer where
  agents i := { state := start (G.pUuid i) (G.host i) }

/-- The operation of the instance alone. -/
def opOf (i : ι) : Happening ι → Option Op
  | .op op => some op
  | .recv now rcvStr j datagram =>
    some (.datagram ⟨G.ip i j, now, datagram.take MaxRcvStr ++ rcvStr.drop datagram.length⟩)
  | _ => none

/-- The operations of an instance in a run. -/
def opsOf (i : ι) (es : List (NetEvent ι (Happening ι))) : List Op := (inputsOf i es).filterMap (opOf G i)

/-- The strings of all operations are short enough to be packed. -/
def RunFits (es : List (NetEvent ι (Happening ι))) : Prop := ∀ e ∈ es, ∀ op, e.input = .op op → op.Fits

end Network

/-! ## What was done -/

section History

variable {ι : Type}

/-- The instance was told to advertise exactly this. -/
def Advertised (es : List (NetEvent ι (Happening ι))) (j : ι) (type : MsgType) (t : Str) (a : Address) : Prop :=
  ⟨j, .op (.advertise type t a.addr a.ctrl a.nUuid a.scope)⟩ ∈ es

/-- The instance was told to unadvertise this. -/
def Withdrawn (es : List (NetEvent ι (Happening ι))) (j : ι) (type : MsgType) (t nUuid : Str) : Prop :=
  ⟨j, .op (.unadvertise type t nUuid)⟩ ∈ es

/-- The instance was destroyed. -/
def Destroyed (es : List (NetEvent ι (Happening ι))) (j : ι) : Prop := ⟨j, .destroy⟩ ∈ es

/-- What a datagram says was done by its sender. -/
def Honest (es : List (NetEvent ι (Happening ι))) (j : ι) : Body → Prop
  | .advertise type m => m.scope ≠ .process → Advertised es j type m.topic (Peer.addressOf m)
  | .unadvertise type m => m.scope ≠ .process → Withdrawn es j type m.topic m.nUuid
  | .bye => Destroyed es j
  | _ => True

variable {es : List (NetEvent ι (Happening ι))} {j : ι}

theorem RunFits.left {pre post : List (NetEvent ι (Happening ι))} (h : RunFits (pre ++ post)) : RunFits pre :=
  fun e he => h e (List.mem_append_left _ he)

theorem RunFits.concat {e : NetEvent ι (Happening ι)} (h : RunFits es) (he : ∀ op, e.input = .op op → op.Fits) :
    RunFits (es ++ [e]) := by
  intro e' he' op hop
  rcases List.mem_append.mp he' with he' | he'
  · exact h e' he' op hop
  · obtain rfl := List.mem_singleton.mp he'
    exact he op hop

theorem Honest.concat {body : Body} (h : Honest es j body) (e : NetEvent ι (Happening ι)) :
    Honest (es ++ [e]) j body := by
  cases body with
  | advertise type m => exact fun hscope => List.mem_append_left _ (h hscope)
  | unadvertise type m => exact fun hscope => List.mem_append_left _ (h hscope)
  | bye => exact List.mem_append_left _ h
  | _ => exact trivial

end History

/-! ## One instance -/

section One

variable {ι : Type} {G : Group ι} {i : ι} {s s' : Instance} {x : Happening ι} {out : List Buffer}

/-- What an instance does is one of its operations, or its end. -/
theorem program_eq_some (h : program G i s x = some (s', out)) :
    (∃ op o, opOf G i x = some op ∧ s.state.perform op = some (s'.state, o) ∧ out = transmitted o) ∨
    (x = .destroy ∧ s'.state = s.state ∧ ∃ o, s.state.destroy = some o ∧ out = transmitted o) ∨
    (x = .crash ∧ s'.state = s.state ∧ out = []) := by
  unfold program at h
  split_ifs at h with hup
  cases x with
  | op op =>
    dsimp only at h
    split_ifs at h
    obtain ⟨⟨d, o⟩, hperform, heq⟩ := Option.map_eq_some_iff.mp h
    obtain ⟨rfl, rfl⟩ := Prod.mk.inj heq
    exact .inl ⟨op, o, rfl, hperform, rfl⟩
  | destroy =>
    obtain ⟨o, ho, heq⟩ := Option.map_eq_some_iff.mp h
    obtain ⟨rfl, rfl⟩ := Prod.mk.inj heq
    exact .inr (.inl ⟨rfl, rfl, o, ho, rfl⟩)
  | crash =>
    obtain ⟨rfl, rfl⟩ := Prod.mk.inj (Option.some.inj h)
    exact .inr (.inr ⟨rfl, rfl, rfl⟩)
  | recv now rcvStr j datagram =>
    dsimp only at h
    split_ifs at h
    obtain ⟨⟨d, o⟩, hrecv, heq⟩ := Option.map_eq_some_iff.mp h
    obtain ⟨rfl, rfl⟩ := Prod.mk.inj heq
    exact .inl ⟨_, o, rfl, hrecv, rfl⟩

/-- An operation of its own. -/
theorem program_op {op : Op} (h : program G i s (.op op) = some (s', out)) :
    op.Internal ∧ ∃ o, s.state.perform op = some (s'.state, o) ∧ out = transmitted o := by
  unfold program at h
  split_ifs at h with hup
  dsimp only at h
  split_ifs at h with hop
  obtain ⟨⟨d, o⟩, hperform, heq⟩ := Option.map_eq_some_iff.mp h
  obtain ⟨rfl, rfl⟩ := Prod.mk.inj heq
  exact ⟨hop, o, hperform, rfl⟩

/-- The reception of a datagram. -/
theorem program_recv {now : Timestamp} {rcvStr : Buffer} {j : ι} {g : Buffer}
    (h : program G i s (.recv now rcvStr j g) = some (s', out)) :
    rcvStr.length = MaxRcvStr ∧ ∃ o, s.state.recvDiscoveryUpdate (G.ip i j) now g rcvStr = some (s'.state, o) ∧
      out = transmitted o ∧ s'.up = true := by
  unfold program at h
  split_ifs at h with hup
  dsimp only at h
  split_ifs at h with hstr
  obtain ⟨⟨d, o⟩, hrecv, heq⟩ := Option.map_eq_some_iff.mp h
  obtain ⟨rfl, rfl⟩ := Prod.mk.inj heq
  exact ⟨hstr, o, hrecv, rfl, rfl⟩

variable [DecidableEq ι] {es : List (NetEvent ι (Happening ι))}
  {n : Net ι Instance Buffer}

/-- **In a network, an instance goes through a run of its own.** -/
theorem run_state (h : run (networkStep G) (network G) es = some n) (i : ι) :
    run step (start (G.pUuid i) (G.host i)) (opsOf G i es) = some (n.agents i).state := by
  refine run_filterMap Instance.state (opOf G i) (fun s x s' hstep => ?_) (run_agent h i)
  obtain ⟨⟨t, out⟩, hprogram, rfl⟩ := Option.map_eq_some_iff.mp hstep
  rcases program_eq_some hprogram with ⟨op, o, hop, hperform, -⟩ | ⟨rfl, hstate, -⟩ | ⟨rfl, hstate, -⟩
  · refine ⟨fun op' hop' => ?_, fun hnone => by rw [hop] at hnone; cases hnone⟩
    obtain rfl := Option.some.inj (hop.symm.trans hop')
    exact step_of_perform hperform
  · exact ⟨fun _ hop => (by cases hop), fun _ => hstate⟩
  · exact ⟨fun _ hop => (by cases hop), fun _ => hstate⟩

end One

/-! ## Honesty -/

section Honesty

variable {ι : Type} {G : Group ι}

/-- Where an entry of process `q` at instance `i` comes from. -/
def Source (G : Group ι) (es : List (NetEvent ι (Happening ι))) (i : ι) (type : MsgType) (t q : Str) (a : Address) :
    Prop :=
  (q = G.pUuid i ∧ Advertised es i type t a) ∨
    (q ≠ G.pUuid i ∧ ∃ j, q = G.pUuid j ∧ Advertised es j type t a ∧ ¬ Hides (G.host i) (G.ip i j) a.scope)

/-- The invariant of an instance. -/
structure Sourced (G : Group ι) (es : List (NetEvent ι (Happening ι))) (i : ι) (s : Instance) : Prop where
  pUuid : s.state.pUuid = G.pUuid i
  hostAddr : s.state.hostAddr = G.host i
  ready : s.state.OwnReady
  source : ∀ type t q, ∀ a ∈ (s.state.info type).cell t q, Source G es i type t q a

variable {es : List (NetEvent ι (Happening ι))} {e : NetEvent ι (Happening ι)} {i : ι} {s s' : Instance}
  {out : List Buffer}

theorem Source.concat {type : MsgType} {t q : Str} {a : Address} (h : Source G es i type t q a)
    (e : NetEvent ι (Happening ι)) : Source G (es ++ [e]) i type t q a := by
  rcases h with ⟨hq, hadv⟩ | ⟨hq, j, hj, hadv, hshown⟩
  · exact .inl ⟨hq, List.mem_append_left _ hadv⟩
  · exact .inr ⟨hq, j, hj, List.mem_append_left _ hadv, hshown⟩

theorem Sourced.concat (h : Sourced G es i s) (e : NetEvent ι (Happening ι)) :
    Sourced G (es ++ [e]) i s :=
  ⟨h.pUuid, h.hostAddr, h.ready, fun type t q a ha => (h.source type t q a ha).concat e⟩

theorem sourced_start (G : Group ι) (i : ι) : Sourced G [] i ((network G).agents i) := by
  have hlen : (G.pUuid i).1.length < 2 ^ 31 - 13 := by rw [(G.pUuid i).2]; decide
  refine ⟨rfl, rfl, ownReady_start hlen (G.host i), fun type t q a ha => ?_⟩
  cases type <;> exact absurd ha (by simp [network, start, info])

/-- What an operation may say was done, now or before. -/
theorem honest_of_allowed (h : Sourced G es i s) {op : Op} {x : Happening ι}
    (hx : opOf G i x = some op) {body : Body} (hbody : s.state.Allowed op body) :
    Honest (es ++ [⟨i, x⟩]) i body := by
  have hlast : ∀ {o : Op}, o.Internal → op = o → (⟨i, .op o⟩ : NetEvent ι (Happening ι)) ∈ es ++ [⟨i, x⟩] := by
    rintro o ho rfl
    cases x with
    | op op =>
      obtain rfl := Option.some.inj hx
      exact List.mem_append_right _ (List.mem_singleton.mpr rfl)
    | recv now rcvStr j g =>
      obtain rfl := Option.some.inj hx
      exact absurd ho id
    | _ => cases hx
  cases body with
  | advertise type m =>
    intro hscope
    rcases hbody hscope with hop | hown
    · exact hlast trivial hop
    · refine List.mem_append_left _ ?_
      rcases h.source type m.topic _ _ hown with ⟨-, hadv⟩ | ⟨hne, -⟩
      · exact hadv
      · exact absurd h.pUuid hne
  | unadvertise type m => exact fun hscope => hlast trivial (hbody hscope)
  | bye => exact hbody.elim
  | _ => exact trivial

/-- An entry after an operation of the instance itself. -/
theorem source_op (h : Sourced G es i s) {op : Op} (hop : op.Internal) {o : List Output}
    (hperform : s.state.perform op = some (s'.state, o)) {type : MsgType} {t q : Str} {a : Address}
    (ha : a ∈ (s'.state.info type).cell t q) : Source G (es ++ [⟨i, .op op⟩]) i type t q a := by
  rcases mem_info_perform hperform h.ready.heard ha with
    hold | ⟨hq, addr, ctrl, nUuid, scope, rfl, rfl⟩ | ⟨-, g, -, -, rfl, -⟩
  · exact (h.source type t q a hold).concat _
  · exact .inl ⟨hq.trans h.pUuid, List.mem_append_right _ (List.mem_singleton.mpr rfl)⟩
  · exact absurd hop id

/-- An entry after a datagram of an honest instance. -/
theorem source_recv (h : Sourced G es i s) {j : ι} {g : Buffer}
    (hwire : Says (G.pUuid j) g (Honest es j)) {now : Timestamp} {rcvStr : Buffer} (hstr : rcvStr.length = MaxRcvStr)
    {o : List Output} (hrecv : s.state.recvDiscoveryUpdate (G.ip i j) now g rcvStr = some (s'.state, o))
    (e : NetEvent ι (Happening ι)) {type : MsgType} {t q : Str} {a : Address}
    (ha : a ∈ (s'.state.info type).cell t q) : Source G (es ++ [e]) i type t q a := by
  rcases recv_says (d := s.state) hwire (G.ip i j) now hstr with ⟨-, hown⟩ | ⟨hne, header, body, -, hbody, -, hother⟩
  · rw [hown, Option.some.injEq, Prod.mk.injEq] at hrecv
    rw [← hrecv.1] at ha
    exact (h.source type t q a ha).concat e
  · rw [hother] at hrecv
    rcases mem_info_handle hrecv ha with ⟨hold, -⟩ | ⟨rfl, m, rfl, hshown, -, rfl, rfl⟩
    · rw [info_touch] at hold
      exact (h.source type t q a hold).concat e
    · rw [hostAddr_touch, h.hostAddr] at hshown
      refine .inr ⟨fun hq => hne (hq.trans h.pUuid.symm), j, rfl, List.mem_append_left _ (hbody ?_), hshown⟩
      exact (not_hides_iff.mp hshown).1

/-- **One step**: the invariant of the instance stays, and what it sends is honest. -/
theorem sourced_step (h : Sourced G es e.agent s) (hfit : ∀ op, e.input = .op op → op.Fits)
    (hwire : ∀ x ∈ consumes e.input, Says (G.pUuid x.1) x.2 (Honest es x.1))
    (hprogram : program G e.agent s e.input = some (s', out)) :
    Sourced G (es ++ [e]) e.agent s' ∧
      ∀ b ∈ out, Says (G.pUuid e.agent) b (Honest (es ++ [e]) e.agent) := by
  obtain ⟨i, x⟩ := e
  have hlen : s.state.pUuid.length < 2 ^ 31 - 13 := h.ready.fits.pUuid
  rcases program_eq_some hprogram with ⟨op, o, hop, hperform, rfl⟩ | ⟨rfl, hstate, o, hdestroy, rfl⟩ |
    ⟨rfl, hstate, rfl⟩
  · have hopfit : op.Fits := by
      cases x with
      | op op =>
        obtain rfl := Option.some.inj hop
        exact hfit _ rfl
      | recv now rcvStr j g =>
        obtain rfl := Option.some.inj hop
        exact trivial
      | _ => cases hop
    have hstep := step_of_perform hperform
    refine ⟨⟨(fixed_step hstep).1.trans h.pUuid, (hostAddr_step hstep).trans h.hostAddr,
      ownReady_step h.ready hopfit hstep, fun type t q a ha => ?_⟩, fun b hb => ?_⟩
    · cases x with
      | op op =>
        obtain ⟨hinternal, o, hperform, -⟩ := program_op hprogram
        exact source_op h hinternal hperform ha
      | recv now rcvStr j g =>
        obtain ⟨hstr, o, hrecv, -⟩ := program_recv hprogram
        exact source_recv h (hwire (j, g) (List.mem_singleton.mpr rfl)) hstr hrecv _ ha
      | _ => cases hop
    · have hspoken := says_perform h.ready hopfit hperform hb
      rw [h.pUuid] at hspoken
      exact hspoken.mono fun body => honest_of_allowed h hop
  · refine ⟨⟨hstate ▸ h.pUuid, hstate ▸ h.hostAddr, hstate ▸ h.ready, fun type t q a ha => ?_⟩, fun b hb => ?_⟩
    · rw [hstate] at ha
      exact (h.source type t q a ha).concat _
    · have hspoken := says_destroy hlen hdestroy hb
      rw [h.pUuid] at hspoken
      refine hspoken.mono fun body hbody => ?_
      rcases hbody with rfl | ⟨rfl, -⟩
      · exact List.mem_append_right _ (List.mem_singleton.mpr rfl)
      · exact trivial
  · refine ⟨⟨hstate ▸ h.pUuid, hstate ▸ h.hostAddr, hstate ▸ h.ready, fun type t q a ha => ?_⟩, fun b hb => ?_⟩
    · rw [hstate] at ha
      exact (h.source type t q a ha).concat _
    · cases hb

/-- A datagram that says anything can be received. -/
theorem isSome_recv (hup : s.up = true) (hready : s.state.OwnReady) {p : Str} {g : Buffer} {Q : Body → Prop}
    (hspoken : Says p g Q) (i j : ι) (now : Timestamp) {rcvStr : Buffer}
    (hstr : rcvStr.length = MaxRcvStr) : (program G i s (.recv now rcvStr j g)).isSome := by
  have hrecv : (s.state.recvDiscoveryUpdate (G.ip i j) now g rcvStr).isSome := by
    rcases recv_says (d := s.state) hspoken (G.ip i j) now hstr with ⟨-, hown⟩ | ⟨-, -, body, -, -, -, hother⟩
    · rw [hown]
      rfl
    · rw [hother]
      exact isSome_handle_of_ready hready _ _ _ _
  unfold program
  rw [if_pos hup]
  dsimp only
  rw [if_pos hstr, Option.isSome_map]
  exact hrecv

variable [DecidableEq ι]

/-- All instances are sourced, and all datagrams are honest. -/
theorem sourced_run {n : Net ι Instance Buffer} (hfit : RunFits es)
    (h : run (networkStep G) (network G) es = some n) :
    (∀ i, Sourced G es i (n.agents i)) ∧ ∀ x ∈ n.sent, Says (G.pUuid x.1) x.2 (Honest es x.1) := by
  have hall : (∀ i, RunFits es → Sourced G es i (n.agents i)) ∧
      ∀ x ∈ n.sent, RunFits es → Says (G.pUuid x.1) x.2 (Honest es x.1) := by
    refine net_invariant (fun pre i s => RunFits pre → Sourced G pre i s)
      (fun pre j b => RunFits pre → Says (G.pUuid j) b (Honest pre j))
      (fun i _ => sourced_start G i) rfl ?_ ?_ ?_ h
    · exact fun pre e i s _ hs hfit => (hs fun e' he' => hfit e' (List.mem_append_left _ he')).concat e
    · exact fun pre e j b hb hfit =>
        (hb fun e' he' => hfit e' (List.mem_append_left _ he')).mono fun _ hbody => hbody.concat e
    · intro pre m e s' out _ hs hwire hprogram
      have hpre : RunFits (pre ++ [e]) → RunFits pre := fun hfit e' he' => hfit e' (List.mem_append_left _ he')
      have hlast : RunFits (pre ++ [e]) → ∀ op, e.input = .op op → op.Fits := fun hfit =>
        hfit e (List.mem_append_right _ (List.mem_singleton.mpr rfl))
      constructor
      · exact fun hfit => (sourced_step (hs (hpre hfit)) (hlast hfit) (fun x hx => hwire x hx (hpre hfit)) hprogram).1
      · exact fun b hb hfit =>
          (sourced_step (hs (hpre hfit)) (hlast hfit) (fun x hx => hwire x hx (hpre hfit)) hprogram).2 b hb
  exact ⟨fun i => hall.1 i hfit, fun x hx => hall.2 x hx hfit⟩

end Honesty

/-! ## Reception and provenance -/

section Provenance

variable {ι : Type} [DecidableEq ι] {G : Group ι} {es : List (NetEvent ι (Happening ι))} {n n' : Net ι Instance Buffer}
  {i : ι}

/-- Whatever was sent can be received, at any time. -/
theorem exists_delivery (hfit : RunFits es) (h : run (networkStep G) (network G) es = some n)
    (hup : (n.agents i).up = true) {j : ι} {g : Buffer} (hsent : (j, g) ∈ n.sent) (now : Timestamp) {rcvStr : Buffer}
    (hstr : rcvStr.length = MaxRcvStr) :
    ∃ n', networkStep G n ⟨i, .recv now rcvStr j g⟩ = some n' ∧ (n'.agents i).up = true := by
  obtain ⟨hagents, hwire⟩ := sourced_run hfit h
  obtain ⟨⟨s, out⟩, hprogram⟩ := Option.isSome_iff_exists.mp
    (isSome_recv (G := G) hup (hagents i).ready (hwire _ hsent) i j now hstr)
  refine ⟨_, netStep_eq_some.mpr ⟨fun y hy => List.mem_singleton.mp hy ▸ hsent, s, out, hprogram, rfl⟩, ?_⟩
  rw [agents_update_self]
  obtain ⟨-, o, -, -, hup'⟩ := program_recv hprogram
  exact hup'

/-- What an instance is asked to do makes sense: strings that can be packed, a disconnection callback for a sweep, and
a datagram that was sent, in a buffer of the size that `RecvDiscoveryUpdate` has. -/
def Sensible (n : Net ι Instance Buffer) (i : ι) : Happening ι → Prop
  | .op op => op.Internal ∧ op.Fits ∧ ∀ now, op = .sweep now → (n.agents i).state.disconnectionCb = true
  | .recv _ rcvStr j datagram => (j, datagram) ∈ n.sent ∧ rcvStr.length = MaxRcvStr
  | _ => True

/-- **Nobody gets stuck.**  In every state of the network, whatever the members have sent so far and whatever is left
in the buffers, an instance that is up returns from each of its entry points, from its threads and from the reception
of any datagram. -/
theorem network_progress (hfit : RunFits es) (h : run (networkStep G) (network G) es = some n)
    (hup : (n.agents i).up = true) {x : Happening ι} (hx : Sensible n i x) : (networkStep G n ⟨i, x⟩).isSome := by
  obtain ⟨hagents, hsent⟩ := sourced_run hfit h
  have hready := (hagents i).ready
  unfold networkStep
  rw [isSome_netStep]
  cases x with
  | op op =>
    obtain ⟨hinternal, hopfit, hsweep⟩ := hx
    refine ⟨fun y hy => (by cases hy), ?_⟩
    unfold program
    rw [if_pos hup]
    dsimp only
    rw [if_pos hinternal, Option.isSome_map]
    refine isSome_perform hready hopfit (fun g hg => ?_) hsweep
    rw [hg] at hinternal
    exact hinternal
  | destroy =>
    refine ⟨fun y hy => (by cases hy), ?_⟩
    unfold program
    rw [if_pos hup]
    dsimp only
    rw [Option.isSome_map]
    exact isSome_destroy hready.fits.pUuid
  | crash =>
    refine ⟨fun y hy => (by cases hy), ?_⟩
    unfold program
    rw [if_pos hup]
    rfl
  | recv now rcvStr j datagram =>
    refine ⟨fun y hy => ?_, isSome_recv hup hready (hsent _ hx.1) i j now hx.2⟩
    obtain rfl := List.mem_singleton.mp hy
    exact hx.1

/-- Two instances on two hosts. -/
def pairGroup : Group Bool where
  pUuid j := Process.uuidOf (if j then 66 else 65)
  host j := if j then [2] else [1]
  ip _ j := if j then [2] else [1]

/-- The first one advertises a topic for everybody. -/
def pairAdvertise : NetEvent Bool (Happening Bool) := ⟨false, .op (.advertise .msg [116] [97] [] [110] .all)⟩

/-- What it sends. -/
def pairMsg : AdvertiseMsg :=
  (start (pairGroup.pUuid false) [1]).entryMsg AdvType [116] ⟨[97], [], [110], .all⟩

/-- A buffer that nothing was received in yet. -/
def freshBuffer : Buffer := List.replicate MaxRcvStr 0

theorem length_freshBuffer : freshBuffer.length = MaxRcvStr := List.length_replicate

theorem pair_advertised : ∃ n, run (networkStep pairGroup) (network pairGroup) [pairAdvertise] = some n ∧
    (false, advDatagram pairMsg) ∈ n.sent ∧ (n.agents true).up = true := by
  have hany : (run (networkStep pairGroup) (network pairGroup) [pairAdvertise]).any (fun n =>
      (false, advDatagram pairMsg) ∈ n.sent ∧ (n.agents true).up = true) = true := by decide +kernel
  exact exists_of_any hany

theorem pair_fits : RunFits [pairAdvertise] := by
  intro e he op hop
  obtain rfl := List.mem_singleton.mp he
  obtain rfl := Happening.op.inj hop
  exact ⟨by decide, by decide, by decide, by decide⟩

/-- The second instance can receive what the first one sent. -/
theorem network_progress_pair : ∃ n n', run (networkStep pairGroup) (network pairGroup) [pairAdvertise] = some n ∧
    networkStep pairGroup n ⟨true, .recv 5 freshBuffer false (advDatagram pairMsg)⟩ = some n' := by
  obtain ⟨n, hn, hsent, hup⟩ := pair_advertised
  obtain ⟨n', hn'⟩ := Option.isSome_iff_exists.mp (network_progress (x := .recv 5 freshBuffer false
    (advDatagram pairMsg)) pair_fits hn hup ⟨hsent, length_freshBuffer⟩)
  exact ⟨n, n', hn, hn'⟩

/-- **Nothing is invented.**  In every state of the network, an entry that an instance stores under a process UUID was
advertised, with all of its data, by the instance with that UUID; what comes from another one is not for that process
alone, and for its host only if it came from this host. -/
theorem nothing_invented (hfit : RunFits es)
    (h : run (networkStep G) (network G) es = some n) (i : ι) (type : MsgType) (t q : Str) (a : Address)
    (ha : a ∈ ((n.agents i).state.info type).cell t q) :
    (q = G.pUuid i ∧ Advertised es i type t a) ∨
      (q ≠ G.pUuid i ∧ ∃ j, q = G.pUuid j ∧ Advertised es j type t a ∧
        a.scope ≠ .process ∧ (a.scope = .host → G.ip i j = G.host i)) := by
  rcases ((sourced_run hfit h).1 i).source type t q a ha with hown | ⟨hq, j, hj, hadv, hshown⟩
  · exact .inl hown
  · exact .inr ⟨hq, j, hj, hadv, not_hides_iff.mp hshown⟩

/-- What the first instance sends says what it was told to advertise. -/
theorem says_pairMsg : Says (pairGroup.pUuid false) (advDatagram pairMsg) fun body =>
    body = .advertise .msg (advertiseOf (pairMsg.body, pairMsg.msgTypeName)) := by
  refine (says_advDatagram (m := pairMsg) (by decide) (by decide) ⟨⟨by decide, by decide, by decide, by decide,
    by decide⟩, by decide⟩ (by decide +kernel)).mono fun body hbody => ?_
  rcases hbody with ⟨-, rfl⟩ | ⟨hnot, -⟩
  · rfl
  · exact absurd (by decide +kernel) hnot

/-- Once it was sent, the second instance can hear of it. -/
theorem pair_hears {es : List (NetEvent Bool (Happening Bool))} {n : Net Bool Instance Buffer} (hfit : RunFits es)
    (h : run (networkStep pairGroup) (network pairGroup) es = some n) (hup : (n.agents true).up = true)
    (hsent : (false, advDatagram pairMsg) ∈ n.sent) : ∃ n' b,
      networkStep pairGroup n ⟨true, .recv 5 freshBuffer false (advDatagram pairMsg)⟩ = some n' ∧
      (n'.agents true).up = true ∧ b ∈ ((n'.agents true).state.info .msg).cell [116] (pairGroup.pUuid false) := by
  obtain ⟨n', hn', hup'⟩ := exists_delivery hfit h hup hsent 5 length_freshBuffer
  obtain ⟨-, s, out, hprogram, heq⟩ := netStep_eq_some.mp hn'
  obtain ⟨hstr, o, hrecv, -⟩ := program_recv hprogram
  have hsecond := (sourced_run hfit h).1 true
  obtain ⟨b, hb, -⟩ := known_of_recv (by rw [hsecond.pUuid]; decide) says_pairMsg hstr
    (by rw [hsecond.hostAddr]; decide) hrecv
  refine ⟨n', b, hn', hup', ?_⟩
  rw [heq, agents_update_self]
  exact hb

/-- The second instance hears of it, and nobody else could have told it. -/
theorem nothing_invented_pair : ∃ n b, run (networkStep pairGroup) (network pairGroup)
      [pairAdvertise, ⟨true, .recv 5 freshBuffer false (advDatagram pairMsg)⟩] = some n ∧
    b ∈ ((n.agents true).state.info .msg).cell [116] (pairGroup.pUuid false) ∧
    (pairGroup.pUuid false).1 ≠ pairGroup.pUuid true ∧ ∃ j, (pairGroup.pUuid false).1 = pairGroup.pUuid j ∧
      Advertised [pairAdvertise, ⟨true, .recv 5 freshBuffer false (advDatagram pairMsg)⟩] j .msg [116] b := by
  obtain ⟨n, hn, hsent, hup⟩ := pair_advertised
  obtain ⟨n', b, hn', -, hb⟩ := pair_hears pair_fits hn hup hsent
  have hne : (pairGroup.pUuid false).1 ≠ pairGroup.pUuid true := by decide
  have hrun := run_concat.mpr ⟨n, hn, hn'⟩
  refine ⟨n', b, hrun, hb, hne, ?_⟩
  rcases nothing_invented (pair_fits.concat fun op hop => by cases hop) hrun true .msg [116] _ b hb with
    ⟨hq, -⟩ | ⟨-, j, hj, hadv, -⟩
  · exact absurd hq hne
  · exact ⟨j, hj, hadv⟩

end Provenance

end Discovery

end IgnTransport
