import Mathlib
import IgnTransport.DiscoveryNetwork
import IgnTransport.Publications
import IgnTransport.Responders

/-!
# IgnTransport.DiscoveryServices — the discovery services of a network of processes

A network of processes leaves open which datagrams arrive.  If they are those that the processes have sent, the
discovery services of the processes do what the members of a discovery network do.

* `discovery_refines`: every run of the processes is a run of the discovery network.
* `control_reaches_publishers`: control messages are for publishers of the topic.
* `requests_reach_offerers`: requests are for processes that offered the service.
-/

namespace IgnTransport

open Lib CallM

namespace Discovery

instance : DecidablePred Op.Fits
  | .advertise _ topic addr ctrl nUuid _ => inferInstanceAs (Decidable
      (topic.length < 2 ^ 31 ∧ addr.length < 2 ^ 31 ∧ ctrl.length < 2 ^ 31 ∧ nUuid.length < 2 ^ 31))
  | .discover topic _ => inferInstanceAs (Decidable (topic.length < 2 ^ 31))
  | .unadvertise .. | .datagram _ | .heartbeat | .sweep _ | .setConnectionsCb .. | .setDisconnectionsCb .. |
    .setSilenceInterval _ => isTrue trivial

/-! ## Callbacks -/

section Callbacks

variable {d d' : Discovery} {op : Op} {out : List Output} {type : MsgType} {args : CallbackArgs}

/-- An ADVERTISE that makes a callback adds its entry. -/
theorem stored_of_handle {fromIp q : Str} {body : Body} (h : d.handle fromIp q body = some (d', out))
    (hmem : .connection type args ∈ out) :
    ⟨args.addr, args.ctrl, args.nUuid, args.scope⟩ ∈ (d'.info type).cell args.topic args.pUuid := by
  obtain ⟨sent, rfl, hsent⟩ := out_handle h
  have hcallback := (List.mem_append.mp hmem).resolve_left fun hs => hsent _ hs
  obtain ⟨m, rfl, hshown, hknown, -, rfl⟩ := mem_callbacks_connection.mp hcallback
  have hcell := cell_handle h type m.topic q
  have happly : (d.peer q).apply d.hostAddr fromIp (.advertise type m) =
      (d.peer q).edit type m.topic fun v => TopicStorage.addEntry v (Peer.addressOf m) := by
    dsimp only [Peer.apply]
    rw [if_neg hshown]
  rw [if_pos rfl, happly, Peer.entries_edit, if_pos ⟨rfl, rfl⟩, TopicStorage.addEntry] at hcell
  split_ifs at hcell with hold
  · exact absurd hold hknown
  · show Peer.addressOf m ∈ (d'.info type).cell m.topic q
    rw [hcell]
    exact List.mem_append_right _ (List.mem_singleton_self _)

/-- **What a connection callback is told is stored.** -/
theorem stored_of_connection (h : d.perform op = some (d', out)) (hmem : .connection type args ∈ out) :
    ⟨args.addr, args.ctrl, args.nUuid, args.scope⟩ ∈ (d'.info type).cell args.topic args.pUuid := by
  obtain ⟨-, hfinds⟩ := (mem_connection_perform h).mp hmem
  cases op with
  | discover topic isSrv =>
    obtain ⟨rfl, q, a, ha, rfl⟩ := hfinds
    rw [state_discover h]
    exact ha
  | datagram g =>
    rcases dispatch_cases h with ⟨header, -, -, -, rfl⟩ | ⟨header, body, -, -, hhandle⟩
    · cases hmem
    · exact stored_of_handle hhandle hmem
  | _ => cases hfinds

end Callbacks

end Discovery

namespace NodeShared

/-- What never changes: the identity of a process, its endpoints and the identities of its sockets. -/
def constants (s : NodeShared) : NodeShared :=
  { s with
    connections := Table.empty
    srvConnections := []
    remoteSubscribers := Table.empty
    localSubscriptions := Table.empty
    repliers := Table.empty
    requests := Table.empty }

/-- Where a process tells others to find it. -/
def endpoints (s : NodeShared) : MsgType → Str × Str
  | .msg => (s.myAddress, s.myControlAddress)
  | .srv => (s.myReplierAddress, s.replierId)

end NodeShared

namespace Process

open NodeShared

/-! ## One process -/

section Announcing

variable {p : Process} {e : Event} {o : Outcome}

theorem constants_exec (h : p.exec e = some o) : o.process.shared.constants = p.shared.constants := by
  obtain ⟨r, hr, rfl, -⟩ := exec_eq_some h
  have hcore : (finish e.throwsAt r).process.shared.core = r.1.shared.core :=
    (finish_within (performed_perform hr).within e.throwsAt).1
  have hshared : r.1.shared.constants = p.shared.constants := by
    rw [(acts_perform hr).shared]
    rfl
  exact (congrArg constants hcore).trans hshared

/-- A node announces an entry, with the endpoints of its process. -/
def Announces (p : Process) (op : Op) (type : MsgType) (t : Str) (a : Address) : Prop :=
  (a.addr, a.ctrl) = p.shared.endpoints type ∧ ∃ topic, p.fqn a.nUuid topic = some t ∧
    match type with
    | .msg => op = .advertise a.nUuid topic a.scope
    | .srv => ∃ u, op = .advertiseSrv a.nUuid topic u a.scope

theorem announces_of_discoveryOp {op : Op} {type : MsgType} {t : Str} {a : Address}
    (h : p.discoveryOp op = some (.advertise type t a.addr a.ctrl a.nUuid a.scope)) : p.Announces op type t a := by
  obtain ⟨addr, ctrl, nUuid, scope⟩ := a
  cases op with
  | advertise m topic scope =>
    obtain ⟨name, hname, heq⟩ := Option.map_eq_some_iff.mp h
    cases heq
    exact ⟨rfl, topic, hname, rfl⟩
  | advertiseSrv m topic u scope =>
    obtain ⟨name, hname, heq⟩ := Option.map_eq_some_iff.mp h
    cases heq
    exact ⟨rfl, topic, hname, u, rfl⟩
  | request m topic u data =>
    obtain ⟨name, -, heq⟩ := discoveryOp_request h
    cases heq
  | subscribe m topic u | unadvertise m topic | unadvertiseSrv m topic =>
    obtain ⟨name, -, heq⟩ := Option.map_eq_some_iff.mp h
    cases heq
  | _ => cases h

end Announcing

section Datagrams

variable {p : Process} {e : Event} {o : Outcome}

/-- **What an operation has to do with discovery**: nothing, or it is one operation of the discovery service, which puts
out all the datagrams that are sent. -/
theorem datagrams_exec (h : p.exec e = some o) :
    match p.discoveryOp e.op with
    | none => o.process.discovery = p.discovery ∧ ∀ b, .datagram b ∉ o.effects
    | some dop => ∃ out, p.discovery.perform dop = some (o.process.discovery, out) ∧
        ∀ b, .datagram b ∈ o.effects → .sendto b ∈ out := by
  obtain ⟨r, hr, rfl, -⟩ := exec_eq_some h
  have hof : ∀ {V : Type} (view : NodeShared → V) {Kind : Effect → Prop}, Within view (view r.1.shared) Kind r.2 →
      ∀ b, .datagram b ∈ (finish e.throwsAt r).effects → Kind (.datagram b) := fun _ _ hwithin b hb =>
    (finish_within hwithin e.throwsAt).2 _ hb
  cases (acts_perform hr).action with
  | discovered dop out hop hout hprogram =>
    rw [hop]
    refine ⟨out, hout, fun b hb => ?_⟩
    have hwithin : Within core r.1.shared.core (fun x => ∃ o ∈ out, r.1.shared.core.ReactEffect o x) r.2 := by
      rw [hprogram]
      exact (within_reactAll _ _ _).bind fun _ => within_pure true
    obtain ⟨y, hy, hreact⟩ := hof core hwithin b hb
    cases y with
    | sendto c =>
      obtain rfl := Effect.datagram.inj hreact
      exact hy
    | connection type args => cases type <;> exact hreact.elim
    | disconnection type args => cases type <;> exact hreact.elim
  | own hop hdiscovery hprogram =>
    rw [hop]
    refine ⟨hdiscovery, ?_⟩
    obtain ⟨q, c⟩ := r
    cases hprogram with
    | idle b hidle =>
      have hwithin : Within id q.shared (fun _ => False) (return b : NodeM Bool) := within_pure b
      exact hof id hwithin
    | known nUuid topic hUuid data name =>
      exact hof butServices ((within_sendPendingRemoteReqs _ _ name).bind fun _ => within_pure true)
    | unsubscribed nUuid topic name => exact hof id (within_notifyUnsubscribed _ nUuid name _)
    | published nUuid topic data name node => exact hof id (within_publish _ node name data)
    | controlled topic procUuid nodeUuid data =>
      exact hof butRemote ((within_recvControlUpdate _ topic procUuid nodeUuid data).bind fun _ => within_pure true)

/-- A control message is for a publisher of its topic that is stored. -/
def ForPublisher (infoMsg : TopicStorage) (ctrl : Str) (frames : List Str) : Prop :=
  ∃ t q a, a ∈ infoMsg.cell t q ∧ ctrl = cStr a.ctrl ∧ frames.head? = some t

/-- **The control messages of an operation.** -/
theorem control_exec (h : p.exec e = some o) {ctrl : Str} {frames : List Str} (hx : .control ctrl frames ∈ o.effects) :
    ForPublisher o.process.discovery.infoMsg ctrl frames := by
  obtain ⟨r, hr, rfl, -⟩ := exec_eq_some h
  have hof : ∀ {V : Type} (view : NodeShared → V) {Kind : Effect → Prop}, Within view (view r.1.shared) Kind r.2 →
      Kind (.control ctrl frames) := fun _ _ hwithin => (finish_within hwithin e.throwsAt).2 _ hx
  cases (acts_perform hr).action with
  | discovered dop out hop hout hprogram =>
    have hwithin : Within core r.1.shared.core (fun x => ∃ o ∈ out, r.1.shared.core.ReactEffect o x) r.2 := by
      rw [hprogram]
      exact (within_reactAll _ _ _).bind fun _ => within_pure true
    obtain ⟨y, hy, hreact⟩ := hof core hwithin
    cases y with
    | sendto c => cases hreact
    | connection type args =>
      cases type with
      | srv => exact hreact.elim
      | msg =>
        obtain ⟨hctrl, n, u, handler, -, rfl⟩ := hreact
        exact ⟨args.topic, args.pUuid, _, Discovery.stored_of_connection hout hy, hctrl, rfl⟩
    | disconnection type args => cases type <;> exact hreact.elim
  | own hop hdiscovery hprogram =>
    obtain ⟨q, c⟩ := r
    cases hprogram with
    | idle b hidle =>
      have hwithin : Within id q.shared (fun _ => False) (return b : NodeM Bool) := within_pure b
      exact (hof id hwithin).elim
    | known nUuid topic hUuid data name =>
      exact (hof butServices ((within_sendPendingRemoteReqs _ _ name).bind fun _ => within_pure true)).elim
    | unsubscribed nUuid topic name =>
      obtain ⟨rfl, q', a, ha, hctrl⟩ := hof id (within_notifyUnsubscribed _ nUuid name _)
      have hinfo : q.discovery.infoMsg = p.discovery.infoMsg := congrArg (·.infoMsg) hdiscovery
      exact ⟨name, q', a, hinfo ▸ ha, hctrl, rfl⟩
    | published nUuid topic data name node => exact (hof id (within_publish _ node name data)).elim
    | controlled topic procUuid nodeUuid data =>
      exact (hof butRemote ((within_recvControlUpdate _ topic procUuid nodeUuid data).bind fun _ =>
        within_pure true)).elim

end Datagrams

end Process

namespace ProcessNetwork

open NodeShared

variable {ι : Type}

/-! ## The discovery network of the processes -/

section Operating

/-- The member does an operation that is allowed, or receives. -/
def Operates (i : ι) (Ok : Discovery.Op → Prop) (f : NetEvent ι (Discovery.Happening ι)) : Prop :=
  f.agent = i ∧ match f.input with
    | .op dop => dop.Fits ∧ Ok dop
    | .recv .. => True
    | .destroy | .crash => False

theorem Operates.mono {i : ι} {Ok Ok' : Discovery.Op → Prop} {f : NetEvent ι (Discovery.Happening ι)}
    (h : Operates i Ok f) (hok : ∀ dop, Ok dop → Ok' dop) : Operates i Ok' f := by
  obtain ⟨j, x⟩ := f
  cases x with
  | op dop => exact ⟨h.1, h.2.1, hok dop h.2.2⟩
  | recv => exact ⟨h.1, trivial⟩
  | destroy | crash => exact h.2.elim

end Operating

/-! ## Removals and control messages -/

section Control

variable {p q : Process} {nUuid : Str}

/-- A removal withdraws topics at the most. -/
theorem discoveryOp_removal {op : Process.Op} (hr : Process.IsRemoval nUuid op)
    {dop : Discovery.Op} (h : p.discoveryOp op = some dop) : ∃ t, dop = .unadvertise .msg t nUuid := by
  obtain ⟨topic, rfl | rfl | rfl⟩ := hr
  · cases h
  · obtain ⟨t, -, rfl⟩ := Option.map_eq_some_iff.mp h
    exact ⟨t, rfl⟩
  · obtain ⟨t, -, rfl⟩ := Option.map_eq_some_iff.mp h
    exact ⟨t, rfl⟩

/-- A removal stores nothing. -/
theorem stored_of_removal {e : Process.Event} {o : Process.Outcome} (hr : Process.IsRemoval nUuid e.op)
    (h : p.exec e = some o) (hown : Process.OwnKept p) {t r : Str} {a : Address}
    (ha : a ∈ o.process.discovery.infoMsg.cell t r) : a ∈ p.discovery.infoMsg.cell t r := by
  have hexec := Process.datagrams_exec h
  cases hop : p.discoveryOp e.op with
  | none =>
    rw [hop] at hexec
    rw [hexec.1] at ha
    exact ha
  | some dop =>
    rw [hop] at hexec
    obtain ⟨out, hperform, -⟩ := hexec
    obtain ⟨u, rfl⟩ := discoveryOp_removal hr hop
    have ha' : a ∈ (o.process.discovery.info .msg).cell t r := ha
    rcases Discovery.mem_info_perform hperform hown.unheard ha' with
      hold | ⟨-, _, _, _, _, heq, -⟩ | ⟨-, _, _, _, heq, -⟩
    · exact hold
    · cases heq
    · cases heq

/-- The control messages of the destructor of a node. -/
theorem control_destroy (hown : Process.OwnKept p) (h : p.destroyNode nUuid Process.noThrow = some q)
    {ctrl : Str} {frames : List Str} (hx : .control ctrl frames ∈ p.destroyEffects nUuid) :
    Process.ForPublisher p.discovery.infoMsg ctrl frames := by
  let R : Process → List Effect → Prop := fun q es => Process.OwnKept q ∧
    (∀ t r a, a ∈ q.discovery.infoMsg.cell t r → a ∈ p.discovery.infoMsg.cell t r) ∧
      (.control ctrl frames ∈ es → Process.ForPublisher p.discovery.infoMsg ctrl frames)
  have hinit : R p [] := ⟨hown, fun _ _ _ ha => ha, fun hx => (by cases hx)⟩
  have hremoval : ∀ (q : Process) (es : List Effect) e o, Process.IsRemoval nUuid e.op → q.exec e = some o →
      R q es → R o.process (es ++ o.effects) := by
    rintro q es e o hr hexec ⟨hq, hsub, hes⟩
    have hsub' : ∀ t r a, a ∈ o.process.discovery.infoMsg.cell t r → a ∈ p.discovery.infoMsg.cell t r :=
      fun t r a ha => hsub t r a (stored_of_removal hr hexec hq ha)
    refine ⟨Process.ownKept_exec hexec hq, hsub', fun hmem => ?_⟩
    rcases List.mem_append.mp hmem with hold | hnew
    · exact hes hold
    · obtain ⟨t, r, a, ha, hrest⟩ := Process.control_exec hexec hnew
      exact ⟨t, r, a, hsub' t r a ha, hrest⟩
  obtain ⟨p₃, ⟨-, -, hp₃⟩, -⟩ := destroyEffects_run hinit hremoval h
  exact hp₃ hx

/-- Who a control message is for was stored before the step that sent it, or after it. -/
theorem control_program {i : ι} {c c' : Requesters} {x : Happening ι} {out : List Effect}
    (h : program i c x = some (c', out)) (hown : Process.OwnKept c.process) {ctrl : Str} {frames : List Str}
    (hx : .control ctrl frames ∈ out) : Process.ForPublisher c.process.discovery.infoMsg ctrl frames ∨
      Process.ForPublisher c'.process.discovery.infoMsg ctrl frames := by
  rcases program_cases h with ⟨caller, e, -, hissue⟩ | ⟨nUuid, q, -, hq, -, rfl⟩ | ⟨-, -, -, hout⟩
  · obtain ⟨o, ho, heq, -⟩ := Requesters.issue_eq_some hissue
    obtain ⟨rfl, rfl⟩ := Prod.mk.inj heq
    exact .inr (Process.control_exec ho hx)
  · exact .inl (control_destroy hown hq hx)
  · cases hout _ hx

end Control

variable [DecidableEq ι]

section Definitions

variable (G : Group ι) (ip : ι → ι → Str) (es : List (NetEvent ι (Happening ι)))

/-- The discovery services of the processes; `ip i j` is the source address of the datagrams of `j` at the host of
`i`. -/
def Group.discovery : Discovery.Group ι where
  pUuid i := (G.shared i).pUuid
  host := G.hostAddr
  ip

/-- A datagram of `j` has landed in `rcvStr` at `i`. -/
def Lands (i j : ι) (b : Buffer) (g : Datagram) : Prop := ∃ rcvStr : Buffer, rcvStr.length = Discovery.MaxRcvStr ∧
  g = ⟨ip i j, g.now, b.take Discovery.MaxRcvStr ++ rcvStr.drop b.length⟩

/-- A datagram that was sent has come to `i`. -/
def Delivered (n : Net ι Requesters Effect) (i : ι) (g : Datagram) : Prop :=
  ∃ j b, (j, .datagram b) ∈ n.sent ∧ b.length ≤ Discovery.maxPayload ∧ Lands ip i j b g

/-- All datagrams that arrive were sent by processes, and all names can be packed. -/
def Closed : Prop := Along networkStep (fun _ n e => ∀ op, opOf e.input = some op →
  (∀ g, op = .datagram g → Delivered ip n e.agent g) ∧
    ∀ dop, (n.agents e.agent).process.discoveryOp op = some dop → dop.Fits) (network G) es

/-- The process told its discovery service to do this, on its own or in the destructor of a node. -/
def Told (i : ι) (dop : Discovery.Op) : Prop :=
  Did G es i (fun p op => p.discoveryOp op = some dop) ∨
    ∃ t nUuid, dop = .unadvertise .msg t nUuid ∧ ⟨i, .own (.destroy nUuid)⟩ ∈ es

/-- A run of the discovery network that has come to the discovery services of the processes. -/
structure Mirrors (n : Net ι Requesters Effect) (ds : List (NetEvent ι (Discovery.Happening ι)))
    (m : Net ι Discovery.Instance Buffer) : Prop where
  agents : ∀ i, m.agents i = { state := (n.agents i).process.discovery }
  sent : ∀ i b, (i, .datagram b) ∈ n.sent → b.length ≤ Discovery.maxPayload → (i, b) ∈ m.sent
  events : ∀ f ∈ ds, Operates f.agent (Told G es f.agent) f

end Definitions

/-! ## One process -/

section Following

variable {D : Discovery.Group ι} {m : Net ι Discovery.Instance Buffer} {i : ι} {Ok : Discovery.Op → Prop}
  {d d' : Discovery} {out out' : List Effect} {p : Process} {e : Process.Event} {o : Process.Outcome}

/-- The discovery network can follow a process that comes to `d` and sends `out`. -/
def Follows (D : Discovery.Group ι) (m : Net ι Discovery.Instance Buffer) (i : ι) (Ok : Discovery.Op → Prop)
    (d : Discovery) (out : List Effect) : Prop :=
  ∃ fs m', run (Discovery.networkStep D) m fs = some m' ∧
    m'.agents = Function.update m.agents i { state := d } ∧
    (∀ b, .datagram b ∈ out → b.length ≤ Discovery.maxPayload → (i, b) ∈ m'.sent) ∧ ∀ f ∈ fs, Operates i Ok f

/-- Nothing has to be done. -/
theorem follows_nil (hm : m.agents i = { state := d }) (hout : ∀ b, .datagram b ∉ out) : Follows D m i Ok d out :=
  ⟨[], m, rfl, by rw [← hm, Function.update_eq_self], fun b hb => absurd hb (hout b), fun f hf => (by cases hf)⟩

theorem Follows.trans (h : Follows D m i Ok d out)
    (h' : ∀ m', m'.agents i = { state := d } → (∀ x ∈ m.sent, x ∈ m'.sent) → Follows D m' i Ok d' out') :
    Follows D m i Ok d' (out ++ out') := by
  obtain ⟨fs, m₁, hrun, hagents, hsent, hfs⟩ := h
  obtain ⟨fs', m₂, hrun', hagents', hsent', hfs'⟩ := h' m₁ (by rw [hagents, Function.update_self])
    fun x hx => sent_mono hrun hx
  refine ⟨fs ++ fs', m₂, run_append_eq_some.mpr ⟨m₁, hrun, hrun'⟩, ?_, fun b hb hlen => ?_,
    List.forall_mem_append.mpr ⟨hfs, hfs'⟩⟩
  · rw [hagents', hagents, Function.update_idem]
  · exact (List.mem_append.mp hb).elim (fun hb => sent_mono hrun' (hsent b hb hlen)) fun hb => hsent' b hb hlen

theorem eq_datagram_of_not_internal {dop : Discovery.Op} (h : ¬ dop.Internal) : ∃ g, dop = .datagram g := by
  cases dop with
  | datagram g => exact ⟨g, rfl⟩
  | _ => exact absurd trivial h

/-- **An operation** is followed by at most one step. -/
theorem follows_exec (h : p.exec e = some o) (hm : m.agents i = { state := p.discovery })
    (hdatagram : ∀ g, e.op = .datagram g → ∃ j b, (j, b) ∈ m.sent ∧ Lands D.ip i j b g)
    (hok : ∀ dop, p.discoveryOp e.op = some dop → dop.Fits ∧ Ok dop) :
    Follows D m i Ok o.process.discovery o.effects := by
  have hexec := Process.datagrams_exec h
  cases hop : p.discoveryOp e.op with
  | none =>
    rw [hop] at hexec
    exact follows_nil (by rw [hm, hexec.1]) hexec.2
  | some dop =>
    rw [hop] at hexec
    obtain ⟨out, hperform, hout⟩ := hexec
    have hstep : ∀ x : Discovery.Happening ι, (∀ y ∈ Discovery.consumes x, y ∈ m.sent) →
        Discovery.program D i { state := p.discovery } x =
          some ({ state := o.process.discovery }, Discovery.transmitted out) → Operates i Ok ⟨i, x⟩ →
        Follows D m i Ok o.process.discovery o.effects := by
      intro x hconsumes hprogram hx
      refine ⟨[⟨i, x⟩], _, run_singleton.mpr (netStep_eq_some.mpr ⟨hconsumes, _, _, by rw [hm]; exact hprogram, rfl⟩),
        rfl, fun b hb hlen => ?_, fun f hf => ?_⟩
      · exact mem_sent_update.mpr (.inr ⟨rfl, Discovery.mem_transmitted.mpr ⟨hout b hb, hlen⟩⟩)
      · rw [List.mem_singleton.mp hf]
        exact hx
    by_cases hinternal : dop.Internal
    · refine hstep (.op dop) (fun y hy => (by cases hy)) ?_ ⟨rfl, hok dop hop⟩
      rw [Discovery.program, if_pos rfl]
      dsimp only
      rw [if_pos hinternal, hperform]
      rfl
    · obtain ⟨g, rfl⟩ := eq_datagram_of_not_internal hinternal
      obtain ⟨j, b, hsent, rcvStr, hstr, hg⟩ := hdatagram g (Process.discoveryOp_eq_datagram hop)
      refine hstep (.recv g.now rcvStr j b) (fun y hy => List.mem_singleton.mp hy ▸ hsent) ?_ ⟨rfl, trivial⟩
      rw [Discovery.program, if_pos rfl]
      dsimp only
      have hrecv : p.discovery.recvDiscoveryUpdate (D.ip i j) g.now b rcvStr = some (o.process.discovery, out) := by
        rw [← hperform, hg]
        rfl
      rw [if_pos hstr, hrecv]
      rfl

end Following

/-! ## Two processes that hear each other -/

section Sample

/-- The event is no datagram, and its names can be packed. -/
def Spoken (n : Net ι Requesters Effect) (e : NetEvent ι (Happening ι)) : Prop :=
  ∀ op, opOf e.input = some op → ∀ dop, (n.agents e.agent).process.discoveryOp op = some dop →
    dop.Internal ∧ dop.Fits

omit [DecidableEq ι] in
theorem Spoken.not_datagram {n : Net ι Requesters Effect} {e : NetEvent ι (Happening ι)} (h : Spoken n e)
    (g : Datagram) : opOf e.input ≠ some (.datagram g) := fun hop => (h _ hop (.datagram g) rfl).1

omit [DecidableEq ι] in
theorem Spoken.closed {n : Net ι Requesters Effect} {e : NetEvent ι (Happening ι)} (h : Spoken n e)
    (ip : ι → ι → Str) {op : Process.Op} (hop : opOf e.input = some op) :
    (∀ g, op = .datagram g → Delivered ip n e.agent g) ∧
      ∀ dop, (n.agents e.agent).process.discoveryOp op = some dop → dop.Fits := by
  refine ⟨fun g hg => ?_, fun dop hdop => (h op hop dop hdop).2⟩
  subst hg
  exact absurd hop (h.not_datagram g)

/-- `Spoken`, to be evaluated. -/
def fitsAt (n : Net Bool Requesters Effect) (e : NetEvent Bool (Happening Bool)) : Bool :=
  (opOf e.input).all fun op => ((n.agents e.agent).process.discoveryOp op).all fun dop => dop.Internal ∧ dop.Fits

theorem spoken_of_fitsAt {n : Net Bool Requesters Effect} {e : NetEvent Bool (Happening Bool)}
    (h : fitsAt n e = true) : Spoken n e := by
  intro op hop dop hdop
  have hall := (Option.all_eq_true _ _).mp ((Option.all_eq_true _ _).mp h op hop) dop hdop
  exact of_decide_eq_true hall

theorem spoken_pairCall {n : Net Bool Requesters Effect}
    (hname : (n.agents false).process.fqn pairHandler.nUuid (ascii ['s']) = some pairService) : Spoken n pairCall := by
  intro op hop dop hdop
  obtain rfl := Option.some.inj hop
  obtain ⟨name, hfqn, heq⟩ := Option.bind_eq_some_iff.mp hdop
  obtain rfl := Option.some.inj (hname.symm.trans hfqn)
  split_ifs at heq
  obtain rfl := Option.some.inj heq
  exact ⟨trivial, by decide⟩

/-- A datagram that has landed in a fresh buffer. -/
def landed (b : Buffer) : Datagram :=
  ⟨[], 5, b.take Discovery.MaxRcvStr ++ Discovery.freshBuffer.drop b.length⟩

/-- What stands behind a message in the buffer does not matter. -/
theorem perform_landed {d : Discovery} {m : AdvertiseMsg} (hne : m.header.pUuid ≠ d.pUuid)
    (hversion : m.header.version ≠ 0) (htype : m.header.type ∈ [AdvType, UnadvType, AdvSrvType, UnadvSrvType])
    (hfit : m.Fits) (hsend : Discovery.Sendable m) : d.perform (.datagram (landed (Discovery.advDatagram m))) =
      d.perform (.datagram ⟨[], 5, Discovery.advDatagram m⟩) := by
  have hlen := (Discovery.length_advDatagram m).trans_le hsend.2
  obtain ⟨hfill, hshort⟩ := Discovery.fill_rcvStr hlen Discovery.length_freshBuffer
  have hread : ∀ stale, (Discovery.advDatagram m ++ stale).length < 2 ^ 31 →
      d.perform (.datagram ⟨[], 5, Discovery.advDatagram m ++ stale⟩) = (d.touch m.header.pUuid 5).handle []
        m.header.pUuid (Discovery.bodyOf m.header.type (Discovery.advertiseOf (m.body, m.msgTypeName))) := by
    intro stale hstale
    rcases Discovery.read_advDatagram hne hversion htype hfit hstale with ⟨-, hread⟩ | ⟨hp, -⟩ | ⟨hp, -⟩
    · show d.dispatchDiscoveryMsg [] 5 (Discovery.advDatagram m ++ stale) = _
      rw [Discovery.dispatch_eq_readMessage, hread]
      rfl
    · exact absurd hsend.1 hp
    · exact absurd hsend.1 hp
  have hplain : (Discovery.advDatagram m ++ []).length < 2 ^ 31 := by
    rw [List.append_nil]
    exact hlen.trans_lt (by decide)
  have hfresh := hread _ hshort
  have hbare := hread [] hplain
  rw [List.append_nil] at hbare
  rw [landed, hfill, hfresh, hbare]

/-- One process advertises a topic and offers a service, and the other one listens. -/
def pairSpeaks : List (NetEvent Bool (Happening Bool)) :=
  Process.setCallbacks.map (fun e => ⟨true, .own (.event e)⟩) ++
    ([.construct (Process.uuidOf 2) none none, .advertise (Process.uuidOf 2).1 (ascii ['t']) .all,
      .advertiseSrv (Process.uuidOf 2).1 (ascii ['s']) [5] .all] : List Process.Op).map
        (fun op => ⟨true, .own (.event { op })⟩) ++ pairListens

/-- It ends a subscription that it does not have. -/
def pairLeaves : NetEvent Bool (Happening Bool) :=
  ⟨false, .own (.event { op := .unsubscribe (Process.uuidOf 1).1 (ascii ['t']) })⟩

/-- It hears of the topic and ends its subscription; then it hears of the service and calls it. -/
def pairClosed : List (NetEvent Bool (Happening Bool)) :=
  pairSpeaks ++ [pairHearing (landed pairAdvertisement)] ++ [pairLeaves] ++ [pairHearing (landed pairOffer)] ++
    [pairCall]

/-- The source address of the datagrams is not asked for. -/
def pairIp : Bool → Bool → Str := fun _ _ => []

theorem networkStep_hearing {n : Net Bool Requesters Effect} {g g' : Datagram}
    (h : (n.agents false).process.discovery.perform (.datagram g) =
      (n.agents false).process.discovery.perform (.datagram g')) :
    networkStep n (pairHearing g) = networkStep n (pairHearing g') := by
  have hperform : (n.agents false).process.perform (.datagram g) = (n.agents false).process.perform (.datagram g') :=
    congrArg (Option.map (n.agents false).process.discovered) h
  have hexec : (n.agents false).process.exec { op := .datagram g } =
      (n.agents false).process.exec { op := .datagram g' } := by
    rw [Process.exec, Process.exec]
    simp only [hperform]
    rfl
  have hissue : (n.agents false).issue .callback { op := .datagram g } =
      (n.agents false).issue .callback { op := .datagram g' } := by
    rw [Requesters.issue, Requesters.issue, hexec]
    rfl
  have hstep : ∀ g, networkStep n (pairHearing g) =
      (program false (n.agents false) (pairHearing g).input).map (n.update false) := by
    intro g
    rw [networkStep, netStep]
    exact if_pos fun x hx => (by cases hx)
  rw [hstep, hstep]
  exact congrArg (Option.map (n.update false)) hissue

/-- A process can hear what was sent. -/
theorem closed_hearing {n : Net Bool Requesters Effect} {m : AdvertiseMsg}
    (hsent : (true, .datagram (Discovery.advDatagram m)) ∈ n.sent) (hsend : Discovery.Sendable m)
    {op : Process.Op} (hop : opOf (pairHearing (landed (Discovery.advDatagram m))).input = some op) :
    (∀ g, op = .datagram g → Delivered pairIp n false g) ∧
      ∀ dop, (n.agents false).process.discoveryOp op = some dop → dop.Fits := by
  obtain rfl := Option.some.inj hop
  refine ⟨fun g hg => ?_, fun dop hdop => ?_⟩
  · obtain rfl := Process.Op.datagram.inj hg
    have hlen := (Discovery.length_advDatagram m).trans_le hsend.2
    exact ⟨true, _, hsent, hlen, Discovery.freshBuffer, Discovery.length_freshBuffer, rfl⟩
  · obtain rfl := Option.some.inj hdop
    exact trivial

theorem perform_pairAdvertisement {d : Discovery} (hd : d.pUuid = (pairGroup.shared false).pUuid.1) :
    d.perform (.datagram (landed pairAdvertisement)) = d.perform (.datagram ⟨[], 5, pairAdvertisement⟩) :=
  perform_landed (by rw [hd]; decide) (by decide) (by decide)
    ⟨⟨by decide, by decide, by decide, by decide, by decide⟩, by decide⟩ (by decide +kernel)

theorem perform_pairOffer {d : Discovery} (hd : d.pUuid = (pairGroup.shared false).pUuid.1) :
    d.perform (.datagram (landed pairOffer)) = d.perform (.datagram ⟨[], 5, pairOffer⟩) :=
  perform_landed (by rw [hd]; decide) (by decide) (by decide)
    ⟨⟨by decide, by decide, by decide, by decide, by decide⟩, by decide⟩ (by decide +kernel)

theorem hearsAndCalls_landed {n : Net Bool Requesters Effect}
    (hpUuid : (n.agents false).process.discovery.pUuid = (pairGroup.shared false).pUuid.1)
    (h : hearsAndCalls n ⟨[], 5, pairOffer⟩ = true) : hearsAndCalls n (landed pairOffer) = true := by
  rw [hearsAndCalls, perform_pairOffer hpUuid]
  exact h

/-- The process tells the publisher that it has left, and sends its request to the one that offered the service. -/
theorem run_pairClosed : ∃ n before a, run networkStep (network pairGroup) pairClosed = some n ∧
    n.outputs false =
      before ++ .send .requester (requestFrames (pairGroup.shared false) pairService a pairHandler) :: [] ∧
    (∃ ctrl frames, (false, .control ctrl frames) ∈ n.sent) ∧ Closed pairGroup pairIp pairClosed ∧
    HeardInTime pairGroup pairClosed false := by
  have hspeaks : (run networkStep (network pairGroup) pairSpeaks).any (fun n₁ =>
      (n₁.agents false).process.discovery.pUuid = (pairGroup.shared false).pUuid.1 ∧
      (n₁.agents false).process.discovery.connectionSrvCb = true ∧ (true, .datagram pairAdvertisement) ∈ n₁.sent ∧
      (networkStep n₁ (pairHearing ⟨[], 5, pairAdvertisement⟩)).any fun n₂ => fitsAt n₂ pairLeaves = true ∧
        (networkStep n₂ pairLeaves).any fun n₃ =>
          (n₃.agents false).process.discovery.pUuid = (pairGroup.shared false).pUuid.1 ∧
          (n₃.agents false).process.discovery.connectionSrvCb = true ∧ (true, .datagram pairOffer) ∈ n₃.sent ∧
          (false, .control (pairGroup.shared true).myControlAddress (controlFrames pairTopic
            (n₃.agents false).process.shared.myAddress (Process.uuidOf 1).1 EndConnection)) ∈ n₃.sent ∧
          hearsAndCalls n₃ ⟨[], 5, pairOffer⟩ = true) = true := by
    decide +kernel
  have hcheck : checkAlong networkStep fitsAt (network pairGroup) pairSpeaks = true := by decide +kernel
  obtain ⟨n₁, hn₁, hpUuid₁, hcb₁, hsent₁, hsome⟩ := exists_of_any hspeaks
  obtain ⟨n₂, hn₂, hleaves, hsome⟩ := exists_of_any hsome
  obtain ⟨n₃, hn₃, hpUuid₃, hcb₃, hsent₃, hcontrol, hready⟩ := exists_of_any hsome
  -- a landed datagram does what its message does
  rw [← networkStep_hearing (perform_pairAdvertisement hpUuid₁)] at hn₂
  obtain ⟨n₄, n₅, hhears, hcall, -, ⟨hname, -⟩, -, houtputs⟩ := run_hearsAndCalls (hearsAndCalls_landed hpUuid₃ hready)
  have hrun₂ := run_concat.mpr ⟨n₁, hn₁, hn₂⟩
  have hrun₃ := run_concat.mpr ⟨n₂, hrun₂, hn₃⟩
  have hrun₄ := run_concat.mpr ⟨n₃, hrun₃, hhears⟩
  have hspoken : Along networkStep (fun _ => Spoken) (network pairGroup) pairSpeaks :=
    along_of_check (fun n e => spoken_of_fitsAt) hcheck
  have hleft := spoken_of_fitsAt hleaves
  have hcalled := spoken_pairCall hname
  have hclosed : Closed pairGroup pairIp pairClosed := by
    refine (along_concat hrun₄).mpr ⟨(along_concat hrun₃).mpr ⟨(along_concat hrun₂).mpr ⟨(along_concat hn₁).mpr
      ⟨?_, ?_⟩, ?_⟩, ?_⟩, ?_⟩
    · exact fun pre e m hpre hm op hop => (hspoken pre e m hpre hm).closed pairIp hop
    · exact fun op hop => closed_hearing hsent₁ (by decide +kernel) hop
    · exact fun op hop => hleft.closed pairIp hop
    · exact fun op hop => closed_hearing hsent₃ (by decide +kernel) hop
    · exact fun op hop => hcalled.closed pairIp hop
  have hheard : HeardInTime pairGroup pairClosed false := by
    refine (along_concat hrun₄).mpr ⟨(along_concat hrun₃).mpr ⟨(along_concat hrun₂).mpr ⟨(along_concat hn₁).mpr
      ⟨?_, ?_⟩, ?_⟩, ?_⟩, ?_⟩
    · exact fun pre e m hpre hm _ g hop => absurd hop ((hspoken pre e m hpre hm).not_datagram g)
    · exact fun _ _ _ => hcb₁
    · exact fun _ g hop => absurd hop (hleft.not_datagram g)
    · exact fun _ _ _ => hcb₃
    · exact fun _ g hop => absurd hop (hcalled.not_datagram g)
  have hlast := run_cons_eq_some.mpr ⟨n₄, hhears, run_singleton.mpr hcall⟩
  exact ⟨n₅, _, _, run_concat.mpr ⟨n₄, hrun₄, hcall⟩, houtputs, ⟨_, _, sent_mono hlast hcontrol⟩, hclosed, hheard⟩

end Sample

/-! ## Runs -/

section Runs

variable {G : Group ι} {ip : ι → ι → Str} {es : List (NetEvent ι (Happening ι))} {n : Net ι Requesters Effect}
  {ds : List (NetEvent ι (Discovery.Happening ι))} {m : Net ι Discovery.Instance Buffer}
  {ev : NetEvent ι (Happening ι)} {c' : Requesters} {out : List Effect}

theorem Told.concat {i : ι} {dop : Discovery.Op} (h : Told G es i dop) (ev : NetEvent ι (Happening ι)) :
    Told G (es ++ [ev]) i dop :=
  h.imp (fun hdid => hdid.concat ev) fun ⟨t, u, hop, hmem⟩ => ⟨t, u, hop, List.mem_append_left _ hmem⟩

/-- **One step** of a process can be followed. -/
theorem follows_step (hrun : run networkStep (network G) es = some n) (hmirrors : Mirrors G es n ds m)
    (hclosed : ∀ op, opOf ev.input = some op → (∀ g, op = .datagram g → Delivered ip n ev.agent g) ∧
      ∀ dop, (n.agents ev.agent).process.discoveryOp op = some dop → dop.Fits)
    (h : program ev.agent (n.agents ev.agent) ev.input = some (c', out)) :
    Follows (G.discovery ip) m ev.agent (Told G (es ++ [ev]) ev.agent) c'.process.discovery out := by
  have hm := hmirrors.agents ev.agent
  rcases program_cases h with ⟨caller, e, hop, hissue⟩ | ⟨nUuid, q, hev, hq, rfl, rfl⟩ | ⟨-, hprocess, -, hout⟩
  · obtain ⟨o, ho, heq, -⟩ := Requesters.issue_eq_some hissue
    obtain ⟨rfl, rfl⟩ := Prod.mk.inj heq
    obtain ⟨hdatagram, hfits⟩ := hclosed e.op hop
    refine follows_exec ho hm (fun g hg => ?_) fun dop hdop => ⟨hfits dop hdop, .inl ?_⟩
    · obtain ⟨j, b, hsent, hlen, hlands⟩ := hdatagram g hg
      exact ⟨j, b, hmirrors.sent j b hsent hlen, hlands⟩
    · exact (did_concat hrun).mpr (.inr ⟨rfl, e.op, hop, hdop⟩)
  · have hlast : ⟨ev.agent, .own (.destroy nUuid)⟩ ∈ es ++ [ev] := by
      rw [← hev]
      exact List.mem_append_right _ (List.mem_singleton_self _)
    have hremoval : ∀ (q : Process) effects e o, Process.IsRemoval nUuid e.op → q.exec e = some o →
        Follows (G.discovery ip) m ev.agent (Told G (es ++ [ev]) ev.agent) q.discovery effects →
          Follows (G.discovery ip) m ev.agent (Told G (es ++ [ev]) ev.agent) o.process.discovery
            (effects ++ o.effects) := by
      intro q effects e o hr hexec hq
      refine hq.trans fun m' hm' _ => follows_exec hexec hm' (fun g hg => ?_) fun dop hdop => ?_
      · obtain ⟨_, hr | hr | hr⟩ := hr <;> cases hg.symm.trans hr
      · obtain ⟨t, rfl⟩ := discoveryOp_removal hr hdop
        exact ⟨trivial, .inr ⟨t, nUuid, rfl, hlast⟩⟩
    obtain ⟨p₃, hp₃, rfl⟩ := destroyEffects_run (follows_nil hm fun b => List.not_mem_nil) hremoval hq
    exact hp₃
  · refine follows_nil (by rw [hprocess]; exact hm) fun b hb => ?_
    cases hout _ hb

/-- Some run of the discovery network mirrors a run of the processes. -/
theorem mirrors_run (h : run networkStep (network G) es = some n) (hclosed : Closed G ip es) :
    ∃ ds m, run (Discovery.networkStep (G.discovery ip)) (Discovery.network (G.discovery ip)) ds = some m ∧
      Mirrors G es n ds m := by
  have hinit : Mirrors G [] (network G) [] (Discovery.network (G.discovery ip)) :=
    ⟨fun i => rfl, fun i b hb => (by cases hb), fun f hf => (by cases hf)⟩
  refine run_simulates hinit (fun pre n ev n' ds m hpre hds hmirrors hstep hgood => ?_) hclosed h
  obtain ⟨-, c', out, hprogram, rfl⟩ := netStep_eq_some.mp hstep
  obtain ⟨fs, m', hfs, hagents, hsent, hevents⟩ := follows_step hpre hmirrors hgood hprogram
  refine ⟨fs, m', hfs, fun i => ?_, fun i b hb hlen => ?_, fun f hf => ?_⟩
  · by_cases hi : i = ev.agent
    · rw [hagents, hi, Function.update_self, agents_update_self]
    · rw [hagents, Function.update_of_ne hi, agents_update_of_ne _ hi]
      exact hmirrors.agents i
  · rcases mem_sent_update.mp hb with hold | ⟨hi, hnew⟩
    · exact sent_mono hfs (hmirrors.sent i b hold hlen)
    · obtain rfl : i = ev.agent := hi
      exact hsent b hnew hlen
  · rcases List.mem_append.mp hf with hold | hnew
    · exact (hmirrors.events f hold).mono fun dop hdop => hdop.concat ev
    · have hf' := hevents f hnew
      rw [hf'.1]
      exact hf'

/-- **The refinement**: a run of the processes is a run of the discovery network.  It comes to the discovery services
of the processes, has sent at least what they have sent, and does what they were told. -/
theorem discovery_refines (h : run networkStep (network G) es = some n) (hclosed : Closed G ip es) :
    ∃ ds m, run (Discovery.networkStep (G.discovery ip)) (Discovery.network (G.discovery ip)) ds = some m ∧
      (∀ i, m.agents i = { state := (n.agents i).process.discovery }) ∧
      (∀ i b, (i, .datagram b) ∈ n.sent → b.length ≤ Discovery.maxPayload → (i, b) ∈ m.sent) ∧
      ∀ f ∈ ds, Operates f.agent (Told G es f.agent) f := by
  obtain ⟨ds, m, hds, hmirrors⟩ := mirrors_run h hclosed
  exact ⟨ds, m, hds, hmirrors.agents, hmirrors.sent, hmirrors.events⟩

theorem discovery_refines_pair : ∃ n ds m, run networkStep (network pairGroup) pairClosed = some n ∧
    run (Discovery.networkStep (pairGroup.discovery pairIp)) (Discovery.network (pairGroup.discovery pairIp)) ds =
      some m ∧ ∀ i, m.agents i = { state := (n.agents i).process.discovery } := by
  obtain ⟨n, -, -, hn, -, -, hclosed, -⟩ := run_pairClosed
  obtain ⟨ds, m, hds, hagents, -⟩ := discovery_refines hn hclosed
  exact ⟨n, ds, m, hn, hds, hagents⟩

end Runs

/-! ## What the processes know of each other -/

section Knowing

variable (G : Group ι) (ip : ι → ι → Str) (es : List (NetEvent ι (Happening ι)))

/-- Process `j` announced the entry, and process `i` may know of it. -/
def AnnouncedTo (i j : ι) (type : MsgType) (t : Str) (a : Address) : Prop :=
  (a.addr, a.ctrl) = (G.shared j).endpoints type ∧ Did G es j (fun p op => p.Announces op type t a) ∧
    (j = i ∨ ¬ Discovery.Hides (G.hostAddr i) (ip i j) a.scope)

variable {G ip es} {n : Net ι Requesters Effect} {i j : ι}

theorem constants_run (h : run networkStep (network G) es = some n) (j : ι) :
    (n.agents j).process.shared.constants = (G.shared j).constants := by
  refine run_outputs (fun j c _ => c.process.shared.constants = (G.shared j).constants) (fun _ => rfl)
    (fun j c x c' out _ hc hprogram => ?_) h j
  rcases program_cases hprogram with ⟨caller, e, -, hissue⟩ | ⟨nUuid, q, -, hq, rfl, -⟩ | ⟨-, -, hshared, -⟩
  · obtain ⟨o, ho, heq, -⟩ := Requesters.issue_eq_some hissue
    obtain ⟨rfl, -⟩ := Prod.mk.inj heq
    exact (Process.constants_exec ho).trans hc
  · obtain ⟨p₃, hp₃, rfl⟩ := Process.destroyNode_induct (R := fun q => q.shared.constants = (G.shared j).constants) hc
      (fun q e o _ hexec hq => (Process.constants_exec hexec).trans hq) hq
    exact hp₃
  · exact (congrArg constants hshared).trans hc

/-- **Where knowledge comes from**: what a process has stored of a process was announced by a node of that process,
with the endpoints of that process. -/
theorem stored_is_announced (h : run networkStep (network G) es = some n) (hclosed : Closed G ip es) {type : MsgType}
    {t q : Str} {a : Address} (ha : a ∈ ((n.agents i).process.discovery.info type).cell t q) :
    ∃ j, q = (G.shared j).pUuid ∧ (q = (G.shared i).pUuid → j = i) ∧ AnnouncedTo G ip es i j type t a := by
  obtain ⟨ds, m, hds, hmirrors⟩ := mirrors_run h hclosed
  have hfits : Discovery.RunFits ds := fun f hf dop hdop => by
    have hoperates := (hmirrors.events f hf).2
    rw [hdop] at hoperates
    exact hoperates.1
  have hstored : a ∈ ((m.agents i).state.info type).cell t q := by
    rw [hmirrors.agents i]
    exact ha
  have hannounced : ∀ j, Discovery.Advertised ds j type t a → (a.addr, a.ctrl) = (G.shared j).endpoints type ∧
      Did G es j fun p op => p.Announces op type t a := by
    intro j hadvertised
    have htold := (hmirrors.events _ hadvertised).2.2
    have hdid : Did G es j fun p op => p.Announces op type t a := by
      rcases htold with hdid | ⟨_, _, hop, -⟩
      · exact hdid.mono fun p op hop => Process.announces_of_discoveryOp hop
      · cases hop
    refine ⟨?_, hdid⟩
    obtain ⟨pre, e, m', -, hm', -, op, -, hendpoints, -⟩ := hdid
    have hconstants := congrArg (fun s => s.endpoints type) (constants_run hm' j)
    exact hendpoints.trans hconstants
  rcases ((Discovery.sourced_run hfits hds).1 i).source type t q a hstored with ⟨hq, hadv⟩ | ⟨hq, j, hj, hadv, hshown⟩
  · obtain ⟨hendpoints, hdid⟩ := hannounced i hadv
    exact ⟨i, hq, fun _ => rfl, hendpoints, hdid, .inl rfl⟩
  · obtain ⟨hendpoints, hdid⟩ := hannounced j hadv
    exact ⟨j, hj, fun hown => absurd hown hq, hendpoints, hdid, .inr hshown⟩

/-- What holds along a run holds along its beginning. -/
theorem Closed.left {pre : List (NetEvent ι (Happening ι))} (h : Closed G ip es) (hpre : pre <+: es) :
    Closed G ip pre := fun before e m hbefore => h before e m (hbefore.trans hpre)

theorem AnnouncedTo.left {pre : List (NetEvent ι (Happening ι))} {type : MsgType} {t : Str} {a : Address}
    (h : AnnouncedTo G ip pre i j type t a) (hpre : pre <+: es) : AnnouncedTo G ip es i j type t a := by
  obtain ⟨hendpoints, ⟨before, e, m, hbefore, hm, hdid⟩, hshown⟩ := h
  exact ⟨hendpoints, ⟨before, e, m, hbefore.trans hpre, hm, hdid⟩, hshown⟩

theorem ownKept_run (h : run networkStep (network G) es = some n) (i : ι) : Process.OwnKept (n.agents i).process := by
  refine run_outputs (fun _ c _ => Process.OwnKept c.process) (fun i => Process.ownKept_start _ _)
    (fun i c x c' out _ hc hprogram => ?_) h i
  rcases program_cases hprogram with ⟨caller, e, -, hissue⟩ | ⟨nUuid, q, -, hq, rfl, -⟩ | ⟨-, hprocess, hshared, -⟩
  · obtain ⟨o, ho, heq, -⟩ := Requesters.issue_eq_some hissue
    obtain ⟨rfl, -⟩ := Prod.mk.inj heq
    exact Process.ownKept_exec ho hc
  · obtain ⟨p₃, hp₃, rfl⟩ := Process.destroyNode_induct hc
      (fun q e o _ hexec hq => Process.ownKept_exec hexec hq) hq
    exact ⟨hp₃.pUuid, hp₃.unheard, hp₃.sent⟩
  · have hpUuid : c'.process.shared.pUuid = c.process.shared.pUuid := congrArg (fun s => s.pUuid) hshared
    rw [hprocess]
    exact ⟨hc.pUuid.trans (congrArg Subtype.val hpUuid.symm), hc.unheard, hc.sent⟩

/-- **Control messages reach publishers**: each of them is for the control endpoint of a process whose node advertised
the topic. -/
theorem control_reaches_publishers (h : run networkStep (network G) es = some n) (hclosed : Closed G ip es)
    {ctrl : Str} {frames : List Str} (hsent : (i, .control ctrl frames) ∈ n.sent) :
    ∃ j t a, ctrl = (G.shared j).myControlAddress ∧ frames.head? = some t ∧ AnnouncedTo G ip es i j .msg t a := by
  obtain ⟨pre, e, m, m', c', out, hpre, hm, hm', rfl, hprogram, rfl, hout⟩ := exists_step_of_sent h rfl hsent
  have hannounced : ∀ {before k}, before <+: es → run networkStep (network G) before = some k →
      Process.ForPublisher (k.agents e.agent).process.discovery.infoMsg ctrl frames →
      ∃ j t a, ctrl = (G.shared j).myControlAddress ∧ frames.head? = some t ∧
        AnnouncedTo G ip es e.agent j .msg t a := by
    rintro before k hbefore hk ⟨t, q, a, ha, rfl, hhead⟩
    have ha' : a ∈ ((k.agents e.agent).process.discovery.info .msg).cell t q := ha
    obtain ⟨j, -, -, hj⟩ := stored_is_announced hk (hclosed.left hbefore) ha'
    refine ⟨j, t, a, ?_, hhead, hj.left hbefore⟩
    rw [(Prod.mk.inj hj.1).2]
    exact cStr_eq_self (G.shared j).myControlAddress.2.2.2
  rcases control_program hprogram (ownKept_run hm e.agent) hout with hbefore | hafter
  · exact hannounced ((List.prefix_append pre [e]).trans hpre) hm hbefore
  · exact hannounced hpre hm' hafter

theorem control_reaches_publishers_pair : ∃ (n : Net Bool Requesters Effect) (ctrl : Str) (frames : List Str) (j : Bool)
    (t : Str) (a : Address), run networkStep (network pairGroup) pairClosed = some n ∧
      (false, .control ctrl frames) ∈ n.sent ∧ ctrl = (pairGroup.shared j).myControlAddress ∧ frames.head? = some t ∧
      AnnouncedTo pairGroup pairIp pairClosed false j .msg t a := by
  obtain ⟨n, -, -, hn, -, ⟨ctrl, frames, hsent⟩, hclosed, -⟩ := run_pairClosed
  obtain ⟨j, t, a, hctrl, hhead, hannounced⟩ := control_reaches_publishers hn hclosed hsent
  exact ⟨n, ctrl, frames, j, t, a, hn, hsent, hctrl, hhead, hannounced⟩

/-- **Requests reach offerers**: each of them is for the replier of a process whose node offered the service; this is
the process itself, or it was connected to the replier before. -/
theorem requests_reach_offerers (h : run networkStep (network G) es = some n) (hclosed : Closed G ip es)
    (hheard : HeardInTime G es i) {before after : List Effect} {frames : List Str}
    (hsent : n.outputs i = before ++ .send .requester frames :: after) :
    ∃ j t a rest, frames = (G.shared j).replierId.1 :: t :: rest ∧ AnnouncedTo G ip es i j .srv t a ∧
      (j = i ∨ ConnectedTo before (G.shared j).myReplierAddress) := by
  obtain ⟨t, q, a, rest, hframes, ⟨pre, ev, m₀, m, hpre, hm₀, hstep, -, -, hfirst⟩, hroute⟩ :=
    (routed_run h hheard).2 before _ after hsent
  have hm := run_concat.mpr ⟨m₀, hm₀, hstep⟩
  obtain ⟨as, -, hcell⟩ := firstResponder_eq_some hfirst
  have ha : a ∈ ((m.agents i).process.discovery.info .srv).cell t q := by
    show a ∈ (m.agents i).process.discovery.infoSrv.cell t q
    rw [hcell]
    exact List.mem_cons_self
  obtain ⟨j, hq, hown, hj⟩ := stored_is_announced hm (hclosed.left hpre) ha
  obtain ⟨haddr, hctrl⟩ := Prod.mk.inj hj.1
  refine ⟨j, t, a, rest, by rw [hframes, hctrl], hj.left hpre, ?_⟩
  rcases hroute with ⟨-, hconnected⟩ | ⟨hself, -⟩
  · rw [haddr] at hconnected
    exact .inr hconnected
  · exact .inl (hown hself)

theorem requests_reach_offerers_pair : ∃ n before ctrl j t a rest,
    run networkStep (network pairGroup) pairClosed = some n ∧
      n.outputs false =
        before ++ [.send .requester (requestFrames (pairGroup.shared false) pairService ctrl pairHandler)] ∧
      requestFrames (pairGroup.shared false) pairService ctrl pairHandler =
        (pairGroup.shared j).replierId.1 :: t :: rest ∧
      AnnouncedTo pairGroup pairIp pairClosed false j .srv t a ∧
      (j = false ∨ ConnectedTo before (pairGroup.shared j).myReplierAddress) := by
  obtain ⟨n, before, ctrl, hn, hsent, -, hclosed, hheard⟩ := run_pairClosed
  obtain ⟨j, t, a, rest, hframes, hannounced, hroute⟩ := requests_reach_offerers hn hclosed hheard hsent
  exact ⟨n, before, ctrl, j, t, a, rest, hn, hsent, hframes, hannounced, hroute⟩

end Knowing

end ProcessNetwork

end IgnTransport
