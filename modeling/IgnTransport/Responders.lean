import Mathlib
import IgnTransport.NodeTables
import IgnTransport.ServiceCalls
import IgnTransport.ServiceEndpoints

/-!
# IgnTransport.Responders — where requests go

`SendPendingRemoteReqs` sends a request to the identity of the first responder of the service, through a requester
socket that `OnNewSrvConnection` connected to the address of the responder.  What the discovery service knows and what
the socket is connected to are kept in step by the callback alone.

* `requests_are_routed`: a request goes to a responder that the process knew, to whose address it was connected
  before; or to the process itself, for a service that its own nodes offered.
-/

namespace IgnTransport

open Lib CallM

/-! ## Connections -/

section Connections

/-- The process was connected to the address, by `OnNewSrvConnection` or by `RecvSrvRequest`: they share a list. -/
def ConnectedTo (es : List Effect) (addr : Str) : Prop :=
  .connect .requester (cStr addr) ∈ es ∨ .connect .replier (cStr addr) ∈ es

theorem ConnectedTo.append_right {es : List Effect} {addr : Str} (h : ConnectedTo es addr) (fs : List Effect) :
    ConnectedTo (es ++ fs) addr :=
  h.imp (List.mem_append_left fs) (List.mem_append_left fs)

end Connections

namespace NodeShared

section Lists

variable {socket : Socket}

/-- An address comes into the list when the socket is connected to it. -/
def Lists (socket : Socket) (s s' : NodeShared) (es : List Effect) : Prop :=
  ∀ addr ∈ s'.srvConnections, addr ∈ s.srvConnections ∨ .connect socket (cStr addr) ∈ es

theorem composes_lists : Composes (Lists socket) where
  refl _ _ h := .inl h
  trans s t u es fs h h' addr haddr := by
    rcases h' addr haddr with hin | hconnect
    · exact (h addr hin).imp_right (List.mem_append_left fs)
    · exact .inr (List.mem_append_right es hconnect)

theorem yields_of_aside {α : Type} {p : NodeM α} (h : Aside p) : Yields (Lists socket) p :=
  Within.yields (fun s => h s.srvConnections) fun _ _ _ hkept _ _ haddr => .inl (hkept ▸ haddr)

theorem yields_connectNew (socket : Socket) (addr : Str) : Yields (Lists socket) (connectNew socket addr) := by
  intro w
  rw [connectNew_run]
  split_ifs
  · exact ⟨[], (List.append_nil _).symm, fun _ h => .inl h⟩
  · exact ⟨[], (List.append_nil _).symm, fun _ h => .inl h⟩
  · refine ⟨_, rfl, fun a ha => ?_⟩
    rcases List.mem_append.mp ha with hold | hnew
    · exact .inl hold
    · obtain rfl := List.mem_singleton.mp hnew
      exact .inr (List.mem_singleton_self _)

theorem lists_react (d : Discovery) (o : Output) : Yields (Lists .requester) (react d o) := by
  cases o with
  | sendto b => exact yields_of_aside fun _ => within_emit fun _ => rfl
  | connection type args =>
    cases type with
    | msg => exact yields_of_aside (aside_onNewConnection args)
    | srv =>
      exact Yields.bind composes_lists (yields_connectNew .requester args.addr) fun _ =>
        yields_of_aside (aside_sendPendingRemoteReqs d.infoSrv args.topic)
  | disconnection type args =>
    cases type with
    | msg => exact yields_of_aside (aside_onNewDisconnection args)
    | srv => exact fun w => ⟨[], (List.append_nil _).symm, fun _ h => .inl (List.mem_of_mem_filter h)⟩

theorem lists_recvSrvRequest (runCallback : RepHandler → Str → Str → Str × Bool)
    (identity topic sender dstId nodeUuid reqUuid req : Str) :
    Yields (Lists .replier) (recvSrvRequest runCallback identity topic sender dstId nodeUuid reqUuid req) := by
  refine Yields.bind composes_lists (yields_of_aside (aside_recvFrames _)) fun received => ?_
  split_ifs
  · refine yields_look fun s => ?_
    cases s.repliers.getFirstHandler topic with
    | none => exact yields_of_aside fun _ => within_pure ()
    | some r =>
      refine Yields.bind composes_lists (yields_of_aside fun _ => within_emit fun _ => rfl) fun _ => ?_
      exact Yields.bind composes_lists (yields_connectNew .replier sender) fun _ =>
        yields_of_aside (aside_sendReply dstId topic nodeUuid reqUuid _)
  · exact yields_of_aside fun _ => within_pure ()

end Lists

end NodeShared

namespace Process

open NodeShared

section Entries

variable {p : Process} {e : Event} {o : Outcome} {t q : Str} {a : Address}

/-- The list of addresses after an operation. -/
theorem lists_exec (h : p.exec e = some o) : Lists .requester p.shared o.process.shared o.effects := by
  obtain ⟨r, hr, rfl, -⟩ := exec_eq_some h
  have hserviced := serviced_perform hr
  have hyields : Yields (Lists .requester) r.2 := by
    have hpure : Yields (Lists .requester) (return true : NodeM Bool) := yields_of_aside fun _ => within_pure true
    cases hserviced.program with
    | discovered dop out hop hout hprogram =>
      rw [hprogram]
      exact Yields.bind composes_lists (Yields.forEach composes_lists fun o _ => lists_react _ o) fun _ => hpure
    | known nUuid topic hUuid data name hop hname hreplier hknown hdiscovery hprogram =>
      rw [hprogram]
      exact Yields.bind composes_lists (yields_of_aside (aside_sendPendingRemoteReqs _ name)) fun _ => hpure
    | quiet hquiet =>
      refine Within.yields hquiet fun s s' es hkept _ addr haddr => .inl ?_
      rwa [show s'.srvConnections = s.srvConnections from congrArg (·.srvConnections) hkept] at haddr
  obtain ⟨es, heffects, hlists⟩ := hyields { state := r.1.shared, throwsAt := e.throwsAt }
  intro addr haddr
  rw [← hserviced.srvConnections]
  refine (hlists addr haddr).imp_right fun hc => ?_
  rw [List.nil_append] at heffects
  rw [← heffects] at hc
  exact hc

/-- A datagram that brings a responder makes one callback. -/
theorem out_datagram {g : Datagram} {d' : Discovery} {out : List Output} {header : Header} {m : AdvertiseMsg}
    (hout : p.discovery.perform (.datagram g) = some (d', out))
    (hread : Discovery.readMessage p.discovery.pUuid g.msg = some (header, some (.advertise .srv m)))
    (hmem : .connection .srv (Discovery.advArgs header.pUuid m) ∈ out) :
    out = [.connection .srv (Discovery.advArgs header.pUuid m)] := by
  rcases Discovery.dispatch_cases hout with ⟨header', -, -, -, rfl⟩ | ⟨header', body, hread', -, hhandle⟩
  · cases hmem
  · obtain ⟨rfl, hbody⟩ := Prod.mk.inj (Option.some.inj (hread.symm.trans hread'))
    obtain rfl := Option.some.inj hbody
    rw [Discovery.out_handle_of_ne_subscribe hhandle fun _ _ heq => (by cases heq)] at hmem ⊢
    dsimp only [Discovery.callbacks] at hmem ⊢
    split_ifs at hmem ⊢
    · rfl
    · cases hmem

/-- The callback for a responder connects to its address before anything else, unless it is in the list. -/
theorem onNewSrvConnection_connects {infoSrv : TopicStorage} {args : CallbackArgs} {w w' : World NodeShared Effect}
    (hrun : onNewSrvConnection infoSrv args w = (.ok (), w')) : args.addr ∈ w.state.srvConnections ∨
      ∃ rest, w'.effects = w.effects ++ .connect .requester (cStr args.addr) :: rest := by
  obtain ⟨_, v, hconnect, hsend⟩ := bind_eq_ok.mp hrun
  rw [connectRequester, connectNew_run] at hconnect
  split_ifs at hconnect with hin hthrows
  · exact .inl hin
  · cases hconnect
  · obtain ⟨-, rfl⟩ := Prod.mk.inj hconnect
    obtain ⟨es, hes, -⟩ := yields_sendPendingRemoteReqs infoSrv args.topic _
    rw [hsend] at hes
    exact .inr ⟨es, by rw [hes, List.append_assoc]; rfl⟩

/-- **A responder that is known** was known before, or a node of the process offers the service now, or the process is
connected to its address. -/
theorem entry_exec (h : p.exec e = some o) (hown : OwnKept p)
    (hcb : ∀ g, e.op = .datagram g → p.discovery.connectionSrvCb = true)
    (ha : a ∈ o.process.discovery.infoSrv.cell t q) : a ∈ p.discovery.infoSrv.cell t q ∨
      (q = p.discovery.pUuid ∧ ∃ n topic u scope, e.op = .advertiseSrv n topic u scope ∧ p.fqn n topic = some t) ∨
      (q ≠ p.discovery.pUuid ∧ (∃ g, e.op = .datagram g) ∧ (a.addr ∈ p.shared.srvConnections ∨
        ∃ rest, o.effects = .connect .requester (cStr a.addr) :: rest)) := by
  obtain ⟨r, hr, rfl, hvalue⟩ := exec_eq_some h
  have hserviced := serviced_perform hr
  have ha' : a ∈ (r.1.discovery.info .srv).cell t q := ha
  cases hserviced.program with
  | known _ _ _ _ _ _ _ _ _ hdiscovery =>
    rw [hdiscovery] at ha'
    exact .inl ha'
  | quiet _ _ hdiscovery =>
    rw [Discovery.info, hdiscovery] at ha'
    exact .inl ha'
  | discovered dop out hop hout hprogram =>
    rcases Discovery.mem_info_perform hout hown.unheard ha' with
      hold | ⟨hq, addr, ctrl, n, scope, rfl, -⟩ | ⟨hq, g, header, m, rfl, hread, rfl, -, -, -, rfl, hcallback⟩
    · exact .inl hold
    · obtain ⟨topic, u, scope', hop', hname⟩ := (discoveryOp_eq_advertise p e.op .srv n t).mp ⟨addr, ctrl, scope, hop⟩
      exact .inr (.inl ⟨hq, n, topic, u, scope', hop', hname⟩)
    · have hdatagram := discoveryOp_eq_datagram hop
      refine .inr (.inr ⟨hq, ⟨g, hdatagram⟩, ?_⟩)
      have hone := out_datagram hout hread (hcallback (hcb g hdatagram))
      obtain ⟨b, hok⟩ := hvalue (by rw [hdatagram]; rfl)
      have hrun : r.2 { state := r.1.shared, throwsAt := e.throwsAt } = (.ok b, _) := Prod.ext hok rfl
      rw [hprogram, hone] at hrun
      obtain ⟨_, w, hreact, hpure⟩ := bind_eq_ok.mp hrun
      obtain ⟨_, v, hcall, hend⟩ := bind_eq_ok.mp hreact
      obtain rfl : v = w := (Prod.mk.inj hend).2
      have heffects : (finish e.throwsAt r).effects = v.effects := by
        rw [finish, hprogram, hone]
        exact (congrArg (fun x => x.2.effects) hpure).symm
      rw [heffects, ← hserviced.srvConnections]
      exact onNewSrvConnection_connects hcall

/-- **A request goes to the first responder** that the process knows then. -/
theorem request_exec (h : p.exec e = some o) (hkeyed : p.shared.Keyed) {frames : List Str}
    (hsent : .send .requester frames ∈ o.effects) : ∃ t q a rest, frames = a.ctrl :: t :: rest ∧
      firstResponder o.process.discovery.infoSrv t = some (q, a) := by
  obtain ⟨sent, hdispatches, hsub⟩ := dispatches_exec h hkeyed
  obtain ⟨x, hx, hmessage⟩ := List.mem_map.mp (hsub.subset (List.mem_filter.mpr ⟨hsent, rfl⟩))
  obtain ⟨q, a, hfirst, hresponder⟩ := hdispatches.responder x hx
  obtain ⟨-, rfl⟩ := Effect.send.inj hmessage
  exact ⟨x.topic, q, a, _, by rw [requestFrames, hresponder], hfirst⟩

end Entries

end Process

namespace ProcessNetwork

open NodeShared

/-! ## Routes -/

section Routes

variable {ι : Type} [DecidableEq ι] (G : Group ι) (es : List (NetEvent ι (Happening ι))) (i : ι)

/-- In the step that puts out what follows `ps`, this entry is the first responder of the service that the process
knows. -/
def Chosen (ps : List Effect) (t q : Str) (a : Address) : Prop := ∃ before ev m m', before ++ [ev] <+: es ∧
  run networkStep (network G) before = some m ∧ networkStep m ev = some m' ∧
    (m.outputs i).length ≤ ps.length ∧ ps.length < (m'.outputs i).length ∧
      firstResponder (m'.agents i).process.discovery.infoSrv t = some (q, a)

/-- A request that is sent after `ps` goes to a responder: to a process that it is connected to, or to itself for a
service that its own nodes offered. -/
def Routed (ps : List Effect) : Effect → Prop
  | .send .requester frames => ∃ t q a rest, frames = a.ctrl :: t :: rest ∧ Chosen G es i ps t q a ∧
      ((q ≠ (G.shared i).pUuid ∧ ConnectedTo ps a.addr) ∨ (q = (G.shared i).pUuid ∧ ∃ r, Offered G es i t r))
  | _ => True

/-- The responders that a process knows, once it has done `ps`. -/
structure Linked (ps : List Effect) (p : Process) : Prop where
  own : Process.OwnKept p
  pUuid : p.shared.pUuid = (G.shared i).pUuid
  list : ∀ addr ∈ p.shared.srvConnections, ConnectedTo ps addr
  others : ∀ t q a, a ∈ p.discovery.infoSrv.cell t q → q ≠ (G.shared i).pUuid → ConnectedTo ps a.addr
  mine : ∀ t a, a ∈ p.discovery.infoSrv.cell t (G.shared i).pUuid → ∃ r, Offered G es i t r

variable {G es i} {ps ps' : List Effect} {p : Process} {e : Process.Event} {o : Process.Outcome}

theorem Linked.concat (h : Linked G es i ps p) (ev : NetEvent ι (Happening ι)) : Linked G (es ++ [ev]) i ps p :=
  { h with mine := fun t a ha => (h.mine t a ha).imp fun _ hr => hr.concat ev }

theorem Linked.mono (h : Linked G es i ps p) (hps : ∀ addr, ConnectedTo ps addr → ConnectedTo ps' addr) :
    Linked G es i ps' p :=
  { h with
    list := fun addr haddr => hps addr (h.list addr haddr)
    others := fun t q a ha hq => hps a.addr (h.others t q a ha hq) }

theorem Routed.concat {x : Effect} (h : Routed G es i ps x) (ev : NetEvent ι (Happening ι)) :
    Routed G (es ++ [ev]) i ps x := by
  match x with
  | .send .requester _ =>
    obtain ⟨t, q, a, rest, hframes, ⟨before, ev', m, m', hbefore, hsending⟩, hroute⟩ := h
    exact ⟨t, q, a, rest, hframes, ⟨before, ev', m, m', hbefore.trans (List.prefix_append es [ev]), hsending⟩,
      hroute.imp_right fun ⟨hq, r, hr⟩ => ⟨hq, r, hr.concat ev⟩⟩
  | .send .publisher _ | .send .subscriber _ | .send .replier _ | .connect _ _ | .subscribe _ | .control _ _
  | .datagram _ | .disconnect _ _ | .unsubscribe _ | .callback _ _ _ | .serve _ _ _ | .notify _ _ _ _ => exact trivial

theorem routed_of_not_isRequest {x : Effect} (hx : IsRequest x = false) : Routed G es i ps x := by
  match x with
  | .send .requester _ => cases hx
  | .send .publisher _ | .send .subscriber _ | .send .replier _ | .connect _ _ | .subscribe _ | .control _ _
  | .datagram _ | .disconnect _ _ | .unsubscribe _ | .callback _ _ _ | .serve _ _ _ | .notify _ _ _ _ => exact trivial

/-- An operation that makes no connections but those of `ps'`. -/
theorem linked_exec (hl : Linked G es i ps p) (h : p.exec e = some o)
    (hcb : ∀ g, e.op = .datagram g → p.discovery.connectionSrvCb = true)
    (hnew : ∀ P : Process → Process.Op → Prop, P p e.op → (∀ n, ¬ Process.IsRemoval n e.op) → Did G es i P)
    (hps : ∀ addr, ConnectedTo ps addr → ConnectedTo ps' addr)
    (hout : ∀ addr, .connect .requester (cStr addr) ∈ o.effects → ConnectedTo ps' addr) :
    Linked G es i ps' o.process := by
  have hlist : ∀ addr ∈ p.shared.srvConnections, ConnectedTo ps' addr := fun addr haddr => hps addr (hl.list addr haddr)
  have hself : p.discovery.pUuid = (G.shared i).pUuid := hl.own.pUuid.trans (congrArg Subtype.val hl.pUuid)
  refine ⟨Process.ownKept_exec h hl.own, (Process.core_exec h).2.1.trans hl.pUuid, fun addr haddr => ?_,
    fun t q a ha hq => ?_, fun t a ha => ?_⟩
  · exact (Process.lists_exec h addr haddr).elim (hlist addr) (hout addr)
  · rcases Process.entry_exec h hl.own hcb ha with hold | ⟨hown, -⟩ | ⟨-, -, hin | ⟨rest, heffects⟩⟩
    · exact hps a.addr (hl.others t q a hold hq)
    · exact absurd (hown.trans hself) hq
    · exact hlist a.addr hin
    · exact hout a.addr (by rw [heffects]; exact List.mem_cons_self)
  · rcases Process.entry_exec h hl.own hcb ha with hold | ⟨-, n, topic, u, scope, hop, hname⟩ | ⟨hne, -⟩
    · exact hl.mine t a hold
    · refine ⟨⟨u⟩, hnew _ ⟨n, topic, scope, hop, hname⟩ fun m hr => ?_⟩
      obtain ⟨_, hr | hr | hr⟩ := hr <;> cases hop.symm.trans hr
    · exact absurd hself.symm hne

variable {n n' : Net ι Requesters Effect} {ev : NetEvent ι (Happening ι)} {c c' : Requesters} {out : List Effect}

/-- What sends no requests. -/
theorem eachAfter_routed (hout : ∀ x ∈ out, IsRequest x = false) :
    EachAfter (fun before => Routed G es i (ps ++ before)) out :=
  eachAfter_of_forall fun x hx _ => routed_of_not_isRequest (hout x hx)

/-- An operation sends its requests to responders. -/
theorem routed_issue (hl : Linked G es i ps c.process) (hkeyed : c.process.shared.Keyed)
    (hrun : run networkStep (network G) es = some n) (hagent : ev.agent = i) (hc : n.agents i = c)
    (hnext : networkStep n ev = some n') (hc' : n'.agents i = c') (hps : n.outputs i = ps)
    (hps' : n'.outputs i = ps ++ out) {caller : Caller} (hop : opOf ev.input = some e.op)
    (h : c.issue caller e = some (c', out))
    (hcb : ∀ g, e.op = .datagram g → c.process.discovery.connectionSrvCb = true) :
    Linked G (es ++ [ev]) i (ps ++ out) c'.process ∧
      EachAfter (fun before => Routed G (es ++ [ev]) i (ps ++ before)) out := by
  obtain ⟨o, ho, heq, -⟩ := Requesters.issue_eq_some h
  obtain ⟨rfl, rfl⟩ := Prod.mk.inj heq
  have hdone : ∀ P : Process → Process.Op → Prop, P c.process e.op → (∀ n, ¬ Process.IsRemoval n e.op) →
      Did G (es ++ [ev]) i P := fun P hP _ =>
    (did_concat hrun).mpr (.inr ⟨hagent, e.op, hop, by rw [hc]; exact hP⟩)
  have hlinked : Linked G (es ++ [ev]) i (ps ++ o.effects) o.process :=
    linked_exec (hl.concat ev) ho hcb hdone (fun _ ha => ha.append_right _) fun _ ha =>
      .inl (List.mem_append_right ps ha)
  refine ⟨hlinked, fun before x after hsplit => ?_⟩
  by_cases hx : IsRequest x = true
  · match x with
    | .send .requester frames =>
      have hsent : .send .requester frames ∈ o.effects := by
        rw [hsplit]
        simp
      obtain ⟨t, q, a, rest, hframes, hfirst⟩ := Process.request_exec ho hkeyed hsent
      have hbegins : (n.outputs i).length ≤ (ps ++ before).length := by
        rw [hps, List.length_append]
        omega
      have hends : (ps ++ before).length < (n'.outputs i).length := by
        rw [hps', hsplit]
        simp only [List.length_append, List.length_cons]
        omega
      refine ⟨t, q, a, rest, hframes,
        ⟨es, ev, n, n', List.prefix_rfl, hrun, hnext, hbegins, hends, by rw [hc']; exact hfirst⟩, ?_⟩
      obtain ⟨as, -, hcell⟩ := firstResponder_eq_some hfirst
      have ha : a ∈ o.process.discovery.infoSrv.cell t q := hcell ▸ List.mem_cons_self
      have hself : c.process.discovery.pUuid = (G.shared i).pUuid :=
        hl.own.pUuid.trans (congrArg Subtype.val hl.pUuid)
      by_cases hq : q = (G.shared i).pUuid
      · subst hq
        exact .inr ⟨rfl, hlinked.mine t a ha⟩
      · refine .inl ⟨hq, ?_⟩
        rcases Process.entry_exec ho hl.own hcb ha with hold | ⟨hown, -⟩ | ⟨-, -, hin | ⟨tail, heffects⟩⟩
        · exact (hl.others t q a hold hq).append_right before
        · exact absurd (hown.trans hself) hq
        · exact (hl.list a.addr hin).append_right before
        · -- the connection comes before the requests
          rw [heffects] at hsplit
          cases before with
          | nil => cases hsplit
          | cons y ys =>
            obtain ⟨rfl, -⟩ := List.cons.inj hsplit
            exact .inl (List.mem_append_right ps List.mem_cons_self)
  · exact routed_of_not_isRequest (by simpa using hx)

/-- A request of another process may add an address to the list. -/
theorem linked_request (hl : Linked G es i ps c.process) {j : ι}
    {responserId identity topic sender dstId nodeUuid reqUuid req : Str} {response : Str × Bool} {throwsAt : List ℕ}
    (h : program i c (.request j responserId identity topic sender dstId nodeUuid reqUuid req response throwsAt) =
      some (c', out)) : Linked G es i (ps ++ out) c'.process := by
  obtain ⟨s, rfl, hbut, -⟩ := program_request h
  have hpUuid : s.pUuid = c.process.shared.pUuid := congrArg (·.pUuid) hbut
  rw [program] at h
  split_ifs at h
  obtain ⟨w, hw, rfl, heq⟩ := receive_eq_some h
  obtain rfl : s = w.state := congrArg (fun c : Requesters => c.process.shared) heq
  obtain ⟨es', heffects, hlists⟩ := lists_recvSrvRequest (fun _ _ _ => response) identity topic sender dstId nodeUuid
    reqUuid req { state := c.process.shared, throwsAt }
  rw [hw] at heffects hlists
  obtain rfl : w.effects = es' := heffects.trans (List.nil_append es')
  have hmono : Linked G es i (ps ++ w.effects) c.process := hl.mono fun _ ha => ha.append_right _
  exact {
    own := ⟨hl.own.pUuid.trans (congrArg Subtype.val hpUuid.symm), hl.own.unheard, hl.own.sent⟩
    pUuid := hpUuid.trans hl.pUuid
    list := fun addr haddr => (hlists addr haddr).elim (hmono.list addr) fun hconnect =>
      .inr (List.mem_append_right ps hconnect)
    others := hmono.others
    mine := hl.mine }

/-- **One step** of a process. -/
theorem routed_step (hl : Linked G es i ps c.process) (hkeyed : c.process.shared.Keyed)
    (hrun : run networkStep (network G) es = some n) (hagent : ev.agent = i) (hc : n.agents i = c)
    (hnext : networkStep n ev = some n') (hc' : n'.agents i = c') (hps : n.outputs i = ps)
    (hps' : n'.outputs i = ps ++ out)
    (hcb : ∀ g, opOf ev.input = some (.datagram g) → c.process.discovery.connectionSrvCb = true)
    (h : program i c ev.input = some (c', out)) : Linked G (es ++ [ev]) i (ps ++ out) c'.process ∧
      EachAfter (fun before => Routed G (es ++ [ev]) i (ps ++ before)) out := by
  have hold := hl.concat ev
  have hlater : Linked G (es ++ [ev]) i (ps ++ out) c.process := hold.mono fun _ ha => ha.append_right _
  have hissue : ∀ (caller : Caller) (e : Process.Event), opOf ev.input = some e.op →
      c.issue caller e = some (c', out) → Linked G (es ++ [ev]) i (ps ++ out) c'.process ∧
        EachAfter (fun before => Routed G (es ++ [ev]) i (ps ++ before)) out := fun caller e hop hexec =>
    routed_issue hl hkeyed hrun hagent hc hnext hc' hps hps' hop hexec fun g hg => hcb g (by rw [hop, hg])
  cases hev : ev.input with
  | own e =>
    rw [hev] at h hissue
    obtain ⟨hown, hexec⟩ := program_own h
    cases e with
    | event e => exact hissue .callback e rfl hexec
    | call nUuid topic hUuid data throwsAt =>
      exact hissue .waiting { op := .request nUuid topic hUuid data, throwsAt } rfl hexec
    | ret hUuid =>
      obtain ⟨executed, -, heq⟩ := Requesters.ret_eq_some hexec
      obtain ⟨rfl, rfl⟩ := Prod.mk.inj heq
      exact ⟨hlater, eachAfter_nil⟩
    | response identity topic nodeUuid reqUuid rep result throwsAt => cases hown
    | destroy nUuid =>
      obtain ⟨q, hq, heq⟩ := Option.map_eq_some_iff.mp hexec
      obtain ⟨rfl, rfl⟩ := Prod.mk.inj heq
      obtain ⟨⟨p₃, hp₃, rfl⟩, hquiet⟩ := destroyEffects_induct (R := Linked G (es ++ [ev]) i ps)
        (Q := fun x => Process.UsesRequester x = false) hold (fun q e o hr hexec hq => by
          have hquiet := (Process.removal_exec hexec hr).2
          refine ⟨linked_exec hq hexec (fun g hg => ?_) (fun P _ hno => absurd hr (hno nUuid)) (fun _ ha => ha)
            fun addr hconnect => (by cases hquiet _ hconnect), hquiet⟩
          obtain ⟨_, hr | hr | hr⟩ := hr <;> cases hg.symm.trans hr) hq
      have hmono := hp₃.mono fun addr ha => ha.append_right (c.process.destroyEffects nUuid)
      refine ⟨⟨⟨hmono.own.pUuid, hmono.own.unheard, hmono.own.sent⟩, hmono.pUuid, hmono.list, hmono.others,
        hmono.mine⟩, eachAfter_routed fun x hx => ?_⟩
      have hx' := hquiet x hx
      by_contra hrequest
      match x with
      | .send .requester _ => cases hx'
  | message j topic sender data throwsAt =>
    rw [hev] at h
    obtain ⟨rfl, hout⟩ := program_message h
    refine ⟨hlater, eachAfter_routed fun x hx => ?_⟩
    obtain ⟨handler, rfl, -⟩ := hout x hx
    rfl
  | control j ctrl topic procUuid nodeUuid data throwsAt =>
    rw [hev] at h hissue
    exact hissue .callback { op := .control topic procUuid nodeUuid data, throwsAt } rfl (program_control h)
  | request j responserId identity topic sender dstId nodeUuid reqUuid req response throwsAt =>
    rw [hev] at h
    refine ⟨linked_request hold h, eachAfter_routed fun x hx => ?_⟩
    obtain ⟨s, -, -, hout⟩ := program_request h
    obtain ⟨r, -, rfl | rfl | rfl⟩ := hout x hx <;> rfl
  | response j identity dstId topic nodeUuid reqUuid rep result throwsAt =>
    rw [hev] at h
    obtain ⟨-, hexec⟩ := program_response h
    obtain ⟨v, w, hw, hcase⟩ := Requesters.recvSrvResponse_run identity topic nodeUuid reqUuid rep result
      c.process.shared throwsAt
    rw [Requesters.exec, hw] at hexec
    obtain ⟨rfl, rfl⟩ := Prod.mk.inj (Option.some.inj hexec)
    rcases hcase with ⟨hstate, heffects⟩ | ⟨k, -, heffects, hstate⟩
    · rw [heffects] at hlater ⊢
      dsimp only
      rw [hstate]
      exact ⟨hlater, eachAfter_nil⟩
    · rw [heffects] at hlater ⊢
      dsimp only
      rw [hstate]
      refine ⟨⟨⟨hlater.own.pUuid, hlater.own.unheard, hlater.own.sent⟩, hlater.pUuid, hlater.list, hlater.others,
        hlater.mine⟩, eachAfter_routed fun x hx => ?_⟩
      obtain rfl := List.mem_singleton.mp hx
      rfl

end Routes

/-! ## A call of two processes -/

section Sample

/-- The request is sent to a responder that the process is connected to. -/
theorem run_pairHears : ∃ n a, run networkStep (network pairGroup) (pairListens ++ [pairHears, pairCall]) = some n ∧
    n.outputs false = [.connect .requester (cStr pairArgs.addr)] ++
      .send .requester (requestFrames (pairGroup.shared false) pairService a pairHandler) :: [] := by
  have hlistens : (run networkStep (network pairGroup) pairListens).any (fun n =>
      n.outputs false = [] ∧ hearsAndCalls n ⟨[], 5, pairOffer⟩ = true) = true := by decide +kernel
  obtain ⟨n, hn, hout, hready⟩ := exists_of_any hlistens
  obtain ⟨n₁, n₂, hhears, hcall, -, -, -, houtputs⟩ := run_hearsAndCalls hready
  rw [hout] at houtputs
  exact ⟨n₂, _, run_append_eq_some.mpr ⟨n, hn, run_cons_eq_some.mpr ⟨n₁, hhears, run_singleton.mpr hcall⟩⟩, houtputs⟩

end Sample

/-! ## Runs -/

section Runs

variable {ι : Type} [DecidableEq ι] {G : Group ι} {es : List (NetEvent ι (Happening ι))} {n : Net ι Requesters Effect}
  {i : ι}

variable (G es i) in
/-- The process heard nothing from the discovery group before its callback for new responders was set. -/
def HeardInTime : Prop := Along networkStep (fun _ m e => e.agent = i → ∀ g, opOf e.input = some (.datagram g) →
  (m.agents i).process.discovery.connectionSrvCb = true) (network G) es

theorem linked_start (G : Group ι) (i : ι) : Linked G [] i [] ((network G).agents i).process where
  own := Process.ownKept_start _ _
  pUuid := rfl
  list _ h := (by cases h)
  others t q a ha := absurd (show a ∈ (Table.empty : TopicStorage).cell t q from ha) (by simp [Table.cell_empty])
  mine t a ha := absurd (show a ∈ (Table.empty : TopicStorage).cell t _ from ha) (by simp [Table.cell_empty])

/-- **In every state of the network**, a process that heard in time knows responders that it is connected to, and has
sent its requests to such. -/
theorem routed_run (h : run networkStep (network G) es = some n) (hheard : HeardInTime G es i) :
    Linked G es i (n.outputs i) (n.agents i).process ∧ EachAfter (Routed G es i) (n.outputs i) := by
  let Inv : List (NetEvent ι (Happening ι)) → Net ι Requesters Effect → Prop := fun pre m =>
    run networkStep (network G) pre = some m ∧ Linked G pre i (m.outputs i) (m.agents i).process ∧
      EachAfter (Routed G pre i) (m.outputs i)
  have hinit : Inv [] (network G) := ⟨rfl, linked_start G i, eachAfter_nil⟩
  have hevents : ∀ e ∈ es, True := fun _ _ => trivial
  refine (along_induct hinit (fun pre m ev m' _ hinv hstep hgood => ?_) hevents hheard h).2
  obtain ⟨hpre, hlinked, hrouted⟩ := hinv
  have hnext := run_concat.mpr ⟨m, hpre, hstep⟩
  have hold : EachAfter (Routed G (pre ++ [ev]) i) (m.outputs i) := hrouted.mono fun _ _ hx => hx.concat ev
  refine ⟨hnext, ?_⟩
  have hkeyed : (m.agents i).process.shared.Keyed := by
    have haccount : Account (m.agents i) (m.outputs i) := run_outputs (fun _ => Account)
      (fun i => account_start (G.shared i) (G.hostAddr i))
      (fun i c x c' out ps ha hprogram => account_step ha hprogram) hpre i
    exact haccount.tracked.keyed
  obtain ⟨-, c', out, hprogram, heq⟩ := netStep_eq_some.mp hstep
  by_cases hi : ev.agent = i
  · have hagent : m'.agents i = c' := by rw [heq, hi, agents_update_self]
    have hout : m'.outputs i = m.outputs i ++ out := by rw [heq, hi, outputs_update_self]
    obtain ⟨hl, hr⟩ := routed_step hlinked hkeyed hpre hi rfl hstep hagent rfl hout (hgood hi)
      (by rw [← hi]; exact hprogram)
    rw [hagent, hout]
    exact ⟨hl, hold.append hr⟩
  · rw [heq, agents_update_of_ne _ (Ne.symm hi), outputs_update_of_ne _ (Ne.symm hi)]
    exact ⟨hlinked.concat ev, hold⟩

theorem heardInTime_pair : HeardInTime pairGroup (pairListens ++ [pairHears, pairCall]) false := by
  have hlistens : (run networkStep (network pairGroup) pairListens).any (fun n =>
      (n.agents false).process.discovery.connectionSrvCb = true ∧
        hearsAndCalls n ⟨[], 5, pairOffer⟩ = true) = true := by decide +kernel
  obtain ⟨n, hn, hcb, hready⟩ := exists_of_any hlistens
  obtain ⟨n₁, -, hhears, -⟩ := run_hearsAndCalls hready
  have hnone : ∀ g, ∀ e ∈ pairListens, opOf e.input ≠ some (.datagram g) := by
    simp [pairListens, Process.setCallbacks, opOf]
  rw [show pairListens ++ [pairHears, pairCall] = (pairListens ++ [pairHears]) ++ [pairCall] by simp]
  refine (along_concat (run_concat.mpr ⟨n, hn, hhears⟩)).mpr ⟨(along_concat hn).mpr ⟨?_, ?_⟩, ?_⟩
  · exact fun pre e m hpre _ _ g hg => absurd hg (hnone g e (hpre.subset (by simp)))
  · exact fun _ _ _ => hcb
  · intro _ g hg
    cases hg

/-- **Requests are routed**: every request is for the identity of a responder that the process knew, and either this
responder is in another process and the process made a connection to its address before, or it is in the process
itself and one of its nodes had offered the service. -/
theorem requests_are_routed (h : run networkStep (network G) es = some n) (hheard : HeardInTime G es i)
    {before after : List Effect} {frames : List Str}
    (hsent : n.outputs i = before ++ .send .requester frames :: after) : ∃ t q a rest, frames = a.ctrl :: t :: rest ∧
      Chosen G es i before t q a ∧ ((q ≠ (G.shared i).pUuid ∧ ConnectedTo before a.addr) ∨
        (q = (G.shared i).pUuid ∧ ∃ r, Offered G es i t r)) :=
  (routed_run h hheard).2 before _ after hsent

theorem requests_are_routed_pair : ∃ t q a rest,
    Chosen pairGroup (pairListens ++ [pairHears, pairCall]) false [.connect .requester (cStr pairArgs.addr)] t q a ∧
    ((q ≠ (pairGroup.shared false).pUuid ∧ ConnectedTo [.connect .requester (cStr pairArgs.addr)] a.addr) ∨
      (q = (pairGroup.shared false).pUuid ∧
        ∃ r, Offered pairGroup (pairListens ++ [pairHears, pairCall]) false t r)) ∧
    ∃ x, requestFrames (pairGroup.shared false) pairService x pairHandler = a.ctrl :: t :: rest := by
  obtain ⟨n, x, hn, hsent⟩ := run_pairHears
  obtain ⟨t, q, a, rest, hframes, hchosen, hroute⟩ := requests_are_routed hn heardInTime_pair hsent
  exact ⟨t, q, a, rest, hchosen, hroute, x, hframes⟩

end Runs

end ProcessNetwork

end IgnTransport
