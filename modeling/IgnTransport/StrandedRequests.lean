import Mathlib
import IgnTransport.HandlerStorageMap
import IgnTransport.NodeTables
import IgnTransport.Requests

/-!
# IgnTransport.StrandedRequests — requests that wait for a responder

`Request` stores a handler when no node of the process replies to the service, and dispatches it if the service is
known.  A handler that has to wait is dispatched when the first ADV_SRV comes from another process; a node of the same
process that begins to reply does not look for waiting handlers.

* `none_stranded_iff`: along a run no handler waits while a responder is there exactly when no service is advertised for
  which a handler of the process waits.
-/

namespace IgnTransport

open Lib CallM

namespace Process

open NodeShared

/-! ## Stranded requests -/

section Stranded

/-- A responder of a service is known to the process: one of its own repliers, or an entry of the discovery service. -/
def Available (p : Process) (T : Str) : Prop :=
  p.shared.repliers.hasHandlersForTopic T = true ∨ p.discovery.infoSrv.hasTopic T = true

/-- No handler of a service waits. -/
def AllRequested (s : NodeShared) (T : Str) : Prop :=
  ∀ n u h, s.requests.getHandler T n u = some h → h.requested = true

/-- No handler waits for a responder that is there. -/
def NoneStranded (p : Process) : Prop := ∀ T, p.Available T → AllRequested p.shared T

/-- An operation strands no handler: no node begins to reply to a service for which a handler waits. -/
def KeepsServed (p : Process) (e : Event) : Prop :=
  match e.op with
  | .advertiseSrv nUuid topic _ _ => ∀ T, p.fqn nUuid topic = some T → AllRequested p.shared T
  | _ => True

end Stranded

/-! ## Programs that dispatch -/

section Dispatch

variable {infoSrv : TopicStorage} {T : Str}

theorem allRequested_dispatches {s s' : NodeShared} {sent : List Dispatch} (h : Dispatches infoSrv s s' sent)
    (hall : AllRequested s T) : AllRequested s' T := by
  intro n u k hk
  rw [h.handlers] at hk
  obtain ⟨k', hk', rfl⟩ := Option.map_eq_some_iff.mp hk
  split_ifs
  · rfl
  · exact hall n u k' hk'

/-- After `SendPendingRemoteReqs` of a known service no handler waits. -/
theorem sendPendingRemoteReqs_all {w : World NodeShared Effect} (hkeyed : w.state.Keyed)
    (htopic : infoSrv.hasTopic T = true) : (sendPendingRemoteReqs infoSrv T w).1 = .ok () ∧
      AllRequested (sendPendingRemoteReqs infoSrv T w).2.state T := by
  cases hfirst : firstResponder infoSrv T with
  | none =>
    rw [(firstResponder_eq_none_iff infoSrv T).mp hfirst] at htopic
    cases htopic
  | some r =>
    obtain ⟨w', es, hrun, -, -, hmap, -⟩ := sendPendingRemoteReqs_run (q := r.1) (a := r.2) hkeyed hfirst
    rw [hrun]
    refine ⟨rfl, fun n u k hk => ?_⟩
    rw [hmap] at hk
    obtain ⟨k', -, rfl⟩ := Option.map_eq_some_iff.mp hk
    rw [if_pos rfl]
    rfl

/-- The handlers keep their places along a run of such a program. -/
theorem keyed_of_run {α : Type} {q : NodeM α} {x : Except Thrown α} {w w' : World NodeShared Effect}
    (h : Yields (Serves infoSrv) q) (hkeyed : w.state.Keyed) (hrun : q w = (x, w')) : w'.state.Keyed := by
  obtain ⟨es, -, hserves⟩ := h w
  obtain ⟨sent, hsent, -⟩ := hserves hkeyed
  rw [hrun] at hsent
  exact hsent.keyed hkeyed

/-- The callback for a responder dispatches the requests of its service. -/
theorem onNewSrvConnection_all {args : CallbackArgs} {w w' : World NodeShared Effect} (hkeyed : w.state.Keyed)
    (hrun : onNewSrvConnection infoSrv args w = (.ok (), w')) (htopic : infoSrv.hasTopic args.topic = true) :
    AllRequested w'.state args.topic := by
  obtain ⟨_, v, hconnect, hsend⟩ := bind_eq_ok.mp hrun
  have hyields : Yields (Serves infoSrv) (connectRequester args.addr) :=
    yields_of_within butSrvConnections (fun _ => ⟨rfl, rfl, rfl⟩) fun s =>
      within_connectRequester s.butSrvConnections args.addr
  have hall := (sendPendingRemoteReqs_all (keyed_of_run hyields hkeyed hconnect) htopic).2
  rw [hsend] at hall
  exact hall

/-- A loop of callbacks that comes to its end has dispatched the requests of every service that it told of. -/
theorem reactAll_all {d : Discovery} {out : List Output} {args : CallbackArgs} {w w' : World NodeShared Effect}
    (hkeyed : w.state.Keyed) (hrun : reactAll d out w = (.ok (), w')) (hmem : .connection .srv args ∈ out)
    (htopic : d.infoSrv.hasTopic args.topic = true) : AllRequested w'.state args.topic := by
  have hloop : ∀ l : List Output, Yields (Serves d.infoSrv) (CallM.forEach (react d) l) := fun l =>
    Yields.forEach (composes_serves d.infoSrv) fun o _ => yields_react d o
  obtain ⟨pre, post, rfl⟩ := List.append_of_mem hmem
  rw [reactAll, forEach_append] at hrun
  obtain ⟨_, w₁, hpre, hrun⟩ := bind_eq_ok.mp hrun
  obtain ⟨_, w₂, hcallback, hpost⟩ := bind_eq_ok.mp hrun
  have hkeyed₁ := keyed_of_run (hloop pre) hkeyed hpre
  have hkeyed₂ := keyed_of_run (yields_react d (.connection .srv args)) hkeyed₁ hcallback
  -- what comes after the callback only requests more
  obtain ⟨es, -, hserves⟩ := hloop post w₂
  obtain ⟨sent, hsent, -⟩ := hserves hkeyed₂
  rw [hpost] at hsent
  exact allRequested_dispatches hsent (onNewSrvConnection_all hkeyed₁ hcallback htopic)

end Dispatch

/-! ## Steps -/

section Steps

variable {p : Process} {e : Event} {o : Outcome} {T : Str}

/-- Before the callback for services is set there is no node and no request. -/
structure Waits (p : Process) : Prop where
  own : OwnKept p
  keyed : p.shared.Keyed
  nodes : ∀ (n : Str) (node : Node), p.nodes[n]? = some node → p.discovery.connectionSrvCb = true
  requests : ∀ t n u h, p.shared.requests.getHandler t n u = some h → p.discovery.connectionSrvCb = true

theorem getHandler_start (shared : NodeShared) (hostAddr t n u : Str) :
    (start shared hostAddr).shared.requests.getHandler t n u = none :=
  HandlerStorage.getHandler_of_empty t n (Table.cell_empty t n) u

theorem waits_start (shared : NodeShared) (hostAddr : Str) : Waits (start shared hostAddr) where
  own := ownKept_start shared hostAddr
  keyed t n u h hh := by
    rw [getHandler_start] at hh
    cases hh
  nodes n node hnode := by
    rw [show (start shared hostAddr).nodes = ∅ from rfl, Std.ExtTreeMap.getElem?_empty] at hnode
    cases hnode
  requests t n u h hh := by
    rw [getHandler_start] at hh
    cases hh

/-- A request that is new, or was there. -/
theorem getHandler_requestsAfter {op : Op} {t n u : Str} {h : ReqHandler}
    (hh : (p.requestsAfter op).getHandler t n u = some h) : p.shared.requests.getHandler t n u = some h ∨
      ∃ topic data, op = .request n topic u data ∧ p.fqn n topic = some t ∧
        p.shared.repliers.getFirstHandler t = none ∧ h = { hUuid := u, nUuid := n, data } := by
  cases op with
  | request nUuid topic hUuid data =>
    dsimp only [requestsAfter] at hh
    cases hname : p.fqn nUuid topic with
    | none =>
      simp only [hname] at hh
      exact .inl hh
    | some name =>
      simp only [hname] at hh
      split_ifs at hh with hreplier
      · exact .inl hh
      · rw [HandlerStorage.getHandler_addHandler] at hh
        split_ifs at hh with hc
        · obtain ⟨rfl, rfl, rfl, -⟩ := hc
          exact .inr ⟨topic, data, rfl, hname, by simpa using hreplier, (Option.some.inj hh).symm⟩
        · exact .inl hh
  | _ => exact .inl hh

theorem waits_exec (h : p.exec e = some o) (hw : Waits p) : Waits o.process := by
  obtain ⟨sent, hsent, -⟩ := dispatches_exec h hw.keyed
  refine ⟨ownKept_exec h hw.own, hsent.keyed (keyed_requestsAfter hw.keyed e.op), fun n node hnode => ?_,
    fun t n u k hk => ?_⟩
  · cases hbefore : p.nodes[n]? with
    | some node' => exact hasConnectionCb_exec .srv h (hw.nodes n node' hbefore)
    | none =>
      have hcbs := (node_exec_new h hnode hbefore).1
      simp only [constructed, Bool.and_eq_true] at hcbs
      exact hasConnectionCb_exec .srv h hcbs.1.2
  · rw [hsent.handlers] at hk
    obtain ⟨k', hk', -⟩ := Option.map_eq_some_iff.mp hk
    refine hasConnectionCb_exec .srv h ?_
    rcases getHandler_requestsAfter hk' with hold | ⟨topic, data, -, hname, -⟩
    · exact hw.requests t n u k' hold
    · obtain ⟨node, hnode, -⟩ := Option.bind_eq_some_iff.mp hname
      exact hw.nodes n node hnode

/-- How a responder becomes known: a node of the process advertises the service, or an ADV_SRV comes that the callback
is told of. -/
theorem available_exec {r : Process × NodeM Bool} (hr : p.perform e.op = some r)
    (h : p.exec e = some o) (hown : OwnKept p) (havail : o.process.Available T) : p.Available T ∨
      (∃ n topic u scope, e.op = .advertiseSrv n topic u scope ∧ p.fqn n topic = some T) ∨
      ∃ g out args, e.op = .datagram g ∧ r.2 = (reactAll r.1.discovery out >>= fun _ => return true) ∧
        (p.discovery.connectionSrvCb = true → .connection .srv args ∈ out) ∧ args.topic = T ∧
        r.1.discovery.infoSrv.hasTopic T = true := by
  have hprogram := (serviced_perform hr).program
  obtain ⟨r', hr', rfl, -⟩ := exec_eq_some h
  obtain rfl := Option.some.inj (hr.symm.trans hr')
  rcases havail with hreplier | htopic
  · rw [HandlerStorage.hasHandlersForTopic_iff] at hreplier
    obtain ⟨n, hn⟩ := hreplier
    rcases (hasRepliers_exec h n T).mp hn with ⟨topic, u, scope, hop, hname⟩ | ⟨hold, -⟩
    · exact .inr (.inl ⟨n, topic, u, scope, hop, hname⟩)
    · exact .inl (.inl ((HandlerStorage.hasHandlersForTopic_iff _ _).mpr ⟨n, hold⟩))
  · have htopic' : r.1.discovery.infoSrv.hasTopic T = true := htopic
    cases hprogram with
    | discovered dop out hop hout hprogram =>
      obtain ⟨q, hne⟩ := (TopicStorage.hasTopic_iff _ _).mp htopic'
      obtain ⟨a, ha⟩ := List.exists_mem_of_ne_nil _ hne
      have ha' : a ∈ (r.1.discovery.info .srv).cell T q := ha
      rcases Discovery.mem_info_perform hout hown.unheard ha' with
        hold | ⟨-, addr, ctrl, n, scope, rfl, -⟩ | ⟨-, g, header, m, rfl, -, -, -, -, ht, -, hcallback⟩
      · exact .inl (.inr ((TopicStorage.hasTopic_iff _ _).mpr ⟨q, List.ne_nil_of_mem hold⟩))
      · obtain ⟨topic, u, scope', hop', hname⟩ := (discoveryOp_eq_advertise p e.op .srv n T).mp ⟨addr, ctrl, scope, hop⟩
        exact .inr (.inl ⟨n, topic, u, scope', hop', hname⟩)
      · exact .inr (.inr ⟨g, out, Discovery.advArgs q m, discoveryOp_eq_datagram hop, hprogram, hcallback, ht.symm,
          htopic'⟩)
    | known _ _ _ _ _ _ _ _ _ hdiscovery =>
      rw [hdiscovery] at htopic'
      exact .inl (.inr htopic')
    | quiet _ _ hdiscovery =>
      rw [hdiscovery] at htopic'
      exact .inl (.inr htopic')

theorem keyed_perform {r : Process × NodeM Bool} (hr : p.perform e.op = some r) (hkeyed : p.shared.Keyed) :
    r.1.shared.Keyed := by
  intro t n u k hk
  rw [(serviced_perform hr).requests] at hk
  exact keyed_requestsAfter hkeyed e.op t n u k hk

/-- An operation that stores no handler of the service keeps none of them waiting. -/
theorem allRequested_exec (h : p.exec e = some o) (hkeyed : p.shared.Keyed) (hall : AllRequested p.shared T)
    (hstored : ¬ ∃ n topic u data, e.op = .request n topic u data ∧ p.fqn n topic = some T ∧
      p.shared.repliers.getFirstHandler T = none) : AllRequested o.process.shared T := by
  obtain ⟨sent, hsent, -⟩ := dispatches_exec h hkeyed
  refine allRequested_dispatches hsent fun n u k hk => ?_
  rcases getHandler_requestsAfter hk with hk | ⟨topic, data, hop, hname, hfirst, -⟩
  · exact hall n u k hk
  · exact absurd ⟨n, topic, u, data, hop, hname, hfirst⟩ hstored

/-- A request that is stored goes to the service if it is known. -/
theorem allRequested_exec_request {n topic u data : Str} {throwsAt : List ℕ}
    (h : p.exec ⟨.request n topic u data, throwsAt⟩ = some o) (hkeyed : p.shared.Keyed) (hnone : p.NoneStranded)
    (hname : p.fqn n topic = some T) (hfirst : p.shared.repliers.getFirstHandler T = none) (havail : p.Available T) :
    AllRequested o.process.shared T := by
  obtain ⟨sent, hsent, -⟩ := dispatches_exec h hkeyed
  obtain ⟨r, hr, hfinish, -⟩ := exec_eq_some h
  have htopic : p.discovery.infoSrv.hasTopic T = true := by
    refine havail.resolve_left fun hreplier => ?_
    have hsome := (HandlerMap.isSome_getFirstHandler p.shared.repliers T).mpr hreplier
    rw [hfirst] at hsome
    cases hsome
  cases (serviced_perform hr).program with
  | discovered dop out hdop =>
    have hknown : (p.discovery.infoSrv.getAddresses T).isSome = true := by
      rw [TopicStorage.getAddresses, if_pos htopic]
      rfl
    rw [discoveryOp, hname, Option.bind_some, if_pos (.inr hknown)] at hdop
    cases hdop
  | known _ _ _ _ name heq hname' _ _ hdiscovery hprogram =>
    cases heq
    obtain rfl := Option.some.inj (hname.symm.trans hname')
    rw [hfinish, finish, hprogram, hdiscovery]
    dsimp only
    rw [snd_bind_pure]
    exact (sendPendingRemoteReqs_all (w := { state := r.1.shared, throwsAt }) (keyed_perform hr hkeyed) htopic).2
  | quiet hquiet hidle =>
    refine allRequested_dispatches hsent fun n u k hk => hnone T havail n u k ?_
    rw [← hidle]
    exact hk

/-- The callback that a datagram executes dispatches what waits. -/
theorem allRequested_exec_connection {g : Datagram} {throwsAt : List ℕ} {r : Process × NodeM Bool} {out : List Output}
    {args : CallbackArgs} (h : p.exec ⟨.datagram g, throwsAt⟩ = some o) (hr : p.perform (.datagram g) = some r)
    (hkeyed : p.shared.Keyed) (hprogram : r.2 = (reactAll r.1.discovery out >>= fun _ => return true))
    (hmem : .connection .srv args ∈ out) (htopic : r.1.discovery.infoSrv.hasTopic args.topic = true) :
    AllRequested o.process.shared args.topic := by
  obtain ⟨r', hr', hfinish, hvalue⟩ := exec_eq_some h
  obtain rfl := Option.some.inj (hr.symm.trans hr')
  obtain ⟨b, hok⟩ := hvalue rfl
  rw [hfinish] at hok
  have hrun : r.2 { state := r.1.shared, throwsAt } = (.ok b, _) := Prod.ext hok rfl
  rw [hprogram] at hrun
  obtain ⟨_, w, hreact, hpure⟩ := bind_eq_ok.mp hrun
  have hstate : o.process.shared = w.state := by
    rw [hfinish, finish, hprogram]
    exact (congrArg (fun x => x.2.state) hpure).symm
  have hkept : r.1.shared.Keyed := keyed_perform (e := ⟨.datagram g, throwsAt⟩) hr hkeyed
  rw [hstate]
  exact reactAll_all (w := { state := r.1.shared, throwsAt }) hkept hreact hmem htopic

/-- A step that begins no reply to a waiting service strands no handler. -/
theorem noneStranded_exec (h : p.exec e = some o) (hw : Waits p) (hnone : p.NoneStranded) (hgood : p.KeepsServed e) :
    o.process.NoneStranded := by
  intro T havail
  obtain ⟨r, hr, -⟩ := exec_eq_some h
  obtain ⟨op, throwsAt⟩ := e
  rcases available_exec hr h hw.own havail with hbefore | ⟨n, topic, u, scope, rfl, hname⟩ |
    ⟨g, out, args, rfl, hprogram, hcallback, rfl, htopic⟩
  · by_cases hstored : ∃ n topic u data, op = .request n topic u data ∧ p.fqn n topic = some T ∧
        p.shared.repliers.getFirstHandler T = none
    · obtain ⟨n, topic, u, data, rfl, hname, hfirst⟩ := hstored
      exact allRequested_exec_request h hw.keyed hnone hname hfirst hbefore
    · exact allRequested_exec h hw.keyed (hnone T hbefore) hstored
  · refine allRequested_exec h hw.keyed (hgood T hname) ?_
    rintro ⟨_, _, _, _, heq, -⟩
    cases heq
  · by_cases hcb : p.discovery.connectionSrvCb = true
    · exact allRequested_exec_connection h hr hw.keyed hprogram (hcallback hcb) htopic
    · -- before the callback is set there is no request
      refine allRequested_exec h hw.keyed (fun n u k hk => absurd (hw.requests _ n u k hk) hcb) ?_
      rintro ⟨_, _, _, _, heq, -⟩
      cases heq

/-- A node that begins to reply to a waiting service strands its handlers. -/
theorem not_noneStranded_exec (h : p.exec e = some o) (hbad : ¬ p.KeepsServed e) :
    ¬ o.process.NoneStranded := by
  obtain ⟨op, throwsAt⟩ := e
  cases op with
  | advertiseSrv n topic u scope =>
    simp only [KeepsServed, AllRequested, not_forall] at hbad
    obtain ⟨T, hname, m, v, k, hk, hwaits⟩ := hbad
    have havail : o.process.Available T := by
      refine .inl ((HandlerStorage.hasHandlersForTopic_iff _ _).mpr ⟨n, ?_⟩)
      exact (hasRepliers_exec h n T).mpr (.inl ⟨topic, u, scope, rfl, hname⟩)
    -- an advertisement only sends datagrams
    have hkept : o.process.shared.requests = p.shared.requests := by
      obtain ⟨r, hr, rfl, -⟩ := exec_eq_some h
      have hserviced := serviced_perform hr
      refine Eq.trans ?_ hserviced.requests
      cases hserviced.program with
      | discovered dop out hdop hout hprogram =>
        rw [discoveryOp, hname, Option.map_some] at hdop
        obtain rfl := Option.some.inj hdop
        have hwithin := within_reactAll_datagrams r.1.shared r.1.discovery (Discovery.isDatagram_advertise hout)
        rw [finish, hprogram]
        dsimp only
        rw [snd_bind_pure]
        exact congrArg (·.requests) (hwithin { state := r.1.shared, throwsAt } rfl).1
      | known _ _ _ _ _ heq => cases heq
      | quiet hquiet =>
        exact congrArg (·.requests) ((hquiet r.1.shared) { state := r.1.shared, throwsAt } rfl).1
    intro hnone
    refine hwaits (hnone T havail m v k ?_)
    rw [hkept]
    exact hk
  | _ => exact absurd trivial hbad

end Steps

/-! ## Runs -/

section Runs

theorem noneStranded_start (shared : NodeShared) (hostAddr : Str) : (start shared hostAddr).NoneStranded := by
  intro T _ n u h hh
  rw [getHandler_start] at hh
  cases hh

/-- **No handler waits for a responder that is there**, in any state of a run, exactly when no node of the process
begins to reply to a service for which a handler of the process waits. -/
theorem none_stranded_iff (shared : NodeShared) (hostAddr : Str) (es : List Event)
    (hrun : (run step (start shared hostAddr) es).isSome) :
    Always step (fun _ p => p.NoneStranded) (start shared hostAddr) es ↔
      Along step (fun _ p e => p.KeepsServed e) (start shared hostAddr) es := by
  obtain ⟨p, hp⟩ := Option.isSome_iff_exists.mp hrun
  refine always_iff_along (fun _ p => Waits p ∧ p.NoneStranded) (fun _ => True)
    ⟨waits_start shared hostAddr, noneStranded_start shared hostAddr⟩ (fun _ _ h => h.2) ?_ ?_ (fun _ _ => trivial) hp
  · rintro pre p e p' - ⟨hw, hnone⟩ hstep hgood
    obtain ⟨o, ho, rfl⟩ := Option.map_eq_some_iff.mp hstep
    exact ⟨waits_exec ho hw, noneStranded_exec ho hw hnone hgood⟩
  · rintro pre p e p' - - hstep hbad
    obtain ⟨o, ho, rfl⟩ := Option.map_eq_some_iff.mp hstep
    exact not_noneStranded_exec ho hbad

/-- A request of a service that nobody is known to offer: its handler is stored, and the responder is looked for. -/
theorem perform_request_unknown {p : Process} {nUuid topic name : Str} (hUuid data : Str)
    (hname : p.fqn nUuid topic = some name) (hreplier : p.shared.repliers.hasHandlersForTopic name = false)
    (hnone : p.discovery.infoSrv.getAddresses name = none) :
    p.perform (.request nUuid topic hUuid data) =
      ((p.discovery.discover name true).map ({ p with shared := { p.shared with
        requests := p.shared.requests.addHandler name nUuid { hUuid, nUuid, data } } } : Process).discovered) := by
  obtain ⟨node, hnode, hfqn⟩ := Option.bind_eq_some_iff.mp hname
  have hfirst : (p.shared.repliers.getFirstHandler name).isSome = false := by
    rw [Bool.eq_false_iff, Ne, HandlerMap.isSome_getFirstHandler, hreplier]
    exact Bool.false_ne_true
  have hrequest : p.perform (.request nUuid topic hUuid data) = p.request nUuid name hUuid data := by
    simp only [perform, named, hnode, Option.bind_eq_bind, Option.bind_some, hfqn]
  rw [hrequest, request, hfirst]
  simp only [hnone]
  rfl

/-- What comes of such a request. -/
theorem exec_request_unknown {p : Process} {nUuid topic name : Str} {hUuid data : Str} {r : Process × NodeM Bool}
    (hname : p.fqn nUuid topic = some name) (hreplier : p.shared.repliers.hasHandlersForTopic name = false)
    (hnone : p.discovery.infoSrv.getAddresses name = none)
    (hr : (p.discovery.discover name true).map ({ p with shared := { p.shared with
        requests := p.shared.requests.addHandler name nUuid { hUuid, nUuid, data } } } : Process).discovered = some r) :
    p.exec { op := .request nUuid topic hUuid data } = some (finish [] r) := by
  rw [← perform_request_unknown hUuid data hname hreplier hnone] at hr
  have hthread : ((Op.request nUuid topic hUuid data).OnServiceThread) = false := rfl
  simp only [exec, hr, Option.bind_eq_bind, Option.bind_some, hthread, Bool.false_eq_true, false_and, if_false]

/-- Two nodes, neither of which has done anything. -/
def twoNodes : List Event :=
  setCallbacks ++ [{ op := .construct (uuidOf 1) none none }, { op := .construct (uuidOf 2) none none }]

/-- A node requests the service 's', which another node then advertises. -/
def requestedFirst : List Event :=
  twoNodes ++ [{ op := .request (uuidOf 1).1 (ascii ['s']) [3] [4] },
    { op := .advertiseSrv (uuidOf 2).1 (ascii ['s']) [5] .all }]

/-- The end of the run `requestedFirst`. -/
theorem run_requestedFirst :
    ∃ p, run step (start (sample ⟨65, by decide⟩) []) requestedFirst = some p ∧
      p.shared.repliers.hasHandlersForTopic (ascii ['@', '@', '/', 's']) = true ∧
      p.shared.requests.getHandler (ascii ['@', '@', '/', 's']) (uuidOf 1).1 [3] =
        some ⟨[3], (uuidOf 1).1, [4], false⟩ := by
  have hnodes : (run step (start (sample ⟨65, by decide⟩) []) twoNodes).any (fun p =>
      p.fqn (uuidOf 1).1 (ascii ['s']) = some (ascii ['@', '@', '/', 's']) ∧
      p.shared.repliers.hasHandlersForTopic (ascii ['@', '@', '/', 's']) = false ∧
      (p.discovery.infoSrv.getAddresses (ascii ['@', '@', '/', 's'])).isNone = true ∧
      ((p.discovery.discover (ascii ['@', '@', '/', 's']) true).map ({ p with shared := { p.shared with
          requests := p.shared.requests.addHandler (ascii ['@', '@', '/', 's']) (uuidOf 1).1
            { hUuid := [3], nUuid := (uuidOf 1).1, data := [4] } } } : Process).discovered).any (fun r =>
        ((finish [] r).process.step { op := .advertiseSrv (uuidOf 2).1 (ascii ['s']) [5] .all }).any fun p =>
          p.shared.repliers.hasHandlersForTopic (ascii ['@', '@', '/', 's']) = true ∧
            p.shared.requests.getHandler (ascii ['@', '@', '/', 's']) (uuidOf 1).1 [3] =
              some ⟨[3], (uuidOf 1).1, [4], false⟩) = true) = true := by decide +kernel
  obtain ⟨p, hp, hname, hreplier, hnone, hrest⟩ := exists_of_any hnodes
  obtain ⟨r, hr, hrest⟩ := (Option.any_eq_true _ _).mp hrest
  obtain ⟨p', hp', hend⟩ := (Option.any_eq_true _ _).mp hrest
  have hstep : p.step { op := .request (uuidOf 1).1 (ascii ['s']) [3] [4] } = some (finish [] r).process := by
    rw [step, exec_request_unknown hname hreplier (Option.isNone_iff_eq_none.mp hnone) hr]
    rfl
  refine ⟨p', ?_, of_decide_eq_true hend⟩
  exact run_append_eq_some.mpr ⟨p, hp, run_cons_eq_some.mpr ⟨_, hstep, run_singleton.mpr hp'⟩⟩

theorem none_stranded_requestedFirst :
    Always step (fun _ p => p.NoneStranded) (start (sample ⟨65, by decide⟩) []) requestedFirst ↔
      Along step (fun _ p e => p.KeepsServed e) (start (sample ⟨65, by decide⟩) []) requestedFirst :=
  none_stranded_iff _ _ _ (Option.isSome_iff_exists.mpr (run_requestedFirst.imp fun _ h => h.1))

/-- The request waits though the service is there. -/
theorem request_stranded :
    ∃ p, run step (start (sample ⟨65, by decide⟩) []) requestedFirst = some p ∧ ¬ p.NoneStranded := by
  obtain ⟨p, hp, hreplier, hwaits⟩ := run_requestedFirst
  refine ⟨p, hp, fun hnone => ?_⟩
  have hrequested : false = true := hnone _ (.inl hreplier) _ _ _ hwaits
  cases hrequested

end Runs

end Process

end IgnTransport
