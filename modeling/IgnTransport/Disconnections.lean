import Mathlib
import IgnTransport.DiscoveryExpiry
import IgnTransport.SubscriberSocket
import IgnTransport.Connections
import IgnTransport.RemoteSubscribers
import IgnTransport.Requests

/-!
# IgnTransport.Disconnections — the end of a process, as its peers see it

A BYE, or the silence of a process, makes `OnNewDisconnection` run with an empty topic.  It clears the remote
subscribers of the process and then looks up the connections under the empty topic, under which there are none
(`topics_named`): it returns before it disconnects the subscriber socket or deletes a connection.  The socket may also
have kept an endpoint of a process from before.

* `purged_iff`: the process is purged exactly when there was no connection to it, neither in the table nor on the
  socket.
-/

namespace IgnTransport

open Lib CallM

namespace Process

open NodeShared

/-! ## Topics have names -/

section Names

/-- What a process is connected for: the handlers, and whether there is a connection for the empty topic. -/
def topicView (s : NodeShared) : HandlerStorage SubscriptionHandler × Bool :=
  (s.localSubscriptions, s.connections.hasTopic [])

variable {subs : HandlerStorage SubscriptionHandler}

/-- A step that adds no connection for the empty topic. -/
theorem topicView_of_known {s s' : NodeShared} (h : topicView s = (subs, false))
    (hsubs : s'.localSubscriptions = s.localSubscriptions)
    (hknown : ∀ q n a, s'.connections.Known [] q n a → s.connections.Known [] q n a) :
    topicView s' = (subs, false) := by
  obtain ⟨hsubscriptions, htopic⟩ := Prod.mk.inj h
  refine Prod.ext (hsubs.trans hsubscriptions) ?_
  by_contra hbad
  obtain ⟨q, n, a, hk⟩ := (TopicStorage.hasTopic_iff_known _ _).mp (by simpa [topicView] using hbad)
  have htopic' := (TopicStorage.hasTopic_iff_known _ _).mpr ⟨q, n, a, hknown q n a hk⟩
  rw [htopic] at htopic'
  cases htopic'

/-- A connection is made for a topic that has a handler. -/
theorem within_onNewConnection_named (hsubs : subs.hasHandlersForTopic [] = false) (args : CallbackArgs) :
    Within topicView (subs, false) (fun _ => True) (onNewConnection args) := by
  refine within_look fun s hs => ?_
  split_ifs with hinterested
  · have htopic : args.topic ≠ [] := by
      intro hnil
      have hhandlers := hinterested.1
      rw [show s.localSubscriptions = subs from congrArg Prod.fst hs, hnil, hsubs] at hhandlers
      cases hhandlers
    refine Within.bind (Within.completes ?_) fun _ => within_pure ()
    have hsubscriber : Within topicView (subs, false) (fun _ => True) (connectSubscriber args.addr) :=
      within_look fun t _ => by
        split_ifs
        · exact within_pure ()
        · exact within_zmq trivial
    have hnotify : Within topicView (subs, false) (fun _ => True) (notifySubscribers args.topic args.ctrl) := by
      refine within_openDealer.bind fun _ => within_look fun t _ => ?_
      cases t.localSubscriptions.getHandlers args.topic with
      | none => exact within_pure ()
      | some handlers => exact Within.forEach fun _ _ => within_sendFrames trivial
    refine hsubscriber.bind fun _ => (within_zmq trivial).bind fun _ => Within.bind (within_update ?_) fun _ => hnotify
    intro t ht
    refine topicView_of_known ht rfl fun q n a hk => ?_
    exact ((TopicStorage.known_addAddress _ _ _ _ _ _ _).mp hk).resolve_right fun hnew => htopic hnew.1.symm
  · exact within_pure ()

/-- A disconnection only deletes. -/
theorem within_onNewDisconnection_named (args : CallbackArgs) :
    Within topicView (subs, false) (fun _ => True) (onNewDisconnection args) := by
  refine Within.bind (within_update fun _ h => h) fun _ => ?_
  split_ifs
  · refine within_look fun s _ => ?_
    cases s.connections.getAddress args.topic args.pUuid args.nUuid with
    | none => exact within_pure ()
    | some connection =>
      refine (within_zmq trivial).bind fun _ => within_update fun t ht => ?_
      refine topicView_of_known ht rfl fun q n a hk => ?_
      exact ((TopicStorage.known_delAddressByNode _ _ _ _ _ _ _).mp hk).1
  · refine within_look fun s _ => ?_
    cases s.connections.getAddresses args.topic with
    | none => exact within_pure ()
    | some info =>
      refine (Within.forEach fun _ _ => within_zmq trivial).bind fun _ => within_update fun t ht => ?_
      refine topicView_of_known ht rfl fun q n a hk => ?_
      exact ((TopicStorage.known_delAddressesByProc _ _ _ _ _).mp hk).1

theorem within_react_named (hsubs : subs.hasHandlersForTopic [] = false) (d : Discovery) (o : Output) :
    Within topicView (subs, false) (fun _ => True) (react d o) := by
  match o with
  | .sendto b => exact within_emit trivial
  | .connection .msg args => exact within_onNewConnection_named hsubs args
  | .connection .srv args =>
    exact Within.coarsen (g := butServices) (f := topicView) fun t _ =>
      (within_onNewSrvConnection t d.infoSrv args).mono fun _ _ => trivial
  | .disconnection .msg args => exact within_onNewDisconnection_named args
  | .disconnection .srv args => exact within_update fun _ h => h

variable {p : Process} {e : Event} {o : Outcome}

/-- No topic of a handler or a connection is empty. -/
structure TopicsNamed (p : Process) : Prop where
  handlers : p.shared.localSubscriptions.hasHandlersForTopic [] = false
  connections : p.shared.connections.hasTopic [] = false

theorem topicsNamed_exec (hnamed : TopicsNamed p) (h : p.exec e = some o) : TopicsNamed o.process := by
  have hhandlers : o.process.shared.localSubscriptions.hasHandlersForTopic [] = false := by
    by_contra hbad
    rcases hasHandlers_exec h (by simpa using hbad) with hold | ⟨n, topic, u, -, hname⟩
    · rw [hnamed.handlers] at hold
      cases hold
    · obtain ⟨node, -, hfqn⟩ := Option.bind_eq_some_iff.mp hname
      exact TopicUtils.getFullyQualifiedName_ne_nil hfqn rfl
  refine ⟨hhandlers, ?_⟩
  obtain ⟨r, hr, rfl, -⟩ := exec_eq_some h
  have hperformed := performed_perform hr
  have hsubscriptions : (finish e.throwsAt r).process.shared.localSubscriptions = r.1.shared.localSubscriptions :=
    congrArg (·.localSubscriptions) (finish_within hperformed.within e.throwsAt).1
  rw [hsubscriptions] at hhandlers
  have hbefore : topicView r.1.shared = (r.1.shared.localSubscriptions, false) := by
    rw [topicView, hperformed.connections, hnamed.connections]
  have hwithin : Within topicView (r.1.shared.localSubscriptions, false) (fun _ => True) r.2 := by
    cases (serviced_perform hr).program with
    | discovered dop out hop hout hprogram =>
      rw [hprogram]
      exact (Within.forEach fun o _ => within_react_named hhandlers r.1.discovery o).bind fun _ => within_pure true
    | known nUuid topic hUuid data name hop hname hreplier hknown hdiscovery hprogram =>
      rw [hprogram]
      refine Within.bind ?_ fun _ => within_pure true
      exact Within.coarsen (g := butServices) (f := topicView) fun t _ =>
        (within_sendPendingRemoteReqs t _ _).mono fun _ _ => trivial
    | quiet hquiet _ _ =>
      exact Within.coarsen (g := butRemote) (f := topicView) fun t ht w hw =>
        ((hquiet w.state).mono fun _ _ => trivial) w rfl |>.imp (fun hview => hview.trans hw) id
  have hafter := (hwithin { state := r.1.shared, throwsAt := e.throwsAt } hbefore).1
  exact congrArg Prod.snd hafter

theorem topicsNamed_start (shared : NodeShared) (hostAddr : Str) : TopicsNamed (start shared hostAddr) where
  handlers := by
    by_contra hbad
    obtain ⟨n, hn⟩ := (HandlerStorage.hasHandlersForTopic_iff _ _).mp (by simpa using hbad)
    exact hn (Table.cell_empty [] n)
  connections := (linked_start shared hostAddr).topic

theorem topics_named {shared : NodeShared} {hostAddr : Str} {es : List Event}
    (h : run step (start shared hostAddr) es = some p) : TopicsNamed p := by
  refine run_invariant TopicsNamed (topicsNamed_start shared hostAddr) (fun p e p' hnamed hstep => ?_) h
  obtain ⟨o, hexec, rfl⟩ := Option.map_eq_some_iff.mp hstep
  exact topicsNamed_exec hnamed hexec

end Names

/-! ## The end of a process -/

section Purge

variable {p : Process} {e : Event} {o : Outcome} {q : Str}

/-- The processes that an event ends: by a BYE, or by their silence. -/
def Ends (p : Process) (e : Event) (q : Str) : Prop :=
  match e.op with
  | .datagram g => p.discovery.IsBye g q
  | .sweep now => p.discovery.Expired now q
  | _ => False

/-- The endpoints of the processes that the discovery service tells of in an operation. -/
def told (p : Process) (op : Op) : List (Str × Str) :=
  (((p.discoveryOp op).bind p.discovery.perform).elim [] Prod.snd).filterMap fun
    | .connection .msg args => some (args.pUuid, cStr args.addr)
    | _ => none

/-- A process with the endpoints that its subscriber socket is connected to, and all that it has been told of
so far. -/
structure Attached where
  process : Process
  endpoints : Finset Str
  used : List (Str × Str)

namespace Attached

def start (shared : NodeShared) (hostAddr : Str) : Attached := ⟨Process.start shared hostAddr, ∅, []⟩

def step (x : Attached) (e : Event) : Option Attached :=
  (x.process.exec e).map fun o => ⟨o.process, o.effects.foldl endpointCall x.endpoints, x.used ++ x.process.told e.op⟩

/-- The process has used the endpoint at some time. -/
def HasUsed (x : Attached) (r endpoint : Str) : Prop := (r, endpoint) ∈ x.used

/-- A connection to the process has the endpoint now. -/
def Uses (x : Attached) (r endpoint : Str) : Prop :=
  ∃ t n addr, x.process.shared.connections.Known t r n addr ∧ cStr addr = endpoint

/-- An endpoint that the process has used, and no other one, as `Other` counts the others. -/
def OnlyUsedBy (x : Attached) (Other : Str → Str → Prop) (q endpoint : Str) : Prop :=
  x.HasUsed q endpoint ∧ ∀ r, Other r endpoint → r = q

/-- After the event the process `q` has left the tables of topics, and the socket is connected to no endpoint that only
`q` used; the entries of the processes that the event does not end are as they were. -/
structure Purged (x : Attached) (Other : Str → Str → Prop) (e : Event) (q : Str) (y : Attached) : Prop where
  remoteSubscribers : ∀ t, y.process.shared.remoteSubscribers.cell t q = []
  connections : ∀ t, y.process.shared.connections.cell t q = []
  socket : ∀ endpoint, x.OnlyUsedBy Other q endpoint → endpoint ∉ y.endpoints
  others : ∀ r, ¬ Ends x.process e r → ∀ t,
    y.process.shared.remoteSubscribers.cell t r = x.process.shared.remoteSubscribers.cell t r ∧
      y.process.shared.connections.cell t r = x.process.shared.connections.cell t r

/-- There is no connection to the process in the table, and none on the socket that only it used. -/
def Unconnected (x : Attached) (Other : Str → Str → Prop) (q : Str) : Prop :=
  (∀ t, x.process.shared.connections.cell t q = []) ∧
    ∀ endpoint, x.OnlyUsedBy Other q endpoint → endpoint ∉ x.endpoints

end Attached

/-- The callbacks that tell of the end of a process. -/
def IsEnd (out : List Output) : Prop :=
  ∀ o ∈ out, (∃ r, o = .disconnection .msg (Discovery.goneArgs r)) ∨ ∃ r, o = .disconnection .srv (Discovery.goneArgs r)

theorem cell_foldl_dropFor {out : List Output} (hout : IsEnd out) (s : TopicStorage) (t r : Str) :
    (out.foldl (fun s o => dropFor o s) s).cell t r =
      if .disconnection .msg (Discovery.goneArgs r) ∈ out then [] else s.cell t r := by
  induction out generalizing s with
  | nil => rfl
  | cons o out ih =>
    obtain ⟨ho, hrest⟩ := List.forall_mem_cons.mp hout
    rw [List.foldl_cons, ih hrest]
    by_cases hmem : .disconnection .msg (Discovery.goneArgs r) ∈ out
    · rw [if_pos hmem, if_pos (List.mem_cons_of_mem _ hmem)]
    · rw [if_neg hmem]
      obtain ⟨r', rfl⟩ | ⟨r', rfl⟩ := ho
      · have hdrop : dropFor (.disconnection .msg (Discovery.goneArgs r')) s = (s.delAddressesByProc r').1 := by
          change dropRemote (Discovery.goneArgs r') s = _
          rw [dropRemote, if_neg fun habout => habout.1 rfl]
          rfl
        rw [hdrop, TopicStorage.cell_delAddressesByProc]
        refine if_congr ?_ rfl rfl
        rw [List.mem_cons, or_iff_left hmem]
        exact ⟨fun heq => by rw [heq], fun heq => congrArg (·.pUuid) (Output.disconnection.inj heq).2⟩
      · refine (if_neg fun hin => ?_).symm
        rcases List.mem_cons.mp hin with heq | hin
        · cases heq
        · exact hmem hin

/-- What the discovery service puts out at the end of a process. -/
theorem perform_ends (hconstructed : p.constructed = true) (hends : Ends p e q) {r : Process × NodeM Bool}
    (h : p.perform e.op = some r) : ∃ dr : Discovery × List Output, r = p.discovered dr ∧ IsEnd dr.2 ∧
      ∀ q', .disconnection .msg (Discovery.goneArgs q') ∈ dr.2 ↔ Ends p e q' := by
  obtain ⟨op, throwsAt⟩ := e
  cases op with
  | datagram g =>
    obtain ⟨dr, hdr, rfl⟩ := Option.map_eq_some_iff.mp h
    rw [Discovery.dispatch_bye hends] at hdr
    have hreg : p.discovery.Registered := by
      simp only [constructed, Bool.and_eq_true] at hconstructed
      obtain ⟨⟨⟨hconn, hdisc⟩, hconnSrv⟩, hdiscSrv⟩ := hconstructed
      exact ⟨fun type => by cases type <;> assumption, fun type => by cases type <;> assumption⟩
    have hout := Discovery.out_recvBye hreg q g.now
    rw [Option.some.inj hdr] at hout
    refine ⟨dr, rfl, ?_, fun q' => ?_⟩
    · rw [hout]
      exact List.forall_mem_cons.mpr ⟨.inl ⟨q, rfl⟩, List.forall_mem_singleton.mpr (.inr ⟨q, rfl⟩)⟩
    · rw [hout]
      obtain ⟨header, hread, rfl⟩ := hends
      simp only [List.mem_cons, Output.disconnection.injEq, true_and, reduceCtorEq, false_and, List.not_mem_nil,
        or_false]
      constructor
      · exact fun heq => ⟨header, hread, (congrArg (·.pUuid) heq).symm⟩
      · rintro ⟨header', hread', rfl⟩
        rw [hread, Option.some.injEq, Prod.mk.injEq] at hread'
        rw [hread'.1]
  | sweep now =>
    obtain ⟨dr, hdr, rfl⟩ := Option.map_eq_some_iff.mp h
    have hmem := Discovery.mem_out_sweep hdr
    refine ⟨dr, rfl, fun o ho => ?_, fun q' => (hmem _).trans ?_⟩
    · obtain ⟨r, -, rfl⟩ := (hmem o).mp ho
      exact .inl ⟨r, rfl⟩
    · constructor
      · rintro ⟨r, hexpired, heq⟩
        rwa [show q' = r from congrArg (·.pUuid) (Output.disconnection.inj heq).2]
      · exact fun hexpired => ⟨q', hexpired, rfl⟩
  | _ => exact hends.elim

theorem within_reactAll_end {out : List Output} (hout : IsEnd out) (d : Discovery) {v : TopicStorage}
    (hv : v.hasTopic [] = false) : Within (fun s => s.connections) v (fun _ => False) (reactAll d out) := by
  refine Within.forEach fun o ho => ?_
  obtain ⟨r, rfl⟩ | ⟨r, rfl⟩ := hout o ho
  · exact within_onNewDisconnection_gone v hv r
  · exact within_update fun _ h => h

/-- **What the end of a process does**: it clears the remote subscribers, and nothing else. -/
theorem exec_ends (hnamed : TopicsNamed p) (hconstructed : p.constructed = true) (hends : Ends p e q)
    (h : p.exec e = some o) : o.process.shared.connections = p.shared.connections ∧ o.effects = [] ∧
      ∀ t r, (Ends p e r → o.process.shared.remoteSubscribers.cell t r = []) ∧
        (¬ Ends p e r → o.process.shared.remoteSubscribers.cell t r = p.shared.remoteSubscribers.cell t r) := by
  obtain ⟨r, hr, ho, -⟩ := exec_eq_some h
  obtain ⟨dr, rfl, hend, hmem⟩ := perform_ends hconstructed hends hr
  have hwithin : Within (fun s => s.connections) (p.discovered dr).1.shared.connections (fun _ => False)
      (p.discovered dr).2 := (within_reactAll_end hend dr.1 hnamed.connections).bind fun _ => within_pure true
  obtain ⟨hconnections, hnone⟩ := @finish_within _ (fun s => s.connections) _ _ hwithin e.throwsAt
  refine ⟨by rw [ho]; exact hconnections, by rw [ho]; exact List.eq_nil_iff_forall_not_mem.mpr hnone, fun t r => ?_⟩
  have hthread : e.op.OnServiceThread = true := by
    unfold Ends at hends
    revert hends
    cases e.op <;> simp [Op.OnServiceThread]
  rw [remote_exec_discovered h hthread hr, cell_foldl_dropFor hend]
  exact ⟨fun hr => if_pos ((hmem r).mpr hr), fun hr => if_neg fun hin => hr ((hmem r).mp hin)⟩

namespace Attached

variable {x y : Attached} {Other : Str → Str → Prop}

theorem process_run {shared : NodeShared} {hostAddr : Str} {es : List Event}
    (h : run Attached.step (Attached.start shared hostAddr) es = some x) :
    run Process.step (Process.start shared hostAddr) es = some x.process := by
  refine run_induct (fun pre x => run Process.step (Process.start shared hostAddr) pre = some x.process) rfl
    (fun pre x e y ih hstep => ?_) h
  obtain ⟨o, ho, rfl⟩ := Option.map_eq_some_iff.mp hstep
  exact run_concat.mpr ⟨x.process, ih, congrArg (Option.map Outcome.process) ho⟩

theorem purged_iff_unconnected (hnamed : TopicsNamed x.process) (hconstructed : x.process.constructed = true)
    (hends : Ends x.process e q) (h : x.step e = some y) : x.Purged Other e q y ↔ x.Unconnected Other q := by
  obtain ⟨o, ho, rfl⟩ := Option.map_eq_some_iff.mp h
  obtain ⟨hconnections, heffects, hremote⟩ := exec_ends hnamed hconstructed hends ho
  constructor
  · intro hpurged
    refine ⟨fun t => ?_, fun endpoint honly hconnected => hpurged.socket endpoint honly ?_⟩
    · rw [← hconnections]
      exact hpurged.connections t
    · rw [heffects]
      exact hconnected
  · rintro ⟨hnone, hsocket⟩
    refine ⟨fun t => (hremote t q).1 hends, fun t => hconnections ▸ hnone t, fun endpoint honly hconnected => ?_,
      fun r hr t => ⟨(hremote t r).2 hr, by rw [hconnections]⟩⟩
    rw [heffects] at hconnected
    exact hsocket endpoint honly hconnected

end Attached

/-- **The purge of a process**: its BYE or its silence purges it from the tables of topics and from the subscriber
socket, in a reachable state of a process whose shared object is constructed, if and only if there was no connection to
it.  The others may be those that have used an endpoint at any time, or those with a connection now. -/
theorem purged_iff (shared : NodeShared) (hostAddr : Str) (es : List Event) (x : Attached) (e : Event) (y : Attached)
    (q : Str) (hrun : run Attached.step (Attached.start shared hostAddr) es = some x)
    (hconstructed : x.process.constructed = true) (hends : Ends x.process e q) (hstep : x.step e = some y) :
    (x.Purged x.HasUsed e q y ↔ x.Unconnected x.HasUsed q) ∧ (x.Purged x.Uses e q y ↔ x.Unconnected x.Uses q) := by
  have hnamed := topics_named (Attached.process_run hrun)
  exact ⟨Attached.purged_iff_unconnected hnamed hconstructed hends hstep,
    Attached.purged_iff_unconnected hnamed hconstructed hends hstep⟩

/-- The BYE of the publisher of 't'. -/
def byeOfPublisher : Datagram :=
  ⟨[], 1, headerCodec.encode { version := 1, pUuid := (uuidOf 7).1, type := ByeType }⟩

/-- What an evaluation finds of a run before this BYE. -/
theorem exists_before_bye (es : List Event) (P : Attached → Prop) [DecidablePred P]
    (h : (run Attached.step (Attached.start (sample ⟨65, by decide⟩) []) es).any (fun x =>
      x.process.constructed = true ∧
        ((Discovery.readMessage x.process.discovery.pUuid byeOfPublisher.msg).any fun r =>
          r.2 = some .bye ∧ r.1.pUuid = (uuidOf 7).1) = true ∧
        (x.step { op := .datagram byeOfPublisher }).isSome = true ∧ P x) = true) :
    ∃ x y, run Attached.step (Attached.start (sample ⟨65, by decide⟩) []) es = some x ∧
      x.process.constructed = true ∧ Ends x.process { op := .datagram byeOfPublisher } (uuidOf 7).1 ∧
      x.step { op := .datagram byeOfPublisher } = some y ∧ P x := by
  obtain ⟨x, hx, hconstructed, hread, hstep, hP⟩ := exists_of_any h
  obtain ⟨⟨header, body⟩, hread, rfl, hpUuid⟩ := exists_of_any hread
  obtain ⟨y, hy⟩ := Option.isSome_iff_exists.mp hstep
  exact ⟨x, y, hx, hconstructed, ⟨header, hread, hpUuid⟩, hy, hP⟩

/-- The publisher is told of at a second address as well, and unadvertises: the socket keeps the second endpoint. -/
def secondAddress : List Event :=
  let publisher := Discovery.start (uuidOf 7).1 []
  subscribedAndAdvertised ++
    [{ op := .datagram ⟨[], 0, (publisher.advMsg AdvType (ascii ['@', '@', '/', 't']) [7, 9] [7, 2] (uuidOf 8).1 .all
        0).encode⟩ },
      { op := .datagram ⟨[], 0, (publisher.advMsg UnadvType (ascii ['@', '@', '/', 't']) [7, 1] [7, 2] (uuidOf 8).1 .all
        0).encode⟩ }]

theorem purged_secondAddress : ∃ x y,
    run Attached.step (Attached.start (sample ⟨65, by decide⟩) []) secondAddress = some x ∧
    x.step { op := .datagram byeOfPublisher } = some y ∧
    (∀ t, x.process.shared.connections.cell t (uuidOf 7).1 = []) ∧
    ¬ x.Purged x.HasUsed { op := .datagram byeOfPublisher } (uuidOf 7).1 y := by
  obtain ⟨x, y, hx, hconstructed, hends, hy, hrows, hendpoints, hused⟩ :=
    exists_before_bye secondAddress (fun x => x.process.shared.connections.rows.isEmpty = true ∧
      x.endpoints = {[7, 9]} ∧ x.used = [((uuidOf 7).1, [7, 1]), ((uuidOf 7).1, [7, 9])]) (by decide +kernel)
  have hnone : ∀ t, x.process.shared.connections.cell t (uuidOf 7).1 = [] := fun t => by
    rw [Table.cell, Table.row, Std.ExtTreeMap.isEmpty_iff.mp hrows]
    simp
  have honly : x.OnlyUsedBy x.HasUsed (uuidOf 7).1 [7, 9] := by
    simp [Attached.OnlyUsedBy, Attached.HasUsed, hused]
  refine ⟨x, y, hx, hy, hnone, fun hpurged => ?_⟩
  have hunconnected := (purged_iff _ _ _ x _ y _ hx hconstructed hends hy).1.mp hpurged
  exact hunconnected.2 [7, 9] honly (by rw [hendpoints]; exact Finset.mem_singleton_self _)

/-- The connection to a publisher outlives its BYE. -/
theorem connection_outlives_bye : ∃ x y,
    run Attached.step (Attached.start (sample ⟨65, by decide⟩) []) subscribedAndAdvertised = some x ∧
    x.process.constructed = true ∧ Ends x.process { op := .datagram byeOfPublisher } (uuidOf 7).1 ∧
    x.step { op := .datagram byeOfPublisher } = some y ∧
    ¬ x.Purged x.HasUsed { op := .datagram byeOfPublisher } (uuidOf 7).1 y ∧
    ¬ x.Purged x.Uses { op := .datagram byeOfPublisher } (uuidOf 7).1 y := by
  obtain ⟨x, y, hx, hconstructed, hends, hy, hcell⟩ :=
    exists_before_bye subscribedAndAdvertised (fun x =>
      x.process.shared.connections.cell (ascii ['@', '@', '/', 't']) (uuidOf 7).1 ≠ []) (by decide +kernel)
  have hpurged : ∀ Other, ¬ x.Purged Other { op := .datagram byeOfPublisher } (uuidOf 7).1 y := by
    intro Other hpurged
    have hnamed := topics_named (Attached.process_run hx)
    exact hcell (((Attached.purged_iff_unconnected hnamed hconstructed hends hy).mp hpurged).1 _)
  exact ⟨x, y, hx, hconstructed, hends, hy, hpurged _, hpurged _⟩

end Purge

end Process

end IgnTransport
