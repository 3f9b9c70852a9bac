import Mathlib
import IgnTransport.NodeTables

/-!
# IgnTransport.Connections — the connections of a process over whole runs

A subscriber connects to a publisher when it hears of it (`OnNewConnection`) or, if it knew the publisher before it
subscribed, when `Discover` replays what is stored.  `no_missed_connection` says that the two ways together miss
nobody.
-/

namespace IgnTransport

open Lib CallM

namespace NodeShared

/-! ## Callbacks -/

section Callbacks

variable {s : NodeShared} {args : CallbackArgs}

/-- When nothing throws, `OnNewConnection` adds its entry and registers the handlers, if the process is interested. -/
theorem known_onNewConnection (s : NodeShared) (args : CallbackArgs) :
    ∃ es s', Does (onNewConnection args) s () s' es ∧ s'.butConnections = s.butConnections ∧
      (∀ t q n a, s'.connections.Known t q n a ↔ s.connections.Known t q n a ∨
        (s.Interested args.topic args.pUuid ∧ t = args.topic ∧ q = args.pUuid ∧ n = args.nUuid ∧ a = args.addr)) ∧
      (s.Interested args.topic args.pUuid → ∀ e, s.Registration args.topic args.ctrl e → e ∈ es) := by
  by_cases hinterested : s.Interested args.topic args.pUuid
  · obtain ⟨controls, hcontrols, hdoes⟩ := (does_onNewConnection s args).1 hinterested
    refine ⟨_, _, hdoes, rfl, fun t q n a => ?_, fun _ e he => ?_⟩
    · rw [and_iff_right hinterested]
      exact TopicStorage.known_addAddress _ _ _ _ _ _ _
    · exact List.mem_append_right _ (List.mem_cons_of_mem _ ((hcontrols e).mpr he))
  · exact ⟨_, s, (does_onNewConnection s args).2 hinterested, rfl, fun t q n a => by simp [hinterested],
      fun h => absurd h hinterested⟩

/-- When nothing throws, a notification about a node deletes the entries of this node. -/
theorem known_onNewDisconnection (s : NodeShared) (habout : AboutNode args) :
    ∃ es s', Does (onNewDisconnection args) s () s' es ∧
      ∀ t q n a, s'.connections.Known t q n a ↔ s.connections.Known t q n a ∧
        ¬ (t = args.topic ∧ q = args.pUuid ∧ n = args.nUuid) := by
  obtain ⟨hnone, hsome⟩ := does_onNewDisconnection_node (s := s) habout
  cases hget : s.connections.getAddress args.topic args.pUuid args.nUuid with
  | none =>
    refine ⟨_, _, hnone hget, fun t q n a => ⟨fun h => ⟨h, ?_⟩, fun h => h.1⟩⟩
    rintro ⟨rfl, rfl, rfl⟩
    exact (TopicStorage.getAddress_eq_none_iff _ _ _ _).mp hget a h
  | some c => exact ⟨_, _, hsome c hget, fun t q n a => TopicStorage.known_delAddressByNode _ _ _ _ _ _ _⟩

/-- A notification about a whole process finds no connections, since it has no topic. -/
theorem within_onNewDisconnection_gone {Kind : Effect → Prop} (v : TopicStorage) (hv : v.hasTopic [] = false)
    (q : Str) : Within (fun s => s.connections) v Kind (onNewDisconnection (Discovery.goneArgs q)) := by
  refine Within.bind (within_update ?_) fun _ => ?_
  · exact fun _ h => h
  · rw [if_neg fun habout : AboutNode (Discovery.goneArgs q) => habout.1 rfl]
    refine within_look fun t ht => ?_
    rw [show (Discovery.goneArgs q).topic = [] from rfl, TopicStorage.getAddresses, ht, if_neg (by simpa using hv)]
    exact within_pure ()

/-- An output that leaves the connections alone: a datagram, or about services. -/
def IsAside : Output → Prop
  | .sendto _ => True
  | .connection .srv _ => True
  | .disconnection .srv _ => True
  | _ => False

theorem within_react_aside {o : Output} (ho : IsAside o) (d : Discovery) (v : TopicStorage) :
    Within (fun s => s.connections) v (fun _ => True) (react d o) := by
  match o with
  | .sendto b => exact within_emit trivial
  | .connection .srv args =>
    exact Within.coarsen (g := butServices) (f := connections) fun t _ =>
      (within_onNewSrvConnection t d.infoSrv args).mono fun _ _ => trivial
  | .disconnection .srv args => exact within_update fun _ h => h

end Callbacks

end NodeShared

namespace Process

open NodeShared

/-! ## Programs -/

section Programs

variable {out : List Output}

/-- What a program that looks after datagrams and connections of topics does. -/
theorem known_reactAll (s : NodeShared) (d : Discovery)
    (hout : ∀ o ∈ out, o.IsDatagram ∨ ∃ args, o = .connection .msg args) :
    ∃ es s', Does (reactAll d out) s () s' es ∧ s'.butConnections = s.butConnections ∧
      (∀ t q n a, s'.connections.Known t q n a ↔ s.connections.Known t q n a ∨
        ∃ args, .connection .msg args ∈ out ∧ s.Interested args.topic args.pUuid ∧
          t = args.topic ∧ q = args.pUuid ∧ n = args.nUuid ∧ a = args.addr) ∧
      ∀ args, .connection .msg args ∈ out → s.Interested args.topic args.pUuid →
        ∀ e, s.Registration args.topic args.ctrl e → e ∈ es := by
  induction out generalizing s with
  | nil => exact ⟨[], s, does_pure s (), rfl, fun t q n a => by simp, fun args hargs => by cases hargs⟩
  | cons o out ih =>
    obtain ⟨ho, hrest⟩ := List.forall_mem_cons.mp hout
    rcases ho with ho | ⟨args, rfl⟩
    · match o, ho with
      | .sendto b, _ =>
        obtain ⟨es, s', hdoes, hcore, hknown, htold⟩ := ih s hrest
        refine ⟨_, s', (does_emit s (Effect.datagram b)).bind hdoes, hcore, fun t q n a => ?_,
          fun args hargs hinterested e he => ?_⟩
        · rw [hknown]
          simp
        · refine List.mem_append_right _ (htold args ?_ hinterested e he)
          exact (List.mem_cons.mp hargs).resolve_left (by simp)
    · obtain ⟨es₁, s₁, hdoes₁, hcore₁, hknown₁, htold₁⟩ := known_onNewConnection s args
      obtain ⟨es₂, s₂, hdoes₂, hcore₂, hknown₂, htold₂⟩ := ih s₁ hrest
      have hsubs : s₁.localSubscriptions = s.localSubscriptions := congrArg (·.localSubscriptions) hcore₁
      have hpUuid : s₁.pUuid = s.pUuid := congrArg (·.pUuid) hcore₁
      have hinterested : ∀ topic pUuid, s₁.Interested topic pUuid ↔ s.Interested topic pUuid := by
        intro topic pUuid
        unfold Interested
        rw [hsubs, hpUuid]
      refine ⟨_, s₂, hdoes₁.bind hdoes₂, hcore₂.trans hcore₁, fun t q n a => ?_, fun args' hargs hint e he => ?_⟩
      · rw [hknown₂, hknown₁, or_assoc]
        refine or_congr_right ?_
        simp only [hinterested, List.mem_cons, Output.connection.injEq, true_and, or_and_right, exists_or,
          exists_eq_left]
      · rcases List.mem_cons.mp hargs with heq | hargs
        · cases heq
          exact List.mem_append_left _ (htold₁ hint e he)
        · refine List.mem_append_right _ (htold₂ args' hargs ((hinterested _ _).mpr hint) e ?_)
          unfold Registration Registers at he ⊢
          rwa [hsubs, hpUuid]

theorem within_reactAll_aside (d : Discovery) (v : TopicStorage)
    (hout : ∀ o ∈ out, IsAside o ∨ v.hasTopic [] = false ∧ ∃ q, o = .disconnection .msg (Discovery.goneArgs q)) :
    Within (fun s => s.connections) v (fun _ => True) (reactAll d out) := by
  refine Within.forEach fun o ho => ?_
  rcases hout o ho with haside | ⟨hv, q, rfl⟩
  · exact within_react_aside haside d v
  · exact within_onNewDisconnection_gone v hv q

/-- The shared state after what the discovery service made the process do. -/
theorem shared_finish_discovered (q : Process) (dr : Discovery × List Output) (throwsAt : List ℕ) :
    (finish throwsAt (q.discovered dr)).process.shared =
      (reactAll dr.1 dr.2 { state := q.shared, throwsAt }).2.state := by
  unfold finish discovered
  rcases hreact : reactAll dr.1 dr.2 { state := q.shared, throwsAt } with ⟨_ | _, w⟩
  · simp only [bind_of_error hreact]
  · simp only [bind_of_ok hreact]
    rfl

theorem shared_finish_does {q : Process} {dr : Discovery × List Output} {s : NodeShared} {es : List Effect}
    (h : Does (reactAll dr.1 dr.2) q.shared () s es) : (finish [] (q.discovered dr)).process.shared = s := by
  obtain ⟨k, hk⟩ := h { state := q.shared, throwsAt := [] } rfl rfl
  rw [shared_finish_discovered, hk]

theorem connections_finish_aside {q : Process} {dr : Discovery × List Output} (throwsAt : List ℕ)
    (hout : ∀ o ∈ dr.2, IsAside o ∨
      q.shared.connections.hasTopic [] = false ∧ ∃ r, o = .disconnection .msg (Discovery.goneArgs r)) :
    (finish throwsAt (q.discovered dr)).process.shared.connections = q.shared.connections := by
  rw [shared_finish_discovered]
  exact (within_reactAll_aside dr.1 q.shared.connections hout { state := q.shared, throwsAt } rfl).1

end Programs

/-! ## No missed connection -/

section Linked

/-- The invariant: every entry of another process for a topic with a handler has its connection. -/
structure Linked (p : Process) : Prop where
  pUuid : p.discovery.pUuid = p.shared.pUuid
  callback : ∀ n node, p.nodes[(n : Str)]? = some node → p.discovery.connectionCb = true
  handler : ∀ t, p.shared.localSubscriptions.hasHandlersForTopic t = true → p.discovery.connectionCb = true ∧ t ≠ []
  topic : p.shared.connections.hasTopic [] = false
  connected : ∀ t q, ∀ a ∈ p.discovery.infoMsg.cell t q, p.shared.localSubscriptions.hasHandlersForTopic t = true →
    q ≠ p.shared.pUuid → p.shared.connections.Known t q a.nUuid a.addr

variable {p : Process} {e : Event} {o : Outcome}

/-- A topic gets its first handler when a node subscribes to it. -/
theorem hasHandlers_exec (h : p.exec e = some o) {t : Str}
    (ht : o.process.shared.localSubscriptions.hasHandlersForTopic t = true) :
    p.shared.localSubscriptions.hasHandlersForTopic t = true ∨
      ∃ n topic u, e.op = .subscribe n topic u ∧ p.fqn n topic = some t := by
  obtain ⟨n, hn⟩ := (HandlerStorage.hasHandlersForTopic_iff _ _).mp ht
  rcases (hasSubscriptions_exec h n t).mp hn with ⟨topic, u, heq, hname⟩ | ⟨hold, -⟩
  · exact .inr ⟨n, topic, u, heq, hname⟩
  · exact .inl ((HandlerStorage.hasHandlersForTopic_iff _ _).mpr ⟨n, hold⟩)

theorem hasHandlers_datagram {g : Datagram} {throwsAt : List ℕ} (h : p.exec ⟨.datagram g, throwsAt⟩ = some o) {t : Str}
    (ht : o.process.shared.localSubscriptions.hasHandlersForTopic t = true) :
    p.shared.localSubscriptions.hasHandlersForTopic t = true := by
  refine (hasHandlers_exec h ht).resolve_right ?_
  rintro ⟨_, _, _, heq, _⟩
  cases heq

/-- What is left to show of a step: the connections. -/
theorem linked_of (hl : Linked p) (h : p.exec e = some o) (htopic : o.process.shared.connections.hasTopic [] = false)
    (hconnected : ∀ t q, ∀ a ∈ o.process.discovery.infoMsg.cell t q,
      o.process.shared.localSubscriptions.hasHandlersForTopic t = true → q ≠ p.shared.pUuid →
        o.process.shared.connections.Known t q a.nUuid a.addr) : Linked o.process where
  pUuid := (discoveryPUuid_exec h).trans (hl.pUuid.trans (congrArg Subtype.val (core_exec h).2.1.symm))
  callback n node hnode := by
    refine hasConnectionCb_exec .msg h ?_
    cases hold : p.nodes[n]? with
    | some node' => exact hl.callback n node' hold
    | none =>
      have hcbs := (node_exec_new h hnode hold).1
      simp only [constructed, Bool.and_eq_true] at hcbs
      exact hcbs.1.1.1
  handler t ht := by
    rcases hasHandlers_exec h ht with ht | ⟨n, topic, u, -, hname⟩
    · exact ⟨hasConnectionCb_exec .msg h (hl.handler t ht).1, (hl.handler t ht).2⟩
    · obtain ⟨node, hnode, hfqn⟩ := Option.bind_eq_some_iff.mp hname
      exact ⟨hasConnectionCb_exec .msg h (hl.callback n node hnode), TopicUtils.getFullyQualifiedName_ne_nil hfqn⟩
  topic := htopic
  connected t q a ha ht hq := hconnected t q a ha ht (by rwa [(core_exec h).2.1] at hq)

/-- The entries of another process after an operation that dispatches no datagram were there before. -/
theorem entries_exec (h : p.exec e = some o) (hop : ∀ g, e.op ≠ .datagram g) {t q : Str} {a : Address}
    (hq : q ≠ p.discovery.pUuid) (ha : a ∈ o.process.discovery.infoMsg.cell t q) :
    a ∈ p.discovery.infoMsg.cell t q := by
  have hd := discovery_exec h
  cases hdop : p.discoveryOp e.op with
  | none =>
    rw [hdop] at hd
    rwa [hd] at ha
  | some dop =>
    rw [hdop] at hd
    have hin : a ∈ (o.process.discovery.info .msg).cell t q := ha
    refine Discovery.entries_step hd ?_ hq hin
    rintro g rfl
    exact hop g (discoveryOp_eq_datagram hdop)

/-- A step that keeps the connections, subscribes to nothing and dispatches no datagram. -/
theorem linked_of_quiet (hl : Linked p) (h : p.exec e = some o) (hop : ∀ g, e.op ≠ .datagram g)
    (hsubscribe : ∀ n topic u, e.op = .subscribe n topic u → p.fqn n topic = none)
    (hconnections : o.process.shared.connections = p.shared.connections) : Linked o.process := by
  refine linked_of hl h (hconnections ▸ hl.topic) fun t q a ha ht hq => ?_
  rw [hconnections]
  rcases hasHandlers_exec h ht with ht | ⟨n, topic, u, heq, hname⟩
  · exact hl.connected t q a (entries_exec h hop (hl.pUuid ▸ hq) ha) ht hq
  · rw [hsubscribe n topic u heq] at hname
    cases hname

/-- A step that only adds connections, of topics with handlers. -/
theorem linked_of_known (hl : Linked p) (h : p.exec e = some o) {out : List Output}
    (hknown : ∀ t q n a, o.process.shared.connections.Known t q n a ↔
      p.shared.connections.Known t q n a ∨ ∃ args, .connection .msg args ∈ out ∧
        o.process.shared.Interested args.topic args.pUuid ∧
          t = args.topic ∧ q = args.pUuid ∧ n = args.nUuid ∧ a = args.addr)
    (hentries : ∀ t q, ∀ a ∈ o.process.discovery.infoMsg.cell t q,
      o.process.shared.localSubscriptions.hasHandlersForTopic t = true → q ≠ p.shared.pUuid →
        (a ∈ p.discovery.infoMsg.cell t q ∧ p.shared.localSubscriptions.hasHandlersForTopic t = true) ∨
          Discovery.connectionOf .msg t q a ∈ out) : Linked o.process := by
  refine linked_of hl h ?_ fun t q a ha ht hq => ?_
  · by_contra htopic
    obtain ⟨q, n, a, hk⟩ := (TopicStorage.hasTopic_iff_known _ _).mp (by simpa using htopic)
    rcases (hknown _ _ _ _).mp hk with hk | ⟨args, -, hinterested, hnil, -⟩
    · have htopic' := (TopicStorage.hasTopic_iff_known _ _).mpr ⟨q, n, a, hk⟩
      rw [hl.topic] at htopic'
      cases htopic'
    · rcases hasHandlers_exec h hinterested.1 with ht | ⟨m, topic, u, -, hname⟩
      · exact (hl.handler _ ht).2 hnil.symm
      · obtain ⟨node, -, hfqn⟩ := Option.bind_eq_some_iff.mp hname
        exact TopicUtils.getFullyQualifiedName_ne_nil hfqn hnil.symm
  · rw [hknown]
    rcases hentries t q a ha ht hq with ⟨hold, ht'⟩ | hmem
    · exact .inl (hl.connected t q a hold ht' hq)
    · refine .inr ⟨_, hmem, ⟨ht, ?_⟩, rfl, rfl, rfl, rfl⟩
      rw [(core_exec h).2.1]
      exact Ne.symm hq

/-- An UNADVERTISE of a topic was made by a successful `Pack`, which refuses an empty topic or node UUID. -/
def Op.Packed (pUuid : Str) : Op → Prop
  | .datagram g => ∀ header m, Discovery.readMessage pUuid g.msg = some (header, some (.unadvertise .msg m)) →
      m.topic ≠ [] ∧ m.nUuid ≠ []
  | _ => True

/-- A program that keeps the connections, in an operation that had not changed them before. -/
theorem connections_finish {r : Process × NodeM Bool} {throwsAt : List ℕ}
    (hconnections : r.1.shared.connections = p.shared.connections)
    (hwithin : Within (fun s => s.connections) r.1.shared.connections (fun _ => True) r.2) :
    (finish throwsAt r).process.shared.connections = p.shared.connections :=
  (finish_within hwithin throwsAt).1.trans hconnections

/-- The discovery service made the process send, and connect to publishers. -/
theorem known_finish {q : Process} {dr : Discovery × List Output}
    (hconnections : q.shared.connections = p.shared.connections)
    (hout : ∀ o ∈ dr.2, o.IsDatagram ∨ ∃ args, o = .connection .msg args) :
    ∀ t r n a, (finish [] (q.discovered dr)).process.shared.connections.Known t r n a ↔
      p.shared.connections.Known t r n a ∨ ∃ args, .connection .msg args ∈ dr.2 ∧
        (finish [] (q.discovered dr)).process.shared.Interested args.topic args.pUuid ∧
          t = args.topic ∧ r = args.pUuid ∧ n = args.nUuid ∧ a = args.addr := by
  obtain ⟨es, s', hdoes, hcore, hknown, -⟩ := known_reactAll q.shared dr.1 hout
  have hsubs : s'.localSubscriptions = q.shared.localSubscriptions := congrArg (·.localSubscriptions) hcore
  have hpUuid : s'.pUuid = q.shared.pUuid := congrArg (·.pUuid) hcore
  intro t r n a
  rw [shared_finish_does hdoes, hknown, hconnections]
  unfold Interested
  rw [hsubs, hpUuid]

theorem outputs_discover {d d' : Discovery} {topic : Str} {out : List Output}
    (h : d.discover topic false = some (d', out)) : ∀ o ∈ out, o.IsDatagram ∨ ∃ args, o = .connection .msg args := by
  obtain ⟨-, sent, replayed, rfl, hsent, hreplayed⟩ := Discovery.discover_eq_some h
  refine List.forall_mem_append.mpr ⟨fun o ho => .inl (hsent o ho), fun o ho => ?_⟩
  obtain ⟨-, q, a, -, rfl⟩ := (hreplayed o).mp ho
  exact .inr ⟨_, rfl⟩

theorem isAside_of_isDatagram {o : Output} (h : o.IsDatagram) : IsAside o := by
  cases o with
  | sendto b => trivial
  | _ => cases h

theorem aside_discoverSrv {d d' : Discovery} {topic : Str} {out : List Output}
    (h : d.discover topic true = some (d', out)) : ∀ o ∈ out, IsAside o := by
  obtain ⟨-, sent, replayed, rfl, hsent, hreplayed⟩ := Discovery.discover_eq_some h
  refine List.forall_mem_append.mpr ⟨fun o ho => isAside_of_isDatagram (hsent o ho), fun o ho => ?_⟩
  obtain ⟨-, q, a, -, rfl⟩ := (hreplayed o).mp ho
  trivial

/-- Only an ADVERTISE and an UNADVERTISE tell of one publisher. -/
theorem callbacks_aside (d : Discovery) (fromIp q : Str) {body : Discovery.Body}
    (hadv : ∀ m, body ≠ .advertise .msg m) (hunadv : ∀ m, body ≠ .unadvertise .msg m) :
    ∀ o ∈ d.callbacks fromIp q body, IsAside o ∨ ∃ r, o = .disconnection .msg (Discovery.goneArgs r) := by
  intro o ho
  cases body with
  | advertise type m =>
    cases type with
    | msg => exact absurd rfl (hadv m)
    | srv =>
      dsimp only [Discovery.callbacks] at ho
      split_ifs at ho
      · rw [List.mem_singleton.mp ho]
        exact .inl trivial
      · cases ho
  | unadvertise type m =>
    cases type with
    | msg => exact absurd rfl (hunadv m)
    | srv =>
      dsimp only [Discovery.callbacks] at ho
      split_ifs at ho
      · rw [List.mem_singleton.mp ho]
        exact .inl trivial
      · cases ho
  | bye =>
    rcases List.mem_append.mp ho with ho | ho
    · split_ifs at ho
      · exact .inr ⟨_, List.mem_singleton.mp ho⟩
      · cases ho
    · split_ifs at ho
      · rw [List.mem_singleton.mp ho]
        exact .inl trivial
      · cases ho
  | _ => cases ho

/-- A dispatch that keeps the connections, and adds no entry. -/
theorem linked_keptDatagram (hl : Linked p) {g : Datagram} {d' : Discovery} {out : List Output}
    (h : p.exec ⟨.datagram g, []⟩ = some (finish [] (p.discovered (d', out))))
    (hout : ∀ o ∈ out, IsAside o ∨ ∃ q, o = .disconnection .msg (Discovery.goneArgs q))
    (hentries : ∀ t q, ∀ a ∈ d'.infoMsg.cell t q, a ∈ p.discovery.infoMsg.cell t q) :
    Linked (finish [] (p.discovered (d', out))).process := by
  have hconnections : (finish [] (p.discovered (d', out))).process.shared.connections = p.shared.connections :=
    connections_finish_aside [] fun o ho => (hout o ho).imp id fun hq => ⟨hl.topic, hq⟩
  refine linked_of hl h (hconnections ▸ hl.topic) fun t q a ha ht hq => ?_
  rw [hconnections]
  exact hl.connected t q a (hentries t q a ha) (hasHandlers_datagram h ht) hq

/-- An UNADVERTISE takes the entries of the node out of both tables. -/
theorem linked_unadvertised (hl : Linked p) {g : Datagram} {d' : Discovery} {sent : List Output} {q : Str}
    {m : AdvertiseMsg} (hsent : ∀ o ∈ sent, o.IsDatagram) (habout : AboutNode (Discovery.advArgs q m))
    (h : p.exec ⟨.datagram g, []⟩ =
      some (finish [] (p.discovered (d', sent ++ [.disconnection .msg (Discovery.advArgs q m)]))))
    (hentries : ∀ t r, ∀ a ∈ d'.infoMsg.cell t r, a ∈ p.discovery.infoMsg.cell t r ∧
      ¬ (t = m.topic ∧ r = q ∧ a.nUuid = m.nUuid)) :
    Linked (finish [] (p.discovered (d', sent ++ [.disconnection .msg (Discovery.advArgs q m)]))).process := by
  obtain ⟨es, hdoes⟩ := does_reactAll_sent p.shared d' hsent
  obtain ⟨fs, s', hdisconnect, hknown⟩ := known_onNewDisconnection p.shared habout
  have hreact : Does (reactAll d' (sent ++ [.disconnection .msg (Discovery.advArgs q m)])) p.shared () s'
      (es ++ (fs ++ [])) := by
    rw [reactAll, forEach_append]
    exact hdoes.bind (hdisconnect.bind (does_pure s' ()))
  have hshared : (finish [] (p.discovered (d', sent ++ [.disconnection .msg (Discovery.advArgs q m)]))).process.shared
      = s' := shared_finish_does hreact
  refine linked_of hl h ?_ fun t r a ha ht hr => ?_
  · rw [hshared]
    by_contra htopic
    obtain ⟨r, n, a, hk⟩ := (TopicStorage.hasTopic_iff_known _ _).mp (by simpa using htopic)
    have htopic' := (TopicStorage.hasTopic_iff_known _ _).mpr ⟨r, n, a, ((hknown _ _ _ _).mp hk).1⟩
    rw [hl.topic] at htopic'
    cases htopic'
  · obtain ⟨hold, hkept⟩ := hentries t r a ha
    rw [hshared]
    exact (hknown _ _ _ _).mpr ⟨hl.connected t r a hold (hasHandlers_datagram h ht) hr, hkept⟩

theorem outputs_advertised {sent : List Output} (d : Discovery) (fromIp q : Str) (m : AdvertiseMsg)
    (hsent : ∀ o ∈ sent, o.IsDatagram) :
    ∀ o ∈ sent ++ d.callbacks fromIp q (.advertise .msg m), o.IsDatagram ∨ ∃ args, o = .connection .msg args := by
  refine List.forall_mem_append.mpr ⟨fun o ho => .inl (hsent o ho), fun o ho => .inr ?_⟩
  dsimp only [Discovery.callbacks] at ho
  split_ifs at ho
  · exact ⟨_, List.mem_singleton.mp ho⟩
  · cases ho

/-- An ADVERTISE of a publisher connects to it if a node of the process subscribes to the topic. -/
theorem linked_advertised (hl : Linked p) {g : Datagram} {d' : Discovery} {sent : List Output} {q : Str}
    {m : AdvertiseMsg} (hsent : ∀ o ∈ sent, o.IsDatagram)
    (h : p.exec ⟨.datagram g, []⟩ =
      some (finish [] (p.discovered (d', sent ++ p.discovery.callbacks g.fromIp q (.advertise .msg m)))))
    (hentries : ∀ t r, ∀ a ∈ d'.infoMsg.cell t r, a ∈ p.discovery.infoMsg.cell t r ∨
      (¬ Discovery.Hides p.discovery.hostAddr g.fromIp m.scope ∧
        ¬ p.discovery.infoMsg.Known m.topic q m.nUuid m.addr ∧ r = q ∧ t = m.topic ∧ a = Peer.addressOf m)) :
    Linked (finish [] (p.discovered (d', sent ++ p.discovery.callbacks g.fromIp q (.advertise .msg m)))).process := by
  have hout := outputs_advertised p.discovery g.fromIp q m hsent
  refine linked_of_known hl h (known_finish (q := p) rfl hout) fun t r a ha ht hr => ?_
  rcases hentries t r a ha with ha | ⟨hshown, hnew, rfl, rfl, rfl⟩
  · exact .inl ⟨ha, hasHandlers_datagram h ht⟩
  · -- a new entry is connected by the callback
    have hcb := (hl.handler _ (hasHandlers_datagram h ht)).1
    refine .inr (List.mem_append_right _ ?_)
    dsimp only [Discovery.callbacks]
    rw [if_pos ⟨hshown, hnew, hcb⟩]
    exact List.mem_singleton.mpr rfl

theorem linked_datagram (hl : Linked p) {g : Datagram} (h : p.exec ⟨.datagram g, []⟩ = some o)
    (hpacked : Op.Packed p.shared.pUuid (.datagram g)) : Linked o.process := by
  obtain ⟨r, hr, rfl, -⟩ := exec_eq_some h
  obtain ⟨⟨d', out⟩, hdr, rfl⟩ := Option.map_eq_some_iff.mp hr
  rcases Discovery.dispatch_cases hdr with ⟨header, -, -, rfl, rfl⟩ | ⟨header, body, hread, hother, hhandle⟩
  · exact linked_keptDatagram hl h (by simp) fun t q a ha => ha
  obtain ⟨sent, rfl, hsent⟩ := Discovery.out_handle hhandle
  rw [Discovery.callbacks_touch] at h ⊢
  have hquiet : (∀ o ∈ p.discovery.callbacks g.fromIp header.pUuid body,
      IsAside o ∨ ∃ q, o = .disconnection .msg (Discovery.goneArgs q)) → (∀ m, body ≠ .advertise .msg m) →
        Linked (finish [] (p.discovered (d', sent ++ p.discovery.callbacks g.fromIp header.pUuid body))).process := by
    intro hcallbacks hadv
    refine linked_keptDatagram hl h
      (List.forall_mem_append.mpr ⟨fun o ho => .inl (isAside_of_isDatagram (hsent o ho)), hcallbacks⟩) ?_
    intro t q a ha
    rcases Discovery.mem_cell_handle hhandle ha with ⟨ha, -⟩ | ⟨-, m, rfl, -⟩
    · exact ha
    · exact absurd rfl (hadv m)
  by_cases hadv : ∃ m, body = .advertise .msg m
  · obtain ⟨m, rfl⟩ := hadv
    refine linked_advertised hl hsent h fun t r a ha => ?_
    rcases Discovery.mem_cell_handle hhandle ha with ⟨ha, -⟩ | ⟨hr, m', hm, hshown, hnew, ht, ha⟩
    · exact .inl ha
    · cases hm
      exact .inr ⟨hshown, hnew, hr, ht, ha⟩
  by_cases hunadv : ∃ m, body = .unadvertise .msg m
  · obtain ⟨m, rfl⟩ := hunadv
    by_cases hc : ¬ Discovery.Hides p.discovery.hostAddr g.fromIp m.scope ∧
        p.discovery.hasDisconnectionCb .msg = true
    · have hcallbacks : p.discovery.callbacks g.fromIp header.pUuid (.unadvertise .msg m) =
          [.disconnection .msg (Discovery.advArgs header.pUuid m)] := if_pos hc
      rw [hcallbacks] at h ⊢
      refine linked_unadvertised hl hsent (hpacked header m (hl.pUuid ▸ hread)) h fun t r a ha => ?_
      rcases Discovery.mem_cell_handle hhandle ha with ⟨hold, hkept⟩ | ⟨-, m', hm, -⟩
      · exact ⟨hold, hkept m rfl hc.1⟩
      · cases hm
    · refine hquiet (fun o ho => ?_) (by simp)
      dsimp only [Discovery.callbacks] at ho
      rw [if_neg hc] at ho
      cases ho
  · exact hquiet (callbacks_aside _ _ _ (fun m hm => hadv ⟨m, hm⟩) fun m hm => hunadv ⟨m, hm⟩)
      fun m hm => hadv ⟨m, hm⟩

/-- An operation of the discovery service that only makes the process send, or look after services and expired
processes. -/
theorem linked_aside (hl : Linked p) {q : Process} {dr : Discovery × List Output}
    (h : p.exec e = some o) (ho : o = finish [] (q.discovered dr)) (hop : ∀ g, e.op ≠ .datagram g)
    (hsubscribe : ∀ n topic u, e.op = .subscribe n topic u → p.fqn n topic = none)
    (hconnections : q.shared.connections = p.shared.connections)
    (hout : ∀ o ∈ dr.2, IsAside o ∨ ∃ r, o = .disconnection .msg (Discovery.goneArgs r)) : Linked o.process := by
  refine linked_of_quiet hl h hop hsubscribe ?_
  rw [ho, connections_finish_aside [] fun o ho => (hout o ho).imp id fun hr => ⟨hconnections ▸ hl.topic, hr⟩,
    hconnections]

/-- A step with a `Discover` of a topic: what is stored of it is replayed. -/
theorem linked_discover (hl : Linked p) {r : Process × NodeM Bool} {topic : Str} {out : List Output}
    (h : p.exec e = some o) (ho : o = finish [] (r.1.discovered (r.1.discovery, out)))
    (hconnections : r.1.shared.connections = p.shared.connections)
    (hop : p.discoveryOp e.op = some (.discover topic false))
    (hout : p.discovery.discover topic false = some (r.1.discovery, out)) : Linked o.process := by
  obtain ⟨hd, sent, replayed, rfl, -, hreplayed⟩ := Discovery.discover_eq_some hout
  subst ho
  refine linked_of_known hl h (known_finish hconnections (outputs_discover hout)) fun t q a ha ht hq => ?_
  have ha' : a ∈ p.discovery.infoMsg.cell t q := hd ▸ ha
  rcases hasHandlers_exec h ht with ht | ⟨n, topic', u, heq, hname⟩
  · exact .inl ⟨ha', ht⟩
  · rw [heq, discoveryOp, hname] at hop
    cases hop
    obtain ⟨node, hnode, -⟩ := Option.bind_eq_some_iff.mp hname
    exact .inr (List.mem_append_right _ ((hreplayed _).mpr ⟨hl.callback n node hnode, q, a, ha', rfl⟩))

theorem linked_step (hl : Linked p) (h : p.exec e = some o) (hthrows : e.throwsAt = [])
    (hpacked : e.op.Packed p.shared.pUuid) : Linked o.process := by
  obtain ⟨op, throwsAt⟩ := e
  obtain rfl : throwsAt = [] := hthrows
  obtain ⟨r, hr, ho, -⟩ := exec_eq_some h
  obtain ⟨hshared, -, haction⟩ := acts_perform hr
  have hconnections : r.1.shared.connections = p.shared.connections := congrArg (·.connections) hshared
  cases haction with
  | own hop hdiscovery hprogram =>
    refine linked_of_quiet hl h ?_ ?_ ?_
    · rintro g rfl
      cases hop
    · rintro n topic u rfl
      exact Option.map_eq_none_iff.mp hop
    · rw [ho]
      exact connections_finish hconnections (within_own hprogram (fun _ _ => rfl) (.inr fun _ _ => rfl) _)
  | discovered dop out hop hout hprogram =>
    have hdiscovered : r = r.1.discovered (r.1.discovery, out) := Prod.ext rfl hprogram
    rw [hdiscovered] at ho
    -- an operation of the discovery service that tells of no publisher
    have haside : (∀ g, dop ≠ .datagram g) → (∀ topic, dop ≠ .discover topic false) →
        (∀ o ∈ out, IsAside o ∨ ∃ r, o = .disconnection .msg (Discovery.goneArgs r)) → Linked o.process := by
      intro hdatagram hdiscover haside
      refine linked_aside hl h ho ?_ ?_ hconnections haside
      · rintro g rfl
        exact hdatagram g (Option.some.inj hop).symm
      · rintro n topic u rfl
        cases hname : p.fqn n topic with
        | none => rfl
        | some name =>
          rw [discoveryOp, hname] at hop
          exact absurd (Option.some.inj hop).symm (hdiscover name)
    have hsent : (∀ o ∈ out, o.IsDatagram) →
        ∀ o ∈ out, IsAside o ∨ ∃ r, o = .disconnection .msg (Discovery.goneArgs r) :=
      fun hdatagrams o ho => .inl (isAside_of_isDatagram (hdatagrams o ho))
    cases dop with
    | advertise => exact haside (by simp) (by simp) (hsent (Discovery.isDatagram_advertise hout))
    | unadvertise => exact haside (by simp) (by simp) (hsent (Discovery.isDatagram_unadvertise hout))
    | discover topic isSrv =>
      cases isSrv with
      | true => exact haside (by simp) (by simp) fun o ho => .inl (aside_discoverSrv hout o ho)
      | false => exact linked_discover hl h ho hconnections hop hout
    | datagram g =>
      obtain rfl := discoveryOp_eq_datagram hop
      exact linked_datagram hl h hpacked
    | heartbeat => exact haside (by simp) (by simp) (hsent (Discovery.isDatagram_heartbeat hout))
    | sweep now =>
      refine haside (by simp) (by simp) fun o ho => .inr ?_
      obtain ⟨q, -, hq⟩ := (Discovery.mem_out_sweep hout o).mp ho
      exact ⟨q, hq⟩
    | setConnectionsCb | setDisconnectionsCb | setSilenceInterval =>
      obtain ⟨-, rfl⟩ := Prod.mk.inj (Option.some.inj hout)
      exact haside (by simp) (by simp) (by simp)

theorem linked_start (shared : NodeShared) (hostAddr : Str) : Linked (start shared hostAddr) where
  pUuid := rfl
  callback n node hnode := by
    have hnone : (∅ : StrMap Node)[n]? = none := Std.ExtTreeMap.getElem?_empty
    rw [show (start shared hostAddr).nodes = ∅ from rfl, hnone] at hnode
    cases hnode
  handler t ht := by
    obtain ⟨n, hn⟩ := (HandlerStorage.hasHandlersForTopic_iff _ _).mp ht
    exact absurd (Table.cell_empty t n) hn
  topic := by
    by_contra htopic
    obtain ⟨q, n, a, hk, -⟩ := (TopicStorage.hasTopic_iff_hasNode _ _).mp (by simpa using htopic)
    rw [show (start shared hostAddr).shared.connections = Table.empty from rfl, Table.cell_empty] at hk
    cases hk
  connected t q a ha := by
    rw [show (start shared hostAddr).discovery.infoMsg = Table.empty from rfl, Table.cell_empty] at ha
    cases ha

/-- **No missed connection**: when no ZeroMQ call fails, every publisher that a process knows of a topic it has a
handler for is connected. -/
theorem no_missed_connection (shared : NodeShared) (hostAddr : Str) (es : List Event) (p : Process)
    (hrun : run step (start shared hostAddr) es = some p) (hcalls : ∀ e ∈ es, e.throwsAt = [])
    (hpacked : ∀ e ∈ es, e.op.Packed shared.pUuid) (t q : Str) (a : Address)
    (hhandler : p.shared.localSubscriptions.hasHandlersForTopic t = true)
    (hentry : a ∈ p.discovery.infoMsg.cell t q) (hother : q ≠ shared.pUuid) :
    ∃ c ∈ p.shared.connections.cell t q, c.addr = a.addr ∧ c.nUuid = a.nUuid := by
  have hall : (∀ e ∈ es, e.throwsAt = [] ∧ e.op.Packed shared.pUuid) → p.shared.pUuid = shared.pUuid ∧ Linked p := by
    refine run_induct (fun es p => (∀ e ∈ es, e.throwsAt = [] ∧ e.op.Packed shared.pUuid) →
      p.shared.pUuid = shared.pUuid ∧ Linked p) (fun _ => ⟨rfl, linked_start shared hostAddr⟩) ?_ hrun
    intro pre p e p' ih hstep hok
    obtain ⟨hpUuid, hl⟩ := ih fun e he => hok e (List.mem_append_left _ he)
    obtain ⟨o, hexec, rfl⟩ := Option.map_eq_some_iff.mp hstep
    obtain ⟨hthrows, hpacked⟩ := hok e (by simp)
    exact ⟨(core_exec hexec).2.1.trans hpUuid, linked_step hl hexec hthrows (hpUuid ▸ hpacked)⟩
  obtain ⟨hpUuid, hl⟩ := hall fun e he => ⟨hcalls e he, hpacked e he⟩
  exact hl.connected t q a hentry hhandler (hpUuid ▸ hother)

/-- The ADVERTISE of a publisher on 't'. -/
def publisherOfT : AdvertiseMsg :=
  (Discovery.start (uuidOf 7).1 []).advMsg AdvType (ascii ['@', '@', '/', 't']) [7, 1] [7, 2] (uuidOf 8).1 .all 0

/-- A node subscribes to 't', and hears of a publisher. -/
def subscribedAndAdvertised : List Event :=
  setCallbacks ++ [{ op := .construct (uuidOf 1) none none },
    { op := .subscribe (uuidOf 1).1 (ascii ['t']) [9] }, { op := .datagram ⟨[], 0, publisherOfT.encode⟩ }]

theorem no_missed_connection_advertised :
    ∃ p, run step (start (sample ⟨65, by decide⟩) []) subscribedAndAdvertised = some p ∧
      ∃ c ∈ p.shared.connections.cell (ascii ['@', '@', '/', 't']) (uuidOf 7).1,
        c.addr = [7, 1] ∧ c.nUuid = (uuidOf 8).1 := by
  have hstate : (run step (start (sample ⟨65, by decide⟩) []) subscribedAndAdvertised).any (fun p =>
      p.shared.localSubscriptions.hasHandlersForTopic (ascii ['@', '@', '/', 't']) = true ∧
        ⟨[7, 1], [7, 2], (uuidOf 8).1, .all⟩ ∈ p.discovery.infoMsg.cell (ascii ['@', '@', '/', 't']) (uuidOf 7).1) =
          true := by decide +kernel
  obtain ⟨p, hp, hhandler, hentry⟩ := exists_of_any hstate
  refine ⟨p, hp, no_missed_connection (sample ⟨65, by decide⟩) [] subscribedAndAdvertised p hp (by decide) ?_ _ _ _
    hhandler hentry (by decide)⟩
  have hpacked : Op.Packed (uuidOf 65).1 (.datagram ⟨[], 0, publisherOfT.encode⟩) := by
    have hread : (Discovery.readMessage (uuidOf 65).1 publisherOfT.encode).bind (fun r => r.2) =
        some (.advertise .msg { publisherOfT with header := {} }) := by decide +kernel
    intro header m hunadv
    rw [hunadv] at hread
    cases hread
  simp only [subscribedAndAdvertised, setCallbacks, List.cons_append, List.nil_append, List.forall_mem_cons]
  exact ⟨trivial, trivial, trivial, trivial, trivial, trivial, hpacked, by simp⟩

end Linked

end Process

end IgnTransport
