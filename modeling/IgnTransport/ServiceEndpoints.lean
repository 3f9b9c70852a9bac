import Mathlib
import IgnTransport.Reception

/-!
# IgnTransport.ServiceEndpoints — the endpoints of the requester and the replier socket

`srvConnections` is one list for two sockets.  `OnNewSrvConnection` connects the requester socket to an address that
is not in the list, and `RecvSrvRequest` the replier socket; `OnNewSrvDisconnection` takes an address out of the list
and leaves the sockets connected.  `service_endpoints_faithful_iff` says exactly which runs of the service threads
keep the list and the sockets in step.
-/

namespace IgnTransport

open Lib CallM

namespace NodeShared

/-! ## The sockets -/

section Sockets

/-- The connections of the requester and the replier socket, in the order in which they were made. -/
abbrev Links := List (Socket × Str)

/-- What a call does to them. -/
def linkCall (links : Links) : Effect → Links
  | .connect .requester endpoint => links ++ [(.requester, endpoint)]
  | .connect .replier endpoint => links ++ [(.replier, endpoint)]
  | .disconnect .requester endpoint => links.erase (.requester, endpoint)
  | .disconnect .replier endpoint => links.erase (.replier, endpoint)
  | _ => links

/-- A process with its requester and replier sockets. -/
structure Served where
  shared : NodeShared
  links : Links

/-- What the service threads run, and any change of the handlers between them. -/
inductive ServedEvent where
  | service (infoSrv : TopicStorage) (runCallback : RepHandler → Str → Str → Str × Bool) (service : Service)
      (throwsAt : List ℕ)
  | handlers (localSubscriptions : HandlerStorage SubscriptionHandler) (repliers : HandlerStorage RepHandler)
      (requests : HandlerStorage ReqHandler)

namespace Served

/-- A process that is connected to nobody. -/
def start (shared : NodeShared) : Served := ⟨{ shared with srvConnections := [] }, []⟩

/-- A function of a service thread, and which of its calls throw. -/
def call (x : Served) (throwsAt : List ℕ) (function : NodeM Unit) : Served :=
  let w := (function { state := x.shared, throwsAt }).2
  ⟨w.state, w.effects.foldl linkCall x.links⟩

def step (x : Served) : ServedEvent → Option Served
  | .service infoSrv runCallback service throwsAt => some (x.call throwsAt (service.program infoSrv runCallback))
  | .handlers localSubscriptions repliers requests => some { x with
      shared := { x.shared with
        localSubscriptions
        repliers
        requests } }

/-- The list has the addresses that one of the sockets is connected to, each once, and no socket is connected twice
to an endpoint. -/
structure Faithful (x : Served) : Prop where
  nodup : x.shared.srvConnections.Nodup
  connected : ∀ addr, addr ∈ x.shared.srvConnections ↔ ∃ socket, (socket, addr) ∈ x.links
  once : x.links.Nodup

end Served

/-- The function connects a socket to a new address. -/
def Service.Connects (s : NodeShared) (throwsAt : List ℕ) (socket : Socket) (addr : Str) : Service → Prop
  | .onNewSrvConnection args => socket = .requester ∧ addr = args.addr ∧ addr ∉ s.srvConnections ∧ 0 ∉ throwsAt
  | .recvSrvRequest _ topic sender _ _ _ _ => socket = .replier ∧ addr = sender ∧ addr ∉ s.srvConnections ∧
      s.repliers.hasHandlersForTopic topic = true ∧ Succeed throwsAt 8
  | _ => False

/-- The condition under which the list stays faithful: a new address is a C string, and a service that goes has an
address that is not in the list. -/
def KeepsFaithful (s : NodeShared) : ServedEvent → Prop
  | .service _ _ service throwsAt =>
    (∀ socket addr, service.Connects s throwsAt socket addr → cStr addr = addr) ∧
      ∀ args, service = .onNewSrvDisconnection args → cStr args.addr ∉ s.srvConnections
  | .handlers .. => True

end Sockets

/-! ## Calls -/

section Calls

variable {α β : Type} {s : NodeShared} {w : World NodeShared Effect}

/-- A call that leaves both sockets alone. -/
def Quiet (e : Effect) : Prop := ∀ links, linkCall links e = links

theorem foldl_linkCall_quiet {es : List Effect} (h : ∀ e ∈ es, Quiet e) (links : Links) :
    es.foldl linkCall links = links := foldl_of_fixed h links

/-- A program that leaves the list and both sockets alone. -/
def Aside (p : NodeM α) : Prop := ∀ v, Within srvConnections v Quiet p

theorem quiet_of_topics {e : Effect} (h : (∃ args, s.ConnectionEffect args e) ∨ DisconnectionEffect e) : Quiet e := by
  intro links
  match e, h with
  | .connect .subscriber _, _ => rfl
  | .disconnect .subscriber _, _ => rfl
  | .subscribe _, _ => rfl
  | .control _ _, _ => rfl

theorem aside_recvFrames (frames : List Str) : Aside (recvFrames frames) := fun _ =>
  Within.completes (Within.forEach fun _ _ => within_attempt _)

theorem aside_sendPendingRemoteReqs (infoSrv : TopicStorage) (topic : Str) :
    Aside (sendPendingRemoteReqs infoSrv topic) := fun _ =>
  within_sendPending (fun _ _ => rfl) (fun _ _ => rfl) infoSrv topic

theorem aside_sendReply (dstId topic nodeUuid reqUuid : Str) (response : Str × Bool) :
    Aside (sendReply dstId topic nodeUuid reqUuid response) := fun _ =>
  (within_sendFrames fun _ => rfl).completes.bind fun _ => within_pure ()

theorem aside_recvMsgUpdate (topic sender data : Str) : Aside (recvMsgUpdate topic sender data) := by
  intro v
  refine (aside_recvFrames _ v).bind fun received => ?_
  split_ifs
  · refine within_look fun t _ => ?_
    cases t.localSubscriptions.getHandlers topic with
    | none => exact within_pure ()
    | some handlers =>
      refine Within.forEach fun handler _ => ?_
      split_ifs
      · exact within_emit fun _ => rfl
      · exact within_pure ()
  · exact within_pure ()

theorem aside_recvControlUpdate (topic procUuid nodeUuid data : Str) :
    Aside (recvControlUpdate topic procUuid nodeUuid data) := fun _ =>
  Within.coarsen (g := butRemote) (f := srvConnections) fun t _ =>
    (Process.within_recvControlUpdate t _ _ _ _).mono fun _ h => h.elim

theorem aside_recvSrvResponse (identity topic nodeUuid reqUuid rep result : Str) :
    Aside (recvSrvResponse identity topic nodeUuid reqUuid rep result) := by
  intro v
  refine (aside_recvFrames _ v).bind fun received => ?_
  split_ifs
  · refine within_look fun t _ => ?_
    cases t.requests.getHandler topic nodeUuid reqUuid with
    | none => exact within_pure ()
    | some reqHandler => exact Within.bind (within_emit fun _ => rfl) fun _ => within_update fun _ h => h
  · exact within_pure ()

theorem aside_onNewConnection (args : CallbackArgs) : Aside (onNewConnection args) := fun _ =>
  Within.coarsen (g := butConnections) (f := srvConnections) fun t ht => by
    subst ht
    exact (within_onNewConnection t args).mono fun _ h => quiet_of_topics (.inl ⟨args, h⟩)

theorem aside_onNewDisconnection (args : CallbackArgs) : Aside (onNewDisconnection args) := fun _ =>
  Within.coarsen (g := butTopics) (f := srvConnections) fun t _ =>
    (within_onNewDisconnection t args).mono fun _ h => quiet_of_topics (s := t) (.inr h)

/-! ### What a program does to the list and the sockets -/

/-- Nothing. -/
def Same (w w' : World NodeShared Effect) : Prop :=
  w'.state.srvConnections = w.state.srvConnections ∧
    ∀ links, w'.effects.foldl linkCall links = w.effects.foldl linkCall links

/-- An address is new in the list, and a socket is connected to it. -/
def Adds (socket : Socket) (addr : Str) (w w' : World NodeShared Effect) : Prop :=
  w'.state.srvConnections = w.state.srvConnections ++ [addr] ∧
    ∀ links, w'.effects.foldl linkCall links = w.effects.foldl linkCall links ++ [(socket, cStr addr)]

theorem Aside.same {p : NodeM α} (h : Aside p) (w : World NodeShared Effect) : Same w (p w).2 := by
  obtain ⟨hlist, effects, heffects, hquiet⟩ := h w.state.srvConnections w rfl
  refine ⟨hlist, fun links => ?_⟩
  rw [heffects, List.foldl_append, foldl_linkCall_quiet hquiet]

theorem Same.trans {w' w'' : World NodeShared Effect} (h : Same w w') (h' : Same w' w'') : Same w w'' :=
  ⟨h'.1.trans h.1, fun links => (h'.2 links).trans (h.2 links)⟩

theorem Same.adds {w' w'' : World NodeShared Effect} {socket : Socket} {addr : Str} (h : Same w w')
    (h' : Adds socket addr w' w'') : Adds socket addr w w'' :=
  ⟨by rw [h'.1, h.1], fun links => by rw [h'.2, h.2]⟩

theorem Adds.same {w' w'' : World NodeShared Effect} {socket : Socket} {addr : Str} (h : Adds socket addr w w')
    (h' : Same w' w'') : Adds socket addr w w'' :=
  ⟨h'.1.trans h.1, fun links => (h'.2 links).trans (h.2 links)⟩

/-- A program that connects a socket if the address is new, and goes on. -/
theorem connectNew_bind {socket : Socket} (hsocket : socket = .requester ∨ socket = .replier) (addr : Str)
    {rest : NodeM β} (hrest : Aside rest) (w : World NodeShared Effect) :
    (addr ∉ w.state.srvConnections → w.count ∉ w.throwsAt →
      Adds socket addr w ((connectNew socket addr >>= fun _ => rest) w).2) ∧
    (¬ (addr ∉ w.state.srvConnections ∧ w.count ∉ w.throwsAt) →
      Same w ((connectNew socket addr >>= fun _ => rest) w).2) := by
  have hrun := connectNew_run socket addr w
  split_ifs at hrun with hin hthrows
  · rw [bind_of_ok hrun]
    exact ⟨fun hnew => absurd hin hnew, fun _ => hrest.same w⟩
  · rw [bind_of_error hrun]
    exact ⟨fun _ hok => absurd hthrows hok, fun _ => ⟨rfl, fun _ => rfl⟩⟩
  · rw [bind_of_ok hrun]
    refine ⟨fun _ _ => Adds.same ⟨rfl, fun links => ?_⟩ (hrest.same _), fun hnot => absurd ⟨hin, hthrows⟩ hnot⟩
    rw [List.foldl_append]
    rcases hsocket with rfl | rfl <;> rfl

theorem succeed_succ_iff (throwsAt : List ℕ) (n : ℕ) :
    Succeed throwsAt (n + 1) ↔ Succeed throwsAt n ∧ n ∉ throwsAt := by
  constructor
  · exact fun h => ⟨fun k hk => h k (Nat.lt_succ_of_lt hk), h n n.lt_succ_self⟩
  · rintro ⟨h, hn⟩ k hk
    rcases Nat.lt_succ_iff_lt_or_eq.mp hk with hlt | rfl
    · exact h k hlt
    · exact hn

/-- What a function of the service threads leaves in the list without a connection of its own. -/
def Service.kept (srvConnections : List Str) : Service → List Str
  | .onNewSrvDisconnection args => srvConnections.filter fun addr => addr ≠ cStr args.addr
  | _ => srvConnections

/-- **What a request does**: it connects the replier socket if it is received, has a replier, and the address is
new. -/
theorem recvSrvRequest_links (runCallback : RepHandler → Str → Str → Str × Bool)
    (identity topic sender dstId nodeUuid reqUuid req : Str) (s : NodeShared) (throwsAt : List ℕ) :
    let w : World NodeShared Effect := { state := s, throwsAt }
    let w' := (recvSrvRequest runCallback identity topic sender dstId nodeUuid reqUuid req w).2
    (sender ∉ s.srvConnections → s.repliers.hasHandlersForTopic topic = true → Succeed throwsAt 8 →
      Adds .replier sender w w') ∧
    (¬ (sender ∉ s.srvConnections ∧ s.repliers.hasHandlersForTopic topic = true ∧ Succeed throwsAt 8) →
      Same w w') := by
  intro w w'
  rw [succeed_succ_iff]
  rcases recvSrvRequest_run runCallback identity topic sender dstId nodeUuid reqUuid req s throwsAt with
    ⟨hnot, n, hrun⟩ | ⟨⟨hreceived, hknown⟩, repHandler, -, hrun⟩
  · have hw' : w' = { state := s, throwsAt, count := n } := congrArg Prod.snd hrun
    rw [hw']
    exact ⟨fun _ hhas hok => absurd ⟨hok.1, hhas⟩ hnot, fun _ => ⟨rfl, fun _ => rfl⟩⟩
  · have hw' : w' = _ := congrArg Prod.snd hrun
    have hserved : Same w { state := s, throwsAt, count := 7, effects := [.serve repHandler topic req] } :=
      ⟨rfl, fun _ => rfl⟩
    obtain ⟨hadds, hsame⟩ := connectNew_bind (.inr rfl) sender
      (aside_sendReply dstId topic nodeUuid reqUuid (runCallback repHandler topic req))
      { state := s, throwsAt, count := 7, effects := [.serve repHandler topic req] }
    rw [hw']
    refine ⟨fun hnew _ hok => hserved.adds (hadds hnew hok.2), fun hnot => hserved.trans (hsame fun h => ?_)⟩
    exact hnot ⟨h.1, hknown, hreceived, h.2⟩

end Calls

/-! ## Steps -/

section Steps

variable {x y : Served} {e : ServedEvent} {throwsAt : List ℕ}

theorem call_of_adds {p : NodeM Unit} {socket : Socket} {addr : Str}
    (h : Adds socket addr { state := x.shared, throwsAt } (p { state := x.shared, throwsAt }).2) :
    (x.call throwsAt p).shared.srvConnections = x.shared.srvConnections ++ [addr] ∧
      (x.call throwsAt p).links = x.links ++ [(socket, cStr addr)] :=
  ⟨h.1, h.2 x.links⟩

theorem call_of_same {p : NodeM Unit}
    (h : Same { state := x.shared, throwsAt } (p { state := x.shared, throwsAt }).2) :
    (x.call throwsAt p).shared.srvConnections = x.shared.srvConnections ∧ (x.call throwsAt p).links = x.links :=
  ⟨h.1, h.2 x.links⟩

/-- What a function of the service threads does to the list and the sockets. -/
theorem call_service (x : Served) (infoSrv : TopicStorage) (runCallback : RepHandler → Str → Str → Str × Bool)
    (service : Service) (throwsAt : List ℕ) :
    let y := x.call throwsAt (service.program infoSrv runCallback)
    (∀ socket addr, service.Connects x.shared throwsAt socket addr →
      y.shared.srvConnections = x.shared.srvConnections ++ [addr] ∧ y.links = x.links ++ [(socket, cStr addr)]) ∧
    ((∀ socket addr, ¬ service.Connects x.shared throwsAt socket addr) →
      y.shared.srvConnections = service.kept x.shared.srvConnections ∧ y.links = x.links) := by
  intro y
  cases service with
  | recvMsgUpdate topic sender data =>
    exact ⟨fun _ _ h => h.elim, fun _ => call_of_same ((aside_recvMsgUpdate _ _ _).same _)⟩
  | recvControlUpdate topic procUuid nodeUuid data =>
    exact ⟨fun _ _ h => h.elim, fun _ => call_of_same ((aside_recvControlUpdate _ _ _ _).same _)⟩
  | recvSrvRequest identity topic sender dstId nodeUuid reqUuid req =>
    obtain ⟨hadds, hsame⟩ := recvSrvRequest_links runCallback identity topic sender dstId nodeUuid reqUuid req x.shared
      throwsAt
    refine ⟨?_, fun hnot => call_of_same (hsame fun h => ?_)⟩
    · rintro socket addr ⟨rfl, rfl, hnew, hhas, hok⟩
      exact call_of_adds (hadds hnew hhas hok)
    · exact hnot .replier sender ⟨rfl, rfl, h⟩
  | recvSrvResponse identity topic nodeUuid reqUuid rep result =>
    exact ⟨fun _ _ h => h.elim, fun _ => call_of_same ((aside_recvSrvResponse _ _ _ _ _ _).same _)⟩
  | onNewConnection args =>
    exact ⟨fun _ _ h => h.elim, fun _ => call_of_same ((aside_onNewConnection args).same _)⟩
  | onNewDisconnection args =>
    exact ⟨fun _ _ h => h.elim, fun _ => call_of_same ((aside_onNewDisconnection args).same _)⟩
  | onNewSrvConnection args =>
    obtain ⟨hadds, hsame⟩ := connectNew_bind (.inl rfl) args.addr (aside_sendPendingRemoteReqs infoSrv args.topic)
      { state := x.shared, throwsAt }
    refine ⟨?_, fun hnot => call_of_same (hsame fun h => ?_)⟩
    · rintro socket addr ⟨rfl, rfl, hnew, hok⟩
      exact call_of_adds (hadds hnew hok)
    · exact hnot .requester args.addr ⟨rfl, rfl, h⟩
  | onNewSrvDisconnection args => exact ⟨fun _ _ h => h.elim, fun _ => ⟨rfl, rfl⟩⟩

theorem Service.Connects.new {s : NodeShared} {socket : Socket} {addr : Str} {service : Service}
    (h : service.Connects s throwsAt socket addr) : addr ∉ s.srvConnections := by
  cases service with
  | onNewSrvConnection args => exact h.2.2.1
  | recvSrvRequest => exact h.2.2.1
  | _ => cases h

theorem kept_of_ne {service : Service} (h : ∀ args, service ≠ .onNewSrvDisconnection args) (addrs : List Str) :
    service.kept addrs = addrs := by
  cases service with
  | onNewSrvDisconnection args => exact absurd rfl (h args)
  | _ => rfl

/-- The sockets are connected to C strings. -/
def CStrings (x : Served) : Prop := ∀ link ∈ x.links, cStr link.2 = link.2

theorem cStrings_step (hx : CStrings x) (h : x.step e = some y) : CStrings y := by
  cases e with
  | handlers => cases h; exact hx
  | service infoSrv runCallback service throwsAt =>
    obtain rfl := Option.some.inj h
    obtain ⟨hadds, hsame⟩ := call_service x infoSrv runCallback service throwsAt
    by_cases hnew : ∃ socket addr, service.Connects x.shared throwsAt socket addr
    · obtain ⟨socket, addr, hconnects⟩ := hnew
      intro link hlink
      rw [(hadds socket addr hconnects).2, List.mem_append, List.mem_singleton] at hlink
      rcases hlink with hlink | rfl
      · exact hx link hlink
      · exact cStr_cStr addr
    · push Not at hnew
      intro link hlink
      rw [(hsame hnew).2] at hlink
      exact hx link hlink

/-- A new address that is a C string. -/
theorem faithful_of_adds (hx : x.Faithful) {socket : Socket} {addr : Str} (hnew : addr ∉ x.shared.srvConnections)
    (hlist : y.shared.srvConnections = x.shared.srvConnections ++ [addr])
    (hlinks : y.links = x.links ++ [(socket, addr)]) : y.Faithful where
  nodup := by
    rw [hlist, ← List.concat_eq_append]
    exact hx.nodup.concat hnew
  connected b := by
    rw [hlist, hlinks, List.mem_append, hx.connected, List.mem_singleton]
    simp only [List.mem_append, List.mem_singleton, Prod.mk.injEq, exists_or, exists_eq_left]
  once := by
    rw [hlinks, ← List.concat_eq_append]
    exact hx.once.concat fun hin => hnew ((hx.connected addr).mpr ⟨socket, hin⟩)

/-- **One step** keeps the list faithful exactly under the condition. -/
theorem step_faithful (hx : x.Faithful) (hstrings : CStrings x) (h : x.step e = some y) :
    y.Faithful ↔ KeepsFaithful x.shared e := by
  have hstrings' := cStrings_step hstrings h
  cases e with
  | handlers =>
    obtain rfl := Option.some.inj h
    exact iff_of_true ⟨hx.nodup, hx.connected, hx.once⟩ trivial
  | service infoSrv runCallback service throwsAt =>
    obtain rfl := Option.some.inj h
    obtain ⟨hadds, hsame⟩ := call_service x infoSrv runCallback service throwsAt
    constructor
    · intro hy
      refine ⟨fun socket addr hconnects => ?_, ?_⟩
      · -- the address is in the list, and so connected
        have hin : addr ∈ (x.call throwsAt (service.program infoSrv runCallback)).shared.srvConnections := by
          rw [(hadds socket addr hconnects).1]
          exact List.mem_append_right _ (List.mem_singleton_self addr)
        obtain ⟨socket', hlink⟩ := (hy.connected addr).mp hin
        exact hstrings' _ hlink
      · rintro args rfl hin
        obtain ⟨hlist, hlinks⟩ := hsame fun _ _ h => h
        obtain ⟨socket, hlink⟩ := (hx.connected _).mp hin
        have hstill := (hy.connected _).mpr ⟨socket, hlinks ▸ hlink⟩
        rw [hlist] at hstill
        exact absurd rfl (of_decide_eq_true (List.mem_filter.mp hstill).2)
    · rintro ⟨hnew, hgone⟩
      by_cases hany : ∃ socket addr, service.Connects x.shared throwsAt socket addr
      · obtain ⟨socket, addr, hconnects⟩ := hany
        obtain ⟨hlist, hlinks⟩ := hadds socket addr hconnects
        rw [hnew socket addr hconnects] at hlinks
        exact faithful_of_adds hx hconnects.new hlist hlinks
      · push Not at hany
        obtain ⟨hlist, hlinks⟩ := hsame hany
        have hkept : service.kept x.shared.srvConnections = x.shared.srvConnections := by
          by_cases hdisconnection : ∃ args, service = .onNewSrvDisconnection args
          · obtain ⟨args, rfl⟩ := hdisconnection
            refine List.filter_eq_self.mpr fun addr haddr => decide_eq_true ?_
            rintro rfl
            exact hgone args rfl haddr
          · exact kept_of_ne (not_exists.mp hdisconnection) _
        rw [hkept] at hlist
        exact ⟨hlist ▸ hx.nodup, fun addr => by rw [hlist, hlinks, hx.connected], hlinks ▸ hx.once⟩

theorem faithful_start (shared : NodeShared) : (Served.start shared).Faithful ∧ CStrings (Served.start shared) := by
  refine ⟨⟨List.nodup_nil, fun addr => ?_, List.nodup_nil⟩, fun link hlink => ?_⟩
  · refine iff_of_false List.not_mem_nil ?_
    rintro ⟨socket, hlink⟩
    cases hlink
  · cases hlink

theorem served_step_total (x : Served) (e : ServedEvent) : (x.step e).isSome := by
  cases e <;> rfl

/-- **The service endpoints**: the list has the addresses that the requester and the replier socket are connected to,
each once, in every state of a run of the service threads, exactly when every step of the run meets the condition. -/
theorem service_endpoints_faithful_iff (shared : NodeShared) (es : List ServedEvent) :
    Always Served.step (fun _ x => x.Faithful) (Served.start shared) es ↔
      Along Served.step (fun _ x e => KeepsFaithful x.shared e) (Served.start shared) es := by
  obtain ⟨x, hx⟩ := Option.isSome_iff_exists.mp (isSome_run_of_total served_step_total (Served.start shared) es)
  refine always_iff_along (fun _ x => x.Faithful ∧ CStrings x) (fun _ => True) (faithful_start shared)
    (fun _ _ h => h.1) ?_ ?_ (fun _ _ => trivial) hx
  · exact fun _ x e y _ hinv h hgood => ⟨(step_faithful hinv.1 hinv.2 h).mpr hgood, cStrings_step hinv.2 h⟩
  · exact fun _ x e y _ hinv h hbad hy => hbad ((step_faithful hinv.1 hinv.2 h).mp hy)

/-- A process offers two services; the first goes, and the second is heard of again. -/
def unadvertisedOne : List ServedEvent :=
  let runCallback : RepHandler → Str → Str → Str × Bool := fun _ _ _ => ([], true)
  let connection (topic : Str) : ServedEvent :=
    .service Table.empty runCallback (.onNewSrvConnection ⟨topic, [7, 4], [7, 2], [7], [8], .all⟩) []
  [connection (ascii ['s']), connection (ascii ['t']),
    .service Table.empty runCallback (.onNewSrvDisconnection ⟨ascii ['s'], [7, 4], [7, 2], [7], [8], .all⟩) [],
    connection (ascii ['t'])]

/-- The requester socket is connected twice. -/
theorem connected_twice :
    ∃ x, run Served.step (Served.start (Process.sample ⟨65, by decide⟩)) unadvertisedOne = some x ∧ ¬ x.Faithful := by
  have htwice : (run Served.step (Served.start (Process.sample ⟨65, by decide⟩)) unadvertisedOne).any (fun x =>
      x.links = [(.requester, [7, 4]), (.requester, [7, 4])]) = true := by decide +kernel
  obtain ⟨x, hx, htwice⟩ := exists_of_any htwice
  refine ⟨x, hx, fun hfaithful => ?_⟩
  have honce := hfaithful.once
  rw [htwice] at honce
  exact absurd honce (by decide)

end Steps

end NodeShared

end IgnTransport
