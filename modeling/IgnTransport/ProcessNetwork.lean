import Mathlib
import IgnTransport.Lib.Network
import IgnTransport.ProcessEffects
import IgnTransport.RequestLifetimes

/-!
# IgnTransport.ProcessNetwork — any number of processes and the messages of their sockets

Each process runs its nodes, its calls and its threads.  What the reception thread receives was sent by some process:
published data, control messages, requests and responses, that may be lost, delayed, duplicated and reordered.  A
message of a `ZMQ_ROUTER` socket goes to the identity in its first frame, a control message to the address that its
socket connected to.  What discovery delivers is left open.
-/

namespace IgnTransport

open Lib CallM

namespace ProcessNetwork

open NodeShared

/-! ## The network -/

section Network

/-- The processes: their shared objects and host addresses. -/
structure Group (ι : Type) where
  shared : ι → NodeShared
  hostAddr : ι → Str

/-- What happens to a process. -/
inductive Happening (ι : Type) where
  /-- An event of its own. -/
  | own (e : Requesters.Event)
  /-- `RecvMsgUpdate`, of data that `j` published.  It is not asked here whether the subscriber socket is connected and
  has a filter for the topic. -/
  | message (j : ι) (topic sender data : Str) (throwsAt : List ℕ)
  /-- `RecvControlUpdate`, of a message that `j` sent to a control address. -/
  | control (j : ι) (ctrl topic procUuid nodeUuid data : Str) (throwsAt : List ℕ)
  /-- `RecvSrvRequest`, of a request of `j`, and what the callback of the replier comes to. -/
  | request (j : ι) (responserId identity topic sender dstId nodeUuid reqUuid req : Str) (response : Str × Bool)
    (throwsAt : List ℕ)
  /-- `RecvSrvResponse`, of a response of `j`. -/
  | response (j : ι) (identity dstId topic nodeUuid reqUuid rep result : Str) (throwsAt : List ℕ)
  deriving DecidableEq, Repr

/-- The events that begin with a message. -/
def IsReception : Requesters.Event → Bool
  | .event e => match e.op with
    | .control .. => true
    | _ => false
  | .response .. => true
  | _ => false

/-- The reception thread handles a message; an exception ends the process. -/
def receive (c : Requesters) (throwsAt : List ℕ) (m : NodeM Unit) : Option (Requesters × List Effect) :=
  let (value, w) := m { state := c.process.shared, throwsAt }
  if value.toOption = none then none else some ({ c with process := { c.process with shared := w.state } }, w.effects)

variable {ι : Type}

/-- What a process does. -/
def program (_ : ι) (c : Requesters) : Happening ι → Option (Requesters × List Effect)
  | .own e => if IsReception e then none else c.exec e
  | .message _ topic sender data throwsAt => receive c throwsAt (recvMsgUpdate topic sender data)
  | .control _ ctrl topic procUuid nodeUuid data throwsAt =>
    if ctrl = c.process.shared.myControlAddress then
      c.exec (.event { op := .control topic procUuid nodeUuid data, throwsAt })
    else none
  | .request _ responserId identity topic sender dstId nodeUuid reqUuid req response throwsAt =>
    if responserId = c.process.shared.replierId then
      receive c throwsAt (recvSrvRequest (fun _ _ _ => response) identity topic sender dstId nodeUuid reqUuid req)
    else none
  | .response _ identity dstId topic nodeUuid reqUuid rep result throwsAt =>
    if dstId = c.process.shared.responseReceiverId then
      c.exec (.response identity topic nodeUuid reqUuid rep result throwsAt)
    else none

/-- The messages that must have been sent. -/
def consumes : Happening ι → List (ι × Effect)
  | .own _ => []
  | .message j topic sender data _ => [(j, .send .publisher [topic, sender, data])]
  | .control j ctrl topic procUuid nodeUuid data _ => [(j, .control ctrl [topic, procUuid, nodeUuid, data])]
  | .request j responserId _ topic sender dstId nodeUuid reqUuid req _ _ =>
    [(j, .send .requester [responserId, topic, sender, dstId, nodeUuid, reqUuid, req])]
  | .response j _ dstId topic nodeUuid reqUuid rep result _ =>
    [(j, .send .replier [dstId, topic, nodeUuid, reqUuid, rep, result])]

variable [DecidableEq ι]

/-- One step of the network. -/
def networkStep : Net ι Requesters Effect → NetEvent ι (Happening ι) → Option (Net ι Requesters Effect) :=
  netStep program consumes

/-- All processes at the start of the constructor of `NodeShared`. -/
def network (G : Group ι) : Net ι Requesters Effect where
  agents i := Requesters.start (G.shared i) (G.hostAddr i)

end Network

/-! ## What was done -/

section History

variable {ι : Type}

/-- The operation of the process. -/
def opOf : Happening ι → Option Process.Op
  | .own (.event e) => some e.op
  | .own (.call nUuid topic hUuid data _) => some (.request nUuid topic hUuid data)
  | .control _ _ topic procUuid nodeUuid data _ => some (.control topic procUuid nodeUuid data)
  | _ => none

variable [DecidableEq ι] (G : Group ι) (es : List (NetEvent ι (Happening ι))) (i : ι)

/-- At some time the process did an operation of this kind. -/
def Did (P : Process → Process.Op → Prop) : Prop :=
  Sometime networkStep (fun _ n e => e.agent = i ∧ ∃ op, opOf e.input = some op ∧ P (n.agents i).process op)
    (network G) es

/-- A node made a request handler for the service. -/
def Asked (t : Str) (h : ReqHandler) : Prop :=
  Did G es i fun p op => ∃ topic, op = .request h.nUuid topic h.hUuid h.data ∧ p.fqn h.nUuid topic = some t ∧
    p.shared.repliers.getFirstHandler t = none

/-- A node offered the service with this handler. -/
def Offered (t : Str) (h : RepHandler) : Prop :=
  Did G es i fun p op => ∃ n topic scope, op = .advertiseSrv n topic h.hUuid scope ∧ p.fqn n topic = some t

/-- A node subscribed to the topic with this handler. -/
def Subscribed (t : Str) (h : SubscriptionHandler) : Prop :=
  Did G es i fun p op => ∃ topic, op = .subscribe h.nUuid topic h.hUuid ∧ p.fqn h.nUuid topic = some t

/-- A node published the data on a topic that it had advertised. -/
def Published (t data : Str) : Prop := Did G es i fun p op => p.Publishes op t data

/-- The callback of a replier of the service came to this response when it ran on this request. -/
def Served (t req : Str) (r : RepHandler) (response : Str × Bool) : Prop :=
  Sometime networkStep (fun _ n e => e.agent = i ∧ (n.agents i).process.shared.repliers.getFirstHandler t = some r ∧
    ∃ j responserId identity sender dstId nodeUuid reqUuid throwsAt, e.input =
      .request j responserId identity t sender dstId nodeUuid reqUuid req response throwsAt) (network G) es

/-- The callback of a replier of the service came to this response when it ran on the request of this handler of
process `k`. -/
def Answered (k : ι) (t : Str) (h : ReqHandler) (r : RepHandler) (response : Str × Bool) : Prop :=
  Sometime networkStep (fun _ n e => e.agent = i ∧ (n.agents i).process.shared.repliers.getFirstHandler t = some r ∧
    ∃ responserId identity sender dstId throwsAt, e.input =
      .request k responserId identity t sender dstId h.nUuid h.hUuid h.data response throwsAt) (network G) es

variable {G es i} {P Q : Process → Process.Op → Prop}

theorem Answered.served {k : ι} {t : Str} {h : ReqHandler} {r : RepHandler} {response : Str × Bool}
    (ha : Answered G es i k t h r response) : Served G es i t h.data r response :=
  Sometime.mono ha fun _ _ _ ⟨hi, hr, responserId, identity, sender, dstId, throwsAt, hinput⟩ =>
    ⟨hi, hr, k, responserId, identity, sender, dstId, h.nUuid, h.hUuid, throwsAt, hinput⟩

theorem Did.concat (h : Did G es i P) (e : NetEvent ι (Happening ι)) : Did G (es ++ [e]) i P := Sometime.concat h e

theorem Did.mono (h : Did G es i P) (hPQ : ∀ p op, P p op → Q p op) : Did G es i Q :=
  Sometime.mono h fun _ _ _ ⟨hi, op, hop, hP⟩ => ⟨hi, op, hop, hPQ _ op hP⟩

/-- What a process did is older, or it is the operation that it does now. -/
theorem did_concat {n : Net ι Requesters Effect} {e : NetEvent ι (Happening ι)}
    (h : run networkStep (network G) es = some n) : Did G (es ++ [e]) i P ↔
      Did G es i P ∨ (e.agent = i ∧ ∃ op, opOf e.input = some op ∧ P (n.agents i).process op) := by
  refine sometime_concat.trans (or_congr_right ⟨?_, fun hnew => ⟨n, h, hnew⟩⟩)
  rintro ⟨m, hm, hnew⟩
  obtain rfl := Option.some.inj (h.symm.trans hm)
  exact hnew

end History

/-! ## One process -/

section Steps

variable {ι : Type} {i : ι} {c c' : Requesters} {out : List Effect} {throwsAt : List ℕ}

theorem program_own {e : Requesters.Event} (h : program i c (.own e) = some (c', out)) :
    IsReception e = false ∧ c.exec e = some (c', out) := by
  rw [program] at h
  split_ifs at h with hown
  exact ⟨by simpa using hown, h⟩

/-- What comes of a message. -/
theorem receive_eq_some {m : NodeM Unit} (h : receive c throwsAt m = some (c', out)) :
    ∃ w, m { state := c.process.shared, throwsAt } = (.ok (), w) ∧ out = w.effects ∧
      c' = { c with process := { c.process with shared := w.state } } := by
  unfold receive at h
  rcases hm : m { state := c.process.shared, throwsAt } with ⟨x | u, w⟩
  · rw [hm] at h
    cases h
  · rw [hm] at h
    obtain ⟨rfl, rfl⟩ := Prod.mk.inj (Option.some.inj h)
    exact ⟨w, rfl, rfl, rfl⟩

theorem receive_within {V : Type} (view : NodeShared → V) {Kind : Effect → Prop} {m : NodeM Unit}
    (hm : Within view (view c.process.shared) Kind m) (h : receive c throwsAt m = some (c', out)) :
    ∃ s, c' = { c with process := { c.process with shared := s } } ∧ view s = view c.process.shared ∧
      ∀ x ∈ out, Kind x := by
  obtain ⟨w, hw, rfl, rfl⟩ := receive_eq_some h
  obtain ⟨hview, effects, heffects, hkind⟩ := hm { state := c.process.shared, throwsAt } rfl
  rw [hw] at hview heffects
  refine ⟨w.state, rfl, hview, fun x hx => hkind x ?_⟩
  rw [heffects, List.nil_append] at hx
  exact hx

theorem within_recvFrames {V : Type} {view : NodeShared → V} {v : V} {Kind : Effect → Prop} (frames : List Str) :
    Within view v Kind (recvFrames frames) := (Within.forEach fun _ _ => within_attempt _).completes

/-- Published data runs the callbacks of the topic. -/
theorem program_message {j : ι} {topic sender data : Str}
    (h : program i c (.message j topic sender data throwsAt) = some (c', out)) : c' = c ∧
      ∀ x ∈ out, ∃ handler, x = .callback handler topic data ∧
        ∃ n u : Str, (c.process.shared.localSubscriptions.cell topic n)[u]? = some handler := by
  have hwithin : Within id c.process.shared (fun x => ∃ handler, x = .callback handler topic data ∧
      ∃ n u : Str, (c.process.shared.localSubscriptions.cell topic n)[u]? = some handler)
      (recvMsgUpdate topic sender data) := by
    refine (within_recvFrames _).bind fun received => ?_
    split_ifs
    · refine within_look fun s hs => ?_
      obtain rfl : s = c.process.shared := hs
      exact Process.within_callbacks _ fun handler hhandler => ⟨handler, rfl, hhandler⟩
    · exact within_pure ()
  obtain ⟨s, rfl, hs, hout⟩ := receive_within id hwithin h
  obtain rfl : s = c.process.shared := hs
  exact ⟨rfl, hout⟩

theorem program_control {j : ι} {ctrl topic procUuid nodeUuid data : Str}
    (h : program i c (.control j ctrl topic procUuid nodeUuid data throwsAt) = some (c', out)) :
    c.exec (.event { op := .control topic procUuid nodeUuid data, throwsAt }) = some (c', out) := by
  rw [program] at h
  split_ifs at h
  exact h

/-- The frames of a response. -/
def replyFrames (dstId topic nodeUuid reqUuid : Str) (response : Str × Bool) : List Str :=
  [dstId, topic, nodeUuid, reqUuid, response.1, resultStr response.2]

/-- What a replier does about a request. -/
def ReplyEffect (s : NodeShared) (topic sender dstId nodeUuid reqUuid req : Str) (response : Str × Bool)
    (x : Effect) : Prop :=
  ∃ r, s.repliers.getFirstHandler topic = some r ∧ (x = .serve r topic req ∨ x = .connect .replier (cStr sender) ∨
    x = .send .replier (replyFrames dstId topic nodeUuid reqUuid response))

theorem program_request {j : ι} {responserId identity topic sender dstId nodeUuid reqUuid req : Str}
    {response : Str × Bool} (h : program i c
      (.request j responserId identity topic sender dstId nodeUuid reqUuid req response throwsAt) = some (c', out)) :
    ∃ s, c' = { c with process := { c.process with shared := s } } ∧
      s.butSrvConnections = c.process.shared.butSrvConnections ∧
      ∀ x ∈ out, ReplyEffect c.process.shared topic sender dstId nodeUuid reqUuid req response x := by
  rw [program] at h
  split_ifs at h
  refine receive_within butSrvConnections ((within_recvFrames _).bind fun received => ?_) h
  split_ifs
  · refine within_look fun s hs => ?_
    have hrepliers : s.repliers = c.process.shared.repliers := congrArg (·.repliers) hs
    rw [hrepliers]
    cases hfirst : c.process.shared.repliers.getFirstHandler topic with
    | none => exact within_pure ()
    | some r =>
      refine (within_emit ⟨r, hfirst, .inl rfl⟩).bind fun _ => ?_
      refine Within.bind (within_look fun t _ => ?_) fun _ =>
        (within_sendFrames ⟨r, hfirst, .inr (.inr rfl)⟩).completes.bind fun _ => within_pure ()
      split_ifs
      · exact within_pure ()
      · exact (within_zmq ⟨r, hfirst, .inr (.inl rfl)⟩).bind fun _ => within_update fun _ h => h
  · exact within_pure ()

theorem program_response {j : ι} {identity dstId topic nodeUuid reqUuid rep result : Str}
    (h : program i c (.response j identity dstId topic nodeUuid reqUuid rep result throwsAt) = some (c', out)) :
    dstId = c.process.shared.responseReceiverId ∧
      c.exec (.response identity topic nodeUuid reqUuid rep result throwsAt) = some (c', out) := by
  rw [program] at h
  split_ifs at h with hid
  exact ⟨hid, h⟩

/-- What a process does with the data, requests and responses of others. -/
def IsReaction : Effect → Bool
  | .callback _ _ _ | .serve _ _ _ | .connect .replier _ | .send .replier _ | .notify _ _ _ _ => true
  | _ => false

/-- **What a process does** is an operation, or the destructor of a node, or it has nothing to do with discovery and
only reacts. -/
theorem program_cases {x : Happening ι} (h : program i c x = some (c', out)) :
    (∃ caller e, opOf x = some e.op ∧ c.issue caller e = some (c', out)) ∨
    (∃ nUuid q, x = .own (.destroy nUuid) ∧ c.process.destroyNode nUuid Process.noThrow = some q ∧
      c' = { c with process := q } ∧ out = c.process.destroyEffects nUuid) ∨
    (opOf x = none ∧ c'.process = { c.process with shared := c'.process.shared } ∧
      c'.process.shared.butServices = c.process.shared.butServices ∧ ∀ y ∈ out, IsReaction y = true) := by
  cases x with
  | own e =>
    obtain ⟨hown, hexec⟩ := program_own h
    cases e with
    | event e => exact .inl ⟨.callback, e, rfl, hexec⟩
    | call nUuid topic hUuid data throwsAt =>
      exact .inl ⟨.waiting, { op := .request nUuid topic hUuid data, throwsAt }, rfl, hexec⟩
    | ret hUuid =>
      obtain ⟨executed, -, heq⟩ := Requesters.ret_eq_some hexec
      obtain ⟨rfl, rfl⟩ := Prod.mk.inj heq
      exact .inr (.inr ⟨rfl, rfl, rfl, by simp⟩)
    | response identity topic nodeUuid reqUuid rep result throwsAt => cases hown
    | destroy nUuid =>
      obtain ⟨q, hq, heq⟩ := Option.map_eq_some_iff.mp hexec
      obtain ⟨rfl, rfl⟩ := Prod.mk.inj heq
      exact .inr (.inl ⟨nUuid, q, rfl, hq, rfl, rfl⟩)
  | message j topic sender data throwsAt =>
    obtain ⟨rfl, hout⟩ := program_message h
    refine .inr (.inr ⟨rfl, rfl, rfl, fun y hy => ?_⟩)
    obtain ⟨handler, rfl, -⟩ := hout y hy
    rfl
  | control j ctrl topic procUuid nodeUuid data throwsAt =>
    exact .inl ⟨.callback, { op := .control topic procUuid nodeUuid data, throwsAt }, rfl, program_control h⟩
  | request j responserId identity topic sender dstId nodeUuid reqUuid req response throwsAt =>
    obtain ⟨s, rfl, hbut, hout⟩ := program_request h
    refine .inr (.inr ⟨rfl, rfl, congrArg (fun s => s.butServices) hbut, fun y hy => ?_⟩)
    obtain ⟨r, -, rfl | rfl | rfl⟩ := hout y hy <;> rfl
  | response j identity dstId topic nodeUuid reqUuid rep result throwsAt =>
    obtain ⟨-, hexec⟩ := program_response h
    obtain ⟨v, w, hw, hcase⟩ := Requesters.recvSrvResponse_run identity topic nodeUuid reqUuid rep result
      c.process.shared throwsAt
    rw [Requesters.exec, hw] at hexec
    obtain ⟨rfl, rfl⟩ := Prod.mk.inj (Option.some.inj hexec)
    refine .inr (.inr ⟨rfl, rfl, ?_, fun y hy => ?_⟩)
    · rcases hcase with ⟨hstate, -⟩ | ⟨k, -, -, hstate⟩
      · rw [hstate]
      · rw [hstate]
        rfl
    · rcases hcase with ⟨-, heffects⟩ | ⟨k, -, heffects, -⟩
      · rw [heffects] at hy
        cases hy
      · rw [heffects] at hy
        rw [List.mem_singleton.mp hy]
        rfl

end Steps

/-! ## The tables and the messages of one process -/

section Tables

variable {ι : Type} [DecidableEq ι] (G : Group ι) (es : List (NetEvent ι (Happening ι))) (i : ι)

/-- Everything in the tables of a process was put there by its nodes. -/
structure Kept (p : Process) : Prop where
  pUuid : p.shared.pUuid = (G.shared i).pUuid
  myAddress : p.shared.myAddress = (G.shared i).myAddress
  myRequesterAddress : p.shared.myRequesterAddress = (G.shared i).myRequesterAddress
  responseReceiverId : p.shared.responseReceiverId = (G.shared i).responseReceiverId
  keyed : p.shared.Keyed
  requests : ∀ t n u h, p.shared.requests.getHandler t n u = some h → Asked G es i t h
  repliers : ∀ t n u r, p.shared.repliers.getHandler t n u = some r → Offered G es i t r
  subscriptions : ∀ t n u h, p.shared.localSubscriptions.getHandler t n u = some h → Subscribed G es i t h

/-- What a process does on its sockets and to its handlers was asked for by nodes: its own ones, and those that it
answers or hears of. -/
def Honest : Effect → Prop
  | .send .publisher frames => ∃ t data, Published G es i t data ∧ frames = [t, (G.shared i).myAddress, data]
  | .send .requester frames => ∃ t responserId h, Asked G es i t h ∧ frames = requestFrames (G.shared i) t responserId h
  | .send .replier frames => ∃ j t h r response, Asked G es j t h ∧ Offered G es i t r ∧
      Answered G es i j t h r response ∧
        frames = replyFrames (G.shared j).responseReceiverId t h.nUuid h.hUuid response
  | .control _ frames => ∃ t,
      (∃ h, Subscribed G es i t h ∧ frames = controlFrames t (G.shared i).pUuid h.nUuid NewConnection) ∨
      (∃ n, frames = controlFrames t (G.shared i).myAddress n EndConnection)
  | .callback h t data => Subscribed G es i t h ∧ ∃ j, Published G es j t data
  | .serve r t req => Offered G es i t r ∧ ∃ j h, Asked G es j t h ∧ h.data = req
  | .notify h t rep result => Asked G es i t h ∧ ∃ j r, Offered G es j t r ∧ Answered G es j i t h r (rep, result)
  | _ => True

variable {G es i} {p : Process} {e : Process.Event} {o : Process.Outcome}

theorem Kept.concat (h : Kept G es i p) (e : NetEvent ι (Happening ι)) : Kept G (es ++ [e]) i p :=
  { h with
    requests := fun t n u k hk => (h.requests t n u k hk).concat e
    repliers := fun t n u k hk => (h.repliers t n u k hk).concat e
    subscriptions := fun t n u k hk => (h.subscriptions t n u k hk).concat e }

theorem Honest.concat {x : Effect} (h : Honest G es i x) (e : NetEvent ι (Happening ι)) : Honest G (es ++ [e]) i x := by
  match x with
  | .send .publisher _ =>
    obtain ⟨t, data, hdata, hframes⟩ := h
    exact ⟨t, data, hdata.concat e, hframes⟩
  | .send .requester _ =>
    obtain ⟨t, responserId, k, hk, hframes⟩ := h
    exact ⟨t, responserId, k, hk.concat e, hframes⟩
  | .send .replier _ =>
    obtain ⟨j, t, k, r, response, hk, hr, hserved, hframes⟩ := h
    exact ⟨j, t, k, r, response, hk.concat e, hr.concat e, Sometime.concat hserved e, hframes⟩
  | .control _ _ =>
    obtain ⟨t, ⟨k, hk, hframes⟩ | hend⟩ := h
    · exact ⟨t, .inl ⟨k, hk.concat e, hframes⟩⟩
    · exact ⟨t, .inr hend⟩
  | .callback _ _ _ => exact ⟨h.1.concat e, h.2.imp fun j hj => hj.concat e⟩
  | .serve _ _ _ =>
    obtain ⟨hr, j, k, hk, hdata⟩ := h
    exact ⟨hr.concat e, j, k, hk.concat e, hdata⟩
  | .notify _ _ _ _ =>
    obtain ⟨hk, j, r, hr, hserved⟩ := h
    exact ⟨hk.concat e, j, r, hr.concat e, Sometime.concat hserved e⟩
  | .send .subscriber _ | .connect _ _ | .subscribe _ | .datagram _ | .disconnect _ _ | .unsubscribe _ => exact trivial

/-- The handlers that an operation works on: those of the table, and the one that it makes. -/
theorem asked_requestsAfter (hkept : Kept G es i p) {op : Process.Op}
    (hnew : ∀ P : Process → Process.Op → Prop, P p op → (∀ n, ¬ Process.IsRemoval n op) → Did G es i P)
    {t n u : Str} {h : ReqHandler} (hh : (p.requestsAfter op).getHandler t n u = some h) : Asked G es i t h := by
  rcases Process.getHandler_requestsAfter hh with hold | ⟨topic, data, rfl, hname, hreplier, rfl⟩
  · exact hkept.requests t n u h hold
  · refine hnew _ ⟨topic, rfl, hname, hreplier⟩ fun m hr => ?_
    obtain ⟨_, hr | hr | hr⟩ := hr <;> cases hr

/-- **An operation** keeps the tables, and what it does is honest. -/
theorem kept_exec (hkept : Kept G es i p) (h : p.exec e = some o)
    (hnew : ∀ P : Process → Process.Op → Prop, P p e.op → (∀ n, ¬ Process.IsRemoval n e.op) → Did G es i P) :
    Kept G es i o.process ∧ ∀ x ∈ o.effects, Honest G es i x := by
  obtain ⟨sent, hsent, hsub⟩ := Process.dispatches_exec h hkept.keyed
  obtain ⟨hsubscriptions, hpUuid, haddress, -⟩ := Process.core_exec h
  have hsubscribed : ∀ t n u k, o.process.shared.localSubscriptions.getHandler t n u = some k →
      Subscribed G es i t k := by
    intro t n u k hk
    rw [hsubscriptions] at hk
    rcases Process.getHandler_subscriptionsAfter hk with hold | ⟨topic, hop, hname⟩
    · exact hkept.subscriptions t n u k hold
    · refine hnew _ ⟨topic, hop, hname⟩ fun m hr => ?_
      obtain ⟨_, hr | hr | hr⟩ := hr <;> cases hop.symm.trans hr
  refine ⟨⟨hpUuid.trans hkept.pUuid, haddress.trans hkept.myAddress,
    hsent.myRequesterAddress.trans hkept.myRequesterAddress, hsent.responseReceiverId.trans hkept.responseReceiverId,
    Process.keyed_exec h hkept.keyed, fun t n u k hk => ?_, fun t n u r hr => ?_, hsubscribed⟩, fun x hx => ?_⟩
  · rw [hsent.handlers] at hk
    obtain ⟨k', hk', rfl⟩ := Option.map_eq_some_iff.mp hk
    have hasked := asked_requestsAfter hkept hnew hk'
    split_ifs <;> exact hasked
  · rw [Process.repliers_exec h] at hr
    rcases Process.getHandler_repliersAfter hr with hold | ⟨topic, scope, hop, hname⟩
    · exact hkept.repliers t n u r hold
    · refine hnew _ ⟨n, topic, scope, hop, hname⟩ fun m hremoval => ?_
      obtain ⟨_, hremoval | hremoval | hremoval⟩ := hremoval <;> cases hop.symm.trans hremoval
  · have hacted := Process.acted_exec h x hx
    have hpublished : ∀ t data, p.Publishes e.op t data → Published G es i t data := by
      rintro t data ⟨n, topic, node, hop, hnode⟩
      refine hnew _ ⟨n, topic, node, hop, hnode⟩ fun m hr => ?_
      obtain ⟨_, hr | hr | hr⟩ := hr <;> cases hop.symm.trans hr
    have hhandler : ∀ t k, p.HasHandler e.op t k → Subscribed G es i t k := by
      rintro t k ⟨n, u, hk⟩
      exact hsubscribed t n u k (by rw [hsubscriptions]; exact hk)
    match x, hacted with
    | .send .publisher _, ⟨t, data, hpublishes, hframes⟩ =>
      exact ⟨t, data, hpublished t data hpublishes, by rw [hframes, hkept.myAddress]⟩
    | .send .requester frames, _ =>
      have hmem : Effect.send .requester frames ∈ o.effects.filter IsRequest := List.mem_filter.mpr ⟨hx, rfl⟩
      obtain ⟨y, hy, heq⟩ := List.mem_map.mp (hsub.subset hmem)
      obtain ⟨-, rfl⟩ := Effect.send.inj heq
      refine ⟨y.topic, y.responderId, y.handler, asked_requestsAfter hkept hnew (hsent.stored y hy).1, ?_⟩
      rw [requestFrames, requestFrames, hkept.myRequesterAddress, hkept.responseReceiverId]
    | .control _ _, ⟨t, .inl ⟨k, hk, hframes⟩⟩ =>
      exact ⟨t, .inl ⟨k, hhandler t k hk, by rw [hframes, hkept.pUuid]⟩⟩
    | .control _ _, ⟨t, .inr ⟨n, topic, _, _, hframes⟩⟩ => exact ⟨t, .inr ⟨n, by rw [hframes, hkept.myAddress]⟩⟩
    | .callback k t data, ⟨hpublishes, hk⟩ => exact ⟨hhandler t k hk, i, hpublished t data hpublishes⟩
    | .datagram _, _ | .connect _ _, _ | .disconnect _ _, _ | .subscribe _, _ | .unsubscribe _, _ => exact trivial

/-- The destructor of a node goes through removals, one after another. -/
theorem destroyEffects_run {R : Process → List Effect → Prop} {n : Str} {q : Process} (hp : R p [])
    (hstep : ∀ q es e o, Process.IsRemoval n e.op → q.exec e = some o → R q es → R o.process (es ++ o.effects))
    (h : p.destroyNode n Process.noThrow = some q) :
    ∃ p₃, R p₃ (p.destroyEffects n) ∧ q = { p₃ with nodes := p₃.nodes.erase n } := by
  have hloop : ∀ (f : Str → Process.Op), (∀ topic, Process.IsRemoval n (f topic)) → ∀ (topics : List Str)
      (q q' : Process) (es : List Effect), R q es → q.forTopics f topics Process.noThrow = some q' →
        R q' (es ++ q.topicsEffects f topics) := by
    intro f hf topics
    induction topics with
    | nil =>
      intro q q' es hq hrun
      obtain rfl := Option.some.inj hrun
      rw [Process.topicsEffects, List.append_nil]
      exact hq
    | cons topic topics ih =>
      intro q q' es hq hrun
      obtain ⟨q₁, hq₁, hrest⟩ := run_cons_eq_some.mp hrun
      obtain ⟨o, -, ho, -, rfl⟩ := Process.stepNoexcept_eq_some.mp hq₁
      have heffects : q.topicsEffects f (topic :: topics) = o.effects ++ o.process.topicsEffects f topics := by
        rw [Process.topicsEffects, show q.exec { op := f topic } = some o from ho]
      rw [heffects, ← List.append_assoc]
      exact ih o.process q' _ (hstep q es _ o (hf topic) ho hq) hrest
  obtain ⟨-, p₁, p₂, p₃, ⟨h₁, -⟩, ⟨h₂, -⟩, ⟨h₃, -⟩, hq⟩ := Process.destroyNode_eq_some.mp h
  have hp₁ := hloop _ (fun topic => ⟨topic, .inl rfl⟩) _ _ _ _ hp h₁
  have hp₂ := hloop _ (fun topic => ⟨topic, .inr (.inl rfl)⟩) _ _ _ _ hp₁ h₂
  have hp₃ := hloop _ (fun topic => ⟨topic, .inr (.inr rfl)⟩) _ _ _ _ hp₂ h₃
  refine ⟨p₃, ?_, hq⟩
  rw [Process.destroyEffects, h₁, Option.elim_some, h₂, Option.elim_some, ← List.append_assoc]
  exact hp₃

/-- What every removal preserves, and what every removal does. -/
theorem destroyEffects_induct {R : Process → Prop} {Q : Effect → Prop} {n : Str} {q : Process} (hp : R p)
    (hstep : ∀ q e o, Process.IsRemoval n e.op → q.exec e = some o → R q → R o.process ∧ ∀ x ∈ o.effects, Q x)
    (h : p.destroyNode n Process.noThrow = some q) :
    (∃ p₃, R p₃ ∧ q = { p₃ with nodes := p₃.nodes.erase n }) ∧ ∀ x ∈ p.destroyEffects n, Q x := by
  obtain ⟨p₃, ⟨hp₃, heffects⟩, hq⟩ := destroyEffects_run (R := fun q es => R q ∧ ∀ x ∈ es, Q x)
    ⟨hp, fun x hx => (by cases hx)⟩ (fun q es e o hr hexec ⟨hR, hQ⟩ =>
      (hstep q e o hr hexec hR).imp_right fun hout => List.forall_mem_append.mpr ⟨hQ, hout⟩) h
  exact ⟨⟨p₃, hp₃, hq⟩, heffects⟩

end Tables

/-! ## Runs -/

section Runs

variable {ι : Type} [DecidableEq ι] {G : Group ι} {es : List (NetEvent ι (Happening ι))} {i : ι} {c : Requesters}
  {r : Requesters × List Effect} {n : Net ι Requesters Effect} {ev : NetEvent ι (Happening ι)}

/-- The invariant of a process: what is in its tables was asked for, and the UUID of a request handler is never used
again. -/
structure Sound (G : Group ι) (es : List (NetEvent ι (Happening ι))) (i : ι) (c : Requesters) : Prop where
  tracked : c.Tracked
  kept : Kept G es i c.process
  known : ∀ t h, Asked G es i t h → c.callers[h.hUuid]? ≠ none
  unique : ∀ t t' h h', Asked G es i t h → Asked G es i t' h' → h.hUuid = h'.hUuid →
    t = t' ∧ h.nUuid = h'.nUuid ∧ h.data = h'.data

theorem sound_start (G : Group ι) (i : ι) : Sound G [] i ((network G).agents i) := by
  have hno : ∀ t h, ¬ Asked G [] i t h := fun t h => not_sometime_nil
  refine ⟨Requesters.tracked_start _ _, ⟨rfl, rfl, rfl, rfl, (Process.waits_start _ _).keyed, fun t n u h hh => ?_,
    fun t n u h hh => ?_, fun t n u h hh => ?_⟩, fun t h ha => absurd ha (hno t h),
    fun t _ h _ ha => absurd ha (hno t h)⟩
  · exact absurd ⟨h, hh⟩ (Requesters.not_stored_start (G.shared i) (G.hostAddr i) t n u)
  · have hempty : ((network G).agents i).process.shared.repliers.getHandler t n u = none :=
      HandlerStorage.getHandler_of_empty t n (Table.cell_empty t n) u
    cases hempty.symm.trans hh
  · have hempty : ((network G).agents i).process.shared.localSubscriptions.getHandler t n u = none :=
      HandlerStorage.getHandler_of_empty t n (Table.cell_empty t n) u
    cases hempty.symm.trans hh

/-- The account of the callers only grows. -/
theorem callers_exec {e : Requesters.Event} (h : c.exec e = some r) (ht : c.Tracked) {u : Str}
    (hu : c.callers[u]? ≠ none) : r.1.callers[u]? ≠ none := by
  have hissue : ∀ caller e, c.issue caller e = some r → r.1.callers[u]? ≠ none := by
    intro caller e h
    obtain ⟨o, -, rfl, -⟩ := Requesters.issue_eq_some h
    dsimp only
    rw [Requesters.getElem?_callersAfter]
    split_ifs
    · exact Option.some_ne_none _
    · exact hu
  cases e with
  | event e => exact hissue _ _ h
  | call nUuid topic hUuid data throwsAt => exact hissue _ _ h
  | ret hUuid =>
    obtain ⟨executed, -, rfl⟩ := Requesters.ret_eq_some h
    dsimp only
    rw [getElem?_insert']
    split_ifs
    · exact Option.some_ne_none _
    · exact hu
  | response identity topic nodeUuid reqUuid rep result throwsAt =>
    rcases Requesters.response_eq_some h ht with rfl | ⟨k, -, -, -, hcallers, -⟩
    · exact hu
    · rw [hcallers]
      split_ifs
      · rwa [Ne, Option.map_eq_none_iff]
      · exact hu
  | destroy nUuid =>
    obtain ⟨p, -, rfl⟩ := Option.map_eq_some_iff.mp h
    exact hu

/-- An event that is no operation asks for nothing. -/
theorem Sound.aside (hs : Sound G es i c)
    (hop : opOf ev.input = none ∨ ev.agent ≠ i) {c' : Requesters} (ht : c'.Tracked)
    (hkept : Kept G (es ++ [ev]) i c'.process) (hcallers : ∀ u : Str, c.callers[u]? ≠ none → c'.callers[u]? ≠ none) :
    Sound G (es ++ [ev]) i c' := by
  have hold : ∀ t h, Asked G (es ++ [ev]) i t h → Asked G es i t h := by
    intro t h ha
    refine (sometime_concat.mp ha).resolve_right ?_
    rintro ⟨m, -, hi, op, hsome, -⟩
    rcases hop with hop | hne
    · rw [hop] at hsome
      cases hsome
    · exact hne hi
  exact ⟨ht, hkept, fun t h ha => hcallers _ (hs.known t h (hold t h ha)),
    fun t t' h h' ha ha' => hs.unique t t' h h' (hold t h ha) (hold t' h' ha')⟩

/-- An operation may make one request handler, under a new UUID. -/
theorem sound_issue (hs : Sound G es i c) (hrun : run networkStep (network G) es = some n) (hagent : ev.agent = i)
    (hc : n.agents i = c) {caller : Caller} (hcaller : caller = .callback ∨ caller = .waiting)
    {e : Process.Event} (hop : opOf ev.input = some e.op) (h : c.issue caller e = some r) :
    Sound G (es ++ [ev]) i r.1 ∧ ∀ x ∈ r.2, Honest G (es ++ [ev]) i x := by
  have ht := Requesters.tracked_issue hcaller h hs.tracked
  obtain ⟨o, ho, rfl, hnew⟩ := Requesters.issue_eq_some h
  have hdone : ∀ P : Process → Process.Op → Prop, P c.process e.op → Did G (es ++ [ev]) i P := fun P hP =>
    (did_concat hrun).mpr (.inr ⟨hagent, e.op, hop, by rw [hc]; exact hP⟩)
  obtain ⟨hkept, hhonest⟩ := kept_exec (hs.kept.concat ev) ho fun P hP _ => hdone P hP
  have hcases : ∀ t h, Asked G (es ++ [ev]) i t h → Asked G es i t h ∨ (c.process.Makes e.op t h.nUuid h.hUuid ∧
      ∃ topic, e.op = .request h.nUuid topic h.hUuid h.data) := by
    intro t h ha
    rcases (did_concat hrun).mp ha with hold | ⟨-, op, hsome, topic, rfl, hname, hreplier⟩
    · exact .inl hold
    · rw [hop] at hsome
      have heq := Option.some.inj hsome
      rw [hc] at hname hreplier
      exact .inr ⟨⟨topic, h.data, heq, hname, hreplier⟩, topic, heq⟩
  refine ⟨⟨ht, hkept, fun t h ha => ?_, fun t t' h h' ha ha' hu => ?_⟩, hhonest⟩
  · dsimp only
    rw [Requesters.getElem?_callersAfter]
    rcases hcases t h ha with hold | ⟨hmakes, -⟩
    · split_ifs
      · exact Option.some_ne_none _
      · exact hs.known t h hold
    · rw [if_pos (Process.madeHandler_eq_some_iff.mpr ⟨_, _, hmakes⟩)]
      exact Option.some_ne_none _
  · rcases hcases t h ha with hold | ⟨hmakes, topic, heq⟩
    · rcases hcases t' h' ha' with hold' | ⟨hmakes', -⟩
      · exact hs.unique t t' h h' hold hold' hu
      · exact absurd (hnew _ _ _ hmakes') (hu ▸ hs.known t h hold)
    · rcases hcases t' h' ha' with hold' | ⟨hmakes', topic', heq'⟩
      · exact absurd (hnew _ _ _ hmakes) (hu.symm ▸ hs.known t' h' hold')
      · obtain ⟨rfl, -⟩ := hmakes.unique (hu ▸ hmakes')
        obtain ⟨hn, -, -, hdata⟩ := Process.Op.request.inj (heq.symm.trans heq')
        exact ⟨rfl, hn, hdata⟩

/-- An operation of the process, a call or a control message. -/
theorem sound_exec (hs : Sound G es i c) (hrun : run networkStep (network G) es = some n) (hagent : ev.agent = i)
    (hc : n.agents i = c) {e : Requesters.Event} (hev : ev.input = .own e) (hown : IsReception e = false)
    (h : c.exec e = some r) : Sound G (es ++ [ev]) i r.1 ∧ ∀ x ∈ r.2, Honest G (es ++ [ev]) i x := by
  have ht := Requesters.tracked_exec h hs.tracked
  have hcallers : ∀ u : Str, c.callers[u]? ≠ none → r.1.callers[u]? ≠ none := fun u => callers_exec h hs.tracked
  cases e with
  | event e => exact sound_issue hs hrun hagent hc (.inl rfl) (by rw [hev]; rfl) h
  | call nUuid topic hUuid data throwsAt => exact sound_issue hs hrun hagent hc (.inr rfl) (by rw [hev]; rfl) h
  | ret hUuid =>
    obtain ⟨executed, -, rfl⟩ := Requesters.ret_eq_some h
    exact ⟨hs.aside (.inl (by rw [hev]; rfl)) ht (hs.kept.concat ev) hcallers, by simp⟩
  | response identity topic nodeUuid reqUuid rep result throwsAt => cases hown
  | destroy nUuid =>
    obtain ⟨q, hq, rfl⟩ := Option.map_eq_some_iff.mp h
    obtain ⟨⟨p₃, hp₃, rfl⟩, hhonest⟩ := destroyEffects_induct (R := Kept G (es ++ [ev]) i)
      (Q := Honest G (es ++ [ev]) i) (hs.kept.concat ev)
      (fun q e o hr hexec hq => kept_exec hq hexec fun P _ hno => absurd hr (hno nUuid)) hq
    exact ⟨hs.aside (.inl (by rw [hev]; rfl)) ht { hp₃ with } hcallers, hhonest⟩

/-- A request of another process. -/
theorem sound_request (hs : Sound G es i c) (hrun : run networkStep (network G) es = some n) (hagent : ev.agent = i)
    (hc : n.agents i = c) {j : ι} {responserId identity topic sender dstId nodeUuid reqUuid req : Str}
    {response : Str × Bool} {throwsAt : List ℕ} (hev : ev.input =
      .request j responserId identity topic sender dstId nodeUuid reqUuid req response throwsAt)
    (hwire : Honest G es j (.send .requester [responserId, topic, sender, dstId, nodeUuid, reqUuid, req]))
    (h : program i c ev.input = some r) :
    Sound G (es ++ [ev]) i r.1 ∧ ∀ x ∈ r.2, Honest G (es ++ [ev]) i x := by
  obtain ⟨c', out⟩ := r
  rw [hev] at h
  obtain ⟨s, rfl, hbut, hout⟩ := program_request h
  -- only the service connections have changed
  have hs' : s = { c.process.shared with srvConnections := s.srvConnections } :=
    congrArg (fun t : NodeShared => { t with srvConnections := s.srvConnections }) hbut
  rw [hs']
  refine ⟨hs.aside (.inl (by rw [hev]; rfl)) { hs.tracked with } { hs.kept.concat ev with } fun _ hu => hu,
    fun x hx => ?_⟩
  obtain ⟨t, responderId, k, hasked, hframes⟩ := hwire
  simp only [requestFrames, List.cons.injEq, and_true] at hframes
  obtain ⟨-, rfl, -, rfl, rfl, rfl, rfl⟩ := hframes
  obtain ⟨q, hfirst, hx⟩ := hout x hx
  obtain ⟨m, u, hq⟩ := Process.exists_getHandler_of_first hfirst
  have hoffered := (hs.kept.repliers _ _ _ _ hq).concat ev
  rcases hx with rfl | rfl | rfl
  · exact ⟨hoffered, j, k, hasked.concat ev, rfl⟩
  · exact trivial
  · refine ⟨j, topic, k, q, response, hasked.concat ev, hoffered, sometime_concat.mpr (.inr ⟨n, hrun, hagent, ?_, ?_⟩),
      rfl⟩
    · rw [hc]
      exact hfirst
    · exact ⟨_, identity, sender, _, throwsAt, hev⟩

/-- A response, that is for this process alone. -/
theorem sound_response (hids : Function.Injective fun i => (G.shared i).responseReceiverId) (hs : Sound G es i c)
    {j : ι} {identity dstId topic nodeUuid reqUuid rep result : Str} {throwsAt : List ℕ}
    (hev : ev.input = .response j identity dstId topic nodeUuid reqUuid rep result throwsAt)
    (hwire : Honest G es j (.send .replier [dstId, topic, nodeUuid, reqUuid, rep, result]))
    (h : program i c ev.input = some r) :
    Sound G (es ++ [ev]) i r.1 ∧ ∀ x ∈ r.2, Honest G (es ++ [ev]) i x := by
  obtain ⟨c', out⟩ := r
  rw [hev] at h
  obtain ⟨hid, hexec⟩ := program_response h
  have ht := Requesters.tracked_exec hexec hs.tracked
  have hcallers : ∀ u : Str, c.callers[u]? ≠ none → c'.callers[u]? ≠ none := fun u => callers_exec hexec hs.tracked
  have haside : Kept G (es ++ [ev]) i c'.process → Sound G (es ++ [ev]) i c' := fun hkept =>
    hs.aside (.inl (by rw [hev]; rfl)) ht hkept hcallers
  obtain ⟨v, w, hw, hcase⟩ := Requesters.recvSrvResponse_run identity topic nodeUuid reqUuid rep result
    c.process.shared throwsAt
  rw [Requesters.exec, hw] at hexec
  obtain ⟨rfl, rfl⟩ := Prod.mk.inj (Option.some.inj hexec)
  dsimp only at haside
  rcases hcase with ⟨hstate, heffects⟩ | ⟨k, hk, heffects, hstate⟩
  · rw [hstate] at haside
    rw [hstate, heffects]
    rw [heffects] at haside
    exact ⟨haside (hs.kept.concat ev), by simp⟩
  · rw [hstate] at haside
    rw [hstate, heffects]
    rw [heffects] at haside
    have hsub : ∀ t n u h,
        (c.process.shared.requests.removeHandler topic nodeUuid reqUuid).1.getHandler t n u = some h →
          c.process.shared.requests.getHandler t n u = some h := by
      intro t n u h hh
      rw [HandlerStorage.getHandler_removeHandler] at hh
      split_ifs at hh
      exact hh
    have hkept := hs.kept.concat ev
    refine ⟨haside { hkept with
      keyed := fun t n u h hh => hkept.keyed t n u h (hsub t n u h hh)
      requests := fun t n u h hh => hkept.requests t n u h (hsub t n u h hh) }, fun x hx => ?_⟩
    obtain rfl := List.mem_singleton.mp hx
    -- the response is for a handler with the same UUID, so for this one
    obtain ⟨m, t, k', q, response, hasked, hoffered, hanswered, hframes⟩ := hwire
    simp only [replyFrames, List.cons.injEq, and_true] at hframes
    obtain ⟨hdst, rfl, rfl, rfl, rfl, rfl⟩ := hframes
    have hsame := hid.trans (congrArg Subtype.val hs.kept.responseReceiverId)
    obtain rfl : m = i := hids (Subtype.ext (hdst.symm.trans hsame))
    have hmine := hs.kept.requests _ _ _ _ hk
    have huuid : k'.hUuid = k.hUuid := (hs.kept.keyed _ _ _ _ hk).2.symm
    obtain ⟨-, hnode, hdata⟩ := hs.unique _ _ _ _ hasked hmine huuid
    have hresult : decide (resultStr response.2 = resultStr true) = response.2 := by
      cases response.2 <;> decide
    refine ⟨hmine.concat ev, j, q, hoffered.concat ev, ?_⟩
    rw [hresult, Answered, ← hdata, ← hnode, ← huuid]
    exact Sometime.concat hanswered ev

/-- **One step** of any process. -/
theorem sound_step (hids : Function.Injective fun i => (G.shared i).responseReceiverId)
    (hrun : run networkStep (network G) es = some n) (hs : Sound G es ev.agent (n.agents ev.agent))
    (hwire : ∀ x ∈ consumes ev.input, Honest G es x.1 x.2)
    (h : program ev.agent (n.agents ev.agent) ev.input = some r) :
    Sound G (es ++ [ev]) ev.agent r.1 ∧ ∀ x ∈ r.2, Honest G (es ++ [ev]) ev.agent x := by
  obtain ⟨c', out⟩ := r
  cases hev : ev.input with
  | own e =>
    rw [hev] at h
    obtain ⟨hown, hexec⟩ := program_own h
    exact sound_exec hs hrun rfl rfl hev hown hexec
  | message j topic sender data throwsAt =>
    rw [hev] at h hwire
    obtain ⟨rfl, hout⟩ := program_message h
    refine ⟨hs.aside (.inl (by rw [hev]; rfl)) hs.tracked (hs.kept.concat ev) fun _ hu => hu, fun x hx => ?_⟩
    obtain ⟨handler, rfl, m, u, hhandler⟩ := hout x hx
    obtain ⟨t, d, hpublished, hframes⟩ := hwire _ (List.mem_singleton.mpr rfl)
    simp only [List.cons.injEq, and_true] at hframes
    obtain ⟨rfl, -, rfl⟩ := hframes
    exact ⟨(hs.kept.subscriptions _ m u _ hhandler).concat ev, j, hpublished.concat ev⟩
  | control j ctrl topic procUuid nodeUuid data throwsAt =>
    rw [hev] at h
    exact sound_issue hs hrun rfl rfl (.inl rfl) (by rw [hev]; rfl) (program_control h)
  | request j responserId identity topic sender dstId nodeUuid reqUuid req response throwsAt =>
    refine sound_request hs hrun rfl rfl hev (hwire (j, _) ?_) h
    rw [hev]
    exact List.mem_singleton.mpr rfl
  | response j identity dstId topic nodeUuid reqUuid rep result throwsAt =>
    refine sound_response hids hs hev (hwire (j, _) ?_) h
    rw [hev]
    exact List.mem_singleton.mpr rfl

/-- **In every state of the network** the tables of all processes are sound, and all messages honest. -/
theorem sound_run (hids : Function.Injective fun i => (G.shared i).responseReceiverId)
    (h : run networkStep (network G) es = some n) :
    (∀ i, Sound G es i (n.agents i)) ∧ ∀ x ∈ n.sent, Honest G es x.1 x.2 := by
  refine net_invariant (Sound G) (Honest G) (sound_start G) rfl (fun pre e i c hi hs => ?_)
    (fun pre e j x hx => hx.concat e) (fun pre m e c' out hpre hs hwire hprogram => ?_) h
  · exact hs.aside (.inr (Ne.symm hi)) hs.tracked (hs.kept.concat e) fun _ hu => hu
  · exact sound_step hids hpre hs hwire hprogram

end Runs

/-! ## Two processes -/

section Sample

/-- Two processes, each with its own letter. -/
def pairGroup : Group Bool where
  shared j := if j then Process.sample Process.letterB else Process.sample Process.letterA
  hostAddr _ := []

theorem pair_injective : Function.Injective fun i => (pairGroup.shared i).responseReceiverId := by
  unfold Function.Injective
  decide

end Sample

end ProcessNetwork

end IgnTransport
