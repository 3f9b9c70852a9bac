import Mathlib
import IgnTransport.Reception
import IgnTransport.StrandedRequests

/-!
# IgnTransport.RequestLifetimes — request handlers, and the calls and nodes that they belong to

`Request` stores a handler, and only the response takes it out again.  A blocking `Request` that times out returns
without its handler, and the destructor of a node does not look at the requests.

* `table_live_iff`: along a run every stored handler belongs to a node that exists and to no call that has returned,
  exactly when no call times out and no node ends while it has a handler.
-/

namespace IgnTransport

open Lib CallM

/-! ## Calls -/

section State

/-- Who the response of a request handler is for. -/
inductive Caller where
  /-- The callback of a non-blocking `Request`. -/
  | callback
  /-- A blocking `Request`, in `WaitUntil`. -/
  | waiting
  /-- A blocking `Request` that has not woken up to its response. -/
  | answered
  /-- A blocking `Request` that returned, with this value: false for a timeout. -/
  | returned (executed : Bool)
  deriving DecidableEq, Repr

/-- `NotifyResult`: the response is available. -/
def Caller.notifyResult : Caller → Caller
  | .waiting => .answered
  | caller => caller

/-- A process, and for every request handler that was made in it, by its UUID, who the response is for. -/
structure Requesters where
  process : Process
  callers : StrMap Caller := ∅

namespace Process

/-- The UUID of the handler that `Request` makes: none if its name is not valid or a responder is in the process. -/
def madeHandler (p : Process) : Op → Option Str
  | .request nUuid topic hUuid _ => (p.fqn nUuid topic).bind fun name =>
      if (p.shared.repliers.getFirstHandler name).isSome then none else some hUuid
  | _ => none

/-- The effects of one loop of the destructor when no ZeroMQ call throws. -/
def topicsEffects (p : Process) (op : Str → Op) : List Str → List Effect
  | [] => []
  | topic :: topics =>
    match p.exec { op := op topic } with
    | none => []
    | some o => o.effects ++ topicsEffects o.process op topics

/-- The effects of the destructor. -/
def destroyEffects (p : Process) (n : Str) : List Effect :=
  p.topicsEffects (.unsubscribe n) (p.subscribedTopics n) ++
    (p.forTopics (.unsubscribe n) (p.subscribedTopics n) noThrow).elim [] fun p =>
      p.topicsEffects (.unadvertise n) (p.advertisedTopics n) ++
        (p.forTopics (.unadvertise n) (p.advertisedTopics n) noThrow).elim [] fun p =>
          p.topicsEffects (.unadvertiseSrv n) (p.advertisedServices n)

end Process

namespace Requesters

def start (shared : NodeShared) (hostAddr : Str) : Requesters where
  process := Process.start shared hostAddr

/-- What can happen. -/
inductive Event where
  /-- An operation of the process; `Request` is a non-blocking one. -/
  | event (e : Process.Event)
  /-- A blocking `Request`, up to its wait. -/
  | call (nUuid topic hUuid data : Str) (throwsAt : List ℕ)
  /-- The end of its wait. -/
  | ret (hUuid : Str)
  /-- `RecvSrvResponse`, of a message with these frames. -/
  | response (identity topic nodeUuid reqUuid rep result : Str) (throwsAt : List ℕ)
  /-- `~Node`. -/
  | destroy (nUuid : Str)
  deriving DecidableEq, Repr

variable (c : Requesters)

/-- The callers after an operation. -/
def callersAfter (caller : Caller) (op : Process.Op) : StrMap Caller :=
  match c.process.madeHandler op with
  | none => c.callers
  | some hUuid => c.callers.insert hUuid caller

/-- An operation; the UUID of a handler is new. -/
def issue (caller : Caller) (e : Process.Event) : Option (Requesters × List Effect) := do
  guard (∀ hUuid ∈ c.process.madeHandler e.op, hUuid ∉ c.callers)
  let o ← c.process.exec e
  return ({ process := o.process, callers := c.callersAfter caller e.op }, o.effects)

/-- Who is told by an effect. -/
def hear (callers : StrMap Caller) : Effect → StrMap Caller
  | .notify reqHandler _ _ _ => callers.modify reqHandler.hUuid Caller.notifyResult
  | _ => callers

/-- The state after an event, and the effects. -/
def exec : Event → Option (Requesters × List Effect)
  | .event e => c.issue .callback e
  | .call nUuid topic hUuid data throwsAt => c.issue .waiting { op := .request nUuid topic hUuid data, throwsAt }
  | .ret hUuid =>
    match c.callers[hUuid]? with
    -- The timeout expired.
    | some .waiting => some ({ c with callers := c.callers.insert hUuid (.returned false) }, [])
    | some .answered => some ({ c with callers := c.callers.insert hUuid (.returned true) }, [])
    | _ => none
  | .response identity topic nodeUuid reqUuid rep result throwsAt =>
    -- It returns, whatever it receives.
    let (_, w) := NodeShared.recvSrvResponse identity topic nodeUuid reqUuid rep result
      { state := c.process.shared, throwsAt }
    some ({ process := { c.process with shared := w.state }, callers := w.effects.foldl hear c.callers }, w.effects)
  -- An exception in a destructor ends the process.
  | .destroy nUuid => (c.process.destroyNode nUuid Process.noThrow).map fun p =>
      ({ c with process := p }, c.process.destroyEffects nUuid)

def step (e : Event) : Option Requesters := (c.exec e).map Prod.fst

/-! ### What is wanted -/

/-- Somebody is there for the response: the node of the handler, and its call if it has one. -/
def Awaits (h : ReqHandler) : Prop :=
  h.nUuid ∈ c.process.nodes ∧ ∀ executed, c.callers[h.hUuid]? ≠ some (.returned executed)

/-- Every stored handler belongs to a node that exists, and to no call that has returned. -/
def Live : Prop := ∀ t n u h, c.process.shared.requests.getHandler t n u = some h → c.Awaits h

/-- Only requests of such handlers are sent, and only such handlers are told of a response. -/
structure ActsLive (es : List Effect) : Prop where
  requests : ∀ frames, Effect.send .requester frames ∈ es → ∃ topic responserId h,
    frames = NodeShared.requestFrames c.process.shared topic responserId h ∧ c.Awaits h
  notices : ∀ h topic rep result, Effect.notify h topic rep result ∈ es → c.Awaits h

/-- No call times out, and no node ends while a handler of it is stored. -/
def KeepsLive : Event → Prop
  | .ret hUuid => c.callers[hUuid]? ≠ some .waiting
  | .destroy nUuid => ∀ t u, c.process.shared.requests.getHandler t nUuid u = none
  | _ => True

end Requesters

end State

/-! ## The handlers that are stored -/

section Stored

namespace Process

open NodeShared

variable {p : Process} {e : Event} {o : Outcome} {op : Op} {t n u : Str}

/-- A handler is stored. -/
def Stored (p : Process) (t n u : Str) : Prop := ∃ h, p.shared.requests.getHandler t n u = some h

/-- An operation makes a handler. -/
def Makes (p : Process) (op : Op) (t n u : Str) : Prop := ∃ topic data,
  op = .request n topic u data ∧ p.fqn n topic = some t ∧ p.shared.repliers.getFirstHandler t = none

theorem madeHandler_eq_some_iff : p.madeHandler op = some u ↔ ∃ t n, p.Makes op t n u := by
  constructor
  · intro hmade
    cases op with
    | request nUuid topic hUuid data =>
      obtain ⟨name, hname, hmade⟩ := Option.bind_eq_some_iff.mp hmade
      split_ifs at hmade with hreplier
      obtain rfl := Option.some.inj hmade
      exact ⟨name, nUuid, topic, data, rfl, hname, by simpa using hreplier⟩
    | _ => cases hmade
  · rintro ⟨t, n, topic, data, rfl, hname, hreplier⟩
    simp only [madeHandler, hname, Option.bind_some, hreplier, Option.isSome_none, Bool.false_eq_true, if_false]

theorem Makes.unique {t' n' u' : Str} (h : p.Makes op t n u) (h' : p.Makes op t' n' u') : t = t' ∧ n = n' ∧ u = u' := by
  obtain ⟨topic, data, rfl, hname, -⟩ := h
  obtain ⟨topic', data', heq, hname', -⟩ := h'
  cases heq
  exact ⟨Option.some.inj (hname.symm.trans hname'), rfl, rfl⟩

/-- The node that makes a handler exists. -/
theorem Makes.node (h : p.Makes op t n u) : n ∈ p.nodes := by
  obtain ⟨topic, data, -, hname, -⟩ := h
  exact Std.ExtTreeMap.mem_iff_isSome_getElem?.mpr (isSome_node_of_fqn hname)

theorem stored_requestsAfter : (∃ h, (p.requestsAfter op).getHandler t n u = some h) ↔
    p.Stored t n u ∨ p.Makes op t n u := by
  constructor
  · rintro ⟨h, hh⟩
    rcases getHandler_requestsAfter hh with hold | ⟨topic, data, hop, hname, hreplier, -⟩
    · exact .inl ⟨h, hold⟩
    · exact .inr ⟨topic, data, hop, hname, hreplier⟩
  · rintro (⟨h, hh⟩ | ⟨topic, data, rfl, hname, hreplier⟩)
    · -- a handler that is there is not replaced
      refine ⟨h, ?_⟩
      cases op with
      | request nUuid topic hUuid data =>
        dsimp only [requestsAfter]
        split
        · exact hh
        · split_ifs
          · exact hh
          · rw [HandlerStorage.getHandler_addHandler, hh, if_neg]
            simp
      | _ => exact hh
    · simp only [requestsAfter, hname, hreplier, Option.isSome_none, Bool.false_eq_true, if_false,
        HandlerStorage.getHandler_addHandler, true_and]
      cases hold : p.shared.requests.getHandler t n u with
      | none => exact ⟨_, if_pos ⟨rfl, rfl⟩⟩
      | some h => exact ⟨h, if_neg fun hc => by cases hc.2⟩

/-- No operation takes a handler out. -/
theorem stored_exec (h : p.exec e = some o) (hkeyed : p.shared.Keyed) :
    o.process.Stored t n u ↔ p.Stored t n u ∨ p.Makes e.op t n u := by
  obtain ⟨sent, hsent, -⟩ := dispatches_exec h hkeyed
  refine Iff.trans ?_ stored_requestsAfter
  unfold Stored
  rw [hsent.handlers]
  simp

theorem keyed_exec (h : p.exec e = some o) (hkeyed : p.shared.Keyed) : o.process.shared.Keyed := by
  obtain ⟨sent, hsent, -⟩ := dispatches_exec h hkeyed
  exact hsent.keyed (keyed_requestsAfter hkeyed e.op)

/-- The requests that an operation sends are those of handlers that are stored, or that it makes. -/
theorem requests_exec (h : p.exec e = some o) (hkeyed : p.shared.Keyed) {frames : List Str}
    (hframes : Effect.send .requester frames ∈ o.effects) : ∃ topic responserId h,
      frames = requestFrames p.shared topic responserId h ∧
        (p.Stored topic h.nUuid h.hUuid ∨ p.Makes e.op topic h.nUuid h.hUuid) := by
  obtain ⟨sent, hsent, hsub⟩ := dispatches_exec h hkeyed
  have hmem : Effect.send .requester frames ∈ o.effects.filter IsRequest := List.mem_filter.mpr ⟨hframes, rfl⟩
  obtain ⟨x, hx, heq⟩ := List.mem_map.mp (hsub.subset hmem)
  obtain ⟨-, heq⟩ := Effect.send.inj heq
  exact ⟨x.topic, x.responderId, x.handler, heq.symm, stored_requestsAfter.mp ⟨_, (hsent.stored x hx).1⟩⟩

/-! ### The destructor -/

/-- The destructor of a node leaves the requests alone. -/
theorem removal_exec (h : p.exec e = some o) (hr : IsRemoval n e.op) :
    o.process.shared.requests = p.shared.requests ∧ ∀ x ∈ o.effects, UsesRequester x = false := by
  obtain ⟨r, hperform, rfl, -⟩ := exec_eq_some h
  have hserviced := serviced_perform hperform
  have hrequests : r.1.shared.requests = p.shared.requests := by
    rw [hserviced.requests]
    obtain ⟨topic, hr | hr | hr⟩ := hr <;> rw [hr] <;> rfl
  cases hserviced.program with
  | discovered dop out hop hout hprogram =>
    have hdatagrams := isDatagram_removal hr hop hout
    have hwithin : Within id r.1.shared (fun x => UsesRequester x = false) r.2 := by
      rw [hprogram]
      exact (within_reactAll_datagrams _ _ hdatagrams).bind fun _ => within_pure true
    obtain ⟨hstate, heffects⟩ := finish_within hwithin e.throwsAt
    exact ⟨(congrArg (·.requests) hstate).trans hrequests, heffects⟩
  | known nUuid topic hUuid data name hop =>
    obtain ⟨_, hr | hr | hr⟩ := hr <;> cases hr.symm.trans hop
  | quiet hquiet =>
    obtain ⟨hstate, heffects⟩ := finish_within (hquiet r.1.shared) e.throwsAt
    exact ⟨(congrArg (·.requests) hstate).trans hrequests, heffects⟩

theorem topicsEffects_quiet {f : Str → Op} (hf : ∀ topic, IsRemoval n (f topic)) (topics : List Str) (p : Process) :
    ∀ x ∈ p.topicsEffects f topics, UsesRequester x = false := by
  induction topics generalizing p with
  | nil => simp [topicsEffects]
  | cons topic topics ih =>
    rw [topicsEffects]
    cases hexec : p.exec { op := f topic } with
    | none => simp
    | some o => exact List.forall_mem_append.mpr ⟨(removal_exec hexec (hf topic)).2, ih o.process⟩

theorem destroyEffects_quiet (p : Process) (n : Str) : ∀ x ∈ p.destroyEffects n, UsesRequester x = false := by
  have helim : ∀ (q : Option Process) (f : Process → List Effect), (∀ p, ∀ x ∈ f p, UsesRequester x = false) →
      ∀ x ∈ q.elim [] f, UsesRequester x = false := by
    intro q f hf
    cases q with
    | none => simp
    | some q => exact hf q
  refine List.forall_mem_append.mpr ⟨topicsEffects_quiet (fun topic => ⟨topic, .inl rfl⟩) _ _, ?_⟩
  refine helim _ _ fun p₁ => List.forall_mem_append.mpr ⟨?_, helim _ _ fun p₂ => ?_⟩
  · exact topicsEffects_quiet (fun topic => ⟨topic, .inr (.inl rfl)⟩) _ _
  · exact topicsEffects_quiet (fun topic => ⟨topic, .inr (.inr rfl)⟩) _ _

theorem requests_destroyNode {q : Process} (h : p.destroyNode n noThrow = some q) :
    q.shared.requests = p.shared.requests ∧ n ∉ q.nodes ∧ ∀ m ∈ p.nodes, m ≠ n → m ∈ q.nodes := by
  obtain ⟨q, ⟨hrequests, hnodes⟩, rfl⟩ := destroyNode_induct
    (R := fun q => q.shared.requests = p.shared.requests ∧ ∀ m ∈ p.nodes, m ∈ q.nodes) ⟨rfl, fun _ hm => hm⟩
    (fun q e o hr hexec ⟨hrequests, hnodes⟩ =>
      ⟨(removal_exec hexec hr).1.trans hrequests, fun m hm => mem_nodes_exec hexec (hnodes m hm)⟩) h
  refine ⟨hrequests, by simp, fun m hm hne => ?_⟩
  exact Std.ExtTreeMap.mem_erase.mpr ⟨fun heq => hne (Std.LawfulEqCmp.compare_eq_iff_eq.mp heq).symm, hnodes m hm⟩

end Process

end Stored

/-! ## Steps -/

section Steps

namespace Requesters

open NodeShared

variable {c : Requesters} {r : Requesters × List Effect}

/-- The table of requests, and the account of the callers. -/
structure Tracked (c : Requesters) : Prop where
  keyed : c.process.shared.Keyed
  known : ∀ t n u, c.process.Stored t n u → c.callers[u]? ≠ none
  once : ∀ t n t' n' u, c.process.Stored t n u → c.process.Stored t' n' u → t = t' ∧ n = n'
  waiting : ∀ u, c.callers[u]? = some .waiting → ∃ t n, c.process.Stored t n u
  answered : ∀ u, c.callers[u]? = some .answered → ∀ t n, ¬ c.process.Stored t n u

theorem Tracked.live_iff (h : Tracked c) : c.Live ↔ ∀ t n u, c.process.Stored t n u →
    n ∈ c.process.nodes ∧ ∀ executed, c.callers[u]? ≠ some (.returned executed) := by
  constructor
  · rintro hlive t n u ⟨k, hk⟩
    obtain ⟨rfl, rfl⟩ := h.keyed t n u k hk
    exact hlive _ _ _ k hk
  · intro hall t n u k hk
    obtain ⟨rfl, rfl⟩ := h.keyed t n u k hk
    exact hall _ _ _ ⟨k, hk⟩

theorem not_stored_start (shared : NodeShared) (hostAddr t n u : Str) :
    ¬ (start shared hostAddr).process.Stored t n u := by
  rintro ⟨h, hh⟩
  rw [start, Process.getHandler_start] at hh
  cases hh

theorem tracked_start (shared : NodeShared) (hostAddr : Str) : Tracked (start shared hostAddr) where
  keyed := (Process.waits_start shared hostAddr).keyed
  known t n u h := absurd h (not_stored_start shared hostAddr t n u)
  once t n _ _ u h := absurd h (not_stored_start shared hostAddr t n u)
  waiting u h := by simp [start] at h
  answered u h := by simp [start] at h

theorem live_start (shared : NodeShared) (hostAddr : Str) : (start shared hostAddr).Live :=
  fun t n u h hh => absurd ⟨h, hh⟩ (not_stored_start shared hostAddr t n u)

theorem actsLive_nil (c : Requesters) : c.ActsLive [] where
  requests _ h := by cases h
  notices _ _ _ _ h := by cases h

/-! ### Operations -/

theorem getElem?_callersAfter (c : Requesters) (caller : Caller) (op : Process.Op) (u : Str) :
    (c.callersAfter caller op)[u]? = if c.process.madeHandler op = some u then some caller else c.callers[u]? := by
  unfold callersAfter
  cases hmade : c.process.madeHandler op with
  | none => simp
  | some v =>
    rw [getElem?_insert']
    exact if_congr (by simp [eq_comm]) rfl rfl

theorem issue_eq_some {caller : Caller} {e : Process.Event} (h : c.issue caller e = some r) : ∃ o,
    c.process.exec e = some o ∧ r = ({ process := o.process, callers := c.callersAfter caller e.op }, o.effects) ∧
      ∀ t n u, c.process.Makes e.op t n u → c.callers[u]? = none := by
  simp only [issue, bind, Option.bind_eq_some_iff] at h
  obtain ⟨_, hguard, o, ho, hr⟩ := h
  have hnew : ∀ u ∈ c.process.madeHandler e.op, u ∉ c.callers := by
    by_contra hold
    rw [guard, if_neg hold] at hguard
    cases hguard
  refine ⟨o, ho, (Option.some.inj hr).symm, fun t n u hmakes => ?_⟩
  have hu := hnew u (Process.madeHandler_eq_some_iff.mpr ⟨t, n, hmakes⟩)
  rw [Std.ExtTreeMap.mem_iff_isSome_getElem?, Option.not_isSome_iff_eq_none] at hu
  exact hu

theorem issue_of_exec {caller : Caller} {e : Process.Event} {o : Process.Outcome} (h : c.process.exec e = some o)
    (hnew : ∀ u ∈ c.process.madeHandler e.op, u ∉ c.callers) :
    c.issue caller e = some ({ process := o.process, callers := c.callersAfter caller e.op }, o.effects) := by
  simp only [issue, guard, if_pos hnew, h]
  rfl

/-- A new UUID does not belong to a stored handler. -/
theorem Tracked.not_stored (h : Tracked c) {t n u : Str} (hu : c.callers[u]? = none) : ¬ c.process.Stored t n u :=
  fun hstored => h.known t n u hstored hu

theorem tracked_issue {caller : Caller} (hcaller : caller = .callback ∨ caller = .waiting) {e : Process.Event}
    (h : c.issue caller e = some r) (ht : Tracked c) : Tracked r.1 := by
  obtain ⟨o, ho, rfl, hnew⟩ := issue_eq_some h
  have hstored : ∀ t n u, o.process.Stored t n u ↔ c.process.Stored t n u ∨ c.process.Makes e.op t n u :=
    fun t n u => Process.stored_exec ho ht.keyed
  have hmade : ∀ u, c.process.madeHandler e.op = some u ↔ ∃ t n, c.process.Makes e.op t n u :=
    fun u => Process.madeHandler_eq_some_iff
  refine ⟨Process.keyed_exec ho ht.keyed, fun t n u hs => ?_, fun t n t' n' u hs hs' => ?_, fun u hu => ?_,
    fun u hu t n hs => ?_⟩
  · dsimp only
    rw [getElem?_callersAfter]
    split_ifs with hm
    · exact Option.some_ne_none caller
    · exact ht.known t n u (((hstored t n u).mp hs).resolve_right fun hmakes => hm ((hmade u).mpr ⟨t, n, hmakes⟩))
  · rcases (hstored t n u).mp hs with hs | hmakes
    · rcases (hstored t' n' u).mp hs' with hs' | hmakes'
      · exact ht.once t n t' n' u hs hs'
      · exact absurd hs (ht.not_stored (hnew t' n' u hmakes'))
    · rcases (hstored t' n' u).mp hs' with hs' | hmakes'
      · exact absurd hs' (ht.not_stored (hnew t n u hmakes))
      · exact ⟨(hmakes.unique hmakes').1, (hmakes.unique hmakes').2.1⟩
  · dsimp only at hu
    rw [getElem?_callersAfter] at hu
    split_ifs at hu with hm
    · obtain ⟨t, n, hmakes⟩ := (hmade u).mp hm
      exact ⟨t, n, (hstored t n u).mpr (.inr hmakes)⟩
    · obtain ⟨t, n, hs⟩ := ht.waiting u hu
      exact ⟨t, n, (hstored t n u).mpr (.inl hs)⟩
  · dsimp only at hu
    rw [getElem?_callersAfter] at hu
    split_ifs at hu with hm
    · rcases hcaller with rfl | rfl <;> cases hu
    · rcases (hstored t n u).mp hs with hs | hmakes
      · exact ht.answered u hu t n hs
      · exact hm ((hmade u).mpr ⟨t, n, hmakes⟩)

theorem live_issue {caller : Caller} (hcaller : caller = .callback ∨ caller = .waiting) {e : Process.Event}
    (h : c.issue caller e = some r) (ht : Tracked c) (hlive : c.Live) : r.1.Live := by
  have ht' := tracked_issue hcaller h ht
  obtain ⟨o, ho, rfl, hnew⟩ := issue_eq_some h
  refine ht'.live_iff.mpr fun t n u hs => ?_
  dsimp only
  rw [getElem?_callersAfter]
  rcases (Process.stored_exec ho ht.keyed).mp hs with hs | hmakes
  · obtain ⟨hn, hcalls⟩ := ht.live_iff.mp hlive t n u hs
    refine ⟨Process.mem_nodes_exec ho hn, fun executed => ?_⟩
    split_ifs
    · rcases hcaller with rfl | rfl <;> simp
    · exact hcalls executed
  · refine ⟨Process.mem_nodes_exec ho hmakes.node, fun executed heq => ?_⟩
    rw [if_pos (Process.madeHandler_eq_some_iff.mpr ⟨t, n, hmakes⟩)] at heq
    rcases hcaller with rfl | rfl <;> cases heq

/-- What an operation sends are requests of handlers that are awaited. -/
theorem actsLive_issue {caller : Caller} {e : Process.Event} (h : c.issue caller e = some r) (ht : Tracked c)
    (hlive : c.Live) : c.ActsLive r.2 := by
  obtain ⟨o, ho, rfl, hnew⟩ := issue_eq_some h
  refine ⟨fun frames hframes => ?_, fun k topic rep result hk => ?_⟩
  · obtain ⟨topic, responserId, k, heq, hk | hmakes⟩ := Process.requests_exec ho ht.keyed hframes
    · exact ⟨topic, responserId, k, heq, ht.live_iff.mp hlive _ _ _ hk⟩
    · refine ⟨topic, responserId, k, heq, hmakes.node, fun executed hreturned => ?_⟩
      rw [hnew _ _ _ hmakes] at hreturned
      cases hreturned
  · have hquiet := Process.not_isNotice_exec ho _ hk
    cases hquiet

/-! ### Responses -/

/-- `RecvSrvResponse`: nothing changes, or a stored handler is told and taken out. -/
theorem recvSrvResponse_run (identity topic nodeUuid reqUuid rep result : Str) (s : NodeShared) (throwsAt : List ℕ) :
    ∃ v w, recvSrvResponse identity topic nodeUuid reqUuid rep result { state := s, throwsAt } = (v, w) ∧
      ((w.state = s ∧ w.effects = []) ∨ ∃ h, s.requests.getHandler topic nodeUuid reqUuid = some h ∧
        w.effects = [.notify h topic rep (result = resultStr true)] ∧
        w.state = { s with requests := (s.requests.removeHandler topic nodeUuid reqUuid).1 }) := by
  unfold recvSrvResponse
  by_cases hreceived : ∀ k < [identity, topic, nodeUuid, reqUuid, rep, result].length,
      ({ state := s, throwsAt } : World NodeShared Effect).count + k ∉ throwsAt
  · rw [bind_of_ok (recvFrames_received hreceived), if_pos rfl, notifyResult, look_bind]
    dsimp only
    cases hstored : s.requests.getHandler topic nodeUuid reqUuid with
    | none => exact ⟨_, _, rfl, .inl ⟨rfl, rfl⟩⟩
    | some h => exact ⟨_, _, rfl, .inr ⟨h, rfl, rfl, rfl⟩⟩
  · obtain ⟨n, hn⟩ := recvFrames_fails hreceived
    rw [bind_of_ok hn]
    exact ⟨_, _, rfl, .inl ⟨rfl, rfl⟩⟩

/-- A response that changes nothing, or one that takes out the only handler under its UUID. -/
theorem response_eq_some {identity topic nodeUuid reqUuid rep result : Str} {throwsAt : List ℕ}
    (h : c.exec (.response identity topic nodeUuid reqUuid rep result throwsAt) = some r) (ht : Tracked c) :
    r = (c, []) ∨ ∃ k, c.process.shared.requests.getHandler topic nodeUuid reqUuid = some k ∧
      r.1.process.nodes = c.process.nodes ∧
      (∀ t n u, r.1.process.shared.requests.getHandler t n u =
        if u = reqUuid then none else c.process.shared.requests.getHandler t n u) ∧
      (∀ u, r.1.callers[u]? = if u = reqUuid then c.callers[u]?.map Caller.notifyResult else c.callers[u]?) ∧
      r.2 = [.notify k topic rep (result = resultStr true)] := by
  obtain ⟨v, w, hrun, hkept | ⟨k, hk, heffects, hstate⟩⟩ := recvSrvResponse_run identity topic nodeUuid reqUuid rep
    result c.process.shared throwsAt
  · refine .inl ?_
    rw [exec, hrun] at h
    dsimp only at h
    rw [hkept.1, hkept.2] at h
    exact (Option.some.inj h).symm
  · rw [exec, hrun] at h
    dsimp only at h
    rw [heffects, hstate] at h
    obtain rfl := Option.some.inj h
    refine .inr ⟨k, hk, rfl, fun t n u => ?_, fun u => ?_, rfl⟩
    · dsimp only
      rw [HandlerStorage.getHandler_removeHandler]
      by_cases hu : u = reqUuid
      · subst hu
        rw [if_pos rfl]
        split_ifs with hc
        · rfl
        · -- the UUID is that of no other handler
          refine Option.eq_none_iff_forall_ne_some.mpr fun k' hk' => hc ?_
          obtain ⟨rfl, rfl⟩ := ht.once t n topic nodeUuid u ⟨k', hk'⟩ ⟨k, hk⟩
          exact ⟨rfl, rfl, rfl⟩
      · rw [if_neg hu, if_neg fun hc => hu hc.2.2]
    · have huuid := (ht.keyed _ _ _ _ hk).2
      dsimp only [List.foldl, hear]
      rw [huuid]
      exact getElem?_modify' c.callers reqUuid u Caller.notifyResult

theorem map_notifyResult_ne_waiting (o : Option Caller) : o.map Caller.notifyResult ≠ some .waiting := by
  match o with
  | none => simp
  | some .callback | some .waiting | some .answered | some (.returned _) => simp [Caller.notifyResult]

theorem returned_of_map_notifyResult {o : Option Caller} {executed : Bool}
    (h : o.map Caller.notifyResult = some (.returned executed)) : o = some (.returned executed) := by
  match o with
  | none | some .callback | some .waiting | some .answered => cases h
  | some (.returned _) => exact h

theorem tracked_response {identity topic nodeUuid reqUuid rep result : Str} {throwsAt : List ℕ}
    (h : c.exec (.response identity topic nodeUuid reqUuid rep result throwsAt) = some r) (ht : Tracked c) :
    Tracked r.1 := by
  rcases response_eq_some h ht with rfl | ⟨k, hk, -, hhandlers, hcallers, -⟩
  · exact ht
  have hstored : ∀ t n u, r.1.process.Stored t n u ↔ u ≠ reqUuid ∧ c.process.Stored t n u := by
    intro t n u
    unfold Process.Stored
    rw [hhandlers]
    split_ifs with hu <;> simp [hu]
  refine ⟨fun t n u k' hk' => ?_, fun t n u hs => ?_, fun t n t' n' u hs hs' => ?_, fun u hu => ?_,
    fun u hu t n hs => ?_⟩
  · rw [hhandlers] at hk'
    split_ifs at hk'
    exact ht.keyed t n u k' hk'
  · obtain ⟨hu, hs⟩ := (hstored t n u).mp hs
    rw [hcallers, if_neg hu]
    exact ht.known t n u hs
  · exact ht.once t n t' n' u ((hstored t n u).mp hs).2 ((hstored t' n' u).mp hs').2
  · rw [hcallers] at hu
    split_ifs at hu with hreq
    · exact absurd hu (map_notifyResult_ne_waiting _)
    · obtain ⟨t, n, hs⟩ := ht.waiting u hu
      exact ⟨t, n, (hstored t n u).mpr ⟨hreq, hs⟩⟩
  · obtain ⟨hreq, hs⟩ := (hstored t n u).mp hs
    rw [hcallers, if_neg hreq] at hu
    exact ht.answered u hu t n hs

theorem live_response {identity topic nodeUuid reqUuid rep result : Str} {throwsAt : List ℕ}
    (h : c.exec (.response identity topic nodeUuid reqUuid rep result throwsAt) = some r) (ht : Tracked c)
    (hlive : c.Live) : r.1.Live ∧ c.ActsLive r.2 := by
  rcases response_eq_some h ht with rfl | ⟨k, hk, hnodes, hhandlers, hcallers, heffects⟩
  · exact ⟨hlive, actsLive_nil c⟩
  refine ⟨fun t n u k' hk' => ?_, fun frames hx => ?_, fun k' topic' rep' result' hx => ?_⟩
  · rw [hhandlers] at hk'
    split_ifs at hk' with hu
    obtain ⟨hn, hcalls⟩ := hlive t n u k' hk'
    refine ⟨hnodes ▸ hn, fun executed heq => hcalls executed ?_⟩
    rw [hcallers] at heq
    split_ifs at heq
    · exact returned_of_map_notifyResult heq
    · exact heq
  · rw [heffects, List.mem_singleton] at hx
    cases hx
  · rw [heffects, List.mem_singleton] at hx
    cases hx
    exact hlive _ _ _ k hk

/-! ### The end of a call -/

theorem ret_eq_some {hUuid : Str} (h : c.exec (.ret hUuid) = some r) : ∃ executed,
    c.callers[hUuid]? = some (if executed then .answered else .waiting) ∧
      r = ({ c with callers := c.callers.insert hUuid (.returned executed) }, []) := by
  rw [exec] at h
  split at h
  · next hwaiting => exact ⟨false, hwaiting, (Option.some.inj h).symm⟩
  · next hanswered => exact ⟨true, hanswered, (Option.some.inj h).symm⟩
  · cases h

theorem tracked_ret {hUuid : Str} (h : c.exec (.ret hUuid) = some r) (ht : Tracked c) : Tracked r.1 := by
  obtain ⟨executed, hcaller, rfl⟩ := ret_eq_some h
  refine ⟨ht.keyed, fun t n u hs => ?_, ht.once, fun u hu => ?_, fun u hu => ?_⟩
  · dsimp only
    rw [getElem?_insert']
    split_ifs
    · exact Option.some_ne_none _
    · exact ht.known t n u hs
  · dsimp only at hu
    rw [getElem?_insert'] at hu
    split_ifs at hu
    · cases hu
    · exact ht.waiting u hu
  · dsimp only at hu
    rw [getElem?_insert'] at hu
    split_ifs at hu
    · cases hu
    · exact ht.answered u hu

/-- A call that was answered has left no handler. -/
theorem live_ret {hUuid : Str} (h : c.exec (.ret hUuid) = some r) (ht : Tracked c) (hlive : c.Live)
    (hgood : c.callers[hUuid]? ≠ some .waiting) : r.1.Live := by
  have ht' := tracked_ret h ht
  obtain ⟨executed, hcaller, rfl⟩ := ret_eq_some h
  have hanswered : c.callers[hUuid]? = some .answered := by
    cases executed with
    | false => exact absurd hcaller hgood
    | true => exact hcaller
  refine ht'.live_iff.mpr fun t n u hs => ?_
  obtain ⟨hn, hcalls⟩ := ht.live_iff.mp hlive t n u hs
  have hne : u ≠ hUuid := by
    rintro rfl
    exact ht.answered u hanswered t n hs
  refine ⟨hn, fun executed' => ?_⟩
  dsimp only
  rw [getElem?_insert', if_neg hne]
  exact hcalls executed'

/-- The handler of a call that times out stays. -/
theorem not_live_ret {hUuid : Str} (h : c.exec (.ret hUuid) = some r) (ht : Tracked c)
    (hbad : c.callers[hUuid]? = some .waiting) : ¬ r.1.Live := by
  have ht' := tracked_ret h ht
  obtain ⟨executed, -, rfl⟩ := ret_eq_some h
  obtain ⟨t, n, hs⟩ := ht.waiting hUuid hbad
  intro hlive
  refine (ht'.live_iff.mp hlive t n hUuid hs).2 executed ?_
  dsimp only
  rw [getElem?_insert', if_pos rfl]

/-! ### The end of a node -/

theorem stored_congr {p q : Process} (h : q.shared.requests = p.shared.requests) (t n u : Str) :
    q.Stored t n u ↔ p.Stored t n u := by
  unfold Process.Stored
  rw [h]

theorem tracked_destroy {nUuid : Str} (h : c.exec (.destroy nUuid) = some r) (ht : Tracked c) : Tracked r.1 := by
  obtain ⟨p, hp, rfl⟩ := Option.map_eq_some_iff.mp h
  obtain ⟨hrequests, -, -⟩ := Process.requests_destroyNode hp
  have hstored := stored_congr hrequests
  refine ⟨fun t n u k hk => ht.keyed t n u k (hrequests ▸ hk), fun t n u hs => ht.known t n u ((hstored t n u).mp hs),
    fun t n t' n' u hs hs' => ht.once t n t' n' u ((hstored t n u).mp hs) ((hstored t' n' u).mp hs'), fun u hu => ?_,
    fun u hu t n hs => ht.answered u hu t n ((hstored t n u).mp hs)⟩
  obtain ⟨t, n, hs⟩ := ht.waiting u hu
  exact ⟨t, n, (hstored t n u).mpr hs⟩

theorem live_destroy {nUuid : Str} (h : c.exec (.destroy nUuid) = some r) (hlive : c.Live) (ht : Tracked c)
    (hgood : ∀ t u, c.process.shared.requests.getHandler t nUuid u = none) : r.1.Live := by
  have ht' := tracked_destroy h ht
  obtain ⟨p, hp, rfl⟩ := Option.map_eq_some_iff.mp h
  obtain ⟨hrequests, -, hnodes⟩ := Process.requests_destroyNode hp
  refine ht'.live_iff.mpr fun t n u hs => ?_
  have hs' := (stored_congr hrequests t n u).mp hs
  obtain ⟨hn, hcalls⟩ := ht.live_iff.mp hlive t n u hs'
  refine ⟨hnodes n hn ?_, hcalls⟩
  rintro rfl
  obtain ⟨k, hk⟩ := hs'
  rw [hgood] at hk
  cases hk

/-- The handlers of a node outlive it. -/
theorem not_live_destroy {nUuid : Str} (h : c.exec (.destroy nUuid) = some r) (ht : Tracked c)
    (hbad : ¬ ∀ t u, c.process.shared.requests.getHandler t nUuid u = none) : ¬ r.1.Live := by
  have ht' := tracked_destroy h ht
  obtain ⟨p, hp, rfl⟩ := Option.map_eq_some_iff.mp h
  obtain ⟨hrequests, hgone, -⟩ := Process.requests_destroyNode hp
  push Not at hbad
  obtain ⟨t, u, hne⟩ := hbad
  intro hlive
  refine hgone (ht'.live_iff.mp hlive t nUuid u ?_).1
  exact (stored_congr hrequests t nUuid u).mpr (Option.ne_none_iff_exists'.mp hne)

/-- The destructor sends no request. -/
theorem actsLive_destroy {nUuid : Str} (h : c.exec (.destroy nUuid) = some r) : c.ActsLive r.2 := by
  obtain ⟨p, hp, rfl⟩ := Option.map_eq_some_iff.mp h
  refine ⟨fun frames hx => ?_, fun k topic rep result hx => ?_⟩
  · have hquiet := Process.destroyEffects_quiet c.process nUuid _ hx
    cases hquiet
  · have hquiet := Process.destroyEffects_quiet c.process nUuid _ hx
    cases hquiet

/-! ### Every event -/

theorem tracked_exec {e : Event} (h : c.exec e = some r) (ht : Tracked c) : Tracked r.1 := by
  cases e with
  | event e => exact tracked_issue (.inl rfl) h ht
  | call nUuid topic hUuid data throwsAt => exact tracked_issue (.inr rfl) h ht
  | ret hUuid => exact tracked_ret h ht
  | response identity topic nodeUuid reqUuid rep result throwsAt => exact tracked_response h ht
  | destroy nUuid => exact tracked_destroy h ht

/-- The table stays live in an event that abandons no handler. -/
theorem live_exec {e : Event} (h : c.exec e = some r) (ht : Tracked c) (hlive : c.Live) (hgood : c.KeepsLive e) :
    r.1.Live := by
  cases e with
  | event e => exact live_issue (.inl rfl) h ht hlive
  | call nUuid topic hUuid data throwsAt => exact live_issue (.inr rfl) h ht hlive
  | ret hUuid => exact live_ret h ht hlive hgood
  | response identity topic nodeUuid reqUuid rep result throwsAt => exact (live_response h ht hlive).1
  | destroy nUuid => exact live_destroy h hlive ht hgood

theorem not_live_exec {e : Event} (h : c.exec e = some r) (ht : Tracked c) (hbad : ¬ c.KeepsLive e) : ¬ r.1.Live := by
  cases e with
  | event e => exact absurd trivial hbad
  | call nUuid topic hUuid data throwsAt => exact absurd trivial hbad
  | ret hUuid => exact not_live_ret h ht (by simpa [KeepsLive] using hbad)
  | response identity topic nodeUuid reqUuid rep result throwsAt => exact absurd trivial hbad
  | destroy nUuid => exact not_live_destroy h ht hbad

theorem actsLive_exec {e : Event} (h : c.exec e = some r) (ht : Tracked c) (hlive : c.Live) : c.ActsLive r.2 := by
  cases e with
  | event e => exact actsLive_issue h ht hlive
  | call nUuid topic hUuid data throwsAt => exact actsLive_issue h ht hlive
  | ret hUuid =>
    obtain ⟨executed, -, rfl⟩ := ret_eq_some h
    exact actsLive_nil c
  | response identity topic nodeUuid reqUuid rep result throwsAt => exact (live_response h ht hlive).2
  | destroy nUuid => exact actsLive_destroy h

end Requesters

end Steps

/-! ## Runs -/

section Runs

namespace Requesters

open Process

/-- **The table holds only live requests**, and only their requests are sent and only their callbacks run, exactly when
no blocking call times out and no node ends while a handler of it is stored. -/
theorem table_live_iff (shared : NodeShared) (hostAddr : Str) (es : List Event)
    (hrun : (run step (start shared hostAddr) es).isSome) :
    Always step (fun _ c => c.Live) (start shared hostAddr) es ∧
        Along step (fun _ c e => ∀ r, c.exec e = some r → c.ActsLive r.2) (start shared hostAddr) es ↔
      Along step (fun _ c e => c.KeepsLive e) (start shared hostAddr) es := by
  obtain ⟨c, hc⟩ := Option.isSome_iff_exists.mp hrun
  have hiff : Always step (fun _ c => c.Live) (start shared hostAddr) es ↔
      Along step (fun _ c e => c.KeepsLive e) (start shared hostAddr) es := by
    refine always_iff_along (fun _ c => Tracked c ∧ c.Live) (fun _ => True)
      ⟨tracked_start shared hostAddr, live_start shared hostAddr⟩ (fun _ _ h => h.2) ?_ ?_ (fun _ _ => trivial) hc
    · rintro pre c e c' - ⟨ht, hlive⟩ hstep hgood
      obtain ⟨r, hr, rfl⟩ := Option.map_eq_some_iff.mp hstep
      exact ⟨tracked_exec hr ht, live_exec hr ht hlive hgood⟩
    · rintro pre c e c' - ⟨ht, -⟩ hstep hbad
      obtain ⟨r, hr, rfl⟩ := Option.map_eq_some_iff.mp hstep
      exact not_live_exec hr ht hbad
  refine ⟨fun h => hiff.mp h.1, fun halong => ?_⟩
  have hlive := hiff.mpr halong
  refine ⟨hlive, fun pre e c hpre hc r hr => ?_⟩
  have ht : Tracked c := run_invariant Tracked (tracked_start shared hostAddr) (fun c e c' ht hstep => by
    obtain ⟨r, hr, rfl⟩ := Option.map_eq_some_iff.mp hstep
    exact tracked_exec hr ht) hc
  exact actsLive_exec hr ht (hlive pre c ((List.prefix_append pre [e]).trans hpre) hc)

/-- A node calls the service 's', which nobody offers, and gives up. -/
def timedOut : List Event :=
  twoNodes.map .event ++ [.call (uuidOf 1).1 (ascii ['s']) [3] [4] [], .ret [3]]

/-- The end of the run `timedOut`. -/
theorem run_timedOut : ∃ c, run step (start (sample ⟨65, by decide⟩) []) timedOut = some c ∧
    c.callers[([3] : Str)]? = some (.returned false) ∧
    c.process.shared.requests.getHandler (ascii ['@', '@', '/', 's']) (uuidOf 1).1 [3] =
      some ⟨[3], (uuidOf 1).1, [4], false⟩ := by
  have hnodes : (run step (start (sample ⟨65, by decide⟩) []) (twoNodes.map .event)).any (fun c =>
      c.callers.contains [3] = false ∧
      c.process.fqn (uuidOf 1).1 (ascii ['s']) = some (ascii ['@', '@', '/', 's']) ∧
      c.process.shared.repliers.hasHandlersForTopic (ascii ['@', '@', '/', 's']) = false ∧
      (c.process.discovery.infoSrv.getAddresses (ascii ['@', '@', '/', 's'])).isNone = true ∧
      ((c.process.discovery.discover (ascii ['@', '@', '/', 's']) true).map ({ c.process with
          shared := { c.process.shared with
            requests := c.process.shared.requests.addHandler (ascii ['@', '@', '/', 's']) (uuidOf 1).1
              { hUuid := [3], nUuid := (uuidOf 1).1, data := [4] } } } : Process).discovered).any (fun r =>
        (finish [] r).process.shared.requests.getHandler (ascii ['@', '@', '/', 's']) (uuidOf 1).1 [3] =
          some ⟨[3], (uuidOf 1).1, [4], false⟩) = true) = true := by decide +kernel
  obtain ⟨c, hc, hnew, hname, hreplier, hnone, hrest⟩ := exists_of_any hnodes
  obtain ⟨r, hr, hrest⟩ := (Option.any_eq_true _ _).mp hrest
  have hmade : c.process.madeHandler (.request (uuidOf 1).1 (ascii ['s']) [3] [4]) = some [3] := by
    have hfirst : (c.process.shared.repliers.getFirstHandler (ascii ['@', '@', '/', 's'])).isSome = false := by
      rw [Bool.eq_false_iff, Ne, HandlerMap.isSome_getFirstHandler, hreplier]
      exact Bool.false_ne_true
    simp only [madeHandler, hname, Option.bind_some, hfirst, Bool.false_eq_true, if_false]
  have hcall : c.step (.call (uuidOf 1).1 (ascii ['s']) [3] [4] []) =
      some { process := (finish [] r).process, callers := c.callers.insert [3] .waiting } := by
    have hexec := exec_request_unknown hname hreplier (Option.isNone_iff_eq_none.mp hnone) hr
    have hnew' : ∀ u ∈ c.process.madeHandler (.request (uuidOf 1).1 (ascii ['s']) [3] [4]), u ∉ c.callers := by
      intro u hu
      obtain rfl := Option.some.inj (hmade.symm.trans hu)
      rw [← Std.ExtTreeMap.contains_iff_mem, hnew]
      exact Bool.false_ne_true
    rw [step, exec, issue_of_exec hexec hnew', Option.map_some, callersAfter, hmade]
  refine ⟨{ process := (finish [] r).process
            callers := (c.callers.insert [3] .waiting).insert [3] (.returned false) },
    run_append_eq_some.mpr ⟨c, hc, run_cons_eq_some.mpr ⟨_, hcall, run_singleton.mpr ?_⟩⟩, ?_, of_decide_eq_true hrest⟩
  · have hwaiting : (c.callers.insert [3] .waiting)[([3] : Str)]? = some .waiting := by
      rw [getElem?_insert', if_pos rfl]
    simp only [step, exec, hwaiting]
    rfl
  · rw [getElem?_insert', if_pos rfl]

theorem table_live_timedOut :
    Always step (fun _ c => c.Live) (start (sample ⟨65, by decide⟩) []) timedOut ∧
        Along step (fun _ c e => ∀ r, c.exec e = some r → c.ActsLive r.2) (start (sample ⟨65, by decide⟩) []) timedOut ↔
      Along step (fun _ c e => c.KeepsLive e) (start (sample ⟨65, by decide⟩) []) timedOut :=
  table_live_iff _ _ _ (Option.isSome_iff_exists.mpr (run_timedOut.imp fun _ h => h.1))

/-- The handler of the call is still stored when the call has returned. -/
theorem timed_out_handler_stays :
    ∃ c, run step (start (sample ⟨65, by decide⟩) []) timedOut = some c ∧ ¬ c.Live := by
  obtain ⟨c, hc, hreturned, hstored⟩ := run_timedOut
  exact ⟨c, hc, fun hlive => (hlive _ _ _ _ hstored).2 false hreturned⟩

end Requesters

end Runs

end IgnTransport
