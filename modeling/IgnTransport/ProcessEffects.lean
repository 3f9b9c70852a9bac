import Mathlib
import IgnTransport.ProcessTables

/-!
# IgnTransport.ProcessEffects — what the operations of a process do on its sockets

`acted_exec` accounts for every effect of every operation by its kind: which operation publishes which data, which
control messages it sends and which callbacks it runs.  Replies and notices are left to the reception thread.
-/

namespace IgnTransport

open Lib CallM

namespace Process

open NodeShared

/-! ## Data -/

section Data

variable {V : Type} {view : NodeShared → V} {v : V} {Kind : Effect → Prop}

/-- What `Publish` does with its data. -/
def DataEffect (s : NodeShared) (name data : Str) : Effect → Prop
  | .send .publisher frames => frames = [name, s.myAddress, data] ∧ s.remoteSubscribers.hasTopic name = true
  | .callback handler topic msg => topic = name ∧ msg = data ∧
      ∃ n u : Str, (s.localSubscriptions.cell name n)[u]? = some handler
  | _ => False

/-- A loop over the handlers of a topic runs their callbacks only. -/
theorem within_callbacks (s : HandlerStorage SubscriptionHandler) {name data : Str}
    (h : ∀ handler, (∃ n u : Str, (s.cell name n)[u]? = some handler) → Kind (.callback handler name data)) :
    Within view v Kind (runLocalCallbacks name data s) := by
  unfold runLocalCallbacks
  cases hget : s.getHandlers name with
  | none => exact within_pure ()
  | some handlers =>
    obtain ⟨-, rfl⟩ := (HandlerStorage.getHandlers_eq_some_iff _ _ _).mp hget
    refine Within.forEach fun handler hmem => ?_
    split_ifs
    · exact within_emit (h handler ((HandlerStorage.mem_handlersOf _ _ _).mp hmem))
    · exact within_pure ()

theorem within_publishTo (s : NodeShared) (name data : Str) :
    Within id s (DataEffect s name data) (publishTo name data) := by
  refine within_look fun t ht => ?_
  obtain rfl : t = s := ht
  refine (within_callbacks t.localSubscriptions fun handler hmem => ⟨rfl, rfl, hmem⟩).bind fun _ => ?_
  split_ifs with htopic
  · have hsent : DataEffect t name data (.send .publisher [name, t.myAddress, data]) := ⟨rfl, htopic⟩
    exact (NodeShared.within_publish t hsent).bind fun _ => within_pure true
  · exact within_pure true

end Data

/-! ## Where handlers come from -/

section Handlers

variable {p : Process} {op : Op} {t n u : Str}

/-- The first handler of a topic is stored. -/
theorem exists_getHandler_of_first {H : Type} {s : HandlerStorage H} {h : H} (hfirst : s.getFirstHandler t = some h) :
    ∃ n u, s.getHandler t n u = some h := by
  obtain ⟨⟨n, cell⟩, hnode, hfirst⟩ := Option.bind_eq_some_iff.mp hfirst
  obtain ⟨⟨u, k⟩, hhandler, heq⟩ := Option.bind_eq_some_iff.mp hfirst
  obtain rfl := Option.some.inj heq
  have hrow := Std.ExtTreeMap.mem_toList_iff_getElem?_eq_some.mpr (getElem?_of_minEntry hnode)
  refine ⟨n, u, ?_⟩
  rw [HandlerStorage.getHandler, ((s.mem_row_toList t n cell).mp hrow).1]
  exact getElem?_of_minEntry hhandler

theorem getHandler_repliersAfter {r : RepHandler} (h : (p.repliersAfter op).getHandler t n u = some r) :
    p.shared.repliers.getHandler t n u = some r ∨
      ∃ topic scope, op = .advertiseSrv n topic r.hUuid scope ∧ p.fqn n topic = some t := by
  cases op with
  | advertiseSrv nUuid topic hUuid scope =>
    dsimp only [repliersAfter] at h
    cases hname : p.fqn nUuid topic with
    | none =>
      simp only [hname] at h
      exact .inl h
    | some name =>
      simp only [hname] at h
      rw [HandlerStorage.getHandler_addHandler] at h
      split_ifs at h with hc
      · obtain ⟨rfl, rfl, -, -⟩ := hc
        obtain rfl := Option.some.inj h
        exact .inr ⟨topic, scope, rfl, hname⟩
      · exact .inl h
  | unadvertiseSrv nUuid topic =>
    dsimp only [repliersAfter] at h
    cases hname : p.fqn nUuid topic with
    | none =>
      simp only [hname] at h
      exact .inl h
    | some name =>
      simp only [hname] at h
      rw [HandlerStorage.getHandler_removeHandlersForNode] at h
      split_ifs at h
      exact .inl h
  | _ => exact .inl h

theorem getHandler_subscriptionsAfter {s : SubscriptionHandler}
    (h : (p.subscriptionsAfter op).getHandler t n u = some s) :
    p.shared.localSubscriptions.getHandler t n u = some s ∨
      ∃ topic, op = .subscribe s.nUuid topic s.hUuid ∧ p.fqn s.nUuid topic = some t := by
  cases op with
  | subscribe nUuid topic hUuid =>
    dsimp only [subscriptionsAfter] at h
    cases hname : p.fqn nUuid topic with
    | none =>
      simp only [hname] at h
      exact .inl h
    | some name =>
      simp only [hname] at h
      rw [HandlerStorage.getHandler_addHandler] at h
      split_ifs at h with hc
      · obtain ⟨rfl, -⟩ := hc
        obtain rfl := Option.some.inj h
        exact .inr ⟨topic, rfl, hname⟩
      · exact .inl h
  | unsubscribe nUuid topic =>
    dsimp only [subscriptionsAfter] at h
    cases hname : p.fqn nUuid topic with
    | none =>
      simp only [hname] at h
      exact .inl h
    | some name =>
      simp only [hname] at h
      rw [HandlerStorage.getHandler_removeHandlersForNode] at h
      split_ifs at h
      exact .inl h
  | _ => exact .inl h

end Handlers

/-! ## Operations -/

section Operations

variable (p : Process)

/-- A node publishes on a topic that it has advertised. -/
def Publishes (op : Op) (name data : Str) : Prop :=
  ∃ n topic node, op = .publish n topic data ∧ p.nodes[n]? = some node ∧ node.fqn topic = some name ∧
    node.topicsAdvertised.contains name = true

/-- A handler is stored once the operation has changed the tables. -/
def HasHandler (op : Op) (name : Str) (handler : SubscriptionHandler) : Prop :=
  ∃ n u : Str, ((p.subscriptionsAfter op).cell name n)[u]? = some handler

/-- What an operation may do. -/
def Acted (op : Op) : Effect → Prop
  | .send .publisher frames => ∃ name data, p.Publishes op name data ∧ frames = [name, p.shared.myAddress, data]
  | .send .requester _ => True
  | .send _ _ => False
  | .control _ frames => ∃ name,
      (∃ handler, p.HasHandler op name handler ∧
        frames = controlFrames name p.shared.pUuid handler.nUuid NewConnection) ∨
      (∃ n topic, op = .unsubscribe n topic ∧ p.fqn n topic = some name ∧
        frames = controlFrames name p.shared.myAddress n EndConnection)
  | .callback handler name data => p.Publishes op name data ∧ p.HasHandler op name handler
  | .serve _ _ _ | .notify _ _ _ _ => False
  | _ => True

variable {p} {e : Event} {o : Outcome} {op : Op} {r : Process × NodeM Bool}

theorem acted_of_react {d : Discovery} {out : List Output} (hacts : Acts p op r) :
    Within core r.1.shared.core (p.Acted op) (reactAll d out) := by
  refine (within_reactAll r.1.shared.core d out).mono fun x hx => ?_
  obtain ⟨y, -, hx⟩ := hx
  have hregisters : ∀ {ctrl topic : Str} {frames : List Str}, r.1.shared.core.Registers topic frames →
      p.Acted op (.control ctrl frames) := by
    rintro ctrl topic frames ⟨n, u, handler, hhandler, rfl⟩
    refine ⟨topic, .inl ⟨handler, ⟨n, u, ?_⟩, ?_⟩⟩
    · rw [← show r.1.shared.localSubscriptions = p.subscriptionsAfter op from
        congrArg (·.localSubscriptions) hacts.shared]
      exact hhandler
    · rw [← show r.1.shared.pUuid = p.shared.pUuid from congrArg (·.pUuid) hacts.shared]
      rfl
  match y, x, hx with
  | .sendto _, _, rfl => exact trivial
  | .connection .msg _, .control _ _, hx => exact hregisters hx.2
  | .connection .msg _, .connect .subscriber _, _ | .connection .msg _, .subscribe _, _
  | .connection .srv _, .connect .requester _, _ | .connection .srv _, .send .requester _, _
  | .disconnection .msg _, .disconnect .subscriber _, _ => exact trivial

theorem acted_unsubscribe {n topic : Str} (hop : op = .unsubscribe n topic) (h : p.perform op = some r) :
    Within id r.1.shared (p.Acted op) r.2 := by
  subst hop
  obtain ⟨node, -, ⟨-, rfl⟩ | ⟨name, hname, hf⟩⟩ := named_eq_some h
  · exact within_pure false
  · obtain rfl := Option.some.inj hf
    refine (within_notifyUnsubscribed _ n name p.discovery.infoMsg).mono fun x hx => ?_
    match x, hx with
    | .unsubscribe _, _ => exact trivial
    | .control _ _, hx => exact ⟨name, .inr ⟨n, topic, rfl, hname, hx.1⟩⟩

theorem acted_publish {n topic data : Str} (hop : op = .publish n topic data) (h : p.perform op = some r) :
    Within id r.1.shared (p.Acted op) r.2 := by
  subst hop
  obtain ⟨node, hnode, ⟨-, rfl⟩ | ⟨name, hname, hf⟩⟩ := named_eq_some h
  · exact within_pure false
  obtain rfl := Option.some.inj hf
  have hname' : node.fqn topic = some name := by
    rw [fqn, hnode, Option.bind_some] at hname
    exact hname
  unfold publish
  split_ifs with hadvertised
  · exact within_pure false
  · have hpublishes : p.Publishes (.publish n topic data) name data :=
      ⟨n, topic, node, rfl, hnode, hname', by simpa using hadvertised⟩
    refine (within_publishTo p.shared name data).mono fun x hx => ?_
    cases x with
    | send socket frames =>
      cases socket with
      | publisher => exact ⟨name, data, hpublishes, hx.1⟩
      | _ => exact hx.elim
    | callback handler t d =>
      obtain ⟨rfl, rfl, hhandler⟩ := hx
      exact ⟨hpublishes, hhandler⟩
    | _ => exact hx.elim

/-- **What an operation does on the sockets.** -/
theorem acted_exec (h : p.exec e = some o) : ∀ x ∈ o.effects, p.Acted e.op x := by
  obtain ⟨r, hr, rfl, -⟩ := exec_eq_some h
  have hacts := acts_perform hr
  have hof : ∀ {V : Type} (view : NodeShared → V), Within view (view r.1.shared) (p.Acted e.op) r.2 →
      ∀ x ∈ (finish e.throwsAt r).effects, p.Acted e.op x := fun _ hwithin => (finish_within hwithin e.throwsAt).2
  cases hacts.action with
  | discovered dop out hop hout hprogram =>
    refine hof core ?_
    rw [hprogram]
    exact (acted_of_react hacts).bind fun _ => within_pure true
  | own hop hdiscovery hprogram =>
    obtain ⟨q, c⟩ := r
    cases hprogram with
    | idle b hidle => exact hof id (within_pure b)
    | known nUuid topic hUuid data name =>
      refine hof butServices (Within.bind ((within_sendPendingRemoteReqs _ _ name).mono fun x hx => ?_)
        fun _ => within_pure true)
      match x, hx with
      | .connect .requester _, _ | .send .requester _, _ => exact trivial
    | unsubscribed nUuid topic name hop => exact hof id (acted_unsubscribe hop hr)
    | published nUuid topic data name node hop => exact hof id (acted_publish hop hr)
    | controlled topic procUuid nodeUuid data hop =>
      exact hof butRemote (Within.bind ((within_recvControlUpdate _ _ _ _ _).mono fun x hx => hx.elim)
        fun _ => within_pure true)

end Operations

end Process

end IgnTransport
