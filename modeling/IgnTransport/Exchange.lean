import Mathlib
import IgnTransport.NodeTables
import IgnTransport.Publications

/-!
# IgnTransport.Exchange — a publisher, a subscriber and the control messages between them

`OnNewConnection` of the subscriber tells the publisher of every node that subscribes to its topic, and `Unsubscribe`
tells it that a node is no longer interested.  The messages arrive in the order in which they were sent.

* `registrations_end_iff`: the publisher registers nodes that do not subscribe any more, as soon as one unsubscribes
  that is registered or about to be: no message of the subscriber ends a registration.
-/

namespace IgnTransport

open Lib CallM NodeShared

/-- A publisher and a subscriber, and the control messages from the one to the other that are on their way. -/
structure Exchange where
  publisher : Process
  subscriber : Process
  inFlight : List (List Str) := []

namespace Exchange

/-! ## Steps -/

section Steps

inductive Event where
  /-- What the publisher does, except to receive a control message of the subscriber. -/
  | publisher (e : Process.Event)
  | subscriber (e : Process.Event)
  /-- `RecvControlUpdate`, of the first message on its way. -/
  | deliver
  deriving DecidableEq, Repr

/-- The control messages of a process. -/
def IsFrom (pUuid : Str) : Process.Op → Bool
  | .control _ procUuid _ _ => procUuid = pUuid
  | _ => false

/-- The frames of a control message for this control socket. -/
def framesFor (ctrl : Str) : Effect → Option (List Str)
  | .control endpoint frames => if endpoint = ctrl then some frames else none
  | _ => none

def step (x : Exchange) : Event → Option Exchange
  | .publisher e =>
    if IsFrom x.subscriber.shared.pUuid e.op then none
    else (x.publisher.step e).map fun p => { x with publisher := p }
  | .subscriber e => (x.subscriber.exec e).map fun o => { x with
      subscriber := o.process
      inFlight := x.inFlight ++ o.effects.filterMap (framesFor x.publisher.shared.myControlAddress) }
  | .deliver =>
    match x.inFlight with
    | [topic, procUuid, nodeUuid, data] :: rest =>
      (x.publisher.step { op := .control topic procUuid nodeUuid data }).map fun p =>
        { x with publisher := p, inFlight := rest }
    | _ => none

/-- Both processes at the start of the constructor of `NodeShared`. -/
def start (publisher subscriber : NodeShared) (publisherAddr subscriberAddr : Str) : Exchange where
  publisher := Process.start publisher publisherAddr
  subscriber := Process.start subscriber subscriberAddr

end Steps

/-! ## Registrations -/

section Registrations

variable (x : Exchange) (t n : Str)

/-- A node of the subscriber is among the remote subscribers of the topic. -/
def Registered : Prop := x.publisher.shared.remoteSubscribers.HasNode t x.subscriber.shared.pUuid n

instance : Decidable (x.Registered t n) := by unfold Registered; infer_instance

/-- The registration of a node is on its way. -/
def Announced : Prop := controlFrames t x.subscriber.shared.pUuid n NewConnection ∈ x.inFlight

/-- The node has a handler for the topic. -/
def Subscribes : Prop := x.subscriber.shared.localSubscriptions.hasHandlersForNode t n = true

instance : Decidable (x.Subscribes t n) := by unfold Subscribes; infer_instance

/-- Once the messages on their way are delivered, all nodes of the subscriber that are registered subscribe. -/
def Settles : Prop := ∀ k y, run step x (List.replicate k .deliver) = some y → y.inFlight = [] →
  ∀ t n, y.Registered t n → y.Subscribes t n

/-- A node that unsubscribes is not registered, and its registration is not on its way. -/
def KeepsSettled : Event → Prop
  | .subscriber e => ∀ n topic t, e.op = .unsubscribe n topic → x.subscriber.fqn n topic = some t →
      ¬ x.Registered t n ∧ ¬ x.Announced t n
  | _ => True

/-- What is on its way was sent by the subscriber, and its handlers are stored under their nodes. -/
structure Accounted (s : NodeShared) (x : Exchange) : Prop where
  pUuid : x.subscriber.shared.pUuid = s.pUuid
  myAddress : x.subscriber.shared.myAddress = s.myAddress
  frames : ∀ m ∈ x.inFlight, ∃ t n,
    m = controlFrames t s.pUuid n NewConnection ∨ m = controlFrames t s.myAddress n EndConnection
  keyed : ∀ t n u h, x.subscriber.shared.localSubscriptions.getHandler t n u = some h → h.nUuid = n

/-- Whoever is registered, or about to be, subscribes. -/
def NoneLost : Prop := ∀ t n, x.Registered t n ∨ x.Announced t n → x.Subscribes t n

variable {x} {y : Exchange} {s : NodeShared} {e : Process.Event} {t n}

/-- A registration names its topic, process and node. -/
theorem controlFrames_new_inj {t t' q q' n n' : Str}
    (h : controlFrames t q n NewConnection = controlFrames t' q' n' NewConnection) : t = t' ∧ q = q' ∧ n = n' := by
  simp only [controlFrames, List.cons.injEq, and_true] at h
  exact h

theorem controlFrames_new_ne_end {t t' q q' n n' : Str} :
    controlFrames t q n NewConnection ≠ controlFrames t' q' n' EndConnection := by
  intro h
  simp only [controlFrames, List.cons.injEq, and_true] at h
  exact absurd h.2.2.2 (by decide)

theorem keyed_subscriptionsAfter {p : Process}
    (hkeyed : ∀ t n u h, p.shared.localSubscriptions.getHandler t n u = some h → h.nUuid = n) (op : Process.Op)
    {u : Str} {h : SubscriptionHandler} (hh : (p.subscriptionsAfter op).getHandler t n u = some h) : h.nUuid = n := by
  cases op with
  | subscribe nUuid topic hUuid =>
    dsimp only [Process.subscriptionsAfter] at hh
    cases hname : p.fqn nUuid topic with
    | none =>
      simp only [hname] at hh
      exact hkeyed t n u h hh
    | some name =>
      simp only [hname] at hh
      rw [HandlerStorage.getHandler_addHandler] at hh
      split_ifs at hh with hc
      · obtain rfl := Option.some.inj hh
        exact hc.2.1.symm
      · exact hkeyed t n u h hh
  | unsubscribe nUuid topic =>
    dsimp only [Process.subscriptionsAfter] at hh
    cases hname : p.fqn nUuid topic with
    | none =>
      simp only [hname] at hh
      exact hkeyed t n u h hh
    | some name =>
      simp only [hname] at hh
      rw [HandlerStorage.getHandler_removeHandlersForNode] at hh
      split_ifs at hh
      exact hkeyed t n u h hh
  | _ => exact hkeyed t n u h hh

theorem subscribes_iff : x.Subscribes t n ↔ x.subscriber.shared.localSubscriptions.cell t n ≠ ∅ :=
  HandlerStorage.hasHandlersForNode_iff _ t n

theorem accounted_start (publisher subscriber : NodeShared) (publisherAddr subscriberAddr : Str) :
    Accounted subscriber (start publisher subscriber publisherAddr subscriberAddr) where
  pUuid := rfl
  frames m hm := (by cases hm)
  myAddress := rfl
  keyed t n u h hh := by
    have hempty : HandlerStorage.getHandler (Table.empty : HandlerStorage SubscriptionHandler) t n u = none :=
      HandlerStorage.getHandler_of_empty t n (Table.cell_empty t n) u
    cases hempty.symm.trans hh

/-! ### The publisher -/

theorem step_publisher (h : x.step (.publisher e) = some y) : IsFrom x.subscriber.shared.pUuid e.op = false ∧
    ∃ o, x.publisher.exec e = some o ∧ y = { x with publisher := o.process } := by
  rw [step] at h
  split_ifs at h with hfrom
  obtain ⟨p, hp, rfl⟩ := Option.map_eq_some_iff.mp h
  obtain ⟨o, ho, rfl⟩ := Option.map_eq_some_iff.mp hp
  exact ⟨by simpa using hfrom, o, ho, rfl⟩

theorem registered_publisher (h : x.step (.publisher e) = some y) (hy : y.Registered t n) : x.Registered t n := by
  obtain ⟨hfrom, o, ho, rfl⟩ := step_publisher h
  rcases Process.hasNode_exec ho hy with hold | ⟨data, hop, -⟩
  · exact hold
  · rw [hop, IsFrom, decide_eq_false_iff_not] at hfrom
    exact absurd rfl hfrom

/-! ### Deliveries -/

theorem step_deliver (h : x.step .deliver = some y) : ∃ topic procUuid nodeUuid data rest o,
    x.inFlight = [topic, procUuid, nodeUuid, data] :: rest ∧
      x.publisher.exec ⟨.control topic procUuid nodeUuid data, []⟩ = some o ∧
        y = { x with publisher := o.process, inFlight := rest } := by
  rw [step] at h
  split at h
  · obtain ⟨p, hp, rfl⟩ := Option.map_eq_some_iff.mp h
    obtain ⟨o, ho, rfl⟩ := Option.map_eq_some_iff.mp hp
    exact ⟨_, _, _, _, _, o, by assumption, ho, rfl⟩
  · cases h

/-- A delivery takes a registration from the messages to the table. -/
theorem registered_deliver (hx : Accounted s x) (hne : (s.myAddress : Str) ≠ s.pUuid) (h : x.step .deliver = some y) :
    y.Registered t n ∨ y.Announced t n ↔ x.Registered t n ∨ x.Announced t n := by
  obtain ⟨topic, procUuid, nodeUuid, data, rest, o, hin, ho, rfl⟩ := step_deliver h
  obtain ⟨k, hk, hremote⟩ := (Process.remote_exec_control ho).1 fun _ _ => List.not_mem_nil
  have hregistered : ({ x with publisher := o.process, inFlight := rest } : Exchange).Registered t n ↔
      (applyControl topic procUuid nodeUuid k x.publisher.shared.remoteSubscribers).HasNode t
        x.subscriber.shared.pUuid n := by
    unfold Registered
    rw [hremote]
  rw [hregistered, hasNode_applyControl]
  unfold Announced
  rw [hin, List.mem_cons]
  obtain ⟨t', n', hm | hm⟩ := hx.frames [topic, procUuid, nodeUuid, data] (hin ▸ List.mem_cons_self)
  · obtain ⟨rfl, rfl, rfl, rfl⟩ : topic = t' ∧ procUuid = s.pUuid ∧ nodeUuid = n' ∧
        data = toDecimal NewConnection.toNat := by
      simpa [controlFrames] using hm
    obtain rfl : k = NewConnection.toNat := Except.ok.inj (hk.symm.trans ProcessNetwork.stoi_newConnection)
    have hnotEnd : ((NewConnection.toNat : ℤ) ≠ EndConnection.toNat) := by decide
    have hkey : controlFrames t x.subscriber.shared.pUuid n NewConnection =
        [topic, s.pUuid, nodeUuid, toDecimal NewConnection.toNat] ↔ t = topic ∧ n = nodeUuid := by
      rw [hx.pUuid]
      simp [controlFrames]
    rw [hkey, hx.pUuid]
    simp only [hnotEnd, false_and, not_false_eq_true, and_true, true_and, Registered, hx.pUuid]
    rw [or_assoc]
  · obtain ⟨rfl, rfl, rfl, rfl⟩ : topic = t' ∧ procUuid = s.myAddress ∧ nodeUuid = n' ∧
        data = toDecimal EndConnection.toNat := by
      simpa [controlFrames] using hm
    obtain rfl : k = EndConnection.toNat := Except.ok.inj (hk.symm.trans ProcessNetwork.stoi_endConnection)
    have hnotNew : ((EndConnection.toNat : ℤ) ≠ NewConnection.toNat) := by decide
    have hkey : controlFrames t x.subscriber.shared.pUuid n NewConnection ≠
        [topic, s.myAddress, nodeUuid, toDecimal EndConnection.toNat] := controlFrames_new_ne_end
    have hother : (x.subscriber.shared.pUuid : Str) ≠ s.myAddress := by
      rw [hx.pUuid]
      exact Ne.symm hne
    simp only [hnotNew, hkey, hother, false_and, and_false, not_false_eq_true, and_true, or_false, false_or, Registered]

theorem accounted_deliver (hx : Accounted s x) (h : x.step .deliver = some y) : Accounted s y := by
  obtain ⟨topic, procUuid, nodeUuid, data, rest, o, hin, -, rfl⟩ := step_deliver h
  exact { hx with frames := fun m hm => hx.frames m (hin ▸ List.mem_cons_of_mem _ hm) }

/-- What is on its way can be delivered. -/
theorem exists_deliver (hx : Accounted s x) {m : List Str} {rest : List (List Str)} (hin : x.inFlight = m :: rest) :
    ∃ y, x.step .deliver = some y ∧ y.inFlight = rest := by
  obtain ⟨t, q, n, d, k, rfl, hk⟩ : ∃ t q n d k, m = [t, q, n, d] ∧ stoi d = .ok k := by
    obtain ⟨t, n, rfl | rfl⟩ := hx.frames m (hin ▸ List.mem_cons_self)
    · exact ⟨t, _, n, _, _, rfl, ProcessNetwork.stoi_newConnection⟩
    · exact ⟨t, _, n, _, _, rfl, ProcessNetwork.stoi_endConnection⟩
  obtain ⟨o, ho, -⟩ := ProcessNetwork.exec_control x.publisher t q n hk
  refine ⟨{ x with publisher := o.process, inFlight := rest }, ?_, rfl⟩
  rw [step, hin]
  dsimp only
  rw [Process.step, ho]
  rfl

/-- Deliveries leave the subscriber alone. -/
theorem run_deliver (hx : Accounted s x) (hne : (s.myAddress : Str) ≠ s.pUuid) {k : ℕ}
    (h : run step x (List.replicate k .deliver) = some y) : Accounted s y ∧ y.subscriber = x.subscriber ∧
      ∀ t n, y.Registered t n ∨ y.Announced t n ↔ x.Registered t n ∨ x.Announced t n := by
  induction k generalizing x with
  | zero =>
    rw [List.replicate_zero, run_nil, Option.some.injEq] at h
    subst h
    exact ⟨hx, rfl, fun _ _ => Iff.rfl⟩
  | succ k ih =>
    rw [List.replicate_succ] at h
    obtain ⟨z, hz, hrest⟩ := run_cons_eq_some.mp h
    obtain ⟨hy, hsubscriber, hall⟩ := ih (accounted_deliver hx hz) hrest
    have hsame : z.subscriber = x.subscriber := by
      obtain ⟨_, _, _, _, _, o, -, -, rfl⟩ := step_deliver hz
      rfl
    exact ⟨hy, hsubscriber.trans hsame, fun t n => (hall t n).trans (registered_deliver hx hne hz)⟩

theorem exists_run_deliver (hx : Accounted s x) : ∃ k y, run step x (List.replicate k .deliver) = some y ∧
    y.inFlight = [] := by
  obtain ⟨l, hl⟩ : ∃ l, x.inFlight = l := ⟨_, rfl⟩
  induction l generalizing x with
  | nil => exact ⟨0, x, rfl, hl⟩
  | cons m rest ih =>
    obtain ⟨z, hz, hrest⟩ := exists_deliver hx hl
    obtain ⟨k, y, hy, hempty⟩ := ih (accounted_deliver hx hz) hrest
    exact ⟨k + 1, y, run_cons_eq_some.mpr ⟨z, hz, hy⟩, hempty⟩

/-- **What settles** is decided before the messages arrive. -/
theorem settles_iff (hx : Accounted s x) (hne : (s.myAddress : Str) ≠ s.pUuid) : x.Settles ↔ x.NoneLost := by
  constructor
  · intro hsettles t n hlive
    obtain ⟨k, y, hy, hempty⟩ := exists_run_deliver hx
    obtain ⟨-, hsubscriber, hall⟩ := run_deliver hx hne hy
    have hregistered : y.Registered t n := by
      refine ((hall t n).mpr hlive).resolve_right fun hannounced => ?_
      rw [Announced, hempty] at hannounced
      cases hannounced
    have hsubscribes := hsettles k y hy hempty t n hregistered
    rwa [Subscribes, hsubscriber] at hsubscribes
  · intro hnone k y hy hempty t n hregistered
    obtain ⟨-, hsubscriber, hall⟩ := run_deliver hx hne hy
    rw [Subscribes, hsubscriber]
    exact hnone t n ((hall t n).mp (.inl hregistered))

/-! ### The subscriber -/

theorem step_subscriber (h : x.step (.subscriber e) = some y) : ∃ o, x.subscriber.exec e = some o ∧ y = { x with
    subscriber := o.process
    inFlight := x.inFlight ++ o.effects.filterMap (framesFor x.publisher.shared.myControlAddress) } := by
  obtain ⟨o, ho, rfl⟩ := Option.map_eq_some_iff.mp h
  exact ⟨o, ho, rfl⟩

theorem mem_framesFor {ctrl : Str} {m : List Str} {es : List Effect} (h : m ∈ es.filterMap (framesFor ctrl)) :
    .control ctrl m ∈ es := by
  obtain ⟨x, hx, hm⟩ := List.mem_filterMap.mp h
  cases x with
  | control endpoint frames =>
    rw [framesFor] at hm
    split_ifs at hm with hctrl
    rw [← hctrl, ← Option.some.inj hm]
    exact hx
  | _ => cases hm

theorem accounted_subscriber (hx : Accounted s x) (h : x.step (.subscriber e) = some y) : Accounted s y := by
  obtain ⟨o, ho, rfl⟩ := step_subscriber h
  obtain ⟨hsubscriptions, hpUuid, hmyAddress, -⟩ := Process.core_exec ho
  refine ⟨hpUuid.trans hx.pUuid, hmyAddress.trans hx.myAddress, fun m hm => ?_, fun t n u h hh => ?_⟩
  · rcases List.mem_append.mp hm with hold | hnew
    · exact hx.frames m hold
    · obtain ⟨t, ⟨handler, -, rfl⟩ | ⟨n, topic, -, -, rfl⟩⟩ := Process.acted_exec ho _ (mem_framesFor hnew)
      · exact ⟨t, _, .inl (by rw [hx.pUuid])⟩
      · exact ⟨t, n, .inr (by rw [hx.myAddress])⟩
  · dsimp only at hh
    rw [hsubscriptions] at hh
    exact keyed_subscriptionsAfter hx.keyed e.op hh

theorem noneLost_subscriber (hx : Accounted s x) (hnone : x.NoneLost) (h : x.step (.subscriber e) = some y)
    (hkeeps : x.KeepsSettled (.subscriber e)) : y.NoneLost := by
  obtain ⟨o, ho, rfl⟩ := step_subscriber h
  obtain ⟨hsubscriptions, hpUuid, -⟩ := Process.core_exec ho
  intro t n hlive
  rw [subscribes_iff]
  -- a node that was registered, or about to be, still subscribes
  have hold : x.Registered t n ∨ x.Announced t n → o.process.shared.localSubscriptions.cell t n ≠ ∅ := by
    intro hlive
    refine (Process.hasSubscriptions_exec ho n t).mpr (.inr ⟨subscribes_iff.mp (hnone t n hlive), ?_⟩)
    rintro ⟨topic, hop, hname⟩
    obtain ⟨hregistered, hannounced⟩ := hkeeps n topic t hop hname
    exact hlive.elim hregistered hannounced
  rcases hlive with hregistered | hannounced
  · refine hold (.inl ?_)
    unfold Registered at hregistered ⊢
    rwa [← hpUuid]
  · rcases List.mem_append.mp hannounced with hin | hnew
    · refine hold (.inr ?_)
      unfold Announced
      rwa [← hpUuid]
    · obtain ⟨t', ⟨handler, ⟨n', u, hhandler⟩, hframes⟩ | ⟨n', topic, -, -, hframes⟩⟩ :=
        Process.acted_exec ho _ (mem_framesFor hnew)
      · obtain ⟨rfl, -, rfl⟩ := controlFrames_new_inj hframes
        have hnode := keyed_subscriptionsAfter hx.keyed e.op hhandler
        rw [hsubscriptions, hnode]
        intro hempty
        rw [hempty, Std.ExtTreeMap.getElem?_empty] at hhandler
        cases hhandler
      · exact absurd hframes controlFrames_new_ne_end

theorem not_noneLost_subscriber (h : x.step (.subscriber e) = some y) (hbad : ¬ x.KeepsSettled (.subscriber e)) :
    ¬ y.NoneLost := by
  obtain ⟨o, ho, rfl⟩ := step_subscriber h
  obtain ⟨-, hpUuid, -⟩ := Process.core_exec ho
  simp only [KeepsSettled, not_forall, not_and_or, not_not] at hbad
  obtain ⟨n, topic, t, hop, hname, hlive⟩ := hbad
  intro hnone
  have hsubscribes := subscribes_iff.mp (hnone t n (hlive.imp (fun hregistered => ?_) fun hannounced => ?_))
  · rcases (Process.hasSubscriptions_exec ho n t).mp hsubscribes with ⟨_, _, hop', -⟩ | ⟨-, hleft⟩
    · cases hop.symm.trans hop'
    · exact hleft ⟨topic, hop, hname⟩
  · unfold Registered at hregistered ⊢
    rwa [hpUuid]
  · unfold Announced at hannounced ⊢
    rw [hpUuid]
    exact List.mem_append_left _ hannounced

end Registrations

/-! ## Runs -/

section Runs

variable {x y : Exchange} {s : NodeShared}

theorem accounted_step (hx : Accounted s x) {e : Event} (h : x.step e = some y) : Accounted s y := by
  cases e with
  | publisher e =>
    obtain ⟨-, o, -, rfl⟩ := step_publisher h
    exact { hx with }
  | subscriber e => exact accounted_subscriber hx h
  | deliver => exact accounted_deliver hx h

theorem noneLost_step (hx : Accounted s x) (hne : (s.myAddress : Str) ≠ s.pUuid) (hnone : x.NoneLost) {e : Event}
    (h : x.step e = some y) (hkeeps : x.KeepsSettled e) : y.NoneLost := by
  cases e with
  | publisher e =>
    intro t n hlive
    have hold : x.Registered t n ∨ x.Announced t n := by
      refine hlive.imp (registered_publisher h) fun hannounced => ?_
      obtain ⟨-, o, -, rfl⟩ := step_publisher h
      exact hannounced
    have hsubscribes := hnone t n hold
    obtain ⟨-, o, -, rfl⟩ := step_publisher h
    exact hsubscribes
  | subscriber e => exact noneLost_subscriber hx hnone h hkeeps
  | deliver =>
    intro t n hlive
    have hsubscribes := hnone t n ((registered_deliver hx hne h).mp hlive)
    obtain ⟨_, _, _, _, _, o, -, -, rfl⟩ := step_deliver h
    exact hsubscribes

/-- **Registrations end with the subscriptions** exactly in the runs in which no node unsubscribes that is registered
or about to be: whatever state such a run is in, once the messages on their way have arrived, all nodes that are
registered subscribe. -/
theorem registrations_end_iff (publisher subscriber : NodeShared) (publisherAddr subscriberAddr : Str)
    (hne : (subscriber.myAddress : Str) ≠ subscriber.pUuid) (es : List Event)
    (hrun : (run step (start publisher subscriber publisherAddr subscriberAddr) es).isSome) :
    Always step (fun _ x => x.Settles) (start publisher subscriber publisherAddr subscriberAddr) es ↔
      Along step (fun _ x e => x.KeepsSettled e) (start publisher subscriber publisherAddr subscriberAddr) es := by
  obtain ⟨x, hx⟩ := Option.isSome_iff_exists.mp hrun
  refine always_iff_along (fun _ x => Accounted subscriber x ∧ x.NoneLost) (fun _ => True) ⟨accounted_start _ _ _ _, ?_⟩
    ?_ ?_ ?_ (fun _ _ => trivial) hx
  · rintro t n (⟨a, ha, -⟩ | hannounced)
    · exact absurd (show a ∈ (Table.empty : TopicStorage).cell t _ from ha) (by simp [Table.cell_empty])
    · cases hannounced
  · rintro pre x ⟨haccounted, hnone⟩
    exact (settles_iff haccounted hne).mpr hnone
  · rintro pre x e y - ⟨haccounted, hnone⟩ hstep hkeeps
    exact ⟨accounted_step haccounted hstep, noneLost_step haccounted hne hnone hstep hkeeps⟩
  · rintro pre x e y - ⟨haccounted, -⟩ hstep hbad hsettles
    have hnone := (settles_iff (accounted_step haccounted hstep) hne).mp hsettles
    cases e with
    | subscriber e => exact not_noneLost_subscriber hstep hbad hnone
    | _ => exact hbad trivial

/-- A node of the one process subscribes to the topic of the other one, is registered and unsubscribes. -/
def subscribesAndLeaves : List Event :=
  let advertises : List Process.Event := Process.setCallbacks ++ [{ op := .construct (Process.uuidOf 2) none none },
    { op := .advertise (Process.uuidOf 2).1 (ascii ['t']) .all }]
  let subscribes : List Process.Event := Process.setCallbacks ++ [{ op := .construct (Process.uuidOf 1) none none },
    { op := .subscribe (Process.uuidOf 1).1 (ascii ['t']) [7] },
    { op := .datagram ⟨[], 5, ProcessNetwork.pairAdvertisement⟩ }]
  advertises.map Event.publisher ++ (subscribes.map Event.subscriber ++ [Event.deliver,
    Event.subscriber { op := .unsubscribe (Process.uuidOf 1).1 (ascii ['t']) }, Event.deliver])

def pairStart : Exchange := start (ProcessNetwork.pairGroup.shared true) (ProcessNetwork.pairGroup.shared false) [] []

/-- The node stays registered. -/
theorem run_subscribesAndLeaves : ∃ x, run step pairStart subscribesAndLeaves = some x ∧ x.inFlight = [] ∧
    x.Registered ProcessNetwork.pairTopic (Process.uuidOf 1).1 ∧
      ¬ x.Subscribes ProcessNetwork.pairTopic (Process.uuidOf 1).1 := by
  have hrun : (run step pairStart subscribesAndLeaves).any (fun x => x.inFlight = [] ∧
      x.Registered ProcessNetwork.pairTopic (Process.uuidOf 1).1 ∧
        ¬ x.Subscribes ProcessNetwork.pairTopic (Process.uuidOf 1).1) = true := by decide +kernel
  exact exists_of_any hrun

theorem registrations_end_leaves : Always step (fun _ x => x.Settles) pairStart subscribesAndLeaves ↔
    Along step (fun _ x e => x.KeepsSettled e) pairStart subscribesAndLeaves :=
  registrations_end_iff (ProcessNetwork.pairGroup.shared true) (ProcessNetwork.pairGroup.shared false) [] [] (by decide)
    subscribesAndLeaves (by
      obtain ⟨x, hx, -⟩ := run_subscribesAndLeaves
      exact Option.isSome_of_eq_some hx)

/-- Although all messages have arrived, a node that does not subscribe any more is registered. -/
theorem registration_outlives_subscription :
    ¬ Always step (fun _ x => x.inFlight = [] → ∀ t n, x.Registered t n → x.Subscribes t n) pairStart
      subscribesAndLeaves := by
  intro halways
  obtain ⟨x, hx, hempty, hregistered, hleft⟩ := run_subscribesAndLeaves
  exact hleft (halways _ x List.prefix_rfl hx hempty _ _ hregistered)

end Runs

end Exchange

end IgnTransport
