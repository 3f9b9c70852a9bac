import Mathlib
import IgnTransport.TopicNames
import IgnTransport.ProcessTables

/-!
# IgnTransport.NodeTables — what a node keeps, and what the process holds for it

A node keeps the names of its subscriptions, advertised topics and services; the subscription handlers and the
repliers hold them once more under the UUID of the node.  Each operation that adds a name adds a handler, and each that
removes one removes the handlers (`nodesKept_run`).  The destructor works on names without their partition, which are
qualified again: it finds everything that its node keeps, and no handler is left (`destructor_cleans_up`).
-/

namespace IgnTransport

open Lib CallM

namespace Process

open NodeShared

/-! ## The sets of a node -/

section Sets

/-- The topics that a node is subscribed to; none if there is no such node. -/
def subscribed (p : Process) (n : Str) : StrSet := (p.nodes[n]?).elim ∅ Node.topicsSubscribed

/-- The topics that a node advertises. -/
def advertised (p : Process) (n : Str) : StrSet := (p.nodes[n]?).elim ∅ Node.topicsAdvertised

/-- The services that a node advertises. -/
def services (p : Process) (n : Str) : StrSet := (p.nodes[n]?).elim ∅ Node.srvsAdvertised

variable {p : Process} {e : Event} {o : Outcome}

/-- A topic is in a set after an operation that may have added one name and removed another. -/
theorem mem_elim_exec {set : Node → StrSet}
    (hnew : ∀ node, node.topicsSubscribed = ∅ ∧ node.topicsAdvertised = ∅ ∧ node.srvsAdvertised = ∅ → set node = ∅)
    (h : p.exec e = some o) {n T : Str} {Adds Removes : Prop}
    (hafter : ∀ node, p.nodes[n]? = some node →
      (T ∈ set (p.nodeAfter n node e.op) ↔ Adds ∨ (T ∈ set node ∧ ¬ Removes)))
    (hadds : Adds → (p.nodes[n]?).isSome = true) :
    T ∈ (o.process.nodes[n]?).elim ∅ set ↔ Adds ∨ (T ∈ (p.nodes[n]?).elim ∅ set ∧ ¬ Removes) := by
  cases hnode : p.nodes[n]? with
  | some node =>
    rw [node_exec h hnode]
    exact hafter node hnode
  | none =>
    rw [hnode] at hadds
    have hempty : T ∉ (∅ : StrSet) := Std.ExtTreeSet.not_mem_empty
    have hnone : (o.process.nodes[n]?).elim ∅ set = ∅ := by
      cases hafter' : o.process.nodes[n]? with
      | none => rfl
      | some node =>
        obtain ⟨-, envPartition, args, rfl⟩ := node_exec_new h hafter' hnode
        exact hnew _ (Node.construct_empty envPartition args)
    rw [hnone]
    exact iff_of_false hempty fun hor => hor.elim (fun ha => by cases hadds ha) fun hr => hempty hr.1

theorem isSome_node_of_fqn {n topic T : Str} (h : p.fqn n topic = some T) : (p.nodes[n]?).isSome = true := by
  obtain ⟨node, hnode, -⟩ := Option.bind_eq_some_iff.mp h
  rw [hnode]
  rfl

section Named

variable {g : Node → StrSet} {node : Node} {f : Str → Node}

/-- A set of a node after a node has added the name of a topic to it, if the name is valid. -/
theorem mem_add_named (p : Process) (hf : ∀ name, g (f name) = (g node).insert name) (m topic n T : Str) :
    T ∈ g (if n = m then (match p.fqn m topic with
      | none => node
      | some name => f name) else node) ↔ (m = n ∧ p.fqn n topic = some T) ∨ T ∈ g node := by
  by_cases hm : n = m
  · subst hm
    rw [if_pos rfl]
    cases hname : p.fqn n topic with
    | none => simp
    | some name => simp [hf, Std.LawfulEqCmp.compare_eq_iff_eq]
  · rw [if_neg hm]
    simp [Ne.symm hm]

/-- A set of a node after a node has erased the name of a topic from it, if the name is valid. -/
theorem mem_remove_named (p : Process) (hf : ∀ name, g (f name) = (g node).erase name) (m topic n T : Str) :
    T ∈ g (if n = m then (match p.fqn m topic with
      | none => node
      | some name => f name) else node) ↔ T ∈ g node ∧ ¬ (m = n ∧ p.fqn n topic = some T) := by
  by_cases hm : n = m
  · subst hm
    rw [if_pos rfl]
    cases hname : p.fqn n topic with
    | none => simp
    | some name => simp [hf, Std.LawfulEqCmp.compare_eq_iff_eq, and_comm]
  · rw [if_neg hm]
    simp [Ne.symm hm]

/-- A set that the operation is not about. -/
theorem mem_named_aside (p : Process) (m topic n T : Str) (hf : ∀ name, g (f name) = g node) :
    T ∈ g (if n = m then (match p.fqn m topic with
      | none => node
      | some name => f name) else node) ↔ T ∈ g node := by
  split_ifs
  · cases p.fqn m topic with
    | none => rfl
    | some name => rw [hf name]
  · rfl

end Named

theorem mem_subscribed_exec (h : p.exec e = some o) (n T : Str) : T ∈ o.process.subscribed n ↔
    (∃ topic u, e.op = .subscribe n topic u ∧ p.fqn n topic = some T) ∨
      (T ∈ p.subscribed n ∧ ¬ ∃ topic, e.op = .unsubscribe n topic ∧ p.fqn n topic = some T) := by
  refine mem_elim_exec (fun node hnode => hnode.1) h (fun node _ => ?_)
    fun ⟨_, _, _, hname⟩ => isSome_node_of_fqn hname
  obtain ⟨op, throwsAt⟩ := e
  cases op with
  | subscribe m topic u =>
    refine (mem_add_named p (fun _ => rfl) m topic n T).trans ?_
    simp
  | unsubscribe m topic =>
    refine (mem_remove_named p (fun _ => rfl) m topic n T).trans ?_
    simp
  | advertise m topic | unadvertise m topic | advertiseSrv m topic | unadvertiseSrv m topic =>
    refine (mem_named_aside (g := Node.topicsSubscribed) p m topic n T fun _ => ?_).trans ?_
    · rfl
    · simp
  | _ => simp [nodeAfter]

theorem mem_advertised_exec (h : p.exec e = some o) (n T : Str) : T ∈ o.process.advertised n ↔
    (∃ topic scope, e.op = .advertise n topic scope ∧ p.fqn n topic = some T) ∨
      (T ∈ p.advertised n ∧ ¬ ∃ topic, e.op = .unadvertise n topic ∧ p.fqn n topic = some T) := by
  refine mem_elim_exec (fun node hnode => hnode.2.1) h (fun node _ => ?_)
    fun ⟨_, _, _, hname⟩ => isSome_node_of_fqn hname
  obtain ⟨op, throwsAt⟩ := e
  cases op with
  | advertise m topic scope =>
    refine (mem_add_named p (fun _ => rfl) m topic n T).trans ?_
    simp
  | unadvertise m topic =>
    refine (mem_remove_named p (fun _ => rfl) m topic n T).trans ?_
    simp
  | subscribe m topic | unsubscribe m topic | advertiseSrv m topic | unadvertiseSrv m topic =>
    refine (mem_named_aside (g := Node.topicsAdvertised) p m topic n T fun _ => ?_).trans ?_
    · rfl
    · simp
  | _ => simp [nodeAfter]

theorem mem_services_exec (h : p.exec e = some o) (n T : Str) : T ∈ o.process.services n ↔
    (∃ topic u scope, e.op = .advertiseSrv n topic u scope ∧ p.fqn n topic = some T) ∨
      (T ∈ p.services n ∧ ¬ ∃ topic, e.op = .unadvertiseSrv n topic ∧ p.fqn n topic = some T) := by
  refine mem_elim_exec (fun node hnode => hnode.2.2) h (fun node _ => ?_)
    fun ⟨_, _, _, _, hname⟩ => isSome_node_of_fqn hname
  obtain ⟨op, throwsAt⟩ := e
  cases op with
  | advertiseSrv m topic u scope =>
    refine (mem_add_named p (fun _ => rfl) m topic n T).trans ?_
    simp
  | unadvertiseSrv m topic =>
    refine (mem_remove_named p (fun _ => rfl) m topic n T).trans ?_
    simp
  | subscribe m topic | unsubscribe m topic | advertise m topic | unadvertise m topic =>
    refine (mem_named_aside (g := Node.srvsAdvertised) p m topic n T fun _ => ?_).trans ?_
    · rfl
    · simp
  | _ => simp [nodeAfter]

end Sets

/-! ## The tables of the process -/

section Tables

variable {p : Process} {e : Event} {o : Outcome}

/-- The handlers of a node after a node has added one under the name of a topic, if the name is valid. -/
theorem cell_add_named {H : Type} [Handler H] (p : Process) (s : HandlerStorage H) (handler : H) (m topic n T : Str) :
    (match p.fqn m topic with
      | none => s
      | some name => s.addHandler name m handler).cell T n ≠ ∅ ↔
      (m = n ∧ p.fqn n topic = some T) ∨ s.cell T n ≠ ∅ := by
  cases hname : p.fqn m topic with
  | none =>
    refine (or_iff_right ?_).symm
    rintro ⟨rfl, hname'⟩
    rw [hname] at hname'
    cases hname'
  | some name =>
    refine (HandlerStorage.cell_addHandler_ne_empty s name T m n handler).trans (or_comm.trans (or_congr_left ?_))
    constructor
    · rintro ⟨rfl, rfl⟩
      exact ⟨rfl, hname⟩
    · rintro ⟨rfl, hname'⟩
      exact ⟨Option.some.inj (hname'.symm.trans hname), rfl⟩

/-- The handlers of a node after a node has removed its own under the name of a topic. -/
theorem cell_remove_named {H : Type} (p : Process) (s : HandlerStorage H) (m topic n T : Str) :
    (match p.fqn m topic with
      | none => s
      | some name => (s.removeHandlersForNode name m).1).cell T n ≠ ∅ ↔
      s.cell T n ≠ ∅ ∧ ¬ (m = n ∧ p.fqn n topic = some T) := by
  cases hname : p.fqn m topic with
  | none =>
    refine (and_iff_left ?_).symm
    rintro ⟨rfl, hname'⟩
    rw [hname] at hname'
    cases hname'
  | some name =>
    dsimp only
    rw [HandlerStorage.cell_removeHandlersForNode]
    split_ifs with hc
    · obtain ⟨rfl, rfl⟩ := hc
      exact iff_of_false (fun hne => hne rfl) fun hkept => hkept.2 ⟨rfl, hname⟩
    · refine (and_iff_left ?_).symm
      rintro ⟨rfl, hname'⟩
      exact hc ⟨Option.some.inj (hname'.symm.trans hname), rfl⟩

/-- A node adds no handler to those of another. -/
theorem cell_add_aside {H : Type} [Handler H] (p : Process) (s : HandlerStorage H) (handler : H) {m n : Str}
    (hn : m ≠ n) (topic T : Str) :
    (match p.fqn m topic with
      | none => s
      | some name => s.addHandler name m handler).cell T n = s.cell T n := by
  cases p.fqn m topic with
  | none => rfl
  | some name => exact (HandlerStorage.cell_addHandler s name T m n handler).trans (if_neg fun hc => hn hc.2.symm)

/-- A node removes no handler of another. -/
theorem cell_remove_aside {H : Type} (p : Process) (s : HandlerStorage H) {m n : Str} (hn : m ≠ n) (topic T : Str) :
    (match p.fqn m topic with
      | none => s
      | some name => (s.removeHandlersForNode name m).1).cell T n = s.cell T n := by
  cases p.fqn m topic with
  | none => rfl
  | some name => exact (HandlerStorage.cell_removeHandlersForNode s name T m n).trans (if_neg fun hc => hn hc.2.symm)

theorem hasSubscriptions_exec (h : p.exec e = some o) (n T : Str) : o.process.shared.localSubscriptions.cell T n ≠ ∅ ↔
    (∃ topic u, e.op = .subscribe n topic u ∧ p.fqn n topic = some T) ∨
      (p.shared.localSubscriptions.cell T n ≠ ∅ ∧ ¬ ∃ topic, e.op = .unsubscribe n topic ∧ p.fqn n topic = some T) := by
  rw [(core_exec h).1]
  obtain ⟨op, throwsAt⟩ := e
  cases op with
  | subscribe m topic u =>
    refine (cell_add_named p p.shared.localSubscriptions { hUuid := u, nUuid := m } m topic n T).trans ?_
    simp
  | unsubscribe m topic =>
    refine (cell_remove_named p p.shared.localSubscriptions m topic n T).trans ?_
    simp
  | _ => simp [subscriptionsAfter]

theorem hasRepliers_exec (h : p.exec e = some o) (n T : Str) : o.process.shared.repliers.cell T n ≠ ∅ ↔
    (∃ topic u scope, e.op = .advertiseSrv n topic u scope ∧ p.fqn n topic = some T) ∨
      (p.shared.repliers.cell T n ≠ ∅ ∧ ¬ ∃ topic, e.op = .unadvertiseSrv n topic ∧ p.fqn n topic = some T) := by
  rw [repliers_exec h]
  obtain ⟨op, throwsAt⟩ := e
  cases op with
  | advertiseSrv m topic u scope =>
    refine (cell_add_named p p.shared.repliers { hUuid := u } m topic n T).trans ?_
    simp
  | unadvertiseSrv m topic =>
    refine (cell_remove_named p p.shared.repliers m topic n T).trans ?_
    simp
  | _ => simp [repliersAfter]

end Tables

/-! ## The discovery service -/

section Own

/-- The discovery service is the one of the process, has not heard from itself and can send what it stores. -/
structure OwnKept (p : Process) : Prop where
  pUuid : p.discovery.pUuid = p.shared.pUuid
  unheard : (p.discovery.peer p.discovery.pUuid).lastHeard = none
  sent : p.discovery.OwnSent

variable {p : Process} {e : Event} {o : Outcome}

theorem ownKept_start (shared : NodeShared) (hostAddr : Str) : OwnKept (start shared hostAddr) where
  pUuid := rfl
  unheard := by simp [start, Discovery.start, Discovery.peer]
  sent := Discovery.ownSent_start _ _

theorem ownKept_exec (h : p.exec e = some o) (hown : OwnKept p) : OwnKept o.process := by
  have hshared := (core_exec h).2.1
  have hdisc := discovery_exec h
  cases hop : p.discoveryOp e.op with
  | none =>
    rw [hop] at hdisc
    exact ⟨by rw [hdisc, hshared]; exact hown.pUuid, by rw [hdisc]; exact hown.unheard,
      by rw [hdisc]; exact hown.sent⟩
  | some dop =>
    rw [hop] at hdisc
    have hp := (Discovery.fixed_step hdisc).1
    refine ⟨by rw [hp, hshared]; exact hown.pUuid, ?_, Discovery.ownSent_step hdisc hown.unheard hown.sent⟩
    rw [hp, Discovery.own_step hdisc hown.unheard, Discovery.lastHeard_ownAct]
    exact hown.unheard

/-- The process itself offers a topic for a node. -/
def Offers (p : Process) (type : MsgType) (n T : Str) : Prop :=
  (p.discovery.info type).HasNode T p.shared.pUuid n

/-- What an operation does to the offers, in the words of the discovery service. -/
theorem offers_exec (h : p.exec e = some o) (hown : OwnKept p) (type : MsgType) (n T : Str) :
    o.process.Offers type n T ↔
      (∃ addr ctrl scope, p.discoveryOp e.op = some (.advertise type T addr ctrl n scope)) ∨
        (p.Offers type n T ∧ p.discoveryOp e.op ≠ some (.unadvertise type T n)) := by
  have hdisc := discovery_exec h
  unfold Offers
  rw [(core_exec h).2.1, ← hown.pUuid]
  cases hop : p.discoveryOp e.op with
  | none =>
    rw [hop] at hdisc
    rw [hdisc]
    simp
  | some dop =>
    rw [hop] at hdisc
    have hiff := Discovery.hasNode_own_step hdisc hown.unheard type T n
    simp only [Option.some.injEq, ne_eq]
    exact hiff

theorem discoveryOp_eq_advertise (p : Process) (op : Op) (type : MsgType) (n T : Str) :
    (∃ addr ctrl scope, p.discoveryOp op = some (.advertise type T addr ctrl n scope)) ↔
      match type with
      | .msg => ∃ topic scope, op = .advertise n topic scope ∧ p.fqn n topic = some T
      | .srv => ∃ topic u scope, op = .advertiseSrv n topic u scope ∧ p.fqn n topic = some T := by
  cases op with
  | advertise m topic scope =>
    cases type with
    | msg =>
      constructor
      · rintro ⟨addr, ctrl, scope', hop⟩
        obtain ⟨name, hname, heq⟩ := Option.map_eq_some_iff.mp hop
        cases heq
        exact ⟨topic, scope, rfl, hname⟩
      · rintro ⟨_, _, heq, hname⟩
        cases heq
        exact ⟨_, _, _, Option.map_eq_some_iff.mpr ⟨T, hname, rfl⟩⟩
    | srv => simp [discoveryOp]
  | advertiseSrv m topic u scope =>
    cases type with
    | msg => simp [discoveryOp]
    | srv =>
      constructor
      · rintro ⟨addr, ctrl, scope', hop⟩
        obtain ⟨name, hname, heq⟩ := Option.map_eq_some_iff.mp hop
        cases heq
        exact ⟨topic, u, scope, rfl, hname⟩
      · rintro ⟨_, _, _, heq, hname⟩
        cases heq
        exact ⟨_, _, _, Option.map_eq_some_iff.mpr ⟨T, hname, rfl⟩⟩
  | request m topic u data =>
    refine iff_of_false ?_ (by cases type <;> simp)
    rintro ⟨addr, ctrl, scope, heq⟩
    obtain ⟨name, -, heq⟩ := discoveryOp_request heq
    cases heq
  | _ => cases type <;> simp [discoveryOp]

theorem discoveryOp_eq_unadvertise (p : Process) (op : Op) (type : MsgType) (n T : Str) :
    p.discoveryOp op = some (.unadvertise type T n) ↔
      type = .msg ∧ ∃ topic, (op = .unadvertise n topic ∨ op = .unadvertiseSrv n topic) ∧ p.fqn n topic = some T := by
  cases op with
  | unadvertise m topic | unadvertiseSrv m topic =>
    cases hname : p.fqn m topic with
    | none =>
      simp only [discoveryOp, hname]
      refine iff_of_false (by simp) ?_
      rintro ⟨-, _, heq | heq, hname'⟩
      · cases heq <;> exact absurd (hname.symm.trans hname') (by simp)
      · cases heq <;> exact absurd (hname.symm.trans hname') (by simp)
    | some name =>
      simp only [discoveryOp, hname, Option.map_some, Option.some.injEq, Discovery.Op.unadvertise.injEq]
      constructor
      · rintro ⟨rfl, rfl, rfl⟩
        exact ⟨rfl, topic, by simp, hname⟩
      · rintro ⟨rfl, _, heq, hname'⟩
        obtain ⟨rfl, rfl⟩ : m = n ∧ topic = _ := by simpa using heq
        exact ⟨rfl, Option.some.inj (hname.symm.trans hname'), rfl⟩
  | request m topic u data =>
    refine iff_of_false (fun heq => ?_) (by simp)
    obtain ⟨name, -, heq⟩ := discoveryOp_request heq
    cases heq
  | _ => simp [discoveryOp]

end Own

/-! ## The invariant -/

section Invariant

/-- A node keeps a name. -/
def Keeps (p : Process) (n T : Str) : Prop := T ∈ p.subscribed n ∨ T ∈ p.advertised n ∨ T ∈ p.services n

/-- Each name that a node keeps is the name of a topic for it, and there are handlers for exactly these names. -/
structure NodesKept (p : Process) : Prop where
  own : OwnKept p
  names : ∀ n T, p.Keeps n T → ∃ topic, p.fqn n topic = some T
  subscriptions : ∀ n T, p.shared.localSubscriptions.cell T n ≠ ∅ ↔ T ∈ p.subscribed n
  repliers : ∀ n T, p.shared.repliers.cell T n ≠ ∅ ↔ T ∈ p.services n

variable {p : Process} {e : Event} {o : Outcome}

theorem mem_elim_empty (set : Node → StrSet) (T n : Str) : ¬ T ∈ ((∅ : StrMap Node)[n]?).elim ∅ set := by
  simp

theorem nodesKept_start (shared : NodeShared) (hostAddr : Str) : NodesKept (start shared hostAddr) where
  own := ownKept_start shared hostAddr
  names n T hkeeps := by
    rcases hkeeps with h | h | h <;> exact absurd h (mem_elim_empty _ T n)
  subscriptions n T := iff_of_false (fun h => h (Table.cell_empty T n)) (mem_elim_empty _ T n)
  repliers n T := iff_of_false (fun h => h (Table.cell_empty T n)) (mem_elim_empty _ T n)

theorem nodesKept_exec (h : p.exec e = some o) (hkept : NodesKept p) : NodesKept o.process where
  own := ownKept_exec h hkept.own
  names n T hkeeps := by
    have hnamed : (∃ topic, p.fqn n topic = some T) ∨ p.Keeps n T := by
      rcases hkeeps with hT | hT | hT
      · rcases (mem_subscribed_exec h n T).mp hT with ⟨topic, _, -, hname⟩ | hold
        · exact .inl ⟨topic, hname⟩
        · exact .inr (.inl hold.1)
      · rcases (mem_advertised_exec h n T).mp hT with ⟨topic, _, -, hname⟩ | hold
        · exact .inl ⟨topic, hname⟩
        · exact .inr (.inr (.inl hold.1))
      · rcases (mem_services_exec h n T).mp hT with ⟨topic, _, _, -, hname⟩ | hold
        · exact .inl ⟨topic, hname⟩
        · exact .inr (.inr (.inr hold.1))
    obtain ⟨topic, hname⟩ := hnamed.elim id (hkept.names n T)
    exact ⟨topic, fqn_exec h hname⟩
  subscriptions n T := by
    rw [hasSubscriptions_exec h, mem_subscribed_exec h, hkept.subscriptions]
  repliers n T := by
    rw [hasRepliers_exec h, mem_services_exec h, hkept.repliers]

/-- **The names are kept right**: a name without its partition is qualified with the same name again, and no two
names of a node are the same without their partition. -/
theorem NodesKept.fqn_stripName (hkept : NodesKept p) {n T : Str} (hT : p.Keeps n T) :
    p.fqn n (TopicUtils.stripName T) = some T := by
  obtain ⟨topic, hname⟩ := hkept.names n T hT
  obtain ⟨node, hnode, hname⟩ := Option.bind_eq_some_iff.mp hname
  rw [fqn, hnode, Option.bind_some]
  exact TopicUtils.fqn_stripName hname

end Invariant

/-! ## The destructor -/

section Destructor

/-- `SubscribedTopics`. -/
def subscribedTopics (p : Process) (n : Str) : List Str := (p.subscribed n).toList.map TopicUtils.stripName

/-- `AdvertisedTopics`. -/
def advertisedTopics (p : Process) (n : Str) : List Str := (p.advertised n).toList.map TopicUtils.stripName

/-- `AdvertisedServices`. -/
def advertisedServices (p : Process) (n : Str) : List Str := (p.services n).toList.map TopicUtils.stripName

/-- An operation in a destructor: an exception that leaves it ends the process. -/
def stepNoexcept (p : Process) (e : Event) : Option Process :=
  (p.exec e).bind fun o => o.value.toOption.map fun _ => o.process

/-- One loop of the destructor, and which ZeroMQ calls of each operation throw. -/
def forTopics (p : Process) (op : Str → Op) (topics : List Str) (throwsAt : Op → List ℕ) : Option Process :=
  run stepNoexcept p (topics.map fun topic => { op := op topic, throwsAt := throwsAt (op topic) })

/-- `~Node`; a failed assertion ends the process. -/
def destroyNode (p : Process) (n : Str) (throwsAt : Op → List ℕ) : Option Process := do
  guard (n ∈ p.nodes)
  -- Unsubscribe from all the topics.
  let p ← p.forTopics (.unsubscribe n) (p.subscribedTopics n) throwsAt
  guard (p.subscribedTopics n = [])
  -- Unadvertise all my topics.
  let p ← p.forTopics (.unadvertise n) (p.advertisedTopics n) throwsAt
  guard (p.advertisedTopics n = [])
  -- Unadvertise all my services.
  let p ← p.forTopics (.unadvertiseSrv n) (p.advertisedServices n) throwsAt
  guard (p.advertisedServices n = [])
  return { p with nodes := p.nodes.erase n }

/-- No ZeroMQ call throws. -/
def noThrow : Op → List ℕ := fun _ => []

/-- What can happen to a process, the end of a node included. -/
inductive Life where
  | event (e : Event)
  | destroy (n : Str)
  deriving DecidableEq, Repr

/-- The state after it.  A process does not survive a destructor in which a ZeroMQ call throws. -/
def live (p : Process) : Life → Option Process
  | .event e => p.step e
  | .destroy n => p.destroyNode n noThrow

variable {p p' : Process} {n : Str} {throwsAt : Op → List ℕ}

theorem stepNoexcept_eq_some {e : Event} :
    p.stepNoexcept e = some p' ↔ ∃ o b, p.exec e = some o ∧ o.value = .ok b ∧ p' = o.process := by
  rw [stepNoexcept, Option.bind_eq_some_iff]
  refine exists_congr fun o => ?_
  cases hvalue : o.value with
  | ok b => simp [Except.toOption, eq_comm]
  | error x => simp [Except.toOption]

theorem destroyNode_eq_some {q : Process} : p.destroyNode n throwsAt = some q ↔ n ∈ p.nodes ∧ ∃ p₁ p₂ p₃,
    (p.forTopics (.unsubscribe n) (p.subscribedTopics n) throwsAt = some p₁ ∧ p₁.subscribedTopics n = []) ∧
    (p₁.forTopics (.unadvertise n) (p₁.advertisedTopics n) throwsAt = some p₂ ∧ p₂.advertisedTopics n = []) ∧
    (p₂.forTopics (.unadvertiseSrv n) (p₂.advertisedServices n) throwsAt = some p₃ ∧ p₃.advertisedServices n = []) ∧
    q = { p₃ with nodes := p₃.nodes.erase n } := by
  simp only [destroyNode, bind, Option.bind_eq_some_iff, Option.guard_eq_some']
  constructor
  · rintro ⟨-, hn, p₁, h₁, -, hnone₁, p₂, h₂, -, hnone₂, p₃, h₃, -, hnone₃, hq⟩
    exact ⟨hn, p₁, p₂, p₃, ⟨h₁, hnone₁⟩, ⟨h₂, hnone₂⟩, ⟨h₃, hnone₃⟩, (Option.some.inj hq).symm⟩
  · rintro ⟨hn, p₁, p₂, p₃, ⟨h₁, hnone₁⟩, ⟨h₂, hnone₂⟩, ⟨h₃, hnone₃⟩, rfl⟩
    exact ⟨(), hn, p₁, h₁, (), hnone₁, p₂, h₂, (), hnone₂, p₃, h₃, (), hnone₃, rfl⟩

/-- What the destructor of a node does. -/
def IsRemoval (n : Str) (op : Op) : Prop :=
  ∃ topic, op = .unsubscribe n topic ∨ op = .unadvertise n topic ∨ op = .unadvertiseSrv n topic

/-- Nothing is added to what a node keeps, and it qualifies names as before. -/
structure Shrunk (n : Str) (p p' : Process) : Prop where
  node : n ∈ p'.nodes
  keeps : ∀ T, (T ∈ p'.subscribed n → T ∈ p.subscribed n) ∧ (T ∈ p'.advertised n → T ∈ p.advertised n) ∧
    (T ∈ p'.services n → T ∈ p.services n)
  fqn : ∀ topic T, p.fqn n topic = some T → p'.fqn n topic = some T

theorem Shrunk.refl (hn : n ∈ p.nodes) : Shrunk n p p := ⟨hn, fun _ => ⟨id, id, id⟩, fun _ _ => id⟩

theorem Shrunk.trans {q : Process} (h : Shrunk n p p') (h' : Shrunk n p' q) : Shrunk n p q where
  node := h'.node
  keeps T := by
    obtain ⟨hs, ha, hv⟩ := h.keeps T
    obtain ⟨hs', ha', hv'⟩ := h'.keeps T
    exact ⟨hs ∘ hs', ha ∘ ha', hv ∘ hv'⟩
  fqn topic T hname := h'.fqn topic T (h.fqn topic T hname)

theorem shrunk_exec {e : Event} {o : Outcome} (h : p.exec e = some o) (hr : IsRemoval n e.op) (hn : n ∈ p.nodes) :
    Shrunk n p o.process where
  node := mem_nodes_exec h hn
  keeps T := by
    obtain ⟨topic, hr⟩ := hr
    rw [mem_subscribed_exec h, mem_advertised_exec h, mem_services_exec h]
    refine ⟨fun hor => ?_, fun hor => ?_, fun hor => ?_⟩
    · rcases hor with ⟨_, _, heq, -⟩ | hold
      · rcases hr with hr | hr | hr <;> cases hr.symm.trans heq
      · exact hold.1
    · rcases hor with ⟨_, _, heq, -⟩ | hold
      · rcases hr with hr | hr | hr <;> cases hr.symm.trans heq
      · exact hold.1
    · rcases hor with ⟨_, _, _, heq, -⟩ | hold
      · rcases hr with hr | hr | hr <;> cases hr.symm.trans heq
      · exact hold.1
  fqn _ _ := fqn_exec h

/-- What the destructor unadvertises, it only tells the others. -/
theorem isDatagram_removal {op : Op} (hr : IsRemoval n op) {dop : Discovery.Op} (hop : p.discoveryOp op = some dop)
    {d : Discovery} {out : List Output} (hout : p.discovery.perform dop = some (d, out)) : ∀ o ∈ out, o.IsDatagram := by
  obtain ⟨topic, rfl | rfl | rfl⟩ := hr
  · cases hop
  · obtain ⟨name, -, rfl⟩ := Option.map_eq_some_iff.mp hop
    exact Discovery.isDatagram_unadvertise hout
  · obtain ⟨name, -, rfl⟩ := Option.map_eq_some_iff.mp hop
    exact Discovery.isDatagram_unadvertise hout

/-- What the destructor of a node does can be done. -/
theorem isSome_perform_removal (hkept : NodesKept p) (hn : n ∈ p.nodes) {op : Op} (hr : IsRemoval n op) :
    (p.perform op).isSome = true := by
  rw [Std.ExtTreeMap.mem_iff_isSome_getElem?] at hn
  obtain ⟨node, hnode⟩ := Option.isSome_iff_exists.mp hn
  have hnamed : ∀ (topic : Str) (f : Node → Str → Option (Process × NodeM Bool)),
      (∀ name, (f node name).isSome = true) → (p.named n topic f).isSome = true := by
    intro topic f hf
    rw [named, hnode]
    cases hname : node.fqn topic with
    | none => simp [hname]
    | some name => simpa [hname] using hf name
  have hunadvertise : ∀ (name : Str), (p.discovery.unadvertise .msg name n).isSome = true :=
    fun name => Discovery.isSome_unadvertise hkept.own.sent .msg name n
  obtain ⟨topic, rfl | rfl | rfl⟩ := hr
  · exact hnamed topic _ fun name => rfl
  · exact hnamed topic _ fun name => by
      rw [unadvertise, Option.isSome_map]
      exact hunadvertise name
  · exact hnamed topic _ fun name => by
      rw [unadvertiseSrv, Option.isSome_map]
      exact hunadvertise name

/-- It returns when nothing throws. -/
theorem does_removal {op : Op} {r : Process × NodeM Bool} (h : p.perform op = some r) (hr : IsRemoval n op) :
    ∃ b s es, Does r.2 r.1.shared b s es := by
  cases (acts_perform h).action with
  | discovered dop out hop hout hprogram =>
    obtain ⟨es, hsent⟩ := does_reactAll_sent r.1.shared r.1.discovery (isDatagram_removal hr hop hout)
    rw [hprogram]
    exact ⟨true, _, _, hsent.bind (does_pure _ true)⟩
  | own hop hdiscovery hprogram =>
    obtain ⟨_, hr⟩ := hr
    generalize r.2 = program at hprogram
    cases hprogram with
    | idle b => exact ⟨b, _, _, does_pure _ b⟩
    | unsubscribed nUuid topic name =>
      obtain ⟨b, es, hdoes⟩ := does_notifyUnsubscribed r.1.shared nUuid name p.discovery.infoMsg
      exact ⟨b, _, es, hdoes⟩
    | known nUuid topic hUuid data name hop => rcases hr with rfl | rfl | rfl <;> cases hop
    | published nUuid topic data name node hop => rcases hr with rfl | rfl | rfl <;> cases hop
    | controlled topic procUuid nodeUuid data hop => rcases hr with rfl | rfl | rfl <;> cases hop

theorem exec_removal (hkept : NodesKept p) (hn : n ∈ p.nodes) {op : Op} (hr : IsRemoval n op) :
    ∃ o b, p.exec { op } = some o ∧ o.value = .ok b := by
  obtain ⟨r, hperform⟩ := Option.isSome_iff_exists.mp (isSome_perform_removal hkept hn hr)
  obtain ⟨b, s, es, hdoes⟩ := does_removal hperform hr
  refine ⟨finish [] r, b, ?_, finish_does hdoes⟩
  have hentry : op.OnServiceThread = false := by
    obtain ⟨_, rfl | rfl | rfl⟩ := hr <;> rfl
  rw [exec]
  simp [hperform, hentry]

theorem toList_map_eq_nil {s : StrSet} {f : Str → Str} : s.toList.map f = [] ↔ ∀ T, T ∉ s := by
  rw [List.map_eq_nil_iff]
  constructor
  · intro hnil T hT
    rw [← Std.ExtTreeSet.mem_toList, hnil] at hT
    cases hT
  · intro hempty
    refine List.eq_nil_iff_forall_not_mem.mpr fun T hT => hempty T ?_
    exact Std.ExtTreeSet.mem_toList.mp hT

/-- The end of a node that keeps nothing. -/
theorem nodesKept_erase (hkept : NodesKept p) (hempty : ∀ T, ¬ p.Keeps n T) :
    NodesKept { p with nodes := p.nodes.erase n } := by
  have hset : ∀ (set : Node → StrSet) (m : Str), ((p.nodes.erase n)[m]?).elim ∅ set =
      if m = n then ∅ else (p.nodes[m]?).elim ∅ set := by
    intro set m
    rw [getElem?_erase']
    split_ifs <;> rfl
  refine ⟨⟨hkept.own.pUuid, hkept.own.unheard, hkept.own.sent⟩, fun m T hkeeps => ?_, fun m T => ?_, fun m T => ?_⟩
  · unfold Keeps subscribed advertised services at hkeeps
    simp only [hset] at hkeeps
    split_ifs at hkeeps with hm
    · simp at hkeeps
    · obtain ⟨topic, hname⟩ := hkept.names m T hkeeps
      refine ⟨topic, ?_⟩
      rw [fqn, getElem?_erase', if_neg hm]
      exact hname
  · unfold subscribed
    rw [hset]
    split_ifs with hm
    · subst hm
      exact iff_of_false (fun hne => hempty T (.inl ((hkept.subscriptions m T).mp hne))) (by simp)
    · exact hkept.subscriptions m T
  · unfold services
    rw [hset]
    split_ifs with hm
    · subst hm
      exact iff_of_false (fun hne => hempty T (.inr (.inr ((hkept.repliers m T).mp hne)))) (by simp)
    · exact hkept.repliers m T

/-- What every removal of a node preserves holds at the end of a loop of its destructor. -/
theorem forTopics_induct {R : Process → Prop}
    (hstep : ∀ q e o, IsRemoval n e.op → q.exec e = some o → R q → R o.process) {op : Str → Op}
    (hop : ∀ topic, IsRemoval n (op topic)) {topics : List Str} (hp : R p)
    (h : p.forTopics op topics throwsAt = some p') : R p' := by
  induction topics generalizing p with
  | nil =>
    obtain rfl := Option.some.inj h
    exact hp
  | cons topic topics ih =>
    obtain ⟨q, hq, hrest⟩ := run_cons_eq_some.mp h
    obtain ⟨o, -, ho, -, rfl⟩ := stepNoexcept_eq_some.mp hq
    exact ih (hstep p _ o (hop topic) ho hp) hrest

/-- What every removal of a node preserves holds at the end of its destructor. -/
theorem destroyNode_induct {R : Process → Prop} {q : Process} (hp : R p)
    (hstep : ∀ q e o, IsRemoval n e.op → q.exec e = some o → R q → R o.process)
    (h : p.destroyNode n throwsAt = some q) : ∃ p₃, R p₃ ∧ q = { p₃ with nodes := p₃.nodes.erase n } := by
  obtain ⟨-, p₁, p₂, p₃, ⟨h₁, -⟩, ⟨h₂, -⟩, ⟨h₃, -⟩, rfl⟩ := destroyNode_eq_some.mp h
  have hp₁ : R p₁ := forTopics_induct hstep (fun topic => ⟨topic, .inl rfl⟩) hp h₁
  have hp₂ : R p₂ := forTopics_induct hstep (fun topic => ⟨topic, .inr (.inl rfl)⟩) hp₁ h₂
  exact ⟨p₃, forTopics_induct hstep (fun topic => ⟨topic, .inr (.inr rfl)⟩) hp₂ h₃, rfl⟩

theorem forTopics_shrunk {op : Str → Op} (hop : ∀ topic, IsRemoval n (op topic)) {topics : List Str}
    (hkept : NodesKept p) (hn : n ∈ p.nodes) (h : p.forTopics op topics throwsAt = some p') :
    NodesKept p' ∧ Shrunk n p p' := by
  refine forTopics_induct (R := fun q => NodesKept q ∧ Shrunk n p q) ?_ hop ⟨hkept, Shrunk.refl hn⟩ h
  rintro q e o hr hexec ⟨hkept, hshrunk⟩
  exact ⟨nodesKept_exec hexec hkept, hshrunk.trans (shrunk_exec hexec hr hshrunk.node)⟩

/-- One loop of the destructor over names that the node qualifies returns, and takes them all out of its set. -/
theorem forTopics_removal (op : Str → Op) (hop : ∀ topic, IsRemoval n (op topic)) (set : Process → StrSet)
    (hset : ∀ {p : Process} {o : Outcome} {topic : Str}, p.exec { op := op topic } = some o →
      ∀ T, T ∈ set o.process ↔ T ∈ set p ∧ p.fqn n topic ≠ some T)
    (names : List Str) (hkept : NodesKept p) (hn : n ∈ p.nodes)
    (hnames : ∀ T ∈ names, p.fqn n (TopicUtils.stripName T) = some T) :
    ∃ p', p.forTopics op (names.map TopicUtils.stripName) noThrow = some p' ∧
      ∀ T, T ∈ set p' ↔ T ∈ set p ∧ T ∉ names := by
  induction names generalizing p with
  | nil => exact ⟨p, rfl, fun T => by simp⟩
  | cons name names ih =>
    obtain ⟨o, b, ho, hvalue⟩ := exec_removal hkept hn (hop (TopicUtils.stripName name))
    have hshrunk := shrunk_exec ho (hop _) hn
    have hname := hnames name (List.mem_cons_self ..)
    have hrest : ∀ T ∈ names, o.process.fqn n (TopicUtils.stripName T) = some T := fun T hT =>
      hshrunk.fqn _ T (hnames T (List.mem_cons_of_mem _ hT))
    obtain ⟨p', hrun, hmem⟩ := ih (nodesKept_exec ho hkept) hshrunk.node hrest
    refine ⟨p', ?_, fun T => ?_⟩
    · exact run_cons_eq_some.mpr ⟨o.process, stepNoexcept_eq_some.mpr ⟨o, b, ho, hvalue, rfl⟩, hrun⟩
    · rw [hmem, hset ho, hname, List.mem_cons, not_or, ne_eq, Option.some.injEq, and_assoc, eq_comm]

/-- Over all the names of its set it leaves none, and its assertion holds. -/
theorem exists_forTopics (op : Str → Op) (hop : ∀ topic, IsRemoval n (op topic)) (set : Process → StrSet)
    (hset : ∀ {p : Process} {o : Outcome} {topic : Str}, p.exec { op := op topic } = some o →
      ∀ T, T ∈ set o.process ↔ T ∈ set p ∧ p.fqn n topic ≠ some T)
    (hkept : NodesKept p) (hn : n ∈ p.nodes) (hkeeps : ∀ T ∈ set p, p.Keeps n T) :
    ∃ p', p.forTopics op ((set p).toList.map TopicUtils.stripName) noThrow = some p' ∧
      (set p').toList.map TopicUtils.stripName = [] := by
  obtain ⟨p', hrun, hmem⟩ := forTopics_removal op hop set hset (set p).toList hkept hn fun T hT =>
    hkept.fqn_stripName (hkeeps T (Std.ExtTreeSet.mem_toList.mp hT))
  refine ⟨p', hrun, toList_map_eq_nil.mpr fun T hT => ?_⟩
  obtain ⟨hold, hnot⟩ := (hmem T).mp hT
  exact hnot (Std.ExtTreeSet.mem_toList.mpr hold)

/-- **The assertions hold**: when nothing throws, each loop of the destructor returns and leaves its list empty. -/
theorem exists_destroyNode (hkept : NodesKept p) (hn : n ∈ p.nodes) : ∃ q, p.destroyNode n noThrow = some q := by
  have hsubscribed : ∀ topic, IsRemoval n (.unsubscribe n topic) := fun topic => ⟨topic, .inl rfl⟩
  have hadvertised : ∀ topic, IsRemoval n (.unadvertise n topic) := fun topic => ⟨topic, .inr (.inl rfl)⟩
  have hservices : ∀ topic, IsRemoval n (.unadvertiseSrv n topic) := fun topic => ⟨topic, .inr (.inr rfl)⟩
  obtain ⟨p₁, h₁, hnone₁⟩ := exists_forTopics (.unsubscribe n) hsubscribed (fun p => p.subscribed n)
    (fun {p o topic} h T => by rw [mem_subscribed_exec h]; simp) hkept hn fun T hT => .inl hT
  obtain ⟨hkept₁, hshrunk₁⟩ := forTopics_shrunk hsubscribed hkept hn h₁
  obtain ⟨p₂, h₂, hnone₂⟩ := exists_forTopics (.unadvertise n) hadvertised (fun p => p.advertised n)
    (fun {p o topic} h T => by rw [mem_advertised_exec h]; simp) hkept₁ hshrunk₁.node fun T hT => .inr (.inl hT)
  obtain ⟨hkept₂, hshrunk₂⟩ := forTopics_shrunk hadvertised hkept₁ hshrunk₁.node h₂
  obtain ⟨p₃, h₃, hnone₃⟩ := exists_forTopics (.unadvertiseSrv n) hservices (fun p => p.services n)
    (fun {p o topic} h T => by rw [mem_services_exec h]; simp) hkept₂ hshrunk₂.node fun T hT => .inr (.inr hT)
  exact ⟨_, destroyNode_eq_some.mpr ⟨hn, p₁, p₂, p₃, ⟨h₁, hnone₁⟩, ⟨h₂, hnone₂⟩, ⟨h₃, hnone₃⟩, rfl⟩⟩

/-- Whatever throws, a destructor that returns has gone through its loops and left nothing. -/
theorem destroyNode_leaves {q : Process} (hkept : NodesKept p) (h : p.destroyNode n throwsAt = some q) : ∃ p₁ p₂ p₃,
    p.forTopics (.unsubscribe n) (p.subscribedTopics n) throwsAt = some p₁ ∧
    p₁.forTopics (.unadvertise n) (p₁.advertisedTopics n) throwsAt = some p₂ ∧
    p₂.forTopics (.unadvertiseSrv n) (p₂.advertisedServices n) throwsAt = some p₃ ∧
    q = { p₃ with nodes := p₃.nodes.erase n } ∧ NodesKept p₃ ∧ (∀ T, ¬ p₃.Keeps n T) ∧ Shrunk n p p₂ := by
  obtain ⟨hn, p₁, p₂, p₃, ⟨h₁, hnone₁⟩, ⟨h₂, hnone₂⟩, ⟨h₃, hnone₃⟩, rfl⟩ := destroyNode_eq_some.mp h
  obtain ⟨hkept₁, hshrunk₁⟩ := forTopics_shrunk (fun topic => ⟨topic, .inl rfl⟩) hkept hn h₁
  obtain ⟨hkept₂, hshrunk₂⟩ := forTopics_shrunk (fun topic => ⟨topic, .inr (.inl rfl)⟩) hkept₁ hshrunk₁.node h₂
  obtain ⟨hkept₃, hshrunk₃⟩ := forTopics_shrunk (fun topic => ⟨topic, .inr (.inr rfl)⟩) hkept₂ hshrunk₂.node h₃
  refine ⟨p₁, p₂, p₃, h₁, h₂, h₃, rfl, hkept₃, ?_, hshrunk₁.trans hshrunk₂⟩
  rintro T (hT | hT | hT)
  · exact toList_map_eq_nil.mp hnone₁ T ((hshrunk₂.keeps T).1 ((hshrunk₃.keeps T).1 hT))
  · exact toList_map_eq_nil.mp hnone₂ T ((hshrunk₃.keeps T).2.1 hT)
  · exact toList_map_eq_nil.mp hnone₃ T hT

theorem nodesKept_live (hkept : NodesKept p) {l : Life} (h : p.live l = some p') : NodesKept p' := by
  cases l with
  | event e =>
    obtain ⟨o, ho, rfl⟩ := Option.map_eq_some_iff.mp h
    exact nodesKept_exec ho hkept
  | destroy n =>
    obtain ⟨_, _, p₃, -, -, -, rfl, hkept₃, hempty, -⟩ := destroyNode_leaves hkept h
    exact nodesKept_erase hkept₃ hempty

/-- **Every run keeps the names and the handlers of the nodes in step.** -/
theorem nodesKept_run {shared : NodeShared} {hostAddr : Str} {ls : List Life}
    (h : run live (start shared hostAddr) ls = some p) : NodesKept p :=
  run_invariant NodesKept (nodesKept_start shared hostAddr) (fun _ _ _ hkept hlive => nodesKept_live hkept hlive) h

/-- **The destructor finds everything**: when no ZeroMQ call throws, all its loops return and its assertions hold;
whenever it returns, no handler is left under the UUID of the node.  For each name that the node keeps, the name without
its partition is qualified with this name again, and belongs to no other. -/
theorem destructor_cleans_up {shared : NodeShared} {hostAddr : Str} {ls : List Life}
    (h : run live (start shared hostAddr) ls = some p) (hn : n ∈ p.nodes) :
    (∃ p', p.destroyNode n noThrow = some p') ∧
    (∀ throwsAt p', p.destroyNode n throwsAt = some p' →
      ∀ T, p'.shared.localSubscriptions.cell T n = ∅ ∧ p'.shared.repliers.cell T n = ∅) ∧
    ∀ T, p.Keeps n T → p.fqn n (TopicUtils.stripName T) = some T ∧
      ∀ T', p.Keeps n T' → TopicUtils.stripName T = TopicUtils.stripName T' → T = T' := by
  have hkept := nodesKept_run h
  refine ⟨exists_destroyNode hkept hn, fun throwsAt p' hdestroy T => ?_, fun T hT => ?_⟩
  · obtain ⟨_, _, p₃, -, -, -, rfl, hkept₃, hempty, -⟩ := destroyNode_leaves hkept hdestroy
    constructor
    · by_contra hne
      exact hempty T (.inl ((hkept₃.subscriptions n T).mp hne))
    · by_contra hne
      exact hempty T (.inr (.inr ((hkept₃.repliers n T).mp hne)))
  · refine ⟨hkept.fqn_stripName hT, fun T' hT' heq => ?_⟩
    have hname := hkept.fqn_stripName hT
    rw [heq, hkept.fqn_stripName hT'] at hname
    exact (Option.some.inj hname).symm

/-- A node with a partition and a namespace, under two spellings, and what it keeps. -/
def spelledNode : List Life :=
  let es : List Event := setCallbacks ++ [
    { op := .construct (uuidOf 1) none (some (ascii ['p', '/'], ascii ['/', 'n'])) },
    { op := .subscribe (uuidOf 1).1 (ascii ['t', '/']) [2] },
    { op := .subscribe (uuidOf 1).1 (ascii ['/', 't']) [3] },
    { op := .advertise (uuidOf 1).1 (ascii ['t']) .all },
    { op := .advertiseSrv (uuidOf 1).1 (ascii ['s']) [4] .host },
    { op := .unsubscribe (uuidOf 1).1 (ascii ['u']) }]
  es.map .event

theorem destructor_cleans_up_spelled : ∃ p p', run live (start (sample ⟨65, by decide⟩) []) spelledNode = some p ∧
    p.Keeps (uuidOf 1).1 (ascii ['@', '/', 'p', '@', '/', 't']) ∧ p.destroyNode (uuidOf 1).1 noThrow = some p' ∧
    ∀ T, p'.shared.localSubscriptions.cell T (uuidOf 1).1 = ∅ ∧ p'.shared.repliers.cell T (uuidOf 1).1 = ∅ := by
  have hreached : (run live (start (sample ⟨65, by decide⟩) []) spelledNode).any (fun p =>
      (uuidOf 1).1 ∈ p.nodes ∧ ascii ['@', '/', 'p', '@', '/', 't'] ∈ p.subscribed (uuidOf 1).1) = true := by
    decide +kernel
  obtain ⟨p, hp, hn, hkeeps⟩ := exists_of_any hreached
  obtain ⟨⟨p', hdestroy⟩, hgone, -⟩ := destructor_cleans_up hp hn
  exact ⟨p, p', hp, .inl hkeeps, hdestroy, hgone noThrow p' hdestroy⟩

end Destructor

/-! ## Bookkeeping -/

section Bookkeeping

/-- The node whose operation it is. -/
def Op.actor : Op → Option Str
  | .subscribe n _ _ | .unsubscribe n _ | .advertise n _ _ | .unadvertise n _ | .publish n _ _
  | .advertiseSrv n _ _ _ | .unadvertiseSrv n _ | .request n _ _ _ => some n
  | _ => none

/-- The node that acts, or ends. -/
def Life.actor : Life → Option Str
  | .event e => e.op.actor
  | .destroy n => some n

theorem IsRemoval.actor {n : Str} {op : Op} (h : IsRemoval n op) : op.actor = some n := by
  obtain ⟨topic, rfl | rfl | rfl⟩ := h <;> rfl

/-- The subscription handlers and the repliers of a node are the same. -/
def SameHandlers (n : Str) (p p' : Process) : Prop :=
  ∀ T, p'.shared.localSubscriptions.cell T n = p.shared.localSubscriptions.cell T n ∧
    p'.shared.repliers.cell T n = p.shared.repliers.cell T n

variable {p p' : Process} {n m : Str}

theorem SameHandlers.trans {q : Process} (h : SameHandlers n p q) (h' : SameHandlers n q p') : SameHandlers n p p' :=
  fun T => ⟨(h' T).1.trans (h T).1, (h' T).2.trans (h T).2⟩

/-- An operation leaves the handlers of every node but its own alone. -/
theorem sameHandlers_exec {e : Event} {o : Outcome} (h : p.exec e = some o) (hn : e.op.actor ≠ some n) :
    SameHandlers n p o.process := by
  intro T
  rw [(core_exec h).1, repliers_exec h]
  obtain ⟨op, throwsAt⟩ := e
  have hne : ∀ m, op.actor = some m → m ≠ n := fun m hm heq => hn (hm.trans (congrArg some heq))
  cases op with
  | subscribe m topic u => exact ⟨cell_add_aside p _ _ (hne m rfl) topic T, rfl⟩
  | unsubscribe m topic => exact ⟨cell_remove_aside p _ (hne m rfl) topic T, rfl⟩
  | advertiseSrv m topic u scope => exact ⟨rfl, cell_add_aside p _ _ (hne m rfl) topic T⟩
  | unadvertiseSrv m topic => exact ⟨rfl, cell_remove_aside p _ (hne m rfl) topic T⟩
  | _ => exact ⟨rfl, rfl⟩

/-- The destructor leaves the handlers of every other node alone. -/
theorem sameHandlers_destroyNode (h : p.destroyNode m noThrow = some p') (hn : m ≠ n) : SameHandlers n p p' := by
  have hstep : ∀ q e o, IsRemoval m e.op → q.exec e = some o → SameHandlers n p q → SameHandlers n p o.process := by
    intro q e o hr hexec hsame
    refine hsame.trans (sameHandlers_exec hexec ?_)
    rw [hr.actor]
    exact fun hactor => hn (Option.some.inj hactor)
  obtain ⟨q, hq, rfl⟩ := destroyNode_induct (fun _ => ⟨rfl, rfl⟩) hstep h
  exact hq

theorem sameHandlers_live {l : Life} (h : p.live l = some p') (hn : l.actor ≠ some n) : SameHandlers n p p' := by
  cases l with
  | event e =>
    obtain ⟨o, ho, rfl⟩ := Option.map_eq_some_iff.mp h
    exact sameHandlers_exec ho hn
  | destroy m => exact sameHandlers_destroyNode h fun hm => hn (congrArg some hm)

/-- **A node is subscribed to the topics, and offers the services, of which it has handlers**, and no operation of
one node changes the handlers of another. -/
theorem bookkeeping {shared : NodeShared} {hostAddr : Str} {ls : List Life}
    (h : run live (start shared hostAddr) ls = some p) :
    (∀ n T, (T ∈ p.subscribed n ↔ p.shared.localSubscriptions.hasHandlersForNode T n = true) ∧
      (T ∈ p.services n ↔ p.shared.repliers.hasHandlersForNode T n = true)) ∧
    ∀ l p', p.live l = some p' → ∀ n, l.actor ≠ some n → SameHandlers n p p' := by
  have hkept := nodesKept_run h
  refine ⟨fun n T => ?_, fun l p' hlive n => sameHandlers_live hlive⟩
  rw [HandlerStorage.hasHandlersForNode_iff, HandlerStorage.hasHandlersForNode_iff]
  exact ⟨(hkept.subscriptions n T).symm, (hkept.repliers n T).symm⟩

/-- Two nodes under two spellings of one topic; the first unsubscribes, and finds no publisher to tell. -/
def twoSubscribers : List Life :=
  let es : List Event := setCallbacks ++ [{ op := .construct (uuidOf 1) none none },
    { op := .construct (uuidOf 2) none none }, { op := .subscribe (uuidOf 1).1 (ascii ['t']) [2] },
    { op := .subscribe (uuidOf 2).1 (ascii ['/', 't', '/']) [3] },
    { op := .unsubscribe (uuidOf 1).1 (ascii ['t', '/']) }]
  es.map .event

theorem bookkeeping_twoSubscribers : ∃ p, run live (start (sample ⟨65, by decide⟩) []) twoSubscribers = some p ∧
    p.shared.localSubscriptions.hasHandlersForNode (ascii ['@', '@', '/', 't']) (uuidOf 1).1 = false ∧
    p.shared.localSubscriptions.hasHandlersForNode (ascii ['@', '@', '/', 't']) (uuidOf 2).1 = true := by
  have hreached : (run live (start (sample ⟨65, by decide⟩) []) twoSubscribers).any (fun p =>
      ascii ['@', '@', '/', 't'] ∉ p.subscribed (uuidOf 1).1 ∧
        ascii ['@', '@', '/', 't'] ∈ p.subscribed (uuidOf 2).1) = true := by
    decide +kernel
  obtain ⟨p, hp, hgone, hkept⟩ := exists_of_any hreached
  obtain ⟨hiff, -⟩ := bookkeeping hp
  exact ⟨p, hp, Bool.eq_false_iff.mpr fun h => hgone ((hiff _ _).1.mpr h), (hiff _ _).1.mp hkept⟩

end Bookkeeping

end Process

end IgnTransport
