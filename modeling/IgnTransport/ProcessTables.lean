import Mathlib
import IgnTransport.DiscoveryOutputs
import IgnTransport.NodeSharedTables
import IgnTransport.Node

/-!
# IgnTransport.ProcessTables — which operation of a process touches which table

The programs of all operations keep the subscriptions.  The remote subscribers change with a control message, and with
the notifications that the discovery service makes when a datagram is dispatched or a process expires; the nodes
change with their own entry points.
-/

namespace IgnTransport

open Lib CallM

/-- A disconnection callback. -/
def Output.IsDisconnection : Output → Prop
  | .disconnection .. => True
  | _ => False

theorem Output.IsDatagram.not_isDisconnection {o : Output} (h : o.IsDatagram) : ¬ o.IsDisconnection := by
  cases o with
  | sendto b => exact fun h => h
  | _ => cases h

namespace NodeShared

/-! ## Reactions -/

section Reactions

/-- The subscriptions and the constants. -/
def core (s : NodeShared) : NodeShared := s.butTopics.butServices

/-- The subscriptions, the remote subscribers and the constants. -/
def remoteCore (s : NodeShared) : NodeShared := s.butConnections.butServices

/-- What an output of the discovery service makes a process do. -/
def ReactEffect (s : NodeShared) (o : Output) (e : Effect) : Prop :=
  match o with
  | .sendto b => e = .datagram b
  | .connection .msg args => s.ConnectionEffect args e
  | .connection .srv _ => ServiceEffect e
  | .disconnection .msg _ => DisconnectionEffect e
  | .disconnection .srv _ => False

theorem within_react (s : NodeShared) (d : Discovery) (o : Output) :
    Within core s (s.ReactEffect o) (react d o) := by
  match o with
  | .sendto b => exact within_emit rfl
  | .connection .msg args =>
    refine Within.coarsen (g := butConnections) (f := fun s => s.butRemote.butServices) fun t ht => ?_
    refine (within_onNewConnection t args).mono fun e he => ?_
    subst ht
    exact he
  | .connection .srv args =>
    exact Within.coarsen (g := butServices) (f := butTopics) fun t _ => within_onNewSrvConnection t d.infoSrv args
  | .disconnection .msg args =>
    exact Within.coarsen (g := butTopics) (f := butServices) fun t _ => within_onNewDisconnection t args
  | .disconnection .srv args =>
    exact Within.coarsen (g := butServices) (f := butTopics) fun _ _ => within_update fun _ h => h

theorem within_react_remote (s : NodeShared) (d : Discovery) {o : Output} (h : ¬ o.IsDisconnection) :
    Within remoteCore s (s.ReactEffect o) (react d o) := by
  match o with
  | .sendto b => exact within_emit rfl
  | .connection .msg args =>
    refine Within.coarsen (g := butConnections) (f := butServices) fun t ht => ?_
    refine (within_onNewConnection t args).mono fun e he => ?_
    subst ht
    exact he
  | .connection .srv args =>
    exact Within.coarsen (g := butServices) (f := butConnections) fun t _ => within_onNewSrvConnection t d.infoSrv args
  | .disconnection .. => exact absurd trivial h

/-- What an output does to the remote subscribers. -/
def dropFor (o : Output) (s : TopicStorage) : TopicStorage :=
  match o with
  | .disconnection .msg args => dropRemote args s
  | _ => s

theorem remote_react (d : Discovery) (o : Output) (w : World NodeShared Effect) :
    (react d o w).2.state.remoteSubscribers = dropFor o w.state.remoteSubscribers := by
  match o with
  | .sendto b => rfl
  | .connection type args =>
    exact congrArg (·.remoteSubscribers) (within_react_remote _ d (o := .connection type args) (fun h => h) w rfl).1
  | .disconnection .msg args => exact congrArg (·.remoteSubscribers) (state_onNewDisconnection args w)
  | .disconnection .srv args => rfl

end Reactions

end NodeShared

namespace Process

open NodeShared

/-! ## Programs -/

section Programs

theorem within_reactAll (s : NodeShared) (d : Discovery) (out : List Output) :
    Within core s (fun e => ∃ o ∈ out, s.ReactEffect o e) (reactAll d out) :=
  Within.forEach fun o ho => (within_react s d o).mono fun _ he => ⟨o, ho, he⟩

theorem within_reactAll_remote (s : NodeShared) (d : Discovery) {out : List Output}
    (h : ∀ o ∈ out, ¬ o.IsDisconnection) :
    Within remoteCore s (fun e => ∃ o ∈ out, s.ReactEffect o e) (reactAll d out) :=
  Within.forEach fun o ho => (within_react_remote s d (h o ho)).mono fun _ he => ⟨o, ho, he⟩

theorem does_reactAll_sent {out : List Output} (s : NodeShared) (d : Discovery) (hout : ∀ o ∈ out, o.IsDatagram) :
    ∃ es, Does (reactAll d out) s () s es := by
  induction out with
  | nil => exact ⟨[], does_pure s ()⟩
  | cons o out ih =>
    obtain ⟨ho, hrest⟩ := List.forall_mem_cons.mp hout
    obtain ⟨es, hdoes⟩ := ih hrest
    match o, ho with
    | .sendto b, _ => exact ⟨_, (does_emit s (Effect.datagram b)).bind hdoes⟩

/-- The control messages of `Unsubscribe`. -/
def EndEffect (s : NodeShared) (nUuid name : Str) (infoMsg : TopicStorage) : Effect → Prop
  | .unsubscribe filter => filter = name
  | .control ctrl frames => frames = controlFrames name s.myAddress nUuid EndConnection ∧
      ∃ p, ∃ a ∈ infoMsg.cell name p, ctrl = cStr a.ctrl
  | _ => False

/-- The calls of `Unsubscribe` behind the one about the filter. -/
def notifyPublishers (nUuid name : Str) (infoMsg : TopicStorage) : NodeM Bool :=
  match infoMsg.getAddresses name with
  | none => return false
  | some addresses => do
    CallM.forEach (fun (node : Address) => notifyEnd nUuid name node.ctrl)
      (addresses.toList.flatMap fun proc => proc.2)
    return true

theorem notifyUnsubscribed_eq (nUuid name : Str) (infoMsg : TopicStorage) : notifyUnsubscribed nUuid name infoMsg = (do
    removeFilter name
    notifyPublishers nUuid name infoMsg) := rfl

theorem within_notifyPublishers (s : NodeShared) (nUuid name : Str) (infoMsg : TopicStorage) :
    Within id s (fun e => IsControl e ∧ EndEffect s nUuid name infoMsg e) (notifyPublishers nUuid name infoMsg) := by
  unfold notifyPublishers
  cases hget : infoMsg.getAddresses name with
  | none => exact within_pure false
  | some addresses =>
    obtain ⟨-, rfl⟩ := (TopicStorage.getAddresses_eq_some_iff _ _ _).mp hget
    refine Within.bind (Within.forEach fun a ha => ?_) fun _ => within_pure true
    obtain ⟨⟨q, as⟩, hq, ha⟩ := List.mem_flatMap.mp ha
    rw [← ((infoMsg.mem_row_toList name q as).mp hq).1] at ha
    refine within_openDealer.bind fun _ => within_look fun t ht => within_sendFrames ?_
    obtain rfl : t = s := ht
    exact ⟨trivial, rfl, q, a, ha, rfl⟩

theorem within_notifyUnsubscribed (s : NodeShared) (nUuid name : Str) (infoMsg : TopicStorage) :
    Within id s (EndEffect s nUuid name infoMsg) (notifyUnsubscribed nUuid name infoMsg) := by
  rw [notifyUnsubscribed_eq]
  refine Within.bind (within_look fun t _ => ?_) fun _ =>
    (within_notifyPublishers s nUuid name infoMsg).mono fun _ h => h.2
  split_ifs
  · exact within_pure ()
  · exact within_zmq rfl

/-- `Unsubscribe` returns when nothing throws. -/
theorem does_notifyUnsubscribed (s : NodeShared) (nUuid name : Str) (infoMsg : TopicStorage) :
    ∃ b es, Does (notifyUnsubscribed nUuid name infoMsg) s b s es := by
  have hbranch : ∃ es, Does (if s.localSubscriptions.hasHandlersForTopic name then return ()
      else zmq (.unsubscribe name)) s () s es := by
    split_ifs
    · exact ⟨_, does_pure s ()⟩
    · exact ⟨_, does_call s _ _⟩
  have hnotify : ∃ b es, Does (notifyPublishers nUuid name infoMsg) s b s es := by
    unfold notifyPublishers
    cases infoMsg.getAddresses name with
    | none => exact ⟨false, _, does_pure s false⟩
    | some addresses =>
      have hend : ∀ node : Address, Does (notifyEnd nUuid name node.ctrl) s () s _ := fun node =>
        (does_openDealer s).bind ((does_look s).bind (does_sendFrames s _ _))
      exact ⟨true, _, (Does.forEach fun node _ => hend node).bind (does_pure s true)⟩
  obtain ⟨_, hbranch⟩ := hbranch
  have hfilter : Does (removeFilter name) s () s _ := (does_look s).bind hbranch
  obtain ⟨b, _, hnotify⟩ := hnotify
  exact ⟨b, _, hfilter.bind hnotify⟩

/-- What `Publish` does with its sockets and handlers. -/
def PublishEffect (s : NodeShared) (name data : Str) : Effect → Prop
  | .send .publisher _ => s.remoteSubscribers.hasTopic name = true
  | .callback handler topic msg => topic = name ∧ msg = data ∧
      ∃ n u : Str, (s.localSubscriptions.cell name n)[u]? = some handler
  | _ => False

theorem within_runLocalCallbacks (s : NodeShared) (name data : Str) :
    Within id s (PublishEffect s name data) (runLocalCallbacks name data s.localSubscriptions) := by
  unfold runLocalCallbacks
  cases hget : s.localSubscriptions.getHandlers name with
  | none => exact within_pure ()
  | some handlers =>
    obtain ⟨-, rfl⟩ := (HandlerStorage.getHandlers_eq_some_iff _ _ _).mp hget
    refine Within.forEach fun handler hmem => ?_
    split_ifs
    · exact within_emit ⟨rfl, rfl, (HandlerStorage.mem_handlersOf _ _ _).mp hmem⟩
    · exact within_pure ()

theorem within_publish (s : NodeShared) (node : Node) (name data : Str) :
    Within id s (PublishEffect s name data) (publish node name data) := by
  unfold publish
  split_ifs
  · exact within_pure false
  · refine within_look fun t ht => ?_
    obtain rfl : t = s := ht
    refine (within_runLocalCallbacks t name data).bind fun _ => ?_
    split_ifs with htopic
    · exact (NodeShared.within_publish t htopic).bind fun _ => within_pure true
    · exact within_pure true

theorem within_recvControlUpdate (s : NodeShared) (topic procUuid nodeUuid data : Str) :
    Within butRemote s (fun _ => False) (recvControlUpdate topic procUuid nodeUuid data) := by
  refine Within.bind (Within.completes (Within.forEach fun _ _ => within_attempt _)) fun received => ?_
  split_ifs
  · cases stoi data with
    | error x => exact within_throw x
    | ok n => exact within_update fun _ h => h
  · exact within_pure ()

end Programs

/-! ## Operations -/

section Operations

variable (p : Process)

/-- The subscriptions after an operation. -/
def subscriptionsAfter : Op → HandlerStorage SubscriptionHandler
  | .subscribe nUuid topic hUuid =>
    match p.fqn nUuid topic with
    | none => p.shared.localSubscriptions
    | some name => p.shared.localSubscriptions.addHandler name nUuid { hUuid, nUuid }
  | .unsubscribe nUuid topic =>
    match p.fqn nUuid topic with
    | none => p.shared.localSubscriptions
    | some name => (p.shared.localSubscriptions.removeHandlersForNode name nUuid).1
  | _ => p.shared.localSubscriptions

/-- The repliers after an operation. -/
def repliersAfter : Op → HandlerStorage RepHandler
  | .advertiseSrv nUuid topic hUuid _ =>
    match p.fqn nUuid topic with
    | none => p.shared.repliers
    | some name => p.shared.repliers.addHandler name nUuid { hUuid }
  | .unadvertiseSrv nUuid topic =>
    match p.fqn nUuid topic with
    | none => p.shared.repliers
    | some name => (p.shared.repliers.removeHandlersForNode name nUuid).1
  | _ => p.shared.repliers

/-- The requests before the first call of an operation. -/
def requestsAfter : Op → HandlerStorage ReqHandler
  | .request nUuid topic hUuid data =>
    match p.fqn nUuid topic with
    | none => p.shared.requests
    | some name =>
      if (p.shared.repliers.getFirstHandler name).isSome then p.shared.requests
      else p.shared.requests.addHandler name nUuid { hUuid, nUuid, data }
  | _ => p.shared.requests

/-- A node after one of its entry points changed it under a valid name. -/
def nodesAfterNamed (nUuid topic : Str) (f : Str → Node → Node) : StrMap Node :=
  match p.fqn nUuid topic with
  | none => p.nodes
  | some name => p.nodes.modify nUuid (f name)

/-- The nodes after an operation. -/
def nodesAfter : Op → StrMap Node
  | .construct nUuid envPartition args => p.nodes.insert nUuid.1 (Node.construct envPartition args)
  | .subscribe nUuid topic _ => p.nodesAfterNamed nUuid topic fun name node =>
      { node with topicsSubscribed := node.topicsSubscribed.insert name }
  | .unsubscribe nUuid topic => p.nodesAfterNamed nUuid topic fun name node =>
      { node with topicsSubscribed := node.topicsSubscribed.erase name }
  | .advertise nUuid topic _ => p.nodesAfterNamed nUuid topic fun name node =>
      { node with topicsAdvertised := node.topicsAdvertised.insert name }
  | .unadvertise nUuid topic => p.nodesAfterNamed nUuid topic fun name node =>
      { node with topicsAdvertised := node.topicsAdvertised.erase name }
  | .advertiseSrv nUuid topic _ _ => p.nodesAfterNamed nUuid topic fun name node =>
      { node with srvsAdvertised := node.srvsAdvertised.insert name }
  | .unadvertiseSrv nUuid topic => p.nodesAfterNamed nUuid topic fun name node =>
      { node with srvsAdvertised := node.srvsAdvertised.erase name }
  | _ => p.nodes

/-- What an operation is for the discovery service. -/
def discoveryOp : Op → Option Discovery.Op
  | .setConnectionsCb type => some (.setConnectionsCb type true)
  | .setDisconnectionsCb type => some (.setDisconnectionsCb type true)
  | .construct .. | .unsubscribe .. | .publish .. | .control .. => none
  | .subscribe nUuid topic _ => (p.fqn nUuid topic).map fun name => .discover name false
  | .advertise nUuid topic scope => (p.fqn nUuid topic).map fun name =>
      .advertise .msg name p.shared.myAddress p.shared.myControlAddress nUuid scope
  | .unadvertise nUuid topic => (p.fqn nUuid topic).map fun name => .unadvertise .msg name nUuid
  | .advertiseSrv nUuid topic _ scope => (p.fqn nUuid topic).map fun name =>
      .advertise .srv name p.shared.myReplierAddress p.shared.replierId nUuid scope
  | .unadvertiseSrv nUuid topic => (p.fqn nUuid topic).map fun name => .unadvertise .msg name nUuid
  | .request nUuid topic _ _ => (p.fqn nUuid topic).bind fun name =>
      if (p.shared.repliers.getFirstHandler name).isSome ∨ (p.discovery.infoSrv.getAddresses name).isSome then none
      else some (.discover name true)
  | .discover topic isSrv => some (.discover topic isSrv)
  | .datagram g => some (.datagram g)
  | .heartbeat => some .heartbeat
  | .sweep now => some (.sweep now)

variable {p} {op : Op} {r : Process × NodeM Bool}

/-- `Request` asks the discovery service for a service that it does not know, or not at all. -/
theorem discoveryOp_request {nUuid topic hUuid data : Str} {dop : Discovery.Op}
    (h : p.discoveryOp (.request nUuid topic hUuid data) = some dop) :
    ∃ name, p.discovery.infoSrv.getAddresses name = none ∧ dop = .discover name true := by
  obtain ⟨name, -, heq⟩ := Option.bind_eq_some_iff.mp h
  split_ifs at heq with hknown
  exact ⟨name, by simpa using fun h => hknown (.inr h), (Option.some.inj heq).symm⟩

theorem discoveryOp_eq_datagram {op : Op} {g : Datagram} (h : p.discoveryOp op = some (.datagram g)) :
    op = .datagram g := by
  cases op with
  | datagram g' =>
    cases h
    rfl
  | request nUuid topic hUuid data =>
    obtain ⟨name, -, heq⟩ := discoveryOp_request h
    cases heq
  | subscribe nUuid topic _ | advertise nUuid topic _ | unadvertise nUuid topic | advertiseSrv nUuid topic _ _
  | unadvertiseSrv nUuid topic =>
    obtain ⟨name, -, heq⟩ := Option.map_eq_some_iff.mp h
    cases heq
  | _ => cases h

theorem named_eq_some {nUuid topic : Str} {f : Node → Str → Option (Process × NodeM Bool)}
    (h : p.named nUuid topic f = some r) :
    ∃ node, p.nodes[nUuid]? = some node ∧ ((p.fqn nUuid topic = none ∧ r = (p, return false)) ∨
      ∃ name, p.fqn nUuid topic = some name ∧ f node name = some r) := by
  unfold named at h
  obtain ⟨node, hnode, h⟩ := Option.bind_eq_some_iff.mp h
  have hfqn : p.fqn nUuid topic = node.fqn topic := by rw [fqn, hnode, Option.bind_some]
  refine ⟨node, hnode, ?_⟩
  cases hname : node.fqn topic with
  | none =>
    simp only [hname] at h
    exact .inl ⟨hfqn.trans hname, (Option.some.inj h).symm⟩
  | some name =>
    simp only [hname] at h
    exact .inr ⟨name, hfqn.trans hname, h⟩

/-! ### What an operation is -/

/-- The calls of an operation that asks the discovery service for nothing. -/
inductive OwnProgram (p : Process) (op : Op) : NodeM Bool → Prop where
  | idle (b : Bool) (hidle : p.requestsAfter op = p.shared.requests) : OwnProgram p op (return b)
  | known (nUuid topic hUuid data name : Str) (hop : op = .request nUuid topic hUuid data)
    (hname : p.fqn nUuid topic = some name) (hreplier : p.shared.repliers.getFirstHandler name = none)
    (hknown : p.discovery.infoSrv.hasTopic name = true) :
    OwnProgram p op (sendPendingRemoteReqs p.discovery.infoSrv name >>= fun _ => return true)
  | unsubscribed (nUuid topic name : Str) (hop : op = .unsubscribe nUuid topic) :
    OwnProgram p op (notifyUnsubscribed nUuid name p.discovery.infoMsg)
  | published (nUuid topic data name : Str) (node : Node) (hop : op = .publish nUuid topic data) :
    OwnProgram p op (publish node name data)
  | controlled (topic procUuid nodeUuid data : Str) (hop : op = .control topic procUuid nodeUuid data) :
    OwnProgram p op (recvControlUpdate topic procUuid nodeUuid data >>= fun _ => return true)

/-- An operation does what the discovery service puts out, or makes calls of its own. -/
inductive Action (p : Process) (op : Op) (r : Process × NodeM Bool) : Prop where
  | discovered (dop : Discovery.Op) (out : List Output) (hop : p.discoveryOp op = some dop)
    (hout : p.discovery.perform dop = some (r.1.discovery, out))
    (hprogram : r.2 = (reactAll r.1.discovery out >>= fun _ => return true))
  | own (hop : p.discoveryOp op = none) (hdiscovery : r.1.discovery = p.discovery) (hprogram : OwnProgram p op r.2)

/-- What an operation has done to the tables before its first call, and what it goes on to do. -/
structure Acts (p : Process) (op : Op) (r : Process × NodeM Bool) : Prop where
  shared : r.1.shared = { p.shared with
    localSubscriptions := p.subscriptionsAfter op
    repliers := p.repliersAfter op
    requests := p.requestsAfter op }
  nodes : r.1.nodes = p.nodesAfter op
  action : Action p op r

theorem acts_idle {b : Bool} (hsubscriptions : p.subscriptionsAfter op = p.shared.localSubscriptions)
    (hrepliers : p.repliersAfter op = p.shared.repliers) (hrequests : p.requestsAfter op = p.shared.requests)
    (hnodes : p.nodesAfter op = p.nodes) (hdiscovery : p.discoveryOp op = none) : Acts p op (p, return b) where
  shared := by rw [hsubscriptions, hrepliers, hrequests]
  nodes := hnodes.symm
  action := .own hdiscovery rfl (.idle b hrequests)

/-- **Every operation**, once: all that is known of the operations of a process is derived from this. -/
theorem acts_perform (h : p.perform op = some r) : Acts p op r := by
  cases op with
  | setConnectionsCb type =>
    rw [← Option.some.inj h]
    exact ⟨rfl, rfl, .discovered (.setConnectionsCb type true) [] rfl rfl rfl⟩
  | setDisconnectionsCb type =>
    rw [← Option.some.inj h]
    exact ⟨rfl, rfl, .discovered (.setDisconnectionsCb type true) [] rfl rfl rfl⟩
  | construct nUuid envPartition args =>
    rw [perform] at h
    split_ifs at h
    rw [← Option.some.inj h]
    exact ⟨rfl, rfl, .own rfl rfl (.idle true rfl)⟩
  | subscribe nUuid topic hUuid =>
    obtain ⟨node, -, ⟨hname, rfl⟩ | ⟨name, hname, hf⟩⟩ := named_eq_some h
    · exact acts_idle (by simp only [subscriptionsAfter, hname]) rfl rfl
        (by simp only [nodesAfter, nodesAfterNamed, hname]) (by simp only [discoveryOp, hname, Option.map_none])
    · obtain ⟨dr, hdr, rfl⟩ := Option.map_eq_some_iff.mp hf
      exact ⟨by simp only [subscriptionsAfter, hname]; rfl, by simp only [nodesAfter, nodesAfterNamed, hname]; rfl,
        .discovered (.discover name false) dr.2 (by simp only [discoveryOp, hname, Option.map_some]) hdr rfl⟩
  | unsubscribe nUuid topic =>
    obtain ⟨node, -, ⟨hname, rfl⟩ | ⟨name, hname, hf⟩⟩ := named_eq_some h
    · exact acts_idle (by simp only [subscriptionsAfter, hname]) rfl rfl
        (by simp only [nodesAfter, nodesAfterNamed, hname]) rfl
    · rw [← Option.some.inj hf]
      exact ⟨by simp only [subscriptionsAfter, hname]; rfl, by simp only [nodesAfter, nodesAfterNamed, hname]; rfl,
        .own rfl rfl (.unsubscribed nUuid topic name rfl)⟩
  | advertise nUuid topic scope =>
    obtain ⟨node, -, ⟨hname, rfl⟩ | ⟨name, hname, hf⟩⟩ := named_eq_some h
    · exact acts_idle rfl rfl rfl (by simp only [nodesAfter, nodesAfterNamed, hname])
        (by simp only [discoveryOp, hname, Option.map_none])
    · obtain ⟨dr, hdr, rfl⟩ := Option.map_eq_some_iff.mp hf
      exact ⟨rfl, by simp only [nodesAfter, nodesAfterNamed, hname]; rfl,
        .discovered (.advertise .msg name p.shared.myAddress p.shared.myControlAddress nUuid scope) dr.2
          (by simp only [discoveryOp, hname, Option.map_some]) hdr rfl⟩
  | unadvertise nUuid topic =>
    obtain ⟨node, -, ⟨hname, rfl⟩ | ⟨name, hname, hf⟩⟩ := named_eq_some h
    · exact acts_idle rfl rfl rfl (by simp only [nodesAfter, nodesAfterNamed, hname])
        (by simp only [discoveryOp, hname, Option.map_none])
    · obtain ⟨dr, hdr, rfl⟩ := Option.map_eq_some_iff.mp hf
      exact ⟨rfl, by simp only [nodesAfter, nodesAfterNamed, hname]; rfl,
        .discovered (.unadvertise .msg name nUuid) dr.2 (by simp only [discoveryOp, hname, Option.map_some]) hdr rfl⟩
  | publish nUuid topic data =>
    obtain ⟨node, -, ⟨hname, rfl⟩ | ⟨name, hname, hf⟩⟩ := named_eq_some h
    · exact acts_idle rfl rfl rfl rfl rfl
    · rw [← Option.some.inj hf]
      exact ⟨rfl, rfl, .own rfl rfl (.published nUuid topic data name node rfl)⟩
  | advertiseSrv nUuid topic hUuid scope =>
    obtain ⟨node, -, ⟨hname, rfl⟩ | ⟨name, hname, hf⟩⟩ := named_eq_some h
    · exact acts_idle rfl (by simp only [repliersAfter, hname]) rfl
        (by simp only [nodesAfter, nodesAfterNamed, hname]) (by simp only [discoveryOp, hname, Option.map_none])
    · obtain ⟨dr, hdr, rfl⟩ := Option.map_eq_some_iff.mp hf
      exact ⟨by simp only [repliersAfter, hname]; rfl, by simp only [nodesAfter, nodesAfterNamed, hname]; rfl,
        .discovered (.advertise .srv name p.shared.myReplierAddress p.shared.replierId nUuid scope) dr.2
          (by simp only [discoveryOp, hname, Option.map_some]) hdr rfl⟩
  | unadvertiseSrv nUuid topic =>
    obtain ⟨node, -, ⟨hname, rfl⟩ | ⟨name, hname, hf⟩⟩ := named_eq_some h
    · exact acts_idle rfl (by simp only [repliersAfter, hname]) rfl
        (by simp only [nodesAfter, nodesAfterNamed, hname]) (by simp only [discoveryOp, hname, Option.map_none])
    · obtain ⟨dr, hdr, rfl⟩ := Option.map_eq_some_iff.mp hf
      exact ⟨by simp only [repliersAfter, hname]; rfl, by simp only [nodesAfter, nodesAfterNamed, hname]; rfl,
        .discovered (.unadvertise .msg name nUuid) dr.2 (by simp only [discoveryOp, hname, Option.map_some]) hdr rfl⟩
  | request nUuid topic hUuid data =>
    obtain ⟨node, -, ⟨hname, rfl⟩ | ⟨name, hname, hf⟩⟩ := named_eq_some h
    · exact acts_idle rfl rfl (by simp only [requestsAfter, hname]) rfl
        (by simp only [discoveryOp, hname, Option.bind_none])
    unfold request at hf
    split_ifs at hf with hreplier
    · rw [← Option.some.inj hf]
      exact acts_idle rfl rfl (by simp only [requestsAfter, hname, hreplier, if_true]) rfl
        (by simp only [discoveryOp, hname, Option.bind_some, hreplier, true_or, if_true])
    · have hrequests : p.requestsAfter (.request nUuid topic hUuid data) =
          p.shared.requests.addHandler name nUuid { hUuid, nUuid, data } := by
        simp only [requestsAfter, hname, hreplier]
        rfl
      cases hget : p.discovery.infoSrv.getAddresses name with
      | some addresses =>
        simp only [hget] at hf
        rw [← Option.some.inj hf]
        refine ⟨by rw [hrequests]; rfl, rfl, .own ?_ rfl ?_⟩
        · simp only [discoveryOp, hname, Option.bind_some, hget, Option.isSome_some, or_true, if_true]
        · exact .known nUuid topic hUuid data name rfl hname (by simpa using hreplier)
            ((TopicStorage.getAddresses_eq_some_iff _ _ _).mp hget).1
      | none =>
        simp only [hget] at hf
        obtain ⟨dr, hdr, rfl⟩ := Option.map_eq_some_iff.mp hf
        refine ⟨by rw [hrequests]; rfl, rfl, .discovered (.discover name true) dr.2 ?_ hdr rfl⟩
        simp only [discoveryOp, hname, Option.bind_some, hreplier, hget, Option.isSome_none, or_self]
        rfl
  | discover topic isSrv =>
    obtain ⟨dr, hdr, rfl⟩ := Option.map_eq_some_iff.mp h
    exact ⟨rfl, rfl, .discovered (.discover topic isSrv) dr.2 rfl hdr rfl⟩
  | datagram g =>
    obtain ⟨dr, hdr, rfl⟩ := Option.map_eq_some_iff.mp h
    exact ⟨rfl, rfl, .discovered (.datagram g) dr.2 rfl hdr rfl⟩
  | heartbeat =>
    obtain ⟨dr, hdr, rfl⟩ := Option.map_eq_some_iff.mp h
    exact ⟨rfl, rfl, .discovered .heartbeat dr.2 rfl hdr rfl⟩
  | sweep now =>
    obtain ⟨dr, hdr, rfl⟩ := Option.map_eq_some_iff.mp h
    exact ⟨rfl, rfl, .discovered (.sweep now) dr.2 rfl hdr rfl⟩
  | control topic procUuid nodeUuid data =>
    rw [← Option.some.inj h]
    exact ⟨rfl, rfl, .own rfl rfl (.controlled topic procUuid nodeUuid data rfl)⟩

/-- What the calls of an operation leave alone, unless it is a service thread that reads a control message. -/
theorem within_own {V : Type} {view : NodeShared → V} {c : NodeM Bool} (h : OwnProgram p op c)
    (hservices : ∀ s requests, view { s with requests } = view s)
    (hremote : op.OnServiceThread = false ∨ ∀ s remoteSubscribers, view { s with remoteSubscribers } = view s)
    (v : V) : Within view v (fun _ => True) c := by
  cases h with
  | idle b => exact within_pure b
  | known nUuid topic hUuid data name =>
    exact (within_sendPending hservices (fun _ => trivial) _ name).bind fun _ => within_pure true
  | unsubscribed nUuid topic name =>
    exact Within.coarsen (g := id) (f := view) fun s _ => (within_notifyUnsubscribed s _ _ _).mono fun _ _ => trivial
  | published nUuid topic data name node =>
    exact Within.coarsen (g := id) (f := view) fun s _ => (within_publish s _ _ _).mono fun _ _ => trivial
  | controlled topic procUuid nodeUuid data hop =>
    have hkeeps : ∀ s remoteSubscribers, view { s with remoteSubscribers } = view s := by
      refine hremote.resolve_left fun hentry => ?_
      rw [hop] at hentry
      cases hentry
    refine Within.bind ?_ fun _ => within_pure true
    have hview : (fun s => view s.butRemote) = view := funext fun s => hkeeps s _
    rw [← hview]
    exact Within.coarsen (g := butRemote) (f := view) fun s _ =>
      (within_recvControlUpdate s _ _ _ _).mono fun _ h => h.elim

/-- What an operation has done before its first call, and what its calls leave alone. -/
structure Performed (p : Process) (op : Op) (r : Process × NodeM Bool) : Prop where
  remote : r.1.shared.remoteSubscribers = p.shared.remoteSubscribers
  connections : r.1.shared.connections = p.shared.connections
  subscriptions : r.1.shared.localSubscriptions = p.subscriptionsAfter op
  repliers : r.1.shared.repliers = p.repliersAfter op
  pUuid : r.1.shared.pUuid = p.shared.pUuid
  myAddress : r.1.shared.myAddress = p.shared.myAddress
  myControlAddress : r.1.shared.myControlAddress = p.shared.myControlAddress
  nodes : r.1.nodes = p.nodesAfter op
  discovery : match p.discoveryOp op with
    | none => r.1.discovery = p.discovery
    | some dop => p.discovery.step dop = some r.1.discovery
  within : Within core r.1.shared.core (fun _ => True) r.2
  entry : op.OnServiceThread = false → Within remoteCore r.1.shared.remoteCore (fun _ => True) r.2

/-- The discovery service tells an entry point of no disconnection. -/
theorem not_isDisconnection_entry {d d' : Discovery} {dop : Discovery.Op} {out : List Output}
    (hentry : op.OnServiceThread = false) (hop : p.discoveryOp op = some dop)
    (hout : d.perform dop = some (d', out)) : ∀ o ∈ out, ¬ o.IsDisconnection := by
  have hthread : (∀ g, dop ≠ .datagram g) ∧ dop ≠ .heartbeat ∧ ∀ now, dop ≠ .sweep now := by
    cases op with
    | subscribe | advertise | unadvertise | advertiseSrv | unadvertiseSrv =>
      obtain ⟨name, -, rfl⟩ := Option.map_eq_some_iff.mp hop
      simp
    | request =>
      obtain ⟨name, -, rfl⟩ := discoveryOp_request hop
      simp
    | datagram | heartbeat | sweep => cases hentry
    | _ =>
      cases hop
      try simp
  cases dop with
  | advertise => exact fun o ho => (Discovery.isDatagram_advertise hout o ho).not_isDisconnection
  | unadvertise => exact fun o ho => (Discovery.isDatagram_unadvertise hout o ho).not_isDisconnection
  | discover topic isSrv =>
    obtain ⟨-, sent, replayed, rfl, hsent, hreplayed⟩ := Discovery.discover_eq_some hout
    refine List.forall_mem_append.mpr ⟨fun o ho => (hsent o ho).not_isDisconnection, fun o ho => ?_⟩
    obtain ⟨-, q, a, -, rfl⟩ := (hreplayed o).mp ho
    exact fun h => h
  | datagram g => exact absurd rfl (hthread.1 g)
  | heartbeat => exact absurd rfl hthread.2.1
  | sweep now => exact absurd rfl (hthread.2.2 now)
  | setConnectionsCb | setDisconnectionsCb | setSilenceInterval =>
    cases hout
    simp

theorem performed_perform (h : p.perform op = some r) : Performed p op r := by
  obtain ⟨hshared, hnodes, haction⟩ := acts_perform h
  refine ⟨congrArg (·.remoteSubscribers) hshared, congrArg (·.connections) hshared,
    congrArg (·.localSubscriptions) hshared, congrArg (·.repliers) hshared, congrArg (·.pUuid) hshared,
    congrArg (·.myAddress) hshared, congrArg (·.myControlAddress) hshared, hnodes, ?_, ?_, fun hentry => ?_⟩
  · cases haction with
    | discovered dop out hop hout =>
      rw [hop]
      exact Discovery.step_of_perform hout
    | own hop hdiscovery =>
      rw [hop]
      exact hdiscovery
  · cases haction with
    | discovered dop out hop hout hprogram =>
      rw [hprogram]
      exact Within.bind ((within_reactAll _ _ _).mono fun _ _ => trivial) fun _ => within_pure true
    | own hop hdiscovery hprogram => exact within_own hprogram (fun _ _ => rfl) (.inr fun _ _ => rfl) _
  · cases haction with
    | discovered dop out hop hout hprogram =>
      rw [hprogram]
      have hquiet := not_isDisconnection_entry hentry hop hout
      exact Within.bind ((within_reactAll_remote _ _ hquiet).mono fun _ _ => trivial) fun _ => within_pure true
    | own hop hdiscovery hprogram => exact within_own hprogram (fun _ _ => rfl) (.inl hentry) _

end Operations

/-! ## Steps -/

section Steps

variable {p : Process} {e : Event} {o : Outcome}

theorem exec_eq_some (h : p.exec e = some o) : ∃ r, p.perform e.op = some r ∧ o = finish e.throwsAt r ∧
    (e.op.OnServiceThread = true → ∃ b, o.value = .ok b) := by
  obtain ⟨r, hr, h⟩ := Option.bind_eq_some_iff.mp h
  dsimp only at h
  split_ifs at h with hdead
  obtain rfl := Option.some.inj h
  refine ⟨r, hr, rfl, fun hthread => ?_⟩
  cases hvalue : (finish e.throwsAt r).value with
  | ok b => exact ⟨b, rfl⟩
  | error x => exact absurd ⟨hthread, by rw [hvalue]; rfl⟩ hdead

/-- What a program keeps is kept by the operation. -/
theorem finish_within {V : Type} {view : NodeShared → V} {Kind : Effect → Prop} {r : Process × NodeM Bool}
    (h : Within view (view r.1.shared) Kind r.2) (throwsAt : List ℕ) :
    view (finish throwsAt r).process.shared = view r.1.shared ∧ ∀ e ∈ (finish throwsAt r).effects, Kind e := by
  obtain ⟨hview, effects, heffects, hkind⟩ := h { state := r.1.shared, throwsAt } rfl
  refine ⟨hview, fun e he => hkind e ?_⟩
  rw [List.nil_append] at heffects
  exact heffects ▸ he

/-- What a program returns when nothing throws. -/
theorem finish_does {r : Process × NodeM Bool} {b : Bool} {s : NodeShared} {es : List Effect}
    (h : Does r.2 r.1.shared b s es) : (finish [] r).value = .ok b := by
  obtain ⟨k, hk⟩ := h { state := r.1.shared } rfl rfl
  exact congrArg Prod.fst hk

theorem core_exec (h : p.exec e = some o) : o.process.shared.localSubscriptions = p.subscriptionsAfter e.op ∧
    o.process.shared.pUuid = p.shared.pUuid ∧ o.process.shared.myAddress = p.shared.myAddress ∧
    o.process.shared.myControlAddress = p.shared.myControlAddress := by
  obtain ⟨r, hr, rfl, -⟩ := exec_eq_some h
  have hperformed := performed_perform hr
  have hcore := (finish_within hperformed.within e.throwsAt).1
  exact ⟨(congrArg (·.localSubscriptions) hcore).trans hperformed.subscriptions,
    (congrArg (·.pUuid) hcore).trans hperformed.pUuid, (congrArg (·.myAddress) hcore).trans hperformed.myAddress,
    (congrArg (·.myControlAddress) hcore).trans hperformed.myControlAddress⟩

theorem repliers_exec (h : p.exec e = some o) : o.process.shared.repliers = p.repliersAfter e.op := by
  obtain ⟨r, hr, rfl, -⟩ := exec_eq_some h
  have hperformed := performed_perform hr
  exact (congrArg (·.repliers) (finish_within hperformed.within e.throwsAt).1).trans hperformed.repliers

theorem nodes_exec (h : p.exec e = some o) : o.process.nodes = p.nodesAfter e.op := by
  obtain ⟨r, hr, rfl, -⟩ := exec_eq_some h
  exact (performed_perform hr).nodes

theorem discovery_exec (h : p.exec e = some o) :
    match p.discoveryOp e.op with
    | none => o.process.discovery = p.discovery
    | some dop => p.discovery.step dop = some o.process.discovery := by
  obtain ⟨r, hr, rfl, -⟩ := exec_eq_some h
  exact (performed_perform hr).discovery

theorem discoveryPUuid_exec (h : p.exec e = some o) : o.process.discovery.pUuid = p.discovery.pUuid := by
  have hd := discovery_exec h
  cases hop : p.discoveryOp e.op with
  | none =>
    rw [hop] at hd
    rw [hd]
  | some dop =>
    rw [hop] at hd
    exact (Discovery.fixed_step hd).1

/-- A connection callback stays set. -/
theorem hasConnectionCb_exec (type : MsgType) (h : p.exec e = some o)
    (hset : p.discovery.hasConnectionCb type = true) : o.process.discovery.hasConnectionCb type = true := by
  have hd := discovery_exec h
  cases hop : p.discoveryOp e.op with
  | none =>
    rw [hop] at hd
    rw [hd]
    exact hset
  | some dop =>
    rw [hop] at hd
    refine (Discovery.fixed_step hd).2 type ?_ hset
    rintro rfl
    obtain ⟨op, throwsAt⟩ := e
    cases op with
    | request =>
      obtain ⟨name, -, heq⟩ := discoveryOp_request hop
      cases heq
    | subscribe | advertise | unadvertise | advertiseSrv | unadvertiseSrv =>
      obtain ⟨name, -, heq⟩ := Option.map_eq_some_iff.mp hop
      cases heq
    | _ => cases hop

/-- An entry point leaves the remote subscribers alone. -/
theorem remote_exec_entry (h : p.exec e = some o) (hentry : e.op.OnServiceThread = false) :
    o.process.shared.remoteSubscribers = p.shared.remoteSubscribers := by
  obtain ⟨r, hr, rfl, -⟩ := exec_eq_some h
  have hperformed := performed_perform hr
  exact (congrArg (·.remoteSubscribers) (finish_within (hperformed.entry hentry) e.throwsAt).1).trans
    hperformed.remote

/-- What the discovery service reports on a service thread is deleted from the remote subscribers. -/
theorem remote_finish_discovered {q : Process} {dr : Discovery × List Output} {throwsAt : List ℕ} {b : Bool}
    (hvalue : (finish throwsAt (q.discovered dr)).value = .ok b) :
    (finish throwsAt (q.discovered dr)).process.shared.remoteSubscribers =
      dr.2.foldl (fun s o => dropFor o s) q.shared.remoteSubscribers := by
  have hrun : (q.discovered dr).2 { state := q.shared, throwsAt } =
      (.ok b, ((q.discovered dr).2 { state := q.shared, throwsAt }).2) := Prod.ext hvalue rfl
  obtain ⟨_, w, hreact, hpure⟩ := bind_eq_ok.mp hrun
  have hstate : (finish throwsAt (q.discovered dr)).process.shared = w.state := by
    cases hpure
    rfl
  rw [hstate]
  refine forEach_ok NodeShared.remoteSubscribers (g := dropFor) (fun o w w' ho => ?_) hreact
  rw [← remote_react dr.1 o w, ho]

/-- The four frames of a control message are received. -/
def Received (throwsAt : List ℕ) : Prop := ∀ k < 4, k ∉ throwsAt

instance (throwsAt : List ℕ) : Decidable (Received throwsAt) := by unfold Received; infer_instance

/-- The frames are received or not; then the message is read. -/
theorem recvControlUpdate_run (topic procUuid nodeUuid data : Str) (s : NodeShared) (throwsAt : List ℕ) :
    ∃ w : World NodeShared Effect, w.state = s ∧
      recvControlUpdate topic procUuid nodeUuid data { state := s, throwsAt } =
      if Received throwsAt then
        match stoi data with
        | .error x => (.error x, w)
        | .ok n => (.ok (), { w with
            state := { s with remoteSubscribers := applyControl topic procUuid nodeUuid n s.remoteSubscribers } })
      else (.ok (), w) := by
  obtain ⟨n, hn⟩ := completes_attempts (E := Effect) Thrown.zmqError [topic, procUuid, nodeUuid, data]
    { state := s, throwsAt }
  have hreceived : (∀ k < [topic, procUuid, nodeUuid, data].length, 0 + k ∉ throwsAt) ↔ Received throwsAt :=
    forall₂_congr fun k _ => by rw [Nat.zero_add]
  have hrun : recvControlUpdate topic procUuid nodeUuid data { state := s, throwsAt } = _ := bind_of_ok hn
  rw [hrun]
  refine ⟨{ state := s, count := n, throwsAt }, rfl, ?_⟩
  by_cases hr : Received throwsAt
  · rw [if_pos (decide_eq_true (hreceived.mpr hr)), if_pos hr]
    cases stoi data <;> rfl
  · rw [if_neg fun h => hr (hreceived.mp (of_decide_eq_true h)), if_neg hr]
    rfl

/-- **A control message** that is received changes the remote subscribers as it says. -/
theorem remote_exec_control {topic procUuid nodeUuid data : Str} {throwsAt : List ℕ}
    (h : p.exec ⟨.control topic procUuid nodeUuid data, throwsAt⟩ = some o) :
    (Received throwsAt → ∃ n, stoi data = .ok n ∧ o.process.shared.remoteSubscribers =
        applyControl topic procUuid nodeUuid n p.shared.remoteSubscribers) ∧
      (¬ Received throwsAt → o.process.shared.remoteSubscribers = p.shared.remoteSubscribers) := by
  obtain ⟨r, hr, rfl, hvalue⟩ := exec_eq_some h
  obtain ⟨b, hvalue⟩ := hvalue rfl
  obtain rfl := Option.some.inj hr
  obtain ⟨w, hw, hrun⟩ := recvControlUpdate_run topic procUuid nodeUuid data p.shared throwsAt
  obtain ⟨_, w', hrecv, hpure⟩ := bind_eq_ok.mp (Prod.ext hvalue rfl : (do
      recvControlUpdate topic procUuid nodeUuid data
      return true : NodeM Bool) { state := p.shared, throwsAt } = (.ok b, _))
  have hfinish : (finish throwsAt (p, do
      recvControlUpdate topic procUuid nodeUuid data
      return true)).process.shared = w'.state := (congrArg (fun r => r.2.state) hpure).symm
  rw [hfinish]
  rw [hrun] at hrecv
  refine ⟨fun hr => ?_, fun hr => ?_⟩
  · rw [if_pos hr] at hrecv
    cases hdata : stoi data with
    | error x =>
      rw [hdata] at hrecv
      cases hrecv
    | ok n =>
      rw [hdata] at hrecv
      cases hrecv
      exact ⟨n, rfl, rfl⟩
  · rw [if_neg hr] at hrecv
    cases hrecv
    exact congrArg (·.remoteSubscribers) hw

end Steps

/-! ## Nodes -/

section Nodes

variable {p : Process} {e : Event} {o : Outcome}

theorem getElem?_nodesAfterNamed (p : Process) (nUuid topic : Str) (f : Str → Node → Node) (n : Str) :
    (p.nodesAfterNamed nUuid topic f)[n]? = p.nodes[n]?.map fun node =>
      if n = nUuid then (match p.fqn nUuid topic with | none => node | some name => f name node) else node := by
  unfold nodesAfterNamed
  cases p.fqn nUuid topic with
  | none => simp
  | some name =>
    rw [getElem?_modify']
    split_ifs <;> simp

/-- What an operation makes of a node that is there. -/
def nodeAfter (p : Process) (n : Str) (node : Node) : Op → Node
  | .subscribe nUuid topic _ =>
    if n = nUuid then (match p.fqn nUuid topic with
      | none => node
      | some name => { node with topicsSubscribed := node.topicsSubscribed.insert name }) else node
  | .unsubscribe nUuid topic =>
    if n = nUuid then (match p.fqn nUuid topic with
      | none => node
      | some name => { node with topicsSubscribed := node.topicsSubscribed.erase name }) else node
  | .advertise nUuid topic _ =>
    if n = nUuid then (match p.fqn nUuid topic with
      | none => node
      | some name => { node with topicsAdvertised := node.topicsAdvertised.insert name }) else node
  | .unadvertise nUuid topic =>
    if n = nUuid then (match p.fqn nUuid topic with
      | none => node
      | some name => { node with topicsAdvertised := node.topicsAdvertised.erase name }) else node
  | .advertiseSrv nUuid topic _ _ =>
    if n = nUuid then (match p.fqn nUuid topic with
      | none => node
      | some name => { node with srvsAdvertised := node.srvsAdvertised.insert name }) else node
  | .unadvertiseSrv nUuid topic =>
    if n = nUuid then (match p.fqn nUuid topic with
      | none => node
      | some name => { node with srvsAdvertised := node.srvsAdvertised.erase name }) else node
  | _ => node

theorem node_exec (h : p.exec e = some o) {n : Str} {node : Node} (hnode : p.nodes[n]? = some node) :
    o.process.nodes[n]? = some (p.nodeAfter n node e.op) := by
  rw [nodes_exec h]
  obtain ⟨r, hr, -⟩ := exec_eq_some h
  obtain ⟨op, throwsAt⟩ := e
  cases op with
  | construct nUuid envPartition args =>
    rw [perform] at hr
    split_ifs at hr with hnew
    have hne : n ≠ nUuid.1 := fun heq => hnew.2 (by
      rw [← heq, Std.ExtTreeMap.mem_iff_isSome_getElem?, hnode]
      rfl)
    rw [nodesAfter, getElem?_insert', if_neg hne, hnode]
    rfl
  | subscribe | unsubscribe | advertise | unadvertise | advertiseSrv | unadvertiseSrv =>
    rw [nodesAfter, getElem?_nodesAfterNamed, hnode]
    rfl
  | _ => exact hnode

theorem mem_nodes_exec (h : p.exec e = some o) {n : Str} (hn : n ∈ p.nodes) : n ∈ o.process.nodes := by
  rw [Std.ExtTreeMap.mem_iff_isSome_getElem?] at hn ⊢
  obtain ⟨node, hnode⟩ := Option.isSome_iff_exists.mp hn
  rw [node_exec h hnode]
  rfl

/-- A node that is new comes from its constructor, after that of the shared object. -/
theorem node_exec_new (h : p.exec e = some o) {n : Str} {node : Node} (hnode : o.process.nodes[n]? = some node)
    (hnone : p.nodes[n]? = none) :
    p.constructed = true ∧ ∃ envPartition args, node = Node.construct envPartition args := by
  rw [nodes_exec h] at hnode
  obtain ⟨r, hr, -⟩ := exec_eq_some h
  obtain ⟨op, throwsAt⟩ := e
  cases op with
  | construct nUuid envPartition args =>
    rw [perform] at hr
    split_ifs at hr with hnew
    rw [nodesAfter, getElem?_insert', hnone] at hnode
    split_ifs at hnode
    exact ⟨hnew.1, envPartition, args, (Option.some.inj hnode).symm⟩
  | subscribe | unsubscribe | advertise | unadvertise | advertiseSrv | unadvertiseSrv =>
    rw [nodesAfter, getElem?_nodesAfterNamed, hnone] at hnode
    cases hnode
  | _ =>
    have hnode' : p.nodes[n]? = some node := hnode
    rw [hnone] at hnode'
    cases hnode'

theorem nodeAfter_names (p : Process) (n : Str) (node : Node) (op : Op) :
    (p.nodeAfter n node op).partition = node.partition ∧ (p.nodeAfter n node op).ns = node.ns := by
  cases op with
  | subscribe | unsubscribe | advertise | unadvertise | advertiseSrv | unadvertiseSrv =>
    dsimp only [nodeAfter]
    split_ifs
    · split <;> exact ⟨rfl, rfl⟩
    · exact ⟨rfl, rfl⟩
  | _ => exact ⟨rfl, rfl⟩

/-- An advertised topic stays so until it is unadvertised. -/
theorem mem_nodeAfter_advertised {n name : Str} {node : Node} {op : Op} (h : name ∈ node.topicsAdvertised)
    (hkept : ∀ m topic, op = .unadvertise m topic → m = n → p.fqn m topic ≠ some name) :
    name ∈ (p.nodeAfter n node op).topicsAdvertised := by
  cases op with
  | advertise m topic scope =>
    dsimp only [nodeAfter]
    split_ifs
    · cases p.fqn m topic with
      | none => exact h
      | some name' => exact (mem_insertSet _ _ _).mpr (.inr h)
    · exact h
  | unadvertise m topic =>
    dsimp only [nodeAfter]
    split_ifs with hm
    · cases hfqn : p.fqn m topic with
      | none => exact h
      | some name' =>
        refine (mem_eraseSet _ _ _).mpr ⟨fun heq => ?_, h⟩
        exact hkept m topic rfl hm.symm (hfqn.trans (congrArg some heq.symm))
    · exact h
  | subscribe | unsubscribe | advertiseSrv | unadvertiseSrv =>
    dsimp only [nodeAfter]
    split_ifs
    · split <;> exact h
    · exact h
  | _ => exact h

/-- A node qualifies a topic with the same name for ever. -/
theorem fqn_exec (h : p.exec e = some o) {n topic name : Str} (hname : p.fqn n topic = some name) :
    o.process.fqn n topic = some name := by
  obtain ⟨node, hnode, hname⟩ := Option.bind_eq_some_iff.mp hname
  rw [fqn, node_exec h hnode, Option.bind_some, Node.fqn, (nodeAfter_names p n node e.op).1,
    (nodeAfter_names p n node e.op).2]
  exact hname

end Nodes

end Process

end IgnTransport
