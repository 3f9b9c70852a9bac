import Mathlib
import IgnTransport.NodeShared

/-!
# IgnTransport.NodeSharedTables — what the functions of `NodeShared` do to its tables

Whatever ZeroMQ call throws, each function touches its own tables only (`Within`), and `OnNewDisconnection` has deleted
from the remote subscribers before its first call.  When no call throws, `OnNewConnection` stores the connection.
-/

namespace IgnTransport

open Lib CallM

namespace NodeShared

/-! ## Frames -/

section Frames

variable {V : Type} {view : NodeShared → V} {v : V} {Kind : Effect → Prop}

/-- Everything but the connections. -/
def butConnections (s : NodeShared) : NodeShared := { s with connections := Table.empty }

/-- Everything but the remote subscribers. -/
def butRemote (s : NodeShared) : NodeShared := { s with remoteSubscribers := Table.empty }

/-- Everything but the connections and the remote subscribers. -/
def butTopics (s : NodeShared) : NodeShared := s.butRemote.butConnections

/-- Everything but the requests and the service connections. -/
def butServices (s : NodeShared) : NodeShared := { s with srvConnections := [], requests := Table.empty }

theorem within_zmq {e : Effect} (h : Kind e) : Within view v Kind (zmq e) := within_call h

theorem within_sendFrames {frames : List Str} {e : List Str → Effect} (h : Kind (e frames)) :
    Within view v Kind (sendFrames frames e) :=
  (Within.forEach fun _ _ => within_attempt _).bind fun _ => within_emit h

theorem within_openDealer : Within view v Kind openDealer :=
  (within_attempt _).bind fun _ => (within_attempt _).bind fun _ => within_attempt _

theorem within_publish (s : NodeShared) {topic data : Str} (h : Kind (.send .publisher [topic, s.myAddress, data])) :
    Within id s Kind (publish topic data) :=
  within_look fun t ht => by
    obtain rfl : t = s := ht
    exact (within_sendFrames h).completes

/-- The control messages that tell a publisher about a handler of this process. -/
def Registers (s : NodeShared) (topic : Str) (frames : List Str) : Prop :=
  ∃ n u : Str, ∃ handler, (s.localSubscriptions.cell topic n)[u]? = some handler ∧
    frames = controlFrames topic s.pUuid handler.nUuid NewConnection

/-- What `OnNewConnection` does on its sockets. -/
def ConnectionEffect (s : NodeShared) (args : CallbackArgs) : Effect → Prop
  | .connect .subscriber _ => True
  | .subscribe _ => True
  | .control ctrl frames => ctrl = cStr args.ctrl ∧ s.Registers args.topic frames
  | _ => False

theorem within_notifySubscribers (s : NodeShared) {topic ctrl : Str}
    (h : ∀ frames, s.Registers topic frames → Kind (.control (cStr ctrl) frames)) :
    Within butConnections s Kind (notifySubscribers topic ctrl) := by
  refine within_openDealer.bind fun _ => within_look fun t ht => ?_
  subst ht
  cases hget : t.localSubscriptions.getHandlers topic with
  | none => exact within_pure ()
  | some handlers =>
    obtain ⟨-, rfl⟩ := (HandlerStorage.getHandlers_eq_some_iff _ _ _).mp hget
    refine Within.forEach fun handler hmem => within_sendFrames (h _ ?_)
    obtain ⟨n, u, hu⟩ := (HandlerStorage.mem_handlersOf _ _ _).mp hmem
    exact ⟨n, u, handler, hu, rfl⟩

/-- `OnNewConnection` connects the subscriber socket, adds a filter if the process is interested in the topic, and
registers its handlers. -/
theorem within_onNewConnection_of (s : NodeShared) (args : CallbackArgs)
    (hconnect : ∀ endpoint, Kind (.connect .subscriber endpoint))
    (hfilter : s.Interested args.topic args.pUuid → Kind (.subscribe args.topic))
    (hcontrol : s.Interested args.topic args.pUuid → ∀ frames, s.Registers args.topic frames →
      Kind (.control (cStr args.ctrl) frames)) :
    Within butConnections s Kind (onNewConnection args) := by
  refine within_look fun t ht => ?_
  subst ht
  split_ifs with hinterested
  · refine Within.bind (Within.completes ?_) fun _ => within_pure ()
    have hsubscriber : Within butConnections t.butConnections Kind (connectSubscriber args.addr) :=
      within_look fun t _ => by
        split_ifs
        · exact within_pure ()
        · exact within_zmq (hconnect _)
    refine hsubscriber.bind fun _ => (within_zmq (hfilter hinterested)).bind fun _ =>
      Within.bind (within_update ?_) fun _ => ?_
    · exact fun _ h => h
    · exact within_notifySubscribers _ (hcontrol hinterested)
  · exact within_pure ()

theorem within_onNewConnection (s : NodeShared) (args : CallbackArgs) :
    Within butConnections s (s.ConnectionEffect args) (onNewConnection args) :=
  within_onNewConnection_of s args (fun _ => trivial) (fun _ => trivial) fun _ _ h => ⟨rfl, h⟩

/-- What `OnNewDisconnection` does on its sockets. -/
def DisconnectionEffect : Effect → Prop
  | .disconnect .subscriber _ => True
  | _ => False

theorem within_disconnectNode (s : NodeShared) (topic pUuid nUuid : Str) :
    Within butConnections s DisconnectionEffect (disconnectNode topic pUuid nUuid) := by
  refine within_look fun t _ => ?_
  cases t.connections.getAddress topic pUuid nUuid with
  | none => exact within_pure ()
  | some connection => exact (within_zmq trivial).bind fun _ => within_update fun _ h => h

theorem within_disconnectProc (s : NodeShared) (topic pUuid : Str) :
    Within butConnections s DisconnectionEffect (disconnectProc topic pUuid) := by
  refine within_look fun t _ => ?_
  cases t.connections.getAddresses topic with
  | none => exact within_pure ()
  | some info => exact (Within.forEach fun _ _ => within_zmq trivial).bind fun _ => within_update fun _ h => h

theorem within_disconnect (s : NodeShared) (args : CallbackArgs) : Within butConnections s DisconnectionEffect
    (if AboutNode args then disconnectNode args.topic args.pUuid args.nUuid
      else disconnectProc args.topic args.pUuid) := by
  split_ifs
  · exact within_disconnectNode s args.topic args.pUuid args.nUuid
  · exact within_disconnectProc s args.topic args.pUuid

/-- Whatever throws, `OnNewDisconnection` deletes the remote subscribers. -/
theorem state_onNewDisconnection (args : CallbackArgs) (w : World NodeShared Effect) :
    (onNewDisconnection args w).2.state.butConnections =
      { w.state.butConnections with remoteSubscribers := dropRemote args w.state.remoteSubscribers } :=
  (within_disconnect _ args { w with
    state := { w.state with remoteSubscribers := dropRemote args w.state.remoteSubscribers } } rfl).1

theorem within_onNewDisconnection (s : NodeShared) (args : CallbackArgs) :
    Within butTopics s DisconnectionEffect (onNewDisconnection args) := by
  refine Within.bind (within_update ?_) fun _ => ?_
  · exact fun _ h => h
  · exact Within.coarsen (g := butConnections) (f := butRemote) fun s _ => within_disconnect s args

/-- What the service callbacks do on their sockets. -/
def ServiceEffect : Effect → Prop
  | .connect .requester _ => True
  | .send .requester _ => True
  | _ => False

theorem within_sendPendingReq (hview : ∀ s requests, view { s with requests } = view s)
    (hsend : ∀ frames, Kind (.send .requester frames)) (topic nUuid responserId : Str) (req : ReqHandler) :
    Within view v Kind (sendPendingReq topic nUuid responserId req) := by
  unfold sendPendingReq
  split_ifs
  · exact within_pure ()
  · refine Within.bind (within_update ?_) fun _ => within_look fun t _ => ?_
    · exact fun s h => (hview s _).trans h
    · exact (within_sendFrames (hsend _)).completes.bind fun _ => within_pure ()

/-- `SendPendingRemoteReqs` changes the requests only, and sends with the requester socket. -/
theorem within_sendPending (hview : ∀ s requests, view { s with requests } = view s)
    (hsend : ∀ frames, Kind (.send .requester frames)) (infoSrv : TopicStorage) (topic : Str) :
    Within view v Kind (sendPendingRemoteReqs infoSrv topic) := by
  unfold sendPendingRemoteReqs
  rcases (infoSrv.getAddresses topic).bind fun addresses => Std.ExtTreeMap.minEntry? addresses with
    _ | ⟨_, _ | ⟨responser, _⟩⟩
  · exact within_pure ()
  · exact within_throw _
  · refine within_look fun t _ => ?_
    cases t.requests.getHandlers topic with
    | none => exact within_pure ()
    | some reqs =>
      exact Within.forEach fun node _ => Within.forEach fun req _ =>
        within_sendPendingReq hview hsend topic node.1 _ req.2

theorem within_sendPendingRemoteReqs (s : NodeShared) (infoSrv : TopicStorage) (topic : Str) :
    Within butServices s ServiceEffect (sendPendingRemoteReqs infoSrv topic) :=
  within_sendPending (fun _ _ => rfl) (fun _ => trivial) infoSrv topic

theorem within_onNewSrvConnection (s : NodeShared) (infoSrv : TopicStorage) (args : CallbackArgs) :
    Within butServices s ServiceEffect (onNewSrvConnection infoSrv args) := by
  refine Within.bind (within_look fun t _ => ?_) fun _ => within_sendPendingRemoteReqs s infoSrv args.topic
  split_ifs
  · exact within_pure ()
  · exact (within_zmq trivial).bind fun _ => within_update fun _ h => h

end Frames

/-! ## When nothing throws -/

section Exact

theorem does_sendFrames (s : NodeShared) (frames : List Str) (e : List Str → Effect) :
    Does (sendFrames frames e) s () s [e frames] := by
  have hcalls : Does (CallM.forEach (fun _ => zmqCall) frames) s () s (frames.flatMap fun _ => []) :=
    Does.forEach fun _ _ => does_attempt s _
  exact (hcalls.bind (does_emit s (e frames))).of_eq rfl (by simp)

/-- A message to a control socket. -/
def IsControl : Effect → Prop
  | .control .. => True
  | _ => False

theorem does_openDealer (s : NodeShared) : Does openDealer s () s [] :=
  (does_attempt s _).bind ((does_attempt s _).bind (does_attempt s _))

/-- A message that registers a handler of this process with a publisher. -/
def Registration (s : NodeShared) (topic ctrl : Str) (e : Effect) : Prop :=
  ∃ frames, s.Registers topic frames ∧ e = .control (cStr ctrl) frames

theorem Registration.isControl {s : NodeShared} {topic ctrl : Str} {e : Effect} (h : s.Registration topic ctrl e) :
    IsControl e := by
  obtain ⟨frames, -, rfl⟩ := h
  trivial

theorem does_notifySubscribers (s : NodeShared) (topic ctrl : Str) :
    ∃ controls, (∀ e, e ∈ controls ↔ s.Registration topic ctrl e) ∧
      Does (notifySubscribers topic ctrl) s () s controls := by
  cases hget : s.localSubscriptions.getHandlers topic with
  | none =>
    refine ⟨[], fun e => iff_of_false (by simp) ?_, (does_openDealer s).bind ((does_look s).bind ?_)⟩
    · rintro ⟨frames, ⟨n, u, handler, hhandler, -⟩, -⟩
      have htopic := HandlerStorage.hasHandlersForTopic_of_getHandler s.localSubscriptions topic n hhandler
      rw [(HandlerStorage.getHandlers_eq_some_iff _ _ _).mpr ⟨htopic, rfl⟩] at hget
      cases hget
    · rw [hget]
      exact does_pure s ()
  | some handlers =>
    obtain ⟨-, rfl⟩ := (HandlerStorage.getHandlers_eq_some_iff _ _ _).mp hget
    have hloop : Does (CallM.forEach (fun (handler : SubscriptionHandler) =>
        sendFrames (controlFrames topic s.pUuid handler.nUuid NewConnection) (.control (cStr ctrl)))
        (HandlerStorage.handlersOf (s.localSubscriptions.row topic))) s () s _ :=
      Does.forEach fun handler _ => does_sendFrames s _ _
    refine ⟨_, fun e => ?_, (does_openDealer s).bind ((does_look s).bind (by rw [hget]; exact hloop))⟩
    simp only [List.nil_append, List.mem_flatMap, List.mem_singleton, HandlerStorage.mem_handlersOf]
    constructor
    · rintro ⟨handler, ⟨n, u, hhandler⟩, rfl⟩
      exact ⟨_, ⟨n, u, handler, hhandler, rfl⟩, rfl⟩
    · rintro ⟨_, ⟨n, u, handler, hhandler, rfl⟩, rfl⟩
      exact ⟨handler, ⟨n, u, hhandler⟩, rfl⟩

/-- What `OnNewConnection` leaves behind if the process is interested. -/
theorem does_connectTo (s : NodeShared) (args : CallbackArgs) :
    ∃ controls, (∀ e, e ∈ controls ↔ s.Registration args.topic args.ctrl e) ∧
      Does (connectTo args) s () (addConnection args s)
        ((if s.connections.hasAddress args.addr then [] else [.connect .subscriber (cStr args.addr)]) ++
          .subscribe args.topic :: controls) := by
  obtain ⟨controls, hcontrols, hnotify⟩ := does_notifySubscribers (addConnection args s) args.topic args.ctrl
  have hconnect : Does (connectSubscriber args.addr) s () s
      (if s.connections.hasAddress args.addr then [] else [.connect .subscriber (cStr args.addr)]) := by
    refine Does.of_eq ((does_look s).bind ?_) rfl (List.nil_append _)
    split_ifs
    · exact does_pure s ()
    · exact does_call s _ _
  exact ⟨controls, hcontrols,
    hconnect.bind ((does_call s _ (Effect.subscribe args.topic)).bind ((does_update s _).bind hnotify))⟩

theorem does_onNewConnection (s : NodeShared) (args : CallbackArgs) :
    (s.Interested args.topic args.pUuid → ∃ controls,
      (∀ e, e ∈ controls ↔ s.Registration args.topic args.ctrl e) ∧
      Does (onNewConnection args) s () (addConnection args s)
        ((if s.connections.hasAddress args.addr then [] else [.connect .subscriber (cStr args.addr)]) ++
          .subscribe args.topic :: controls)) ∧
      (¬ s.Interested args.topic args.pUuid → Does (onNewConnection args) s () s []) := by
  refine ⟨fun hinterested => ?_, fun hinterested => ?_⟩
  · obtain ⟨controls, hcontrols, hconnect⟩ := does_connectTo s args
    refine ⟨controls, hcontrols, ((does_look s).bind (b := ()) ?_).of_eq rfl (List.nil_append _)⟩
    rw [if_pos hinterested]
    exact (hconnect.completes.bind (does_pure _ ())).of_eq rfl (List.append_nil _)
  · refine (does_look s).bind (b := ()) ?_
    rw [if_neg hinterested]
    exact does_pure s ()

/-- The state with the remote subscribers that a disconnection leaves. -/
def withoutRemote (args : CallbackArgs) (s : NodeShared) : NodeShared :=
  { s with remoteSubscribers := dropRemote args s.remoteSubscribers }

/-- The state with the connections that the end of one to a node leaves. -/
def withoutNode (args : CallbackArgs) (s : NodeShared) : NodeShared :=
  { s with connections := (s.connections.delAddressByNode args.topic args.pUuid args.nUuid).1 }

/-- The state with the connections that the end of those to a process leaves. -/
def withoutProc (args : CallbackArgs) (s : NodeShared) : NodeShared :=
  { s with connections := (s.connections.delAddressesByProc args.pUuid).1 }

theorem does_onNewDisconnection_node {s : NodeShared} {args : CallbackArgs} (habout : AboutNode args) :
    (s.connections.getAddress args.topic args.pUuid args.nUuid = none →
      Does (onNewDisconnection args) s () (withoutRemote args s) []) ∧
      ∀ c, s.connections.getAddress args.topic args.pUuid args.nUuid = some c →
        Does (onNewDisconnection args) s () (withoutNode args (withoutRemote args s))
          [.disconnect .subscriber (cStr c.addr)] := by
  refine ⟨fun hnone => ?_, fun c hsome => ?_⟩
  · refine (does_update s (withoutRemote args)).bind (b := ()) ?_
    rw [if_pos habout]
    refine (does_look _).bind (b := ()) ?_
    rw [show (withoutRemote args s).connections = s.connections from rfl, hnone]
    exact does_pure _ ()
  · refine (does_update s (withoutRemote args)).bind (b := ()) ?_
    rw [if_pos habout]
    refine (does_look _).bind (b := ()) ?_
    rw [show (withoutRemote args s).connections = s.connections from rfl, hsome]
    exact (does_call _ _ _).bind (does_update _ (withoutNode args))

theorem does_onNewDisconnection_proc {s : NodeShared} {args : CallbackArgs} (habout : ¬ AboutNode args) :
    (s.connections.hasTopic args.topic = false →
      Does (onNewDisconnection args) s () (withoutRemote args s) []) ∧
      (s.connections.hasTopic args.topic = true →
        Does (onNewDisconnection args) s () (withoutProc args (withoutRemote args s))
          ((s.connections.cell args.topic args.pUuid).map fun c => .disconnect .subscriber (cStr c.addr))) := by
  refine ⟨fun hnone => ?_, fun hsome => ?_⟩
  · refine (does_update s (withoutRemote args)).bind (b := ()) ?_
    rw [if_neg habout]
    refine (does_look _).bind (b := ()) ?_
    rw [show (withoutRemote args s).connections = s.connections from rfl, TopicStorage.getAddresses,
      if_neg (by simpa using hnone)]
    exact does_pure _ ()
  · refine (does_update s (withoutRemote args)).bind (b := ()) ?_
    rw [if_neg habout]
    refine (does_look _).bind (b := ()) ?_
    rw [show (withoutRemote args s).connections = s.connections from rfl, TopicStorage.getAddresses, if_pos hsome]
    have hloop : Does
        (CallM.forEach (fun (connection : Address) => zmq (.disconnect .subscriber (cStr connection.addr)))
        (s.connections.cell args.topic args.pUuid)) (withoutRemote args s) () (withoutRemote args s)
        ((s.connections.cell args.topic args.pUuid).map fun c => .disconnect .subscriber (cStr c.addr)) :=
      (Does.forEach fun c _ => does_call _ _ _).of_eq rfl List.map_eq_flatMap.symm
    exact (hloop.bind (does_update _ (withoutProc args))).of_eq rfl (List.append_nil _)

end Exact

end NodeShared

end IgnTransport
