import Mathlib
import IgnTransport.HandlerStorageMap
import IgnTransport.Requests

/-!
# IgnTransport.Reception — what the service threads run (`RunReceptionTask` and the discovery callbacks)

The reception thread reads messages from four sockets; the discovery thread runs four callbacks.  An exception that gets
out of one of these functions ends the process.  Most of their ZeroMQ calls stand in `try` blocks, but the number in a
control message is parsed outside of them, and so are three calls that connect or disconnect a socket made.

* `survives_iff`: exactly when each of the eight functions returns.
-/

namespace IgnTransport

open Lib CallM

namespace NodeShared

/-! ## The reception thread -/

section Messages

/-- One `recv` for each frame, in a `try` block: whether all of them were received. -/
def recvFrames (frames : List Str) : NodeM Bool :=
  CallM.completes .zmqError (CallM.forEach (fun _ => zmqCall) frames)

/-- `RecvMsgUpdate`, of a message with these frames. -/
def recvMsgUpdate (topic sender data : Str) : NodeM Unit := do
  let received ← recvFrames [topic, sender, data]
  if received then
    let s ← CallM.look
    -- Execute the callbacks registered.
    match s.localSubscriptions.getHandlers topic with
    | none => return ()
    | some handlers =>
      CallM.forEach (fun (handler : SubscriptionHandler) =>
        if handler.cb then CallM.emit (.callback handler topic data) else return ())
        (HandlerStorage.handlersOf handlers)
  else return ()

/-- Connect the replier socket to an address to which I am still not connected. -/
def connectReplier (addr : Str) : NodeM Unit := connectNew .replier addr

/-- The result of a service call, as a frame. -/
def resultStr (result : Bool) : Str := if result then ascii ['1'] else ascii ['0']

/-- `RecvSrvRequest`, of a message with these frames; the handlers compute the responses. -/
def recvSrvRequest (runCallback : RepHandler → Str → Str → Str × Bool)
    (identity topic sender dstId nodeUuid reqUuid req : Str) : NodeM Unit := do
  let received ← recvFrames [identity, topic, sender, dstId, nodeUuid, reqUuid, req]
  if received then
    let s ← CallM.look
    match s.repliers.getFirstHandler topic with
    | none => return ()
    | some repHandler =>
      -- Run the service call and get the results.
      CallM.emit (.serve repHandler topic req)
      let (rep, result) := runCallback repHandler topic req
      connectReplier sender
      -- Send the reply.
      let _ ← CallM.completes .zmqError
        (sendFrames [dstId, topic, nodeUuid, reqUuid, rep, resultStr result] (.send .replier))
      return ()
  else return ()

/-- Notify the result and remove the handler. -/
def notifyResult (topic nodeUuid reqUuid rep : Str) (result : Bool) : NodeM Unit := do
  let s ← CallM.look
  match s.requests.getHandler topic nodeUuid reqUuid with
  | none => return ()
  | some reqHandler =>
    CallM.emit (.notify reqHandler topic rep result)
    CallM.update fun s => { s with requests := (s.requests.removeHandler topic nodeUuid reqUuid).1 }

/-- `RecvSrvResponse`, of a message with these frames. -/
def recvSrvResponse (identity topic nodeUuid reqUuid rep result : Str) : NodeM Unit := do
  let received ← recvFrames [identity, topic, nodeUuid, reqUuid, rep, result]
  if received then notifyResult topic nodeUuid reqUuid rep (result = resultStr true) else return ()

end Messages

/-! ## The service threads -/

section Threads

/-- What a service thread runs. -/
inductive Service where
  | recvMsgUpdate (topic sender data : Str)
  | recvControlUpdate (topic procUuid nodeUuid data : Str)
  | recvSrvRequest (identity topic sender dstId nodeUuid reqUuid req : Str)
  | recvSrvResponse (identity topic nodeUuid reqUuid rep result : Str)
  | onNewConnection (args : CallbackArgs)
  | onNewDisconnection (args : CallbackArgs)
  | onNewSrvConnection (args : CallbackArgs)
  | onNewSrvDisconnection (args : CallbackArgs)

/-- The function that runs, with the services that the discovery service knows and the callbacks of the repliers. -/
def Service.program (infoSrv : TopicStorage) (runCallback : RepHandler → Str → Str → Str × Bool) :
    Service → NodeM Unit
  | .recvMsgUpdate topic sender data => NodeShared.recvMsgUpdate topic sender data
  | .recvControlUpdate topic procUuid nodeUuid data => NodeShared.recvControlUpdate topic procUuid nodeUuid data
  | .recvSrvRequest identity topic sender dstId nodeUuid reqUuid req =>
    NodeShared.recvSrvRequest runCallback identity topic sender dstId nodeUuid reqUuid req
  | .recvSrvResponse identity topic nodeUuid reqUuid rep result =>
    NodeShared.recvSrvResponse identity topic nodeUuid reqUuid rep result
  | .onNewConnection args => NodeShared.onNewConnection args
  | .onNewDisconnection args => NodeShared.onNewDisconnection args
  | .onNewSrvConnection args => NodeShared.onNewSrvConnection infoSrv args
  | .onNewSrvDisconnection args => NodeShared.onNewSrvDisconnection args

/-- The first calls do not throw. -/
def Succeed (throwsAt : List ℕ) (n : ℕ) : Prop := ∀ k < n, k ∉ throwsAt

/-- Nothing gets out of the function: a control message that is received carries a number, and the calls that stand
outside of the `try` blocks do not throw. -/
def Service.Survives (s : NodeShared) (throwsAt : List ℕ) : Service → Prop
  | .recvControlUpdate _ _ _ data => Succeed throwsAt 4 → ∃ n, stoi data = .ok n
  | .recvSrvRequest _ topic sender _ _ _ _ => Succeed throwsAt 7 →
    s.repliers.hasHandlersForTopic topic = true → sender ∉ s.srvConnections → 7 ∉ throwsAt
  | .onNewDisconnection args =>
    if AboutNode args then
      (s.connections.getAddress args.topic args.pUuid args.nUuid).isSome = true → 0 ∉ throwsAt
    else s.connections.hasTopic args.topic = true →
      Succeed throwsAt (s.connections.cell args.topic args.pUuid).length
  | .onNewSrvConnection args => args.addr ∉ s.srvConnections → 0 ∉ throwsAt
  | .recvMsgUpdate _ _ _ | .recvSrvResponse _ _ _ _ _ _ | .onNewConnection _ | .onNewSrvDisconnection _ => True

end Threads

/-! ## Functions that always return -/

section Returning

theorem returns_completes_zmq {p : NodeM Unit} (h : Throws (· = .zmqError) p) :
    Returns (CallM.completes .zmqError p) := (h.mono fun _ hx hne => hne hx).completes

theorem throws_zmqCall : Throws (· = .zmqError) zmqCall := throws_attempt rfl

theorem throws_zmq (e : Effect) : Throws (· = .zmqError) (zmq e) := throws_call rfl

theorem returns_recvFrames (frames : List Str) : Returns (recvFrames frames) :=
  returns_completes_zmq (Throws.forEach fun _ _ => throws_zmqCall)

theorem throws_sendFrames (frames : List Str) (e : List Str → Effect) : Throws (· = .zmqError) (sendFrames frames e) :=
  (Throws.forEach fun _ _ => throws_zmqCall).bind fun _ => throws_emit _

theorem returns_recvMsgUpdate (topic sender data : Str) : Returns (recvMsgUpdate topic sender data) := by
  refine (returns_recvFrames _).bind fun received => ?_
  split_ifs
  · refine throws_look fun s => ?_
    split
    · exact throws_pure ()
    · refine Throws.forEach fun handler _ => ?_
      split_ifs
      · exact throws_emit _
      · exact throws_pure ()
  · exact throws_pure ()

theorem returns_recvSrvResponse (identity topic nodeUuid reqUuid rep result : Str) :
    Returns (recvSrvResponse identity topic nodeUuid reqUuid rep result) := by
  refine (returns_recvFrames _).bind fun received => ?_
  split_ifs
  · refine throws_look fun s => ?_
    split
    · exact throws_pure ()
    · exact (throws_emit _).bind fun _ => throws_update _
  · exact throws_pure ()

theorem throws_connectTo (args : CallbackArgs) : Throws (· = .zmqError) (connectTo args) := by
  have hconnect : Throws (· = .zmqError) (connectSubscriber args.addr) := by
    refine throws_look fun s => ?_
    split_ifs
    · exact throws_pure ()
    · exact throws_zmq _
  have hnotify : Throws (· = .zmqError) (notifySubscribers args.topic args.ctrl) := by
    refine Throws.bind (throws_zmqCall.bind fun _ => throws_zmqCall.bind fun _ => throws_zmqCall) fun _ => ?_
    refine throws_look fun s => ?_
    split
    · exact throws_pure ()
    · exact Throws.forEach fun handler _ => throws_sendFrames _ _
  exact hconnect.bind fun _ => (throws_zmq _).bind fun _ => (throws_update _).bind fun _ => hnotify

theorem returns_onNewConnection (args : CallbackArgs) : Returns (onNewConnection args) := by
  refine throws_look fun s => ?_
  split_ifs
  · exact (returns_completes_zmq (throws_connectTo args)).bind fun _ => throws_pure ()
  · exact throws_pure ()

/-- The vectors of the discovery service are not empty, and the sends stand in a `try` block. -/
theorem returns_sendPendingRemoteReqs (infoSrv : TopicStorage) (topic : Str) :
    Returns (sendPendingRemoteReqs infoSrv topic) := by
  have hround : ∀ responserId nUuid req, Returns (sendPendingReq topic nUuid responserId req) := by
    intro responserId nUuid req
    unfold sendPendingReq
    split_ifs
    · exact throws_pure ()
    · refine (throws_update _).bind fun _ => throws_look fun s => ?_
      exact (returns_completes_zmq (throws_sendFrames _ _)).bind fun _ => throws_pure ()
  intro w x w' hw
  cases hfirst : firstResponder infoSrv topic with
  | none =>
    rw [sendPendingRemoteReqs_idle hfirst] at hw
    cases hw
  | some r =>
    rw [sendPendingRemoteReqs_eq (q := r.1) (a := r.2) hfirst] at hw
    exact Throws.forEach (fun _ _ => hround _ _ _) w x w' hw

end Returning

/-! ## Functions that may throw -/

section Throwing

theorem recvFrames_received {frames : List Str} {w : World NodeShared Effect}
    (h : ∀ k < frames.length, w.count + k ∉ w.throwsAt) :
    recvFrames frames w = (.ok true, { w with count := w.count + frames.length }) :=
  completes_of_ok (forEach_attempt_ok _ frames w h)

theorem recvFrames_fails {frames : List Str} {w : World NodeShared Effect}
    (h : ¬ ∀ k < frames.length, w.count + k ∉ w.throwsAt) :
    ∃ n, recvFrames frames w = (.ok false, { w with count := n }) := by
  obtain ⟨n, hn⟩ := forEach_attempt_fails (E := Effect) Thrown.zmqError frames w h
  exact ⟨n, completes_of_error hn⟩

theorem ok_unit_iff (p : NodeM Unit) (w : World NodeShared Effect) : (∃ u, (p w).1 = .ok u) ↔ (p w).1 = .ok () :=
  ⟨fun ⟨_, h⟩ => h, fun h => ⟨(), h⟩⟩

/-- A program that goes on after a call returns if the call does, and its end. -/
theorem ok_bind_iff {α β : Type} {p : NodeM α} {f : α → NodeM β} {w : World NodeShared Effect}
    (hf : ∀ a, Returns (f a)) : (∃ b, ((p >>= f) w).1 = .ok b) ↔ ∃ a, (p w).1 = .ok a := by
  rcases hp : p w with ⟨x | a, v⟩
  · rw [bind_of_error hp]
    simp
  · rw [bind_of_ok hp]
    obtain ⟨b, w', hb⟩ := (hf a).eq_ok v
    exact iff_of_true ⟨b, by rw [hb]⟩ ⟨a, rfl⟩

theorem ok_zmq_iff (e : Effect) (w : World NodeShared Effect) :
    (∃ u, (zmq e w).1 = .ok u) ↔ w.count ∉ w.throwsAt := by
  by_cases h : w.count ∈ w.throwsAt
  · rw [show zmq e w = _ from bind_of_error (attempt_throws _ h)]
    simp [h]
  · rw [show zmq e w = _ from bind_of_ok (attempt_ok _ h)]
    exact iff_of_true ⟨(), rfl⟩ h

/-- The call that connects a socket to a new address. -/
theorem connectNew_run (socket : Socket) (addr : Str) (w : World NodeShared Effect) : connectNew socket addr w =
    if addr ∈ w.state.srvConnections then (.ok (), w)
    else if w.count ∈ w.throwsAt then (.error .zmqError, { w with count := w.count + 1 })
    else (.ok (), { w with
      state := { w.state with srvConnections := w.state.srvConnections ++ [addr] }
      count := w.count + 1
      effects := w.effects ++ [.connect socket (cStr addr)] }) := by
  rw [connectNew, look_bind]
  split_ifs with hin hthrows
  · rfl
  · exact bind_of_error (bind_of_error (attempt_throws _ hthrows))
  · have hcall : zmq (.connect socket (cStr addr)) w = (.ok (), { w with
        effects := w.effects ++ [.connect socket (cStr addr)]
        count := w.count + 1 }) := bind_of_ok (attempt_ok _ hthrows)
    exact bind_of_ok hcall

theorem ok_connectNew_iff (socket : Socket) (addr : Str) (w : World NodeShared Effect) :
    (∃ u, (connectNew socket addr w).1 = .ok u) ↔ (addr ∉ w.state.srvConnections → w.count ∉ w.throwsAt) := by
  rw [connectNew_run]
  split_ifs with hin hthrows
  · exact iff_of_true ⟨(), rfl⟩ fun hnew => absurd hin hnew
  · exact iff_of_false (fun ⟨_, h⟩ => by cases h) fun hok => hok hin hthrows
  · exact iff_of_true ⟨(), rfl⟩ fun _ => hthrows

variable {s : NodeShared} {throwsAt : List ℕ}

theorem ok_recvControlUpdate_iff (topic procUuid nodeUuid data : Str) :
    (∃ u, (recvControlUpdate topic procUuid nodeUuid data { state := s, throwsAt }).1 = .ok u) ↔
      (Succeed throwsAt 4 → ∃ n, stoi data = .ok n) := by
  obtain ⟨w, -, hrun⟩ := Process.recvControlUpdate_run topic procUuid nodeUuid data s throwsAt
  rw [hrun]
  change _ ↔ (Process.Received throwsAt → _)
  by_cases hrecv : Process.Received throwsAt
  · rw [if_pos hrecv]
    cases hdata : stoi data with
    | error x => simp [hrecv]
    | ok n => exact iff_of_true ⟨(), rfl⟩ fun _ => ⟨n, rfl⟩
  · rw [if_neg hrecv]
    exact iff_of_true ⟨(), rfl⟩ fun h => absurd h hrecv

/-- Send the reply. -/
def sendReply (dstId topic nodeUuid reqUuid : Str) (response : Str × Bool) : NodeM Unit := do
  let _ ← CallM.completes .zmqError
    (sendFrames [dstId, topic, nodeUuid, reqUuid, response.1, resultStr response.2] (.send .replier))
  return ()

/-- A request that is not received, or has no replier, leaves nothing behind; any other is handed to its replier. -/
theorem recvSrvRequest_run (runCallback : RepHandler → Str → Str → Str × Bool)
    (identity topic sender dstId nodeUuid reqUuid req : Str) (s : NodeShared) (throwsAt : List ℕ) :
    (¬ (Succeed throwsAt 7 ∧ s.repliers.hasHandlersForTopic topic = true) ∧
      ∃ n, recvSrvRequest runCallback identity topic sender dstId nodeUuid reqUuid req { state := s, throwsAt } =
        (.ok (), { state := s, throwsAt, count := n })) ∨
    ((Succeed throwsAt 7 ∧ s.repliers.hasHandlersForTopic topic = true) ∧
      ∃ repHandler, s.repliers.getFirstHandler topic = some repHandler ∧
        recvSrvRequest runCallback identity topic sender dstId nodeUuid reqUuid req { state := s, throwsAt } =
          (connectNew .replier sender >>= fun _ =>
            sendReply dstId topic nodeUuid reqUuid (runCallback repHandler topic req))
            { state := s, throwsAt, count := 7, effects := [.serve repHandler topic req] }) := by
  have hrecv : (∀ k < [identity, topic, sender, dstId, nodeUuid, reqUuid, req].length,
      ({ state := s, throwsAt } : World NodeShared Effect).count + k ∉ throwsAt) ↔ Succeed throwsAt 7 :=
    forall₂_congr fun k _ => by rw [Nat.zero_add]
  by_cases hreceived : Succeed throwsAt 7
  · have hreceive := recvFrames_received (hrecv.mpr hreceived)
    have hiff := HandlerMap.isSome_getFirstHandler s.repliers topic
    cases hfirst : s.repliers.getFirstHandler topic with
    | none =>
      rw [hfirst] at hiff
      refine .inl ⟨fun h => Bool.false_ne_true (hiff.mpr h.2), 7, ?_⟩
      rw [recvSrvRequest, bind_of_ok hreceive, if_pos rfl, look_bind, hfirst]
      rfl
    | some repHandler =>
      rw [hfirst] at hiff
      refine .inr ⟨⟨hreceived, hiff.mp rfl⟩, repHandler, rfl, ?_⟩
      rw [recvSrvRequest, bind_of_ok hreceive, if_pos rfl, look_bind, hfirst]
      rfl
  · obtain ⟨n, hn⟩ := recvFrames_fails (mt hrecv.mp hreceived)
    refine .inl ⟨fun h => hreceived h.1, n, ?_⟩
    rw [recvSrvRequest, bind_of_ok hn]
    rfl

theorem returns_sendReply (dstId topic nodeUuid reqUuid : Str) (response : Str × Bool) :
    Returns (sendReply dstId topic nodeUuid reqUuid response) :=
  (returns_completes_zmq (throws_sendFrames _ _)).bind fun _ => throws_pure ()

theorem ok_recvSrvRequest_iff (runCallback : RepHandler → Str → Str → Str × Bool)
    (identity topic sender dstId nodeUuid reqUuid req : Str) :
    (∃ u, (recvSrvRequest runCallback identity topic sender dstId nodeUuid reqUuid req
        { state := s, throwsAt }).1 = .ok u) ↔
      (Succeed throwsAt 7 → s.repliers.hasHandlersForTopic topic = true → sender ∉ s.srvConnections →
        7 ∉ throwsAt) := by
  rcases recvSrvRequest_run runCallback identity topic sender dstId nodeUuid reqUuid req s throwsAt with
    ⟨hnot, n, hrun⟩ | ⟨⟨hreceived, hknown⟩, repHandler, -, hrun⟩
  · rw [hrun]
    exact iff_of_true ⟨(), rfl⟩ fun hreceived hknown => absurd ⟨hreceived, hknown⟩ hnot
  · rw [hrun, ok_bind_iff fun _ => returns_sendReply _ _ _ _ _, ok_connectNew_iff]
    exact ⟨fun h _ _ => h, fun h => h hreceived hknown⟩

theorem ok_onNewDisconnection_iff (args : CallbackArgs) :
    (∃ u, (onNewDisconnection args { state := s, throwsAt }).1 = .ok u) ↔
      if AboutNode args then
        (s.connections.getAddress args.topic args.pUuid args.nUuid).isSome = true → 0 ∉ throwsAt
      else s.connections.hasTopic args.topic = true →
        Succeed throwsAt (s.connections.cell args.topic args.pUuid).length := by
  unfold onNewDisconnection
  rw [bind_of_ok (show CallM.update (X := Thrown) _ _ = (.ok (), _) from rfl)]
  by_cases habout : AboutNode args
  · rw [if_pos habout, if_pos habout, disconnectNode, look_bind]
    dsimp only
    cases s.connections.getAddress args.topic args.pUuid args.nUuid with
    | none => exact iff_of_true ⟨(), rfl⟩ fun h => by cases h
    | some connection =>
      rw [ok_bind_iff fun _ => throws_update _, ok_zmq_iff]
      exact ⟨fun h _ => h, fun h => h rfl⟩
  · rw [if_neg habout, if_neg habout, disconnectProc, look_bind]
    dsimp only
    unfold TopicStorage.getAddresses
    by_cases htopic : s.connections.hasTopic args.topic = true
    · rw [if_pos htopic]
      refine (ok_bind_iff fun _ => throws_update _).trans ?_
      have hcalls := forEach_call_ok_iff Thrown.zmqError
        (fun connection : Address => Effect.disconnect .subscriber (cStr connection.addr))
        (s.connections.cell args.topic args.pUuid)
        { state := withoutRemote args s, throwsAt }
      refine (ok_unit_iff _ _).trans (hcalls.trans ?_)
      rw [forall_prop_of_true htopic]
      exact forall₂_congr fun k _ => by rw [Nat.zero_add]
    · rw [if_neg htopic]
      exact iff_of_true ⟨(), rfl⟩ fun h => absurd h htopic

theorem ok_onNewSrvConnection_iff (infoSrv : TopicStorage) (args : CallbackArgs) :
    (∃ u, (onNewSrvConnection infoSrv args { state := s, throwsAt }).1 = .ok u) ↔
      (args.addr ∉ s.srvConnections → 0 ∉ throwsAt) :=
  (ok_bind_iff fun _ => returns_sendPendingRemoteReqs infoSrv args.topic).trans
    (ok_connectNew_iff .requester args.addr _)

end Throwing

/-! ## Survival -/

section Survival

theorem ok_of_returns {p : NodeM Unit} (h : Returns p) (w : World NodeShared Effect) : ∃ u, (p w).1 = .ok u := by
  obtain ⟨u, w', hw⟩ := h.eq_ok w
  exact ⟨u, by rw [hw]⟩

/-- **The service threads survive** a message or a callback, whatever it says and whichever calls throw, exactly when
a control message that is received carries a number and no call outside of a `try` block throws. -/
theorem survives_iff (infoSrv : TopicStorage) (runCallback : RepHandler → Str → Str → Str × Bool) (s : NodeShared)
    (throwsAt : List ℕ) (service : Service) :
    (service.program infoSrv runCallback { state := s, throwsAt }).1 = .ok () ↔ service.Survives s throwsAt := by
  refine (ok_unit_iff _ _).symm.trans ?_
  cases service with
  | recvMsgUpdate topic sender data => exact iff_of_true (ok_of_returns (returns_recvMsgUpdate _ _ _) _) trivial
  | recvControlUpdate topic procUuid nodeUuid data => exact ok_recvControlUpdate_iff _ _ _ _
  | recvSrvRequest identity topic sender dstId nodeUuid reqUuid req => exact ok_recvSrvRequest_iff _ _ _ _ _ _ _ _
  | recvSrvResponse identity topic nodeUuid reqUuid rep result =>
    exact iff_of_true (ok_of_returns (returns_recvSrvResponse _ _ _ _ _ _) _) trivial
  | onNewConnection args => exact iff_of_true (ok_of_returns (returns_onNewConnection args) _) trivial
  | onNewDisconnection args => exact ok_onNewDisconnection_iff args
  | onNewSrvConnection args => exact ok_onNewSrvConnection_iff infoSrv args
  | onNewSrvDisconnection args => exact iff_of_true ⟨(), rfl⟩ trivial

/-- A control message without a number, from the network. -/
theorem control_message_escapes :
    ((Service.recvControlUpdate [116] [66] [67] (ascii ['x'])).program Table.empty (fun _ _ _ => ([], true))
      { state := Process.sample ⟨65, by decide⟩, throwsAt := [] }).1 ≠ .ok () := by
  intro h
  have hescapes : ((Service.recvControlUpdate [116] [66] [67] (ascii ['x'])).program Table.empty
      (fun _ _ _ => ([], true)) { state := Process.sample ⟨65, by decide⟩, throwsAt := [] }).1 =
      .error .invalidArgument := rfl
  rw [hescapes] at h
  cases h

end Survival

end NodeShared

end IgnTransport
