import Mathlib
import IgnTransport.TopicNames
import IgnTransport.PendingSends
import IgnTransport.Reception

/-!
# IgnTransport.BlockingRequest — a blocking `Request`, within a process and between two

`Request` runs the callback of a responder in its own process on the caller's response object.  Otherwise the request is
serialized and sent; the responder runs its callback on a new response object, and the caller's one is parsed from what
comes back if the result is true.

* `local_agrees_remote_iff`: the caller gets the same exactly when the callback makes nothing of the caller's object.
-/

namespace IgnTransport

open Lib CallM

/-! ## Messages -/

section Messages

/-- A protobuf message type. -/
class ProtoMsg (M : Type) where
  new : M
  serializeToString : M → Str
  /-- What the target of `ParseFromString` becomes. -/
  parseFromString : M → Str → M

open ProtoMsg

/-- Parsing clears the target and undoes serialization. -/
class LawfulProtoMsg (M : Type) [ProtoMsg M] : Prop where
  parse_serialize : ∀ target m : M, parseFromString target (serializeToString m) = m

/-- `RepHandler<Req, Rep>`: its callback, if it is set. -/
structure Replier (Req Rep : Type) where
  cb : Option (Str → Req → Rep → Rep × Bool)

variable {Req Rep : Type} [ProtoMsg Req] [ProtoMsg Rep]

/-- `RepHandler::RunLocalCallback`, on the caller's response object. -/
def Replier.runLocalCallback (h : Replier Req Rep) (topic : Str) (msgReq : Req) (msgRep : Rep) : Rep × Bool :=
  match h.cb with
  -- The partition part is removed from the topic.
  | some cb => cb (TopicUtils.stripName topic) msgReq msgRep
  | none => (msgRep, false)

/-- `RepHandler::RunCallback`, on a new response object. -/
def Replier.runCallback (h : Replier Req Rep) (topic req : Str) : Str × Bool :=
  match h.cb with
  | some cb =>
    let (msgRep, result) := cb (TopicUtils.stripName topic) (parseFromString new req) new
    (serializeToString msgRep, result)
  | none => ([], false)

end Messages

/-! ## The call -/

section Call

open NodeShared ProtoMsg

/-- What a blocking `Request` leaves its caller: its value, `_rep` and `_result`. -/
structure Reply (Rep : Type) where
  executed : Bool
  rep : Rep
  result : Bool
  deriving DecidableEq

structure Pending where
  rep : Str := []
  result : Bool := false
  repAvailable : Bool := false

/-- `NotifyResult` of a handler without a callback. -/
def Pending.notifyResult (h : Pending) (rep : Str) (result : Bool) : Pending :=
  { h with rep, result, repAvailable := true }

variable {Req Rep : Type} [ProtoMsg Req] [ProtoMsg Rep]

/-- The end of a blocking `Request`, after the wait. -/
def Pending.finish (h : Pending) (rep : Rep) (result : Bool) : Reply Rep :=
  if h.repAvailable then
    { executed := true, rep := if h.result then parseFromString rep h.rep else rep, result := h.result }
  else { executed := false, rep, result }

def requestLocal (repHandler : Replier Req Rep) (name : Str) (req : Req) (rep : Rep) : Reply Rep :=
  let (rep, result) := repHandler.runLocalCallback name req rep
  { executed := true, rep, result }

def sentOn (socket : Socket) : List Effect → Option (List Str)
  | [] => none
  | .send s frames :: es => if s = socket then some frames else sentOn socket es
  | _ :: es => sentOn socket es

def notified : List Effect → Option (Str × Bool)
  | [] => none
  | .notify _ _ rep result :: _ => some (rep, result)
  | _ :: es => notified es

/-- A responder reads a request: the first frame is the identity of its sender. -/
def receiveRequest (repHandlers : RepHandler → Replier Req Rep) (identity : Str) : List Str → NodeM Unit
  | [_, topic, sender, dstId, nodeUuid, reqUuid, req] =>
    recvSrvRequest (fun h => (repHandlers h).runCallback) identity topic sender dstId nodeUuid reqUuid req
  | _ => return ()

def receiveResponse (identity : Str) : List Str → NodeM Unit
  | [_, topic, nodeUuid, reqUuid, rep, result] => recvSrvResponse identity topic nodeUuid reqUuid rep result
  | _ => return ()

/-- The two ends of a remote call, and what names them to each other. -/
structure Link where
  client : NodeShared
  server : NodeShared
  /-- The identity of the responder, as the discovery service told it. -/
  responserId : Str
  /-- The identities that the sockets of the two ends show to each other. -/
  requesterId : Str
  replierId : Str

/-- A blocking `Request` to a responder in another process, whose response comes before the timeout. -/
def requestRemote (l : Link) (repHandlers : RepHandler → Replier Req Rep) (nUuid hUuid name : Str) (req : Req)
    (rep : Rep) (result : Bool) : Option (Reply Rep) := do
  let reqHandler : ReqHandler := { hUuid, nUuid, data := serializeToString req }
  -- Store the request handler, and the round of the loop that makes the request.
  let client := { l.client with requests := l.client.requests.addHandler name nUuid reqHandler }
  let (_, requested) := sendPendingReq name nUuid l.responserId reqHandler { state := client }
  let request ← sentOn .requester requested.effects
  let (_, served) := receiveRequest repHandlers l.requesterId request { state := l.server }
  let response ← sentOn .replier served.effects
  let (_, received) := receiveResponse l.replierId response { state := requested.state }
  let (data, ok) ← notified received.effects
  return (Pending.notifyResult {} data ok).finish rep result

end Call

/-! ## What the two calls give -/

section Agreement

open NodeShared ProtoMsg

variable {Req Rep : Type} [ProtoMsg Req] [ProtoMsg Rep]

theorem sentOn_append (socket : Socket) (es fs : List Effect) :
    sentOn socket (es ++ fs) = (sentOn socket es).or (sentOn socket fs) := by
  induction es with
  | nil => rfl
  | cons e es ih =>
    match e with
    | .send s frames =>
      rw [List.cons_append, sentOn, sentOn]
      split_ifs
      · rfl
      · exact ih
    | .datagram _ | .connect _ _ | .disconnect _ _ | .subscribe _ | .unsubscribe _ | .control _ _ | .callback _ _ _
    | .serve _ _ _ | .notify _ _ _ _ => exact ih

theorem calls_succeed {w : World NodeShared Effect} (h : w.throwsAt = []) {n : ℕ} :
    ∀ k < n, w.count + k ∉ w.throwsAt := fun k _ => by
  rw [h]
  exact List.not_mem_nil

theorem connectNew_ok (addr : Str) {w : World NodeShared Effect} (h : w.throwsAt = []) :
    ∃ w', connectNew .replier addr w = (.ok (), w') ∧ w'.throwsAt = [] ∧
      sentOn .replier w'.effects = sentOn .replier w.effects := by
  rw [connectNew_run]
  split_ifs with haddr hthrows
  · exact ⟨w, rfl, h, rfl⟩
  · rw [h] at hthrows
    cases hthrows
  · refine ⟨_, rfl, h, ?_⟩
    rw [sentOn_append]
    exact Option.or_none

theorem sentOn_recvSrvRequest {s : NodeShared} {topic : Str} {repHandler : RepHandler}
    (hfirst : s.repliers.getFirstHandler topic = some repHandler) (runCallback : RepHandler → Str → Str → Str × Bool)
    (identity sender dstId nodeUuid reqUuid req : Str) :
    sentOn .replier (recvSrvRequest runCallback identity topic sender dstId nodeUuid reqUuid req
      { state := s }).2.effects = some [dstId, topic, nodeUuid, reqUuid, (runCallback repHandler topic req).1,
        resultStr (runCallback repHandler topic req).2] := by
  have hknown : s.repliers.hasHandlersForTopic topic = true :=
    (HandlerMap.isSome_getFirstHandler s.repliers topic).mp (by rw [hfirst]; rfl)
  rcases recvSrvRequest_run runCallback identity topic sender dstId nodeUuid reqUuid req s [] with
    ⟨hnot, -⟩ | ⟨-, repHandler', hfirst', hrun⟩
  · exact absurd ⟨fun k _ => List.not_mem_nil, hknown⟩ hnot
  · obtain rfl := Option.some.inj (hfirst.symm.trans hfirst')
    obtain ⟨w, hconnect, hthrows, hsent⟩ := connectNew_ok sender
      (w := { state := s, effects := [.serve repHandler topic req], count := 7 }) rfl
    rw [hrun, bind_of_ok hconnect, sendReply, bind_of_ok (completes_sendFrames_ok _ (calls_succeed hthrows))]
    refine (sentOn_append _ _ _).trans ?_
    rw [hsent]
    rfl

theorem notified_recvSrvResponse {s : NodeShared} {topic nodeUuid reqUuid : Str} {reqHandler : ReqHandler}
    (hstored : s.requests.getHandler topic nodeUuid reqUuid = some reqHandler) (identity rep : Str) (result : Bool) :
    notified (recvSrvResponse identity topic nodeUuid reqUuid rep (resultStr result) { state := s }).2.effects =
      some (rep, result) := by
  rw [recvSrvResponse, bind_of_ok (recvFrames_received (calls_succeed rfl)), if_pos rfl, notifyResult, look_bind]
  dsimp only
  rw [hstored]
  have hresult : decide (resultStr result = resultStr true) = result := by cases result <;> decide
  rw [hresult]
  rfl

variable (l : Link) (repHandlers : RepHandler → Replier Req Rep) {repHandler : RepHandler} (nUuid hUuid name : Str)
  (req : Req) (rep : Rep) (result : Bool)

/-- **The remote call**: the callback answers into a new response object, and the caller's one is parsed from it if the
result is true. -/
theorem requestRemote_eq [LawfulProtoMsg Req] [LawfulProtoMsg Rep]
    (hfirst : l.server.repliers.getFirstHandler name = some repHandler) :
    requestRemote l repHandlers nUuid hUuid name req rep result =
      let answer := (repHandlers repHandler).runLocalCallback name req new
      some { executed := true, rep := if answer.2 then answer.1 else rep, result := answer.2 } := by
  have hcallback : ((repHandlers repHandler).runCallback name (serializeToString req)).2 =
      ((repHandlers repHandler).runLocalCallback name req new).2 := by
    unfold Replier.runCallback Replier.runLocalCallback
    cases (repHandlers repHandler).cb with
    | none => rfl
    | some cb => rw [LawfulProtoMsg.parse_serialize]
  have hparse : ((repHandlers repHandler).runLocalCallback name req new).2 = true →
      parseFromString rep ((repHandlers repHandler).runCallback name (serializeToString req)).1 =
        ((repHandlers repHandler).runLocalCallback name req new).1 := by
    unfold Replier.runCallback Replier.runLocalCallback
    cases (repHandlers repHandler).cb with
    | none => exact fun h => absurd h Bool.false_ne_true
    | some cb => exact fun _ => by rw [LawfulProtoMsg.parse_serialize, LawfulProtoMsg.parse_serialize]
  obtain ⟨reqHandler, hreqHandler⟩ : ∃ h : ReqHandler, h = { hUuid, nUuid, data := serializeToString req } := ⟨_, rfl⟩
  obtain ⟨client, hclient⟩ : ∃ s : NodeShared, s = { l.client with
    requests := l.client.requests.addHandler name nUuid reqHandler } := ⟨_, rfl⟩
  unfold requestRemote
  dsimp only
  rw [← hreqHandler, ← hclient]
  obtain ⟨-, hsend⟩ | ⟨hfails, -⟩ := sendPendingReq_pending name nUuid l.responserId
    (show reqHandler.requested = false by rw [hreqHandler]) { state := client }
  · have hstored : (setRequested name nUuid reqHandler client).requests.getHandler name reqHandler.nUuid
        reqHandler.hUuid = some reqHandler.sent := by
      rw [getHandler_setRequested, if_pos ⟨rfl, by rw [hreqHandler], rfl⟩]
    have hserved := sentOn_recvSrvRequest hfirst (fun h => (repHandlers h).runCallback) l.requesterId
      client.myRequesterAddress client.responseReceiverId.1 reqHandler.nUuid reqHandler.hUuid reqHandler.data
    have hreceived := notified_recvSrvResponse hstored l.replierId
      ((repHandlers repHandler).runCallback name reqHandler.data).1
      ((repHandlers repHandler).runCallback name reqHandler.data).2
    rw [hsend]
    refine Option.bind_eq_some_iff.mpr ⟨requestFrames client name l.responserId reqHandler, rfl, ?_⟩
    refine Option.bind_eq_some_iff.mpr ⟨_, hserved, ?_⟩
    refine Option.bind_eq_some_iff.mpr ⟨_, hreceived, ?_⟩
    have hdata : reqHandler.data = serializeToString req := by rw [hreqHandler]
    rw [hdata, hcallback]
    dsimp only [Pending.notifyResult, Pending.finish]
    rw [if_pos rfl]
    by_cases hok : ((repHandlers repHandler).runLocalCallback name req new).2 = true
    · rw [if_pos hok, if_pos hok, hparse hok]
      rfl
    · rw [if_neg hok, if_neg hok]
      rfl
  · exact absurd (calls_succeed rfl) hfails

/-- The callback makes nothing of what its response object holds: it answers as on a new one, and leaves it alone when
the result is false. -/
def Replier.Indifferent (h : Replier Req Rep) (topic : Str) (req : Req) (rep : Rep) : Prop :=
  ∀ cb, h.cb = some cb → (cb topic req rep).2 = (cb topic req new).2 ∧
    (cb topic req rep).1 = if (cb topic req new).2 = true then (cb topic req new).1 else rep

/-- **Local and remote calls agree** on the value, the response object and the result if and only if the callback is
indifferent to the response object of the caller. -/
theorem local_agrees_remote_iff [LawfulProtoMsg Req] [LawfulProtoMsg Rep]
    (hfirst : l.server.repliers.getFirstHandler name = some repHandler) :
    requestRemote l repHandlers nUuid hUuid name req rep result =
        some (requestLocal (repHandlers repHandler) name req rep) ↔
      (repHandlers repHandler).Indifferent (TopicUtils.stripName name) req rep := by
  rw [requestRemote_eq l repHandlers nUuid hUuid name req rep result hfirst]
  unfold requestLocal Replier.runLocalCallback Replier.Indifferent
  cases hcb : (repHandlers repHandler).cb with
  | none => exact iff_of_true rfl fun cb hcb => by cases hcb
  | some cb =>
    simp only [Option.some.injEq, Reply.mk.injEq, true_and, forall_eq']
    exact ⟨fun h => ⟨h.2.symm, h.1.symm⟩, fun h => ⟨h.2.symm, h.1.symm⟩⟩

/-- A message with one optional `bool`, as field 1. -/
structure Flag where
  data : Option Bool := none
  deriving DecidableEq, Repr

instance : ProtoMsg Flag where
  new := {}
  serializeToString m :=
    match m.data with
    | none => []
    | some b => [8, if b then 1 else 0]
  parseFromString _ bytes :=
    match bytes with
    | [8, b] => { data := some (b ≠ 0) }
    | _ => {}

instance : LawfulProtoMsg Flag where
  parse_serialize target m := by
    obtain ⟨_ | b⟩ := m
    · rfl
    · cases b <;> rfl

def sampleLink : Link where
  client := Process.sample Process.letterA
  server := { Process.sample Process.letterB with
    repliers := HandlerStorage.addHandler Table.empty (ascii ['@', '@', '/', 's']) [1] ⟨[5]⟩ }
  responserId := (Process.sample Process.letterB).replierId
  requesterId := [1]
  replierId := [2]

/-- A callback that writes its response, and fails. -/
def failing : Replier Flag Flag := ⟨some fun _ _ _ => ({ data := some true }, false)⟩

theorem getFirstHandler_sampleLink :
    ∃ h, sampleLink.server.repliers.getFirstHandler (ascii ['@', '@', '/', 's']) = some h := by
  rw [← Option.isSome_iff_exists, HandlerMap.isSome_getFirstHandler]
  decide +kernel

theorem local_agrees_remote_failing :
    requestRemote sampleLink (fun _ => failing) [1] [3] (ascii ['@', '@', '/', 's']) {} { data := some true } false =
        some (requestLocal failing (ascii ['@', '@', '/', 's']) {} { data := some true }) ↔
      failing.Indifferent (TopicUtils.stripName (ascii ['@', '@', '/', 's'])) {} { data := some true } := by
  obtain ⟨h, hfirst⟩ := getFirstHandler_sampleLink
  exact local_agrees_remote_iff sampleLink (fun _ => failing) [1] [3] _ {} { data := some true } false hfirst

/-- The response of the failed call reaches the caller only within the process. -/
theorem failed_response_local :
    requestRemote sampleLink (fun _ => failing) [1] [3] (ascii ['@', '@', '/', 's']) {} {} false ≠
      some (requestLocal failing (ascii ['@', '@', '/', 's']) {} {}) := by
  obtain ⟨h, hfirst⟩ := getFirstHandler_sampleLink
  rw [requestRemote_eq sampleLink (fun _ => failing) [1] [3] _ {} {} false hfirst]
  decide

end Agreement

end IgnTransport
