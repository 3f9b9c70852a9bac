import Mathlib
import IgnTransport.Requests

/-!
# IgnTransport.PendingSends — requests whose frames cannot be sent

`SendPendingRemoteReqs` sends seven frames for each handler that is not requested yet, in a `try` block that swallows
`zmq::error_t`.  The handler is marked as requested before the first frame is sent, and stays marked when a frame
throws: no later `OnNewSrvConnection` sends it.

* `failures_stay_pending_iff`: a handler is marked exactly when its frames were sent, if and only if the service is not
  known or none of these frames throws.
-/

namespace IgnTransport

open Lib CallM

namespace NodeShared

/-! ## Counting the requests -/

section Counting

variable {infoSrv : TopicStorage} {topic q : Str} {a : Address}

/-- The handlers of a service that are not requested yet, in the order of the loop. -/
def pending (s : NodeShared) (topic : Str) : List (Str × ReqHandler) :=
  (s.handlersFor topic).filter fun x => !x.2.requested

theorem sendPendingReq_requested (topic nUuid responserId : Str) {req : ReqHandler} (hreq : req.requested = true)
    (w : World NodeShared Effect) : sendPendingReq topic nUuid responserId req w = (.ok (), w) := by
  rw [sendPendingReq, if_pos hreq]
  rfl

/-- The seven frames of a request are sent, or the round leaves nothing behind but the mark. -/
theorem sendPendingReq_pending (topic nUuid responserId : Str) {req : ReqHandler} (hreq : req.requested = false)
    (w : World NodeShared Effect) :
    (∀ k < 7, w.count + k ∉ w.throwsAt) ∧ sendPendingReq topic nUuid responserId req w =
        (.ok (), { w with
          state := setRequested topic nUuid req w.state
          effects := w.effects ++ [.send .requester (requestFrames w.state topic responserId req)]
          count := w.count + 7 }) ∨
      (¬ ∀ k < 7, w.count + k ∉ w.throwsAt) ∧ ∃ n, sendPendingReq topic nUuid responserId req w =
        (.ok (), { w with state := setRequested topic nUuid req w.state, count := n }) := by
  have hmarked : (CallM.update (setRequested topic nUuid req) : NodeM Unit) w =
      (.ok (), { w with state := setRequested topic nUuid req w.state }) := rfl
  rw [sendPendingReq, if_neg (by simp [hreq]), bind_of_ok hmarked]
  by_cases h : ∀ k < 7, w.count + k ∉ w.throwsAt
  · have hsent := @completes_sendFrames_ok (requestFrames w.state topic responserId req) (.send .requester)
      { w with state := setRequested topic nUuid req w.state } h
    exact .inl ⟨h, bind_of_ok hsent⟩
  · obtain ⟨n, hn⟩ := @completes_sendFrames_fails (requestFrames w.state topic responserId req) (.send .requester)
      { w with state := setRequested topic nUuid req w.state } h
    exact .inr ⟨h, n, bind_of_ok hn⟩

/-- The loop sends a request for each pending handler exactly when no frame throws. -/
theorem forEach_sendPendingReq_count (topic responserId : Str) (l : List (Str × ReqHandler))
    (w : World NodeShared Effect) :
    let m := (l.filter fun x => !x.2.requested).length
    let w' := (CallM.forEach (fun x => sendPendingReq topic x.1 responserId x.2) l w).2
    w'.effects.length ≤ w.effects.length + m ∧
      (w'.effects.length = w.effects.length + m ↔ ∀ k < 7 * m, w.count + k ∉ w.throwsAt) := by
  induction l generalizing w with
  | nil => exact ⟨le_rfl, iff_of_true rfl fun k hk => absurd hk (Nat.not_lt_zero k)⟩
  | cons x l ih =>
    cases hreq : x.2.requested with
    | true =>
      rw [List.filter_cons_of_neg (by simp [hreq]), CallM.forEach,
        bind_of_ok (sendPendingReq_requested topic x.1 responserId hreq w)]
      exact ih w
    | false =>
      rw [List.filter_cons_of_pos (by simp [hreq]), CallM.forEach, List.length_cons]
      obtain ⟨hsent, hrun⟩ | ⟨hfails, n, hrun⟩ := sendPendingReq_pending topic x.1 responserId hreq w
      · rw [bind_of_ok hrun]
        obtain ⟨hle, hiff⟩ := ih { w with
          state := setRequested topic x.1 x.2 w.state
          effects := w.effects ++ [.send .requester (requestFrames w.state topic responserId x.2)]
          count := w.count + 7 }
        rw [List.length_append, List.length_singleton, Nat.add_assoc, Nat.add_comm 1] at hle hiff
        refine ⟨hle, hiff.trans ⟨fun h k hk => ?_, fun h k hk => ?_⟩⟩
        · -- the first seven calls are those of this round
          rcases Nat.lt_or_ge k 7 with hlt | hge
          · exact hsent k hlt
          · obtain ⟨j, rfl⟩ := Nat.exists_eq_add_of_le hge
            rw [← Nat.add_assoc]
            exact h j (by omega)
        · have hnext := h (7 + k) (by omega)
          rwa [← Nat.add_assoc] at hnext
      · rw [bind_of_ok hrun]
        have hle := (ih { w with state := setRequested topic x.1 x.2 w.state, count := n }).1
        dsimp only at hle
        refine ⟨by omega, iff_of_false ?_ fun h => hfails fun k hk => h k (by omega)⟩
        omega

/-- The messages to a responder of the handlers that are not requested yet. -/
theorem messages_pending (s : NodeShared) (topic responderId : Str) :
    ((s.pendingDispatches topic responderId).map (Dispatch.message s)) = (s.pending topic).map fun x =>
      .send .requester (requestFrames s topic responderId x.2) := by
  rw [pendingDispatches, List.map_map]
  rfl

theorem requestFrames_inj {s : NodeShared} {t t' r r' : Str} {h h' : ReqHandler}
    (heq : requestFrames s t r h = requestFrames s t' r' h') :
    r = r' ∧ t = t' ∧ h.nUuid = h'.nUuid ∧ h.hUuid = h'.hUuid := by
  simp only [requestFrames, List.cons.injEq] at heq
  exact ⟨heq.1, heq.2.1, heq.2.2.2.2.1, heq.2.2.2.2.2.1⟩

theorem nodup_messages {s : NodeShared} (hkeyed : s.Keyed) (hfirst : firstResponder infoSrv topic = some (q, a)) :
    ((s.pendingDispatches topic a.ctrl).map (Dispatch.message s)).Nodup := by
  obtain ⟨w', -, -, -, hbut, hmap, -⟩ := sendPendingRemoteReqs_run (w := { state := s }) hkeyed hfirst
  have hdistinct := (dispatches_pending hkeyed hfirst hbut hmap).distinct
  rw [List.Nodup, List.pairwise_map] at hdistinct ⊢
  refine hdistinct.imp fun hne heq => hne ?_
  obtain ⟨-, ht, hn, hu⟩ := requestFrames_inj (Effect.send.inj heq).2
  rw [Dispatch.key, Dispatch.key, ht, hn, hu]

/-- **Which requests are sent**: all of them exactly when no frame throws. -/
theorem sendPendingRemoteReqs_sends {w : World NodeShared Effect} (hkeyed : w.state.Keyed)
    (hfirst : firstResponder infoSrv topic = some (q, a)) {es : List Effect}
    (hes : (sendPendingRemoteReqs infoSrv topic w).2.effects = w.effects ++ es) :
    (∀ x ∈ w.state.pendingDispatches topic a.ctrl, Dispatch.message w.state x ∈ es) ↔
      ∀ k < 7 * (w.state.pending topic).length, w.count + k ∉ w.throwsAt := by
  obtain ⟨w', es', hrun, heffects, -, -, hsub⟩ := sendPendingRemoteReqs_run hkeyed hfirst
  rw [hrun, heffects] at hes
  obtain rfl := List.append_cancel_left hes
  have hcount := (forEach_sendPendingReq_count topic a.ctrl (w.state.handlersFor topic) w).2
  rw [← sendPendingRemoteReqs_eq hfirst, hrun, heffects, List.length_append, Nat.add_left_cancel_iff] at hcount
  refine Iff.trans ?_ hcount
  have hlen : ((w.state.handlersFor topic).filter fun x => !x.2.requested).length =
      ((w.state.pendingDispatches topic a.ctrl).map (Dispatch.message w.state)).length := by
    rw [messages_pending, List.length_map]
    rfl
  have hsub' : es'.Sublist ((w.state.pendingDispatches topic a.ctrl).map (Dispatch.message w.state)) := by
    rw [messages_pending]
    exact hsub
  rw [hlen]
  constructor
  · intro hall
    refine le_antisymm hsub'.length_le ((nodup_messages hkeyed hfirst).subperm ?_).length_le
    intro e he
    obtain ⟨x, hx, rfl⟩ := List.mem_map.mp he
    exact hall x hx
  · intro hfull x hx
    rw [hsub'.eq_of_length hfull]
    exact List.mem_map_of_mem hx

end Counting

/-! ## The marks -/

section Marks

/-- The frames of the request of a handler were sent, to some responder. -/
def RequestSent (s : NodeShared) (topic : Str) (h : ReqHandler) (es : List Effect) : Prop :=
  ∃ responderId, Effect.send .requester (requestFrames s topic responderId h) ∈ es

/-- From `s` to `s'` a handler of the service was marked as requested exactly when its request was sent, a handler whose
request was not sent is sent when a responder is found later, and no request was sent twice. -/
structure FailuresStayPending (topic : Str) (s s' : NodeShared) (es : List Effect) : Prop where
  marked : ∀ n u h, s.requests.getHandler topic n u = some h → h.requested = false →
    ∃ h', s'.requests.getHandler topic n u = some h' ∧ (h'.requested = true ↔ RequestSent s topic h es)
  later : ∀ n u h, s.requests.getHandler topic n u = some h → h.requested = false → ¬ RequestSent s topic h es →
    ∀ infoSrv args, args.topic = topic → infoSrv.hasTopic topic = true →
      RequestSent s topic h (onNewSrvConnection infoSrv args { state := s' }).2.effects
  notAgain : ∀ n u h, s.requests.getHandler topic n u = some h → h.requested = true → ¬ RequestSent s topic h es

variable {infoSrv : TopicStorage} {topic q : Str} {a : Address} {s : NodeShared}

theorem exists_firstResponder (h : infoSrv.hasTopic topic = true) :
    ∃ q a, firstResponder infoSrv topic = some (q, a) := by
  cases hfirst : firstResponder infoSrv topic with
  | none =>
    rw [(firstResponder_eq_none_iff infoSrv topic).mp hfirst] at h
    cases h
  | some r => exact ⟨r.1, r.2, rfl⟩

/-- A handler that is not requested is sent when a responder is found, if nothing throws. -/
theorem onNewSrvConnection_sends (hkeyed : s.Keyed) {n u : Str} {h : ReqHandler}
    (hstored : s.requests.getHandler topic n u = some h) (hnew : h.requested = false) {args : CallbackArgs}
    (htopic : args.topic = topic) (hknown : infoSrv.hasTopic topic = true) :
    RequestSent s topic h (onNewSrvConnection infoSrv args { state := s }).2.effects := by
  obtain ⟨q, a, hfirst⟩ := exists_firstResponder hknown
  have hconnect : ∃ w : World NodeShared Effect, connectRequester args.addr { state := s } = (.ok (), w) ∧
      w.state.butSrvConnections = s.butSrvConnections ∧ w.throwsAt = [] := by
    change ∃ w : World NodeShared Effect, (ite _ _ _ : NodeM Unit) { state := s } = (.ok (), w) ∧ _
    by_cases haddr : args.addr ∈ s.srvConnections
    · rw [if_pos haddr]
      exact ⟨_, rfl, rfl, rfl⟩
    · rw [if_neg haddr]
      exact ⟨_, rfl, rfl, rfl⟩
  obtain ⟨w, hrun, hstate, hthrows⟩ := hconnect
  have hrequests : w.state.requests = s.requests := congrArg (·.requests) hstate
  have haddress : w.state.myRequesterAddress = s.myRequesterAddress := congrArg (·.myRequesterAddress) hstate
  have hreceiver : w.state.responseReceiverId = s.responseReceiverId := congrArg (·.responseReceiverId) hstate
  have hkeyed' : w.state.Keyed := by
    unfold Keyed
    rw [hrequests]
    exact hkeyed
  have hcalls : onNewSrvConnection infoSrv args { state := s } = sendPendingRemoteReqs infoSrv topic w := by
    rw [onNewSrvConnection, bind_of_ok hrun, htopic]
  rw [hcalls]
  obtain ⟨w', es, hsend, heffects, -⟩ := sendPendingRemoteReqs_run hkeyed' hfirst
  rw [hsend]
  have hall := (sendPendingRemoteReqs_sends hkeyed' hfirst (by rw [hsend, heffects])).mpr
    fun k _ => by rw [hthrows]; exact List.not_mem_nil
  have hmem := hall ⟨topic, a.ctrl, h⟩ (mem_pendingDispatches.mpr ⟨rfl, rfl, hnew, n, u, hrequests ▸ hstored⟩)
  refine ⟨a.ctrl, heffects ▸ List.mem_append_right _ ?_⟩
  rw [Dispatch.message, requestFrames, haddress, hreceiver] at hmem
  exact hmem

theorem failuresStayPending_unknown (hkeyed : s.Keyed) (hfirst : firstResponder infoSrv topic = none)
    (throwsAt : List ℕ) :
    let r := sendPendingRemoteReqs infoSrv topic { state := s, throwsAt }
    r.1 = .ok () ∧ FailuresStayPending topic s r.2.state r.2.effects := by
  rw [sendPendingRemoteReqs_idle hfirst]
  have hunsent : ∀ h, ¬ RequestSent s topic h [] := fun _ hsent => List.not_mem_nil hsent.choose_spec
  refine ⟨rfl, ?_, ?_, ?_⟩
  · exact fun n u h hstored hnew => ⟨h, hstored, iff_of_false (by simp [hnew]) (hunsent h)⟩
  · exact fun n u h hstored hnew _ infoSrv args htopic hknown =>
      onNewSrvConnection_sends hkeyed hstored hnew htopic hknown
  · exact fun n u h _ _ => hunsent h

/-- Every handler of a known service is marked, so all of them have to be sent. -/
theorem failuresStayPending_known (hkeyed : s.Keyed) (hfirst : firstResponder infoSrv topic = some (q, a))
    (throwsAt : List ℕ) :
    let r := sendPendingRemoteReqs infoSrv topic { state := s, throwsAt }
    r.1 = .ok () ∧ (FailuresStayPending topic s r.2.state r.2.effects ↔
      ∀ k < 7 * (s.pending topic).length, k ∉ throwsAt) := by
  obtain ⟨w', es, hrun, heffects, -, hmap, hsub⟩ := sendPendingRemoteReqs_run
    (w := { state := s, throwsAt }) hkeyed hfirst
  have hes : w'.effects = es := heffects.trans (List.nil_append es)
  have hsends := sendPendingRemoteReqs_sends (w := { state := s, throwsAt }) hkeyed hfirst
    (by rw [hrun, heffects])
  -- a message that was sent is that of a pending handler
  have hof : ∀ h responderId, Effect.send .requester (requestFrames s topic responderId h) ∈ es →
      responderId = a.ctrl ∧ ∃ n u k, s.requests.getHandler topic n u = some k ∧ k.requested = false ∧
        h.nUuid = k.nUuid ∧ h.hUuid = k.hUuid := by
    intro h responderId hmem
    obtain ⟨⟨n, k⟩, hk, heq⟩ := List.mem_map.mp (hsub.subset hmem)
    obtain ⟨hstored, hnew⟩ := List.mem_filter.mp hk
    obtain ⟨u, hu⟩ := mem_handlersFor.mp hstored
    obtain ⟨hr, -, hn, hh⟩ := requestFrames_inj (Effect.send.inj heq).2
    exact ⟨hr.symm, n, u, k, hu, by simpa using hnew, hn.symm, hh.symm⟩
  rw [hrun]
  dsimp only
  rw [hes]
  refine ⟨rfl, Iff.trans ?_ (hsends.trans (forall₂_congr fun k _ => by rw [Nat.zero_add]))⟩
  have hmarked : ∀ n u h, s.requests.getHandler topic n u = some h →
      w'.state.requests.getHandler topic n u = some h.sent := by
    intro n u h hstored
    rw [hmap, hstored, Option.map_some, if_pos rfl]
  constructor
  · intro hstay x hx
    obtain ⟨rfl, hid, hnew, n, u, hu⟩ := mem_pendingDispatches.mp hx
    obtain ⟨h', hh', hiff⟩ := hstay.marked n u x.handler hu hnew
    obtain rfl := Option.some.inj ((hmarked n u x.handler hu).symm.trans hh')
    obtain ⟨responderId, hsent⟩ := hiff.mp rfl
    obtain ⟨rfl, -⟩ := hof _ _ hsent
    rw [Dispatch.message, hid]
    exact hsent
  · intro hall
    have hsent : ∀ n u h, s.requests.getHandler topic n u = some h → h.requested = false →
        RequestSent s topic h es := fun n u h hstored hnew =>
      ⟨a.ctrl, hall ⟨topic, a.ctrl, h⟩ (mem_pendingDispatches.mpr ⟨rfl, rfl, hnew, n, u, hstored⟩)⟩
    refine ⟨fun n u h hstored hnew => ⟨h.sent, hmarked n u h hstored, iff_of_true rfl (hsent n u h hstored hnew)⟩,
      fun n u h hstored hnew hunsent => absurd (hsent n u h hstored hnew) hunsent, ?_⟩
    rintro n u h hstored hreq ⟨responderId, hmem⟩
    obtain ⟨-, m, v, k, hk, hnew, hn, hu⟩ := hof _ _ hmem
    obtain ⟨rfl, rfl⟩ := hkeyed _ _ _ _ hstored
    obtain ⟨rfl, rfl⟩ := hkeyed _ _ _ _ hk
    rw [hn, hu] at hstored
    obtain rfl := Option.some.inj (hstored.symm.trans hk)
    rw [hreq] at hnew
    cases hnew

/-- **The marks of the requests**: failed sends leave their requests pending if and only if the service is not known or
none of the frames of the pending requests throws. -/
theorem failures_stay_pending_iff (infoSrv : TopicStorage) (topic : Str) (s : NodeShared) (throwsAt : List ℕ)
    (hkeyed : s.Keyed) :
    let r := sendPendingRemoteReqs infoSrv topic { state := s, throwsAt }
    r.1 = .ok () ∧ (FailuresStayPending topic s r.2.state r.2.effects ↔
      (infoSrv.hasTopic topic = true → ∀ k < 7 * (s.pending topic).length, k ∉ throwsAt)) := by
  intro r
  by_cases hknown : infoSrv.hasTopic topic = true
  · obtain ⟨q, a, hfirst⟩ := exists_firstResponder hknown
    obtain ⟨hok, hiff⟩ := failuresStayPending_known hkeyed hfirst throwsAt
    exact ⟨hok, hiff.trans ⟨fun h _ => h, fun h => h hknown⟩⟩
  · have hfirst := (firstResponder_eq_none_iff infoSrv topic).mpr (by simpa using hknown)
    obtain ⟨hok, hstay⟩ := failuresStayPending_unknown hkeyed hfirst throwsAt
    exact ⟨hok, iff_of_true hstay fun h => absurd h hknown⟩

/-- One request of a service whose responder is known. -/
def oneRequest : NodeShared :=
  { Process.sample Process.letterA with
    requests := HandlerStorage.addHandler Table.empty (ascii ['s']) [1] ⟨[3], [1], [4], false⟩ }

/-- The service, as another process advertised it. -/
def oneResponder : TopicStorage :=
  (TopicStorage.addAddress Table.empty (ascii ['s']) [66, 4] [9] [7] [8] .all).1

theorem keyed_oneRequest : oneRequest.Keyed := by
  have hempty : (Process.sample Process.letterA).Keyed := fun t n u h hstored => by
    rw [show (Process.sample Process.letterA).requests = Table.empty from rfl,
      HandlerStorage.getHandler_of_empty t n (Table.cell_empty t n)] at hstored
    cases hstored
  exact keyed_addHandler hempty (ascii ['s']) ⟨[3], [1], [4], false⟩

/-- A second request of it. -/
def twoRequests : NodeShared :=
  { oneRequest with requests := oneRequest.requests.addHandler (ascii ['s']) [1] ⟨[5], [1], [4], false⟩ }

theorem keyed_twoRequests : twoRequests.Keyed :=
  keyed_addHandler keyed_oneRequest (ascii ['s']) ⟨[5], [1], [4], false⟩

/-- A frame of the first request throws, none of the second. -/
theorem failures_stay_pending_twoRequests :
    let r := sendPendingRemoteReqs oneResponder (ascii ['s']) { state := twoRequests, throwsAt := [3] }
    (twoRequests.pending (ascii ['s'])).length = 2 ∧ r.1 = .ok () ∧
      ¬ FailuresStayPending (ascii ['s']) twoRequests r.2.state r.2.effects := by
  intro r
  have hpending : (twoRequests.pending (ascii ['s'])).length = 2 := by decide +kernel
  obtain ⟨hok, hiff⟩ := failures_stay_pending_iff oneResponder (ascii ['s']) twoRequests [3] keyed_twoRequests
  refine ⟨hpending, hok, fun hstay => ?_⟩
  have hsent := hiff.mp hstay (by decide +kernel) 3 (by rw [hpending]; decide)
  exact hsent (List.mem_singleton_self 3)

/-- The first frame throws: the request is marked, and was not sent. -/
theorem failed_request_marked :
    let r := sendPendingRemoteReqs oneResponder (ascii ['s']) { state := oneRequest, throwsAt := [0] }
    ¬ FailuresStayPending (ascii ['s']) oneRequest r.2.state r.2.effects := by
  intro r hstay
  obtain ⟨q, a, hfirst⟩ := exists_firstResponder
    (show oneResponder.hasTopic (ascii ['s']) = true by decide +kernel)
  have hsent := (failuresStayPending_known keyed_oneRequest hfirst [0]).2.mp hstay
  exact hsent 0 (by decide +kernel) (List.mem_singleton_self 0)

end Marks

end NodeShared

end IgnTransport
