import Mathlib
import IgnTransport.ProcessTables

/-!
# IgnTransport.Requests — the request handlers of a process (`ReqHandler.hh`, `SendPendingRemoteReqs`)

A request handler is stored, marked as requested when it is sent, and never sent again.  `sendPendingRemoteReqs_run` is
the exact account of `SendPendingRemoteReqs`, whichever sends throw; `Dispatches` is what any program of a process does
to the handlers, and `serves_exec` what an operation does.
-/

namespace IgnTransport

open Lib CallM

/-- The handler, marked as requested. -/
def ReqHandler.sent (h : ReqHandler) : ReqHandler := { h with requested := true }

namespace NodeShared

/-! ## The loop -/

section Loop

/-- Every request handler is stored under its own node and its own UUID. -/
def Keyed (s : NodeShared) : Prop :=
  ∀ t n u h, s.requests.getHandler t n u = some h → h.nUuid = n ∧ h.hUuid = u

theorem keyed_addHandler {s : NodeShared} (hkeyed : s.Keyed) (topic : Str) (req : ReqHandler) :
    Keyed { s with requests := s.requests.addHandler topic req.nUuid req } := by
  intro t n u h hstored
  rw [HandlerStorage.getHandler_addHandler] at hstored
  split_ifs at hstored with hc
  · obtain ⟨-, rfl, rfl, -⟩ := hc
    rw [← Option.some.inj hstored]
    exact ⟨rfl, rfl⟩
  · exact hkeyed t n u h hstored

/-- Everything but the requests. -/
def butRequests (s : NodeShared) : NodeShared := { s with requests := Table.empty }

/-- The frames of a request. -/
def requestFrames (s : NodeShared) (topic responserId : Str) (req : ReqHandler) : List Str :=
  [responserId, topic, s.myRequesterAddress, s.responseReceiverId, req.nUuid, req.hUuid, req.data]

theorem getHandler_setRequested (topic nUuid : Str) (req : ReqHandler) (s : NodeShared) (t n u : Str) :
    (setRequested topic nUuid req s).requests.getHandler t n u =
      if t = topic ∧ n = nUuid ∧ u = req.hUuid then some req.sent else s.requests.getHandler t n u := by
  unfold setRequested HandlerStorage.getHandler
  rw [Table.cell_set]
  by_cases hc : t = topic ∧ n = nUuid
  · obtain ⟨rfl, rfl⟩ := hc
    rw [if_pos ⟨rfl, rfl⟩, getElem?_insert']
    exact if_congr (by simp) rfl rfl
  · rw [if_neg hc, if_neg fun h => hc ⟨h.1, h.2.1⟩]

theorem completes_sendFrames_ok {frames : List Str} (e : List Str → Effect) {w : World NodeShared Effect}
    (h : ∀ k < frames.length, w.count + k ∉ w.throwsAt) :
    CallM.completes .zmqError (sendFrames frames e) w =
      (.ok true, { w with effects := w.effects ++ [e frames], count := w.count + frames.length }) := by
  have hcalls : (CallM.forEach (fun _ => zmqCall) frames : NodeM Unit) w = _ := forEach_attempt_ok _ frames w h
  exact completes_of_ok (bind_of_ok hcalls)

theorem completes_sendFrames_fails {frames : List Str} (e : List Str → Effect) {w : World NodeShared Effect}
    (h : ¬ ∀ k < frames.length, w.count + k ∉ w.throwsAt) :
    ∃ n, CallM.completes .zmqError (sendFrames frames e) w = (.ok false, { w with count := n }) := by
  obtain ⟨n, hn⟩ := forEach_attempt_fails (E := Effect) Thrown.zmqError frames w h
  have hcalls : (CallM.forEach (fun _ => zmqCall) frames : NodeM Unit) w = _ := hn
  exact ⟨n, completes_of_error (bind_of_error hcalls)⟩

/-- A message in a `try` block is sent or not, and nothing gets out of the block. -/
theorem completes_sendFrames (frames : List Str) (e : List Str → Effect) (w : World NodeShared Effect) :
    ∃ b w' es, CallM.completes .zmqError (sendFrames frames e) w = (.ok b, w') ∧ w'.state = w.state ∧
      w'.effects = w.effects ++ es ∧ es.Sublist [e frames] := by
  by_cases h : ∀ k < frames.length, w.count + k ∉ w.throwsAt
  · exact ⟨true, _, [e frames], completes_sendFrames_ok e h, rfl, rfl, List.Sublist.refl _⟩
  · obtain ⟨n, hn⟩ := completes_sendFrames_fails e h
    exact ⟨false, _, [], hn, rfl, (List.append_nil _).symm, List.nil_sublist _⟩

/-- One round: a handler that was not requested is now, and its request is sent unless a frame throws. -/
theorem sendPendingReq_run (topic nUuid responserId : Str) (req : ReqHandler) (w : World NodeShared Effect) :
    ∃ w' es, sendPendingReq topic nUuid responserId req w = (.ok (), w') ∧ w'.effects = w.effects ++ es ∧
      w'.state = (if req.requested then w.state else setRequested topic nUuid req w.state) ∧
      es.Sublist (if req.requested then []
        else [.send .requester (requestFrames w.state topic responserId req)]) := by
  unfold sendPendingReq
  by_cases hreq : req.requested = true
  · rw [if_pos hreq, if_pos hreq, if_pos hreq]
    exact ⟨w, [], rfl, (List.append_nil _).symm, rfl, List.Sublist.refl _⟩
  · rw [if_neg hreq, if_neg hreq, if_neg hreq]
    obtain ⟨b, w', es, hrun, hstate, heffects, hes⟩ := completes_sendFrames
      (requestFrames w.state topic responserId req) (.send .requester)
      { w with state := setRequested topic nUuid req w.state }
    refine ⟨w', es, ?_, heffects, hstate, hes⟩
    have hmarked : (CallM.update (setRequested topic nUuid req) : NodeM Unit) w =
        (.ok (), { w with state := setRequested topic nUuid req w.state }) := rfl
    rw [bind_of_ok hmarked]
    exact bind_of_ok hrun

/-- The handlers of a loop, by node and handler UUID. -/
def loopKeys (l : List (Str × ReqHandler)) : List (Str × Str) := l.map fun x => (x.1, x.2.hUuid)

theorem loopKeys_cons (x : Str × ReqHandler) (l : List (Str × ReqHandler)) :
    loopKeys (x :: l) = (x.1, x.2.hUuid) :: loopKeys l := rfl

/-- A round changes the handler that it is about. -/
theorem getHandler_round {topic nUuid : Str} {req : ReqHandler} {s s' : NodeShared}
    (hstate : s' = if req.requested then s else setRequested topic nUuid req s)
    (hstored : s.requests.getHandler topic nUuid req.hUuid = some req) (t n u : Str) :
    s'.requests.getHandler t n u =
      if t = topic ∧ n = nUuid ∧ u = req.hUuid then some req.sent else s.requests.getHandler t n u := by
  rw [hstate]
  split_ifs with hreq hc hc
  · obtain ⟨rfl, rfl, rfl⟩ := hc
    rw [hstored, ReqHandler.sent, ← hreq]
  · rfl
  · rw [getHandler_setRequested, if_pos hc]
  · rw [getHandler_setRequested, if_neg hc]

theorem butRequests_round {topic nUuid : Str} {req : ReqHandler} {s s' : NodeShared}
    (hstate : s' = if req.requested then s else setRequested topic nUuid req s) :
    s'.butRequests = s.butRequests := by
  rw [hstate]
  split_ifs <;> rfl

/-- A request has the same frames in any state that differs in the table only. -/
theorem requestFrames_congr {s s' : NodeShared} (hbut : s'.butRequests = s.butRequests) (topic responserId : Str) :
    requestFrames s' topic responserId = requestFrames s topic responserId := by
  have haddr : s'.myRequesterAddress = s.myRequesterAddress := congrArg (·.myRequesterAddress) hbut
  have hid : s'.responseReceiverId = s.responseReceiverId := congrArg (·.responseReceiverId) hbut
  funext req
  rw [requestFrames, requestFrames, haddr, hid]

/-- **The loop of `SendPendingRemoteReqs`** over handlers as they are stored: afterwards all of them are requested, and
at most one request was sent for each of those that were not before. -/
theorem forEach_sendPendingReq (topic responserId : Str) (l : List (Str × ReqHandler)) (w : World NodeShared Effect)
    (hl : ∀ x ∈ l, w.state.requests.getHandler topic x.1 x.2.hUuid = some x.2) (hdistinct : (loopKeys l).Nodup) :
    ∃ w' es, CallM.forEach (fun x => sendPendingReq topic x.1 responserId x.2) l w = (.ok (), w') ∧
      w'.effects = w.effects ++ es ∧ w'.state.butRequests = w.state.butRequests ∧
      (∀ t n u, w'.state.requests.getHandler t n u = (w.state.requests.getHandler t n u).map fun h =>
        if t = topic ∧ (n, u) ∈ loopKeys l then h.sent else h) ∧
      es.Sublist ((l.filter fun x => !x.2.requested).map fun x =>
        .send .requester (requestFrames w.state topic responserId x.2)) := by
  induction l generalizing w with
  | nil => exact ⟨w, [], rfl, (List.append_nil _).symm, rfl, fun t n u => by simp [loopKeys], List.Sublist.refl _⟩
  | cons x l ih =>
    obtain ⟨v, es, hrun, heffects, hstate, hes⟩ := sendPendingReq_run topic x.1 responserId x.2 w
    obtain ⟨hx, hl⟩ := List.forall_mem_cons.mp hl
    rw [loopKeys_cons, List.nodup_cons] at hdistinct
    obtain ⟨hfresh, hdistinct⟩ := hdistinct
    have hround := getHandler_round hstate hx
    have hbut := butRequests_round hstate
    have hkept : ∀ y ∈ l, v.state.requests.getHandler topic y.1 y.2.hUuid = some y.2 := by
      intro y hy
      rw [hround, if_neg ?_, hl y hy]
      rintro ⟨-, hn, hu⟩
      exact hfresh (List.mem_map.mpr ⟨y, hy, by rw [hn, hu]⟩)
    obtain ⟨w', fs, hrest, heffects', hbut', hmap, hfs⟩ := ih v hkept hdistinct
    refine ⟨w', es ++ fs, ?_, by rw [heffects', heffects, List.append_assoc], hbut'.trans hbut, fun t n u => ?_, ?_⟩
    · rw [CallM.forEach, bind_of_ok hrun]
      exact hrest
    · rw [hmap, hround, loopKeys_cons]
      by_cases hc : t = topic ∧ n = x.1 ∧ u = x.2.hUuid
      · obtain ⟨rfl, rfl, rfl⟩ := hc
        rw [if_pos ⟨rfl, rfl, rfl⟩, hx]
        simp [ReqHandler.sent]
      · have hne : t = topic → (n, u) ≠ (x.1, x.2.hUuid) := by
          rintro rfl heq
          exact hc ⟨rfl, (Prod.mk.inj heq).1, (Prod.mk.inj heq).2⟩
        rw [if_neg hc]
        refine congrArg (fun f => Option.map f _) (funext fun h => if_congr ?_ rfl rfl)
        refine and_congr_right fun ht => ?_
        rw [List.mem_cons, or_iff_right (hne ht)]
    · rw [requestFrames_congr hbut] at hfs
      by_cases hreq : x.2.requested = true
      · rw [if_pos hreq] at hes
        rw [List.filter_cons_of_neg (by simpa using hreq), List.eq_nil_of_sublist_nil hes, List.nil_append]
        exact hfs
      · rw [if_neg hreq] at hes
        rw [List.filter_cons_of_pos (by simpa using hreq), List.map_cons]
        exact hes.append hfs

end Loop

/-! ## SendPendingRemoteReqs -/

section Pending

/-- The responder that a request goes to: the first entry of the first process. -/
def firstResponder (infoSrv : TopicStorage) (topic : Str) : Option (Str × Address) :=
  (Std.ExtTreeMap.minEntry? (infoSrv.row topic)).bind fun proc => proc.2.head?.map fun a => (proc.1, a)

theorem getElem?_row_eq_some {infoSrv : TopicStorage} {topic q : Str} {v : List Address}
    (h : (infoSrv.row topic)[q]? = some v) : v = infoSrv.cell topic q ∧ v ≠ [] := by
  have hmem := (infoSrv.mem_row_toList topic q v).mp (Std.ExtTreeMap.mem_toList_iff_getElem?_eq_some.mpr h)
  exact ⟨hmem.1.symm, hmem.1 ▸ hmem.2⟩

/-- An entry of the row of a topic. -/
theorem minEntry?_row {infoSrv : TopicStorage} {topic : Str} {e : Str × List Address}
    (h : Std.ExtTreeMap.minEntry? (infoSrv.row topic) = some e) :
    infoSrv.hasTopic topic = true ∧ e.2 = infoSrv.cell topic e.1 ∧ ∃ a as, e.2 = a :: as := by
  obtain ⟨hcell, hne⟩ := getElem?_row_eq_some (getElem?_of_minEntry h)
  exact ⟨(TopicStorage.hasTopic_iff _ _).mpr ⟨e.1, hcell ▸ hne⟩, hcell, List.exists_cons_of_ne_nil hne⟩

theorem firstResponder_eq_none_iff (infoSrv : TopicStorage) (topic : Str) :
    firstResponder infoSrv topic = none ↔ infoSrv.hasTopic topic = false := by
  unfold firstResponder
  cases hmin : Std.ExtTreeMap.minEntry? (infoSrv.row topic) with
  | none =>
    refine iff_of_true rfl ?_
    by_contra htopic
    obtain ⟨q, hq⟩ := (TopicStorage.hasTopic_iff _ _).mp (by simpa using htopic)
    have hget := infoSrv.getElem?_row topic q
    rw [(minEntry?_eq_none_iff _).mp hmin, Std.ExtTreeMap.getElem?_empty,
      if_neg fun h => hq ((Cell.isEmpty_iff _).mp h)]
      at hget
    cases hget
  | some e =>
    obtain ⟨htopic, -, a, as, hcons⟩ := minEntry?_row hmin
    rw [Option.bind_some, hcons, htopic]
    simp

theorem firstResponder_eq_some {infoSrv : TopicStorage} {topic q : Str} {a : Address}
    (h : firstResponder infoSrv topic = some (q, a)) : ∃ as,
      Std.ExtTreeMap.minEntry? (infoSrv.row topic) = some (q, a :: as) ∧ infoSrv.cell topic q = a :: as := by
  obtain ⟨⟨q', v⟩, hmin, h⟩ := Option.bind_eq_some_iff.mp h
  obtain ⟨a', ha', heq⟩ := Option.map_eq_some_iff.mp h
  obtain ⟨rfl, rfl⟩ := Prod.mk.inj heq
  obtain ⟨-, hcell, b, as, hcons⟩ := minEntry?_row hmin
  have hv : v = b :: as := hcons
  rw [hv] at ha'
  obtain rfl := Option.some.inj ha'
  exact ⟨as, by rw [hmin, hv], by rw [← hv]; exact hcell.symm⟩

/-- The request handlers of a topic, in the order of the loop. -/
def handlersFor (s : NodeShared) (topic : Str) : List (Str × ReqHandler) :=
  (s.requests.row topic).toList.flatMap fun node => node.2.toList.map fun req => (node.1, req.2)

theorem mem_row_requests {s : NodeShared} {topic n u : Str} {h : ReqHandler} {c : StrMap ReqHandler}
    (hc : (n, c) ∈ (s.requests.row topic).toList) (hu : (u, h) ∈ c.toList) :
    s.requests.getHandler topic n u = some h := by
  rw [← ((s.requests.mem_row_toList topic n c).mp hc).1] at hu
  exact Std.ExtTreeMap.mem_toList_iff_getElem?_eq_some.mp hu

theorem mem_handlersFor {s : NodeShared} {topic n : Str} {h : ReqHandler} :
    (n, h) ∈ s.handlersFor topic ↔ ∃ u, s.requests.getHandler topic n u = some h := by
  simp only [handlersFor, List.mem_map, List.mem_flatMap, Prod.exists, Prod.mk.injEq]
  constructor
  · rintro ⟨_, c, hc, u, _, hu, rfl, rfl⟩
    exact ⟨u, mem_row_requests hc hu⟩
  · rintro ⟨u, hu⟩
    have hu' : (s.requests.cell topic n)[u]? = some h := hu
    have hne : s.requests.cell topic n ≠ Cell.empty := fun hempty => by
      rw [HandlerStorage.getHandler_of_empty topic n hempty] at hu
      cases hu
    exact ⟨n, _, (s.requests.mem_row_toList topic n _).mpr ⟨rfl, hne⟩, u, h,
      Std.ExtTreeMap.mem_toList_iff_getElem?_eq_some.mpr hu', rfl, rfl⟩

/-- The loop meets a handler once. -/
theorem nodup_handlersFor {s : NodeShared} (hkeyed : s.Keyed) (topic : Str) :
    (loopKeys (s.handlersFor topic)).Nodup := by
  rw [loopKeys, List.Nodup, List.pairwise_map, handlersFor, List.pairwise_flatMap]
  constructor
  · rintro ⟨n, c⟩ hc
    rw [List.pairwise_map]
    refine (distinct_toList c).imp_of_mem ?_
    rintro ⟨u, h⟩ ⟨u', h'⟩ hu hu' hne heq
    have hkey := (hkeyed _ _ _ _ (mem_row_requests hc hu)).2
    have hkey' := (hkeyed _ _ _ _ (mem_row_requests hc hu')).2
    exact hne (hkey.symm.trans ((Prod.mk.inj heq).2.trans hkey'))
  · refine (distinct_toList _).imp ?_
    rintro ⟨n, c⟩ ⟨n', c'⟩ hne x hx y hy heq
    obtain ⟨_, -, rfl⟩ := List.mem_map.mp hx
    obtain ⟨_, -, rfl⟩ := List.mem_map.mp hy
    exact hne (Prod.mk.inj heq).1

/-- `SendPendingRemoteReqs` of a known service is one loop. -/
theorem sendPendingRemoteReqs_eq {infoSrv : TopicStorage} {topic q : Str} {a : Address}
    (hfirst : firstResponder infoSrv topic = some (q, a)) (w : World NodeShared Effect) :
    sendPendingRemoteReqs infoSrv topic w =
      CallM.forEach (fun x => sendPendingReq topic x.1 a.ctrl x.2) (w.state.handlersFor topic) w := by
  obtain ⟨as, hmin, hcell⟩ := firstResponder_eq_some hfirst
  obtain ⟨htopic, -, -⟩ := minEntry?_row hmin
  have hknown : (infoSrv.getAddresses topic).bind (fun addresses => Std.ExtTreeMap.minEntry? addresses) =
      some (q, a :: as) := by
    rw [TopicStorage.getAddresses, if_pos htopic]
    exact hmin
  have hrun : sendPendingRemoteReqs infoSrv topic w =
      ((w.state.requests.getHandlers topic).elim (return ()) fun reqs =>
        CallM.forEach (fun (node : Str × StrMap ReqHandler) =>
          CallM.forEach (fun (req : Str × ReqHandler) => sendPendingReq topic node.1 a.ctrl req.2)
            node.2.toList) reqs.toList : NodeM Unit) w := by
    unfold sendPendingRemoteReqs
    rw [hknown]
    dsimp only
    rw [look_bind]
    cases w.state.requests.getHandlers topic <;> rfl
  rw [hrun]
  cases hget : w.state.requests.getHandlers topic with
  | none =>
    have hnone : w.state.handlersFor topic = [] := by
      refine List.eq_nil_iff_forall_not_mem.mpr ?_
      rintro ⟨n, h⟩ hmem
      obtain ⟨u, hu⟩ := mem_handlersFor.mp hmem
      have hrow := HandlerStorage.hasHandlersForTopic_of_getHandler _ _ _ hu
      exact absurd ((HandlerStorage.getHandlers_eq_some_iff _ _ _).mpr ⟨hrow, rfl⟩) (by rw [hget]; simp)
    rw [hnone]
    rfl
  | some reqs =>
    obtain ⟨-, rfl⟩ := (HandlerStorage.getHandlers_eq_some_iff _ _ _).mp hget
    rw [Option.elim_some, handlersFor,
      ← forEach_flatMap (fun x : Str × ReqHandler => sendPendingReq topic x.1 a.ctrl x.2)
        (fun (node : Str × StrMap ReqHandler) (req : Str × ReqHandler) => (node.1, req.2))]

/-- **`SendPendingRemoteReqs`** of a known service: every handler of the topic is requested, and at most one request
was sent for each one that was not. -/
theorem sendPendingRemoteReqs_run {infoSrv : TopicStorage} {topic q : Str} {a : Address} {w : World NodeShared Effect}
    (hkeyed : w.state.Keyed) (hfirst : firstResponder infoSrv topic = some (q, a)) :
    ∃ w' es, sendPendingRemoteReqs infoSrv topic w = (.ok (), w') ∧ w'.effects = w.effects ++ es ∧
      w'.state.butRequests = w.state.butRequests ∧
      (∀ t n u, w'.state.requests.getHandler t n u = (w.state.requests.getHandler t n u).map fun h =>
        if t = topic then h.sent else h) ∧
      es.Sublist (((w.state.handlersFor topic).filter fun x => !x.2.requested).map fun x =>
        .send .requester (requestFrames w.state topic a.ctrl x.2)) := by
  have hstored : ∀ x ∈ w.state.handlersFor topic, w.state.requests.getHandler topic x.1 x.2.hUuid = some x.2 := by
    rintro ⟨n, h⟩ hx
    obtain ⟨u, hu⟩ := mem_handlersFor.mp hx
    rw [(hkeyed _ _ _ _ hu).2]
    exact hu
  obtain ⟨w', es, hloop, heffects, hbut, hmap, hes⟩ := forEach_sendPendingReq topic a.ctrl
    (w.state.handlersFor topic) w hstored (nodup_handlersFor hkeyed topic)
  refine ⟨w', es, (sendPendingRemoteReqs_eq hfirst w).trans hloop, heffects, hbut, fun t n u => ?_, hes⟩
  rw [hmap]
  cases hat : w.state.requests.getHandler t n u with
  | none => rfl
  | some h =>
    refine congrArg some (if_congr ?_ rfl rfl)
    refine and_iff_left_of_imp ?_
    rintro rfl
    exact List.mem_map.mpr ⟨(n, h), mem_handlersFor.mpr ⟨u, hat⟩, by rw [(hkeyed _ _ _ _ hat).2]⟩

end Pending

/-! ## What programs do to the handlers -/

section Dispatches

/-- A request that `SendPendingRemoteReqs` puts out: the handler as it was, and the identity that it is for. -/
structure Dispatch where
  topic : Str
  responderId : Str
  handler : ReqHandler

/-- Where the handler is stored. -/
def Dispatch.key (x : Dispatch) : Str × Str × Str := (x.topic, x.handler.nUuid, x.handler.hUuid)

/-- The message of a request. -/
def Dispatch.message (s : NodeShared) (x : Dispatch) : Effect :=
  .send .requester (requestFrames s x.topic x.responderId x.handler)

def IsRequest : Effect → Bool
  | .send .requester _ => true
  | _ => false

/-- From `s` to `s'` these handlers, and no other, were marked as requested, each of them once, for the first responder
of its service. -/
structure Dispatches (infoSrv : TopicStorage) (s s' : NodeShared) (sent : List Dispatch) : Prop where
  myRequesterAddress : s'.myRequesterAddress = s.myRequesterAddress
  responseReceiverId : s'.responseReceiverId = s.responseReceiverId
  stored : ∀ x ∈ sent, s.requests.getHandler x.topic x.handler.nUuid x.handler.hUuid = some x.handler ∧
    x.handler.requested = false
  responder : ∀ x ∈ sent, ∃ q a, firstResponder infoSrv x.topic = some (q, a) ∧ x.responderId = a.ctrl
  distinct : (sent.map Dispatch.key).Nodup
  handlers : ∀ t n u, s'.requests.getHandler t n u = (s.requests.getHandler t n u).map fun h =>
    if (t, n, u) ∈ sent.map Dispatch.key then h.sent else h

/-- What a program does to the handlers, and which of the requests it sends. -/
def Serves (infoSrv : TopicStorage) (s s' : NodeShared) (es : List Effect) : Prop :=
  s.Keyed → ∃ sent, Dispatches infoSrv s s' sent ∧ (es.filter IsRequest).Sublist (sent.map (Dispatch.message s))

variable {infoSrv : TopicStorage} {s s' t : NodeShared} {sent sent' : List Dispatch} {es fs : List Effect}

theorem sent_sent (h : ReqHandler) : h.sent.sent = h.sent := rfl

theorem Dispatches.keyed (h : Dispatches infoSrv s s' sent) (hs : s.Keyed) : s'.Keyed := by
  intro t n u k hk
  rw [h.handlers] at hk
  obtain ⟨k', hk', rfl⟩ := Option.map_eq_some_iff.mp hk
  have hkey := hs t n u k' hk'
  split_ifs <;> exact hkey

theorem Dispatches.trans (h : Dispatches infoSrv s s' sent) (h' : Dispatches infoSrv s' t sent') :
    Dispatches infoSrv s t (sent ++ sent') := by
  -- what is dispatched later was not dispatched before
  have hbefore : ∀ x ∈ sent', x.key ∉ sent.map Dispatch.key ∧
      s.requests.getHandler x.topic x.handler.nUuid x.handler.hUuid = some x.handler := by
    intro x hx
    obtain ⟨hstored, hnew⟩ := h'.stored x hx
    rw [h.handlers] at hstored
    obtain ⟨k, hk, hkx⟩ := Option.map_eq_some_iff.mp hstored
    split_ifs at hkx with hin
    · rw [← hkx] at hnew
      cases hnew
    · exact ⟨hin, hkx ▸ hk⟩
  refine ⟨h'.myRequesterAddress.trans h.myRequesterAddress, h'.responseReceiverId.trans h.responseReceiverId, ?_,
    List.forall_mem_append.mpr ⟨h.responder, h'.responder⟩, ?_, fun u n v => ?_⟩
  · exact List.forall_mem_append.mpr ⟨h.stored, fun x hx => ⟨(hbefore x hx).2, (h'.stored x hx).2⟩⟩
  · rw [List.map_append]
    refine h.distinct.append h'.distinct fun key hkey hkey' => ?_
    obtain ⟨x, hx, rfl⟩ := List.mem_map.mp hkey'
    exact (hbefore x hx).1 hkey
  · rw [h'.handlers, h.handlers, Option.map_map]
    refine congrArg (fun f => Option.map f _) (funext fun k => ?_)
    simp only [List.map_append, List.mem_append, Function.comp_apply]
    by_cases hin : (u, n, v) ∈ sent.map Dispatch.key
    · rw [if_pos hin, sent_sent, ite_self, if_pos (Or.inl hin)]
    · rw [if_neg hin]
      exact if_congr (or_iff_right hin).symm rfl rfl

theorem composes_serves (infoSrv : TopicStorage) : Composes (Serves infoSrv) where
  refl s _ := ⟨[], ⟨rfl, rfl, by simp, by simp, List.nodup_nil, fun t n u => by simp⟩, by simp⟩
  trans s t u es fs h h' hkeyed := by
    obtain ⟨sent, hsent, hes⟩ := h hkeyed
    obtain ⟨sent', hsent', hfs⟩ := h' (hsent.keyed hkeyed)
    refine ⟨sent ++ sent', hsent.trans hsent', ?_⟩
    have hmessage : Dispatch.message t = Dispatch.message s := by
      funext x
      rw [Dispatch.message, Dispatch.message, requestFrames, requestFrames, hsent.myRequesterAddress,
        hsent.responseReceiverId]
    rw [List.filter_append, List.map_append, ← hmessage]
    exact (hmessage ▸ hes).append hfs

/-- A program that has no part in services. -/
theorem serves_of_kept (hrequests : s'.requests = s.requests) (haddr : s'.myRequesterAddress = s.myRequesterAddress)
    (hid : s'.responseReceiverId = s.responseReceiverId) (hes : ∀ e ∈ es, IsRequest e = false) :
    Serves infoSrv s s' es := by
  refine fun _ => ⟨[], ⟨haddr, hid, by simp, by simp, List.nodup_nil, fun t n u => ?_⟩, ?_⟩
  · rw [hrequests]
    simp
  · rw [List.filter_eq_nil_iff.mpr fun e he => by rw [hes e he]; simp]
    exact List.Sublist.refl _

/-- The handlers that the loop of `SendPendingRemoteReqs` dispatches. -/
def pendingDispatches (s : NodeShared) (topic responderId : Str) : List Dispatch :=
  ((s.handlersFor topic).filter fun x => !x.2.requested).map fun x => ⟨topic, responderId, x.2⟩

theorem mem_pendingDispatches {topic responderId : Str} {x : Dispatch} :
    x ∈ s.pendingDispatches topic responderId ↔ x.topic = topic ∧ x.responderId = responderId ∧
      x.handler.requested = false ∧ ∃ n u, s.requests.getHandler topic n u = some x.handler := by
  simp only [pendingDispatches, List.mem_map, List.mem_filter, Prod.exists]
  constructor
  · rintro ⟨n, h, ⟨hmem, hnew⟩, rfl⟩
    obtain ⟨u, hu⟩ := mem_handlersFor.mp hmem
    exact ⟨rfl, rfl, by simpa using hnew, n, u, hu⟩
  · rintro ⟨rfl, rfl, hnew, n, u, hu⟩
    exact ⟨n, x.handler, ⟨mem_handlersFor.mpr ⟨u, hu⟩, by simpa using hnew⟩, rfl⟩

theorem dispatches_pending {topic q : Str} {a : Address} (hkeyed : s.Keyed)
    (hfirst : firstResponder infoSrv topic = some (q, a)) (hbut : s'.butRequests = s.butRequests)
    (hmap : ∀ t n u, s'.requests.getHandler t n u = (s.requests.getHandler t n u).map fun h =>
      if t = topic then h.sent else h) : Dispatches infoSrv s s' (s.pendingDispatches topic a.ctrl) where
  myRequesterAddress := congrArg (·.myRequesterAddress) hbut
  responseReceiverId := congrArg (·.responseReceiverId) hbut
  stored x hx := by
    obtain ⟨rfl, -, hnew, n, u, hu⟩ := mem_pendingDispatches.mp hx
    obtain ⟨rfl, rfl⟩ := hkeyed _ _ _ _ hu
    exact ⟨hu, hnew⟩
  responder x hx := by
    obtain ⟨rfl, hid, -⟩ := mem_pendingDispatches.mp hx
    exact ⟨q, a, hfirst, hid⟩
  distinct := by
    have hnodup := nodup_handlersFor hkeyed topic
    rw [loopKeys, List.Nodup, List.pairwise_map] at hnodup
    rw [List.Nodup, List.pairwise_map, pendingDispatches, List.pairwise_map]
    refine (hnodup.sublist List.filter_sublist).imp_of_mem ?_
    rintro ⟨n, h⟩ ⟨n', h'⟩ hmem hmem' hne heq
    obtain ⟨u, hu⟩ := mem_handlersFor.mp (List.mem_of_mem_filter hmem)
    obtain ⟨u', hu'⟩ := mem_handlersFor.mp (List.mem_of_mem_filter hmem')
    simp only [Dispatch.key, Prod.mk.injEq] at heq
    refine hne ?_
    rw [← (hkeyed _ _ _ _ hu).1, ← (hkeyed _ _ _ _ hu').1, heq.2.1, heq.2.2]
  handlers t n u := by
    rw [hmap]
    cases hat : s.requests.getHandler t n u with
    | none => rfl
    | some h =>
      obtain ⟨rfl, rfl⟩ := hkeyed _ _ _ _ hat
      refine congrArg some ?_
      dsimp only
      by_cases ht : t = topic
      · rw [if_pos ht]
        subst ht
        split_ifs with hin
        · rfl
        · -- it was requested before
          have hreq : h.requested = true := by
            by_contra hnew
            exact hin (List.mem_map.mpr ⟨⟨t, a.ctrl, h⟩,
              mem_pendingDispatches.mpr ⟨rfl, rfl, by simpa using hnew, _, _, hat⟩, rfl⟩)
          rw [ReqHandler.sent, ← hreq]
      · rw [if_neg ht, if_neg]
        intro hin
        obtain ⟨x, hx, hkey⟩ := List.mem_map.mp hin
        obtain ⟨rfl, -⟩ := mem_pendingDispatches.mp hx
        exact ht (Prod.mk.inj hkey).1.symm

theorem sendPendingRemoteReqs_idle {topic : Str} (h : firstResponder infoSrv topic = none)
    (w : World NodeShared Effect) : sendPendingRemoteReqs infoSrv topic w = (.ok (), w) := by
  have hnone := (firstResponder_eq_none_iff infoSrv topic).mp h
  unfold sendPendingRemoteReqs
  rw [TopicStorage.getAddresses, if_neg (by simpa using hnone)]
  rfl

theorem yields_sendPendingRemoteReqs (infoSrv : TopicStorage) (topic : Str) :
    Yields (Serves infoSrv) (sendPendingRemoteReqs infoSrv topic) := by
  intro w
  cases hfirst : firstResponder infoSrv topic with
  | none =>
    rw [sendPendingRemoteReqs_idle hfirst]
    exact ⟨[], (List.append_nil _).symm, (composes_serves infoSrv).refl _⟩
  | some r =>
    obtain ⟨q, a⟩ := r
    by_cases hkeyed : w.state.Keyed
    · obtain ⟨w', es, hrun, heffects, hbut, hmap, hes⟩ := sendPendingRemoteReqs_run hkeyed hfirst
      rw [hrun]
      refine ⟨es, heffects, fun _ => ⟨_, dispatches_pending hkeyed hfirst hbut hmap, ?_⟩⟩
      rw [pendingDispatches, List.map_map]
      exact List.filter_sublist.trans hes
    · obtain ⟨-, es, heffects, -⟩ := within_sendPendingRemoteReqs w.state.butServices infoSrv topic w rfl
      exact ⟨es, heffects, fun h => absurd h hkeyed⟩

/-- A program that keeps the requests, and sends none. -/
theorem yields_of_within {α : Type} {p : NodeM α} (view : NodeShared → NodeShared)
    (hview : ∀ s, (view s).requests = s.requests ∧ (view s).myRequesterAddress = s.myRequesterAddress ∧
      (view s).responseReceiverId = s.responseReceiverId)
    (h : ∀ s, Within view (view s) (fun e => IsRequest e = false) p) : Yields (Serves infoSrv) p := by
  refine Within.yields h fun s s' es hkept hes => ?_
  refine serves_of_kept ?_ ?_ ?_ hes
  · rw [← (hview s').1, hkept, (hview s).1]
  · rw [← (hview s').2.1, hkept, (hview s).2.1]
  · rw [← (hview s').2.2, hkept, (hview s).2.2]

/-- Everything but the service connections. -/
def butSrvConnections (s : NodeShared) : NodeShared := { s with srvConnections := [] }

theorem within_connectRequester (s : NodeShared) (addr : Str) :
    Within butSrvConnections s (fun e => IsRequest e = false) (connectRequester addr) := by
  refine within_look fun t _ => ?_
  split_ifs
  · exact within_pure ()
  · refine Within.bind (within_zmq ?_) fun _ => within_update ?_
    · rfl
    · exact fun _ h => h

/-- Everything but the connections and the remote subscribers. -/
def butSockets (s : NodeShared) : NodeShared := s.butTopics.butSrvConnections

/-- Only the connection callback for services has a part in the requests. -/
theorem within_react_requests (s : NodeShared) (d : Discovery) {o : Output} (h : ∀ args, o ≠ .connection .srv args) :
    Within butSockets s (fun e => IsRequest e = false) (react d o) := by
  match o with
  | .sendto b => exact within_emit rfl
  | .connection .msg args =>
    refine Within.coarsen (g := butConnections) (f := fun s => s.butRemote.butSrvConnections) fun t _ => ?_
    refine (within_onNewConnection t args).mono fun e he => ?_
    match e with
    | .send _ _ => exact he.elim
    | .connect _ _ | .subscribe _ | .control _ _ | .datagram _ | .disconnect _ _ | .unsubscribe _
    | .callback _ _ _ | .serve _ _ _ | .notify _ _ _ _ => rfl
  | .connection .srv args => exact absurd rfl (h args)
  | .disconnection .msg args =>
    refine Within.coarsen (g := butTopics) (f := butSrvConnections) fun t _ => ?_
    refine (within_onNewDisconnection t args).mono fun e he => ?_
    match e with
    | .disconnect _ _ => rfl
    | .send _ _ => exact he.elim
    | .connect _ _ | .subscribe _ | .control _ _ | .datagram _ | .unsubscribe _ | .callback _ _ _ | .serve _ _ _
    | .notify _ _ _ _ => rfl
  | .disconnection .srv args => exact within_update fun _ h => h

theorem yields_react (d : Discovery) (o : Output) : Yields (Serves d.infoSrv) (react d o) := by
  by_cases h : ∃ args, o = .connection .srv args
  · obtain ⟨args, rfl⟩ := h
    refine Yields.bind (composes_serves _) ?_ fun _ => yields_sendPendingRemoteReqs d.infoSrv args.topic
    exact yields_of_within butSrvConnections (fun _ => ⟨rfl, rfl, rfl⟩) fun s =>
      within_connectRequester s.butSrvConnections args.addr
  · exact yields_of_within butSockets (fun _ => ⟨rfl, rfl, rfl⟩) fun s =>
      within_react_requests s.butSockets d fun args heq => h ⟨args, heq⟩

end Dispatches

end NodeShared

namespace Process

/-! ## Operations -/

section Operations

open NodeShared

variable {p : Process} {op : Op} {r : Process × NodeM Bool}

/-- A call on the requester socket, or what a request handler is told. -/
def UsesRequester : Effect → Bool
  | .send .requester _ | .connect .requester _ | .notify _ _ _ _ => true
  | _ => false

/-- The program of an operation: it does what the discovery service puts out, or it dispatches the requests of a known
service, or it has nothing to do with services. -/
inductive Program (p : Process) (op : Op) (r : Process × NodeM Bool) : Prop where
  | discovered (dop : Discovery.Op) (out : List Output) (hop : p.discoveryOp op = some dop)
    (hout : p.discovery.perform dop = some (r.1.discovery, out))
    (hprogram : r.2 = (reactAll r.1.discovery out >>= fun _ => return true))
  | known (nUuid topic hUuid data name : Str) (hop : op = .request nUuid topic hUuid data)
    (hname : p.fqn nUuid topic = some name) (hreplier : p.shared.repliers.getFirstHandler name = none)
    (hknown : p.discovery.infoSrv.hasTopic name = true) (hdiscovery : r.1.discovery = p.discovery)
    (hprogram : r.2 = (sendPendingRemoteReqs r.1.discovery.infoSrv name >>= fun _ => return true))
  | quiet (hquiet : ∀ s, Within butRemote (butRemote s) (fun e => UsesRequester e = false) r.2)
    (hidle : p.requestsAfter op = p.shared.requests) (hdiscovery : r.1.discovery.infoSrv = p.discovery.infoSrv)

/-- What an operation has done to the requests before its first call, and what its program is. -/
structure Serviced (p : Process) (op : Op) (r : Process × NodeM Bool) : Prop where
  requests : r.1.shared.requests = p.requestsAfter op
  srvConnections : r.1.shared.srvConnections = p.shared.srvConnections
  myRequesterAddress : r.1.shared.myRequesterAddress = p.shared.myRequesterAddress
  responseReceiverId : r.1.shared.responseReceiverId = p.shared.responseReceiverId
  program : Program p op r

theorem serviced_perform (h : p.perform op = some r) : Serviced p op r := by
  obtain ⟨hshared, -, haction⟩ := acts_perform h
  refine ⟨congrArg (·.requests) hshared, congrArg (·.srvConnections) hshared,
    congrArg (·.myRequesterAddress) hshared, congrArg (·.responseReceiverId) hshared, ?_⟩
  cases haction with
  | discovered dop out hop hout hprogram => exact .discovered dop out hop hout hprogram
  | own hop hdiscovery hprogram =>
    obtain ⟨q, c⟩ := r
    have hinfo : q.discovery.infoSrv = p.discovery.infoSrv := congrArg (·.infoSrv) hdiscovery
    -- the programs that have no part in services
    cases hprogram with
    | idle b hidle => exact .quiet (fun s => within_pure b) hidle hinfo
    | known nUuid topic hUuid data name hop hname hreplier hknown =>
      exact .known nUuid topic hUuid data name hop hname hreplier hknown hdiscovery (by
        rw [← hinfo]
        rfl)
    | unsubscribed nUuid topic name hop =>
      refine .quiet (fun s => ?_) (by rw [hop]; rfl) hinfo
      refine Within.coarsen (g := id) (f := butRemote) fun s _ =>
        (within_notifyUnsubscribed s _ _ _).mono fun e he => ?_
      match e with
      | .send _ _ | .connect _ _ | .notify _ _ _ _ => exact he.elim
      | .subscribe _ | .control _ _ | .datagram _ | .disconnect _ _ | .unsubscribe _ | .callback _ _ _
      | .serve _ _ _ => rfl
    | published nUuid topic data name node hop =>
      refine .quiet (fun s => ?_) (by rw [hop]; rfl) hinfo
      refine Within.coarsen (g := id) (f := butRemote) fun s _ => (within_publish s _ _ _).mono fun e he => ?_
      match e with
      | .send .publisher _ => rfl
      | .send .subscriber _ | .send .requester _ | .send .replier _ | .connect _ _ | .notify _ _ _ _ => exact he.elim
      | .subscribe _ | .control _ _ | .datagram _ | .disconnect _ _ | .unsubscribe _ | .callback _ _ _
      | .serve _ _ _ => rfl
    | controlled topic procUuid nodeUuid data hop =>
      refine .quiet (fun s => Within.bind ?_ fun _ => within_pure true) (by rw [hop]; rfl) hinfo
      exact (within_recvControlUpdate s.butRemote _ _ _ _).mono fun _ h => h.elim

theorem yields_program (h : Program p op r) : Yields (Serves r.1.discovery.infoSrv) r.2 := by
  have hcomposes := composes_serves r.1.discovery.infoSrv
  have hpure : Yields (Serves r.1.discovery.infoSrv) (return true : NodeM Bool) :=
    yields_of_within id (fun _ => ⟨rfl, rfl, rfl⟩) fun _ => within_pure true
  cases h with
  | discovered dop out hop hout hprogram =>
    rw [hprogram]
    exact Yields.bind hcomposes (Yields.forEach hcomposes fun o _ => yields_react r.1.discovery o) fun _ => hpure
  | known nUuid topic hUuid data name hop hname hreplier hknown hdiscovery hprogram =>
    rw [hprogram]
    exact Yields.bind hcomposes (yields_sendPendingRemoteReqs _ name) fun _ => hpure
  | quiet hquiet hidle hdiscovery =>
    refine yields_of_within butRemote (fun _ => ⟨rfl, rfl, rfl⟩) fun s => (hquiet s).mono fun e he => ?_
    match e with
    | .send .requester _ => cases he
    | .send .publisher _ | .send .subscriber _ | .send .replier _ | .connect _ _ | .subscribe _ | .control _ _
    | .datagram _ | .disconnect _ _ | .unsubscribe _ | .callback _ _ _ | .serve _ _ _ | .notify _ _ _ _ => rfl

/-- Datagrams touch no table. -/
theorem within_reactAll_datagrams (s : NodeShared) (d : Discovery) {out : List Output} (h : ∀ o ∈ out, o.IsDatagram) :
    Within id s (fun e => UsesRequester e = false) (reactAll d out) := by
  refine Within.forEach fun o ho => ?_
  match o, h o ho with
  | .sendto b, _ => exact within_emit rfl

/-- A request handler is told of a response. -/
def IsNotice : Effect → Bool
  | .notify _ _ _ _ => true
  | _ => false

theorem not_isNotice_of_reactEffect {s : NodeShared} {o : Output} {e : Effect} (h : s.ReactEffect o e) :
    IsNotice e = false := by
  match o, e, h with
  | .sendto _, _, rfl => rfl
  | .connection .msg _, .connect .subscriber _, _ | .connection .msg _, .subscribe _, _
  | .connection .msg _, .control _ _, _ | .connection .srv _, .connect .requester _, _
  | .connection .srv _, .send .requester _, _ | .disconnection .msg _, .disconnect .subscriber _, _ => rfl

/-- No operation tells a request handler of a response. -/
theorem not_isNotice_exec {e : Event} {o : Outcome} (h : p.exec e = some o) : ∀ x ∈ o.effects, IsNotice x = false := by
  obtain ⟨r, hr, rfl, -⟩ := exec_eq_some h
  cases (serviced_perform hr).program with
  | discovered dop out hop hout hprogram =>
    have hwithin : Within core r.1.shared.core (fun x => IsNotice x = false) r.2 := by
      rw [hprogram]
      refine Within.bind ((within_reactAll _ r.1.discovery out).mono fun x hx => ?_) fun _ => within_pure true
      obtain ⟨_, -, hx⟩ := hx
      exact not_isNotice_of_reactEffect hx
    exact (finish_within hwithin e.throwsAt).2
  | known nUuid topic hUuid data name hop hname hreplier hknown hdiscovery hprogram =>
    have hwithin : Within butServices r.1.shared.butServices (fun x => IsNotice x = false) r.2 := by
      rw [hprogram]
      refine Within.bind ((within_sendPendingRemoteReqs _ _ name).mono fun x hx => ?_) fun _ => within_pure true
      match x, hx with
      | .connect .requester _, _ | .send .requester _, _ => rfl
    exact (finish_within hwithin e.throwsAt).2
  | quiet hquiet hidle hdiscovery =>
    refine (finish_within ((hquiet r.1.shared).mono fun x hx => ?_) e.throwsAt).2
    match x with
    | .notify _ _ _ _ => cases hx
    | .send _ _ | .connect _ _ | .subscribe _ | .control _ _ | .datagram _ | .disconnect _ _ | .unsubscribe _
    | .callback _ _ _ | .serve _ _ _ => rfl

theorem keyed_requestsAfter (hkeyed : p.shared.Keyed) (op : Op) :
    Keyed { p.shared with requests := p.requestsAfter op } := by
  intro t n u k hk
  cases op with
  | request nUuid topic hUuid data =>
    dsimp only [requestsAfter] at hk
    cases hname : p.fqn nUuid topic with
    | none =>
      simp only [hname] at hk
      exact hkeyed t n u k hk
    | some name =>
      simp only [hname] at hk
      split_ifs at hk
      · exact hkeyed t n u k hk
      · exact keyed_addHandler hkeyed name ⟨hUuid, nUuid, data, false⟩ t n u k hk
  | _ => exact hkeyed t n u k hk

/-- **What an operation does to the request handlers**: it may store one; then some handlers that were not requested
are, each once, and at most one request is sent for each of them. -/
theorem dispatches_exec {e : Event} {o : Outcome} (h : p.exec e = some o) (hkeyed : p.shared.Keyed) : ∃ sent,
    Dispatches o.process.discovery.infoSrv { p.shared with requests := p.requestsAfter e.op } o.process.shared sent ∧
      (o.effects.filter IsRequest).Sublist (sent.map (Dispatch.message p.shared)) := by
  obtain ⟨r, hr, rfl, -⟩ := exec_eq_some h
  have hserviced := serviced_perform hr
  have hyields := yields_program hserviced.program
  obtain ⟨es, heffects, hserves⟩ := hyields { state := r.1.shared, throwsAt := e.throwsAt }
  have hkeyed' : r.1.shared.Keyed := by
    intro t n u k hk
    rw [hserviced.requests] at hk
    exact keyed_requestsAfter hkeyed e.op t n u k hk
  obtain ⟨sent, hsent, hsub⟩ := hserves hkeyed'
  refine ⟨sent, ⟨?_, ?_, ?_, hsent.responder, hsent.distinct, ?_⟩, ?_⟩
  · exact hsent.myRequesterAddress.trans hserviced.myRequesterAddress
  · exact hsent.responseReceiverId.trans hserviced.responseReceiverId
  · rw [← hserviced.requests]
    exact hsent.stored
  · rw [← hserviced.requests]
    exact hsent.handlers
  · have hmessage : Dispatch.message p.shared = Dispatch.message r.1.shared := by
      funext x
      rw [Dispatch.message, Dispatch.message, requestFrames, requestFrames, hserviced.myRequesterAddress,
        hserviced.responseReceiverId]
    have hfinish : (finish e.throwsAt r).effects = es := heffects.trans (List.nil_append es)
    rw [hfinish, hmessage]
    exact hsub

end Operations

end Process

end IgnTransport
