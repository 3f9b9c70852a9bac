import Mathlib
import IgnTransport.ProcessNetwork
import IgnTransport.PendingSends

/-!
# IgnTransport.ServiceCalls — service calls from request to response

* `response_is_own`: a request handler is told what a replier of its service made of its own request.
* `told_once`: every request is sent at most once, and every handler is told exactly once, and then forgotten.
* `calls_matched`: no request and no response is repeated, and no response is for another request.
* `call_answered`: a request that gets through is answered.
-/

namespace IgnTransport

open Lib CallM

namespace ProcessNetwork

open NodeShared

/-! ## Counting -/

section Counting

/-- A handler is told of a response. -/
def Tells (u : Str) : Effect → Bool
  | .notify h _ _ _ => h.hUuid = u
  | _ => false

/-- The request of a handler. -/
def Requests (u : Str) : Effect → Bool
  | .send .requester frames => frames[5]? = some u
  | _ => false

/-- What has nothing to do with requests is counted by neither. -/
theorem count_quiet {out : List Effect} (h : ∀ x ∈ out, Process.UsesRequester x = false) (u : Str) :
    out.countP (Tells u) = 0 ∧ out.countP (Requests u) = 0 := by
  refine ⟨List.countP_eq_zero.mpr fun x hx => ?_, List.countP_eq_zero.mpr fun x hx => ?_⟩
  · have hquiet := h x hx
    match x with
    | .notify _ _ _ _ => cases hquiet
    | .send _ _ | .connect _ _ | .subscribe _ | .control _ _ | .datagram _ | .disconnect _ _ | .unsubscribe _
    | .callback _ _ _ | .serve _ _ _ => exact Bool.false_ne_true
  · have hquiet := h x hx
    match x with
    | .send .requester _ => cases hquiet
    | .send .publisher _ | .send .subscriber _ | .send .replier _ | .notify _ _ _ _ | .connect _ _ | .subscribe _
    | .control _ _ | .datagram _ | .disconnect _ _ | .unsubscribe _ | .callback _ _ _ | .serve _ _ _ =>
      exact Bool.false_ne_true

/-- Elements with one key between them are one element of a list with distinct keys. -/
theorem countP_le_one {α β : Type} (key : α → β) (P : α → Bool) {l : List α} (hl : (l.map key).Nodup)
    (h : ∀ x ∈ l, ∀ y ∈ l, P x = true → P y = true → key x = key y) : l.countP P ≤ 1 := by
  induction l with
  | nil => exact Nat.zero_le 1
  | cons x l ih =>
    rw [List.map_cons, List.nodup_cons] at hl
    rw [List.countP_cons]
    split_ifs with hx
    · have hnone : l.countP P = 0 := List.countP_eq_zero.mpr fun y hy hPy => hl.1 <| by
        rw [h x List.mem_cons_self y (List.mem_cons_of_mem x hy) hx hPy]
        exact List.mem_map_of_mem hy
      rw [hnone]
    · exact ih hl.2 fun y hy z hz => h y (List.mem_cons_of_mem x hy) z (List.mem_cons_of_mem x hz)

variable {p : Process} {e : Process.Event} {o : Process.Outcome}

/-- The requests of an operation. -/
theorem count_exec (h : p.exec e = some o) (hkeyed : p.shared.Keyed)
    (honce : ∀ t n t' n' u, o.process.Stored t n u → o.process.Stored t' n' u → t = t' ∧ n = n') (u : Str) :
    o.effects.countP (Tells u) = 0 ∧ o.effects.countP (Requests u) ≤ 1 ∧
      (o.effects.countP (Requests u) ≠ 0 → ∃ t n k, (p.requestsAfter e.op).getHandler t n u = some k ∧
        k.requested = false ∧ ∀ k', o.process.shared.requests.getHandler t n u = some k' → k'.requested = true) := by
  obtain ⟨sent, hsent, hsub⟩ := Process.dispatches_exec h hkeyed
  have htells : o.effects.countP (Tells u) = 0 := List.countP_eq_zero.mpr fun x hx => by
    have hquiet := Process.not_isNotice_exec h x hx
    match x with
    | .notify _ _ _ _ => cases hquiet
    | .send _ _ | .connect _ _ | .subscribe _ | .control _ _ | .datagram _ | .disconnect _ _ | .unsubscribe _
    | .callback _ _ _ | .serve _ _ _ => exact Bool.false_ne_true
  -- only requests are counted, and each of them is of a handler that was dispatched
  have hle : o.effects.countP (Requests u) ≤ sent.countP fun x => x.handler.hUuid = u := by
    have hfilter : o.effects.countP (Requests u) = (o.effects.filter IsRequest).countP (Requests u) := by
      rw [List.countP_filter]
      refine List.countP_congr fun x _ => ?_
      match x with
      | .send .requester _ => simp [IsRequest]
      | .send .publisher _ | .send .subscriber _ | .send .replier _ | .notify _ _ _ _ | .connect _ _ | .subscribe _
      | .control _ _ | .datagram _ | .disconnect _ _ | .unsubscribe _ | .callback _ _ _ | .serve _ _ _ =>
        simp [Requests]
    rw [hfilter]
    refine (hsub.countP_le).trans (le_of_eq ?_)
    rw [List.countP_map]
    refine List.countP_congr fun x _ => ?_
    simp [Function.comp_apply, Dispatch.message, Requests, requestFrames]
  have hstored : ∀ x ∈ sent, o.process.Stored x.topic x.handler.nUuid x.handler.hUuid := by
    intro x hx
    unfold Process.Stored
    rw [hsent.handlers, (hsent.stored x hx).1]
    exact ⟨_, rfl⟩
  have hone : (sent.countP fun x => x.handler.hUuid = u) ≤ 1 := by
    refine countP_le_one Dispatch.key _ hsent.distinct fun x hx y hy hxu hyu => ?_
    obtain rfl : x.handler.hUuid = u := by simpa using hxu
    have hy' : y.handler.hUuid = x.handler.hUuid := by simpa using hyu
    obtain ⟨ht, hn⟩ := honce _ _ _ _ _ (hstored x hx) (hy' ▸ hstored y hy)
    rw [Dispatch.key, Dispatch.key, ht, hn, hy']
  refine ⟨htells, hle.trans hone, fun hne => ?_⟩
  have hpos : 0 < sent.countP fun x => x.handler.hUuid = u := (Nat.pos_of_ne_zero hne).trans_le hle
  obtain ⟨x, hx, hxu⟩ := List.countP_pos_iff.mp hpos
  obtain rfl : x.handler.hUuid = u := by simpa using hxu
  refine ⟨x.topic, x.handler.nUuid, x.handler, (hsent.stored x hx).1, (hsent.stored x hx).2, fun k' hk' => ?_⟩
  have hkey : (x.topic, x.handler.nUuid, x.handler.hUuid) ∈ sent.map Dispatch.key := List.mem_map.mpr ⟨x, hx, rfl⟩
  rw [hsent.handlers, (hsent.stored x hx).1, Option.map_some, if_pos hkey, Option.some.injEq] at hk'
  rw [← hk']
  rfl

end Counting

/-! ## Accounts -/

section Accounts

variable {ι : Type} {i : ι} {c c' : Requesters} {ps out : List Effect} {r : Requesters × List Effect}

/-- The account of a process: the request handlers that it has made, and what it has sent and told. -/
structure Account (c : Requesters) (ps : List Effect) : Prop where
  tracked : c.Tracked
  unknown : ∀ u : Str, c.callers[u]? = none → ps.countP (Tells u) = 0 ∧ ps.countP (Requests u) = 0
  stored : ∀ t n u, c.process.Stored t n u → ps.countP (Tells u) = 0
  gone : ∀ u : Str, c.callers[u]? ≠ none → (∀ t n, ¬ c.process.Stored t n u) → ps.countP (Tells u) = 1
  pending : ∀ t n u h, c.process.shared.requests.getHandler t n u = some h → h.requested = false →
    ps.countP (Requests u) = 0
  once : ∀ u, ps.countP (Requests u) ≤ 1

/-- No handler is told twice. -/
theorem Account.told (h : Account c ps) (u : Str) : ps.countP (Tells u) ≤ 1 := by
  by_cases hknown : c.callers[u]? = none
  · rw [(h.unknown u hknown).1]
    exact Nat.zero_le 1
  · by_cases hstored : ∃ t n, c.process.Stored t n u
    · obtain ⟨t, n, hs⟩ := hstored
      rw [h.stored t n u hs]
      exact Nat.zero_le 1
    · push Not at hstored
      rw [h.gone u hknown hstored]

theorem account_start (shared : NodeShared) (hostAddr : Str) : Account (Requesters.start shared hostAddr) [] where
  tracked := Requesters.tracked_start shared hostAddr
  unknown _ _ := ⟨rfl, rfl⟩
  stored _ _ _ _ := rfl
  gone u hu := absurd (by simp [Requesters.start]) hu
  pending t n u h hh := absurd ⟨h, hh⟩ (Requesters.not_stored_start shared hostAddr t n u)
  once _ := Nat.zero_le 1

/-- What has nothing to do with requests changes no account. -/
theorem Account.quiet (h : Account c ps) (ht : c'.Tracked)
    (hrequests : c'.process.shared.requests = c.process.shared.requests)
    (hcallers : ∀ u : Str, c'.callers[u]? = none ↔ c.callers[u]? = none)
    (hquiet : ∀ x ∈ out, Process.UsesRequester x = false) : Account c' (ps ++ out) := by
  have hcount := count_quiet hquiet
  have hstored := Requesters.stored_congr hrequests
  refine ⟨ht, fun u hu => ?_, fun t n u hs => ?_, fun u hu hs => ?_, fun t n u k hk hnew => ?_, fun u => ?_⟩
  · rw [List.countP_append, List.countP_append, (hcount u).1, (hcount u).2]
    exact h.unknown u ((hcallers u).mp hu)
  · rw [List.countP_append, (hcount u).1]
    exact h.stored t n u ((hstored t n u).mp hs)
  · rw [List.countP_append, (hcount u).1]
    exact h.gone u (mt (hcallers u).mpr hu) fun t n hs' => hs t n ((hstored t n u).mpr hs')
  · rw [List.countP_append, (hcount u).2]
    exact h.pending t n u k (hrequests ▸ hk) hnew
  · rw [List.countP_append, (hcount u).2]
    exact h.once u

/-- An operation makes a handler or sends requests. -/
theorem Account.issue (h : Account c ps) {caller : Caller} (hcaller : caller = .callback ∨ caller = .waiting)
    {e : Process.Event} (hissue : c.issue caller e = some r) : Account r.1 (ps ++ r.2) := by
  have ht := Requesters.tracked_issue hcaller hissue h.tracked
  obtain ⟨o, ho, rfl, hnew⟩ := Requesters.issue_eq_some hissue
  have hcount := count_exec ho h.tracked.keyed ht.once
  have hstored : ∀ t n u, o.process.Stored t n u ↔ c.process.Stored t n u ∨ c.process.Makes e.op t n u :=
    fun t n u => Process.stored_exec ho h.tracked.keyed
  have hcallers := Requesters.getElem?_callersAfter c caller e.op
  have hmade : ∀ u, c.process.madeHandler e.op = some u ↔ ∃ t n, c.process.Makes e.op t n u :=
    fun u => Process.madeHandler_eq_some_iff
  -- what is sent now was not sent before
  have hfirst : ∀ u, o.effects.countP (Requests u) ≠ 0 → ps.countP (Requests u) = 0 := by
    intro u hne
    obtain ⟨t, n, k, hk, hpending, -⟩ := (hcount u).2.2 hne
    rcases Process.getHandler_requestsAfter hk with hold | ⟨topic, data, hop, hname, hreplier, -⟩
    · exact h.pending t n u k hold hpending
    · exact (h.unknown u (hnew t n u ⟨topic, data, hop, hname, hreplier⟩)).2
  refine ⟨ht, fun u hu => ?_, fun t n u hs => ?_, fun u hu hs => ?_, fun t n u k hk hpending => ?_, fun u => ?_⟩
  · dsimp only at hu
    rw [hcallers] at hu
    split_ifs at hu with hm
    obtain ⟨htells, hsent⟩ := h.unknown u hu
    rw [List.countP_append, List.countP_append, htells, hsent, (hcount u).1]
    refine ⟨rfl, ?_⟩
    by_contra hne
    dsimp only at hne
    obtain ⟨t, n, k, hk, -⟩ := (hcount u).2.2 fun h0 => hne (by rw [h0])
    rcases Process.stored_requestsAfter.mp ⟨k, hk⟩ with hs | hmakes
    · exact h.tracked.known t n u hs hu
    · exact hm ((hmade u).mpr ⟨t, n, hmakes⟩)
  · rw [List.countP_append, (hcount u).1]
    rcases (hstored t n u).mp hs with hs | hmakes
    · exact h.stored t n u hs
    · exact (h.unknown u (hnew t n u hmakes)).1
  · rw [List.countP_append, (hcount u).1]
    refine h.gone u (fun hnone => ?_) fun t n hs' => hs t n ((hstored t n u).mpr (.inl hs'))
    dsimp only at hu
    rw [hcallers] at hu
    split_ifs at hu with hm
    · obtain ⟨t, n, hmakes⟩ := (hmade u).mp hm
      exact hs t n ((hstored t n u).mpr (.inr hmakes))
    · exact hu hnone
  · rw [List.countP_append]
    have hout : o.effects.countP (Requests u) = 0 := by
      by_contra hne
      obtain ⟨t', n', k', hk', -, hrequested⟩ := (hcount u).2.2 hne
      have hs' : o.process.Stored t' n' u := (hstored t' n' u).mpr (Process.stored_requestsAfter.mp ⟨k', hk'⟩)
      obtain ⟨rfl, rfl⟩ := ht.once t n t' n' u ⟨k, hk⟩ hs'
      rw [hrequested k hk] at hpending
      cases hpending
    rw [hout]
    obtain ⟨sent, hsent, -⟩ := Process.dispatches_exec ho h.tracked.keyed
    dsimp only at hk
    rw [hsent.handlers] at hk
    obtain ⟨k', hk', rfl⟩ := Option.map_eq_some_iff.mp hk
    have hpending' : k'.requested = false := by
      split_ifs at hpending
      · cases hpending
      · exact hpending
    rcases Process.getHandler_requestsAfter hk' with hold | ⟨topic, data, hop, hname, hreplier, -⟩
    · exact h.pending t n u k' hold hpending'
    · exact (h.unknown u (hnew t n u ⟨topic, data, hop, hname, hreplier⟩)).2
  · rw [List.countP_append]
    by_cases hout : o.effects.countP (Requests u) = 0
    · rw [hout]
      exact h.once u
    · rw [hfirst u hout, Nat.zero_add]
      exact (hcount u).2.1

/-- A response tells one handler, and takes it out. -/
theorem Account.response (h : Account c ps) {identity topic nodeUuid reqUuid rep result : Str} {throwsAt : List ℕ}
    (hexec : c.exec (.response identity topic nodeUuid reqUuid rep result throwsAt) = some r) :
    Account r.1 (ps ++ r.2) := by
  have ht := Requesters.tracked_exec hexec h.tracked
  rcases Requesters.response_eq_some hexec h.tracked with rfl | ⟨k, hk, -, hhandlers, hcallers, hout⟩
  · rw [List.append_nil]
    exact h
  have hkey := (h.tracked.keyed _ _ _ _ hk).2
  have htells : ∀ u, r.2.countP (Tells u) = if u = reqUuid then 1 else 0 := by
    intro u
    rw [hout, List.countP_singleton, Tells, hkey]
    exact if_congr (by simp [eq_comm]) rfl rfl
  have hrequests : ∀ u, r.2.countP (Requests u) = 0 := by
    intro u
    rw [hout, List.countP_singleton]
    rfl
  have hnone : ∀ u : Str, r.1.callers[u]? = none ↔ c.callers[u]? = none := by
    intro u
    rw [hcallers]
    split_ifs <;> simp
  have hstored : ∀ t n u, r.1.process.Stored t n u ↔ u ≠ reqUuid ∧ c.process.Stored t n u := by
    intro t n u
    unfold Process.Stored
    rw [hhandlers]
    split_ifs with hu <;> simp [hu]
  refine ⟨ht, fun u hu => ?_, fun t n u hs => ?_, fun u hu hs => ?_, fun t n u k' hk' hpending => ?_, fun u => ?_⟩
  · have hne : u ≠ reqUuid := by
      rintro rfl
      exact h.tracked.known _ _ _ ⟨k, hk⟩ ((hnone u).mp hu)
    rw [List.countP_append, List.countP_append, htells, if_neg hne, hrequests]
    exact h.unknown u ((hnone u).mp hu)
  · obtain ⟨hne, hs⟩ := (hstored t n u).mp hs
    rw [List.countP_append, htells, if_neg hne]
    exact h.stored t n u hs
  · rw [List.countP_append, htells]
    by_cases hu' : u = reqUuid
    · rw [if_pos hu', hu', h.stored _ _ _ ⟨k, hk⟩]
    · rw [if_neg hu']
      exact h.gone u (mt (hnone u).mpr hu) fun t n hs' => hs t n ((hstored t n u).mpr ⟨hu', hs'⟩)
  · rw [List.countP_append, hrequests]
    rw [hhandlers] at hk'
    split_ifs at hk'
    exact h.pending t n u k' hk' hpending
  · rw [List.countP_append, hrequests]
    exact h.once u

/-- **Whatever a process receives**, its account is right. -/
theorem account_step (h : Account c ps) {x : Happening ι} (hprogram : program i c x = some r) :
    Account r.1 (ps ++ r.2) := by
  obtain ⟨c', out⟩ := r
  cases x with
  | own e =>
    obtain ⟨hown, hexec⟩ := program_own hprogram
    have ht := Requesters.tracked_exec hexec h.tracked
    cases e with
    | event e => exact h.issue (.inl rfl) hexec
    | call nUuid topic hUuid data throwsAt => exact h.issue (.inr rfl) hexec
    | response identity topic nodeUuid reqUuid rep result throwsAt => cases hown
    | ret hUuid =>
      obtain ⟨executed, hcaller, heq⟩ := Requesters.ret_eq_some hexec
      obtain ⟨rfl, rfl⟩ := Prod.mk.inj heq
      refine h.quiet ht rfl (fun u => ?_) (by simp)
      dsimp only
      rw [getElem?_insert']
      split_ifs with hu
      · rw [hu, hcaller]
        simp
      · rfl
    | destroy nUuid =>
      obtain ⟨q, hq, heq⟩ := Option.map_eq_some_iff.mp hexec
      obtain ⟨rfl, rfl⟩ := Prod.mk.inj heq
      exact h.quiet ht (Process.requests_destroyNode hq).1 (fun _ => Iff.rfl) (Process.destroyEffects_quiet _ _)
  | message j topic sender data throwsAt =>
    obtain ⟨rfl, hout⟩ := program_message hprogram
    refine h.quiet h.tracked rfl (fun _ => Iff.rfl) fun x hx => ?_
    obtain ⟨handler, rfl, -⟩ := hout x hx
    rfl
  | control j ctrl topic procUuid nodeUuid data throwsAt => exact h.issue (.inl rfl) (program_control hprogram)
  | request j responserId identity topic sender dstId nodeUuid reqUuid req response throwsAt =>
    obtain ⟨s, rfl, hbut, hout⟩ := program_request hprogram
    have hrequests : s.requests = c.process.shared.requests := congrArg (·.requests) hbut
    refine h.quiet { h.tracked with
      keyed := fun t n u k hk => h.tracked.keyed t n u k (hrequests ▸ hk)
      known := fun t n u hs => h.tracked.known t n u ((Requesters.stored_congr hrequests t n u).mp hs)
      once := fun t n t' n' u hs hs' => h.tracked.once t n t' n' u ((Requesters.stored_congr hrequests t n u).mp hs)
        ((Requesters.stored_congr hrequests t' n' u).mp hs')
      waiting := fun u hu => by
        obtain ⟨t, n, hs⟩ := h.tracked.waiting u hu
        exact ⟨t, n, (Requesters.stored_congr hrequests t n u).mpr hs⟩
      answered := fun u hu t n hs => h.tracked.answered u hu t n ((Requesters.stored_congr hrequests t n u).mp hs) }
      hrequests (fun _ => Iff.rfl) fun x hx => ?_
    obtain ⟨q, -, rfl | rfl | rfl⟩ := hout x hx <;> rfl
  | response j identity dstId topic nodeUuid reqUuid rep result throwsAt =>
    exact h.response (program_response hprogram).2

end Accounts

/-! ## The last messages of a call -/

section Answers

variable {ι : Type} {i : ι} {c : Requesters} {t : Str}

/-- A process that has a replier serves a request and sends the response, if nothing throws. -/
theorem program_request_served {r : RepHandler} (hfirst : c.process.shared.repliers.getFirstHandler t = some r)
    (i j : ι) (identity sender dstId nodeUuid reqUuid req : Str) (response : Str × Bool) : ∃ s out,
      program i c (.request j c.process.shared.replierId identity t sender dstId nodeUuid reqUuid req response []) =
          some ({ c with process := { c.process with shared := s } }, out) ∧
      s.butSrvConnections = c.process.shared.butSrvConnections ∧ .serve r t req ∈ out ∧
        .send .replier (replyFrames dstId t nodeUuid reqUuid response) ∈ out := by
  have hknown := (HandlerMap.isSome_getFirstHandler c.process.shared.repliers t).mp (by rw [hfirst]; rfl)
  obtain ⟨-, q, hq, hrun⟩ := (recvSrvRequest_run (fun _ _ _ => response) identity t sender dstId nodeUuid reqUuid req
    c.process.shared []).resolve_left fun h => h.1 ⟨fun _ _ => List.not_mem_nil, hknown⟩
  obtain rfl := Option.some.inj (hfirst.symm.trans hq)
  -- the connection, if it is a new one, and the reply
  obtain ⟨w, hconnect, hstate, heffects, hthrows⟩ : ∃ w : World NodeShared Effect, connectNew .replier sender
      { state := c.process.shared, throwsAt := [], count := 7, effects := [.serve r t req] } = (.ok (), w) ∧
        w.state.butSrvConnections = c.process.shared.butSrvConnections ∧ .serve r t req ∈ w.effects ∧
          w.throwsAt = [] := by
    rw [connectNew_run]
    split_ifs with hin hthrows
    · exact ⟨_, rfl, rfl, List.mem_singleton.mpr rfl, rfl⟩
    · cases hthrows
    · exact ⟨_, rfl, rfl, List.mem_append_left _ (List.mem_singleton.mpr rfl), rfl⟩
  have hreply := @completes_sendFrames_ok (replyFrames dstId t nodeUuid reqUuid response) (.send .replier) w
    fun _ _ => by rw [hthrows]; exact List.not_mem_nil
  rw [bind_of_ok hconnect, sendReply, ← replyFrames, bind_of_ok hreply] at hrun
  refine ⟨w.state, w.effects ++ [.send .replier (replyFrames dstId t nodeUuid reqUuid response)], ?_, hstate,
    List.mem_append_left _ heffects, List.mem_append_right _ (List.mem_singleton.mpr rfl)⟩
  rw [program, if_pos rfl, receive, hrun]
  rfl

/-- A process tells the handler of a response, and takes it out, if nothing throws. -/
theorem program_response_told {k : ReqHandler} {nodeUuid reqUuid : Str}
    (hstored : c.process.shared.requests.getHandler t nodeUuid reqUuid = some k) (j : ι) (identity rep : Str)
    (result : Bool) : ∃ c', program i c (.response j identity c.process.shared.responseReceiverId t nodeUuid reqUuid rep
        (resultStr result) []) = some (c', [.notify k t rep result]) ∧
      c'.process.shared.requests.getHandler t nodeUuid reqUuid = none := by
  have hreceived : ∀ k < [identity, t, nodeUuid, reqUuid, rep, resultStr result].length,
      ({ state := c.process.shared, throwsAt := [] } : World NodeShared Effect).count + k ∉ ([] : List ℕ) :=
    fun _ _ => List.not_mem_nil
  have hrun : recvSrvResponse identity t nodeUuid reqUuid rep (resultStr result)
      { state := c.process.shared, throwsAt := [] } = (.ok (), {
        state := { c.process.shared with
          requests := (c.process.shared.requests.removeHandler t nodeUuid reqUuid).1 }
        throwsAt := []
        count := 6
        effects := [.notify k t rep (resultStr result = resultStr true)] }) := by
    rw [recvSrvResponse, bind_of_ok (recvFrames_received hreceived), if_pos rfl, notifyResult, look_bind]
    dsimp only
    rw [hstored]
    rfl
  have hresult : decide (resultStr result = resultStr true) = result := by cases result <;> decide
  rw [hresult] at hrun
  refine ⟨_, by rw [program, if_pos rfl, Requesters.exec, hrun], ?_⟩
  dsimp only
  rw [HandlerStorage.getHandler_removeHandler, if_pos ⟨rfl, rfl, rfl⟩]

end Answers

/-! ## A call of two processes -/

section Sample

def pairService : Str := ascii ['@', '@', '/', 's']

/-- The announcement of the service. -/
def pairOffer : Buffer :=
  let s := pairGroup.shared true
  Discovery.advDatagram ((Discovery.start s.pUuid []).advMsg AdvSrvType pairService s.myReplierAddress s.replierId
    (Process.uuidOf 2).1 .all 0)

/-- One process has set its callbacks. -/
def pairListens : List (NetEvent Bool (Happening Bool)) :=
  Process.setCallbacks.map (fun e => ⟨false, .own (.event e)⟩) ++
    [⟨false, .own (.event { op := .construct (Process.uuidOf 1) none none })⟩]

/-- The other one offers the service. -/
def pairOffers : List (NetEvent Bool (Happening Bool)) :=
  Process.setCallbacks.map (fun e => ⟨true, .own (.event e)⟩) ++
    [⟨true, .own (.event { op := .construct (Process.uuidOf 2) none none })⟩,
      ⟨true, .own (.event { op := .advertiseSrv (Process.uuidOf 2).1 (ascii ['s']) [5] .all })⟩]

def pairHearing (g : Datagram) : NetEvent Bool (Happening Bool) := ⟨false, .own (.event { op := .datagram g })⟩

/-- It hears of the service. -/
def pairHears : NetEvent Bool (Happening Bool) := ⟨false, .own (.event { op := .datagram ⟨[], 5, pairOffer⟩ })⟩

/-- One process offers the service, and the other one, which has set its callbacks, hears of it. -/
def pairOffered : List (NetEvent Bool (Happening Bool)) := pairOffers ++ pairListens ++ [pairHears]

def pairArgs : CallbackArgs :=
  let s := pairGroup.shared true
  ⟨pairService, s.myReplierAddress, s.replierId, s.pUuid, (Process.uuidOf 2).1, .all⟩

/-- The process once it is connected to a responder. -/
def pairConnected (p : Process) (d : Discovery) : Process :=
  { p with discovery := d, shared := { p.shared with srvConnections := [pairArgs.addr] } }

def pairHandler : ReqHandler := ⟨[3], (Process.uuidOf 1).1, [4], false⟩

/-- The call. -/
def pairCall : NetEvent Bool (Happening Bool) :=
  ⟨false, .own (.call pairHandler.nUuid (ascii ['s']) pairHandler.hUuid pairHandler.data [])⟩

variable {p : Process} {nUuid topic name q : Str} {a : Address}

/-- The request of a service whose responder is known. -/
theorem exec_request_known (hUuid data : Str) (hname : p.fqn nUuid topic = some name)
    (hreplier : p.shared.repliers.hasHandlersForTopic name = false)
    (hfirst : firstResponder p.discovery.infoSrv name = some (q, a)) :
    let p' : Process := { p with shared := { p.shared with
      requests := p.shared.requests.addHandler name nUuid { hUuid, nUuid, data } } }
    p.exec { op := .request nUuid topic hUuid data } = some (Process.finish [] (p', do
      CallM.forEach (fun x => sendPendingReq name x.1 a.ctrl x.2) (p'.shared.handlersFor name)
      return true)) := by
  intro p'
  obtain ⟨node, hnode, hfqn⟩ := Option.bind_eq_some_iff.mp hname
  have hlocal : (p.shared.repliers.getFirstHandler name).isSome = false := by
    rw [Bool.eq_false_iff, Ne, HandlerMap.isSome_getFirstHandler, hreplier]
    exact Bool.false_ne_true
  have hknown : p.discovery.infoSrv.hasTopic name = true := by
    rw [← Bool.not_eq_false, ← firstResponder_eq_none_iff, hfirst]
    exact Option.some_ne_none _
  have haddresses := (TopicStorage.getAddresses_eq_some_iff _ _ _).mpr ⟨hknown, rfl⟩
  have hperform : p.perform (.request nUuid topic hUuid data) = some (p', do
      sendPendingRemoteReqs p.discovery.infoSrv name
      return true) := by
    simp only [Process.perform, Process.named, hnode, Option.bind_eq_bind, Option.bind_some, hfqn, Process.request,
      hlocal, Bool.false_eq_true, if_false, haddresses]
    rfl
  have hthread : ((Process.Op.request nUuid topic hUuid data).OnServiceThread) = false := rfl
  have hloop := sendPendingRemoteReqs_eq hfirst { state := p'.shared }
  have hprogram : (do
      sendPendingRemoteReqs p.discovery.infoSrv name
      return true : NodeM Bool) { state := p'.shared } = (do
        CallM.forEach (fun x => sendPendingReq name x.1 a.ctrl x.2) (p'.shared.handlersFor name)
        return true : NodeM Bool) { state := p'.shared } := by
    rcases hrun : CallM.forEach (fun x => sendPendingReq name x.1 a.ctrl x.2) (p'.shared.handlersFor name)
      { state := p'.shared } with ⟨x | u, w⟩
    · rw [bind_of_error hrun, bind_of_error (hloop.trans hrun)]
    · rw [bind_of_ok hrun, bind_of_ok (hloop.trans hrun)]
  simp only [Process.exec, hperform, Option.bind_eq_bind, Option.bind_some, hthread, Bool.false_eq_true, false_and,
    if_false, Process.finish, hprogram]

/-- The process of a caller, once its handler is stored. -/
def pairWaiting (p : Process) : Process :=
  { p with shared := { p.shared with
    requests := p.shared.requests.addHandler pairService pairHandler.nUuid pairHandler } }

/-- What the call sends to a responder. -/
def pairSend (p : Process) (a : Address) : Process.Outcome :=
  Process.finish [] (pairWaiting p, do
    CallM.forEach (fun x => sendPendingReq pairService x.1 a.ctrl x.2) ((pairWaiting p).shared.handlersFor pairService)
    return true)

/-- The first entry of the row of the service. -/
def pairResponder (d : Discovery) : Option (Str × Address) :=
  (d.infoSrv.row pairService).toList.head?.bind fun proc => proc.2.head?.map fun a => (proc.1, a)

theorem firstResponder_pair (d : Discovery) : firstResponder d.infoSrv pairService = pairResponder d := by
  rw [firstResponder, minEntry?_eq_head?, pairResponder]

/-- The call, once its responder is known. -/
theorem networkStep_pairCall {n : Net Bool Requesters Effect} {x : Str × Address}
    (hnew : (n.agents false).callers.contains pairHandler.hUuid = false)
    (hname : (n.agents false).process.fqn pairHandler.nUuid (ascii ['s']) = some pairService)
    (hreplier : (n.agents false).process.shared.repliers.hasHandlersForTopic pairService = false)
    (hfirst : pairResponder (n.agents false).process.discovery = some x) : ∃ callers, networkStep n pairCall =
      some (n.update false ({ process := (pairSend (n.agents false).process x.2).process, callers },
        (pairSend (n.agents false).process x.2).effects)) := by
  have hlocal : (n.agents false).process.shared.repliers.getFirstHandler pairService = none := by
    rw [← Option.not_isSome_iff_eq_none, HandlerMap.isSome_getFirstHandler, hreplier]
    exact Bool.false_ne_true
  have hmade : (n.agents false).process.madeHandler
      (.request pairHandler.nUuid (ascii ['s']) pairHandler.hUuid pairHandler.data) = some pairHandler.hUuid := by
    simp only [Process.madeHandler, hname, Option.bind_some, hlocal, Option.isSome_none, Bool.false_eq_true, if_false]
  have hexec := exec_request_known pairHandler.hUuid pairHandler.data hname hreplier
    ((firstResponder_pair _).trans hfirst)
  have hunused : ∀ u ∈ (n.agents false).process.madeHandler
      (.request pairHandler.nUuid (ascii ['s']) pairHandler.hUuid pairHandler.data), u ∉ (n.agents false).callers := by
    intro u hu
    obtain rfl := Option.some.inj (hmade.symm.trans hu)
    rw [← Std.ExtTreeMap.contains_iff_mem, hnew]
    exact Bool.false_ne_true
  have hissue : (n.agents false).issue .waiting _ = some _ := Requesters.issue_of_exec hexec hunused
  exact ⟨_, netStep_eq_some.mpr ⟨fun x hx => (by cases hx), _, _, hissue, rfl⟩⟩

/-- A process that has no requests hears of the service. -/
theorem exec_pairHears {p : Process} {d : Discovery} {g : Datagram}
    (hperform : p.discovery.perform (.datagram g) = some (d, [.connection .srv pairArgs]))
    (hlist : p.shared.srvConnections = []) (hnone : p.shared.handlersFor pairService = []) :
    p.exec { op := .datagram g } = some {
      process := pairConnected p d, value := .ok true, effects := [.connect .requester (cStr pairArgs.addr)] } := by
  let w : World NodeShared Effect :=
    { state := (pairConnected p d).shared, count := 1, effects := [.connect .requester (cStr pairArgs.addr)] }
  have hconnect : connectRequester pairArgs.addr { state := p.shared } = (.ok (), w) := by
    rw [connectRequester, connectNew_run, if_neg (by rw [hlist]; exact List.not_mem_nil), if_neg List.not_mem_nil]
    simp only [hlist]
    rfl
  have hsend : sendPendingRemoteReqs d.infoSrv pairArgs.topic w = (.ok (), w) := by
    cases hfirst : firstResponder d.infoSrv pairArgs.topic with
    | none => exact sendPendingRemoteReqs_idle hfirst w
    | some x =>
      have hhandlers : w.state.handlersFor pairArgs.topic = [] := hnone
      rw [sendPendingRemoteReqs_eq hfirst, hhandlers]
      rfl
  have hreact : Process.reactAll d [.connection .srv pairArgs] { state := p.shared } = (.ok (), w) := by
    have hcall : react d (.connection .srv pairArgs) { state := p.shared } = (.ok (), w) :=
      (bind_of_ok hconnect).trans hsend
    exact bind_of_ok hcall
  have hprogram : (p.discovered (d, [.connection .srv pairArgs])).2
      { state := (p.discovered (d, [.connection .srv pairArgs])).1.shared } = (.ok true, w) := bind_of_ok hreact
  have hfinish : Process.finish [] (p.discovered (d, [.connection .srv pairArgs])) =
      { process := pairConnected p d, value := .ok true, effects := [.connect .requester (cStr pairArgs.addr)] } := by
    rw [Process.finish, hprogram]
    rfl
  have hdispatch : p.perform (.datagram g) = some (p.discovered (d, [.connection .srv pairArgs])) :=
    congrArg (Option.map p.discovered) hperform
  rw [Process.exec]
  simp only [hdispatch, Option.bind_eq_bind, Option.bind_some, hfinish]
  rfl

theorem networkStep_hears {n : Net Bool Requesters Effect} {d : Discovery} {g : Datagram}
    (hperform : (n.agents false).process.discovery.perform (.datagram g) = some (d, [.connection .srv pairArgs]))
    (hlist : (n.agents false).process.shared.srvConnections = [])
    (hnone : (n.agents false).process.shared.handlersFor pairService = []) :
    networkStep n (pairHearing g) = some (n.update false ({ n.agents false with
      process := pairConnected (n.agents false).process d }, [.connect .requester (cStr pairArgs.addr)])) := by
  refine netStep_eq_some.mpr ⟨fun x hx => (by cases hx), _, _, ?_, rfl⟩
  exact Requesters.issue_of_exec (exec_pairHears hperform hlist hnone) fun u hu => (by cases hu)

/-- The process can hear of the service in `g`, and then call it. -/
def hearsAndCalls (n : Net Bool Requesters Effect) (g : Datagram) : Bool :=
  let p := (n.agents false).process
  (n.agents false).callers.contains pairHandler.hUuid = false ∧
  p.fqn pairHandler.nUuid (ascii ['s']) = some pairService ∧
  p.shared.repliers.hasHandlersForTopic pairService = false ∧ p.shared.srvConnections = [] ∧
  p.shared.handlersFor pairService = [] ∧
  (p.discovery.perform (.datagram g)).any fun r => r.2 = [.connection .srv pairArgs] ∧
    (pairResponder r.1).any fun x => x.2.ctrl = (pairGroup.shared true).replierId.1 ∧
      (pairSend (pairConnected p r.1) x.2).effects =
        [.send .requester (requestFrames (pairGroup.shared false) pairService x.2.ctrl pairHandler)] ∧
      (pairSend (pairConnected p r.1) x.2).process.shared.requests.getHandler pairService pairHandler.nUuid
        pairHandler.hUuid = some pairHandler.sent

theorem run_hearsAndCalls {n : Net Bool Requesters Effect} {g : Datagram} (h : hearsAndCalls n g = true) :
    ∃ n₁ n₂, networkStep n (pairHearing g) = some n₁ ∧ networkStep n₁ pairCall = some n₂ ∧
      n₂.agents true = n.agents true ∧
      ((n₁.agents false).process.fqn pairHandler.nUuid (ascii ['s']) = some pairService ∧
        (n₁.agents false).process.shared.repliers.getFirstHandler pairService = none) ∧
      (n₂.agents false).process.shared.requests.getHandler pairService pairHandler.nUuid pairHandler.hUuid =
        some pairHandler.sent ∧
      n₂.outputs false = n.outputs false ++ [.connect .requester (cStr pairArgs.addr)] ++ .send .requester
        (requestFrames (pairGroup.shared false) pairService (pairGroup.shared true).replierId pairHandler) :: [] := by
  obtain ⟨hnew, hname, hreplier, hlist, hnone, hsome⟩ := of_decide_eq_true h
  obtain ⟨⟨d, out⟩, hperform, rfl, hsome⟩ := exists_of_any hsome
  obtain ⟨x, hx, hctrl, heffects, hstored⟩ := exists_of_any hsome
  have hhears := networkStep_hears hperform hlist hnone
  obtain ⟨n₁, hn₁⟩ : ∃ n₁, n₁ = n.update false ({ n.agents false with
    process := pairConnected (n.agents false).process d }, [.connect .requester (cStr pairArgs.addr)]) := ⟨_, rfl⟩
  have hagent : n₁.agents false = { n.agents false with process := pairConnected (n.agents false).process d } := by
    rw [hn₁, agents_update_self]
  have hname₁ : (n₁.agents false).process.fqn pairHandler.nUuid (ascii ['s']) = some pairService := by
    rw [hagent]
    exact hname
  have hlocal : (n₁.agents false).process.shared.repliers.getFirstHandler pairService = none := by
    rw [← Option.not_isSome_iff_eq_none, HandlerMap.isSome_getFirstHandler, hagent]
    exact ne_true_of_eq_false hreplier
  obtain ⟨callers, hcall⟩ := networkStep_pairCall (n := n₁) (x := x) (by rw [hagent]; exact hnew) hname₁
    (by rw [hagent]; exact hreplier) (by rw [hagent]; exact hx)
  refine ⟨n₁, _, by rw [hhears, hn₁], hcall, ?_, ⟨hname₁, hlocal⟩, ?_, ?_⟩
  · rw [agents_update_of_ne _ (by decide), hn₁, agents_update_of_ne _ (by decide)]
  · rw [agents_update_self, hagent]
    exact hstored
  · rw [outputs_update_self, hagent, heffects, hn₁, outputs_update_self, hctrl]

/-- The request is sent. -/
theorem run_pairCall : ∃ n, ∃ r,
    run networkStep (network pairGroup) (pairOffered ++ [pairCall]) = some n ∧
    Asked pairGroup (pairOffered ++ [pairCall]) false pairService pairHandler ∧
    (n.agents false).process.shared.requests.getHandler pairService pairHandler.nUuid pairHandler.hUuid =
      some pairHandler.sent ∧
    (n.agents true).process.shared.repliers.getFirstHandler pairService = some r ∧
    (false, .send .requester (requestFrames (pairGroup.shared false) pairService
      (n.agents true).process.shared.replierId pairHandler.sent)) ∈ n.sent := by
  have hlistens : (run networkStep (network pairGroup) (pairOffers ++ pairListens)).any (fun n =>
      (n.agents true).process.shared.repliers.hasHandlersForTopic pairService = true ∧
      (n.agents true).process.shared.replierId.1 = (pairGroup.shared true).replierId.1 ∧
      hearsAndCalls n ⟨[], 5, pairOffer⟩ = true) = true := by decide +kernel
  obtain ⟨n, hn, hoffers, hid, hready⟩ := exists_of_any hlistens
  obtain ⟨r, hr⟩ := Option.isSome_iff_exists.mp ((HandlerMap.isSome_getFirstHandler _ _).mpr hoffers)
  obtain ⟨n₁, n₂, hhears, hcall, htrue, ⟨hname, hlocal⟩, hstored, houtputs⟩ := run_hearsAndCalls hready
  have hn₁ : run networkStep (network pairGroup) pairOffered = some n₁ := run_concat.mpr ⟨n, hn, hhears⟩
  refine ⟨n₂, r, run_concat.mpr ⟨n₁, hn₁, hcall⟩,
    (did_concat hn₁).mpr (.inr ⟨rfl, _, rfl, ascii ['s'], rfl, hname, hlocal⟩), hstored, by rw [htrue, hr], ?_⟩
  rw [htrue, hid]
  refine mem_outputs.mp ?_
  rw [houtputs]
  exact List.mem_append_right _ List.mem_cons_self

end Sample

/-! ## Calls -/

section Calls

variable {ι : Type} [DecidableEq ι] {G : Group ι} {es : List (NetEvent ι (Happening ι))} {n : Net ι Requesters Effect}
  {i : ι} {t : Str} {k : ReqHandler}

/-- A request that waits and its replier: two messages answer it. -/
theorem answer_round {u : Str} (hwaits : (n.agents i).process.shared.requests.getHandler t u k.hUuid = some k)
    (hnode : u = k.nUuid) {j : ι} {r : RepHandler}
    (hreplier : (n.agents j).process.shared.repliers.getFirstHandler t = some r)
    (hsent : (i, .send .requester (requestFrames (n.agents i).process.shared t
      (n.agents j).process.shared.replierId k)) ∈ n.sent) (response : Str × Bool) :
    ∃ request reply n', run networkStep n [request, reply] = some n' ∧ (j, .serve r t k.data) ∈ n'.sent ∧
      (i, .notify k t response.1 response.2) ∈ n'.sent ∧
        (n'.agents i).process.shared.requests.getHandler t u k.hUuid = none := by
  subst hnode
  obtain ⟨s, out, hserved, hbut, hserve, hreply⟩ := program_request_served hreplier j i []
    (n.agents i).process.shared.myRequesterAddress (n.agents i).process.shared.responseReceiverId k.nUuid k.hUuid
    k.data response
  obtain ⟨n₁, hn₁⟩ : ∃ n₁, n₁ = n.update j
    ({ n.agents j with process := { (n.agents j).process with shared := s } }, out) := ⟨_, rfl⟩
  have hstep : networkStep n ⟨j, .request i (n.agents j).process.shared.replierId [] t
      (n.agents i).process.shared.myRequesterAddress (n.agents i).process.shared.responseReceiverId k.nUuid k.hUuid
      k.data response []⟩ = some n₁ :=
    netStep_eq_some.mpr ⟨fun x hx => by rw [List.mem_singleton.mp hx]; exact hsent, _, _, hserved, hn₁⟩
  -- the handler still waits
  have hsame : (n₁.agents i).process.shared.butSrvConnections =
      (n.agents i).process.shared.butSrvConnections := by
    rw [hn₁]
    by_cases hij : i = j
    · rw [hij, agents_update_self]
      exact hbut
    · rw [agents_update_of_ne _ hij]
  have hrequests : (n₁.agents i).process.shared.requests = (n.agents i).process.shared.requests :=
    congrArg (·.requests) hsame
  have hreceiver : (n₁.agents i).process.shared.responseReceiverId =
      (n.agents i).process.shared.responseReceiverId := congrArg (·.responseReceiverId) hsame
  obtain ⟨c', htold, hgone⟩ := program_response_told (i := i) (hrequests ▸ hwaits) j [] response.1 response.2
  rw [hreceiver] at htold
  have hnew : ∀ x ∈ out, (j, x) ∈ n₁.sent := fun x hx => hn₁ ▸ mem_sent_update.mpr (.inr ⟨rfl, hx⟩)
  have hstep' : networkStep n₁ ⟨i, .response j [] (n.agents i).process.shared.responseReceiverId t k.nUuid k.hUuid
      response.1 (resultStr response.2) []⟩ =
        some (n₁.update i (c', [.notify k t response.1 response.2])) :=
    netStep_eq_some.mpr ⟨fun x hx => by rw [List.mem_singleton.mp hx]; exact hnew _ hreply, _, _, htold, rfl⟩
  refine ⟨_, _, _, run_cons_eq_some.mpr ⟨n₁, hstep, run_singleton.mpr hstep'⟩,
    mem_sent_update.mpr (.inl (hnew _ hserve)), mem_sent_update.mpr (.inr ⟨rfl, List.mem_singleton.mpr rfl⟩), ?_⟩
  rw [agents_update_self]
  exact hgone

/-- The call of two processes is answered. -/
theorem run_pairAnswer : ∃ n request reply n',
    run networkStep (network pairGroup) (pairOffered ++ [pairCall]) = some n ∧
    Asked pairGroup (pairOffered ++ [pairCall]) false pairService pairHandler ∧
    run networkStep n [request, reply] = some n' ∧ (false, .notify pairHandler.sent pairService [9] true) ∈ n'.sent ∧
      (n'.agents false).process.shared.requests.getHandler pairService pairHandler.nUuid pairHandler.hUuid = none := by
  obtain ⟨n, r, hn, hasked, hwaits, hreplier, hsent⟩ := run_pairCall
  have hkept := ((sound_run pair_injective hn).1 false).kept
  rw [requestFrames, ← hkept.myRequesterAddress, ← hkept.responseReceiverId, ← requestFrames] at hsent
  obtain ⟨request, reply, n', hn', -, htold, hgone⟩ := answer_round hwaits rfl hreplier hsent ([9], true)
  exact ⟨n, request, reply, n', hn, hasked, hn', htold, hgone⟩

/-- **The response is what a replier made of the request**: if a handler is told of a response, its node asked for the
service with it, and another process had a replier for this service whose callback made this response of the data of
the handler. -/
theorem response_is_own (hids : Function.Injective fun i => (G.shared i).responseReceiverId)
    (h : run networkStep (network G) es = some n) {rep : Str} {result : Bool}
    (htold : (i, .notify k t rep result) ∈ n.sent) : Asked G es i t k ∧
      ∃ j r, Offered G es j t r ∧ Served G es j t k.data r (rep, result) := by
  obtain ⟨hasked, j, r, hoffered, hanswered⟩ := (sound_run hids h).2 _ htold
  exact ⟨hasked, j, r, hoffered, hanswered.served⟩

theorem response_is_own_pair : ∃ es n, run networkStep (network pairGroup) es = some n ∧
    Asked pairGroup es false pairService pairHandler.sent ∧ ∃ j r, Offered pairGroup es j pairService r ∧
      Served pairGroup es j pairService pairHandler.sent.data r ([9], true) := by
  obtain ⟨n, _, _, n', hn, -, hn', htold, -⟩ := run_pairAnswer
  have hrun := run_append_eq_some.mpr ⟨n, hn, hn'⟩
  exact ⟨_, n', hrun, response_is_own pair_injective hrun htold⟩

/-- **Nobody is told twice**: whatever happens, the request of a handler is sent once at most, and it is told of one
response exactly when it is not stored any more. -/
theorem told_once (hids : Function.Injective fun i => (G.shared i).responseReceiverId)
    (h : run networkStep (network G) es = some n) (hasked : Asked G es i t k) :
    (n.outputs i).countP (Requests k.hUuid) ≤ 1 ∧ (n.outputs i).countP (Tells k.hUuid) =
      if ((n.agents i).process.shared.requests.getHandler t k.nUuid k.hUuid).isSome then 0 else 1 := by
  have hs := (sound_run hids h).1 i
  have ha : Account (n.agents i) (n.outputs i) := run_outputs (fun _ => Account)
    (fun i => account_start (G.shared i) (G.hostAddr i))
    (fun i c x c' out ps ha hprogram => account_step ha hprogram) h i
  refine ⟨ha.once _, ?_⟩
  split_ifs with hstored
  · exact ha.stored t k.nUuid k.hUuid (Option.isSome_iff_exists.mp hstored)
  · -- a handler with this UUID would be the one that was asked with
    refine ha.gone k.hUuid (hs.known t k hasked) fun t' m hother => hstored ?_
    obtain ⟨k', hk'⟩ := hother
    obtain ⟨rfl, hu⟩ := hs.kept.keyed _ _ _ _ hk'
    obtain ⟨rfl, hn, -⟩ := hs.unique _ _ _ _ (hs.kept.requests _ _ _ _ hk') hasked hu
    rw [← hn, hk']
    rfl

/-- The call, up to its response. -/
theorem told_once_pair : ∃ request reply n,
    run networkStep (network pairGroup) (pairOffered ++ [pairCall] ++ [request] ++ [reply]) = some n ∧
    (n.outputs false).countP (Requests pairHandler.hUuid) ≤ 1 ∧
      (n.outputs false).countP (Tells pairHandler.hUuid) = 1 := by
  obtain ⟨n, request, reply, n', hn, hasked, hn', -, hgone⟩ := run_pairAnswer
  obtain ⟨n₁, hrequest, hreply⟩ := run_cons_eq_some.mp hn'
  have hrun := run_concat.mpr ⟨n₁, run_concat.mpr ⟨n, hn, hrequest⟩, run_singleton.mp hreply⟩
  obtain ⟨hrequests, htells⟩ := told_once pair_injective hrun ((hasked.concat request).concat reply)
  rw [show (n'.agents false).process.shared.requests.getHandler pairService pairHandler.nUuid pairHandler.hUuid =
    none from hgone] at htells
  exact ⟨request, reply, n', hrun, hrequests, htells⟩

/-- **Calls are matched**: whatever is delayed, lost, repeated or reordered, the request of a handler is sent once at
most and the handler is told once at most, and what it is told is what the callback of a replier of its service made
of its own request. -/
theorem calls_matched (hids : Function.Injective fun i => (G.shared i).responseReceiverId)
    (h : run networkStep (network G) es = some n) (i : ι) :
    (∀ u, (n.outputs i).countP (Requests u) ≤ 1 ∧ (n.outputs i).countP (Tells u) ≤ 1) ∧
      ∀ t k rep result, (i, .notify k t rep result) ∈ n.sent → Asked G es i t k ∧
        ∃ j r, Offered G es j t r ∧ Answered G es j i t k r (rep, result) := by
  have ha : Account (n.agents i) (n.outputs i) := run_outputs (fun _ => Account)
    (fun i => account_start (G.shared i) (G.hostAddr i))
    (fun i c x c' out ps ha hprogram => account_step ha hprogram) h i
  exact ⟨fun u => ⟨ha.once u, ha.told u⟩, fun t k rep result htold => (sound_run hids h).2 _ htold⟩

/-- The call of two processes, with its response. -/
theorem calls_matched_pair : ∃ es n, run networkStep (network pairGroup) es = some n ∧
    (false, .notify pairHandler.sent pairService [9] true) ∈ n.sent ∧
    (n.outputs false).countP (Requests pairHandler.hUuid) ≤ 1 ∧ (n.outputs false).countP (Tells pairHandler.hUuid) ≤ 1 ∧
      ∃ j r, Offered pairGroup es j pairService r ∧
        Answered pairGroup es j false pairService pairHandler.sent r ([9], true) := by
  obtain ⟨n, _, _, n', hn, -, hn', htold, -⟩ := run_pairAnswer
  have hrun := run_append_eq_some.mpr ⟨n, hn, hn'⟩
  obtain ⟨hcounts, hmatched⟩ := calls_matched pair_injective hrun false
  exact ⟨_, n', hrun, htold, (hcounts _).1, (hcounts _).2, (hmatched _ _ _ _ htold).2⟩

/-- **A request that was sent can always be answered**: as long as its handler waits and the process that it was sent
to has a replier, two messages are enough. -/
theorem call_answered (hids : Function.Injective fun i => (G.shared i).responseReceiverId)
    (h : run networkStep (network G) es = some n) {u : Str}
    (hwaits : (n.agents i).process.shared.requests.getHandler t u k.hUuid = some k) {j : ι} {r : RepHandler}
    (hreplier : (n.agents j).process.shared.repliers.getFirstHandler t = some r)
    (hsent : (i, .send .requester (requestFrames (G.shared i) t (n.agents j).process.shared.replierId k)) ∈ n.sent)
    (response : Str × Bool) : ∃ request reply n', run networkStep (network G) (es ++ [request, reply]) = some n' ∧
      (j, .serve r t k.data) ∈ n'.sent ∧ (i, .notify k t response.1 response.2) ∈ n'.sent ∧
        (n'.agents i).process.shared.requests.getHandler t u k.hUuid = none := by
  have hkept := ((sound_run hids h).1 i).kept
  obtain ⟨hnode, -⟩ := hkept.keyed _ _ _ _ hwaits
  rw [requestFrames, ← hkept.myRequesterAddress, ← hkept.responseReceiverId, ← requestFrames] at hsent
  obtain ⟨request, reply, n', hn', hdone⟩ := answer_round hwaits hnode.symm hreplier hsent response
  exact ⟨request, reply, n', run_append_eq_some.mpr ⟨n, h, hn'⟩, hdone⟩

theorem call_answered_pair : ∃ n r request reply n',
    run networkStep (network pairGroup) (pairOffered ++ [pairCall]) = some n ∧
    run networkStep (network pairGroup) (pairOffered ++ [pairCall] ++ [request, reply]) = some n' ∧
      (true, .serve r pairService pairHandler.data) ∈ n'.sent ∧
      (false, .notify pairHandler.sent pairService [9] true) ∈ n'.sent ∧
        (n'.agents false).process.shared.requests.getHandler pairService pairHandler.nUuid pairHandler.hUuid =
          none := by
  obtain ⟨n, r, hn, -, hwaits, hreplier, hsent⟩ := run_pairCall
  obtain ⟨request, reply, n', hn', hserve, htold, hgone⟩ :=
    call_answered pair_injective hn hwaits hreplier hsent ([9], true)
  exact ⟨n, r, request, reply, n', hn, hn', hserve, htold, hgone⟩

end Calls

end ProcessNetwork

end IgnTransport
