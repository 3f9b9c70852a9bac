import Mathlib
import IgnTransport.DiscoveryTransmit
import IgnTransport.DiscoveryCallbacks

/-!
# IgnTransport.DiscoveryAnswers — what a discovery request is answered with

For a SUBSCRIBE or SUB_SRV the instance goes through its own entries of the topic and sends an ADVERTISE or ADV_SRV for
each that the requester may see.

* `requests_answered_iff`: in every state the answers are the complete messages of the entries of scope All, and of
  those of scope Host for a requester on the host, exactly if every entry that is answered with has one of these scopes
  and a message that `Pack` accepts and an `int` can measure.
-/

namespace IgnTransport

open Lib

namespace Discovery

section Answers

variable (d : Discovery)

/-- The calls of `sendto` of one `SendMsg` for each of these addresses. -/
def transmitEach (type : UInt8) (topic : Str) : List Address → Option (List SendCall)
  | [] => some []
  | a :: as => do
    let call ← d.transmit type topic a.addr a.ctrl a.nUuid a.scope 0
    let calls ← transmitEach type topic as
    return call.toList ++ calls

/-- The calls of `sendto` in the answer to a request. -/
def answerCalls (fromIp : Str) (type : MsgType) (topic : Str) : Option (List SendCall) :=
  d.transmitEach (advType type) topic
    (((d.info type).cell topic d.pUuid).filter fun a => ¬ Hides d.hostAddr fromIp a.scope)

/-- The complete ADVERTISE or ADV_SRV of an own entry. -/
def answer (type : MsgType) (topic : Str) (a : Address) : SendCall :=
  ⟨(d.entryMsg (advType type) topic a).encode, (d.entryMsg (advType type) topic a).encode.length⟩

/-- The own entries that a requester ought to be told of, in storage order. -/
def answerEntries (fromIp : Str) (type : MsgType) (topic : Str) : List Address :=
  ((d.info type).cell topic d.pUuid).filter fun a => a.scope = .all ∨ (a.scope = .host ∧ fromIp = d.hostAddr)

/-- The request is answered with the complete messages of the entries that the requester ought to be told of and with
nothing else, no callback is executed, and what is known stays the same. -/
def AnswersExactly (g : Datagram) (type : MsgType) (topic : Str) : Prop :=
  d.answerCalls g.fromIp type topic = some ((d.answerEntries g.fromIp type topic).map (d.answer type topic)) ∧
  ∃ d' out, d.perform (.datagram g) = some (d', out) ∧
    out = (d.answerEntries g.fromIp type topic).map (fun a => .sendto (d.answer type topic a).buffer) ∧
    d'.infoMsg = d.infoMsg ∧ d'.infoSrv = d.infoSrv

/-- The requests for messages and for services are answered as they ought to be. -/
def AnswersRequests (op : Op) : Prop :=
  ∀ g header type m, op = .datagram g → readMessage d.pUuid g.msg = some (header, some (.subscribe type m)) →
    d.AnswersExactly g type m.topic

/-- The entry has one of the scopes, and `Pack` accepts its message, which an `int` can measure. -/
def Answerable (type : MsgType) (topic : Str) (a : Address) : Prop :=
  (a.scope = .all ∨ a.scope = .host) ∧ d.Acceptable (advType type) topic a.addr a.nUuid ∧
    (d.entryMsg (advType type) topic a).encode.length < 2 ^ 31

instance (type : MsgType) (topic : Str) (a : Address) : Decidable (d.Answerable type topic a) := by
  unfold Answerable; infer_instance

/-- The own entries that a request is answered with are answerable. -/
def CanAnswer (op : Op) : Prop :=
  ∀ g header type m, op = .datagram g → readMessage d.pUuid g.msg = some (header, some (.subscribe type m)) →
    ∀ a ∈ (d.info type).cell m.topic d.pUuid, ¬ Hides d.hostAddr g.fromIp a.scope → d.Answerable type m.topic a

variable {d} {type : MsgType} {topic : Str} {a : Address} {as : List Address}

theorem packing_entry : d.packing (advType type) topic a.addr a.ctrl a.nUuid a.scope 0 =
    some (advPacking (d.entryMsg (advType type) topic a)) := by
  rw [packing, if_pos (advType_mem type)]
  rfl

/-- One `SendMsg` sends the complete message exactly if `Pack` accepts it and an `int` can measure it. -/
theorem transmit_answer_iff :
    d.transmit (advType type) topic a.addr a.ctrl a.nUuid a.scope 0 = some (some (d.answer type topic a)) ↔
      d.Acceptable (advType type) topic a.addr a.nUuid ∧
        (d.entryMsg (advType type) topic a).encode.length < 2 ^ 31 := by
  constructor
  · intro h
    have hshort : (d.entryMsg (advType type) topic a).encode.length < 2 ^ 31 := by
      have hcall := h
      simp only [transmit, packing_entry, bind, pure, Option.bind_eq_some_iff, Option.some.injEq] at hcall
      obtain ⟨_, -, _, -, hcall⟩ := hcall
      -- no length of an `int` is larger
      have hlength := congrArg SendCall.msgLength hcall
      dsimp only [answer] at hlength
      exact toInt_lt_of_eq hlength
    refine ⟨?_, hshort⟩
    have hfit := fits_of_short hshort
    have hname : (d.entryMsg (advType type) topic a).msgTypeName ≠ [] := by simp [entryMsg, advMsg, ascii]
    obtain ⟨n, hpack⟩ := pack_advDatagram hfit (show (advType type).toNat < 11 by cases type <;> decide) hname
    rw [hfit.toNat_getMsgLength] at hpack
    rw [transmit_of_pack packing_entry hshort hpack, Option.some.injEq, Option.some.injEq] at h
    have hpackable : (d.entryMsg (advType type) topic a).toAdvertiseBase.Packable := by
      by_contra hp
      exact refused_ne_encode hp hname (lt_64_of_lt_31 hshort)
        (show advType type ≠ Uninitialized by cases type <;> decide) (congrArg SendCall.buffer h)
    obtain ⟨hp, hbody⟩ := packable_advMsg.mp hpackable
    exact ⟨hp, fun _ => hbody, fun _ => hbody.1⟩
  · rintro ⟨hacc, hshort⟩
    exact transmit_of_pack packing_entry hshort (packing_complete packing_entry hacc hshort)

/-- `SendMsg` knows the types of these messages: it comes to a call of `sendto` for each. -/
theorem length_transmitEach {calls : List SendCall} (h : d.transmitEach (advType type) topic as = some calls) :
    calls.length = as.length := by
  induction as generalizing calls with
  | nil =>
    obtain rfl := Option.some.inj h
    rfl
  | cons a as ih =>
    simp only [transmitEach, bind, pure, Option.bind_eq_some_iff, Option.some.injEq] at h
    obtain ⟨call, hcall, calls', hcalls, rfl⟩ := h
    simp only [transmit, packing_entry, bind, pure, Option.bind_eq_some_iff, Option.some.injEq] at hcall
    obtain ⟨_, -, _, -, rfl⟩ := hcall
    rw [Option.toList_some, List.length_append, List.length_singleton, ih hcalls, List.length_cons, Nat.add_comm]

theorem transmitEach_eq_iff : d.transmitEach (advType type) topic as = some (as.map (d.answer type topic)) ↔
    ∀ a ∈ as, d.Acceptable (advType type) topic a.addr a.nUuid ∧
      (d.entryMsg (advType type) topic a).encode.length < 2 ^ 31 := by
  induction as with
  | nil => exact iff_of_true rfl (by simp)
  | cons a as ih =>
    rw [List.forall_mem_cons, ← ih, ← transmit_answer_iff]
    constructor
    · intro h
      simp only [transmitEach, bind, pure, Option.bind_eq_some_iff, Option.some.injEq] at h
      obtain ⟨call, hcall, calls, hcalls, hlist⟩ := h
      have hmore := hcall
      simp only [transmit, packing_entry, bind, pure, Option.bind_eq_some_iff, Option.some.injEq] at hmore
      obtain ⟨_, -, _, -, rfl⟩ := hmore
      obtain ⟨hfirst, hrest⟩ := List.cons.inj hlist
      exact ⟨by rw [hcall, hfirst], by rw [hcalls, ← hrest]; rfl⟩
    · rintro ⟨hfirst, hrest⟩
      rw [transmitEach, hfirst, hrest]
      rfl

/-- The messages that are sent, where all of them are complete. -/
theorem sendEach_complete (h : ∀ a ∈ as, d.Acceptable (advType type) topic a.addr a.nUuid ∧
      (d.entryMsg (advType type) topic a).encode.length < 2 ^ 31) :
    d.sendEach (advType type) topic as = some (as.map fun a => .sendto (d.answer type topic a).buffer) := by
  induction as with
  | nil => rfl
  | cons a as ih =>
    obtain ⟨⟨hacc, hshort⟩, has⟩ := List.forall_mem_cons.mp h
    have hpackable : (d.entryMsg (advType type) topic a).toAdvertiseBase.Packable :=
      packable_advMsg.mpr ⟨hacc.1, hacc.2.1 (advType_mem type)⟩
    have hsent : advDatagram (d.entryMsg (advType type) topic a) = (d.entryMsg (advType type) topic a).encode :=
      if_pos hpackable
    have hmsg := sendMsg_adv (d := d) (advType_mem type) (fits_of_short hshort)
    rw [sendEach, hmsg, ih has]
    simp only [entryMsg] at hsent
    simp only [hsent]
    rfl

/-- A requester ought to be told of what is not hidden from it, where that has one of the scopes. -/
theorem answerEntries_eq (fromIp : Str) : d.answerEntries fromIp type topic =
    (((d.info type).cell topic d.pUuid).filter fun a => ¬ Hides d.hostAddr fromIp a.scope).filter fun a =>
      a.scope = .all ∨ a.scope = .host := by
  rw [answerEntries, List.filter_filter]
  refine List.filter_congr fun a _ => ?_
  rw [← Bool.decide_and, decide_eq_decide, not_hides_iff]
  constructor
  · rintro (h | ⟨h, hip⟩)
    · exact ⟨.inl h, by rw [h]; decide, fun hhost => absurd (h.symm.trans hhost) (by decide)⟩
    · exact ⟨.inr h, by rw [h]; decide, fun _ => hip⟩
  · rintro ⟨h | h, -, hip⟩
    · exact .inl h
    · exact .inr ⟨h, hip h⟩

/-- The calls are the ones that are wanted. -/
theorem answerCalls_eq_iff (fromIp : Str) :
    d.answerCalls fromIp type topic = some ((d.answerEntries fromIp type topic).map (d.answer type topic)) ↔
      ∀ a ∈ (d.info type).cell topic d.pUuid, ¬ Hides d.hostAddr fromIp a.scope → d.Answerable type topic a := by
  rw [answerCalls, answerEntries_eq]
  generalize hshown : (((d.info type).cell topic d.pUuid).filter fun a => ¬ Hides d.hostAddr fromIp a.scope) = shown
  have hmem : ∀ a, a ∈ shown ↔ a ∈ (d.info type).cell topic d.pUuid ∧ ¬ Hides d.hostAddr fromIp a.scope := by
    intro a
    rw [← hshown, List.mem_filter, decide_eq_true_eq]
  constructor
  · intro h a ha hvisible
    -- as many answers as entries that are shown: each of them has one of the scopes
    have hlen := length_transmitEach h
    rw [List.length_map, List.length_filter_eq_length_iff] at hlen
    have hscope : ∀ a ∈ shown, a.scope = .all ∨ a.scope = .host := fun a ha => of_decide_eq_true (hlen a ha)
    rw [List.filter_eq_self.mpr hlen] at h
    have ha' := (hmem a).mpr ⟨ha, hvisible⟩
    exact ⟨hscope a ha', transmitEach_eq_iff.mp h a ha'⟩
  · intro h
    have hall : ∀ a ∈ shown, d.Answerable type topic a := fun a ha => h a ((hmem a).mp ha).1 ((hmem a).mp ha).2
    rw [List.filter_eq_self.mpr fun a ha => decide_eq_true (hall a ha).1]
    exact transmitEach_eq_iff.mpr fun a ha => (hall a ha).2

/-- **One request** is answered as it ought to be exactly if it can be answered. -/
theorem answersExactly_iff {g : Datagram} {header : Header} {m : SubscriptionMsg}
    (hread : readMessage d.pUuid g.msg = some (header, some (.subscribe type m))) :
    d.AnswersExactly g type m.topic ↔
      ∀ a ∈ (d.info type).cell m.topic d.pUuid, ¬ Hides d.hostAddr g.fromIp a.scope →
        d.Answerable type m.topic a := by
  constructor
  · rintro ⟨h, -⟩
    exact (answerCalls_eq_iff g.fromIp).mp h
  · intro h
    have hcalls := (answerCalls_eq_iff g.fromIp).mpr h
    have hshown : d.answerEntries g.fromIp type m.topic =
        ((d.info type).cell m.topic d.pUuid).filter fun a => ¬ Hides d.hostAddr g.fromIp a.scope := by
      rw [answerEntries_eq]
      refine List.filter_eq_self.mpr fun a ha => decide_eq_true ?_
      obtain ⟨ha, hvisible⟩ := List.mem_filter.mp ha
      exact (h a ha (of_decide_eq_true hvisible)).1
    refine ⟨hcalls, d.touch header.pUuid g.now, _, ?_, rfl, rfl, rfl⟩
    rw [dispatch_of_read hread, handle, recvSubscribe_eq, sendEach_touch, info_touch, pUuid_touch, hostAddr_touch,
      ← hshown, sendEach_complete]
    · rfl
    · rw [hshown]
      intro a ha
      obtain ⟨ha, hvisible⟩ := List.mem_filter.mp ha
      exact (h a ha (of_decide_eq_true hvisible)).2

/-- **Exactly which requests are answered as they ought to be**, in any state and so along every run. -/
theorem requests_answered_iff (pUuid hostAddr : Str) (ops : List Op) :
    (∀ (d : Discovery) (op : Op), d.AnswersRequests op ↔ d.CanAnswer op) ∧
    (Along step (fun _ d op => d.AnswersRequests op) (start pUuid hostAddr) ops ↔
      Along step (fun _ d op => d.CanAnswer op) (start pUuid hostAddr) ops) := by
  have hop : ∀ (d : Discovery) (op : Op), d.AnswersRequests op ↔ d.CanAnswer op := by
    intro d op
    constructor
    · exact fun h g header type m hg hread => (answersExactly_iff hread).mp (h g header type m hg hread)
    · exact fun h g header type m hg hread => (answersExactly_iff hread).mpr (h g header type m hg hread)
  exact ⟨hop, along_congr (fun _ => hop) _ _⟩

/-- A request of process 66 for topic "t". -/
def requestFrom66 : Datagram :=
  ⟨[2], 0, headerCodec.encode { version := 1, pUuid := [66], type := SubType } ++ strCodec.encode [116]⟩

/-- Process 65 advertises the topic without an address: the answer is a header and zeros. -/
theorem request_answered_with_zeros :
    ∃ d, run step (start [65] [1]) [.advertise .msg [116] [] [] [110] .all] = some d ∧
      ¬ d.AnswersRequests (.datagram requestFrom66) := by
  have hstored : (run step (start [65] [1]) [.advertise .msg [116] [] [] [110] .all]).any (fun d =>
      (d.info .msg).cell [116] [65] = [⟨[], [], [110], .all⟩]) = true := by decide
  obtain ⟨d, hd, hstored⟩ := exists_of_any hstored
  have hp : d.pUuid = [65] := (accounted_run hd).1
  rw [← hp] at hstored
  refine ⟨d, hd, fun h => ?_⟩
  have hread : readMessage d.pUuid requestFrom66.msg =
      some ({ version := 1, pUuid := [66], type := SubType }, some (.subscribe .msg { topic := [116] })) := by
    rw [hp]
    decide
  have hanswerable := (answersExactly_iff hread).mp (h _ _ _ _ rfl hread) ⟨[], [], [110], .all⟩
    (by rw [hstored]; exact List.mem_singleton_self _)
    (fun hh => by simp [Hides, Scope.all, Scope.process, Scope.host] at hh)
  exact (hanswerable.2.1.2.1 (by decide)).2.1 rfl

end Answers

end Discovery

end IgnTransport
