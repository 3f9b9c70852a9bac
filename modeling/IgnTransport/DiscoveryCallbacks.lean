import Mathlib
import IgnTransport.DiscoveryScope
import IgnTransport.DiscoveryExpiry
import IgnTransport.DiscoverySweep

/-!
# IgnTransport.DiscoveryCallbacks — when an instance calls its callbacks, and which of them are set

A `DiscoveryCallback` that is not set throws `std::bad_function_call` when it is called.  The callbacks are called in
seven places, six of them behind a check.

* `only_set_called_iff`: along any run no unset callback is called, and setting more of them changes no store update,
  exactly if no sweep finds an expired process while the disconnection callback for messages is unset.
* `removals_told_iff`: an UNADVERTISE is told to the disconnection callback for an entry that was there and is gone
  now, as an ADVERTISE is to the connection callback for an entry that is new, exactly if the message passes the scope
  check just when there is an entry to remove.
-/

namespace IgnTransport

open Lib

namespace Discovery

/-! ## Calls -/

section Calls

/-- The loop of `RunActivityTask` until it ends or a callback throws: the state that it leaves, the callbacks that it
calls, the one that throws included, and whether it ends. -/
def sweepUntil (now : Timestamp) : List (Str × Timestamp) → Discovery → Discovery × List Output × Bool
  | [], d => (d, [], true)
  | (pUuid, last) :: entries, d =>
    if elapsedMs now last > d.silenceInterval then
      let d := d.delAddressesByProc pUuid
      if d.disconnectionCb then
        let (e, calls, ended) := sweepUntil now entries { d with activity := d.activity.erase pUuid }
        (e, .disconnection .msg (goneArgs pUuid) :: calls, ended)
      -- `std::bad_function_call`: the entries are gone, the activity entry is not.
      else (d, [.disconnection .msg (goneArgs pUuid)], false)
    else sweepUntil now entries d

/-- The callbacks that an operation calls, with a call that throws as the last one. -/
def calls (d : Discovery) : Op → List Output
  | .sweep now => (sweepUntil now d.activity.toList d).2.1
  | op => ((d.perform op).map Prod.snd).getD []

/-- The callback of an output is set. -/
def IsSet (d : Discovery) : Output → Prop
  | .sendto _ => True
  | .connection type _ => d.hasConnectionCb type = true
  | .disconnection type _ => d.hasDisconnectionCb type = true

/-- No unset callback is called. -/
def CallsOnlySet (d : Discovery) (op : Op) : Prop := ∀ o ∈ d.calls op, d.IsSet o

/-- The three maps. -/
def stores (d : Discovery) : TopicStorage × TopicStorage × StrMap Timestamp := (d.infoMsg, d.infoSrv, d.activity)

/-- The instance with other callbacks registered. -/
def withCallbacks (d : Discovery) (connection disconnection : MsgType → Bool) : Discovery :=
  { d with
    connectionCb := connection .msg
    disconnectionCb := disconnection .msg
    connectionSrvCb := connection .srv
    disconnectionSrvCb := disconnection .srv }

/-- The operation updates the stores as it does when more callbacks are registered. -/
def SameUpdates (d : Discovery) (op : Op) : Prop :=
  ∀ connection disconnection : MsgType → Bool, (∀ type, d.hasConnectionCb type = true → connection type = true) →
    (∀ type, d.hasDisconnectionCb type = true → disconnection type = true) →
    (((d.withCallbacks connection disconnection).perform op).map fun r => r.1.stores) =
      (d.perform op).map fun r => r.1.stores

/-- The operation is a sweep that finds an expired process, and the callback that it calls then is unset. -/
def SweepsUnset (d : Discovery) (op : Op) : Prop :=
  ∃ now, op = .sweep now ∧ d.disconnectionCb = false ∧ ∃ p, d.Expired now p

end Calls

/-! ## Sweeps -/

section Sweeps

variable {d d' : Discovery} {now : Timestamp} {out : List Output}

/-- A sweep that ends is the sweep of the state. -/
theorem sweepUntil_eq (now : Timestamp) (entries : List (Str × Timestamp)) (d : Discovery) :
    sweepFrom now entries d = if (sweepUntil now entries d).2.2 then
      some ((sweepUntil now entries d).1, (sweepUntil now entries d).2.1) else none := by
  induction entries generalizing d with
  | nil => rfl
  | cons e entries ih =>
    obtain ⟨p, last⟩ := e
    rw [sweepFrom, sweepUntil]
    by_cases hexp : elapsedMs now last > d.silenceInterval
    · rw [if_pos hexp, if_pos hexp]
      by_cases hcb : d.disconnectionCb = true
      · have hcb' : (d.delAddressesByProc p).disconnectionCb = true := hcb
        simp only [if_pos hcb, if_pos hcb', ih (d.expire p)]
        have hsame : { d.delAddressesByProc p with
            activity := (d.delAddressesByProc p).activity.erase p } = d.expire p := rfl
        rw [hsame]
        by_cases hended : (sweepUntil now entries (d.expire p)).2.2 = true
        · rw [if_pos hended, if_pos hended]
          rfl
        · rw [if_neg hended, if_neg hended]
          rfl
      · have hcb' : ¬ (d.delAddressesByProc p).disconnectionCb = true := hcb
        simp only [if_neg hcb, if_neg hcb']
        rfl
    · rw [if_neg hexp, if_neg hexp, ih]

/-- An unset callback stops the sweep at the first expired process, and is called for nothing else. -/
theorem sweepUntil_unset (now : Timestamp) (hcb : d.disconnectionCb = false) (entries : List (Str × Timestamp)) :
    ((∃ e ∈ entries, elapsedMs now e.2 > d.silenceInterval) ∧ (sweepUntil now entries d).2.2 = false ∧
      ∃ p, (sweepUntil now entries d).2.1 = [.disconnection .msg (goneArgs p)]) ∨
    ((∀ e ∈ entries, ¬ elapsedMs now e.2 > d.silenceInterval) ∧ sweepUntil now entries d = (d, [], true)) := by
  induction entries with
  | nil => exact .inr ⟨by simp, rfl⟩
  | cons e entries ih =>
    obtain ⟨p, last⟩ := e
    rw [sweepUntil]
    by_cases hexp : elapsedMs now last > d.silenceInterval
    · have hcb' : ¬ (d.delAddressesByProc p).disconnectionCb = true := by
        show ¬ d.disconnectionCb = true
        rw [hcb]
        simp
      rw [if_pos hexp]
      simp only [if_neg hcb']
      exact .inl ⟨⟨(p, last), List.mem_cons_self, hexp⟩, by simp, p, by simp⟩
    · rw [if_neg hexp]
      rcases ih with ⟨⟨e, he, hold⟩, hended, hcalls⟩ | ⟨hall, hsame⟩
      · exact .inl ⟨⟨e, List.mem_cons_of_mem _ he, hold⟩, hended, hcalls⟩
      · exact .inr ⟨List.forall_mem_cons.mpr ⟨hexp, hall⟩, hsame⟩

theorem expired_iff_entry (d : Discovery) (now : Timestamp) :
    (∃ e ∈ d.activity.toList, elapsedMs now e.2 > d.silenceInterval) ↔ ∃ p, d.Expired now p := by
  simp only [Prod.exists, Std.ExtTreeMap.mem_toList_iff_getElem?_eq_some, Expired]

/-- An operation that returns has called what it puts out. -/
theorem calls_of_perform {op : Op} (h : d.perform op = some (d', out)) : d.calls op = out := by
  cases op with
  | sweep now =>
    have hsweep : sweepFrom now d.activity.toList d = some (d', out) := h
    rw [sweepUntil_eq] at hsweep
    split_ifs at hsweep
    exact (Prod.mk.inj (Option.some.inj hsweep)).2
  | _ =>
    simp only [calls, h]
    rfl

/-- The stores that a sweep leaves do not depend on who is told of it. -/
theorem stores_sweep {e' : Discovery} {out' : List Output} {connection disconnection : MsgType → Bool}
    (hd : d.runActivityTask now = some (d', out))
    (he : (d.withCallbacks connection disconnection).runActivityTask now = some (e', out')) :
    e'.stores = d'.stores := by
  have hinfo : ∀ type, e'.info type = d'.info type := fun type => by
    rw [info_sweep he, info_sweep hd]
    cases type <;> rfl
  have hact : e'.activity = d'.activity := by
    rw [activity_sweep he, activity_sweep hd]
    rfl
  have hmsg : e'.infoMsg = d'.infoMsg := hinfo .msg
  have hsrv : e'.infoSrv = d'.infoSrv := hinfo .srv
  rw [stores, stores, hmsg, hsrv, hact]

end Sweeps

/-! ## Store updates -/

section Updates

variable {d : Discovery} {connection disconnection : MsgType → Bool}

theorem sendMsg_withCallbacks (type : UInt8) (topic addr ctrl nUuid : Str) (scope : Scope) (flags : UInt16) :
    (d.withCallbacks connection disconnection).sendMsg type topic addr ctrl nUuid scope flags =
      d.sendMsg type topic addr ctrl nUuid scope flags := sendMsg_congr rfl type topic addr ctrl nUuid scope flags

theorem sendTopics_congr {d e : Discovery} (h : d.pUuid = e.pUuid) (type : UInt8) (ts : List (Str × List Address)) :
    d.sendTopics type ts = e.sendTopics type ts := by
  induction ts with
  | nil => rfl
  | cons t ts ih => rw [sendTopics, sendTopics, sendEach_congr h, ih]

theorem stores_setInfo (type : MsgType) (s : TopicStorage) :
    ((d.withCallbacks connection disconnection).setInfo type s).stores = (d.setInfo type s).stores := by
  cases type <;> rfl

theorem info_withCallbacks (type : MsgType) : (d.withCallbacks connection disconnection).info type = d.info type := by
  cases type <;> rfl

/-- A message updates the stores in the same way, whoever is told. -/
theorem stores_handle (fromIp q : Str) (body : Body) :
    (((d.withCallbacks connection disconnection).handle fromIp q body).map fun r => r.1.stores) =
      (d.handle fromIp q body).map fun r => r.1.stores := by
  cases body with
  | advertise type m =>
    simp only [handle, Option.map_some, fst_recvAdvertise, info_withCallbacks]
    have hhost : (d.withCallbacks connection disconnection).hostAddr = d.hostAddr := rfl
    rw [hhost]
    split_ifs
    · rfl
    · exact congrArg some (stores_setInfo type _)
  | subscribe type m =>
    have hsend := sendEach_congr (d := d.withCallbacks connection disconnection) (e := d) rfl
    have hhost : (d.withCallbacks connection disconnection).hostAddr = d.hostAddr := rfl
    have hp : (d.withCallbacks connection disconnection).pUuid = d.pUuid := rfl
    simp only [handle, recvSubscribe_eq, info_withCallbacks, hsend, hhost, hp, Option.map_map]
    rfl
  | unadvertise type m =>
    simp only [handle, Option.map_some, fst_recvUnadvertise, info_withCallbacks]
    have hhost : (d.withCallbacks connection disconnection).hostAddr = d.hostAddr := rfl
    rw [hhost]
    split_ifs
    · rfl
    · exact congrArg some (stores_setInfo type _)
  | _ => rfl

/-- No operation but the sweep depends on what is registered. -/
theorem stores_perform {op : Op} (hop : ∀ now, op ≠ .sweep now) :
    (((d.withCallbacks connection disconnection).perform op).map fun r => r.1.stores) =
      (d.perform op).map fun r => r.1.stores := by
  have hp : (d.withCallbacks connection disconnection).pUuid = d.pUuid := rfl
  cases op with
  | advertise type topic addr ctrl nUuid scope =>
    simp only [perform, advertise, info_withCallbacks, hp]
    split_ifs
    · exact congrArg some (stores_setInfo type _)
    · rw [sendMsg_congr (e := d) ((pUuid_setInfo _ _ _).trans hp), sendMsg_congr (e := d) (pUuid_setInfo d _ _)]
      cases d.sendMsg (advType type) topic addr ctrl nUuid scope with
      | none => rfl
      | some out => exact congrArg some (stores_setInfo type _)
  | unadvertise type topic nUuid =>
    simp only [perform, unadvertise, info_withCallbacks, hp]
    cases (d.info type).getAddress topic d.pUuid nUuid with
    | none => rfl
    | some inf =>
      dsimp only
      split_ifs
      · exact congrArg some (stores_setInfo type _)
      · rw [sendMsg_congr (e := d) ((pUuid_setInfo _ _ _).trans hp), sendMsg_congr (e := d) (pUuid_setInfo d _ _)]
        cases d.sendMsg (unadvType type) topic inf.addr inf.ctrl nUuid inf.scope with
        | none => rfl
        | some out => exact congrArg some (stores_setInfo type _)
  | discover topic isSrv =>
    simp only [perform, discover, sendMsg_withCallbacks, info_withCallbacks]
    cases d.sendMsg (subType (if isSrv then .srv else .msg)) topic [] [] [] .all with
    | none => rfl
    | some out =>
      simp only [bind, Option.bind_some]
      cases (d.info (if isSrv then .srv else .msg)).getAddresses topic <;> rfl
  | datagram g =>
    simp only [perform, dispatch_eq_readMessage, hp]
    cases readMessage d.pUuid g.msg with
    | none => rfl
    | some r =>
      obtain ⟨header, body⟩ := r
      cases body with
      | none => rfl
      | some body => exact stores_handle (d := d.touch header.pUuid g.now) g.fromIp header.pUuid body
  | heartbeat =>
    have htopics := sendTopics_congr (d := d.withCallbacks connection disconnection) (e := d) rfl
    have hmsg : (d.withCallbacks connection disconnection).infoMsg = d.infoMsg := rfl
    have hsrv : (d.withCallbacks connection disconnection).infoSrv = d.infoSrv := rfl
    simp only [perform, heartbeat, sendMsg_withCallbacks, htopics, hmsg, hsrv, hp, bind, pure]
    cases d.sendMsg HeartbeatType [] [] [] [] .all with
    | none => rfl
    | some out =>
      cases d.sendTopics AdvType (d.infoMsg.getAddressesByProc d.pUuid) with
      | none => rfl
      | some msgs => cases d.sendTopics AdvSrvType (d.infoSrv.getAddressesByProc d.pUuid) <;> rfl
  | sweep now => exact absurd rfl (hop now)
  | setConnectionsCb type set => cases type <;> rfl
  | setDisconnectionsCb type set => cases type <;> rfl
  | setSilenceInterval ms => rfl

end Updates

/-! ## Empty callbacks -/

section Empty

variable {d : Discovery} {op : Op}

theorem isSet_of_isDatagram {out : List Output} (h : ∀ o ∈ out, o.IsDatagram) : ∀ o ∈ out, d.IsSet o := by
  intro o ho
  cases o with
  | sendto b => trivial
  | connection type args => exact absurd (h _ ho) id
  | disconnection type args => exact absurd (h _ ho) id

/-- The callbacks of a message are called behind a check. -/
theorem isSet_of_mem_callbacks {fromIp q : Str} {body : Body} {o : Output} (h : o ∈ d.callbacks fromIp q body) :
    d.IsSet o := by
  cases body with
  | advertise type m =>
    dsimp only [callbacks] at h
    split_ifs at h with hc
    · obtain rfl := List.mem_singleton.mp h
      exact hc.2.2
    · cases h
  | unadvertise type m =>
    dsimp only [callbacks] at h
    split_ifs at h with hc
    · obtain rfl := List.mem_singleton.mp h
      exact hc.2
    · cases h
  | bye =>
    rcases List.mem_append.mp h with h | h
    · split_ifs at h with hc
      · obtain rfl := List.mem_singleton.mp h
        exact hc
      · cases h
    · split_ifs at h with hc
      · obtain rfl := List.mem_singleton.mp h
        exact hc
      · cases h
  | _ => cases h

/-- An operation that returns has called nothing that is unset. -/
theorem callsOnlySet_of_perform {d' : Discovery} {out : List Output} (h : d.perform op = some (d', out)) :
    d.CallsOnlySet op := by
  unfold CallsOnlySet
  rw [calls_of_perform h]
  cases op with
  | advertise type topic addr ctrl nUuid scope => exact isSet_of_isDatagram (isDatagram_advertise h)
  | unadvertise type topic nUuid => exact isSet_of_isDatagram (isDatagram_unadvertise h)
  | discover topic isSrv =>
    obtain ⟨-, sent, replayed, rfl, hsent, hreplayed⟩ := discover_eq_some h
    refine List.forall_mem_append.mpr ⟨isSet_of_isDatagram hsent, fun o ho => ?_⟩
    obtain ⟨hcb, p, a, -, rfl⟩ := (hreplayed o).mp ho
    exact hcb
  | datagram g =>
    rcases dispatch_cases h with ⟨header, -, -, -, rfl⟩ | ⟨header, body, -, -, hhandle⟩
    · simp
    · obtain ⟨sent, rfl, hsent⟩ := out_handle hhandle
      rw [callbacks_touch]
      exact List.forall_mem_append.mpr ⟨isSet_of_isDatagram hsent, fun o ho => isSet_of_mem_callbacks ho⟩
  | heartbeat => exact isSet_of_isDatagram (isDatagram_heartbeat h)
  | sweep now =>
    intro o ho
    obtain ⟨p, hexp, rfl⟩ := (mem_out_sweep h o).mp ho
    -- the sweep has returned, so the callback that it called is set
    show d.disconnectionCb = true
    by_contra hcb
    rcases sweepUntil_unset now (Bool.eq_false_iff.mpr hcb) d.activity.toList with
      ⟨-, hended, -⟩ | ⟨hall, -⟩
    · have hsweep : sweepFrom now d.activity.toList d = some (d', out) := h
      rw [sweepUntil_eq, hended] at hsweep
      cases hsweep
    · obtain ⟨e, he, hold⟩ := (expired_iff_entry d now).mpr ⟨p, hexp⟩
      exact hall e he hold
  | setConnectionsCb type set =>
    rw [← (Prod.mk.inj (Option.some.inj h)).2]
    simp
  | setDisconnectionsCb type set =>
    rw [← (Prod.mk.inj (Option.some.inj h)).2]
    simp
  | setSilenceInterval ms =>
    rw [← (Prod.mk.inj (Option.some.inj h)).2]
    simp

/-- An operation that does not return for another reason than its callback has called nothing. -/
theorem callsOnlySet_of_ne_sweep (hop : ∀ now, op ≠ .sweep now) : d.CallsOnlySet op := by
  cases hperform : d.perform op with
  | some r => exact callsOnlySet_of_perform hperform
  | none =>
    have hcalls : d.calls op = [] := by
      cases op with
      | sweep now => exact absurd rfl (hop now)
      | _ => simp only [calls, hperform, Option.map_none, Option.getD_none]
    intro o ho
    rw [hcalls] at ho
    cases ho

/-- A sweep without its callback: it calls it for the first expired process, and throws. -/
theorem calls_sweep_unset (hcb : d.disconnectionCb = false) {now : Timestamp} (hexp : ∃ p, d.Expired now p) :
    ¬ d.CallsOnlySet (.sweep now) := by
  rcases sweepUntil_unset now hcb d.activity.toList with ⟨-, -, p, hcalls⟩ | ⟨hall, -⟩
  · intro h
    have hset := h (.disconnection .msg (goneArgs p)) (by
      show _ ∈ (sweepUntil now d.activity.toList d).2.1
      rw [hcalls]
      exact List.mem_singleton.mpr rfl)
    rw [show d.IsSet (.disconnection .msg (goneArgs p)) ↔ d.disconnectionCb = true from Iff.rfl, hcb] at hset
    cases hset
  · obtain ⟨e, he, hold⟩ := (expired_iff_entry d now).mpr hexp
    exact absurd hold (hall e he)

/-- A sweep that finds nothing expired changes nothing. -/
theorem sweep_idle_of_not_expired {now : Timestamp} (hexp : ¬ ∃ p, d.Expired now p) :
    d.runActivityTask now = some (d, []) := by
  have hall : ∀ entries : List (Str × Timestamp), (∀ e ∈ entries, ¬ elapsedMs now e.2 > d.silenceInterval) →
      sweepFrom now entries d = some (d, []) := by
    intro entries h
    induction entries with
    | nil => rfl
    | cons e entries ih =>
      obtain ⟨he, hentries⟩ := List.forall_mem_cons.mp h
      rw [sweepFrom, if_neg he, ih hentries]
  exact hall _ fun e he hold => hexp ((expired_iff_entry d now).mp ⟨e, he, hold⟩)

/-- **When an operation calls only what is set, and leaves what it leaves with more callbacks.** -/
theorem callsOnlySet_iff (d : Discovery) (op : Op) :
    (d.CallsOnlySet op ∧ d.SameUpdates op) ↔ ¬ d.SweepsUnset op := by
  constructor
  · rintro ⟨hset, -⟩ ⟨now, rfl, hcb, hexp⟩
    exact calls_sweep_unset hcb hexp hset
  · intro hgood
    by_cases hop : ∃ now, op = .sweep now
    · obtain ⟨now, rfl⟩ := hop
      by_cases hexp : ∃ p, d.Expired now p
      · have hcb : d.disconnectionCb = true := by
          by_contra hunset
          exact hgood ⟨now, rfl, Bool.eq_false_iff.mpr hunset, hexp⟩
        obtain ⟨⟨d', out⟩, hsweep⟩ := Option.isSome_iff_exists.mp (isSome_sweepFrom now d.activity.toList hcb)
        refine ⟨callsOnlySet_of_perform hsweep, fun connection disconnection _ hmore => ?_⟩
        have hcb' : (d.withCallbacks connection disconnection).disconnectionCb = true := hmore .msg hcb
        obtain ⟨⟨e', out'⟩, hsweep'⟩ := Option.isSome_iff_exists.mp (isSome_sweepFrom now d.activity.toList hcb')
        simp only [perform, runActivityTask]
        rw [hsweep]
        exact (congrArg _ hsweep').trans (congrArg some (stores_sweep hsweep hsweep'))
      · have hidle := sweep_idle_of_not_expired hexp
        refine ⟨callsOnlySet_of_perform hidle, fun connection disconnection _ _ => ?_⟩
        have hidle' := sweep_idle_of_not_expired (d := d.withCallbacks connection disconnection) hexp
        simp only [perform, hidle, hidle']
        rfl
    · have hne : ∀ now, op ≠ .sweep now := fun now heq => hop ⟨now, heq⟩
      exact ⟨callsOnlySet_of_ne_sweep hne, fun _ _ _ _ => stores_perform hne⟩

/-- **Exactly which runs call no empty callback.** -/
theorem only_set_called_iff (pUuid hostAddr : Str) (ops : List Op) :
    (∀ (d : Discovery) (op : Op), (d.CallsOnlySet op ∧ d.SameUpdates op) ↔ ¬ d.SweepsUnset op) ∧
    (Along step (fun _ d op => d.CallsOnlySet op ∧ d.SameUpdates op) (start pUuid hostAddr) ops ↔
      Along step (fun _ d op => ¬ d.SweepsUnset op) (start pUuid hostAddr) ops) :=
  ⟨callsOnlySet_iff, along_congr (fun _ => callsOnlySet_iff) _ _⟩

/-- A HEARTBEAT of process `[66]`. -/
def sampleBeat : Datagram := ⟨[2], 5, headerCodec.encode { version := 1, pUuid := [66], type := HeartbeatType }⟩

/-- An instance hears of a process, falls four seconds behind, and has no callback to tell. -/
theorem empty_callback_called :
    ¬ ∀ (pUuid hostAddr : Str) (ops : List Op) (d : Discovery), run step (start pUuid hostAddr) ops = some d →
      ∀ op, d.CallsOnlySet op ∧ d.SameUpdates op := by
  intro h
  have hstate : (run step (start [65] [1]) [.datagram sampleBeat]).any (fun d =>
      d.disconnectionCb = false ∧ d.silenceInterval = 3000 ∧ d.activity[([66] : Str)]? = some 5) = true := by
    decide
  obtain ⟨d, hd, hcb, hsilence, hact⟩ := exists_of_any hstate
  have hexp : d.Expired 4000000000 [66] := ⟨5, hact, hsilence ▸ lt_elapsedMs (by decide) (by decide)⟩
  exact calls_sweep_unset hcb ⟨[66], hexp⟩ (h [65] [1] _ d hd (.sweep 4000000000)).1

end Empty

/-! ## Removals -/

section Removals

variable {d d' : Discovery} {op : Op} {out : List Output}

/-- What an operation ought to tell: an UNADVERTISE is told if there was an entry of the node, which is gone then, and
an ADVERTISE if it added an entry. -/
def Notifies (d : Discovery) (op : Op) : Prop :=
  ∀ g header body d' out, op = .datagram g → readMessage d.pUuid g.msg = some (header, some body) →
    d.perform op = some (d', out) →
      (∀ type m, body = .unadvertise type m →
        out = (if (d.info type).HasNode m.topic header.pUuid m.nUuid then
          [.disconnection type (advArgs header.pUuid m)] else []) ∧
        ¬ ((d.info type).HasNode m.topic header.pUuid m.nUuid ∧
          (d'.info type).HasNode m.topic header.pUuid m.nUuid)) ∧
      ∀ type m, body = .advertise type m →
        out = if (d'.info type).cell m.topic header.pUuid =
            (d.info type).cell m.topic header.pUuid ++ [Peer.addressOf m] then
          [.connection type (advArgs header.pUuid m)] else []

/-- The condition: an UNADVERTISE passes the scope check just if its node has an entry. -/
def Warranted (d : Discovery) (op : Op) : Prop :=
  ∀ g header type m, op = .datagram g → readMessage d.pUuid g.msg = some (header, some (.unadvertise type m)) →
    (Hides d.hostAddr g.fromIp m.scope ↔ ¬ (d.info type).HasNode m.topic header.pUuid m.nUuid)

theorem dispatch_of_read {g : Datagram} {header : Header} {body : Body}
    (hread : readMessage d.pUuid g.msg = some (header, some body)) :
    d.perform (.datagram g) = (d.touch header.pUuid g.now).handle g.fromIp header.pUuid body := by
  rw [perform, dispatch_eq_readMessage, hread]
  rfl

theorem hasNode_recvUnadvertise (d : Discovery) (fromIp q : Str) (type : MsgType) (m : AdvertiseMsg) :
    ((d.recvUnadvertise fromIp q type m).1.info type).HasNode m.topic q m.nUuid ↔
      (d.info type).HasNode m.topic q m.nUuid ∧ Hides d.hostAddr fromIp m.scope := by
  rw [fst_recvUnadvertise]
  split_ifs with hh
  · exact (and_iff_left hh).symm
  · rw [info_setInfo, if_pos rfl, TopicStorage.hasNode_delAddressByNode]
    simp [hh]

theorem cell_recvAdvertise (d : Discovery) (fromIp q : Str) (type : MsgType) (m : AdvertiseMsg) :
    ((d.recvAdvertise fromIp q type m).1.info type).cell m.topic q =
        (d.info type).cell m.topic q ++ [Peer.addressOf m] ↔
      ¬ Hides d.hostAddr fromIp m.scope ∧ ¬ (d.info type).Known m.topic q m.nUuid m.addr := by
  have hne : (d.info type).cell m.topic q ≠ (d.info type).cell m.topic q ++ [Peer.addressOf m] := by
    simp
  rw [fst_recvAdvertise]
  split_ifs with hh
  · exact iff_of_false hne fun h => h.1 hh
  · rw [info_setInfo, if_pos rfl, TopicStorage.cell_addAddress, if_pos ⟨rfl, rfl⟩]
    unfold TopicStorage.addEntry
    split_ifs with hknown
    · exact iff_of_false hne fun h => h.2 hknown
    · exact iff_of_true rfl ⟨hh, hknown⟩

/-- What an UNADVERTISE makes an instance with all callbacks do. -/
theorem out_recvUnadvertise (hreg : d.Registered) (fromIp q : Str) (type : MsgType) (m : AdvertiseMsg) :
    (d.recvUnadvertise fromIp q type m).2 =
      if Hides d.hostAddr fromIp m.scope then [] else [.disconnection type (advArgs q m)] := by
  have hcb := hreg.disconnection type
  rw [snd_recvUnadvertise]
  dsimp only [callbacks]
  split_ifs with hc hh hh
  · exact absurd hh hc.1
  · rfl
  · rfl
  · exact absurd ⟨hh, hcb⟩ hc

/-- The callback for an ADVERTISE is always right. -/
theorem out_recvAdvertise (hreg : d.Registered) (fromIp q : Str) (type : MsgType) (m : AdvertiseMsg) :
    (d.recvAdvertise fromIp q type m).2 =
      if ((d.recvAdvertise fromIp q type m).1.info type).cell m.topic q =
          (d.info type).cell m.topic q ++ [Peer.addressOf m] then [.connection type (advArgs q m)] else [] := by
  have hcb := hreg.connection type
  rw [snd_recvAdvertise]
  dsimp only [callbacks]
  simp only [cell_recvAdvertise, hcb, and_true]

theorem hasConnectionCb_touch (d : Discovery) (p : Str) (now : Timestamp) (type : MsgType) :
    (d.touch p now).hasConnectionCb type = d.hasConnectionCb type := by
  cases type <;> rfl

theorem hasDisconnectionCb_touch (d : Discovery) (p : Str) (now : Timestamp) (type : MsgType) :
    (d.touch p now).hasDisconnectionCb type = d.hasDisconnectionCb type := by
  cases type <;> rfl

theorem registered_touch (hreg : d.Registered) (p : Str) (now : Timestamp) : (d.touch p now).Registered :=
  ⟨fun type => (hasConnectionCb_touch d p now type).trans (hreg.connection type),
    fun type => (hasDisconnectionCb_touch d p now type).trans (hreg.disconnection type)⟩

/-- **When a removal is told as it ought to be.** -/
theorem notifies_iff (hreg : d.Registered) (op : Op) : d.Notifies op ↔ d.Warranted op := by
  constructor
  · rintro h g header type m rfl hread
    have hsent := out_recvUnadvertise (registered_touch hreg header.pUuid g.now) g.fromIp header.pUuid type m
    generalize hr : (d.touch header.pUuid g.now).recvUnadvertise g.fromIp header.pUuid type m = r at hsent
    have hperform := dispatch_of_read hread
    rw [handle, hr] at hperform
    obtain ⟨hout, -⟩ := (h g header _ r.1 r.2 rfl hread hperform).1 type m rfl
    rw [hout, hostAddr_touch] at hsent
    by_cases hheld : (d.info type).HasNode m.topic header.pUuid m.nUuid
    · rw [if_pos hheld] at hsent
      refine iff_of_false (fun hh => ?_) (not_not.mpr hheld)
      rw [if_pos hh] at hsent
      cases hsent
    · rw [if_neg hheld] at hsent
      refine iff_of_true ?_ hheld
      by_contra hh
      rw [if_neg hh] at hsent
      cases hsent
  · rintro h g header body d' out rfl hread hperform
    rw [dispatch_of_read hread] at hperform
    have hreg' := registered_touch hreg header.pUuid g.now
    refine ⟨?_, ?_⟩
    · rintro type m rfl
      have hcond := h g header type m rfl hread
      have hr : (d.touch header.pUuid g.now).recvUnadvertise g.fromIp header.pUuid type m = (d', out) :=
        Option.some.inj hperform
      have hnode := hasNode_recvUnadvertise (d.touch header.pUuid g.now) g.fromIp header.pUuid type m
      have hsent := out_recvUnadvertise hreg' g.fromIp header.pUuid type m
      rw [hr, hostAddr_touch, info_touch] at hnode
      rw [hr, hostAddr_touch] at hsent
      refine ⟨?_, fun hboth => ?_⟩
      · refine hsent.trans ?_
        simp only [hcond, ite_not]
      · exact hcond.mp (hnode.mp hboth.2).2 hboth.1
    · rintro type m rfl
      have hr : (d.touch header.pUuid g.now).recvAdvertise g.fromIp header.pUuid type m = (d', out) :=
        Option.some.inj hperform
      have hsent := out_recvAdvertise hreg' g.fromIp header.pUuid type m
      rw [hr, info_touch] at hsent
      exact hsent

/-- **Exactly which runs tell of removals as of additions.** -/
theorem removals_told_iff (pUuid hostAddr : Str) (ops : List Op) :
    Along step (fun _ d op => d.Registered → d.Notifies op) (start pUuid hostAddr) ops ↔
      Along step (fun _ d op => d.Registered → d.Warranted op) (start pUuid hostAddr) ops := by
  refine along_congr (fun pre d op => ?_) _ _
  exact imp_congr_right fun hreg => notifies_iff hreg op

/-- An UNADVERTISE of process `[66]`. -/
def sampleUnadvertise : Datagram :=
  let d : Discovery := start [66] [2]
  ⟨[2], 5, (d.advMsg UnadvType [116] [97] [] [110] .all 0).encode⟩

/-- The callbacks are registered, and an UNADVERTISE comes of which nothing is known. -/
def unsolicited : List Op :=
  [.setConnectionsCb .msg true, .setConnectionsCb .srv true, .setDisconnectionsCb .msg true,
    .setDisconnectionsCb .srv true, .datagram sampleUnadvertise]

/-- Its callback is executed. -/
theorem unsolicited_told : ¬ ∀ (pUuid hostAddr : Str) (ops : List Op),
    Along step (fun _ d op => d.Registered → d.Notifies op) (start pUuid hostAddr) ops := by
  intro h
  have hstate : (run step (start [65] [1]) (unsolicited.take 4)).any (fun d =>
      (d.pUuid = [65] ∧ d.hostAddr = [1] ∧ (d.info .msg).cell [116] [66] = []) ∧
        d.connectionCb = true ∧ d.disconnectionCb = true ∧ d.connectionSrvCb = true ∧ d.disconnectionSrvCb = true) =
          true := by decide
  obtain ⟨d, hd, ⟨hp, hhost, hcell⟩, h1, h2, h3, h4⟩ := exists_of_any hstate
  have hreg : d.Registered :=
    ⟨fun type => by cases type <;> assumption, fun type => by cases type <;> assumption⟩
  have hwarranted := (notifies_iff hreg _).mp
    (h [65] [1] unsolicited (unsolicited.take 4) (.datagram sampleUnadvertise) d List.prefix_rfl hd hreg)
  have hread : ∃ header m, readMessage d.pUuid sampleUnadvertise.msg = some (header, some (.unadvertise .msg m)) ∧
      header.pUuid = [66] ∧ m.topic = [116] ∧ m.scope = .all := by
    rw [hp]
    exact ⟨{ version := 1, pUuid := [66], type := UnadvType },
      { topic := [116], addr := [97], nUuid := [110], msgTypeName := ascii ['n', 'o', 't', ' ', 'u', 's', 'e', 'd'] },
      by decide, rfl, rfl, rfl⟩
  obtain ⟨header, m, hread, hq, htopic, hscope⟩ := hread
  have hcond := hwarranted sampleUnadvertise header .msg m rfl hread
  rw [hscope, htopic, hq] at hcond
  have hhides : ¬ Hides d.hostAddr sampleUnadvertise.fromIp .all := by
    rw [hhost]
    decide
  refine hhides (hcond.mpr ?_)
  rintro ⟨a, ha, -⟩
  rw [hcell] at ha
  cases ha

end Removals

end Discovery

end IgnTransport
