import Mathlib
import IgnTransport.Connections
import IgnTransport.Exchange

/-!
# IgnTransport.Recovery — what becomes of a subscriber that expires at the publisher

A publisher whose activity sweep expires a process forgets the nodes of this process that subscribe.  They register
again when their process finds the publisher: when it hears of an address that it does not store, or looks for what it
stores.

* `recovery_iff`: a node that expired is registered again exactly when its process has found the publisher and the
  publisher has not forgotten it since.  Heartbeats alone do not bring it back: the subscriber may not have expired the
  publisher.
-/

namespace IgnTransport

open Lib CallM NodeShared

namespace NodeShared

/-! ## Registrations -/

section Registrations

/-- If this is a registration of a node of the process, an output of the list is the cause. -/
def Tells (s : NodeShared) (out : List Output) (x : Effect) : Prop :=
  ∀ ctrl t n, x = .control ctrl (controlFrames t s.pUuid n NewConnection) → ∃ args, .connection .msg args ∈ out ∧
    args.topic = t ∧ cStr args.ctrl = ctrl ∧ args.pUuid ≠ s.pUuid.1

variable {s : NodeShared} {out : List Output} {x : Effect}

theorem tells_of_not_isControl (h : ¬ IsControl x) : s.Tells out x := by
  rintro ctrl t n rfl
  exact absurd trivial h

theorem within_react_tells (s : NodeShared) (d : Discovery) {o : Output} (ho : o ∈ out) :
    Within core s (s.Tells out) (react d o) := by
  have hquiet : (∀ x, s.ReactEffect o x → ¬ IsControl x) → Within core s (s.Tells out) (react d o) := fun h =>
    (within_react s d o).mono fun x hx => tells_of_not_isControl (h x hx)
  match o with
  | .sendto b =>
    refine hquiet fun x hx => ?_
    obtain rfl : x = .datagram b := hx
    exact fun h => h
  | .connection .msg args =>
    refine Within.coarsen (g := butConnections) (f := fun s => s.butRemote.butServices) fun u hu => ?_
    subst hu
    refine within_onNewConnection_of u args (fun _ => tells_of_not_isControl fun h => h)
      (fun _ => tells_of_not_isControl fun h => h) ?_
    rintro hinterested frames ⟨m, k, handler, -, rfl⟩ ctrl t n heq
    obtain ⟨rfl, hframes⟩ := Effect.control.inj heq
    obtain ⟨rfl, -, -⟩ := Exchange.controlFrames_new_inj hframes
    exact ⟨args, ho, rfl, rfl, Ne.symm hinterested.2⟩
  | .connection .srv args =>
    refine hquiet fun x hx => ?_
    cases x with
    | control => exact absurd hx fun h => h
    | _ => exact fun h => h
  | .disconnection .msg args =>
    refine hquiet fun x hx => ?_
    cases x with
    | control => exact absurd hx fun h => h
    | _ => exact fun h => h
  | .disconnection .srv args => exact hquiet fun x hx => absurd hx fun h => h

end Registrations

end NodeShared

namespace Process

/-! ## Finding a publisher, forgetting a subscriber -/

section Steps

/-- The operation makes the process find a publisher of the topic, in another process and with this control address. -/
def Finds (p : Process) (t ctrl : Str) (op : Op) : Prop :=
  p.discovery.connectionCb = true ∧ ∃ dop args, p.discoveryOp op = some dop ∧ p.discovery.Finds .msg args dop ∧
    args.topic = t ∧ cStr args.ctrl = ctrl ∧ args.pUuid ≠ p.shared.pUuid.1

/-- A message ends the registration of a node of another process: this process says BYE, or an UNADVERTISE of it names
the topic and the node. -/
def Dismisses (p : Process) (t q n fromIp pUuid : Str) : Discovery.Body → Prop
  | .bye => p.discovery.disconnectionCb = true ∧ q = pUuid
  | .unadvertise .msg m => ¬ Discovery.Hides p.discovery.hostAddr fromIp m.scope ∧
      p.discovery.disconnectionCb = true ∧ Drops t q n (Discovery.advArgs pUuid m)
  | _ => False

/-- The operation makes the process forget a remote subscriber. -/
def Forgets (p : Process) (t q n : Str) : Op → Prop
  | .sweep now => p.discovery.Expired now q
  | .datagram g => ∃ header body, Discovery.readMessage p.discovery.pUuid g.msg = some (header, some body) ∧
      p.Dismisses t q n g.fromIp header.pUuid body
  | _ => False

variable {p : Process} {e : Event} {o : Outcome} {t ctrl : Str}

/-- Only a process that finds a publisher registers with it. -/
theorem finds_of_control (h : p.exec e = some o) {n : Str}
    (hx : .control ctrl (controlFrames t p.shared.pUuid n NewConnection) ∈ o.effects) : p.Finds t ctrl e.op := by
  obtain ⟨r, hr, rfl, -⟩ := exec_eq_some h
  obtain ⟨hshared, -, haction⟩ := acts_perform hr
  have hpUuid : r.1.shared.pUuid = p.shared.pUuid := congrArg (·.pUuid) hshared
  have htells : ∀ {V : Type} (view : NodeShared → V) (out : List Output),
      Within view (view r.1.shared) (r.1.shared.Tells out) r.2 → ∃ args, .connection .msg args ∈ out ∧
        args.topic = t ∧ cStr args.ctrl = ctrl ∧ args.pUuid ≠ p.shared.pUuid.1 := by
    intro V view out hwithin
    rw [← hpUuid] at hx ⊢
    exact (finish_within hwithin e.throwsAt).2 _ hx ctrl t n rfl
  cases haction with
  | discovered dop out hop hout hprogram =>
    obtain ⟨args, hmem, htopic, hctrl, hother⟩ := htells core out (by
      rw [hprogram]
      exact (Within.forEach fun o ho => within_react_tells _ _ ho).bind fun _ => within_pure true)
    obtain ⟨hcb, hfinds⟩ := (Discovery.mem_connection_perform hout).mp hmem
    exact ⟨hcb, dop, args, hop, hfinds, htopic, hctrl, hother⟩
  | own hop hdiscovery hprogram =>
    -- what an operation does of its own registers nobody
    have hnone : ∀ {V : Type} (view : NodeShared → V), Within view (view r.1.shared) (r.1.shared.Tells []) r.2 →
        False := by
      intro V view hwithin
      obtain ⟨args, hmem, -⟩ := htells view [] hwithin
      cases hmem
    exfalso
    obtain ⟨q, c⟩ := r
    cases hprogram with
    | idle b hidle => exact hnone id (within_pure b)
    | known nUuid topic hUuid data name =>
      refine hnone butServices (Within.bind ((within_sendPendingRemoteReqs _ _ name).mono fun x hx => ?_)
        fun _ => within_pure true)
      refine tells_of_not_isControl fun hcontrol => ?_
      cases x with
      | control => exact hx
      | _ => exact hcontrol
    | unsubscribed nUuid topic name hop =>
      refine hnone id ((within_notifyUnsubscribed _ _ _ _).mono fun x hx ctrl t n heq => ?_)
      subst heq
      exact absurd hx.1 Exchange.controlFrames_new_ne_end
    | published nUuid topic data name node hop =>
      refine hnone id ((within_publish _ _ _ _).mono fun x hx => tells_of_not_isControl fun hcontrol => ?_)
      cases x with
      | control => exact hx
      | _ => exact hcontrol
    | controlled topic procUuid nodeUuid data hop =>
      exact hnone butRemote (Within.bind ((within_recvControlUpdate _ _ _ _ _).mono fun x hx => hx.elim)
        fun _ => within_pure true)

/-- An operation that finds an address makes the process send and connect, nothing else. -/
theorem outputs_finds {d d' : Discovery} {dop : Discovery.Op} {out : List Output} {args : CallbackArgs}
    (h : d.perform dop = some (d', out)) (hfinds : d.Finds .msg args dop) :
    ∀ o ∈ out, o.IsDatagram ∨ ∃ args, o = .connection .msg args := by
  cases dop with
  | discover topic isSrv =>
    obtain ⟨hsought, -⟩ := hfinds
    cases isSrv with
    | false => exact outputs_discover h
    | true => cases hsought
  | datagram g =>
    obtain ⟨header, m, hread, -⟩ := hfinds
    rcases Discovery.dispatch_cases h with ⟨header', hread', -⟩ | ⟨header', body, hread', -, hhandle⟩
    · cases hread.symm.trans hread'
    · cases hread.symm.trans hread'
      obtain ⟨sent, rfl, hsent⟩ := Discovery.out_handle hhandle
      exact outputs_advertised _ _ _ _ hsent
  | _ => cases hfinds

/-- When nothing throws, a process that finds a publisher registers its handlers with it. -/
theorem control_of_finds (h : p.exec e = some o) (hthrows : e.throwsAt = []) (hfinds : p.Finds t ctrl e.op)
    {frames : List Str} (hregisters : o.process.shared.Registers t frames) : .control ctrl frames ∈ o.effects := by
  obtain ⟨hsubscriptions, hpUuid, -⟩ := core_exec h
  obtain ⟨r, hr, rfl, -⟩ := exec_eq_some h
  rw [hthrows] at hregisters hsubscriptions hpUuid ⊢
  obtain ⟨hcb, dop, args, hop, hdop, rfl, rfl, hother⟩ := hfinds
  obtain ⟨hshared, -, haction⟩ := acts_perform hr
  cases haction with
  | own hop' => cases hop.symm.trans hop'
  | discovered dop' out hop' hout hprogram =>
    obtain rfl : dop = dop' := Option.some.inj (hop.symm.trans hop')
    obtain ⟨es, s, hdoes, hcore, -, htold⟩ := known_reactAll r.1.shared r.1.discovery (outputs_finds hout hdop)
    have hprogram' : Does r.2 r.1.shared true s (es ++ []) := by
      rw [hprogram]
      exact hdoes.bind (does_pure s true)
    obtain ⟨k, hk⟩ := hprogram' { state := r.1.shared, throwsAt := [] } rfl rfl
    have heffects : (finish [] r).effects = es := by
      unfold finish
      simp only [hk, List.nil_append, List.append_nil]
    have hsame : (finish [] r).process.shared.localSubscriptions = r.1.shared.localSubscriptions :=
      hsubscriptions.trans (congrArg (·.localSubscriptions) hshared).symm
    have hself : (finish [] r).process.shared.pUuid = r.1.shared.pUuid :=
      hpUuid.trans (congrArg (·.pUuid) hshared).symm
    unfold Registers at hregisters
    rw [hsame, hself] at hregisters
    obtain ⟨n, u, handler, hhandler, hframes⟩ := hregisters
    have hinterested : r.1.shared.Interested args.topic args.pUuid := by
      refine ⟨HandlerStorage.hasHandlersForTopic_of_getHandler _ _ n hhandler, ?_⟩
      rw [show r.1.shared.pUuid = p.shared.pUuid from congrArg (·.pUuid) hshared]
      exact Ne.symm hother
    rw [heffects]
    exact htold args ((Discovery.mem_connection_perform hout).mpr ⟨hcb, hdop⟩) hinterested _
      ⟨frames, ⟨n, u, handler, hhandler, hframes⟩, rfl⟩

/-- The disconnection callbacks of a message that are about a remote subscriber. -/
theorem dismisses_iff {t q n fromIp pUuid : Str} {body : Discovery.Body} : p.Dismisses t q n fromIp pUuid body ↔
    ∃ args, .disconnection .msg args ∈ p.discovery.callbacks fromIp pUuid body ∧ Drops t q n args := by
  cases body with
  | bye =>
    have hgone : Drops t q n (Discovery.goneArgs pUuid) ↔ q = pUuid := and_iff_left fun habout => absurd rfl habout.1
    dsimp only [Dismisses, Discovery.callbacks]
    split_ifs with hcb <;> simp [hcb, hgone]
  | unadvertise type m =>
    cases type with
    | msg =>
      constructor
      · rintro ⟨hshown, hcb, hdrops⟩
        refine ⟨_, ?_, hdrops⟩
        dsimp only [Discovery.callbacks]
        rw [if_pos ⟨hshown, hcb⟩]
        exact List.mem_singleton.mpr rfl
      · rintro ⟨args, hargs, hdrops⟩
        obtain ⟨hshown, hcb, rfl⟩ := Discovery.mem_callbacks_unadvertise hargs
        exact ⟨hshown, hcb, hdrops⟩
    | srv => exact iff_of_false id fun ⟨args, hargs, _⟩ => Discovery.not_mem_callbacks (by simp) (by simp) hargs
  | _ => exact iff_of_false id fun ⟨args, hargs, _⟩ => Discovery.not_mem_callbacks (by simp) (by simp) hargs

/-- The remote subscribers of another process, as long as it sends no control messages. -/
theorem hasNode_exec_iff (h : p.exec e = some o) {q : Str}
    (hop : ∀ topic nodeUuid data, e.op ≠ .control topic q nodeUuid data) (t n : Str) :
    o.process.shared.remoteSubscribers.HasNode t q n ↔
      p.shared.remoteSubscribers.HasNode t q n ∧ ¬ p.Forgets t q n e.op := by
  obtain ⟨op, throwsAt⟩ := e
  cases hthread : op.OnServiceThread with
  | false =>
    rw [remote_exec_entry h hthread]
    cases op with
    | datagram | heartbeat | sweep | control => cases hthread
    | _ => exact (and_iff_left fun hforgets => hforgets).symm
  | true =>
    cases op with
    | sweep now => exact remote_exec_sweep h t q n
    | heartbeat =>
      obtain ⟨d', out, hdr, hremote⟩ := hasNode_exec_discovered h hthread rfl
      refine (hremote t q n).trans (and_congr_right fun _ => iff_of_true (fun args hargs => ?_) fun hf => hf)
      exact (Discovery.isDatagram_heartbeat hdr _ hargs).elim
    | control topic procUuid nodeUuid data =>
      refine Iff.trans ?_ (and_iff_left fun hforgets => hforgets).symm
      have hne : q ≠ procUuid := by
        rintro rfl
        exact hop _ _ _ rfl
      obtain ⟨hreceived, hlost⟩ := remote_exec_control h
      by_cases hr : Received throwsAt
      · obtain ⟨k, -, hremote⟩ := hreceived hr
        rw [hremote, hasNode_applyControl]
        simp only [hne, false_and, and_false, not_false_eq_true, and_true, or_false]
      · rw [hlost hr]
    | datagram g =>
      refine (remote_exec_datagram h t q n).trans (and_congr_right fun _ => ?_)
      constructor
      · rintro hstays ⟨header, body, hread, hdismisses⟩
        obtain ⟨args, hargs, hdrops⟩ := dismisses_iff.mp hdismisses
        exact hstays header body hread args hargs hdrops
      · intro hkept header body hread args hargs hdrops
        exact hkept ⟨header, body, hread, dismisses_iff.mpr ⟨args, hargs, hdrops⟩⟩
    | _ => cases hthread

end Steps

end Process

namespace Exchange

/-! ## Steps of the exchange -/

section Steps

variable (x : Exchange) (t n : Str)

/-- The step makes the subscriber find the publisher. -/
def Finds : Event → Prop
  | .subscriber e => x.subscriber.Finds t x.publisher.shared.myControlAddress e.op
  | _ => False

/-- The step makes the publisher forget the node, and the registration of the node is not on its way. -/
def Loses : Event → Prop
  | .publisher e => x.publisher.Forgets t x.subscriber.shared.pUuid n e.op ∧ ¬ x.Announced t n
  | _ => False

variable {x t n} {y : Exchange} {s : NodeShared} {e : Process.Event}

theorem live_publisher (h : x.step (.publisher e) = some y) : y.Registered t n ∨ y.Announced t n ↔
    (x.Registered t n ∨ x.Announced t n) ∧ ¬ x.Loses t n (.publisher e) := by
  obtain ⟨hfrom, o, ho, rfl⟩ := step_publisher h
  have hop : ∀ topic nodeUuid data, e.op ≠ .control topic x.subscriber.shared.pUuid nodeUuid data := by
    intro topic nodeUuid data hop
    rw [hop, IsFrom, decide_eq_false_iff_not] at hfrom
    exact hfrom rfl
  have hregistered := Process.hasNode_exec_iff ho hop t n
  unfold Registered Announced Loses
  rw [hregistered]
  tauto

theorem live_subscriber (hx : Accounted s x) (h : x.step (.subscriber e) = some y) (hthrows : e.throwsAt = [])
    (hsubscribes : y.Subscribes t n) : y.Registered t n ∨ y.Announced t n ↔
      x.Finds t (.subscriber e) ∨ x.Registered t n ∨ x.Announced t n := by
  have hy := accounted_subscriber hx h
  obtain ⟨o, ho, rfl⟩ := step_subscriber h
  obtain ⟨-, hpUuid, -⟩ := Process.core_exec ho
  have hnew : controlFrames t x.subscriber.shared.pUuid n NewConnection ∈
      o.effects.filterMap (framesFor x.publisher.shared.myControlAddress) ↔ x.Finds t (.subscriber e) := by
    refine ⟨fun hmem => Process.finds_of_control ho (mem_framesFor hmem), fun hfinds => ?_⟩
    obtain ⟨u, hu⟩ := (HandlerStorage.cell_ne_empty_iff _ t n).mp (subscribes_iff.mp hsubscribes)
    obtain ⟨handler, hhandler⟩ := Option.ne_none_iff_exists'.mp hu
    have hregisters : o.process.shared.Registers t (controlFrames t x.subscriber.shared.pUuid n NewConnection) := by
      refine ⟨n, u, handler, hhandler, ?_⟩
      rw [hy.keyed t n u handler hhandler, ← hpUuid]
    refine List.mem_filterMap.mpr ⟨_, Process.control_of_finds ho hthrows hfinds hregisters, ?_⟩
    exact if_pos rfl
  unfold Registered Announced
  dsimp only
  rw [hpUuid, List.mem_append, hnew]
  tauto

/-- **One step**: a node that subscribes is registered, or about to be, if it was and the step does not lose it, or if
the step finds the publisher. -/
theorem live_step (hx : Accounted s x) (hne : (s.myAddress : Str) ≠ s.pUuid) {e : Event} (h : x.step e = some y)
    (hcalls : ∀ e', e = .subscriber e' → e'.throwsAt = []) (hsubscribes : y.Subscribes t n) :
    y.Registered t n ∨ y.Announced t n ↔
      x.Finds t e ∨ ((x.Registered t n ∨ x.Announced t n) ∧ ¬ x.Loses t n e) := by
  cases e with
  | publisher e => exact (live_publisher h).trans (or_iff_right fun hfinds => hfinds).symm
  | subscriber e =>
    refine (live_subscriber hx h (hcalls e rfl) hsubscribes).trans (or_congr_right ?_)
    exact (and_iff_left fun hloses => hloses).symm
  | deliver =>
    refine (registered_deliver hx hne h).trans ?_
    exact ((or_iff_right fun hfinds => hfinds).trans (and_iff_left fun hloses => hloses)).symm

end Steps

/-! ## Runs -/

section Runs

/-- The activity sweep of the publisher expires the process of a node that subscribes and is registered. -/
structure Expires (x : Exchange) (t n : Str) (now : Timestamp) : Prop where
  subscribes : x.Subscribes t n
  registered : x.Registered t n
  expired : x.publisher.discovery.Expired now x.subscriber.shared.pUuid

instance (x : Exchange) (t n : Str) (now : Timestamp) : Decidable (x.Expires t n now) :=
  decidable_of_iff (x.Subscribes t n ∧ x.Registered t n ∧ x.publisher.discovery.Expired now x.subscriber.shared.pUuid)
    ⟨fun h => ⟨h.1, h.2.1, h.2.2⟩, fun h => ⟨h.subscribes, h.registered, h.expired⟩⟩

/-- In the run the subscriber finds the publisher, or its registration is on its way, and no later step loses the
node. -/
def Recovers (x : Exchange) (t n : Str) (es : List Event) : Prop :=
  Since step (fun _ y e => ¬ y.Loses t n e) (fun _ y e => y.Finds t e) x es ∨
    (x.Announced t n ∧ Along step (fun _ y e => ¬ y.Loses t n e) x es)

variable {x y z : Exchange} {t n : Str} {now : Timestamp}

theorem accounted_run {s : NodeShared} {es : List Event} (hx : Accounted s x) (h : run step x es = some y) :
    Accounted s y :=
  run_invariant (Accounted s) hx (fun _ _ _ hw => accounted_step hw) h

theorem not_registered_of_expires (h : x.Expires t n now) {throwsAt : List ℕ}
    (hy : x.step (.publisher ⟨.sweep now, throwsAt⟩) = some y) : ¬ y.Registered t n := by
  obtain ⟨-, o, ho, rfl⟩ := step_publisher hy
  intro hregistered
  exact ((Process.remote_exec_sweep ho _ _ _).mp hregistered).2 h.expired

/-- **Recovery from an expiry**: when the publisher has expired the process of a node, and afterwards this node stays
subscribed, no ZeroMQ call of its process fails and all its control messages arrive, it is registered again exactly if
its process has found the publisher and the publisher has not forgotten it since. -/
theorem recovery_iff (publisher subscriber : NodeShared) (publisherAddr subscriberAddr : Str)
    (hne : (subscriber.myAddress : Str) ≠ subscriber.pUuid) {pre es : List Event} {throwsAt : List ℕ}
    (hx : run step (start publisher subscriber publisherAddr subscriberAddr) pre = some x)
    (hexpires : x.Expires t n now) (hy : x.step (.publisher ⟨.sweep now, throwsAt⟩) = some y)
    (hz : run step y es = some z)
    (hstays : Always step (fun _ w => w.Subscribes t n) y es) (hcalls : ∀ e, .subscriber e ∈ es → e.throwsAt = [])
    (harrived : z.inFlight = []) : z.Registered t n ↔ y.Recovers t n es := by
  have haccounted : Accounted subscriber y := accounted_step (accounted_run
    (accounted_start publisher subscriber publisherAddr subscriberAddr) hx) hy
  have hlive := holds_iff_since (fun pre e w w' hpre hw hstep => live_step (t := t) (n := n)
    (accounted_run haccounted hw) hne hstep (fun e' he => hcalls e' (he ▸ hpre.subset (by simp)))
    (hstays (pre ++ [e]) w' hpre (run_concat.mpr ⟨w, hw, hstep⟩))) hz
  have hnone : ¬ z.Announced t n := by
    rw [Announced, harrived]
    exact List.not_mem_nil
  rw [or_iff_left hnone, or_iff_right (not_registered_of_expires hexpires hy)] at hlive
  exact hlive

end Runs

/-! ## Two processes -/

section Samples

/-- The datagrams among these effects arrive. -/
def arrivals (now : Timestamp) (effects : List Effect) : List Process.Event := effects.filterMap fun
  | .datagram b => some { op := .datagram ⟨[], now, b⟩ }
  | _ => none

/-- What a process sends in one round of its heartbeat thread. -/
def beat (p : Process) : List Effect := (p.exec { op := .heartbeat }).elim [] Process.Outcome.effects

/-- A heartbeat round in both directions: all that each process sends arrives at the other one. -/
def heartbeatRound (x : Exchange) (now : Timestamp) : List Event :=
  Event.publisher { op := .heartbeat } :: (arrivals now (beat x.publisher)).map Event.subscriber ++
    Event.subscriber { op := .heartbeat } :: (arrivals now (beat x.subscriber)).map Event.publisher

def heartbeatOf (s : NodeShared) : Buffer :=
  headerCodec.encode ((Discovery.start s.pUuid []).header HeartbeatType 0)

/-- A node registers; the publisher hears from it once more, and it from the publisher three seconds later. -/
def registersAndFallsSilent : List Event :=
  let advertises : List Process.Event := Process.setCallbacks ++ [{ op := .construct (Process.uuidOf 2) none none },
    { op := .advertise (Process.uuidOf 2).1 (ascii ['t']) .all }]
  let subscribes : List Process.Event := Process.setCallbacks ++ [{ op := .construct (Process.uuidOf 1) none none },
    { op := .subscribe (Process.uuidOf 1).1 (ascii ['t']) [7] },
    { op := .datagram ⟨[], 5, ProcessNetwork.pairAdvertisement⟩ }]
  advertises.map Event.publisher ++ (subscribes.map Event.subscriber ++ [Event.deliver,
    Event.publisher { op := .datagram ⟨[], 6, heartbeatOf (ProcessNetwork.pairGroup.shared false)⟩ },
    Event.subscriber { op := .datagram ⟨[], 3000000000, heartbeatOf (ProcessNetwork.pairGroup.shared true)⟩ }])

/-- Four seconds after the start the publisher expires the subscriber. -/
def expiry : Process.Event := { op := .sweep 4000000000 }

/-- The subscriber expires the publisher as well, and hears of it again. -/
def findsAgain (y : Exchange) : List Event :=
  Event.subscriber { op := .sweep 9000000000 } :: y.heartbeatRound 9000000000 ++ [Event.deliver]

theorem recovery_findsAgain : ∃ x y, run step pairStart registersAndFallsSilent = some x ∧
    x.Expires ProcessNetwork.pairTopic (Process.uuidOf 1).1 4000000000 ∧ x.step (.publisher expiry) = some y ∧
      y.Recovers ProcessNetwork.pairTopic (Process.uuidOf 1).1 y.findsAgain := by
  have hrun : (run step pairStart registersAndFallsSilent).any (fun x =>
      x.Expires ProcessNetwork.pairTopic (Process.uuidOf 1).1 4000000000 ∧
      (x.step (.publisher expiry)).any (fun y =>
        (y.findsAgain.inits.all fun pre => (run step y pre).all fun z =>
          z.Subscribes ProcessNetwork.pairTopic (Process.uuidOf 1).1) = true ∧
        (∀ e ∈ y.findsAgain, (match e with | .subscriber e => e.throwsAt | _ => []) = []) ∧
        (run step y y.findsAgain).any (fun z =>
          z.Registered ProcessNetwork.pairTopic (Process.uuidOf 1).1 ∧ z.inFlight = []) = true) = true) = true := by
    decide +kernel
  obtain ⟨x, hx, hexpires, hrest⟩ := exists_of_any hrun
  obtain ⟨y, hy, hstays, hcalls, hrest⟩ := exists_of_any hrest
  obtain ⟨z, hz, hregistered, harrived⟩ := exists_of_any hrest
  refine ⟨x, y, hx, hexpires, hy, ?_⟩
  exact (recovery_iff (ProcessNetwork.pairGroup.shared true) (ProcessNetwork.pairGroup.shared false) [] [] (by decide)
    hx hexpires hy hz (always_of_check hstays) (fun e he => hcalls (.subscriber e) he) harrived).mp hregistered

/-- After a heartbeat round in both directions a node that always subscribed is not registered with a publisher that
always advertised. -/
theorem subscriber_stays_forgotten : ∃ x y z, run step pairStart registersAndFallsSilent = some x ∧
    x.Expires ProcessNetwork.pairTopic (Process.uuidOf 1).1 4000000000 ∧ x.step (.publisher expiry) = some y ∧
    .subscriber { op := .datagram ⟨[], 5000000000, ProcessNetwork.pairAdvertisement⟩ } ∈ y.heartbeatRound 5000000000 ∧
    run step y (y.heartbeatRound 5000000000) = some z ∧ z.inFlight = [] ∧
    Always step (fun _ w => w.Subscribes ProcessNetwork.pairTopic (Process.uuidOf 1).1) y
      (y.heartbeatRound 5000000000) ∧
    Always step (fun _ w => ProcessNetwork.pairTopic ∈ w.publisher.advertised (Process.uuidOf 2).1) y
      (y.heartbeatRound 5000000000) ∧
    ¬ z.Registered ProcessNetwork.pairTopic (Process.uuidOf 1).1 := by
  have hrun : (run step pairStart registersAndFallsSilent).any (fun x =>
      x.Expires ProcessNetwork.pairTopic (Process.uuidOf 1).1 4000000000 ∧
      (x.step (.publisher expiry)).any (fun y =>
        .subscriber { op := .datagram ⟨[], 5000000000, ProcessNetwork.pairAdvertisement⟩ } ∈
          y.heartbeatRound 5000000000 ∧
        ((y.heartbeatRound 5000000000).inits.all fun pre => (run step y pre).all fun z =>
          z.Subscribes ProcessNetwork.pairTopic (Process.uuidOf 1).1) = true ∧
        ((y.heartbeatRound 5000000000).inits.all fun pre => (run step y pre).all fun z =>
          ProcessNetwork.pairTopic ∈ z.publisher.advertised (Process.uuidOf 2).1) = true ∧
        (run step y (y.heartbeatRound 5000000000)).any (fun z =>
          ¬ z.Registered ProcessNetwork.pairTopic (Process.uuidOf 1).1 ∧ z.inFlight = []) = true) = true) = true := by
    decide +kernel
  obtain ⟨x, hx, hexpires, hrest⟩ := exists_of_any hrun
  obtain ⟨y, hy, hmem, hsubscribes, hadvertises, hrest⟩ := exists_of_any hrest
  obtain ⟨z, hz, hregistered, harrived⟩ := exists_of_any hrest
  exact ⟨x, y, z, hx, hexpires, hy, hmem, hz, harrived, always_of_check hsubscribes, always_of_check hadvertises,
    hregistered⟩

end Samples

end Exchange

end IgnTransport
