import Mathlib
import IgnTransport.ProcessNetwork
import IgnTransport.RemoteSubscribers
import IgnTransport.SocketFilters
import IgnTransport.SubscriberSocket
import IgnTransport.TopicNames

/-!
# IgnTransport.Publications — published data and remote subscribers in the network

* `data_stays_in_partition`: a callback gets what was published under its topic, in the partition of its node.
* `exists_subscriber`: whoever is registered as a remote subscriber has subscribed.
* `registration_lost`: a registration goes when discovery reports a disconnection, and at no other time; the messages
  that `Unsubscribe` sends name no process.
* `subscription_delivers`: a registration that was sent leads to the data of its topic, as long as the subscriber socket
  is connected and has the filter.
-/

namespace IgnTransport

open Lib CallM

namespace ProcessNetwork

open NodeShared

/-! ## Two processes -/

section Sample

def pairTopic : Str := ascii ['@', '@', '/', 't']

/-- The announcement of the topic. -/
def pairAdvertisement : Buffer :=
  let s := pairGroup.shared true
  Discovery.advDatagram ((Discovery.start s.pUuid []).advMsg AdvType pairTopic s.myAddress s.myControlAddress
    (Process.uuidOf 2).1 .all 0)

/-- One process advertises a topic, and the other subscribes to it and hears of it. -/
def pairSubscribed : List (NetEvent Bool (Happening Bool)) :=
  Process.setCallbacks.map (fun e => ⟨true, .own (.event e)⟩) ++
    [⟨true, .own (.event { op := .construct (Process.uuidOf 2) none none })⟩,
      ⟨true, .own (.event { op := .advertise (Process.uuidOf 2).1 (ascii ['t']) .all })⟩] ++
    Process.setCallbacks.map (fun e => ⟨false, .own (.event e)⟩) ++
    [⟨false, .own (.event { op := .construct (Process.uuidOf 1) none none })⟩,
      ⟨false, .own (.event { op := .subscribe (Process.uuidOf 1).1 (ascii ['t']) [7] })⟩,
      ⟨false, .own (.event { op := .datagram ⟨[], 5, pairAdvertisement⟩ })⟩]

def pairSubscriber : SubscriptionHandler := ⟨[7], (Process.uuidOf 1).1, true⟩

/-- The registration of the subscriber, a publication and its delivery. -/
def pairPublished : List (NetEvent Bool (Happening Bool)) :=
  [⟨true, .control false (pairGroup.shared true).myControlAddress pairTopic (pairGroup.shared false).pUuid
      pairSubscriber.nUuid (toDecimal NewConnection.toNat) []⟩,
    ⟨true, .own (.event { op := .publish (Process.uuidOf 2).1 (ascii ['t']) [9] })⟩,
    ⟨false, .message true pairTopic (pairGroup.shared true).myAddress [9] []⟩]

/-- The subscriber leaves. -/
def pairGone : NetEvent Bool (Happening Bool) :=
  ⟨true, .own (.event { op := .datagram ⟨[], 6, headerCodec.encode
    ((Discovery.start (pairGroup.shared false).pUuid []).header ByeType 0)⟩ })⟩

theorem run_pairPublished : ∃ n, run networkStep (network pairGroup) (pairSubscribed ++ pairPublished) = some n ∧
    (false, .callback pairSubscriber pairTopic [9]) ∈ n.sent ∧
    (true, .send .publisher [pairTopic, (pairGroup.shared true).myAddress, [9]]) ∈ n.sent := by
  have hrun : (run networkStep (network pairGroup) (pairSubscribed ++ pairPublished)).any (fun n =>
      (false, .callback pairSubscriber pairTopic [9]) ∈ n.sent ∧
      (true, .send .publisher [pairTopic, (pairGroup.shared true).myAddress, [9]]) ∈ n.sent) = true := by
    decide +kernel
  exact exists_of_any hrun

end Sample

/-! ## Partitions -/

section Partitions

open TopicUtils

/-- A node of a partition, to which the topic is this absolute one. -/
def InPartition (partition path : Str) (node : Node) (topic : Str) : Prop :=
  (node.fqn topic).isSome ∧ normalise node.partition = partition ∧ absoluteTopic node.ns topic = path

/-- The name of a topic tells the partition and the absolute topic. -/
theorem fqn_iff_inPartition {node : Node} {topic : Str} {partition path : Str} (hp : Clean partition)
    (ht : Clean path) : node.fqn topic = some (atSign :: partition ++ atSign :: path) ↔
      InPartition partition path node topic := by
  constructor
  · intro h
    obtain ⟨-, hname⟩ := getFullyQualifiedName_eq_some_iff.mp h
    obtain ⟨rfl, rfl⟩ := (name_inj _ _ hp ht).mp hname
    exact ⟨by rw [h]; rfl, rfl, rfl⟩
  · rintro ⟨hsome, rfl, rfl⟩
    obtain ⟨name, hname⟩ := Option.isSome_iff_exists.mp hsome
    obtain ⟨-, rfl⟩ := getFullyQualifiedName_eq_some_iff.mp hname
    exact hname

/-- Every name is that of a partition and an absolute topic. -/
theorem exists_inPartition {node : Node} {topic name : Str} (h : node.fqn topic = some name) :
    ∃ partition path, Clean partition ∧ Clean path ∧ name = atSign :: partition ++ atSign :: path := by
  obtain ⟨⟨hp, hns, ht⟩, hname⟩ := getFullyQualifiedName_eq_some_iff.mp h
  exact ⟨_, _, (clean_normalise hp).1, (clean_absoluteTopic hns ht).1, hname⟩

variable {ι : Type} [DecidableEq ι] (G : Group ι) (es : List (NetEvent ι (Happening ι))) (i : ι)

/-- A node of the partition subscribed to the absolute topic with this handler. -/
def SubscribedIn (partition path : Str) (h : SubscriptionHandler) : Prop :=
  Did G es i fun p op => ∃ topic node, op = .subscribe h.nUuid topic h.hUuid ∧ p.nodes[h.nUuid]? = some node ∧
    InPartition partition path node topic

/-- A node of the partition published the data on the absolute topic, that it had advertised. -/
def PublishedIn (partition path data : Str) : Prop :=
  Did G es i fun p op => ∃ n topic node, op = .publish n topic data ∧ p.nodes[n]? = some node ∧
    InPartition partition path node topic ∧ ∃ name ∈ node.topicsAdvertised, node.fqn topic = some name

variable {G es i}

/-- **No data crosses partitions**: what a callback gets was published by a node of the same partition, that had
advertised the topic, on the same absolute topic. -/
theorem data_stays_in_partition (hids : Function.Injective fun i => (G.shared i).responseReceiverId)
    {n : Net ι Requesters Effect} (h : run networkStep (network G) es = some n) {k : SubscriptionHandler}
    {t data : Str} (hcallback : (i, .callback k t data) ∈ n.sent) : ∃ partition path,
      t = atSign :: partition ++ atSign :: path ∧ SubscribedIn G es i partition path k ∧
        ∃ j, PublishedIn G es j partition path data := by
  obtain ⟨hsubscribed, j, hpublished⟩ := (sound_run hids h).2 _ hcallback
  -- the subscription shows how the name is made
  obtain ⟨partition, path, hp, ht, rfl⟩ : ∃ partition path, Clean partition ∧ Clean path ∧
      t = atSign :: partition ++ atSign :: path := by
    obtain ⟨pre, e, m, -, -, -, op, -, topic, -, hname⟩ := hsubscribed
    obtain ⟨node, -, hname⟩ := Option.bind_eq_some_iff.mp hname
    exact exists_inPartition hname
  refine ⟨partition, path, rfl, hsubscribed.mono ?_, j, hpublished.mono ?_⟩
  · rintro p op ⟨topic, rfl, hname⟩
    obtain ⟨node, hnode, hname⟩ := Option.bind_eq_some_iff.mp hname
    exact ⟨topic, node, rfl, hnode, (fqn_iff_inPartition hp ht).mp hname⟩
  · rintro p op ⟨m, topic, node, rfl, hnode, hname, hadvertised⟩
    exact ⟨m, topic, node, rfl, hnode, (fqn_iff_inPartition hp ht).mp hname, _,
      Std.ExtTreeSet.contains_iff_mem.mp hadvertised, hname⟩

theorem data_stays_in_partition_pair : ∃ partition path, pairTopic = atSign :: partition ++ atSign :: path ∧
    SubscribedIn pairGroup (pairSubscribed ++ pairPublished) false partition path pairSubscriber ∧
      ∃ j, PublishedIn pairGroup (pairSubscribed ++ pairPublished) j partition path [9] := by
  obtain ⟨n, hn, hcallback, -⟩ := run_pairPublished
  exact data_stays_in_partition pair_injective hn hcallback

end Partitions

/-! ## Registrations -/

section Registrations

variable {ι : Type} {i : ι} {c c' : Requesters} {out : List Effect}

/-- The remote subscribers change by a control message and by what discovery reports. -/
theorem remote_program {x : Happening ι} (h : program i c x = some (c', out)) :
    c'.process.shared.remoteSubscribers = c.process.shared.remoteSubscribers ∨
    (∃ j ctrl topic procUuid nodeUuid data throwsAt k, x = .control j ctrl topic procUuid nodeUuid data throwsAt ∧
      stoi data = .ok k ∧ c'.process.shared.remoteSubscribers =
        applyControl topic procUuid nodeUuid k c.process.shared.remoteSubscribers) ∨
    ∃ e dop d' dout, x = .own (.event e) ∧ c.process.discoveryOp e.op = some dop ∧
      c.process.discovery.perform dop = some (d', dout) ∧
      ∀ t q u, c'.process.shared.remoteSubscribers.HasNode t q u ↔
        c.process.shared.remoteSubscribers.HasNode t q u ∧
          ∀ args, .disconnection .msg args ∈ dout → ¬ Drops t q u args := by
  cases x with
  | message j topic sender data throwsAt =>
    obtain ⟨rfl, -⟩ := program_message h
    exact .inl rfl
  | request j responserId identity topic sender dstId nodeUuid reqUuid req response throwsAt =>
    obtain ⟨s, rfl, hbut, -⟩ := program_request h
    exact .inl (congrArg (·.remoteSubscribers) hbut)
  | response j identity dstId topic nodeUuid reqUuid rep result throwsAt =>
    obtain ⟨-, hexec⟩ := program_response h
    obtain ⟨v, w, hw, hcase⟩ := Requesters.recvSrvResponse_run identity topic nodeUuid reqUuid rep result
      c.process.shared throwsAt
    rw [Requesters.exec, hw] at hexec
    obtain ⟨rfl, -⟩ := Prod.mk.inj (Option.some.inj hexec)
    rcases hcase with ⟨hstate, -⟩ | ⟨k, -, -, hstate⟩ <;> exact .inl (congrArg (·.remoteSubscribers) hstate)
  | control j ctrl topic procUuid nodeUuid data throwsAt =>
    obtain ⟨o, ho, heq, -⟩ := Requesters.issue_eq_some (program_control h)
    obtain ⟨rfl, -⟩ := Prod.mk.inj heq
    obtain ⟨hreceived, hlost⟩ := Process.remote_exec_control ho
    by_cases hr : Process.Received throwsAt
    · obtain ⟨k, hk, hremote⟩ := hreceived hr
      exact .inr (.inl ⟨j, ctrl, topic, procUuid, nodeUuid, data, throwsAt, k, rfl, hk, hremote⟩)
    · exact .inl (hlost hr)
  | own e =>
    obtain ⟨hown, hexec⟩ := program_own h
    cases e with
    | event e =>
      obtain ⟨o, ho, heq, -⟩ := Requesters.issue_eq_some hexec
      obtain ⟨rfl, -⟩ := Prod.mk.inj heq
      cases hthread : e.op.OnServiceThread with
      | false => exact .inl (Process.remote_exec_entry ho hthread)
      | true =>
        obtain ⟨op, throwsAt⟩ := e
        cases op with
        | datagram | heartbeat | sweep =>
          obtain ⟨d', dout, hdout, hremote⟩ := Process.hasNode_exec_discovered ho hthread rfl
          exact .inr (.inr ⟨_, _, d', dout, rfl, rfl, hdout, hremote⟩)
        | control topic procUuid nodeUuid data => cases hown
        | _ => cases hthread
    | call nUuid topic hUuid data throwsAt =>
      obtain ⟨o, ho, heq, -⟩ := Requesters.issue_eq_some hexec
      obtain ⟨rfl, -⟩ := Prod.mk.inj heq
      exact .inl (Process.remote_exec_entry ho rfl)
    | ret hUuid =>
      obtain ⟨executed, -, heq⟩ := Requesters.ret_eq_some hexec
      obtain ⟨rfl, -⟩ := Prod.mk.inj heq
      exact .inl rfl
    | response identity topic nodeUuid reqUuid rep result throwsAt => cases hown
    | destroy nUuid =>
      obtain ⟨q, hq, heq⟩ := Option.map_eq_some_iff.mp hexec
      obtain ⟨rfl, -⟩ := Prod.mk.inj heq
      have hremoval : ∀ (q : Process) e o, Process.IsRemoval nUuid e.op → q.exec e = some o →
          q.shared.remoteSubscribers = c.process.shared.remoteSubscribers →
            o.process.shared.remoteSubscribers = c.process.shared.remoteSubscribers := by
        rintro q e o ⟨topic, hop | hop | hop⟩ ho hq
        all_goals exact (Process.remote_exec_entry ho (by rw [hop]; rfl)).trans hq
      obtain ⟨p, hp, rfl⟩ := Process.destroyNode_induct
        (R := fun p => p.shared.remoteSubscribers = c.process.shared.remoteSubscribers) rfl hremoval hq
      exact .inl hp

/-- Data leaves a process when somebody is registered. -/
theorem publisher_program {x : Happening ι} (h : program i c x = some (c', out)) {frames : List Str}
    (hsent : .send .publisher frames ∈ out) : ∃ t data : Str, frames = [t, c.process.shared.myAddress, data] ∧
      c.process.shared.remoteSubscribers.hasTopic t = true := by
  have hexec : ∀ {p : Process} {e : Process.Event} {o : Process.Outcome}, p.exec e = some o →
      .send .publisher frames ∈ o.effects → ∃ t data : Str, frames = [t, p.shared.myAddress, data] ∧
        p.shared.remoteSubscribers.hasTopic t = true ∧ ∃ n topic, e.op = .publish n topic data := by
    intro p e o ho hx
    obtain ⟨t, data, ⟨n, topic, node, hop, hnode, hname, -⟩, hframes⟩ := Process.acted_exec ho _ hx
    obtain ⟨op, throwsAt⟩ := e
    obtain rfl : op = .publish n topic data := hop
    have hfqn : p.fqn n topic = some t := by rw [Process.fqn, hnode, Option.bind_some, hname]
    exact ⟨t, data, hframes, Process.effects_publish hfqn ho _ hx, n, topic, rfl⟩
  have hissue : ∀ {caller : Caller} {e : Process.Event}, c.issue caller e = some (c', out) →
      ∃ t data : Str, frames = [t, c.process.shared.myAddress, data] ∧
        c.process.shared.remoteSubscribers.hasTopic t = true := by
    intro caller e h
    obtain ⟨o, ho, heq, -⟩ := Requesters.issue_eq_some h
    obtain ⟨-, rfl⟩ := Prod.mk.inj heq
    obtain ⟨t, data, hframes, htopic, -⟩ := hexec ho hsent
    exact ⟨t, data, hframes, htopic⟩
  cases x with
  | message j topic sender data throwsAt =>
    obtain ⟨-, hout⟩ := program_message h
    obtain ⟨handler, heq, -⟩ := hout _ hsent
    cases heq
  | request j responserId identity topic sender dstId nodeUuid reqUuid req response throwsAt =>
    obtain ⟨s, -, -, hout⟩ := program_request h
    obtain ⟨r, -, heq | heq | heq⟩ := hout _ hsent <;> cases heq
  | response j identity dstId topic nodeUuid reqUuid rep result throwsAt =>
    obtain ⟨-, hexec⟩ := program_response h
    obtain ⟨v, w, hw, hcase⟩ := Requesters.recvSrvResponse_run identity topic nodeUuid reqUuid rep result
      c.process.shared throwsAt
    rw [Requesters.exec, hw] at hexec
    obtain ⟨-, rfl⟩ := Prod.mk.inj (Option.some.inj hexec)
    rcases hcase with ⟨-, heffects⟩ | ⟨k, -, heffects, -⟩ <;> rw [heffects] at hsent <;> simp at hsent
  | control j ctrl topic procUuid nodeUuid data throwsAt => exact hissue (program_control h)
  | own e =>
    obtain ⟨hown, hrun⟩ := program_own h
    cases e with
    | event e => exact hissue hrun
    | call nUuid topic hUuid data throwsAt => exact hissue hrun
    | ret hUuid =>
      obtain ⟨executed, -, heq⟩ := Requesters.ret_eq_some hrun
      obtain ⟨-, rfl⟩ := Prod.mk.inj heq
      cases hsent
    | response identity topic nodeUuid reqUuid rep result throwsAt => cases hown
    | destroy nUuid =>
      -- a destructor publishes nothing
      obtain ⟨q, hq, heq⟩ := Option.map_eq_some_iff.mp hrun
      obtain ⟨-, rfl⟩ := Prod.mk.inj heq
      have hquiet := (destroyEffects_induct (R := fun _ => True) (Q := fun x => x ≠ .send .publisher frames) trivial
        (fun q e o hremoval ho _ => ⟨trivial, fun x hx heq => ?_⟩) hq).2 _ hsent
      · exact absurd rfl hquiet
      · obtain ⟨t, data, -, -, n, topic, hop⟩ := hexec ho (heq ▸ hx)
        obtain ⟨_, hr | hr | hr⟩ := hremoval <;> cases hop.symm.trans hr

end Registrations

/-! ## Runs of registrations -/

section Registered

variable {ι : Type} [DecidableEq ι] {G : Group ι} {es : List (NetEvent ι (Happening ι))} {n : Net ι Requesters Effect}
  {i : ι} {t q u : Str}

/-- A process is registered at another one, for a node. -/
def Net.Registered (n : Net ι Requesters Effect) (i : ι) (t q u : Str) : Prop :=
  (n.agents i).process.shared.remoteSubscribers.HasNode t q u

theorem stoi_newConnection : stoi (toDecimal NewConnection.toNat) = .ok (NewConnection.toNat : ℤ) := by decide

theorem stoi_endConnection : stoi (toDecimal EndConnection.toNat) = .ok (EndConnection.toNat : ℤ) := by decide

/-- A control message that was sent says what its sender wants. -/
theorem sent_control (hids : Function.Injective fun i => (G.shared i).responseReceiverId)
    (h : run networkStep (network G) es = some n) {j : ι} {ctrl data : Str} {k : ℤ}
    (hsent : (j, .control ctrl [t, q, u, data]) ∈ n.sent) (hdata : stoi data = .ok k) :
    (k = NewConnection.toNat ∧ ((G.shared j).pUuid : Str) = q ∧ ∃ s, s.nUuid = u ∧ Subscribed G es j t s) ∨
      (k = EndConnection.toNat ∧ ((G.shared j).myAddress : Str) = q) := by
  obtain ⟨topic, ⟨s, hs, hframes⟩ | ⟨m, hframes⟩⟩ := (sound_run hids h).2 _ hsent
  · simp only [controlFrames, List.cons.injEq, and_true] at hframes
    obtain ⟨rfl, rfl, rfl, rfl⟩ := hframes
    rw [stoi_newConnection, Except.ok.injEq] at hdata
    exact .inl ⟨hdata.symm, rfl, s, rfl, hs⟩
  · simp only [controlFrames, List.cons.injEq, and_true] at hframes
    obtain ⟨rfl, rfl, rfl, rfl⟩ := hframes
    rw [stoi_endConnection, Except.ok.injEq] at hdata
    exact .inr ⟨hdata.symm, rfl⟩

/-- Whoever is registered for a node is a process of the network, and this node has subscribed to the topic. -/
theorem exists_subscriber (hids : Function.Injective fun i => (G.shared i).responseReceiverId)
    (h : run networkStep (network G) es = some n) (hregistered : Net.Registered n i t q u) :
    ∃ j s, ((G.shared j).pUuid : Str) = q ∧ s.nUuid = u ∧ Subscribed G es j t s := by
  refine (run_induct (fun pre m => run networkStep (network G) pre = some m ∧ ∀ i t q u, Net.Registered m i t q u →
    ∃ j s, ((G.shared j).pUuid : Str) = q ∧ s.nUuid = u ∧ Subscribed G pre j t s) ⟨rfl, fun i t q u hr => ?_⟩
    (fun pre m e m' ih hstep => ?_) h).2 i t q u hregistered
  · obtain ⟨a, ha, -⟩ := hr
    change a ∈ (Table.empty : TopicStorage).cell t q at ha
    rw [Table.cell_empty] at ha
    cases ha
  · obtain ⟨hpre, hold⟩ := ih
    refine ⟨run_concat.mpr ⟨m, hpre, hstep⟩, fun i t q u hr => ?_⟩
    have hkept : Net.Registered m i t q u → ∃ j s, ((G.shared j).pUuid : Str) = q ∧ s.nUuid = u ∧
        Subscribed G (pre ++ [e]) j t s := fun hr => by
      obtain ⟨j, s, hq, hu, hs⟩ := hold i t q u hr
      exact ⟨j, s, hq, hu, hs.concat e⟩
    by_cases hi : i = e.agent
    · subst hi
      obtain ⟨hconsumed, c', out, hprogram, rfl⟩ := netStep_eq_some.mp hstep
      rw [Net.Registered, agents_update_self] at hr
      rcases remote_program hprogram with hsame |
        ⟨j, ctrl, topic, procUuid, nodeUuid, data, throwsAt, k, hx, hk, happly⟩ |
        ⟨op, dop, d', dout, -, -, -, hremote⟩
      · rw [hsame] at hr
        exact hkept hr
      · rw [happly, hasNode_applyControl] at hr
        rcases hr with ⟨hr, -⟩ | ⟨hnew, rfl, rfl, rfl⟩
        · exact hkept hr
        · -- the registration was sent by the process itself
          have hsent : (j, .control ctrl [t, q, u, data]) ∈ m.sent := hconsumed _ (by
            rw [hx]
            exact List.mem_singleton.mpr rfl)
          rcases sent_control hids hpre hsent hk with ⟨-, hq, s, hu, hs⟩ | ⟨hend, -⟩
          · exact ⟨j, s, hq, hu, hs.concat e⟩
          · rw [hnew] at hend
            exact absurd hend (by decide)
      · exact hkept ((hremote t q u).mp hr).1
    · rw [Net.Registered, agents_netStep_of_ne hstep hi] at hr
      exact hkept hr

/-- **Data leaves a process for subscribers only**: if a process sends data to other ones, a node of it had advertised
the topic and published this data, and some process has subscribed to this very topic. -/
theorem data_sent_for_subscribers (hids : Function.Injective fun i => (G.shared i).responseReceiverId)
    (h : run networkStep (network G) es = some n) {frames : List Str}
    (hsent : (i, .send .publisher frames) ∈ n.sent) : ∃ t data : Str, frames = [t, (G.shared i).myAddress, data] ∧
      Published G es i t data ∧ ∃ j s, Subscribed G es j t s := by
  have hhonest : Honest G es i (.send .publisher frames) := (sound_run hids h).2 _ hsent
  obtain ⟨t, data, hpublished, rfl⟩ := hhonest
  refine ⟨t, data, rfl, hpublished, ?_⟩
  -- the subscription is older than the message
  refine (run_induct (fun pre m => run networkStep (network G) pre = some m ∧
    ∀ i a, (i, .send .publisher [t, a, data]) ∈ m.sent → ∃ j s, Subscribed G pre j t s)
    ⟨rfl, fun i a hx => (by cases hx)⟩ (fun pre m e m' ih hstep => ?_) h).2 i _ hsent
  obtain ⟨hpre, hold⟩ := ih
  refine ⟨run_concat.mpr ⟨m, hpre, hstep⟩, fun i a hx => ?_⟩
  obtain ⟨hconsumed, c', out, hprogram, rfl⟩ := netStep_eq_some.mp hstep
  rcases mem_sent_update.mp hx with hx | ⟨rfl, hx⟩
  · obtain ⟨j, s, hs⟩ := hold i a hx
    exact ⟨j, s, hs.concat e⟩
  · obtain ⟨t', data', hframes, htopic⟩ := publisher_program hprogram hx
    obtain rfl : t = t' := List.head_eq_of_cons_eq hframes
    obtain ⟨q, hq⟩ := (TopicStorage.hasTopic_iff _ _).mp htopic
    obtain ⟨a', ha'⟩ := List.exists_mem_of_ne_nil _ hq
    obtain ⟨j, s, -, -, hs⟩ := exists_subscriber hids hpre ⟨a', ha', rfl⟩
    exact ⟨j, s, hs.concat e⟩

theorem data_sent_for_subscribers_pair : ∃ t data : Str,
    [pairTopic, ((pairGroup.shared true).myAddress : Str), [9]] = [t, (pairGroup.shared true).myAddress, data] ∧
      Published pairGroup (pairSubscribed ++ pairPublished) true t data ∧
        ∃ j s, Subscribed pairGroup (pairSubscribed ++ pairPublished) j t s := by
  obtain ⟨n, hn, -, hsent⟩ := run_pairPublished
  exact data_sent_for_subscribers pair_injective hn hsent

/-- Discovery reports to a process that another one has gone, or does not offer a topic of a node any more. -/
def ReportsGone (c : Requesters) (x : Happening ι) (t q u : Str) : Prop :=
  ∃ e dop d' dout args, x = .own (.event e) ∧ c.process.discoveryOp e.op = some dop ∧
    c.process.discovery.perform dop = some (d', dout) ∧ .disconnection .msg args ∈ dout ∧ Drops t q u args

/-- **Unsubscribing takes nobody off the list**: if a process is registered at one moment and not at a later one, then
discovery has reported its disconnection in between.  The messages of `Unsubscribe` carry the address of the
publisher socket where a process UUID is expected. -/
theorem registration_lost (hids : Function.Injective fun i => (G.shared i).responseReceiverId)
    (haddresses : ∀ i j, ((G.shared i).pUuid : Str) ≠ (G.shared j).myAddress) {m : Net ι Requesters Effect}
    {post : List (NetEvent ι (Happening ι))} (h : run networkStep (network G) es = some n)
    (hpost : run networkStep n post = some m) (hregistered : Net.Registered n i t q u)
    (hlost : ¬ Net.Registered m i t q u) : ∃ pre x rest n', post = pre ++ ⟨i, x⟩ :: rest ∧
      run networkStep n pre = some n' ∧ ReportsGone (n'.agents i) x t q u := by
  obtain ⟨pre, e, rest, n', n'', rfl, hpre, hstep, hin, hout⟩ :=
    exists_step_of_lost (P := fun m => Net.Registered m i t q u) hpost hregistered hlost
  have hrun := run_append_eq_some.mpr ⟨n, h, hpre⟩
  have hi : i = e.agent := by
    by_contra hi
    rw [Net.Registered, agents_netStep_of_ne hstep hi] at hout
    exact hout hin
  subst hi
  obtain ⟨hconsumed, c', out, hprogram, rfl⟩ := netStep_eq_some.mp hstep
  rw [Net.Registered, agents_update_self] at hout
  refine ⟨pre, e.input, rest, n', rfl, hpre, ?_⟩
  rcases remote_program hprogram with hsame | ⟨j, ctrl, topic, procUuid, nodeUuid, data, throwsAt, k, hx, hk, happly⟩ |
    ⟨op, dop, d', dout, hx, hop, hdout, hremote⟩
  · rw [hsame] at hout
    exact absurd hin hout
  · rw [happly, hasNode_applyControl] at hout
    by_contra
    refine hout (.inl ⟨hin, ?_⟩)
    rintro ⟨hend, rfl, rfl, rfl⟩
    have hsent : (j, .control ctrl [t, q, u, data]) ∈ n'.sent := hconsumed _ (by
      rw [hx]
      exact List.mem_singleton.mpr rfl)
    rcases sent_control hids hrun hsent hk with ⟨hnew, -⟩ | ⟨-, haddress⟩
    · rw [hend] at hnew
      exact absurd hnew (by decide)
    · obtain ⟨j', -, hq, -⟩ := exists_subscriber hids hrun hin
      exact haddresses j' j (hq.trans haddress.symm)
  · rw [hremote] at hout
    by_contra hnone
    refine hout ⟨hin, fun args hargs hdrops => hnone ⟨op, dop, d', dout, args, hx, hop, hdout, hargs, hdrops⟩⟩

theorem registration_lost_pair : ∃ pre x rest n n', [pairGone] = pre ++ ⟨true, x⟩ :: rest ∧
    run networkStep n pre = some n' ∧
      ReportsGone (n'.agents true) x pairTopic (pairGroup.shared false).pUuid pairSubscriber.nUuid := by
  have hrun : (run networkStep (network pairGroup) (pairSubscribed ++ pairPublished)).any (fun n =>
      (n.agents true).process.shared.remoteSubscribers.HasNode pairTopic (pairGroup.shared false).pUuid
        pairSubscriber.nUuid ∧
      (run networkStep n [pairGone]).any (fun m => ¬ (m.agents true).process.shared.remoteSubscribers.HasNode
        pairTopic (pairGroup.shared false).pUuid pairSubscriber.nUuid) = true) = true := by decide +kernel
  obtain ⟨n, hn, hregistered, hgone⟩ := exists_of_any hrun
  obtain ⟨m, hm, hlost⟩ := exists_of_any hgone
  have haddresses : ∀ i j, ((pairGroup.shared i).pUuid : Str) ≠ (pairGroup.shared j).myAddress := by decide
  obtain ⟨pre, x, rest, n', hpost, hpre, hreports⟩ :=
    registration_lost pair_injective haddresses hn hm hregistered hlost
  exact ⟨pre, x, rest, n, n', hpost, hpre, hreports⟩

end Registered

/-! ## Deliveries -/

section Deliveries

variable {t q u : Str}

/-- A call that leaves the subscriber socket alone. -/
def LeavesSubscriber (x : Effect) : Prop :=
  (∀ endpoints, endpointCall endpoints x = endpoints) ∧ ∀ filters, filterCall filters x = filters

/-- `Publish` and the control messages leave the subscriber socket alone. -/
theorem leavesSubscriber_exec {p : Process} {e : Process.Event} {o : Process.Outcome} (h : p.exec e = some o)
    (hop : (∃ n topic data, e.op = .publish n topic data) ∨
      ∃ topic procUuid nodeUuid data, e.op = .control topic procUuid nodeUuid data) :
    ∀ x ∈ o.effects, LeavesSubscriber x := by
  obtain ⟨r, hr, rfl, -⟩ := Process.exec_eq_some h
  obtain ⟨n, topic, data, hop⟩ | ⟨topic, procUuid, nodeUuid, data, hop⟩ := hop
  · rw [hop] at hr
    obtain ⟨node, -, ⟨-, rfl⟩ | ⟨name, hname, hf⟩⟩ := Process.named_eq_some hr
    · exact (@Process.finish_within _ id _ _ (within_pure false) e.throwsAt).2
    · obtain rfl := Option.some.inj hf
      refine (@Process.finish_within _ id _ _ ?_ e.throwsAt).2
      refine (Process.within_publish _ node name data).mono fun x hx => ?_
      match x, hx with
      | .send .publisher _, _ | .callback .., _ => exact ⟨fun _ => rfl, fun _ => rfl⟩
  · rw [hop] at hr
    obtain rfl := Option.some.inj hr
    refine (@Process.finish_within _ butRemote _ _ (Within.bind ?_ fun _ => within_pure true) e.throwsAt).2
    exact (Process.within_recvControlUpdate _ _ _ _ _).mono fun x hx => hx.elim

/-- A process that receives a control message with a number does what it says. -/
theorem exec_control (p : Process) (t q u : Str) {data : Str} {k : ℤ} (hk : stoi data = .ok k) : ∃ o,
    p.exec { op := .control t q u data } = some o ∧ o.process = { p with shared := { p.shared with
      remoteSubscribers := applyControl t q u k p.shared.remoteSubscribers } } := by
  obtain ⟨w, hw, hrun⟩ := Process.recvControlUpdate_run t q u data p.shared []
  rw [if_pos (by decide), hk] at hrun
  have hperform : p.perform (.control t q u data) = some (p, do
      recvControlUpdate t q u data
      return true) := rfl
  obtain ⟨v, hv, hstate⟩ : ∃ v : World NodeShared Effect, (do
      recvControlUpdate t q u data
      return true : NodeM Bool) { state := p.shared } = (.ok true, v) ∧ v.state = { p.shared with
        remoteSubscribers := applyControl t q u k p.shared.remoteSubscribers } :=
    ⟨_, bind_of_ok hrun, rfl⟩
  refine ⟨Process.finish [] (p, do
    recvControlUpdate t q u data
    return true), ?_, ?_⟩
  · simp only [Process.exec, hperform, Option.bind_eq_bind, Option.bind_some, Process.finish, hv]
    exact if_neg fun hfails : _ ∧ _ => (by cases hfails.2)
  · simp only [Process.finish, hv, hstate]

/-- A process that receives a registration enters it. -/
theorem exec_control_new (p : Process) (t q u : Str) : ∃ o,
    p.exec { op := .control t q u (toDecimal NewConnection.toNat) } = some o ∧
      o.process = { p with shared := { p.shared with
        remoteSubscribers := applyControl t q u NewConnection.toNat p.shared.remoteSubscribers } } :=
  exec_control p t q u stoi_newConnection

/-- A process that receives published data runs the callbacks of all its handlers of the topic. -/
theorem program_message_delivers {ι : Type} (i j : ι) (c : Requesters) (sender data : Str) {v w : Str}
    {s : SubscriptionHandler} (hstored : c.process.shared.localSubscriptions.getHandler t v w = some s)
    (hcb : s.cb = true) :
    ∃ out, program i c (.message j t sender data []) = some (c, out) ∧ .callback s t data ∈ out := by
  have htopic := HandlerStorage.hasHandlersForTopic_of_getHandler _ _ _ hstored
  have hhandlers := (HandlerStorage.getHandlers_eq_some_iff _ _ _).mpr ⟨htopic, rfl⟩
  have hreceive : Does (recvFrames [t, sender, data]) c.process.shared true c.process.shared [] :=
    (Does.forEach fun _ _ => does_attempt _ _).completes
  obtain ⟨es, hmem, hcallbacks⟩ : ∃ es, .callback s t data ∈ es ∧
      Does (CallM.forEach (fun handler : SubscriptionHandler =>
        if handler.cb then CallM.emit (.callback handler t data) else return () : _ → NodeM Unit)
        (HandlerStorage.handlersOf (c.process.shared.localSubscriptions.row t)))
        c.process.shared () c.process.shared es := by
    refine ⟨_, List.mem_flatMap.mpr ⟨s, (HandlerStorage.mem_handlersOf _ _ _).mpr ⟨v, w, hstored⟩, ?_⟩,
      Does.forEach (g := fun handler => if handler.cb then [.callback handler t data] else []) fun handler _ => ?_⟩
    · rw [if_pos hcb]
      exact List.mem_singleton.mpr rfl
    · split_ifs
      · exact does_emit _ _
      · exact does_pure _ ()
  have hdoes : Does (recvMsgUpdate t sender data) c.process.shared () c.process.shared ([] ++ ([] ++ es)) := by
    refine hreceive.bind ?_
    rw [if_pos rfl]
    refine (does_look _).bind ?_
    rw [hhandlers]
    exact hcallbacks
  obtain ⟨k, hk⟩ := hdoes { state := c.process.shared } rfl rfl
  refine ⟨_, ?_, hmem⟩
  rw [program, receive, hk]
  rfl

variable {ι : Type} [DecidableEq ι] {G : Group ι} {es : List (NetEvent ι (Happening ι))} {n : Net ι Requesters Effect}
  {i j : ι}

/-- An operation that makes no request handler. -/
theorem issue_plain {c : Requesters} {e : Process.Event} {o : Process.Outcome} (h : c.process.exec e = some o)
    (hop : c.process.madeHandler e.op = none) :
    c.issue .callback e = some ({ c with process := o.process }, o.effects) := by
  have hnone : ∀ u ∈ c.process.madeHandler e.op, u ∉ c.callers := by
    rw [hop]
    exact fun u hu => (by cases hu)
  rw [Requesters.issue_of_exec h hnone, Requesters.callersAfter, hop]

/-- The subscriber socket of a process is connected to an address, and has a filter that the topic begins with. -/
def Net.Hears (n : Net ι Requesters Effect) (i : ι) (t addr : Str) : Prop :=
  cStr addr ∈ (n.outputs i).foldl endpointCall ∅ ∧ ∃ filter ∈ (n.outputs i).foldl filterCall 0, filter <+: t

instance (n : Net ι Requesters Effect) (i : ι) (t addr : Str) : Decidable (Net.Hears n i t addr) :=
  @instDecidableAnd _ _ inferInstance Multiset.decidableExistsMultiset

theorem hears_update {r : Requesters × List Effect} (hleaves : ∀ x ∈ r.2, LeavesSubscriber x) {addr : Str}
    (h : Net.Hears n i t addr) : Net.Hears (n.update j r) i t addr := by
  by_cases hij : i = j
  · subst hij
    have hendpoints := foldl_of_fixed (fun x hx => (hleaves x hx).1) ((n.outputs i).foldl endpointCall ∅)
    have hfilters := foldl_of_fixed (fun x hx => (hleaves x hx).2) ((n.outputs i).foldl filterCall 0)
    rw [Net.Hears, outputs_update_self, List.foldl_append, List.foldl_append, hendpoints, hfilters]
    exact h
  · rw [Net.Hears, outputs_update_of_ne _ hij]
    exact h

/-- The publisher receives a registration. -/
theorem step_registration (hregistration : (i, .control (n.agents j).process.shared.myControlAddress
    (controlFrames t q u NewConnection)) ∈ n.sent) {addr : Str} (hhears : Net.Hears n i t addr) : ∃ n',
      networkStep n ⟨j, .control i (n.agents j).process.shared.myControlAddress t q u
        (toDecimal NewConnection.toNat) []⟩ = some n' ∧ Net.Hears n' i t addr ∧
      (n'.agents j).process.shared.remoteSubscribers.hasTopic t = true ∧
      (n'.agents j).process.nodes = (n.agents j).process.nodes ∧
      (n'.agents j).process.shared.myAddress = (n.agents j).process.shared.myAddress ∧
      ∀ k, (n'.agents k).process.shared.localSubscriptions = (n.agents k).process.shared.localSubscriptions := by
  obtain ⟨o, ho, hprocess⟩ := exec_control_new (n.agents j).process t q u
  obtain ⟨n', hn'⟩ : ∃ n', n' = n.update j ({ n.agents j with process := o.process }, o.effects) := ⟨_, rfl⟩
  have hagent : n'.agents j = { n.agents j with process := o.process } := by rw [hn', agents_update_self]
  have hentered : (applyControl t q u NewConnection.toNat
      (n.agents j).process.shared.remoteSubscribers).hasTopic t = true := by
    obtain ⟨a, ha, -⟩ : (applyControl t q u NewConnection.toNat
        (n.agents j).process.shared.remoteSubscribers).HasNode t q u :=
      (hasNode_applyControl _ _ _ _).mpr (.inr ⟨rfl, rfl, rfl, rfl⟩)
    exact (TopicStorage.hasTopic_iff _ _).mpr ⟨q, List.ne_nil_of_mem ha⟩
  refine ⟨n', netStep_eq_some.mpr ⟨fun x hx => ?_, _, _, ?_, hn'⟩, ?_, ?_, ?_, ?_, fun k => ?_⟩
  · rw [List.mem_singleton.mp hx]
    exact hregistration
  · rw [program, if_pos rfl]
    exact issue_plain ho rfl
  · rw [hn']
    exact hears_update (leavesSubscriber_exec ho (.inr ⟨_, _, _, _, rfl⟩)) hhears
  · rw [hagent, hprocess]
    exact hentered
  · rw [hagent, hprocess]
  · rw [hagent, hprocess]
  · by_cases hk : k = j
    · rw [hk, hagent, hprocess]
    · rw [hn', agents_update_of_ne _ hk]

/-- A node publishes on a topic with a remote subscriber. -/
theorem step_publication {m topic : Str} {node : Node} (hnode : (n.agents j).process.nodes[m]? = some node)
    (hname : node.fqn topic = some t) (hadvertised : node.topicsAdvertised.contains t = true)
    (hremote : (n.agents j).process.shared.remoteSubscribers.hasTopic t = true) (data : Str) {addr : Str}
    (hhears : Net.Hears n i t addr) : ∃ n',
      networkStep n ⟨j, .own (.event { op := .publish m topic data })⟩ = some n' ∧ Net.Hears n' i t addr ∧
      (j, .send .publisher [t, (n.agents j).process.shared.myAddress, data]) ∈ n'.sent ∧
      ∀ k, (n'.agents k).process.shared.localSubscriptions = (n.agents k).process.shared.localSubscriptions := by
  obtain ⟨o, ho, hsent⟩ := Process.exec_publish_sends data hnode hname hadvertised hremote
  refine ⟨_, netStep_eq_some.mpr ⟨fun x hx => (by cases hx), _, _, issue_plain ho rfl, rfl⟩, ?_, ?_, fun k => ?_⟩
  · exact hears_update (leavesSubscriber_exec ho (.inl ⟨_, _, _, rfl⟩)) hhears
  · exact mem_sent_update.mpr (.inr ⟨rfl, hsent⟩)
  · by_cases hk : k = j
    · rw [hk, agents_update_self]
      exact (Process.core_exec ho).1
    · rw [agents_update_of_ne _ hk]

/-- The subscriber receives the data. -/
theorem step_delivery {addr data v w : Str} {s : SubscriptionHandler}
    (hstored : (n.agents i).process.shared.localSubscriptions.getHandler t v w = some s) (hcb : s.cb = true)
    (hsent : (j, .send .publisher [t, addr, data]) ∈ n.sent) : ∃ n',
      networkStep n ⟨i, .message j t addr data []⟩ = some n' ∧ (i, .callback s t data) ∈ n'.sent := by
  obtain ⟨out, hout, hcallback⟩ := program_message_delivers i j (n.agents i) addr data hstored hcb
  refine ⟨_, netStep_eq_some.mpr ⟨fun x hx => ?_, _, _, hout, rfl⟩, mem_sent_update.mpr (.inr ⟨rfl, hcallback⟩)⟩
  rw [List.mem_singleton.mp hx]
  exact hsent

/-- **A registration that was sent leads to data**: once the publisher has received it, what a node publishes on a topic
that it has advertised goes out.  The subscriber socket that is connected to the publisher and has the filter is so when
the data is published and when it arrives, and every handler of the topic is called. -/
theorem subscription_delivers (h : run networkStep (network G) es = some n)
    (hregistration : (i, .control (n.agents j).process.shared.myControlAddress
      (controlFrames t q u NewConnection)) ∈ n.sent)
    {m topic : Str} {node : Node} (hnode : (n.agents j).process.nodes[m]? = some node)
    (hname : node.fqn topic = some t) (hadvertised : node.topicsAdvertised.contains t = true) {v w : Str}
    {s : SubscriptionHandler} (hstored : (n.agents i).process.shared.localSubscriptions.getHandler t v w = some s)
    (hcb : s.cb = true) (hhears : Net.Hears n i t (n.agents j).process.shared.myAddress) (data : Str) :
    ∃ n₁ n₂ n', run networkStep (network G) (es ++
        [⟨j, .control i (n.agents j).process.shared.myControlAddress t q u (toDecimal NewConnection.toNat) []⟩]) =
          some n₁ ∧
      Net.Hears n₁ i t (n.agents j).process.shared.myAddress ∧
      networkStep n₁ ⟨j, .own (.event { op := .publish m topic data })⟩ = some n₂ ∧
      Net.Hears n₂ i t (n.agents j).process.shared.myAddress ∧
      networkStep n₂ ⟨i, .message j t (n.agents j).process.shared.myAddress data []⟩ = some n' ∧
      (i, .callback s t data) ∈ n'.sent := by
  obtain ⟨n₁, hstep₁, hhears₁, hremote, hnodes, haddress, hlocal₁⟩ := step_registration hregistration hhears
  obtain ⟨n₂, hstep₂, hhears₂, hsent, hlocal₂⟩ :=
    step_publication (by rw [hnodes]; exact hnode) hname hadvertised hremote data hhears₁
  rw [haddress] at hsent
  obtain ⟨n', hstep₃, hcallback⟩ := step_delivery (by rw [hlocal₂, hlocal₁]; exact hstored) hcb hsent
  exact ⟨n₁, n₂, n', run_concat.mpr ⟨n, h, hstep₁⟩, hhears₁, hstep₂, hhears₂, hstep₃, hcallback⟩

theorem subscription_delivers_pair : ∃ n₁ n₂ n', run networkStep (network pairGroup) (pairSubscribed ++
        [⟨true, .control false (pairGroup.shared true).myControlAddress pairTopic (pairGroup.shared false).pUuid
          pairSubscriber.nUuid (toDecimal NewConnection.toNat) []⟩]) = some n₁ ∧
      Net.Hears n₁ false pairTopic (pairGroup.shared true).myAddress ∧
      networkStep n₁ ⟨true, .own (.event { op := .publish (Process.uuidOf 2).1 (ascii ['t']) [9] })⟩ = some n₂ ∧
      Net.Hears n₂ false pairTopic (pairGroup.shared true).myAddress ∧
      networkStep n₂ ⟨false, .message true pairTopic (pairGroup.shared true).myAddress [9] []⟩ = some n' ∧
      (false, .callback pairSubscriber pairTopic [9]) ∈ n'.sent := by
  have hrun : (run networkStep (network pairGroup) pairSubscribed).any (fun n =>
      (n.agents true).process.shared.myControlAddress = (pairGroup.shared true).myControlAddress ∧
      (n.agents true).process.shared.myAddress = (pairGroup.shared true).myAddress ∧
      (false, .control (n.agents true).process.shared.myControlAddress
        (controlFrames pairTopic (pairGroup.shared false).pUuid pairSubscriber.nUuid NewConnection)) ∈ n.sent ∧
      (n.agents true).process.nodes[(Process.uuidOf 2).1]?.any (fun node =>
        node.fqn (ascii ['t']) = some pairTopic ∧ node.topicsAdvertised.contains pairTopic = true) = true ∧
      (n.agents false).process.shared.localSubscriptions.getHandler pairTopic pairSubscriber.nUuid
        pairSubscriber.hUuid = some pairSubscriber ∧
      Net.Hears n false pairTopic (n.agents true).process.shared.myAddress) = true := by decide +kernel
  obtain ⟨n, hn, hcontrol, haddress, hsent, hnodes, hstored, hhears⟩ := exists_of_any hrun
  obtain ⟨node, hnode, hname, hadvertised⟩ := exists_of_any hnodes
  have hdelivers := subscription_delivers hn hsent hnode hname hadvertised hstored rfl hhears [9]
  rw [hcontrol, haddress] at hdelivers
  exact hdelivers

end Deliveries

end ProcessNetwork

end IgnTransport
