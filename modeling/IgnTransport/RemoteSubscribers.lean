import Mathlib
import IgnTransport.ProcessTables

/-!
# IgnTransport.RemoteSubscribers — the remote subscribers of a process over whole runs

`Publish` sends when a topic has a remote subscriber, whatever the scope of its advertisement, and the table of the
remote subscribers is keyed by the process and node UUIDs that also identify publishers.  `process_scope_confined_iff`
and `subscribers_kept_iff` say exactly which runs keep a topic of scope 'Process' inside the process, and which keep
every registered subscriber until it unsubscribes or its process is gone.
-/

namespace IgnTransport

open Lib CallM

namespace NodeShared

/-! ## The table -/

section Table

variable (args : CallbackArgs) (s : TopicStorage) (t q n : Str)

theorem hasNode_dropRemote : (dropRemote args s).HasNode t q n ↔ s.HasNode t q n ∧
    ¬ (q = args.pUuid ∧ (AboutNode args → t = args.topic ∧ n = args.nUuid)) := by
  unfold dropRemote
  split_ifs with habout
  · rw [TopicStorage.hasNode_delAddressByNode]
    tauto
  · rw [TopicStorage.hasNode_delAddressesByProc]
    tauto

/-- A notification of a disconnection is about this subscriber. -/
def Drops (t q n : Str) (args : CallbackArgs) : Prop :=
  q = args.pUuid ∧ (AboutNode args → t = args.topic ∧ n = args.nUuid)

/-- Outputs of the discovery service only delete remote subscribers. -/
theorem hasNode_foldl_dropFor (out : List Output) :
    (out.foldl (fun s o => dropFor o s) s).HasNode t q n ↔ s.HasNode t q n ∧
      ∀ args, .disconnection .msg args ∈ out → ¬ Drops t q n args := by
  induction out generalizing s with
  | nil => simp
  | cons o out ih =>
    rw [List.foldl_cons, ih]
    by_cases ho : ∃ args, o = .disconnection .msg args
    · obtain ⟨args, rfl⟩ := ho
      change (dropRemote args s).HasNode t q n ∧ _ ↔ _
      rw [hasNode_dropRemote, and_assoc]
      refine and_congr_right fun _ => ?_
      simp only [List.mem_cons, forall_eq_or_imp, Output.disconnection.injEq, true_and]
      exact Iff.rfl
    · have hdrop : dropFor o s = s := by
        unfold dropFor
        split
        · exact absurd ⟨_, rfl⟩ ho
        · rfl
      rw [hdrop]
      refine and_congr_right fun _ => forall_congr' fun args => ?_
      rw [List.mem_cons, or_iff_right fun heq => ho ⟨args, heq.symm⟩]

theorem hasNode_applyControl {topic procUuid nodeUuid : Str} {k : ℤ} :
    (applyControl topic procUuid nodeUuid k s).HasNode t q n ↔
      (s.HasNode t q n ∧ ¬ (k = EndConnection.toNat ∧ t = topic ∧ q = procUuid ∧ n = nodeUuid)) ∨
        (k = NewConnection.toNat ∧ t = topic ∧ q = procUuid ∧ n = nodeUuid) := by
  unfold applyControl
  split_ifs with hnew hend
  · subst hnew
    rw [TopicStorage.hasNode_addAddress]
    have hne : ((NewConnection.toNat : ℤ) ≠ EndConnection.toNat) := by decide
    simp only [hne, false_and, not_false_eq_true, and_true, true_and]
  · subst hend
    rw [TopicStorage.hasNode_delAddressByNode]
    simp only [hnew, false_and, or_false, true_and]
  · simp only [hnew, hend, false_and, not_false_eq_true, and_true, or_false]

end Table

end NodeShared

namespace Process

open NodeShared

/-! ## Steps -/

section Steps

variable {p : Process} {e : Event} {o : Outcome}

/-- What the service threads report to the process. -/
theorem remote_exec_discovered {dr : Discovery × List Output} (h : p.exec e = some o)
    (hthread : e.op.OnServiceThread = true) (hperform : p.perform e.op = some (p.discovered dr)) :
    o.process.shared.remoteSubscribers = dr.2.foldl (fun s o => dropFor o s) p.shared.remoteSubscribers := by
  obtain ⟨r, hr, rfl, hvalue⟩ := exec_eq_some h
  obtain ⟨b, hvalue⟩ := hvalue hthread
  obtain rfl := Option.some.inj (hperform.symm.trans hr)
  exact remote_finish_discovered hvalue

/-- The remote subscribers after an operation of the discovery service that a service thread executes. -/
theorem hasNode_exec_discovered (h : p.exec e = some o) (hthread : e.op.OnServiceThread = true)
    {x : Option (Discovery × List Output)} (hperform : p.perform e.op = x.map p.discovered) :
    ∃ d' out, x = some (d', out) ∧ ∀ t q n, o.process.shared.remoteSubscribers.HasNode t q n ↔
      p.shared.remoteSubscribers.HasNode t q n ∧ ∀ args, .disconnection .msg args ∈ out → ¬ Drops t q n args := by
  obtain ⟨r, hr, -⟩ := exec_eq_some h
  rw [hperform] at hr
  obtain ⟨⟨d', out⟩, hdr, hdiscovered⟩ := Option.map_eq_some_iff.mp hr
  refine ⟨d', out, hdr, fun t q n => ?_⟩
  rw [remote_exec_discovered h hthread (by rw [hperform, hdr]; rfl), hasNode_foldl_dropFor]

/-- Only a control message adds a remote subscriber. -/
theorem hasNode_exec (h : p.exec e = some o) {t q n : Str}
    (hnode : o.process.shared.remoteSubscribers.HasNode t q n) :
    p.shared.remoteSubscribers.HasNode t q n ∨
      ∃ data, e.op = .control t q n data ∧ Received e.throwsAt ∧ stoi data = .ok NewConnection.toNat := by
  obtain ⟨op, throwsAt⟩ := e
  cases hthread : op.OnServiceThread with
  | false =>
    rw [remote_exec_entry h hthread] at hnode
    exact .inl hnode
  | true =>
    cases op with
    | datagram | heartbeat | sweep =>
      obtain ⟨d', out, -, hremote⟩ := hasNode_exec_discovered h hthread rfl
      exact .inl ((hremote t q n).mp hnode).1
    | control topic procUuid nodeUuid data =>
      obtain ⟨hreceived, hlost⟩ := remote_exec_control h
      by_cases hr : Received throwsAt
      · obtain ⟨k, hk, hremote⟩ := hreceived hr
        rw [hremote, hasNode_applyControl] at hnode
        rcases hnode with ⟨hnode, -⟩ | ⟨rfl, rfl, rfl, rfl⟩
        · exact .inl hnode
        · exact .inr ⟨data, rfl, hr, hk⟩
      · rw [hlost hr] at hnode
        exact .inl hnode
    | _ => cases hthread

end Steps

/-! ## Publishing -/

section Publishing

variable {p : Process} {o : Outcome}

theorem named_of_fqn {n topic name : Str} {f : Node → Str → Option (Process × NodeM Bool)}
    (h : p.fqn n topic = some name) : ∃ node, p.nodes[n]? = some node ∧ p.named n topic f = f node name := by
  obtain ⟨node, hnode, hname⟩ := Option.bind_eq_some_iff.mp h
  refine ⟨node, hnode, ?_⟩
  unfold named
  simp only [hnode, hname, Option.bind_eq_bind, Option.bind_some]

theorem effects_publish {n topic name data : Str} {throwsAt : List ℕ} (hname : p.fqn n topic = some name)
    (h : p.exec ⟨.publish n topic data, throwsAt⟩ = some o) : ∀ e ∈ o.effects, PublishEffect p.shared name data e := by
  obtain ⟨r, hr, rfl, -⟩ := exec_eq_some h
  obtain ⟨node, -, hnamed⟩ := named_of_fqn (f := fun node name => some (p, publish node name data)) hname
  obtain rfl := Option.some.inj (hnamed.symm.trans hr)
  exact (finish_within (r := (p, publish node name data)) (within_publish p.shared node name data) throwsAt).2

theorem does_runLocalCallbacks (s : NodeShared) (name data : Str) :
    ∃ es, Does (runLocalCallbacks name data s.localSubscriptions) s () s es := by
  unfold runLocalCallbacks
  cases s.localSubscriptions.getHandlers name with
  | none => exact ⟨[], does_pure s ()⟩
  | some handlers =>
    refine ⟨_, Does.forEach (g := fun handler => if handler.cb then [.callback handler name data] else [])
      fun handler _ => ?_⟩
    split_ifs
    · exact does_emit s _
    · exact does_pure s ()

/-- A topic with a remote subscriber is sent. -/
theorem exec_publish_sends {n topic name : Str} {node : Node} (data : Str) (hnode : p.nodes[n]? = some node)
    (hname : node.fqn topic = some name) (hadvertised : node.topicsAdvertised.contains name = true)
    (hremote : p.shared.remoteSubscribers.hasTopic name = true) :
    ∃ o, p.exec ⟨.publish n topic data, []⟩ = some o ∧
      .send .publisher [name, p.shared.myAddress, data] ∈ o.effects := by
  obtain ⟨es, hlocal⟩ := does_runLocalCallbacks p.shared name data
  have hsend : Does (NodeShared.publish name data) p.shared true p.shared
      [.send .publisher [name, p.shared.myAddress, data]] :=
    ((does_look p.shared).bind (does_sendFrames p.shared _ _).completes).of_eq rfl rfl
  have hpublish : ∃ fs, .send .publisher [name, p.shared.myAddress, data] ∈ fs ∧
      Does (publish node name data) p.shared true p.shared fs := by
    refine ⟨[] ++ (es ++ ([.send .publisher [name, p.shared.myAddress, data]] ++ [])), by simp, ?_⟩
    unfold publish
    rw [if_neg (by simpa using hadvertised)]
    refine (does_look p.shared).bind (hlocal.bind ?_)
    rw [if_pos hremote]
    exact hsend.bind (does_pure p.shared true)
  obtain ⟨fs, hmem, hdoes⟩ := hpublish
  obtain ⟨k, hk⟩ := hdoes { state := p.shared, throwsAt := [] } rfl rfl
  have hperform : p.perform (.publish n topic data) = some (p, publish node name data) := by
    dsimp only [perform, named]
    simp only [hnode, hname, Option.bind_eq_bind, Option.bind_some]
  refine ⟨finish [] (p, publish node name data), ?_, ?_⟩
  · rw [exec, hperform, Option.bind_eq_bind, Option.bind_some]
    exact if_neg fun h : _ ∧ _ => Bool.false_ne_true h.1
  · unfold finish
    simp only [hk]
    exact hmem

end Publishing

/-! ## Scopes -/

section Scopes

/-- The scope under which each node advertises each topic: that of its last `Advertise`, until it unadvertises. -/
abbrev Scopes := Str → Str → Option Scope

/-- The scopes after an operation of a process. -/
def scopesAfter (p : Process) (e : Event) (scopes : Scopes) : Scopes :=
  match e.op with
  | .advertise nUuid topic scope => fun n name =>
    if n = nUuid ∧ p.fqn nUuid topic = some name then some scope else scopes n name
  | .unadvertise nUuid topic => fun n name =>
    if n = nUuid ∧ p.fqn nUuid topic = some name then none else scopes n name
  | _ => scopes

/-- A run with the scopes of its advertisements. -/
def scopedStep : Process × Scopes → Event → Option (Process × Scopes) := tracked step scopesAfter

/-- `Publish` on a topic of scope 'Process' delivers to handlers of this process and does nothing else. -/
def Confined (x : Process × Scopes) : Prop :=
  ∀ n topic name data throwsAt o, x.1.fqn n topic = some name → x.2 n name = some .process →
    x.1.exec ⟨.publish n topic data, throwsAt⟩ = some o → ∀ e ∈ o.effects,
      ∃ handler, e = .callback handler name data ∧
        ∃ m u : Str, (x.1.shared.localSubscriptions.cell name m)[u]? = some handler

/-- The step lets no topic of scope 'Process' have a remote subscriber. -/
def KeepsConfined (x : Process × Scopes) (e : Event) : Prop :=
  match e.op with
  | .control topic _ _ data => Received e.throwsAt → stoi data = .ok NewConnection.toNat →
      ∀ n, x.2 n topic ≠ some .process
  | .advertise nUuid topic scope => scope = .process → ∀ name, x.1.fqn nUuid topic = some name →
      x.1.shared.remoteSubscribers.hasTopic name = false
  | _ => True

/-- What is known of the scopes: the node can name the topic and has it among its advertised topics. -/
def ScopesAccounted (x : Process × Scopes) : Prop :=
  ∀ n name scope, x.2 n name = some scope →
    ∃ node topic, x.1.nodes[n]? = some node ∧ node.fqn topic = some name ∧ name ∈ node.topicsAdvertised

/-- No topic of scope 'Process' has a remote subscriber. -/
def NoneRemote (x : Process × Scopes) : Prop :=
  ∀ n name, x.2 n name = some .process → x.1.shared.remoteSubscribers.hasTopic name = false

variable {x y : Process × Scopes} {e : Event}

theorem confined_of_noneRemote (h : NoneRemote x) : Confined x := by
  intro n topic name data throwsAt o hname hscope hexec e he
  have heffect := effects_publish hname hexec e he
  match e with
  | .callback handler topic' data' =>
    obtain ⟨rfl, rfl, hstored⟩ := heffect
    exact ⟨handler, rfl, hstored⟩
  | .send .publisher frames =>
    have hremote : x.1.shared.remoteSubscribers.hasTopic name = true := heffect
    rw [h n name hscope] at hremote
    cases hremote

/-- A topic of scope 'Process' with a remote subscriber leaves the process. -/
theorem not_confined (haccounted : ScopesAccounted x) {n name : Str} (hscope : x.2 n name = some .process)
    (hremote : x.1.shared.remoteSubscribers.hasTopic name = true) : ¬ Confined x := by
  intro hconfined
  obtain ⟨node, topic, hnode, hname, hadvertised⟩ := haccounted n name .process hscope
  have hfqn : x.1.fqn n topic = some name := by rw [fqn, hnode, Option.bind_some, hname]
  obtain ⟨o, hexec, hsent⟩ := exec_publish_sends [] hnode hname hadvertised hremote
  obtain ⟨handler, heq, -⟩ := hconfined n topic name [] [] o hfqn hscope hexec _ hsent
  cases heq

theorem confined_iff (haccounted : ScopesAccounted x) : Confined x ↔ NoneRemote x := by
  refine ⟨fun h n name hscope => ?_, confined_of_noneRemote⟩
  by_contra hremote
  exact not_confined haccounted hscope (by simpa using hremote) h

theorem scopesAccounted_step (haccounted : ScopesAccounted x) (h : scopedStep x e = some y) :
    ScopesAccounted y := by
  obtain ⟨hstep, hscopes⟩ := tracked_eq_some.mp h
  obtain ⟨o, hexec, hy⟩ := Option.map_eq_some_iff.mp hstep
  intro n name scope hscope
  rw [hscopes] at hscope
  rw [← hy]
  -- a scope that was there before: the node keeps its names, and unadvertises only this topic
  have hold : x.2 n name = some scope → (∀ m topic, e.op = .unadvertise m topic → m = n →
      x.1.fqn m topic ≠ some name) → ∃ node topic, o.process.nodes[n]? = some node ∧
        node.fqn topic = some name ∧ name ∈ node.topicsAdvertised := by
    intro hold hkept
    obtain ⟨node, topic, hnode, hname, hadvertised⟩ := haccounted n name scope hold
    refine ⟨_, topic, node_exec hexec hnode, ?_, ?_⟩
    · rw [Node.fqn, (nodeAfter_names x.1 n node e.op).1, (nodeAfter_names x.1 n node e.op).2]
      exact hname
    · exact mem_nodeAfter_advertised hadvertised hkept
  obtain ⟨op, throwsAt⟩ := e
  cases op with
  | advertise nUuid topic scope' =>
    dsimp only [scopesAfter] at hscope
    split_ifs at hscope with hthis
    · obtain ⟨rfl, hfqn⟩ := hthis
      obtain ⟨node, hnode, hname⟩ := Option.bind_eq_some_iff.mp hfqn
      refine ⟨_, topic, node_exec hexec hnode, ?_, ?_⟩
      · rw [Node.fqn, (nodeAfter_names x.1 n node _).1, (nodeAfter_names x.1 n node _).2]
        exact hname
      · simp only [nodeAfter, hfqn, if_true]
        exact (mem_insertSet _ _ _).mpr (.inl rfl)
    · exact hold hscope (fun m t hop => by cases hop)
  | unadvertise nUuid topic =>
    dsimp only [scopesAfter] at hscope
    split_ifs at hscope with hthis
    refine hold hscope fun m t hop hm hfqn => hthis ⟨?_, ?_⟩
    · cases hop
      exact hm.symm
    · cases hop
      exact hfqn
  | _ => exact hold hscope (fun m t hop => by cases hop)

theorem noneRemote_step (hnone : NoneRemote x) (h : scopedStep x e = some y) (hkeeps : KeepsConfined x e) :
    NoneRemote y := by
  obtain ⟨hstep, hscopes⟩ := tracked_eq_some.mp h
  obtain ⟨o, hexec, hy⟩ := Option.map_eq_some_iff.mp hstep
  intro n name hscope
  rw [hscopes] at hscope
  by_contra hremote
  obtain ⟨q, m, hnode⟩ := (TopicStorage.hasTopic_iff_hasNode _ _).mp (by simpa using hremote)
  rw [← hy] at hnode
  have hold : x.2 n name = some .process → ¬ x.1.shared.remoteSubscribers.HasNode name q m := by
    intro hold hnode
    have htopic := (TopicStorage.hasTopic_iff_hasNode _ _).mpr ⟨q, m, hnode⟩
    rw [hnone n name hold] at htopic
    cases htopic
  obtain ⟨op, throwsAt⟩ := e
  rcases hasNode_exec hexec hnode with hnode | ⟨data, rfl, hreceived, hdata⟩
  · cases op with
    | advertise nUuid topic scope =>
      dsimp only [scopesAfter] at hscope
      split_ifs at hscope with hthis
      · obtain rfl := Option.some.inj hscope
        have hfalse := hkeeps rfl name hthis.2
        have htopic := (TopicStorage.hasTopic_iff_hasNode _ _).mpr ⟨q, m, hnode⟩
        rw [hfalse] at htopic
        cases htopic
      · exact hold hscope hnode
    | unadvertise nUuid topic =>
      dsimp only [scopesAfter] at hscope
      split_ifs at hscope
      exact hold hscope hnode
    | _ => exact hold hscope hnode
  · exact hkeeps hreceived hdata n hscope

/-- Any other step lets a topic of scope 'Process' have a remote subscriber. -/
theorem not_noneRemote_step (h : scopedStep x e = some y) (hbad : ¬ KeepsConfined x e) : ¬ NoneRemote y := by
  obtain ⟨hstep, hscopes⟩ := tracked_eq_some.mp h
  obtain ⟨o, hexec, hy⟩ := Option.map_eq_some_iff.mp hstep
  intro hnone
  obtain ⟨op, throwsAt⟩ := e
  cases op with
  | control topic procUuid nodeUuid data =>
    dsimp only [KeepsConfined] at hbad
    push Not at hbad
    obtain ⟨hreceived, hdata, n, hscope⟩ := hbad
    obtain ⟨k, hk, hremote⟩ := (remote_exec_control hexec).1 hreceived
    obtain rfl := Except.ok.inj (hk.symm.trans hdata)
    have hnode : o.process.shared.remoteSubscribers.HasNode topic procUuid nodeUuid := by
      rw [hremote, hasNode_applyControl]
      exact .inr ⟨rfl, rfl, rfl, rfl⟩
    have htopic := (TopicStorage.hasTopic_iff_hasNode _ _).mpr ⟨procUuid, nodeUuid, hnode⟩
    rw [hy, hnone n topic (by rw [hscopes]; exact hscope)] at htopic
    cases htopic
  | advertise nUuid topic scope =>
    dsimp only [KeepsConfined] at hbad
    push Not at hbad
    obtain ⟨rfl, name, hname, hremote⟩ := hbad
    have hscope : y.2 nUuid name = some .process := by
      rw [hscopes]
      exact if_pos ⟨rfl, hname⟩
    have htopic := hnone nUuid name hscope
    rw [← hy, remote_exec_entry hexec rfl] at htopic
    exact hremote htopic
  | _ => exact hbad trivial

/-- **Confinement of the scope 'Process'**: a run keeps it in every state exactly when no control message registers a
remote subscriber for a topic that a node advertises under that scope, and no node advertises under it a topic that
has a remote subscriber. -/
theorem process_scope_confined_iff (shared : NodeShared) (hostAddr : Str) (es : List Event)
    (hrun : (run step (start shared hostAddr) es).isSome) :
    Always scopedStep (fun _ x => Confined x) (start shared hostAddr, fun _ _ => none) es ↔
      Along scopedStep (fun _ x e => KeepsConfined x e) (start shared hostAddr, fun _ _ => none) es := by
  obtain ⟨x, hx⟩ := exists_run_tracked scopesAfter (fun _ _ => none) hrun
  refine always_iff_along (fun _ x => ScopesAccounted x ∧ NoneRemote x) (fun _ => True) ⟨?_, ?_⟩ ?_ ?_ ?_
    (fun _ _ => trivial) hx
  · rintro n name scope ⟨⟩
  · rintro n name ⟨⟩
  · rintro pre x ⟨haccounted, hnone⟩
    exact (confined_iff haccounted).mpr hnone
  · rintro pre x e y - ⟨haccounted, hnone⟩ hstep hgood
    exact ⟨scopesAccounted_step haccounted hstep, noneRemote_step hnone hstep hgood⟩
  · rintro pre x e y - ⟨haccounted, hnone⟩ hstep hbad hconfined
    exact not_noneRemote_step hstep hbad ((confined_iff (scopesAccounted_step haccounted hstep)).mp hconfined)

/-- Two nodes advertise 't', one for everybody and one for its process only; between that a remote node subscribes. -/
def twoScopes : List Event :=
  setCallbacks ++ [{ op := .construct (uuidOf 1) none none }, { op := .construct (uuidOf 2) none none },
    { op := .advertise (uuidOf 1).1 (ascii ['t']) .all },
    { op := .control (ascii ['@', '@', '/', 't']) (uuidOf 7).1 (uuidOf 8).1 (toDecimal NewConnection.toNat) },
    { op := .advertise (uuidOf 2).1 (ascii ['t']) .process }]

theorem process_scope_confined_twoScopes :
    Always scopedStep (fun _ x => Confined x) (start (sample ⟨65, by decide⟩) [], fun _ _ => none) twoScopes ↔
      Along scopedStep (fun _ x e => KeepsConfined x e) (start (sample ⟨65, by decide⟩) [], fun _ _ => none)
        twoScopes :=
  process_scope_confined_iff _ _ _ (by decide +kernel)

/-- What the second node publishes on its topic of scope 'Process' leaves the process. -/
theorem process_scope_leaks :
    ∃ x, run scopedStep (start (sample ⟨65, by decide⟩) [], fun _ _ => none) twoScopes = some x ∧ ¬ Confined x := by
  have hleak : ((run scopedStep (start (sample ⟨65, by decide⟩) [], fun _ _ => none) twoScopes).bind fun x =>
      if x.1.fqn (uuidOf 2).1 (ascii ['t']) = some (ascii ['@', '@', '/', 't']) ∧
          x.2 (uuidOf 2).1 (ascii ['@', '@', '/', 't']) = some .process then
        (x.1.exec ⟨.publish (uuidOf 2).1 (ascii ['t']) [5], []⟩).map Outcome.effects
      else none) = some [.send .publisher [ascii ['@', '@', '/', 't'], [65, 1], [5]]] := by decide +kernel
  obtain ⟨x, hx, hpublish⟩ := Option.bind_eq_some_iff.mp hleak
  split_ifs at hpublish with hcond
  obtain ⟨o, hexec, heffects⟩ := Option.map_eq_some_iff.mp hpublish
  refine ⟨x, hx, fun hconfined => ?_⟩
  obtain ⟨handler, heq, -⟩ := hconfined _ _ _ _ _ o hcond.1 hcond.2 hexec _
    (by rw [heffects]; exact List.mem_singleton.mpr rfl)
  cases heq

end Scopes

/-! ## Subscribers -/

section Subscribers

/-- The remote nodes that have subscribed, by topic, process and node. -/
abbrev Subscribers := Str → Str → Str → Bool

/-- The subscribers after an operation: control messages register them and end that, and a process that says BYE or
expires takes its own with it. -/
def subscribersAfter (p : Process) (e : Event) (subscribers : Subscribers) : Subscribers :=
  match e.op with
  | .control topic procUuid nodeUuid data => fun t q n =>
    if Received e.throwsAt ∧ t = topic ∧ q = procUuid ∧ n = nodeUuid then
      if stoi data = .ok NewConnection.toNat then true
      else if stoi data = .ok EndConnection.toNat then false
      else subscribers t q n
    else subscribers t q n
  | .datagram g =>
    match Discovery.readMessage p.discovery.pUuid g.msg with
    | some (header, some .bye) => fun t q n => q ≠ header.pUuid && subscribers t q n
    | _ => subscribers
  | .sweep now => fun t q n => !decide (p.discovery.Expired now q) && subscribers t q n
  | _ => subscribers

/-- A run with its subscribers. -/
def subscribedStep : Process × Subscribers → Event → Option (Process × Subscribers) := tracked step subscribersAfter

/-- Whoever has subscribed is registered. -/
def Kept (x : Process × Subscribers) : Prop :=
  ∀ t q n, x.2 t q n = true → x.1.shared.remoteSubscribers.HasNode t q n

/-- An UNADVERTISE that the step dispatches is not about a subscriber. -/
def KeepsSubscribers (x : Process × Subscribers) (e : Event) : Prop :=
  match e.op with
  | .datagram g =>
    match Discovery.readMessage x.1.discovery.pUuid g.msg with
    | some (header, some (.unadvertise .msg m)) =>
      ¬ Discovery.Hides x.1.discovery.hostAddr g.fromIp m.scope → x.1.discovery.disconnectionCb = true →
        ∀ t q n, Drops t q n (Discovery.advArgs header.pUuid m) → x.2 t q n = false
    | _ => True
  | _ => True

variable {x y : Process × Subscribers} {e : Event}

/-- A datagram deletes the remote subscribers that its callbacks are about. -/
theorem remote_exec_datagram {p : Process} {o : Outcome} {g : Datagram} {throwsAt : List ℕ}
    (h : p.exec ⟨.datagram g, throwsAt⟩ = some o) (t q n : Str) :
    o.process.shared.remoteSubscribers.HasNode t q n ↔ p.shared.remoteSubscribers.HasNode t q n ∧
      ∀ header body, Discovery.readMessage p.discovery.pUuid g.msg = some (header, some body) →
        ∀ args, .disconnection .msg args ∈ p.discovery.callbacks g.fromIp header.pUuid body → ¬ Drops t q n args := by
  obtain ⟨d', out, hdr, hremote⟩ := hasNode_exec_discovered h rfl rfl
  rw [hremote]
  refine and_congr_right fun _ => ?_
  rcases Discovery.dispatch_cases hdr with ⟨header, hread, -, -, rfl⟩ | ⟨header, body, hread, -, hhandle⟩
  · simp [hread]
  · obtain ⟨sent, rfl, hsent⟩ := Discovery.out_handle hhandle
    rw [Discovery.callbacks_touch]
    simp only [hread, Option.some.injEq, Prod.mk.injEq, and_imp, List.mem_append]
    constructor
    · rintro hall _ _ rfl rfl args hargs
      exact hall args (.inr hargs)
    · rintro hall args (hargs | hargs)
      · exact (hsent _ hargs).elim
      · exact hall header body rfl rfl args hargs

/-- A sweep deletes the remote subscribers of the processes that expire. -/
theorem remote_exec_sweep {p : Process} {o : Outcome} {now : Timestamp} {throwsAt : List ℕ}
    (h : p.exec ⟨.sweep now, throwsAt⟩ = some o) (t q n : Str) :
    o.process.shared.remoteSubscribers.HasNode t q n ↔
      p.shared.remoteSubscribers.HasNode t q n ∧ ¬ p.discovery.Expired now q := by
  obtain ⟨d', out, hdr, hremote⟩ := hasNode_exec_discovered h rfl rfl
  rw [hremote]
  refine and_congr_right fun _ => ?_
  simp only [Discovery.mem_out_sweep hdr]
  constructor
  · intro hall hexpired
    exact hall _ ⟨q, hexpired, rfl⟩ ⟨rfl, fun habout => absurd rfl habout.1⟩
  · rintro hlive _ ⟨q', hexpired, hargs⟩ ⟨rfl, -⟩
    cases hargs
    exact hlive hexpired

theorem kept_control (hkept : Kept x) {topic procUuid nodeUuid data : Str} {throwsAt : List ℕ} {o : Outcome}
    (h : x.1.exec ⟨.control topic procUuid nodeUuid data, throwsAt⟩ = some o) :
    Kept (o.process, subscribersAfter x.1 ⟨.control topic procUuid nodeUuid data, throwsAt⟩ x.2) := by
  intro t q n hlive
  obtain ⟨hreceived, hlost⟩ := remote_exec_control h
  dsimp only [subscribersAfter] at hlive
  by_cases hr : Received throwsAt
  · obtain ⟨k, hk, hremote⟩ := hreceived hr
    rw [hremote, hasNode_applyControl]
    simp only [hr, hk, true_and, Except.ok.injEq] at hlive
    split_ifs at hlive with hkey hnew hend
    · exact .inr ⟨hnew, hkey⟩
    · exact .inl ⟨hkept t q n hlive, fun hc => hend hc.1⟩
    · exact .inl ⟨hkept t q n hlive, fun hc => hkey hc.2⟩
  · rw [hlost hr]
    rw [if_neg fun hc => hr hc.1] at hlive
    exact hkept t q n hlive

/-- Whoever is a subscriber after a datagram was one before, and no callback is about it: only a BYE and an UNADVERTISE
report a disconnection. -/
theorem subscribers_datagram {g : Datagram} {throwsAt : List ℕ} (hkeeps : KeepsSubscribers x ⟨.datagram g, throwsAt⟩)
    {t q n : Str} (hlive : subscribersAfter x.1 ⟨.datagram g, throwsAt⟩ x.2 t q n = true) :
    x.2 t q n = true ∧
      ∀ header body, Discovery.readMessage x.1.discovery.pUuid g.msg = some (header, some body) →
        ∀ args, .disconnection .msg args ∈ x.1.discovery.callbacks g.fromIp header.pUuid body → ¬ Drops t q n args := by
  dsimp only [subscribersAfter, KeepsSubscribers] at hlive hkeeps
  rcases hread : Discovery.readMessage x.1.discovery.pUuid g.msg with _ | ⟨header, _ | body⟩
  · simp only [hread] at hlive
    exact ⟨hlive, fun _ _ hread' => by cases hread'⟩
  · simp only [hread] at hlive
    exact ⟨hlive, fun _ _ hread' => by cases hread'⟩
  simp only [hread] at hlive hkeeps
  suffices hsuff : x.2 t q n = true ∧ ∀ args,
      .disconnection .msg args ∈ x.1.discovery.callbacks g.fromIp header.pUuid body → ¬ Drops t q n args by
    refine ⟨hsuff.1, fun header' body' hread' => ?_⟩
    cases hread'
    exact hsuff.2
  cases body with
  | bye =>
    rw [Bool.and_eq_true, decide_eq_true_eq] at hlive
    refine ⟨hlive.2, fun args hargs hdrops => hlive.1 ?_⟩
    rw [hdrops.1, Discovery.pUuid_of_mem_callbacks hargs]
  | unadvertise type m =>
    cases type with
    | msg =>
      have hlive : x.2 t q n = true := hlive
      refine ⟨hlive, fun args hargs hdrops => ?_⟩
      obtain ⟨hshown, hcb, rfl⟩ := Discovery.mem_callbacks_unadvertise hargs
      rw [hkeeps hshown hcb t q n hdrops] at hlive
      cases hlive
    | srv =>
      exact ⟨hlive, fun args hargs => absurd hargs (Discovery.not_mem_callbacks (by simp) (by simp))⟩
  | _ => exact ⟨hlive, fun args hargs => absurd hargs (Discovery.not_mem_callbacks (by simp) (by simp))⟩

theorem kept_step (hkept : Kept x) (h : subscribedStep x e = some y) (hkeeps : KeepsSubscribers x e) : Kept y := by
  obtain ⟨hstep, hsubscribers⟩ := tracked_eq_some.mp h
  obtain ⟨o, hexec, hy⟩ := Option.map_eq_some_iff.mp hstep
  obtain rfl : y = (o.process, subscribersAfter x.1 e x.2) := Prod.ext hy.symm hsubscribers
  obtain ⟨op, throwsAt⟩ := e
  intro t q n hlive
  cases hthread : op.OnServiceThread with
  | false =>
    rw [remote_exec_entry hexec hthread]
    cases op with
    | datagram | sweep | heartbeat | control => cases hthread
    | _ => exact hkept t q n hlive
  | true =>
    cases op with
    | control topic procUuid nodeUuid data => exact kept_control hkept hexec t q n hlive
    | datagram g =>
      obtain ⟨hlive, hstays⟩ := subscribers_datagram hkeeps hlive
      exact (remote_exec_datagram hexec t q n).mpr ⟨hkept t q n hlive, hstays⟩
    | heartbeat =>
      obtain ⟨d', out, hdr, hremote⟩ := hasNode_exec_discovered hexec rfl rfl
      exact (hremote t q n).mpr ⟨hkept t q n hlive, fun args hargs => (Discovery.isDatagram_heartbeat hdr _ hargs).elim⟩
    | sweep now =>
      dsimp only [subscribersAfter] at hlive
      rw [Bool.and_eq_true, Bool.not_eq_true', decide_eq_false_iff_not] at hlive
      exact (remote_exec_sweep hexec t q n).mpr ⟨hkept t q n hlive.2, hlive.1⟩
    | _ => cases hthread

/-- An UNADVERTISE about a subscriber cancels its subscription. -/
theorem not_kept_step (h : subscribedStep x e = some y) (hbad : ¬ KeepsSubscribers x e) : ¬ Kept y := by
  obtain ⟨hstep, hsubscribers⟩ := tracked_eq_some.mp h
  obtain ⟨o, hexec, hy⟩ := Option.map_eq_some_iff.mp hstep
  intro hkept
  obtain ⟨op, throwsAt⟩ := e
  cases op with
  | datagram g =>
    dsimp only [KeepsSubscribers] at hbad
    rcases hread : Discovery.readMessage x.1.discovery.pUuid g.msg with _ | ⟨header, _ | body⟩
    · simp [hread] at hbad
    · simp [hread] at hbad
    · simp only [hread] at hbad
      cases body with
      | unadvertise type m =>
        cases type with
        | msg =>
          push Not at hbad
          obtain ⟨hshown, hcb, t, q, n, hdrops, hlive⟩ := hbad
          have hlive' : y.2 t q n = true := by
            rw [hsubscribers]
            simp only [subscribersAfter, hread]
            simpa using hlive
          have hnode := hkept t q n hlive'
          rw [← hy, remote_exec_datagram hexec] at hnode
          refine hnode.2 header _ hread _ ?_ hdrops
          dsimp only [Discovery.callbacks]
          rw [if_pos ⟨hshown, hcb⟩]
          exact List.mem_singleton.mpr rfl
        | srv => exact hbad trivial
      | _ => exact hbad trivial
  | _ => exact hbad trivial

/-- **Subscribers stay**: every state of a run has all subscribers registered exactly when no UNADVERTISE that is
dispatched is about a subscriber. -/
theorem subscribers_kept_iff (shared : NodeShared) (hostAddr : Str) (es : List Event)
    (hrun : (run step (start shared hostAddr) es).isSome) :
    Always subscribedStep (fun _ x => Kept x) (start shared hostAddr, fun _ _ _ => false) es ↔
      Along subscribedStep (fun _ x e => KeepsSubscribers x e) (start shared hostAddr, fun _ _ _ => false) es := by
  obtain ⟨x, hx⟩ := exists_run_tracked subscribersAfter (fun _ _ _ => false) hrun
  refine always_iff_along (fun _ x => Kept x) (fun _ => True) ?_ (fun _ _ h => h) ?_ ?_ (fun _ _ => trivial) hx
  · rintro t q n ⟨⟩
  · exact fun pre x e y _ hkept hstep hgood => kept_step hkept hstep hgood
  · exact fun pre x e y _ _ hstep hbad => not_kept_step hstep hbad

/-- A remote node subscribes to 't', which it also publishes, and stops publishing it. -/
def subscribedAndUnadvertised : List Event :=
  setCallbacks ++ [
    { op := .control (ascii ['@', '@', '/', 't']) (uuidOf 7).1 (uuidOf 8).1 (toDecimal NewConnection.toNat) },
    { op := .datagram ⟨[], 0, ((Discovery.start (uuidOf 7).1 []).advMsg UnadvType (ascii ['@', '@', '/', 't']) [7, 1]
      [7, 2] (uuidOf 8).1 .all 0).encode⟩ }]

theorem subscribers_kept_unadvertised :
    Always subscribedStep (fun _ x => Kept x) (start (sample ⟨65, by decide⟩) [], fun _ _ _ => false)
        subscribedAndUnadvertised ↔
      Along subscribedStep (fun _ x e => KeepsSubscribers x e)
        (start (sample ⟨65, by decide⟩) [], fun _ _ _ => false) subscribedAndUnadvertised :=
  subscribers_kept_iff _ _ _ (by decide +kernel)

/-- The subscriber is no longer registered. -/
theorem subscriber_lost : ∃ x, run subscribedStep (start (sample ⟨65, by decide⟩) [], fun _ _ _ => false)
    subscribedAndUnadvertised = some x ∧ ¬ Kept x := by
  have hlost : (run subscribedStep (start (sample ⟨65, by decide⟩) [], fun _ _ _ => false)
      subscribedAndUnadvertised).any (fun x =>
        x.2 (ascii ['@', '@', '/', 't']) (uuidOf 7).1 (uuidOf 8).1 = true ∧
          ¬ x.1.shared.remoteSubscribers.HasNode (ascii ['@', '@', '/', 't']) (uuidOf 7).1 (uuidOf 8).1) = true := by
    decide +kernel
  obtain ⟨x, hx, hlisted, hlost⟩ := exists_of_any hlost
  exact ⟨x, hx, fun hkept => hlost (hkept _ _ _ hlisted)⟩

end Subscribers

end Process

end IgnTransport
