import Mathlib
import IgnTransport.NodeTables

/-!
# IgnTransport.Advertisements — what the nodes advertise and what the discovery service offers for them

`Advertise` adds a name to a set of the node and an entry to the discovery service, `Unadvertise` takes both back.
`UnadvertiseSrv` takes the name from the services and from the repliers, but the entry of the *message* of this name
from the discovery service.

* `advertisements_agree_iff`: sets, repliers and discovery agree along a run exactly when no `UnadvertiseSrv` finds its
  name among the services or the topics of its node, and no node ends that offers a service.
-/

namespace IgnTransport

open Lib

namespace Process

/-! ## Agreement -/

section Agreement

/-- The advertised topics are the offered ones; the services are, and have a replier. -/
def Agrees (p : Process) : Prop :=
  ∀ n T, (T ∈ p.advertised n ↔ p.Offers .msg n T) ∧ (T ∈ p.services n ↔ p.Offers .srv n T) ∧
    (p.Offers .srv n T ↔ p.shared.repliers.cell T n ≠ ∅)

/-- What happens keeps the agreement: no service is unadvertised of which a node has the service, or a topic of its
name, and no node ends that has a service. -/
def KeepsAgreement (p : Process) : Life → Prop
  | .event e =>
    match e.op with
    | .unadvertiseSrv n topic => ∀ T, p.fqn n topic = some T → T ∉ p.services n ∧ T ∉ p.advertised n
    | _ => True
  | .destroy n => ∀ T, T ∉ p.services n

/-- An operation on the services of a node. -/
def Op.OnService : Op → Prop
  | .advertiseSrv .. | .unadvertiseSrv .. => True
  | _ => False

/-- An operation on the advertised topics of a node. -/
def Op.OnMessage : Op → Prop
  | .advertise .. | .unadvertise .. => True
  | _ => False

/-- An operation on services leaves the advertised topics alone, and one on topics the services. -/
def Apart (p : Process) : Life → Prop
  | .event e => ∀ p', p.step e = some p' →
    (e.op.OnService → ∀ n T, (T ∈ p'.advertised n ↔ T ∈ p.advertised n) ∧
      (p'.Offers .msg n T ↔ p.Offers .msg n T)) ∧
    (e.op.OnMessage → ∀ n T, (T ∈ p'.services n ↔ T ∈ p.services n) ∧ (p'.Offers .srv n T ↔ p.Offers .srv n T) ∧
      (p'.shared.repliers.cell T n ≠ ∅ ↔ p.shared.repliers.cell T n ≠ ∅))
  | .destroy _ => True

end Agreement

/-! ## Steps -/

section Steps

variable {p p' : Process} {e : Event} {o : Outcome}

theorem offers_msg_exec (h : p.exec e = some o) (hown : OwnKept p) (n T : Str) : o.process.Offers .msg n T ↔
    (∃ topic scope, e.op = .advertise n topic scope ∧ p.fqn n topic = some T) ∨
      (p.Offers .msg n T ∧ ¬ ∃ topic, (e.op = .unadvertise n topic ∨ e.op = .unadvertiseSrv n topic) ∧
        p.fqn n topic = some T) := by
  rw [offers_exec h hown, discoveryOp_eq_advertise, ne_eq, discoveryOp_eq_unadvertise]
  simp

/-- **Nothing takes an offered service back.** -/
theorem offers_srv_exec (h : p.exec e = some o) (hown : OwnKept p) (n T : Str) : o.process.Offers .srv n T ↔
    (∃ topic u scope, e.op = .advertiseSrv n topic u scope ∧ p.fqn n topic = some T) ∨ p.Offers .srv n T := by
  rw [offers_exec h hown, discoveryOp_eq_advertise, ne_eq, discoveryOp_eq_unadvertise]
  simp

theorem agrees_iff (hkept : NodesKept p) : p.Agrees ↔
    ∀ n T, (T ∈ p.advertised n ↔ p.Offers .msg n T) ∧ (T ∈ p.services n ↔ p.Offers .srv n T) := by
  refine forall_congr' fun n => forall_congr' fun T => and_congr_right fun _ => ?_
  rw [hkept.repliers]
  exact and_iff_left_of_imp Iff.symm

theorem agrees_exec (h : p.exec e = some o) (hkept : NodesKept p) (hagrees : p.Agrees)
    (hgood : p.KeepsAgreement (.event e)) : o.process.Agrees := by
  rw [agrees_iff (nodesKept_exec h hkept)]
  rw [agrees_iff hkept] at hagrees
  have hfound : ∀ {n topic T : Str}, e.op = .unadvertiseSrv n topic → p.fqn n topic = some T →
      T ∉ p.services n ∧ T ∉ p.advertised n := by
    intro n topic T hop hname
    simp only [KeepsAgreement, hop] at hgood
    exact hgood T hname
  intro n T
  obtain ⟨hmsg, hsrv⟩ := hagrees n T
  rw [mem_advertised_exec h, mem_services_exec h, offers_msg_exec h hkept.own, offers_srv_exec h hkept.own, ← hmsg,
    ← hsrv]
  constructor
  · refine or_congr Iff.rfl (and_congr_right fun hT => not_congr ?_)
    constructor
    · rintro ⟨topic, hop, hname⟩
      exact ⟨topic, .inl hop, hname⟩
    · rintro ⟨topic, hop | hop, hname⟩
      · exact ⟨topic, hop, hname⟩
      · exact absurd hT (hfound hop hname).2
  · refine or_congr Iff.rfl (and_iff_left_of_imp fun hT => ?_)
    rintro ⟨topic, hop, hname⟩
    exact (hfound hop hname).1 hT

/-- An `UnadvertiseSrv` that finds its name breaks the agreement. -/
theorem not_agrees_exec (h : p.exec e = some o) (hkept : NodesKept p) (hagrees : p.Agrees)
    (hbad : ¬ p.KeepsAgreement (.event e)) : ¬ o.process.Agrees := by
  intro hafter
  obtain ⟨op, throwsAt⟩ := e
  cases op with
  | unadvertiseSrv n topic =>
    simp only [KeepsAgreement, not_forall] at hbad
    obtain ⟨T, hname, hfound⟩ := hbad
    have hremoved : ∃ topic', (Op.unadvertiseSrv n topic = .unadvertiseSrv n topic') ∧ p.fqn n topic' = some T :=
      ⟨topic, rfl, hname⟩
    by_cases hT : T ∈ p.services n
    · -- the service is gone from the node but still offered
      have hoffers := (offers_srv_exec h hkept.own n T).mpr (.inr ((hagrees n T).2.1.mp hT))
      rcases (mem_services_exec h n T).mp ((hafter n T).2.1.mpr hoffers) with ⟨_, _, _, heq, -⟩ | ⟨-, hnot⟩
      · cases heq
      · exact hnot hremoved
    · -- the topic of this name is still advertised but no longer offered
      have hadv : T ∈ p.advertised n := by
        by_contra hadv
        exact hfound ⟨hT, hadv⟩
      have hadv' : T ∈ o.process.advertised n := (mem_advertised_exec h n T).mpr (.inr ⟨hadv, by simp⟩)
      rcases (offers_msg_exec h hkept.own n T).mp ((hafter n T).1.mp hadv') with ⟨_, _, heq, -⟩ | ⟨-, hnot⟩
      · cases heq
      · exact hnot ⟨topic, .inr rfl, hname⟩
  | _ => exact hbad trivial

theorem apart_exec (hkept : NodesKept p) (hagrees : p.Agrees) (hgood : p.KeepsAgreement (.event e)) :
    p.Apart (.event e) := by
  intro p' hstep
  obtain ⟨o, h, rfl⟩ := Option.map_eq_some_iff.mp hstep
  refine ⟨fun hservice n T => ?_, fun hmessage n T => ?_⟩
  · rw [mem_advertised_exec h, offers_msg_exec h hkept.own]
    obtain ⟨op, throwsAt⟩ := e
    cases op with
    | advertiseSrv m topic u scope => simp
    | unadvertiseSrv m topic =>
      refine ⟨by simp, ?_⟩
      constructor
      · rintro (⟨_, _, heq, -⟩ | hold)
        · cases heq
        · exact hold.1
      · refine fun hoffers => .inr ⟨hoffers, ?_⟩
        rintro ⟨topic', heq | heq, hname⟩
        · cases heq
        · cases heq
          exact (hgood T hname).2 ((hagrees n T).1.mpr hoffers)
    | _ => exact hservice.elim
  · rw [mem_services_exec h, offers_srv_exec h hkept.own, hasRepliers_exec h]
    obtain ⟨op, throwsAt⟩ := e
    cases op with
    | advertise | unadvertise => simp
    | _ => exact hmessage.elim

end Steps

/-! ## Runs -/

section Runs

variable {p p' : Process} {n : Str}

/-- The loops of the destructor that keep the agreement. -/
theorem agrees_forTopics (op : Str → Op) (hop : ∀ topic q, KeepsAgreement q (.event { op := op topic }))
    {topics : List Str} (hkept : NodesKept p) (hagrees : p.Agrees) (h : p.forTopics op topics noThrow = some p') :
    NodesKept p' ∧ p'.Agrees := by
  induction topics generalizing p with
  | nil =>
    obtain rfl : p = p' := Option.some.inj h
    exact ⟨hkept, hagrees⟩
  | cons topic topics ih =>
    obtain ⟨q, hstep, hrun⟩ := run_cons_eq_some.mp h
    obtain ⟨o, -, ho, -, rfl⟩ := stepNoexcept_eq_some.mp hstep
    exact ih (nodesKept_exec ho hkept) (agrees_exec ho hkept hagrees (hop topic p)) hrun

theorem offers_srv_forTopics {op : Str → Op} {topics : List Str} {T : Str} (hown : OwnKept p)
    (hoffers : p.Offers .srv n T) (h : p.forTopics op topics noThrow = some p') :
    OwnKept p' ∧ p'.Offers .srv n T := by
  refine run_invariant (fun q => OwnKept q ∧ q.Offers .srv n T) ⟨hown, hoffers⟩ ?_ h
  rintro q e q' ⟨hown, hoffers⟩ hstep
  obtain ⟨o, -, ho, -, rfl⟩ := stepNoexcept_eq_some.mp hstep
  exact ⟨ownKept_exec ho hown, (offers_srv_exec ho hown n T).mpr (.inr hoffers)⟩

theorem mem_erased_iff (set : Node → StrSet) (p : Process) (n m T : Str) :
    T ∈ ((p.nodes.erase n)[m]?).elim ∅ set ↔ m ≠ n ∧ T ∈ (p.nodes[m]?).elim ∅ set := by
  rw [getElem?_erase']
  split_ifs with hm
  · simp [hm]
  · simp [hm]

theorem agrees_destroy (hkept : NodesKept p) (hagrees : p.Agrees) (hgood : p.KeepsAgreement (.destroy n))
    (h : p.destroyNode n noThrow = some p') : p'.Agrees := by
  obtain ⟨p₁, p₂, p₃, hrun₁, hrun₂, hrun₃, rfl, hkept₃, hempty, hshrunk⟩ := destroyNode_leaves hkept h
  obtain ⟨hkept₁, hagrees₁⟩ := agrees_forTopics (.unsubscribe n) (fun _ _ => trivial) hkept hagrees hrun₁
  obtain ⟨-, hagrees₂⟩ := agrees_forTopics (.unadvertise n) (fun _ _ => trivial) hkept₁ hagrees₁ hrun₂
  -- there is no service for the last loop
  have hnone : p₂.advertisedServices n = [] :=
    toList_map_eq_nil.mpr fun T hT => hgood T ((hshrunk.keeps T).2.2 hT)
  rw [hnone] at hrun₃
  obtain rfl : p₂ = p₃ := Option.some.inj hrun₃
  intro m T
  obtain ⟨hmsg, hsrv, hrep⟩ := hagrees₂ m T
  have hoffers : ∀ type, Offers { p₂ with nodes := p₂.nodes.erase n } type m T ↔ p₂.Offers type m T :=
    fun _ => Iff.rfl
  unfold advertised services
  rw [mem_erased_iff, mem_erased_iff, hoffers, hoffers]
  refine ⟨?_, ?_, hrep⟩
  · rw [← hmsg]
    refine and_iff_right_of_imp fun hT hm => ?_
    exact hempty T (.inr (.inl (hm ▸ hT)))
  · rw [← hsrv]
    refine and_iff_right_of_imp fun hT hm => ?_
    exact hempty T (.inr (.inr (hm ▸ hT)))

/-- The services of a node that ends are offered for ever. -/
theorem not_agrees_destroy (hkept : NodesKept p) (hagrees : p.Agrees) (hbad : ¬ p.KeepsAgreement (.destroy n))
    (h : p.destroyNode n noThrow = some p') : ¬ p'.Agrees := by
  obtain ⟨p₁, p₂, p₃, hrun₁, hrun₂, hrun₃, rfl, -⟩ := destroyNode_leaves hkept h
  simp only [KeepsAgreement, not_forall, not_not] at hbad
  obtain ⟨T, hT⟩ := hbad
  obtain ⟨hown₁, hoffers₁⟩ := offers_srv_forTopics hkept.own ((hagrees n T).2.1.mp hT) hrun₁
  obtain ⟨hown₂, hoffers₂⟩ := offers_srv_forTopics hown₁ hoffers₁ hrun₂
  obtain ⟨-, hoffers₃⟩ := offers_srv_forTopics hown₂ hoffers₂ hrun₃
  intro hafter
  have hserved : T ∈ services { p₃ with nodes := p₃.nodes.erase n } n := (hafter n T).2.1.mpr hoffers₃
  exact ((mem_erased_iff _ p₃ n n T).mp hserved).1 rfl

theorem agrees_start (shared : NodeShared) (hostAddr : Str) : (start shared hostAddr).Agrees := by
  rw [agrees_iff (nodesKept_start shared hostAddr)]
  intro n T
  have hnone : ∀ type, ¬ (start shared hostAddr).Offers type n T := by
    intro type
    cases type <;> exact TopicStorage.not_hasNode_empty _ _ _
  exact ⟨iff_of_false (mem_elim_empty _ T n) (hnone _), iff_of_false (mem_elim_empty _ T n) (hnone _)⟩

/-- **Sets, repliers and discovery agree** in every state of a run, and services and topics stay apart in every step,
exactly when no `UnadvertiseSrv` finds its name among the services or the advertised topics of its node and no node ends
that has a service. -/
theorem advertisements_agree_iff (shared : NodeShared) (hostAddr : Str) (ls : List Life)
    (hrun : (run live (start shared hostAddr) ls).isSome) :
    (Always live (fun _ p => p.Agrees) (start shared hostAddr) ls ∧
        Along live (fun _ p l => p.Apart l) (start shared hostAddr) ls) ↔
      Along live (fun _ p l => p.KeepsAgreement l) (start shared hostAddr) ls := by
  obtain ⟨p, hp⟩ := Option.isSome_iff_exists.mp hrun
  have hiff : Always live (fun _ p => p.Agrees) (start shared hostAddr) ls ↔
      Along live (fun _ p l => p.KeepsAgreement l) (start shared hostAddr) ls := by
    refine always_iff_along (fun _ p => NodesKept p ∧ p.Agrees) (fun _ => True)
      ⟨nodesKept_start shared hostAddr, agrees_start shared hostAddr⟩ (fun _ _ h => h.2) ?_ ?_
      (fun _ _ => trivial) hp
    · rintro pre p l p' - ⟨hkept, hagrees⟩ hlive hgood
      refine ⟨nodesKept_live hkept hlive, ?_⟩
      cases l with
      | event e =>
        obtain ⟨o, ho, rfl⟩ := Option.map_eq_some_iff.mp hlive
        exact agrees_exec ho hkept hagrees hgood
      | destroy n => exact agrees_destroy hkept hagrees hgood hlive
    · rintro pre p l p' - ⟨hkept, hagrees⟩ hlive hbad
      cases l with
      | event e =>
        obtain ⟨o, ho, rfl⟩ := Option.map_eq_some_iff.mp hlive
        exact not_agrees_exec ho hkept hagrees hbad
      | destroy n => exact not_agrees_destroy hkept hagrees hbad hlive
  refine ⟨fun h => hiff.mp h.1, fun halong => ⟨hiff.mpr halong, fun pre l q hpre hq => ?_⟩⟩
  have hagrees := hiff.mpr halong pre q ((List.prefix_append pre [l]).trans hpre) hq
  cases l with
  | event e => exact apart_exec (nodesKept_run hq) hagrees (halong pre _ q hpre hq)
  | destroy n => exact trivial

/-- A node advertises the service 's' and unadvertises it. -/
def serviceOnce : List Life :=
  let es : List Event := setCallbacks ++ [{ op := .construct (uuidOf 1) none none },
    { op := .advertiseSrv (uuidOf 1).1 (ascii ['s']) [4] .all }, { op := .unadvertiseSrv (uuidOf 1).1 (ascii ['s']) }]
  es.map .event

theorem advertisements_agree_once :
    (Always live (fun _ p => p.Agrees) (start (sample ⟨65, by decide⟩) []) serviceOnce ∧
        Along live (fun _ p l => p.Apart l) (start (sample ⟨65, by decide⟩) []) serviceOnce) ↔
      Along live (fun _ p l => p.KeepsAgreement l) (start (sample ⟨65, by decide⟩) []) serviceOnce :=
  advertisements_agree_iff _ _ _ (by decide +kernel)

/-- The service is still offered. -/
theorem service_still_offered :
    ∃ p, run live (start (sample ⟨65, by decide⟩) []) serviceOnce = some p ∧ ¬ p.Agrees := by
  have hstale : (run live (start (sample ⟨65, by decide⟩) []) serviceOnce).any (fun p =>
      ascii ['@', '@', '/', 's'] ∉ p.services (uuidOf 1).1 ∧
        p.discovery.infoSrv.HasNode (ascii ['@', '@', '/', 's']) p.shared.pUuid (uuidOf 1).1) = true := by
    decide +kernel
  obtain ⟨p, hp, hgone, hoffered⟩ := exists_of_any hstale
  exact ⟨p, hp, fun hagrees => hgone ((hagrees _ _).2.1.mpr hoffered)⟩

end Runs

end Process

end IgnTransport
