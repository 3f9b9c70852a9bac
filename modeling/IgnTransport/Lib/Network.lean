import Mathlib
import IgnTransport.Lib.Run

/-!
# Lib.Network — agents that exchange packets over an unreliable network

Each agent runs a partial program that takes an input at a time and puts out packets; an input may consume packets of
other agents.  The network remembers every packet ever sent, and lets any of them be consumed at any time, any number
of times, by anyone or by nobody: packets may be lost, delayed, duplicated and reordered, but not made up.

`net_invariant` is the assume-guarantee rule: if an agent that gets good packets only keeps its invariant and sends
good packets only, all agents keep their invariants and all packets are good.  `run_agent` says that what an agent goes
through is a run of its own program, and `run_outputs` is the rule for what it sends whatever it receives.
-/

namespace Lib

variable {ι S I P : Type}

/-- The agents, and the packets that they have sent so far. -/
structure Net (ι S P : Type) where
  agents : ι → S
  sent : List (ι × P) := []

/-- One agent takes an input. -/
structure NetEvent (ι I : Type) where
  agent : ι
  input : I
  deriving DecidableEq, Repr

variable [DecidableEq ι]

/-- The network after an agent came to a new state and sent packets. -/
def Net.update (n : Net ι S P) (i : ι) (r : S × List P) : Net ι S P where
  agents := Function.update n.agents i r.1
  sent := n.sent ++ r.2.map fun p => (i, p)

/-- One step: whatever an input consumes was sent before. -/
def netStep [DecidableEq P] (program : ι → S → I → Option (S × List P)) (consumes : I → List (ι × P)) (n : Net ι S P)
    (e : NetEvent ι I) : Option (Net ι S P) :=
  if ∀ x ∈ consumes e.input, x ∈ n.sent then (program e.agent (n.agents e.agent) e.input).map (n.update e.agent)
  else none

/-- What an agent has sent, in order. -/
def Net.outputs (n : Net ι S P) (i : ι) : List P := n.sent.filterMap fun x => if x.1 = i then some x.2 else none

/-- The inputs of an agent. -/
def inputsOf (i : ι) (es : List (NetEvent ι I)) : List I :=
  es.filterMap fun e => if e.agent = i then some e.input else none

/-- An agent on its own. -/
def agentStep (program : ι → S → I → Option (S × List P)) (i : ι) (s : S) (x : I) : Option S :=
  (program i s x).map Prod.fst

/-! ## What was sent before -/

section Order

variable {R R' : List P → P → Prop} {l m : List P}

/-- `R` holds of every packet of a list and those that come before it. -/
def EachAfter (R : List P → P → Prop) (l : List P) : Prop := ∀ pre x post, l = pre ++ x :: post → R pre x

theorem eachAfter_nil : EachAfter R [] := fun _ _ _ h => absurd h (by simp)

theorem eachAfter_of_forall (h : ∀ x ∈ l, ∀ pre, R pre x) : EachAfter R l :=
  fun pre x _ heq => h x (by rw [heq]; simp) pre

theorem EachAfter.mono (h : EachAfter R l) (hR : ∀ pre x, R pre x → R' pre x) : EachAfter R' l :=
  fun pre x post heq => hR pre x (h pre x post heq)

/-- What is sent later comes after all that was sent before. -/
theorem EachAfter.append (h : EachAfter R l) (hm : EachAfter (fun pre => R (l ++ pre)) m) : EachAfter R (l ++ m) := by
  intro pre x post heq
  rcases List.append_eq_append_iff.mp heq with ⟨as, rfl, hlater⟩ | ⟨bs, hl, hbs⟩
  · exact hm as x post hlater
  · cases bs with
    | nil =>
      rw [List.append_nil] at hl
      have hfirst : R (l ++ []) x := hm [] x post (by rw [List.nil_append]; exact hbs.symm)
      rwa [List.append_nil, hl] at hfirst
    | cons y ys =>
      obtain ⟨rfl, -⟩ := List.cons.inj hbs
      exact h pre x ys hl

end Order

/-! ## Steps -/

section Steps

theorem agents_update_self (n : Net ι S P) (i : ι) (r : S × List P) : (n.update i r).agents i = r.1 :=
  Function.update_self ..

theorem agents_update_of_ne (n : Net ι S P) {i j : ι} (h : j ≠ i) (r : S × List P) :
    (n.update i r).agents j = n.agents j := Function.update_of_ne h ..

theorem mem_sent_update {n : Net ι S P} {i : ι} {r : S × List P} {x : ι × P} :
    x ∈ (n.update i r).sent ↔ x ∈ n.sent ∨ (x.1 = i ∧ x.2 ∈ r.2) := by
  simp only [Net.update, List.mem_append, List.mem_map]
  refine or_congr_right ⟨?_, ?_⟩
  · rintro ⟨p, hp, rfl⟩
    exact ⟨rfl, hp⟩
  · rintro ⟨rfl, hx⟩
    exact ⟨x.2, hx, rfl⟩

theorem mem_outputs {n : Net ι S P} {i : ι} {p : P} : p ∈ n.outputs i ↔ (i, p) ∈ n.sent := by
  rw [Net.outputs, List.mem_filterMap]
  constructor
  · rintro ⟨x, hx, heq⟩
    split_ifs at heq with hi
    obtain rfl := Option.some.inj heq
    exact hi ▸ hx
  · exact fun hx => ⟨_, hx, if_pos rfl⟩

theorem outputs_update_self (n : Net ι S P) (i : ι) (r : S × List P) :
    (n.update i r).outputs i = n.outputs i ++ r.2 := by
  rw [Net.outputs, Net.update, List.filterMap_append, List.filterMap_map]
  refine congrArg _ ?_
  exact (List.filterMap_congr fun p _ => if_pos rfl).trans List.filterMap_some

theorem outputs_update_of_ne (n : Net ι S P) {i j : ι} (h : j ≠ i) (r : S × List P) :
    (n.update i r).outputs j = n.outputs j := by
  rw [Net.outputs, Net.update, List.filterMap_append, List.filterMap_map]
  refine (congrArg _ ?_).trans (List.append_nil _)
  exact List.filterMap_eq_nil_iff.mpr fun p _ => if_neg h.symm

variable [DecidableEq P] {program : ι → S → I → Option (S × List P)} {consumes : I → List (ι × P)}
  {n n' : Net ι S P} {e : NetEvent ι I}

/-- What a step does. -/
theorem netStep_eq_some : netStep program consumes n e = some n' ↔ (∀ x ∈ consumes e.input, x ∈ n.sent) ∧
    ∃ s out, program e.agent (n.agents e.agent) e.input = some (s, out) ∧ n' = n.update e.agent (s, out) := by
  unfold netStep
  split_ifs with hsent
  · rw [Option.map_eq_some_iff]
    constructor
    · rintro ⟨⟨s, out⟩, hrun, rfl⟩
      exact ⟨hsent, s, out, hrun, rfl⟩
    · rintro ⟨-, s, out, hrun, rfl⟩
      exact ⟨(s, out), hrun, rfl⟩
  · exact iff_of_false (fun h => by cases h) fun h => hsent h.1

/-- An agent can take an input if its program can, once what the input consumes was sent. -/
theorem isSome_netStep : (netStep program consumes n e).isSome ↔
    (∀ x ∈ consumes e.input, x ∈ n.sent) ∧ (program e.agent (n.agents e.agent) e.input).isSome := by
  unfold netStep
  split_ifs with hsent
  · rw [Option.isSome_map]
    exact (and_iff_right hsent).symm
  · exact iff_of_false (fun h => by cases h) fun h => hsent h.1

/-- The other agents do not notice. -/
theorem agents_netStep_of_ne (h : netStep program consumes n e = some n') {i : ι} (hi : i ≠ e.agent) :
    n'.agents i = n.agents i := by
  obtain ⟨-, s, out, -, rfl⟩ := netStep_eq_some.mp h
  exact agents_update_of_ne n hi _

end Steps

/-! ## Runs -/

section Runs

variable [DecidableEq P] {program : ι → S → I → Option (S × List P)} {consumes : I → List (ι × P)} {n₀ n : Net ι S P}
  {es : List (NetEvent ι I)}

/-- **What an agent goes through is a run of its own program.** -/
theorem run_agent (h : run (netStep program consumes) n₀ es = some n) (i : ι) :
    run (agentStep program i) (n₀.agents i) (inputsOf i es) = some (n.agents i) := by
  refine run_filterMap (fun m : Net ι S P => m.agents i) _ (fun m e m' hstep => ?_) h
  by_cases hi : e.agent = i
  · rw [if_pos hi]
    refine ⟨fun x hx => ?_, fun hnone => (by cases hnone)⟩
    rw [Option.some.injEq] at hx
    obtain ⟨-, s, out, hrun, rfl⟩ := netStep_eq_some.mp hstep
    subst hi hx
    rw [agents_update_self]
    exact congrArg (Option.map Prod.fst) hrun
  · rw [if_neg hi]
    exact ⟨fun _ hx => (by cases hx), fun _ => agents_netStep_of_ne hstep (Ne.symm hi)⟩

/-- **The assume-guarantee rule**, for invariants that may speak of the history. -/
theorem net_invariant (Local : List (NetEvent ι I) → ι → S → Prop) (Wire : List (NetEvent ι I) → ι → P → Prop)
    (hinit : ∀ i, Local [] i (n₀.agents i)) (hempty : n₀.sent = [])
    (hlocal : ∀ pre e i s, i ≠ e.agent → Local pre i s → Local (pre ++ [e]) i s)
    (hwire : ∀ pre e j p, Wire pre j p → Wire (pre ++ [e]) j p)
    (hstep : ∀ pre m (e : NetEvent ι I) s' out, run (netStep program consumes) n₀ pre = some m →
      Local pre e.agent (m.agents e.agent) → (∀ x ∈ consumes e.input, Wire pre x.1 x.2) →
        program e.agent (m.agents e.agent) e.input = some (s', out) →
          Local (pre ++ [e]) e.agent s' ∧ ∀ p ∈ out, Wire (pre ++ [e]) e.agent p)
    (h : run (netStep program consumes) n₀ es = some n) :
    (∀ i, Local es i (n.agents i)) ∧ ∀ x ∈ n.sent, Wire es x.1 x.2 := by
  refine (run_induct (fun pre m => run (netStep program consumes) n₀ pre = some m ∧
    (∀ i, Local pre i (m.agents i)) ∧ ∀ x ∈ m.sent, Wire pre x.1 x.2)
    ⟨rfl, hinit, fun x hx => by rw [hempty] at hx; cases hx⟩ (fun pre m e m' ih hnet => ?_) h).2
  obtain ⟨hpre, hagents, hsent⟩ := ih
  refine ⟨run_concat.mpr ⟨m, hpre, hnet⟩, ?_⟩
  obtain ⟨hconsumed, s, out, hrun, rfl⟩ := netStep_eq_some.mp hnet
  obtain ⟨hnext, hout⟩ := hstep pre m e s out hpre (hagents e.agent) (fun x hx => hsent x (hconsumed x hx)) hrun
  refine ⟨fun i => ?_, fun x hx => ?_⟩
  · by_cases hi : i = e.agent
    · rw [hi, agents_update_self]
      exact hnext
    · rw [agents_update_of_ne m hi]
      exact hlocal pre e i _ hi (hagents i)
  · rcases mem_sent_update.mp hx with hx | ⟨hi, hx⟩
    · exact hwire pre e x.1 x.2 (hsent x hx)
    · rw [hi]
      exact hout x.2 hx

/-- An invariant of what an agent has become and what it has sent, whatever it receives. -/
theorem run_outputs (Inv : ι → S → List P → Prop) (hinit : ∀ i, Inv i (n₀.agents i) (n₀.outputs i))
    (hstep : ∀ i s x s' out ps, Inv i s ps → program i s x = some (s', out) → Inv i s' (ps ++ out))
    (h : run (netStep program consumes) n₀ es = some n) (i : ι) : Inv i (n.agents i) (n.outputs i) := by
  refine run_invariant (fun m : Net ι S P => ∀ i, Inv i (m.agents i) (m.outputs i)) hinit
    (fun m e m' hm hnet => ?_) h i
  obtain ⟨-, s, out, hrun, rfl⟩ := netStep_eq_some.mp hnet
  intro i
  by_cases hi : i = e.agent
  · rw [hi, agents_update_self, outputs_update_self]
    exact hstep _ _ _ _ _ _ (hm e.agent) hrun
  · rw [agents_update_of_ne m hi, outputs_update_of_ne m hi]
    exact hm i

/-- What was sent stays sent. -/
theorem sent_mono {n' : Net ι S P} (h : run (netStep program consumes) n es = some n') {x : ι × P}
    (hx : x ∈ n.sent) : x ∈ n'.sent :=
  run_invariant (fun m : Net ι S P => x ∈ m.sent) hx (fun m e m' hm hstep => by
    obtain ⟨-, s, out, -, rfl⟩ := netStep_eq_some.mp hstep
    exact mem_sent_update.mpr (.inl hm)) h

/-- What was sent, was sent in some step. -/
theorem exists_step_of_sent (h : run (netStep program consumes) n₀ es = some n) (hempty : n₀.sent = []) {x : ι × P}
    (hx : x ∈ n.sent) : ∃ pre e m m' s out, pre ++ [e] <+: es ∧ run (netStep program consumes) n₀ pre = some m ∧
      run (netStep program consumes) n₀ (pre ++ [e]) = some m' ∧ e.agent = x.1 ∧
        program e.agent (m.agents e.agent) e.input = some (s, out) ∧ m'.agents e.agent = s ∧ x.2 ∈ out := by
  obtain ⟨pre, e, post, m, m', rfl, hm, hstep, hold, hnew⟩ :=
    exists_step_of_lost (P := fun m : Net ι S P => x ∉ m.sent) h (by rw [hempty]; exact List.not_mem_nil)
      fun hn => hn hx
  obtain ⟨-, s, out, hprogram, rfl⟩ := netStep_eq_some.mp hstep
  obtain ⟨hagent, hmem⟩ := (mem_sent_update.mp (not_not.mp hnew)).resolve_left hold
  exact ⟨pre, e, m, _, s, out, ⟨post, by simp⟩, hm, run_concat.mpr ⟨m, hm, hstep⟩, hagent.symm, hprogram,
    agents_update_self _ _ _, hmem⟩

/-- What a run consumed was sent. -/
theorem sent_of_consumed (h : run (netStep program consumes) n₀ es = some n) {e : NetEvent ι I} (he : e ∈ es)
    {x : ι × P} (hx : x ∈ consumes e.input) : x ∈ n.sent := by
  obtain ⟨pre, post, m, m', -, -, hstep, hpost⟩ := exists_step_of_mem h he
  obtain ⟨hconsumed, s, out, -, rfl⟩ := netStep_eq_some.mp hstep
  exact sent_mono hpost (mem_sent_update.mpr (.inl (hconsumed x hx)))

end Runs

end Lib
