import Mathlib

/-!
# Lib.Run — runs of a partial step function

A run is a list of events, and `run step s es` the state that it reaches, if every step is defined.  A property of a
reached state may speak of the events so far (its history).  `run_induct` is the invariant rule; `always_iff_along`
turns a step lemma with an exact condition into a run lemma: what is wanted holds all along a run exactly when every
step of the run meets the condition, and `holds_iff_since` the same for what comes and goes.  `run_simulates` is the
rule for two systems, and `view_run` the noninterference rule of a state that is seen through keys.
-/

namespace Lib

variable {S E : Type}

/-- The state that a list of events reaches. -/
def run (step : S → E → Option S) (s : S) : List E → Option S
  | [] => some s
  | e :: es => (step s e).bind fun s => run step s es

section Runs

variable {step : S → E → Option S}

@[simp] theorem run_nil (s : S) : run step s [] = some s := rfl

theorem run_cons_eq_some {s s' : S} {e : E} {es : List E} :
    run step s (e :: es) = some s' ↔ ∃ t, step s e = some t ∧ run step t es = some s' :=
  Option.bind_eq_some_iff

theorem run_append_eq_some {s s' : S} {es fs : List E} :
    run step s (es ++ fs) = some s' ↔ ∃ t, run step s es = some t ∧ run step t fs = some s' := by
  induction es generalizing s with
  | nil => simp
  | cons e es ih =>
    rw [List.cons_append, run_cons_eq_some]
    simp only [ih, run_cons_eq_some]
    constructor
    · rintro ⟨t, ht, u, hu, h⟩
      exact ⟨u, ⟨t, ht, hu⟩, h⟩
    · rintro ⟨u, ⟨t, ht, hu⟩, h⟩
      exact ⟨t, ht, u, hu, h⟩

theorem run_singleton {s s' : S} {e : E} : run step s [e] = some s' ↔ step s e = some s' := by
  rw [run_cons_eq_some]
  simp

/-- A run that ends with `e` makes that step last. -/
theorem run_concat {s s' : S} {es : List E} {e : E} :
    run step s (es ++ [e]) = some s' ↔ ∃ t, run step s es = some t ∧ step t e = some s' := by
  rw [run_append_eq_some]
  simp only [run_singleton]

/-- A prefix of a run is a run. -/
theorem run_prefix {s s' : S} {pre es : List E} (hpre : pre <+: es) (h : run step s es = some s') :
    ∃ t, run step s pre = some t := by
  obtain ⟨rest, rfl⟩ := hpre
  obtain ⟨t, ht, -⟩ := run_append_eq_some.mp h
  exact ⟨t, ht⟩

/-- **The invariant rule**, for an invariant that may speak of the history. -/
theorem run_induct (Inv : List E → S → Prop) {s₀ : S} (hinit : Inv [] s₀)
    (hstep : ∀ pre s e s', Inv pre s → step s e = some s' → Inv (pre ++ [e]) s') {es : List E} {s : S}
    (h : run step s₀ es = some s) : Inv es s := by
  induction es using List.reverseRecOn generalizing s with
  | nil => rw [run_nil, Option.some.injEq] at h; exact h ▸ hinit
  | append_singleton es e ih =>
    obtain ⟨t, ht, he⟩ := run_concat.mp h
    exact hstep es t e s (ih ht) he

/-- The invariant rule without history. -/
theorem run_invariant (Inv : S → Prop) {s₀ : S} (hinit : Inv s₀)
    (hstep : ∀ s e s', Inv s → step s e = some s' → Inv s') {es : List E} {s : S}
    (h : run step s₀ es = some s) : Inv s :=
  run_induct (fun _ s => Inv s) hinit (fun _ s e s' => hstep s e s') h

/-- A run of a total step function reaches a state. -/
theorem isSome_run_of_total (htotal : ∀ s e, (step s e).isSome) (s : S) (es : List E) : (run step s es).isSome := by
  induction es generalizing s with
  | nil => rfl
  | cons e es ih =>
    obtain ⟨t, ht⟩ := Option.isSome_iff_exists.mp (htotal s e)
    rw [run, ht]
    exact ih t

/-- Every event of a run makes a step of it. -/
theorem exists_step_of_mem {s s' : S} {es : List E} (h : run step s es = some s') {e : E} (he : e ∈ es) :
    ∃ pre post t u, es = pre ++ e :: post ∧ run step s pre = some t ∧ step t e = some u ∧
      run step u post = some s' := by
  obtain ⟨pre, post, rfl⟩ := List.append_of_mem he
  obtain ⟨t, ht, hrest⟩ := run_append_eq_some.mp h
  obtain ⟨u, hu, hpost⟩ := run_cons_eq_some.mp hrest
  exact ⟨pre, post, t, u, rfl, ht, hu, hpost⟩

/-- What a run loses, it loses in one of its steps. -/
theorem exists_step_of_lost {P : S → Prop} {s s' : S} {es : List E} (h : run step s es = some s') (hs : P s)
    (hs' : ¬ P s') : ∃ pre e post t u, es = pre ++ e :: post ∧ run step s pre = some t ∧ step t e = some u ∧
      P t ∧ ¬ P u := by
  induction es generalizing s with
  | nil => rw [run_nil, Option.some.injEq] at h; exact absurd (h ▸ hs) hs'
  | cons e es ih =>
    obtain ⟨t, ht, hrest⟩ := run_cons_eq_some.mp h
    by_cases hP : P t
    · obtain ⟨pre, e', post, u, v, rfl, hpre, hstep, hu, hv⟩ := ih hrest hP
      exact ⟨e :: pre, e', post, u, v, rfl, run_cons_eq_some.mpr ⟨t, ht, hpre⟩, hstep, hu, hv⟩
    · exact ⟨[], e, es, s, t, rfl, rfl, ht, hs, hP⟩

/-- A view of a run is a run, if the view of a step is a step or stays the same. -/
theorem run_filterMap {S' E' : Type} {step' : S' → E' → Option S'} (view : S → S') (op : E → Option E')
    (hstep : ∀ s e s', step s e = some s' → (∀ o, op e = some o → step' (view s) o = some (view s')) ∧
      (op e = none → view s' = view s)) {s s' : S} {es : List E} (h : run step s es = some s') :
    run step' (view s) (es.filterMap op) = some (view s') := by
  induction es generalizing s with
  | nil => rw [run_nil, Option.some.injEq] at h; rw [h]; rfl
  | cons e es ih =>
    obtain ⟨t, ht, hrest⟩ := run_cons_eq_some.mp h
    obtain ⟨hsome, hnone⟩ := hstep s e t ht
    cases hop : op e with
    | none =>
      rw [List.filterMap_cons_none hop, ← hnone hop]
      exact ih hrest
    | some o =>
      rw [List.filterMap_cons_some hop]
      exact run_cons_eq_some.mpr ⟨view t, hsome o hop, ih hrest⟩

/-- What an evaluation finds of the state that a run reaches. -/
theorem exists_of_any {o : Option S} {P : S → Prop} [DecidablePred P] (h : o.any (fun s => P s) = true) :
    ∃ s, o = some s ∧ P s := by
  obtain ⟨s, hs, hP⟩ := (Option.any_eq_true _ _).mp h
  exact ⟨s, hs, of_decide_eq_true hP⟩

end Runs

/-! ## History variables -/

section Tracked

variable {G : Type}

/-- A run that keeps account of its history in a variable of its own. -/
def tracked (step : S → E → Option S) (track : S → E → G → G) (x : S × G) (e : E) : Option (S × G) :=
  (step x.1 e).map fun s => (s, track x.1 e x.2)

theorem tracked_eq_some {step : S → E → Option S} {track : S → E → G → G} {x y : S × G} {e : E} :
    tracked step track x e = some y ↔ step x.1 e = some y.1 ∧ y.2 = track x.1 e x.2 := by
  rw [tracked, Option.map_eq_some_iff]
  constructor
  · rintro ⟨s, hs, rfl⟩
    exact ⟨hs, rfl⟩
  · rintro ⟨hs, hy⟩
    exact ⟨y.1, hs, by rw [← hy]⟩

/-- The history variable does not change what can run. -/
theorem map_run_tracked (step : S → E → Option S) (track : S → E → G → G) (x : S × G) (es : List E) :
    (run (tracked step track) x es).map Prod.fst = run step x.1 es := by
  induction es generalizing x with
  | nil => rfl
  | cons e es ih =>
    rw [run, run]
    cases hs : step x.1 e with
    | none => simp [tracked, hs]
    | some s =>
      simp only [tracked, hs, Option.map_some, Option.bind_some]
      exact ih (s, track x.1 e x.2)

theorem exists_run_tracked {step : S → E → Option S} (track : S → E → G → G) (g : G) {s : S} {es : List E}
    (h : (run step s es).isSome) : ∃ x, run (tracked step track) (s, g) es = some x := by
  obtain ⟨t, ht⟩ := Option.isSome_iff_exists.mp h
  obtain ⟨x, hx, -⟩ := Option.map_eq_some_iff.mp ((map_run_tracked step track (s, g) es).trans ht)
  exact ⟨x, hx⟩

end Tracked

/-! ## Properties along a run -/

section Along

variable (step : S → E → Option S)

/-- `P` holds in every state of the run. -/
def Always (P : List E → S → Prop) (s₀ : S) (es : List E) : Prop :=
  ∀ pre s, pre <+: es → run step s₀ pre = some s → P pre s

/-- `P` holds of every step of the run: of its history, the state before it and its event. -/
def Along (P : List E → S → E → Prop) (s₀ : S) (es : List E) : Prop :=
  ∀ pre e s, pre ++ [e] <+: es → run step s₀ pre = some s → P pre s e

/-- `P` holds of some step of the run. -/
def Sometime (P : List E → S → E → Prop) (s₀ : S) (es : List E) : Prop :=
  ∃ pre e s, pre ++ [e] <+: es ∧ run step s₀ pre = some s ∧ P pre s e

variable {step}

/-- What was done at some time was done before the last event, or is done by it. -/
theorem sometime_concat {P : List E → S → E → Prop} {s₀ : S} {es : List E} {e : E} :
    Sometime step P s₀ (es ++ [e]) ↔ Sometime step P s₀ es ∨ ∃ s, run step s₀ es = some s ∧ P es s e := by
  constructor
  · rintro ⟨pre, e', s, hpre, hs, hP⟩
    rcases List.prefix_concat_iff.mp hpre with heq | hpre
    · obtain ⟨rfl, hlast⟩ := List.append_inj' heq rfl
      obtain rfl : e' = e := by simpa using hlast
      exact .inr ⟨s, hs, hP⟩
    · exact .inl ⟨pre, e', s, hpre, hs, hP⟩
  · rintro (⟨pre, e', s, hpre, hs, hP⟩ | ⟨s, hs, hP⟩)
    · exact ⟨pre, e', s, hpre.trans (List.prefix_append es [e]), hs, hP⟩
    · exact ⟨es, e, s, List.prefix_rfl, hs, hP⟩

theorem Sometime.concat {P : List E → S → E → Prop} {s₀ : S} {es : List E} (h : Sometime step P s₀ es) (e : E) :
    Sometime step P s₀ (es ++ [e]) := sometime_concat.mpr (.inl h)

theorem Sometime.mono {P Q : List E → S → E → Prop} {s₀ : S} {es : List E} (h : Sometime step P s₀ es)
    (hPQ : ∀ pre s e, P pre s e → Q pre s e) : Sometime step Q s₀ es := by
  obtain ⟨pre, e, s, hpre, hs, hP⟩ := h
  exact ⟨pre, e, s, hpre, hs, hPQ pre s e hP⟩

theorem not_sometime_nil {P : List E → S → E → Prop} {s₀ : S} : ¬ Sometime step P s₀ [] := by
  rintro ⟨pre, e, s, hpre, -⟩
  exact absurd (List.prefix_nil.mp hpre) (by simp)

theorem Always.concat {P : List E → S → Prop} {s₀ : S} {es : List E} {e : E}
    (h : Always step P s₀ (es ++ [e])) : Always step P s₀ es :=
  fun pre s hpre => h pre s (hpre.trans (List.prefix_append es [e]))

/-- What is said of each step may be said in other words. -/
theorem along_congr {P Q : List E → S → E → Prop} (h : ∀ pre s e, P pre s e ↔ Q pre s e) (s₀ : S) (es : List E) :
    Along step P s₀ es ↔ Along step Q s₀ es := by
  constructor
  · exact fun halong pre e s hpre hs => (h pre s e).mp (halong pre e s hpre hs)
  · exact fun halong pre e s hpre hs => (h pre s e).mpr (halong pre e s hpre hs)

theorem Along.concat {P : List E → S → E → Prop} {s₀ : S} {es : List E} {e : E}
    (h : Along step P s₀ (es ++ [e])) : Along step P s₀ es :=
  fun pre e' s hpre => h pre e' s (hpre.trans (List.prefix_append es [e]))

theorem along_concat {P : List E → S → E → Prop} {s₀ s : S} {es : List E} {e : E} (hs : run step s₀ es = some s) :
    Along step P s₀ (es ++ [e]) ↔ Along step P s₀ es ∧ P es s e := by
  refine ⟨fun h => ⟨h.concat, h es e s List.prefix_rfl hs⟩, fun ⟨h, hlast⟩ pre e' t hpre ht => ?_⟩
  rcases List.prefix_concat_iff.mp hpre with heq | hpre
  · obtain ⟨rfl, he⟩ := List.append_inj' heq rfl
    obtain rfl := List.singleton_inj.mp he
    obtain rfl := Option.some.inj (hs.symm.trans ht)
    exact hlast
  · exact h pre e' t hpre ht

/-- The check succeeds at every step of the run. -/
def checkAlong (step : S → E → Option S) (check : S → E → Bool) (s : S) : List E → Bool
  | [] => true
  | e :: es => check s e && (step s e).all fun t => checkAlong step check t es

theorem along_of_check {check : S → E → Bool} {Good : S → E → Prop} (hcheck : ∀ s e, check s e = true → Good s e)
    {s : S} {es : List E} (h : checkAlong step check s es = true) : Along step (fun _ => Good) s es := by
  induction es generalizing s with
  | nil =>
    intro pre e t hpre
    exact absurd (List.prefix_nil.mp hpre) (by simp)
  | cons e es ih =>
    obtain ⟨hhead, htail⟩ := (Bool.and_eq_true _ _).mp h
    intro pre e' t hpre ht
    cases pre with
    | nil =>
      obtain ⟨rfl, -⟩ := List.cons_prefix_cons.mp hpre
      obtain rfl := Option.some.inj ht
      exact hcheck s e' hhead
    | cons e₀ pre =>
      obtain ⟨rfl, hrest⟩ := List.cons_prefix_cons.mp hpre
      obtain ⟨u, hu, hrun⟩ := run_cons_eq_some.mp ht
      rw [hu] at htail
      exact ih htail pre e' t hrest hrun

theorem always_of_check {P : S → Prop} [DecidablePred P] {s : S} {es : List E}
    (h : (es.inits.all fun pre => (run step s pre).all fun t => P t) = true) : Always step (fun _ => P) s es := by
  intro pre t hpre ht
  have hpre := List.all_eq_true.mp h pre ((List.mem_inits pre es).mpr hpre)
  rw [ht] at hpre
  exact of_decide_eq_true hpre

variable {Inv Safe : List E → S → Prop} {Good : List E → S → E → Prop} {Ok : E → Prop} {s₀ : S}

/-- An invariant that every good step preserves holds along a run of good steps; `Ok` is what is known of its
events. -/
theorem along_induct (hinit : Inv [] s₀)
    (hgood : ∀ pre s e s', Ok e → Inv pre s → step s e = some s' → Good pre s e → Inv (pre ++ [e]) s')
    {es : List E} (hok : ∀ e ∈ es, Ok e) (halong : Along step Good s₀ es) {s : S}
    (h : run step s₀ es = some s) : Inv es s := by
  induction es using List.reverseRecOn generalizing s with
  | nil => rw [run_nil, Option.some.injEq] at h; exact h ▸ hinit
  | append_singleton es e ih =>
    obtain ⟨t, ht, he⟩ := run_concat.mp h
    have hes : ∀ e ∈ es, Ok e := fun e' he' => hok e' (List.mem_append_left _ he')
    exact hgood es t e s (hok e (by simp)) (ih hes halong.concat ht) he (halong es e t List.prefix_rfl ht)

theorem always_of_along (hinit : Inv [] s₀) (hsafe : ∀ pre s, Inv pre s → Safe pre s)
    (hgood : ∀ pre s e s', Ok e → Inv pre s → step s e = some s' → Good pre s e → Inv (pre ++ [e]) s')
    {es : List E} (hok : ∀ e ∈ es, Ok e) (halong : Along step Good s₀ es) : Always step Safe s₀ es := by
  intro pre s hpre h
  exact hsafe pre s (along_induct hinit hgood (fun e he => hok e (hpre.subset he))
    (fun q e t hq => halong q e t (hq.trans hpre)) h)

variable (Inv Ok) in
/-- **The exact condition rule.** -/
theorem always_iff_along (hinit : Inv [] s₀) (hsafe : ∀ pre s, Inv pre s → Safe pre s)
    (hgood : ∀ pre s e s', Ok e → Inv pre s → step s e = some s' → Good pre s e → Inv (pre ++ [e]) s')
    (hbad : ∀ pre s e s', Ok e → Inv pre s → step s e = some s' → ¬ Good pre s e → ¬ Safe (pre ++ [e]) s')
    {es : List E} (hok : ∀ e ∈ es, Ok e) {s : S} (h : run step s₀ es = some s) :
    Always step Safe s₀ es ↔ Along step Good s₀ es := by
  refine ⟨fun halways => ?_, always_of_along hinit hsafe hgood hok⟩
  -- by induction on the run: a first bad step would make the state after it unsafe
  induction es using List.reverseRecOn generalizing s with
  | nil =>
    intro pre e t hpre
    exact absurd (List.prefix_nil.mp hpre) (by simp)
  | append_singleton es e ih =>
    obtain ⟨t, ht, he⟩ := run_concat.mp h
    have hes : ∀ e ∈ es, Ok e := fun e' he' => hok e' (List.mem_append_left _ he')
    have halong := ih hes ht halways.concat
    intro pre e' u hpre hu
    rcases List.prefix_concat_iff.mp hpre with heq | hpre'
    · obtain ⟨rfl, hlast⟩ := List.append_inj' heq rfl
      obtain rfl : e' = e := by simpa using hlast
      obtain rfl : u = t := Option.some.inj (hu.symm.trans ht)
      by_contra hng
      exact hbad pre u e' s (hok e' (by simp)) (along_induct hinit hgood hes halong hu) he hng
        (halways _ s List.prefix_rfl h)
    · exact halong pre e' u hpre' hu

end Along

/-! ## What comes and goes -/

section Since

variable (step : S → E → Option S)

/-- `Q` holds of some step of the run, and `P` of every step after it. -/
def Since (P Q : List E → S → E → Prop) (s₀ : S) (es : List E) : Prop :=
  ∃ pre e s, pre ++ [e] <+: es ∧ run step s₀ pre = some s ∧ Q pre s e ∧
    ∀ mid e' s', pre ++ [e] <+: mid → mid ++ [e'] <+: es → run step s₀ mid = some s' → P mid s' e'

variable {step}

theorem not_since_nil {P Q : List E → S → E → Prop} {s₀ : S} : ¬ Since step P Q s₀ [] := by
  rintro ⟨pre, e, s, hpre, -⟩
  exact absurd (List.prefix_nil.mp hpre) (by simp)

/-- The last step brings it about, or leaves what there was. -/
theorem since_concat {P Q : List E → S → E → Prop} {s₀ s : S} {es : List E} {e : E} (hs : run step s₀ es = some s) :
    Since step P Q s₀ (es ++ [e]) ↔ Q es s e ∨ (Since step P Q s₀ es ∧ P es s e) := by
  constructor
  · rintro ⟨pre, e', t, hpre, ht, hQ, hP⟩
    rcases List.prefix_concat_iff.mp hpre with heq | hpre
    · obtain ⟨rfl, he⟩ := List.append_inj' heq rfl
      obtain rfl := List.singleton_inj.mp he
      obtain rfl := Option.some.inj (hs.symm.trans ht)
      exact .inl hQ
    · exact .inr ⟨⟨pre, e', t, hpre, ht, hQ, fun mid e'' u hmid hes =>
        hP mid e'' u hmid (hes.trans (List.prefix_append es [e]))⟩, hP es e s hpre List.prefix_rfl hs⟩
  · rintro (hQ | ⟨⟨pre, e', t, hpre, ht, hQ, hP⟩, hlast⟩)
    · refine ⟨es, e, s, List.prefix_rfl, hs, hQ, fun mid e' u hmid hes _ => ?_⟩
      have hmid := hmid.length_le
      have hes := hes.length_le
      simp only [List.length_append, List.length_singleton] at hmid hes
      omega
    · refine ⟨pre, e', t, hpre.trans (List.prefix_append es [e]), ht, hQ, fun mid e'' u hmid hes hu => ?_⟩
      rcases List.prefix_concat_iff.mp hes with heq | hes
      · obtain ⟨rfl, he⟩ := List.append_inj' heq rfl
        obtain rfl := List.singleton_inj.mp he
        obtain rfl := Option.some.inj (hs.symm.trans hu)
        exact hlast
      · exact hP mid e'' u hmid hes hu

/-- **The rule of what comes and goes**: if `L` holds after a step exactly when the step brings it about or leaves it,
then it holds at the end exactly when it was brought about, or there from the start, and left since. -/
theorem holds_iff_since {P Q : List E → S → E → Prop} {L : S → Prop} {s₀ s : S} {es : List E}
    (hstep : ∀ pre e t u, pre ++ [e] <+: es → run step s₀ pre = some t → step t e = some u →
      (L u ↔ Q pre t e ∨ (L t ∧ P pre t e)))
    (h : run step s₀ es = some s) : L s ↔ Since step P Q s₀ es ∨ (L s₀ ∧ Along step P s₀ es) := by
  induction es using List.reverseRecOn generalizing s with
  | nil =>
    obtain rfl := Option.some.inj h
    have halong : Along step P s₀ [] := fun pre e t hpre => absurd (List.prefix_nil.mp hpre) (by simp)
    simp only [not_since_nil, false_or, halong, and_true]
  | append_singleton es e ih =>
    obtain ⟨t, ht, he⟩ := run_concat.mp h
    have hes := ih (fun pre e' u v hpre => hstep pre e' u v (hpre.trans (List.prefix_append es [e]))) ht
    rw [hstep es e t s List.prefix_rfl ht he, since_concat ht, along_concat ht, hes]
    tauto

end Since

/-! ## Simulations -/

section Simulation

variable {S' E' : Type} {step : S → E → Option S} {step' : S' → E' → Option S'} {s₀ s : S} {t₀ : S'} {es : List E}
  {Sim : List E → S → List E' → S' → Prop} {Good : List E → S → E → Prop}

/-- **The simulation rule**: if a run of the other system matches every good step, then one run of it matches a run of
good steps. -/
theorem run_simulates (hinit : Sim [] s₀ [] t₀)
    (hstep : ∀ pre s e s' fs t, run step s₀ pre = some s → run step' t₀ fs = some t → Sim pre s fs t →
      step s e = some s' → Good pre s e → ∃ gs t', run step' t gs = some t' ∧ Sim (pre ++ [e]) s' (fs ++ gs) t')
    (halong : Along step Good s₀ es) (h : run step s₀ es = some s) :
    ∃ fs t, run step' t₀ fs = some t ∧ Sim es s fs t := by
  let Inv : List E → S → Prop := fun pre s =>
    run step s₀ pre = some s ∧ ∃ fs t, run step' t₀ fs = some t ∧ Sim pre s fs t
  have hstart : Inv [] s₀ := ⟨rfl, [], t₀, rfl, hinit⟩
  have hevents : ∀ e ∈ es, True := fun _ _ => trivial
  refine (along_induct hstart (fun pre s e s' _ hinv hs hgood => ?_) hevents halong h).2
  obtain ⟨hpre, fs, t, hfs, hsim⟩ := hinv
  obtain ⟨gs, t', hgs, hsim'⟩ := hstep pre s e s' fs t hpre hfs hsim hs hgood
  exact ⟨run_concat.mpr ⟨s, hpre, hs⟩, fs ++ gs, t', run_append_eq_some.mpr ⟨t, hfs, hgs⟩, hsim'⟩

end Simulation

/-! ## States that are seen through keys -/

section Views

variable {K V : Type} [DecidableEq K] {step : S → E → Option S} {view : S → K → V} {key : E → Option K}
  {act : E → V → V}

/-- **Noninterference**: if an event acts on the view of its own key only, the view of a key after a run is what the
events of that key make of it. -/
theorem view_run (Inv : S → Prop) (hinv : ∀ s e s', Inv s → step s e = some s' → Inv s')
    (hview : ∀ s e s', Inv s → step s e = some s' → ∀ k,
      view s' k = if key e = some k then act e (view s k) else view s k)
    {s s' : S} {es : List E} (hs : Inv s) (h : run step s es = some s') (k : K) :
    view s' k = (es.filter fun e => key e = some k).foldl (fun v e => act e v) (view s k) := by
  induction es generalizing s with
  | nil => rw [run_nil, Option.some.injEq] at h; rw [h]; rfl
  | cons e es ih =>
    obtain ⟨t, ht, hes⟩ := run_cons_eq_some.mp h
    rw [ih (hinv s e t hs ht) hes, hview s e t hs ht k]
    by_cases hk : key e = some k
    · rw [if_pos hk, List.filter_cons_of_pos (by simpa using hk), List.foldl_cons]
    · rw [if_neg hk, List.filter_cons_of_neg (by simpa using hk)]

/-- If no event changes what decides whether events are defined, a run is defined when each of its events is. -/
theorem isSome_run (Same : S → S → Prop) (htrans : ∀ s t u, Same s t → Same t u → Same s u)
    (hstep : ∀ s e s', step s e = some s' → Same s s')
    (hdef : ∀ s t e, Same s t → (step s e).isSome = (step t e).isSome) {s : S} {es : List E} {t : S}
    (ht : Same s t) : (run step t es).isSome ↔ ∀ e ∈ es, (step s e).isSome := by
  induction es generalizing t with
  | nil => simp
  | cons e es ih =>
    rw [List.forall_mem_cons, hdef s t e ht]
    cases hte : step t e with
    | none => simp [run, hte]
    | some u =>
      simp only [run, hte, Option.bind_some, Option.isSome_some, true_and]
      exact ih (htrans s t u ht (hstep t e u hte))

end Views

end Lib
