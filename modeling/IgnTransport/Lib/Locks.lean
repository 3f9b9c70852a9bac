import Mathlib
import IgnTransport.Lib.Run

/-!
# Lib.Locks — threads that share re-entrant mutexes

A thread is a list of actions: it acquires and releases mutexes, and reads and writes the data that they guard.  A
mutex knows its owner, and how often the owner has acquired it again.  A schedule lists the threads in the order of
their steps; a thread that needs a mutex of another one cannot make a step.

A discipline says what a thread may do with what it holds.  If all threads acquire the mutexes in an order, no set of
them waits for itself (`not_deadlocked`) and somebody can go on (`progress`); if all of them touch data under its
mutex only, no two of them are about to touch the same data (`not_racing`).  `deadlocked_of_crossed` and
`racing_of_unguarded` are the converses: one thread that breaks a discipline, and one that uses it.  A thread that never
acquires the second mutex while it holds only the first one is `Uncrossed`: what keeps the second one all along is
(`uncrossed_of_held`).
-/

namespace Lib

/-- What a thread does. -/
inductive LockAction (M : Type) where
  | acquire (m : M)
  | release (m : M)
  | access (m : M) (write : Bool)
  deriving DecidableEq, Repr

/-- What the threads still have to do, and the mutexes. -/
structure Threads (ι M : Type) where
  todo : ι → List (LockAction M)
  owner : M → Option (ι × ℕ) := fun _ => none

namespace Threads

variable {ι M : Type} [DecidableEq ι]

/-! ## Steps -/

section Steps

/-- The owner of a mutex after a thread has acquired it once more. -/
def lock (i : ι) : Option (ι × ℕ) → Option (ι × ℕ)
  | none => some (i, 0)
  | some (j, k) => if j = i then some (i, k + 1) else none

/-- The owner of a mutex after its owner has released it once. -/
def unlock : Option (ι × ℕ) → Option (ι × ℕ)
  | some (j, k + 1) => some (j, k)
  | _ => none

/-- How often a thread holds a mutex. -/
def count (i : ι) : Option (ι × ℕ) → ℕ
  | some (j, k) => if j = i then k + 1 else 0
  | none => 0

variable (s : Threads ι M)

def holds (i : ι) (m : M) : ℕ := count i (s.owner m)

variable {s} {i j : ι} {m : M}

theorem holds_eq_zero_of_owner {k : ℕ} (ho : s.owner m = some (j, k)) (hij : j ≠ i) : s.holds i m = 0 := by
  rw [holds, ho]
  exact if_neg hij

theorem owner_of_holds (h : 0 < s.holds i m) : ∃ k, s.owner m = some (i, k) := by
  rw [holds] at h
  cases ho : s.owner m with
  | none => rw [ho] at h; cases h
  | some o =>
    obtain ⟨j, k⟩ := o
    rw [ho, count] at h
    split_ifs at h with hj
    · exact ⟨k, by rw [hj]⟩
    · cases h

theorem holds_of_owner {k : ℕ} (ho : s.owner m = some (i, k)) : s.holds i m = k + 1 := by
  rw [holds, ho]
  exact if_pos rfl

theorem owner_of_free (h : ∀ i, s.holds i m = 0) : s.owner m = none := by
  cases hown : s.owner m with
  | none => rfl
  | some o => exact absurd (h o.1) (by rw [holds_of_owner hown]; exact Nat.succ_ne_zero _)

end Steps

section Acting

variable [DecidableEq M] (s : Threads ι M)

/-- The mutexes after an action, if it can be done. -/
def act (i : ι) : LockAction M → Option (M → Option (ι × ℕ))
  | .acquire m => (lock i (s.owner m)).map fun o => Function.update s.owner m (some o)
  | .release m => if s.holds i m = 0 then none else some (Function.update s.owner m (unlock (s.owner m)))
  | .access _ _ => some s.owner

/-- A thread makes its next step. -/
def step (i : ι) : Option (Threads ι M) :=
  match s.todo i with
  | [] => none
  | a :: as => (s.act i a).map fun owner => { todo := Function.update s.todo i as, owner }

end Acting

/-! ## Disciplines -/

section Disciplines

variable [DecidableEq M]

/-- What a thread holds after an action. -/
def holdAfter (h : M → ℕ) : LockAction M → M → ℕ
  | .acquire m => Function.update h m (h m + 1)
  | .release m => Function.update h m (h m - 1)
  | .access _ _ => h

/-- What a thread holds after its actions. -/
def heldAfter (h : M → ℕ) (as : List (LockAction M)) : M → ℕ := as.foldl holdAfter h

/-- A thread releases what it holds only. -/
def Releasable (h : M → ℕ) : LockAction M → Prop
  | .release m => 0 < h m
  | _ => True

/-- The actions keep to a discipline. -/
def Obeys (allowed : (M → ℕ) → LockAction M → Prop) : (M → ℕ) → List (LockAction M) → Prop
  | _, [] => True
  | h, a :: as => (Releasable h a ∧ allowed h a) ∧ Obeys allowed (holdAfter h a) as

/-- The discipline that allows everything. -/
def Free (_ : M → ℕ) (_ : LockAction M) : Prop := True

/-- A thread acquires what it holds, or what comes after all that it holds. -/
def Ordered (before : M → M → Prop) (h : M → ℕ) : LockAction M → Prop
  | .acquire m => 0 < h m ∨ ∀ m', 0 < h m' → before m' m
  | _ => True

/-- A thread that holds the first mutex acquires the second one only where it holds it already. -/
def Uncrossed (m m' : M) (h : M → ℕ) : LockAction M → Prop
  | .acquire k => k = m' → 0 < h m' ∨ h m = 0
  | _ => True

/-- A thread touches data under its mutex only. -/
def Guarded (h : M → ℕ) : LockAction M → Prop
  | .access m _ => 0 < h m
  | _ => True

variable {allowed : (M → ℕ) → LockAction M → Prop} {h : M → ℕ} {as bs : List (LockAction M)}

theorem heldAfter_append : heldAfter h (as ++ bs) = heldAfter (heldAfter h as) bs := List.foldl_append

theorem obeys_append : Obeys allowed h (as ++ bs) ↔ Obeys allowed h as ∧ Obeys allowed (heldAfter h as) bs := by
  induction as generalizing h with
  | nil => exact (and_iff_right trivial).symm
  | cons a as ih =>
    rw [List.cons_append, Obeys, Obeys, ih, and_assoc]
    exact and_assoc.symm.trans and_assoc.symm

/-- A list of parts, each of which gives back what it takes. -/
theorem heldAfter_flatMap {α : Type} {f : α → List (LockAction M)} {l : List α}
    (hf : ∀ x ∈ l, heldAfter h (f x) = h) : heldAfter h (l.flatMap f) = h := by
  induction l with
  | nil => rfl
  | cons x l ih =>
    obtain ⟨hx, hl⟩ := List.forall_mem_cons.mp hf
    rw [List.flatMap_cons, heldAfter_append, hx, ih hl]

theorem obeys_flatMap {α : Type} {f : α → List (LockAction M)} {l : List α} (hf : ∀ x ∈ l, heldAfter h (f x) = h) :
    Obeys allowed h (l.flatMap f) ↔ ∀ x ∈ l, Obeys allowed h (f x) := by
  induction l with
  | nil => exact iff_of_true trivial fun x hx => (by cases hx)
  | cons x l ih =>
    obtain ⟨hx, hl⟩ := List.forall_mem_cons.mp hf
    rw [List.flatMap_cons, obeys_append, hx, ih hl, List.forall_mem_cons]

theorem Obeys.mono {weak : (M → ℕ) → LockAction M → Prop} (hmono : ∀ h a, allowed h a → weak h a)
    (h' : Obeys allowed h as) : Obeys weak h as := by
  induction as generalizing h with
  | nil => trivial
  | cons a as ih => exact ⟨⟨h'.1.1, hmono h a h'.1.2⟩, ih h'.2⟩

/-- The first action against a discipline, of a thread that keeps to a weaker one. -/
theorem exists_not_allowed {weak : (M → ℕ) → LockAction M → Prop} (hweak : Obeys weak h as)
    (hnot : ¬ Obeys allowed h as) : ∃ pre a post, as = pre ++ a :: post ∧ Obeys Free h pre ∧
      weak (heldAfter h pre) a ∧ ¬ allowed (heldAfter h pre) a := by
  induction as generalizing h with
  | nil => exact absurd trivial hnot
  | cons a as ih =>
    by_cases ha : allowed h a
    · obtain ⟨pre, b, post, rfl, hpre, hb⟩ := ih hweak.2 fun hrest => hnot ⟨⟨hweak.1.1, ha⟩, hrest⟩
      exact ⟨a :: pre, b, post, rfl, ⟨⟨hweak.1.1, trivial⟩, hpre⟩, hb⟩
    · exact ⟨[], a, as, rfl, trivial, hweak.1.2, ha⟩

theorem holdAfter_acquire_pos (h : M → ℕ) (m : M) : 0 < holdAfter h (.acquire m) m := by
  change 0 < Function.update h m (h m + 1) m
  rw [Function.update_self]
  exact Nat.succ_pos (h m)

/-- A block between an `acquire` and its `release`. -/
theorem heldAfter_block {m : M} (hblock : heldAfter (holdAfter h (.acquire m)) as = holdAfter h (.acquire m)) :
    heldAfter h (.acquire m :: as ++ [.release m]) = h := by
  have hcons : heldAfter h (.acquire m :: as) = holdAfter h (.acquire m) := hblock
  rw [heldAfter_append, hcons]
  change Function.update (Function.update h m (h m + 1)) m (Function.update h m (h m + 1) m - 1) = h
  rw [Function.update_idem, Function.update_self, Nat.add_sub_cancel, Function.update_eq_self]

theorem obeys_block {m : M} (hblock : heldAfter (holdAfter h (.acquire m)) as = holdAfter h (.acquire m)) :
    Obeys allowed h (.acquire m :: as ++ [.release m]) ↔ allowed h (.acquire m) ∧
      Obeys allowed (holdAfter h (.acquire m)) as ∧ allowed (holdAfter h (.acquire m)) (.release m) := by
  rw [List.cons_append, Obeys, obeys_append, hblock]
  constructor
  · rintro ⟨⟨-, hacquire⟩, has, ⟨-, hrelease⟩, -⟩
    exact ⟨hacquire, has, hrelease⟩
  · rintro ⟨hacquire, has, hrelease⟩
    exact ⟨⟨trivial, hacquire⟩, has, ⟨holdAfter_acquire_pos h m, hrelease⟩, trivial⟩

/-- What a thread holds on top of what it keeps. -/
theorem holdAfter_add {g : M → ℕ} {a : LockAction M} (ha : Releasable g a) :
    holdAfter (fun k => h k + g k) a = fun k => h k + holdAfter g a k := by
  cases a with
  | acquire k =>
    funext l
    by_cases hl : l = k
    · subst hl
      simp only [holdAfter, Function.update_self, Nat.add_assoc]
    · simp only [holdAfter, Function.update_of_ne hl]
  | release k =>
    funext l
    by_cases hl : l = k
    · subst hl
      simp only [holdAfter, Function.update_self]
      exact Nat.add_sub_assoc ha (h l)
    · simp only [holdAfter, Function.update_of_ne hl]
  | access k w => rfl

theorem uncrossed_of_kept {g : M → ℕ} {m m' : M} (hm' : 0 < h m') (hfree : Obeys Free g as) :
    Obeys (Uncrossed m m') (fun k => h k + g k) as := by
  induction as generalizing g with
  | nil => trivial
  | cons a as ih =>
    obtain ⟨⟨ha, -⟩, hrest⟩ := hfree
    rw [Obeys, holdAfter_add ha]
    refine ⟨⟨?_, ?_⟩, ih hrest⟩
    · cases a with
      | release k => exact Nat.add_pos_right (h k) ha
      | _ => trivial
    · cases a with
      | acquire k => exact fun _ => .inl (Nat.add_pos_left hm' (g m'))
      | _ => trivial

/-- **What keeps the second mutex all along** never comes into the other order. -/
theorem uncrossed_of_held {m m' : M} (hm' : 0 < h m') (hfree : Obeys Free (fun _ => 0) as) :
    Obeys (Uncrossed m m') h as := uncrossed_of_kept hm' hfree

end Disciplines

/-! ## One step -/

section OneStep

variable [DecidableEq M] {s s' : Threads ι M} {i j : ι} {m : M}

/-- What an action does to what the threads hold. -/
theorem count_act {a : LockAction M} {owner : M → Option (ι × ℕ)} (h : s.act i a = some owner) :
    (fun m => count i (owner m)) = holdAfter (s.holds i) a ∧ Releasable (s.holds i) a ∧
      ∀ j, j ≠ i → ∀ m, count j (owner m) = s.holds j m := by
  cases a with
  | acquire m =>
    obtain ⟨o, ho, rfl⟩ := Option.map_eq_some_iff.mp h
    refine ⟨funext fun m' => ?_, trivial, fun j hj m' => ?_⟩
    · rw [holdAfter]
      by_cases hm : m' = m
      · subst hm
        rw [Function.update_self, Function.update_self, holds]
        cases hown : s.owner m' with
        | none =>
          rw [hown] at ho
          obtain rfl := Option.some.inj ho
          exact if_pos rfl
        | some o' =>
          obtain ⟨j, k⟩ := o'
          rw [hown, lock] at ho
          split_ifs at ho with hj
          obtain rfl := Option.some.inj ho
          rw [count, count, if_pos rfl, if_pos hj]
      · rw [Function.update_of_ne hm, Function.update_of_ne hm]
        rfl
    · by_cases hm : m' = m
      · subst hm
        rw [Function.update_self, holds]
        cases hown : s.owner m' with
        | none =>
          rw [hown] at ho
          obtain rfl := Option.some.inj ho
          exact if_neg (Ne.symm hj)
        | some o' =>
          obtain ⟨j', k⟩ := o'
          rw [hown, lock] at ho
          split_ifs at ho with hj'
          obtain rfl := Option.some.inj ho
          rw [count, count, if_neg (Ne.symm hj), if_neg (by rw [hj']; exact Ne.symm hj)]
      · rw [Function.update_of_ne hm]
        rfl
  | release m =>
    rw [act] at h
    split_ifs at h with hzero
    obtain rfl := Option.some.inj h
    obtain ⟨k, hown⟩ := owner_of_holds (Nat.pos_of_ne_zero hzero)
    refine ⟨funext fun m' => ?_, Nat.pos_of_ne_zero hzero, fun j hj m' => ?_⟩
    · rw [holdAfter]
      by_cases hm : m' = m
      · subst hm
        rw [Function.update_self, Function.update_self, holds, hown]
        cases k <;> simp [unlock, count]
      · rw [Function.update_of_ne hm, Function.update_of_ne hm]
        rfl
    · by_cases hm : m' = m
      · subst hm
        rw [Function.update_self, holds, hown]
        cases k <;> simp [unlock, count, Ne.symm hj]
      · rw [Function.update_of_ne hm]
        rfl
  | access m write =>
    obtain rfl := Option.some.inj h
    exact ⟨rfl, trivial, fun j _ m => rfl⟩

/-- What a step does. -/
theorem step_eq_some (h : s.step i = some s') : ∃ a as, s.todo i = a :: as ∧
    s'.todo = Function.update s.todo i as ∧ s'.holds i = holdAfter (s.holds i) a ∧ Releasable (s.holds i) a ∧
      ∀ j, j ≠ i → s'.holds j = s.holds j := by
  unfold step at h
  cases htodo : s.todo i with
  | nil => rw [htodo] at h; cases h
  | cons a as =>
    rw [htodo] at h
    obtain ⟨owner, howner, rfl⟩ := Option.map_eq_some_iff.mp h
    obtain ⟨hself, hreleasable, hother⟩ := count_act howner
    exact ⟨a, as, rfl, rfl, hself, hreleasable, fun j hj => funext fun m => hother j hj m⟩

/-- Somebody else owns the mutex that a thread needs next. -/
def Waits (s : Threads ι M) (i : ι) (m : M) (j : ι) : Prop :=
  (∃ as, s.todo i = .acquire m :: as) ∧ (∃ k, s.owner m = some (j, k)) ∧ j ≠ i

/-- A thread that cannot make a step has nothing to do, or releases what it does not hold, or waits. -/
theorem step_eq_none (h : s.step i = none) : s.todo i = [] ∨
    (∃ a as, s.todo i = a :: as ∧ ¬ Releasable (s.holds i) a) ∨ ∃ m j, s.Waits i m j := by
  unfold step at h
  cases htodo : s.todo i with
  | nil => exact .inl rfl
  | cons a as =>
    rw [htodo] at h
    have hact : s.act i a = none := Option.map_eq_none_iff.mp h
    cases a with
    | acquire m =>
      have hlock : lock i (s.owner m) = none := Option.map_eq_none_iff.mp hact
      cases hown : s.owner m with
      | none => rw [hown] at hlock; cases hlock
      | some o =>
        obtain ⟨j, k⟩ := o
        rw [hown, lock] at hlock
        split_ifs at hlock with hj
        exact .inr (.inr ⟨m, j, ⟨as, htodo⟩, ⟨k, hown⟩, hj⟩)
    | release m =>
      rw [act] at hact
      split_ifs at hact with hzero
      refine .inr (.inl ⟨_, as, rfl, ?_⟩)
      rw [Releasable, hzero]
      exact Nat.lt_irrefl 0
    | access m write => cases hact

end OneStep

/-! ## Runs -/

section Runs

variable [DecidableEq M] {allowed : (M → ℕ) → LockAction M → Prop} {s s' : Threads ι M} {i j : ι} {schedule : List ι}

/-- All threads keep to a discipline, and give back what they take. -/
def Disciplined (allowed : (M → ℕ) → LockAction M → Prop) (s : Threads ι M) : Prop :=
  ∀ i, Obeys allowed (s.holds i) (s.todo i) ∧ heldAfter (s.holds i) (s.todo i) = fun _ => 0

theorem obeys_step (hj : Obeys allowed (s.holds j) (s.todo j)) (h : s.step i = some s') :
    Obeys allowed (s'.holds j) (s'.todo j) := by
  obtain ⟨a, as, htodo, htodo', hself, -, hother⟩ := step_eq_some h
  by_cases hij : j = i
  · subst hij
    rw [htodo] at hj
    rw [htodo', Function.update_self, hself]
    exact hj.2
  · rw [htodo', Function.update_of_ne hij, hother j hij]
    exact hj

/-- A thread that keeps to a discipline goes on like that. -/
theorem obeys_run (hj : Obeys allowed (s.holds j) (s.todo j)) (h : run step s schedule = some s') :
    Obeys allowed (s'.holds j) (s'.todo j) :=
  run_invariant (fun s => Obeys allowed (s.holds j) (s.todo j)) hj (fun _ _ _ ht hstep => obeys_step ht hstep) h

theorem disciplined_step {i : ι} (hs : Disciplined allowed s) (h : s.step i = some s') : Disciplined allowed s' := by
  obtain ⟨a, as, htodo, htodo', hself, -, hother⟩ := step_eq_some h
  refine fun j => ⟨obeys_step (hs j).1 h, ?_⟩
  by_cases hj : j = i
  · subst hj
    have hend := (hs j).2
    rw [htodo] at hend
    rw [htodo', Function.update_self, hself]
    exact hend
  · rw [htodo', Function.update_of_ne hj, hother j hj]
    exact (hs j).2

/-- Threads that keep to a discipline go on like that. -/
theorem disciplined_run (hs : Disciplined allowed s) (h : run step s schedule = some s') : Disciplined allowed s' :=
  run_invariant (Disciplined allowed) hs (fun _ _ _ ht hstep => disciplined_step ht hstep) h

/-- A set of threads in which each one waits for another one. -/
def Deadlocked (s : Threads ι M) (D : Set ι) : Prop := D.Nonempty ∧ ∀ i ∈ D, ∃ m, ∃ j ∈ D, s.Waits i m j

omit [DecidableEq M] in
/-- Where threads wait for each other, one of them acquires a mutex against the order. -/
theorem exists_unordered {before : M → M → Prop} (hwf : WellFounded fun m m' => before m' m) {D : Set ι}
    (hD : s.Deadlocked D) :
    ∃ i ∈ D, ∃ m as, s.todo i = .acquire m :: as ∧ ¬ Ordered before (s.holds i) (.acquire m) := by
  by_contra hnot
  push Not at hnot
  obtain ⟨⟨i, hi⟩, hD⟩ := hD
  have hnone : ∀ m, ∀ i ∈ D, ∀ j ∈ D, ¬ s.Waits i m j := by
    intro m
    induction m using hwf.induction with
    | h m ih =>
      rintro i hi j hj ⟨-, ⟨k, hown⟩, -⟩
      obtain ⟨m', j', hj', hwaits⟩ := hD j hj
      refine ih m' ?_ j hj j' hj' hwaits
      -- the thread that holds `m` waits for `m'`
      obtain ⟨⟨as, htodo⟩, ⟨k', hown'⟩, hne⟩ := hwaits
      rcases hnot j hj m' as htodo with hheld | hbefore
      · rw [holds_eq_zero_of_owner hown' hne] at hheld
        exact absurd hheld (Nat.lt_irrefl 0)
      · exact hbefore m (by rw [holds_of_owner hown]; exact Nat.succ_pos k)
  obtain ⟨m, j, hj, hwaits⟩ := hD i hi
  exact hnone m i hi j hj hwaits

/-- **Threads that acquire the mutexes in an order** never wait for each other: what a thread waits for comes after all
that it holds. -/
theorem not_deadlocked {before : M → M → Prop} (hwf : WellFounded fun m m' => before m' m)
    (hs : Disciplined (Ordered before) s) (D : Set ι) : ¬ s.Deadlocked D := by
  intro hD
  obtain ⟨i, -, m, as, htodo, hnot⟩ := exists_unordered hwf hD
  have hobeys := (hs i).1
  rw [htodo] at hobeys
  exact hnot hobeys.1.2

/-- **Somebody can go on**, as long as anybody has something to do. -/
theorem progress {before : M → M → Prop} (hwf : WellFounded fun m m' => before m' m)
    (hs : Disciplined (Ordered before) s) {i : ι} (hi : s.todo i ≠ []) : ∃ j, (s.step j).isSome := by
  by_contra hnone
  refine not_deadlocked hwf hs {i | s.todo i ≠ []} ⟨⟨i, hi⟩, fun i hi => ?_⟩
  have hstep : s.step i = none := by
    rw [← Option.not_isSome_iff_eq_none]
    exact fun h => hnone ⟨i, h⟩
  rcases step_eq_none hstep with hnil | ⟨a, as, htodo, hreleasable⟩ | ⟨m, j, hwaits⟩
  · exact absurd hnil hi
  · have hobeys := (hs i).1
    rw [htodo] at hobeys
    exact absurd hobeys.1.1 hreleasable
  · -- the owner has to give the mutex back
    refine ⟨m, j, fun hnil => ?_, hwaits⟩
    obtain ⟨-, ⟨k, hown⟩, -⟩ := hwaits
    have hend := congrFun (hs j).2 m
    rw [hnil, heldAfter, List.foldl_nil, holds_of_owner hown] at hend
    cases hend

/-- Two threads are about to touch the same data, and one of them writes. -/
def Racing (s : Threads ι M) (i j : ι) : Prop :=
  i ≠ j ∧ ∃ m as bs w w', s.todo i = .access m w :: as ∧ s.todo j = .access m w' :: bs ∧ (w || w') = true

/-- **Threads that touch data under its mutex only** never race. -/
theorem not_racing (hs : Disciplined Guarded s) (i j : ι) : ¬ s.Racing i j := by
  rintro ⟨hij, m, as, bs, w, w', hi, hj, -⟩
  have hholds : ∀ i as w, s.todo i = .access m w :: as → ∃ k, s.owner m = some (i, k) := by
    intro i as w htodo
    have hobeys := (hs i).1
    rw [htodo] at hobeys
    exact owner_of_holds hobeys.1.2
  obtain ⟨k, hk⟩ := hholds i as w hi
  obtain ⟨k', hk'⟩ := hholds j bs w' hj
  rw [hk, Option.some.injEq, Prod.mk.injEq] at hk'
  exact hij hk'.1

end Runs

/-! ## Threads that break a discipline -/

section Breaking

variable [DecidableEq M] {s : Threads ι M} {i j : ι} {m m' : M} {as bs cs pre rest : List (LockAction M)}

/-- A thread that is alone with the mutexes runs on. -/
theorem run_alone (halone : ∀ j, j ≠ i → s.holds j = fun _ => 0) (htodo : s.todo i = as ++ bs)
    (hfree : Obeys Free (s.holds i) as) : ∃ s', run step s (List.replicate as.length i) = some s' ∧
      s'.todo = Function.update s.todo i bs ∧ s'.holds i = heldAfter (s.holds i) as ∧
        ∀ j, j ≠ i → s'.holds j = fun _ => 0 := by
  induction as generalizing s with
  | nil => exact ⟨s, rfl, by rw [← List.nil_append bs, ← htodo, Function.update_eq_self], rfl, halone⟩
  | cons a as ih =>
    have hstep : s.step i ≠ none := by
      intro hnone
      rcases step_eq_none hnone with hnil | ⟨b, cs, hcons, hreleasable⟩ | ⟨m, j, -, ⟨k, hown⟩, hj⟩
      · rw [htodo] at hnil
        cases hnil
      · rw [htodo, List.cons_append, List.cons.injEq] at hcons
        exact hreleasable (hcons.1 ▸ hfree.1.1)
      · have hzero := congrFun (halone j hj) m
        rw [holds_of_owner hown] at hzero
        cases hzero
    obtain ⟨t, ht⟩ := Option.ne_none_iff_exists'.mp hstep
    obtain ⟨b, cs, hcons, htodo', hself, -, hother⟩ := step_eq_some ht
    rw [htodo, List.cons_append, List.cons.injEq] at hcons
    obtain ⟨rfl, rfl⟩ := hcons
    obtain ⟨s', hrun, htodo'', hself', hother'⟩ := ih (s := t)
      (fun j hj => (hother j hj).trans (halone j hj)) (by rw [htodo', Function.update_self]) (by
        rw [hself]
        exact hfree.2)
    refine ⟨s', run_cons_eq_some.mpr ⟨t, ht, hrun⟩, ?_, by rw [hself', hself]; rfl, hother'⟩
    rw [htodo'', htodo', Function.update_idem]

/-- A thread comes to the end of a part of its program, and another one acquires a mutex that it does not hold. -/
theorem run_beside {todo : ι → List (LockAction M)} (hij : i ≠ j) (hi : todo i = as ++ bs)
    (hj : todo j = .acquire m :: cs) (hfree : Obeys Free (fun _ => 0) as)
    (hm : heldAfter (fun _ => 0) as m = 0) : ∃ schedule s, run step { todo } schedule = some s ∧ s.todo i = bs ∧
      s.todo j = cs ∧ s.owner m = some (j, 0) ∧
        ∀ m', 0 < heldAfter (fun _ => 0) as m' → ∃ n, s.owner m' = some (i, n) := by
  obtain ⟨s, hrun, htodo, hself, hother⟩ := run_alone (fun _ _ => rfl) (s := { todo }) hi hfree
  have hself' : s.holds i = heldAfter (fun _ => 0) as := hself
  have hnone : s.owner m = none := owner_of_free fun k => by
    by_cases hk : k = i
    · rw [hk, hself', hm]
    · rw [hother k hk]
  have htodoj : s.todo j = .acquire m :: cs := by
    rw [htodo, Function.update_of_ne (Ne.symm hij)]
    exact hj
  have hstep : s.step j = some ⟨Function.update s.todo j cs, Function.update s.owner m (some (j, 0))⟩ := by
    rw [step, htodoj]
    simp only [act, hnone, lock, Option.map_some]
  refine ⟨_, _, run_concat.mpr ⟨s, hrun, hstep⟩, ?_, Function.update_self .., Function.update_self .., fun m' hm' => ?_⟩
  · dsimp only
    rw [Function.update_of_ne hij, htodo, Function.update_self]
  · have hne : m' ≠ m := by
      rintro rfl
      rw [hm] at hm'
      cases hm'
    dsimp only
    rw [Function.update_of_ne hne]
    exact owner_of_holds (by rw [hself']; exact hm')

/-- A thread that starts alone comes to a point where it holds nothing. -/
theorem run_to {todo : ι → List (LockAction M)} (htodo : todo i = as ++ bs) (hfree : Obeys Free (fun _ => 0) as)
    (hheld : heldAfter (fun _ => 0) as = fun _ => 0) :
    run step { todo } (List.replicate as.length i) = some { todo := Function.update todo i bs } := by
  obtain ⟨s, hrun, htodo', hself, hother⟩ := run_alone (fun _ _ => rfl) (s := { todo }) htodo hfree
  have hself' : s.holds i = heldAfter (fun _ => 0) as := hself
  have hnone : s.owner = fun _ => none := by
    funext m
    refine owner_of_free fun k => ?_
    by_cases hk : k = i
    · rw [hk, hself', hheld]
    · rw [hother k hk]
  obtain ⟨todo', owner⟩ := s
  obtain rfl : todo' = _ := htodo'
  obtain rfl : owner = _ := hnone
  exact hrun

/-- A thread that only touches data needs no mutex for it. -/
theorem run_accesses (htodo : s.todo i = as ++ bs) (has : ∀ a ∈ as, ∃ m w, a = LockAction.access m w) :
    run step s (List.replicate as.length i) = some { s with todo := Function.update s.todo i bs } := by
  induction as generalizing s with
  | nil =>
    rw [List.nil_append] at htodo
    rw [← htodo, Function.update_eq_self]
    rfl
  | cons a as ih =>
    obtain ⟨⟨m, w, rfl⟩, hrest⟩ := List.forall_mem_cons.mp has
    have hstep : s.step i = some { s with todo := Function.update s.todo i (as ++ bs) } := by
      rw [step, htodo]
      rfl
    have hgo := ih (s := { s with todo := Function.update s.todo i (as ++ bs) }) (Function.update_self ..) hrest
    rw [Function.update_idem] at hgo
    exact run_cons_eq_some.mpr ⟨_, hstep, hgo⟩

/-- **Two threads that acquire two mutexes in different orders** can wait for each other. -/
theorem deadlocked_of_crossed {todo : ι → List (LockAction M)} (hij : i ≠ j)
    (hi : todo i = as ++ .acquire m :: bs) (hj : todo j = pre ++ .acquire m :: (rest ++ .acquire m' :: cs))
    (hfree : Obeys Free (fun _ => 0) as) (hm : heldAfter (fun _ => 0) as m = 0)
    (hm' : 0 < heldAfter (fun _ => 0) as m') (hpre : Obeys Free (fun _ => 0) pre)
    (hheld : heldAfter (fun _ => 0) pre = fun _ => 0) (hrest : ∀ a ∈ rest, ∃ m w, a = LockAction.access m w) :
    ∃ schedule s, run step { todo } schedule = some s ∧ s.Deadlocked {i, j} := by
  have hpart : Function.update todo j (.acquire m :: (rest ++ .acquire m' :: cs)) i = as ++ .acquire m :: bs := by
    rw [Function.update_of_ne hij, hi]
  obtain ⟨schedule, s, hrun, htodoi, htodoj, hown, hheld'⟩ :=
    run_beside hij hpart (Function.update_self ..) hfree hm
  refine ⟨_, _, run_append_eq_some.mpr ⟨_, run_to hj hpre hheld, run_append_eq_some.mpr ⟨s, hrun,
    run_accesses htodoj hrest⟩⟩, ⟨i, Set.mem_insert i {j}⟩, fun x hx => ?_⟩
  rcases Set.mem_insert_iff.mp hx with rfl | hx
  · refine ⟨m, j, Set.mem_insert_of_mem x (Set.mem_singleton j), ⟨bs, ?_⟩, ⟨0, hown⟩, Ne.symm hij⟩
    rw [← htodoi]
    exact Function.update_of_ne hij ..
  · obtain rfl := Set.mem_singleton_iff.mp hx
    exact ⟨m', i, Set.mem_insert i {x}, ⟨cs, Function.update_self ..⟩, hheld' m' hm', hij⟩

/-- **A thread that touches data without its mutex** can race with one that writes it under the mutex. -/
theorem racing_of_unguarded {todo : ι → List (LockAction M)} {w : Bool} (hij : i ≠ j)
    (hi : todo i = as ++ .access m w :: bs) (hj : todo j = .acquire m :: .access m true :: cs)
    (hfree : Obeys Free (fun _ => 0) as) (hm : heldAfter (fun _ => 0) as m = 0) :
    ∃ schedule s, run step { todo } schedule = some s ∧ s.Racing i j := by
  obtain ⟨schedule, s, hrun, htodoi, htodoj, -⟩ := run_beside hij hi hj hfree hm
  exact ⟨schedule, s, hrun, hij, m, bs, cs, w, true, htodoi, htodoj, Bool.or_true w⟩

end Breaking

end Threads

end Lib
