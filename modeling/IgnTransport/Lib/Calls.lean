import Mathlib

/-!
# Lib.Calls — programs whose calls may throw

A program of `CallM X S E` changes a state `S`, leaves effects `E` behind and may stop with an exception `X`; what it
did before the exception stays.  Which of its calls throw is part of the world that it runs in.  `Within` is the frame
rule of such programs, whatever throws: a view of the state is kept, and every effect is of one kind.  `Leaves` is the
exact rule of a program that keeps the state and comes to its end.  `Does` is the exact rule when nothing throws: the
result, the state and the effects.
-/

namespace Lib

/-- What a program runs in: the state, the effects so far, the calls so far, and which calls throw. -/
structure World (S E : Type) where
  state : S
  effects : List E := []
  count : ℕ := 0
  throwsAt : List ℕ := []

/-- A program with calls that may throw. -/
def CallM (X S E α : Type) : Type := World S E → Except X α × World S E

namespace CallM

variable {X S E α β V : Type}

/-! ## Programs -/

section Programs

instance : Monad (CallM X S E) where
  pure a w := (.ok a, w)
  bind p f w :=
    match p w with
    | (.ok a, w) => f a w
    | (.error x, w) => (.error x, w)

/-- The state. -/
def look : CallM X S E S := fun w => (.ok w.state, w)

def update (f : S → S) : CallM X S E Unit := fun w => (.ok (), { w with state := f w.state })

/-- An effect that cannot fail. -/
def emit (e : E) : CallM X S E Unit := fun w => (.ok (), { w with effects := w.effects ++ [e] })

def throw (x : X) : CallM X S E α := fun w => (.error x, w)

/-- A call, that throws `x` if it throws. -/
def attempt (x : X) : CallM X S E Unit := fun w =>
  (if w.count ∈ w.throwsAt then .error x else .ok (), { w with count := w.count + 1 })

/-- A call that leaves an effect behind unless it throws. -/
def call (x : X) (e : E) : CallM X S E Unit := do
  attempt x
  emit e

/-- A `try` block with a handler for `x`: whether the block came to its end. -/
def completes [DecidableEq X] (x : X) (p : CallM X S E Unit) : CallM X S E Bool := fun w =>
  match p w with
  | (.ok (), w) => (.ok true, w)
  | (.error y, w) => (if y = x then .ok false else .error y, w)

def forEach (f : β → CallM X S E Unit) : List β → CallM X S E Unit
  | [] => pure ()
  | b :: bs => do
    f b
    forEach f bs

theorem bind_of_ok {p : CallM X S E α} {f : α → CallM X S E β} {w w' : World S E} {a : α}
    (h : p w = (.ok a, w')) : (p >>= f) w = f a w' := by
  change (match p w with | (.ok a, w) => f a w | (.error x, w) => (.error x, w)) = _
  rw [h]

theorem bind_of_error {p : CallM X S E α} {f : α → CallM X S E β} {w w' : World S E} {x : X}
    (h : p w = (.error x, w')) : (p >>= f) w = (.error x, w') := by
  change (match p w with | (.ok a, w) => f a w | (.error x, w) => (.error x, w)) = _
  rw [h]

theorem look_bind (f : S → CallM X S E β) (w : World S E) : (look >>= f) w = f w.state w := rfl

theorem bind_eq_ok {p : CallM X S E α} {f : α → CallM X S E β} {w w' : World S E} {b : β} :
    (p >>= f) w = (.ok b, w') ↔ ∃ a v, p w = (.ok a, v) ∧ f a v = (.ok b, w') := by
  rcases hp : p w with ⟨x | a, v⟩
  · rw [bind_of_error hp]
    simp
  · rw [bind_of_ok hp]
    constructor
    · exact fun h => ⟨a, v, rfl, h⟩
    · rintro ⟨a', v', heq, h⟩
      cases heq
      exact h

/-- What is returned at the end does not matter for what was done. -/
theorem snd_bind_pure (p : CallM X S E α) (b : β) (w : World S E) :
    ((p >>= fun _ => pure b) w).2 = (p w).2 := by
  rcases hp : p w with ⟨x | a, v⟩
  · rw [bind_of_error hp]
  · rw [bind_of_ok hp]
    rfl

theorem forEach_append (f : β → CallM X S E Unit) (bs cs : List β) :
    forEach f (bs ++ cs) = (do
      forEach f bs
      forEach f cs) := by
  funext w
  induction bs generalizing w with
  | nil => rfl
  | cons b bs ih =>
    rw [List.cons_append, forEach, forEach]
    rcases hb : f b w with ⟨x | _, v⟩
    · rw [bind_of_error hb, bind_of_error (bind_of_error hb)]
    · rw [bind_of_ok hb, ih]
      rcases hbs : forEach f bs v with ⟨x | _, u⟩
      · rw [bind_of_error hbs, bind_of_error ((bind_of_ok hb).trans hbs)]
      · rw [bind_of_ok hbs, bind_of_ok ((bind_of_ok hb).trans hbs)]

/-- A loop in a loop is one loop. -/
theorem forEach_flatMap {γ δ : Type} (f : δ → CallM X S E Unit) (k : β → γ → δ) (g : β → List γ) (bs : List β) :
    forEach (fun b => forEach (fun c => f (k b c)) (g b)) bs = forEach f (bs.flatMap fun b => (g b).map (k b)) := by
  have hinner : ∀ (b : β) (cs : List γ), forEach f (cs.map (k b)) = forEach (fun c => f (k b c)) cs := by
    intro b cs
    induction cs with
    | nil => rfl
    | cons c cs ih => rw [List.map_cons, forEach, forEach, ih]
  induction bs with
  | nil => rfl
  | cons b bs ih => rw [List.flatMap_cons, forEach_append, hinner, forEach, ih]

/-- A loop that comes to its end goes through every round of its body. -/
theorem forEach_ok (view : S → V) {g : β → V → V} {f : β → CallM X S E Unit}
    (hf : ∀ b w w', f b w = (.ok (), w') → view w'.state = g b (view w.state)) {bs : List β} {w w' : World S E}
    (h : forEach f bs w = (.ok (), w')) : view w'.state = bs.foldl (fun v b => g b v) (view w.state) := by
  induction bs generalizing w with
  | nil =>
    cases h
    rfl
  | cons b bs ih =>
    obtain ⟨_, v, hb, hbs⟩ := bind_eq_ok.mp h
    rw [ih hbs, hf b w v hb]
    rfl

/-- Effects that change nothing of what is read off them. -/
theorem foldl_of_fixed {A : Type} {f : A → E → A} {es : List E} (h : ∀ e ∈ es, ∀ a, f a e = a) (a : A) :
    es.foldl f a = a := by
  induction es with
  | nil => rfl
  | cons e es ih =>
    obtain ⟨he, hes⟩ := List.forall_mem_cons.mp h
    rw [List.foldl_cons, he]
    exact ih hes

theorem attempt_throws (x : X) {w : World S E} (h : w.count ∈ w.throwsAt) :
    attempt x w = (.error x, { w with count := w.count + 1 }) := by
  rw [attempt, if_pos h]

theorem attempt_ok (x : X) {w : World S E} (h : w.count ∉ w.throwsAt) :
    attempt x w = (.ok (), { w with count := w.count + 1 }) := by
  rw [attempt, if_neg h]

/-- A sequence of calls comes to its end if none of them throws. -/
theorem forEach_attempt_ok (x : X) (bs : List β) (w : World S E) (h : ∀ k < bs.length, w.count + k ∉ w.throwsAt) :
    forEach (fun _ => attempt x) bs w = (.ok (), { w with count := w.count + bs.length }) := by
  induction bs generalizing w with
  | nil => rfl
  | cons b bs ih =>
    rw [forEach, bind_of_ok (attempt_ok x (h 0 (Nat.succ_pos _))), ih]
    · rw [List.length_cons, Nat.add_right_comm]
      rfl
    · intro k hk
      have hnext := h (k + 1) (Nat.succ_lt_succ hk)
      rwa [← Nat.add_assoc, Nat.add_right_comm] at hnext

theorem forEach_attempt_fails (x : X) (bs : List β) (w : World S E) (h : ¬ ∀ k < bs.length, w.count + k ∉ w.throwsAt) :
    ∃ n, forEach (fun _ => attempt x) bs w = (.error x, { w with count := n }) := by
  induction bs generalizing w with
  | nil => exact absurd (fun k hk => absurd hk (Nat.not_lt_zero k)) h
  | cons b bs ih =>
    by_cases hthrows : w.count ∈ w.throwsAt
    · exact ⟨w.count + 1, bind_of_error (attempt_throws x hthrows)⟩
    · rw [forEach, bind_of_ok (attempt_ok x hthrows)]
      refine ih _ fun hrest => h fun k hk => ?_
      cases k with
      | zero => exact hthrows
      | succ k =>
        have hnext := hrest k (Nat.lt_of_succ_lt_succ hk)
        rwa [← Nat.add_assoc, Nat.add_right_comm]

theorem completes_of_ok [DecidableEq X] {x : X} {p : CallM X S E Unit} {w w' : World S E} (h : p w = (.ok (), w')) :
    completes x p w = (.ok true, w') := by
  rw [completes, h]

theorem completes_of_error [DecidableEq X] {x : X} {p : CallM X S E Unit} {w w' : World S E}
    (h : p w = (.error x, w')) : completes x p w = (.ok false, w') := by
  rw [completes, h]
  exact congrArg (·, w') (if_pos rfl)

/-- A `try` block of calls comes to its end unless one of them throws. -/
theorem completes_attempts [DecidableEq X] (x : X) (bs : List β) (w : World S E) :
    ∃ n, completes x (forEach (fun _ => attempt x) bs) w =
      (.ok (decide (∀ k < bs.length, w.count + k ∉ w.throwsAt)), { w with count := n }) := by
  by_cases h : ∀ k < bs.length, w.count + k ∉ w.throwsAt
  · rw [completes_of_ok (forEach_attempt_ok x bs w h), decide_eq_true h]
    exact ⟨_, rfl⟩
  · obtain ⟨n, hn⟩ := forEach_attempt_fails x bs w h
    rw [completes_of_error hn, decide_eq_false h]
    exact ⟨n, rfl⟩

end Programs

/-! ## The frame rule -/

section Frame

/-- Whatever throws, the program keeps the view `v` of the state, and each of its effects is of this kind. -/
def Within (view : S → V) (v : V) (Kind : E → Prop) (p : CallM X S E α) : Prop :=
  ∀ w, view w.state = v → view (p w).2.state = v ∧
    ∃ effects, (p w).2.effects = w.effects ++ effects ∧ ∀ e ∈ effects, Kind e

variable {view : S → V} {v : V} {Kind Kind' : E → Prop} {p : CallM X S E α}

theorem Within.mono (h : Within view v Kind p) (hkind : ∀ e, Kind e → Kind' e) : Within view v Kind' p := by
  intro w hw
  obtain ⟨hview, effects, heffects, hall⟩ := h w hw
  exact ⟨hview, effects, heffects, fun e he => hkind e (hall e he)⟩

/-- A coarser view is kept too. -/
theorem Within.coarsen {W : Type} {g : S → W} {f : W → V} (h : ∀ u, f u = v → Within g u Kind p) :
    Within (fun s => f (g s)) v Kind p := by
  intro w hw
  obtain ⟨hview, heffects⟩ := h (g w.state) hw w rfl
  exact ⟨(congrArg f hview).trans hw, heffects⟩

theorem within_pure (a : α) : Within view v Kind (pure a : CallM X S E α) := fun _ hw =>
  ⟨hw, [], (List.append_nil _).symm, by simp⟩

theorem within_throw (x : X) : Within view v Kind (throw x : CallM X S E α) := fun _ hw =>
  ⟨hw, [], (List.append_nil _).symm, by simp⟩

theorem within_attempt (x : X) : Within view v Kind (attempt x : CallM X S E Unit) := fun _ hw =>
  ⟨hw, [], (List.append_nil _).symm, by simp⟩

theorem within_update {f : S → S} (h : ∀ s, view s = v → view (f s) = v) :
    Within view v Kind (update f : CallM X S E Unit) := fun w hw =>
  ⟨h w.state hw, [], (List.append_nil _).symm, by simp⟩

theorem within_emit {e : E} (h : Kind e) : Within view v Kind (emit e : CallM X S E Unit) := fun _ hw =>
  ⟨hw, [e], rfl, by simpa using h⟩

theorem Within.bind {f : α → CallM X S E β} (hp : Within view v Kind p) (hf : ∀ a, Within view v Kind (f a)) :
    Within view v Kind (p >>= f) := by
  intro w hw
  obtain ⟨hview, effects, heffects, hkind⟩ := hp w hw
  rcases hpw : p w with ⟨x | a, w'⟩
  · rw [hpw] at hview heffects
    rw [bind_of_error hpw]
    exact ⟨hview, effects, heffects, hkind⟩
  · rw [hpw] at hview heffects
    obtain ⟨hview', effects', heffects', hkind'⟩ := hf a w' hview
    rw [bind_of_ok hpw]
    refine ⟨hview', effects ++ effects', ?_, List.forall_mem_append.mpr ⟨hkind, hkind'⟩⟩
    rw [heffects', heffects, List.append_assoc]

/-- A program that looks at the state knows its view. -/
theorem within_look {f : S → CallM X S E β} (hf : ∀ s, view s = v → Within view v Kind (f s)) :
    Within view v Kind (look >>= f) := fun w hw => hf w.state hw w hw

theorem within_call {x : X} {e : E} (h : Kind e) : Within view v Kind (call x e : CallM X S E Unit) :=
  (within_attempt x).bind fun _ => within_emit h

theorem Within.completes [DecidableEq X] {x : X} {p : CallM X S E Unit} (h : Within view v Kind p) :
    Within view v Kind (completes x p) := by
  intro w hview
  have hw : (CallM.completes x p w).2 = (p w).2 := by
    unfold CallM.completes
    rcases p w with ⟨_ | _, w'⟩ <;> rfl
  rw [hw]
  exact h w hview

theorem Within.forEach {f : β → CallM X S E Unit} {bs : List β} (h : ∀ b ∈ bs, Within view v Kind (f b)) :
    Within view v Kind (forEach f bs) := by
  induction bs with
  | nil => exact within_pure ()
  | cons b bs ih =>
    obtain ⟨hb, hbs⟩ := List.forall_mem_cons.mp h
    exact hb.bind fun _ => ih hbs

end Frame

/-! ## What is thrown -/

section Thrown

/-- Whatever throws, an exception that gets out of the program is one of these. -/
def Throws (Q : X → Prop) (p : CallM X S E α) : Prop := ∀ w x w', p w = (.error x, w') → Q x

/-- No exception gets out of the program. -/
def Returns (p : CallM X S E α) : Prop := Throws (fun _ => False) p

variable {Q R : X → Prop} {p : CallM X S E α}

theorem Returns.eq_ok (h : Returns p) (w : World S E) : ∃ a w', p w = (.ok a, w') := by
  rcases hp : p w with ⟨x | a, w'⟩
  · exact (h w x w' hp).elim
  · exact ⟨a, w', rfl⟩

theorem Throws.mono (h : Throws Q p) (hQ : ∀ x, Q x → R x) : Throws R p := fun w x w' hp => hQ x (h w x w' hp)

theorem throws_pure (a : α) : Throws Q (pure a : CallM X S E α) := by
  intro w x w' hp
  cases hp

theorem throws_update (f : S → S) : Throws Q (update f : CallM X S E Unit) := by
  intro w x w' hp
  cases hp

theorem throws_emit (e : E) : Throws Q (emit e : CallM X S E Unit) := by
  intro w x w' hp
  cases hp

theorem throws_attempt {x : X} (h : Q x) : Throws Q (attempt x : CallM X S E Unit) := by
  intro w y w' hp
  rw [attempt, Prod.mk.injEq] at hp
  obtain ⟨hp, -⟩ := hp
  split_ifs at hp
  rwa [← Except.error.inj hp]

theorem Throws.bind {f : α → CallM X S E β} (hp : Throws Q p) (hf : ∀ a, Throws Q (f a)) : Throws Q (p >>= f) := by
  intro w x w' h
  rcases hw : p w with ⟨y | a, v⟩
  · rw [bind_of_error hw] at h
    obtain rfl := Except.error.inj (Prod.mk.inj h).1
    exact hp w y v hw
  · rw [bind_of_ok hw] at h
    exact hf a v x w' h

/-- A program that looks at the state. -/
theorem throws_look {f : S → CallM X S E β} (hf : ∀ s, Throws Q (f s)) : Throws Q (look >>= f) :=
  fun w => hf w.state w

theorem throws_call {x : X} {e : E} (h : Q x) : Throws Q (call x e : CallM X S E Unit) :=
  (throws_attempt h).bind fun _ => throws_emit e

theorem Throws.forEach {f : β → CallM X S E Unit} {bs : List β} (h : ∀ b ∈ bs, Throws Q (f b)) :
    Throws Q (forEach f bs) := by
  induction bs with
  | nil => exact throws_pure ()
  | cons b bs ih =>
    obtain ⟨hb, hbs⟩ := List.forall_mem_cons.mp h
    exact hb.bind fun _ => ih hbs

/-- The handler of a `try` block takes one exception. -/
theorem Throws.completes [DecidableEq X] {x : X} {p : CallM X S E Unit} (h : Throws (fun y => y ≠ x → Q y) p) :
    Throws Q (completes x p) := by
  intro w y w' hp
  rcases hw : p w with ⟨z | u, v⟩
  · rw [CallM.completes, hw] at hp
    obtain ⟨hp, -⟩ := Prod.mk.inj hp
    split_ifs at hp with hz
    obtain rfl := Except.error.inj hp
    exact h w z v hw hz
  · rw [completes_of_ok hw] at hp
    cases hp

/-- A sequence of calls outside of a `try` block. -/
theorem forEach_call_ok_iff (x : X) (e : β → E) (bs : List β) (w : World S E) :
    (forEach (fun b => call x (e b)) bs w).1 = .ok () ↔ ∀ k < bs.length, w.count + k ∉ w.throwsAt := by
  induction bs generalizing w with
  | nil => exact iff_of_true rfl fun k hk => absurd hk (Nat.not_lt_zero k)
  | cons b bs ih =>
    by_cases hthrows : w.count ∈ w.throwsAt
    · have hb : call x (e b) w = (.error x, { w with count := w.count + 1 }) :=
        bind_of_error (attempt_throws x hthrows)
      rw [forEach, bind_of_error hb]
      refine iff_of_false (fun h => ?_) fun h => h 0 (Nat.succ_pos _) hthrows
      cases h
    · have hb : call x (e b) w = (.ok (), { w with effects := w.effects ++ [e b], count := w.count + 1 }) :=
        bind_of_ok (attempt_ok x hthrows)
      rw [forEach, bind_of_ok hb, ih]
      dsimp only
      constructor
      · intro h k hk
        cases k with
        | zero => exact hthrows
        | succ k =>
          have hnext := h k (Nat.lt_of_succ_lt_succ hk)
          rwa [Nat.add_right_comm] at hnext
      · intro h k hk
        have hnext := h (k + 1) (Nat.succ_lt_succ hk)
        rwa [← Nat.add_assoc, Nat.add_right_comm] at hnext

end Thrown

/-! ## What a program does -/

section Yields

/-- Whatever throws, the state before, the state after and the effects are related by `R`. -/
def Yields (R : S → S → List E → Prop) (p : CallM X S E α) : Prop :=
  ∀ w, ∃ effects, (p w).2.effects = w.effects ++ effects ∧ R w.state (p w).2.state effects

/-- A relation of the steps of a program that holds of all of them together. -/
structure Composes (R : S → S → List E → Prop) : Prop where
  refl : ∀ s, R s s []
  trans : ∀ s t u es fs, R s t es → R t u fs → R s u (es ++ fs)

variable {R : S → S → List E → Prop} {p : CallM X S E α}

theorem Yields.bind {f : α → CallM X S E β} (hR : Composes R) (hp : Yields R p) (hf : ∀ a, Yields R (f a)) :
    Yields R (p >>= f) := by
  intro w
  obtain ⟨es, hes, hw⟩ := hp w
  rcases hpw : p w with ⟨x | a, w'⟩
  · rw [hpw] at hes hw
    rw [bind_of_error hpw]
    exact ⟨es, hes, hw⟩
  · rw [hpw] at hes hw
    obtain ⟨fs, hfs, hw'⟩ := hf a w'
    rw [bind_of_ok hpw]
    refine ⟨es ++ fs, ?_, hR.trans _ _ _ _ _ hw hw'⟩
    rw [hfs, hes, List.append_assoc]

theorem Yields.forEach {f : β → CallM X S E Unit} (hR : Composes R) {bs : List β} (h : ∀ b ∈ bs, Yields R (f b)) :
    Yields R (forEach f bs) := by
  induction bs with
  | nil => exact fun w => ⟨[], (List.append_nil _).symm, hR.refl w.state⟩
  | cons b bs ih =>
    obtain ⟨hb, hbs⟩ := List.forall_mem_cons.mp h
    exact hb.bind hR fun _ => ih hbs

theorem yields_look {f : S → CallM X S E β} (hf : ∀ s, Yields R (f s)) : Yields R (look >>= f) :=
  fun w => hf w.state w

/-- What is known of every program that keeps a view. -/
theorem Within.yields {view : S → V} {Kind : E → Prop} (h : ∀ s, Within view (view s) Kind p)
    (hR : ∀ s s' es, view s' = view s → (∀ e ∈ es, Kind e) → R s s' es) : Yields R p := by
  intro w
  obtain ⟨hview, es, hes, hkind⟩ := h w.state w rfl
  exact ⟨es, hes, hR _ _ _ hview hkind⟩

end Yields

/-! ## When a program comes to its end -/

section Leaves

/-- A program that comes to its end, started in `s`, has kept the state and leaves these effects behind. -/
def Leaves (p : CallM X S E α) (s : S) (effects : List E) : Prop :=
  ∀ w a w', w.state = s → p w = (.ok a, w') → w'.state = s ∧ w'.effects = w.effects ++ effects

variable {s : S} {es fs : List E}

theorem leaves_pure (a : α) : Leaves (pure a : CallM X S E α) s [] := by
  rintro w a w' hw ⟨⟩
  exact ⟨hw, (List.append_nil _).symm⟩

theorem leaves_attempt (x : X) : Leaves (attempt x : CallM X S E Unit) s [] := by
  intro w a w' hw hp
  obtain ⟨-, rfl⟩ := Prod.mk.inj hp
  exact ⟨hw, (List.append_nil _).symm⟩

theorem leaves_emit (e : E) : Leaves (emit e : CallM X S E Unit) s [e] := by
  rintro w a w' hw ⟨⟩
  exact ⟨hw, rfl⟩

theorem Leaves.bind {p : CallM X S E α} {f : α → CallM X S E β} (hp : Leaves p s es)
    (hf : ∀ a, Leaves (f a) s fs) : Leaves (p >>= f) s (es ++ fs) := by
  intro w b w' hw h
  obtain ⟨a, v, hpa, hfa⟩ := bind_eq_ok.mp h
  obtain ⟨hv, hves⟩ := hp w a v hw hpa
  obtain ⟨hw', hfs⟩ := hf a v b w' hv hfa
  exact ⟨hw', by rw [hfs, hves, List.append_assoc]⟩

theorem leaves_look {f : S → CallM X S E β} (hf : Leaves (f s) s es) : Leaves (look >>= f) s es := by
  intro w b w' hw h
  rw [look_bind, hw] at h
  exact hf w b w' hw h

theorem Leaves.forEach {f : β → CallM X S E Unit} {g : β → List E} {bs : List β}
    (h : ∀ b ∈ bs, Leaves (f b) s (g b)) : Leaves (forEach f bs) s (bs.flatMap g) := by
  induction bs with
  | nil => exact leaves_pure ()
  | cons b bs ih =>
    obtain ⟨hb, hbs⟩ := List.forall_mem_cons.mp h
    exact hb.bind fun _ => ih hbs

end Leaves

/-! ## When nothing throws -/

section Exact

/-- When nothing throws, the program goes from one state to another with this result and these effects. -/
def Does (p : CallM X S E α) (s : S) (a : α) (s' : S) (effects : List E) : Prop :=
  ∀ w, w.state = s → w.throwsAt = [] →
    ∃ n, p w = (.ok a, { state := s', effects := w.effects ++ effects, count := n, throwsAt := [] })

theorem does_pure (s : S) (a : α) : Does (pure a : CallM X S E α) s a s [] := by
  rintro ⟨_, es, n, _⟩ rfl rfl
  exact ⟨n, by rw [List.append_nil]; rfl⟩

theorem does_look (s : S) : Does (look : CallM X S E S) s s s [] := by
  rintro ⟨_, es, n, _⟩ rfl rfl
  exact ⟨n, by rw [List.append_nil]; rfl⟩

theorem does_update (s : S) (f : S → S) : Does (update f : CallM X S E Unit) s () (f s) [] := by
  rintro ⟨_, es, n, _⟩ rfl rfl
  exact ⟨n, by rw [List.append_nil]; rfl⟩

theorem does_emit (s : S) (e : E) : Does (emit e : CallM X S E Unit) s () s [e] := by
  rintro ⟨_, es, n, _⟩ rfl rfl
  exact ⟨n, rfl⟩

theorem does_attempt (s : S) (x : X) : Does (attempt x : CallM X S E Unit) s () s [] := by
  rintro ⟨_, es, n, _⟩ rfl rfl
  exact ⟨n + 1, by rw [List.append_nil]; rfl⟩

theorem Does.bind {p : CallM X S E α} {f : α → CallM X S E β} {s s₁ s₂ : S} {a : α} {b : β} {es fs : List E}
    (hp : Does p s a s₁ es) (hf : Does (f a) s₁ b s₂ fs) : Does (p >>= f) s b s₂ (es ++ fs) := by
  intro w hs hthrows
  obtain ⟨n, hn⟩ := hp w hs hthrows
  obtain ⟨m, hm⟩ := hf { state := s₁, effects := w.effects ++ es, count := n, throwsAt := [] } rfl rfl
  refine ⟨m, ?_⟩
  rw [List.append_assoc] at hm
  rw [bind_of_ok hn]
  exact hm

theorem does_call (s : S) (x : X) (e : E) : Does (call x e : CallM X S E Unit) s () s [e] :=
  (does_attempt s x).bind (does_emit s e)

theorem Does.completes [DecidableEq X] {x : X} {p : CallM X S E Unit} {s s' : S} {es : List E}
    (h : Does p s () s' es) : Does (completes x p) s true s' es := by
  intro w hs hthrows
  obtain ⟨n, hn⟩ := h w hs hthrows
  exact ⟨n, completes_of_ok hn⟩

/-- A loop whose body keeps the state. -/
theorem Does.forEach {f : β → CallM X S E Unit} {g : β → List E} {s : S} {bs : List β}
    (h : ∀ b ∈ bs, Does (f b) s () s (g b)) : Does (forEach f bs) s () s (bs.flatMap g) := by
  induction bs with
  | nil => exact does_pure s ()
  | cons b bs ih =>
    obtain ⟨hb, hbs⟩ := List.forall_mem_cons.mp h
    exact hb.bind (ih hbs)

theorem Does.of_eq {p : CallM X S E α} {s s' t : S} {a : α} {es fs : List E} (h : Does p s a s' es)
    (hs : s' = t) (he : es = fs) : Does p s a t fs := hs ▸ he ▸ h

end Exact

end CallM

end Lib
