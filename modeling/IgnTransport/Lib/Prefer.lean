import Mathlib

/-!
# Lib.Prefer — a search that keeps a second choice

A loop that keeps the first entry it meets, and gives up an entry of a lower class for one that is not: what it keeps
in the end is the first entry that is not of the lower class, and the very first one if all are (`foldl_prefer`).  The
first entries of nested classes are compared by `find?_of_imp` and `find?_or`.
-/

namespace Lib

variable {α : Type} {P Q : α → Prop} [DecidablePred P] [DecidablePred Q] {l : List α} {a : α}

/-- One turn: the entry that is kept gives way if it is of the lower class and the new one is not. -/
def prefer (Lower : α → Prop) [DecidablePred Lower] : Option α → α → Option α
  | none, a => some a
  | some kept, a => if Lower kept ∧ ¬ Lower a then some a else some kept

theorem foldl_prefer_some (kept : α) :
    l.foldl (prefer P) (some kept) = some (if P kept then (l.find? fun a => ¬ P a).getD kept else kept) := by
  induction l generalizing kept with
  | nil => simp
  | cons a l ih =>
    rw [List.foldl_cons, prefer, List.find?_cons]
    by_cases hkept : P kept
    · by_cases ha : P a
      · simp [hkept, ha, ih]
      · simp [hkept, ha, ih]
    · simp [hkept, ih]

/-- **What the search keeps.** -/
theorem foldl_prefer : l.foldl (prefer P) none = (l.find? fun a => ¬ P a).or l.head? := by
  cases l with
  | nil => rfl
  | cons a l =>
    rw [List.foldl_cons, prefer, foldl_prefer_some, List.find?_cons]
    by_cases ha : P a
    · simp only [ha, not_true_eq_false, decide_false, if_true, List.head?_cons]
      cases l.find? (fun a => decide ¬ P a) <;> rfl
    · simp [ha]

/-- The first entry of a class, if it is in a smaller class, is the first of that. -/
theorem find?_of_imp (h : ∀ a, Q a → P a) (hfirst : l.find? (fun a => P a) = some a) (ha : Q a) :
    l.find? (fun a => Q a) = some a := by
  obtain ⟨-, before, after, rfl, hbefore⟩ := List.find?_eq_some_iff_append.mp hfirst
  refine List.find?_eq_some_iff_append.mpr ⟨by simpa using ha, before, after, rfl, fun b hb => ?_⟩
  have hb := hbefore b hb
  simp only [Bool.not_eq_true', decide_eq_false_iff_not] at hb ⊢
  exact fun hq => hb (h b hq)

/-- The first entry of two classes is the first of either. -/
theorem find?_or (hP : l.find? (fun a => P a) = some a) (hQ : l.find? (fun a => Q a) = some a) :
    l.find? (fun a => P a ∨ Q a) = some a := by
  induction l with
  | nil => cases hP
  | cons b l ih =>
    rw [List.find?_cons] at hP hQ ⊢
    by_cases hp : P b
    · simp_all
    · by_cases hq : Q b
      · simp_all
      · simp_all

end Lib
