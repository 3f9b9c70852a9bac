import Mathlib
import IgnTransport.Lib.OrderedMap

/-!
# Lib.Table — a two-level map without empty cells

`Table K₁ K₂ C` is a map of maps to cells in which no cell is empty and no inner map is empty, so a key is present
exactly when something is stored under it and two tables with the same cells are equal.  `set` writes a cell and
prunes what it leaves empty; `eraseInner` drops an inner key everywhere.  Every fact about a table is a fact about
its cells (`cell_set`, `cell_eraseInner`, `hasRow_iff`, `ext_cell`).
-/

set_option linter.unusedSectionVars false

namespace Lib

/-- Cells with an empty value that can be recognised. -/
class Cell (C : Type) where
  empty : C
  isEmpty : C → Bool
  isEmpty_iff : ∀ c, isEmpty c = true ↔ c = empty

instance {α : Type} : Cell (List α) where
  empty := []
  isEmpty := List.isEmpty
  isEmpty_iff _ := List.isEmpty_iff

@[simp] theorem Cell.empty_list {α : Type} : (Cell.empty : List α) = [] := rfl

instance {K V : Type} [Ord K] [Std.TransOrd K] : Cell (Std.ExtTreeMap K V) where
  empty := ∅
  isEmpty := Std.ExtTreeMap.isEmpty
  isEmpty_iff _ := Std.ExtTreeMap.isEmpty_iff

/-- A map of maps to cells, with nothing empty in it. -/
structure Table (K₁ K₂ C : Type) [Ord K₁] [Std.TransOrd K₁] [Ord K₂] [Std.TransOrd K₂] [Cell C] where
  rows : Std.ExtTreeMap K₁ (Std.ExtTreeMap K₂ C)
  row_nonempty : ∀ (t : K₁) m, rows[t]? = some m → m.isEmpty = false
  cell_nonempty : ∀ (t : K₁) m (p : K₂) c, rows[t]? = some m → m[p]? = some c → c ≠ Cell.empty

namespace Table

variable {K₁ K₂ C : Type} [Ord K₁] [Std.TransOrd K₁] [Ord K₂] [Std.TransOrd K₂] [Cell C]

/-! ## Operations -/

section Operations

/-- The inner map of a key, empty if the key is absent. -/
def row (s : Table K₁ K₂ C) (t : K₁) : Std.ExtTreeMap K₂ C := s.rows.getD t ∅

/-- What is stored under two keys. -/
def cell (s : Table K₁ K₂ C) (t : K₁) (p : K₂) : C := (s.row t).getD p Cell.empty

def hasRow (s : Table K₁ K₂ C) (t : K₁) : Bool := s.rows.contains t

def hasCell (s : Table K₁ K₂ C) (t : K₁) (p : K₂) : Bool := (s.row t).contains p

/-- The table with no entry. -/
def empty : Table K₁ K₂ C where
  rows := ∅
  row_nonempty t m h := by simp at h
  cell_nonempty t m p c h := by simp at h

/-- The inner map after a cell was written. -/
def setRow (m : Std.ExtTreeMap K₂ C) (p : K₂) (c : C) : Std.ExtTreeMap K₂ C :=
  if Cell.isEmpty c then m.erase p else m.insert p c

/-- A row written back, or dropped if nothing is left in it. -/
def setRows (r : Std.ExtTreeMap K₁ (Std.ExtTreeMap K₂ C)) (t : K₁) (m : Std.ExtTreeMap K₂ C) :
    Std.ExtTreeMap K₁ (Std.ExtTreeMap K₂ C) :=
  if m.isEmpty then r.erase t else r.insert t m

/-- The row without an inner key, or nothing if that was its last one. -/
def dropInner (p : K₂) (m : Std.ExtTreeMap K₂ C) : Option (Std.ExtTreeMap K₂ C) :=
  if (m.erase p).isEmpty then none else some (m.erase p)

theorem row_of_getElem? {s : Table K₁ K₂ C} {t : K₁} {m : Std.ExtTreeMap K₂ C} (h : s.rows[t]? = some m) :
    s.row t = m := by
  rw [row, Std.ExtTreeMap.getD_eq_getD_getElem?, h, Option.getD_some]

theorem row_of_none {s : Table K₁ K₂ C} {t : K₁} (h : s.rows[t]? = none) : s.row t = ∅ := by
  rw [row, Std.ExtTreeMap.getD_eq_getD_getElem?, h, Option.getD_none]

theorem getElem?_row (s : Table K₁ K₂ C) (t : K₁) (p : K₂) :
    (s.row t)[p]? = if Cell.isEmpty (s.cell t p) then none else some (s.cell t p) := by
  rw [cell, Std.ExtTreeMap.getD_eq_getD_getElem?]
  cases hp : (s.row t)[p]? with
  | none => rw [Option.getD_none, if_pos ((Cell.isEmpty_iff _).mpr rfl)]
  | some c =>
    have hc : c ≠ Cell.empty := by
      cases ht : s.rows[t]? with
      | none => rw [row_of_none ht, Std.ExtTreeMap.getElem?_empty] at hp; cases hp
      | some m => exact s.cell_nonempty t m p c ht (by rw [← row_of_getElem? ht]; exact hp)
    rw [Option.getD_some, if_neg (fun h => hc ((Cell.isEmpty_iff _).mp h))]

variable [Std.LawfulEqOrd K₁] [Std.LawfulEqOrd K₂] [DecidableEq K₁] [DecidableEq K₂]

theorem getElem?_setRow (m : Std.ExtTreeMap K₂ C) (p q : K₂) (c : C) :
    (setRow m p c)[q]? = if q = p then (if Cell.isEmpty c then none else some c) else m[q]? := by
  unfold setRow
  split_ifs with hc hq hq
  · rw [getElem?_erase', if_pos hq]
  · rw [getElem?_erase', if_neg hq]
  · rw [getElem?_insert', if_pos hq]
  · rw [getElem?_insert', if_neg hq]

theorem getElem?_setRows (r : Std.ExtTreeMap K₁ (Std.ExtTreeMap K₂ C)) (t u : K₁) (m : Std.ExtTreeMap K₂ C) :
    (setRows r t m)[u]? = if u = t then (if m.isEmpty then none else some m) else r[u]? := by
  unfold setRows
  split_ifs with hm hu hu
  · rw [getElem?_erase', if_pos hu]
  · rw [getElem?_erase', if_neg hu]
  · rw [getElem?_insert', if_pos hu]
  · rw [getElem?_insert', if_neg hu]

/-- Write a cell; an empty cell is dropped, and with it a row that has no other. -/
def set (s : Table K₁ K₂ C) (t : K₁) (p : K₂) (c : C) : Table K₁ K₂ C where
  rows := setRows s.rows t (setRow (s.row t) p c)
  row_nonempty u m h := by
    rw [getElem?_setRows] at h
    split_ifs at h with hu hm
    · rw [← Option.some.inj h]; exact Bool.eq_false_iff.mpr hm
    · exact s.row_nonempty u m h
  cell_nonempty u m q d h hd := by
    rw [getElem?_setRows] at h
    split_ifs at h with hu hm
    · rw [← Option.some.inj h, getElem?_setRow] at hd
      split_ifs at hd with hq hc
      · rw [← Option.some.inj hd]; exact fun h0 => hc ((Cell.isEmpty_iff _).mpr h0)
      · rw [getElem?_row] at hd
        split_ifs at hd with hc
        rw [← Option.some.inj hd]; exact fun h0 => hc ((Cell.isEmpty_iff _).mpr h0)
    · exact s.cell_nonempty u m q d h hd

theorem getElem?_dropInner {m m' : Std.ExtTreeMap K₂ C} {p : K₂} (h : dropInner p m = some m') (q : K₂) :
    m'[q]? = if q = p then none else m[q]? := by
  unfold dropInner at h
  split_ifs at h
  rw [← Option.some.inj h, getElem?_erase']

/-- Drop an inner key from every row. -/
def eraseInner (s : Table K₁ K₂ C) (p : K₂) : Table K₁ K₂ C where
  rows := updateEach (fun _ m => dropInner p m) s.rows
  row_nonempty t m h := by
    rw [getElem?_updateEach, Option.bind_eq_some_iff] at h
    obtain ⟨m₀, -, h⟩ := h
    unfold dropInner at h
    split_ifs at h with hm
    rw [← Option.some.inj h]
    exact Bool.eq_false_iff.mpr hm
  cell_nonempty t m q c h hc := by
    rw [getElem?_updateEach, Option.bind_eq_some_iff] at h
    obtain ⟨m₀, hm₀, h⟩ := h
    rw [getElem?_dropInner h] at hc
    split_ifs at hc
    exact s.cell_nonempty t m₀ q c hm₀ hc

/-- Keep these inner keys of every row. -/
def keepInner (s : Table K₁ K₂ C) (keep : K₂ → Bool) : Table K₁ K₂ C where
  rows := s.rows.filterMap fun _ m =>
    if (m.filter fun p _ => keep p).isEmpty then none else some (m.filter fun p _ => keep p)
  row_nonempty t m h := by
    rw [Std.ExtTreeMap.getElem?_filterMap', Option.bind_eq_some_iff] at h
    obtain ⟨m₀, -, h⟩ := h
    split_ifs at h with hm
    rw [← Option.some.inj h]
    exact Bool.eq_false_iff.mpr hm
  cell_nonempty t m q c h hc := by
    rw [Std.ExtTreeMap.getElem?_filterMap', Option.bind_eq_some_iff] at h
    obtain ⟨m₀, hm₀, h⟩ := h
    split_ifs at h
    rw [← Option.some.inj h, Std.ExtTreeMap.getElem?_filter', Option.filter_eq_some_iff] at hc
    exact s.cell_nonempty t m₀ q c hm₀ hc.1

end Operations

/-! ## Cells -/

section Cells

@[simp] theorem cell_empty (t : K₁) (p : K₂) : (empty : Table K₁ K₂ C).cell t p = Cell.empty := by
  rw [cell, row_of_none (by exact Std.ExtTreeMap.getElem?_empty), Std.ExtTreeMap.getD_empty]

theorem getD_of_eq_ite {m : Option C} {c : C} (hm : m = if Cell.isEmpty c then none else some c) :
    m.getD Cell.empty = c := by
  split_ifs at hm with hc
  · rw [hm, Option.getD_none, (Cell.isEmpty_iff c).mp hc]
  · rw [hm, Option.getD_some]

theorem cell_eq_getD (s : Table K₁ K₂ C) (t : K₁) (p : K₂) :
    s.cell t p = ((s.rows[t]?).bind fun m => m[p]?).getD Cell.empty := by
  rw [cell, Std.ExtTreeMap.getD_eq_getD_getElem?]
  cases ht : s.rows[t]? with
  | none => rw [row_of_none ht, Std.ExtTreeMap.getElem?_empty]; rfl
  | some m => rw [row_of_getElem? ht]; rfl

variable [Std.LawfulEqOrd K₁] [Std.LawfulEqOrd K₂] [DecidableEq K₁] [DecidableEq K₂]

/-- A written cell is read back, and no other cell is touched. -/
theorem cell_set (s : Table K₁ K₂ C) (t u : K₁) (p q : K₂) (c : C) :
    (s.set t p c).cell u q = if u = t ∧ q = p then c else s.cell u q := by
  rw [cell_eq_getD]
  change (((setRows s.rows t (setRow (s.row t) p c))[u]?).bind fun m => m[q]?).getD Cell.empty = _
  rw [getElem?_setRows]
  by_cases hu : u = t
  · subst hu
    have hrow : ((if (setRow (s.row u) p c).isEmpty then none else some (setRow (s.row u) p c)).bind
        fun m => m[q]?) = (setRow (s.row u) p c)[q]? := by
      split_ifs with hm
      · rw [(isEmpty_iff_forall _).mp hm q]; rfl
      · rfl
    rw [if_pos rfl, hrow, getElem?_setRow]
    by_cases hq : q = p
    · simp only [hq, and_self, if_true]
      exact getD_of_eq_ite rfl
    · simp only [hq, and_false, if_false]
      exact getD_of_eq_ite (getElem?_row s u q)
  · rw [if_neg hu, if_neg (fun h => hu h.1), cell_eq_getD]

/-- A cell that is not empty is written without pruning. -/
theorem rows_set (s : Table K₁ K₂ C) (t : K₁) (p : K₂) {c : C} (hc : c ≠ Cell.empty) :
    (s.set t p c).rows = s.rows.insert t ((s.row t).insert p c) := by
  have hrow : setRow (s.row t) p c = (s.row t).insert p c := if_neg fun h => hc ((Cell.isEmpty_iff c).mp h)
  have hne : ((s.row t).insert p c).isEmpty = false := by
    rw [Bool.eq_false_iff, Ne, isEmpty_iff_forall]
    intro hall
    have hp := hall p
    rw [getElem?_insert', if_pos rfl] at hp
    cases hp
  change setRows s.rows t (setRow (s.row t) p c) = _
  rw [hrow, setRows, hne]
  rfl

/-- Only the cells of the dropped key are emptied. -/
theorem cell_eraseInner (s : Table K₁ K₂ C) (p : K₂) (u : K₁) (q : K₂) :
    (s.eraseInner p).cell u q = if q = p then Cell.empty else s.cell u q := by
  rw [cell_eq_getD, cell_eq_getD s]
  change (((updateEach (fun _ m => dropInner p m) s.rows)[u]?).bind fun m => m[q]?).getD Cell.empty = _
  rw [getElem?_updateEach]
  cases s.rows[u]? with
  | none => simp
  | some m =>
    have hdrop : ((dropInner p m).bind fun m => m[q]?) = if q = p then none else m[q]? := by
      cases hm : dropInner p m with
      | some m' => exact getElem?_dropInner hm q
      | none =>
        unfold dropInner at hm
        split_ifs at hm with hempty
        have := (isEmpty_iff_forall _).mp hempty q
        rw [getElem?_erase'] at this
        rw [this]; rfl
    simp only [Option.bind_some, hdrop]
    split_ifs <;> rfl

/-- Only the cells of the keys that are not kept are emptied. -/
theorem cell_keepInner (s : Table K₁ K₂ C) (keep : K₂ → Bool) (u : K₁) (q : K₂) :
    (s.keepInner keep).cell u q = if keep q then s.cell u q else Cell.empty := by
  have hkept : ∀ m : Std.ExtTreeMap K₂ C,
      ((if (m.filter fun p _ => keep p).isEmpty then none else some (m.filter fun p _ => keep p)).bind
        fun m => m[q]?) = if keep q then m[q]? else none := by
    intro m
    have hq : (m.filter fun p _ => keep p)[q]? = if keep q then m[q]? else none := by
      rw [Std.ExtTreeMap.getElem?_filter']
      cases m[q]? <;> cases keep q <;> rfl
    rw [← hq]
    split_ifs with hm
    · rw [(isEmpty_iff_forall _).mp hm q]
      rfl
    · rfl
  rw [cell_eq_getD, cell_eq_getD s]
  simp only [keepInner, Std.ExtTreeMap.getElem?_filterMap']
  cases s.rows[u]? with
  | none => simp
  | some m =>
    simp only [Option.bind_some, hkept]
    split_ifs <;> rfl

theorem hasCell_iff (s : Table K₁ K₂ C) (t : K₁) (p : K₂) : s.hasCell t p = true ↔ s.cell t p ≠ Cell.empty := by
  rw [hasCell, Std.ExtTreeMap.contains_eq_isSome_getElem?, getElem?_row]
  rw [← not_iff_not, not_not, ← Cell.isEmpty_iff]
  split_ifs with h <;> simp [h]

/-- A row is there exactly when something is stored in it. -/
theorem hasRow_iff (s : Table K₁ K₂ C) (t : K₁) : s.hasRow t = true ↔ ∃ p, s.cell t p ≠ Cell.empty := by
  rw [hasRow, Std.ExtTreeMap.contains_eq_isSome_getElem?]
  cases ht : s.rows[t]? with
  | none =>
    have hnone : ∀ p, s.cell t p = Cell.empty := fun p => by rw [cell_eq_getD, ht]; rfl
    simp [hnone]
  | some m =>
    simp only [Option.isSome_some, true_iff]
    have hm := s.row_nonempty t m ht
    by_contra hall
    push Not at hall
    refine absurd ((isEmpty_iff_forall m).mpr fun p => ?_) (Bool.eq_false_iff.mp hm)
    rw [← row_of_getElem? ht, getElem?_row, hall p, if_pos ((Cell.isEmpty_iff _).mpr rfl)]

/-- **Tables with the same cells are equal.** -/
theorem ext_cell {s s' : Table K₁ K₂ C} (h : ∀ t p, s.cell t p = s'.cell t p) : s = s' := by
  have hrow : ∀ t, s.row t = s'.row t := fun t =>
    Std.ExtTreeMap.ext_getElem? fun p => by rw [getElem?_row, getElem?_row, h t p]
  have hrows : s.rows = s'.rows := by
    refine Std.ExtTreeMap.ext_getElem? fun t => ?_
    have hsome : s.hasRow t = s'.hasRow t := by
      rw [Bool.eq_iff_iff, hasRow_iff, hasRow_iff]
      simp only [h]
    rw [hasRow, hasRow, Std.ExtTreeMap.contains_eq_isSome_getElem?,
      Std.ExtTreeMap.contains_eq_isSome_getElem?] at hsome
    have hr := hrow t
    cases ht : s.rows[t]? with
    | none => rw [ht] at hsome; exact (Option.not_isSome_iff_eq_none.mp (by simp [← hsome])).symm
    | some m =>
      cases ht' : s'.rows[t]? with
      | none => rw [ht, ht'] at hsome; simp at hsome
      | some m' => rw [row_of_getElem? ht, row_of_getElem? ht'] at hr; rw [hr]
  cases s
  cases s'
  simpa using hrows

/-- Iterating a row meets every nonempty cell of it. -/
theorem mem_row_toList (s : Table K₁ K₂ C) (t : K₁) (p : K₂) (c : C) :
    (p, c) ∈ (s.row t).toList ↔ s.cell t p = c ∧ c ≠ Cell.empty := by
  rw [Std.ExtTreeMap.mem_toList_iff_getElem?_eq_some, getElem?_row]
  split_ifs with h
  · have h0 := (Cell.isEmpty_iff _).mp h
    simp only [h0, false_iff, not_and, not_not]
    exact Eq.symm
  · have h0 : s.cell t p ≠ Cell.empty := fun h0 => h ((Cell.isEmpty_iff _).mpr h0)
    constructor
    · intro heq
      rw [Option.some.injEq] at heq
      exact ⟨heq, heq ▸ h0⟩
    · rintro ⟨heq, -⟩
      rw [heq]

end Cells

end Table

end Lib
