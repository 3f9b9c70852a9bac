import Mathlib

/-!
# Lib.OrderedMap — loops over an ordered map that erase while they iterate

A C++ loop over a `std::map` that rewrites or erases the entry it stands on is a fold over the entries in key order
that inserts into or erases from the map it started with.  `updateEach` is that loop; `getElem?_updateEach` says that
it acts on every entry once, and on that entry only.  `pushAll` fills a map of vectors by `m[k].push_back(v)`;
`getElem?_pushAll` says that a key holds what was pushed under it, in order.
-/

namespace Lib

variable {K V : Type} [Ord K] [Std.TransOrd K] [Std.LawfulEqOrd K]

section Lookup

/-- A map is empty exactly when nothing is found in it. -/
theorem isEmpty_iff_forall (m : Std.ExtTreeMap K V) : m.isEmpty = true ↔ ∀ k : K, m[k]? = none := by
  rw [Std.ExtTreeMap.isEmpty_iff]
  constructor
  · rintro rfl k
    exact Std.ExtTreeMap.getElem?_empty
  · intro h
    exact Std.ExtTreeMap.ext_getElem? fun k => by rw [h k, Std.ExtTreeMap.getElem?_empty]

theorem mem_insertSet (s : Std.ExtTreeSet K) (k a : K) : a ∈ s.insert k ↔ a = k ∨ a ∈ s := by
  rw [Std.ExtTreeSet.mem_insert, Std.LawfulEqCmp.compare_eq_iff_eq, eq_comm]

theorem mem_eraseSet (s : Std.ExtTreeSet K) (k a : K) : a ∈ s.erase k ↔ a ≠ k ∧ a ∈ s := by
  rw [Std.ExtTreeSet.mem_erase, Ne, Std.LawfulEqCmp.compare_eq_iff_eq, eq_comm]

/-- A loop over a map meets a key once. -/
theorem distinct_toList (m : Std.ExtTreeMap K V) : m.toList.Pairwise fun a b => a.1 ≠ b.1 := by
  refine Std.ExtTreeMap.distinct_keys_toList.imp fun {a b} hab heq => hab ?_
  rw [heq]
  exact Std.LawfulEqCmp.compare_eq_iff_eq.mpr rfl

/-- The keys of a map are the set of its keys, in order. -/
theorem keys_eq_toList {m : Std.ExtTreeMap K V} {s : Std.ExtTreeSet K} (h : ∀ k, k ∈ m ↔ k ∈ s) :
    m.keys = s.toList := by
  have hnodup : s.toList.Nodup := by
    refine Std.ExtTreeSet.distinct_toList.imp fun {a b} hab heq => hab ?_
    exact Std.LawfulEqCmp.compare_eq_iff_eq.mpr heq
  have hperm : m.keys.Perm s.toList := by
    refine (List.perm_ext_iff_of_nodup Std.ExtTreeMap.nodup_keys hnodup).mpr fun k => ?_
    rw [Std.ExtTreeMap.mem_keys, Std.ExtTreeSet.mem_toList, h]
  refine hperm.eq_of_pairwise (fun a b _ _ hab hba => ?_) Std.ExtTreeMap.ordered_keys Std.ExtTreeSet.ordered_toList
  have hgt := Std.OrientedCmp.gt_of_lt hab
  rw [hba] at hgt
  cases hgt

variable [DecidableEq K]

theorem find?_toList (m : Std.ExtTreeMap K V) (k : K) :
    m.toList.find? (fun e => e.1 = k) = m[k]?.map fun v => (k, v) := by
  cases hfind : m.toList.find? (fun e => decide (e.1 = k)) with
  | some e =>
    have hmem := List.mem_of_find?_eq_some hfind
    have hk : e.1 = k := by simpa using List.find?_some hfind
    rw [← Prod.mk.eta (p := e), Std.ExtTreeMap.mem_toList_iff_getElem?_eq_some] at hmem
    rw [← hk, hmem]
    rfl
  | none =>
    cases hget : m[k]? with
    | none => rfl
    | some v =>
      have hmem : (k, v) ∈ m.toList := Std.ExtTreeMap.mem_toList_iff_getElem?_eq_some.mpr hget
      have := List.find?_eq_none.mp hfind _ hmem
      simp at this

theorem getElem?_insert' (m : Std.ExtTreeMap K V) (k a : K) (v : V) :
    (m.insert k v)[a]? = if a = k then some v else m[a]? := by
  rw [Std.ExtTreeMap.getElem?_insert]
  simp only [Std.LawfulEqCmp.compare_eq_iff_eq, eq_comm (a := k)]

theorem getElem?_erase' (m : Std.ExtTreeMap K V) (k a : K) :
    (m.erase k)[a]? = if a = k then none else m[a]? := by
  rw [Std.ExtTreeMap.getElem?_erase]
  simp only [Std.LawfulEqCmp.compare_eq_iff_eq, eq_comm (a := k)]

theorem getElem?_modify' (m : Std.ExtTreeMap K V) (k a : K) (f : V → V) :
    (m.modify k f)[a]? = if a = k then m[a]?.map f else m[a]? := by
  rw [Std.ExtTreeMap.getElem?_modify]
  simp only [Std.LawfulEqCmp.compare_eq_iff_eq, eq_comm (a := k)]
  split_ifs with h
  · rw [h]
  · rfl

theorem insert_of_absent (m : Std.ExtTreeMap K V) (k : K) (v w : V) :
    (if m.contains k then m else m.insert k v).insert k w = m.insert k w := by
  refine Std.ExtTreeMap.ext_getElem? fun a => ?_
  split_ifs
  · rfl
  · rw [getElem?_insert', getElem?_insert', getElem?_insert']
    split_ifs <;> rfl

theorem getD_of_absent {K V : Type} [Ord K] [Std.TransOrd K] (m : Std.ExtTreeMap K V) (k : K) (v : V) :
    (if m.contains k then m else m.insert k v).getD k v = m.getD k v := by
  split_ifs with h
  · rfl
  · rw [Std.ExtTreeMap.getD_insert_self, Std.ExtTreeMap.getD_eq_fallback_of_contains_eq_false (Bool.eq_false_iff.mpr h)]

end Lookup

section UpdateEach

/-- Visit the entries in key order; replace an entry by what `f` returns, or erase it. -/
def updateEach (f : K → V → Option V) (m : Std.ExtTreeMap K V) : Std.ExtTreeMap K V :=
  m.foldl (fun acc k v => match f k v with | none => acc.erase k | some w => acc.insert k w) m

variable [DecidableEq K]

/-- The loop over any list of distinct entries, from any accumulator. -/
theorem getElem?_foldl_update (f : K → V → Option V) (l : List (K × V)) (acc : Std.ExtTreeMap K V)
    (hl : l.Pairwise fun a b => a.1 ≠ b.1) (k : K) :
    (l.foldl (fun acc e => match f e.1 e.2 with | none => acc.erase e.1 | some w => acc.insert e.1 w) acc)[k]? =
      match l.find? (fun e => e.1 = k) with
      | none => acc[k]?
      | some e => f e.1 e.2 := by
  induction l generalizing acc with
  | nil => rfl
  | cons e l ih =>
    obtain ⟨hhead, htail⟩ := List.pairwise_cons.mp hl
    rw [List.foldl_cons, ih _ htail]
    by_cases hk : e.1 = k
    · have hnone : l.find? (fun e => decide (e.1 = k)) = none := by
        rw [List.find?_eq_none]
        intro e' he'
        rw [decide_eq_true_eq, ← hk]
        exact (hhead e' he').symm
      rw [hnone, List.find?_cons_of_pos (by simpa using hk)]
      cases hf : f e.1 e.2 with
      | none => simp only [getElem?_erase', if_pos hk.symm, hf]
      | some w => simp only [getElem?_insert', if_pos hk.symm, hf]
    · rw [List.find?_cons_of_neg (by simpa using hk)]
      have hacc : ((match f e.1 e.2 with | none => acc.erase e.1 | some w => acc.insert e.1 w) :
          Std.ExtTreeMap K V)[k]? = acc[k]? := by
        cases f e.1 e.2 with
        | none => simp only [getElem?_erase', if_neg (Ne.symm hk)]
        | some w => simp only [getElem?_insert', if_neg (Ne.symm hk)]
      rw [hacc]

/-- **The loop acts on every entry once.** -/
theorem getElem?_updateEach (f : K → V → Option V) (m : Std.ExtTreeMap K V) (k : K) :
    (updateEach f m)[k]? = m[k]?.bind (f k) := by
  unfold updateEach
  rw [Std.ExtTreeMap.foldl_eq_foldl_toList, getElem?_foldl_update f m.toList m (distinct_toList m) k, find?_toList]
  cases m[k]? with
  | some v => rfl
  | none => rfl

end UpdateEach

section First

/-- The implementation of the tree map, node by node. -/
theorem minEntry?_impl {K V : Type} (l : Std.DTreeMap.Internal.Impl K fun _ => V) :
    Std.DTreeMap.Internal.Impl.Const.minEntry? l = (Std.DTreeMap.Internal.Impl.Const.toList l).head? := by
  rw [Std.DTreeMap.Internal.Impl.Const.toList_eq_toListModel_map]
  induction l using Std.DTreeMap.Internal.Impl.Const.minEntry?.induct with
  | case1 => simp [Std.DTreeMap.Internal.Impl.Const.minEntry?]
  | case2 => simp [Std.DTreeMap.Internal.Impl.Const.minEntry?]
  | case3 size k v size' k' v' l r r' ih =>
    rw [Std.DTreeMap.Internal.Impl.Const.minEntry?, ih]
    simp

/-- `begin()` is the first entry of the iteration. -/
theorem minEntry?_eq_head? {K V : Type} [Ord K] [Std.TransOrd K] (m : Std.ExtTreeMap K V) :
    Std.ExtTreeMap.minEntry? m = m.toList.head? := by
  obtain ⟨⟨q⟩⟩ := m
  induction q using Quotient.inductionOn with
  | h t => exact minEntry?_impl t.inner

theorem getElem?_of_minEntry {m : Std.ExtTreeMap K V} {e : K × V} (h : Std.ExtTreeMap.minEntry? m = some e) :
    m[e.1]? = some e.2 := by
  rw [minEntry?_eq_head?] at h
  exact Std.ExtTreeMap.mem_toList_iff_getElem?_eq_some.mp (List.mem_of_head? h)

theorem minEntry?_eq_none_iff {K V : Type} [Ord K] [Std.TransOrd K] (m : Std.ExtTreeMap K V) :
    Std.ExtTreeMap.minEntry? m = none ↔ m = ∅ := by
  rw [minEntry?_eq_head?, List.head?_eq_none_iff, Std.ExtTreeMap.toList_eq_nil_iff]

end First

section Push

variable [DecidableEq K]

/-- `m[k].push_back(v)`. -/
def push (m : Std.ExtTreeMap K (List V)) (e : K × V) : Std.ExtTreeMap K (List V) :=
  m.insert e.1 (m.getD e.1 [] ++ [e.2])

/-- A map of vectors, filled from nothing. -/
def pushAll (l : List (K × V)) : Std.ExtTreeMap K (List V) := l.foldl push ∅

/-- What was pushed under a key, in order. -/
def pushed {K V : Type} [DecidableEq K] (l : List (K × V)) (k : K) : List V :=
  (l.filter fun e => e.1 = k).map Prod.snd

theorem pushed_append {K V : Type} [DecidableEq K] (l l' : List (K × V)) (k : K) :
    pushed (l ++ l') k = pushed l k ++ pushed l' k := by
  rw [pushed, List.filter_append, List.map_append]
  rfl

/-- **A key holds what was pushed under it**, and no key is there for nothing. -/
theorem getElem?_pushAll (l : List (K × V)) (k : K) :
    (pushAll l)[k]? = if pushed l k = [] then none else some (pushed l k) := by
  induction l using List.reverseRecOn with
  | nil => exact Std.ExtTreeMap.getElem?_empty
  | append_singleton l e ih =>
    have hstep : pushAll (l ++ [e]) = push (pushAll l) e := List.foldl_concat push ∅ e l
    rw [hstep, push, getElem?_insert', pushed_append]
    by_cases hk : k = e.1
    · subst hk
      have hone : pushed [e] e.1 = [e.2] := by simp [pushed]
      have hprior : (pushAll l).getD e.1 [] = pushed l e.1 := by
        rw [Std.ExtTreeMap.getD_eq_getD_getElem?, ih]
        split_ifs with hnil
        · exact hnil.symm
        · rfl
      rw [if_pos rfl, hone, hprior, if_neg (List.append_ne_nil_of_right_ne_nil _ (List.cons_ne_nil _ _))]
    · have hnone : pushed [e] k = [] := by simp [pushed, Ne.symm hk]
      rw [if_neg hk, hnone, List.append_nil, ih]

/-- A loop over a map that pushes the parts of an entry under the key of the entry. -/
theorem pushed_flatMap_toList {W : Type} (m : Std.ExtTreeMap K W) (f : W → List V) (k : K) :
    pushed (m.toList.flatMap fun e => (f e.2).map fun v => (e.1, v)) k = (m[k]?.map f).getD [] := by
  have hone : ∀ e : K × W, pushed ((f e.2).map fun v => (e.1, v)) k = if e.1 = k then f e.2 else [] := by
    intro e
    unfold pushed
    split_ifs with hk <;> simp [List.filter_map, Function.comp_def, hk]
  have hlist : ∀ l : List (K × W), l.Pairwise (fun a b => a.1 ≠ b.1) →
      pushed (l.flatMap fun e => (f e.2).map fun v => (e.1, v)) k =
        ((l.find? fun e => e.1 = k).map fun e => f e.2).getD [] := by
    intro l hl
    induction l with
    | nil => rfl
    | cons e l ih =>
      obtain ⟨hhead, htail⟩ := List.pairwise_cons.mp hl
      rw [List.flatMap_cons, pushed_append, hone, ih htail]
      by_cases hk : e.1 = k
      · have hnone : l.find? (fun e => decide (e.1 = k)) = none := by
          rw [List.find?_eq_none]
          intro e' he'
          rw [decide_eq_true_eq, ← hk]
          exact (hhead e' he').symm
        rw [if_pos hk, hnone, List.find?_cons_of_pos (by simpa using hk)]
        exact List.append_nil _
      · rw [if_neg hk, List.find?_cons_of_neg (by simpa using hk), List.nil_append]
  rw [hlist _ (distinct_toList m), find?_toList, Option.map_map]
  rfl

end Push

end Lib
