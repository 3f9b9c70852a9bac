import Mathlib
import IgnTransport.Lib.OrderedMap

/-!
# Lib.Iterator — an iterator that moves over an ordered map while its entries are erased

`for (auto it = m.begin(); it != m.end();)` with `m.erase(it++)` in one branch and `++it` in the other, turn by turn:
the iterator stands on a key of the map as it is at that moment, and dangles if that key is gone.  `OrderedMap` has
the same loops as folds over the entries that the map had before; `loopOver_eq` says that the two agree, that the
iterator never dangles, and that it stands on every key once.
-/

namespace Lib

variable {K V S : Type} [Ord K] [Std.TransOrd K]

/-! ## The loop -/

section Loop

/-- Where `++it` moves an iterator that stands on `k`: to the next key, or to the end. -/
def after (m : Std.ExtTreeMap K V) (k : K) : Option K := m.keys.find? fun a => compare a k = .gt

/-- The loop from where the iterator stands, for so many turns at most.  The body reads the entry and returns what
becomes of its value, where `none` is `erase(it++)`.  Returned are the keys on which the iterator stood, the map and
the state that the body works on. -/
def loopFrom (body : S → K → V → Option (S × Option V)) :
    ℕ → Option K → Std.ExtTreeMap K V → S → Option (List K × Std.ExtTreeMap K V × S)
  | _, none, m, s => some ([], m, s)
  | 0, some _, _, _ => none
  | n + 1, some k, m, s => do
    -- An iterator to an erased entry must not be read.
    let v ← m[k]?
    match ← body s k v with
    | (s, none) =>
      let next := after m k
      let (visited, r) ← loopFrom body n next (m.erase k) s
      return (k :: visited, r)
    | (s, some w) =>
      let m := m.insert k w
      let (visited, r) ← loopFrom body n (after m k) m s
      return (k :: visited, r)

/-- The loop from `begin()`. -/
def loopOver (body : S → K → V → Option (S × Option V)) (m : Std.ExtTreeMap K V) (s : S) :
    Option (List K × Std.ExtTreeMap K V × S) :=
  loopFrom body m.size m.keys.head? m s

end Loop

/-! ## The entries around an iterator -/

section Entries

variable {m : Std.ExtTreeMap K V} {done rest : List (K × V)} {k : K} {v : V}

/-- The keys before an entry are smaller and the keys behind it greater. -/
theorem ordered_of_toList (h : m.toList = done ++ (k, v) :: rest) :
    (∀ e ∈ done, compare e.1 k = .lt) ∧ (∀ e ∈ rest, compare e.1 k = .gt) ∧
      (done ++ rest).Pairwise fun a b => compare a.1 b.1 = .lt := by
  have hpair : (done ++ (k, v) :: rest).Pairwise fun a b => compare a.1 b.1 = .lt := by
    rw [← h]
    exact Std.ExtTreeMap.ordered_keys_toList
  obtain ⟨hdone, hcons, hcross⟩ := List.pairwise_append.mp hpair
  obtain ⟨hhead, hrest⟩ := List.pairwise_cons.mp hcons
  refine ⟨fun e he => hcross e he (k, v) (List.mem_cons_self ..), fun e he => ?_, ?_⟩
  · exact Std.OrientedCmp.gt_of_lt (hhead e he)
  · exact List.pairwise_append.mpr
      ⟨hdone, hrest, fun a ha b hb => hcross a ha b (List.mem_cons_of_mem _ hb)⟩

variable [Std.LawfulEqOrd K]

/-- A list in key order with the entries of a map is the iteration over the map. -/
theorem toList_eq_of_mem {l : List (K × V)}
    (hl : l.Pairwise fun a b => compare a.1 b.1 = .lt) (h : ∀ e, e ∈ l ↔ m[e.1]? = some e.2) : m.toList = l := by
  have hne : ∀ {a b : K × V}, compare a.1 b.1 = .lt → a ≠ b := by
    rintro a b hlt rfl
    rw [Std.ReflOrd.compare_self] at hlt
    cases hlt
  have hperm : m.toList.Perm l := by
    refine (List.perm_ext_iff_of_nodup ?_ (hl.imp hne)).mpr fun e => ?_
    · exact Std.ExtTreeMap.ordered_keys_toList.imp hne
    · rw [h, Std.ExtTreeMap.mem_toList_iff_getElem?_eq_some]
  refine hperm.eq_of_pairwise (fun a b _ _ hab hba => ?_) Std.ExtTreeMap.ordered_keys_toList hl
  have hgt := Std.OrientedCmp.gt_of_lt hab
  rw [hba] at hgt
  cases hgt

theorem getElem?_of_toList (h : m.toList = done ++ (k, v) :: rest) : m[k]? = some v := by
  refine Std.ExtTreeMap.mem_toList_iff_getElem?_eq_some.mp ?_
  rw [h]
  exact List.mem_append_right _ (List.mem_cons_self ..)

/-- `++it`. -/
theorem after_of_toList (h : m.toList = done ++ (k, v) :: rest) : after m k = (rest.map Prod.fst).head? := by
  obtain ⟨hdone, hrest, -⟩ := ordered_of_toList h
  have hkeys : m.keys = done.map Prod.fst ++ k :: rest.map Prod.fst := by
    rw [← Std.ExtTreeMap.map_fst_toList_eq_keys, h, List.map_append, List.map_cons]
  have hskip : (done.map Prod.fst).find? (fun a => decide (compare a k = .gt)) = none := by
    rw [List.find?_eq_none]
    intro a ha
    obtain ⟨e, he, rfl⟩ := List.mem_map.mp ha
    simp [hdone e he]
  rw [after, hkeys, List.find?_append, hskip, Option.none_or, List.find?_cons_of_neg (by simp)]
  cases rest with
  | nil => rfl
  | cons e rest => simp [hrest e (List.mem_cons_self ..)]

variable [DecidableEq K]

/-- `erase(it++)` takes the entry out of the iteration. -/
theorem toList_erase_of_toList (h : m.toList = done ++ (k, v) :: rest) : (m.erase k).toList = done ++ rest := by
  obtain ⟨hdone, hrest, hpair⟩ := ordered_of_toList h
  refine toList_eq_of_mem hpair fun e => ?_
  have hmem : e ∈ done ++ (k, v) :: rest ↔ m[e.1]? = some e.2 := by
    rw [← h, Std.ExtTreeMap.mem_toList_iff_getElem?_eq_some]
  rw [getElem?_erase']
  split_ifs with hk
  · -- the key of the entry is on neither side of it
    refine iff_of_false (fun he => ?_) (by simp)
    rcases List.mem_append.mp he with he | he
    · have hlt := hdone e he
      rw [hk, Std.ReflOrd.compare_self] at hlt
      cases hlt
    · have hgt := hrest e he
      rw [hk, Std.ReflOrd.compare_self] at hgt
      cases hgt
  · rw [← hmem, List.mem_append, List.mem_append, List.mem_cons]
    refine or_congr Iff.rfl ⟨.inr, fun he => he.resolve_left fun heq => hk ?_⟩
    rw [heq]

/-- A value written in place leaves the iteration in order. -/
theorem toList_insert_of_toList (h : m.toList = done ++ (k, v) :: rest) (w : V) :
    (m.insert k w).toList = done ++ (k, w) :: rest := by
  obtain ⟨hdone, hrest, hpair⟩ := ordered_of_toList h
  obtain ⟨hl, hr, hcross⟩ := List.pairwise_append.mp hpair
  refine toList_eq_of_mem ?_ fun e => ?_
  · refine List.pairwise_append.mpr ⟨hl, List.pairwise_cons.mpr ⟨fun e he => ?_, hr⟩, fun a ha b hb => ?_⟩
    · exact Std.OrientedCmp.lt_of_gt (hrest e he)
    · rcases List.mem_cons.mp hb with rfl | hb
      · exact hdone a ha
      · exact hcross a ha b hb
  · have hmem : e ∈ done ++ (k, v) :: rest ↔ m[e.1]? = some e.2 := by
      rw [← h, Std.ExtTreeMap.mem_toList_iff_getElem?_eq_some]
    have herase : e ∈ done ++ rest ↔ (m.erase k)[e.1]? = some e.2 := by
      rw [← toList_erase_of_toList h, Std.ExtTreeMap.mem_toList_iff_getElem?_eq_some]
    rw [getElem?_erase'] at herase
    rw [getElem?_insert', List.mem_append, List.mem_cons, or_left_comm, ← List.mem_append, herase]
    split_ifs with hk
    · obtain ⟨a, b⟩ := e
      obtain rfl : a = k := hk
      simp [eq_comm]
    · refine or_iff_right fun heq => hk ?_
      rw [heq]

end Entries

/-! ## The loop as a fold -/

section Fold

variable [Std.LawfulEqOrd K] [DecidableEq K] {body : S → K → V → Option (S × Option V)}

/-- The loop from an entry on, when what is behind the iterator is done: what stays of the entries does not depend on
the state. -/
theorem loopFrom_eq {f : K → V → Option V} {g : S → K → V → S}
    (hbody : ∀ s k v, body s k v = some (g s k v, f k v)) {n : ℕ} {m : Std.ExtTreeMap K V}
    {done rest : List (K × V)} (hm : m.toList = done ++ rest) (hn : rest.length ≤ n) (s : S) :
    ∃ m', loopFrom body n (rest.map Prod.fst).head? m s =
        some (rest.map Prod.fst, m', rest.foldl (fun s e => g s e.1 e.2) s) ∧
      m'.toList = done ++ rest.filterMap fun e => (f e.1 e.2).map fun w => (e.1, w) := by
  induction rest generalizing n m done s with
  | nil =>
    refine ⟨m, by simp [loopFrom], ?_⟩
    rw [hm, List.filterMap_nil]
  | cons e rest ih =>
    obtain ⟨k, v⟩ := e
    rw [List.length_cons] at hn
    obtain ⟨n, rfl⟩ : ∃ n', n = n' + 1 := ⟨n - 1, by omega⟩
    have hn' : rest.length ≤ n := by omega
    rw [List.map_cons, List.head?_cons, List.foldl_cons, loopFrom, getElem?_of_toList hm]
    simp only [bind, pure, Option.bind_some, hbody]
    cases hf : f k v with
    | none =>
      obtain ⟨m', hloop, hm'⟩ := ih (toList_erase_of_toList hm) hn' (g s k v)
      refine ⟨m', ?_, ?_⟩
      · simp only [after_of_toList hm, hloop, Option.bind_some]
      · rw [hm', List.filterMap_cons_none (by simp [hf])]
    | some w =>
      -- the entry is done once its value is written back
      have hinsert : (m.insert k w).toList = (done ++ [(k, w)]) ++ rest := by
        rw [toList_insert_of_toList hm, List.append_assoc, List.singleton_append]
      obtain ⟨m', hloop, hm'⟩ := ih hinsert hn' (g s k v)
      refine ⟨m', ?_, ?_⟩
      · simp only [after_of_toList (toList_insert_of_toList hm w), hloop, Option.bind_some]
      · rw [hm', List.filterMap_cons_some (by simp [hf]; rfl), List.append_assoc, List.singleton_append]

/-- **The loop that erases while it iterates**: it stands on every key once, in order, whatever it erases; the map
left is the one of the entries that stay, and the state has seen every entry that was there. -/
theorem loopOver_eq {f : K → V → Option V} {g : S → K → V → S}
    (hbody : ∀ s k v, body s k v = some (g s k v, f k v)) (m : Std.ExtTreeMap K V) (s : S) :
    loopOver body m s = some (m.keys, m.filterMap f, m.foldl g s) := by
  obtain ⟨m', hloop, hm'⟩ := loopFrom_eq hbody (n := m.size) (List.nil_append m.toList).symm
    (Std.ExtTreeMap.length_toList).le s
  rw [Std.ExtTreeMap.map_fst_toList_eq_keys] at hloop
  have hmap : m' = m.filterMap f := by
    rw [← Std.ExtTreeMap.toList_inj, hm', List.nil_append, Std.ExtTreeMap.toList_filterMap]
  rw [loopOver, hloop, hmap, Std.ExtTreeMap.foldl_eq_foldl_toList]

/-- A state that every turn overwrites is what the last turn made of it. -/
theorem foldl_overwrite {K V S : Type} [Ord K] [Std.TransOrd K] (g : K → V → S) (m : Std.ExtTreeMap K V)
    (s : S) : m.foldl (fun _ k v => g k v) s = (m.toList.getLast?.map fun e => g e.1 e.2).getD s := by
  rw [Std.ExtTreeMap.foldl_eq_foldl_toList]
  induction m.toList using List.reverseRecOn with
  | nil => rfl
  | append_singleton entries e _ =>
    rw [List.foldl_concat, List.getLast?_concat]
    rfl

/-- `updateEach` is such a loop. -/
theorem updateEach_eq_filterMap (f : K → V → Option V) (m : Std.ExtTreeMap K V) :
    updateEach f m = m.filterMap f := by
  refine Std.ExtTreeMap.ext_getElem? fun k => ?_
  rw [getElem?_updateEach, Std.ExtTreeMap.getElem?_filterMap']

end Fold

end Lib
