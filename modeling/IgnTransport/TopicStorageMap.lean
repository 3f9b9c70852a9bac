import Mathlib
import IgnTransport.TopicStorage

/-!
# IgnTransport.TopicStorageMap — the nested map of `TopicStorage.cc`, and the relation it stands for

`TopicMap` is the nested map as the code edits it, with its own pruning.  The table is that map with its invariant:
`rows_apply` says that every operation on the rows of a table gives the rows of a table.  `Flat` is what the storage
is for: the tuples that were added and not deleted, in order.

* `topicStorage_refines`: after any operations the nested map has nothing empty in it, no vector has an address and
  node twice, and every query and return value is that of the flat relation.
-/

namespace IgnTransport

open Lib

/-! ## The code -/

section Code

/-- `data`: topic, process UUID, vector of addresses. -/
abbrev TopicMap := StrMap Addresses

namespace TopicMap

/-- `AddAddress`. -/
def addAddress (data : TopicMap) (topic addr ctrl pUuid nUuid : Str) (scope : Scope) : TopicMap × Bool :=
  -- The topic does not exist.
  let data := if data.contains topic then data else data.insert topic ∅
  let m := data.getD topic ∅
  -- Check that the structure {_addr, _ctrl, _nUuid, scope} does not exist.
  if m.contains pUuid ∧ ∃ a ∈ m.getD pUuid [], a.addr = addr ∧ a.nUuid = nUuid then (data, false)
  else
    -- Add a new address information entry.
    (data.insert topic (m.insert pUuid (m.getD pUuid [] ++ [⟨addr, ctrl, nUuid, scope⟩])), true)

/-- `HasTopic`. -/
def hasTopic (data : TopicMap) (topic : Str) : Bool := data.contains topic

/-- `HasAnyAddresses`. -/
def hasAnyAddresses (data : TopicMap) (topic pUuid : Str) : Bool :=
  if !data.hasTopic topic then false else (data.getD topic ∅).contains pUuid

/-- `HasAddress`. -/
def hasAddress (data : TopicMap) (addr : Str) : Bool :=
  data.toList.any fun topic => topic.2.toList.any fun proc => proc.2.any fun info => info.addr = addr

/-- `GetAddress`. -/
def getAddress (data : TopicMap) (topic pUuid nUuid : Str) : Option Address :=
  if !data.contains topic then none
  else
    let m := data.getD topic ∅
    if !m.contains pUuid then none else (m.getD pUuid []).find? fun a => a.nUuid = nUuid

/-- `GetAddresses`. -/
def getAddresses (data : TopicMap) (topic : Str) : Option Addresses :=
  if !data.hasTopic topic then none else some (data.getD topic ∅)

/-- `DelAddressByNode`. -/
def delAddressByNode (data : TopicMap) (topic pUuid nUuid : Str) : TopicMap × Bool :=
  if data.contains topic then
    let m := data.getD topic ∅
    -- The pUuid exists.
    if m.contains pUuid then
      let v := m.getD pUuid []
      let v' := v.filter fun a => a.nUuid ≠ nUuid
      let m := if v'.isEmpty then m.erase pUuid else m.insert pUuid v'
      (if m.isEmpty then data.erase topic else data.insert topic m, v'.length < v.length)
    else (data, false)
  else (data, false)

/-- `DelAddressesByProc`: the counter is the one of the last topic. -/
def delAddressesByProc (data : TopicMap) (pUuid : Str) : TopicMap × Bool :=
  (updateEach (fun _ m => let m := m.erase pUuid; if m.isEmpty then none else some m) data,
    data.foldl (fun _ _ m => m.contains pUuid) false)

/-- `GetAddressesByProc`: what is found is pushed under its topic, one after the other. -/
def getAddressesByProc (data : TopicMap) (pUuid : Str) : Addresses :=
  pushAll (data.toList.flatMap fun topic => (if topic.2.contains pUuid then topic.2.getD pUuid [] else []).map
    fun info => (topic.1, info))

/-- `GetTopicList`. -/
def getTopicList (data : TopicMap) : List Str := data.keys

/-- What changes the map. -/
inductive Op where
  | addAddress (topic addr ctrl pUuid nUuid : Str) (scope : Scope)
  | delAddressByNode (topic pUuid nUuid : Str)
  | delAddressesByProc (pUuid : Str)
  deriving DecidableEq, Repr

/-- An operation on the map, and what it returns. -/
def apply (data : TopicMap) : Op → TopicMap × Bool
  | .addAddress topic addr ctrl pUuid nUuid scope => data.addAddress topic addr ctrl pUuid nUuid scope
  | .delAddressByNode topic pUuid nUuid => data.delAddressByNode topic pUuid nUuid
  | .delAddressesByProc pUuid => data.delAddressesByProc pUuid

end TopicMap

/-- An operation on the table. -/
def TopicStorage.apply (s : TopicStorage) : TopicMap.Op → TopicStorage × Bool
  | .addAddress topic addr ctrl pUuid nUuid scope => s.addAddress topic addr ctrl pUuid nUuid scope
  | .delAddressByNode topic pUuid nUuid => s.delAddressByNode topic pUuid nUuid
  | .delAddressesByProc pUuid => s.delAddressesByProc pUuid

end Code

/-! ## The table -/

section Table

namespace TopicMap

variable (s : TopicStorage)

theorem getD_rows (t : Str) : s.rows.getD t ∅ = s.row t := rfl

theorem getD_row (t p : Str) : (s.row t).getD p [] = s.cell t p := rfl

theorem contains_rows (t : Str) : s.rows.contains t = s.hasTopic t := rfl

theorem contains_row (t p : Str) : (s.row t).contains p = true ↔ s.cell t p ≠ [] := s.hasCell_iff t p

theorem rows_addAddress (t addr ctrl p n : Str) (scope : Scope) :
    addAddress s.rows t addr ctrl p n scope =
      ((s.addAddress t addr ctrl p n scope).1.rows, (s.addAddress t addr ctrl p n scope).2) := by
  unfold addAddress
  simp only [getD_of_absent, insert_of_absent, getD_rows, getD_row, contains_row]
  by_cases h : s.Known t p n addr
  · have hne : s.cell t p ≠ [] := by
      obtain ⟨a, ha, -⟩ := h
      exact List.ne_nil_of_mem ha
    have htopic : s.rows.contains t = true := (s.hasTopic_iff t).mpr ⟨p, hne⟩
    rw [if_pos ⟨hne, h⟩, if_pos htopic, TopicStorage.addAddress_of_known s t p n h]
  · rw [if_neg fun hc => h hc.2, TopicStorage.addAddress_of_not_known s t p n h, Table.rows_set s t p (by simp)]

theorem rows_delAddressByNode (t p n : Str) :
    delAddressByNode s.rows t p n = ((s.delAddressByNode t p n).1.rows, (s.delAddressByNode t p n).2) := by
  unfold delAddressByNode TopicStorage.delAddressByNode
  simp only [getD_rows, getD_row, contains_row, contains_rows]
  have hany := s.hasAnyAddresses_iff t p
  by_cases hne : s.cell t p = []
  · rw [if_neg fun h => hany.mp h hne]
    split_ifs <;> first | rfl | contradiction
  · have htopic : s.hasTopic t = true := (s.hasTopic_iff t).mpr ⟨p, hne⟩
    rw [if_pos htopic, if_pos hne, if_pos (hany.mpr hne)]
    rfl

theorem rows_delAddressesByProc (p : Str) :
    delAddressesByProc s.rows p = ((s.delAddressesByProc p).1.rows, (s.delAddressesByProc p).2) := rfl

/-- **The rows of a table stay the rows of a table.** -/
theorem rows_apply (op : Op) : apply s.rows op = ((s.apply op).1.rows, (s.apply op).2) := by
  cases op with
  | addAddress topic addr ctrl pUuid nUuid scope => exact rows_addAddress s topic addr ctrl pUuid nUuid scope
  | delAddressByNode topic pUuid nUuid => exact rows_delAddressByNode s topic pUuid nUuid
  | delAddressesByProc pUuid => exact rows_delAddressesByProc s pUuid

/-! ### Queries -/

theorem getAddress_rows (t p n : Str) : getAddress s.rows t p n = s.getAddress t p n := by
  unfold getAddress TopicStorage.getAddress
  simp only [getD_rows, getD_row]
  by_cases hne : s.cell t p = []
  · simp only [hne, List.find?_nil, ite_self]
  · have htopic : s.rows.contains t = true := (s.hasTopic_iff t).mpr ⟨p, hne⟩
    have hproc : (s.row t).contains p = true := (contains_row s t p).mpr hne
    simp only [htopic, hproc, Bool.not_true, Bool.false_eq_true, if_false]

theorem getAddresses_rows (t : Str) : getAddresses s.rows t = s.getAddresses t := by
  unfold getAddresses TopicStorage.getAddresses hasTopic
  rw [contains_rows, getD_rows]
  cases s.hasTopic t <;> rfl

theorem hasAnyAddresses_rows (t p : Str) : hasAnyAddresses s.rows t p = s.hasAnyAddresses t p := by
  unfold hasAnyAddresses TopicStorage.hasAnyAddresses hasTopic
  rw [contains_rows, getD_rows]
  cases s.hasTopic t <;> rfl

theorem getElem?_getAddressesByProc (t p : Str) :
    (getAddressesByProc s.rows p)[t]? = if s.cell t p = [] then none else some (s.cell t p) := by
  have hpushed : pushed (s.rows.toList.flatMap fun topic => (if topic.2.contains p then topic.2.getD p [] else []).map
      fun info => (topic.1, info)) t = s.cell t p := by
    rw [pushed_flatMap_toList s.rows (fun m => if m.contains p then m.getD p [] else []) t]
    cases ht : s.rows[t]? with
    | none =>
      rw [Table.cell_eq_getD, ht]
      rfl
    | some m =>
      have hrow := Table.row_of_getElem? ht
      subst hrow
      show (if (s.row t).contains p then (s.row t).getD p [] else []) = s.cell t p
      split_ifs with hc
      · rfl
      · exact (not_not.mp fun hne => hc ((contains_row s t p).mpr hne)).symm
  unfold getAddressesByProc
  rw [getElem?_pushAll, hpushed]

end TopicMap

end Table

/-! ## The relation -/

section Relation

/-- A tuple of the relation. -/
structure Entry where
  topic : Str
  pUuid : Str
  info : Address
  deriving DecidableEq, Repr

/-- What was added and not deleted, in the order in which it was added. -/
abbrev Flat := List Entry

namespace Flat

/-- The tuples of a topic and process. -/
def Under (topic pUuid : Str) (e : Entry) : Prop := e.topic = topic ∧ e.pUuid = pUuid

instance (topic pUuid : Str) : DecidablePred (Under topic pUuid) := fun e => by unfold Under; infer_instance

/-- Adding is a no-op if the tuple is there, by its address and node. -/
def addAddress (l : Flat) (topic addr ctrl pUuid nUuid : Str) (scope : Scope) : Flat × Bool :=
  if ∃ e ∈ l, Under topic pUuid e ∧ e.info.addr = addr ∧ e.info.nUuid = nUuid then (l, false)
  else (l ++ [⟨topic, pUuid, ⟨addr, ctrl, nUuid, scope⟩⟩], true)

/-- Exactly the tuples of the node. -/
def delAddressByNode (l : Flat) (topic pUuid nUuid : Str) : Flat × Bool :=
  (l.filter fun e => ¬ (Under topic pUuid e ∧ e.info.nUuid = nUuid),
    decide (∃ e ∈ l, Under topic pUuid e ∧ e.info.nUuid = nUuid))

/-- Exactly the tuples of the process. -/
def delAddressesByProc (l : Flat) (pUuid : Str) : Flat × Bool :=
  (l.filter fun e => e.pUuid ≠ pUuid, decide (∃ e ∈ l, e.pUuid = pUuid))

def hasTopic (l : Flat) (topic : Str) : Bool := decide (∃ e ∈ l, e.topic = topic)

def hasAnyAddresses (l : Flat) (topic pUuid : Str) : Bool := decide (∃ e ∈ l, Under topic pUuid e)

def hasAddress (l : Flat) (addr : Str) : Bool := decide (∃ e ∈ l, e.info.addr = addr)

/-- The first tuple of the node. -/
def getAddress (l : Flat) (topic pUuid nUuid : Str) : Option Address :=
  (l.find? fun e => Under topic pUuid e ∧ e.info.nUuid = nUuid).map Entry.info

/-- The tuples of the topic, by process. -/
def getAddresses (l : Flat) (topic : Str) : Option Addresses :=
  if l.hasTopic topic then some (pushAll ((l.filter fun e => e.topic = topic).map fun e => (e.pUuid, e.info))) else none

/-- The tuples of the process, by topic. -/
def getAddressesByProc (l : Flat) (pUuid : Str) : Addresses :=
  pushAll ((l.filter fun e => e.pUuid = pUuid).map fun e => (e.topic, e.info))

/-- The topics, each once. -/
def getTopicList (l : Flat) : List Str := (Std.ExtTreeSet.ofList (l.map Entry.topic)).toList

def apply (l : Flat) : TopicMap.Op → Flat × Bool
  | .addAddress topic addr ctrl pUuid nUuid scope => l.addAddress topic addr ctrl pUuid nUuid scope
  | .delAddressByNode topic pUuid nUuid => l.delAddressByNode topic pUuid nUuid
  | .delAddressesByProc pUuid => l.delAddressesByProc pUuid

/-- The vector of a topic and process. -/
def infos (l : Flat) (topic pUuid : Str) : List Address := (l.filter (Under topic pUuid)).map Entry.info

/-! ### Vectors -/

section Infos

variable (l : Flat) (t u p q n : Str)

theorem mem_infos {a : Address} : a ∈ l.infos t p ↔ ⟨t, p, a⟩ ∈ l := by
  simp only [infos, List.mem_map, List.mem_filter, decide_eq_true_eq]
  constructor
  · rintro ⟨⟨u, q, b⟩, ⟨he, rfl, rfl⟩, rfl⟩
    exact he
  · exact fun h => ⟨_, ⟨h, rfl, rfl⟩, rfl⟩

theorem exists_under {P : Address → Prop} : (∃ e ∈ l, Under t p e ∧ P e.info) ↔ ∃ a ∈ l.infos t p, P a := by
  constructor
  · rintro ⟨⟨u, q, a⟩, he, ⟨rfl, rfl⟩, ha⟩
    exact ⟨a, (mem_infos l u q).mpr he, ha⟩
  · rintro ⟨a, ha, hP⟩
    exact ⟨⟨t, p, a⟩, (mem_infos l t p).mp ha, ⟨rfl, rfl⟩, hP⟩

theorem infos_concat (e : Entry) :
    infos (l ++ [e]) t p = if Under t p e then l.infos t p ++ [e.info] else l.infos t p := by
  unfold infos
  rw [List.filter_append, List.map_append]
  split_ifs with h <;> simp [h]

theorem infos_filter (P : Entry → Prop) [DecidablePred P] (Q : Address → Prop) [DecidablePred Q]
    (h : ∀ e ∈ l, Under t p e → (P e ↔ Q e.info)) :
    infos (l.filter fun e => P e) t p = (l.infos t p).filter fun a => Q a := by
  unfold infos
  rw [List.filter_map, List.filter_filter, List.filter_filter]
  refine congrArg (List.map Entry.info) (List.filter_congr fun e he => ?_)
  simp only [Function.comp_apply, ← Bool.decide_and, decide_eq_decide]
  constructor
  · exact fun hc => ⟨(h e he hc.1).mp hc.2, hc.1⟩
  · exact fun hc => ⟨hc.2, (h e he hc.2).mpr hc.1⟩

end Infos

theorem pushed_topic (l : Flat) (t p : Str) :
    pushed ((l.filter fun e => e.topic = t).map fun e => (e.pUuid, e.info)) p = l.infos t p := by
  unfold pushed infos
  rw [List.filter_map, List.filter_filter, List.map_map]
  refine congrArg (List.map Entry.info) (List.filter_congr fun e _ => ?_)
  simp only [Function.comp_apply, ← Bool.decide_and, decide_eq_decide, and_comm]
  rfl

theorem pushed_proc (l : Flat) (t p : Str) :
    pushed ((l.filter fun e => e.pUuid = p).map fun e => (e.topic, e.info)) t = l.infos t p := by
  unfold pushed infos
  rw [List.filter_map, List.filter_filter, List.map_map]
  refine congrArg (List.map Entry.info) (List.filter_congr fun e _ => ?_)
  simp only [Function.comp_apply, ← Bool.decide_and, decide_eq_decide]
  rfl

end Flat

end Relation

/-! ## The refinement -/

section Refinement

/-- The table and the relation hold the same vectors. -/
def Stands (s : TopicStorage) (l : Flat) : Prop := ∀ t p, s.cell t p = l.infos t p

variable {s : TopicStorage} {l : Flat}

theorem stands_empty : Stands Table.empty [] := fun t p => Table.cell_empty t p

theorem known_iff (h : Stands s l) (t p n addr : Str) :
    s.Known t p n addr ↔ ∃ e ∈ l, Flat.Under t p e ∧ e.info.addr = addr ∧ e.info.nUuid = n := by
  rw [Flat.exists_under l t p (P := fun a => a.addr = addr ∧ a.nUuid = n), ← h t p]
  rfl

theorem stands_addAddress (h : Stands s l) (t addr ctrl p n : Str) (scope : Scope) :
    Stands (s.addAddress t addr ctrl p n scope).1 (l.addAddress t addr ctrl p n scope).1 ∧
      (s.addAddress t addr ctrl p n scope).2 = (l.addAddress t addr ctrl p n scope).2 := by
  unfold Flat.addAddress
  by_cases hk : s.Known t p n addr
  · rw [TopicStorage.addAddress_of_known s t p n hk, if_pos ((known_iff h t p n addr).mp hk)]
    exact ⟨h, rfl⟩
  · rw [TopicStorage.addAddress_of_not_known s t p n hk, if_neg fun he => hk ((known_iff h t p n addr).mpr he)]
    refine ⟨fun u q => ?_, rfl⟩
    rw [Table.cell_set, Flat.infos_concat, h t p, h u q]
    by_cases hc : u = t ∧ q = p
    · obtain ⟨rfl, rfl⟩ := hc
      rw [if_pos ⟨rfl, rfl⟩, if_pos ⟨rfl, rfl⟩]
    · rw [if_neg hc, if_neg fun hu => hc ⟨hu.1.symm, hu.2.symm⟩]

theorem stands_delAddressByNode (h : Stands s l) (t p n : Str) :
    Stands (s.delAddressByNode t p n).1 (l.delAddressByNode t p n).1 ∧
      (s.delAddressByNode t p n).2 = (l.delAddressByNode t p n).2 := by
  refine ⟨fun u q => ?_, ?_⟩
  · have hfilter : Flat.infos (l.delAddressByNode t p n).1 u q =
        (l.infos u q).filter fun a => ¬ ((u = t ∧ q = p) ∧ a.nUuid = n) := by
      refine Flat.infos_filter l u q _ (fun a => ¬ ((u = t ∧ q = p) ∧ a.nUuid = n)) fun e _ he => ?_
      obtain ⟨rfl, rfl⟩ := he
      rfl
    rw [hfilter, TopicStorage.cell_delAddressByNode, h u q]
    by_cases hc : u = t ∧ q = p
    · rw [if_pos hc]
      simp only [hc, true_and]
      rfl
    · rw [if_neg hc]
      simp only [hc, false_and, not_false_eq_true, decide_true, List.filter_true]
  · have hany := s.hasAnyAddresses_iff t p
    have hexists : (∃ e ∈ l, Flat.Under t p e ∧ e.info.nUuid = n) ↔ ∃ a ∈ s.cell t p, a.nUuid = n := by
      rw [Flat.exists_under l t p (P := fun a => a.nUuid = n), h t p]
    have hdel : (l.delAddressByNode t p n).2 = decide (∃ a ∈ s.cell t p, a.nUuid = n) := decide_eq_decide.mpr hexists
    rw [hdel, TopicStorage.delAddressByNode]
    split_ifs with hc
    · refine decide_eq_decide.mpr ?_
      rw [TopicStorage.delNode, List.length_filter_lt_length_iff_exists]
      simp
    · have hnil : s.cell t p = [] := not_not.mp fun hne => hc (hany.mpr hne)
      simp [hnil]

theorem stands_delAddressesByProc (h : Stands s l) (p : Str) :
    Stands (s.delAddressesByProc p).1 (l.delAddressesByProc p).1 := by
  intro u q
  have hfilter : Flat.infos (l.delAddressesByProc p).1 u q = (l.infos u q).filter fun _ => q ≠ p := by
    refine Flat.infos_filter l u q _ (fun _ => q ≠ p) fun e _ he => ?_
    obtain ⟨rfl, rfl⟩ := he
    rfl
  rw [hfilter, TopicStorage.cell_delAddressesByProc, h u q]
  split_ifs with hq <;> simp [hq]

/-- **One operation**: table and relation stay in step, and return the same. -/
theorem stands_apply (h : Stands s l) (op : TopicMap.Op) : Stands (s.apply op).1 (l.apply op).1 ∧
    ((∀ p, op ≠ .delAddressesByProc p) → (s.apply op).2 = (l.apply op).2) := by
  cases op with
  | addAddress topic addr ctrl pUuid nUuid scope =>
    obtain ⟨hstands, hreturn⟩ := stands_addAddress h topic addr ctrl pUuid nUuid scope
    exact ⟨hstands, fun _ => hreturn⟩
  | delAddressByNode topic pUuid nUuid =>
    obtain ⟨hstands, hreturn⟩ := stands_delAddressByNode h topic pUuid nUuid
    exact ⟨hstands, fun _ => hreturn⟩
  | delAddressesByProc pUuid => exact ⟨stands_delAddressesByProc h pUuid, fun hne => absurd rfl (hne pUuid)⟩

/-- No address and node twice in a vector. -/
def Distinct (v : List Address) : Prop := v.Pairwise fun a b => ¬ (a.addr = b.addr ∧ a.nUuid = b.nUuid)

theorem distinct_addEntry {v : List Address} (h : Distinct v) (a : Address) : Distinct (TopicStorage.addEntry v a) := by
  unfold TopicStorage.addEntry
  split_ifs with hex
  · exact h
  · refine List.pairwise_append.mpr ⟨h, List.pairwise_singleton _ _, fun b hb c hc heq => hex ⟨b, hb, ?_⟩⟩
    rw [List.mem_singleton.mp hc] at heq
    exact heq

theorem distinct_delNode {v : List Address} (h : Distinct v) (n : Str) : Distinct (TopicStorage.delNode v n) :=
  List.Pairwise.filter _ h

theorem distinct_apply (h : ∀ t p, Distinct (s.cell t p)) (op : TopicMap.Op) (t p : Str) :
    Distinct ((s.apply op).1.cell t p) := by
  cases op with
  | addAddress topic addr ctrl pUuid nUuid scope =>
    show Distinct ((s.addAddress topic addr ctrl pUuid nUuid scope).1.cell t p)
    rw [TopicStorage.cell_addAddress]
    split_ifs
    · exact distinct_addEntry (h t p) _
    · exact h t p
  | delAddressByNode topic pUuid nUuid =>
    show Distinct ((s.delAddressByNode topic pUuid nUuid).1.cell t p)
    rw [TopicStorage.cell_delAddressByNode]
    split_ifs
    · exact distinct_delNode (h t p) nUuid
    · exact h t p
  | delAddressesByProc pUuid =>
    show Distinct ((s.delAddressesByProc pUuid).1.cell t p)
    rw [TopicStorage.cell_delAddressesByProc]
    split_ifs
    · exact List.Pairwise.nil
    · exact h t p

/-- The nested map after some operations on an empty storage. -/
def TopicMap.after (ops : List TopicMap.Op) : TopicMap := ops.foldl (fun data op => (data.apply op).1) ∅

/-- The relation after the same operations. -/
def Flat.after (ops : List TopicMap.Op) : Flat := ops.foldl (fun l op => (l.apply op).1) []

/-- **A run**: the nested map is that of a table, which holds the vectors of the relation. -/
theorem exists_table (ops : List TopicMap.Op) : ∃ s : TopicStorage, TopicMap.after ops = s.rows ∧
    Stands s (Flat.after ops) ∧ ∀ t p, Distinct (s.cell t p) := by
  induction ops using List.reverseRecOn with
  | nil =>
    refine ⟨Table.empty, rfl, stands_empty, fun t p => ?_⟩
    rw [Table.cell_empty]
    exact List.Pairwise.nil
  | append_singleton ops op ih =>
    obtain ⟨s, hrows, hstands, hdistinct⟩ := ih
    have hmap : TopicMap.after (ops ++ [op]) = ((TopicMap.after ops).apply op).1 := List.foldl_concat _ _ _ _
    have hflat : Flat.after (ops ++ [op]) = ((Flat.after ops).apply op).1 := List.foldl_concat _ _ _ _
    refine ⟨(s.apply op).1, ?_, ?_, distinct_apply hdistinct op⟩
    · rw [hmap, hrows, TopicMap.rows_apply]
    · rw [hflat]
      exact (stands_apply hstands op).1

end Refinement

/-! ## Queries -/

section Queries

/-- Every query of the storage is that of the relation. -/
structure Agree (data : TopicMap) (l : Flat) : Prop where
  hasTopic : ∀ t, data.hasTopic t = l.hasTopic t
  hasAnyAddresses : ∀ t p, data.hasAnyAddresses t p = l.hasAnyAddresses t p
  hasAddress : ∀ addr, data.hasAddress addr = l.hasAddress addr
  getAddress : ∀ t p n, data.getAddress t p n = l.getAddress t p n
  getAddresses : ∀ t, data.getAddresses t = l.getAddresses t
  getAddressesByProc : ∀ p, data.getAddressesByProc p = l.getAddressesByProc p
  getTopicList : data.getTopicList = l.getTopicList

/-- Nothing is kept empty: no topic without a process, no process with an empty vector. -/
structure Pruned (data : TopicMap) : Prop where
  topic : ∀ (t : Str) (m : Addresses), data[t]? = some m → m ≠ ∅
  proc : ∀ (t : Str) (m : Addresses) (p : Str) (v : List Address), data[t]? = some m → m[p]? = some v → v ≠ []

variable {s : TopicStorage} {l : Flat}

theorem pruned_rows (s : TopicStorage) : Pruned s.rows where
  topic t m hm hempty := by
    have hne := s.row_nonempty t m hm
    rw [hempty] at hne
    cases hne
  proc t m p v hm hv := s.cell_nonempty t m p v hm hv

theorem hasTopic_iff_stands (h : Stands s l) (t : Str) : s.hasTopic t = true ↔ ∃ e ∈ l, e.topic = t := by
  rw [TopicStorage.hasTopic_iff]
  constructor
  · rintro ⟨p, hne⟩
    obtain ⟨a, ha⟩ := List.exists_mem_of_ne_nil _ hne
    rw [h t p] at ha
    exact ⟨⟨t, p, a⟩, (Flat.mem_infos l t p).mp ha, rfl⟩
  · rintro ⟨⟨t, p, a⟩, he, rfl⟩
    refine ⟨p, List.ne_nil_of_mem (a := a) ?_⟩
    rw [h t p]
    exact (Flat.mem_infos l t p).mpr he

theorem getAddress_stands (h : Stands s l) (t p n : Str) : s.getAddress t p n = l.getAddress t p n := by
  unfold TopicStorage.getAddress Flat.getAddress
  rw [h t p, Flat.infos, List.find?_map, List.find?_filter]
  refine congrArg (Option.map Entry.info) (List.find?_congr fun e _ => ?_)
  simp only [Function.comp_apply, Bool.decide_and, Bool.decide_eq_true]

theorem getAddresses_stands (h : Stands s l) (t : Str) : s.getAddresses t = l.getAddresses t := by
  unfold TopicStorage.getAddresses Flat.getAddresses
  have htopic : s.hasTopic t = l.hasTopic t := by
    rw [Bool.eq_iff_iff, hasTopic_iff_stands h, Flat.hasTopic, decide_eq_true_iff]
  rw [htopic]
  have hrow : s.row t = pushAll ((l.filter fun e => e.topic = t).map fun e => (e.pUuid, e.info)) := by
    refine Std.ExtTreeMap.ext_getElem? fun p => ?_
    rw [getElem?_pushAll, Flat.pushed_topic, Table.getElem?_row, h t p]
    exact if_congr (Cell.isEmpty_iff _) rfl rfl
  rw [hrow]

theorem agree_of_stands (h : Stands s l) : Agree s.rows l where
  hasTopic t := by
    rw [TopicMap.hasTopic, TopicMap.contains_rows, Bool.eq_iff_iff, hasTopic_iff_stands h, Flat.hasTopic,
      decide_eq_true_iff]
  hasAnyAddresses t p := by
    rw [TopicMap.hasAnyAddresses_rows, Bool.eq_iff_iff, TopicStorage.hasAnyAddresses_iff, Flat.hasAnyAddresses,
      decide_eq_true_iff, h t p]
    have hexists := Flat.exists_under l t p (P := fun _ => True)
    simp only [and_true] at hexists
    rw [hexists]
    exact ⟨List.exists_mem_of_ne_nil _, fun ⟨_, ha⟩ => List.ne_nil_of_mem ha⟩
  hasAddress addr := by
    have hrows : TopicMap.hasAddress s.rows addr = s.hasAddress addr := rfl
    rw [hrows, Bool.eq_iff_iff, TopicStorage.hasAddress_iff, Flat.hasAddress, decide_eq_true_iff]
    constructor
    · rintro ⟨t, p, n, hk⟩
      obtain ⟨e, he, -, haddr, -⟩ := (known_iff h t p n addr).mp hk
      exact ⟨e, he, haddr⟩
    · rintro ⟨⟨t, p, a⟩, he, haddr⟩
      exact ⟨t, p, a.nUuid, (known_iff h t p a.nUuid addr).mpr ⟨_, he, ⟨rfl, rfl⟩, haddr, rfl⟩⟩
  getAddress t p n := by rw [TopicMap.getAddress_rows, getAddress_stands h]
  getAddresses t := by rw [TopicMap.getAddresses_rows, getAddresses_stands h]
  getAddressesByProc p := by
    refine Std.ExtTreeMap.ext_getElem? fun t => ?_
    rw [TopicMap.getElem?_getAddressesByProc, Flat.getAddressesByProc, getElem?_pushAll, Flat.pushed_proc, h t p]
  getTopicList := by
    refine keys_eq_toList fun t => ?_
    have hmem : t ∈ s.rows ↔ s.hasTopic t = true := Std.ExtTreeMap.mem_iff_contains
    rw [hmem, hasTopic_iff_stands h, Std.ExtTreeSet.mem_ofList]
    simp

/-- **The storage refines a flat relation.** -/
theorem topicStorage_refines (ops : List TopicMap.Op) :
    Pruned (TopicMap.after ops) ∧
      (∀ (t : Str) m (p : Str) v, (TopicMap.after ops)[t]? = some m → m[p]? = some v → Distinct v) ∧
      Agree (TopicMap.after ops) (Flat.after ops) ∧
      (∀ op, (∀ p, op ≠ .delAddressesByProc p) →
        ((TopicMap.after ops).apply op).2 = ((Flat.after ops).apply op).2) ∧
      ∀ t m, (TopicMap.after ops).getAddresses t = some m → ∃ p a v, Std.ExtTreeMap.minEntry? m = some (p, a :: v) := by
  obtain ⟨s, hrows, hstands, hdistinct⟩ := exists_table ops
  rw [hrows]
  refine ⟨pruned_rows s, fun t m p v hm hv => ?_, agree_of_stands hstands, fun op hop => ?_, fun t m hm => ?_⟩
  · have hcell := hdistinct t p
    rw [Table.cell_eq_getD, hm, Option.bind_some, hv] at hcell
    exact hcell
  · rw [TopicMap.rows_apply]
    exact (stands_apply hstands op).2 hop
  · rw [TopicMap.getAddresses_rows, TopicStorage.getAddresses_eq_some_iff] at hm
    obtain ⟨htopic, rfl⟩ := hm
    cases hmin : Std.ExtTreeMap.minEntry? (s.row t) with
    | none =>
      obtain ⟨p, hne⟩ := (s.hasTopic_iff t).mp htopic
      have hrow := (TopicMap.contains_row s t p).mpr hne
      rw [(minEntry?_eq_none_iff _).mp hmin] at hrow
      cases hrow
    | some e =>
      have hget := getElem?_of_minEntry hmin
      rw [Table.getElem?_row] at hget
      split_ifs at hget with hempty
      obtain ⟨a, v, hv⟩ := List.exists_cons_of_ne_nil fun hnil => hempty ((Cell.isEmpty_iff _).mpr hnil)
      rw [hv] at hget
      exact ⟨e.1, a, v, by rw [Option.some.inj hget]⟩

end Queries

end IgnTransport
