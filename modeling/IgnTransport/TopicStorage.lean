import Mathlib
import IgnTransport.Lib.Table
import IgnTransport.TransportTypes

/-!
# IgnTransport.TopicStorage — the addressing information of a topic (`TopicStorage.hh`, `TopicStorage.cc`)

Topic, then process UUID, then a vector of addresses.  The nested map never holds an empty vector or a topic without a
process, which the table carries with it; `DelAddressByNode` and `DelAddressesByProc` erase what they empty.
-/

namespace IgnTransport

open Lib

/-- `TopicStorage`. -/
abbrev TopicStorage := Table Str Str (List Address)

namespace TopicStorage

/-! ## Operations -/

section Operations

/-- `AddAddress`: an address and node UUID that the topic already has under this process are not added again. -/
def addAddress (s : TopicStorage) (topic addr ctrl pUuid nUuid : Str) (scope : Scope) : TopicStorage × Bool :=
  let v := s.cell topic pUuid
  if ∃ a ∈ v, a.addr = addr ∧ a.nUuid = nUuid then (s, false)
  else (s.set topic pUuid (v ++ [⟨addr, ctrl, nUuid, scope⟩]), true)

/-- What `AddAddress` does to the vector of a topic and process. -/
def addEntry (v : List Address) (a : Address) : List Address :=
  if ∃ b ∈ v, b.addr = a.addr ∧ b.nUuid = a.nUuid then v else v ++ [a]

/-- What `DelAddressByNode` does to the vector of a topic and process. -/
def delNode (v : List Address) (nUuid : Str) : List Address := v.filter fun a => a.nUuid ≠ nUuid

/-- `HasTopic`. -/
def hasTopic (s : TopicStorage) (topic : Str) : Bool := s.hasRow topic

/-- `HasAnyAddresses`. -/
def hasAnyAddresses (s : TopicStorage) (topic pUuid : Str) : Bool := s.hasTopic topic && s.hasCell topic pUuid

/-- `HasAddress`: any topic, any process. -/
def hasAddress (s : TopicStorage) (addr : Str) : Bool :=
  s.rows.toList.any fun topic => topic.2.toList.any fun proc => proc.2.any fun info => info.addr = addr

/-- `GetAddress`: the first entry of the node. -/
def getAddress (s : TopicStorage) (topic pUuid nUuid : Str) : Option Address :=
  (s.cell topic pUuid).find? fun a => a.nUuid = nUuid

/-- `GetAddresses`. -/
def getAddresses (s : TopicStorage) (topic : Str) : Option Addresses :=
  if s.hasTopic topic then some (s.row topic) else none

/-- `DelAddressByNode`: every entry of the node. -/
def delAddressByNode (s : TopicStorage) (topic pUuid nUuid : Str) : TopicStorage × Bool :=
  if s.hasAnyAddresses topic pUuid then
    let v := s.cell topic pUuid
    let v' := delNode v nUuid
    (s.set topic pUuid v', v'.length < v.length)
  else (s, false)

/-- `DelAddressesByProc`: the counter that is returned is the one of the last topic. -/
def delAddressesByProc (s : TopicStorage) (pUuid : Str) : TopicStorage × Bool :=
  (s.eraseInner pUuid, s.rows.foldl (fun _ _ m => m.contains pUuid) false)

/-- `GetAddressesByProc`: topic by topic. -/
def getAddressesByProc (s : TopicStorage) (pUuid : Str) : List (Str × List Address) :=
  s.rows.toList.filterMap fun topic => topic.2[pUuid]?.map fun v => (topic.1, v)

end Operations

/-! ## Cells -/

section Cells

variable (s : TopicStorage) (t u p q n : Str)

/-- The topic has an entry of this address and node under this process. -/
def Known (addr : Str) : Prop := ∃ a ∈ s.cell t p, a.addr = addr ∧ a.nUuid = n

instance (addr : Str) : Decidable (s.Known t p n addr) := by unfold Known; infer_instance

theorem addAddress_of_known {addr ctrl : Str} {scope : Scope} (h : s.Known t p n addr) :
    s.addAddress t addr ctrl p n scope = (s, false) := if_pos h

theorem addAddress_of_not_known {addr ctrl : Str} {scope : Scope} (h : ¬ s.Known t p n addr) :
    s.addAddress t addr ctrl p n scope =
      (s.set t p (s.cell t p ++ [⟨addr, ctrl, n, scope⟩]), true) := if_neg h

theorem snd_addAddress (addr ctrl : Str) (scope : Scope) :
    (s.addAddress t addr ctrl p n scope).2 = decide (¬ s.Known t p n addr) := by
  by_cases h : s.Known t p n addr
  · rw [addAddress_of_known s t p n h, decide_eq_false (not_not.mpr h)]
  · rw [addAddress_of_not_known s t p n h, decide_eq_true h]

theorem cell_addAddress (addr ctrl : Str) (scope : Scope) :
    (s.addAddress t addr ctrl p n scope).1.cell u q =
      if u = t ∧ q = p then addEntry (s.cell u q) ⟨addr, ctrl, n, scope⟩ else s.cell u q := by
  by_cases h : s.Known t p n addr
  · rw [addAddress_of_known s t p n h]
    split_ifs with hc
    · rw [hc.1, hc.2]
      exact (if_pos h).symm
    · rfl
  · rw [addAddress_of_not_known s t p n h, Table.cell_set]
    split_ifs with hc
    · rw [hc.1, hc.2]
      exact (if_neg h).symm
    · rfl

theorem hasTopic_iff : s.hasTopic t = true ↔ ∃ p, s.cell t p ≠ [] := s.hasRow_iff t

theorem hasAnyAddresses_iff : s.hasAnyAddresses t p = true ↔ s.cell t p ≠ [] := by
  rw [hasAnyAddresses, Bool.and_eq_true, hasTopic_iff, Table.hasCell_iff]
  exact ⟨fun h => h.2, fun h => ⟨⟨p, h⟩, h⟩⟩

theorem cell_delAddressByNode : (s.delAddressByNode t p n).1.cell u q =
    if u = t ∧ q = p then delNode (s.cell u q) n else s.cell u q := by
  unfold delAddressByNode
  split_ifs with h hc hc
  · rw [Table.cell_set, if_pos hc, hc.1, hc.2]
  · rw [Table.cell_set, if_neg hc]
  · have hnil : s.cell t p = [] := by simpa [hasAnyAddresses_iff] using h
    simp only [hc.1, hc.2, hnil, delNode, List.filter_nil]
  · rfl

theorem cell_delAddressesByProc :
    (s.delAddressesByProc p).1.cell u q = if q = p then [] else s.cell u q :=
  s.cell_eraseInner p u q

theorem mem_getAddressesByProc (v : List Address) :
    (t, v) ∈ s.getAddressesByProc p ↔ s.cell t p = v ∧ v ≠ [] := by
  simp only [getAddressesByProc, List.mem_filterMap, Option.map_eq_some_iff, Prod.mk.injEq, Prod.exists,
    Std.ExtTreeMap.mem_toList_iff_getElem?_eq_some]
  constructor
  · rintro ⟨t', m, hm, v', hv', rfl, rfl⟩
    rw [← Table.row_of_getElem? hm, Table.getElem?_row] at hv'
    split_ifs at hv' with hempty
    have hv := Option.some.inj hv'
    exact ⟨hv, hv ▸ fun h0 => hempty ((Cell.isEmpty_iff _).mpr h0)⟩
  · rintro ⟨hcell, hv⟩
    have hne : s.cell t p ≠ [] := hcell ▸ hv
    have hrow : s.hasRow t = true := (s.hasRow_iff t).mpr ⟨p, hne⟩
    rw [Table.hasRow, Std.ExtTreeMap.contains_eq_isSome_getElem?] at hrow
    obtain ⟨m, hm⟩ := Option.isSome_iff_exists.mp hrow
    refine ⟨t, m, hm, v, ?_, rfl, rfl⟩
    rw [← Table.row_of_getElem? hm, Table.getElem?_row, hcell,
      if_neg fun h0 => hv ((Cell.isEmpty_iff _).mp h0)]

theorem getAddresses_eq_some_iff (m : Addresses) :
    s.getAddresses t = some m ↔ s.hasTopic t = true ∧ m = s.row t := by
  unfold getAddresses
  split_ifs with h <;> simp [h, eq_comm]

end Cells

/-! ## Nodes -/

section Nodes

theorem mem_addEntry_node {l : List Address} {x : Address} {n : Str} :
    (∃ a ∈ addEntry l x, a.nUuid = n) ↔ (∃ a ∈ l, a.nUuid = n) ∨ n = x.nUuid := by
  unfold addEntry
  split_ifs with h
  · obtain ⟨b, hb, -, hn⟩ := h
    exact ⟨.inl, fun hor => hor.elim id fun heq => ⟨b, hb, hn.trans heq.symm⟩⟩
  · simp only [List.mem_append, List.mem_singleton]
    constructor
    · rintro ⟨a, ha | rfl, hn⟩
      · exact .inl ⟨a, ha, hn⟩
      · exact .inr hn.symm
    · rintro (⟨a, ha, hn⟩ | rfl)
      · exact ⟨a, .inl ha, hn⟩
      · exact ⟨x, .inr rfl, rfl⟩

theorem mem_delNode {l : List Address} {m : Str} {P : Address → Prop} :
    (∃ a ∈ delNode l m, P a) ↔ ∃ a ∈ l, a.nUuid ≠ m ∧ P a := by
  simp only [delNode, List.mem_filter, decide_eq_true_eq, and_assoc]

variable (s : TopicStorage) (t u p q n m : Str)

/-- A node of a process has an entry for the topic. -/
def HasNode : Prop := ∃ a ∈ s.cell t p, a.nUuid = n

instance : Decidable (s.HasNode t p n) := by unfold HasNode; infer_instance

theorem hasNode_addAddress (addr ctrl : Str) (scope : Scope) :
    (s.addAddress t addr ctrl p n scope).1.HasNode u q m ↔ s.HasNode u q m ∨ (u = t ∧ q = p ∧ m = n) := by
  unfold HasNode
  rw [cell_addAddress]
  split_ifs with hc
  · rw [mem_addEntry_node]
    simp only [hc, true_and]
  · exact ⟨.inl, fun h => h.resolve_right fun h' => hc ⟨h'.1, h'.2.1⟩⟩

theorem hasNode_delAddressByNode :
    (s.delAddressByNode t p n).1.HasNode u q m ↔ s.HasNode u q m ∧ ¬ (u = t ∧ q = p ∧ m = n) := by
  unfold HasNode
  rw [cell_delAddressByNode]
  split_ifs with hc
  · rw [mem_delNode]
    simp only [hc, true_and]
    constructor
    · rintro ⟨a, ha, hne, rfl⟩
      exact ⟨⟨a, ha, rfl⟩, hne⟩
    · rintro ⟨⟨a, ha, rfl⟩, hne⟩
      exact ⟨a, ha, hne, rfl⟩
  · exact ⟨fun h => ⟨h, fun h' => hc ⟨h'.1, h'.2.1⟩⟩, fun h => h.1⟩

theorem hasNode_delAddressesByProc :
    (s.delAddressesByProc p).1.HasNode u q m ↔ s.HasNode u q m ∧ q ≠ p := by
  unfold HasNode
  rw [cell_delAddressesByProc]
  split_ifs with hq <;> simp [hq]

theorem known_addAddress {addr addr' ctrl : Str} {scope : Scope} :
    (s.addAddress t addr ctrl p n scope).1.Known u q m addr' ↔
      s.Known u q m addr' ∨ (u = t ∧ q = p ∧ m = n ∧ addr' = addr) := by
  unfold Known
  rw [cell_addAddress]
  split_ifs with hc
  · obtain ⟨rfl, rfl⟩ := hc
    unfold addEntry
    split_ifs with hex
    · refine ⟨.inl, fun h => h.elim id ?_⟩
      rintro ⟨-, -, rfl, rfl⟩
      exact hex
    · simp only [List.mem_append, List.mem_singleton, or_and_right, exists_or, exists_eq_left, true_and]
      exact or_congr_right ⟨fun h => ⟨h.2.symm, h.1.symm⟩, fun h => ⟨h.2.symm, h.1.symm⟩⟩
  · exact ⟨.inl, fun h => h.resolve_right fun h' => hc ⟨h'.1, h'.2.1⟩⟩

theorem known_delAddressByNode {addr : Str} :
    (s.delAddressByNode t p n).1.Known u q m addr ↔ s.Known u q m addr ∧ ¬ (u = t ∧ q = p ∧ m = n) := by
  unfold Known
  rw [cell_delAddressByNode]
  split_ifs with hc
  · rw [mem_delNode]
    simp only [hc, true_and]
    constructor
    · rintro ⟨a, ha, hne, haddr, rfl⟩
      exact ⟨⟨a, ha, haddr, rfl⟩, hne⟩
    · rintro ⟨⟨a, ha, haddr, rfl⟩, hne⟩
      exact ⟨a, ha, hne, haddr, rfl⟩
  · exact ⟨fun h => ⟨h, fun h' => hc ⟨h'.1, h'.2.1⟩⟩, fun h => h.1⟩

theorem known_delAddressesByProc {addr : Str} :
    (s.delAddressesByProc p).1.Known u q m addr ↔ s.Known u q m addr ∧ q ≠ p := by
  unfold Known
  rw [cell_delAddressesByProc]
  split_ifs with hq <;> simp [hq]

theorem hasTopic_iff_known : s.hasTopic t = true ↔ ∃ p n addr, s.Known t p n addr := by
  rw [hasTopic_iff]
  constructor
  · rintro ⟨p, hp⟩
    obtain ⟨a, ha⟩ := List.exists_mem_of_ne_nil _ hp
    exact ⟨p, a.nUuid, a.addr, a, ha, rfl, rfl⟩
  · rintro ⟨p, n, addr, a, ha, -⟩
    exact ⟨p, List.ne_nil_of_mem ha⟩

theorem hasAddress_iff (addr : Str) : s.hasAddress addr = true ↔ ∃ t p n, s.Known t p n addr := by
  simp only [hasAddress, List.any_eq_true, decide_eq_true_eq, Prod.exists,
    Std.ExtTreeMap.mem_toList_iff_getElem?_eq_some]
  constructor
  · rintro ⟨t, m, hm, p, v, hv, a, ha, haddr⟩
    rw [← Table.row_of_getElem? hm, Table.getElem?_row] at hv
    split_ifs at hv
    rw [← Option.some.inj hv] at ha
    exact ⟨t, p, a.nUuid, a, ha, haddr, rfl⟩
  · rintro ⟨t, p, n, a, ha, haddr, -⟩
    have hne : s.cell t p ≠ [] := List.ne_nil_of_mem ha
    have hrow : s.hasRow t = true := (s.hasRow_iff t).mpr ⟨p, hne⟩
    rw [Table.hasRow, Std.ExtTreeMap.contains_eq_isSome_getElem?] at hrow
    obtain ⟨m, hm⟩ := Option.isSome_iff_exists.mp hrow
    refine ⟨t, m, hm, p, s.cell t p, ?_, a, ha, haddr⟩
    rw [← Table.row_of_getElem? hm, Table.getElem?_row, if_neg fun h0 => hne ((Cell.isEmpty_iff _).mp h0)]

theorem getAddress_eq_none_iff : s.getAddress t p n = none ↔ ∀ addr, ¬ s.Known t p n addr := by
  unfold getAddress Known
  simp only [List.find?_eq_none, decide_eq_true_eq]
  constructor
  · rintro h addr ⟨a, ha, -, hn⟩
    exact h a ha hn
  · exact fun h a ha hn => h a.addr ⟨a, ha, rfl, hn⟩

theorem hasTopic_iff_hasNode : s.hasTopic t = true ↔ ∃ p n, s.HasNode t p n := by
  rw [hasTopic_iff]
  constructor
  · rintro ⟨p, hp⟩
    obtain ⟨a, ha⟩ := List.exists_mem_of_ne_nil _ hp
    exact ⟨p, a.nUuid, a, ha, rfl⟩
  · rintro ⟨p, n, a, ha, -⟩
    exact ⟨p, List.ne_nil_of_mem ha⟩

theorem not_hasNode_empty : ¬ HasNode Table.empty t p n := by
  rintro ⟨a, ha, -⟩
  rw [Table.cell_empty] at ha
  cases ha

end Nodes

end TopicStorage

end IgnTransport
