import Mathlib
import IgnTransport.Lib.Table
import IgnTransport.TransportTypes

/-!
# IgnTransport.HandlerStorage — the handlers of a topic (`HandlerStorage.hh`)

Topic, then node UUID, then handler UUID.  Every removal erases what it empties, so the nested map is a table whose
cells are the handlers of a node.
-/

namespace IgnTransport

open Lib

/-- What a storage asks of its handlers: `GetHandlerUuid`. -/
class Handler (H : Type) where
  hUuid : H → Str

/-- `HandlerStorage<T>`. -/
abbrev HandlerStorage (H : Type) := Table Str Str (StrMap H)

namespace HandlerStorage

variable {H : Type}

/-! ## Operations -/

section Operations

variable (s : HandlerStorage H)

/-- `GetHandlers`. -/
def getHandlers (topic : Str) : Option (StrMap (StrMap H)) :=
  if s.hasRow topic then some (s.row topic) else none

/-- `GetHandler` of a topic: the first handler of the first node. -/
def getFirstHandler (topic : Str) : Option H := do
  let node ← Std.ExtTreeMap.minEntry? (s.row topic)
  let handler ← Std.ExtTreeMap.minEntry? node.2
  return handler.2

/-- `GetHandler` of a topic, node and handler UUID. -/
def getHandler (topic nUuid hUuid : Str) : Option H := (s.cell topic nUuid)[hUuid]?

/-- `AddHandler`: a handler UUID that the node already has is not replaced. -/
def addHandler [Handler H] (topic nUuid : Str) (handler : H) : HandlerStorage H :=
  s.set topic nUuid ((s.cell topic nUuid).insertIfNew (Handler.hUuid handler) handler)

/-- `HasHandlersForTopic`. -/
def hasHandlersForTopic (topic : Str) : Bool := s.hasRow topic

/-- `HasHandlersForNode`. -/
def hasHandlersForNode (topic nUuid : Str) : Bool := s.hasRow topic && s.hasCell topic nUuid

/-- `RemoveHandler`: what is returned says whether the node has lost its last handler. -/
def removeHandler (topic nUuid reqUuid : Str) : HandlerStorage H × Bool :=
  if s.hasHandlersForNode topic nUuid then
    let m := (s.cell topic nUuid).erase reqUuid
    (s.set topic nUuid m, m.isEmpty)
  else (s, false)

/-- `RemoveHandlersForNode`. -/
def removeHandlersForNode (topic nUuid : Str) : HandlerStorage H × Bool :=
  if s.hasRow topic then (s.set topic nUuid ∅, s.hasCell topic nUuid) else (s, false)

/-- The handlers that a loop over `GetHandlers` meets, in order. -/
def handlersOf (handlers : StrMap (StrMap H)) : List H :=
  handlers.toList.flatMap fun node => node.2.toList.map fun handler => handler.2

end Operations

/-! ## Cells -/

section Cells

variable (s : HandlerStorage H) (t u n m : Str)

theorem cell_removeHandlersForNode :
    (s.removeHandlersForNode t n).1.cell u m = if u = t ∧ m = n then ∅ else s.cell u m := by
  unfold removeHandlersForNode
  split_ifs with hrow hc hc
  · rw [Table.cell_set, if_pos hc]
  · rw [Table.cell_set, if_neg hc]
  · obtain ⟨rfl, rfl⟩ := hc
    by_contra hne
    exact hrow ((s.hasRow_iff u).mpr ⟨m, hne⟩)
  · rfl

theorem removeHandlersForNode_eq_self_iff : (s.removeHandlersForNode t n).1 = s ↔ s.cell t n = ∅ := by
  constructor
  · intro hsame
    rw [← hsame, cell_removeHandlersForNode, if_pos ⟨rfl, rfl⟩]
  · intro hempty
    refine Table.ext_cell fun u m => ?_
    rw [cell_removeHandlersForNode]
    split_ifs with hc
    · rw [hc.1, hc.2, hempty]
    · rfl

theorem cell_removeHandler (k : Str) :
    (s.removeHandler t n k).1.cell u m = if u = t ∧ m = n then (s.cell u m).erase k else s.cell u m := by
  unfold removeHandler
  split_ifs with hnode hc hc
  · rw [Table.cell_set, if_pos hc, hc.1, hc.2]
  · rw [Table.cell_set, if_neg hc]
  · obtain ⟨rfl, rfl⟩ := hc
    have hempty : s.cell u m = ∅ := by
      by_contra hne
      refine hnode ?_
      rw [hasHandlersForNode, Bool.and_eq_true, Table.hasRow_iff, Table.hasCell_iff]
      exact ⟨⟨m, hne⟩, hne⟩
    rw [hempty, Std.ExtTreeMap.erase_empty]
  · rfl

theorem getHandler_removeHandler (k j : Str) : (s.removeHandler t n k).1.getHandler u m j =
    if u = t ∧ m = n ∧ j = k then none else s.getHandler u m j := by
  unfold getHandler
  rw [cell_removeHandler]
  by_cases hc : u = t ∧ m = n
  · rw [if_pos hc, getElem?_erase']
    exact if_congr (by simp [hc]) rfl rfl
  · rw [if_neg hc, if_neg fun h => hc ⟨h.1, h.2.1⟩]

theorem getHandler_removeHandlersForNode (k : Str) : (s.removeHandlersForNode t n).1.getHandler u m k =
    if u = t ∧ m = n then none else s.getHandler u m k := by
  unfold getHandler
  rw [cell_removeHandlersForNode]
  split_ifs
  · exact Std.ExtTreeMap.getElem?_empty
  · rfl

theorem getHandler_of_empty {s : HandlerStorage H} (hempty : s.cell t n = ∅) (k : Str) : s.getHandler t n k = none := by
  rw [getHandler, hempty]
  exact Std.ExtTreeMap.getElem?_empty

theorem cell_ne_empty_iff : s.cell t n ≠ ∅ ↔ ∃ k, s.getHandler t n k ≠ none := by
  have hempty := isEmpty_iff_forall (s.cell t n)
  rw [Std.ExtTreeMap.isEmpty_iff] at hempty
  rw [Ne, hempty, not_forall]
  rfl

/-- A topic has handlers iff there is one. -/
theorem hasHandlersForTopic_of_getHandler {k : Str} {h : H} (hk : s.getHandler t n k = some h) :
    s.hasRow t = true := by
  refine (s.hasRow_iff t).mpr ⟨n, fun hempty => ?_⟩
  rw [getHandler_of_empty t n hempty] at hk
  cases hk

theorem hasHandlersForTopic_iff : s.hasHandlersForTopic t = true ↔ ∃ n, s.cell t n ≠ ∅ := s.hasRow_iff t

theorem hasHandlersForNode_iff : s.hasHandlersForNode t n = true ↔ s.cell t n ≠ ∅ := by
  rw [hasHandlersForNode, Bool.and_eq_true, Table.hasRow_iff, Table.hasCell_iff]
  exact ⟨fun h => h.2, fun h => ⟨⟨n, h⟩, h⟩⟩

theorem getHandlers_eq_some_iff (handlers : StrMap (StrMap H)) :
    s.getHandlers t = some handlers ↔ s.hasHandlersForTopic t = true ∧ handlers = s.row t := by
  unfold getHandlers hasHandlersForTopic
  split_ifs with h <;> simp [h, eq_comm]

/-- A loop over the handlers of a topic meets what is stored under its nodes. -/
theorem mem_handlersOf (h : H) : h ∈ handlersOf (s.row t) ↔ ∃ n u : Str, (s.cell t n)[u]? = some h := by
  simp only [handlersOf, List.mem_flatMap, List.mem_map, Prod.exists]
  constructor
  · rintro ⟨n, c, hc, u, _, hu, rfl⟩
    rw [← ((s.mem_row_toList t n c).mp hc).1] at hu
    exact ⟨n, u, Std.ExtTreeMap.mem_toList_iff_getElem?_eq_some.mp hu⟩
  · rintro ⟨n, u, hu⟩
    have hne : s.cell t n ≠ Cell.empty := fun hempty => by
      rw [hempty] at hu
      exact absurd hu (by rw [show (Cell.empty : StrMap H)[u]? = none from Std.ExtTreeMap.getElem?_empty]; simp)
    exact ⟨n, _, (s.mem_row_toList t n _).mpr ⟨rfl, hne⟩, u, h,
      Std.ExtTreeMap.mem_toList_iff_getElem?_eq_some.mpr hu, rfl⟩

variable [Handler H]

theorem cell_addHandler (h : H) : (s.addHandler t n h).cell u m =
    if u = t ∧ m = n then (s.cell t n).insertIfNew (Handler.hUuid h) h else s.cell u m := by
  rw [addHandler, Table.cell_set]

theorem getHandler_addHandler (h : H) (k : Str) : (s.addHandler t n h).getHandler u m k =
    if u = t ∧ m = n ∧ k = Handler.hUuid h ∧ s.getHandler u m k = none then some h else s.getHandler u m k := by
  unfold getHandler
  rw [cell_addHandler]
  by_cases hc : u = t ∧ m = n
  · obtain ⟨rfl, rfl⟩ := hc
    rw [if_pos ⟨rfl, rfl⟩, Std.ExtTreeMap.getElem?_insertIfNew]
    refine if_congr ?_ rfl rfl
    rw [Std.LawfulEqCmp.compare_eq_iff_eq, Std.ExtTreeMap.mem_iff_isSome_getElem?, Option.not_isSome_iff_eq_none]
    constructor
    · rintro ⟨rfl, hnone⟩
      exact ⟨rfl, rfl, rfl, hnone⟩
    · rintro ⟨-, -, rfl, hnone⟩
      exact ⟨rfl, hnone⟩
  · rw [if_neg hc, if_neg fun hk => hc ⟨hk.1, hk.2.1⟩]

theorem insertIfNew_ne_empty (c : StrMap H) (h : H) : c.insertIfNew (Handler.hUuid h) h ≠ ∅ := by
  intro hempty
  have hmem : Handler.hUuid h ∈ c.insertIfNew (Handler.hUuid h) h := Std.ExtTreeMap.mem_insertIfNew_self
  rw [hempty] at hmem
  exact absurd hmem Std.ExtTreeMap.not_mem_empty

/-- A node has a handler of a topic once it added one. -/
theorem cell_addHandler_ne_empty (h : H) :
    (s.addHandler t n h).cell u m ≠ ∅ ↔ s.cell u m ≠ ∅ ∨ (u = t ∧ m = n) := by
  rw [cell_addHandler]
  split_ifs with hc
  · exact iff_of_true (insertIfNew_ne_empty _ h) (.inr hc)
  · simp [hc]

end Cells

end HandlerStorage

end IgnTransport
