import Mathlib
import IgnTransport.DiscoverySweep
import IgnTransport.HandlerStorageMap

/-!
# IgnTransport.StorageReports — what the removers of the two storages return

Every remover documents that it returns whether something was removed.  `DelAddressesByProc` assigns its counter anew
for every topic, so what it returns is about the last topic alone.  `RemoveHandler` counts the nodes that it prunes and
not the handlers that it erases; `RemoveHandlersForNode` erases the node and counts just that.

* `del_reports_iff`: `DelAddressesByProc` reports what it did exactly when a process that has an entry anywhere has one
  in the last topic.
* `remove_reports_iff`: `RemoveHandler` reports what it did exactly when a handler that it finds is the only one of its
  node; what it removes is always that handler and nothing else.
-/

namespace IgnTransport

open Lib

/-! ## Topics -/

section Topics

namespace TopicMap

variable (data : TopicMap) (t p : Str)

/-- `DelAddressesByProc` returns whether a topic had an entry of the process. -/
def DelReports (pUuid : Str) : Prop :=
  ∃ topics left removed, data.delLoop pUuid = some (topics, left, removed) ∧
    (removed = true ↔ ∃ topic, data.hasAnyAddresses topic pUuid = true)

theorem hasAnyAddresses_iff : data.hasAnyAddresses t p = true ↔ ∃ m, data[t]? = some m ∧ m.contains p = true := by
  unfold hasAnyAddresses hasTopic
  rw [Std.ExtTreeMap.contains_eq_isSome_getElem?, Std.ExtTreeMap.getD_eq_getD_getElem?]
  cases data[t]? with
  | none => simp
  | some m => simp

/-- The counter that is left is the one of the last topic. -/
theorem delAddressesByProc_snd : (data.delAddressesByProc p).2 = true ↔
    ∃ t, data.getTopicList.getLast? = some t ∧ data.hasAnyAddresses t p = true := by
  have hkeys : data.getTopicList.getLast? = data.toList.getLast?.map Prod.fst := by
    rw [getTopicList, ← Std.ExtTreeMap.map_fst_toList_eq_keys, List.getLast?_map]
  have hcounter : (data.delAddressesByProc p).2 = (data.toList.getLast?.map fun e => e.2.contains p).getD false :=
    foldl_overwrite (fun (_ : Str) (m : Addresses) => m.contains p) data false
  rw [hkeys, hcounter]
  cases hlast : data.toList.getLast? with
  | none => simp
  | some e =>
    have hget : data[e.1]? = some e.2 :=
      Std.ExtTreeMap.mem_toList_iff_getElem?_eq_some.mp (List.mem_of_getLast? hlast)
    simp [hasAnyAddresses_iff, hget]

/-- **What `DelAddressesByProc` returns is right iff the last topic has an entry of the process, or no topic has.** -/
theorem del_reports_iff : data.DelReports p ↔
    ((∃ t, data.hasAnyAddresses t p = true) →
      ∃ t, data.getTopicList.getLast? = some t ∧ data.hasAnyAddresses t p = true) := by
  have hloop : data.DelReports p ↔
      ((data.delAddressesByProc p).2 = true ↔ ∃ t, data.hasAnyAddresses t p = true) := by
    unfold DelReports
    rw [delLoop_eq]
    constructor
    · rintro ⟨topics, left, removed, hsome, hreport⟩
      obtain ⟨-, rfl⟩ := Prod.mk.inj (Prod.mk.inj (Option.some.inj hsome)).2
      exact hreport
    · exact fun hreport => ⟨_, _, _, rfl, hreport⟩
  rw [hloop, delAddressesByProc_snd]
  constructor
  · exact fun hreport => hreport.mpr
  · exact fun hlast => ⟨fun ⟨t, _, ht⟩ => ⟨t, ht⟩, hlast⟩

/-- Two topics, each of another process. -/
def twoTopics : TopicMap :=
  after [.addAddress [97] [1] [] [80] [1] .all, .addAddress [98] [2] [] [81] [2] .all]

/-- The process of the first topic loses its address, and `false` is returned. -/
theorem removal_not_reported : ¬ twoTopics.DelReports [80] := by
  rintro ⟨topics, left, removed, hloop, hreport⟩
  have hfalse : (twoTopics.delLoop [80]).map (fun r => r.2.2) = some false := by decide +kernel
  have hstored : twoTopics.hasAnyAddresses [97] [80] = true := by decide +kernel
  rw [hloop] at hfalse
  obtain rfl : removed = false := Option.some.inj hfalse
  exact absurd (hreport.mpr ⟨[97], hstored⟩) (by simp)

end TopicMap

end Topics

/-! ## Handlers -/

section Handlers

namespace HandlerMap

variable {H : Type}

/-- The removers of handlers return whether there was one to remove, and `RemoveHandler` removes that one only. -/
structure RemoveReports (data : HandlerMap H) (topic nUuid reqUuid : Str) : Prop where
  removed : (data.removeHandler topic nUuid reqUuid).2 = true ↔ data.getHandler topic nUuid reqUuid ≠ none
  only : data.getHandler topic nUuid reqUuid ≠ none → ∀ t n k,
    (data.removeHandler topic nUuid reqUuid).1.getHandler t n k =
      if t = topic ∧ n = nUuid ∧ k = reqUuid then none else data.getHandler t n k
  node : (data.removeHandlersForNode topic nUuid).2 = true ↔ ∃ k, data.getHandler topic nUuid k ≠ none

variable (s : HandlerStorage H) (t n k : Str)

/-- `RemoveHandler` counts a node that it prunes. -/
theorem removeHandler_snd : (s.removeHandler t n k).2 = true ↔
    (∃ j, s.getHandler t n j ≠ none) ∧ ∀ j, s.getHandler t n j ≠ none → j = k := by
  have hnode := s.hasHandlersForNode_iff t n
  rw [HandlerStorage.cell_ne_empty_iff] at hnode
  have hpruned : ((s.cell t n).erase k).isEmpty = true ↔ ∀ j, s.getHandler t n j ≠ none → j = k := by
    rw [isEmpty_iff_forall]
    refine forall_congr' fun j => ?_
    rw [getElem?_erase', HandlerStorage.getHandler]
    by_cases hj : j = k <;> simp [hj]
  unfold HandlerStorage.removeHandler
  split_ifs with h
  · exact hpruned.trans (iff_and_self.mpr fun _ => hnode.mp h)
  · refine iff_of_false (by simp) fun hall => h (hnode.mpr hall.1)

theorem removeHandlersForNode_snd : (s.removeHandlersForNode t n).2 = true ↔ ∃ k, s.getHandler t n k ≠ none := by
  rw [← HandlerStorage.cell_ne_empty_iff]
  unfold HandlerStorage.removeHandlersForNode
  split_ifs with hrow
  · exact s.hasCell_iff t n
  · exact iff_of_false (by simp) fun hne => hrow ((s.hasRow_iff t).mpr ⟨n, hne⟩)

/-- **What `RemoveHandler` returns is right iff the handler, if it is there, is the only one of its node.** -/
theorem remove_reports_iff [Handler H] (ops : List (Op H)) (t n k : Str) : (after ops).RemoveReports t n k ↔
    ((after ops).getHandler t n k ≠ none → ∀ j, (after ops).getHandler t n j ≠ none → j = k) := by
  rw [after_eq_rows]
  generalize ops.foldl HandlerStorage.apply Table.empty = s
  have hremoved := removeHandler_snd s t n k
  constructor
  · intro h hk
    have hreturn := h.removed
    rw [rows_removeHandler, getHandler_rows] at hreturn
    rw [getHandler_rows] at hk
    simp only [getHandler_rows]
    exact (hremoved.mp (hreturn.mpr hk)).2
  · intro honly
    simp only [getHandler_rows] at honly
    refine ⟨?_, fun _ t' n' k' => ?_, ?_⟩
    · rw [rows_removeHandler, getHandler_rows, hremoved]
      constructor
      · rintro ⟨⟨j, hj⟩, hall⟩
        rw [← hall j hj]
        exact hj
      · exact fun hk => ⟨⟨k, hk⟩, honly hk⟩
    · rw [rows_removeHandler, getHandler_rows, getHandler_rows]
      exact HandlerStorage.getHandler_removeHandler s t t' n n' k k'
    · rw [rows_removeHandlersForNode, removeHandlersForNode_snd]
      simp only [getHandler_rows]

/-- A node with two handlers of a topic. -/
def twoHandlers : HandlerMap RepHandler := after [.addHandler [97] [1] ⟨[3]⟩, .addHandler [97] [1] ⟨[4]⟩]

/-- One of them is removed, and `false` is returned. -/
theorem one_of_two_not_reported : ¬ twoHandlers.RemoveReports [97] [1] [3] := by
  intro h
  have hfalse : (twoHandlers.removeHandler [97] [1] [3]).2 = false := by decide +kernel
  have hstored : twoHandlers.getHandler [97] [1] [3] ≠ none := by decide +kernel
  rw [h.removed.mpr hstored] at hfalse
  cases hfalse

end HandlerMap

end Handlers

end IgnTransport
