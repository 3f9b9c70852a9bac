import Mathlib
import IgnTransport.NodeShared

/-!
# IgnTransport.HandlerStorageMap — the nested map of `HandlerStorage.hh`, and the map it stands for

`HandlerMap` is the nested map as the code edits it: the two removers prune it each in its own way, and `GetHandler`
of a topic takes two `begin()`s.  `rows_apply` says that every operation on the rows of a table gives the rows of a
table.  `HandlerRef` is the map from topic, node and handler UUID to handler.

* `handlerStorage_refines`: after any operations nothing empty is kept, no `begin()` of an empty map is taken, and
  what is stored is what the map holds; the five ways to ask for a handler of a topic agree.
-/

namespace IgnTransport

open Lib

/-! ## The code -/

section Code

/-- `data`: topic, node UUID, handler UUID. -/
abbrev HandlerMap (H : Type) := StrMap (StrMap (StrMap H))

namespace HandlerMap

variable {H : Type}

/-- `GetHandlers`. -/
def getHandlers (data : HandlerMap H) (topic : Str) : Option (StrMap (StrMap H)) :=
  if !data.contains topic then none else some (data.getD topic ∅)

/-- `GetHandler` of a topic; there is no result if a `begin()` is that of an empty map. -/
def getFirstHandler (data : HandlerMap H) (topic : Str) : Option (Option H) :=
  if !data.contains topic then some none
  else do
    let node ← Std.ExtTreeMap.minEntry? (data.getD topic ∅)
    let handler ← Std.ExtTreeMap.minEntry? node.2
    return some handler.2

/-- `GetHandler` of a topic, node and handler UUID. -/
def getHandler (data : HandlerMap H) (topic nUuid hUuid : Str) : Option H :=
  if !data.contains topic then none
  else
    let m := data.getD topic ∅
    if !m.contains nUuid then none
    else if !(m.getD nUuid ∅).contains hUuid then none
    else (m.getD nUuid ∅)[hUuid]?

/-- `AddHandler`. -/
def addHandler [Handler H] (data : HandlerMap H) (topic nUuid : Str) (handler : H) : HandlerMap H :=
  -- Create the topic entry.
  let data := if data.contains topic then data else data.insert topic ∅
  -- Create the Node UUID entry.
  let m := data.getD topic ∅
  let m := if m.contains nUuid then m else m.insert nUuid ∅
  -- `insert` keeps a handler that is there.
  data.insert topic (m.insert nUuid ((m.getD nUuid ∅).insertIfNew (Handler.hUuid handler) handler))

/-- `HasHandlersForTopic`. -/
def hasHandlersForTopic (data : HandlerMap H) (topic : Str) : Bool :=
  if !data.contains topic then false else !(data.getD topic ∅).isEmpty

/-- `HasHandlersForNode`. -/
def hasHandlersForNode (data : HandlerMap H) (topic nUuid : Str) : Bool :=
  if !data.contains topic then false else (data.getD topic ∅).contains nUuid

/-- `RemoveHandler`. -/
def removeHandler (data : HandlerMap H) (topic nUuid reqUuid : Str) : HandlerMap H × Bool :=
  if data.contains topic then
    let m := data.getD topic ∅
    if m.contains nUuid then
      let handlers := (m.getD nUuid ∅).erase reqUuid
      let m := if handlers.isEmpty then m.erase nUuid else m.insert nUuid handlers
      (if m.isEmpty then data.erase topic else data.insert topic m, handlers.isEmpty)
    else (data, false)
  else (data, false)

/-- `RemoveHandlersForNode`. -/
def removeHandlersForNode (data : HandlerMap H) (topic nUuid : Str) : HandlerMap H × Bool :=
  if data.contains topic then
    let m := (data.getD topic ∅).erase nUuid
    (if m.isEmpty then data.erase topic else data.insert topic m, (data.getD topic ∅).contains nUuid)
  else (data, false)

/-- What changes the map. -/
inductive Op (H : Type) where
  | addHandler (topic nUuid : Str) (handler : H)
  | removeHandler (topic nUuid reqUuid : Str)
  | removeHandlersForNode (topic nUuid : Str)
  deriving DecidableEq, Repr

/-- The map after an operation. -/
def apply [Handler H] (data : HandlerMap H) : Op H → HandlerMap H
  | .addHandler topic nUuid handler => data.addHandler topic nUuid handler
  | .removeHandler topic nUuid reqUuid => (data.removeHandler topic nUuid reqUuid).1
  | .removeHandlersForNode topic nUuid => (data.removeHandlersForNode topic nUuid).1

/-- The nested map after some operations on an empty storage. -/
def after [Handler H] (ops : List (Op H)) : HandlerMap H := ops.foldl apply ∅

end HandlerMap

/-- The table after an operation. -/
def HandlerStorage.apply {H : Type} [Handler H] (s : HandlerStorage H) : HandlerMap.Op H → HandlerStorage H
  | .addHandler topic nUuid handler => s.addHandler topic nUuid handler
  | .removeHandler topic nUuid reqUuid => (s.removeHandler topic nUuid reqUuid).1
  | .removeHandlersForNode topic nUuid => (s.removeHandlersForNode topic nUuid).1

end Code

/-! ## The table -/

section Table

namespace HandlerMap

variable {H : Type} (s : HandlerStorage H)

theorem getD_rows (t : Str) : s.rows.getD t ∅ = s.row t := rfl

theorem getD_row (t n : Str) : (s.row t).getD n ∅ = s.cell t n := rfl

theorem contains_rows (t : Str) : s.rows.contains t = s.hasRow t := rfl

theorem contains_row (t n : Str) : (s.row t).contains n = true ↔ s.cell t n ≠ ∅ := s.hasCell_iff t n

theorem rows_addHandler [Handler H] (t n : Str) (h : H) : addHandler s.rows t n h = (s.addHandler t n h).rows := by
  have hne : (s.cell t n).insertIfNew (Handler.hUuid h) h ≠ Cell.empty := HandlerStorage.insertIfNew_ne_empty _ h
  unfold addHandler HandlerStorage.addHandler
  rw [Table.rows_set s t n hne]
  simp only [getD_of_absent, insert_of_absent, getD_rows, getD_row]

theorem rows_removeHandler (t n k : Str) :
    removeHandler s.rows t n k = ((s.removeHandler t n k).1.rows, (s.removeHandler t n k).2) := by
  have hnode := s.hasHandlersForNode_iff t n
  unfold removeHandler HandlerStorage.removeHandler
  dsimp only
  by_cases hne : s.cell t n = ∅
  · have hrow : ¬ (s.rows.getD t ∅).contains n = true := fun h => (contains_row s t n).mp h hne
    rw [if_neg fun h => hnode.mp h hne, if_neg hrow, ite_self]
  · have htopic : s.rows.contains t = true := (s.hasHandlersForTopic_iff t).mpr ⟨n, hne⟩
    have hrow : (s.rows.getD t ∅).contains n = true := (contains_row s t n).mpr hne
    rw [if_pos htopic, if_pos hrow, if_pos (hnode.mpr hne)]
    rfl

theorem rows_removeHandlersForNode (t n : Str) : removeHandlersForNode s.rows t n =
    ((s.removeHandlersForNode t n).1.rows, (s.removeHandlersForNode t n).2) := by
  have hset : (s.set t n ∅).rows =
      if ((s.row t).erase n).isEmpty then s.rows.erase t else s.rows.insert t ((s.row t).erase n) := rfl
  unfold removeHandlersForNode HandlerStorage.removeHandlersForNode
  dsimp only
  by_cases htopic : s.rows.contains t = true
  · have hrow : s.hasRow t = true := htopic
    rw [if_pos htopic, if_pos hrow, hset]
    rfl
  · have hrow : ¬ s.hasRow t = true := htopic
    rw [if_neg htopic, if_neg hrow]

/-- **The rows of a table stay the rows of a table.** -/
theorem rows_apply [Handler H] (op : Op H) : apply s.rows op = (s.apply op).rows := by
  cases op with
  | addHandler topic nUuid handler => exact rows_addHandler s topic nUuid handler
  | removeHandler topic nUuid reqUuid => exact congrArg Prod.fst (rows_removeHandler s topic nUuid reqUuid)
  | removeHandlersForNode topic nUuid => exact congrArg Prod.fst (rows_removeHandlersForNode s topic nUuid)

/-- **A run**: the nested map is that of a table. -/
theorem after_eq_rows [Handler H] (ops : List (Op H)) :
    after ops = (ops.foldl HandlerStorage.apply (Table.empty : HandlerStorage H)).rows := by
  have hempty : after ops = ops.foldl apply (Table.empty : HandlerStorage H).rows := rfl
  rw [hempty]
  exact List.foldl_hom Table.rows fun s op => rows_apply s op

/-! ### Queries -/

theorem hasHandlersForTopic_rows (t : Str) : hasHandlersForTopic s.rows t = s.hasHandlersForTopic t := by
  unfold hasHandlersForTopic HandlerStorage.hasHandlersForTopic
  rw [contains_rows, getD_rows]
  cases hrow : s.hasRow t with
  | false => rfl
  | true =>
    obtain ⟨n, hne⟩ := (s.hasRow_iff t).mp hrow
    have hnode := (contains_row s t n).mpr hne
    have hempty : (s.row t).isEmpty = false := by
      rw [Bool.eq_false_iff]
      intro hempty
      rw [Std.ExtTreeMap.isEmpty_iff.mp hempty] at hnode
      cases hnode
    rw [hempty]
    rfl

theorem hasHandlersForNode_rows (t n : Str) : hasHandlersForNode s.rows t n = s.hasHandlersForNode t n := by
  unfold hasHandlersForNode HandlerStorage.hasHandlersForNode
  rw [contains_rows, getD_rows]
  cases s.hasRow t with
  | false => rfl
  | true => rfl

theorem getHandlers_rows (t : Str) : getHandlers s.rows t = s.getHandlers t := by
  unfold getHandlers HandlerStorage.getHandlers
  rw [contains_rows, getD_rows]
  cases s.hasRow t with
  | false => rfl
  | true => rfl

theorem getHandler_rows (t n k : Str) : getHandler s.rows t n k = s.getHandler t n k := by
  unfold getHandler HandlerStorage.getHandler
  dsimp only
  rw [contains_rows, getD_rows, getD_row]
  by_cases hne : s.cell t n = ∅
  · have hcontains : (∅ : StrMap H).contains k = false := Std.ExtTreeMap.contains_empty
    rw [hne, hcontains, Std.ExtTreeMap.getElem?_empty]
    simp only [ite_self]
  · have htopic : s.hasRow t = true := (s.hasHandlersForTopic_iff t).mpr ⟨n, hne⟩
    rw [htopic, (contains_row s t n).mpr hne]
    cases hget : (s.cell t n)[k]? with
    | none => simp
    | some h =>
      have hcontains : (s.cell t n).contains k = true := by
        rw [Std.ExtTreeMap.contains_eq_isSome_getElem?, hget]
        rfl
      rw [hcontains]
      rfl

theorem isSome_getFirstHandler (t : Str) : (s.getFirstHandler t).isSome = true ↔ s.hasHandlersForTopic t = true := by
  unfold HandlerStorage.getFirstHandler
  cases hfirst : Std.ExtTreeMap.minEntry? (s.row t) with
  | none =>
    refine iff_of_false (by simp) fun htopic => ?_
    obtain ⟨n, hne⟩ := (s.hasHandlersForTopic_iff t).mp htopic
    have hnode := (contains_row s t n).mpr hne
    rw [(minEntry?_eq_none_iff _).mp hfirst] at hnode
    cases hnode
  | some node =>
    have hget := getElem?_of_minEntry hfirst
    rw [Table.getElem?_row] at hget
    split_ifs at hget with hempty
    have hne : s.cell t node.1 ≠ ∅ := fun h => hempty ((Cell.isEmpty_iff _).mpr h)
    refine iff_of_true ?_ ((s.hasHandlersForTopic_iff t).mpr ⟨node.1, hne⟩)
    cases hhandler : Std.ExtTreeMap.minEntry? node.2 with
    | none =>
      rw [(minEntry?_eq_none_iff _).mp hhandler] at hget
      exact absurd (Option.some.inj hget) hne
    | some handler => simp [hhandler]

/-- Both `begin()`s are those of a map with something in it. -/
theorem getFirstHandler_rows (t : Str) : getFirstHandler s.rows t = some (s.getFirstHandler t) := by
  have hsome := isSome_getFirstHandler s t
  unfold getFirstHandler
  rw [contains_rows, getD_rows]
  cases hrow : s.hasRow t with
  | false =>
    have hnone : s.getFirstHandler t = none := by
      rw [← Option.not_isSome_iff_eq_none, hsome, HandlerStorage.hasHandlersForTopic, hrow]
      simp
    rw [hnone]
    rfl
  | true =>
    obtain ⟨h, hh⟩ := Option.isSome_iff_exists.mp (hsome.mpr hrow)
    rw [hh]
    obtain ⟨node, hnode, hrest⟩ := Option.bind_eq_some_iff.mp hh
    obtain ⟨handler, hhandler, hreturn⟩ := Option.bind_eq_some_iff.mp hrest
    simp only [hnode, hhandler, Bool.not_true, Bool.false_eq_true, if_false, Option.bind_eq_bind, Option.bind_some]
    exact congrArg some hreturn

/-- Nothing is kept empty: no topic without a node, no node without a handler. -/
structure Pruned (data : HandlerMap H) : Prop where
  topic : ∀ (t : Str) (m : StrMap (StrMap H)), data[t]? = some m → m ≠ ∅
  node : ∀ (t : Str) (m : StrMap (StrMap H)) (n : Str) (c : StrMap H), data[t]? = some m → m[n]? = some c → c ≠ ∅

theorem pruned_rows (s : HandlerStorage H) : Pruned s.rows where
  topic t m hm hempty := by
    have hne := s.row_nonempty t m hm
    rw [hempty] at hne
    cases hne
  node t m n c hm hc := s.cell_nonempty t m n c hm hc

/-- A map without empty maps in it is the only one with its handlers. -/
theorem eq_rows (s : HandlerStorage H) {data : HandlerMap H} (hdata : Pruned data)
    (hsame : ∀ t n k, data.getHandler t n k = s.getHandler t n k) : data = s.rows := by
  let s' : HandlerStorage H :=
    { rows := data
      row_nonempty := fun t m hm => by
        rw [Bool.eq_false_iff, Ne, Std.ExtTreeMap.isEmpty_iff]
        exact hdata.topic t m hm
      cell_nonempty := hdata.node }
  have heq : s' = s := by
    refine Table.ext_cell fun t n => Std.ExtTreeMap.ext_getElem? fun k => ?_
    exact (getHandler_rows s' t n k).symm.trans (hsame t n k)
  exact congrArg (·.rows) heq

/-- The ways to ask a table for a handler of a topic. -/
theorem tfae_rows (s : HandlerStorage H) (t : Str) : List.TFAE [
    HandlerMap.hasHandlersForTopic s.rows t = true,
    ∃ handlers, HandlerMap.getHandlers s.rows t = some handlers,
    ∃ h, HandlerMap.getFirstHandler s.rows t = some (some h),
    ∃ n, HandlerMap.hasHandlersForNode s.rows t n = true,
    ∃ n k h, HandlerMap.getHandler s.rows t n k = some h] := by
  simp only [hasHandlersForTopic_rows, getHandlers_rows, getFirstHandler_rows, hasHandlersForNode_rows, getHandler_rows]
  have hnode : ∀ n, s.hasHandlersForNode t n = true ↔ ∃ k h, s.getHandler t n k = some h := by
    intro n
    rw [HandlerStorage.hasHandlersForNode_iff]
    constructor
    · intro hne
      by_contra hall
      push Not at hall
      exact hne (Std.ExtTreeMap.ext_getElem? fun k => by
        rw [Std.ExtTreeMap.getElem?_empty]
        exact Option.eq_none_iff_forall_ne_some.mpr fun h => hall k h)
    · rintro ⟨k, h, hk⟩ hempty
      rw [HandlerStorage.getHandler, hempty, Std.ExtTreeMap.getElem?_empty] at hk
      cases hk
  tfae_have 1 ↔ 2 := by
    simp only [HandlerStorage.getHandlers_eq_some_iff, exists_and_left, exists_eq, and_true]
  tfae_have 1 ↔ 3 := by
    rw [← isSome_getFirstHandler, Option.isSome_iff_exists]
    simp only [Option.some.injEq]
  tfae_have 1 ↔ 4 := by
    simp only [HandlerStorage.hasHandlersForTopic_iff, HandlerStorage.hasHandlersForNode_iff]
  tfae_have 4 ↔ 5 := by
    simp only [hnode]
  tfae_finish

end HandlerMap

end Table

/-! ## The map it stands for -/

section Reference

/-- Handlers by topic, node UUID and handler UUID. -/
abbrev HandlerRef (H : Type) := Str × Str × Str → Option H

namespace HandlerRef

variable {H : Type} [Handler H]

/-- Insert a handler, delete one, delete those of a node. -/
def apply (ref : HandlerRef H) : HandlerMap.Op H → HandlerRef H
  | .addHandler topic nUuid handler => Function.update ref (topic, nUuid, Handler.hUuid handler) (some handler)
  | .removeHandler topic nUuid reqUuid => Function.update ref (topic, nUuid, reqUuid) none
  | .removeHandlersForNode topic nUuid => fun k => if k.1 = topic ∧ k.2.1 = nUuid then none else ref k

def after (ops : List (HandlerMap.Op H)) : HandlerRef H := ops.foldl apply fun _ => none

theorem finite_apply {ref : HandlerRef H} (h : {k | ref k ≠ none}.Finite) (op : HandlerMap.Op H) :
    {k | ref.apply op k ≠ none}.Finite := by
  cases op with
  | addHandler t n handler =>
    refine (h.insert (t, n, Handler.hUuid handler)).subset fun k hk => ?_
    by_cases hkey : k = (t, n, Handler.hUuid handler)
    · exact .inl hkey
    · exact .inr fun hnone => hk ((Function.update_of_ne hkey _ _).trans hnone)
  | removeHandler t n k =>
    refine h.subset fun k' hk hnone => hk ?_
    by_cases hkey : k' = (t, n, k)
    · rw [hkey]
      exact Function.update_self _ _ _
    · exact (Function.update_of_ne hkey _ _).trans hnone
  | removeHandlersForNode t n =>
    refine h.subset fun k hk hnone => hk ?_
    show (if k.1 = t ∧ k.2.1 = n then none else ref k) = none
    rw [hnone, ite_self]

end HandlerRef

end Reference

/-! ## The refinement -/

section Refinement

namespace HandlerMap

variable {H : Type} [Handler H]

/-- A handler that is added in a run. -/
def Added (ops : List (Op H)) (h : H) : Prop := ∃ t n, .addHandler t n h ∈ ops

/-- The table holds what the map holds, and only what was added. -/
structure Holds (s : HandlerStorage H) (ref : HandlerRef H) (ops : List (Op H)) : Prop where
  same : ∀ t n k, s.getHandler t n k = ref (t, n, k)
  added : ∀ k h, ref k = some h → Added ops h ∧ k.2.2 = Handler.hUuid h

theorem holds_empty : Holds (Table.empty : HandlerStorage H) (HandlerRef.after []) [] where
  same t n k := by
    rw [HandlerStorage.getHandler, Table.cell_empty]
    exact Std.ExtTreeMap.getElem?_empty
  added k h hk := by cases hk

/-- **One operation**: table and map stay in step. -/
theorem holds_apply {s : HandlerStorage H} {ref : HandlerRef H} {ops : List (Op H)} (hs : Holds s ref ops) (op : Op H)
    (hunique : ∀ h h', Added (ops ++ [op]) h → Added (ops ++ [op]) h' → Handler.hUuid h = Handler.hUuid h' → h = h') :
    Holds (s.apply op) (ref.apply op) (ops ++ [op]) := by
  have holder : ∀ {h}, Added ops h → Added (ops ++ [op]) h := fun ⟨t, n, h⟩ => ⟨t, n, List.mem_append_left _ h⟩
  cases op with
  | addHandler topic nUuid handler =>
    have hnew : Added (ops ++ [.addHandler topic nUuid handler]) handler := ⟨topic, nUuid, by simp⟩
    refine ⟨fun t n k => ?_, fun k h hk => ?_⟩
    · show (s.addHandler topic nUuid handler).getHandler t n k = Function.update ref _ (some handler) (t, n, k)
      rw [HandlerStorage.getHandler_addHandler, hs.same]
      by_cases hkey : (t, n, k) = (topic, nUuid, Handler.hUuid handler)
      · obtain ⟨rfl, rfl, rfl⟩ : t = topic ∧ n = nUuid ∧ k = Handler.hUuid handler := by simpa using hkey
        rw [Function.update_self]
        cases hold : ref (t, n, Handler.hUuid handler) with
        | none => exact if_pos ⟨rfl, rfl, rfl, rfl⟩
        | some h =>
          -- the handler that is there is the one that is added
          obtain ⟨hadded, huuid⟩ := hs.added _ h hold
          rw [if_neg (by simp), hunique h handler (holder hadded) hnew huuid.symm]
      · rw [Function.update_of_ne hkey, if_neg]
        rintro ⟨rfl, rfl, rfl, -⟩
        exact hkey rfl
    · change Function.update ref (topic, nUuid, Handler.hUuid handler) (some handler) k = some h at hk
      by_cases hkey : k = (topic, nUuid, Handler.hUuid handler)
      · rw [hkey, Function.update_self] at hk
        rw [hkey, ← Option.some.inj hk]
        exact ⟨hnew, rfl⟩
      · rw [Function.update_of_ne hkey] at hk
        exact ⟨holder (hs.added k h hk).1, (hs.added k h hk).2⟩
  | removeHandler topic nUuid reqUuid =>
    refine ⟨fun t n k => ?_, fun k h hk => ?_⟩
    · show (s.removeHandler topic nUuid reqUuid).1.getHandler t n k = Function.update ref _ none (t, n, k)
      rw [HandlerStorage.getHandler_removeHandler, hs.same, Function.update_apply]
      exact if_congr (by simp) rfl rfl
    · change Function.update ref (topic, nUuid, reqUuid) none k = some h at hk
      rw [Function.update_apply] at hk
      split_ifs at hk
      exact ⟨holder (hs.added k h hk).1, (hs.added k h hk).2⟩
  | removeHandlersForNode topic nUuid =>
    refine ⟨fun t n k => ?_, fun k h hk => ?_⟩
    · show (s.removeHandlersForNode topic nUuid).1.getHandler t n k = _
      rw [HandlerStorage.getHandler_removeHandlersForNode, hs.same]
      rfl
    · have hif : (if k.1 = topic ∧ k.2.1 = nUuid then none else ref k) = some h := hk
      split_ifs at hif
      exact ⟨holder (hs.added k h hif).1, (hs.added k h hif).2⟩

/-- **A run**: table and map stay in step. -/
theorem holds_run (ops : List (Op H))
    (hunique : ∀ h h', Added ops h → Added ops h' → Handler.hUuid h = Handler.hUuid h' → h = h') :
    Holds (ops.foldl HandlerStorage.apply Table.empty) (HandlerRef.after ops) ops := by
  induction ops using List.reverseRecOn with
  | nil => exact holds_empty
  | append_singleton ops op ih =>
    have holder : ∀ {h}, Added ops h → Added (ops ++ [op]) h := fun ⟨t, n, h⟩ => ⟨t, n, List.mem_append_left _ h⟩
    have hholds := ih fun h h' ha ha' => hunique h h' (holder ha) (holder ha')
    have href : HandlerRef.after (ops ++ [op]) = (HandlerRef.after ops).apply op := List.foldl_concat _ _ _ _
    rw [List.foldl_concat, href]
    exact holds_apply hholds op hunique

theorem finite_after (ops : List (Op H)) : {k | HandlerRef.after ops k ≠ none}.Finite := by
  induction ops using List.reverseRecOn with
  | nil => simp [HandlerRef.after]
  | append_singleton ops op ih =>
    have href : HandlerRef.after (ops ++ [op]) = (HandlerRef.after ops).apply op := List.foldl_concat _ _ _ _
    rw [href]
    exact HandlerRef.finite_apply ih op

/-- **The storage refines a finite map.** -/
theorem handlerStorage_refines (ops : List (Op H))
    (hunique : ∀ h h', Added ops h → Added ops h' → Handler.hUuid h = Handler.hUuid h' → h = h') :
    Pruned (HandlerMap.after ops) ∧
      (∀ t, (HandlerMap.after ops).getFirstHandler t ≠ none) ∧
      {k | HandlerRef.after ops k ≠ none}.Finite ∧
      (∀ t n k, (HandlerMap.after ops).getHandler t n k = HandlerRef.after ops (t, n, k)) ∧
      (∀ data, Pruned data → (∀ t n k, data.getHandler t n k = HandlerRef.after ops (t, n, k)) →
        data = HandlerMap.after ops) ∧
      ∀ t, List.TFAE [
        (HandlerMap.after ops).hasHandlersForTopic t = true,
        ∃ handlers, (HandlerMap.after ops).getHandlers t = some handlers,
        ∃ h, (HandlerMap.after ops).getFirstHandler t = some (some h),
        ∃ n, (HandlerMap.after ops).hasHandlersForNode t n = true,
        ∃ n k h, (HandlerMap.after ops).getHandler t n k = some h] := by
  have hholds := holds_run ops hunique
  rw [after_eq_rows]
  generalize ops.foldl HandlerStorage.apply Table.empty = s at hholds ⊢
  have hget : ∀ t n k, HandlerMap.getHandler s.rows t n k = HandlerRef.after ops (t, n, k) := fun t n k =>
    (getHandler_rows s t n k).trans (hholds.same t n k)
  refine ⟨pruned_rows s, fun t => ?_, finite_after ops, hget, fun data hdata hsame => ?_, tfae_rows s⟩
  · rw [getFirstHandler_rows]
    exact Option.some_ne_none _
  · exact eq_rows s hdata fun t n k => (hsame t n k).trans (hholds.same t n k).symm

/-- Two handlers of one node are added, and one is removed. -/
theorem handlerStorage_refines_two :
    (after [.addHandler [1] [2] (⟨[3]⟩ : RepHandler), .addHandler [1] [2] ⟨[4]⟩, .removeHandler [1] [2] [3]]).getHandler
      [1] [2] [4] = some ⟨[4]⟩ := by
  refine ((handlerStorage_refines _ fun h h' hh hh' huuid => ?_).2.2.2.1 [1] [2] [4]).trans (by decide)
  obtain ⟨hUuid⟩ := h
  obtain ⟨hUuid'⟩ := h'
  exact congrArg RepHandler.mk huuid

end HandlerMap

end Refinement

end IgnTransport
