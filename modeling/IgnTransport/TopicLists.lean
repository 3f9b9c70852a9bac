import Mathlib
import IgnTransport.TopicNames
import IgnTransport.TopicStorageMap
import IgnTransport.Node

/-!
# IgnTransport.TopicLists — the topics that a node lists (`Node::GetTopicList`, `Node::GetServiceList`)

A node takes the names that the discovery service has stored apart again, with `find_last_of` and `substr`, and lists
the topics of its partition.  The partition in a name is in normal form, the one of the node is as the user wrote it.

* `topic_list_iff`: the list is exact, and made without an exception, exactly if no stored name is empty and, where the
  names are fully qualified, the node's partition has no slash at its ends or nobody else is in it.
-/

namespace IgnTransport

open Lib TopicUtils

/-! ## Strings -/

section Strings

/-- `find_last_of` of one character; `none` is `npos`. -/
def findLastOf (s : Str) (c : UInt8) : Option ℕ :=
  (s.reverse.findIdx? fun x => x = c).map fun i => s.length - 1 - i

/-- A position less one, as a number of characters: `npos - 1` is more than any string has, and so is `0 - 1`. -/
def lessOne : Option ℕ → Option ℕ
  | some (i + 1) => some i
  | _ => none

/-- `substr`, or `std::out_of_range`. -/
def substr (s : Str) (pos : ℕ) (count : Option ℕ) : Option Str :=
  if s.length < pos then none else some ((s.drop pos).take (count.getD s.length))

/-- The partition in a name, as `GetTopicList` finds it. -/
def partitionIn (topic : Str) : Option Str := do
  let partition ← substr topic 1 (lessOne (findLastOf topic atSign))
  -- Remove the front '/'.
  return if partition ≠ [] then partition.tail else partition

theorem findLastOf_append {s t : Str} {c : UInt8} (h : c ∉ t) : findLastOf (s ++ c :: t) c = some s.length := by
  have hnone : (t.reverse.findIdx? fun x => decide (x = c)) = none := by
    rw [List.findIdx?_eq_none_iff]
    intro x hx
    refine decide_eq_false ?_
    rintro rfl
    exact h (List.mem_reverse.mp hx)
  rw [findLastOf, List.reverse_append, List.reverse_cons, List.append_assoc, List.findIdx?_append, hnone]
  simp [List.findIdx?_cons]

/-- Only the empty name has no first character to skip. -/
theorem isSome_partitionIn (topic : Str) : (partitionIn topic).isSome ↔ topic ≠ [] := by
  cases topic with
  | nil => exact iff_of_false (by simp [partitionIn, substr]) (by simp)
  | cons c s => exact iff_of_true (by simp [partitionIn, substr]) (by simp)

theorem partitionIn_name {p t : Str} (ht : atSign ∉ t) : partitionIn (atSign :: p ++ atSign :: t) = some p.tail := by
  have hlast := findLastOf_append (s := atSign :: p) ht
  rw [partitionIn, hlast]
  cases p <;> simp [substr, lessOne]

end Strings

/-! ## Bare partitions -/

section Bare

variable {p q : Str}

theorem tail_normalise (p : Str) : (normalise p).tail = bare p := by
  unfold normalise
  split_ifs with h
  · rw [h]
    rfl
  · rfl

theorem bare_bare (h : isValidNamespace p = true) : bare (bare p) = bare p := by
  by_cases hnil : p = []
  · rw [hnil]
    rfl
  · exact (bare_of_inner (inner_bare h hnil)).1

theorem normalise_eq_iff (hp : isValidNamespace p = true) (hq : isValidNamespace q = true) :
    normalise p = normalise q ↔ bare p = bare q := by
  constructor
  · intro h
    rw [← tail_normalise, h, tail_normalise]
  · have hnil : ∀ {s}, isValidNamespace s = true → (s = [] ↔ bare s = []) := by
      intro s hs
      refine ⟨fun h => by rw [h]; rfl, fun h => ?_⟩
      by_contra hne
      exact (inner_bare hs hne).ne_nil h
    intro h
    refine if_congr ?_ rfl (by rw [h])
    rw [hnil hp, hnil hq, h]

end Bare

/-! ## Lists -/

section Lists

/-- A partition, a namespace and a topic. -/
abbrev Parts := Str × Str × Str

/-- The name is the fully qualified one of the parts. -/
def Qualifies (parts : Parts) (name : Str) : Prop :=
  getFullyQualifiedName parts.1 parts.2.1 parts.2.2 = some name

/-- The loop of `GetTopicList`. -/
def listTopics (partition : Str) : List Str → Option (List Str)
  | [] => some []
  | topic :: allTopics => do
    let found ← partitionIn topic
    let topics ← listTopics partition allTopics
    -- Discard if the partition name does not match this node's partition.
    return if found ≠ partition then topics else stripName topic :: topics

namespace Node

/-- `GetTopicList`. -/
def getTopicList (node : Node) (d : Discovery) : Option (List Str) :=
  listTopics node.partition (TopicMap.getTopicList d.infoMsg.rows)

/-- `GetServiceList`. -/
def getServiceList (node : Node) (d : Discovery) : Option (List Str) :=
  listTopics node.partition (TopicMap.getTopicList d.infoSrv.rows)

end Node

/-- The absolute topics of the names in the partition, in the order of the names. -/
def topicsIn (partition : Str) (names : List Parts) : List Str :=
  (names.filter fun n => normalise n.1 = normalise partition).map fun n => absoluteTopic n.2.1 n.2.2

/-- A list of names is listed without an exception, and if they are fully qualified, the topics of the node's partition
are listed once each. -/
def ListsExactly (partition : Str) (names : List Str) (listed : Option (List Str)) : Prop :=
  listed.isSome ∧ ∀ parts, List.Forall₂ Qualifies parts names →
    listed = some (topicsIn partition parts) ∧ (topicsIn partition parts).Nodup

/-- No name is empty; and where they are fully qualified, the partition is without a slash at its ends, or none of the
names is in it. -/
def Listable (partition : Str) (names : List Str) : Prop :=
  [] ∉ names ∧ ∀ parts, List.Forall₂ Qualifies parts names →
    bare partition = partition ∨ ∀ n ∈ parts, normalise n.1 ≠ normalise partition

variable {partition : Str} {names : List Str} {parts : List Parts}

theorem isSome_listTopics (partition : Str) (names : List Str) :
    (listTopics partition names).isSome ↔ [] ∉ names := by
  induction names with
  | nil => simp [listTopics]
  | cons topic names ih =>
    rw [listTopics, List.mem_cons, not_or, ← ih, ← ne_eq, ne_comm, ← isSome_partitionIn]
    cases partitionIn topic with
    | none => simp
    | some found => cases listTopics partition names <;> simp

theorem exists_name (h : List.Forall₂ Qualifies parts names) {n : Parts} (hn : n ∈ parts) :
    ∃ name ∈ names, Qualifies n name := by
  induction h with
  | nil => cases hn
  | @cons m name parts names hq _ ih =>
    rcases List.mem_cons.mp hn with rfl | hn
    · exact ⟨name, List.mem_cons_self, hq⟩
    · obtain ⟨name', hname', hq'⟩ := ih hn
      exact ⟨name', List.mem_cons_of_mem _ hname', hq'⟩

theorem valid_of_qualifies (h : List.Forall₂ Qualifies parts names) {n : Parts} (hn : n ∈ parts) :
    isValidNamespace n.1 = true := by
  obtain ⟨name, -, hq⟩ := exists_name h hn
  exact (getFullyQualifiedName_eq_some_iff.mp hq).1.1

/-- What is listed of fully qualified names: the partitions are compared without the slashes in the names alone. -/
theorem listTopics_qualified (h : List.Forall₂ Qualifies parts names) :
    listTopics partition names =
      some ((parts.filter fun n => bare n.1 = partition).map fun n => absoluteTopic n.2.1 n.2.2) := by
  induction h with
  | nil => rfl
  | @cons n name parts names hq _ ih =>
    obtain ⟨⟨-, hns, htopic⟩, rfl⟩ := getFullyQualifiedName_eq_some_iff.mp hq
    have hat := atSign_not_mem (clean_absoluteTopic hns htopic).1
    rw [listTopics, partitionIn_name hat, ih, stripName_append hat, tail_normalise, List.filter_cons]
    by_cases hpart : bare n.1 = partition
    · simp [hpart]
    · simp [hpart]

/-- Names in one partition with one topic are the same. -/
theorem nodup_topicsIn (hnames : names.Nodup) (h : List.Forall₂ Qualifies parts names) :
    (topicsIn partition parts).Nodup := by
  unfold topicsIn
  induction h with
  | nil => exact List.nodup_nil
  | @cons n name parts names hq hrest ih =>
    obtain ⟨hnew, hnodup⟩ := List.nodup_cons.mp hnames
    rw [List.filter_cons]
    split_ifs with hin
    · rw [List.map_cons, List.nodup_cons]
      refine ⟨fun hmem => hnew ?_, ih hnodup⟩
      obtain ⟨m, hm, htopic⟩ := List.mem_map.mp hmem
      obtain ⟨hm, hin'⟩ := List.mem_filter.mp hm
      obtain ⟨name', hname', hq'⟩ := exists_name hrest hm
      rwa [((fullyQualifiedName_eq_iff hq hq').1.mpr
        ⟨(of_decide_eq_true hin).trans (of_decide_eq_true hin').symm, htopic.symm⟩)]
    · exact ih hnodup

/-- The topics in a partition are the ones that are listed exactly if it has no slash at its ends or is empty. -/
theorem topicsIn_eq_iff (hp : isValidNamespace partition = true) (h : List.Forall₂ Qualifies parts names) :
    listTopics partition names = some (topicsIn partition parts) ↔
      bare partition = partition ∨ ∀ n ∈ parts, normalise n.1 ≠ normalise partition := by
  rw [listTopics_qualified h, topicsIn, Option.some.injEq]
  have hin : ∀ n ∈ parts, (normalise n.1 = normalise partition ↔ bare n.1 = bare partition) := fun n hn =>
    normalise_eq_iff (valid_of_qualifies h hn) hp
  by_cases hbare : bare partition = partition
  · refine iff_of_true (congrArg _ (List.filter_congr fun n hn => ?_)) (.inl hbare)
    rw [decide_eq_decide, hin n hn, hbare]
  · -- no name has a partition that is spelled like this one
    have hnone : (parts.filter fun n => bare n.1 = partition) = [] := by
      refine List.filter_eq_nil_iff.mpr fun n hn hlisted => hbare ?_
      have heq : bare n.1 = partition := of_decide_eq_true hlisted
      rw [← heq]
      exact bare_bare (valid_of_qualifies h hn)
    rw [hnone, List.map_nil, eq_comm, List.map_eq_nil_iff, List.filter_eq_nil_iff]
    simp only [decide_eq_true_eq, hbare, false_or, ne_eq]

/-- **Which lists are exact.** -/
theorem listsExactly_iff (hp : isValidNamespace partition = true) (hnames : names.Nodup) :
    ListsExactly partition names (listTopics partition names) ↔ Listable partition names := by
  rw [ListsExactly, Listable, isSome_listTopics]
  refine and_congr_right fun _ => forall_congr' fun parts => forall_congr' fun h => ?_
  rw [topicsIn_eq_iff hp h]
  exact and_iff_left (nodup_topicsIn hnames h)

/-- The partition of a node is valid: the constructors see to it. -/
theorem valid_partition_construct (envPartition : Option Str) (args : Option (Str × Str)) :
    isValidNamespace (Node.construct envPartition args).partition = true := by
  have hdefault : isValidNamespace (Node.constructDefault envPartition).partition = true := by
    unfold Node.constructDefault
    cases envPartition with
    | none => rfl
    | some partition =>
      dsimp only
      split_ifs with h
      · exact h
      · rfl
  cases args with
  | none => exact hdefault
  | some args =>
    show isValidNamespace (if isValidNamespace args.1 then args.1 else _) = true
    split_ifs with h
    · exact h
    · exact hdefault

/-- **Exactly when a node lists the topics and the services of its partition.** -/
theorem topic_list_iff (node : Node) (hp : isValidNamespace node.partition = true) (d : Discovery) :
    (ListsExactly node.partition (TopicMap.getTopicList d.infoMsg.rows) (node.getTopicList d) ↔
      Listable node.partition (TopicMap.getTopicList d.infoMsg.rows)) ∧
    (ListsExactly node.partition (TopicMap.getTopicList d.infoSrv.rows) (node.getServiceList d) ↔
      Listable node.partition (TopicMap.getTopicList d.infoSrv.rows)) :=
  ⟨listsExactly_iff hp Std.ExtTreeMap.nodup_keys, listsExactly_iff hp Std.ExtTreeMap.nodup_keys⟩

/-- A node with the partition '/p'. -/
def nodeOfSlashP : Node := Node.construct none (some (ascii ['/', 'p'], []))

/-- Two topics and a service, of two partitions. -/
def namesAdvertised : List Discovery.Op :=
  [.advertise .msg (ascii ['@', '/', 'p', '@', '/', 't']) [97] [] [110] .all,
    .advertise .msg (ascii ['@', '/', 'q', '@', '/', 'u']) [97] [] [110] .all,
    .advertise .srv (ascii ['@', '/', 'q', '@', '/', 's']) [97] [] [110] .all]

theorem topic_list_iff_nodeOfSlashP : ∃ d,
    run Discovery.step (Discovery.start [65] [1]) namesAdvertised = some d ∧
    TopicMap.getTopicList d.infoMsg.rows =
      [ascii ['@', '/', 'p', '@', '/', 't'], ascii ['@', '/', 'q', '@', '/', 'u']] ∧
    TopicMap.getTopicList d.infoSrv.rows = [ascii ['@', '/', 'q', '@', '/', 's']] ∧
    (ListsExactly nodeOfSlashP.partition (TopicMap.getTopicList d.infoMsg.rows) (nodeOfSlashP.getTopicList d) ↔
      Listable nodeOfSlashP.partition (TopicMap.getTopicList d.infoMsg.rows)) ∧
    (ListsExactly nodeOfSlashP.partition (TopicMap.getTopicList d.infoSrv.rows) (nodeOfSlashP.getServiceList d) ↔
      Listable nodeOfSlashP.partition (TopicMap.getTopicList d.infoSrv.rows)) := by
  have hstored : (run Discovery.step (Discovery.start [65] [1]) namesAdvertised).any (fun d =>
      TopicMap.getTopicList d.infoMsg.rows =
        [ascii ['@', '/', 'p', '@', '/', 't'], ascii ['@', '/', 'q', '@', '/', 'u']] ∧
      TopicMap.getTopicList d.infoSrv.rows = [ascii ['@', '/', 'q', '@', '/', 's']]) = true := by decide +kernel
  obtain ⟨d, hd, hmsgs, hsrvs⟩ := exists_of_any hstored
  exact ⟨d, hd, hmsgs, hsrvs,
    topic_list_iff nodeOfSlashP (valid_partition_construct none (some (ascii ['/', 'p'], []))) d⟩

/-- An ADVERTISE of process 66 with an empty topic. -/
def namelessAdvertise : Datagram :=
  ⟨[2], 0, (Discovery.advMsg { pUuid := [66], hostAddr := [2] } AdvType [] [97] [] [110] .all 0).encode⟩

/-- The node does not list the topic '/t' that it advertises itself, and throws when an empty topic was advertised. -/
theorem own_topic_not_listed :
    (∃ name d, nodeOfSlashP.fqn (ascii ['t']) = some name ∧
      run Discovery.step (Discovery.start [65] [1]) [.advertise .msg name [97] [] [110] .all] = some d ∧
      nodeOfSlashP.getTopicList d = some [] ∧
      ¬ ListsExactly nodeOfSlashP.partition (TopicMap.getTopicList d.infoMsg.rows) (nodeOfSlashP.getTopicList d)) ∧
    ∃ d, run Discovery.step (Discovery.start [65] [1]) [.datagram namelessAdvertise] = some d ∧
      nodeOfSlashP.getTopicList d = none := by
  constructor
  · have hname : nodeOfSlashP.fqn (ascii ['t']) = some (ascii ['@', '/', 'p', '@', '/', 't']) := by decide
    have hstored : (run Discovery.step (Discovery.start [65] [1])
        [.advertise .msg (ascii ['@', '/', 'p', '@', '/', 't']) [97] [] [110] .all]).any (fun d =>
          TopicMap.getTopicList d.infoMsg.rows = [ascii ['@', '/', 'p', '@', '/', 't']]) = true := by decide
    obtain ⟨d, hd, hstored⟩ := exists_of_any hstored
    have hlist : nodeOfSlashP.getTopicList d = some [] := by
      rw [Node.getTopicList, hstored]
      decide
    refine ⟨_, d, hname, hd, hlist, fun h => ?_⟩
    rw [hlist, hstored] at h
    have hexact := (h.2 [(nodeOfSlashP.partition, [], ascii ['t'])] (.cons hname .nil)).1
    exact absurd hexact (by decide)
  · have hstored : (run Discovery.step (Discovery.start [65] [1]) [.datagram namelessAdvertise]).any (fun d =>
        TopicMap.getTopicList d.infoMsg.rows = [[]]) = true := by decide
    obtain ⟨d, hd, hstored⟩ := exists_of_any hstored
    refine ⟨d, hd, ?_⟩
    rw [Node.getTopicList, hstored]
    rfl

end Lists

end IgnTransport
