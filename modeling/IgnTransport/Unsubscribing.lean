import Mathlib
import IgnTransport.SocketFilters

/-!
# IgnTransport.Unsubscribing — what `Unsubscribe` returns

`Unsubscribe` removes the handlers of the node, its name and the filter first; then it asks the discovery service for
the publishers of the topic, and returns `false` when it knows none.  `unsubscribe_reports_iff` says exactly when a
`false` means that nothing was changed.
-/

namespace IgnTransport

open Lib CallM

namespace Process

open NodeShared

/-! ## Statements -/

section Statements

/-- The messages that tell the publishers of a topic that a node is no longer interested: one for every address. -/
def endConnections (p : Process) (nUuid name : Str) : List Effect :=
  ((p.discovery.infoMsg.row name).toList.flatMap fun proc => proc.2).map fun node =>
    .control (cStr node.ctrl) (controlFrames name p.shared.myAddress nUuid EndConnection)

/-- An operation of a node that leaves its subscriptions alone and sends no control message. -/
structure Untouched (x : Filtered) (nUuid : Str) (o : Outcome) : Prop where
  subscriptions : o.process.shared.localSubscriptions = x.process.shared.localSubscriptions
  topics : o.process.subscribed nUuid = x.process.subscribed nUuid
  filters : o.effects.foldl filterCall x.filters = x.filters
  controls : ∀ e ∈ o.effects, ¬ IsControl e

/-- An operation that leaves a node without a handler for a topic, and tells every publisher of the topic once. -/
structure Ended (p : Process) (nUuid name : Str) (o : Outcome) : Prop where
  handlers : o.process.shared.localSubscriptions.hasHandlersForNode name nUuid = false
  told : ∃ others, o.effects = others ++ p.endConnections nUuid name ∧ ∀ e ∈ others, ¬ IsControl e

/-- What `Unsubscribe` returns is right. -/
def Reports (x : Filtered) (e : Event) : Prop :=
  ∀ nUuid topic o, e.op = .unsubscribe nUuid topic → x.process.exec e = some o →
    (o.value = .ok false → Untouched x nUuid o) ∧
      (o.value = .ok true → ∃ name, x.process.fqn nUuid topic = some name ∧ Ended x.process nUuid name o)

/-- An `Unsubscribe` that throws before it asks for the publishers. -/
def ThrowsFirst (p : Process) (nUuid name : Str) (throwsAt : List ℕ) : Prop :=
  (p.handlersLeft nUuid name).hasHandlersForTopic name = false ∧ 0 ∈ throwsAt

/-- An `Unsubscribe` that has nothing to remove. -/
structure Removed (x : Filtered) (nUuid name : Str) : Prop where
  handlers : x.process.shared.localSubscriptions.cell name nUuid = ∅
  topic : name ∉ x.process.subscribed nUuid
  filter : (x.process.handlersLeft nUuid name).hasHandlersForTopic name = false → name ∉ x.filters

/-- An `Unsubscribe` whose topic has no publisher that the discovery service knows throws, or has nothing to
remove. -/
def CanReport (x : Filtered) (e : Event) : Prop :=
  ∀ nUuid topic name, e.op = .unsubscribe nUuid topic → x.process.fqn nUuid topic = some name →
    x.process.discovery.infoMsg.hasTopic name = true ∨ x.process.ThrowsFirst nUuid name e.throwsAt ∨
      Removed x nUuid name

end Statements

/-! ## Calls -/

section Calls

variable {p : Process} {o : Outcome} {n topic name : Str} {throwsAt : List ℕ}

theorem leaves_sendFrames (s : NodeShared) (frames : List Str) (e : List Str → Effect) :
    Leaves (sendFrames frames e) s [e frames] := by
  have hframes : Leaves (forEach (fun _ => zmqCall) frames) s (frames.flatMap fun _ => []) :=
    Leaves.forEach fun _ _ => leaves_attempt _
  rw [List.flatMap_eq_nil_iff.mpr fun _ _ => rfl] at hframes
  exact hframes.bind fun _ => leaves_emit _

theorem leaves_notifyEnd (s : NodeShared) (n name ctrl : Str) : Leaves (notifyEnd n name ctrl) s
    [.control (cStr ctrl) (controlFrames name s.myAddress n EndConnection)] := by
  have hopen : Leaves openDealer s [] :=
    (leaves_attempt _).bind fun _ => (leaves_attempt _).bind fun _ => leaves_attempt _
  exact hopen.bind fun _ => leaves_look (leaves_sendFrames _ _ _)

theorem leaves_notifyEnds (s : NodeShared) (n name : Str) (nodes : List Address) :
    Leaves (forEach (fun (node : Address) => notifyEnd n name node.ctrl) nodes) s (nodes.map fun node =>
      .control (cStr node.ctrl) (controlFrames name s.myAddress n EndConnection)) := by
  rw [List.map_eq_flatMap]
  exact Leaves.forEach fun node _ => leaves_notifyEnd s n name node.ctrl

/-- The calls to known publishers return `true`, if at all, when each of them was told once. -/
theorem leaves_notifyPublishers {s : NodeShared} (hmine : s.myAddress = p.shared.myAddress)
    (hknown : p.discovery.infoMsg.hasTopic name = true) :
    Leaves (notifyPublishers n name p.discovery.infoMsg) s (p.endConnections n name) := by
  have hget := (p.discovery.infoMsg.getAddresses_eq_some_iff name _).mpr ⟨hknown, rfl⟩
  unfold notifyPublishers
  rw [hget, endConnections, ← hmine, ← List.append_nil (List.map _ _)]
  exact (leaves_notifyEnds s n name _).bind fun _ => leaves_pure true

theorem notifyPublishers_eq_true (hknown : p.discovery.infoMsg.hasTopic name = true) {w w' : World NodeShared Effect}
    {b : Bool} (h : notifyPublishers n name p.discovery.infoMsg w = (.ok b, w')) : b = true := by
  have hget := (p.discovery.infoMsg.getAddresses_eq_some_iff name _).mpr ⟨hknown, rfl⟩
  unfold notifyPublishers at h
  rw [hget] at h
  obtain ⟨_, _, _, h⟩ := bind_eq_ok.mp h
  exact (Except.ok.inj (Prod.mk.inj h).1).symm

theorem notifyPublishers_unknown (hunknown : p.discovery.infoMsg.hasTopic name = false) :
    notifyPublishers n name p.discovery.infoMsg = return false := by
  unfold notifyPublishers
  rw [TopicStorage.getAddresses, if_neg (by simpa using hunknown)]

/-- An `Unsubscribe` of a topic without a known publisher: it returns `false`, unless it throws. -/
theorem finish_unknown (n : Str) (throwsAt : List ℕ) (hunknown : p.discovery.infoMsg.hasTopic name = false) :
    ((finish throwsAt (p.unsubscribe n name)).value = .ok false ↔ ¬ p.ThrowsFirst n name throwsAt) ∧
      (finish throwsAt (p.unsubscribe n name)).value ≠ .ok true ∧
      (finish throwsAt (p.unsubscribe n name)).effects =
        if (p.handlersLeft n name).hasHandlersForTopic name = true ∨ 0 ∈ throwsAt then [] else [.unsubscribe name] := by
  have hrun := removeFilter_run p n name throwsAt
  obtain ⟨hvalue, heffects⟩ := finish_unsubscribe p n name throwsAt rfl
  rw [notifyPublishers_unknown hunknown] at hvalue heffects
  by_cases hhas : (p.handlersLeft n name).hasHandlersForTopic name = true
  · rw [if_pos hhas] at hrun
    rw [bind_of_ok hrun] at hvalue heffects
    rw [hvalue, heffects, if_pos (.inl hhas)]
    refine ⟨iff_of_true rfl fun h => ?_, fun h => (by cases h), rfl⟩
    rw [ThrowsFirst, hhas] at h
    cases h.1
  · rw [if_neg hhas] at hrun
    by_cases hthrows : 0 ∈ throwsAt
    · rw [if_pos hthrows] at hrun
      rw [bind_of_error hrun] at hvalue heffects
      rw [hvalue, heffects, if_pos (.inr hthrows)]
      exact ⟨iff_of_false (fun h => by cases h) fun h => h ⟨by simpa using hhas, hthrows⟩, fun h => (by cases h), rfl⟩
    · rw [if_neg hthrows] at hrun
      rw [bind_of_ok hrun] at hvalue heffects
      rw [hvalue, heffects, if_neg (not_or.mpr ⟨hhas, hthrows⟩)]
      exact ⟨iff_of_true rfl fun h => hthrows h.2, fun h => (by cases h), rfl⟩

/-- An `Unsubscribe` of a topic with a known publisher: it returns `true`, if at all. -/
theorem finish_known (hknown : p.discovery.infoMsg.hasTopic name = true) {b : Bool}
    (h : (finish throwsAt (p.unsubscribe n name)).value = .ok b) : b = true ∧ ∃ others,
      (finish throwsAt (p.unsubscribe n name)).effects = others ++ p.endConnections n name ∧
        ∀ e ∈ others, ¬ IsControl e := by
  generalize hout : (removeFilter name >>= fun _ => notifyPublishers n name p.discovery.infoMsg)
    (p.unsubscribeWorld n name throwsAt) = out
  obtain ⟨hvalue, heffects⟩ := finish_unsubscribe p n name throwsAt hout
  obtain ⟨value, w⟩ := out
  obtain rfl : value = .ok b := hvalue.symm.trans h
  obtain ⟨_, w', hfilter, hrest⟩ := bind_eq_ok.mp hout
  refine ⟨notifyPublishers_eq_true hknown hrest, w'.effects, ?_⟩
  -- the call about the filter is no control message
  have hw' : w'.state = (p.unsubscribe n name).1.shared ∧ ∀ e ∈ w'.effects, ¬ IsControl e := by
    rw [removeFilter_run] at hfilter
    split_ifs at hfilter
    · obtain ⟨-, rfl⟩ := Prod.mk.inj hfilter
      exact ⟨rfl, by simp [unsubscribeWorld]⟩
    · cases (Prod.mk.inj hfilter).1
    · obtain ⟨-, rfl⟩ := Prod.mk.inj hfilter
      exact ⟨rfl, by simp [IsControl]⟩
  have hmine : w'.state.myAddress = p.shared.myAddress := by rw [hw'.1]; rfl
  obtain ⟨-, hsent⟩ := leaves_notifyPublishers hmine hknown w' b w rfl hrest
  exact ⟨heffects.trans hsent, hw'.2⟩

end Calls

/-! ## Steps -/

section Steps

variable {p : Process} {x : Filtered} {o : Outcome} {n topic name : Str} {throwsAt : List ℕ}

theorem exec_of_fqn (hname : p.fqn n topic = some name) (throwsAt : List ℕ) :
    p.exec ⟨.unsubscribe n topic, throwsAt⟩ = some (finish throwsAt (p.unsubscribe n name)) := by
  obtain ⟨node, hnode, hfqn⟩ := Option.bind_eq_some_iff.mp hname
  have hperform : p.perform (.unsubscribe n topic) = some (p.unsubscribe n name) := by
    dsimp only [perform, named]
    rw [hnode, Option.bind_eq_bind, Option.bind_some, hfqn]
  rw [exec, hperform]
  rfl

/-- What an `Unsubscribe` of a valid name does to the subscriptions. -/
theorem tables_unsubscribe (hname : p.fqn n topic = some name)
    (h : p.exec ⟨.unsubscribe n topic, throwsAt⟩ = some o) :
    o.process.shared.localSubscriptions = p.handlersLeft n name ∧
      (o.process.subscribed n = p.subscribed n ↔ name ∉ p.subscribed n) := by
  have hmem := mem_subscribed_exec h n
  refine ⟨?_, fun hsame hin => ?_, fun hnot => Std.ExtTreeSet.ext_mem fun T => ?_⟩
  · rw [(core_exec h).1]
    simp only [subscriptionsAfter, hname]
    rfl
  · rw [← hsame, hmem] at hin
    rcases hin with ⟨_, _, heq, -⟩ | ⟨-, hnot⟩
    · cases heq
    · exact hnot ⟨topic, rfl, hname⟩
  · rw [hmem]
    constructor
    · rintro (⟨_, _, heq, -⟩ | ⟨hin, -⟩)
      · cases heq
      · exact hin
    · refine fun hin => .inr ⟨hin, ?_⟩
      rintro ⟨topic', heq, hname'⟩
      cases heq
      exact hnot (Option.some.inj (hname.symm.trans hname') ▸ hin)

theorem erase_eq_self_iff (filters : Multiset Str) (name : Str) : filters.erase name = filters ↔ name ∉ filters := by
  refine ⟨fun hsame hin => ?_, Multiset.erase_of_notMem⟩
  have hlt := Multiset.erase_lt.mpr hin
  rw [hsame] at hlt
  exact lt_irrefl _ hlt

/-- An `Unsubscribe` that finds no publisher leaves everything alone exactly if there is nothing to remove. -/
theorem untouched_iff (hname : x.process.fqn n topic = some name)
    (hunknown : x.process.discovery.infoMsg.hasTopic name = false)
    (hcalls : ¬ x.process.ThrowsFirst n name throwsAt)
    (h : x.process.exec ⟨.unsubscribe n topic, throwsAt⟩ = some o) : Untouched x n o ↔ Removed x n name := by
  obtain ⟨hsubscriptions, htopics⟩ := tables_unsubscribe hname h
  have ho := Option.some.inj (h.symm.trans (exec_of_fqn hname throwsAt))
  have heffects := (finish_unknown n throwsAt hunknown).2.2
  rw [← ho] at heffects
  have hhandlers : x.process.handlersLeft n name = x.process.shared.localSubscriptions ↔ _ :=
    HandlerStorage.removeHandlersForNode_eq_self_iff _ _ _
  have hfilters : o.effects.foldl filterCall x.filters = x.filters ↔
      ((x.process.handlersLeft n name).hasHandlersForTopic name = false → name ∉ x.filters) := by
    rw [heffects]
    by_cases hhas : (x.process.handlersLeft n name).hasHandlersForTopic name = true
    · rw [if_pos (.inl hhas), hhas]
      exact iff_of_true rfl fun h => by cases h
    · have hnone : (x.process.handlersLeft n name).hasHandlersForTopic name = false := by simpa using hhas
      have hthrows : 0 ∉ throwsAt := fun h0 => hcalls ⟨hnone, h0⟩
      rw [if_neg (not_or.mpr ⟨hhas, hthrows⟩), hnone]
      exact (erase_eq_self_iff _ _).trans ⟨fun hnot _ => hnot, fun hnot => hnot rfl⟩
  constructor
  · intro hsame
    exact ⟨hhandlers.mp (hsubscriptions.symm.trans hsame.subscriptions), htopics.mp hsame.topics,
      hfilters.mp hsame.filters⟩
  · intro hremoved
    refine ⟨hsubscriptions.trans (hhandlers.mpr hremoved.handlers), htopics.mpr hremoved.topic,
      hfilters.mpr hremoved.filter, fun e he => ?_⟩
    rw [heffects] at he
    split_ifs at he
    · cases he
    · rw [List.mem_singleton] at he
      subst he
      exact id

/-- **One step**: what `Unsubscribe` returns is right exactly under the condition. -/
theorem reports_iff (x : Filtered) (e : Event) : Reports x e ↔ CanReport x e := by
  constructor
  · rintro hreports n topic name hop hname
    obtain ⟨op, throwsAt⟩ := e
    obtain rfl : op = _ := hop
    cases hknown : x.process.discovery.infoMsg.hasTopic name with
    | true => exact .inl rfl
    | false =>
      refine .inr (or_iff_not_imp_left.mpr fun hcalls => ?_)
      have hexec := exec_of_fqn hname throwsAt
      have hvalue := (finish_unknown n throwsAt hknown).1.mpr hcalls
      exact (untouched_iff hname hknown hcalls hexec).mp ((hreports n topic _ rfl hexec).1 hvalue)
  · rintro hcan n topic o hop hexec
    obtain ⟨op, throwsAt⟩ := e
    obtain rfl : op = _ := hop
    rcases exec_unsubscribe hexec with ⟨hnone, rfl⟩ | ⟨name, hname, rfl⟩
    · -- the name is not valid: nothing happens
      refine ⟨fun _ => ⟨rfl, rfl, rfl, fun e he => by cases he⟩, fun htrue => by cases htrue⟩
    · cases hknown : x.process.discovery.infoMsg.hasTopic name with
      | true =>
        refine ⟨fun hfalse => ?_, fun htrue => ⟨name, hname, ?_, (finish_known hknown htrue).2⟩⟩
        · cases (finish_known hknown hfalse).1
        · rw [(tables_unsubscribe hname hexec).1, Bool.eq_false_iff, ne_eq, HandlerStorage.hasHandlersForNode_iff]
          exact fun hne => hne ((HandlerStorage.cell_removeHandlersForNode _ _ _ _ _).trans (if_pos ⟨rfl, rfl⟩))
      | false =>
        obtain ⟨hvalue, hnot, -⟩ := finish_unknown n throwsAt hknown
        refine ⟨fun hfalse => ?_, fun htrue => absurd htrue hnot⟩
        have hcalls := hvalue.mp hfalse
        rcases hcan n topic name rfl hname with hknown' | hthrows | hremoved
        · rw [hknown] at hknown'
          cases hknown'
        · exact absurd hthrows hcalls
        · exact (untouched_iff hname hknown hcalls hexec).mpr hremoved

/-- **Exactly which `Unsubscribe` returns what is right**, in any state and so along every run. -/
theorem unsubscribe_reports_iff (shared : NodeShared) (hostAddr : Str) (es : List Event) :
    (∀ (x : Filtered) (e : Event), Reports x e ↔ CanReport x e) ∧
    (Along Filtered.step (fun _ x e => Reports x e) (Filtered.start shared hostAddr) es ↔
      Along Filtered.step (fun _ x e => CanReport x e) (Filtered.start shared hostAddr) es) :=
  ⟨reports_iff, along_congr (fun _ => reports_iff) _ _⟩

/-- A node subscribes to 't', which nobody publishes. -/
def subscribedAlone : List Event :=
  setCallbacks ++ [{ op := .construct (uuidOf 1) none none }, { op := .subscribe (uuidOf 1).1 (ascii ['t']) [9] }]

/-- The handler goes, and `Unsubscribe` returns `false`. -/
theorem failure_reported :
    ∃ x, run Filtered.step (Filtered.start (sample ⟨65, by decide⟩) []) subscribedAlone = some x ∧
      ¬ Reports x { op := .unsubscribe (uuidOf 1).1 (ascii ['t']) } := by
  have hstate : (run Filtered.step (Filtered.start (sample ⟨65, by decide⟩) []) subscribedAlone).any (fun x =>
      ascii ['@', '@', '/', 't'] ∈ x.process.subscribed (uuidOf 1).1 ∧
        (x.process.exec { op := .unsubscribe (uuidOf 1).1 (ascii ['t']) }).any (fun o =>
          o.value.toOption = some false ∧ ascii ['@', '@', '/', 't'] ∉ o.process.subscribed (uuidOf 1).1) = true) =
        true := by decide +kernel
  obtain ⟨x, hx, hin, hafter⟩ := exists_of_any hstate
  obtain ⟨o, ho, hvalue, hnot⟩ := exists_of_any hafter
  refine ⟨x, hx, fun hreports => hnot ?_⟩
  have hfalse : o.value = .ok false := by
    cases hcase : o.value with
    | ok b =>
      rw [hcase] at hvalue
      exact congrArg Except.ok (Option.some.inj hvalue)
    | error t =>
      rw [hcase] at hvalue
      cases hvalue
  rw [((hreports _ _ o rfl ho).1 hfalse).topics]
  exact hin

end Steps

end Process

end IgnTransport
