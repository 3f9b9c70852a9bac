import Mathlib
import IgnTransport.NodeTables
import IgnTransport.Connections

/-!
# IgnTransport.SocketFilters — the filters of the subscriber socket

A subscriber socket of ZeroMQ counts its filters: `ZMQ_SUBSCRIBE` adds one, `ZMQ_UNSUBSCRIBE` takes one away.
`OnNewConnection` adds a filter for every publisher that it is told of, each time that it is told; `Unsubscribe` takes
one away when it has removed the last handler.  `unused_filters_iff` says exactly which runs leave no filter behind.
-/

namespace IgnTransport

open Lib CallM

namespace NodeShared

/-! ## Filters -/

section Filters

/-- What a call does to the filters. -/
def filterCall (filters : Multiset Str) : Effect → Multiset Str
  | .subscribe filter => filter ::ₘ filters
  | .unsubscribe filter => filters.erase filter
  | _ => filters

/-- A call that takes no filter away, and adds one for a topic with handlers only. -/
def KeepsFilters (s : NodeShared) : Effect → Prop
  | .subscribe filter => s.localSubscriptions.hasHandlersForTopic filter = true
  | .unsubscribe _ => False
  | _ => True

variable {s : NodeShared} {T : Str} {filters : Multiset Str} {e : Effect} {es : List Effect}

theorem count_filterCall (h : s.KeepsFilters e) (hT : s.localSubscriptions.hasHandlersForTopic T = false) :
    (filterCall filters e).count T = filters.count T := by
  cases e with
  | subscribe filter =>
    refine Multiset.count_cons_of_ne ?_ filters
    rintro rfl
    rw [show s.localSubscriptions.hasHandlersForTopic T = true from h] at hT
    cases hT
  | unsubscribe filter => cases h
  | _ => rfl

theorem count_foldl_filterCall (h : ∀ e ∈ es, s.KeepsFilters e)
    (hT : s.localSubscriptions.hasHandlersForTopic T = false) :
    (es.foldl filterCall filters).count T = filters.count T := by
  induction es generalizing filters with
  | nil => rfl
  | cons e es ih =>
    obtain ⟨he, hes⟩ := List.forall_mem_cons.mp h
    rw [List.foldl_cons, ih hes, count_filterCall he hT]

/-- The messages to the control sockets leave the filters alone. -/
theorem foldl_filterCall_controls (h : ∀ e ∈ es, IsControl e) : es.foldl filterCall filters = filters := by
  refine foldl_of_fixed (fun e he filters => ?_) filters
  match e, h e he with
  | .control .., _ => rfl

theorem keepsFilters_of_service (h : ServiceEffect e) : s.KeepsFilters e := by
  cases e with
  | subscribe filter => cases h
  | unsubscribe filter => cases h
  | _ => trivial

theorem keepsFilters_of_disconnection (h : DisconnectionEffect e) : s.KeepsFilters e := by
  cases e with
  | subscribe filter => cases h
  | unsubscribe filter => cases h
  | _ => trivial

theorem within_react_filters (s : NodeShared) (d : Discovery) (out : Output) :
    Within core s s.KeepsFilters (react d out) := by
  match out with
  | .sendto b => exact within_emit trivial
  | .connection .msg args =>
    refine Within.coarsen (g := butConnections) (f := fun s => s.butRemote.butServices) fun t ht => ?_
    subst ht
    exact within_onNewConnection_of t args (fun _ => trivial) (fun h => h.1) fun _ _ _ => trivial
  | .connection .srv args =>
    exact (within_react s d (.connection .srv args)).mono fun _ h => keepsFilters_of_service h
  | .disconnection .msg args =>
    exact (within_react s d (.disconnection .msg args)).mono fun _ h => keepsFilters_of_disconnection h
  | .disconnection .srv args =>
    exact (within_react s d (.disconnection .srv args)).mono fun _ h => h.elim

end Filters

end NodeShared

namespace Process

open NodeShared

/-! ## Operations -/

section Operations

/-- A process with the filters of its subscriber socket. -/
structure Filtered where
  process : Process
  filters : Multiset Str

namespace Filtered

def start (shared : NodeShared) (hostAddr : Str) : Filtered := ⟨Process.start shared hostAddr, 0⟩

def step (x : Filtered) (e : Event) : Option Filtered :=
  (x.process.exec e).map fun o => ⟨o.process, o.effects.foldl filterCall x.filters⟩

/-- There is no filter for a topic without a handler. -/
def NoneUnused (x : Filtered) : Prop :=
  ∀ T, x.process.shared.localSubscriptions.hasHandlersForTopic T = false → T ∉ x.filters

end Filtered

/-- The handlers that `Unsubscribe` leaves. -/
def handlersLeft (p : Process) (nUuid name : Str) : HandlerStorage SubscriptionHandler :=
  (p.shared.localSubscriptions.removeHandlersForNode name nUuid).1

/-- An `Unsubscribe` that leaves a topic without a handler finds no filter for it, or finds one and takes it away. -/
def RemovesLast (x : Filtered) (e : Event) : Prop :=
  ∀ nUuid topic name, e.op = .unsubscribe nUuid topic → x.process.fqn nUuid topic = some name →
    (x.process.handlersLeft nUuid name).hasHandlersForTopic name = false →
      x.filters.count name = 0 ∨ (x.filters.count name = 1 ∧ 0 ∉ e.throwsAt)

variable {p : Process} {e : Event} {o : Outcome} {n topic name T : Str} {throwsAt : List ℕ}

theorem within_own_filters {op : Op} {c : NodeM Bool} (h : OwnProgram p op c)
    (hop : ∀ nUuid topic, op ≠ .unsubscribe nUuid topic) (s : NodeShared) : Within core s s.KeepsFilters c := by
  cases h with
  | idle b => exact within_pure b
  | known nUuid topic hUuid data name =>
    exact (within_sendPending (fun _ _ => rfl) (fun _ => trivial) _ name).bind fun _ => within_pure true
  | unsubscribed nUuid topic name heq => exact absurd heq (hop nUuid topic)
  | published nUuid topic data name node =>
    refine Within.coarsen (g := id) (f := core) fun t _ => (within_publish t _ _ _).mono fun e he => ?_
    cases e with
    | subscribe filter => cases he
    | unsubscribe filter => cases he
    | _ => trivial
  | controlled topic procUuid nodeUuid data =>
    refine Within.bind ?_ fun _ => within_pure true
    exact Within.coarsen (g := butRemote) (f := fun s => s.butConnections.butServices) fun t _ =>
      (within_recvControlUpdate t _ _ _ _).mono fun _ h => h.elim

/-- Only `Unsubscribe` takes filters away, and a filter is added for a topic with handlers only. -/
theorem keepsFilters_exec (h : p.exec e = some o) (hop : ∀ nUuid topic, e.op ≠ .unsubscribe nUuid topic) :
    ∀ c ∈ o.effects, o.process.shared.KeepsFilters c := by
  obtain ⟨r, hr, rfl, -⟩ := exec_eq_some h
  obtain ⟨-, -, haction⟩ := acts_perform hr
  have hwithin : Within core r.1.shared.core r.1.shared.core.KeepsFilters r.2 := by
    cases haction with
    | discovered dop out _ _ hprogram =>
      rw [hprogram]
      exact Within.bind (Within.forEach fun o _ => within_react_filters _ _ o) fun _ => within_pure true
    | own _ _ hprogram => exact within_own_filters hprogram hop _
  obtain ⟨hcore, hkind⟩ := finish_within hwithin e.throwsAt
  have hsame : (finish e.throwsAt r).process.shared.localSubscriptions = r.1.shared.localSubscriptions :=
    congrArg (·.localSubscriptions) hcore
  intro c hc
  have hkeeps := hkind c hc
  cases c with
  | subscribe filter =>
    show (finish e.throwsAt r).process.shared.localSubscriptions.hasHandlersForTopic filter = true
    rw [hsame]
    exact hkeeps
  | _ => exact hkeeps

/-! ### `Unsubscribe` -/

/-- An `Unsubscribe` of a valid name: the handlers go, then the calls are made. -/
theorem exec_unsubscribe (h : p.exec ⟨.unsubscribe n topic, throwsAt⟩ = some o) :
    (p.fqn n topic = none ∧ o = finish throwsAt (p, return false)) ∨
      ∃ name, p.fqn n topic = some name ∧ o = finish throwsAt (p.unsubscribe n name) := by
  obtain ⟨r, hr, rfl, -⟩ := exec_eq_some h
  obtain ⟨node, -, ⟨hname, rfl⟩ | ⟨name, hname, hf⟩⟩ := named_eq_some hr
  · exact .inl ⟨hname, rfl⟩
  · obtain rfl := Option.some.inj hf
    exact .inr ⟨name, hname, rfl⟩

/-- The calls of `Unsubscribe` start with the handlers gone. -/
def unsubscribeWorld (p : Process) (nUuid name : Str) (throwsAt : List ℕ) : World NodeShared Effect where
  state := (p.unsubscribe nUuid name).1.shared
  throwsAt

/-- What `Unsubscribe` does about the filter. -/
theorem removeFilter_run (p : Process) (n name : Str) (throwsAt : List ℕ) :
    removeFilter name (p.unsubscribeWorld n name throwsAt) =
      if (p.handlersLeft n name).hasHandlersForTopic name = true then (.ok (), p.unsubscribeWorld n name throwsAt)
      else if 0 ∈ throwsAt then (.error .zmqError, { p.unsubscribeWorld n name throwsAt with count := 1 })
      else (.ok (), { p.unsubscribeWorld n name throwsAt with
        count := 1
        effects := [.unsubscribe name] }) := by
  rw [removeFilter, look_bind]
  show (if (p.handlersLeft n name).hasHandlersForTopic name = true then _ else _ : NodeM Unit) _ = _
  split_ifs with hhas hthrows
  · rfl
  · exact bind_of_error (attempt_throws _ hthrows)
  · exact bind_of_ok (attempt_ok _ hthrows)

/-- The calls of `Unsubscribe`, run. -/
theorem finish_unsubscribe (p : Process) (n name : Str) (throwsAt : List ℕ) {r : Except Thrown Bool × World _ _}
    (h : (removeFilter name >>= fun _ => notifyPublishers n name p.discovery.infoMsg)
      (p.unsubscribeWorld n name throwsAt) = r) :
    (finish throwsAt (p.unsubscribe n name)).value = r.1 ∧
      (finish throwsAt (p.unsubscribe n name)).effects = r.2.effects := by
  subst h
  exact ⟨rfl, rfl⟩

/-- The filter goes with the last handler, unless the call throws. -/
theorem effects_unsubscribe (p : Process) (n name : Str) (throwsAt : List ℕ) :
    ∃ controls, (∀ e ∈ controls, IsControl e) ∧ (finish throwsAt (p.unsubscribe n name)).effects =
      (if (p.handlersLeft n name).hasHandlersForTopic name = true ∨ 0 ∈ throwsAt then []
        else [.unsubscribe name]) ++ controls := by
  have hrun := removeFilter_run p n name throwsAt
  have hcalls : ∀ w : World NodeShared Effect, ∃ controls, (∀ e ∈ controls, IsControl e) ∧
      (notifyPublishers n name p.discovery.infoMsg w).2.effects = w.effects ++ controls := by
    intro w
    obtain ⟨-, controls, heffects, hkind⟩ := within_notifyPublishers w.state n name p.discovery.infoMsg w rfl
    exact ⟨controls, fun e he => (hkind e he).1, heffects⟩
  by_cases hhas : (p.handlersLeft n name).hasHandlersForTopic name = true
  · rw [if_pos hhas] at hrun
    obtain ⟨controls, hcontrols, heffects⟩ := hcalls (p.unsubscribeWorld n name throwsAt)
    refine ⟨controls, hcontrols, ?_⟩
    rw [(finish_unsubscribe p n name throwsAt (bind_of_ok hrun)).2, heffects, if_pos (.inl hhas)]
    rfl
  · rw [if_neg hhas] at hrun
    by_cases hthrows : 0 ∈ throwsAt
    · rw [if_pos hthrows] at hrun
      refine ⟨[], by simp, ?_⟩
      rw [(finish_unsubscribe p n name throwsAt (bind_of_error hrun)).2, if_pos (.inr hthrows)]
      rfl
    · rw [if_neg hthrows] at hrun
      obtain ⟨controls, hcontrols, heffects⟩ := hcalls { p.unsubscribeWorld n name throwsAt with
        count := 1
        effects := [.unsubscribe name] }
      refine ⟨controls, hcontrols, ?_⟩
      rw [(finish_unsubscribe p n name throwsAt (bind_of_ok hrun)).2, heffects, if_neg (not_or.mpr ⟨hhas, hthrows⟩)]

/-- Only `Unsubscribe` takes the last handler of a topic away. -/
theorem hasHandlersForTopic_exec (h : p.exec e = some o) (hop : ∀ nUuid topic, e.op ≠ .unsubscribe nUuid topic)
    (hT : o.process.shared.localSubscriptions.hasHandlersForTopic T = false) :
    p.shared.localSubscriptions.hasHandlersForTopic T = false := by
  by_contra hhas
  obtain ⟨n, hcell⟩ := (HandlerStorage.hasHandlersForTopic_iff _ _).mp (by simpa using hhas)
  have hkept : o.process.shared.localSubscriptions.cell T n ≠ ∅ :=
    (hasSubscriptions_exec h n T).mpr (.inr ⟨hcell, fun ⟨topic, heq, _⟩ => hop n topic heq⟩)
  rw [(HandlerStorage.hasHandlersForTopic_iff _ _).mpr ⟨n, hkept⟩] at hT
  cases hT

/-- The handlers of another topic stay. -/
theorem hasHandlersForTopic_handlersLeft (p : Process) (n : Str) (hT : T ≠ name) :
    (p.handlersLeft n name).hasHandlersForTopic T = p.shared.localSubscriptions.hasHandlersForTopic T := by
  rw [Bool.eq_iff_iff, HandlerStorage.hasHandlersForTopic_iff, HandlerStorage.hasHandlersForTopic_iff]
  refine exists_congr fun m => ?_
  rw [handlersLeft, HandlerStorage.cell_removeHandlersForNode, if_neg fun hc => hT hc.1]

/-! ## Steps -/

variable {x y : Filtered}

theorem filtered_step_eq_some (h : x.step e = some y) :
    ∃ o, x.process.exec e = some o ∧ y = ⟨o.process, o.effects.foldl filterCall x.filters⟩ := by
  obtain ⟨o, ho, rfl⟩ := Option.map_eq_some_iff.mp h
  exact ⟨o, ho, rfl⟩

theorem noneUnused_iff : x.NoneUnused ↔
    ∀ T, x.process.shared.localSubscriptions.hasHandlersForTopic T = false → x.filters.count T = 0 :=
  forall₂_congr fun _ _ => Multiset.count_eq_zero.symm

/-- The filters after an `Unsubscribe`. -/
theorem step_unsubscribe (h : x.step ⟨.unsubscribe n topic, throwsAt⟩ = some y)
    (hname : x.process.fqn n topic = some name) :
    y.process.shared.localSubscriptions = x.process.handlersLeft n name ∧ y.filters =
      if (x.process.handlersLeft n name).hasHandlersForTopic name = true ∨ 0 ∈ throwsAt then x.filters
      else x.filters.erase name := by
  obtain ⟨o, ho, rfl⟩ := filtered_step_eq_some h
  refine ⟨?_, ?_⟩
  · rw [(core_exec ho).1]
    simp only [subscriptionsAfter, hname]
    rfl
  · rcases exec_unsubscribe ho with ⟨hnone, -⟩ | ⟨name', hname', rfl⟩
    · rw [hname] at hnone
      cases hnone
    · obtain rfl := Option.some.inj (hname.symm.trans hname')
      obtain ⟨controls, hcontrols, heffects⟩ := effects_unsubscribe x.process n name throwsAt
      rw [heffects, List.foldl_append, foldl_filterCall_controls hcontrols]
      split_ifs with hkept <;> rfl

/-- **One step**: it leaves no filter behind exactly if it takes the last filter away with the last handler. -/
theorem step_noneUnused (hx : x.NoneUnused) (h : x.step e = some y) : y.NoneUnused ↔ RemovesLast x e := by
  rw [noneUnused_iff] at hx ⊢
  by_cases hop : ∃ nUuid topic, e.op = .unsubscribe nUuid topic
  · obtain ⟨op, throwsAt⟩ := e
    obtain ⟨n, topic, rfl⟩ := hop
    cases hname : x.process.fqn n topic with
    | none =>
      -- the name is not valid: nothing happens
      obtain ⟨o, ho, rfl⟩ := filtered_step_eq_some h
      refine iff_of_true (fun T hT => ?_) ?_
      · rcases exec_unsubscribe ho with ⟨-, rfl⟩ | ⟨name, hname', -⟩
        · exact hx T hT
        · rw [hname] at hname'
          cases hname'
      · rintro n' topic' name heq hname'
        cases heq
        rw [hname] at hname'
        cases hname'
    | some name =>
      obtain ⟨hsubscriptions, hfilters⟩ := step_unsubscribe h hname
      rw [hsubscriptions, hfilters]
      -- every other topic has the handlers and the filters that it had
      have hother : ∀ T, T ≠ name → (x.process.handlersLeft n name).hasHandlersForTopic T = false →
          (if (x.process.handlersLeft n name).hasHandlersForTopic name = true ∨ 0 ∈ throwsAt then x.filters
            else x.filters.erase name).count T = 0 := by
        intro T hne hT
        rw [hasHandlersForTopic_handlersLeft _ _ hne] at hT
        split_ifs
        · exact hx T hT
        · rw [Multiset.count_erase_of_ne hne]
          exact hx T hT
      refine ⟨fun hy => ?_, fun hlast T hT => ?_⟩
      · rintro n' topic' name' heq hname' hleft
        cases heq
        obtain rfl := Option.some.inj (hname.symm.trans hname')
        have hcount := hy name hleft
        rw [hleft] at hcount
        by_cases hthrows : 0 ∈ throwsAt
        · rw [if_pos (.inr hthrows)] at hcount
          exact .inl hcount
        · rw [if_neg (by simpa using hthrows), Multiset.count_erase_self] at hcount
          show _ ∨ _ ∧ 0 ∉ throwsAt
          by_cases hzero : x.filters.count name = 0
          · exact .inl hzero
          · exact .inr ⟨by omega, hthrows⟩
      · by_cases hne : T = name
        · subst hne
          rcases hlast n topic T rfl hname hT with hzero | ⟨hone, hthrows⟩
          · split_ifs
            · exact hzero
            · rw [Multiset.count_erase_self, hzero]
          · rw [hT, if_neg (by simpa using hthrows), Multiset.count_erase_self, hone]
        · exact hother T hne hT
  · have hop' : ∀ nUuid topic, e.op ≠ .unsubscribe nUuid topic := fun n topic heq => hop ⟨n, topic, heq⟩
    obtain ⟨o, ho, rfl⟩ := filtered_step_eq_some h
    refine iff_of_true (fun T hT => ?_) fun n topic _ heq => absurd heq (hop' n topic)
    show (o.effects.foldl filterCall x.filters).count T = 0
    rw [count_foldl_filterCall (keepsFilters_exec ho hop') hT]
    exact hx T (hasHandlersForTopic_exec ho hop' hT)

/-- **Filters without a subscriber**: no topic without a handler has a filter, in every state of a run, exactly when
every `Unsubscribe` of the run that leaves a topic without a handler takes its last filter away. -/
theorem unused_filters_iff {shared : NodeShared} {hostAddr : Str} {es : List Event}
    (h : run Filtered.step (Filtered.start shared hostAddr) es = some x) :
    Always Filtered.step (fun _ x => x.NoneUnused) (Filtered.start shared hostAddr) es ↔
      Along Filtered.step (fun _ x e => RemovesLast x e) (Filtered.start shared hostAddr) es := by
  refine always_iff_along (fun _ x => x.NoneUnused) (fun _ => True) (fun T _ => Multiset.notMem_zero T)
    (fun _ _ hx => hx) ?_ ?_ (fun _ _ => trivial) h
  · exact fun pre x e y _ hx hstep hgood => (step_noneUnused hx hstep).mpr hgood
  · exact fun pre x e y _ hx hstep hbad hy => hbad ((step_noneUnused hx hstep).mp hy)

end Operations

/-! ## Sample runs -/

section Samples

/-- The only subscriber of 't' hears of a publisher once, and unsubscribes. -/
def heardOnce : List Event := subscribedAndAdvertised ++ [{ op := .unsubscribe (uuidOf 1).1 (ascii ['t']) }]

/-- It subscribes a second time: `Discover` reports the publisher again. -/
def heardTwice : List Event :=
  subscribedAndAdvertised ++ [{ op := .subscribe (uuidOf 1).1 (ascii ['t']) [9] },
    { op := .unsubscribe (uuidOf 1).1 (ascii ['t']) }]

theorem unused_filters_iff_heardOnce :
    ∃ x, run Filtered.step (Filtered.start (sample ⟨65, by decide⟩) []) heardOnce = some x ∧
      (Always Filtered.step (fun _ x => x.NoneUnused) (Filtered.start (sample ⟨65, by decide⟩) []) heardOnce ↔
        Along Filtered.step (fun _ x e => RemovesLast x e) (Filtered.start (sample ⟨65, by decide⟩) []) heardOnce) := by
  have hdef : (run Filtered.step (Filtered.start (sample ⟨65, by decide⟩) []) heardOnce).isSome = true := by
    decide +kernel
  obtain ⟨x, hx⟩ := Option.isSome_iff_exists.mp hdef
  exact ⟨x, hx, unused_filters_iff hx⟩

/-- One publisher, and one filter is left behind. -/
theorem unused_filter_left :
    ∃ x, run Filtered.step (Filtered.start (sample ⟨65, by decide⟩) []) heardTwice = some x ∧ ¬ x.NoneUnused := by
  have hleft : (run Filtered.step (Filtered.start (sample ⟨65, by decide⟩) []) heardTwice).any (fun x =>
      x.process.shared.localSubscriptions.hasHandlersForTopic (ascii ['@', '@', '/', 't']) = false ∧
        ascii ['@', '@', '/', 't'] ∈ x.filters) = true := by decide +kernel
  obtain ⟨x, hx, hnone, hmem⟩ := exists_of_any hleft
  exact ⟨x, hx, fun hunused => hunused _ hnone hmem⟩

end Samples

end Process

end IgnTransport
