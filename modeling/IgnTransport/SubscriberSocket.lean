import Mathlib
import IgnTransport.NodeSharedTables
import IgnTransport.Node

/-!
# IgnTransport.SubscriberSocket — the endpoints of the subscriber socket

One endpoint serves every topic and node of a publisher process.  `OnNewConnection` connects it with the first entry
that has its address, but `OnNewDisconnection` disconnects it with each entry that goes.
`subscriber_socket_matches_iff` says exactly which sequences of callbacks keep the socket in step with the table.
-/

namespace IgnTransport

open Lib CallM

namespace NodeShared

/-! ## The socket -/

section Socket

/-- The endpoints that a socket is connected to; none after a `disconnect` of an endpoint that was not. -/
abbrev Endpoints := Option (Finset Str)

/-- What a call does to the subscriber socket. -/
def socketCall : Endpoints → Effect → Endpoints
  | some endpoints, .connect .subscriber endpoint => some (insert endpoint endpoints)
  | some endpoints, .disconnect .subscriber endpoint =>
    if endpoint ∈ endpoints then some (endpoints.erase endpoint) else none
  | endpoints, _ => endpoints

/-- The endpoints that the socket is connected to, whatever is made in vain. -/
def endpointCall (endpoints : Finset Str) : Effect → Finset Str
  | .connect .subscriber endpoint => insert endpoint endpoints
  | .disconnect .subscriber endpoint => endpoints.erase endpoint
  | _ => endpoints

/-- A process with its subscriber socket. -/
structure Wired where
  shared : NodeShared
  endpoints : Endpoints

/-- The callbacks, and any change of the handlers between them. -/
inductive WiredEvent where
  | connection (args : CallbackArgs)
  | disconnection (args : CallbackArgs)
  | subscriptions (handlers : HandlerStorage SubscriptionHandler)

namespace Wired

/-- A process that is connected to nobody. -/
def start (shared : NodeShared) : Wired := ⟨{ shared with connections := Table.empty }, some ∅⟩

/-- A callback, whose calls succeed. -/
def call (x : Wired) (callback : NodeM Unit) : Wired :=
  let w := (callback { state := x.shared }).2
  ⟨w.state, w.effects.foldl socketCall x.endpoints⟩

def step (x : Wired) : WiredEvent → Option Wired
  | .connection args => some (x.call (onNewConnection args))
  | .disconnection args => some (x.call (onNewDisconnection args))
  | .subscriptions handlers => some { x with shared := { x.shared with localSubscriptions := handlers } }

/-- An address is connected exactly when some connection has it, and no call was made in vain. -/
def Matches (x : Wired) : Prop :=
  ∃ endpoints, x.endpoints = some endpoints ∧
    ∀ addr, addr ∈ endpoints ↔ x.shared.connections.hasAddress addr = true

end Wired

/-- An entry other than those of a node for a topic has the address. -/
def UsedBesidesNode (s : TopicStorage) (t q n addr : Str) : Prop :=
  ∃ u r m, s.Known u r m addr ∧ ¬ (u = t ∧ r = q ∧ m = n)

/-- An entry of another process has the address. -/
def UsedBesidesProc (s : TopicStorage) (q addr : Str) : Prop := ∃ u r m, s.Known u r m addr ∧ r ≠ q

/-- The condition under which a callback keeps the socket in step.  A new address is a C string.  The address of a
node that goes is its alone, and any further address of the node has another entry.  A process that goes has its
addresses for itself, each once under the topic, and no others under other topics. -/
def KeepsSocket (s : NodeShared) : WiredEvent → Prop
  | .connection args => s.Interested args.topic args.pUuid → s.connections.hasAddress args.addr = false →
      cStr args.addr = args.addr
  | .disconnection args =>
    if AboutNode args then
      ∀ c, s.connections.getAddress args.topic args.pUuid args.nUuid = some c →
        ∀ addr, s.connections.Known args.topic args.pUuid args.nUuid addr →
          (UsedBesidesNode s.connections args.topic args.pUuid args.nUuid addr ↔ addr ≠ c.addr)
    else s.connections.hasTopic args.topic = true →
      ((s.connections.cell args.topic args.pUuid).map Address.addr).Nodup ∧
        ∀ addr u m, s.connections.Known u args.pUuid m addr →
          (UsedBesidesProc s.connections args.pUuid addr ↔ ¬ ∃ m, s.connections.Known args.topic args.pUuid m addr)
  | .subscriptions _ => True

end Socket

/-! ## Calls -/

section Calls

theorem socketCall_control {e : Effect} (h : IsControl e) (endpoints : Endpoints) :
    socketCall endpoints e = endpoints := by
  match e, h with
  | .control .., _ => cases endpoints <;> rfl

theorem foldl_socketCall_controls {es : List Effect} (h : ∀ e ∈ es, IsControl e) (endpoints : Endpoints) :
    es.foldl socketCall endpoints = endpoints := foldl_of_fixed (fun e he => socketCall_control (h e he)) endpoints

theorem foldl_socketCall_none (es : List Effect) : es.foldl socketCall none = none := by
  induction es with
  | nil => rfl
  | cons e es ih =>
    rw [List.foldl_cons]
    exact ih

/-- Disconnecting from an address that is not connected fails. -/
theorem foldl_disconnect_absent {addrs : List Str} {endpoints : Finset Str} {a : Str} (ha : a ∈ addrs)
    (habsent : a ∉ endpoints) :
    (addrs.map (Effect.disconnect .subscriber)).foldl socketCall (some endpoints) = none := by
  induction addrs generalizing endpoints with
  | nil => cases ha
  | cons b addrs ih =>
    rw [List.map_cons, List.foldl_cons]
    simp only [socketCall]
    split_ifs with hb
    · have hne : a ≠ b := fun heq => habsent (heq ▸ hb)
      exact ih ((List.mem_cons.mp ha).resolve_left hne) fun hmem => habsent (Finset.mem_of_mem_erase hmem)
    · exact foldl_socketCall_none _

/-- Disconnecting from addresses that are connected: each goes once. -/
theorem foldl_disconnect {addrs : List Str} {endpoints : Finset Str} (h : ∀ a ∈ addrs, a ∈ endpoints) :
    (addrs.map (Effect.disconnect .subscriber)).foldl socketCall (some endpoints) =
      if addrs.Nodup then some (endpoints \ addrs.toFinset) else none := by
  induction addrs generalizing endpoints with
  | nil => simp
  | cons a addrs ih =>
    obtain ⟨ha, haddrs⟩ := List.forall_mem_cons.mp h
    rw [List.map_cons, List.foldl_cons]
    simp only [socketCall, if_pos ha]
    by_cases hmem : a ∈ addrs
    · rw [if_neg fun hnodup => (List.nodup_cons.mp hnodup).1 hmem]
      -- the second disconnect from the address fails
      exact foldl_disconnect_absent hmem (Finset.notMem_erase a endpoints)
    · rw [ih fun b hb => Finset.mem_erase.mpr ⟨fun heq => hmem (by rwa [← heq]), haddrs b hb⟩]
      have hnodup : (a :: addrs).Nodup ↔ addrs.Nodup := by simp [hmem]
      refine if_congr hnodup.symm (congrArg some ?_) rfl
      ext b
      simp only [Finset.mem_sdiff, Finset.mem_erase, List.mem_toFinset, List.mem_cons, not_or]
      tauto

end Calls

/-! ## Steps -/

section Steps

variable {x y : Wired} {e : WiredEvent}

theorem call_of_does {callback : NodeM Unit} {s' : NodeShared} {es : List Effect}
    (h : Does callback x.shared () s' es) : x.call callback = ⟨s', es.foldl socketCall x.endpoints⟩ := by
  obtain ⟨k, hk⟩ := h { state := x.shared } rfl rfl
  unfold Wired.call
  simp only [hk]
  rfl

/-- The socket is in step, and its endpoints are C strings. -/
def InStep (x : Wired) : Prop :=
  ∃ endpoints, x.endpoints = some endpoints ∧
    (∀ addr, addr ∈ endpoints ↔ x.shared.connections.hasAddress addr = true) ∧ ∀ addr ∈ endpoints, cStr addr = addr

theorem matches_mk {s : NodeShared} {E : Finset Str} :
    Wired.Matches ⟨s, some E⟩ ↔ ∀ addr, addr ∈ E ↔ s.connections.hasAddress addr = true := by
  constructor
  · rintro ⟨E', hE, hall⟩
    obtain rfl := Option.some.inj hE
    exact hall
  · exact fun hall => ⟨E, rfl, hall⟩

theorem not_matches_none (s : NodeShared) : ¬ Wired.Matches ⟨s, none⟩ := by
  rintro ⟨E, hE, -⟩
  cases hE

theorem hasAddress_addConnection (args : CallbackArgs) (s : NodeShared) (addr : Str) :
    (addConnection args s).connections.hasAddress addr = true ↔
      s.connections.hasAddress addr = true ∨ addr = args.addr := by
  simp only [TopicStorage.hasAddress_iff, addConnection, TopicStorage.known_addAddress, exists_or]
  exact or_congr_right ⟨fun ⟨_, _, _, _, _, _, h⟩ => h, fun h => ⟨_, _, _, rfl, rfl, rfl, h⟩⟩

/-- The entry with an address is of the node, or another has it too. -/
theorem hasAddress_iff_node (args : CallbackArgs) (s : NodeShared) (addr : Str) :
    s.connections.hasAddress addr = true ↔
      s.connections.Known args.topic args.pUuid args.nUuid addr ∨
        UsedBesidesNode s.connections args.topic args.pUuid args.nUuid addr := by
  rw [TopicStorage.hasAddress_iff]
  constructor
  · rintro ⟨u, r, m, hk⟩
    by_cases hthis : u = args.topic ∧ r = args.pUuid ∧ m = args.nUuid
    · obtain ⟨rfl, rfl, rfl⟩ := hthis
      exact .inl hk
    · exact .inr ⟨u, r, m, hk, hthis⟩
  · rintro (hk | ⟨u, r, m, hk, -⟩)
    · exact ⟨_, _, _, hk⟩
    · exact ⟨u, r, m, hk⟩

theorem mem_addrs_cell (s : TopicStorage) (t q addr : Str) :
    addr ∈ ((s.cell t q).map Address.addr).toFinset ↔ ∃ m, s.Known t q m addr := by
  rw [List.mem_toFinset, List.mem_map]
  constructor
  · rintro ⟨c, hc, rfl⟩
    exact ⟨c.nUuid, c, hc, rfl, rfl⟩
  · rintro ⟨m, c, hc, hca, -⟩
    exact ⟨c, hc, hca⟩

theorem hasAddress_withoutNode (args : CallbackArgs) (s : NodeShared) (addr : Str) :
    (withoutNode args (withoutRemote args s)).connections.hasAddress addr = true ↔
      UsedBesidesNode s.connections args.topic args.pUuid args.nUuid addr := by
  rw [TopicStorage.hasAddress_iff]
  exact exists_congr fun u => exists_congr fun r => exists_congr fun m =>
    TopicStorage.known_delAddressByNode _ _ _ _ _ _ _

theorem hasAddress_withoutProc (args : CallbackArgs) (s : NodeShared) (addr : Str) :
    (withoutProc args (withoutRemote args s)).connections.hasAddress addr = true ↔
      UsedBesidesProc s.connections args.pUuid addr := by
  rw [TopicStorage.hasAddress_iff]
  exact exists_congr fun u => exists_congr fun r => exists_congr fun m =>
    TopicStorage.known_delAddressesByProc _ _ _ _ _

/-- A callback that changes neither the connections nor the socket. -/
theorem inStep_of_same (hx : InStep x) (hconnections : y.shared.connections = x.shared.connections)
    (hendpoints : y.endpoints = x.endpoints) : InStep y := by
  obtain ⟨endpoints, hsome, hmem, hcStr⟩ := hx
  exact ⟨endpoints, hendpoints.trans hsome, fun addr => by rw [hmem, hconnections], hcStr⟩

theorem step_connection (hx : InStep x) {args : CallbackArgs} (hy : y = x.call (onNewConnection args)) :
    (KeepsSocket x.shared (.connection args) → InStep y) ∧
      (¬ KeepsSocket x.shared (.connection args) → ¬ y.Matches) := by
  subst hy
  by_cases hinterested : x.shared.Interested args.topic args.pUuid
  · obtain ⟨controls, hcontrols, hdoes⟩ := (does_onNewConnection x.shared args).1 hinterested
    rw [call_of_does hdoes]
    obtain ⟨endpoints, hsome, hmem, hcStr⟩ := hx
    have hcalls : ∀ E : Endpoints, (Effect.subscribe args.topic :: controls).foldl socketCall E = E := by
      intro E
      rw [List.foldl_cons, show socketCall E (.subscribe args.topic) = E by cases E <;> rfl]
      exact foldl_socketCall_controls (fun e he => ((hcontrols e).mp he).isControl) E
    rw [List.foldl_append, hcalls, hsome]
    by_cases hhas : x.shared.connections.hasAddress args.addr = true
    · -- the endpoint is connected already
      rw [if_pos hhas]
      refine ⟨fun _ => ⟨endpoints, rfl, fun addr => ?_, hcStr⟩, fun hbad => absurd ?_ hbad⟩
      · rw [hasAddress_addConnection, hmem]
        exact ⟨.inl, fun h => h.elim id fun heq => heq ▸ hhas⟩
      · intro _ hnot
        rw [hhas] at hnot
        cases hnot
    · rw [if_neg hhas]
      change (_ → InStep ⟨_, some (insert (cStr args.addr) endpoints)⟩) ∧
        (_ → ¬ Wired.Matches ⟨_, some (insert (cStr args.addr) endpoints)⟩)
      refine ⟨fun hkeeps => ?_, fun hbad hmatches => ?_⟩
      · have haddr := hkeeps hinterested (by simpa using hhas)
        rw [haddr]
        refine ⟨_, rfl, fun addr => ?_, fun addr h => ?_⟩
        · rw [hasAddress_addConnection, Finset.mem_insert, hmem]
          exact or_comm
        · rcases Finset.mem_insert.mp h with rfl | h
          · exact haddr
          · exact hcStr addr h
      · have hin := (matches_mk.mp hmatches args.addr).mpr
          ((hasAddress_addConnection args x.shared args.addr).mpr (.inr rfl))
        rcases Finset.mem_insert.mp hin with heq | hin
        · exact hbad fun _ _ => heq.symm
        · exact hhas ((hmem _).mp hin)
  · rw [call_of_does ((does_onNewConnection x.shared args).2 hinterested)]
    exact ⟨fun _ => inStep_of_same hx rfl rfl, fun hbad => absurd (fun h => absurd h hinterested) hbad⟩

theorem step_disconnection_node (hx : InStep x) {args : CallbackArgs} (habout : AboutNode args)
    (hy : y = x.call (onNewDisconnection args)) :
    (KeepsSocket x.shared (.disconnection args) → InStep y) ∧
      (¬ KeepsSocket x.shared (.disconnection args) → ¬ y.Matches) := by
  subst hy
  obtain ⟨hnone, hsome⟩ := does_onNewDisconnection_node (s := x.shared) habout
  dsimp only [KeepsSocket]
  rw [if_pos habout]
  cases hget : x.shared.connections.getAddress args.topic args.pUuid args.nUuid with
  | none =>
    rw [call_of_does (hnone hget)]
    exact ⟨fun _ => inStep_of_same hx rfl rfl, fun hbad => absurd (fun c hc => by cases hc) hbad⟩
  | some c =>
    rw [call_of_does (hsome c hget)]
    obtain ⟨endpoints, hendpoints, hmem, hcStr⟩ := hx
    -- the address of the node is connected
    have hknown : x.shared.connections.Known args.topic args.pUuid args.nUuid c.addr :=
      ⟨c, List.mem_of_find?_eq_some hget, rfl, by simpa using List.find?_some hget⟩
    have hc : c.addr ∈ endpoints := (hmem _).mpr ((TopicStorage.hasAddress_iff _ _).mpr ⟨_, _, _, hknown⟩)
    have hsocket : [Effect.disconnect .subscriber (cStr c.addr)].foldl socketCall x.endpoints =
        some (endpoints.erase c.addr) := by
      rw [List.foldl_cons, List.foldl_nil, hendpoints, hcStr _ hc]
      exact if_pos hc
    rw [hsocket]
    refine ⟨fun hkeeps => ⟨_, rfl, fun addr => ?_, fun addr h => hcStr addr (Finset.mem_of_mem_erase h)⟩,
      fun hbad hmatches => hbad ?_⟩
    · rw [hasAddress_withoutNode, Finset.mem_erase, hmem, hasAddress_iff_node args]
      constructor
      · rintro ⟨hne, hk | hused⟩
        · exact (hkeeps c rfl addr hk).mpr hne
        · exact hused
      · intro hused
        refine ⟨fun heq => ?_, .inr hused⟩
        subst heq
        exact (hkeeps c rfl _ hknown).mp hused rfl
    · rintro c' hc' addr hk
      cases hc'
      rw [← hasAddress_withoutNode, ← matches_mk.mp hmatches, Finset.mem_erase, hmem, hasAddress_iff_node args]
      exact and_iff_left (.inl hk)

theorem step_disconnection_proc (hx : InStep x) {args : CallbackArgs} (habout : ¬ AboutNode args)
    (hy : y = x.call (onNewDisconnection args)) :
    (KeepsSocket x.shared (.disconnection args) → InStep y) ∧
      (¬ KeepsSocket x.shared (.disconnection args) → ¬ y.Matches) := by
  subst hy
  obtain ⟨hnone, hsome⟩ := does_onNewDisconnection_proc (s := x.shared) habout
  dsimp only [KeepsSocket]
  rw [if_neg habout]
  cases htopic : x.shared.connections.hasTopic args.topic with
  | false =>
    rw [call_of_does (hnone htopic)]
    exact ⟨fun _ => inStep_of_same hx rfl rfl, fun hbad => absurd (fun h => by cases h) hbad⟩
  | true =>
    rw [call_of_does (hsome htopic)]
    obtain ⟨endpoints, hendpoints, hmem, hcStr⟩ := hx
    have hin : ∀ c ∈ x.shared.connections.cell args.topic args.pUuid, c.addr ∈ endpoints := fun c hc =>
      (hmem _).mpr ((TopicStorage.hasAddress_iff _ _).mpr ⟨_, _, _, c, hc, rfl, rfl⟩)
    have hmap : ((x.shared.connections.cell args.topic args.pUuid).map fun c =>
        Effect.disconnect .subscriber (cStr c.addr)) =
        ((x.shared.connections.cell args.topic args.pUuid).map Address.addr).map (Effect.disconnect .subscriber) := by
      rw [List.map_map]
      exact List.map_congr_left fun c hc => by rw [hcStr _ (hin c hc)]; rfl
    have haddr : ∀ a ∈ (x.shared.connections.cell args.topic args.pUuid).map Address.addr, a ∈ endpoints := by
      intro a ha
      obtain ⟨c, hc, rfl⟩ := List.mem_map.mp ha
      exact hin c hc
    rw [hmap, hendpoints, foldl_disconnect haddr]
    by_cases hnodup : ((x.shared.connections.cell args.topic args.pUuid).map Address.addr).Nodup
    · rw [if_pos hnodup]
      refine ⟨fun hkeeps => ⟨_, rfl, fun addr => ?_, fun addr h => hcStr addr (Finset.mem_sdiff.mp h).1⟩,
        fun hbad hmatches => hbad fun _ => ⟨hnodup, fun addr u m hk => ?_⟩⟩
      · rw [hasAddress_withoutProc, Finset.mem_sdiff, hmem, mem_addrs_cell, TopicStorage.hasAddress_iff]
        have hkeeps' := (hkeeps rfl).2
        constructor
        · rintro ⟨⟨u, r, m, hk⟩, hnot⟩
          by_cases hr : r = args.pUuid
          · subst hr
            exact (hkeeps' addr u m hk).mpr hnot
          · exact ⟨u, r, m, hk, hr⟩
        · rintro ⟨u, r, m, hk, hr⟩
          refine ⟨⟨u, r, m, hk⟩, fun ⟨m', hk'⟩ => ?_⟩
          exact (hkeeps' addr _ m' hk').mp ⟨u, r, m, hk, hr⟩ ⟨m', hk'⟩
      · rw [← hasAddress_withoutProc, ← matches_mk.mp hmatches, Finset.mem_sdiff, hmem, mem_addrs_cell,
          TopicStorage.hasAddress_iff]
        exact and_iff_right ⟨u, _, m, hk⟩
    · rw [if_neg hnodup]
      exact ⟨fun hkeeps => absurd (hkeeps rfl).1 hnodup, fun _ => not_matches_none _⟩

/-- A callback keeps the socket in step exactly under the condition. -/
theorem step_inStep (hx : InStep x) (h : x.step e = some y) :
    (KeepsSocket x.shared e → InStep y) ∧ (¬ KeepsSocket x.shared e → ¬ y.Matches) := by
  cases e with
  | connection args => exact step_connection hx (Option.some.inj h).symm
  | disconnection args =>
    by_cases habout : AboutNode args
    · exact step_disconnection_node hx habout (Option.some.inj h).symm
    · exact step_disconnection_proc hx habout (Option.some.inj h).symm
  | subscriptions handlers =>
    obtain rfl := Option.some.inj h
    exact ⟨fun _ => inStep_of_same hx rfl rfl, fun hbad => absurd trivial hbad⟩

theorem isSome_step (x : Wired) (e : WiredEvent) : (x.step e).isSome := by
  cases e <;> rfl

/-- **The subscriber socket and the table**: the socket is connected to the addresses of the connections, and to no
other, after every callback of a sequence, exactly when each of them meets the condition. -/
theorem subscriber_socket_matches_iff (shared : NodeShared) (es : List WiredEvent) :
    Always Wired.step (fun _ x => x.Matches) (Wired.start shared) es ↔
      Along Wired.step (fun _ x e => KeepsSocket x.shared e) (Wired.start shared) es := by
  obtain ⟨x, hx⟩ := Option.isSome_iff_exists.mp (isSome_run_of_total isSome_step (Wired.start shared) es)
  refine always_iff_along (fun _ x => InStep x) (fun _ => True) ⟨∅, rfl, fun addr => ?_, by simp⟩ ?_ ?_ ?_
    (fun _ _ => trivial) hx
  · refine iff_of_false (Finset.notMem_empty addr) fun hhas => ?_
    obtain ⟨t, q, n, c, hc, -⟩ := (TopicStorage.hasAddress_iff _ _).mp hhas
    rw [show (Wired.start shared).shared.connections = Table.empty from rfl, Table.cell_empty] at hc
    cases hc
  · rintro pre x ⟨endpoints, hsome, hmem, -⟩
    exact ⟨endpoints, hsome, hmem⟩
  · exact fun pre x e y _ hx hstep hgood => (step_inStep hx hstep).1 hgood
  · exact fun pre x e y _ hx hstep hbad => (step_inStep hx hstep).2 hbad

/-- A subscriber of 's' and 't' connects to a process that publishes both, which then unadvertises 's'. -/
def sharedAddress : List WiredEvent :=
  let handlers : HandlerStorage SubscriptionHandler := Table.empty
  [.subscriptions ((handlers.addHandler (ascii ['s']) [1] ⟨[9], [1], true⟩).addHandler (ascii ['t']) [1]
      ⟨[9], [1], true⟩),
    .connection ⟨ascii ['s'], [7, 1], [7, 2], [7], [8], .all⟩,
    .connection ⟨ascii ['t'], [7, 1], [7, 2], [7], [8], .all⟩,
    .disconnection ⟨ascii ['s'], [7, 1], [7, 2], [7], [8], .all⟩]

/-- The data of 't' is cut: its connection is there, but the endpoint is not connected. -/
theorem shared_address_cut :
    ∃ x, run Wired.step (Wired.start (Process.sample ⟨65, by decide⟩)) sharedAddress = some x ∧ ¬ x.Matches := by
  have hcut : (run Wired.step (Wired.start (Process.sample ⟨65, by decide⟩)) sharedAddress).any (fun x =>
      x.endpoints = some ∅ ∧ x.shared.connections.hasAddress [7, 1] = true) = true := by decide +kernel
  obtain ⟨x, hx, hempty, hhas⟩ := exists_of_any hcut
  refine ⟨x, hx, fun ⟨endpoints, hsome, hmem⟩ => ?_⟩
  obtain rfl := Option.some.inj (hempty.symm.trans hsome)
  exact Finset.notMem_empty _ ((hmem [7, 1]).mpr hhas)

end Steps

end NodeShared

end IgnTransport
