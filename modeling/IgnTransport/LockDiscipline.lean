import Mathlib
import IgnTransport.Lib.Locks

/-!
# IgnTransport.LockDiscipline — who acquires which mutex

`Discovery` and `NodeShared` have a re-entrant mutex each, that guards their tables, and one more for the flag that ends
their threads.  Every function is the list of what it does to the mutexes and to the tables; the callbacks of the user
run under the mutexes of the function that runs them, and may call the functions of a node.

* `no_deadlock`, `deadlock_reachable`: the order is the discovery service first.  The lists of topics and services are
  read in the other order, and so is everything that a callback does to the discovery service.
* `no_race`, `race_reachable`: `Unsubscribe` and `PrintCurrentState` read the tables of the discovery service without
  its mutex.
-/

namespace IgnTransport

open Lib Threads

namespace LockDiscipline

/-! ## Functions -/

section Functions

inductive Mutex where
  | discovery
  | shared
  | discoveryExit
  | sharedExit
  deriving DecidableEq, Repr

abbrev Actions := List (LockAction Mutex)

def reads (m : Mutex) : LockAction Mutex := .access m false

def writes (m : Mutex) : LockAction Mutex := .access m true

/-- A `lock_guard` and its block. -/
def locked (m : Mutex) (block : Actions) : Actions := .acquire m :: block ++ [.release m]

/-- `SendPendingRemoteReqs`; the service may be known. -/
def sendPendingRemoteReqs (known : Bool) : Actions :=
  reads .discovery :: if known then [reads .shared, writes .shared] else []

/-- A callback of the discovery service. -/
inductive Notice where
  | onNewConnection (interested : Bool)
  | onNewDisconnection (connected : Bool)
  | onNewSrvConnection (isNew known : Bool)
  | onNewSrvDisconnection
  deriving DecidableEq, Repr

def Notice.actions : Notice → Actions
  | .onNewConnection interested => locked .shared <|
      -- Check if we are interested in this topic.
      reads .shared :: if interested then [reads .shared, writes .shared, reads .shared] else []
  | .onNewDisconnection connected => locked .shared <|
      writes .shared :: reads .shared :: if connected then [writes .shared] else []
  | .onNewSrvConnection isNew known => locked .shared <|
      reads .shared :: (if isNew then [writes .shared] else []) ++ sendPendingRemoteReqs known
  | .onNewSrvDisconnection => locked .shared [writes .shared]

/-- `Discovery::Advertise`. -/
def advertise : Actions := locked .discovery [writes .discovery]

/-- `Discovery::Unadvertise`; the topic may be advertised by the node. -/
def unadvertise (stored : Bool) : Actions :=
  locked .discovery (reads .discovery :: if stored then [writes .discovery] else [])

/-- `Discover`, and the callbacks that it runs. -/
def discover (notices : List Notice) : Actions :=
  locked .discovery (reads .discovery :: notices.flatMap Notice.actions)

/-- How a request goes out: to a known responder, or after `Discover`. -/
inductive Reach where
  | known
  | unknown (notices : List Notice)
  deriving DecidableEq, Repr

def Reach.actions : Reach → Actions
  | .known => sendPendingRemoteReqs true
  | .unknown notices => discover notices

/-- A function of a node, on a valid topic. -/
inductive Call where
  | subscribe (notices : List Notice)
  | unsubscribe
  | advertise
  | unadvertise (stored : Bool)
  | advertiseSrv
  | unadvertiseSrv (stored : Bool)
  /-- `AdvertisedTopics`, `SubscribedTopics`, `AdvertisedServices`, or `Publish` on a topic that is not advertised. -/
  | peek
  /-- `Publish`, and the functions that the local callbacks call. -/
  | publish (callbacks : List Call)
  /-- `Request` when the responder is in this process, with what its callback and that of the requester call. -/
  | requestLocal (serve notify : List Call)
  | requestRemote (reach : Reach)
  /-- The blocking `Request`. -/
  | callLocal (serve : List Call)
  | callRemote (reach : Reach) (wakeups : ℕ)
  /-- `GetTopicList` or `GetServiceList`. -/
  | list

mutual

def Call.actions : Call → Actions
  | .subscribe notices => locked .discovery (locked .shared (writes .shared :: discover notices))
  | .unsubscribe => locked .shared [
      writes .shared,
      reads .shared,
      -- `GetMsgAddresses` does not lock.
      reads .discovery]
  | .advertise | .advertiseSrv =>
    locked .discovery (locked .shared (writes .shared :: LockDiscipline.advertise))
  | .unadvertise stored | .unadvertiseSrv stored =>
    locked .discovery (locked .shared (writes .shared :: LockDiscipline.unadvertise stored))
  | .peek => locked .shared [reads .shared]
  | .publish callbacks => locked .shared (reads .shared :: Call.allActions callbacks ++ [reads .shared])
  | .requestLocal serve notify =>
    locked .discovery (locked .shared (reads .shared :: Call.allActions serve ++ Call.allActions notify))
  | .requestRemote reach =>
    locked .discovery (locked .shared (reads .shared :: writes .shared :: reads .discovery :: reach.actions))
  | .callLocal serve => .acquire .discovery :: .acquire .shared :: reads .shared :: Call.allActions serve ++
      [.release .discovery, .release .shared]
  | .callRemote reach wakeups => .acquire .discovery :: .acquire .shared :: reads .shared :: writes .shared ::
      reads .discovery :: reach.actions ++ .release .discovery ::
        -- `WaitUntil`
        (List.replicate wakeups [.release .shared, .acquire .shared]).flatten ++ [reads .shared, .release .shared]
  | .list => locked .shared (locked .discovery [reads .discovery])

def Call.allActions : List Call → Actions
  | [] => []
  | c :: cs => c.actions ++ Call.allActions cs

end

/-- What the reception thread of `NodeShared` receives, with what the callbacks of the user call. -/
inductive Message where
  | msgUpdate (callbacks : List Call)
  | controlUpdate
  | srvRequest (serve : List Call)
  | srvResponse (notify : List Call)

def Message.actions : Message → Actions
  | .msgUpdate callbacks => locked .shared (reads .shared :: Call.allActions callbacks)
  | .controlUpdate => locked .shared [writes .shared]
  | .srvRequest serve => locked .shared (reads .shared :: Call.allActions serve ++ [writes .shared])
  | .srvResponse notify => locked .shared (reads .shared :: Call.allActions notify ++ [writes .shared])

/-- What the threads do, each in turns. -/
inductive Task where
  | call (c : Call)
  | receive (m : Message)
  /-- `DispatchDiscoveryMsg`; our own messages are discarded. -/
  | dispatch (notices : List Notice)
  | discard
  /-- `PrintCurrentState`, in a verbose discovery service. -/
  | print
  | heartbeat
  /-- A turn of `RunActivityTask`: the processes that have expired. -/
  | sweep (expired : List Bool)
  | setCallback
  /-- A destructor tells the threads to terminate, or a thread looks whether it is time to exit. -/
  | stop (shared : Bool)
  | checkExit (shared : Bool)

def Task.actions : Task → Actions
  | .call c => c.actions
  | .receive m => m.actions
  | .dispatch notices =>
    locked .discovery (writes .discovery :: notices.flatMap Notice.actions ++ [writes .discovery])
  | .discard => locked .discovery [reads .discovery]
  | .print => [reads .discovery]
  | .heartbeat => locked .discovery [reads .discovery]
  | .sweep expired => locked .discovery (reads .discovery :: expired.flatMap fun connected =>
      writes .discovery :: (Notice.onNewDisconnection connected).actions ++ [writes .discovery])
  | .setCallback => locked .discovery [writes .discovery]
  | .stop shared => if shared then locked .sharedExit [writes .sharedExit]
      else locked .discoveryExit [writes .discoveryExit]
  | .checkExit shared => if shared then locked .sharedExit [reads .sharedExit]
      else locked .discoveryExit [reads .discoveryExit]

end Functions

/-! ## What is held afterwards -/

section Held

variable {h : Mutex → ℕ} {m : Mutex} {block as : Actions}

@[simp] theorem heldAfter_nil : heldAfter h ([] : Actions) = h := rfl

@[simp] theorem heldAfter_reads : heldAfter h (reads m :: as) = heldAfter h as := rfl

@[simp] theorem heldAfter_writes : heldAfter h (writes m :: as) = heldAfter h as := rfl

theorem heldAfter_locked (hblock : heldAfter (holdAfter h (.acquire m)) block = holdAfter h (.acquire m)) :
    heldAfter h (locked m block) = h := heldAfter_block hblock

@[simp] theorem heldAfter_sendPendingRemoteReqs (known : Bool) : heldAfter h (sendPendingRemoteReqs known) = h := by
  cases known <;> rfl

@[simp] theorem Notice.heldAfter_actions (n : Notice) : heldAfter h n.actions = h := by
  cases n with
  | onNewConnection interested => exact heldAfter_locked (by cases interested <;> rfl)
  | onNewDisconnection connected => exact heldAfter_locked (by cases connected <;> rfl)
  | onNewSrvConnection isNew known => exact heldAfter_locked (by cases isNew <;> cases known <;> rfl)
  | onNewSrvDisconnection => exact heldAfter_locked rfl

@[simp] theorem heldAfter_notices (notices : List Notice) : heldAfter h (notices.flatMap Notice.actions) = h :=
  heldAfter_flatMap fun n _ => n.heldAfter_actions

@[simp] theorem heldAfter_advertise : heldAfter h advertise = h := heldAfter_locked rfl

@[simp] theorem heldAfter_unadvertise (stored : Bool) : heldAfter h (unadvertise stored) = h :=
  heldAfter_locked (by cases stored <;> rfl)

@[simp] theorem heldAfter_discover (notices : List Notice) : heldAfter h (discover notices) = h :=
  heldAfter_locked (by simp)

@[simp] theorem Reach.heldAfter_actions (reach : Reach) : heldAfter h reach.actions = h := by
  cases reach with
  | known => rfl
  | unknown notices => exact heldAfter_discover notices

/-- A thread that waits gives its mutex back, and gets it again. -/
theorem heldAfter_wakeups (hm : 0 < h m) (wakeups : ℕ) :
    heldAfter h (List.replicate wakeups [.release m, .acquire m]).flatten = h := by
  rw [← List.flatMap_id]
  refine heldAfter_flatMap fun wakeup hwakeup => ?_
  rw [List.eq_of_mem_replicate hwakeup]
  change Function.update (Function.update h m (h m - 1)) m (Function.update h m (h m - 1) m + 1) = h
  rw [Function.update_idem, Function.update_self, Nat.sub_add_cancel hm, Function.update_eq_self]

/-- The blocking `Request` gives the mutexes back in the order in which it acquired them. -/
theorem holdAfter_release_release (h : Mutex → ℕ) :
    holdAfter (holdAfter (holdAfter (holdAfter h (.acquire .discovery)) (.acquire .shared)) (.release .discovery))
      (.release .shared) = h := by
  funext m
  cases m <;> simp [holdAfter, Function.update]

theorem heldAfter_callLocal (has : ∀ h, heldAfter h as = h) :
    heldAfter h (.acquire .discovery :: .acquire .shared :: reads .shared :: as ++
      [.release .discovery, .release .shared]) = h := by
  rw [heldAfter_append]
  change heldAfter (heldAfter _ as) _ = h
  rw [has]
  exact holdAfter_release_release h

theorem heldAfter_callRemote (has : ∀ h, heldAfter h as = h) (wakeups : ℕ) :
    heldAfter h (.acquire .discovery :: .acquire .shared :: reads .shared :: writes .shared :: reads .discovery ::
      as ++ .release .discovery :: (List.replicate wakeups [.release .shared, .acquire .shared]).flatten ++
        [reads .shared, .release .shared]) = h := by
  rw [heldAfter_append, heldAfter_append]
  change heldAfter (heldAfter (holdAfter (heldAfter _ as) (.release .discovery)) _) _ = h
  rw [has, heldAfter_wakeups (Nat.succ_pos (h .shared))]
  exact holdAfter_release_release h

mutual

/-- **A function gives back what it takes.** -/
theorem Call.heldAfter_actions (h : Mutex → ℕ) : (c : Call) → heldAfter h c.actions = h
  | .subscribe notices => heldAfter_locked (heldAfter_locked (heldAfter_discover notices))
  | .unsubscribe => heldAfter_locked rfl
  | .advertise | .advertiseSrv => heldAfter_locked (heldAfter_locked heldAfter_advertise)
  | .unadvertise stored | .unadvertiseSrv stored =>
    heldAfter_locked (heldAfter_locked (heldAfter_unadvertise stored))
  | .peek => heldAfter_locked rfl
  | .publish callbacks => by
    rw [Call.actions]
    refine heldAfter_locked ?_
    rw [heldAfter_append]
    exact Call.heldAfter_allActions _ callbacks
  | .requestLocal serve notify => by
    rw [Call.actions]
    refine heldAfter_locked (heldAfter_locked ?_)
    rw [heldAfter_append, heldAfter_reads, Call.heldAfter_allActions _ serve, Call.heldAfter_allActions _ notify]
  | .requestRemote reach => heldAfter_locked (heldAfter_locked reach.heldAfter_actions)
  | .callLocal serve => by
    rw [Call.actions]
    exact heldAfter_callLocal fun h => Call.heldAfter_allActions h serve
  | .callRemote reach wakeups => by
    rw [Call.actions]
    exact heldAfter_callRemote (fun _ => reach.heldAfter_actions) wakeups
  | .list => heldAfter_locked (heldAfter_locked rfl)

theorem Call.heldAfter_allActions (h : Mutex → ℕ) : (cs : List Call) → heldAfter h (Call.allActions cs) = h
  | [] => by
    rw [Call.allActions]
    rfl
  | c :: cs => by
    rw [Call.allActions, heldAfter_append, Call.heldAfter_actions h c, Call.heldAfter_allActions h cs]

end

end Held

/-! ## Which functions are safe -/

section Safe

/-- The order of the mutexes. -/
def before (m m' : Mutex) : Prop := m = .discovery ∧ m' = .shared

/-- The function acquires the mutex of the discovery service before anything else. -/
def Call.first : Call → Bool
  | .unsubscribe | .peek | .publish _ | .list => false
  | _ => true

mutual

/-- The function never acquires the mutex of the discovery service. -/
def Call.sharedOnly : Call → Bool
  | .unsubscribe | .peek => true
  | .publish callbacks => Call.allSharedOnly callbacks
  | _ => false

def Call.allSharedOnly : List Call → Bool
  | [] => true
  | c :: cs => c.sharedOnly && Call.allSharedOnly cs

end

mutual

/-- The function reads and writes the tables of the discovery service under their mutex. -/
def Call.covered : Call → Bool
  | .unsubscribe => false
  | .publish callbacks => Call.allCovered callbacks
  | _ => true

def Call.allCovered : List Call → Bool
  | [] => true
  | c :: cs => c.covered && Call.allCovered cs

end

/-- The function acquires the mutexes in their order, if nothing is held. -/
def Call.ordered (c : Call) : Bool := c.first || c.sharedOnly

def Message.callbacks : Message → List Call
  | .msgUpdate callbacks => callbacks
  | .controlUpdate => []
  | .srvRequest serve => serve
  | .srvResponse notify => notify

def Task.ordered : Task → Bool
  | .call c => c.ordered
  | .receive m => Call.allSharedOnly m.callbacks
  | _ => true

/-- The task acquires the mutex of `NodeShared` while it holds that of the discovery service only. -/
def Task.crosses : Task → Bool
  | .call c => c.first
  | .dispatch notices => !notices.isEmpty
  | .sweep expired => !expired.isEmpty
  | _ => false

def Task.covered : Task → Bool
  | .call c => c.covered
  | .receive m => Call.allCovered m.callbacks
  | .print => false
  | _ => true

end Safe

/-! ## What all functions keep to -/

section Usual

/-- A function goes against the order of the mutexes only where it acquires the mutex of the discovery service, and
touches data without its mutex only where it touches the tables of the discovery service. -/
def Usual (p q : Prop) (h : Mutex → ℕ) (a : LockAction Mutex) : Prop :=
  (Ordered before h a ∨ ¬ p ∧ a = .acquire .discovery ∧ 0 < h .shared ∧ h .discovery = 0) ∧
    (Guarded h a ∨ ¬ q ∧ ∃ w, a = .access .discovery w)

/-- Only the mutexes of the tables are held. -/
def NoExit (h : Mutex → ℕ) : Prop := h .discoveryExit = 0 ∧ h .sharedExit = 0

variable {p q : Prop} {h : Mutex → ℕ} {block as : Actions}

theorem ordered_acquire_shared (hx : NoExit h) : Ordered before h (.acquire .shared) := by
  by_cases hs : 0 < h .shared
  · exact .inl hs
  · refine .inr fun m hm => ?_
    cases m with
    | discovery => exact ⟨rfl, rfl⟩
    | shared => exact absurd hm hs
    | discoveryExit => exact absurd hm (by rw [hx.1]; exact Nat.lt_irrefl 0)
    | sharedExit => exact absurd hm (by rw [hx.2]; exact Nat.lt_irrefl 0)

theorem ordered_acquire_discovery (hx : NoExit h) :
    Ordered before h (.acquire .discovery) ↔ 0 < h .discovery ∨ h .shared = 0 := by
  constructor
  · rintro (hd | hall)
    · exact .inl hd
    · refine .inr (Nat.eq_zero_of_not_pos fun hs => ?_)
      cases (hall .shared hs).1
  · rintro (hd | hs)
    · exact .inl hd
    · by_cases hd : 0 < h .discovery
      · exact .inl hd
      · refine .inr fun m hm => ?_
        cases m with
        | discovery => exact absurd hm hd
        | shared => exact absurd hm (by rw [hs]; exact Nat.lt_irrefl 0)
        | discoveryExit => exact absurd hm (by rw [hx.1]; exact Nat.lt_irrefl 0)
        | sharedExit => exact absurd hm (by rw [hx.2]; exact Nat.lt_irrefl 0)

theorem usual_acquire_shared (hx : NoExit h) : Usual p q h (.acquire .shared) :=
  ⟨.inl (ordered_acquire_shared hx), .inl trivial⟩

theorem usual_acquire_discovery (hx : NoExit h) (hp : p → 0 < h .discovery ∨ h .shared = 0) :
    Usual p q h (.acquire .discovery) := by
  refine ⟨?_, .inl trivial⟩
  by_cases hin : 0 < h .discovery ∨ h .shared = 0
  · exact .inl ((ordered_acquire_discovery hx).mpr hin)
  · obtain ⟨hd, hs⟩ := not_or.mp hin
    exact .inr ⟨fun hp' => hin (hp hp'), rfl, Nat.pos_of_ne_zero hs, Nat.eq_zero_of_not_pos hd⟩

theorem usual_release (m : Mutex) : Usual p q h (.release m) := ⟨.inl trivial, .inl trivial⟩

theorem usual_shared (hs : 0 < h .shared) (w : Bool) : Usual p q h (.access .shared w) := ⟨.inl trivial, .inl hs⟩

theorem usual_discovery (hq : q → 0 < h .discovery) (w : Bool) : Usual p q h (.access .discovery w) := by
  refine ⟨.inl trivial, ?_⟩
  by_cases hd : 0 < h .discovery
  · exact .inl hd
  · exact .inr ⟨fun hq' => hd (hq hq'), w, rfl⟩

theorem NoExit.acquire_discovery (hx : NoExit h) : NoExit (holdAfter h (.acquire .discovery)) := hx

theorem NoExit.acquire_shared (hx : NoExit h) : NoExit (holdAfter h (.acquire .shared)) := hx

theorem usual_locked_shared (hx : NoExit h)
    (hheld : heldAfter (holdAfter h (.acquire .shared)) block = holdAfter h (.acquire .shared))
    (hblock : Obeys (Usual p q) (holdAfter h (.acquire .shared)) block) :
    Obeys (Usual p q) h (locked .shared block) :=
  (obeys_block hheld).mpr ⟨usual_acquire_shared hx, hblock, usual_release .shared⟩

theorem usual_locked_discovery (hx : NoExit h) (hp : p → 0 < h .discovery ∨ h .shared = 0)
    (hheld : heldAfter (holdAfter h (.acquire .discovery)) block = holdAfter h (.acquire .discovery))
    (hblock : Obeys (Usual p q) (holdAfter h (.acquire .discovery)) block) :
    Obeys (Usual p q) h (locked .discovery block) :=
  (obeys_block hheld).mpr ⟨usual_acquire_discovery hx hp, hblock, usual_release .discovery⟩

theorem usual_sendPendingRemoteReqs (hs : 0 < h .shared) (hq : q → 0 < h .discovery) (known : Bool) :
    Obeys (Usual p q) h (sendPendingRemoteReqs known) := by
  refine ⟨⟨trivial, usual_discovery hq false⟩, ?_⟩
  cases known with
  | false => trivial
  | true => exact ⟨⟨trivial, usual_shared hs false⟩, ⟨trivial, usual_shared hs true⟩, trivial⟩

theorem Notice.usual (hx : NoExit h) (hq : q → 0 < h .discovery) (n : Notice) : Obeys (Usual p q) h n.actions := by
  have hs : 0 < holdAfter h (.acquire .shared) .shared := Nat.succ_pos (h .shared)
  cases n with
  | onNewConnection interested =>
    refine usual_locked_shared hx (by cases interested <;> rfl) ⟨⟨trivial, usual_shared hs false⟩, ?_⟩
    cases interested with
    | false => trivial
    | true =>
      exact ⟨⟨trivial, usual_shared hs false⟩, ⟨trivial, usual_shared hs true⟩, ⟨trivial, usual_shared hs false⟩,
        trivial⟩
  | onNewDisconnection connected =>
    refine usual_locked_shared hx (by cases connected <;> rfl)
      ⟨⟨trivial, usual_shared hs true⟩, ⟨trivial, usual_shared hs false⟩, ?_⟩
    cases connected with
    | false => trivial
    | true => exact ⟨⟨trivial, usual_shared hs true⟩, trivial⟩
  | onNewSrvConnection isNew known =>
    refine usual_locked_shared hx (by cases isNew <;> cases known <;> rfl) ⟨⟨trivial, usual_shared hs false⟩, ?_⟩
    refine obeys_append.mpr ⟨?_, ?_⟩
    · cases isNew with
      | false => trivial
      | true => exact ⟨⟨trivial, usual_shared hs true⟩, trivial⟩
    · cases isNew <;> exact usual_sendPendingRemoteReqs hs hq known
  | onNewSrvDisconnection =>
    exact usual_locked_shared hx rfl ⟨⟨trivial, usual_shared hs true⟩, trivial⟩

theorem usual_notices (hx : NoExit h) (hq : q → 0 < h .discovery) (notices : List Notice) :
    Obeys (Usual p q) h (notices.flatMap Notice.actions) :=
  (obeys_flatMap fun n _ => n.heldAfter_actions).mpr fun n _ => n.usual hx hq

theorem usual_discover (hx : NoExit h) (hp : p → 0 < h .discovery ∨ h .shared = 0) (notices : List Notice) :
    Obeys (Usual p q) h (discover notices) := by
  have hd : 0 < holdAfter h (.acquire .discovery) .discovery := Nat.succ_pos (h .discovery)
  exact usual_locked_discovery hx hp (heldAfter_notices notices)
    ⟨⟨trivial, usual_discovery (fun _ => hd) false⟩, usual_notices hx.acquire_discovery (fun _ => hd) notices⟩

theorem usual_advertise (hx : NoExit h) (hp : p → 0 < h .discovery ∨ h .shared = 0) :
    Obeys (Usual p q) h advertise :=
  usual_locked_discovery hx hp rfl
    ⟨⟨trivial, usual_discovery (fun _ => Nat.succ_pos (h .discovery)) true⟩, trivial⟩

theorem usual_unadvertise (hx : NoExit h) (hp : p → 0 < h .discovery ∨ h .shared = 0) (stored : Bool) :
    Obeys (Usual p q) h (unadvertise stored) := by
  have hd : 0 < holdAfter h (.acquire .discovery) .discovery := Nat.succ_pos (h .discovery)
  refine usual_locked_discovery hx hp (by cases stored <;> rfl)
    ⟨⟨trivial, usual_discovery (fun _ => hd) false⟩, ?_⟩
  cases stored with
  | false => trivial
  | true => exact ⟨⟨trivial, usual_discovery (fun _ => hd) true⟩, trivial⟩

theorem Reach.usual (hx : NoExit h) (hd : 0 < h .discovery) (hs : 0 < h .shared) (reach : Reach) :
    Obeys (Usual p q) h reach.actions := by
  cases reach with
  | known => exact usual_sendPendingRemoteReqs hs (fun _ => hd) true
  | unknown notices => exact usual_discover hx (fun _ => .inl hd) notices

theorem usual_wakeups (hx : NoExit h) (hs : 0 < h .shared) (wakeups : ℕ) :
    Obeys (Usual p q) h (List.replicate wakeups [.release .shared, .acquire .shared]).flatten := by
  induction wakeups with
  | zero => trivial
  | succ n ih =>
    rw [List.replicate_succ, List.flatten_cons, obeys_append]
    refine ⟨⟨⟨hs, usual_release .shared⟩, ⟨trivial, usual_acquire_shared hx⟩, trivial⟩, ?_⟩
    have hheld : heldAfter h [.release .shared, .acquire .shared] = h := by
      have hone := heldAfter_wakeups hs 1
      rwa [List.replicate_one, List.flatten_singleton] at hone
    rw [hheld]
    exact ih

/-- A function that acquires both mutexes. -/
theorem usual_locked_both (hx : NoExit h) (hp : p → 0 < h .discovery ∨ h .shared = 0)
    (hheld : ∀ h, heldAfter h block = h)
    (hblock : ∀ h, NoExit h → 0 < h .discovery → 0 < h .shared → Obeys (Usual p q) h block) :
    Obeys (Usual p q) h (locked .discovery (locked .shared block)) :=
  usual_locked_discovery hx hp (heldAfter_locked (hheld _)) <| usual_locked_shared hx.acquire_discovery (hheld _) <|
    hblock _ hx.acquire_discovery.acquire_shared (Nat.succ_pos (h .discovery)) (Nat.succ_pos (h .shared))

theorem usual_callLocal (hx : NoExit h) (hp : p → 0 < h .discovery ∨ h .shared = 0)
    (hheld : ∀ h, heldAfter h as = h)
    (has : ∀ h, NoExit h → 0 < h .discovery → Obeys (Usual p q) h as) :
    Obeys (Usual p q) h (.acquire .discovery :: .acquire .shared :: reads .shared :: as ++
      [.release .discovery, .release .shared]) := by
  have hd : 0 < holdAfter (holdAfter h (.acquire .discovery)) (.acquire .shared) .discovery :=
    Nat.succ_pos (h .discovery)
  have hs : 0 < holdAfter (holdAfter h (.acquire .discovery)) (.acquire .shared) .shared := Nat.succ_pos (h .shared)
  rw [obeys_append]
  refine ⟨⟨⟨trivial, usual_acquire_discovery hx hp⟩, ⟨trivial, usual_acquire_shared hx.acquire_discovery⟩,
    ⟨trivial, usual_shared hs false⟩, has _ hx hd⟩, ?_⟩
  change Obeys (Usual p q) (heldAfter _ as) _
  rw [hheld]
  exact ⟨⟨hd, usual_release .discovery⟩, ⟨hs, usual_release .shared⟩, trivial⟩

theorem usual_callRemote (hx : NoExit h) (hp : p → 0 < h .discovery ∨ h .shared = 0)
    (hheld : ∀ h, heldAfter h as = h)
    (has : ∀ h, NoExit h → 0 < h .discovery → 0 < h .shared → Obeys (Usual p q) h as) (wakeups : ℕ) :
    Obeys (Usual p q) h (.acquire .discovery :: .acquire .shared :: reads .shared :: writes .shared ::
      reads .discovery :: as ++ .release .discovery ::
        (List.replicate wakeups [.release .shared, .acquire .shared]).flatten ++
          [reads .shared, .release .shared]) := by
  have hd : 0 < holdAfter (holdAfter h (.acquire .discovery)) (.acquire .shared) .discovery :=
    Nat.succ_pos (h .discovery)
  have hs : 0 < holdAfter (holdAfter h (.acquire .discovery)) (.acquire .shared) .shared := Nat.succ_pos (h .shared)
  have hx' : NoExit (holdAfter (holdAfter h (.acquire .discovery)) (.acquire .shared)) := hx
  rw [obeys_append, obeys_append, heldAfter_append]
  refine ⟨⟨⟨⟨trivial, usual_acquire_discovery hx hp⟩, ⟨trivial, usual_acquire_shared hx.acquire_discovery⟩,
    ⟨trivial, usual_shared hs false⟩, ⟨trivial, usual_shared hs true⟩, ⟨trivial, usual_discovery (fun _ => hd) false⟩,
    has _ hx' hd hs⟩, ?_⟩, ?_⟩
  · change Obeys (Usual p q) (heldAfter _ as) _
    rw [hheld]
    exact ⟨⟨hd, usual_release .discovery⟩, usual_wakeups (by exact hx) (by exact hs) wakeups⟩
  · change Obeys (Usual p q) (heldAfter (holdAfter (heldAfter _ as) (.release .discovery)) _) _
    rw [hheld, heldAfter_wakeups]
    · exact ⟨⟨trivial, usual_shared (by exact hs) false⟩, ⟨hs, usual_release .shared⟩, trivial⟩
    · exact hs

theorem heldAfter_callbacks {callbacks : List Call} (hrest : ∀ h, heldAfter h as = h) :
    heldAfter h (reads .shared :: Call.allActions callbacks ++ as) = h := by
  rw [heldAfter_append, heldAfter_reads]
  exact (hrest _).trans (Call.heldAfter_allActions h callbacks)

/-- A function that runs callbacks of the user. -/
theorem obeys_callbacks {allowed : (Mutex → ℕ) → LockAction Mutex → Prop} {callbacks : List Call}
    (hrest : ∀ h, heldAfter h as = h) :
    Obeys allowed h (locked .shared (reads .shared :: Call.allActions callbacks ++ as)) ↔
      allowed h (.acquire .shared) ∧ ((allowed (holdAfter h (.acquire .shared)) (reads .shared) ∧
        Obeys allowed (holdAfter h (.acquire .shared)) (Call.allActions callbacks)) ∧
          Obeys allowed (holdAfter h (.acquire .shared)) as) ∧
            allowed (holdAfter h (.acquire .shared)) (.release .shared) := by
  have hcallbacks : heldAfter (holdAfter h (.acquire .shared)) (reads .shared :: Call.allActions callbacks) =
      holdAfter h (.acquire .shared) := Call.heldAfter_allActions _ callbacks
  rw [locked, obeys_block (heldAfter_callbacks hrest), obeys_append, hcallbacks]
  constructor
  · rintro ⟨hacquire, ⟨⟨⟨-, hread⟩, hall⟩, has⟩, hrelease⟩
    exact ⟨hacquire, ⟨⟨hread, hall⟩, has⟩, hrelease⟩
  · rintro ⟨hacquire, ⟨⟨hread, hall⟩, has⟩, hrelease⟩
    exact ⟨hacquire, ⟨⟨⟨trivial, hread⟩, hall⟩, has⟩, hrelease⟩

theorem usual_callbacks {callbacks : List Call} (hx : NoExit h) (hrest : ∀ h, heldAfter h as = h)
    (has : ∀ h, 0 < h .shared → Obeys (Usual p q) h as)
    (hall : ∀ h', NoExit h' → h' .discovery = h .discovery → Obeys (Usual p q) h' (Call.allActions callbacks)) :
    Obeys (Usual p q) h (locked .shared (reads .shared :: Call.allActions callbacks ++ as)) := by
  have hs : 0 < holdAfter h (.acquire .shared) .shared := Nat.succ_pos (h .shared)
  exact (obeys_callbacks hrest).mpr ⟨usual_acquire_shared hx,
    ⟨⟨usual_shared hs false, hall _ hx.acquire_shared rfl⟩, has _ hs⟩, usual_release .shared⟩

theorem Call.front {c : Call} (hnot : c.sharedOnly = false)
    (hp : p → 0 < h .discovery ∨ c.sharedOnly ∨ c.first ∧ h .shared = 0) : p → 0 < h .discovery ∨ h .shared = 0 := by
  intro hp'
  rw [hnot] at hp
  exact (hp hp').imp_right fun hor => (hor.resolve_left Bool.false_ne_true).2

mutual

/-- **What all functions keep to**, also where a callback calls them. -/
theorem Call.usual {h : Mutex → ℕ} (hx : NoExit h) : (c : Call) →
    (p → 0 < h .discovery ∨ c.sharedOnly ∨ c.first ∧ h .shared = 0) → (q → 0 < h .discovery ∨ c.covered) →
      Obeys (Usual p q) h c.actions
  | .subscribe notices, hp, _ => by
    refine usual_locked_both hx (Call.front rfl hp) (fun _ => heldAfter_discover notices) ?_
    exact fun _ hx hd hs => ⟨⟨trivial, usual_shared hs true⟩, usual_discover hx (fun _ => .inl hd) notices⟩
  | .unsubscribe, _, hq => by
    have hs : 0 < holdAfter h (.acquire .shared) .shared := Nat.succ_pos (h .shared)
    refine usual_locked_shared hx rfl ⟨⟨trivial, usual_shared hs true⟩, ⟨trivial, usual_shared hs false⟩,
      ⟨trivial, usual_discovery (fun hq' => ?_) false⟩, trivial⟩
    exact (hq hq').resolve_right Bool.false_ne_true
  | .advertise, hp, _ | .advertiseSrv, hp, _ => by
    refine usual_locked_both hx (Call.front rfl hp) (fun _ => heldAfter_advertise) ?_
    exact fun _ hx hd hs => ⟨⟨trivial, usual_shared hs true⟩, usual_advertise hx fun _ => .inl hd⟩
  | .unadvertise stored, hp, _ | .unadvertiseSrv stored, hp, _ => by
    refine usual_locked_both hx (Call.front rfl hp) (fun _ => heldAfter_unadvertise stored) ?_
    exact fun _ hx hd hs => ⟨⟨trivial, usual_shared hs true⟩, usual_unadvertise hx (fun _ => .inl hd) stored⟩
  | .peek, _, _ =>
    usual_locked_shared hx rfl ⟨⟨trivial, usual_shared (Nat.succ_pos (h .shared)) false⟩, trivial⟩
  | .publish callbacks, hp, hq => by
    rw [Call.actions]
    refine usual_callbacks hx (fun _ => rfl) (fun _ hs => ⟨⟨trivial, usual_shared hs false⟩, trivial⟩) ?_
    intro h' hx' hd
    refine Call.usual_all hx' callbacks (fun hp' => ?_) (fun hq' => ?_)
    · rw [hd]
      exact (hp hp').imp_right fun hor => hor.resolve_right fun hfirst => Bool.false_ne_true hfirst.1
    · rw [hd]
      exact hq hq'
  | .requestLocal serve notify, hp, _ => by
    rw [Call.actions]
    refine usual_locked_both hx (Call.front rfl hp) (fun h => ?_) fun h hx hd hs => ?_
    · rw [heldAfter_append]
      change heldAfter (heldAfter h (Call.allActions serve)) _ = h
      rw [Call.heldAfter_allActions, Call.heldAfter_allActions]
    · refine obeys_append.mpr ⟨⟨⟨trivial, usual_shared hs false⟩, ?_⟩, ?_⟩
      · exact Call.usual_all hx serve (fun _ => .inl hd) (fun _ => .inl hd)
      · change Obeys (Usual p q) (heldAfter h (Call.allActions serve)) _
        rw [Call.heldAfter_allActions]
        exact Call.usual_all hx notify (fun _ => .inl hd) (fun _ => .inl hd)
  | .requestRemote reach, hp, _ => by
    refine usual_locked_both hx (Call.front rfl hp) (fun _ => reach.heldAfter_actions) ?_
    exact fun _ hx hd hs => ⟨⟨trivial, usual_shared hs false⟩, ⟨trivial, usual_shared hs true⟩,
      ⟨trivial, usual_discovery (fun _ => hd) false⟩, reach.usual hx hd hs⟩
  | .callLocal serve, hp, _ => by
    rw [Call.actions]
    refine usual_callLocal hx (Call.front rfl hp)
      (fun h => Call.heldAfter_allActions h serve) fun h hx hd => ?_
    exact Call.usual_all hx serve (fun _ => .inl hd) (fun _ => .inl hd)
  | .callRemote reach wakeups, hp, _ => by
    rw [Call.actions]
    exact usual_callRemote hx (Call.front rfl hp) (fun _ => reach.heldAfter_actions)
      (fun _ hx hd hs => reach.usual hx hd hs) wakeups
  | .list, hp, _ => by
    refine usual_locked_shared hx (heldAfter_locked rfl) (usual_locked_discovery hx.acquire_shared (fun hp' => ?_) rfl
      ⟨⟨trivial, usual_discovery (fun _ => Nat.succ_pos (h .discovery)) false⟩, trivial⟩)
    exact .inl ((hp hp').resolve_right fun hor => Bool.false_ne_true (hor.elim id And.left))

theorem Call.usual_all {h : Mutex → ℕ} (hx : NoExit h) : (cs : List Call) →
    (p → 0 < h .discovery ∨ Call.allSharedOnly cs) → (q → 0 < h .discovery ∨ Call.allCovered cs) →
      Obeys (Usual p q) h (Call.allActions cs)
  | [], _, _ => by
    rw [Call.allActions]
    trivial
  | c :: cs, hp, hq => by
    rw [Call.allSharedOnly, Bool.and_eq_true] at hp
    rw [Call.allCovered, Bool.and_eq_true] at hq
    rw [Call.allActions, obeys_append, Call.heldAfter_actions]
    exact ⟨Call.usual hx c (fun hp' => (hp hp').imp_right fun hall => .inl hall.1)
        (fun hq' => (hq hq').imp_right And.left),
      Call.usual_all hx cs (fun hp' => (hp hp').imp_right And.right) (fun hq' => (hq hq').imp_right And.right)⟩

end

end Usual

/-! ## What is not safe -/

section Unsafe

variable {h : Mutex → ℕ}

theorem not_ordered_acquire (hx : NoExit h) (hd : h .discovery = 0) (hs : 0 < h .shared) :
    ¬ Ordered before h (.acquire .discovery) := by
  rw [ordered_acquire_discovery hx, hd]
  rintro (hd' | hs')
  · exact Nat.lt_irrefl 0 hd'
  · exact Nat.ne_of_gt hs hs'

mutual

/-- Where the mutex of `NodeShared` alone is held, a function that keeps the order never acquires the other one. -/
theorem Call.sharedOnly_of_obeys {h : Mutex → ℕ} (hx : NoExit h) (hd : h .discovery = 0) (hs : 0 < h .shared) :
    (c : Call) → Obeys (Ordered before) h c.actions → c.sharedOnly
  | .unsubscribe, _ | .peek, _ => rfl
  | .publish callbacks, hobeys => by
    rw [Call.actions, obeys_callbacks fun _ => rfl] at hobeys
    exact Call.allSharedOnly_of_obeys hx.acquire_shared hd (Nat.succ_pos (h .shared)) callbacks hobeys.2.1.1.2
  | .list, hobeys =>
    absurd hobeys.2.1.2 (not_ordered_acquire hx.acquire_shared hd (Nat.succ_pos (h .shared)))
  | .subscribe _, hobeys | .advertise, hobeys | .unadvertise _, hobeys | .advertiseSrv, hobeys
  | .unadvertiseSrv _, hobeys | .requestLocal _ _, hobeys | .requestRemote _, hobeys | .callLocal _, hobeys
  | .callRemote _ _, hobeys => absurd hobeys.1.2 (not_ordered_acquire hx hd hs)

theorem Call.allSharedOnly_of_obeys {h : Mutex → ℕ} (hx : NoExit h) (hd : h .discovery = 0) (hs : 0 < h .shared) :
    (cs : List Call) → Obeys (Ordered before) h (Call.allActions cs) → Call.allSharedOnly cs
  | [], _ => rfl
  | c :: cs, hobeys => by
    rw [Call.allActions, obeys_append, Call.heldAfter_actions] at hobeys
    rw [Call.allSharedOnly, Bool.and_eq_true]
    exact ⟨Call.sharedOnly_of_obeys hx hd hs c hobeys.1, Call.allSharedOnly_of_obeys hx hd hs cs hobeys.2⟩

end

mutual

theorem Call.covered_of_obeys {h : Mutex → ℕ} (hd : h .discovery = 0) :
    (c : Call) → Obeys Guarded h c.actions → c.covered
  | .unsubscribe, hobeys => absurd hobeys.2.2.2.1.2 (Nat.not_lt.mpr (Nat.le_of_eq hd))
  | .publish callbacks, hobeys => by
    rw [Call.actions, obeys_callbacks fun _ => rfl] at hobeys
    exact Call.allCovered_of_obeys (by exact hd) callbacks hobeys.2.1.1.2
  | .subscribe _, _ | .advertise, _ | .unadvertise _, _ | .advertiseSrv, _ | .unadvertiseSrv _, _ | .peek, _
  | .requestLocal _ _, _ | .requestRemote _, _ | .callLocal _, _ | .callRemote _ _, _ | .list, _ => rfl

theorem Call.allCovered_of_obeys {h : Mutex → ℕ} (hd : h .discovery = 0) :
    (cs : List Call) → Obeys Guarded h (Call.allActions cs) → Call.allCovered cs
  | [], _ => rfl
  | c :: cs, hobeys => by
    rw [Call.allActions, obeys_append, Call.heldAfter_actions] at hobeys
    rw [Call.allCovered, Bool.and_eq_true]
    exact ⟨Call.covered_of_obeys hd c hobeys.1, Call.allCovered_of_obeys hd cs hobeys.2⟩

end

/-- Where nothing is held. -/
theorem Call.ordered_of_obeys (c : Call) (hobeys : Obeys (Ordered before) (fun _ => 0) c.actions) : c.ordered := by
  have hx : NoExit (fun _ => 0) := ⟨rfl, rfl⟩
  cases c with
  | publish callbacks =>
    rw [Call.actions, obeys_callbacks fun _ => rfl] at hobeys
    exact Call.allSharedOnly_of_obeys hx.acquire_shared rfl (Nat.succ_pos 0) callbacks hobeys.2.1.1.2
  | list => exact absurd hobeys.2.1.2 (not_ordered_acquire hx.acquire_shared rfl (Nat.succ_pos 0))
  | _ => rfl

end Unsafe

/-! ## Tasks -/

section Tasks

variable {p q : Prop}

theorem Message.heldAfter_actions (h : Mutex → ℕ) (m : Message) : heldAfter h m.actions = h := by
  cases m with
  | msgUpdate callbacks =>
    refine heldAfter_locked ?_
    rw [← List.append_nil (Call.allActions callbacks), ← List.cons_append]
    exact heldAfter_callbacks fun _ => rfl
  | controlUpdate => exact heldAfter_locked rfl
  | srvRequest serve => exact heldAfter_locked (heldAfter_callbacks fun _ => rfl)
  | srvResponse notify => exact heldAfter_locked (heldAfter_callbacks fun _ => rfl)

theorem Message.obeys (m : Message) {allowed : (Mutex → ℕ) → LockAction Mutex → Prop} {h : Mutex → ℕ}
    (hobeys : Obeys allowed h m.actions) :
    Obeys allowed (holdAfter h (.acquire .shared)) (Call.allActions m.callbacks) := by
  cases m with
  | msgUpdate callbacks =>
    rw [Message.actions, ← List.append_nil (Call.allActions callbacks), ← List.cons_append,
      obeys_callbacks fun _ => rfl] at hobeys
    exact hobeys.2.1.1.2
  | controlUpdate =>
    rw [Message.callbacks, Call.allActions]
    trivial
  | srvRequest serve =>
    rw [Message.actions, obeys_callbacks fun _ => rfl] at hobeys
    exact hobeys.2.1.1.2
  | srvResponse notify =>
    rw [Message.actions, obeys_callbacks fun _ => rfl] at hobeys
    exact hobeys.2.1.1.2

theorem Message.usual {h : Mutex → ℕ} (hx : NoExit h) (m : Message)
    (hall : ∀ h', NoExit h' → h' .discovery = h .discovery → Obeys (Usual p q) h' (Call.allActions m.callbacks)) :
    Obeys (Usual p q) h m.actions := by
  have hwrites : ∀ h : Mutex → ℕ, 0 < h .shared → Obeys (Usual p q) h [writes .shared] :=
    fun _ hs => ⟨⟨trivial, usual_shared hs true⟩, trivial⟩
  cases m with
  | msgUpdate callbacks =>
    rw [Message.actions, ← List.append_nil (Call.allActions callbacks), ← List.cons_append]
    exact usual_callbacks hx (fun _ => rfl) (fun _ _ => trivial) hall
  | controlUpdate => exact usual_locked_shared hx rfl (hwrites _ (Nat.succ_pos (h .shared)))
  | srvRequest serve => exact usual_callbacks hx (fun _ => rfl) hwrites hall
  | srvResponse notify => exact usual_callbacks hx (fun _ => rfl) hwrites hall

theorem heldAfter_sweep {h : Mutex → ℕ} (expired : List Bool) : heldAfter h (expired.flatMap fun connected =>
    writes .discovery :: (Notice.onNewDisconnection connected).actions ++ [writes .discovery]) = h := by
  refine heldAfter_flatMap fun connected _ => ?_
  rw [heldAfter_append]
  exact (Notice.onNewDisconnection connected).heldAfter_actions

theorem Task.heldAfter_actions (h : Mutex → ℕ) (t : Task) : heldAfter h t.actions = h := by
  cases t with
  | call c => exact Call.heldAfter_actions h c
  | receive m => exact m.heldAfter_actions h
  | dispatch notices =>
    refine heldAfter_locked ?_
    rw [heldAfter_append]
    exact heldAfter_notices notices
  | sweep expired => exact heldAfter_locked (heldAfter_sweep expired)
  | print => rfl
  | stop shared => cases shared <;> exact heldAfter_locked rfl
  | checkExit shared => cases shared <;> exact heldAfter_locked rfl
  | _ => exact heldAfter_locked rfl

theorem Task.usual (t : Task) (hp : p → t.ordered) (hq : q → t.covered) :
    Obeys (Usual p q) (fun _ => 0) t.actions := by
  have hx : NoExit (fun _ => 0) := ⟨rfl, rfl⟩
  have hd : ∀ w, Usual p q (holdAfter (fun _ => 0) (.acquire .discovery)) (.access .discovery w) :=
    fun w => usual_discovery (fun _ => Nat.succ_pos 0) w
  -- a mutex of its own, for the flag that ends the threads
  have hexit : ∀ m w, Obeys (Usual p q) (fun _ => 0) (locked m [.access m w]) := by
    intro m w
    exact (obeys_block rfl).mpr ⟨⟨.inl (.inr fun m' hm' => absurd hm' (Nat.lt_irrefl 0)), .inl trivial⟩,
      ⟨⟨trivial, .inl trivial, .inl (holdAfter_acquire_pos _ m)⟩, trivial⟩, usual_release m⟩
  cases t with
  | call c =>
    refine c.usual hx (fun hp' => ?_) (fun hq' => .inr (hq hq'))
    rcases Bool.or_eq_true_iff.mp (hp hp') with hfirst | hshared
    · exact .inr (.inr ⟨hfirst, rfl⟩)
    · exact .inr (.inl hshared)
  | receive m =>
    refine m.usual hx fun h' hx' _ => ?_
    exact Call.usual_all hx' m.callbacks (fun hp' => .inr (hp hp')) (fun hq' => .inr (hq hq'))
  | dispatch notices =>
    refine usual_locked_discovery hx (fun _ => .inr rfl) ?_ (obeys_append.mpr ⟨⟨⟨trivial, hd true⟩, ?_⟩, ?_⟩)
    · rw [heldAfter_append]
      exact heldAfter_notices notices
    · exact usual_notices hx.acquire_discovery (fun _ => Nat.succ_pos 0) notices
    · rw [heldAfter_writes, heldAfter_notices]
      exact ⟨⟨trivial, hd true⟩, trivial⟩
  | print => exact ⟨⟨trivial, usual_discovery (fun hq' => absurd (hq hq') Bool.false_ne_true) false⟩, trivial⟩
  | sweep expired =>
    refine usual_locked_discovery hx (fun _ => .inr rfl) (heldAfter_sweep expired) ⟨⟨trivial, hd false⟩, ?_⟩
    refine (obeys_flatMap fun connected _ => ?_).mpr fun connected _ => obeys_append.mpr ⟨⟨⟨trivial, hd true⟩, ?_⟩, ?_⟩
    · rw [heldAfter_append]
      exact (Notice.onNewDisconnection connected).heldAfter_actions
    · exact (Notice.onNewDisconnection connected).usual hx.acquire_discovery fun _ => Nat.succ_pos 0
    · rw [heldAfter_writes, Notice.heldAfter_actions]
      exact ⟨⟨trivial, hd true⟩, trivial⟩
  | discard => exact hexit .discovery false
  | heartbeat => exact hexit .discovery false
  | setCallback => exact hexit .discovery true
  | stop shared => cases shared <;> exact hexit _ true
  | checkExit shared => cases shared <;> exact hexit _ false

/-- **The tasks that keep the order of the mutexes** are the ones that are `ordered`. -/
theorem Task.obeys_ordered_iff (t : Task) : Obeys (Ordered before) (fun _ => 0) t.actions ↔ t.ordered := by
  constructor
  · intro hobeys
    cases t with
    | call c => exact c.ordered_of_obeys hobeys
    | receive m =>
      have hx : NoExit (fun _ => 0) := ⟨rfl, rfl⟩
      exact Call.allSharedOnly_of_obeys hx.acquire_shared rfl (Nat.succ_pos 0) m.callbacks (m.obeys hobeys)
    | _ => rfl
  · intro hordered
    refine (t.usual (p := True) (q := False) (fun _ => hordered) False.elim).mono fun h a husual => ?_
    exact husual.1.resolve_right fun hnot => hnot.1 trivial

/-- **The tasks that touch the tables under their mutexes only** are the ones that are `covered`. -/
theorem Task.obeys_guarded_iff (t : Task) : Obeys Guarded (fun _ => 0) t.actions ↔ t.covered := by
  constructor
  · intro hobeys
    cases t with
    | call c => exact Call.covered_of_obeys rfl c hobeys
    | receive m => exact Call.allCovered_of_obeys rfl m.callbacks (m.obeys hobeys)
    | print => exact absurd hobeys.1.2 (Nat.lt_irrefl 0)
    | _ => rfl
  · intro hcovered
    refine (t.usual (p := False) (q := True) False.elim (fun _ => hcovered)).mono fun h a husual => ?_
    exact husual.2.resolve_right fun hnot => hnot.1 trivial

end Tasks

/-! ## Which tasks cross over -/

section Crossing

variable {h : Mutex → ℕ} {block as : Actions}

theorem Call.actions_of_first {c : Call} (hfirst : c.first) :
    ∃ rest, c.actions = .acquire .discovery :: .acquire .shared :: rest := by
  cases c with
  | unsubscribe | peek | publish | list => cases hfirst
  | _ =>
    rw [Call.actions]
    exact ⟨_, rfl⟩

theorem Notice.actions_eq_cons (n : Notice) : ∃ rest, n.actions = .acquire .shared :: rest := by
  cases n <;> exact ⟨_, rfl⟩

/-- Before a task crosses over, it only touches the tables. -/
theorem Task.actions_of_crosses {t : Task} (ht : t.crosses) : ∃ before after : Actions,
    t.actions = .acquire .discovery :: (before ++ .acquire .shared :: after) ∧
      ∀ a ∈ before, ∃ m w, a = LockAction.access m w := by
  cases t with
  | call c =>
    obtain ⟨rest, hrest⟩ := Call.actions_of_first (c := c) ht
    exact ⟨[], rest, hrest, fun a ha => (by cases ha)⟩
  | dispatch notices =>
    cases notices with
    | nil => cases ht
    | cons n notices =>
      obtain ⟨rest, hrest⟩ := n.actions_eq_cons
      refine ⟨[writes .discovery], rest ++ notices.flatMap Notice.actions ++ [writes .discovery] ++
        [.release .discovery], ?_, fun a ha => ⟨_, _, List.mem_singleton.mp ha⟩⟩
      simp [Task.actions, locked, hrest]
  | sweep expired =>
    cases expired with
    | nil => cases ht
    | cons connected expired =>
      obtain ⟨rest, hrest⟩ := (Notice.onNewDisconnection connected).actions_eq_cons
      refine ⟨[reads .discovery, writes .discovery], rest ++ [writes .discovery] ++ (expired.flatMap fun connected =>
        writes .discovery :: (Notice.onNewDisconnection connected).actions ++ [writes .discovery]) ++
          [.release .discovery], ?_, fun a ha => ?_⟩
      · simp [Task.actions, locked, hrest]
      · rcases List.mem_pair.mp ha with rfl | rfl <;> exact ⟨_, _, rfl⟩
  | _ => cases ht

theorem uncrossed_locked_shared (hd : h .discovery = 0)
    (hheld : heldAfter (holdAfter h (.acquire .shared)) block = holdAfter h (.acquire .shared))
    (hblock : Obeys Free (fun _ => 0) block) :
    Obeys (Uncrossed .discovery .shared) h (locked .shared block) :=
  (obeys_block hheld).mpr ⟨fun _ => .inr hd, uncrossed_of_held (Nat.succ_pos (h .shared)) hblock, trivial⟩

theorem uncrossed_callbacks {callbacks : List Call} (hd : h .discovery = 0) (hrest : ∀ h, heldAfter h as = h)
    (has : Obeys Free (fun _ => 0) as) :
    Obeys (Uncrossed .discovery .shared) h
      (locked .shared (reads .shared :: Call.allActions callbacks ++ as)) := by
  refine uncrossed_locked_shared hd (heldAfter_callbacks hrest) (obeys_append.mpr ⟨⟨⟨trivial, trivial⟩, ?_⟩, ?_⟩)
  · exact (Call.usual_all (p := False) (q := False) ⟨rfl, rfl⟩ callbacks False.elim False.elim).mono
      fun _ _ _ => trivial
  · rw [heldAfter_reads, Call.heldAfter_allActions]
    exact has

/-- **A task that does not cross over** acquires the mutex of `NodeShared` first, or not at all. -/
theorem Task.uncrossed {t : Task} (ht : ¬ t.crosses) :
    Obeys (Uncrossed .discovery .shared) (fun _ => 0) t.actions := by
  have hone : ∀ m w, Obeys Free (fun _ => 0) [LockAction.access (M := Mutex) m w] :=
    fun _ _ => ⟨⟨trivial, trivial⟩, trivial⟩
  have hexit : ∀ m : Mutex, m ≠ .shared → ∀ w, Obeys (Uncrossed .discovery .shared) (fun _ => 0)
      (locked m [.access m w]) := fun m hm w =>
    (obeys_block rfl).mpr ⟨fun h => absurd h hm, ⟨⟨trivial, trivial⟩, trivial⟩, trivial⟩
  cases t with
  | call c =>
    cases c with
    | unsubscribe =>
      exact uncrossed_locked_shared rfl rfl
        ⟨⟨trivial, trivial⟩, ⟨trivial, trivial⟩, ⟨trivial, trivial⟩, trivial⟩
    | peek => exact uncrossed_locked_shared rfl rfl (hone _ _)
    | publish callbacks =>
      rw [Task.actions, Call.actions]
      exact uncrossed_callbacks rfl (fun _ => rfl) (hone _ _)
    | list =>
      exact uncrossed_locked_shared rfl (heldAfter_locked rfl)
        ((obeys_block rfl).mpr ⟨trivial, ⟨⟨trivial, trivial⟩, trivial⟩, trivial⟩)
    | _ => exact absurd rfl ht
  | receive m =>
    cases m with
    | msgUpdate callbacks =>
      rw [Task.actions, Message.actions, ← List.append_nil (Call.allActions callbacks), ← List.cons_append]
      exact uncrossed_callbacks rfl (fun _ => rfl) trivial
    | controlUpdate => exact uncrossed_locked_shared rfl rfl (hone _ _)
    | srvRequest serve => exact uncrossed_callbacks rfl (fun _ => rfl) (hone _ _)
    | srvResponse notify => exact uncrossed_callbacks rfl (fun _ => rfl) (hone _ _)
  | dispatch notices =>
    cases notices with
    | nil =>
      exact (obeys_block rfl).mpr ⟨fun h => (by cases h), ⟨⟨trivial, trivial⟩, ⟨trivial, trivial⟩, trivial⟩, trivial⟩
    | cons n notices => exact absurd rfl ht
  | sweep expired =>
    cases expired with
    | nil => exact hexit .discovery (by decide) false
    | cons connected expired => exact absurd rfl ht
  | print => exact ⟨⟨trivial, trivial⟩, trivial⟩
  | discard => exact hexit .discovery (by decide) false
  | heartbeat => exact hexit .discovery (by decide) false
  | setCallback => exact hexit .discovery (by decide) true
  | stop shared => cases shared <;> exact hexit _ (by decide) true
  | checkExit shared => cases shared <;> exact hexit _ (by decide) false

end Crossing

/-! ## Threads -/

section Threads

variable {ι : Type} [DecidableEq ι] {s : Threads ι Mutex} {i j : ι}

/-- Threads that do their tasks one after the other. -/
def program (tasks : ι → List Task) : Threads ι Mutex := { todo := fun i => (tasks i).flatMap Task.actions }

theorem obeys_tasks {allowed : (Mutex → ℕ) → LockAction Mutex → Prop} {l : List Task} :
    Obeys allowed (fun _ => 0) (l.flatMap Task.actions) ↔ ∀ t ∈ l, Obeys allowed (fun _ => 0) t.actions :=
  obeys_flatMap fun t _ => t.heldAfter_actions _

/-- Any tasks keep the usual discipline. -/
theorem usual_tasks (l : List Task) : Obeys (Usual False False) (fun _ => 0) (l.flatMap Task.actions) :=
  obeys_tasks.mpr fun t _ => t.usual False.elim False.elim

theorem disciplined_program {allowed : (Mutex → ℕ) → LockAction Mutex → Prop} {tasks : ι → List Task}
    (hall : ∀ i, ∀ t ∈ tasks i, Obeys allowed (fun _ => 0) t.actions) : Disciplined allowed (program tasks) :=
  fun i => ⟨obeys_tasks.mpr (hall i), heldAfter_flatMap fun t _ => t.heldAfter_actions _⟩

theorem wellFounded_before : WellFounded fun m m' => before m' m := by
  -- nothing comes after the mutex of `NodeShared`
  have hshared : Acc (fun m m' => before m' m) .shared := ⟨_, fun m hm => (by cases hm.1)⟩
  refine ⟨fun m => ⟨_, fun m' hm' => ?_⟩⟩
  rw [hm'.2]
  exact hshared

theorem obeys_program {allowed : (Mutex → ℕ) → LockAction Mutex → Prop} {tasks : ι → List Task}
    (hall : ∀ t ∈ tasks i, Obeys allowed (fun _ => 0) t.actions) :
    Obeys allowed ((program tasks).holds i) ((program tasks).todo i) := obeys_tasks.mpr hall

/-- **No deadlock**: threads that run functions, receive messages and discovery messages, send heartbeats and look for
expired processes never wait for each other, as long as no callback acquires the mutex of the discovery service and
nobody asks for the list of topics.  Somebody can always go on. -/
theorem no_deadlock (tasks : ι → List Task) (hordered : ∀ i, ∀ t ∈ tasks i, t.ordered) (schedule : List ι)
    (hrun : run step (program tasks) schedule = some s) :
    (∀ D, ¬ s.Deadlocked D) ∧ ∀ i, s.todo i ≠ [] → ∃ j, (s.step j).isSome := by
  have hs : Disciplined (Ordered before) s :=
    disciplined_run (disciplined_program fun i t ht => t.obeys_ordered_iff.mpr (hordered i t ht)) hrun
  exact ⟨not_deadlocked wellFounded_before hs, fun i hi => progress wellFounded_before hs hi⟩

/-- Two threads: the user runs functions, while the others receive. -/
def pairTasks : Bool → List Task
  | false => [.call (.subscribe [.onNewConnection true]), .call (.publish [.peek, .publish []])]
  | true => [.dispatch [.onNewConnection true], .receive (.msgUpdate [.publish []]), .sweep [true]]

theorem no_deadlock_pair : ∃ s, run step (program pairTasks) [true, true, true, true, false] = none ∧
    run step (program pairTasks) [true, true, true, true] = some s ∧
      (∀ D, ¬ s.Deadlocked D) ∧ ∀ i, s.todo i ≠ [] → ∃ j, (s.step j).isSome :=
  ⟨_, rfl, rfl, no_deadlock pairTasks (by decide) [true, true, true, true] rfl⟩

/-- A point where a program goes against the order of the mutexes. -/
theorem exists_unordered_point {l : List Task} (hl : ∃ t ∈ l, ¬ t.ordered) : ∃ pre post : Actions,
    l.flatMap Task.actions = pre ++ .acquire .discovery :: post ∧ Obeys Free (fun _ => 0) pre ∧
      heldAfter (fun _ => 0) pre .discovery = 0 ∧ 0 < heldAfter (fun _ => 0) pre .shared := by
  have hnot : ¬ Obeys (Ordered before) (fun _ => 0) (l.flatMap Task.actions) := by
    intro hobeys
    obtain ⟨t, ht, hordered⟩ := hl
    exact hordered (t.obeys_ordered_iff.mp (obeys_tasks.mp hobeys t ht))
  obtain ⟨pre, a, post, hsplit, hfree, husual, hbad⟩ := exists_not_allowed (usual_tasks l) hnot
  obtain ⟨-, rfl, hshared, hdiscovery⟩ := husual.1.resolve_left hbad
  exact ⟨pre, post, hsplit, hfree, hdiscovery, hshared⟩

/-- Where one thread goes against the order of the mutexes, and another one crosses over, both can wait. -/
theorem deadlock_of_crossing (tasks : ι → List Task) (hij : i ≠ j) (hi : ∃ t ∈ tasks i, ¬ t.ordered) {t : Task}
    (ht : t ∈ tasks j) (hcrosses : t.crosses) :
    ∃ schedule s, run step (program tasks) schedule = some s ∧ s.Deadlocked {i, j} := by
  obtain ⟨pre, post, hsplit, hobeys, hdiscovery, hshared⟩ := exists_unordered_point hi
  obtain ⟨l, l', hl⟩ := List.append_of_mem ht
  obtain ⟨before, after, hactions, haccess⟩ := Task.actions_of_crosses hcrosses
  have htodo : (program tasks).todo j = l.flatMap Task.actions ++ .acquire .discovery ::
      (before ++ .acquire .shared :: (after ++ l'.flatMap Task.actions)) := by
    change (tasks j).flatMap Task.actions = _
    rw [hl, List.flatMap_append, List.flatMap_cons, hactions, List.cons_append, List.append_assoc, List.cons_append]
  exact deadlocked_of_crossed hij hsplit htodo hobeys hdiscovery hshared ((usual_tasks l).mono fun _ _ _ => trivial)
    (heldAfter_flatMap fun t _ => t.heldAfter_actions _) haccess

/-- **A deadlock**: a task that is not `ordered` (the list of topics, or a callback of the user that subscribes,
advertises or requests) can wait for a thread that runs any function that acquires both mutexes, while that one waits
for the task. -/
theorem deadlock_reachable (tasks : ι → List Task) (hij : i ≠ j) (hi : ∃ t ∈ tasks i, ¬ t.ordered) {c : Call}
    {rest : List Task} (hj : tasks j = .call c :: rest) (hfirst : c.first) :
    ∃ schedule s, run step (program tasks) schedule = some s ∧ s.Deadlocked {i, j} :=
  deadlock_of_crossing tasks hij hi (t := .call c) (by rw [hj]; exact List.mem_cons_self ..) hfirst

/-- The user asks for the list of topics in one thread, and advertises one in another thread. -/
theorem deadlock_reachable_pair : ∃ schedule s, run step (program fun i : Bool =>
    if i then [.call .list] else [.call .advertise]) schedule = some s ∧ s.Deadlocked {true, false} :=
  deadlock_reachable _ (by decide) ⟨.call .list, List.mem_singleton_self _, by decide⟩ rfl rfl

/-- Where threads wait for each other, one goes against the order of the mutexes, and another one crosses over. -/
theorem crossed_of_deadlocked (hs : Disciplined (Usual False False) s) {D : Set ι} (hD : s.Deadlocked D) :
    ∃ i j, i ≠ j ∧ ¬ Obeys (Ordered before) (s.holds i) (s.todo i) ∧
      ¬ Obeys (Uncrossed .discovery .shared) (s.holds j) (s.todo j) := by
  obtain ⟨i, hi, m, as, htodo, hnot⟩ := exists_unordered wellFounded_before hD
  have husual := (hs i).1
  rw [htodo] at husual
  obtain ⟨-, hm, -⟩ := husual.1.2.1.resolve_left hnot
  obtain rfl := LockAction.acquire.inj hm
  -- its owner waits too
  obtain ⟨m', j, hj, ⟨as', htodo'⟩, ⟨k, hown⟩, hne⟩ := hD.2 i hi
  rw [htodo] at htodo'
  obtain rfl : m' = .discovery := (LockAction.acquire.inj (List.cons.inj htodo').1).symm
  have hheld : 0 < s.holds j .discovery := by
    rw [holds_of_owner hown]
    exact Nat.succ_pos k
  obtain ⟨m'', l, -, ⟨bs, htodoj⟩, ⟨k', hown'⟩, hne'⟩ := hD.2 j hj
  have hzero : s.holds j m'' = 0 := holds_eq_zero_of_owner hown' hne'
  have hshared : m'' = .shared := by
    have husual := (hs j).1
    rw [htodoj] at husual
    rcases husual.1.2.1 with (hheld' | hbefore) | ⟨-, hm, -⟩
    · exact absurd hheld' (by rw [hzero]; exact Nat.lt_irrefl 0)
    · exact (hbefore .discovery hheld).2
    · rw [LockAction.acquire.inj hm] at hzero
      exact absurd hheld (by rw [hzero]; exact Nat.lt_irrefl 0)
  subst hshared
  refine ⟨i, j, Ne.symm hne, fun hobeys => ?_, fun hobeys => ?_⟩
  · rw [htodo] at hobeys
    exact hnot hobeys.1.2
  · rw [htodoj] at hobeys
    rcases hobeys.1.2 rfl with hheld' | hfree
    · exact absurd hheld' (by rw [hzero]; exact Nat.lt_irrefl 0)
    · exact absurd hheld (by rw [hfree]; exact Nat.lt_irrefl 0)

/-- **Threads never wait for each other exactly where** no thread crosses over beside one that goes against the order
of the mutexes. -/
theorem deadlock_free_iff (tasks : ι → List Task) :
    (∀ schedule s, run step (program tasks) schedule = some s → ∀ D, ¬ s.Deadlocked D) ↔
      ∀ i j, i ≠ j → (∃ t ∈ tasks i, ¬ t.ordered) → ∀ t ∈ tasks j, ¬ t.crosses := by
  constructor
  · intro hfree i j hij hi t ht hcrosses
    obtain ⟨schedule, s, hrun, hdead⟩ := deadlock_of_crossing tasks hij hi ht hcrosses
    exact hfree schedule s hrun _ hdead
  · intro hall schedule s hrun D hD
    have hs : Disciplined (Usual False False) s :=
      disciplined_run (disciplined_program fun _ t _ => t.usual False.elim False.elim) hrun
    obtain ⟨i, j, hij, hi, hj⟩ := crossed_of_deadlocked hs hD
    have hunordered : ∃ t ∈ tasks i, ¬ t.ordered := by
      by_contra hnot
      push Not at hnot
      exact hi (obeys_run (obeys_program fun t ht => t.obeys_ordered_iff.mpr (hnot t ht)) hrun)
    exact hj (obeys_run (obeys_program fun t ht => Task.uncrossed (hall i j hij hunordered t ht)) hrun)

/-- The user asks for the list of topics while another thread advertises one. -/
theorem deadlocked_list_advertise : ¬ ∀ schedule s, run step (program fun i : Bool =>
    if i then [.call .list] else [.call .advertise]) schedule = some s → ∀ D, ¬ s.Deadlocked D := by
  intro hfree
  refine hfree [true, false] _ rfl {true, false} ⟨⟨true, Set.mem_insert true {false}⟩, fun i _ => ?_⟩
  cases i with
  | true => exact ⟨.discovery, false, by simp, ⟨_, rfl⟩, ⟨0, rfl⟩, by decide⟩
  | false => exact ⟨.shared, true, by simp, ⟨_, rfl⟩, ⟨0, rfl⟩, by decide⟩

/-- **No race**: threads whose tasks are `covered` never touch a table at the same time, one of them writing. -/
theorem no_race (tasks : ι → List Task) (hcovered : ∀ i, ∀ t ∈ tasks i, t.covered) (schedule : List ι)
    (hrun : run step (program tasks) schedule = some s) (i j : ι) : ¬ s.Racing i j :=
  not_racing (disciplined_run (disciplined_program fun i t ht => t.obeys_guarded_iff.mpr (hcovered i t ht)) hrun) i j

theorem no_race_pair : ∃ s, run step (program pairTasks) [true, true, true, true, true] = some s ∧
    ∀ i j, ¬ s.Racing i j :=
  ⟨_, rfl, no_race pairTasks (by decide) [true, true, true, true, true] rfl⟩

/-- **A race**: a task that is not `covered` (`Unsubscribe`, also in a callback, or a verbose discovery service) can
read the tables of the discovery service while a discovery message changes them. -/
theorem race_reachable (tasks : ι → List Task) (hij : i ≠ j) (hi : ∃ t ∈ tasks i, ¬ t.covered)
    {notices : List Notice} {rest : List Task} (hj : tasks j = .dispatch notices :: rest) :
    ∃ schedule s, run step (program tasks) schedule = some s ∧ s.Racing i j := by
  have hnot : ¬ Obeys Guarded (fun _ => 0) ((program tasks).todo i) := by
    intro hobeys
    obtain ⟨t, ht, hcovered⟩ := hi
    exact hcovered (t.obeys_guarded_iff.mp (obeys_tasks.mp hobeys t ht))
  obtain ⟨pre, a, post, hsplit, hfree, husual, hbad⟩ := exists_not_allowed (usual_tasks (tasks i)) hnot
  obtain ⟨-, w, rfl⟩ := husual.2.resolve_left hbad
  have htodo : (program tasks).todo j = .acquire .discovery :: .access .discovery true ::
      (notices.flatMap Notice.actions ++ [writes .discovery] ++ [.release .discovery] ++
        rest.flatMap Task.actions) := by
    change (tasks j).flatMap Task.actions = _
    rw [hj, List.flatMap_cons]
    rfl
  exact racing_of_unguarded hij hsplit htodo hfree (Nat.eq_zero_of_not_pos hbad)

/-- The user unsubscribes in the callback of a subscription. -/
theorem race_reachable_pair : ∃ schedule s, run step (program fun i : Bool =>
    if i then [.receive (.msgUpdate [.unsubscribe])] else [.dispatch []]) schedule = some s ∧ s.Racing true false :=
  race_reachable _ (by decide) ⟨.receive (.msgUpdate [.unsubscribe]), List.mem_singleton_self _, by decide⟩ rfl

end Threads

end LockDiscipline

end IgnTransport
