import Mathlib
import IgnTransport.Lib.Iterator
import IgnTransport.TopicStorageMap
import IgnTransport.DiscoveryOutputs

/-!
# IgnTransport.DiscoverySweep — the loops of `RunActivityTask`, iterator by iterator

`RunActivityTask` erases from `activity` while it iterates over it, and calls `DelAddressesByProc`, which does the same
to the topics of both storages.  `sweepLoop` is that nest of loops over the maps as they are at every turn.

* `sweep_exact`: one pass stands on every activity entry once, in key order; it keeps the entries that are not too
  old, takes the expired processes and nothing else out of both storages, and executes one callback for each of them,
  in key order.
-/

namespace IgnTransport

open Lib

/-! ## The loops -/

section Loops

/-- One turn of the loop of `DelAddressesByProc`: `counter`, and what becomes of the inner map. -/
def TopicMap.delTurn (pUuid : Str) (_counter : Bool) (_topic : Str) (m : Addresses) :
    Option (Bool × Option Addresses) :=
  let counter := m.contains pUuid
  let m := m.erase pUuid
  some (counter, if m.isEmpty then none else some m)

/-- `DelAddressesByProc`: the topics that were visited, the map that is left, and the counter. -/
def TopicMap.delLoop (data : TopicMap) (pUuid : Str) : Option (List Str × TopicMap × Bool) :=
  loopOver (delTurn pUuid) data false

/-- What the loop of `RunActivityTask` works on besides `activity`. -/
structure Sweep where
  infoMsg : TopicMap
  infoSrv : TopicMap
  /-- The callbacks, in the order of their execution. -/
  executed : List Output

namespace Discovery

variable (d : Discovery) (now : Timestamp)

def sweepTurn (s : Sweep) (pUuid : Str) (last : Timestamp) : Option (Sweep × Option Timestamp) :=
  if elapsedMs now last > d.silenceInterval then do
    -- Remove all the info entries for this process UUID.
    let (_, infoMsg, _) ← s.infoMsg.delLoop pUuid
    let (_, infoSrv, _) ← s.infoSrv.delLoop pUuid
    -- Notify without topic information.
    if d.disconnectionCb then
      return ({ infoMsg, infoSrv, executed := s.executed ++ [.disconnection .msg (goneArgs pUuid)] }, none)
    else none
  else some (s, some last)

/-- One pass: the processes whose entries were visited, the activity entries that are left, and the rest. -/
def sweepLoop : Option (List Str × StrMap Timestamp × Sweep) :=
  loopOver (d.sweepTurn now) d.activity ⟨d.infoMsg.rows, d.infoSrv.rows, []⟩

end Discovery

end Loops

/-! ## The loops as folds -/

section Folds

theorem TopicMap.delLoop_eq (data : TopicMap) (p : Str) :
    data.delLoop p = some (data.keys, data.delAddressesByProc p) := by
  refine (loopOver_eq (f := fun _ m => let m := m.erase p; if m.isEmpty then none else some m)
    (g := fun _ _ m => m.contains p) (fun _ _ _ => rfl) data false).trans ?_
  rw [← updateEach_eq_filterMap]
  rfl

namespace Discovery

variable {d d' : Discovery} {now : Timestamp} {out : List Output}

def sweepStep (d : Discovery) (now : Timestamp) (s : Sweep) (p : Str) (last : Timestamp) : Sweep :=
  if elapsedMs now last > d.silenceInterval then
    { infoMsg := (s.infoMsg.delAddressesByProc p).1
      infoSrv := (s.infoSrv.delAddressesByProc p).1
      executed := s.executed ++ [.disconnection .msg (goneArgs p)] }
  else s

theorem sweepTurn_eq (hcb : d.disconnectionCb = true) (s : Sweep) (p : Str) (last : Timestamp) :
    d.sweepTurn now s p last =
      some (d.sweepStep now s p last, if elapsedMs now last > d.silenceInterval then none else some last) := by
  unfold sweepTurn sweepStep
  split_ifs with hexp
  · rw [TopicMap.delLoop_eq, TopicMap.delLoop_eq]
    rfl
  · rfl

/-- The fold over the activity entries is the sweep of the state, in its storages and callbacks. -/
theorem foldl_sweepStep {entries : List (Str × Timestamp)} {e : Discovery}
    (hsilence : e.silenceInterval = d.silenceInterval) (h : sweepFrom now entries e = some (d', out))
    (executed : List Output) :
    entries.foldl (fun s a => d.sweepStep now s a.1 a.2) ⟨e.infoMsg.rows, e.infoSrv.rows, executed⟩ =
      ⟨d'.infoMsg.rows, d'.infoSrv.rows, executed ++ out⟩ := by
  induction entries generalizing e out executed with
  | nil =>
    rw [sweepFrom, Option.some.injEq, Prod.mk.injEq] at h
    obtain ⟨rfl, rfl⟩ := h
    rw [List.foldl_nil, List.append_nil]
  | cons a entries ih =>
    obtain ⟨p, last⟩ := a
    rw [sweepFrom, hsilence] at h
    rw [List.foldl_cons, sweepStep]
    split_ifs at h ⊢ with hexp hcb
    · simp only [bind, pure, Option.bind_eq_some_iff, Option.some.injEq, Prod.mk.injEq, Prod.exists] at h
      obtain ⟨d₁, out₁, h, rfl, rfl⟩ := h
      have hrest := ih (e := e.expire p) hsilence h (executed ++ [.disconnection .msg (goneArgs p)])
      rw [List.append_assoc, List.singleton_append] at hrest
      exact hrest
    · exact ih hsilence h executed

theorem info_sweep (h : d.runActivityTask now = some (d', out)) (type : MsgType) :
    d'.info type = (d.info type).keepInner fun q => ¬ d.Expired now q := by
  obtain ⟨-, hgone, hkept⟩ := peer_runActivityTask h
  refine Table.ext_cell fun t q => ?_
  have hcell : ∀ {v : Peer}, d'.peer q = v → (d'.info type).cell t q = v.entries type t :=
    fun hv => congrFun (congrFun (congrArg Peer.entries hv) type) t
  rw [Table.cell_keepInner]
  by_cases hexp : d.Expired now q
  · rw [if_neg (by simpa using hexp), hcell (hgone q hexp)]
    rfl
  · rw [if_pos (by simpa using hexp), hcell (hkept q hexp)]
    rfl

theorem activity_sweep (h : d.runActivityTask now = some (d', out)) :
    d'.activity = d.activity.filter fun _ last => elapsedMs now last ≤ d.silenceInterval := by
  obtain ⟨-, hgone, hkept⟩ := peer_runActivityTask h
  refine Std.ExtTreeMap.ext_getElem? fun q => ?_
  rw [Std.ExtTreeMap.getElem?_filter']
  by_cases hexp : d.Expired now q
  · have hnone : d'.activity[q]? = none := congrArg Peer.lastHeard (hgone q hexp)
    obtain ⟨last, hact, hold⟩ := hexp
    rw [hnone, hact, Option.filter_some, if_neg (by simpa using hold)]
  · have hsame : d'.activity[q]? = d.activity[q]? := congrArg Peer.lastHeard (hkept q hexp)
    rw [hsame]
    cases hact : d.activity[q]? with
    | none => rfl
    | some last =>
      have hfresh : elapsedMs now last ≤ d.silenceInterval :=
        not_lt.mp fun hold => hexp ⟨last, hact, hold⟩
      rw [Option.filter_some, if_pos (by simpa using hfresh)]

/-- The processes of which a sweep tells, in key order. -/
theorem out_sweep (h : d.runActivityTask now = some (d', out)) :
    out = (d.activity.keys.filter fun p => d.Expired now p).map fun p => .disconnection .msg (goneArgs p) := by
  rw [out_sweepFrom h, ← Std.ExtTreeMap.map_fst_toList_eq_keys, List.filter_map, List.map_map]
  congr 1
  refine List.filter_congr fun e he => ?_
  have hact : d.activity[e.1]? = some e.2 := Std.ExtTreeMap.mem_toList_iff_getElem?_eq_some.mp he
  rw [Function.comp_apply, decide_eq_decide]
  constructor
  · exact fun hold => ⟨e.2, hact, hold⟩
  · rintro ⟨last, hlast, hold⟩
    rw [hact, Option.some.injEq] at hlast
    rwa [hlast]

end Discovery

end Folds

/-! ## The pass -/

section Pass

namespace Discovery

/-- **The activity sweep is exact.** -/
theorem sweep_exact (d : Discovery) (now : Timestamp) (hcb : d.disconnectionCb = true) :
    ∃ activity s, d.sweepLoop now = some (d.activity.keys, activity, s) ∧
      d.activity.keys.Pairwise (fun p q => compare p q = .lt) ∧ d.activity.keys.Nodup ∧
      activity = (d.activity.filter fun _ last => elapsedMs now last ≤ d.silenceInterval) ∧
      s.infoMsg = (d.infoMsg.keepInner fun q => ¬ d.Expired now q).rows ∧
      s.infoSrv = (d.infoSrv.keepInner fun q => ¬ d.Expired now q).rows ∧
      s.executed = ((d.activity.keys.filter fun p => d.Expired now p).map fun p =>
        .disconnection .msg (goneArgs p)) ∧
      ∃ d', d.runActivityTask now = some (d', s.executed) ∧ d'.activity = activity ∧
        d'.infoMsg.rows = s.infoMsg ∧ d'.infoSrv.rows = s.infoSrv ∧ d'.fixed = d.fixed := by
  obtain ⟨⟨d', out⟩, hsweep⟩ := Option.isSome_iff_exists.mp (isSome_sweepFrom now d.activity.toList hcb)
  have hfold := foldl_sweepStep rfl hsweep []
  rw [List.nil_append] at hfold
  have hmsg : d'.infoMsg = d.infoMsg.keepInner fun q => ¬ d.Expired now q := info_sweep hsweep .msg
  have hsrv : d'.infoSrv = d.infoSrv.keepInner fun q => ¬ d.Expired now q := info_sweep hsweep .srv
  refine ⟨_, ⟨d'.infoMsg.rows, d'.infoSrv.rows, out⟩, ?_, Std.ExtTreeMap.ordered_keys, Std.ExtTreeMap.nodup_keys,
    activity_sweep hsweep, congrArg Table.rows hmsg, congrArg Table.rows hsrv, out_sweep hsweep,
    d', hsweep, rfl, rfl, rfl, (peer_runActivityTask hsweep).1⟩
  refine (loopOver_eq (fun s p last => sweepTurn_eq hcb s p last) d.activity _).trans ?_
  rw [Std.ExtTreeMap.foldl_eq_foldl_toList, hfold, activity_sweep hsweep]
  refine congrArg (fun activity => some (d.activity.keys, activity, _)) ?_
  refine Std.ExtTreeMap.ext_getElem? fun q => ?_
  rw [Std.ExtTreeMap.getElem?_filterMap', Std.ExtTreeMap.getElem?_filter']
  cases d.activity[q]? with
  | none => rfl
  | some last =>
    by_cases hold : elapsedMs now last > d.silenceInterval
    · rw [Option.bind_some, if_pos hold, Option.filter_some, if_neg (by simpa using hold)]
    · rw [Option.bind_some, if_neg hold, Option.filter_some, if_pos (by simpa using hold)]

/-- An instance that heard of four processes; the first, the second and the last have been silent for long. -/
def sampleSilent : Discovery :=
  { start [65] [1] with
    disconnectionCb := true
    infoMsg := ((Table.empty.set [116] [66] [⟨[97], [], [110], .all⟩]).set [116] [68] [⟨[97], [], [110], .all⟩]).set
      [117] [67] [⟨[97], [], [110], .all⟩]
    activity := ((((∅ : StrMap Timestamp).insert [66] 0).insert [67] 7).insert [68] 4000000000).insert [69] 0 }

theorem sweep_exact_sampleSilent : ∃ activity s,
    sampleSilent.sweepLoop 4000000000 = some (sampleSilent.activity.keys, activity, s) ∧
      s.executed = [[66], [67], [69]].map fun p => .disconnection .msg (goneArgs p) := by
  obtain ⟨activity, s, hloop, -, -, -, -, -, hout, -⟩ := sweep_exact sampleSilent 4000000000 rfl
  have hexpired : (sampleSilent.activity.keys.filter fun p => sampleSilent.Expired 4000000000 p) =
      [[66], [67], [69]] := by decide +kernel
  exact ⟨activity, s, hloop, by rw [hout, hexpired]⟩

/-- The topic of the one process that is heard stays, without the others. -/
example : ((sampleSilent.sweepLoop 4000000000).map fun r => (r.1, r.2.1.toList, r.2.2.infoMsg.keys)) =
    some ([[66], [67], [68], [69]], [([68], 4000000000)], [[116]]) := by decide +kernel

end Discovery

end Pass

end IgnTransport
