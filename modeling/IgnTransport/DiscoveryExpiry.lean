import Mathlib
import IgnTransport.DiscoveryOutputs

/-!
# IgnTransport.DiscoveryExpiry — a process that falls silent, and one that says BYE

`RunActivityTask` and the BYE branch of `DispatchDiscoveryMsg` forget a process in the same way: one state comes of
both (`state_sweep_alone`, `state_recvBye`).  They do not tell the same callbacks of it: the BYE branch executes both
disconnection callbacks, the sweep the one for messages only (`out_sweep_alone`), so no client of services hears of a
process that expires (`expiry_differs`).
-/

namespace IgnTransport

open Lib

namespace Discovery

/-! ## The two ends of a process -/

section Ends

/-- The four callbacks are registered. -/
structure Registered (d : Discovery) : Prop where
  connection : ∀ type, d.hasConnectionCb type = true
  disconnection : ∀ type, d.hasDisconnectionCb type = true

/-- At this time one process has been silent for too long, and no other. -/
def ExpiresAlone (d : Discovery) (now : Timestamp) (p : Str) : Prop := ∀ q, d.Expired now q ↔ q = p

/-- A BYE datagram of another process. -/
def IsBye (d : Discovery) (g : Datagram) (p : Str) : Prop :=
  ∃ header, readMessage d.pUuid g.msg = some (header, some .bye) ∧ header.pUuid = p

/-- Two operations that leave the same three maps and execute the same disconnection callbacks, with the same
arguments and equally often. -/
structure SameEnd (r r' : Discovery × List Output) : Prop where
  infoMsg : r.1.infoMsg = r'.1.infoMsg
  infoSrv : r.1.infoSrv = r'.1.infoSrv
  activity : r.1.activity = r'.1.activity
  callbacks : ∀ type args, r.2.count (.disconnection type args) = r'.2.count (.disconnection type args)

variable {d d' : Discovery} {out : List Output} {p : Str} {now : Timestamp}

theorem state_sweep_alone (halone : d.ExpiresAlone now p) (h : d.runActivityTask now = some (d', out)) :
    d' = d.expire p := by
  obtain ⟨hfixed, hgone, hkept⟩ := peer_runActivityTask h
  refine ext_peer hfixed fun q => ?_
  rw [peer_expire]
  split_ifs with hq
  · exact hgone q ((halone q).mpr hq)
  · exact hkept q fun hexp => hq ((halone q).mp hexp)

/-- The callback for messages is told of an expired process, once; the one for services is not. -/
theorem out_sweep_alone (halone : d.ExpiresAlone now p) (h : d.runActivityTask now = some (d', out)) :
    out = [.disconnection .msg (goneArgs p)] := by
  obtain ⟨last, hact, hexp⟩ := (halone p).mpr rfl
  rw [out_sweepFrom h]
  -- the activity entries are distinct, so the expired one is found once
  have hentries : d.activity.toList.filter (fun e => elapsedMs now e.2 > d.silenceInterval) = [(p, last)] := by
    have hmem : ∀ e, e ∈ d.activity.toList.filter (fun e => elapsedMs now e.2 > d.silenceInterval) ↔
        e = (p, last) := by
      rintro ⟨q, t⟩
      rw [List.mem_filter, Std.ExtTreeMap.mem_toList_iff_getElem?_eq_some, decide_eq_true_eq]
      constructor
      · rintro ⟨hq, hold⟩
        obtain rfl : q = p := (halone q).mp ⟨t, hq, hold⟩
        rw [hact, Option.some.injEq] at hq
        rw [hq]
      · rintro heq
        obtain ⟨rfl, rfl⟩ := Prod.mk.inj heq
        exact ⟨hact, hexp⟩
    have hnodup : (d.activity.toList.filter fun e => elapsedMs now e.2 > d.silenceInterval).Nodup :=
      ((distinct_toList d.activity).imp fun hne heq => hne (congrArg Prod.fst heq)).filter _
    exact List.perm_singleton.mp ((List.perm_ext_iff_of_nodup hnodup (List.nodup_singleton _)).mpr fun e => by
      rw [hmem, List.mem_singleton])
  rw [hentries]
  rfl

theorem state_recvBye (d : Discovery) (p : Str) (now : Timestamp) :
    ((d.touch p now).recvBye p).1 = d.expire p := by
  refine ext_peer rfl fun q => ?_
  have hbye : ((d.touch p now).recvBye p).1 = (d.touch p now).expire p := rfl
  rw [hbye, peer_expire, peer_expire, peer_touch]
  split_ifs <;> rfl

theorem dispatch_bye {g : Datagram} (hbye : d.IsBye g p) :
    d.dispatchDiscoveryMsg g.fromIp g.now g.msg = some ((d.touch p g.now).recvBye p) := by
  obtain ⟨header, hread, rfl⟩ := hbye
  rw [dispatch_eq_readMessage, hread]
  rfl

theorem out_recvBye (hreg : d.Registered) (p : Str) (now : Timestamp) : ((d.touch p now).recvBye p).2 =
    [.disconnection .msg (goneArgs p), .disconnection .srv (goneArgs p)] := by
  have hmsg : d.disconnectionCb = true := hreg.disconnection .msg
  have hsrv : d.disconnectionSrvCb = true := hreg.disconnection .srv
  simp [recvBye, touch, hmsg, hsrv]

end Ends

/-! ## The difference -/

section Difference

/-- **Expiry and BYE never have the same effect**: they leave the same state, but only BYE executes the disconnection
callback for services. -/
theorem expiry_differs (d : Discovery) (p : Str) (now : Timestamp) (g : Datagram) (hreg : d.Registered)
    (halone : d.ExpiresAlone now p) (hbye : d.IsBye g p) :
    ∃ r r', d.runActivityTask now = some r ∧ d.dispatchDiscoveryMsg g.fromIp g.now g.msg = some r' ∧ r.1 = r'.1 ∧
      ¬ SameEnd r r' := by
  obtain ⟨⟨d', out⟩, hsweep⟩ := Option.isSome_iff_exists.mp
    (isSome_sweepFrom now d.activity.toList (hreg.disconnection .msg))
  refine ⟨(d', out), _, hsweep, dispatch_bye hbye, ?_, fun hsame => ?_⟩
  · rw [state_recvBye]
    exact state_sweep_alone halone hsweep
  · have hcount := hsame.callbacks .srv (goneArgs p)
    rw [out_recvBye hreg, out_sweep_alone halone hsweep] at hcount
    simp at hcount

/-- An instance with all callbacks that has heard of process `[66]` at the very beginning. -/
def heardOnce : Discovery :=
  { start [65] [1] with
    connectionCb := true
    disconnectionCb := true
    connectionSrvCb := true
    disconnectionSrvCb := true
    activity := (∅ : StrMap Timestamp).insert [66] 0 }

/-- The BYE of that process. -/
def sampleBye : Datagram := ⟨[2], 5, headerCodec.encode { version := 1, pUuid := [66], type := ByeType }⟩

theorem registered_heardOnce : heardOnce.Registered :=
  ⟨fun type => by cases type <;> rfl, fun type => by cases type <;> rfl⟩

theorem expiresAlone_heardOnce : heardOnce.ExpiresAlone 4000000000 [66] := by
  intro q
  have hact : heardOnce.activity[q]? = if q = [66] then some 0 else none :=
    (getElem?_insert' _ _ _ _).trans (by rw [Std.ExtTreeMap.getElem?_empty])
  unfold Expired
  rw [hact]
  by_cases hq : q = [66]
  · rw [if_pos hq]
    have hlong : 3000 < elapsedMs 4000000000 0 := lt_elapsedMs (by decide) (by decide)
    exact iff_of_true ⟨0, rfl, hlong⟩ hq
  · rw [if_neg hq]
    exact iff_of_false (by simp) hq

theorem isBye_sampleBye : heardOnce.IsBye sampleBye [66] :=
  ⟨{ version := 1, pUuid := [66], type := ByeType }, by decide, rfl⟩

theorem expiry_differs_heardOnce : ∃ r r', heardOnce.runActivityTask 4000000000 = some r ∧
    heardOnce.dispatchDiscoveryMsg sampleBye.fromIp sampleBye.now sampleBye.msg = some r' ∧ r.1 = r'.1 ∧
      ¬ SameEnd r r' :=
  expiry_differs heardOnce [66] 4000000000 sampleBye registered_heardOnce expiresAlone_heardOnce isBye_sampleBye

/-- The process of `heardOnce` is silent for four seconds, or says BYE. -/
theorem expiry_not_bye :
    ¬ ∀ (d : Discovery) (p : Str) (now : Timestamp) (g : Datagram), d.Registered → d.ExpiresAlone now p →
      d.IsBye g p → ∀ r r', d.runActivityTask now = some r →
        d.dispatchDiscoveryMsg g.fromIp g.now g.msg = some r' → SameEnd r r' := by
  intro h
  obtain ⟨r', hbye⟩ : ∃ r', r' = (heardOnce.touch [66] sampleBye.now).recvBye [66] := ⟨_, rfl⟩
  obtain ⟨⟨d', out⟩, hsweep⟩ :=
    Option.isSome_iff_exists.mp (isSome_sweepFrom (d := heardOnce) 4000000000 heardOnce.activity.toList rfl)
  have hsame := h heardOnce [66] 4000000000 sampleBye registered_heardOnce expiresAlone_heardOnce isBye_sampleBye
    (d', out) r' hsweep (hbye ▸ dispatch_bye isBye_sampleBye)
  have hcount := hsame.callbacks .srv (goneArgs [66])
  rw [hbye, out_recvBye registered_heardOnce, out_sweep_alone expiresAlone_heardOnce hsweep] at hcount
  simp at hcount

end Difference

end Discovery

end IgnTransport
