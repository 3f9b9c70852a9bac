import Mathlib
import IgnTransport.DiscoveryOutputs

/-!
# IgnTransport.DiscoveryScope — what an instance takes in from outside

The scope filter of the receiver, along whole runs.  Everything stored of another process was brought by one
ADVERTISE datagram that passed the filter (`Brought`), and nothing that a datagram makes the connection callbacks hear
of is hidden from this host (`scope_filter`).
-/

namespace IgnTransport

open Lib

namespace Discovery

/-! ## Steps -/

section Steps

variable {d d' : Discovery} {op : Op} {out : List Output}

theorem step_eq_some : d.step op = some d' ↔ ∃ out, d.perform op = some (d', out) := by
  constructor
  · intro h
    cases op with
    | setConnectionsCb type set => exact ⟨[], by rw [perform, ← Option.some.inj h]⟩
    | setDisconnectionsCb type set => exact ⟨[], by rw [perform, ← Option.some.inj h]⟩
    | setSilenceInterval ms => exact ⟨[], by rw [perform, ← Option.some.inj h]⟩
    | datagram g => exact dispatch_eq_some h
    | _ =>
      obtain ⟨⟨e, out⟩, he, rfl⟩ := Option.map_eq_some_iff.mp h
      exact ⟨out, he⟩
  · rintro ⟨out, h⟩
    exact step_of_perform h

/-- The host address is fixed. -/
theorem hostAddr_step (h : d.step op = some d') : d'.hostAddr = d.hostAddr := by
  obtain ⟨out, h⟩ := step_eq_some.mp h
  cases op with
  | advertise type topic addr ctrl nUuid scope => exact hostAddr_of_fixed (peer_advertise h).1
  | unadvertise type topic nUuid => exact hostAddr_of_fixed (peer_unadvertise h).1
  | discover topic isSrv => rw [state_discover h]
  | datagram g => exact hostAddr_of_fixed (fixed_dispatch (step_of_perform h))
  | heartbeat => rw [state_heartbeat h]
  | sweep now => exact hostAddr_of_fixed (peer_runActivityTask h).1
  | setConnectionsCb type set =>
    obtain rfl := (Prod.mk.inj (Option.some.inj h)).1
    cases type <;> rfl
  | setDisconnectionsCb type set =>
    obtain rfl := (Prod.mk.inj (Option.some.inj h)).1
    cases type <;> rfl
  | setSilenceInterval ms =>
    obtain rfl := (Prod.mk.inj (Option.some.inj h)).1
    rfl

theorem hostAddr_run {pUuid hostAddr : Str} {ops : List Op} (h : run step (start pUuid hostAddr) ops = some d) :
    d.hostAddr = hostAddr :=
  run_invariant (fun e : Discovery => e.hostAddr = hostAddr) rfl
    (fun _ _ _ he hstep => (hostAddr_step hstep).trans he) h

theorem not_hides_iff {hostAddr fromIp : Str} {scope : Scope} :
    ¬ Hides hostAddr fromIp scope ↔ scope ≠ .process ∧ (scope = .host → fromIp = hostAddr) := by
  unfold Hides
  push Not
  rfl

/-- A connection callback of a datagram is about the ADVERTISE that it carries, which passed the filter. -/
theorem mem_connection_dispatch {g : Datagram} (h : d.perform (.datagram g) = some (d', out)) {type : MsgType}
    {args : CallbackArgs} (hmem : .connection type args ∈ out) :
    ∃ header m, readMessage d.pUuid g.msg = some (header, some (.advertise type m)) ∧
      args = advArgs header.pUuid m ∧ ¬ Hides d.hostAddr g.fromIp m.scope := by
  obtain ⟨-, header, m, hread, hshown, -, rfl⟩ := (mem_connection_perform h).mp hmem
  exact ⟨header, m, hread, rfl, hshown⟩

end Steps

/-! ## The filter -/

section Filter

/-- In the run of `pre`, then the datagram `g`, then `post`: an entry of process `q` that was not there is the one
that `g` advertises, and it has been stored ever since. -/
structure Brought (s₀ : Discovery) (pre : List Op) (g : Datagram) (post : List Op) (type : MsgType) (t q : Str)
    (a : Address) : Prop where
  advertised : ∃ header m, readMessage s₀.pUuid g.msg = some (header, some (.advertise type m)) ∧
    header.pUuid = q ∧ m.topic = t ∧ Peer.addressOf m = a
  before : ∀ d, run step s₀ pre = some d → a ∉ (d.info type).cell t q
  since : ∀ mid, mid <+: post → ∀ d, run step s₀ (pre ++ .datagram g :: mid) = some d →
    a ∈ (d.info type).cell t q

variable {pUuid hostAddr : Str} {ops : List Op} {d d' : Discovery} {op : Op} {type : MsgType} {t q : Str}
  {a : Address}

/-- An entry that is still there after one more step. -/
theorem Brought.concat {s₀ : Discovery} {pre post : List Op} {g : Datagram}
    (h : Brought s₀ pre g post type t q a) (hrun : run step s₀ (pre ++ .datagram g :: (post ++ [op])) = some d')
    (ha : a ∈ (d'.info type).cell t q) : Brought s₀ pre g (post ++ [op]) type t q a where
  advertised := h.advertised
  before := h.before
  since mid hmid e he := by
    rcases List.prefix_concat_iff.mp hmid with rfl | hmid
    · obtain rfl : e = d' := Option.some.inj (he.symm.trans hrun)
      exact ha
    · exact h.since mid hmid e he

/-- What is stored of other processes was brought by datagrams that passed the filter. -/
def Filtered (pUuid hostAddr : Str) (ops : List Op) (d : Discovery) : Prop :=
  ∀ type t q, q ≠ pUuid → ∀ a ∈ (d.info type).cell t q, ∃ pre g post, ops = pre ++ .datagram g :: post ∧
    Brought (start pUuid hostAddr) pre g post type t q a ∧ ¬ Hides hostAddr g.fromIp a.scope

theorem filtered_step (hrun : run step (start pUuid hostAddr) ops = some d) (h : Filtered pUuid hostAddr ops d)
    (hstep : d.step op = some d') : Filtered pUuid hostAddr (ops ++ [op]) d' := by
  intro type t q hq a ha
  obtain ⟨out, hperform⟩ := step_eq_some.mp hstep
  obtain ⟨hp, hheard⟩ := accounted_run hrun
  have hrun' : run step (start pUuid hostAddr) (ops ++ [op]) = some d' := run_concat.mpr ⟨d, hrun, hstep⟩
  by_cases hold : a ∈ (d.info type).cell t q
  · obtain ⟨pre, g, post, rfl, hbrought, hshown⟩ := h type t q hq a hold
    rw [List.append_assoc, List.cons_append] at hrun' ⊢
    exact ⟨pre, g, post ++ [op], rfl, hbrought.concat hrun' ha, hshown⟩
  · rcases mem_info_perform hperform ((hheard d.pUuid).own hp) ha with hmem | ⟨hown, -⟩ | hnew
    · exact absurd hmem hold
    · exact absurd (hown.trans hp) hq
    · obtain ⟨-, g, header, m, rfl, hread, rfl, hshown, -, rfl, rfl, -⟩ := hnew
      rw [hostAddr_run hrun] at hshown
      refine ⟨ops, g, [], rfl, ⟨⟨header, m, hp ▸ hread, rfl, rfl, rfl⟩, fun e he => ?_, fun mid hmid e he => ?_⟩,
        hshown⟩
      · obtain rfl : e = d := Option.some.inj (he.symm.trans hrun)
        exact hold
      · obtain rfl := List.prefix_nil.mp hmid
        obtain rfl : e = d' := Option.some.inj (he.symm.trans hrun')
        exact ha

theorem filtered_run (hrun : run step (start pUuid hostAddr) ops = some d) : Filtered pUuid hostAddr ops d := by
  refine (run_induct (fun pre e => run step (start pUuid hostAddr) pre = some e ∧ Filtered pUuid hostAddr pre e)
    ⟨rfl, ?_⟩ ?_ hrun).2
  · intro type t q _ a ha
    cases type <;> exact absurd ha (by simp [start, info])
  · rintro pre e op e' ⟨hrun, h⟩ hstep
    exact ⟨run_concat.mpr ⟨e, hrun, hstep⟩, filtered_step hrun h hstep⟩

/-- **The scope filter of the receiver.** -/
theorem scope_filter (pUuid hostAddr : Str) (ops : List Op) (d : Discovery)
    (hrun : run step (start pUuid hostAddr) ops = some d) :
    (∀ type t q, q ≠ pUuid → ∀ a ∈ (d.info type).cell t q, a.scope ≠ .process ∧
      ∃ pre g post, ops = pre ++ .datagram g :: post ∧ Brought (start pUuid hostAddr) pre g post type t q a ∧
        (a.scope = .host → g.fromIp = hostAddr)) ∧
    ∀ pre g, pre ++ [.datagram g] <+: ops → ∀ e e' out,
      run step (start pUuid hostAddr) pre = some e → e.perform (.datagram g) = some (e', out) →
      ∀ type args, .connection type args ∈ out →
        args.pUuid ≠ pUuid ∧ args.scope ≠ .process ∧ (args.scope = .host → g.fromIp = hostAddr) := by
  constructor
  · intro type t q hq a ha
    obtain ⟨pre, g, post, hops, hbrought, hshown⟩ := filtered_run hrun type t q hq a ha
    obtain ⟨hscope, hhost⟩ := not_hides_iff.mp hshown
    exact ⟨hscope, pre, g, post, hops, hbrought, hhost⟩
  · intro pre g _ e e' out he hperform type args hmem
    obtain ⟨header, m, hread, rfl, hshown⟩ := mem_connection_dispatch hperform hmem
    rw [hostAddr_run he] at hshown
    refine ⟨fun hown => ?_, not_hides_iff.mp hshown⟩
    have habout : about e.pUuid g = some header.pUuid := by rw [about, hread]; rfl
    exact about_ne_own e.pUuid g (habout.trans (congrArg some (hown.trans (accounted_run he).1.symm)))

/-- An ADVERTISE of scope Host, from a process on the same host. -/
def hostAdvertisement : Datagram :=
  ⟨[1], 5, ((start [66] [1]).advMsg AdvType [116] [97] [] [110] .host 0).encode⟩

theorem scope_filter_host :
    ∃ d, run step (start [65] [1]) [.datagram hostAdvertisement] = some d ∧
      ⟨[97], [], [110], .host⟩ ∈ (d.info .msg).cell [116] [66] ∧
      ∃ pre g post, [.datagram hostAdvertisement] = pre ++ .datagram g :: post ∧
        Brought (start [65] [1]) pre g post .msg [116] [66] ⟨[97], [], [110], .host⟩ ∧ g.fromIp = [1] := by
  have hstored : (run step (start [65] [1]) [.datagram hostAdvertisement]).any (fun d =>
      (d.info .msg).cell [116] [66] = [⟨[97], [], [110], .host⟩]) = true := by decide
  obtain ⟨d, hd, hstored⟩ := exists_of_any hstored
  have hmem : ⟨[97], [], [110], .host⟩ ∈ (d.info .msg).cell [116] [66] := by simp [hstored]
  obtain ⟨-, pre, g, post, hops, hbrought, hhost⟩ :=
    (scope_filter [65] [1] _ d hd).1 .msg [116] [66] (by decide) _ hmem
  exact ⟨d, hd, hmem, pre, g, post, hops, hbrought, hhost rfl⟩

end Filter

end Discovery

end IgnTransport
