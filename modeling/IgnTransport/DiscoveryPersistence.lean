import Mathlib
import IgnTransport.DiscoveryNetwork

/-!
# IgnTransport.DiscoveryPersistence — how knowledge spreads in the network, and how it is lost

* `forgotten_with_cause`: what is stored of a process is dropped only if that process withdrew it or was destroyed, or
  was silent for too long.
* `heartbeat_teaches`: a heartbeat round that gets through makes its reader know all that it may know, whatever the
  reader knew before.
-/

namespace IgnTransport

open Lib

namespace Discovery

variable {ι : Type} [DecidableEq ι] {G : Group ι}

/-! ## Loss -/

section Loss

/-- Why instance `i`, in state `n`, may drop an entry of instance `j`: a datagram of `j` that is about the withdrawal
of the node's topic or about the end of `j`, or a sweep when all that was ever received from `j` is too old. -/
def Cause (es : List (NetEvent ι (Happening ι))) (n : Net ι Instance Buffer) (i j : ι) (type : MsgType)
    (t nUuid : Str) (e : NetEvent ι (Happening ι)) : Prop :=
  (∃ now rcvStr g, e = ⟨i, .recv now rcvStr j g⟩ ∧ (Withdrawn es j type t nUuid ∨ Destroyed es j)) ∨
    ∃ now, e = ⟨i, .op (.sweep now)⟩ ∧ ∀ heard rcvStr g, ⟨i, .recv heard rcvStr j g⟩ ∈ es →
      elapsedMs now heard > (n.agents i).state.silenceInterval

variable {es : List (NetEvent ι (Happening ι))} {n n' : Net ι Instance Buffer} {e : NetEvent ι (Happening ι)} {i j : ι}
  {type : MsgType} {t : Str} {a : Address}

/-- Every reception of a datagram of `j` counts as hearing from `j`. -/
theorem mem_heardAt (hfit : RunFits es) (h : run (networkStep G) (network G) es = some n) {heard : Timestamp}
    {rcvStr g : Buffer} (hmem : ⟨i, .recv heard rcvStr j g⟩ ∈ es) :
    heard ∈ heardAt (opsOf G i es) (G.pUuid j) := by
  have hwire := (sourced_run hfit h).2 (j, g) (sent_of_consumed h hmem (List.mem_singleton.mpr rfl))
  obtain ⟨pre, post, m, m', -, -, hstep, -⟩ := exists_step_of_mem h hmem
  obtain ⟨-, s, out, hprogram, -⟩ := netStep_eq_some.mp hstep
  obtain ⟨hstr, -⟩ := program_recv hprogram
  obtain ⟨hfill, hshort⟩ := fill_rcvStr hwire.1 hstr
  obtain ⟨header, rest, body, hheader, hp, hbody, -⟩ := hwire.2 _ hshort
  have hsender : (⟨G.ip i j, heard, g.take MaxRcvStr ++ rcvStr.drop g.length⟩ : Datagram).sender =
      some (G.pUuid j).1 := by
    have hread := readMessage_of_decode hshort header.pUuid
    rw [hheader, Option.bind_some, if_pos rfl, ← hfill] at hread
    exact (sender_of_readMessage (g := ⟨G.ip i j, heard, _⟩) hread).trans (congrArg some hp)
  refine List.mem_filterMap.mpr ⟨.datagram ⟨G.ip i j, heard, _⟩, ?_, if_pos hsender⟩
  exact List.mem_filterMap.mpr ⟨.recv heard rcvStr j g,
    List.mem_filterMap.mpr ⟨_, hmem, if_pos rfl⟩, rfl⟩

/-- A sweep drops an entry. -/
theorem cause_sweep (hfit : RunFits es) (h : run (networkStep G) (network G) es = some n)
    (hsteady : Steady (opsOf G i es)) (hij : (G.pUuid j).1 ≠ G.pUuid i) {now : Timestamp} {d' : Discovery}
    {o : List Output} (hsweep : (n.agents i).state.runActivityTask now = some (d', o))
    (ha : a ∈ ((n.agents i).state.info type).cell t (G.pUuid j)) (hgone : a ∉ (d'.info type).cell t (G.pUuid j)) :
    ∀ heard rcvStr g, ⟨i, .recv heard rcvStr j g⟩ ∈ es →
      elapsedMs now heard > (n.agents i).state.silenceInterval := by
  obtain ⟨-, -, hkept⟩ := peer_runActivityTask hsweep
  have hexpired : (n.agents i).state.Expired now (G.pUuid j) := by
    by_contra hnot
    exact hgone (cell_of_peer (hkept _ hnot) type t ▸ ha)
  have hall := (expired_iff (accounted_run (run_state h i)) hsteady hij ⟨type, t, List.ne_nil_of_mem ha⟩ now).mp
    hexpired
  exact fun heard rcvStr g hmem => hall heard (mem_heardAt hfit h hmem)

/-- A received datagram drops an entry. -/
theorem cause_recv (hinj : Function.Injective G.pUuid) (hfit : RunFits es)
    (h : run (networkStep G) (network G) es = some n) {k : ι} {now : Timestamp} {rcvStr g : Buffer}
    (hsent : (k, g) ∈ n.sent) (hstr : rcvStr.length = MaxRcvStr) {d' : Discovery} {o : List Output}
    (hrecv : (n.agents i).state.recvDiscoveryUpdate (G.ip i k) now g rcvStr = some (d', o))
    (ha : a ∈ ((n.agents i).state.info type).cell t (G.pUuid j)) (hgone : a ∉ (d'.info type).cell t (G.pUuid j)) :
    k = j ∧ (Withdrawn es j type t a.nUuid ∨ Destroyed es j) := by
  rcases recv_says (d := (n.agents i).state) ((sourced_run hfit h).2 _ hsent) (G.ip i k) now hstr with
    ⟨-, hown⟩ | ⟨-, header, body, -, hbody, -, hother⟩
  · rw [hown, Option.some.injEq, Prod.mk.injEq] at hrecv
    exact absurd (hrecv.1 ▸ ha) hgone
  · rw [hother] at hrecv
    rw [cell_handle hrecv, info_touch] at hgone
    split_ifs at hgone with hq
    · obtain rfl : j = k := hinj (Subtype.ext hq)
      refine ⟨rfl, ?_⟩
      have hold : a ∈ (((n.agents i).state.touch (G.pUuid j) now).peer (G.pUuid j)).entries type t := by
        change a ∈ (((n.agents i).state.touch (G.pUuid j) now).info type).cell t _
        rw [info_touch]
        exact ha
      rcases lost_apply hold hgone with rfl | ⟨m, rfl, rfl, hn, hscope⟩
      · exact .inr hbody
      · exact .inl (hn ▸ hbody hscope)
    · exact absurd ha hgone

/-- **One step**: an entry of another instance is dropped for a cause. -/
theorem cause_step (hinj : Function.Injective G.pUuid) (hfit : RunFits es)
    (h : run (networkStep G) (network G) es = some n) (hsteady : Steady (opsOf G i es)) (hij : j ≠ i)
    (hstep : networkStep G n e = some n') (ha : a ∈ ((n.agents i).state.info type).cell t (G.pUuid j))
    (hgone : a ∉ ((n'.agents i).state.info type).cell t (G.pUuid j)) : Cause es n i j type t a.nUuid e := by
  obtain ⟨k, x⟩ := e
  obtain ⟨hconsumed, s, out, hprogram, rfl⟩ := netStep_eq_some.mp hstep
  by_cases hk : i = k
  · subst hk
    rw [agents_update_self] at hgone
    have hne : (G.pUuid j).1 ≠ (n.agents i).state.pUuid := fun heq =>
      hij (hinj (Subtype.ext (heq.trans ((sourced_run hfit h).1 i).pUuid)))
    have hunchanged : s.state = (n.agents i).state → False := fun hstate => hgone (hstate ▸ ha)
    cases x with
    | op op =>
      obtain ⟨hinternal, o, hperform, -⟩ := program_op hprogram
      by_cases hsweep : ∃ now, op = .sweep now
      · obtain ⟨now, rfl⟩ := hsweep
        have hij' : (G.pUuid j).1 ≠ G.pUuid i := fun heq => hij (hinj (Subtype.ext heq))
        exact .inr ⟨now, rfl, cause_sweep hfit h hsteady hij' hperform ha hgone⟩
      · have hunrelated : op.Unrelated (G.pUuid j) := by
          cases op with
          | sweep now => exact absurd ⟨now, rfl⟩ hsweep
          | datagram g => exact absurd hinternal id
          | _ => exact trivial
        have hkept := (peer_step_unrelated hne hunrelated (step_of_perform hperform)).2.2
        refine absurd ?_ hgone
        rw [show (s.state.info type).cell t (G.pUuid j) = (s.state.peer (G.pUuid j)).entries type t from rfl, hkept]
        exact ha
    | destroy =>
      rcases program_eq_some hprogram with ⟨op, o, hop, -⟩ | ⟨-, hstate, -⟩ | ⟨hx, -⟩
      · cases hop
      · exact (hunchanged hstate).elim
      · cases hx
    | crash =>
      rcases program_eq_some hprogram with ⟨op, o, hop, -⟩ | ⟨hx, -⟩ | ⟨-, hstate, -⟩
      · cases hop
      · cases hx
      · exact (hunchanged hstate).elim
    | recv now rcvStr k g =>
      obtain ⟨hstr, o, hrecv, -⟩ := program_recv hprogram
      obtain ⟨rfl, hwhy⟩ := cause_recv hinj hfit h (hconsumed (k, g) (List.mem_singleton.mpr rfl)) hstr hrecv ha hgone
      exact .inl ⟨now, rcvStr, g, rfl, hwhy⟩
  · rw [agents_update_of_ne n hk] at hgone
    exact absurd ha hgone

theorem steady_opsOf_left {pre post : List (NetEvent ι (Happening ι))} (h : Steady (opsOf G i (pre ++ post))) :
    Steady (opsOf G i pre) := by
  refine List.Pairwise.sublist ?_ h
  refine List.Sublist.filterMap _ (List.Sublist.filterMap _ (List.Sublist.filterMap _ ?_))
  exact List.sublist_append_left pre post

/-- **Nothing is forgotten without a cause.**  If an instance stores an entry of another one at some moment of a run
and no longer does so at a later one, there was a cause in between. -/
theorem forgotten_with_cause (hinj : Function.Injective G.pUuid) {pre mid : List (NetEvent ι (Happening ι))}
    (hfit : RunFits (pre ++ mid)) (hpre : run (networkStep G) (network G) pre = some n)
    (hmid : run (networkStep G) n mid = some n') (hsteady : Steady (opsOf G i (pre ++ mid))) (hij : j ≠ i)
    (ha : a ∈ ((n.agents i).state.info type).cell t (G.pUuid j))
    (hgone : a ∉ ((n'.agents i).state.info type).cell t (G.pUuid j)) :
    ∃ before e after m, mid = before ++ e :: after ∧ run (networkStep G) n before = some m ∧
      Cause (pre ++ before) m i j type t a.nUuid e := by
  obtain ⟨before, e, after, m, m', rfl, hbefore, hstep, hm, hm'⟩ := exists_step_of_lost
    (P := fun m : Net ι Instance Buffer => a ∈ ((m.agents i).state.info type).cell t (G.pUuid j)) hmid ha hgone
  rw [← List.append_assoc] at hfit hsteady
  exact ⟨before, e, after, m, rfl, hbefore, cause_step hinj hfit.left (run_append_eq_some.mpr ⟨n, hpre, hbefore⟩)
    (steady_opsOf_left hsteady) hij hstep hm hm'⟩

/-- The first instance has advertised its topic and is gone; the second one hears of both. -/
def pairGone : List (NetEvent Bool (Happening Bool)) := [pairAdvertise, ⟨false, .destroy⟩]

/-- The BYE of the first instance. -/
def pairBye : Buffer := headerCodec.encode ((start (pairGroup.pUuid false) [1]).header ByeType 0)

theorem pair_gone : ∃ n, run (networkStep pairGroup) (network pairGroup) pairGone = some n ∧
    (false, advDatagram pairMsg) ∈ n.sent ∧ (false, pairBye) ∈ n.sent ∧ (n.agents true).up = true := by
  have hany : (run (networkStep pairGroup) (network pairGroup) pairGone).any (fun n =>
      (false, advDatagram pairMsg) ∈ n.sent ∧ (false, pairBye) ∈ n.sent ∧ (n.agents true).up = true) = true := by
    decide +kernel
  exact exists_of_any hany

theorem says_pairBye : Says (pairGroup.pUuid false) pairBye (· = .bye) := by
  have hbye : (start (pairGroup.pUuid false) [1]).destroy = some [.sendto pairBye] := by decide +kernel
  have hsent : pairBye ∈ transmitted [.sendto pairBye] :=
    mem_transmitted.mpr ⟨List.mem_singleton.mpr rfl, by decide +kernel⟩
  refine (says_destroy (by decide) hbye hsent).mono fun body hbody => ?_
  rcases hbody with hbody | ⟨-, hnil⟩
  · exact hbody
  · exact absurd hnil (by decide)

/-- The second instance drops the topic when it hears the BYE. -/
theorem forgotten_with_cause_pair : ∃ n n' b, run (networkStep pairGroup) (network pairGroup)
      (pairGone ++ [⟨true, .recv 5 freshBuffer false (advDatagram pairMsg)⟩]) = some n ∧
    run (networkStep pairGroup) n [⟨true, .recv 6 freshBuffer false pairBye⟩] = some n' ∧
    b ∈ ((n.agents true).state.info .msg).cell [116] (pairGroup.pUuid false) ∧
    ∃ before e after m, [⟨true, .recv 6 freshBuffer false pairBye⟩] = before ++ e :: after ∧
      run (networkStep pairGroup) n before = some m ∧
      Cause (pairGone ++ [⟨true, .recv 5 freshBuffer false (advDatagram pairMsg)⟩] ++ before) m true false .msg [116]
        b.nUuid e := by
  obtain ⟨n₀, hn₀, hadv, hbye, hup₀⟩ := pair_gone
  have hfit₀ : RunFits pairGone := (pair_fits.concat fun op hop => by cases hop)
  obtain ⟨n, b, hstep, hup, hb⟩ := pair_hears hfit₀ hn₀ hup₀ hadv
  have hfit := hfit₀.concat (e := ⟨true, .recv 5 freshBuffer false (advDatagram pairMsg)⟩) fun op hop => by cases hop
  have hn := run_concat.mpr ⟨n₀, hn₀, hstep⟩
  obtain ⟨n', hn', -⟩ := exists_delivery hfit hn hup (sent_mono (run_singleton.mpr hstep) hbye) 6 length_freshBuffer
  have hfit' := hfit.concat (e := ⟨true, .recv 6 freshBuffer false pairBye⟩) fun op hop => by cases hop
  -- what the BYE leaves of the first instance
  have hgone : b ∉ ((n'.agents true).state.info .msg).cell [116] (pairGroup.pUuid false) := by
    obtain ⟨-, s, out, hprogram, rfl⟩ := netStep_eq_some.mp hn'
    obtain ⟨hstr, o, hrecv, -⟩ := program_recv hprogram
    rw [agents_update_self]
    rcases recv_says (d := (n.agents true).state) says_pairBye _ 6 hstr with
      ⟨hown, -⟩ | ⟨-, header, body, -, rfl, -, hother⟩
    · rw [((sourced_run hfit hn).1 true).pUuid] at hown
      exact absurd hown (by decide)
    · rw [hother] at hrecv
      rw [cell_handle hrecv, if_pos rfl]
      exact List.not_mem_nil
  have hsteady : Steady (opsOf pairGroup true
      (pairGone ++ [⟨true, .recv 5 freshBuffer false (advDatagram pairMsg)⟩] ++
        [⟨true, .recv 6 freshBuffer false pairBye⟩])) := by
    simp [Steady, clock, opsOf, inputsOf, opOf, pairGone, pairAdvertise]
  exact ⟨n, n', b, hn, run_singleton.mpr hn', hb, forgotten_with_cause (by decide) hfit' hn (run_singleton.mpr hn')
    hsteady (by decide) hb hgone⟩

end Loss

/-! ## Spread -/

section Spread

variable {i j : ι} {type : MsgType} {t : Str} {a : Address}

/-- A heartbeat round sends the datagram of every own entry that fits in one. -/
theorem mem_round {pre : List (NetEvent ι (Happening ι))} {n n₁ : Net ι Instance Buffer} (hfit : RunFits pre)
    (hpre : run (networkStep G) (network G) pre = some n) (hround : networkStep G n ⟨j, .op .heartbeat⟩ = some n₁)
    (ha : a ∈ ((n.agents j).state.info type).cell t (n.agents j).state.pUuid)
    (hsend : Sendable ((n.agents j).state.entryMsg (advType type) t a)) :
    (j, advDatagram ((n.agents j).state.entryMsg (advType type) t a)) ∈ n₁.sent.drop n.sent.length := by
  have hready := ((sourced_run hfit hpre).1 j).ready
  obtain ⟨-, s, out, hprogram, rfl⟩ := netStep_eq_some.mp hround
  obtain ⟨-, o, hheartbeat, rfl⟩ := program_op hprogram
  have hsent : (n.update j (s, transmitted o)).sent = n.sent ++ (transmitted o).map fun p => (j, p) := rfl
  rw [hsent, List.drop_left]
  refine List.mem_map_of_mem (mem_transmitted.mpr ⟨?_, by rw [length_advDatagram]; exact hsend.2⟩)
  have hheartbeat' : (n.agents j).state.heartbeat = some (s.state, o) := hheartbeat
  rw [heartbeat_eq hready.fits, Option.some.injEq, Prod.mk.injEq] at hheartbeat'
  rw [← hheartbeat'.2]
  have hentry := List.mem_map_of_mem (f := (n.agents j).state.entrySent (advType type))
    (mem_ownEntries.mpr ha : (t, a) ∈ _)
  refine List.mem_cons_of_mem _ (List.mem_append.mpr ?_)
  cases type with
  | msg => exact .inl hentry
  | srv => exact .inr hentry

/-- From the delivery of an advertisement on, its reader knows the entry, unless there was a cause to drop it. -/
theorem known_or_cause (hinj : Function.Injective G.pUuid) {pre post : List (NetEvent ι (Happening ι))}
    {n n₁ n' : Net ι Instance Buffer} {now : Timestamp} {rcvStr g : Buffer} {m : AdvertiseMsg}
    (hfit : RunFits (pre ++ ⟨i, .recv now rcvStr j g⟩ :: post))
    (hpre : run (networkStep G) (network G) pre = some n)
    (hrecv : networkStep G n ⟨i, .recv now rcvStr j g⟩ = some n₁) (hpost : run (networkStep G) n₁ post = some n')
    (hsteady : Steady (opsOf G i (pre ++ ⟨i, .recv now rcvStr j g⟩ :: post))) (hij : j ≠ i)
    (hspoken : Says (G.pUuid j) g fun body => body = .advertise type m)
    (hshown : ¬ Hides (G.host i) (G.ip i j) m.scope) :
    (∃ b ∈ ((n'.agents i).state.info type).cell m.topic (G.pUuid j), b.addr = m.addr ∧ b.nUuid = m.nUuid) ∨
      ∃ before e after k, post = before ++ e :: after ∧ run (networkStep G) n₁ before = some k ∧
        Cause (pre ++ ⟨i, .recv now rcvStr j g⟩ :: before) k i j type m.topic m.nUuid e := by
  have hi := (sourced_run hfit.left hpre).1 i
  obtain ⟨-, s, out, hprogram, heq⟩ := netStep_eq_some.mp hrecv
  obtain ⟨hstr, o, hreceived, -⟩ := program_recv hprogram
  have hne : (G.pUuid j).1 ≠ (n.agents i).state.pUuid := fun heq =>
    hij (hinj (Subtype.ext (heq.trans hi.pUuid)))
  rw [← hi.hostAddr] at hshown
  obtain ⟨b, hb, haddr, hn⟩ := known_of_recv hne hspoken hstr hshown hreceived
  have hb₁ : b ∈ ((n₁.agents i).state.info type).cell m.topic (G.pUuid j) := by
    rw [heq, agents_update_self]
    exact hb
  by_cases hend : b ∈ ((n'.agents i).state.info type).cell m.topic (G.pUuid j)
  · exact .inl ⟨b, hend, haddr, hn⟩
  · rw [List.append_cons] at hfit hsteady
    obtain ⟨before, e, after, k, rfl, hbefore, hcause⟩ := forgotten_with_cause hinj hfit
      (run_concat.mpr ⟨n, hpre, hrecv⟩) hpost hsteady hij hb₁ hend
    rw [hn, ← List.append_cons] at hcause
    exact .inr ⟨before, e, after, k, rfl, hbefore, hcause⟩

/-- **A heartbeat round teaches.**  Whatever instance `i` knew, once every datagram of a heartbeat round of `j` has
reached it, in any order and among any other events, it has an entry with the address and the node UUID of each own
entry of `j` that it may see and that fits in a datagram, unless there was a cause to drop the entry since. -/
theorem heartbeat_teaches (hinj : Function.Injective G.pUuid) {pre mid : List (NetEvent ι (Happening ι))}
    {n n₁ n' : Net ι Instance Buffer} (hfit : RunFits (pre ++ ⟨j, .op .heartbeat⟩ :: mid))
    (hpre : run (networkStep G) (network G) pre = some n)
    (hround : networkStep G n ⟨j, .op .heartbeat⟩ = some n₁) (hmid : run (networkStep G) n₁ mid = some n')
    (hsteady : Steady (opsOf G i (pre ++ ⟨j, .op .heartbeat⟩ :: mid))) (hij : j ≠ i)
    (hdelivered : ∀ x ∈ n₁.sent.drop n.sent.length, ∃ now rcvStr, ⟨i, .recv now rcvStr x.1 x.2⟩ ∈ mid)
    (ha : a ∈ ((n.agents j).state.info type).cell t (G.pUuid j)) (hshown : ¬ Hides (G.host i) (G.ip i j) a.scope)
    (hsend : Sendable ((n.agents j).state.entryMsg (advType type) t a)) :
    (∃ b ∈ ((n'.agents i).state.info type).cell t (G.pUuid j), b.addr = a.addr ∧ b.nUuid = a.nUuid) ∨
      ∃ before e after m, mid = before ++ e :: after ∧ run (networkStep G) n₁ before = some m ∧
        Cause (pre ++ ⟨j, .op .heartbeat⟩ :: before) m i j type t a.nUuid e := by
  have hj := (sourced_run hfit.left hpre).1 j
  rw [← hj.pUuid] at ha
  have hspoken := says_entry_advertise hj.ready.fits ha hsend
  rw [hj.pUuid] at hspoken
  -- the datagram of the entry is one of the round, so it is delivered
  obtain ⟨now, rcvStr, hmem⟩ := hdelivered _ (mem_round hfit.left hpre hround ha hsend)
  obtain ⟨mid₁, mid₂, m, m', rfl, hmid₁, hrecv, hmid₂⟩ := exists_step_of_mem hmid hmem
  have hpre₁ := run_append_eq_some.mpr ⟨n, hpre, run_cons_eq_some.mpr ⟨_, hround, hmid₁⟩⟩
  rw [← List.cons_append, ← List.append_assoc] at hfit hsteady
  rcases known_or_cause hinj hfit hpre₁ hrecv hmid₂ hsteady hij hspoken hshown with
    hknown | ⟨before, e, after, k, rfl, hbefore, hcause⟩
  · exact .inl hknown
  · rw [List.append_assoc, List.cons_append] at hcause
    refine .inr ⟨_, e, after, k, by rw [List.append_assoc, List.cons_append], ?_, hcause⟩
    exact run_append_eq_some.mpr ⟨m, hmid₁, run_cons_eq_some.mpr ⟨_, hrecv, hbefore⟩⟩

/-- The first instance advertises, sends a heartbeat round, and both datagrams of the round are delivered. -/
def pairRound : List (NetEvent Bool (Happening Bool)) :=
  [⟨true, .recv 5 freshBuffer false (heartbeatSent (start (pairGroup.pUuid false) [1]))⟩,
    ⟨true, .recv 6 freshBuffer false (advDatagram pairMsg)⟩]

theorem pair_round : ∃ n n₁, run (networkStep pairGroup) (network pairGroup) [pairAdvertise] = some n ∧
    networkStep pairGroup n ⟨false, .op .heartbeat⟩ = some n₁ ∧
    n₁.sent.drop n.sent.length = [(false, heartbeatSent (start (pairGroup.pUuid false) [1])),
      (false, advDatagram pairMsg)] ∧ (n₁.agents true).up = true ∧
    ⟨[97], [], [110], .all⟩ ∈ ((n.agents false).state.info .msg).cell [116] (pairGroup.pUuid false) := by
  have hany : (run (networkStep pairGroup) (network pairGroup) [pairAdvertise]).any (fun n =>
      ⟨[97], [], [110], .all⟩ ∈ ((n.agents false).state.info .msg).cell [116] (pairGroup.pUuid false) ∧
      (networkStep pairGroup n ⟨false, .op .heartbeat⟩).any (fun n₁ =>
        n₁.sent.drop n.sent.length = [(false, heartbeatSent (start (pairGroup.pUuid false) [1])),
          (false, advDatagram pairMsg)] ∧ (n₁.agents true).up = true) = true) = true := by decide +kernel
  obtain ⟨n, hn, ha, hround⟩ := exists_of_any hany
  obtain ⟨n₁, hn₁, hsent, hup⟩ := exists_of_any hround
  exact ⟨n, n₁, hn, hn₁, hsent, hup, ha⟩

theorem pairRound_fits : RunFits ([pairAdvertise] ++ ⟨false, .op .heartbeat⟩ :: pairRound) := by
  intro e he op hop
  simp only [pairRound, List.cons_append, List.nil_append, List.mem_cons, List.not_mem_nil, or_false] at he
  rcases he with rfl | rfl | rfl | rfl
  · exact pair_fits pairAdvertise (List.mem_singleton.mpr rfl) op hop
  · cases hop
    exact trivial
  · cases hop
  · cases hop

theorem heartbeat_teaches_pair : ∃ n', run (networkStep pairGroup) (network pairGroup)
      ([pairAdvertise] ++ ⟨false, .op .heartbeat⟩ :: pairRound) = some n' ∧
    ∃ b ∈ ((n'.agents true).state.info .msg).cell [116] (pairGroup.pUuid false), b.addr = [97] ∧ b.nUuid = [110] := by
  obtain ⟨n, n₁, hn, hn₁, hsent, hup, ha⟩ := pair_round
  have hrun₁ := run_concat.mpr ⟨n, hn, hn₁⟩
  have hmem : ∀ x ∈ n₁.sent.drop n.sent.length, x ∈ n₁.sent := fun x hx => List.mem_of_mem_drop hx
  rw [hsent] at hmem
  have hfits : ∀ pre post : List (NetEvent Bool (Happening Bool)),
      [pairAdvertise] ++ ⟨false, .op .heartbeat⟩ :: pairRound = pre ++ post → RunFits pre := fun pre post heq =>
    (heq ▸ pairRound_fits).left
  obtain ⟨n₂, hn₂, hup₂⟩ := exists_delivery (hfits _ pairRound rfl) hrun₁ hup
    (hmem _ List.mem_cons_self) 5 length_freshBuffer
  have hrun₂ := run_concat.mpr ⟨n₁, hrun₁, hn₂⟩
  obtain ⟨n₃, hn₃, -⟩ := exists_delivery (hfits _ [_] rfl) hrun₂ hup₂
    (sent_mono (run_singleton.mpr hn₂) (hmem _ (List.mem_cons_of_mem _ List.mem_cons_self))) 6 length_freshBuffer
  have hmid : run (networkStep pairGroup) n₁ pairRound = some n₃ :=
    run_cons_eq_some.mpr ⟨n₂, hn₂, run_singleton.mpr hn₃⟩
  refine ⟨n₃, run_append_eq_some.mpr ⟨n, hn, run_cons_eq_some.mpr ⟨n₁, hn₁, hmid⟩⟩, ?_⟩
  have hown : (n.agents false).state.entryMsg (advType .msg) [116] ⟨[97], [], [110], .all⟩ = pairMsg := by
    have hp := ((sourced_run pair_fits hn).1 false).pUuid
    simp only [entryMsg, advMsg, header, hp, pairMsg, start]
    rfl
  have hsteady : Steady (opsOf pairGroup true ([pairAdvertise] ++ ⟨false, .op .heartbeat⟩ :: pairRound)) := by
    simp [Steady, clock, opsOf, inputsOf, opOf, pairRound, pairAdvertise]
  have hdelivered : ∀ x ∈ n₁.sent.drop n.sent.length, ∃ now rcvStr,
      (⟨true, .recv now rcvStr x.1 x.2⟩ : NetEvent Bool (Happening Bool)) ∈ pairRound := by
    intro x hx
    rw [hsent] at hx
    simp only [List.mem_cons, List.not_mem_nil, or_false] at hx
    rcases hx with rfl | rfl
    · exact ⟨5, freshBuffer, List.mem_cons_self⟩
    · exact ⟨6, freshBuffer, List.mem_cons_of_mem _ List.mem_cons_self⟩
  rcases heartbeat_teaches (i := true) (j := false) (by decide) pairRound_fits hn hn₁ hmid hsteady (by decide)
    hdelivered ha (by decide) (by rw [hown]; decide +kernel) with hknown | ⟨before, e, after, m, hsplit, -, hcause⟩
  · exact hknown
  · have hin : ∀ e' ∈ before, e' ∈ pairRound := fun e' he' => hsplit ▸ List.mem_append_left _ he'
    have hlast : e ∈ pairRound := hsplit ▸ List.mem_append_right _ List.mem_cons_self
    exfalso
    rcases hcause with ⟨now, rcvStr, g, rfl, hwithdrawn | hdestroyed⟩ | ⟨now, rfl, -⟩
    · rcases List.mem_append.mp hwithdrawn with h | h
      · simp [pairAdvertise] at h
      · rcases List.mem_cons.mp h with h | h
        · cases h
        · simpa [pairRound] using hin _ h
    · rcases List.mem_append.mp hdestroyed with h | h
      · simp [pairAdvertise] at h
      · rcases List.mem_cons.mp h with h | h
        · cases h
        · simpa [pairRound] using hin _ h
    · simp [pairRound] at hlast

end Spread

end Discovery

end IgnTransport
