import Mathlib
import IgnTransport.PacketWire

/-!
# IgnTransport.PacketRefusals — what `Pack` returns of any message whatever

`Pack` refuses an incomplete message with 0, but on the way it may print the message, and the printing looks the type
up with a bounds check.  It takes the length of the header for an `int`, moves by it and tells by a 0 that the header
was refused.  `outcome` is what `Pack` returns of any message in a buffer that is large enough (`yields_outcome`).

* `packs_cleanly_iff`: `Pack` returns, and returns 0 exactly for an incomplete message and the length for a complete
  one, iff a message that is printed has a known type and the length of the header is positive as an `int`.
-/

namespace IgnTransport

open Lib

/-! ## Packets -/

section Packets

/-- A packet of any class. -/
inductive Packet where
  | hdr (h : Header)
  | sub (m : SubscriptionMsg)
  | base (m : AdvertiseBase)
  | adv (m : AdvertiseMsg)
  | srv (m : AdvertiseSrv)
  deriving DecidableEq, Repr

namespace Packet

def header : Packet → Header
  | hdr h => h
  | sub m => m.header
  | base m => m.header
  | adv m => m.header
  | srv m => m.header

/-- `Pack`. -/
def pack : Packet → Buffer → Option ℕ → Except Fault (Buffer × UInt64)
  | hdr h => h.pack
  | sub m => m.pack
  | base m => m.pack
  | adv m => m.pack
  | srv m => m.pack

/-- `GetHeaderLength` or `GetMsgLength`, as a `size_t`. -/
def getLength : Packet → UInt64
  | hdr h => .ofInt h.getHeaderLength
  | sub m => m.getMsgLength
  | base m => m.getMsgLength
  | adv m => m.getMsgLength
  | srv m => m.getMsgLength

def encode : Packet → List UInt8
  | hdr h => headerCodec.encode h
  | sub m => m.encode
  | base m => m.encode
  | adv m => m.encode
  | srv m => m.encode

/-- No required field is missing: version, process UUID and type, and those of the body. -/
def Complete : Packet → Prop
  | hdr h => h.Complete
  | sub m => m.header.Complete ∧ m.topic ≠ []
  | base m => m.Packable
  | adv m => m.Packable
  | srv m => m.Packable

/-- The buffer is large enough from `p` on, and no larger than an object can be. -/
structure Room (x : Packet) (buf : Buffer) (p : ℕ) : Prop where
  fits : p + x.encode.length ≤ buf.length
  object : buf.length < 2 ^ 63

/-- `Pack` returns; what it returns is 0 exactly when a required field is missing, and the length otherwise. -/
def PacksCleanly (x : Packet) (buf : Buffer) (p : ℕ) : Prop :=
  ∃ buf' n, x.pack buf (some p) = .ok (buf', n) ∧ (n = 0 ↔ ¬ x.Complete) ∧ (x.Complete → n = x.getLength)

end Packet

end Packets

/-! ## The length of the header -/

section HeaderLength

/-- The bits of the `int` that `GetHeaderLength` returns. -/
def Header.lengthBits (h : Header) : ℕ := (13 + h.pUuid.length) % 2 ^ 32

variable {h : Header}

theorem getHeaderLength_bits (h : Header) :
    h.getHeaderLength = if h.lengthBits < 2 ^ 31 then (h.lengthBits : ℤ) else (h.lengthBits : ℤ) - 2 ^ 32 := by
  have hsum : 2 + 8 + h.pUuid.length + 1 + 2 = 13 + h.pUuid.length := by omega
  unfold Header.getHeaderLength Header.lengthBits
  generalize 2 + 8 + h.pUuid.length + 1 + 2 = n at hsum ⊢
  subst hsum
  generalize 13 + h.pUuid.length = n
  rw [Int.bmod_def]
  norm_num
  split_ifs <;> omega

/-- A length that an `int` can hold. -/
theorem toNat_lengthBits (hbits : h.lengthBits < 2 ^ 31) : (UInt64.ofInt h.getHeaderLength).toNat = h.lengthBits := by
  rw [getHeaderLength_bits, if_pos hbits, ofInt_natCast]
  exact toNat_ofNat_length (by omega)

/-- Any other is negative, and leads out of every buffer. -/
theorem le_toNat_lengthBits (hbits : ¬ h.lengthBits < 2 ^ 31) : 2 ^ 63 ≤ (UInt64.ofInt h.getHeaderLength).toNat := by
  have hlt : h.lengthBits < 2 ^ 32 := Nat.mod_lt _ (by norm_num)
  rw [getHeaderLength_bits, if_neg hbits]
  simp only [UInt64.ofInt, UInt64.toNat_ofNat']
  omega

theorem ofInt_getHeaderLength_eq_zero : UInt64.ofInt h.getHeaderLength = 0 ↔ h.lengthBits = 0 := by
  rw [← UInt64.toNat_inj, UInt64.toNat_zero]
  by_cases hbits : h.lengthBits < 2 ^ 31
  · rw [toNat_lengthBits hbits]
  · have hle := le_toNat_lengthBits hbits
    omega

/-- The length of a message, when the sum stays in a `size_t`. -/
theorem toNat_length_add {k : ℕ} (hbits : h.lengthBits < 2 ^ 31) (hk : k < 2 ^ 63) :
    (UInt64.ofInt h.getHeaderLength + .ofNat k).toNat = h.lengthBits + k := by
  rw [UInt64.toNat_add, toNat_lengthBits hbits, toNat_ofNat_length (by omega)]
  omega

end HeaderLength

/-! ## The result, apart from the bytes -/

section Outcome

/-- The message is refused, and printed on the way. -/
def printed (h : Header) : Except Fault UInt64 := if h.type.toNat < 11 then .ok 0 else .error .outOfRange

/-- Something is written where the header is said to end. -/
def written (h : Header) (length : UInt64) : Except Fault UInt64 :=
  if h.lengthBits < 2 ^ 31 then .ok length else .error .overrun

def Header.outcome (h : Header) : Except Fault UInt64 :=
  if h.Complete then .ok (.ofInt h.getHeaderLength) else printed h

def SubscriptionMsg.outcome (m : SubscriptionMsg) : Except Fault UInt64 := do
  let n ← m.header.outcome
  if n = 0 then return 0
  else if m.topic = [] then return 0
  else written m.header m.getMsgLength

def AdvertiseBase.outcome (m : AdvertiseBase) : Except Fault UInt64 := do
  let n ← m.header.outcome
  if n = 0 then return 0
  else if m.topic = [] ∨ m.addr = [] ∨ m.nUuid = [] then printed m.header
  else written m.header m.getMsgLength

def AdvertiseMsg.outcome (m : AdvertiseMsg) : Except Fault UInt64 := do
  let n ← m.toAdvertiseBase.outcome
  if n = 0 then return 0
  else if m.msgTypeName = [] then return 0
  else return m.getMsgLength

def AdvertiseSrv.outcome (m : AdvertiseSrv) : Except Fault UInt64 := do
  let n ← m.toAdvertiseBase.outcome
  if n = 0 then return 0
  else if m.reqTypeName = [] ∨ m.repTypeName = [] then printed m.header
  else return m.getMsgLength

/-- What `Pack` returns in a buffer that is large enough. -/
def Packet.outcome : Packet → Except Fault UInt64
  | hdr h => h.outcome
  | sub m => m.outcome
  | base m => m.outcome
  | adv m => m.outcome
  | srv m => m.outcome

/-! ### The writers -/

theorem takes_packString {s : Str} (hlen : s.length < 2 ^ 64) : Takes Fault.overrun (packString s) (8 + s.length) := by
  rw [packString_eq hlen]
  have htakes := (takes_store Fault.overrun (leBytes 8 s.length)).andThen (takes_store Fault.overrun s)
  rw [length_leBytes] at htakes ⊢
  exact htakes

/-- The printing that a refusal begins with. -/
theorem yields_printed (h : Header) {mem : Buffer} {n : ℕ} (hmem : mem.length = n) :
    Yields n (do let _ ← h.print; return (mem, (0 : UInt64))) (printed h) := by
  unfold printed
  split_ifs with htype
  · obtain ⟨name, hprint⟩ := header_print htype
    rw [hprint, ok_bind]
    exact yields_ok hmem
  · have hnone : MsgTypesStr[h.type.toNat]? = none := List.getElem?_eq_none (Nat.not_lt.mp htype)
    rw [Header.print, hnone]
    rfl

theorem yields_header {h : Header} {buf : Buffer} {p : ℕ} (hroom : (Packet.hdr h).Room buf p) :
    Yields buf.length (h.pack buf (some p)) h.outcome := by
  have hfits : p + (headerCodec.encode h).length ≤ buf.length := hroom.fits
  have hlen := length_encode_header h
  have hobject := hroom.object
  unfold Header.outcome
  split_ifs with hc
  · have hpack := header_pack hc (by omega) (buf.take p) (buf.drop p) (by rw [List.length_drop]; omega)
    rw [List.take_append_drop, List.length_take, Nat.min_eq_left (by omega)] at hpack
    rw [hpack]
    refine yields_ok ?_
    simp only [List.length_append, List.length_take, List.length_drop]
    omega
  · rw [Header.pack, if_pos (Header.not_complete_iff.mp hc)]
    exact yields_printed h rfl

/-- A header that is not refused is complete. -/
theorem header_outcome_ok {h : Header} {n : UInt64} (hn : h.outcome = .ok n) (h0 : n ≠ 0) :
    h.Complete ∧ n = .ofInt h.getHeaderLength := by
  unfold Header.outcome printed at hn
  split_ifs at hn with hc htype
  · exact ⟨hc, (Except.ok.inj hn).symm⟩
  · exact absurd (Except.ok.inj hn).symm h0

theorem length_encode_subscription (m : SubscriptionMsg) :
    m.encode.length = 21 + m.header.pUuid.length + m.topic.length := by
  rw [SubscriptionMsg.encode, List.length_append, length_encode_header, length_encode_str]
  omega

/-- The room for a packet is room for its header. -/
theorem Packet.Room.hdr {x : Packet} {buf : Buffer} {p : ℕ} (hroom : x.Room buf p) :
    (Packet.hdr x.header).Room buf p := by
  have hprefix : headerCodec.encode x.header <+: x.encode := by
    cases x with
    | hdr h => exact List.prefix_rfl
    | _ => exact List.prefix_append ..
  have hle : (headerCodec.encode x.header).length ≤ x.encode.length := hprefix.length_le
  exact ⟨(Nat.add_le_add_left hle p).trans hroom.fits, hroom.object⟩

theorem lengthBits_le (h : Header) : h.lengthBits ≤ 13 + h.pUuid.length := Nat.mod_le _ _

theorem yields_subscription {m : SubscriptionMsg} {buf : Buffer} {p : ℕ} (hroom : (Packet.sub m).Room buf p) :
    Yields buf.length (m.pack buf (some p)) m.outcome := by
  have hfits : p + m.encode.length ≤ buf.length := hroom.fits
  have hobject := hroom.object
  rw [length_encode_subscription] at hfits
  have hheader : Yields buf.length (m.header.pack buf (some p)) m.header.outcome := yields_header hroom.hdr
  refine hheader.bind fun mem n hn hmem => ?_
  refine Yields.ite (fun _ => yields_ok hmem) fun h0 => ?_
  refine Yields.ite (fun _ => yields_ok hmem) fun _ => ?_
  obtain ⟨-, rfl⟩ := header_outcome_ok hn h0
  have htakes := takes_packString (s := m.topic) (by omega)
  dsimp only
  rw [written]
  by_cases hbits : m.header.lengthBits < 2 ^ 31
  · have hcount := toNat_lengthBits hbits
    have hle := lengthBits_le m.header
    obtain ⟨mem', hpack, hlen⟩ := htakes.ok mem (p + (UInt64.ofInt m.header.getHeaderLength).toNat)
      (by omega)
    rw [if_pos hbits, hpack, ok_bind]
    exact yields_ok (hlen.trans hmem)
  · have hfar := le_toNat_lengthBits hbits
    rw [if_neg hbits, htakes.error _ _ (by omega)]
    rfl

/-- The body of an advertise message, where there is room for it. -/
theorem base_written (m : AdvertiseBase) (mem : Buffer) (q : ℕ) (hobject : mem.length < 2 ^ 63)
    (hroom : q + (33 + m.topic.length + m.addr.length + m.ctrl.length + m.nUuid.length) ≤ mem.length) :
    ∃ mem', (do
      let (buf, p) ← packString m.topic mem q
      let (buf, p) ← packString m.addr buf p
      let (buf, p) ← packString m.ctrl buf p
      let (buf, p) ← packString m.nUuid buf p
      let buf ← memcpyTo buf p (leBytes 1 m.scope.value.toNat)
      return (buf, m.getMsgLength) : Except Fault (Buffer × UInt64)) = .ok (mem', m.getMsgLength) ∧
        mem'.length = mem.length := by
  obtain ⟨mem₁, h₁, hlen₁⟩ := (takes_packString (s := m.topic) (by omega)).ok mem q (by omega)
  obtain ⟨mem₂, h₂, hlen₂⟩ := (takes_packString (s := m.addr) (by omega)).ok mem₁
    (q + (8 + m.topic.length)) (by omega)
  obtain ⟨mem₃, h₃, hlen₃⟩ := (takes_packString (s := m.ctrl) (by omega)).ok mem₂
    (q + (8 + m.topic.length) + (8 + m.addr.length)) (by omega)
  obtain ⟨mem₄, h₄, hlen₄⟩ := (takes_packString (s := m.nUuid) (by omega)).ok mem₃
    (q + (8 + m.topic.length) + (8 + m.addr.length) + (8 + m.ctrl.length)) (by omega)
  obtain ⟨mem₅, h₅, hlen₅⟩ := exists_store Fault.overrun mem₄
    (q + (8 + m.topic.length) + (8 + m.addr.length) + (8 + m.ctrl.length) + (8 + m.nUuid.length))
    (leBytes 1 m.scope.value.toNat) (by rw [length_leBytes]; omega)
  refine ⟨mem₅, ?_, by omega⟩
  simp only [h₁, h₂, h₃, h₄, memcpyTo, h₅, ok_bind]
  rfl

theorem yields_base {m : AdvertiseBase} {buf : Buffer} {p : ℕ} (hroom : (Packet.base m).Room buf p) :
    Yields buf.length (m.pack buf (some p)) m.outcome := by
  have hfits : p + m.encode.length ≤ buf.length := hroom.fits
  have hobject := hroom.object
  rw [length_encode_advertiseBase] at hfits
  have hheader : Yields buf.length (m.header.pack buf (some p)) m.header.outcome := yields_header hroom.hdr
  refine hheader.bind fun mem n hn hmem => ?_
  refine Yields.ite (fun _ => yields_ok hmem) fun h0 => ?_
  refine Yields.ite (fun _ => yields_printed m.header hmem) fun _ => ?_
  obtain ⟨-, rfl⟩ := header_outcome_ok hn h0
  have htopic := takes_packString (s := m.topic) (by omega)
  dsimp only
  rw [written]
  by_cases hbits : m.header.lengthBits < 2 ^ 31
  · have hcount := toNat_lengthBits hbits
    have hle := lengthBits_le m.header
    obtain ⟨mem', hwritten, hlen⟩ := base_written m mem
      (p + (UInt64.ofInt m.header.getHeaderLength).toNat) (by omega) (by omega)
    rw [if_pos hbits]
    exact ⟨mem', hwritten, hlen.trans hmem⟩
  · have hfar := le_toNat_lengthBits hbits
    rw [if_neg hbits, htopic.error _ _ (by omega)]
    rfl

/-- A common part that is not refused has all its fields, behind a header that an `int` can measure. -/
theorem base_outcome_ok {m : AdvertiseBase} {n : UInt64} (hn : m.outcome = .ok n) (h0 : n ≠ 0) :
    m.Packable ∧ m.header.lengthBits < 2 ^ 31 ∧ n = m.getMsgLength := by
  obtain ⟨k, hk, hn⟩ := except_bind_eq_ok.mp hn
  unfold printed written at hn
  split_ifs at hn with hk0 hbody htype hbits
  · exact absurd (Except.ok.inj hn).symm h0
  · exact absurd (Except.ok.inj hn).symm h0
  · refine ⟨⟨(header_outcome_ok hk hk0).1, ?_⟩, hbits, (Except.ok.inj hn).symm⟩
    simpa only [not_or] using hbody

theorem toNat_getMsgLength_base {m : AdvertiseBase} (hbits : m.header.lengthBits < 2 ^ 31)
    (hlen : m.encode.length < 2 ^ 63) : m.getMsgLength.toNat =
      m.header.lengthBits + (33 + m.topic.length + m.addr.length + m.ctrl.length + m.nUuid.length) := by
  rw [length_encode_advertiseBase] at hlen
  have hbody : (baseCodec.encode m.body).length =
      33 + m.topic.length + m.addr.length + m.ctrl.length + m.nUuid.length := length_encode_base m.body
  rw [AdvertiseBase.getMsgLength_body, hbody, toNat_length_add hbits (by omega)]

theorem length_encode_advertiseMsg (m : AdvertiseMsg) :
    m.encode.length = m.toAdvertiseBase.encode.length + (8 + m.msgTypeName.length) := by
  rw [AdvertiseMsg.encode_eq, List.length_append, length_encode_str]

theorem length_encode_advertiseSrv (m : AdvertiseSrv) : m.encode.length =
    m.toAdvertiseBase.encode.length + (8 + m.reqTypeName.length) + (8 + m.repTypeName.length) := by
  rw [AdvertiseSrv.encode_eq, List.length_append, List.length_append, length_encode_str, length_encode_str]

theorem yields_advertiseMsg {m : AdvertiseMsg} {buf : Buffer} {p : ℕ} (hroom : (Packet.adv m).Room buf p) :
    Yields buf.length (m.pack buf (some p)) m.outcome := by
  have hfits : p + m.encode.length ≤ buf.length := hroom.fits
  have hobject := hroom.object
  rw [length_encode_advertiseMsg] at hfits
  have hbase : (Packet.base m.toAdvertiseBase).Room buf p := ⟨by simp only [Packet.encode]; omega, hobject⟩
  refine (yields_base hbase).bind fun mem n hn hmem => ?_
  refine Yields.ite (fun _ => yields_ok hmem) fun h0 => ?_
  refine Yields.ite (fun _ => yields_ok hmem) fun _ => ?_
  obtain ⟨-, hbits, rfl⟩ := base_outcome_ok hn h0
  have hcount := toNat_getMsgLength_base hbits (by omega)
  have hle := lengthBits_le m.header
  have hlen := length_encode_advertiseBase m.toAdvertiseBase
  obtain ⟨mem', hpack, hlen'⟩ := (takes_packString (s := m.msgTypeName) (by omega)).ok mem
    (p + m.toAdvertiseBase.getMsgLength.toNat) (by omega)
  dsimp only
  rw [hpack, ok_bind]
  exact yields_ok (hlen'.trans hmem)

theorem yields_advertiseSrv {m : AdvertiseSrv} {buf : Buffer} {p : ℕ} (hroom : (Packet.srv m).Room buf p) :
    Yields buf.length (m.pack buf (some p)) m.outcome := by
  have hfits : p + m.encode.length ≤ buf.length := hroom.fits
  have hobject := hroom.object
  rw [length_encode_advertiseSrv] at hfits
  have hbase : (Packet.base m.toAdvertiseBase).Room buf p := ⟨by simp only [Packet.encode]; omega, hobject⟩
  refine (yields_base hbase).bind fun mem n hn hmem => ?_
  refine Yields.ite (fun _ => yields_ok hmem) fun h0 => ?_
  refine Yields.ite (fun _ => yields_printed m.header hmem) fun _ => ?_
  obtain ⟨-, hbits, rfl⟩ := base_outcome_ok hn h0
  have hcount := toNat_getMsgLength_base hbits (by omega)
  have hle := lengthBits_le m.header
  have hlen := length_encode_advertiseBase m.toAdvertiseBase
  obtain ⟨mem₁, h₁, hlen₁⟩ := (takes_packString (s := m.reqTypeName) (by omega)).ok mem
    (p + m.toAdvertiseBase.getMsgLength.toNat) (by omega)
  obtain ⟨mem₂, h₂, hlen₂⟩ := (takes_packString (s := m.repTypeName) (by omega)).ok mem₁
    (p + m.toAdvertiseBase.getMsgLength.toNat + (8 + m.reqTypeName.length)) (by omega)
  dsimp only
  rw [h₁, ok_bind]
  dsimp only
  rw [h₂, ok_bind]
  exact yields_ok (hlen₂.trans (hlen₁.trans hmem))

/-- **`Pack`**, apart from the bytes, in a buffer that is large enough. -/
theorem yields_outcome {x : Packet} {buf : Buffer} {p : ℕ} (hroom : x.Room buf p) :
    Yields buf.length (x.pack buf (some p)) x.outcome := by
  cases x with
  | hdr h => exact yields_header hroom
  | sub m => exact yields_subscription hroom
  | base m => exact yields_base hroom
  | adv m => exact yields_advertiseMsg hroom
  | srv m => exact yields_advertiseSrv hroom

end Outcome

/-! ## Clean refusals -/

section Refusals

namespace Packet

/-- The message is refused, and not because its header seems to be: what is missing is told with the message printed. -/
def Printed : Packet → Prop
  | hdr h => ¬ h.Complete
  | sub m => ¬ m.header.Complete
  | base m => ¬ m.header.Complete ∨ (m.header.lengthBits ≠ 0 ∧ ¬ m.Packable)
  | adv m => ¬ m.header.Complete ∨ (m.header.lengthBits ≠ 0 ∧ ¬ m.toAdvertiseBase.Packable)
  | srv m => ¬ m.header.Complete ∨ (m.header.lengthBits ≠ 0 ∧ ¬ m.Packable)

/-- Something is to be written behind the header. -/
def HasBody : Packet → Prop
  | hdr _ => False
  | sub m => m.header.Complete ∧ m.topic ≠ []
  | base m => m.Packable
  | adv m => m.toAdvertiseBase.Packable
  | srv m => m.toAdvertiseBase.Packable

/-- A message that is printed has a type with a name, and the length of the header is the `int` it should be: not
negative where it is added to the cursor, and not 0 where that would stand for a refusal. -/
structure Harmless (x : Packet) : Prop where
  printed : x.Printed → x.header.type.toNat < 11
  moved : x.HasBody → x.header.lengthBits < 2 ^ 31
  counted : x.Complete → x.header.lengthBits ≠ 0

variable {x : Packet}

theorem Complete.header (hC : x.Complete) : x.header.Complete := by
  cases x with
  | hdr h => exact hC
  | sub m => exact hC.1
  | base m => exact hC.1
  | adv m => exact hC.1.1
  | srv m => exact hC.1.1

theorem HasBody.header (hb : x.HasBody) : x.header.Complete := by
  cases x with
  | hdr h => exact hb.elim
  | sub m => exact hb.1
  | base m => exact hb.1
  | adv m => exact hb.1
  | srv m => exact hb.1

theorem printed_of_header (hc : ¬ x.header.Complete) : x.Printed := by
  cases x with
  | hdr h => exact hc
  | sub m => exact hc
  | base m => exact .inl hc
  | adv m => exact .inl hc
  | srv m => exact .inl hc

/-- A header that is there and seems to be refused hides what is missing behind it. -/
theorem not_printed_of_zero (hc : x.header.Complete) (hbits : x.header.lengthBits = 0) : ¬ x.Printed := by
  cases x with
  | hdr h => exact fun hp => hp hc
  | sub m => exact fun hp => hp hc
  | base m => exact fun hp => hp.elim (fun hp => hp hc) fun hp => hp.1 hbits
  | adv m => exact fun hp => hp.elim (fun hp => hp hc) fun hp => hp.1 hbits
  | srv m => exact fun hp => hp.elim (fun hp => hp hc) fun hp => hp.1 hbits

theorem Complete.not_printed (hC : x.Complete) : ¬ x.Printed := by
  have hc : x.header.Complete := Complete.header hC
  cases x with
  | hdr h => exact fun hp => hp hC
  | sub m => exact fun hp => hp hc
  | base m => exact fun hp => hp.elim (fun hp => hp hc) fun hp => hp.2 hC
  | adv m => exact fun hp => hp.elim (fun hp => hp hc) fun hp => hp.2 hC.1
  | srv m => exact fun hp => hp.elim (fun hp => hp hc) fun hp => hp.2 hC

end Packet

/-- What the property says of the result. -/
def CleanResult (o : Except Fault UInt64) (Complete : Prop) (length : UInt64) : Prop :=
  ∃ n, o = .ok n ∧ (n = 0 ↔ ¬ Complete) ∧ (Complete → n = length)

variable {C : Prop} {k : UInt64}

theorem clean_zero : CleanResult (.ok 0) C k ↔ ¬ C := by
  constructor
  · rintro ⟨n, hn, hzero, -⟩
    exact hzero.mp (Except.ok.inj hn).symm
  · exact fun hC => ⟨0, rfl, iff_of_true rfl hC, fun hc => absurd hc hC⟩

theorem clean_error {e : Fault} : ¬ CleanResult (.error e) C k := by
  rintro ⟨n, hn, -⟩
  cases hn

theorem clean_printed {h : Header} (hC : ¬ C) : CleanResult (printed h) C k ↔ h.type.toNat < 11 := by
  unfold printed
  split_ifs with htype
  · exact iff_of_true (clean_zero.mpr hC) htype
  · exact iff_of_false clean_error htype

theorem clean_length (hC : C) : CleanResult (.ok k) C k ↔ k ≠ 0 := by
  constructor
  · rintro ⟨n, hn, hzero, -⟩ rfl
    exact hzero.mp (Except.ok.inj hn).symm hC
  · exact fun hk => ⟨k, rfl, iff_of_false hk (not_not.mpr hC), fun _ => rfl⟩

theorem clean_written {h : Header} (hC : C) (hk : h.lengthBits < 2 ^ 31 → k ≠ 0) :
    CleanResult (written h k) C k ↔ h.lengthBits < 2 ^ 31 := by
  unfold written
  split_ifs with hbits
  · exact iff_of_true ((clean_length hC).mpr (hk hbits)) hbits
  · exact iff_of_false clean_error hbits

/-! ### Behind the header -/

/-- What is done behind a header that is not refused. -/
def Packet.behind : Packet → Except Fault UInt64
  | hdr h => .ok (.ofInt h.getHeaderLength)
  | sub m => if m.topic = [] then .ok 0 else written m.header m.getMsgLength
  | base m => if m.Packable then written m.header m.getMsgLength else printed m.header
  | adv m =>
    if m.toAdvertiseBase.Packable then
      if m.header.lengthBits < 2 ^ 31 then
        if m.msgTypeName = [] then .ok 0 else .ok m.getMsgLength
      else .error .overrun
    else printed m.header
  | srv m =>
    if m.toAdvertiseBase.Packable then
      if m.header.lengthBits < 2 ^ 31 then
        if m.reqTypeName = [] ∨ m.repTypeName = [] then printed m.header else .ok m.getMsgLength
      else .error .overrun
    else printed m.header

theorem printed_bind {h : Header} {f : UInt64 → Except Fault UInt64} (hf : f 0 = .ok 0) :
    (printed h >>= f) = printed h := by
  unfold printed
  split_ifs
  · exact hf
  · rfl

theorem behind_header (h : Header) (rest : Except Fault UInt64) :
    (do let n ← h.outcome; if n = 0 then return 0 else rest) =
      if h.Complete then (if h.lengthBits = 0 then .ok 0 else rest) else printed h := by
  unfold Header.outcome
  split_ifs with hc hbits
  · rw [ok_bind, if_pos (ofInt_getHeaderLength_eq_zero.mpr hbits)]
    rfl
  · rw [ok_bind, if_neg fun h0 => hbits (ofInt_getHeaderLength_eq_zero.mp h0)]
  · exact printed_bind rfl

theorem getMsgLength_base_ne_zero {m : AdvertiseBase} (hbits : m.header.lengthBits < 2 ^ 31)
    (hlen : m.encode.length < 2 ^ 63) : m.getMsgLength ≠ 0 := by
  intro h0
  have hcount := toNat_getMsgLength_base hbits hlen
  rw [h0, UInt64.toNat_zero] at hcount
  omega

theorem outcome_base (m : AdvertiseBase) : m.outcome =
    if m.header.Complete then
      if m.header.lengthBits = 0 then .ok 0
      else if m.Packable then written m.header m.getMsgLength else printed m.header
    else printed m.header := by
  refine (behind_header m.header _).trans ?_
  split_ifs with hc hbits hbody hp hp
  · rfl
  · obtain ⟨-, ht, ha, hn⟩ := hp
    rcases hbody with h | h | h <;> contradiction
  · rfl
  · rfl
  · exact absurd ⟨hc, not_or.mp hbody |>.1, not_or.mp (not_or.mp hbody).2⟩ hp
  · rfl

theorem behind_base {m : AdvertiseBase} (hlen : m.encode.length < 2 ^ 63) (rest : Except Fault UInt64) :
    (do let n ← m.outcome; if n = 0 then return 0 else rest) =
      if m.header.Complete then
        if m.header.lengthBits = 0 then .ok 0
        else if m.Packable then (if m.header.lengthBits < 2 ^ 31 then rest else .error .overrun)
        else printed m.header
      else printed m.header := by
  rw [outcome_base]
  split_ifs with hc hbits hp hsmall
  · rfl
  · rw [written, if_pos hsmall, ok_bind, if_neg (getMsgLength_base_ne_zero hsmall hlen)]
  · rw [written, if_neg hsmall]
    rfl
  · exact printed_bind rfl
  · exact printed_bind rfl

/-- **The header first**, then what is behind it. -/
theorem outcome_eq {x : Packet} (hlen : x.encode.length < 2 ^ 63) : x.outcome =
    if x.header.Complete then (if x.header.lengthBits = 0 then .ok 0 else x.behind) else printed x.header := by
  cases x with
  | hdr h =>
    change h.outcome =
      if h.Complete then (if h.lengthBits = 0 then .ok 0 else .ok (.ofInt h.getHeaderLength)) else printed h
    unfold Header.outcome
    split_ifs with hc hbits
    · rw [ofInt_getHeaderLength_eq_zero.mpr hbits]
    · rfl
    · rfl
  | sub m => exact behind_header m.header _
  | base m => exact outcome_base m
  | adv m =>
    have hbase : m.toAdvertiseBase.encode.length < 2 ^ 63 := by
      have hlen' : m.encode.length < 2 ^ 63 := hlen
      rw [length_encode_advertiseMsg] at hlen'
      omega
    exact behind_base hbase _
  | srv m =>
    have hbase : m.toAdvertiseBase.encode.length < 2 ^ 63 := by
      have hlen' : m.encode.length < 2 ^ 63 := hlen
      rw [length_encode_advertiseSrv] at hlen'
      omega
    exact behind_base hbase _

theorem SubscriptionMsg.getMsgLength_body (m : SubscriptionMsg) :
    m.getMsgLength = .ofInt m.header.getHeaderLength + .ofNat (strCodec.encode m.topic).length := by
  rw [getMsgLength, length_encode_str, UInt64.ofNat_add]
  exact UInt64.add_assoc _ _ _

/-- The length is that of the header as a `size_t`, and that of the body. -/
theorem getLength_eq (x : Packet) : ∃ k ≤ x.encode.length,
    x.getLength = .ofInt x.header.getHeaderLength + .ofNat k := by
  have hle (u v : List UInt8) : v.length ≤ (u ++ v).length := by
    rw [List.length_append]
    exact Nat.le_add_left ..
  cases x with
  | hdr h => exact ⟨0, Nat.zero_le _, (UInt64.add_zero _).symm⟩
  | sub m => exact ⟨_, hle _ _, m.getMsgLength_body⟩
  | base m => exact ⟨_, hle _ _, m.getMsgLength_body⟩
  | adv m => exact ⟨_, hle _ _, m.getMsgLength_body⟩
  | srv m => exact ⟨_, hle _ _, m.getMsgLength_body⟩

theorem getLength_ne_zero {x : Packet} (hlen : x.encode.length < 2 ^ 63) (hbits : x.header.lengthBits < 2 ^ 31)
    (h0 : x.header.lengthBits ≠ 0) : x.getLength ≠ 0 := by
  obtain ⟨k, hk, hlength⟩ := getLength_eq x
  intro hzero
  have hcount := toNat_length_add hbits (hk.trans_lt hlen)
  rw [← hlength, hzero, UInt64.toNat_zero] at hcount
  omega

/-- A complete header of some length: only the printing and the cursor matter. -/
theorem harmless_iff {x : Packet} (hbits : x.header.lengthBits ≠ 0) : x.Harmless ↔
    (x.Printed → x.header.type.toNat < 11) ∧ (x.HasBody → x.header.lengthBits < 2 ^ 31) :=
  ⟨fun h => ⟨h.printed, h.moved⟩, fun h => ⟨h.1, h.2, fun _ => hbits⟩⟩

/-- Nothing is printed: the cursor alone matters. -/
theorem harmless_iff_moved {x : Packet} (hbits : x.header.lengthBits ≠ 0) (hp : ¬ x.Printed) (hb : x.HasBody) :
    x.Harmless ↔ x.header.lengthBits < 2 ^ 31 :=
  (harmless_iff hbits).trans ⟨fun h => h.2 hb, fun h => ⟨fun hp' => absurd hp' hp, fun _ => h⟩⟩

/-- Nothing goes wrong before the printing: the type alone matters. -/
theorem harmless_iff_printed {x : Packet} (hbits : x.header.lengthBits ≠ 0) (hp : x.Printed)
    (hb : x.HasBody → x.header.lengthBits < 2 ^ 31) : x.Harmless ↔ x.header.type.toNat < 11 :=
  (harmless_iff hbits).trans ⟨fun h => h.1 hp, fun h => ⟨fun _ => h, hb⟩⟩

theorem clean_behind {x : Packet} (hlen : x.encode.length < 2 ^ 63) (hc : x.header.Complete)
    (hbits : x.header.lengthBits ≠ 0) : CleanResult x.behind x.Complete x.getLength ↔ x.Harmless := by
  have hpos := fun hsmall => getLength_ne_zero hlen hsmall hbits
  cases x with
  | hdr h =>
    refine iff_of_true ((clean_length hc).mpr fun hzero => hbits (ofInt_getHeaderLength_eq_zero.mp hzero)) ?_
    exact (harmless_iff hbits).mpr ⟨fun hp => absurd hc hp, False.elim⟩
  | sub m =>
    rw [Packet.behind]
    split_ifs with ht
    · have hC : ¬ (Packet.sub m).Complete := fun h => h.2 ht
      have hp : ¬ (Packet.sub m).Printed := fun hp => hp hc
      exact iff_of_true (clean_zero.mpr hC)
        ((harmless_iff hbits).mpr ⟨fun h => absurd h hp, fun h => absurd h hC⟩)
    · have hC : (Packet.sub m).Complete := ⟨hc, ht⟩
      exact (clean_written hC hpos).trans (harmless_iff_moved hbits (Packet.Complete.not_printed hC) hC).symm
  | base m =>
    rw [Packet.behind]
    split_ifs with hC
    · have hp : ¬ (Packet.base m).Printed := Packet.Complete.not_printed hC
      exact (clean_written hC hpos).trans (harmless_iff_moved hbits hp hC).symm
    · have hp : (Packet.base m).Printed := .inr ⟨hbits, hC⟩
      exact (clean_printed hC).trans (harmless_iff_printed hbits hp fun h => absurd h hC).symm
  | adv m =>
    rw [Packet.behind]
    split_ifs with hb hsmall hname
    · have hp : ¬ (Packet.adv m).Printed := fun h => h.elim (fun h => h hc) fun h => h.2 hb
      have hC : ¬ (Packet.adv m).Complete := fun h => h.2 hname
      exact iff_of_true (clean_zero.mpr hC) ((harmless_iff_moved hbits hp hb).mpr hsmall)
    · have hC : (Packet.adv m).Complete := ⟨hb, hname⟩
      have hp : ¬ (Packet.adv m).Printed := Packet.Complete.not_printed hC
      exact iff_of_true ((clean_length hC).mpr (hpos hsmall)) ((harmless_iff_moved hbits hp hb).mpr hsmall)
    · exact iff_of_false clean_error fun h => hsmall (h.moved hb)
    · have hp : (Packet.adv m).Printed := .inr ⟨hbits, hb⟩
      have hC : ¬ (Packet.adv m).Complete := fun h => hb h.1
      exact (clean_printed hC).trans (harmless_iff_printed hbits hp fun h => absurd h hb).symm
  | srv m =>
    rw [Packet.behind]
    split_ifs with hb hsmall hnames
    · have hC : ¬ (Packet.srv m).Complete := fun h => hnames.elim h.2.1 h.2.2
      have hp : (Packet.srv m).Printed := .inr ⟨hbits, hC⟩
      exact (clean_printed hC).trans (harmless_iff_printed hbits hp fun _ => hsmall).symm
    · have hC : (Packet.srv m).Complete := ⟨hb, not_or.mp hnames⟩
      have hp : ¬ (Packet.srv m).Printed := Packet.Complete.not_printed hC
      exact iff_of_true ((clean_length hC).mpr (hpos hsmall)) ((harmless_iff_moved hbits hp hb).mpr hsmall)
    · exact iff_of_false clean_error fun h => hsmall (h.moved hb)
    · have hC : ¬ (Packet.srv m).Complete := fun h => hb h.1
      have hp : (Packet.srv m).Printed := .inr ⟨hbits, hC⟩
      exact (clean_printed hC).trans (harmless_iff_printed hbits hp fun h => absurd h hb).symm

/-- **Any message**: the result is clean iff the message is harmless. -/
theorem clean_outcome {x : Packet} (hlen : x.encode.length < 2 ^ 63) :
    CleanResult x.outcome x.Complete x.getLength ↔ x.Harmless := by
  rw [outcome_eq hlen]
  split_ifs with hc hbits
  · -- the header is there, and seems to be refused
    have hp : ¬ x.Printed := Packet.not_printed_of_zero hc hbits
    refine clean_zero.trans ⟨fun hC => ⟨fun h => absurd h hp, fun _ => ?_, fun h => absurd h hC⟩, ?_⟩
    · rw [hbits]
      norm_num
    · exact fun h hC => h.counted hC hbits
  · exact clean_behind hlen hc hbits
  · have hC : ¬ x.Complete := fun h => hc (Packet.Complete.header h)
    refine (clean_printed hC).trans ⟨fun htype => ⟨fun _ => htype, fun h => ?_, fun h => absurd h hC⟩, ?_⟩
    · exact absurd (Packet.HasBody.header h) hc
    · exact fun h => h.printed (Packet.printed_of_header hc)

namespace Packet

/-- **Clean refusals.**  In a buffer that is large enough, `Pack` returns, 0 exactly when a required field is missing
and the length otherwise, iff the message is harmless. -/
theorem packs_cleanly_iff {x : Packet} {buf : Buffer} {p : ℕ} (hroom : x.Room buf p) :
    x.PacksCleanly buf p ↔ x.Harmless := by
  have hlen : x.encode.length < 2 ^ 63 :=
    ((Nat.le_add_left ..).trans hroom.fits).trans_lt hroom.object
  calc x.PacksCleanly buf p
      ↔ CleanResult x.outcome x.Complete x.getLength := (yields_outcome hroom).exists_iff
    _ ↔ x.Harmless := clean_outcome hlen

/-- An advertisement without a topic, of a known type: it is printed, and refused. -/
theorem packs_cleanly_iff_noTopic :
    (adv { header := { version := 1, pUuid := [112], type := 1 }, addr := [97], nUuid := [110],
           msgTypeName := [109] }).PacksCleanly (List.replicate 64 0) 3 :=
  (packs_cleanly_iff ⟨by decide, by decide⟩).mpr ⟨fun _ => by decide, fun _ => by decide, fun _ => by decide⟩

/-- A header without a version and of a type that has no name: the printing throws. -/
theorem unnamed_type_thrown :
    (hdr { version := 0, pUuid := [112], type := 200 }).Room (List.replicate 64 0) 0 ∧
      ¬ (hdr { version := 0, pUuid := [112], type := 200 }).PacksCleanly (List.replicate 64 0) 0 := by
  refine ⟨⟨by decide, by decide⟩, ?_⟩
  rintro ⟨buf', n, hpack, -⟩
  have hthrown : (hdr { version := 0, pUuid := [112], type := 200 }).pack (List.replicate 64 0) (some 0) =
      .error .outOfRange := rfl
  rw [hthrown] at hpack
  cases hpack

end Packet

end Refusals

end IgnTransport
