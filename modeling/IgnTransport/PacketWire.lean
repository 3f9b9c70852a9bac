import Mathlib
import IgnTransport.Packet

/-!
# IgnTransport.PacketWire — the wire format and its round trip

The format, as codecs: a header is its version, process UUID, type and flags; a body is a sequence of length-prefixed
strings, with the scope byte inside.  Every `Pack` writes the encoding of its message (`*_pack`) and every `UnpackBody`
reads it back (`*_unpackBody`), so the hand-moved cursors and the three length formulas agree with the format.
`wire_round_trip` puts the two together.
-/

namespace IgnTransport

open Lib

/-! ## The format -/

section Format

/-- A string: its length in eight bytes, then its bytes. -/
def strCodec : Codec Str := .prefixed 8

/-- The scope byte. -/
def scopeCodec : Codec Scope :=
  (Codec.le 1).retype (fun n => ⟨.ofNat n⟩) (fun s => s.value.toNat)
    (by
      intro n hn
      simp only [Codec.le] at hn
      simp
      omega)
    (by intro s; simp)

/-- Version, process UUID, type, flags. -/
def headerCodec : Codec Header :=
  ((Codec.le 2).pair (strCodec.pair ((Codec.le 1).pair (Codec.le 2)))).retype
    (fun v => { version := .ofNat v.1, pUuid := v.2.1, type := .ofNat v.2.2.1, flags := .ofNat v.2.2.2 })
    (fun h => (h.version.toNat, h.pUuid, h.type.toNat, h.flags.toNat))
    (by
      rintro ⟨v, u, t, f⟩ ⟨hv, -, ht, hf⟩
      simp only [Codec.le] at hv ht hf
      simp
      omega)
    (by intro h; simp)

/-- Topic, address, control address, node UUID and scope of an advertise message. -/
abbrev BaseBody := Str × Str × Str × Str × Scope

def baseCodec : Codec BaseBody :=
  strCodec.pair (strCodec.pair (strCodec.pair (strCodec.pair scopeCodec)))

/-- The body of an advertise message: the common part and the name of the message type. -/
def msgCodec : Codec (BaseBody × Str) := baseCodec.pair strCodec

/-- The body of a service advertisement: the common part and the names of the two types. -/
def srvCodec : Codec (BaseBody × Str × Str) := baseCodec.pair (strCodec.pair strCodec)

def AdvertiseBase.body (m : AdvertiseBase) : BaseBody := (m.topic, m.addr, m.ctrl, m.nUuid, m.scope)

def SubscriptionMsg.encode (m : SubscriptionMsg) : List UInt8 :=
  headerCodec.encode m.header ++ strCodec.encode m.topic

def AdvertiseBase.encode (m : AdvertiseBase) : List UInt8 :=
  headerCodec.encode m.header ++ baseCodec.encode m.body

def AdvertiseMsg.encode (m : AdvertiseMsg) : List UInt8 :=
  headerCodec.encode m.header ++ msgCodec.encode (m.body, m.msgTypeName)

def AdvertiseSrv.encode (m : AdvertiseSrv) : List UInt8 :=
  headerCodec.encode m.header ++ srvCodec.encode (m.body, m.reqTypeName, m.repTypeName)

@[simp] theorem length_encode_str (s : Str) : (strCodec.encode s).length = 8 + s.length := by
  simp [strCodec]

@[simp] theorem length_encode_scope (s : Scope) : (scopeCodec.encode s).length = 1 := by
  simp [scopeCodec, Codec.retype, Codec.le]

@[simp] theorem length_encode_header (h : Header) : (headerCodec.encode h).length = 13 + h.pUuid.length := by
  have : headerCodec.encode h = leBytes 2 h.version.toNat ++ (strCodec.encode h.pUuid ++
    (leBytes 1 h.type.toNat ++ leBytes 2 h.flags.toNat)) := rfl
  rw [this]
  simp only [List.length_append, length_leBytes, length_encode_str]
  omega

@[simp] theorem length_encode_base (b : BaseBody) :
    (baseCodec.encode b).length = 33 + b.1.length + b.2.1.length + b.2.2.1.length + b.2.2.2.1.length := by
  simp only [baseCodec, Codec.encode_pair, List.length_append, length_encode_str, length_encode_scope]
  omega

theorem valid_str {s : Str} : strCodec.Valid s ↔ s.length < 2 ^ 64 := by
  rw [strCodec, Codec.valid_prefixed]
  norm_num

theorem valid_scope (s : Scope) : scopeCodec.Valid s := s.value.toNat_lt

theorem valid_header {h : Header} : headerCodec.Valid h ↔ h.pUuid.length < 2 ^ 64 := by
  constructor
  · rintro ⟨-, hu, -⟩
    exact valid_str.mp hu
  · intro hu
    exact ⟨h.version.toNat_lt, valid_str.mpr hu, h.type.toNat_lt, h.flags.toNat_lt⟩

theorem valid_base {b : BaseBody} : baseCodec.Valid b ↔
    b.1.length < 2 ^ 64 ∧ b.2.1.length < 2 ^ 64 ∧ b.2.2.1.length < 2 ^ 64 ∧ b.2.2.2.1.length < 2 ^ 64 := by
  constructor
  · rintro ⟨h1, h2, h3, h4, -⟩
    exact ⟨valid_str.mp h1, valid_str.mp h2, valid_str.mp h3, valid_str.mp h4⟩
  · rintro ⟨h1, h2, h3, h4⟩
    exact ⟨valid_str.mpr h1, valid_str.mpr h2, valid_str.mpr h3, valid_str.mpr h4, valid_scope _⟩

end Format

/-! ## The length formulas -/

section Lengths

/-- `GetHeaderLength` is the length of the encoded header, as long as it fits an `int`. -/
theorem Header.getHeaderLength_eq {h : Header} (hfit : h.pUuid.length < 2 ^ 31 - 13) :
    h.getHeaderLength = ((headerCodec.encode h).length : ℤ) := by
  have hlen := length_encode_header h
  generalize (headerCodec.encode h).length = n at hlen ⊢
  have hnum : 2 + 8 + h.pUuid.length + 1 + 2 = n := by omega
  have hn : n < 2147483648 := by omega
  unfold getHeaderLength
  simp only [hnum]
  apply Int.bmod_eq_of_le
  · omega
  · omega

theorem ofInt_natCast (n : ℕ) : UInt64.ofInt (n : ℤ) = .ofNat n := by
  apply UInt64.toNat_inj.mp
  simp only [UInt64.ofInt, UInt64.toNat_ofNat']
  omega

theorem Header.ofInt_getHeaderLength {h : Header} (hfit : h.pUuid.length < 2 ^ 31 - 13) :
    UInt64.ofInt h.getHeaderLength = .ofNat (headerCodec.encode h).length := by
  rw [Header.getHeaderLength_eq hfit]
  exact ofInt_natCast _

theorem toNat_ofNat_length {n : ℕ} (h : n < 2 ^ 64) : (UInt64.ofNat n).toNat = n := by
  simp
  omega

theorem SubscriptionMsg.getMsgLength_eq {m : SubscriptionMsg} (hfit : m.header.pUuid.length < 2 ^ 31 - 13) :
    m.getMsgLength = .ofNat m.encode.length := by
  rw [getMsgLength, Header.ofInt_getHeaderLength hfit, encode, List.length_append, length_encode_str,
    UInt64.ofNat_add, UInt64.ofNat_add]
  exact UInt64.add_assoc _ _ _

/-- Whatever the header is worth as a `size_t`, the rest of the sum is the length of the body. -/
theorem AdvertiseBase.getMsgLength_body (m : AdvertiseBase) :
    m.getMsgLength = .ofInt m.header.getHeaderLength + .ofNat (baseCodec.encode m.body).length := by
  rw [getMsgLength, length_encode_base]
  simp only [body, UInt64.ofNat_add]
  have h33 : UInt64.ofNat 33 = 8 + 8 + 8 + 8 + 1 := rfl
  rw [h33]
  grind

theorem AdvertiseMsg.getMsgLength_body (m : AdvertiseMsg) :
    m.getMsgLength =
      .ofInt m.header.getHeaderLength + .ofNat (msgCodec.encode (m.body, m.msgTypeName)).length := by
  rw [getMsgLength, AdvertiseBase.getMsgLength_body, msgCodec, Codec.encode_pair, List.length_append,
    length_encode_str]
  simp only [UInt64.ofNat_add]
  have h8 : UInt64.ofNat 8 = 8 := rfl
  rw [h8]
  grind

theorem AdvertiseSrv.getMsgLength_body (m : AdvertiseSrv) :
    m.getMsgLength = .ofInt m.header.getHeaderLength +
      .ofNat (srvCodec.encode (m.body, m.reqTypeName, m.repTypeName)).length := by
  rw [getMsgLength, AdvertiseBase.getMsgLength_body, srvCodec, Codec.encode_pair, Codec.encode_pair,
    List.length_append, List.length_append, length_encode_str, length_encode_str]
  simp only [UInt64.ofNat_add]
  have h8 : UInt64.ofNat 8 = 8 := rfl
  rw [h8]
  grind

end Lengths

/-! ## Unpacking -/

section Unpack

theorem reads_unpackString : Reads unpackString strCodec := by
  have h := reads_prefixed 8
  intro pre suf
  rw [strCodec, ← h pre suf]
  simp only [unpackString, readPrefixed, bind, pure, Option.map_eq_bind]
  rfl

theorem reads_unpackUInt (w : ℕ) : Reads (unpackUInt w) (.le w) := by
  intro pre suf
  rw [← reads_le w pre suf]
  simp [unpackUInt, bind, pure, Option.map_eq_bind]

/-- `Header::Unpack` reads a header and returns its `GetHeaderLength`. -/
theorem header_unpack (h : Header) (pre suf : List UInt8) :
    h.unpack (pre ++ suf) (some pre.length) =
      (headerCodec.decode suf).map fun r => (r.1, .ofInt r.1.getHeaderLength) := by
  have hr := (reads_unpackUInt 2).pair
    (reads_unpackString.pair ((reads_unpackUInt 1).pair (reads_unpackUInt 2)))
  have hread := congrArg (Option.map fun r : (ℕ × Str × ℕ × ℕ) × ℕ =>
    let h : Header :=
      { version := .ofNat r.1.1, pUuid := r.1.2.1, type := .ofNat r.1.2.2.1, flags := .ofNat r.1.2.2.2 }
    (h, UInt64.ofInt h.getHeaderLength)) (hr pre suf)
  simp only [Option.map_map] at hread
  simp only [headerCodec, Codec.retype, Option.map_map]
  refine Eq.trans ?_ hread
  simp only [Header.unpack, readPair, bind, pure, Option.map_eq_bind, Option.bind_assoc]
  rfl

theorem subscription_unpackBody (m : SubscriptionMsg) (pre suf : List UInt8) :
    m.unpackBody (pre ++ suf) (some pre.length) =
      (strCodec.decode suf).map fun r => ({ m with topic := r.1 }, .ofNat (strCodec.encode r.1).length) := by
  have hr := reads_unpackString pre suf
  simp only [SubscriptionMsg.unpackBody, hr, bind, pure]
  cases strCodec.decode suf with
  | none => rfl
  | some r => simp [UInt64.ofNat_add]

/-- The fields of the common part of an advertise message. -/
def AdvertiseBase.withBody (m : AdvertiseBase) (b : BaseBody) : AdvertiseBase :=
  { m with topic := b.1, addr := b.2.1, ctrl := b.2.2.1, nUuid := b.2.2.2.1, scope := b.2.2.2.2 }

@[simp] theorem AdvertiseBase.body_withBody (m : AdvertiseBase) (b : BaseBody) : (m.withBody b).body = b := rfl

theorem base_unpackBody (m : AdvertiseBase) (pre suf : List UInt8) :
    m.unpackBody (pre ++ suf) (some pre.length) =
      (baseCodec.decode suf).map fun r => (m.withBody r.1, .ofNat (baseCodec.encode r.1).length) := by
  have hscope : Reads (fun buf p => (unpackUInt 1 buf p).map fun r => ((⟨.ofNat r.1⟩ : Scope), r.2)) scopeCodec := by
    intro pre suf
    simp only [reads_unpackUInt 1 pre suf, scopeCodec, Codec.retype, Option.map_map]
    rfl
  have hr := reads_unpackString.pair (reads_unpackString.pair
    (reads_unpackString.pair (reads_unpackString.pair hscope)))
  have hread := congrArg (Option.map fun r : BaseBody × ℕ =>
    (m.withBody r.1, UInt64.ofNat (baseCodec.encode r.1).length)) (hr pre suf)
  simp only [Option.map_map] at hread
  refine Eq.trans ?_ hread
  -- the returned sum, in the order of the source
  have hsum : ∀ a b c d : UInt64,
      8 + a + 8 + b + 8 + c + 8 + d + 1 = UInt64.ofNat 33 + a + b + c + d := by
    intro a b c d
    have h33 : UInt64.ofNat 33 = 8 + 8 + 8 + 8 + 1 := rfl
    grind
  simp only [AdvertiseBase.unpackBody, readPair, bind, pure, Option.map_eq_bind, Option.bind_assoc,
    Function.comp_apply, Option.bind_some, length_encode_base, UInt64.ofNat_add, hsum]
  rfl

/-- The common part of a body is short enough for its length to be a `size_t`. -/
def BaseFits (suf : List UInt8) : Prop :=
  ∀ v rest, baseCodec.decode suf = some (v, rest) → (baseCodec.encode v).length < 2 ^ 64

theorem baseFits_of_length {suf : List UInt8} (h : suf.length < 2 ^ 64) : BaseFits suf := by
  intro v rest hv
  have := congrArg List.length (baseCodec.eq_encode_append hv)
  rw [List.length_append] at this
  omega

theorem ofNat_length_base_ne_zero {v : BaseBody} (h : (baseCodec.encode v).length < 2 ^ 64) :
    UInt64.ofNat (baseCodec.encode v).length ≠ 0 := by
  intro h0
  have hn := congrArg UInt64.toNat h0
  rw [toNat_ofNat_length h, length_encode_base] at hn
  have h0' : (0 : UInt64).toNat = 0 := rfl
  omega

theorem sub_cancel_length (a b : UInt64) : a + b - a = b := by grind

theorem msg_unpackBody (m : AdvertiseMsg) (pre : List UInt8) {suf : List UInt8} (hfit : BaseFits suf) :
    m.unpackBody (pre ++ suf) (some pre.length) =
      (msgCodec.decode suf).map fun r =>
        ({ m.withBody r.1.1 with msgTypeName := r.1.2 }, .ofNat (msgCodec.encode r.1).length) := by
  simp only [AdvertiseMsg.unpackBody, base_unpackBody, msgCodec, Codec.decode_pair, bind, pure]
  cases h1 : baseCodec.decode suf with
  | none => rfl
  | some r =>
    obtain ⟨v, mid⟩ := r
    have hlen := hfit v mid h1
    have hr := reads_unpackString (pre ++ baseCodec.encode v) mid
    rw [List.append_assoc, ← baseCodec.eq_encode_append h1, List.length_append] at hr
    simp only [Option.map_some, Option.bind_some, if_neg (ofNat_length_base_ne_zero hlen),
      toNat_ofNat_length hlen, hr]
    cases h2 : strCodec.decode mid with
    | none => rfl
    | some s =>
      simp only [Option.map_some, Option.bind_some, AdvertiseMsg.getMsgLength_body]
      exact congrArg some (Prod.ext rfl (sub_cancel_length _ _))

theorem srv_unpackBody (m : AdvertiseSrv) (pre : List UInt8) {suf : List UInt8} (hfit : BaseFits suf) :
    m.unpackBody (pre ++ suf) (some pre.length) =
      (srvCodec.decode suf).map fun r =>
        ({ m.withBody r.1.1 with reqTypeName := r.1.2.1, repTypeName := r.1.2.2 },
          .ofNat (srvCodec.encode r.1).length) := by
  simp only [AdvertiseSrv.unpackBody, base_unpackBody, srvCodec, Codec.decode_pair, bind, pure]
  cases h1 : baseCodec.decode suf with
  | none => rfl
  | some r =>
    obtain ⟨v, mid⟩ := r
    have hlen := hfit v mid h1
    have hreq := reads_unpackString (pre ++ baseCodec.encode v) mid
    rw [List.append_assoc, ← baseCodec.eq_encode_append h1, List.length_append] at hreq
    simp only [Option.map_some, Option.bind_some, if_neg (ofNat_length_base_ne_zero hlen),
      toNat_ofNat_length hlen, hreq]
    cases h2 : strCodec.decode mid with
    | none => rfl
    | some s =>
      obtain ⟨req, mid'⟩ := s
      have hrep := reads_unpackString (pre ++ baseCodec.encode v ++ strCodec.encode req) mid'
      rw [List.append_assoc, List.append_assoc, ← strCodec.eq_encode_append h2,
        ← baseCodec.eq_encode_append h1, List.length_append, List.length_append] at hrep
      simp only [Option.map_some, Option.bind_some, hrep]
      cases h3 : strCodec.decode mid' with
      | none => rfl
      | some t =>
        simp only [Option.map_some, Option.bind_some, AdvertiseSrv.getMsgLength_body]
        exact congrArg some (Prod.ext rfl (sub_cancel_length _ _))

end Unpack

/-! ## Packing -/

section Pack

/-- A header that `Pack` accepts. -/
def Header.Complete (h : Header) : Prop := h.version ≠ 0 ∧ h.pUuid ≠ [] ∧ h.type ≠ Uninitialized

instance (h : Header) : Decidable h.Complete := by unfold Header.Complete; infer_instance

theorem Header.not_complete_iff {h : Header} :
    ¬ h.Complete ↔ h.version = 0 ∨ h.pUuid = [] ∨ h.type = Uninitialized := by
  unfold Header.Complete
  tauto

/-- The length, then the bytes. -/
theorem packString_eq {s : Str} (hlen : s.length < 2 ^ 64) : packString s = writeThen
    (fun mem p => (store Fault.overrun mem p (leBytes 8 s.length)).map fun m => (m, p + (leBytes 8 s.length).length))
    (fun mem p => (store .overrun mem p s).map fun m => (m, p + s.length)) := by
  funext mem p
  simp only [packString, toNat_ofNat_length hlen, List.take_length, writeThen, memcpyTo, length_leBytes]
  cases store Fault.overrun mem p (leBytes 8 s.length) with
  | error e => rfl
  | ok m => cases store Fault.overrun m (p + 8) s <;> rfl

theorem writes_packString {s : Str} (hlen : s.length < 2 ^ 64) : Writes (packString s) (strCodec.encode s) := by
  rw [packString_eq hlen, strCodec, Codec.encode_prefixed]
  exact (writes_store _ _).andThen (writes_store _ _)

/-- `Header::Pack` writes the encoding of a complete header and returns `GetHeaderLength`. -/
theorem header_pack {h : Header} (hc : h.Complete) (hlen : h.pUuid.length < 2 ^ 64) (pre rest : List UInt8)
    (hfit : (headerCodec.encode h).length ≤ rest.length) :
    h.pack (pre ++ rest) (some pre.length) =
      .ok (pre ++ headerCodec.encode h ++ rest.drop (headerCodec.encode h).length, .ofInt h.getHeaderLength) := by
  have hw := (writes_store Fault.overrun (leBytes 2 h.version.toNat)).andThen
    ((writes_packString hlen).andThen ((writes_store .overrun (leBytes 1 h.type.toNat)).andThen
      (writes_store .overrun (leBytes 2 h.flags.toNat)))) pre rest hfit
  have hmap := congrArg (Except.map fun r : List UInt8 × ℕ => (r.1, UInt64.ofInt h.getHeaderLength)) hw
  refine Eq.trans ?_ hmap
  unfold Header.pack
  rw [if_neg fun hbad => Header.not_complete_iff.mpr hbad hc]
  simp only [writeThen, memcpyTo, length_leBytes]
  cases store Fault.overrun (pre ++ rest) pre.length (leBytes 2 h.version.toNat) with
  | error e => rfl
  | ok m =>
    simp only [bind, Except.bind, Except.map]
    cases packString h.pUuid m (pre.length + 2) with
    | error e => rfl
    | ok r =>
      obtain ⟨m, p⟩ := r
      simp only
      cases store Fault.overrun m p (leBytes 1 h.type.toNat) with
      | error e => rfl
      | ok m =>
        simp only
        cases store Fault.overrun m (p + 1) (leBytes 2 h.flags.toNat) <;> rfl

/-- A `Pack` that returns a length has found a complete header. -/
theorem header_pack_complete {h : Header} {buf buf' : Buffer} {buffer : Option ℕ} {n : UInt64}
    (hp : h.pack buf buffer = .ok (buf', n)) (hn : n ≠ 0) : h.Complete := by
  unfold Header.pack at hp
  split_ifs at hp with hc
  · cases hprint : h.print <;> simp [hprint, bind, Except.bind, pure, Except.pure] at hp
    exact absurd hp.2.symm hn
  · exact not_not.mp fun hincomplete => hc (Header.not_complete_iff.mp hincomplete)

theorem header_print {h : Header} (htype : h.type.toNat < 11) : ∃ name, h.print = .ok name := by
  have hsome : MsgTypesStr[h.type.toNat]? = some MsgTypesStr[h.type.toNat] := List.getElem?_eq_getElem htype
  exact ⟨_, by rw [Header.print, hsome]⟩

theorem header_pack_incomplete {h : Header} (hc : ¬ h.Complete) (htype : h.type.toNat < 11) (buf : Buffer) (p : ℕ) :
    h.pack buf (some p) = .ok (buf, 0) := by
  obtain ⟨name, hprint⟩ := header_print htype
  rw [Header.pack, if_pos (Header.not_complete_iff.mp hc), hprint, ok_bind]
  rfl

theorem toNat_getHeaderLength {h : Header} (hfit : h.pUuid.length < 2 ^ 31 - 13) :
    (UInt64.ofInt h.getHeaderLength).toNat = (headerCodec.encode h).length := by
  have hlen := length_encode_header h
  generalize hn : (headerCodec.encode h).length = n at hlen
  rw [Header.ofInt_getHeaderLength hfit, hn]
  exact toNat_ofNat_length (by omega)

theorem ofInt_getHeaderLength_ne_zero {h : Header} (hfit : h.pUuid.length < 2 ^ 31 - 13) :
    UInt64.ofInt h.getHeaderLength ≠ 0 := by
  intro h0
  have hn := toNat_getHeaderLength hfit
  rw [h0, length_encode_header, UInt64.toNat_zero] at hn
  omega

theorem room_left {a b rest : List UInt8} (h : (a ++ b).length ≤ rest.length) : a.length ≤ rest.length := by
  rw [List.length_append] at h
  exact Nat.le_of_add_right_le h

theorem lt_of_fit {n : ℕ} (hfit : n < 2 ^ 31 - 13) : n < 2 ^ 64 := by omega

/-- The topic is short enough for the length formula, the header for an `int`. -/
structure SubscriptionMsg.Fits (m : SubscriptionMsg) : Prop where
  pUuid : m.header.pUuid.length < 2 ^ 31 - 13
  topic : m.topic.length < 2 ^ 31

theorem lt_64_of_lt_31 {n : ℕ} (h : n < 2 ^ 31) : n < 2 ^ 64 := by omega

def SubscriptionMsg.Packable (m : SubscriptionMsg) : Prop := m.header.Complete ∧ m.topic ≠ []

theorem subscription_pack {m : SubscriptionMsg} (hc : m.header.Complete) (ht : m.topic ≠ [])
    (hfit : m.Fits) {pre rest : List UInt8}
    (hroom : m.encode.length ≤ rest.length) :
    m.pack (pre ++ rest) (some pre.length) =
      .ok (pre ++ m.encode ++ rest.drop m.encode.length, m.getMsgLength) := by
  rw [SubscriptionMsg.encode] at hroom ⊢
  have hbody := (writes_packString (lt_64_of_lt_31 hfit.topic)).after pre hroom
  rw [SubscriptionMsg.pack, header_pack hc (lt_of_fit hfit.pUuid) _ _ (room_left hroom), ok_bind]
  dsimp only
  rw [if_neg (ofInt_getHeaderLength_ne_zero hfit.pUuid), if_neg ht, toNat_getHeaderLength hfit.pUuid, hbody,
    ok_bind]
  rfl

theorem subscription_pack_complete {m : SubscriptionMsg} {buf buf' : Buffer} {p : ℕ} {n : UInt64}
    (hp : m.pack buf (some p) = .ok (buf', n)) (hn : n ≠ 0) : m.header.Complete ∧ m.topic ≠ [] := by
  unfold SubscriptionMsg.pack at hp
  cases hh : m.header.pack buf (some p) with
  | error e => simp [hh, bind, Except.bind] at hp
  | ok r =>
    simp only [hh, bind, Except.bind, pure, Except.pure] at hp
    split_ifs at hp with h0 ht
    · simp only [Except.ok.injEq, Prod.mk.injEq] at hp
      exact absurd hp.2.symm hn
    · simp only [Except.ok.injEq, Prod.mk.injEq] at hp
      exact absurd hp.2.symm hn
    · exact ⟨header_pack_complete hh h0, ht⟩

/-- The strings are short enough for the length formulas: the header for an `int`, the rest for a `size_t`. -/
structure AdvertiseBase.Fits (m : AdvertiseBase) : Prop where
  pUuid : m.header.pUuid.length < 2 ^ 31 - 13
  topic : m.topic.length < 2 ^ 31
  addr : m.addr.length < 2 ^ 31
  ctrl : m.ctrl.length < 2 ^ 31
  nUuid : m.nUuid.length < 2 ^ 31

/-- The fields that the common part of `Pack` insists on. -/
def AdvertiseBase.Packable (m : AdvertiseBase) : Prop :=
  m.header.Complete ∧ m.topic ≠ [] ∧ m.addr ≠ [] ∧ m.nUuid ≠ []

instance (m : AdvertiseBase) : Decidable m.Packable := by unfold AdvertiseBase.Packable; infer_instance

theorem AdvertiseBase.encode_eq (m : AdvertiseBase) : m.encode =
    headerCodec.encode m.header ++ strCodec.encode m.topic ++ strCodec.encode m.addr ++
      strCodec.encode m.ctrl ++ strCodec.encode m.nUuid ++ scopeCodec.encode m.scope := by
  simp only [AdvertiseBase.encode, AdvertiseBase.body, baseCodec, Codec.encode_pair, List.append_assoc]

theorem encode_scope (s : Scope) : scopeCodec.encode s = leBytes 1 s.value.toNat := rfl

theorem base_pack {m : AdvertiseBase} (hp : m.Packable) (hfit : m.Fits) {pre rest : List UInt8}
    (hroom : m.encode.length ≤ rest.length) :
    m.pack (pre ++ rest) (some pre.length) =
      .ok (pre ++ m.encode ++ rest.drop m.encode.length, m.getMsgLength) := by
  obtain ⟨hc, ht, ha, hn⟩ := hp
  rw [AdvertiseBase.encode_eq] at hroom ⊢
  have h5 := store_after Fault.overrun pre hroom
  have h4 := (writes_packString (lt_64_of_lt_31 hfit.nUuid)).after pre (room_left hroom)
  have h3 := (writes_packString (lt_64_of_lt_31 hfit.ctrl)).after pre (room_left (room_left hroom))
  have h2 := (writes_packString (lt_64_of_lt_31 hfit.addr)).after pre
    (room_left (room_left (room_left hroom)))
  have h1 := (writes_packString (lt_64_of_lt_31 hfit.topic)).after pre
    (room_left (room_left (room_left (room_left hroom))))
  have hhdr := room_left (room_left (room_left (room_left (room_left hroom))))
  rw [AdvertiseBase.pack, header_pack hc (lt_of_fit hfit.pUuid) _ _ hhdr, ok_bind]
  dsimp only
  rw [if_neg (ofInt_getHeaderLength_ne_zero hfit.pUuid), if_neg (by simp [ht, ha, hn]),
    toNat_getHeaderLength hfit.pUuid, h1, ok_bind]
  dsimp only
  rw [h2, ok_bind]
  dsimp only
  rw [h3, ok_bind]
  dsimp only
  rw [h4, ok_bind]
  dsimp only
  rw [memcpyTo, ← encode_scope, h5, ok_bind]
  rfl

theorem base_pack_complete {m : AdvertiseBase} {buf buf' : Buffer} {p : ℕ} {n : UInt64}
    (hp : m.pack buf (some p) = .ok (buf', n)) (hn : n ≠ 0) : m.Packable := by
  unfold AdvertiseBase.pack at hp
  cases hh : m.header.pack buf (some p) with
  | error e => simp [hh, error_bind] at hp
  | ok r =>
    rw [hh, ok_bind] at hp
    dsimp only at hp
    split_ifs at hp with h0 hb
    · simp only [pure, Except.pure, Except.ok.injEq, Prod.mk.injEq] at hp
      exact absurd hp.2.symm hn
    · cases hprint : m.header.print <;> simp [hprint, bind, Except.bind, pure, Except.pure] at hp
      exact absurd hp.2.symm hn
    · simp only [not_or] at hb
      exact ⟨header_pack_complete hh h0, hb⟩

/-- An incomplete body leaves the header in the buffer: the caller that ignores the returned 0 sends it. -/
theorem base_pack_incomplete {m : AdvertiseBase} (hc : m.header.Complete) (hp : ¬ m.Packable)
    (htype : m.header.type.toNat < 11) (hfit : m.header.pUuid.length < 2 ^ 31 - 13) (pre rest : List UInt8)
    (hroom : (headerCodec.encode m.header).length ≤ rest.length) :
    m.pack (pre ++ rest) (some pre.length) =
      .ok (pre ++ headerCodec.encode m.header ++ rest.drop (headerCodec.encode m.header).length, 0) := by
  have hbody : m.topic = [] ∨ m.addr = [] ∨ m.nUuid = [] := by
    by_contra hb
    simp only [not_or] at hb
    exact hp ⟨hc, hb⟩
  obtain ⟨name, hprint⟩ := header_print htype
  rw [AdvertiseBase.pack, header_pack hc (lt_of_fit hfit) _ _ hroom, ok_bind]
  dsimp only
  rw [if_neg (ofInt_getHeaderLength_ne_zero hfit), if_pos hbody, hprint, ok_bind]
  rfl

theorem length_encode_advertiseBase (m : AdvertiseBase) : m.encode.length =
    46 + m.header.pUuid.length + m.topic.length + m.addr.length + m.ctrl.length + m.nUuid.length := by
  rw [AdvertiseBase.encode_eq]
  simp only [List.length_append, length_encode_header, length_encode_str, length_encode_scope]
  omega

theorem AdvertiseBase.Fits.length_lt {m : AdvertiseBase} (hfit : m.Fits) : m.encode.length < 2 ^ 34 := by
  obtain ⟨h1, h2, h3, h4, h5⟩ := hfit
  have hlen := length_encode_advertiseBase m
  generalize m.encode.length = n at hlen
  omega

theorem AdvertiseBase.getMsgLength_eq {m : AdvertiseBase} (hfit : m.header.pUuid.length < 2 ^ 31 - 13) :
    m.getMsgLength = .ofNat m.encode.length := by
  rw [AdvertiseBase.getMsgLength_body, Header.ofInt_getHeaderLength hfit, ← UInt64.ofNat_add,
    ← List.length_append]
  rfl

theorem AdvertiseBase.Fits.toNat_getMsgLength {m : AdvertiseBase} (hfit : m.Fits) :
    m.getMsgLength.toNat = m.encode.length := by
  have hlt := hfit.length_lt
  rw [AdvertiseBase.getMsgLength_eq hfit.pUuid, toNat_ofNat_length]
  generalize m.encode.length = n at hlt
  omega

theorem AdvertiseBase.Fits.getMsgLength_ne_zero {m : AdvertiseBase} (hfit : m.Fits) : m.getMsgLength ≠ 0 := by
  intro h0
  have hn := hfit.toNat_getMsgLength
  rw [h0, length_encode_advertiseBase, UInt64.toNat_zero] at hn
  omega

def AdvertiseMsg.Fits (m : AdvertiseMsg) : Prop := m.toAdvertiseBase.Fits ∧ m.msgTypeName.length < 2 ^ 31

def AdvertiseMsg.Packable (m : AdvertiseMsg) : Prop := m.toAdvertiseBase.Packable ∧ m.msgTypeName ≠ []

theorem AdvertiseMsg.encode_eq (m : AdvertiseMsg) :
    m.encode = m.toAdvertiseBase.encode ++ strCodec.encode m.msgTypeName := by
  simp only [AdvertiseMsg.encode, AdvertiseBase.encode, msgCodec, Codec.encode_pair, List.append_assoc]

theorem msg_pack {m : AdvertiseMsg} (hp : m.Packable) (hfit : m.Fits) (pre rest : List UInt8)
    (hroom : m.encode.length ≤ rest.length) :
    m.pack (pre ++ rest) (some pre.length) =
      .ok (pre ++ m.encode ++ rest.drop m.encode.length, m.getMsgLength) := by
  obtain ⟨hbase, hname⟩ := hp
  rw [AdvertiseMsg.encode_eq] at hroom ⊢
  have h2 := (writes_packString (lt_64_of_lt_31 hfit.2)).after pre hroom
  rw [AdvertiseMsg.pack, base_pack hbase hfit.1 (room_left hroom), ok_bind]
  dsimp only
  rw [if_neg hfit.1.getMsgLength_ne_zero, if_neg hname, hfit.1.toNat_getMsgLength, h2, ok_bind]
  rfl

theorem msg_pack_complete {m : AdvertiseMsg} {buf buf' : Buffer} {p : ℕ} {n : UInt64}
    (hp : m.pack buf (some p) = .ok (buf', n)) (hn : n ≠ 0) : m.Packable := by
  unfold AdvertiseMsg.pack at hp
  cases hh : m.toAdvertiseBase.pack buf (some p) with
  | error e => simp [hh, error_bind] at hp
  | ok r =>
    rw [hh, ok_bind] at hp
    dsimp only at hp
    split_ifs at hp with h0 hb
    · simp only [pure, Except.pure, Except.ok.injEq, Prod.mk.injEq] at hp
      exact absurd hp.2.symm hn
    · simp only [pure, Except.pure, Except.ok.injEq, Prod.mk.injEq] at hp
      exact absurd hp.2.symm hn
    · exact ⟨base_pack_complete hh h0, hb⟩

def AdvertiseSrv.Fits (m : AdvertiseSrv) : Prop :=
  m.toAdvertiseBase.Fits ∧ m.reqTypeName.length < 2 ^ 31 ∧ m.repTypeName.length < 2 ^ 31

def AdvertiseSrv.Packable (m : AdvertiseSrv) : Prop :=
  m.toAdvertiseBase.Packable ∧ m.reqTypeName ≠ [] ∧ m.repTypeName ≠ []

theorem AdvertiseSrv.encode_eq (m : AdvertiseSrv) : m.encode =
    m.toAdvertiseBase.encode ++ strCodec.encode m.reqTypeName ++ strCodec.encode m.repTypeName := by
  simp only [AdvertiseSrv.encode, AdvertiseBase.encode, srvCodec, Codec.encode_pair, List.append_assoc]

theorem srv_pack {m : AdvertiseSrv} (hp : m.Packable) (hfit : m.Fits) {pre rest : List UInt8}
    (hroom : m.encode.length ≤ rest.length) :
    m.pack (pre ++ rest) (some pre.length) =
      .ok (pre ++ m.encode ++ rest.drop m.encode.length, m.getMsgLength) := by
  obtain ⟨hbase, hreq, hrep⟩ := hp
  rw [AdvertiseSrv.encode_eq] at hroom ⊢
  have h3 := (writes_packString (lt_64_of_lt_31 hfit.2.2)).after pre hroom
  have h2 := (writes_packString (lt_64_of_lt_31 hfit.2.1)).after pre (room_left hroom)
  rw [AdvertiseSrv.pack, base_pack hbase hfit.1 (room_left (room_left hroom)), ok_bind]
  dsimp only
  rw [if_neg hfit.1.getMsgLength_ne_zero, if_neg (by simp [hreq, hrep]), hfit.1.toNat_getMsgLength, h2, ok_bind]
  dsimp only
  rw [h3, ok_bind]
  rfl

theorem srv_pack_complete {m : AdvertiseSrv} {buf buf' : Buffer} {p : ℕ} {n : UInt64}
    (hp : m.pack buf (some p) = .ok (buf', n)) (hn : n ≠ 0) : m.Packable := by
  unfold AdvertiseSrv.pack at hp
  cases hh : m.toAdvertiseBase.pack buf (some p) with
  | error e => simp [hh, error_bind] at hp
  | ok r =>
    rw [hh, ok_bind] at hp
    dsimp only at hp
    split_ifs at hp with h0 hb
    · simp only [pure, Except.pure, Except.ok.injEq, Prod.mk.injEq] at hp
      exact absurd hp.2.symm hn
    · cases hprint : m.header.print <;> simp [hprint, bind, Except.bind, pure, Except.pure] at hp
      exact absurd hp.2.symm hn
    · simp only [not_or] at hb
      exact ⟨base_pack_complete hh h0, hb⟩

end Pack

/-! ## The round trip -/

section RoundTrip

/-- A complete header that is packed in a buffer with room for it is read back, whatever follows it. -/
def HeaderRoundTrips (h : Header) : Prop :=
  ∀ buf p, h.Complete → p + h.getHeaderLength.toNat ≤ buf.length → ∃ bytes : List UInt8,
    (bytes.length : ℤ) = h.getHeaderLength ∧
    h.pack buf (some p) = .ok (buf.take p ++ bytes ++ buf.drop (p + bytes.length), .ofInt h.getHeaderLength) ∧
    ∀ suffix h₀, Header.unpack h₀ (bytes ++ suffix) (some 0) = some (h, .ofInt h.getHeaderLength)

/-- `Pack` accepts the message wherever there is room for its bytes. -/
def Accepts {M : Type} (pack : M → Buffer → Option ℕ → Except Fault (Buffer × UInt64)) (m : M) (size : ℕ) : Prop :=
  ∀ buf p, p + size ≤ buf.length → ∃ buf' n, pack m buf (some p) = .ok (buf', n) ∧ n ≠ 0

/-- `Pack` accepts a message in which nothing is missing.  What it accepts, in a buffer with room for it, is written as
a header and a body: the length returned is `GetMsgLength` and the number of bytes written, `Header::Unpack` reads the
header back and `UnpackBody` the body at the offset `GetHeaderLength`, into an object with any header and in front of
any suffix, and no byte of the body is left unread. -/
def RoundTrips {M : Type} (Packable : M → Prop) (header : M → Header) (setHeader : M → Header → M)
    (pack : M → Buffer → Option ℕ → Except Fault (Buffer × UInt64)) (getMsgLength : M → UInt64)
    (unpackBody : M → Buffer → Option ℕ → Option (M × UInt64)) (m : M) : Prop :=
  (Packable m → Accepts pack m (getMsgLength m).toNat) ∧
  ∀ buf p buf' n, p + (getMsgLength m).toNat ≤ buf.length → pack m buf (some p) = .ok (buf', n) → n ≠ 0 →
    ∃ hdr body : List UInt8,
      n = getMsgLength m ∧ n.toNat = (hdr ++ body).length ∧
      buf' = buf.take p ++ (hdr ++ body) ++ buf.drop (p + n.toNat) ∧
      (hdr.length : ℤ) = (header m).getHeaderLength ∧
      (∀ suffix h₀, Header.unpack h₀ (hdr ++ body ++ suffix) (some 0) =
        some (header m, .ofInt (header m).getHeaderLength)) ∧
      (∀ suffix m₀, unpackBody m₀ (hdr ++ body ++ suffix) (some (header m).getHeaderLength.toNat) =
        some (setHeader m (header m₀), .ofNat body.length)) ∧
      ∀ short m₀, short <+: body → short ≠ body →
        unpackBody m₀ (hdr ++ short) (some (header m).getHeaderLength.toNat) = none

theorem unpack_encode {h : Header} (hfit : h.pUuid.length < 2 ^ 31 - 13) (h₀ : Header) (suffix : List UInt8) :
    h₀.unpack (headerCodec.encode h ++ suffix) (some 0) = some (h, .ofInt h.getHeaderLength) := by
  have hread := header_unpack h₀ [] (headerCodec.encode h ++ suffix)
  rw [headerCodec.decode_encode (valid_header.mpr (lt_of_fit hfit))] at hread
  exact hread

theorem take_append_drop_at (buf : List UInt8) {p : ℕ} (hp : p ≤ buf.length) :
    buf = buf.take p ++ buf.drop p ∧ (buf.take p).length = p :=
  ⟨(List.take_append_drop p buf).symm, by rw [List.length_take, Nat.min_eq_left hp]⟩

theorem header_roundTrips {h : Header} (hfit : h.pUuid.length < 2 ^ 31 - 13) : HeaderRoundTrips h := by
  intro buf p hc hroom
  rw [Header.getHeaderLength_eq hfit, Int.toNat_natCast] at hroom
  obtain ⟨hbuf, hp⟩ := take_append_drop_at buf (Nat.le_of_add_right_le hroom)
  refine ⟨headerCodec.encode h, (Header.getHeaderLength_eq hfit).symm, ?_, fun suffix h₀ =>
    unpack_encode hfit h₀ suffix⟩
  have hpack := header_pack hc (lt_of_fit hfit) (buf.take p) (buf.drop p)
    (by rw [List.length_drop]; exact Nat.le_sub_of_add_le' hroom)
  rw [← hbuf, hp, List.drop_drop] at hpack
  exact hpack

/-- A truncated body is not read. -/
theorem decode_short {β : Type} (c : Codec β) {v : β} (hv : c.Valid v) {short : List UInt8}
    (hpre : short <+: c.encode v) (hne : short ≠ c.encode v) : c.decode short = none := by
  by_contra hsome
  obtain ⟨⟨w, rest⟩, hw⟩ := Option.ne_none_iff_exists'.mp hsome
  obtain ⟨more, hmore⟩ := hpre
  have hshort := c.eq_encode_append hw
  have hfull : c.decode (c.encode v ++ []) = some (w, rest ++ more) := by
    rw [List.append_nil, ← hmore, hshort, List.append_assoc]
    exact c.decode_encode (c.valid_of_decode hw) _
  rw [c.decode_encode hv, Option.some.injEq, Prod.mk.injEq] at hfull
  obtain ⟨-, hnil⟩ := hfull
  have hmore' : more = [] := (List.append_eq_nil_iff.mp hnil.symm).2
  rw [hmore', List.append_nil] at hmore
  exact hne hmore

/-- A message is accepted if it is packed, since no message is empty. -/
theorem accepts_of {M : Type} {pack : M → Buffer → Option ℕ → Except Fault (Buffer × UInt64)} {m : M} {size : ℕ}
    {n : UInt64} (hn : n.toNat = size) (hsize : 13 ≤ size)
    (hpack : ∀ pre rest, size ≤ rest.length → ∃ buf', pack m (pre ++ rest) (some pre.length) = .ok (buf', n)) :
    Accepts pack m size := by
  intro buf p hroom
  obtain ⟨hbuf, hpl⟩ := take_append_drop_at buf (Nat.le_of_add_right_le hroom)
  obtain ⟨buf', hbuf'⟩ := hpack (buf.take p) (buf.drop p) (by rw [List.length_drop]; exact Nat.le_sub_of_add_le' hroom)
  rw [← hbuf, hpl] at hbuf'
  refine ⟨buf', n, hbuf', ?_⟩
  rintro rfl
  rw [UInt64.toNat_zero] at hn
  omega

/-- The round trip of a message follows from its packer, its body reader and its length formula, each against the
format. -/
theorem roundTrips_of {M β : Type} (c : Codec β) {Packable : M → Prop} {header : M → Header}
    {setHeader : M → Header → M} (body : M → β) (withBody : M → β → M)
    {pack : M → Buffer → Option ℕ → Except Fault (Buffer × UInt64)}
    {getMsgLength : M → UInt64} {unpackBody : M → Buffer → Option ℕ → Option (M × UInt64)} {m : M}
    (Readable : List UInt8 → Prop) (bytes : List UInt8)
    (henc : bytes = headerCodec.encode (header m) ++ c.encode (body m))
    (hfit : (header m).pUuid.length < 2 ^ 31 - 13) (hvalid : c.Valid (body m))
    (hlen : (getMsgLength m).toNat = bytes.length) (haccepts : Packable m → Accepts pack m bytes.length)
    (hpack : ∀ pre rest buf' n, bytes.length ≤ rest.length →
      pack m (pre ++ rest) (some pre.length) = .ok (buf', n) → n ≠ 0 →
      n = getMsgLength m ∧ buf' = pre ++ bytes ++ rest.drop bytes.length)
    (hunpack : ∀ m₀ pre suf, Readable suf → unpackBody m₀ (pre ++ suf) (some pre.length) =
      (c.decode suf).map fun r => (withBody m₀ r.1, .ofNat (c.encode r.1).length))
    (hset : ∀ m₀, withBody m₀ (body m) = setHeader m (header m₀))
    (hread : ∀ suffix, Readable (c.encode (body m) ++ suffix))
    (hshort : ∀ short, short <+: c.encode (body m) → Readable short) :
    RoundTrips Packable header setHeader pack getMsgLength unpackBody m := by
  subst henc
  refine ⟨fun hpackable => hlen ▸ haccepts hpackable, fun buf p buf' n hroom hp hn => ?_⟩
  rw [hlen] at hroom
  obtain ⟨hbuf, hpl⟩ := take_append_drop_at buf (Nat.le_of_add_right_le hroom)
  rw [hbuf, ← hpl] at hp
  have hhdr := Header.getHeaderLength_eq hfit
  simp only [hpl] at hp
  obtain ⟨hnlen, hbuf'⟩ := hpack (buf.take p) (buf.drop p) buf' n
    (by rw [List.length_drop]; exact Nat.le_sub_of_add_le' hroom) (by rw [hpl]; exact hp) hn
  refine ⟨headerCodec.encode (header m), c.encode (body m), hnlen, ?_, ?_, hhdr.symm, ?_, ?_, ?_⟩
  · rw [hnlen, hlen]
  · rw [hbuf', hnlen, hlen, List.drop_drop]
  · intro suffix h₀
    rw [List.append_assoc]
    exact unpack_encode hfit h₀ _
  · intro suffix m₀
    rw [List.append_assoc, hhdr, Int.toNat_natCast, hunpack m₀ _ _ (hread suffix), c.decode_encode hvalid,
      Option.map_some, hset]
  · intro short m₀ hpre hne
    rw [hhdr, Int.toNat_natCast, hunpack m₀ _ _ (hshort short hpre), decode_short c hvalid hpre hne,
      Option.map_none]

theorem SubscriptionMsg.Fits.toNat_getMsgLength {m : SubscriptionMsg} (hfit : m.Fits) :
    m.getMsgLength.toNat = m.encode.length := by
  obtain ⟨hu, ht⟩ := hfit
  have hlen : m.encode.length = 21 + m.header.pUuid.length + m.topic.length := by
    rw [SubscriptionMsg.encode, List.length_append, length_encode_header, length_encode_str]
    omega
  rw [SubscriptionMsg.getMsgLength_eq hu, toNat_ofNat_length]
  generalize m.encode.length = n at hlen
  omega

theorem AdvertiseMsg.Fits.toNat_getMsgLength {m : AdvertiseMsg} (hfit : m.Fits) :
    m.getMsgLength.toNat = m.encode.length := by
  have hbase := hfit.1.length_lt
  have hname := hfit.2
  have hlen : m.encode.length = m.toAdvertiseBase.encode.length + 8 + m.msgTypeName.length := by
    rw [AdvertiseMsg.encode_eq, List.length_append, length_encode_str, Nat.add_assoc]
  have heq : m.getMsgLength = .ofNat m.encode.length := by
    rw [AdvertiseMsg.getMsgLength_body, Header.ofInt_getHeaderLength hfit.1.pUuid, ← UInt64.ofNat_add,
      ← List.length_append]
    rfl
  rw [heq, toNat_ofNat_length]
  generalize m.encode.length = n at hlen
  generalize m.toAdvertiseBase.encode.length = k at hlen hbase
  omega

theorem AdvertiseSrv.Fits.toNat_getMsgLength {m : AdvertiseSrv} (hfit : m.Fits) :
    m.getMsgLength.toNat = m.encode.length := by
  obtain ⟨hb, hreq, hrep⟩ := hfit
  have hbase := hb.length_lt
  have hlen : m.encode.length =
      m.toAdvertiseBase.encode.length + 8 + m.reqTypeName.length + (8 + m.repTypeName.length) := by
    rw [AdvertiseSrv.encode_eq, List.length_append, List.length_append, length_encode_str, length_encode_str,
      Nat.add_assoc m.toAdvertiseBase.encode.length 8 m.reqTypeName.length]
  have heq : m.getMsgLength = .ofNat m.encode.length := by
    rw [AdvertiseSrv.getMsgLength_body, Header.ofInt_getHeaderLength hb.pUuid, ← UInt64.ofNat_add,
      ← List.length_append]
    rfl
  rw [heq, toNat_ofNat_length]
  generalize m.encode.length = n at hlen
  generalize m.toAdvertiseBase.encode.length = k at hlen hbase
  omega

theorem AdvertiseBase.Fits.valid {m : AdvertiseBase} (hfit : m.Fits) : baseCodec.Valid m.body :=
  valid_base.mpr ⟨lt_64_of_lt_31 hfit.topic, lt_64_of_lt_31 hfit.addr, lt_64_of_lt_31 hfit.ctrl,
    lt_64_of_lt_31 hfit.nUuid⟩

theorem AdvertiseBase.Fits.body_length_lt {m : AdvertiseBase} (hfit : m.Fits) :
    (baseCodec.encode m.body).length < 2 ^ 34 := by
  have hlt := hfit.length_lt
  rw [AdvertiseBase.encode, List.length_append] at hlt
  exact Nat.lt_of_le_of_lt (Nat.le_add_left _ _) hlt

theorem baseFits_encode {m : AdvertiseBase} (hfit : m.Fits) (suffix : List UInt8) :
    BaseFits (baseCodec.encode m.body ++ suffix) := by
  intro v rest hv
  rw [baseCodec.decode_encode hfit.valid, Option.some.injEq, Prod.mk.injEq] at hv
  rw [← hv.1]
  exact Nat.lt_of_lt_of_le hfit.body_length_lt (by norm_num)

theorem baseFits_prefix {short body : List UInt8} (hpre : short <+: body) (hlen : body.length < 2 ^ 64) :
    BaseFits short :=
  baseFits_of_length (Nat.lt_of_le_of_lt hpre.length_le hlen)

theorem subscription_accepts {m : SubscriptionMsg} (hfit : m.Fits) (hp : m.Packable) :
    Accepts SubscriptionMsg.pack m m.encode.length := by
  refine accepts_of hfit.toNat_getMsgLength ?_ fun pre rest hroom => ⟨_, subscription_pack hp.1 hp.2 hfit hroom⟩
  rw [SubscriptionMsg.encode, List.length_append, length_encode_header]
  omega

theorem advertiseMsg_accepts {m : AdvertiseMsg} (hfit : m.Fits) (hp : m.Packable) :
    Accepts AdvertiseMsg.pack m m.encode.length := by
  refine accepts_of hfit.toNat_getMsgLength ?_ fun pre rest hroom => ⟨_, msg_pack hp hfit pre rest hroom⟩
  rw [AdvertiseMsg.encode, List.length_append, length_encode_header]
  omega

theorem advertiseSrv_accepts {m : AdvertiseSrv} (hfit : m.Fits) (hp : m.Packable) :
    Accepts AdvertiseSrv.pack m m.encode.length := by
  refine accepts_of hfit.toNat_getMsgLength ?_ fun pre rest hroom => ⟨_, srv_pack hp hfit hroom⟩
  rw [AdvertiseSrv.encode, List.length_append, length_encode_header]
  omega

theorem subscription_roundTrips {m : SubscriptionMsg} (hfit : m.Fits) :
    RoundTrips SubscriptionMsg.Packable SubscriptionMsg.header SubscriptionMsg.setHeader SubscriptionMsg.pack
      SubscriptionMsg.getMsgLength SubscriptionMsg.unpackBody m := by
  refine roundTrips_of strCodec SubscriptionMsg.topic (fun m t => { m with topic := t })
    (fun _ => True) m.encode rfl hfit.pUuid (valid_str.mpr (lt_64_of_lt_31 hfit.topic))
    hfit.toNat_getMsgLength (subscription_accepts hfit) ?_
    (fun m₀ pre suf _ => subscription_unpackBody m₀ pre suf) (fun _ => rfl) (fun _ => trivial)
    (fun _ _ => trivial)
  intro pre rest buf' n hroom hp hn
  obtain ⟨hc, ht⟩ := subscription_pack_complete hp hn
  rw [subscription_pack hc ht hfit hroom, Except.ok.injEq, Prod.mk.injEq] at hp
  exact ⟨hp.2.symm, hp.1.symm⟩

theorem advertiseMsg_roundTrips {m : AdvertiseMsg} (hfit : m.Fits) :
    RoundTrips AdvertiseMsg.Packable (fun m => m.header) AdvertiseMsg.setHeader AdvertiseMsg.pack
      AdvertiseMsg.getMsgLength AdvertiseMsg.unpackBody m := by
  have hlen := hfit.toNat_getMsgLength
  refine roundTrips_of msgCodec (fun m => (m.body, m.msgTypeName))
    (fun m b => { m.withBody b.1 with msgTypeName := b.2 }) BaseFits m.encode ?_ hfit.1.pUuid
    ⟨hfit.1.valid, valid_str.mpr (lt_64_of_lt_31 hfit.2)⟩ hlen (advertiseMsg_accepts hfit) ?_ ?_ ?_ ?_ ?_
  · rfl
  · intro pre rest buf' n hroom hp hn
    rw [msg_pack (msg_pack_complete hp hn) hfit _ _ hroom, Except.ok.injEq, Prod.mk.injEq] at hp
    exact ⟨hp.2.symm, hp.1.symm⟩
  · exact fun m₀ pre suf hsuf => msg_unpackBody m₀ pre hsuf
  · exact fun _ => rfl
  · intro suffix
    rw [msgCodec, Codec.encode_pair, List.append_assoc]
    exact baseFits_encode hfit.1 _
  · intro short hpre
    refine baseFits_prefix hpre (Nat.lt_of_le_of_lt ?_ m.getMsgLength.toNat_lt)
    rw [hlen, AdvertiseMsg.encode, List.length_append]
    exact Nat.le_add_left _ _

theorem advertiseSrv_roundTrips {m : AdvertiseSrv} (hfit : m.Fits) :
    RoundTrips AdvertiseSrv.Packable (fun m => m.header) AdvertiseSrv.setHeader AdvertiseSrv.pack
      AdvertiseSrv.getMsgLength AdvertiseSrv.unpackBody m := by
  have hlen := hfit.toNat_getMsgLength
  refine roundTrips_of srvCodec (fun m => (m.body, m.reqTypeName, m.repTypeName))
    (fun m b => { m.withBody b.1 with reqTypeName := b.2.1, repTypeName := b.2.2 }) BaseFits m.encode ?_ hfit.1.pUuid
    ⟨hfit.1.valid, valid_str.mpr (lt_64_of_lt_31 hfit.2.1), valid_str.mpr (lt_64_of_lt_31 hfit.2.2)⟩ hlen
    (advertiseSrv_accepts hfit) ?_ ?_ ?_ ?_ ?_
  · rfl
  · intro pre rest buf' n hroom hp hn
    rw [srv_pack (srv_pack_complete hp hn) hfit hroom, Except.ok.injEq, Prod.mk.injEq] at hp
    exact ⟨hp.2.symm, hp.1.symm⟩
  · exact fun m₀ pre suf hsuf => srv_unpackBody m₀ pre hsuf
  · exact fun _ => rfl
  · intro suffix
    rw [srvCodec, Codec.encode_pair, List.append_assoc]
    exact baseFits_encode hfit.1 _
  · intro short hpre
    refine baseFits_prefix hpre (Nat.lt_of_le_of_lt ?_ m.getMsgLength.toNat_lt)
    rw [hlen, AdvertiseSrv.encode, List.length_append]
    exact Nat.le_add_left _ _

/-- **Wire round trip** of the whole discovery format: headers, subscriptions, message and service advertisements. -/
theorem wire_round_trip :
    (∀ h : Header, h.pUuid.length < 2 ^ 31 - 13 → HeaderRoundTrips h) ∧
    (∀ m : SubscriptionMsg, m.Fits → RoundTrips SubscriptionMsg.Packable SubscriptionMsg.header
      SubscriptionMsg.setHeader SubscriptionMsg.pack SubscriptionMsg.getMsgLength SubscriptionMsg.unpackBody m) ∧
    (∀ m : AdvertiseMsg, m.Fits → RoundTrips AdvertiseMsg.Packable (fun m => m.header) AdvertiseMsg.setHeader
      AdvertiseMsg.pack AdvertiseMsg.getMsgLength AdvertiseMsg.unpackBody m) ∧
    (∀ m : AdvertiseSrv, m.Fits → RoundTrips AdvertiseSrv.Packable (fun m => m.header) AdvertiseSrv.setHeader
      AdvertiseSrv.pack AdvertiseSrv.getMsgLength AdvertiseSrv.unpackBody m) :=
  ⟨fun _ => header_roundTrips, fun _ => subscription_roundTrips, fun _ => advertiseMsg_roundTrips,
    fun _ => advertiseSrv_roundTrips⟩

/-- An advertisement with an empty control address and a NUL in its topic. -/
def sampleAdvertise : AdvertiseMsg :=
  { header := { version := 1, pUuid := [112], type := AdvType }, topic := [116, 0], addr := [97], nUuid := [110],
    scope := .host, msgTypeName := [109] }

theorem wire_round_trip_sample :
    ((sampleAdvertise.pack (List.replicate 70 0) (some 2)).toOption.map Prod.snd = some 60) ∧
    RoundTrips AdvertiseMsg.Packable (fun m => m.header) AdvertiseMsg.setHeader AdvertiseMsg.pack
      AdvertiseMsg.getMsgLength AdvertiseMsg.unpackBody sampleAdvertise :=
  ⟨by decide, wire_round_trip.2.2.1 sampleAdvertise
    ⟨⟨by decide, by decide, by decide, by decide, by decide⟩, by decide⟩⟩

end RoundTrip

end IgnTransport
