import Mathlib
import IgnTransport.PacketWire

/-!
# IgnTransport.PacketCanonical — a message has one encoding

The converse of the round trip.  What `Header::Unpack` and `UnpackBody` read of a byte string is what `Pack` writes for
the message that they read (`canonical_encoding`).  The body is read and written at the offset `GetHeaderLength`, an
`int`: behind the header as long as the header fits one, and on top of the header where the sum has wrapped around;
then `Pack` writes the bytes of the body over equal bytes.
-/

namespace IgnTransport

open Lib

/-! ## Bytes -/

section Bytes

variable {M β : Type}

/-- A header and a message are read from the bytes; the second `UInt64` that comes with it is the length that
`UnpackBody` returns. -/
structure Decodes (unpackBody : M → Buffer → Option ℕ → Option (M × UInt64)) (bytes : Buffer) (h : Header) (m : M)
    (n : UInt64) : Prop where
  /-- A string of the machine. -/
  size : bytes.length < 2 ^ 64
  header : ∃ h₀ k, Header.unpack h₀ bytes (some 0) = some (h, k)
  /-- The body is not read in front of the bytes. -/
  offset : 0 ≤ h.getHeaderLength
  body : ∃ m₀, unpackBody m₀ bytes (some h.getHeaderLength.toNat) = some (m, n)

/-- The end of what is read: of the header, or of the body. -/
def consumed (h : Header) (n : UInt64) : ℕ := max (13 + h.pUuid.length) (h.getHeaderLength.toNat + n.toNat)

/-- What is read is what is written: `Pack` of the message, with its header, accepts what it ought to, and writes the
bytes that were read and nothing else; and bytes that are read as the same message are the same as far as they are
read. -/
def Canonical (Acceptable : M → Prop) (setHeader : M → Header → M)
    (pack : M → Buffer → Option ℕ → Except Fault (Buffer × UInt64))
    (unpackBody : M → Buffer → Option ℕ → Option (M × UInt64)) : Prop :=
  (∀ bytes h m n, Decodes unpackBody bytes h m n → consumed h n ≤ bytes.length ∧
    (Acceptable (setHeader m h) → Accepts pack (setHeader m h) (consumed h n)) ∧
    ∀ buf p buf' len, p + consumed h n ≤ buf.length → pack (setHeader m h) buf (some p) = .ok (buf', len) → len ≠ 0 →
      buf' = buf.take p ++ bytes.take (consumed h n) ++ buf.drop (p + consumed h n)) ∧
  ∀ bytes bytes' h h' m m' n n', Decodes unpackBody bytes h m n → Decodes unpackBody bytes' h' m' n' →
    setHeader m h = setHeader m' h' → bytes.take (consumed h n) = bytes'.take (consumed h' n')

/-- The offset of the body never lies behind the end of the header. -/
theorem getHeaderLength_le (h : Header) : h.getHeaderLength.toNat ≤ 13 + h.pUuid.length := by
  unfold Header.getHeaderLength
  rw [Int.bmod_def]
  split_ifs <;> omega

theorem toNat_ofInt_getHeaderLength {h : Header} (h0 : 0 ≤ h.getHeaderLength) :
    (UInt64.ofInt h.getHeaderLength).toNat = h.getHeaderLength.toNat := by
  obtain ⟨n, hn⟩ := Int.eq_ofNat_of_zero_le h0
  have hlt : h.getHeaderLength < 2 ^ 31 := by
    unfold Header.getHeaderLength
    rw [Int.bmod_def]
    split_ifs <;> omega
  rw [hn, ofInt_natCast, toNat_ofNat_length (by omega), Int.toNat_natCast]

/-- The header that was read is what the bytes start with. -/
theorem header_of_unpack {bytes : Buffer} {h₀ h : Header} {k : UInt64}
    (hread : h₀.unpack bytes (some 0) = some (h, k)) :
    headerCodec.Valid h ∧ ∃ rest, bytes = headerCodec.encode h ++ rest := by
  have hunpack := header_unpack h₀ [] bytes
  rw [List.nil_append, List.length_nil, hread] at hunpack
  obtain ⟨⟨h', rest⟩, hdecode, heq⟩ := Option.map_eq_some_iff.mp hunpack.symm
  obtain ⟨rfl, -⟩ := Prod.mk.inj heq
  exact ⟨headerCodec.valid_of_decode hdecode, rest, headerCodec.eq_encode_append hdecode⟩

theorem unpackString_inside {bytes : Buffer} {i : ℕ} (h : (unpackString bytes i).isSome = true) :
    i ≤ bytes.length := by
  by_contra hi
  have hload : load bytes i 8 = none := if_neg (by omega)
  simp [unpackString, hload, bind] at h

/-- What is read as a body is a valid one, and stands encoded where it was read. -/
def ReadsBack {M β : Type} (c : Codec β) (unpackBody : M → Buffer → Option ℕ → Option (M × UInt64)) (body : M → β) :
    Prop :=
  ∀ bytes m₀ m i n, bytes.length < 2 ^ 64 → unpackBody m₀ bytes (some i) = some (m, n) →
    c.Valid (body m) ∧ n.toNat = (c.encode (body m)).length ∧ ∃ rest, bytes.drop i = c.encode (body m) ++ rest

/-- A body that is read is what the bytes hold at its offset. -/
theorem readsBack_of_unpack {M β : Type} (c : Codec β) {unpackBody : M → Buffer → Option ℕ → Option (M × UInt64)}
    (withBody : M → β → M) (body : M → β)
    (hread : ∀ m₀ pre suf, suf.length < 2 ^ 64 → unpackBody m₀ (pre ++ suf) (some pre.length) =
      (c.decode suf).map fun r => (withBody m₀ r.1, .ofNat (c.encode r.1).length))
    (hbody : ∀ m₀ b, body (withBody m₀ b) = b)
    (hstring : ∀ m₀ bytes i, (unpackBody m₀ bytes (some i)).isSome = true → (unpackString bytes i).isSome = true) :
    ReadsBack c unpackBody body := by
  intro bytes m₀ m i n hsize h
  have hi := unpackString_inside (hstring m₀ bytes i (by rw [h]; rfl))
  have hunpack := hread m₀ (bytes.take i) (bytes.drop i) (by rw [List.length_drop]; omega)
  rw [List.take_append_drop, List.length_take, Nat.min_eq_left hi, h] at hunpack
  obtain ⟨⟨b, rest⟩, hdecode, heq⟩ := Option.map_eq_some_iff.mp hunpack.symm
  obtain ⟨rfl, rfl⟩ := Prod.mk.inj heq
  have hseg := c.eq_encode_append hdecode
  have hlen := congrArg List.length hseg
  rw [List.length_drop, List.length_append] at hlen
  rw [hbody]
  exact ⟨c.valid_of_decode hdecode, toNat_ofNat_length (by simp only; omega), rest, hseg⟩

end Bytes

/-! ## Packing over the bytes -/

section Pack

variable {bytes rest mem : Buffer} {p q i : ℕ}

/-- `Pack` writes the header that was read. -/
theorem header_overlay {h : Header} (hc : h.Complete) (hvalid : headerCodec.Valid h)
    (hbytes : bytes = headerCodec.encode h ++ rest) (hroom : p + (13 + h.pUuid.length) ≤ mem.length) :
    h.pack mem (some p) = .ok (overlay mem p bytes (13 + h.pUuid.length), .ofInt h.getHeaderLength) := by
  have hlen := length_encode_header h
  obtain ⟨hmem, hp⟩ := take_append_drop_at mem (Nat.le_of_add_right_le hroom)
  have hpack := header_pack hc (valid_header.mp hvalid) (mem.take p) (mem.drop p)
    (by rw [hlen, List.length_drop]; omega)
  rw [← hmem, hp, List.drop_drop, hlen] at hpack
  rw [hpack, overlay, hbytes, List.take_append_of_le_length (Nat.le_of_eq hlen.symm), ← hlen, List.take_length]

/-- The fields of the common part of an advertise message. -/
def AdvertiseBase.packFields (m : AdvertiseBase) : Buffer → ℕ → Except Fault (Buffer × ℕ) :=
  writeThen (packString m.topic) (writeThen (packString m.addr) (writeThen (packString m.ctrl)
    (writeThen (packString m.nUuid) fun buf p =>
      (memcpyTo buf p (leBytes 1 m.scope.value.toNat)).map fun buf => (buf, p + 1))))

theorem writes_packFields {m : AdvertiseBase} (hvalid : baseCodec.Valid m.body) :
    Writes m.packFields (baseCodec.encode m.body) := by
  obtain ⟨h1, h2, h3, h4⟩ := valid_base.mp hvalid
  have hscope : Writes (fun buf p => (memcpyTo buf p (leBytes 1 m.scope.value.toNat)).map fun buf => (buf, p + 1))
      (scopeCodec.encode m.scope) := by
    have hstore := writes_store Fault.overrun (leBytes 1 m.scope.value.toNat)
    rwa [length_leBytes] at hstore
  exact (writes_packString h1).andThen ((writes_packString h2).andThen ((writes_packString h3).andThen
    ((writes_packString h4).andThen hscope)))

theorem base_pack_eq {m : AdvertiseBase} {mid : Buffer} {k : UInt64}
    (hheader : m.header.pack mem (some p) = .ok (mid, k)) (hk : k ≠ 0)
    (hbody : ¬ (m.topic = [] ∨ m.addr = [] ∨ m.nUuid = [])) :
    m.pack mem (some p) = (m.packFields mid (p + k.toNat)).map fun r => (r.1, m.getMsgLength) := by
  rw [AdvertiseBase.pack, hheader, ok_bind]
  dsimp only
  rw [if_neg hk, if_neg hbody]
  simp only [AdvertiseBase.packFields, writeThen]
  cases packString m.topic mid (p + k.toNat) with
  | error e => rfl
  | ok r =>
    simp only [bind, Except.bind, Except.map]
    cases packString m.addr r.1 r.2 with
    | error e => rfl
    | ok r =>
      simp only
      cases packString m.ctrl r.1 r.2 with
      | error e => rfl
      | ok r =>
        simp only
        cases packString m.nUuid r.1 r.2 with
        | error e => rfl
        | ok r =>
          simp only
          cases memcpyTo r.1 r.2 (leBytes 1 m.scope.value.toNat) <;> rfl

/-- The place of a body: the header was written as far as `q`, the body is at `i`, and there is room for it. -/
structure Placed (mem : Buffer) (p : ℕ) (bytes : Buffer) (q i : ℕ) (body : Buffer) : Prop where
  le : i ≤ q
  inside : q ≤ bytes.length
  room : p + q ≤ mem.length
  bytes : ∃ rest, bytes.drop i = body ++ rest
  fits : p + (i + body.length) ≤ mem.length

/-- A body that starts with `a`: first comes `a`, then the rest. -/
theorem Placed.split {a b : Buffer} (h : Placed mem p bytes q i (a ++ b)) :
    Placed mem p bytes q i a ∧ Placed mem p bytes (max q (i + a.length)) (i + a.length) b := by
  obtain ⟨rest, hrest⟩ := h.bytes
  have hfits := h.fits
  have hle := h.le
  have hinside := h.inside
  have hroom := h.room
  have hlen := congrArg List.length hrest
  rw [List.length_append] at hfits
  rw [List.length_drop, List.length_append, List.length_append] at hlen
  refine ⟨⟨hle, hinside, hroom, ⟨b ++ rest, by rw [hrest, List.append_assoc]⟩, by omega⟩,
    ⟨le_max_right _ _, by omega, by omega, ⟨rest, ?_⟩, by omega⟩⟩
  rw [← List.drop_drop, hrest, List.append_assoc, List.drop_left]

theorem Placed.write {g : Buffer → ℕ → Except Fault (Buffer × ℕ)} {body : Buffer}
    (h : Placed mem p bytes q i body) (hg : Writes g body) :
    g (overlay mem p bytes q) (p + i) =
      .ok (overlay mem p bytes (max q (i + body.length)), p + (i + body.length)) := by
  obtain ⟨rest, hrest⟩ := h.bytes
  exact hg.overlay h.le h.inside h.room hrest h.fits

variable {k len : UInt64} {out : Buffer}

theorem subscription_overlay {m : SubscriptionMsg}
    (hheader : m.header.pack mem (some p) = .ok (overlay mem p bytes q, k)) (hk : k.toNat = i)
    (hvalid : strCodec.Valid m.topic) (hplaced : Placed mem p bytes q i (strCodec.encode m.topic))
    (hpack : m.pack mem (some p) = .ok (out, len)) (hlen : len ≠ 0) :
    out = overlay mem p bytes (max q (i + (strCodec.encode m.topic).length)) := by
  have hwrite := hplaced.write (writes_packString (valid_str.mp hvalid))
  rw [SubscriptionMsg.pack, hheader, ok_bind] at hpack
  dsimp only at hpack
  split_ifs at hpack
  · exact absurd (Prod.mk.inj (Except.ok.inj hpack)).2.symm hlen
  · exact absurd (Prod.mk.inj (Except.ok.inj hpack)).2.symm hlen
  · rw [hk, hwrite, ok_bind] at hpack
    exact (Prod.mk.inj (Except.ok.inj hpack)).1.symm

theorem base_overlay {m : AdvertiseBase}
    (hheader : m.header.pack mem (some p) = .ok (overlay mem p bytes q, k)) (hk : k.toNat = i)
    (hvalid : baseCodec.Valid m.body) (hplaced : Placed mem p bytes q i (baseCodec.encode m.body))
    (hpack : m.pack mem (some p) = .ok (out, len)) (hlen : len ≠ 0) :
    out = overlay mem p bytes (max q (i + (baseCodec.encode m.body).length)) ∧ len = m.getMsgLength := by
  have hwrite := hplaced.write (writes_packFields hvalid)
  obtain ⟨-, ht, ha, hn⟩ := base_pack_complete hpack hlen
  have hk0 : k ≠ 0 := by
    rintro rfl
    rw [AdvertiseBase.pack, hheader, ok_bind] at hpack
    exact hlen (Prod.mk.inj (Except.ok.inj hpack)).2.symm
  rw [base_pack_eq hheader hk0 (by simp [ht, ha, hn]), hk, hwrite] at hpack
  obtain ⟨rfl, rfl⟩ := Prod.mk.inj (Except.ok.inj hpack)
  exact ⟨rfl, rfl⟩

theorem max_reach (a b c : ℕ) : max (max q (a + b)) (a + b + c) = max q (a + (b + c)) := by omega

/-- The length that the common part of `Pack` returns is the offset of what follows. -/
theorem toNat_base_getMsgLength {m : AdvertiseBase} (h0 : 0 ≤ m.header.getHeaderLength)
    (hsize : m.header.getHeaderLength.toNat + (baseCodec.encode m.body).length < 2 ^ 64) :
    m.getMsgLength.toNat = m.header.getHeaderLength.toNat + (baseCodec.encode m.body).length := by
  rw [AdvertiseBase.getMsgLength_body, UInt64.toNat_add, toNat_ofInt_getHeaderLength h0,
    toNat_ofNat_length (by omega), Nat.mod_eq_of_lt hsize]

theorem msg_overlay {m : AdvertiseMsg} (h0 : 0 ≤ m.header.getHeaderLength) (hi : i = m.header.getHeaderLength.toNat)
    (hsize : bytes.length < 2 ^ 64)
    (hheader : m.header.pack mem (some p) = .ok (overlay mem p bytes q, k)) (hk : k.toNat = i)
    (hvalid : msgCodec.Valid (m.body, m.msgTypeName))
    (hplaced : Placed mem p bytes q i (msgCodec.encode (m.body, m.msgTypeName)))
    (hpack : m.pack mem (some p) = .ok (out, len)) (hlen : len ≠ 0) :
    out = overlay mem p bytes (max q (i + (msgCodec.encode (m.body, m.msgTypeName)).length)) := by
  have henc : msgCodec.encode (m.body, m.msgTypeName) = baseCodec.encode m.body ++ strCodec.encode m.msgTypeName := rfl
  rw [henc] at hplaced ⊢
  obtain ⟨hbase, hname⟩ := hplaced.split
  have hwrite := hname.write (writes_packString (valid_str.mp hvalid.2))
  have hin := hname.inside
  unfold AdvertiseMsg.pack at hpack
  obtain ⟨⟨mid, l⟩, hmid, hpack⟩ := except_bind_eq_ok.mp hpack
  dsimp only at hpack
  split_ifs at hpack with hl
  · exact absurd (Prod.mk.inj (Except.ok.inj hpack)).2.symm hlen
  · exact absurd (Prod.mk.inj (Except.ok.inj hpack)).2.symm hlen
  · obtain ⟨rfl, rfl⟩ := base_overlay hheader hk hvalid.1 hbase hmid hl
    rw [toNat_base_getMsgLength h0 (by rw [← hi]; omega), ← hi, hwrite, ok_bind] at hpack
    rw [← (Prod.mk.inj (Except.ok.inj hpack)).1, List.length_append, max_reach]

theorem srv_overlay {m : AdvertiseSrv} (h0 : 0 ≤ m.header.getHeaderLength) (hi : i = m.header.getHeaderLength.toNat)
    (hsize : bytes.length < 2 ^ 64)
    (hheader : m.header.pack mem (some p) = .ok (overlay mem p bytes q, k)) (hk : k.toNat = i)
    (hvalid : srvCodec.Valid (m.body, m.reqTypeName, m.repTypeName))
    (hplaced : Placed mem p bytes q i (srvCodec.encode (m.body, m.reqTypeName, m.repTypeName)))
    (hpack : m.pack mem (some p) = .ok (out, len)) (hlen : len ≠ 0) :
    out = overlay mem p bytes (max q (i + (srvCodec.encode (m.body, m.reqTypeName, m.repTypeName)).length)) := by
  have henc : srvCodec.encode (m.body, m.reqTypeName, m.repTypeName) =
      baseCodec.encode m.body ++ (strCodec.encode m.reqTypeName ++ strCodec.encode m.repTypeName) := rfl
  rw [henc] at hplaced ⊢
  obtain ⟨hbase, hnames⟩ := hplaced.split
  obtain ⟨hreq, hrep⟩ := hnames.split
  have hwriteReq := hreq.write (writes_packString (valid_str.mp hvalid.2.1))
  have hwriteRep := hrep.write (writes_packString (valid_str.mp hvalid.2.2))
  have hin := hreq.inside
  obtain ⟨-, hne⟩ := srv_pack_complete hpack hlen
  unfold AdvertiseSrv.pack at hpack
  obtain ⟨⟨mid, l⟩, hmid, hpack⟩ := except_bind_eq_ok.mp hpack
  dsimp only at hpack
  split_ifs at hpack with hl hnil
  · exact absurd (Prod.mk.inj (Except.ok.inj hpack)).2.symm hlen
  · exact absurd hnil (by simp [hne])
  · obtain ⟨rfl, rfl⟩ := base_overlay hheader hk hvalid.1 hbase hmid hl
    rw [toNat_base_getMsgLength h0 (by rw [← hi]; omega), ← hi, hwriteReq, ok_bind] at hpack
    dsimp only at hpack
    rw [hwriteRep, ok_bind] at hpack
    rw [← (Prod.mk.inj (Except.ok.inj hpack)).1, List.length_append, List.length_append, max_reach, max_reach]

end Pack

/-! ## Canonicity -/

section Canonicity

/-- Bytes that start with the same header, and hold the same body at an offset inside it or right behind it, are the
same as far as the two reach. -/
theorem take_reach {bytes bytes' hdr seg rest rest' more more' : Buffer} {i : ℕ} (h : bytes = hdr ++ rest)
    (h' : bytes' = hdr ++ rest') (hseg : bytes.drop i = seg ++ more) (hseg' : bytes'.drop i = seg ++ more')
    (hi : i ≤ hdr.length) : bytes.take (max hdr.length (i + seg.length)) =
      bytes'.take (max hdr.length (i + seg.length)) := by
  refine List.ext_getElem? fun k => ?_
  rw [List.getElem?_take, List.getElem?_take]
  split_ifs with hk
  · by_cases hhdr : k < hdr.length
    · rw [h, h', List.getElem?_append_left hhdr, List.getElem?_append_left hhdr]
    · obtain ⟨j, rfl⟩ := Nat.exists_eq_add_of_le (hi.trans (Nat.le_of_not_lt hhdr))
      rw [← List.getElem?_drop, ← List.getElem?_drop, hseg, hseg', List.getElem?_append_left (by omega),
        List.getElem?_append_left (by omega)]
  · rfl

/-- What a decoding says of the bytes: they begin with the encoding of the header, and that of the body stands where
the body is read. -/
theorem decodes_parts {M β : Type} {c : Codec β} {unpackBody : M → Buffer → Option ℕ → Option (M × UInt64)}
    {body : M → β}
    (hread : ReadsBack c unpackBody body) {bytes : Buffer} {h : Header} {m : M} {n : UInt64}
    (hdec : Decodes unpackBody bytes h m n) :
    headerCodec.Valid h ∧ (∃ rest, bytes = headerCodec.encode h ++ rest) ∧ c.Valid (body m) ∧
      n.toNat = (c.encode (body m)).length ∧
      ∃ rest, bytes.drop h.getHeaderLength.toNat = c.encode (body m) ++ rest := by
  obtain ⟨h₀, k, hunpack⟩ := hdec.header
  obtain ⟨m₀, hbody⟩ := hdec.body
  obtain ⟨hvalid, hbytes⟩ := header_of_unpack hunpack
  exact ⟨hvalid, hbytes, hread bytes m₀ m _ n hdec.size hbody⟩

theorem consumed_le_length {M β : Type} {c : Codec β}
    {unpackBody : M → Buffer → Option ℕ → Option (M × UInt64)} {body : M → β}
    (hread : ReadsBack c unpackBody body) {bytes : Buffer} {h : Header} {m : M} {n : UInt64}
    (hdec : Decodes unpackBody bytes h m n) :
    consumed h n ≤ bytes.length := by
  obtain ⟨-, ⟨rest, hbytes⟩, -, hn, rest', hseg⟩ := decodes_parts hread hdec
  have hlen := congrArg List.length hbytes
  have hlen' := congrArg List.length hseg
  rw [List.length_append, length_encode_header] at hlen
  rw [List.length_drop, List.length_append] at hlen'
  have hle := getHeaderLength_le h
  unfold consumed
  omega

theorem canonical_of {M β : Type} (c : Codec β) {Acceptable : M → Prop} {header : M → Header}
    {setHeader : M → Header → M} {pack : M → Buffer → Option ℕ → Except Fault (Buffer × UInt64)}
    {unpackBody : M → Buffer → Option ℕ → Option (M × UInt64)} (body : M → β)
    (hheader : ∀ m h, header (setHeader m h) = h) (hset : ∀ m h, body (setHeader m h) = body m)
    (hread : ReadsBack c unpackBody body)
    (haccepts : ∀ m, Acceptable m → (header m).pUuid.length < 2 ^ 31 - 13 ∧
      Accepts pack m (headerCodec.encode (header m) ++ c.encode (body m)).length)
    (hcomplete : ∀ m buf p buf' n, pack m buf (some p) = .ok (buf', n) → n ≠ 0 → (header m).Complete)
    (hpack : ∀ (m : M) (bytes mem : Buffer) (p q i : ℕ) (k len : UInt64) (out : Buffer),
      0 ≤ (header m).getHeaderLength → i = (header m).getHeaderLength.toNat → bytes.length < 2 ^ 64 →
      (header m).pack mem (some p) = .ok (overlay mem p bytes q, k) → k.toNat = i → c.Valid (body m) →
      Placed mem p bytes q i (c.encode (body m)) → pack m mem (some p) = .ok (out, len) → len ≠ 0 →
      out = overlay mem p bytes (max q (i + (c.encode (body m)).length))) :
    Canonical Acceptable setHeader pack unpackBody := by
  refine ⟨fun bytes h m n hdec => ⟨consumed_le_length hread hdec, fun hacceptable => ?_, ?_⟩, ?_⟩
  · obtain ⟨-, -, -, hn, -⟩ := decodes_parts hread hdec
    obtain ⟨hfit, haccept⟩ := haccepts (setHeader m h) hacceptable
    rw [hheader] at hfit haccept
    rw [hset, List.length_append, length_encode_header, ← hn] at haccept
    have hsize : consumed h n = 13 + h.pUuid.length + n.toNat := by
      rw [consumed, Header.getHeaderLength_eq hfit, Int.toNat_natCast, length_encode_header]
      omega
    rwa [hsize]
  · intro buf p buf' len hroom hok hlen
    obtain ⟨hvalid, ⟨rest, hbytes⟩, hbody, hn, rest', hseg⟩ := decodes_parts hread hdec
    have hin := consumed_le_length hread hdec
    have hle := getHeaderLength_le h
    have hq : 13 + h.pUuid.length ≤ consumed h n := le_max_left _ _
    have hj : h.getHeaderLength.toNat + (c.encode (body m)).length ≤ consumed h n := hn ▸ le_max_right _ _
    have hc : h.Complete := hheader m h ▸ hcomplete (setHeader m h) buf p buf' len hok hlen
    have hfirst := header_overlay hc hvalid hbytes (by omega : p + (13 + h.pUuid.length) ≤ buf.length)
    have hout := hpack (setHeader m h) bytes buf p (13 + h.pUuid.length) h.getHeaderLength.toNat
      (.ofInt h.getHeaderLength) len buf' (by rw [hheader]; exact hdec.offset) (by rw [hheader]) hdec.size
      (by rw [hheader]; exact hfirst) (toNat_ofInt_getHeaderLength hdec.offset) (by rw [hset]; exact hbody)
      (by rw [hset]; exact ⟨hle, by omega, by omega, ⟨rest', hseg⟩, by omega⟩) hok hlen
    rw [hout, hset, ← hn]
    rfl
  · intro bytes bytes' h h' m m' n n' hdec hdec' heq
    obtain ⟨-, ⟨rest, hbytes⟩, -, hn, more, hseg⟩ := decodes_parts hread hdec
    obtain ⟨-, ⟨rest', hbytes'⟩, -, hn', more', hseg'⟩ := decodes_parts hread hdec'
    have hh : h = h' := by rw [← hheader m h, heq, hheader]
    have hb : body m = body m' := by rw [← hset m h, heq, hset]
    rw [← hh] at hbytes' hseg' ⊢
    rw [← hb] at hn' hseg'
    have hlen := length_encode_header h
    have hi : h.getHeaderLength.toNat ≤ (headerCodec.encode h).length := by
      rw [hlen]
      exact getHeaderLength_le h
    unfold consumed
    rw [hn, hn', ← hlen]
    exact take_reach hbytes hbytes' hseg hseg' hi

/-- **Encoding is canonical**, for subscriptions and for message and service advertisements. -/
theorem canonical_encoding :
    Canonical (fun m => m.Fits ∧ m.Packable) SubscriptionMsg.setHeader SubscriptionMsg.pack
      SubscriptionMsg.unpackBody ∧
    Canonical (fun m => m.Fits ∧ m.Packable) AdvertiseMsg.setHeader AdvertiseMsg.pack AdvertiseMsg.unpackBody ∧
    Canonical (fun m => m.Fits ∧ m.Packable) AdvertiseSrv.setHeader AdvertiseSrv.pack AdvertiseSrv.unpackBody := by
  have hbase : ∀ (m : AdvertiseBase) bytes i, (m.unpackBody bytes (some i)).isSome = true →
      (unpackString bytes i).isSome = true := by
    intro m bytes i h
    obtain ⟨r, hr⟩ := Option.isSome_iff_exists.mp h
    obtain ⟨s, hs, -⟩ := Option.bind_eq_some_iff.mp hr
    rw [hs]
    rfl
  refine ⟨?_, ?_, ?_⟩
  · refine canonical_of strCodec (fun m => m.topic) (fun _ _ => rfl) (fun _ _ => rfl) ?_
      (fun m hm => ⟨hm.1.pUuid, subscription_accepts hm.1 hm.2⟩)
      (fun m buf p buf' n h hn => (subscription_pack_complete h hn).1) ?_
    · refine readsBack_of_unpack strCodec (fun m s => { m with topic := s }) (fun m => m.topic)
        (fun m₀ pre suf _ => subscription_unpackBody m₀ pre suf) (fun _ _ => rfl) fun m₀ bytes i h => ?_
      obtain ⟨r, hr⟩ := Option.isSome_iff_exists.mp h
      obtain ⟨s, hs, -⟩ := Option.bind_eq_some_iff.mp hr
      rw [hs]
      rfl
    · intro m bytes mem p q i k len out _ _ _ hheader hk hvalid hplaced hpack hlen
      exact subscription_overlay hheader hk hvalid hplaced hpack hlen
  · refine canonical_of msgCodec (fun m => (m.body, m.msgTypeName)) (fun _ _ => rfl) (fun _ _ => rfl)
      ?_ (fun m hm => ⟨hm.1.1.pUuid, advertiseMsg_accepts hm.1 hm.2⟩)
      (fun m buf p buf' n h hn => (msg_pack_complete h hn).1.1)
      (fun m bytes mem p q i k len out => msg_overlay)
    refine readsBack_of_unpack msgCodec (fun m b => { m.withBody b.1 with msgTypeName := b.2 })
      (fun m => (m.body, m.msgTypeName)) (fun m₀ pre suf hsuf => msg_unpackBody m₀ pre (baseFits_of_length hsuf))
      (fun _ _ => rfl) fun m₀ bytes i h => ?_
    obtain ⟨r, hr⟩ := Option.isSome_iff_exists.mp h
    obtain ⟨b, hb, -⟩ := Option.bind_eq_some_iff.mp hr
    exact hbase _ bytes i (by rw [hb]; rfl)
  · refine canonical_of srvCodec (fun m => (m.body, m.reqTypeName, m.repTypeName)) (fun _ _ => rfl) (fun _ _ => rfl)
      ?_ (fun m hm => ⟨hm.1.1.pUuid, advertiseSrv_accepts hm.1 hm.2⟩)
      (fun m buf p buf' n h hn => (srv_pack_complete h hn).1.1)
      (fun m bytes mem p q i k len out => srv_overlay)
    refine readsBack_of_unpack srvCodec (fun m b => { m.withBody b.1 with reqTypeName := b.2.1, repTypeName := b.2.2 })
      (fun m => (m.body, m.reqTypeName, m.repTypeName))
      (fun m₀ pre suf hsuf => srv_unpackBody m₀ pre (baseFits_of_length hsuf))
      (fun _ _ => rfl) fun m₀ bytes i h => ?_
    obtain ⟨r, hr⟩ := Option.isSome_iff_exists.mp h
    obtain ⟨b, hb, -⟩ := Option.bind_eq_some_iff.mp hr
    exact hbase _ bytes i (by rw [hb]; rfl)

/-- A subscription to `t`, sent with flags that no process of this version sets. -/
def sampleBytes : Buffer := [1, 0, 1, 0, 0, 0, 0, 0, 0, 0, 112, 2, 7, 0, 1, 0, 0, 0, 0, 0, 0, 0, 116, 9]

theorem canonical_encoding_subscription :
    let h : Header := { version := 1, pUuid := [112], type := 2, flags := 7 }
    Decodes SubscriptionMsg.unpackBody sampleBytes h { topic := [116] } 9 ∧
    (SubscriptionMsg.pack { header := h, topic := [116] } (List.replicate 30 5) (some 3)).toOption.map Prod.snd =
      some 23 ∧
    ∀ buf' len, SubscriptionMsg.pack { header := h, topic := [116] } (List.replicate 30 5) (some 3) = .ok (buf', len) →
      len ≠ 0 → buf' = [5, 5, 5] ++ sampleBytes.take 23 ++ [5, 5, 5, 5] := by
  have hdec : Decodes SubscriptionMsg.unpackBody sampleBytes { version := 1, pUuid := [112], type := 2, flags := 7 }
      { topic := [116] } 9 :=
    ⟨by decide, ⟨{}, 14, by decide⟩, by decide, ⟨{}, by decide⟩⟩
  exact ⟨hdec, by decide, fun buf' len =>
    (canonical_encoding.1.1 _ _ _ _ hdec).2.2 (List.replicate 30 5) 3 buf' len (by decide)⟩

end Canonicity

end IgnTransport
