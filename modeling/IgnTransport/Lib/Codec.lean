import Mathlib

/-!
# Lib.Codec — exact prefix codecs over byte lists

A `Codec α` writes a value as bytes and reads one back from the front of a byte list.  Its law `exact` is an
equivalence: a value is read from `bytes` with `rest` left over exactly when it is representable and `bytes` is its
encoding followed by `rest`.  Round trip, canonicity and "a truncated input is not read" are all consequences, and
the law is closed under pairing and under a change of representation.
-/

namespace Lib

/-! ## Little-endian numbers -/

section LittleEndian

/-- The `w` little-endian bytes of `n`, reduced modulo `256 ^ w`. -/
def leBytes : ℕ → ℕ → List UInt8
  | 0, _ => []
  | w + 1, n => UInt8.ofNat n :: leBytes w (n / 256)

/-- The number whose little-endian bytes are given. -/
def leNat : List UInt8 → ℕ
  | [] => 0
  | b :: bs => b.toNat + 256 * leNat bs

@[simp] theorem length_leBytes (w n : ℕ) : (leBytes w n).length = w := by
  induction w generalizing n with
  | zero => rfl
  | succ w ih => simp [leBytes, ih]

theorem leNat_leBytes {w n : ℕ} (h : n < 256 ^ w) : leNat (leBytes w n) = n := by
  induction w generalizing n with
  | zero => simp at h; simp [leBytes, leNat, h]
  | succ w ih =>
    have hdiv : n / 256 < 256 ^ w := by
      rw [Nat.div_lt_iff_lt_mul (by decide), ← pow_succ]; exact h
    have hmod : (UInt8.ofNat n).toNat = n % 256 := by simp
    rw [leBytes, leNat, ih hdiv, hmod]
    omega

theorem leNat_lt (bs : List UInt8) : leNat bs < 256 ^ bs.length := by
  induction bs with
  | nil => simp [leNat]
  | cons b bs ih =>
    have hb := b.toNat_lt
    simp only [leNat, List.length_cons, pow_succ]
    omega

theorem leBytes_leNat (bs : List UInt8) : leBytes bs.length (leNat bs) = bs := by
  induction bs with
  | nil => rfl
  | cons b bs ih =>
    have hb := b.toNat_lt
    have hdiv : (b.toNat + 256 * leNat bs) / 256 = leNat bs := by omega
    have hmod : UInt8.ofNat (b.toNat + 256 * leNat bs) = b := by
      apply UInt8.toNat_inj.mp
      simp
    rw [List.length_cons, leBytes, leNat, hdiv, hmod, ih]

end LittleEndian

/-! ## Codecs -/

/-- A writer and a prefix reader of one type, with the law that ties them. -/
structure Codec (α : Type*) where
  encode : α → List UInt8
  decode : List UInt8 → Option (α × List UInt8)
  Valid : α → Prop
  exact : ∀ bytes v rest, decode bytes = some (v, rest) ↔ Valid v ∧ bytes = encode v ++ rest

namespace Codec

variable {α β : Type*}

/-- **Round trip**: an encoding in front of any suffix is read back, and nothing else is consumed. -/
theorem decode_encode (c : Codec α) {v : α} (hv : c.Valid v) (rest : List UInt8) :
    c.decode (c.encode v ++ rest) = some (v, rest) :=
  (c.exact _ _ _).mpr ⟨hv, rfl⟩

/-- **Canonicity**: what is read is the encoding of the value read. -/
theorem eq_encode_append (c : Codec α) {bytes rest : List UInt8} {v : α}
    (h : c.decode bytes = some (v, rest)) : bytes = c.encode v ++ rest :=
  ((c.exact _ _ _).mp h).2

theorem valid_of_decode (c : Codec α) {bytes rest : List UInt8} {v : α}
    (h : c.decode bytes = some (v, rest)) : c.Valid v :=
  ((c.exact _ _ _).mp h).1

/-- A value is read from the front of `bytes` exactly when `bytes` starts with an encoding. -/
theorem isSome_decode (c : Codec α) (bytes : List UInt8) :
    (c.decode bytes).isSome ↔ ∃ v rest, c.Valid v ∧ bytes = c.encode v ++ rest := by
  rw [Option.isSome_iff_exists]
  constructor
  · rintro ⟨⟨v, rest⟩, h⟩
    exact ⟨v, rest, (c.exact _ _ _).mp h⟩
  · rintro ⟨v, rest, h⟩
    exact ⟨(v, rest), (c.exact _ _ _).mpr h⟩

/-- Two fields, one after the other. -/
def pair (c : Codec α) (d : Codec β) : Codec (α × β) where
  encode v := c.encode v.1 ++ d.encode v.2
  decode bytes := (c.decode bytes).bind fun r => (d.decode r.2).map fun s => ((r.1, s.1), s.2)
  Valid v := c.Valid v.1 ∧ d.Valid v.2
  exact := by
    rintro bytes ⟨a, b⟩ rest
    simp only [Option.bind_eq_some_iff, Option.map_eq_some_iff, Prod.exists, Prod.mk.injEq]
    constructor
    · rintro ⟨a', mid, h1, b', rest', h2, ⟨rfl, rfl⟩, rfl⟩
      obtain ⟨hc, rfl⟩ := (c.exact _ _ _).mp h1
      obtain ⟨hd, rfl⟩ := (d.exact _ _ _).mp h2
      exact ⟨⟨hc, hd⟩, by simp⟩
    · rintro ⟨⟨hc, hd⟩, rfl⟩
      exact ⟨a, d.encode b ++ rest, (c.exact _ _ _).mpr ⟨hc, by simp⟩, b, rest,
        (d.exact _ _ _).mpr ⟨hd, rfl⟩, ⟨rfl, rfl⟩, rfl⟩

/-- The same bytes under another representation of the representable values. -/
def retype (c : Codec α) (f : α → β) (g : β → α) (hgf : ∀ a, c.Valid a → g (f a) = a) (hfg : ∀ b, f (g b) = b) :
    Codec β where
  encode v := c.encode (g v)
  decode bytes := (c.decode bytes).map fun r => (f r.1, r.2)
  Valid v := c.Valid (g v)
  exact := by
    intro bytes v rest
    rw [← c.exact]
    simp only [Option.map_eq_some_iff, Prod.exists, Prod.mk.injEq]
    constructor
    · rintro ⟨a, r, h, rfl, rfl⟩
      rw [hgf a (c.valid_of_decode h)]
      exact h
    · intro h
      exact ⟨_, _, h, hfg v, rfl⟩

/-- A number in `w` little-endian bytes. -/
def le (w : ℕ) : Codec ℕ where
  encode n := leBytes w n
  decode bytes := if w ≤ bytes.length then some (leNat (bytes.take w), bytes.drop w) else none
  Valid n := n < 256 ^ w
  exact := by
    intro bytes v rest
    constructor
    · intro h
      split_ifs at h with hw
      simp only [Option.some.injEq, Prod.mk.injEq] at h
      obtain ⟨rfl, rfl⟩ := h
      have hlen : (bytes.take w).length = w := by simp [hw]
      have hlt := leNat_lt (bytes.take w)
      have heq := leBytes_leNat (bytes.take w)
      rw [hlen] at hlt heq
      exact ⟨hlt, by rw [heq, List.take_append_drop]⟩
    · rintro ⟨hv, rfl⟩
      have hw : w ≤ (leBytes w v ++ rest).length := by simp
      have htake : (leBytes w v ++ rest).take w = leBytes w v := by
        rw [List.take_append_of_le_length (by simp), List.take_of_length_le (by simp)]
      have hdrop : (leBytes w v ++ rest).drop w = rest := by
        rw [List.drop_append_of_le_length (by simp), List.drop_of_length_le (by simp), List.nil_append]
      rw [if_pos hw, htake, hdrop, leNat_leBytes hv]

/-- Exactly `n` raw bytes. -/
def raw (n : ℕ) : Codec { s : List UInt8 // s.length = n } where
  encode s := s.1
  decode bytes := if h : n ≤ bytes.length then some (⟨bytes.take n, by simp [h]⟩, bytes.drop n) else none
  Valid _ := True
  exact := by
    rintro bytes ⟨s, rfl⟩ rest
    constructor
    · intro h
      split_ifs at h with hn
      simp only [Option.some.injEq, Prod.mk.injEq, Subtype.mk.injEq] at h
      obtain ⟨h1, rfl⟩ := h
      refine ⟨trivial, ?_⟩
      conv_lhs => rw [← List.take_append_drop s.length bytes, h1]
    · rintro ⟨-, rfl⟩
      rw [dif_pos (by simp)]
      simp

/-- A byte string preceded by its length in `w` little-endian bytes. -/
def prefixed (w : ℕ) : Codec (List UInt8) where
  encode s := leBytes w s.length ++ s
  decode bytes := ((le w).decode bytes).bind fun r =>
    ((raw r.1).decode r.2).map fun s => (s.1.1, s.2)
  Valid s := s.length < 256 ^ w
  exact := by
    intro bytes s rest
    simp only [Option.bind_eq_some_iff, Option.map_eq_some_iff, Prod.exists, Prod.mk.injEq, Subtype.exists]
    constructor
    · rintro ⟨n, mid, h1, s', hs', rest', h2, rfl, rfl⟩
      obtain ⟨hn, rfl⟩ := ((le w).exact _ _ _).mp h1
      obtain ⟨-, hmid⟩ := ((raw n).exact _ _ _).mp h2
      subst hs'
      exact ⟨hn, by rw [hmid]; simp [le, raw]⟩
    · rintro ⟨hs, rfl⟩
      refine ⟨s.length, s ++ rest, ((le w).exact _ _ _).mpr ⟨hs, by simp [le]⟩, s, rfl, rest, ?_, rfl, rfl⟩
      exact ((raw s.length).exact _ _ _).mpr ⟨trivial, rfl⟩

theorem decode_pair (c : Codec α) (d : Codec β) (bytes : List UInt8) : (c.pair d).decode bytes =
    (c.decode bytes).bind fun r => (d.decode r.2).map fun s => ((r.1, s.1), s.2) := rfl

@[simp] theorem encode_le (w n : ℕ) : (le w).encode n = leBytes w n := rfl

@[simp] theorem encode_prefixed (w : ℕ) (s : List UInt8) :
    (prefixed w).encode s = leBytes w s.length ++ s := rfl

@[simp] theorem valid_prefixed (w : ℕ) (s : List UInt8) : (prefixed w).Valid s ↔ s.length < 256 ^ w := Iff.rfl

@[simp] theorem encode_pair (c : Codec α) (d : Codec β) (v : α × β) :
    (c.pair d).encode v = c.encode v.1 ++ d.encode v.2 := rfl

end Codec

end Lib
