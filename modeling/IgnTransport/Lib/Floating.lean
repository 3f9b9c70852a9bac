import Mathlib

/-!
# IgnTransport.Lib.Floating — non-negative binary floating-point numbers

Numbers with `p` bits behind the leading one, as multiples of the smallest number `2 ^ (-k)`.  Every operation is exact
and then rounded to the nearest number, ties to the even one.  There is no largest number: nothing overflows.

* `ofNat_mono`, `div_mono`, `mul_mono`: the operations keep the order.
* `scale_le`, `le_scale`: to divide by a number and multiply by it again loses at most a little.
-/

namespace Lib

/-! ## Rounding -/

section Rounding

variable {n n' d m p : ℕ}

/-- `n / d`, rounded to the nearest; ties to the even one. -/
def divEven (n d : ℕ) : ℕ :=
  if 2 * (n % d) < d ∨ 2 * (n % d) = d ∧ n / d % 2 = 0 then n / d else n / d + 1

theorem div_le_divEven (n d : ℕ) : n / d ≤ divEven n d := by
  unfold divEven
  split_ifs <;> omega

theorem divEven_le_succ (n d : ℕ) : divEven n d ≤ n / d + 1 := by
  unfold divEven
  split_ifs <;> omega

theorem divEven_mul (hd : 0 < d) (m : ℕ) : divEven (m * d) d = m := by
  rw [divEven, Nat.mul_mod_left, Nat.mul_div_cancel _ hd, if_pos (.inl (by omega))]

theorem divEven_mono (h : n ≤ n') (d : ℕ) : divEven n d ≤ divEven n' d := by
  rcases (Nat.div_le_div_right h : n / d ≤ n' / d).lt_or_eq with hlt | heq
  · exact (divEven_le_succ n d).trans ((Nat.succ_le_of_lt hlt).trans (div_le_divEven n' d))
  · -- the same quotient: the remainders decide
    have hn := Nat.div_add_mod n d
    have hn' := Nat.div_add_mod n' d
    rw [heq] at hn
    have hmod : n % d ≤ n' % d := by omega
    unfold divEven
    rw [heq]
    split_ifs <;> omega

theorem divEven_le (hd : 0 < d) (h : n ≤ m * d) : divEven n d ≤ m :=
  (divEven_mono h d).trans (divEven_mul hd m).le

theorem le_divEven (hd : 0 < d) (h : m * d ≤ n) : m ≤ divEven n d :=
  (divEven_mul hd m).ge.trans (divEven_mono h d)

/-- The error is half a unit at most. -/
theorem divEven_error (n : ℕ) (hd : 0 < d) :
    2 * (divEven n d * d) ≤ 2 * n + d ∧ 2 * n ≤ 2 * (divEven n d * d) + d := by
  have hn := Nat.div_add_mod n d
  have hmod := Nat.mod_lt n hd
  rw [Nat.mul_comm d] at hn
  unfold divEven
  split_ifs with hdown
  · omega
  · rw [Nat.add_mul, Nat.one_mul]
    omega

/-- `n / d`, rounded to `p` bits behind the leading one. -/
def roundQuot (p n d : ℕ) : ℕ :=
  let e := Nat.log2 (n / d) - p
  divEven n (d * 2 ^ e) * 2 ^ e

/-- `p` bits behind the leading one suffice. -/
def Fits (p u : ℕ) : Prop := ∃ m e, m ≤ 2 ^ (p + 1) ∧ u = m * 2 ^ e

theorem lt_two_pow_log2 (n d p : ℕ) (hd : 0 < d) : n < 2 ^ (p + 1) * (d * 2 ^ (Nat.log2 (n / d) - p)) := by
  have hlog : n / d < 2 ^ (p + 1 + (Nat.log2 (n / d) - p)) :=
    Nat.lt_log2_self.trans_le (Nat.pow_le_pow_right (by decide) (by omega))
  have hn := (Nat.div_lt_iff_lt_mul hd).mp hlog
  rw [Nat.pow_add] at hn
  calc n < 2 ^ (p + 1) * 2 ^ (Nat.log2 (n / d) - p) * d := hn
    _ = 2 ^ (p + 1) * (d * 2 ^ (Nat.log2 (n / d) - p)) := by ring

theorem fits_roundQuot (p n d : ℕ) : Fits p (roundQuot p n d) := by
  refine ⟨_, _, ?_, rfl⟩
  rcases Nat.eq_zero_or_pos d with rfl | hd
  · have hone := divEven_le_succ n (0 * 2 ^ (Nat.log2 (n / 0) - p))
    rw [Nat.zero_mul, Nat.div_zero] at hone
    exact (by simpa using hone : _ ≤ 1).trans Nat.one_le_two_pow
  · exact divEven_le (by positivity) (lt_two_pow_log2 n d p hd).le

/-- A quotient with all of its bits. -/
theorem two_pow_mul_le (hn : 2 ^ p ≤ n / d) : 2 ^ p * (d * 2 ^ (Nat.log2 (n / d) - p)) ≤ n := by
  have hne : n / d ≠ 0 := (Nat.lt_of_lt_of_le (by positivity) hn).ne'
  have hp : p ≤ Nat.log2 (n / d) := (Nat.le_log2 hne).mpr hn
  calc 2 ^ p * (d * 2 ^ (Nat.log2 (n / d) - p)) = 2 ^ (p + (Nat.log2 (n / d) - p)) * d := by rw [Nat.pow_add]; ring
    _ = 2 ^ Nat.log2 (n / d) * d := by rw [Nat.add_sub_cancel' hp]
    _ ≤ n / d * d := Nat.mul_le_mul_right d (Nat.log2_self_le hne)
    _ ≤ n := Nat.div_mul_le_self n d

theorem two_pow_dvd_of_fits {u : ℕ} (h : Fits p u) : 2 ^ (Nat.log2 u - p) ∣ u := by
  obtain ⟨m, e, hm, rfl⟩ := h
  rcases Nat.eq_zero_or_pos m with rfl | hpos
  · simp
  rcases hm.lt_or_eq with hlt | rfl
  · have hne : m * 2 ^ e ≠ 0 := by positivity
    have hbound : m * 2 ^ e < 2 ^ (p + 1 + e) := by
      rw [Nat.pow_add]
      exact Nat.mul_lt_mul_of_pos_right hlt (by positivity)
    have hlog := (Nat.log2_lt hne).mpr hbound
    exact (pow_dvd_pow 2 (by omega)).mul_left m
  · rw [← Nat.pow_add, Nat.log2_two_pow]
    exact pow_dvd_pow 2 (Nat.sub_le _ _)

/-- What can be represented is not rounded. -/
theorem roundQuot_of_fits {u : ℕ} (hd : 0 < d) (h : Fits p u) : roundQuot p (u * d) d = u := by
  rw [roundQuot, Nat.mul_div_cancel _ hd]
  obtain ⟨c, hc⟩ := two_pow_dvd_of_fits h
  have hmul : u * d = c * (d * 2 ^ (Nat.log2 u - p)) := by
    conv_lhs => rw [hc]
    ring
  rw [hmul, divEven_mul (by positivity)]
  conv_rhs => rw [hc]
  ring

theorem roundQuot_mono (h : n ≤ n') (hd : 0 < d) (p : ℕ) : roundQuot p n d ≤ roundQuot p n' d := by
  have hdiv : n / d ≤ n' / d := Nat.div_le_div_right h
  have hlog : Nat.log2 (n / d) ≤ Nat.log2 (n' / d) := by
    rw [Nat.log2_eq_log_two, Nat.log2_eq_log_two]
    exact Nat.log_mono_right hdiv
  rcases (Nat.sub_le_sub_right hlog p).eq_or_lt with heq | hlt
  · rw [roundQuot, roundQuot, heq]
    exact Nat.mul_le_mul_right _ (divEven_mono h _)
  · -- a power of two lies between the two
    have hne : n' / d ≠ 0 := fun h0 => by simp [h0] at hlt
    have hnormal : 2 ^ p ≤ n' / d :=
      (Nat.pow_le_pow_right (by decide) (by omega)).trans (Nat.log2_self_le hne)
    calc roundQuot p n d ≤ 2 ^ (p + 1) * 2 ^ (Nat.log2 (n / d) - p) :=
          Nat.mul_le_mul_right _ (divEven_le (by positivity) (lt_two_pow_log2 n d p hd).le)
      _ = 2 ^ p * 2 ^ (Nat.log2 (n / d) - p + 1) := by ring
      _ ≤ 2 ^ p * 2 ^ (Nat.log2 (n' / d) - p) :=
          Nat.mul_le_mul_left _ (Nat.pow_le_pow_right (by decide) hlt)
      _ ≤ roundQuot p n' d := Nat.mul_le_mul_right _ (le_divEven (by positivity) (two_pow_mul_le hnormal))

/-- The relative error of a quotient with all of its bits. -/
theorem roundQuot_error (hd : 0 < d) (hn : 2 ^ p ≤ n / d) :
    2 ^ (p + 1) * (roundQuot p n d * d) ≤ (2 ^ (p + 1) + 1) * n ∧
      2 ^ (p + 1) * n ≤ 2 ^ (p + 1) * (roundQuot p n d * d) + n := by
  have hnormal := two_pow_mul_le hn
  rw [roundQuot]
  set D := d * 2 ^ (Nat.log2 (n / d) - p) with hD
  obtain ⟨hup, hdown⟩ := divEven_error n (show 0 < D by positivity)
  have hround : divEven n D * 2 ^ (Nat.log2 (n / d) - p) * d = divEven n D * D := by
    rw [hD]
    ring
  rw [hround, Nat.pow_succ]
  constructor
  · calc 2 ^ p * 2 * (divEven n D * D) = 2 ^ p * (2 * (divEven n D * D)) := by ring
      _ ≤ 2 ^ p * (2 * n + D) := Nat.mul_le_mul_left _ hup
      _ = 2 ^ p * 2 * n + 2 ^ p * D := by ring
      _ ≤ 2 ^ p * 2 * n + n := Nat.add_le_add_left hnormal _
      _ = (2 ^ p * 2 + 1) * n := by ring
  · calc 2 ^ p * 2 * n = 2 ^ p * (2 * n) := by ring
      _ ≤ 2 ^ p * (2 * (divEven n D * D) + D) := Nat.mul_le_mul_left _ hdown
      _ = 2 ^ p * 2 * (divEven n D * D) + 2 ^ p * D := by ring
      _ ≤ 2 ^ p * 2 * (divEven n D * D) + n := Nat.add_le_add_left hnormal _

/-- The rounded quotient of `x * v` and `c * v` is close to that of `x` and `c`. -/
theorem roundQuot_near {x c v : ℕ} (hnx : n = x * v) (hdc : d = c * v) (hd : 0 < d) (hn : 2 ^ p ≤ n / d) :
    2 ^ (p + 1) * (roundQuot p n d * c) ≤ (2 ^ (p + 1) + 1) * x ∧
      (2 ^ (p + 1) - 1) * x ≤ 2 ^ (p + 1) * (roundQuot p n d * c) := by
  obtain ⟨hup, hdown⟩ := roundQuot_error hd hn
  have hv : 0 < v := Nat.pos_of_mul_pos_left (hdc ▸ hd)
  generalize roundQuot p n d = q at *
  constructor
  · refine Nat.le_of_mul_le_mul_right ?_ hv
    calc 2 ^ (p + 1) * (q * c) * v = 2 ^ (p + 1) * (q * d) := by rw [hdc]; ring
      _ ≤ (2 ^ (p + 1) + 1) * n := hup
      _ = (2 ^ (p + 1) + 1) * x * v := by rw [hnx]; ring
  · rw [Nat.sub_mul, Nat.one_mul, Nat.sub_le_iff_le_add]
    refine Nat.le_of_mul_le_mul_right ?_ hv
    calc 2 ^ (p + 1) * x * v = 2 ^ (p + 1) * n := by rw [hnx]; ring
      _ ≤ 2 ^ (p + 1) * (q * d) + n := hdown
      _ = (2 ^ (p + 1) * (q * c) + x) * v := by rw [hdc, hnx]; ring

end Rounding

/-! ## Numbers -/

/-- A number with `p` bits behind the leading one, in units of `2 ^ (-k)`. -/
structure Floating (p k : ℕ) where
  units : ℕ
  fits : Fits p units

namespace Floating

variable {p k : ℕ}

instance : Preorder (Floating p k) := Preorder.lift units

def ofNat (n : ℕ) : Floating p k := ⟨roundQuot p (n * 2 ^ k) 1, fits_roundQuot ..⟩

/-- The quotient by a number other than zero. -/
def div (a b : Floating p k) : Floating p k := ⟨roundQuot p (a.units * 2 ^ k) b.units, fits_roundQuot ..⟩

def mul (a b : Floating p k) : Floating p k := ⟨roundQuot p (a.units * b.units) (2 ^ k), fits_roundQuot ..⟩

/-- Towards zero. -/
def toNat (a : Floating p k) : ℕ := a.units / 2 ^ k

theorem ofNat_mono : Monotone (ofNat : ℕ → Floating p k) := fun _ _ h =>
  roundQuot_mono (Nat.mul_le_mul_right _ h) Nat.one_pos p

theorem div_mono {b : Floating p k} (hb : 0 < b.units) : Monotone fun a : Floating p k => a.div b := fun _ _ h =>
  roundQuot_mono (Nat.mul_le_mul_right _ h) hb p

theorem mul_mono (b : Floating p k) : Monotone fun a : Floating p k => a.mul b := fun _ _ h =>
  roundQuot_mono (Nat.mul_le_mul_right _ h) (by positivity) p

theorem toNat_mono : Monotone (toNat : Floating p k → ℕ) := fun _ _ h => Nat.div_le_div_right h

theorem units_ofNat {n : ℕ} (h : n ≤ 2 ^ (p + 1)) : (ofNat n : Floating p k).units = n * 2 ^ k := by
  have hfits : Fits p (n * 2 ^ k) := ⟨n, k, h, rfl⟩
  have hround := roundQuot_of_fits Nat.one_pos hfits
  rwa [Nat.mul_one] at hround

/-! ### There and back -/

section Scale

variable {b c s j : ℕ}

/-- `s * b`, divided by `b * c` and multiplied by `c`. -/
def scale (p k b c s : ℕ) : ℕ :=
  (((ofNat (s * b) : Floating p k).div (ofNat (b * c))).mul (ofNat c)).toNat

theorem scale_zero (hb : 0 < b) (hc : 0 < c) (hbc : b * c ≤ 2 ^ (p + 1)) : scale p k b c 0 = 0 := by
  have hzero : Fits p 0 := ⟨0, 0, Nat.zero_le _, by simp⟩
  have hround : ∀ {d : ℕ}, 0 < d → roundQuot p 0 d = 0 := fun {d} hd => by
    have := roundQuot_of_fits hd hzero
    rwa [Nat.zero_mul] at this
  have hunits : 0 < (ofNat (b * c) : Floating p k).units := by
    rw [units_ofNat hbc]
    positivity
  simp only [scale, toNat, mul, div, ofNat] at hunits ⊢
  rw [Nat.zero_mul, Nat.zero_mul, hround Nat.one_pos, Nat.zero_mul, hround hunits, Nat.zero_mul,
    hround (by positivity), Nat.zero_div]

/-- Each of the two roundings errs by one part in `2 ^ (p + 1)` at most. -/
theorem scale_bounds (hs : 0 < s) (hb : 0 < b) (hc : 0 < c) (hsb : s * b ≤ 2 ^ (p + 1)) (hbc : b * c ≤ 2 ^ (p + 1))
    (hj : c ≤ 2 ^ j) (hk : p + j ≤ k) :
    ∃ r, scale p k b c s = r / 2 ^ k ∧
      2 ^ (p + 1) * (2 ^ (p + 1) * r) ≤ (2 ^ (p + 1) + 1) * ((2 ^ (p + 1) + 1) * (s * 2 ^ k)) ∧
      (2 ^ (p + 1) - 1) * ((2 ^ (p + 1) - 1) * (s * 2 ^ k)) ≤ 2 ^ (p + 1) * (2 ^ (p + 1) * r) := by
  have hc' : c ≤ 2 ^ (p + 1) := (Nat.le_mul_of_pos_left c hb).trans hbc
  have hk : 2 ^ p * c ≤ 2 ^ k :=
    calc 2 ^ p * c ≤ 2 ^ p * 2 ^ j := Nat.mul_le_mul_left _ hj
      _ = 2 ^ (p + j) := (Nat.pow_add 2 p j).symm
      _ ≤ 2 ^ k := Nat.pow_le_pow_right (by decide) hk
  set q := roundQuot p (s * b * 2 ^ k * 2 ^ k) (b * c * 2 ^ k) with hq
  set r := roundQuot p (q * (c * 2 ^ k)) (2 ^ k) with hr
  have hscale : scale p k b c s = r / 2 ^ k := by
    simp only [scale, toNat, mul, div, units_ofNat hsb, units_ofNat hbc, units_ofNat hc', hr, hq]
  have hd : 0 < b * c * 2 ^ k := by positivity
  have hfull : 2 ^ p * (b * c * 2 ^ k) ≤ s * b * 2 ^ k * 2 ^ k := by
    calc 2 ^ p * (b * c * 2 ^ k) = 2 ^ p * c * (b * 2 ^ k) := by ring
      _ ≤ 2 ^ k * (b * 2 ^ k) := Nat.mul_le_mul_right _ hk
      _ ≤ s * (2 ^ k * (b * 2 ^ k)) := Nat.le_mul_of_pos_left _ hs
      _ = s * b * 2 ^ k * 2 ^ k := by ring
  have hqfull : 2 ^ p ≤ q := by
    have hfits : Fits p (2 ^ p) := ⟨2 ^ p, 0, by rw [Nat.pow_succ]; omega, by simp⟩
    have hmono := roundQuot_mono hfull hd p
    rwa [roundQuot_of_fits hd hfits, ← hq] at hmono
  have hrfull : 2 ^ p ≤ q * (c * 2 ^ k) / 2 ^ k := by
    rw [← Nat.mul_assoc, Nat.mul_div_cancel _ (by positivity)]
    exact hqfull.trans (Nat.le_mul_of_pos_right q hc)
  -- the quotient, then the product
  obtain ⟨hq₁, hq₂⟩ := roundQuot_near (x := s * 2 ^ k) (c := c) (v := b * 2 ^ k) (by ring) (by ring) hd
    ((Nat.le_div_iff_mul_le hd).mpr hfull)
  obtain ⟨hr₁, hr₂⟩ := roundQuot_near (x := q * c) (c := 1) (v := 2 ^ k) (by ring) (by ring) (by positivity) hrfull
  rw [← hq] at hq₁ hq₂
  rw [← hr, Nat.mul_one] at hr₁ hr₂
  generalize 2 ^ (p + 1) = P at *
  refine ⟨r, hscale, ?_, ?_⟩
  · calc P * (P * r) ≤ P * ((P + 1) * (q * c)) := Nat.mul_le_mul_left P hr₁
      _ = (P + 1) * (P * (q * c)) := by ring
      _ ≤ (P + 1) * ((P + 1) * (s * 2 ^ k)) := Nat.mul_le_mul_left _ hq₁
  · calc (P - 1) * ((P - 1) * (s * 2 ^ k)) ≤ (P - 1) * (P * (q * c)) := Nat.mul_le_mul_left _ hq₂
      _ = P * ((P - 1) * (q * c)) := by ring
      _ ≤ P * (P * r) := Nat.mul_le_mul_left P hr₂

theorem scale_le (hb : 0 < b) (hc : 0 < c) (hsb : s * b ≤ 2 ^ (p + 1)) (hbc : b * c ≤ 2 ^ (p + 1))
    (hj : c ≤ 2 ^ j) (hk : p + j ≤ k) (hs : 3 * s < 2 ^ (p + 1)) : scale p k b c s ≤ s := by
  rcases Nat.eq_zero_or_pos s with rfl | hpos
  · rw [scale_zero hb hc hbc]
  obtain ⟨r, hscale, hup, -⟩ := scale_bounds hpos hb hc hsb hbc hj hk
  rw [hscale, ← Nat.lt_succ_iff, Nat.div_lt_iff_lt_mul (by positivity)]
  generalize 2 ^ (p + 1) = P at *
  have hU : 0 < 2 ^ k := by positivity
  generalize 2 ^ k = U at *
  have hP : 0 < P := by omega
  have hsmall : (2 * P + 1) * s < P * P :=
    calc (2 * P + 1) * s ≤ 3 * P * s := Nat.mul_le_mul_right s (by omega)
      _ = P * (3 * s) := by ring
      _ < P * P := Nat.mul_lt_mul_of_pos_left hs hP
  refine Nat.lt_of_mul_lt_mul_left (a := P * P) ?_
  calc P * P * r = P * (P * r) := Nat.mul_assoc P P r
    _ ≤ (P + 1) * ((P + 1) * (s * U)) := hup
    _ = (P * P * s + (2 * P + 1) * s) * U := by ring
    _ < (P * P * s + P * P) * U := Nat.mul_lt_mul_of_pos_right (by omega) hU
    _ = P * P * ((s + 1) * U) := by ring

theorem le_scale (hb : 0 < b) (hc : 0 < c) (hsb : s * b ≤ 2 ^ (p + 1)) (hbc : b * c ≤ 2 ^ (p + 1))
    (hj : c ≤ 2 ^ j) (hk : p + j ≤ k) (hs : 3 * s < 2 ^ (p + 1)) : s ≤ scale p k b c s + 1 := by
  rcases Nat.eq_zero_or_pos s with rfl | hpos
  · exact Nat.zero_le _
  obtain ⟨r, hscale, -, hdown⟩ := scale_bounds hpos hb hc hsb hbc hj hk
  rw [hscale, ← Nat.sub_le_iff_le_add, Nat.le_div_iff_mul_le (by positivity)]
  generalize 2 ^ (p + 1) = P at *
  generalize 2 ^ k = U at *
  obtain ⟨P, rfl⟩ : ∃ P', P = P' + 1 := ⟨P - 1, by omega⟩
  obtain ⟨s, rfl⟩ : ∃ s', s = s' + 1 := ⟨s - 1, by omega⟩
  rw [Nat.add_sub_cancel] at *
  have hsmall : (2 * P + 1) * (s + 1) ≤ (P + 1) * (P + 1) :=
    calc (2 * P + 1) * (s + 1) ≤ 3 * (P + 1) * (s + 1) := Nat.mul_le_mul_right _ (by omega)
      _ = (P + 1) * (3 * (s + 1)) := by ring
      _ ≤ (P + 1) * (P + 1) := Nat.mul_le_mul_left _ hs.le
  refine Nat.le_of_mul_le_mul_left (c := (P + 1) * (P + 1)) ?_ (by positivity)
  have hsum : (P + 1) * (P + 1) * s + (P + 1) * (P + 1) = P * P * (s + 1) + (2 * P + 1) * (s + 1) := by ring
  calc (P + 1) * (P + 1) * (s * U) = (P + 1) * (P + 1) * s * U := by ring
    _ ≤ P * P * (s + 1) * U := Nat.mul_le_mul_right U (by omega)
    _ = P * (P * ((s + 1) * U)) := by ring
    _ ≤ (P + 1) * ((P + 1) * r) := hdown
    _ = (P + 1) * (P + 1) * r := (Nat.mul_assoc _ _ r).symm

end Scale

end Floating

end Lib
