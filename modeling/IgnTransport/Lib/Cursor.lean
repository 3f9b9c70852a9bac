import Mathlib
import IgnTransport.Lib.Codec

/-!
# Lib.Cursor — bounded loads and stores through a moving cursor

A buffer is a byte list and a cursor an offset into it.  `load` and `store` fail outside the buffer.  `Reads f c`
says that the cursor reader `f` reads exactly what the codec `c` decodes at the cursor and moves past it, `Writes f
bytes` that the cursor writer `f` overwrites the bytes at the cursor by `bytes` and moves past them.  Both are closed
under running one step after the other, so a hand-written sequence of moves is verified field by field.
-/

namespace Lib

variable {α β ε : Type}

/-- The `n` bytes at offset `p`. -/
def load (mem : List UInt8) (p n : ℕ) : Option (List UInt8) :=
  if p + n ≤ mem.length then some ((mem.drop p).take n) else none

/-- Overwrite the bytes from offset `p` on by `src`. -/
def store (outside : ε) (mem : List UInt8) (p : ℕ) (src : List UInt8) : Except ε (List UInt8) :=
  if p + src.length ≤ mem.length then .ok (mem.take p ++ src ++ mem.drop (p + src.length)) else .error outside

theorem load_append (pre suf : List UInt8) (n : ℕ) :
    load (pre ++ suf) pre.length n = if n ≤ suf.length then some (suf.take n) else none := by
  simp [load]

theorem store_append (outside : ε) (pre rest src : List UInt8) (h : src.length ≤ rest.length) :
    store outside (pre ++ rest) pre.length src = .ok (pre ++ src ++ rest.drop src.length) := by
  simp [store, List.drop_append, h]

/-! ## Readers -/

section Reads

/-- `f` reads what `c` decodes at the cursor, and moves past it. -/
def Reads (f : List UInt8 → ℕ → Option (α × ℕ)) (c : Codec α) : Prop :=
  ∀ pre suf, f (pre ++ suf) pre.length =
    (c.decode suf).map fun r => (r.1, pre.length + (c.encode r.1).length)

/-- One reader after the other. -/
def readPair (f : List UInt8 → ℕ → Option (α × ℕ)) (g : List UInt8 → ℕ → Option (β × ℕ))
    (mem : List UInt8) (p : ℕ) : Option ((α × β) × ℕ) :=
  (f mem p).bind fun a => (g mem a.2).bind fun b => some ((a.1, b.1), b.2)

theorem Reads.pair {f : List UInt8 → ℕ → Option (α × ℕ)} {g : List UInt8 → ℕ → Option (β × ℕ)}
    {c : Codec α} {d : Codec β} (hf : Reads f c) (hg : Reads g d) : Reads (readPair f g) (c.pair d) := by
  intro pre suf
  unfold readPair
  rw [hf pre suf]
  cases h1 : c.decode suf with
  | none => simp [Codec.pair, h1]
  | some r =>
    obtain ⟨a, mid⟩ := r
    -- the second field starts where the first encoding ends
    have hcur := hg (pre ++ c.encode a) mid
    rw [List.append_assoc, ← c.eq_encode_append h1, List.length_append] at hcur
    simp only [Option.map_some, Option.bind_some, hcur]
    cases h2 : d.decode mid with
    | none => simp [Codec.pair, h1, h2]
    | some s => simp [Codec.pair, h1, h2, Nat.add_assoc]

theorem reads_le (w : ℕ) :
    Reads (fun mem p => (load mem p w).map fun b => (leNat b, p + w)) (.le w) := by
  intro pre suf
  simp only [load_append, Codec.le]
  split_ifs <;> simp

/-- A length-prefixed string: the length, a cursor move, the bytes, a cursor move. -/
def readPrefixed (w : ℕ) (mem : List UInt8) (p : ℕ) : Option (List UInt8 × ℕ) :=
  (load mem p w).bind fun b => (load mem (p + w) (leNat b)).map fun s => (s, p + w + leNat b)

theorem reads_prefixed (w : ℕ) : Reads (readPrefixed w) (.prefixed w) := by
  intro pre suf
  unfold readPrefixed
  rw [load_append]
  by_cases hw : w ≤ suf.length
  · have hsuf : suf = suf.take w ++ suf.drop w := (List.take_append_drop w suf).symm
    have hlen : (suf.take w).length = w := by simp [hw]
    have hcur : load (pre ++ suf) (pre.length + w) (leNat (suf.take w)) =
        if leNat (suf.take w) ≤ (suf.drop w).length then some ((suf.drop w).take (leNat (suf.take w)))
        else none := by
      have h := load_append (pre ++ suf.take w) (suf.drop w) (leNat (suf.take w))
      rwa [List.append_assoc, ← hsuf, List.length_append, hlen] at h
    simp only [if_pos hw, Option.bind_some, hcur, Codec.prefixed, Codec.le, Codec.raw]
    split_ifs with hs
    · simp only [Option.map_some, List.length_append, length_leBytes, List.length_take]
      rw [Nat.min_eq_left hs, Nat.add_assoc]
    · simp
  · simp [if_neg hw, Codec.prefixed, Codec.le]

end Reads

/-! ## Writers -/

section Writes

/-- `f` overwrites the bytes at the cursor by `bytes`, if they fit, and moves past them. -/
def Writes (f : List UInt8 → ℕ → Except ε (List UInt8 × ℕ)) (bytes : List UInt8) : Prop :=
  ∀ pre rest, bytes.length ≤ rest.length →
    f (pre ++ rest) pre.length = .ok (pre ++ bytes ++ rest.drop bytes.length, pre.length + bytes.length)

/-- One writer after the other. -/
def writeThen (f g : List UInt8 → ℕ → Except ε (List UInt8 × ℕ)) (mem : List UInt8) (p : ℕ) :
    Except ε (List UInt8 × ℕ) :=
  (f mem p).bind fun r => g r.1 r.2

theorem Writes.andThen {f g : List UInt8 → ℕ → Except ε (List UInt8 × ℕ)} {bs cs : List UInt8}
    (hf : Writes f bs) (hg : Writes g cs) : Writes (writeThen f g) (bs ++ cs) := by
  intro pre rest hlen
  rw [List.length_append] at hlen
  have h1 := hf pre rest (by omega)
  have h2 := hg (pre ++ bs) (rest.drop bs.length) (by rw [List.length_drop]; omega)
  rw [List.length_append] at h2
  rw [writeThen, h1]
  simp only [Except.bind]
  rw [h2]
  simp [Nat.add_assoc]

theorem writes_store (outside : ε) (src : List UInt8) :
    Writes (fun mem p => (store outside mem p src).map fun m => (m, p + src.length)) src := by
  intro pre rest hlen
  change (store outside (pre ++ rest) pre.length src).map _ = _
  rw [store_append outside _ _ _ hlen]
  rfl

/-- A writer that takes over where `done` was written. -/
theorem Writes.after {f : List UInt8 → ℕ → Except ε (List UInt8 × ℕ)} {bytes done rest : List UInt8}
    (hf : Writes f bytes) (pre : List UInt8) (hroom : (done ++ bytes).length ≤ rest.length) :
    f (pre ++ done ++ rest.drop done.length) (pre.length + done.length) =
      .ok (pre ++ (done ++ bytes) ++ rest.drop (done ++ bytes).length, pre.length + (done ++ bytes).length) := by
  rw [List.length_append] at hroom
  have h := hf (pre ++ done) (rest.drop done.length) (by rw [List.length_drop]; omega)
  rw [List.length_append] at h
  rw [h]
  simp only [List.append_assoc, List.drop_drop, List.length_append, Nat.add_assoc]

/-- A plain store that takes over where `done` was written. -/
theorem store_after (outside : ε) (pre : List UInt8) {src done rest : List UInt8}
    (hroom : (done ++ src).length ≤ rest.length) :
    store outside (pre ++ done ++ rest.drop done.length) (pre.length + done.length) src =
      .ok (pre ++ (done ++ src) ++ rest.drop (done ++ src).length) := by
  rw [List.length_append] at hroom
  have h := store_append outside (pre ++ done) (rest.drop done.length) src
    (by rw [List.length_drop]; omega)
  rw [List.length_append] at h
  rw [h]
  simp only [List.append_assoc, List.drop_drop, List.length_append]

theorem ok_bind (a : α) (f : α → Except ε β) : ((Except.ok a : Except ε α) >>= f) = f a := rfl

theorem error_bind (e : ε) (f : α → Except ε β) : ((Except.error e : Except ε α) >>= f) = .error e := rfl

theorem except_bind_eq_ok {x : Except ε α} {f : α → Except ε β} {b : β} :
    (x >>= f) = .ok b ↔ ∃ a, x = .ok a ∧ f a = .ok b := by
  cases x with
  | error e => simp [error_bind]
  | ok a => simp [ok_bind]

end Writes

/-! ## Writing back what was read -/

section Overlay

/-- `mem` with the first `q` bytes of `bytes` over it, from offset `p` on. -/
def overlay (mem : List UInt8) (p : ℕ) (bytes : List UInt8) (q : ℕ) : List UInt8 :=
  mem.take p ++ bytes.take q ++ mem.drop (p + q)

theorem length_overlay {mem bytes : List UInt8} {p q : ℕ} (hq : q ≤ bytes.length) (hroom : p + q ≤ mem.length) :
    (overlay mem p bytes q).length = mem.length := by
  simp only [overlay, List.length_append, List.length_take, List.length_drop]
  omega

/-- **A writer that writes what `bytes` holds at `i`**, over a copy of a prefix of `bytes` that reaches to `i`, makes
the prefix reach to the end of what it writes, or changes nothing. -/
theorem Writes.overlay {g : List UInt8 → ℕ → Except ε (List UInt8 × ℕ)} {seg mem bytes rest : List UInt8} {p q i : ℕ}
    (hg : Writes g seg) (hi : i ≤ q) (hq : q ≤ bytes.length) (hroom : p + q ≤ mem.length)
    (hseg : bytes.drop i = seg ++ rest) (hfit : p + (i + seg.length) ≤ mem.length) :
    g (overlay mem p bytes q) (p + i) =
      .ok (overlay mem p bytes (max q (i + seg.length)), p + (i + seg.length)) := by
  have hlen := length_overlay hq hroom
  have hpre : ((Lib.overlay mem p bytes q).take (p + i)).length = p + i := by
    rw [List.length_take, hlen]
    omega
  have hwrite := hg ((Lib.overlay mem p bytes q).take (p + i)) ((Lib.overlay mem p bytes q).drop (p + i))
    (by rw [List.length_drop, hlen]; omega)
  rw [List.take_append_drop, hpre, List.drop_drop] at hwrite
  rw [hwrite, ← Nat.add_assoc]
  refine congrArg Except.ok (Prod.ext (List.ext_getElem? fun k => ?_) rfl)
  have hbytes : ∀ n < seg.length, bytes[i + n]? = seg[n]? := by
    intro n hn
    rw [← List.getElem?_drop, hseg, List.getElem?_append_left hn]
  have hin : i + seg.length ≤ bytes.length := by
    have hdrop := congrArg List.length hseg
    rw [List.length_drop, List.length_append] at hdrop
    omega
  simp only [Lib.overlay, List.getElem?_append, List.getElem?_take, List.getElem?_drop, List.length_append,
    List.length_take, List.length_drop]
  grind

end Overlay

/-! ## Results of two writers -/

section Alike

/-- Both fail, or both return and the results are related. -/
def Alike (R : α → α → Prop) : Except ε α → Except ε α → Prop
  | .ok a, .ok b => R a b
  | .error _, .error _ => True
  | _, _ => False

/-- Buffers of one length. -/
def SameLength (mem mem' : List UInt8) : Prop := mem.length = mem'.length

variable {R : α → α → Prop} {Q : β → β → Prop}

theorem alike_ok {a b : α} (h : R a b) : Alike R (.ok a : Except ε α) (.ok b) := h

theorem Alike.bind {r r' : Except ε α} {f f' : α → Except ε β} (h : Alike R r r')
    (hf : ∀ a b, R a b → Alike Q (f a) (f' b)) : Alike Q (r >>= f) (r' >>= f') := by
  cases r with
  | error e =>
    cases r' with
    | error e' => exact trivial
    | ok b => exact h.elim
  | ok a =>
    cases r' with
    | error e' => exact h.elim
    | ok b => exact hf a b h

/-- Whether a store is inside the buffer does not depend on the bytes. -/
theorem alike_store (outside : ε) {mem mem' src src' : List UInt8} (hmem : SameLength mem mem')
    (hsrc : src.length = src'.length) (p : ℕ) :
    Alike SameLength (store outside mem p src) (store outside mem' p src') := by
  have hlen : mem.length = mem'.length := hmem
  unfold store
  rw [hlen, hsrc]
  split_ifs
  · refine alike_ok ?_
    simp only [SameLength, List.length_append, List.length_take, List.length_drop, hlen, hsrc]
  · exact trivial

theorem Alike.isSome {r r' : Except ε α} (h : Alike R r r') : r.toOption.isSome = r'.toOption.isSome := by
  cases r with
  | error e =>
    cases r' with
    | error e' => rfl
    | ok b => exact h.elim
  | ok a =>
    cases r' with
    | error e' => exact h.elim
    | ok b => rfl

end Alike

/-! ## Results without the bytes -/

section Yields

/-- Up to the bytes of the buffer, whose length stays `n`, the result is `o`. -/
def Yields (n : ℕ) (r : Except ε (List UInt8 × α)) (o : Except ε α) : Prop :=
  match o with
  | .ok a => ∃ mem, r = .ok (mem, a) ∧ mem.length = n
  | .error e => r = .error e

variable {n : ℕ} {r : Except ε (List UInt8 × α)} {o : Except ε α}

theorem yields_ok {mem : List UInt8} {a : α} (h : mem.length = n) :
    Yields n (.ok (mem, a) : Except ε (List UInt8 × α)) (.ok a) := ⟨mem, rfl, h⟩

theorem Yields.bind {f : List UInt8 × α → Except ε (List UInt8 × β)} {g : α → Except ε β} (h : Yields n r o)
    (hf : ∀ mem a, o = .ok a → mem.length = n → Yields n (f (mem, a)) (g a)) : Yields n (r >>= f) (o >>= g) := by
  cases o with
  | ok a =>
    obtain ⟨mem, rfl, hmem⟩ := h
    exact hf mem a rfl hmem
  | error e =>
    obtain rfl : r = .error e := h
    rfl

theorem Yields.ite {c : Prop} [Decidable c] {r' : Except ε (List UInt8 × α)} {o' : Except ε α}
    (h : c → Yields n r o) (h' : ¬ c → Yields n r' o') : Yields n (if c then r else r') (if c then o else o') := by
  by_cases hc : c
  · rw [if_pos hc, if_pos hc]
    exact h hc
  · rw [if_neg hc, if_neg hc]
    exact h' hc

/-- What does not depend on the bytes can be read off. -/
theorem Yields.exists_iff {P : α → Prop} (h : Yields n r o) :
    (∃ mem a, r = .ok (mem, a) ∧ P a) ↔ ∃ a, o = .ok a ∧ P a := by
  cases o with
  | ok a =>
    obtain ⟨mem, rfl, -⟩ := h
    simp
  | error e =>
    obtain rfl : r = .error e := h
    simp

/-- `f` moves past `k` bytes, whatever they are, if they are in the buffer, and fails if they are not. -/
def Takes (outside : ε) (f : List UInt8 → ℕ → Except ε (List UInt8 × ℕ)) (k : ℕ) : Prop :=
  ∀ mem p, Yields mem.length (f mem p) (if p + k ≤ mem.length then .ok (p + k) else .error outside)

variable {outside : ε} {f g : List UInt8 → ℕ → Except ε (List UInt8 × ℕ)} {j k : ℕ}

theorem Takes.ok (h : Takes outside f k) (mem : List UInt8) (p : ℕ) (hroom : p + k ≤ mem.length) :
    ∃ mem', f mem p = .ok (mem', p + k) ∧ mem'.length = mem.length := by
  have hyields := h mem p
  rw [if_pos hroom] at hyields
  exact hyields

theorem Takes.error (h : Takes outside f k) (mem : List UInt8) (p : ℕ) (hroom : mem.length < p + k) :
    f mem p = .error outside := by
  have hyields := h mem p
  rw [if_neg (Nat.not_le.mpr hroom)] at hyields
  exact hyields

theorem exists_store (outside : ε) (mem : List UInt8) (p : ℕ) (src : List UInt8) (hroom : p + src.length ≤ mem.length) :
    ∃ mem', store outside mem p src = .ok mem' ∧ mem'.length = mem.length := by
  refine ⟨_, if_pos hroom, ?_⟩
  simp only [List.length_append, List.length_take, List.length_drop]
  omega

theorem takes_store (outside : ε) (src : List UInt8) :
    Takes outside (fun mem p => (store outside mem p src).map fun m => (m, p + src.length)) src.length := by
  intro mem p
  dsimp only
  split_ifs with hroom
  · obtain ⟨mem', hstore, hlen⟩ := exists_store outside mem p src hroom
    rw [hstore]
    exact yields_ok hlen
  · rw [store, if_neg hroom]
    rfl

theorem Takes.andThen (hf : Takes outside f j) (hg : Takes outside g k) :
    Takes outside (writeThen f g) (j + k) := by
  intro mem p
  unfold writeThen
  by_cases hj : p + j ≤ mem.length
  · obtain ⟨mem', hmem, hlen⟩ := hf.ok mem p hj
    have hyields := hg mem' (p + j)
    rw [hlen, Nat.add_assoc] at hyields
    rw [hmem]
    exact hyields
  · rw [hf.error mem p (Nat.not_le.mp hj), if_neg (by omega)]
    rfl

end Yields

end Lib
