/-
The CRC of a frame as the remainder of a division.

The CRC is the remainder, modulo the generator over GF(2), of the bits of the data with 16 zero
bits behind them and the first 16 bits complemented: the preset 0xFFFF of the register is the
same as complementing these (`crc16_remainder`).  The preset does not depend on the data, so
the difference of two CRCs is a function of the difference of the data.
-/
import SrtGateway.Protocol.Crc

namespace SrtGateway.Protocol

open Polynomial SrtGateway.Gf2

/-! ### The remainder -/

/-- The generator of the CRC. -/
lemma generator_eq : generator 15 0x1021 = X ^ 16 + X ^ 12 + X ^ 5 + 1 := by
  have hbits : bits 16 0x1021 = [false, false, false, true, false, false, false, false, false,
      false, true, false, false, false, false, true] := by decide
  rw [generator, valueOf, hbits]
  simp [value]
  ring

/-- The bits that are divided. -/
def dividend (data : List UInt8) : List Bool :=
  complementFirst 16 (bitsOf data ++ List.replicate 16 false)

/-- The bits that are divided have the value of the register that has absorbed the data. -/
lemma value_dividend {A : Type*} [CommRing A] [Algebra (ZMod 2) A] (x : A) (data : List UInt8) :
    value x (dividend data) =
      x ^ (8 * data.length) * valueOf x 16 0xFFFF + x ^ 16 * value x (bitsOf data) := by
  have hlen : (bitsOf data ++ List.replicate 16 false).length = 8 * data.length + 16 := by
    rw [List.length_append, length_bitsOf, List.length_replicate]
  have hpreset : bits 16 0xFFFF = List.replicate 16 true := by decide
  rw [dividend, value_complementFirst x (by omega), hlen, Nat.add_sub_cancel, value_append,
    value_replicate_false, List.length_replicate, valueOf, hpreset]
  ring

lemma crc16_lt_two_pow (data : List UInt8) (start stop : ℕ) :
    crc16CcittFalse data start stop < 2 ^ 16 := by
  refine (crc16_lt data start stop).trans_eq ?_
  norm_num

lemma crc16_modByMonic {data : List UInt8} (start : ℕ) {stop : ℕ} (h : stop ≤ data.length) :
    value X (dividend (slice data start stop)) %ₘ (X ^ 16 + X ^ 12 + X ^ 5 + 1 : (ZMod 2)[X]) =
      valueOf X 16 (crc16CcittFalse data start stop) := by
  rw [← generator_eq]
  refine modByMonic_generator ?_
  rw [mk_value, value_dividend, ← valueOf_crc16 crcRoot_isRoot start h]

/-! ### The difference of two CRCs -/

/-- The exclusive or of two byte strings. -/
def xorBytes (s s' : List UInt8) : List UInt8 := List.zipWith (· ^^^ ·) s s'

lemma bitsOf_xorBytes {s s' : List UInt8} (h : s.length = s'.length) :
    bitsOf (xorBytes s s') = xorBits (bitsOf s) (bitsOf s') := by
  induction s generalizing s' with
  | nil => rfl
  | cons b s ih =>
    obtain ⟨c, s', rfl⟩ : ∃ c t, s' = c :: t := List.exists_cons_of_length_eq_add_one h.symm
    have hlen : s.length = s'.length := Nat.succ.inj h
    rw [xorBytes, List.zipWith_cons_cons, ← xorBytes, bitsOf_cons, bitsOf_cons, bitsOf_cons,
      ih hlen, UInt8.toNat_xor, bits_xor, xorBits_append (by simp)]

/-- The bytes of zeros have no bits. -/
lemma value_bitsOf_zeros {A : Type*} [CommRing A] (x : A) (n : ℕ) :
    value x (bitsOf (List.replicate n 0)) = 0 := by
  have hzeros : bitsOf (List.replicate n 0) = List.replicate (8 * n) false := by
    induction n with
    | zero => rfl
    | succ n ih =>
      rw [List.replicate_succ, bitsOf_cons, ih, UInt8.toNat_zero, bits_zero,
        List.replicate_append_replicate]
      congr 1
      ring
  rw [hzeros, value_replicate_false]

/-- The preset cancels in the exclusive or of two CRCs of equally long slices. -/
lemma valueOf_crc16_xor {data data' : List UInt8} {start stop start' stop' : ℕ}
    (h : stop ≤ data.length) (h' : stop' ≤ data'.length)
    (hlen : (slice data start stop).length = (slice data' start' stop').length) :
    valueOf crcRoot 16 (crc16CcittFalse data start stop ^^^ crc16CcittFalse data' start' stop') =
      crcRoot ^ 16 * value crcRoot (bitsOf (slice data start stop)) +
        crcRoot ^ 16 * value crcRoot (bitsOf (slice data' start' stop')) := by
  have hpreset := add_self
    (crcRoot ^ (8 * (slice data start stop).length) * valueOf crcRoot 16 0xFFFF)
  rw [valueOf_xor, valueOf_crc16 crcRoot_isRoot start h, valueOf_crc16 crcRoot_isRoot start' h',
    ← hlen]
  linear_combination hpreset

/-- What a change `e` of the data changes of the CRC. -/
def crcDifference (e : List UInt8) : ℕ :=
  crc16CcittFalse e 0 e.length ^^^ crc16CcittFalse (List.replicate e.length 0) 0 e.length

lemma valueOf_crcDifference (e : List UInt8) :
    valueOf crcRoot 16 (crcDifference e) = crcRoot ^ 16 * value crcRoot (bitsOf e) := by
  have hzeros : slice (List.replicate e.length 0) 0 e.length = List.replicate e.length 0 := by
    simp [slice]
  rw [crcDifference, valueOf_crc16_xor le_rfl (by simp) (by simp [slice]), slice_whole, hzeros,
    value_bitsOf_zeros, mul_zero, add_zero]

/-- **The CRC is affine.** -/
lemma crc16_xor {data data' : List UInt8} {start stop start' stop' : ℕ}
    (h : stop ≤ data.length) (h' : stop' ≤ data'.length)
    (hlen : (slice data start stop).length = (slice data' start' stop').length) :
    crc16CcittFalse data start stop ^^^ crc16CcittFalse data' start' stop' =
      crcDifference (xorBytes (slice data start stop) (slice data' start' stop')) := by
  have hbits : (bitsOf (slice data start stop)).length =
      (bitsOf (slice data' start' stop')).length := by
    rw [length_bitsOf, length_bitsOf, hlen]
  have hvalue : valueOf crcRoot 16
        (crc16CcittFalse data start stop ^^^ crc16CcittFalse data' start' stop') =
      valueOf crcRoot 16
        (crcDifference (xorBytes (slice data start stop) (slice data' start' stop'))) := by
    rw [valueOf_crc16_xor h h' hlen, valueOf_crcDifference, bitsOf_xorBytes hlen,
      value_xor crcRoot hbits, mul_add]
  exact valueOf_root_inj (Nat.xor_lt_two_pow (crc16_lt_two_pow ..) (crc16_lt_two_pow ..))
    (Nat.xor_lt_two_pow (crc16_lt_two_pow ..) (crc16_lt_two_pow ..)) hvalue

/-! ### The loop is polynomial division -/

/-- **The CRC is a remainder** modulo the generator: bit `i` of the CRC is the coefficient at
`X ^ i`.  And the exclusive or of the CRCs of two equally long slices depends only on the
exclusive or of the slices. -/
theorem crc16_remainder :
    (∀ (data : List UInt8) (start stop : ℕ), stop ≤ data.length → ∀ i,
      (value X (dividend (slice data start stop)) %ₘ
          (X ^ 16 + X ^ 12 + X ^ 5 + 1 : (ZMod 2)[X])).coeff i =
        if (crc16CcittFalse data start stop).testBit i then 1 else 0) ∧
    ∃ difference : List UInt8 → ℕ,
      ∀ (data data' : List UInt8) (start stop start' stop' : ℕ),
        stop ≤ data.length → stop' ≤ data'.length →
        (slice data start stop).length = (slice data' start' stop').length →
          crc16CcittFalse data start stop ^^^ crc16CcittFalse data' start' stop' =
            difference (xorBytes (slice data start stop) (slice data' start' stop')) := by
  refine ⟨fun data start stop h i => ?_, crcDifference, fun _ _ _ _ _ _ => crc16_xor⟩
  rw [crc16_modByMonic start h, coeff_valueOf_of_lt (crc16_lt_two_pow data start stop)]

/-- The theorem at the check vector, as a slice: the remainder has the coefficients of 0x29B1.
And two pairs of slices with the same exclusive or. -/
theorem crc16_remainder_check :
    (∀ i, (value X (dividend [0x31, 0x32, 0x33, 0x34, 0x35, 0x36, 0x37, 0x38, 0x39]) %ₘ
        (X ^ 16 + X ^ 12 + X ^ 5 + 1 : (ZMod 2)[X])).coeff i =
      if (0x29B1).testBit i then 1 else 0) ∧
    crc16CcittFalse [0x01, 0x02] 0 2 ^^^ crc16CcittFalse [0x03, 0x04] 0 2 =
      crc16CcittFalse [0xA5, 0x05, 0x07] 1 3 ^^^ crc16CcittFalse [0x07, 0x01] 0 2 := by
  obtain ⟨hremainder, difference, hdifference⟩ := crc16_remainder
  have hcheck := hremainder
    [0, 0, 0x31, 0x32, 0x33, 0x34, 0x35, 0x36, 0x37, 0x38, 0x39, 0] 2 11 (by decide)
  have hcrc : crc16CcittFalse [0, 0, 0x31, 0x32, 0x33, 0x34, 0x35, 0x36, 0x37, 0x38, 0x39, 0]
      2 11 = 0x29B1 := by decide +kernel
  rw [hcrc] at hcheck
  refine ⟨hcheck, ?_⟩
  rw [hdifference [0x01, 0x02] [0x03, 0x04] 0 2 0 2 (by decide) (by decide) rfl,
    hdifference [0xA5, 0x05, 0x07] [0x07, 0x01] 1 3 0 2 (by decide) (by decide) rfl]
  rfl

end SrtGateway.Protocol
