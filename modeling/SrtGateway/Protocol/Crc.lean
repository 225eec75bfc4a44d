/-
The CRC of a frame as polynomial arithmetic over GF(2).

The loop of `crc16_ccitt_false` is a shift register with the feedback 0x1021, so at every root
of the generator `X ^ 16 + X ^ 12 + X ^ 5 + 1` a CRC has the value of the bits it was computed
from (`valueOf_crc16`).
-/
import SrtGateway.Gf2.Register
import SrtGateway.Protocol.Deframer

namespace SrtGateway.Protocol

open SrtGateway.Bytes SrtGateway.Gf2

/-- The bits of some bytes, the most significant bit of each byte first. -/
def bitsOf (data : List UInt8) : List Bool := data.flatMap fun b => bits 8 b.toNat

@[simp] lemma length_bitsOf (data : List UInt8) : (bitsOf data).length = 8 * data.length := by
  induction data with
  | nil => rfl
  | cons b data ih =>
    rw [bitsOf, List.flatMap_cons, ← bitsOf, List.length_append, ih, length_bits, List.length_cons]
    ring

lemma bitsOf_cons (b : UInt8) (data : List UInt8) :
    bitsOf (b :: data) = bits 8 b.toNat ++ bitsOf data :=
  List.flatMap_cons

lemma bitsOf_append (data data' : List UInt8) :
    bitsOf (data ++ data') = bitsOf data ++ bitsOf data' :=
  List.flatMap_append

/-! ### The loop is a shift register -/

lemma crcShift_eq (crc : ℕ) : crcShift crc = shift 15 0x1021 crc := by
  have htop : crc &&& 0x8000 ≠ 0 ↔ crc.testBit 15 = true := by
    rw [show 0x8000 = 2 ^ 15 by norm_num, Nat.and_two_pow]
    cases crc.testBit 15 <;> simp
  have hmask : ∀ n, n &&& 0xFFFF = n % 2 ^ 16 := fun n => Nat.and_two_pow_sub_one_eq_mod n 16
  simp only [crcShift, shift, htop, hmask]
  split <;> rfl

lemma crcByte_eq (crc : ℕ) (b : UInt8) : crcByte crc b = absorb 15 0x1021 8 crc b.toNat := by
  have hshift : crcShift = shift 15 0x1021 := funext crcShift_eq
  rw [crcByte, hshift]
  rfl

/-- The CRC of a slice runs over its bytes. -/
lemma crc16_eq_foldl {data : List UInt8} {start stop : ℕ} (h : stop ≤ data.length) :
    crc16CcittFalse data start stop = (slice data start stop).foldl crcByte 0xFFFF &&& 0xFFFF := by
  have hbytes : (List.range' start (stop - start)).map (byteAt data) = slice data start stop := by
    refine List.ext_getElem (by simp [slice]; omega) fun i hi hi' => ?_
    have hlt : start + i < data.length := by
      simp only [List.length_map, List.length_range'] at hi
      omega
    simp [slice, byteAt, List.getD_eq_getElem?_getD, hlt]
  rw [crc16CcittFalse, ← hbytes, List.foldl_map]

section Point

variable {A : Type*} [CommRing A] [Algebra (ZMod 2) A] {x : A}

/-- **The value of a CRC.** -/
lemma valueOf_crc16 (hx : IsRoot x 15 0x1021) (start : ℕ) {stop : ℕ} {data : List UInt8}
    (h : stop ≤ data.length) :
    valueOf x 16 (crc16CcittFalse data start stop) =
      x ^ (8 * (slice data start stop).length) * valueOf x 16 0xFFFF +
        x ^ 16 * value x (bitsOf (slice data start stop)) := by
  have hmask : ∀ n, valueOf x 16 (n &&& 0xFFFF) = valueOf x 16 n := by
    intro n
    rw [show n &&& 0xFFFF = n % 2 ^ 16 from Nat.and_two_pow_sub_one_eq_mod n 16, valueOf, bits_mod]
  have hfold : ∀ l : List UInt8, l.foldl crcByte 0xFFFF =
      (l.map UInt8.toNat).foldl (absorb 15 0x1021 8) 0xFFFF := by
    intro l
    rw [List.foldl_map]
    exact congrArg (fun step => l.foldl step 0xFFFF) (funext₂ crcByte_eq)
  have hbits : ∀ l : List UInt8, (l.map UInt8.toNat).flatMap (bits 8) = bitsOf l :=
    fun l => List.flatMap_map ..
  rw [crc16_eq_foldl h, hmask, hfold, valueOf_absorbAll hx (by norm_num), hbits, length_bitsOf]

end Point

/-! ### The root -/

/-- The root of the generator in its ring of residues. -/
noncomputable abbrev crcRoot : Residue 15 0x1021 := root 15 0x1021

lemma crcRoot_isRoot : IsRoot crcRoot 15 0x1021 := root_isRoot 15 0x1021

/-- The other point of use is 1: the generator has an even number of terms. -/
lemma one_isRoot : IsRoot (1 : ZMod 2) 15 0x1021 := by
  rw [IsRoot, valueOf, value_one, one_pow]
  decide

/-- **The order of the root** exceeds the number of bits of the longest frame. -/
lemma orderOf_crcRoot : orderOf crcRoot = 32767 := by
  have hpow : ∀ k, ofBits (bits 15 k) = k →
      (crcRoot ^ k = 1 ↔ rootPow 15 0x1021 (bits 15 k) = 1) := by
    intro k hk
    have hiff := root_pow_eq_one_iff 15 0x1021 (bits 15 k)
    rwa [hk] at hiff
  refine orderOf_eq_of_pow_and_pow_div_prime (by norm_num) ?_ ?_
  · exact (hpow 32767 (by decide +kernel)).mpr (by decide +kernel)
  · intro p hp hdvd
    rw [show 32767 = 7 * 31 * 151 by norm_num, hp.dvd_mul, hp.dvd_mul,
      Nat.prime_dvd_prime_iff_eq hp (by norm_num), Nat.prime_dvd_prime_iff_eq hp (by norm_num),
      Nat.prime_dvd_prime_iff_eq hp (by norm_num)] at hdvd
    rcases hdvd with (rfl | rfl) | rfl
    · exact (hpow 4681 (by decide +kernel)).not.mpr (by decide +kernel)
    · exact (hpow 1057 (by decide +kernel)).not.mpr (by decide +kernel)
    · exact (hpow 217 (by decide +kernel)).not.mpr (by decide +kernel)

lemma crcRoot_isUnit : IsUnit crcRoot := by
  have hpos : orderOf crcRoot ≠ 0 := orderOf_crcRoot.trans_ne (by norm_num)
  exact IsUnit.of_pow_eq_one (pow_orderOf_eq_one crcRoot) hpos

/-! ### Valid frames -/

/-- The bits that the CRC covers, and after them the CRC, the most significant bit first.  On
the wire the two bytes of the CRC stand the other way round. -/
def codeword (l : List UInt8) : List Bool :=
  bitsOf (slice l 1 (4 + lenField l 0)) ++ bits 16 (crcField l)

lemma crcField_lt (l : List UInt8) : crcField l < 2 ^ 16 := by
  rw [crcField, le16_eq]
  refine (unpackLE_lt _).trans_eq ?_
  norm_num

section Valid

variable {l l' : List UInt8} (hl : lenField l 0 + SERIAL_OVERHEAD ≤ l.length)
  (hl' : lenField l' 0 + SERIAL_OVERHEAD ≤ l'.length) (hlen : lenField l' 0 = lenField l 0)

include hl in
lemma length_covered : (slice l 1 (4 + lenField l 0)).length = lenField l 0 + 3 := by
  simp only [SERIAL_OVERHEAD] at hl
  rw [slice, List.length_take, List.length_drop]
  omega

include hl in
lemma length_codeword : (codeword l).length = 8 * (lenField l 0 + 3) + 16 := by
  rw [codeword, List.length_append, length_bitsOf, length_covered hl, length_bits]

include hl in
/-- The two sides of the check of the CRC, as values. -/
lemma value_codeword {A : Type*} [CommRing A] [Algebra (ZMod 2) A] {x : A}
    (hx : IsRoot x 15 0x1021) :
    value x (codeword l) + valueOf x 16 (crcField l) + valueOf x 16 (crcCalc l) =
      x ^ (8 * (lenField l 0 + 3)) * valueOf x 16 0xFFFF := by
  have hstop : 4 + lenField l 0 ≤ l.length := by
    simp only [SERIAL_OVERHEAD] at hl
    omega
  have hcalc := valueOf_crc16 hx 1 hstop
  rw [length_covered hl, ← crcCalc] at hcalc
  have hself := add_self (x ^ 16 * value x (bitsOf (slice l 1 (4 + lenField l 0))))
  have hself' := add_self (valueOf x 16 (crcField l))
  rw [codeword, value_append, length_bits, hcalc]
  linear_combination hself + hself'

include hl hl' hlen in
/-- Two valid frames of the same length differ by a multiple of the generator. -/
lemma value_xor_of_valid {A : Type*} [CommRing A] [Algebra (ZMod 2) A] {x : A}
    (hx : IsRoot x 15 0x1021) (h : crcCalc l = crcField l) (h' : crcCalc l' = crcField l') :
    value x (xorBits (codeword l) (codeword l')) = 0 := by
  have hcode := value_codeword hl hx
  have hcode' := value_codeword hl' hx
  rw [h, add_assoc, add_self, add_zero] at hcode
  rw [h', add_assoc, add_self, add_zero, hlen, ← hcode] at hcode'
  rw [value_xor x (by rw [length_codeword hl, length_codeword hl', hlen]), hcode', add_self]

include hl hl' hlen in
/-- **The check of a changed frame.** -/
lemma valid_iff (h : crcCalc l = crcField l) :
    crcCalc l' = crcField l' ↔ value crcRoot (xorBits (codeword l) (codeword l')) = 0 := by
  refine ⟨value_xor_of_valid hl hl' hlen crcRoot_isRoot h, fun hzero => ?_⟩
  have hcode := value_codeword hl crcRoot_isRoot
  have hcode' := value_codeword hl' crcRoot_isRoot
  rw [h, add_assoc, add_self, add_zero] at hcode
  rw [value_xor crcRoot (by rw [length_codeword hl, length_codeword hl', hlen])] at hzero
  rw [hlen, ← hcode, eq_of_add_eq_zero hzero, add_assoc, add_eq_left] at hcode'
  rw [add_comm] at hcode'
  exact valueOf_root_inj (crc16_lt _ _ _) (crcField_lt l') (eq_of_add_eq_zero hcode')

end Valid

end SrtGateway.Protocol
