/-
Little-endian packing of natural numbers into bytes.

`packLE w n` is the `w`-byte little-endian form of `n` (its residue modulo `256 ^ w`), and
`unpackLE` reads such a form back.  The two are inverse to each other on the numbers below
`256 ^ w` and the strings of `w` bytes.
-/
import Mathlib.Data.List.Basic
import Mathlib.Tactic

namespace SrtGateway.Bytes

/-- The `w`-byte little-endian form of `n`. -/
def packLE : ℕ → ℕ → List UInt8
  | 0, _ => []
  | w + 1, n => UInt8.ofNat n :: packLE w (n / 256)

/-- The number whose little-endian form is the given bytes. -/
def unpackLE : List UInt8 → ℕ
  | [] => 0
  | b :: bs => b.toNat + 256 * unpackLE bs

@[simp] lemma length_packLE (w n : ℕ) : (packLE w n).length = w := by
  induction w generalizing n with
  | zero => rfl
  | succ w ih => simp [packLE, ih]

lemma unpackLE_lt (bs : List UInt8) : unpackLE bs < 256 ^ bs.length := by
  induction bs with
  | nil => simp [unpackLE]
  | cons b bs ih =>
    have hb : b.toNat < 256 := b.toNat_lt
    simp only [unpackLE, List.length_cons, pow_succ]
    omega

/-- Packing keeps the number up to multiples of `256 ^ w`. -/
lemma unpackLE_packLE (w n : ℕ) : unpackLE (packLE w n) = n % 256 ^ w := by
  induction w generalizing n with
  | zero => simp [packLE, unpackLE, Nat.mod_one]
  | succ w ih =>
    have h0 : (UInt8.ofNat n).toNat = n % 256 := by simp
    rw [packLE, unpackLE, ih, h0, pow_succ', Nat.mod_mul]

/-- Packing what was unpacked gives the bytes back. -/
lemma packLE_unpackLE (bs : List UInt8) : packLE bs.length (unpackLE bs) = bs := by
  induction bs with
  | nil => rfl
  | cons b bs ih =>
    have hb : b.toNat < 256 := b.toNat_lt
    have hdiv : (b.toNat + 256 * unpackLE bs) / 256 = unpackLE bs := by omega
    have hhead : UInt8.ofNat (b.toNat + 256 * unpackLE bs) = b := by
      apply UInt8.toNat_inj.mp
      simp only [UInt8.toNat_ofNat']
      omega
    simp only [List.length_cons, unpackLE, packLE, hdiv, ih, hhead]

lemma unpackLE_inj {bs bs' : List UInt8} (hlen : bs.length = bs'.length)
    (h : unpackLE bs = unpackLE bs') : bs = bs' := by
  rw [← packLE_unpackLE bs, ← packLE_unpackLE bs', hlen, h]

/-- The digits of the number are the bytes. -/
lemma unpackLE_digit (bs : List UInt8) (i : ℕ) :
    unpackLE bs / 256 ^ i % 256 = (bs.getD i 0).toNat := by
  induction bs generalizing i with
  | nil => simp [unpackLE]
  | cons b bs ih =>
    have hb : b.toNat < 256 := b.toNat_lt
    cases i with
    | zero =>
      rw [unpackLE, pow_zero, Nat.div_one, List.getD_cons_zero]
      omega
    | succ i =>
      have hdiv : (b.toNat + 256 * unpackLE bs) / 256 = unpackLE bs := by omega
      rw [unpackLE, pow_succ', ← Nat.div_div_eq_div_mul, hdiv, ih, List.getD_cons_succ]

/-- The two-byte value written `lo | (hi << 8)`. -/
def le16 (lo hi : UInt8) : ℕ := lo.toNat ||| (hi.toNat <<< 8)

lemma le16_eq (lo hi : UInt8) : le16 lo hi = unpackLE [lo, hi] := by
  have hlo : lo.toNat < 2 ^ 8 := lo.toNat_lt
  rw [le16, Nat.or_comm, ← Nat.shiftLeft_add_eq_or_of_lt hlo, Nat.shiftLeft_eq]
  simp only [unpackLE]
  omega

/-- The two bytes of a two-byte value are its little-endian form. -/
lemma packLE_le16 (lo hi : UInt8) : packLE 2 (le16 lo hi) = [lo, hi] := by
  rw [le16_eq]
  exact packLE_unpackLE [lo, hi]

/-- Reading the two bytes of a packed number. -/
lemma le16_packLE {n : ℕ} (h : n < 256 ^ 2) :
    le16 ((packLE 2 n).getD 0 0) ((packLE 2 n).getD 1 0) = n := by
  have hbytes : [(packLE 2 n).getD 0 0, (packLE 2 n).getD 1 0] = packLE 2 n := by
    simp [packLE]
  rw [le16_eq, hbytes, unpackLE_packLE, Nat.mod_eq_of_lt h]

end SrtGateway.Bytes
