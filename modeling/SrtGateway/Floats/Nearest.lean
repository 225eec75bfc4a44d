/-
Rounding to the nearest number with a significand of `p` bits.

Exponents have no bounds here.  A rounding is off by at most the part `2 ^ p` of the number
(`abs_nearest_sub_le`), and an integer of fewer than `p` bits is not rounded at all
(`nearest_intCast`).  So an integer with three bits to spare that is divided by a number and
multiplied with it again, each time with a rounding, is the integer nearest to what comes out
(`roundEven_nearest_mul`).
-/
import Mathlib.Algebra.Order.Round
import Mathlib.Data.Int.Log
import Mathlib.Data.Rat.Floor
import Mathlib.Tactic.Linarith
import Mathlib.Tactic.Ring

namespace SrtGateway.Floats

variable {K : Type*} [Field K] [LinearOrder K] [IsStrictOrderedRing K] [FloorRing K]

/-! ### The nearest integer -/

/-- The nearest integer, the even one of two. -/
def roundEven (x : K) : ℤ := if Int.fract x = 1 / 2 ∧ Even ⌊x⌋ then ⌊x⌋ else round x

lemma abs_roundEven_sub_le (x : K) : |roundEven x - x| ≤ 1 / 2 := by
  unfold roundEven
  split_ifs with h
  · rw [abs_sub_comm, Int.self_sub_floor, h.1, abs_of_pos one_half_pos]
  · rw [abs_sub_comm]
    exact abs_sub_round x

/-- An integer that is less than one half away is the nearest one. -/
lemma roundEven_eq {x : K} {n : ℤ} (h : |x - n| < 1 / 2) : roundEven x = n := by
  have hlt : |(roundEven x : K) - n| < 1 := calc
    |(roundEven x : K) - n| ≤ |roundEven x - x| + |x - n| := abs_sub_le _ _ _
    _ < 1 / 2 + 1 / 2 := add_lt_add_of_le_of_lt (abs_roundEven_sub_le x) h
    _ = 1 := add_halves 1
  have hzero : |roundEven x - n| < 1 := by exact_mod_cast hlt
  exact sub_eq_zero.mp (Int.abs_lt_one_iff.mp hzero)

@[simp] lemma roundEven_intCast (n : ℤ) : roundEven (n : K) = n :=
  roundEven_eq (by simp)

@[simp] lemma roundEven_zero : roundEven (0 : K) = 0 := by
  simpa using roundEven_intCast (K := K) 0

/-! ### The nearest number of `p` bits -/

/-- The distance between two numbers of `p` bits at `x`. -/
def ulp (p : ℕ) (x : K) : K := 2 ^ (Int.log 2 |x| + 1 - p)

/-- The number of `p` bits that is nearest to `x`. -/
def nearest (p : ℕ) (x : K) : K := roundEven (x / ulp p x) * ulp p x

/-- What an operation on doubles gives for an exact result that is neither too large nor too small
for one. -/
def double (x : ℚ) : ℚ := nearest 53 x

variable {p : ℕ}

lemma ulp_pos (x : K) : 0 < ulp p x := zpow_pos two_pos _

lemma ulp_le {x : K} (hx : x ≠ 0) : ulp p x ≤ 2 * |x| / 2 ^ p := by
  have hlog : (2 : K) ^ Int.log 2 |x| ≤ |x| := by
    exact_mod_cast Int.zpow_log_le_self one_lt_two (abs_pos.mpr hx)
  rw [ulp, zpow_sub₀ two_ne_zero, zpow_add_one₀ two_ne_zero, zpow_natCast, mul_comm]
  gcongr

lemma abs_nearest_sub_le_ulp (x : K) : |nearest p x - x| ≤ ulp p x / 2 := by
  have hulp := ulp_pos (p := p) x
  have hscaled : nearest p x - x = (roundEven (x / ulp p x) - x / ulp p x) * ulp p x := by
    rw [nearest, sub_mul, div_mul_cancel₀ _ hulp.ne']
  calc |nearest p x - x|
      = |roundEven (x / ulp p x) - x / ulp p x| * ulp p x := by
        rw [hscaled, abs_mul, abs_of_pos hulp]
    _ ≤ 1 / 2 * ulp p x := by
        gcongr
        exact abs_roundEven_sub_le _
    _ = ulp p x / 2 := one_div_mul_eq_div 2 _

/-- **The error of a rounding.** -/
lemma abs_nearest_sub_le (x : K) : |nearest p x - x| ≤ |x| / 2 ^ p := by
  rcases eq_or_ne x 0 with rfl | hx
  · simp [nearest]
  · have hhalf := div_le_div_of_nonneg_right (ulp_le (p := p) hx) (zero_le_two (α := K))
    exact (abs_nearest_sub_le_ulp x).trans (hhalf.trans_eq (by ring))

/-- An integer of at most `p` bits has them. -/
lemma nearest_intCast {n : ℤ} (h : |n| < 2 ^ p) : nearest p (n : K) = n := by
  rcases eq_or_ne n 0 with rfl | hn
  · simp [nearest]
  · have hpos : (0 : K) < |(n : K)| := abs_pos.mpr (Int.cast_ne_zero.mpr hn)
    have hcast : |(n : K)| < (2 : ℕ) ^ (p : ℤ) := by
      rw [zpow_natCast]
      exact_mod_cast h
    have hlog := (Int.lt_zpow_iff_log_lt one_lt_two hpos).mp hcast
    -- the unit divides 1
    obtain ⟨k, hk⟩ := Int.eq_ofNat_of_zero_le (show 0 ≤ p - (Int.log 2 |(n : K)| + 1) by omega)
    have hulp : ulp p (n : K) = ((2 : K) ^ k)⁻¹ := by
      rw [ulp, ← zpow_natCast, ← zpow_neg, ← hk]
      congr 1
      omega
    have hint : (n : K) / ulp p (n : K) = ((n * 2 ^ k : ℤ) : K) := by
      rw [hulp, div_inv_eq_mul]
      push_cast
      rfl
    rw [nearest, hint, roundEven_intCast, ← hint, div_mul_cancel₀ _ (ulp_pos _).ne']

/-- **Rounding keeps integers through a division.** -/
lemma roundEven_nearest_mul {n : ℤ} (hn : 8 * |n| ≤ 2 ^ p) {s : K} (hs : s ≠ 0) :
    roundEven (nearest p (nearest p (n / s) * s)) = n := by
  have hbound : |(n : K)| / 2 ^ p ≤ 1 / 8 := by
    rw [div_le_div_iff₀ (by positivity) (by norm_num), mul_comm, one_mul]
    exact_mod_cast hn
  have hquot : |nearest p (n / s) * s - n| ≤ |(n : K)| / 2 ^ p := by
    calc |nearest p (n / s) * s - n|
        = |nearest p (n / s) - n / s| * |s| := by
          rw [← abs_mul, sub_mul, div_mul_cancel₀ _ hs]
      _ ≤ |n / s| / 2 ^ p * |s| := by
          gcongr
          exact abs_nearest_sub_le _
      _ = |(n : K)| / 2 ^ p := by
          rw [abs_div, div_right_comm, div_mul_cancel₀ _ (abs_ne_zero.mpr hs)]
  -- each of the two roundings is off by about the same part
  have hprod : |nearest p (nearest p (n / s) * s) - nearest p (n / s) * s| ≤
      2 * (|(n : K)| / 2 ^ p) := by
    have hpow : (1 : K) ≤ 2 ^ p := one_le_pow₀ one_le_two
    have hpart : |(n : K)| / 2 ^ p ≤ |(n : K)| := div_le_self (abs_nonneg _) hpow
    have hmid : |nearest p (n / s) * s| ≤ 2 * |(n : K)| := by
      have := abs_sub_abs_le_abs_sub (nearest p (n / s) * s) n
      linarith
    calc |nearest p (nearest p (n / s) * s) - nearest p (n / s) * s|
        ≤ |nearest p (n / s) * s| / 2 ^ p := abs_nearest_sub_le _
      _ ≤ 2 * |(n : K)| / 2 ^ p := by gcongr
      _ = 2 * (|(n : K)| / 2 ^ p) := mul_div_assoc _ _ _
  refine roundEven_eq ?_
  calc |nearest p (nearest p (n / s) * s) - n|
      ≤ |nearest p (nearest p (n / s) * s) - nearest p (n / s) * s| +
          |nearest p (n / s) * s - n| := abs_sub_le _ _ _
    _ ≤ 2 * (|(n : K)| / 2 ^ p) + |(n : K)| / 2 ^ p := add_le_add hprod hquot
    _ < 1 / 2 := by linarith

end SrtGateway.Floats
