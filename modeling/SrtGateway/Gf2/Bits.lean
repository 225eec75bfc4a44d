/-
Bit strings as polynomials over GF(2).

A bit string, most significant bit first, stands for the polynomial with these bits as its
coefficients, and `value x l` is the value of this polynomial at a point `x` of an algebra
over GF(2).  The exclusive or of two strings has the sum of their values, and appending `m`
bits multiplies by `x ^ m`.  At the point 1 of GF(2) itself the value is the parity of the
string, and a string with two set bits has the value `x ^ j + x ^ i`.
-/
import Mathlib.Algebra.Algebra.Basic
import Mathlib.Data.Nat.Bitwise
import Mathlib.Data.ZMod.Basic
import Mathlib.Tactic

namespace SrtGateway.Gf2

/-! ### Bit strings -/

/-- The `w` low bits of a number, most significant bit first. -/
def bits : ℕ → ℕ → List Bool
  | 0, _ => []
  | w + 1, n => n.testBit w :: bits w n

/-- The exclusive or of two strings, bit by bit. -/
def xorBits (l m : List Bool) : List Bool := List.zipWith xor l m

@[simp] lemma length_bits (w n : ℕ) : (bits w n).length = w := by
  induction w with
  | zero => rfl
  | succ w ih => rw [bits, List.length_cons, ih]

lemma bits_congr {w a b : ℕ} (h : ∀ i < w, a.testBit i = b.testBit i) : bits w a = bits w b := by
  induction w with
  | zero => rfl
  | succ w ih => rw [bits, bits, h w (by omega), ih fun i hi => h i (by omega)]

lemma bits_mod (w n : ℕ) : bits w (n % 2 ^ w) = bits w n :=
  bits_congr fun i hi => by simp [Nat.testBit_mod_two_pow, hi]

lemma bits_xor (w a b : ℕ) : bits w (a ^^^ b) = xorBits (bits w a) (bits w b) := by
  induction w with
  | zero => rfl
  | succ w ih =>
    rw [bits, ih, Nat.testBit_xor]
    rfl

/-- The high bits of a number and its low bits. -/
lemma bits_append (v w n : ℕ) : bits (v + w) n = bits v (n >>> w) ++ bits w n := by
  induction v with
  | zero => simp [bits]
  | succ v ih =>
    rw [Nat.add_right_comm, bits, ih, bits, Nat.testBit_shiftRight, Nat.add_comm w]
    rfl

lemma bits_zero (w : ℕ) : bits w 0 = List.replicate w false := by
  induction w with
  | zero => rfl
  | succ w ih => rw [bits, ih, Nat.zero_testBit, List.replicate_succ]

lemma bits_shiftLeft (w k n : ℕ) :
    bits (w + k) (n <<< k) = bits w n ++ List.replicate k false := by
  have hlow : bits k (n <<< k) = bits k 0 :=
    bits_congr fun i hi => by simp [Nat.testBit_shiftLeft, hi]
  rw [bits_append, Nat.shiftLeft_shiftRight, hlow, bits_zero]

/-- A number below `2 ^ w` has no bits from `w` on. -/
lemma testBit_of_le {w n i : ℕ} (h : n < 2 ^ w) (hi : w ≤ i) : n.testBit i = false :=
  Nat.testBit_lt_two_pow (h.trans_le (Nat.pow_le_pow_right two_pos hi))

/-- A number below `2 ^ w` is given by its `w` low bits. -/
lemma bits_inj {w a b : ℕ} (ha : a < 2 ^ w) (hb : b < 2 ^ w) (h : bits w a = bits w b) : a = b := by
  have htest : ∀ v ≤ w, bits v a = bits v b := by
    intro v hv
    obtain ⟨k, rfl⟩ := Nat.exists_eq_add_of_le' hv
    rw [bits_append, bits_append] at h
    exact List.append_inj_right h (by simp)
  refine Nat.eq_of_testBit_eq fun i => ?_
  by_cases hi : i < w
  · exact (List.cons.inj (htest (i + 1) hi)).1
  · rw [testBit_of_le ha (not_lt.mp hi), testBit_of_le hb (not_lt.mp hi)]

lemma length_xorBits {l m : List Bool} (h : l.length = m.length) :
    (xorBits l m).length = l.length := by
  rw [xorBits, List.length_zipWith, h, min_self]

lemma xorBits_append {l l' m m' : List Bool} (h : l.length = m.length) :
    xorBits (l ++ l') (m ++ m') = xorBits l m ++ xorBits l' m' :=
  List.zipWith_append h

lemma xorBits_self (l : List Bool) : xorBits l l = List.replicate l.length false := by
  induction l with
  | nil => rfl
  | cons b l ih =>
    rw [xorBits, List.zipWith_cons_cons, Bool.xor_self, List.length_cons, List.replicate_succ, ← ih]
    rfl

/-- The string with its first `k` bits complemented. -/
def complementFirst (k : ℕ) (l : List Bool) : List Bool := (l.take k).map not ++ l.drop k

/-! ### Numbers from bits -/

/-- The number with these bits. -/
def ofBits : List Bool → ℕ
  | [] => 0
  | b :: l => 2 ^ l.length * b.toNat + ofBits l

lemma ofBits_lt (l : List Bool) : ofBits l < 2 ^ l.length := by
  induction l with
  | nil => exact Nat.one_pos
  | cons b l ih =>
    have hb : 2 ^ l.length * b.toNat ≤ 2 ^ l.length * 1 :=
      Nat.mul_le_mul_left _ (Bool.toNat_le b)
    rw [ofBits, List.length_cons, pow_succ]
    omega

lemma ofBits_append (l m : List Bool) : ofBits (l ++ m) = 2 ^ m.length * ofBits l + ofBits m := by
  induction l with
  | nil => simp [ofBits]
  | cons b l ih =>
    rw [List.cons_append, ofBits, ih, ofBits, List.length_append]
    ring

lemma ofBits_replicate_false (k : ℕ) : ofBits (List.replicate k false) = 0 := by
  induction k with
  | zero => rfl
  | succ k ih => simp [List.replicate_succ, ofBits, ih]

lemma bits_ofBits (l : List Bool) : bits l.length (ofBits l) = l := by
  induction l with
  | nil => rfl
  | cons b l ih =>
    have hlt := ofBits_lt l
    have htop : (2 ^ l.length * b.toNat + ofBits l).testBit l.length = b := by
      rw [Nat.testBit_two_pow_mul_add _ hlt, if_neg (lt_irrefl _), Nat.sub_self]
      cases b <;> rfl
    have hlow : (2 ^ l.length * b.toNat + ofBits l) % 2 ^ l.length = ofBits l := by
      rw [Nat.mul_add_mod, Nat.mod_eq_of_lt hlt]
    rw [List.length_cons, bits, ofBits, htop, ← bits_mod, hlow, ih]

lemma ofBits_bits {w n : ℕ} (h : n < 2 ^ w) : ofBits (bits w n) = n := by
  have hlt := ofBits_lt (bits w n)
  have hbits := bits_ofBits (bits w n)
  rw [length_bits] at hlt hbits
  exact bits_inj hlt h hbits

lemma ofBits_eq_zero_iff {l : List Bool} : ofBits l = 0 ↔ true ∉ l := by
  induction l with
  | nil => simp [ofBits]
  | cons b l ih => cases b <;> simp [ofBits, ih]

/-! ### Values -/

section Value

variable {A B : Type*} [CommRing A] [CommRing B] (x : A)

/-- The value at `x` of the polynomial with these coefficients. -/
def value : List Bool → A
  | [] => 0
  | b :: l => (if b then x ^ l.length else 0) + value l

/-- The value at `x` of the polynomial whose coefficients are the `w` low bits of `n`. -/
abbrev valueOf (w n : ℕ) : A := value x (bits w n)

lemma value_append (l m : List Bool) : value x (l ++ m) = x ^ m.length * value x l + value x m := by
  induction l with
  | nil => simp [value]
  | cons b l ih =>
    rw [List.cons_append, value, ih, value, List.length_append]
    split
    · ring
    · ring

lemma value_replicate_false (k : ℕ) : value x (List.replicate k false) = 0 := by
  induction k with
  | zero => rfl
  | succ k ih => simp [List.replicate_succ, value, ih]

@[simp] lemma valueOf_zero (w : ℕ) : valueOf x w 0 = 0 := by
  rw [valueOf, bits_zero, value_replicate_false]

lemma valueOf_one (w : ℕ) : valueOf x (w + 1) 1 = 1 := by
  have hone : bits (w + 1) 1 = List.replicate w false ++ [true] := by
    rw [bits_append w 1 1, ← bits_zero]
    rfl
  rw [valueOf, hone, value_append, value_replicate_false]
  simp [value]

/-- The value of a string from its number. -/
lemma value_ofBits {w : ℕ} {l : List Bool} (h : ofBits l < 2 ^ w) :
    value x l = valueOf x w (ofBits l) := by
  have hshort : ∀ {v k n : ℕ}, n < 2 ^ v → valueOf x (k + v) n = valueOf x v n := by
    intro v k n hn
    have hhigh : n >>> v = 0 := by rw [Nat.shiftRight_eq_div_pow, Nat.div_eq_of_lt hn]
    rw [valueOf, bits_append, hhigh, bits_zero, value_append, value_replicate_false]
    simp
  have hself : value x l = valueOf x l.length (ofBits l) := by rw [valueOf, bits_ofBits]
  rw [hself]
  rcases le_total l.length w with hle | hle
  · obtain ⟨k, rfl⟩ := Nat.exists_eq_add_of_le' hle
    rw [hshort (ofBits_lt l)]
  · obtain ⟨k, hk⟩ := Nat.exists_eq_add_of_le' hle
    rw [hk, hshort h]

lemma map_value (f : A →+* B) (l : List Bool) : f (value x l) = value (f x) l := by
  induction l with
  | nil => exact map_zero f
  | cons b l ih =>
    rw [value, value, map_add, ih]
    cases b
    · simp
    · simp

/-! ### Weights -/

/-- At the point 1 of GF(2) the value of a string is its parity. -/
lemma value_one (l : List Bool) : value (1 : ZMod 2) l = (l.count true : ZMod 2) := by
  induction l with
  | nil => simp [value]
  | cons b l ih =>
    cases b
    · simp [value, ih]
    · simp [value, ih, add_comm]

lemma value_of_count_zero {l : List Bool} (h : l.count true = 0) : value x l = 0 := by
  induction l with
  | nil => rfl
  | cons b l ih =>
    cases b
    · rw [List.count_cons_of_ne (by simp)] at h
      simp [value, ih h]
    · simp at h

lemma value_of_count_one {l : List Bool} (h : l.count true = 1) :
    ∃ i < l.length, value x l = x ^ i := by
  induction l with
  | nil => simp at h
  | cons b l ih =>
    cases b
    · rw [List.count_cons_of_ne (by simp)] at h
      obtain ⟨i, hi, hvalue⟩ := ih h
      exact ⟨i, Nat.lt_succ_of_lt hi, by simp [value, hvalue]⟩
    · rw [List.count_cons_self] at h
      exact ⟨l.length, Nat.lt_succ_self _, by simp [value, value_of_count_zero x (Nat.succ.inj h)]⟩

/-- A string with two set bits. -/
lemma value_of_count_two {l : List Bool} (h : l.count true = 2) :
    ∃ i j, i < j ∧ j < l.length ∧ value x l = x ^ j + x ^ i := by
  induction l with
  | nil => simp at h
  | cons b l ih =>
    cases b
    · rw [List.count_cons_of_ne (by simp)] at h
      obtain ⟨i, j, hij, hj, hvalue⟩ := ih h
      exact ⟨i, j, hij, Nat.lt_succ_of_lt hj, by simp [value, hvalue]⟩
    · rw [List.count_cons_self] at h
      obtain ⟨i, hi, hvalue⟩ := value_of_count_one x (Nat.succ.inj h)
      exact ⟨i, l.length, hi, Nat.lt_succ_self _, by simp [value, hvalue]⟩

/-! ### Characteristic 2 -/

variable [Algebra (ZMod 2) A]

/-- Every element is its own negative. -/
lemma add_self (a : A) : a + a = 0 := by
  rw [← two_smul (ZMod 2) a, show (2 : ZMod 2) = 0 from rfl, zero_smul]

lemma eq_of_add_eq_zero {a b : A} (h : a + b = 0) : a = b := by
  rw [← add_zero a, ← add_self b, ← add_assoc, h, zero_add]

lemma value_xor {l m : List Bool} (h : l.length = m.length) :
    value x (xorBits l m) = value x l + value x m := by
  induction l generalizing m with
  | nil =>
    obtain rfl := List.length_eq_zero_iff.mp h.symm
    simp [xorBits, value]
  | cons b l ih =>
    obtain ⟨c, m, rfl⟩ : ∃ c m', m = c :: m' := List.exists_cons_of_length_eq_add_one h.symm
    have hlen : l.length = m.length := Nat.succ.inj h
    show (if xor b c then x ^ (xorBits l m).length else 0) + value x (xorBits l m) = _
    rw [ih hlen, length_xorBits hlen, value, value, ← hlen]
    cases b <;> cases c
    · simp
    · simp only [Bool.false_xor, Bool.false_eq_true, if_true, if_false]
      ring
    · simp only [Bool.xor_false, Bool.false_eq_true, if_true, if_false]
      ring
    · have hself := add_self (x ^ l.length)
      simp only [Bool.xor_self, Bool.false_eq_true, if_true, if_false]
      linear_combination - hself

lemma value_map_not (l : List Bool) :
    value x (l.map not) = value x l + value x (List.replicate l.length true) := by
  induction l with
  | nil => simp [value]
  | cons b l ih =>
    have hself := add_self (x ^ l.length)
    rw [List.map_cons, value, ih, value, List.length_cons, List.replicate_succ, value,
      List.length_map, List.length_replicate]
    cases b
    · simp only [Bool.not_false, Bool.false_eq_true, if_true, if_false]
      ring
    · simp only [Bool.not_true, Bool.false_eq_true, if_true, if_false]
      linear_combination - hself

/-- Complementing the first bits adds ones in their places. -/
lemma value_complementFirst {k : ℕ} {l : List Bool} (h : k ≤ l.length) :
    value x (complementFirst k l) =
      value x l + x ^ (l.length - k) * value x (List.replicate k true) := by
  have hsplit : value x l =
      x ^ (l.length - k) * value x (l.take k) + value x (l.drop k) := by
    rw [← List.length_drop, ← value_append, List.take_append_drop]
  rw [hsplit, complementFirst, value_append, value_map_not, List.length_drop, List.length_take,
    min_eq_left h]
  ring

lemma valueOf_xor (w a b : ℕ) : valueOf x w (a ^^^ b) = valueOf x w a + valueOf x w b := by
  rw [valueOf, bits_xor, value_xor x (by simp)]

end Value

end SrtGateway.Gf2
