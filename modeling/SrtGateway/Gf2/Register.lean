/-
Shift registers over GF(2).

A register of `w + 1` bits with the feedback `g` multiplies by `x` modulo the generator
`X ^ (w + 1) + g`: at every point that is a root of the generator the value of the register is
multiplied by that point (`valueOf_shift`).  So a register that has absorbed some symbols is
the residue of their polynomial (`valueOf_absorbAll`).  In the ring of residues the register is
determined by its value (`valueOf_root_inj`), and the powers of the root can be computed in
registers (`value_rootPow`).
-/
import Mathlib.RingTheory.AdjoinRoot
import SrtGateway.Gf2.Bits

namespace SrtGateway.Gf2

open Polynomial

/-! ### Shifting -/

/-- One shift of a register. -/
def shift (w g r : ℕ) : ℕ := (if r.testBit w then (r <<< 1) ^^^ g else r <<< 1) % 2 ^ (w + 1)

/-- Absorb a symbol of `k` bits: add it at the top, and shift it through. -/
def absorb (w g k r b : ℕ) : ℕ := (shift w g)^[k] (r ^^^ (b <<< (w + 1 - k)))

lemma shift_lt (w g r : ℕ) : shift w g r < 2 ^ (w + 1) := Nat.mod_lt _ (by positivity)

section Point

variable {A : Type*} [CommRing A] [Algebra (ZMod 2) A] {x : A} {w g : ℕ}

/-- The point is a root of the generator. -/
def IsRoot (x : A) (w g : ℕ) : Prop := x ^ (w + 1) = valueOf x (w + 1) g

/-- **A shift multiplies by the root.** -/
lemma valueOf_shift (hx : IsRoot x w g) (r : ℕ) :
    valueOf x (w + 1) (shift w g r) = x * valueOf x (w + 1) r := by
  have hleft : valueOf x (w + 1) (r <<< 1) = x * value x (bits w r) := by
    rw [valueOf, bits_shiftLeft, value_append]
    simp [value]
  have hsplit : valueOf x (w + 1) r =
      (if r.testBit w then x ^ w else 0) + value x (bits w r) := by
    rw [valueOf, bits, value, length_bits]
  rw [valueOf, shift, bits_mod, hsplit]
  by_cases htop : r.testBit w
  · have hroot : x ^ (w + 1) = valueOf x (w + 1) g := hx
    rw [if_pos htop, if_pos htop, ← valueOf, valueOf_xor, hleft, ← hroot]
    ring
  · rw [if_neg htop, if_neg htop, ← valueOf, hleft, zero_add]

lemma valueOf_iterate (hx : IsRoot x w g) (k r : ℕ) :
    valueOf x (w + 1) ((shift w g)^[k] r) = x ^ k * valueOf x (w + 1) r := by
  induction k generalizing r with
  | zero => simp
  | succ k ih =>
    rw [Function.iterate_succ_apply, ih, valueOf_shift hx]
    ring

lemma valueOf_absorb (hx : IsRoot x w g) {k : ℕ} (hk : k ≤ w + 1) (r b : ℕ) :
    valueOf x (w + 1) (absorb w g k r b) =
      x ^ k * valueOf x (w + 1) r + x ^ (w + 1) * valueOf x k b := by
  have htop : valueOf x (w + 1) (b <<< (w + 1 - k)) = x ^ (w + 1 - k) * valueOf x k b := by
    obtain ⟨j, hj⟩ := Nat.exists_eq_add_of_le hk
    have hj' : w + 1 - k = j := by omega
    rw [hj', valueOf, hj, bits_shiftLeft, value_append, value_replicate_false,
      List.length_replicate, add_zero]
  rw [absorb, valueOf_iterate hx, valueOf_xor, htop, mul_add, ← mul_assoc, ← pow_add,
    Nat.add_sub_cancel' hk]

/-- **Absorbing symbols** appends their bits to the register. -/
lemma valueOf_absorbAll (hx : IsRoot x w g) {k : ℕ} (hk : k ≤ w + 1) (r : ℕ) (symbols : List ℕ) :
    valueOf x (w + 1) (symbols.foldl (absorb w g k) r) =
      x ^ (symbols.flatMap (bits k)).length * valueOf x (w + 1) r +
        x ^ (w + 1) * value x (symbols.flatMap (bits k)) := by
  induction symbols generalizing r with
  | nil => simp [value]
  | cons b symbols ih =>
    rw [List.foldl_cons, ih, valueOf_absorb hx hk, List.flatMap_cons, value_append,
      List.length_append, length_bits]
    ring

end Point

/-! ### Residues -/

/-- The generator polynomial. -/
noncomputable def generator (w g : ℕ) : (ZMod 2)[X] := X ^ (w + 1) + valueOf X (w + 1) g

/-- The residues modulo the generator. -/
abbrev Residue (w g : ℕ) : Type := AdjoinRoot (generator w g)

noncomputable abbrev root (w g : ℕ) : Residue w g := AdjoinRoot.root (generator w g)

lemma coeff_valueOf (w n i : ℕ) :
    (valueOf (X : (ZMod 2)[X]) w n).coeff i = if i < w ∧ n.testBit i then 1 else 0 := by
  induction w with
  | zero =>
    show (0 : (ZMod 2)[X]).coeff i = _
    simp
  | succ w ih =>
    rw [valueOf, bits, value, coeff_add, ih, length_bits]
    rcases lt_trichotomy i w with hlt | rfl | hgt
    · have hne : (if n.testBit w then (X : (ZMod 2)[X]) ^ w else 0).coeff i = 0 := by
        split
        · rw [coeff_X_pow, if_neg hlt.ne]
        · rfl
      simp [hne, hlt, Nat.lt_succ_of_lt hlt]
    · cases htest : n.testBit i
      · simp
      · simp
    · have hne : (if n.testBit w then (X : (ZMod 2)[X]) ^ w else 0).coeff i = 0 := by
        split
        · rw [coeff_X_pow, if_neg hgt.ne']
        · rfl
      rw [hne, if_neg (by omega), if_neg (by omega), add_zero]

lemma coeff_valueOf_of_lt {w n : ℕ} (h : n < 2 ^ w) (i : ℕ) :
    (valueOf (X : (ZMod 2)[X]) w n).coeff i = if n.testBit i then 1 else 0 := by
  rw [coeff_valueOf]
  by_cases hi : i < w
  · simp [hi]
  · simp [hi, testBit_of_le h (not_lt.mp hi)]

lemma degree_valueOf_lt (w n : ℕ) : (valueOf (X : (ZMod 2)[X]) w n).degree < w := by
  refine (degree_lt_iff_coeff_zero _ _).mpr fun i hi => ?_
  rw [coeff_valueOf, if_neg (by omega)]

section Residue

variable (w g : ℕ)

lemma generator_degree : (generator w g).degree = (w + 1 : ℕ) := by
  have hlt : (valueOf (X : (ZMod 2)[X]) (w + 1) g).degree < (X ^ (w + 1) : (ZMod 2)[X]).degree := by
    rw [degree_X_pow]
    exact degree_valueOf_lt (w + 1) g
  rw [generator, degree_add_eq_left_of_degree_lt hlt, degree_X_pow]

lemma degree_valueOf_lt_generator (n : ℕ) :
    (valueOf (X : (ZMod 2)[X]) (w + 1) n).degree < (generator w g).degree := by
  rw [generator_degree]
  exact degree_valueOf_lt (w + 1) n

lemma monic_generator : (generator w g).Monic :=
  monic_X_pow_add (degree_valueOf_lt (w + 1) g)

lemma mk_value (l : List Bool) :
    AdjoinRoot.mk (generator w g) (value X l) = value (root w g) l := by
  rw [map_value, AdjoinRoot.mk_X]

lemma root_isRoot : IsRoot (root w g) w g := by
  have hzero : AdjoinRoot.mk (generator w g) (X ^ (w + 1) + valueOf X (w + 1) g) = 0 :=
    AdjoinRoot.mk_self
  rw [map_add, map_pow, AdjoinRoot.mk_X, mk_value] at hzero
  exact eq_of_add_eq_zero hzero

variable {w g}

/-- **A register is a remainder**: that of every polynomial with its residue. -/
lemma modByMonic_generator {p : (ZMod 2)[X]} {n : ℕ}
    (h : AdjoinRoot.mk (generator w g) p = valueOf (root w g) (w + 1) n) :
    p %ₘ generator w g = valueOf X (w + 1) n := by
  have hdvd : generator w g ∣ p - valueOf X (w + 1) n := by
    rw [← AdjoinRoot.mk_eq_zero, map_sub, h, mk_value, sub_self]
  rw [modByMonic_eq_of_dvd_sub (monic_generator w g) hdvd,
    modByMonic_eq_self_iff (monic_generator w g)]
  exact degree_valueOf_lt_generator w g n

/-- **A register is determined by its residue.** -/
lemma valueOf_root_inj {a b : ℕ} (ha : a < 2 ^ (w + 1)) (hb : b < 2 ^ (w + 1))
    (h : valueOf (root w g) (w + 1) a = valueOf (root w g) (w + 1) b) : a = b := by
  have hdvd : generator w g ∣ valueOf X (w + 1) (a ^^^ b) := by
    rw [← AdjoinRoot.mk_eq_zero, mk_value, ← valueOf, valueOf_xor, h, add_self]
  have hzero := eq_zero_of_dvd_of_degree_lt hdvd (degree_valueOf_lt_generator w g (a ^^^ b))
  refine Nat.eq_of_testBit_eq fun i => ?_
  by_cases hi : i < w + 1
  · have hcoeff := coeff_valueOf (w + 1) (a ^^^ b) i
    rw [hzero, coeff_zero, Nat.testBit_xor] at hcoeff
    cases hab : a.testBit i <;> cases hbb : b.testBit i <;> simp [hab, hbb, hi] at hcoeff ⊢
  · rw [testBit_of_le ha (not_lt.mp hi), testBit_of_le hb (not_lt.mp hi)]

end Residue

/-! ### Computing in residues -/

/-- The product of a register and a bit string. -/
def mulMod (w g r : ℕ) (l : List Bool) : ℕ :=
  l.foldl (fun acc b => shift w g acc ^^^ (if b then r else 0)) 0

/-- The power of the root with these bits as its exponent, by repeated squaring. -/
def rootPow (w g : ℕ) (e : List Bool) : ℕ :=
  e.foldl (fun r b =>
    let r := mulMod w g r (bits (w + 1) r)
    if b then shift w g r else r) 1

section Point

variable {A : Type*} [CommRing A] [Algebra (ZMod 2) A] {x : A} {w g : ℕ}

lemma valueOf_mulMod (hx : IsRoot x w g) (r : ℕ) (l : List Bool) :
    valueOf x (w + 1) (mulMod w g r l) = valueOf x (w + 1) r * value x l := by
  induction l using List.reverseRecOn with
  | nil => simp [mulMod, value]
  | append_singleton l b ih =>
    have hstep : mulMod w g r (l ++ [b]) =
        shift w g (mulMod w g r l) ^^^ (if b then r else 0) := by
      simp [mulMod]
    rw [hstep, valueOf_xor, valueOf_shift hx, ih, value_append]
    cases b
    · simp [value]
      ring
    · simp [value]
      ring

/-- **Powers of the root**, computed in registers. -/
lemma valueOf_rootPow (hx : IsRoot x w g) (e : List Bool) :
    valueOf x (w + 1) (rootPow w g e) = x ^ ofBits e := by
  induction e using List.reverseRecOn with
  | nil => simp [rootPow, ofBits, valueOf_one]
  | append_singleton e b ih =>
    have hsquare : valueOf x (w + 1)
        (mulMod w g (rootPow w g e) (bits (w + 1) (rootPow w g e))) = x ^ (2 * ofBits e) := by
      rw [valueOf_mulMod hx, ih, two_mul, pow_add]
      rw [← valueOf, ih]
    have hbits : ofBits (e ++ [b]) = 2 * ofBits e + b.toNat := by
      simp [ofBits_append, ofBits]
    have hstep : rootPow w g (e ++ [b]) =
        if b then shift w g (mulMod w g (rootPow w g e) (bits (w + 1) (rootPow w g e)))
        else mulMod w g (rootPow w g e) (bits (w + 1) (rootPow w g e)) := by
      simp [rootPow]
    rw [hstep, hbits]
    cases b
    · simpa using hsquare
    · simp only [if_true, Bool.toNat_true]
      rw [valueOf_shift hx, hsquare, pow_succ']

end Point

lemma mulMod_lt {w g r : ℕ} (hr : r < 2 ^ (w + 1)) (l : List Bool) :
    mulMod w g r l < 2 ^ (w + 1) := by
  induction l using List.reverseRecOn with
  | nil => exact Nat.two_pow_pos _
  | append_singleton l b _ =>
    rw [mulMod, List.foldl_append]
    refine Nat.xor_lt_two_pow (shift_lt w g _) ?_
    split
    · exact hr
    · exact Nat.two_pow_pos _

lemma rootPow_lt (w g : ℕ) (e : List Bool) : rootPow w g e < 2 ^ (w + 1) := by
  induction e using List.reverseRecOn with
  | nil => exact Nat.one_lt_two_pow (by omega)
  | append_singleton e b ih =>
    rw [rootPow, List.foldl_append]
    dsimp only [List.foldl_cons, List.foldl_nil]
    split
    · exact shift_lt w g _
    · exact mulMod_lt ih _

/-- Whether a power of the root is 1 can be computed. -/
lemma root_pow_eq_one_iff (w g : ℕ) (e : List Bool) :
    root w g ^ ofBits e = 1 ↔ rootPow w g e = 1 := by
  rw [← valueOf_rootPow (root_isRoot w g), ← valueOf_one (root w g) w]
  constructor
  · exact valueOf_root_inj (rootPow_lt w g e) (Nat.one_lt_two_pow (by omega))
  · intro h
    rw [h]

end SrtGateway.Gf2
