import Bureau.Cipher.Gcm
import Mathlib.Algebra.CharP.Two
import Mathlib.Algebra.Field.ZMod
import Mathlib.Algebra.Polynomial.FieldDivision
import Mathlib.Algebra.Ring.GeomSum
import Mathlib.Algebra.Squarefree.Basic
import Mathlib.FieldTheory.Separable
import Mathlib.RingTheory.AdjoinRoot
import Mathlib.Tactic.ComputeDegree
import Mathlib.Tactic.LinearCombination

/-!
# The hash of a message

A block stands for a polynomial over any field of characteristic two, and multiplication of blocks
is multiplication modulo one fixed polynomial (`residue_mul`). No factor of that polynomial is
repeated, for it has none in common with its derivative; so no power of a key that is not zero is
zero, and messages that differ in a single bit have different hashes (`hashElements_xor_ne`).
Whether the polynomial can be factored at all does not matter.
-/

namespace Bureau.Gcm

open Polynomial

section Modulus

variable (K : Type) [Field K] [CharP K 2]

/-! ### The modulus -/

/-- The polynomial that products are reduced by. -/
@[irreducible] noncomputable def modulus : K[X] := X ^ 128 + (X ^ 7 + X ^ 2 + X + 1)

omit [CharP K 2] in
theorem modulus_eq : modulus K = X ^ 128 + (X ^ 7 + X ^ 2 + X + 1) := by
  unfold modulus
  rfl

omit [CharP K 2] in
theorem degree_modulus : (modulus K).degree = 128 := by
  unfold modulus
  compute_degree!

theorem derivative_modulus : derivative (modulus K) = X ^ 6 + 1 := by
  have two : (2 : K) = 0 := CharTwo.two_eq_zero
  have even : ((128 : Nat) : K) = 0 := by
    push_cast
    linear_combination 64 * two
  have odd : ((7 : Nat) : K) = 1 := by
    push_cast
    linear_combination 3 * two
  unfold modulus
  simp only [derivative_add, derivative_X_pow, derivative_X, derivative_one, even, odd,
    CharTwo.two_eq_zero, Nat.cast_ofNat, C_0, C_1, zero_mul, one_mul, zero_add, add_zero,
    Nat.reduceSub]

/-- Where two is zero, the modulus and its derivative have no common factor. -/
theorem bezout {R : Type*} [CommRing R] (two : (2 : R) = 0) (x : R) :
    1 * (x ^ 128 + (x ^ 7 + x ^ 2 + x + 1)) +
      (x + x ^ 2 * ∑ i ∈ Finset.range 21, (x ^ 6) ^ i) * (x ^ 6 + 1) = 1 := by
  have geometric := geom_sum_mul (x ^ 6) 21
  linear_combination x ^ 2 * geometric +
    (x ^ 2 * ∑ i ∈ Finset.range 21, (x ^ 6) ^ i + x ^ 128 + x ^ 7 + x) * two

theorem separable_modulus : (modulus K).Separable := by
  refine ⟨1, X + X ^ 2 * ∑ i ∈ Finset.range 21, (X ^ 6) ^ i, ?_⟩
  have two : (2 : K[X]) = 0 := CharTwo.two_eq_zero
  rw [derivative_modulus, modulus_eq]
  linear_combination bezout two X

theorem isRadical_modulus : IsRadical (modulus K) := (separable_modulus K).squarefree.isRadical

/-! ### Blocks as polynomials -/

/-- The polynomial of a block; its first bit is the coefficient of `x⁰`. -/
noncomputable def poly (v : BitVec 128) : K[X] :=
  ∑ i ∈ Finset.range 128, if v.getMsbD i then X ^ i else 0

omit [CharP K 2] in
theorem coeff_poly (v : BitVec 128) (i : Nat) :
    (poly K v).coeff i = if v.getMsbD i then 1 else 0 := by
  have term (j : Nat) : (if v.getMsbD j then X ^ j else 0 : K[X]).coeff i =
      if j = i then (if v.getMsbD i then 1 else 0) else 0 := by
    by_cases same : j = i
    · subst same
      split <;> simp_all
    · have other : i ≠ j := fun h => same h.symm
      split <;> simp [coeff_X_pow, other]
  rw [poly, finsetSum_coeff, Finset.sum_congr rfl fun j _ => term j, Finset.sum_ite_eq']
  by_cases inside : i < 128
  · simp [inside]
  · simp [inside, BitVec.getMsbD]

omit [CharP K 2] in
theorem poly_eq_zero {v : BitVec 128} (h : poly K v = 0) : v = 0 := by
  refine BitVec.eq_of_getMsbD_eq fun i _ => ?_
  have := coeff_poly K v i
  rw [h, coeff_zero] at this
  simpa using this

omit [CharP K 2] in
theorem degree_poly_lt (v : BitVec 128) : (poly K v).degree < (modulus K).degree := by
  rw [degree_modulus, ← Nat.cast_ofNat, degree_lt_iff_coeff_zero]
  intro i outside
  rw [coeff_poly, if_neg]
  simp [BitVec.getMsbD, Nat.not_lt.2 outside]

theorem poly_xor (v w : BitVec 128) : poly K (v ^^^ w) = poly K v + poly K w := by
  ext i
  rw [coeff_add, coeff_poly, coeff_poly, coeff_poly, BitVec.getMsbD_xor]
  cases v.getMsbD i <;> cases w.getMsbD i <;> simp [CharTwo.add_self_eq_zero]

/-- The block that stands for `xⁱ`. -/
def power (i : Nat) : BitVec 128 := BitVec.twoPow 128 (127 - i)

omit [CharP K 2] in
theorem poly_power {i : Nat} (h : i < 128) : poly K (power i) = X ^ i := by
  ext j
  rw [coeff_poly, coeff_X_pow, power, BitVec.getMsbD_twoPow]
  congr 1
  simp
  omega

theorem remainder_eq : remainder = power 0 ^^^ power 1 ^^^ power 2 ^^^ power 7 := by decide

theorem poly_remainder : poly K remainder = 1 + X + X ^ 2 + X ^ 7 := by
  rw [remainder_eq, poly_xor, poly_xor, poly_xor, poly_power K (by decide),
    poly_power K (by decide), poly_power K (by decide), poly_power K (by decide), pow_zero, pow_one]

omit [CharP K 2] in
/-- Multiplication by `x` moves every bit to the right and the last one out of the block. -/
theorem X_mul_poly (v : BitVec 128) :
    X * poly K v = poly K (v >>> 1) + if v.getLsbD 0 then X ^ 128 else 0 := by
  ext i
  rw [coeff_add, coeff_poly, BitVec.getMsbD_ushiftRight]
  have last : v.getLsbD 0 = v.getMsbD 127 := by simp [BitVec.getMsbD]
  have out : (if v.getLsbD 0 then X ^ 128 else 0 : K[X]).coeff i =
      if i = 128 ∧ v.getMsbD 127 then 1 else 0 := by
    rw [last]
    split <;> simp_all [coeff_X_pow]
  rw [out]
  cases i with
  | zero => simp
  | succ i =>
    rw [coeff_X_mul, coeff_poly]
    rcases lt_trichotomy i 127 with inside | rfl | outside
    · have : i + 1 < 128 := by omega
      simp [this, inside.ne]
    · simp
    · have : ¬ i < 128 := by omega
      simp [BitVec.getMsbD, this, outside.ne']

/-! ### Products -/

/-- The remainder of a block's polynomial by the modulus. -/
noncomputable def residue (v : BitVec 128) : AdjoinRoot (modulus K) :=
  AdjoinRoot.mk (modulus K) (poly K v)

theorem residue_xor (v w : BitVec 128) : residue K (v ^^^ w) = residue K v + residue K w := by
  rw [residue, poly_xor, map_add]
  rfl

omit [CharP K 2] in
theorem residue_zero : residue K 0 = 0 := by
  have : poly K 0 = 0 := by
    ext i
    simp [coeff_poly]
  rw [residue, this, map_zero]

omit [CharP K 2] in
theorem residue_eq_zero {v : BitVec 128} (h : residue K v = 0) : v = 0 :=
  poly_eq_zero K (eq_zero_of_dvd_of_degree_lt (AdjoinRoot.mk_eq_zero.1 h) (degree_poly_lt K v))

omit [CharP K 2] in
theorem residue_power {i : Nat} (h : i < 128) :
    residue K (power i) = AdjoinRoot.root (modulus K) ^ i := by
  rw [residue, poly_power K h, map_pow, AdjoinRoot.mk_X]

theorem two_eq_zero : (2 : AdjoinRoot (modulus K)) = 0 := by
  have two : (2 : K[X]) = 0 := CharTwo.two_eq_zero
  have := congrArg (AdjoinRoot.mk (modulus K)) two
  rwa [map_ofNat, map_zero] at this

/-- In the ring, `x¹²⁸` is the remainder. -/
theorem root_pow : AdjoinRoot.root (modulus K) ^ 128 = residue K remainder := by
  have two : (2 : K[X]) = 0 := CharTwo.two_eq_zero
  rw [residue, poly_remainder, ← AdjoinRoot.mk_X, ← map_pow, AdjoinRoot.mk_eq_mk, modulus_eq]
  refine ⟨1, ?_⟩
  linear_combination - (X ^ 7 + X ^ 2 + X + 1) * two

theorem residue_timesX (v : BitVec 128) :
    residue K (timesX v) = AdjoinRoot.root (modulus K) * residue K v := by
  have shift := congrArg (AdjoinRoot.mk (modulus K)) (X_mul_poly K v)
  rw [map_mul, map_add, AdjoinRoot.mk_X] at shift
  rw [residue, residue, shift, timesX]
  split
  · rw [map_pow, AdjoinRoot.mk_X, root_pow, poly_xor, map_add]
    rfl
  · rw [map_zero, add_zero]

/-- What the last `n` bits of a block stand for, the first of them being the coefficient of
`x⁰`. -/
noncomputable def tail (x : BitVec 128) (n : Nat) : AdjoinRoot (modulus K) :=
  ∑ i ∈ Finset.range n, if x.getLsbD (n - 1 - i) then AdjoinRoot.root (modulus K) ^ i else 0

omit [CharP K 2] in
theorem tail_succ (x : BitVec 128) (n : Nat) :
    tail K x (n + 1) =
      (if x.getLsbD n then 1 else 0) + AdjoinRoot.root (modulus K) * tail K x n := by
  rw [tail, Finset.sum_range_succ', tail, Finset.mul_sum, add_comm]
  congr 1
  refine Finset.sum_congr rfl fun i _ => ?_
  have : n + 1 - 1 - (i + 1) = n - 1 - i := by omega
  rw [this, mul_ite, mul_zero, pow_succ']

omit [CharP K 2] in
theorem tail_all (x : BitVec 128) : tail K x 128 = residue K x := by
  rw [tail, residue, poly, map_sum]
  refine Finset.sum_congr rfl fun i inside => ?_
  have inside : i < 128 := Finset.mem_range.1 inside
  have bit : x.getLsbD (128 - 1 - i) = x.getMsbD i := by simp [BitVec.getMsbD, inside]
  rw [bit]
  split
  · rw [map_pow, AdjoinRoot.mk_X]
  · rw [map_zero]

theorem residue_mulFrom (x : BitVec 128) (n : Nat) (sum v : BitVec 128) :
    residue K (mulFrom x n sum v) = residue K sum + tail K x n * residue K v := by
  induction n generalizing sum v with
  | zero => simp [mulFrom, tail]
  | succ n ih =>
    rw [mulFrom, ih, residue_timesX, tail_succ]
    split
    · rw [residue_xor]
      ring
    · ring

/-- Multiplication of blocks is multiplication modulo the modulus. -/
theorem residue_mul (x y : BitVec 128) : residue K (mul x y) = residue K x * residue K y := by
  rw [mul, residue_mulFrom, tail_all, residue_zero, zero_add]

/-! ### Powers -/

theorem isUnit_root : IsUnit (AdjoinRoot.root (modulus K)) := by
  have two := two_eq_zero K
  have root := root_pow K
  rw [residue, poly_remainder] at root
  simp only [map_add, map_pow, map_one, AdjoinRoot.mk_X] at root
  generalize AdjoinRoot.root (modulus K) = x at root
  refine IsUnit.of_mul_eq_one (x ^ 127 + x ^ 6 + x + 1) ?_
  linear_combination root + (x ^ 7 + x ^ 2 + x) * two

/-- No power of a block that is not zero is zero, since no factor of the modulus is repeated. -/
theorem residue_pow_ne_zero {h : BitVec 128} (nonzero : h ≠ 0) (n : Nat) : residue K h ^ n ≠ 0 := by
  intro zero
  rw [residue, ← map_pow, AdjoinRoot.mk_eq_zero] at zero
  exact nonzero (residue_eq_zero K (AdjoinRoot.mk_eq_zero.2 (isRadical_modulus K n _ zero)))

/-! ### Messages that differ in one bit -/

/-- What is different at the start is multiplied by the key once for each block that follows. -/
theorem residue_foldl (h : BitVec 128) (xs : List (BitVec 128)) (y z : BitVec 128) :
    residue K (xs.foldl (fun y x => mul (y ^^^ x) h) y) +
        residue K (xs.foldl (fun y x => mul (y ^^^ x) h) z) =
      (residue K y + residue K z) * residue K h ^ xs.length := by
  induction xs generalizing y z with
  | nil => simp
  | cons x xs ih =>
    rw [List.foldl_cons, List.foldl_cons, ih, residue_mul, residue_mul, residue_xor, residue_xor,
      List.length_cons]
    linear_combination (residue K x * residue K h ^ (xs.length + 1)) * two_eq_zero K

theorem residue_hashElements_xor {i : Nat} (inside : i < 128) (h : BitVec 128)
    (xs ys : List (BitVec 128)) (a : BitVec 128) :
    residue K (hashElements h (xs ++ (a ^^^ power i) :: ys)) +
        residue K (hashElements h (xs ++ a :: ys)) =
      AdjoinRoot.root (modulus K) ^ i * residue K h ^ (ys.length + 1) := by
  simp only [hashElements, List.foldl_append, List.foldl_cons]
  generalize xs.foldl (fun y x => mul (y ^^^ x) h) 0 = before
  rw [residue_foldl, residue_mul, residue_mul, residue_xor, residue_xor, residue_xor,
    residue_power K inside]
  linear_combination
    ((residue K before + residue K a) * residue K h ^ (ys.length + 1)) * two_eq_zero K

end Modulus

/-- Under a key that is not zero, messages that differ in one bit have different hashes. -/
theorem hashElements_xor_ne {h : BitVec 128} (nonzero : h ≠ 0) {i : Nat} (inside : i < 128)
    (xs ys : List (BitVec 128)) (a : BitVec 128) :
    hashElements h (xs ++ (a ^^^ power i) :: ys) ≠ hashElements h (xs ++ a :: ys) := by
  intro same
  have apart := residue_hashElements_xor (ZMod 2) inside h xs ys a
  rw [same, ← two_mul, two_eq_zero, zero_mul] at apart
  exact residue_pow_ne_zero (ZMod 2) nonzero (ys.length + 1)
    (((isUnit_root (ZMod 2)).pow i).mul_right_eq_zero.1 apart.symm)

end Bureau.Gcm
