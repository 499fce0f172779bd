import RadioChannel.Proofs.Profiles
import RadioChannel.Settings
import Mathlib.Analysis.SpecialFunctions.Trigonometric.Inverse
import Mathlib.Analysis.SpecialFunctions.Trigonometric.Arctan
import Mathlib.Analysis.SpecialFunctions.Pow.Real
import Mathlib.Analysis.SpecialFunctions.Log.Base
import Mathlib.Analysis.SpecialFunctions.Complex.Arg

/-!
# Exact scalars

The real numbers as scalars: every operation is the one of analysis, every number is finite and
comparable.
-/

namespace RadioChannel

noncomputable section

/-- The nearest natural number, halves to the even neighbour. -/
def nearestEven (x : ℝ) : ℕ :=
  if x - ⌊x⌋₊ < 1 / 2 ∨ (x - ⌊x⌋₊ = 1 / 2 ∧ ⌊x⌋₊ % 2 = 0) then ⌊x⌋₊ else ⌊x⌋₊ + 1

instance : Scalar ℝ where
  toAdd := Real.instAdd
  toSub := Real.instSub
  toMul := Real.instMul
  toDiv := inferInstance
  toNeg := Real.instNeg
  beq x y := decide (x = y)
  ofNat n := n
  ofDecimal m negative e := m * 10 ^ (if negative then -(e : ℤ) else e)
  pi := Real.pi
  sqrt := Real.sqrt
  exp := Real.exp
  ln := Real.log
  log10 := Real.logb 10
  pow x y := x ^ y
  sin := Real.sin
  cos := Real.cos
  acos := Real.arccos
  atan := Real.arctan
  atan2 y x := Complex.arg ⟨x, y⟩
  absolute x := |x|
  lt x y := decide (x < y)
  le x y := decide (x ≤ y)
  orderedLe x y := decide (x ≤ y)
  isFinite _ := true
  wholeUnits x := ⌊x⌋₊
  nearestNat x := ⌊x + 1 / 2⌋₊
  nanoseconds? x := if x < 2 ^ 64 then some (nearestEven (x * 10 ^ 9)) else none

/-- Real numbers are divided as they are in analysis, and not by way of being scalars. -/
instance divReal : Div ℝ := Real.instDivInvMonoid.toDiv

end

namespace ExactScalars

@[simp] theorem zero_eq : @OfNat.ofNat ℝ 0 (Scalar.instOfNat 0) = 0 := Nat.cast_zero

@[simp] theorem one_eq : @OfNat.ofNat ℝ 1 (Scalar.instOfNat 1) = 1 := Nat.cast_one

@[simp] theorem numeral_eq (n : ℕ) [n.AtLeastTwo] :
    @OfNat.ofNat ℝ n (Scalar.instOfNat n) = OfNat.ofNat n := rfl

theorem beq_iff {x y : ℝ} : (x == y) = true ↔ x = y := decide_eq_true_iff

theorem numeral_beq_zero (n : ℕ) [n.AtLeastTwo] :
    (@OfNat.ofNat ℝ n (Scalar.instOfNat n) == @OfNat.ofNat ℝ 0 (Scalar.instOfNat 0)) = false := by
  rw [zero_eq, numeral_eq]
  exact decide_eq_false (OfNat.ofNat_ne_zero n)

theorem zero_beq_numeral (n : ℕ) [n.AtLeastTwo] :
    (@OfNat.ofNat ℝ 0 (Scalar.instOfNat 0) == @OfNat.ofNat ℝ n (Scalar.instOfNat n)) = false := by
  rw [zero_eq, numeral_eq]
  exact decide_eq_false (OfNat.zero_ne_ofNat n)

theorem lt_iff {x y : ℝ} : Scalar.lt x y = true ↔ x < y := decide_eq_true_iff

theorem le_iff {x y : ℝ} : Scalar.le x y = true ↔ x ≤ y := decide_eq_true_iff

theorem absolute_eq (x : ℝ) : Scalar.absolute x = |x| := rfl

theorem turn_eq : (Scalar.turn : ℝ) = 2 * Real.pi := rfl

theorem larger_eq (x y : ℝ) : Scalar.larger x y = max x y := by
  unfold Scalar.larger
  split
  · next h => exact (max_eq_right (lt_iff.mp h).le).symm
  · next h =>
    rw [if_pos (beq_iff.mpr rfl)]
    exact (max_eq_left (not_lt.mp fun hlt => h (lt_iff.mpr hlt))).symm

theorem smaller_eq (x y : ℝ) : Scalar.smaller x y = min x y := by
  unfold Scalar.smaller
  split
  · next h => exact (min_eq_right (lt_iff.mp h).le).symm
  · next h =>
    rw [if_pos (beq_iff.mpr rfl)]
    exact (min_eq_left (not_lt.mp fun hlt => h (lt_iff.mpr hlt))).symm

theorem tenTo_eq (x : ℝ) : Scalar.tenTo x = 10 ^ x := rfl

theorem sum_eq (xs : List ℝ) : Scalar.sum xs = xs.sum := by
  suffices hfold : ∀ x : ℝ, xs.foldl (· + ·) x = x + xs.sum by
    rw [Scalar.sum, hfold, zero_eq, zero_add]
  induction xs with
  | nil => simp
  | cons y xs ih =>
    intro x
    rw [List.foldl_cons, ih, List.sum_cons, add_assoc]

theorem periodOfMilliseconds_zero : periodOfMilliseconds (0 : ℝ) = .ok 0 := by
  have hseconds : Scalar.larger (0 : ℝ) (@OfNat.ofNat ℝ 0 (Scalar.instOfNat 0)) /
      @OfNat.ofNat ℝ 1000 (Scalar.instOfNat 1000) = 0 := by
    simp [Scalar.larger]
  have hheld : Scalar.nanoseconds? (0 : ℝ) = some 0 := by
    change (if (0 : ℝ) < 2 ^ 64 then some (nearestEven (0 * 10 ^ 9)) else none) = some 0
    rw [if_pos (by positivity)]
    simp [nearestEven]
  unfold periodOfMilliseconds Nanoseconds.ofMilliseconds?
  rw [hseconds, hheld]

theorem threshold_eq : (pruneThreshold : ℝ) = (32 / 10000 : ℚ) := by
  have h : (pruneThreshold : ℝ) = (32 : ℕ) * (10 : ℝ) ^ (-(4 : ℕ) : ℤ) := rfl
  rw [h]
  norm_num

end ExactScalars

open ExactScalars in
/-- Real numbers without sign are those that are not negative. -/
instance : SignedScalar ℝ where
  unsigned x := 0 ≤ x
  unsigned_ofNat n := Nat.cast_nonneg n
  unsigned_exp x := (Real.exp_pos x).le
  unsigned_pow hx y := Real.rpow_nonneg hx y
  unsigned_add hx hy := add_nonneg hx hy
  unsigned_mul hx hy := mul_nonneg hx hy
  unsigned_div hx hy := div_nonneg hx hy
  zero_self := beq_iff.mpr rfl
  zero_le {x} hx _ := le_iff.mpr (by simpa using hx)
  le_trans hxy hyz := le_iff.mpr ((le_iff.mp hxy).trans (le_iff.mp hyz))
  fraction_le {x y} _ hone hy _ := by
    have hx : x ≤ 1 := by simpa using le_iff.mp hone
    exact le_iff.mpr (mul_le_of_le_one_left hy hx)
  threshold_pos := by
    rw [lt_iff, threshold_eq, zero_eq]
    norm_num
  threshold_le_one := by
    rw [le_iff, threshold_eq, one_eq]
    norm_num

end RadioChannel
