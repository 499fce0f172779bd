import Mathlib
import RadioChannel.Geometry.Vec3
import RadioChannel.Proofs.ExactScalars
import RadioChannel.Scalar.Binary64

/-!
# Zeros

The laws of zero that the real numbers and floats have in common. A float may compare equal to zero in
two ways, and neither is told apart by what is left of it in a product or a quotient. Apart from the two
zeros, floats that compare equal are the same.
-/

namespace RadioChannel

open Scalar

/-- Scalars whose zeros stay zeros where they are multiplied by a number or divided by a positive one. -/
class Scalar.ZeroLaws (R : Type) [Scalar R] : Prop where
  zero_beq : ((0 : R) == 0) = true
  zero_mul_zero : (0 : R) * 0 = 0
  zero_add_zero : (0 : R) + 0 = 0
  null_div : ∀ x y : R, (x == 0) = true → lt 0 y = true → (x / y == 0) = true
  finite_mul_zero : ∀ x : R, isFinite x = true → (x * 0 == 0) = true

instance : Scalar.ZeroLaws ℝ where
  zero_beq := ExactScalars.beq_iff.mpr rfl
  zero_mul_zero := by
    rw [ExactScalars.zero_eq]
    exact mul_zero _
  zero_add_zero := by
    rw [ExactScalars.zero_eq]
    exact zero_add _
  null_div x y hx _ := by
    rw [ExactScalars.beq_iff, ExactScalars.zero_eq] at hx ⊢
    rw [hx]
    exact zero_div y
  finite_mul_zero x _ := by
    rw [ExactScalars.beq_iff, ExactScalars.zero_eq]
    exact mul_zero x

namespace Binary64

open Float.Model

theorem eq_of_beq {x y : Float} (hx : x ≠ -0.0) (hy : y ≠ -0.0) (h : (x == y) = true) : x = y := by
  have hzero : (0.0 : Float) = 0 := rfl
  rw [hzero] at hx hy
  obtain ⟨-, -, heq | ⟨-, hnegative⟩ | ⟨hnegative, -⟩⟩ := Float.beq_iff_ne_nan_and_eq.mp h
  · exact heq
  · exact absurd hnegative hy
  · exact absurd hnegative hx

/-- Either zero compares equal to zero. -/
theorem null_iff {x : Float} : (x == 0) = true ↔ ∃ s, x.toModel.unpack = .zero s := by
  have hzero : (0 : Float).toModel.unpack = .zero .positive := by rfl
  have hbeq : (x == 0) = x.toModel.unpack.beq (0 : Float).toModel.unpack := rfl
  rw [hbeq, hzero, UnpackedFloat.beq_iff_ne_notANumber_and_eq]
  constructor
  · rintro ⟨-, -, hx | ⟨hx, -⟩ | ⟨hx, -⟩⟩ <;> exact ⟨_, hx⟩
  · rintro ⟨s, hx⟩
    rw [hx]
    cases s <;> simp

/-- A zero divided by a positive number. -/
theorem null_div {x y : Float} (hx : (x == 0) = true) (hy : 0 < y) : (x / y == 0) = true := by
  obtain ⟨s, hs⟩ := null_iff.mp hx
  have hpos : (UnpackedFloat.zero .positive).compare y.toModel.unpack = some .lt := by
    have hlt : (0 : Float).toModel < y.toModel := of_decide_eq_true hy
    have hcompare : ((UnpackedFloat.zero .positive).compare y.toModel.unpack == some .lt) = true := hlt
    exact beq_iff_eq.mp hcompare
  have hquotient : (x / y).toModel.unpack = (Float.Model.pack (UnpackedFloat.div Format.binary64
      x.toModel.unpack y.toModel.unpack)).unpack := rfl
  rw [null_iff, hquotient, hs]
  cases hy' : y.toModel.unpack with
  | notANumber =>
    rw [hy'] at hpos
    cases hpos
  | zero s' =>
    rw [hy'] at hpos
    cases hpos
  | infinity s' => exact ⟨s / s', UnpackedFloat.unpack_packedZero⟩
  | finite s' m e hm => exact ⟨s / s', UnpackedFloat.unpack_packedZero⟩

theorem finite_mul_zero {x : Float} (hx : x.isFinite = true) : (x * 0 == 0) = true := by
  have hfinite : x.toModel.unpack.isFinite = true := hx
  have hproduct : (x * 0).toModel.unpack = (Float.Model.pack (UnpackedFloat.mul Format.binary64
      x.toModel.unpack (.zero .positive))).unpack := rfl
  rw [null_iff, hproduct]
  cases hx' : x.toModel.unpack with
  | notANumber =>
    rw [hx'] at hfinite
    cases hfinite
  | infinity s =>
    rw [hx'] at hfinite
    cases hfinite
  | zero s => exact ⟨s * UnpackedFloat.Sign.positive, UnpackedFloat.unpack_packedZero⟩
  | finite s m e hm => exact ⟨s * UnpackedFloat.Sign.positive, UnpackedFloat.unpack_packedZero⟩

end Binary64

instance : Scalar.ZeroLaws Float where
  zero_beq := by decide
  zero_mul_zero := by decide
  zero_add_zero := by decide
  null_div x y hx hy := Binary64.null_div hx (of_decide_eq_true hy)
  finite_mul_zero x hx := Binary64.finite_mul_zero hx

namespace Vec3

/-- A place without negative zeros. -/
def Plain (p : Vec3 Float) : Prop := p.x ≠ -0.0 ∧ p.y ≠ -0.0 ∧ p.z ≠ -0.0

/-- Places that compare equal are one. -/
theorem Plain.eq_of_beq {p q : Vec3 Float} (hp : p.Plain) (hq : q.Plain) (h : (p == q) = true) :
    p = q := by
  have hcoords : (p.x == q.x && p.y == q.y && p.z == q.z) = true := h
  simp only [Bool.and_eq_true] at hcoords
  obtain ⟨⟨hx, hy⟩, hz⟩ := hcoords
  obtain ⟨px, py, pz⟩ := p
  obtain ⟨qx, qy, qz⟩ := q
  rw [Vec3.mk.injEq]
  exact ⟨Binary64.eq_of_beq hp.1 hq.1 hx, Binary64.eq_of_beq hp.2.1 hq.2.1 hy,
    Binary64.eq_of_beq hp.2.2 hq.2.2 hz⟩

end Vec3

end RadioChannel
