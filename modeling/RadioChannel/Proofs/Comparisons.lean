import Mathlib
import RadioChannel.Proofs.ExactScalars
import RadioChannel.Scalar.Binary64

/-!
# Comparisons

The laws of comparison that the real numbers and floats have in common. The comparable numbers are
weakly ordered, which is what a search for the largest of them needs. Among floats that is every number
but NaN: each has its place in a lexicographic order of signs, exponents and significands.
-/

namespace RadioChannel

open Scalar

/-- Scalars whose comparable numbers are weakly ordered. -/
class Scalar.OrderLaws (R : Type) [Scalar R] : Prop where
  lt_asymm : ∀ x y : R, lt x y = true → lt y x = false
  lt_or_lt : ∀ x y z : R, (y == y) = true → lt x z = true → lt x y = true ∨ lt y z = true
  le_eq_not_lt : ∀ x y : R, (x == x) = true → (y == y) = true → le x y = !lt y x

instance : Scalar.OrderLaws ℝ where
  lt_asymm x y h := decide_eq_false (ExactScalars.lt_iff.mp h).le.not_gt
  lt_or_lt x y z _ h := by
    rw [ExactScalars.lt_iff] at h
    rw [ExactScalars.lt_iff, ExactScalars.lt_iff]
    exact (lt_or_ge x y).imp_right fun hyx => hyx.trans_lt h
  le_eq_not_lt x y _ _ := by
    rw [Bool.eq_iff_iff, ExactScalars.le_iff, Bool.not_eq_true', ← Bool.not_eq_true,
      ExactScalars.lt_iff, not_lt]

namespace Binary64

open Float.Model

/-- The sign as a factor. -/
def factor : UnpackedFloat.Sign → ℤ
  | .negative => -1
  | .positive => 1

/-- Where a float stands among the others: by its kind, its exponent and its significand, the negative
ones in reverse. -/
def place : UnpackedFloat → ℤ ×ₗ ℤ ×ₗ ℤ
  | .notANumber => toLex (0, toLex (0, 0))
  | .zero _ => toLex (0, toLex (0, 0))
  | .finite s m e _ => toLex (factor s, toLex (factor s * e, factor s * m))
  | .infinity s => toLex (2 * factor s, toLex (0, 0))

theorem compare_toLex {α β : Type} [LinearOrder α] [LinearOrder β] (a a' : α) (b b' : β) :
    compare (toLex (a, b)) (toLex (a', b')) = (compare a a').then (compare b b') := by
  rw [Prod.Lex.compare_def]
  rfl

theorem compare_natCast (m n : ℕ) : compare (m : ℤ) n = compare m n := by
  rw [← cmp_eq_compare, ← cmp_eq_compare]
  exact Nat.strictMono_cast.cmp_map_eq m n

theorem compare_neg_neg (a b : ℤ) : compare (-a) (-b) = (compare a b).swap := by
  rw [← cmp_eq_compare, ← cmp_eq_compare, cmp_swap]
  have hanti : StrictAnti fun x : ℤ => -x := fun _ _ => neg_lt_neg
  exact hanti.cmp_map_eq a b

theorem compare_eq_place {a b : UnpackedFloat} (ha : a ≠ .notANumber) (hb : b ≠ .notANumber) :
    a.compare b = some (compare (place a) (place b)) := by
  cases a with
  | notANumber => exact absurd rfl ha
  | infinity s =>
    cases b with
    | notANumber => exact absurd rfl hb
    | infinity s' => cases s <;> cases s' <;> rfl
    | zero s' => cases s <;> rfl
    | finite s' m' e' hm' => cases s <;> cases s' <;> rfl
  | zero s =>
    cases b with
    | notANumber => exact absurd rfl hb
    | infinity s' => cases s' <;> rfl
    | zero s' => rfl
    | finite s' m' e' hm' => cases s' <;> rfl
  | finite s m e hm =>
    cases b with
    | notANumber => exact absurd rfl hb
    | infinity s' => cases s <;> cases s' <;> rfl
    | zero s' => cases s <;> rfl
    | finite s' m' e' hm' =>
      -- of two finite numbers of one sign, the exponents decide before the significands do
      cases s with
      | negative =>
        cases s' with
        | negative =>
          simp only [place, factor, neg_one_mul, compare_toLex, compare_neg_neg, compare_natCast,
            ← Ordering.swap_then]
          rfl
        | positive => rfl
      | positive =>
        cases s' with
        | negative => rfl
        | positive =>
          simp only [place, factor, one_mul, compare_toLex, compare_natCast]
          rfl

theorem compare_notANumber (a : UnpackedFloat) : a.compare .notANumber = none := by
  cases a <;> rfl

theorem comparable_iff {x : Float} : (x == x) = true ↔ x.toModel.unpack ≠ .notANumber := by
  have hbeq : (x == x) = x.toModel.unpack.beq x.toModel.unpack := rfl
  rw [hbeq, UnpackedFloat.beq_iff_ne_notANumber_and_eq]
  exact ⟨fun h => h.1, fun h => ⟨h, h, Or.inl rfl⟩⟩

theorem lt_iff_place {x y : Float} : lt x y = true ↔ (x == x) = true ∧ (y == y) = true ∧
    place x.toModel.unpack < place y.toModel.unpack := by
  have hlt : lt x y = true ↔ x.toModel.unpack.compare y.toModel.unpack = some .lt :=
    decide_eq_true_iff.trans (decide_eq_true_iff.trans beq_iff_eq)
  rw [hlt, comparable_iff, comparable_iff]
  by_cases hx : x.toModel.unpack = .notANumber
  · rw [hx]
    exact ⟨nofun, fun h => absurd rfl h.1⟩
  by_cases hy : y.toModel.unpack = .notANumber
  · rw [hy, compare_notANumber]
    exact ⟨nofun, fun h => absurd rfl h.2.1⟩
  rw [compare_eq_place hx hy, Option.some.injEq, compare_lt_iff_lt]
  exact ⟨fun h => ⟨hx, hy, h⟩, fun h => h.2.2⟩

theorem le_iff_place {x y : Float} (hx : (x == x) = true) (hy : (y == y) = true) :
    le x y = true ↔ place x.toModel.unpack ≤ place y.toModel.unpack := by
  have hle : le x y = true ↔
      (x.toModel.unpack.compare y.toModel.unpack).any Ordering.isLE = true :=
    decide_eq_true_iff.trans decide_eq_true_iff
  rw [hle, compare_eq_place (comparable_iff.mp hx) (comparable_iff.mp hy), Option.any_some,
    Ordering.isLE_iff_ne_gt]
  exact compare_le_iff_le

end Binary64

open Binary64 in
instance : Scalar.OrderLaws Float where
  lt_asymm x y h := by
    obtain ⟨-, -, hplace⟩ := lt_iff_place.mp h
    rw [← Bool.not_eq_true, lt_iff_place]
    exact fun h' => hplace.asymm h'.2.2
  lt_or_lt x y z hy h := by
    obtain ⟨hx, hz, hplace⟩ := lt_iff_place.mp h
    rcases lt_or_ge (place x.toModel.unpack) (place y.toModel.unpack) with hxy | hyx
    · exact Or.inl (lt_iff_place.mpr ⟨hx, hy, hxy⟩)
    · exact Or.inr (lt_iff_place.mpr ⟨hy, hz, hyx.trans_lt hplace⟩)
  le_eq_not_lt x y hx hy := by
    rw [Bool.eq_iff_iff, le_iff_place hx hy, Bool.not_eq_true', ← Bool.not_eq_true, lt_iff_place,
      ← not_lt]
    exact ⟨fun h h' => h h'.2.2, fun h h' => h ⟨hy, hx, h'⟩⟩

end RadioChannel
