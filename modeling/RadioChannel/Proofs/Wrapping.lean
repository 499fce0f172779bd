import RadioChannel.Geometry.Wrap
import RadioChannel.Proofs.ExactScalars

/-!
# Wrapped angles

Over exact numbers both loops of the wrap stop by themselves before their fuel runs out. The first one
ends at a full turn or below and does not go below zero unless it started there, so what it leaves to
the second one is no more turns than the angle had. An azimuth that is wrapped has been moved by whole
turns; a zenith may have been reflected after that.
-/

namespace RadioChannel

open ExactScalars

theorem unwindDown_succ (fuel : ℕ) (angle : ℝ) : unwindDown (fuel + 1) angle =
    if 360 < angle then unwindDown fuel (angle - 360) else angle := by
  simp only [unwindDown, lt_iff, numeral_eq]

theorem unwindUp_succ (fuel : ℕ) (angle : ℝ) : unwindUp (fuel + 1) angle =
    if angle < 0 then unwindUp fuel (angle + 360) else angle := by
  simp only [unwindUp, lt_iff, numeral_eq, zero_eq]

/-- With enough fuel, taking off turns ends below a full one, and no lower than where it started unless
above zero. -/
theorem unwindDown_mem {fuel : ℕ} {angle : ℝ} (h : angle ≤ 360 * (fuel + 1)) :
    unwindDown fuel angle ∈ Set.Icc (min angle 0) 360 := by
  induction fuel generalizing angle with
  | zero => exact ⟨min_le_left _ _, by simpa [unwindDown] using h⟩
  | succ fuel ih =>
    rw [unwindDown_succ]
    push_cast at h
    split
    · next hturn =>
      have hless : angle - 360 ≤ 360 * (fuel + 1) := by linarith
      obtain ⟨hlow, hhigh⟩ := ih hless
      rw [min_eq_right (by linarith)] at hlow
      exact ⟨(min_le_right _ _).trans hlow, hhigh⟩
    · next hturn => exact ⟨min_le_left _ _, not_lt.mp hturn⟩

/-- With enough fuel, adding turns to an angle below a full one ends within the first turn. -/
theorem unwindUp_mem {fuel : ℕ} {angle : ℝ} (hlow : -(360 * fuel) ≤ angle) (hhigh : angle ≤ 360) :
    unwindUp fuel angle ∈ Set.Icc 0 360 := by
  induction fuel generalizing angle with
  | zero => exact ⟨by simpa [unwindUp] using hlow, hhigh⟩
  | succ fuel ih =>
    rw [unwindUp_succ]
    push_cast at hlow
    split
    · next hnegative => exact ih (by linarith) (by linarith)
    · next hnegative => exact ⟨not_lt.mp hnegative, hhigh⟩

theorem unwindDown_of_le (fuel : ℕ) {angle : ℝ} (h : angle ≤ 360) : unwindDown fuel angle = angle := by
  cases fuel with
  | zero => rfl
  | succ fuel => rw [unwindDown_succ, if_neg (not_lt.mpr h)]

theorem unwindUp_of_nonneg (fuel : ℕ) {angle : ℝ} (h : 0 ≤ angle) : unwindUp fuel angle = angle := by
  cases fuel with
  | zero => rfl
  | succ fuel => rw [unwindUp_succ, if_neg (not_lt.mpr h)]

theorem abs_lt_turnBound (angle : ℝ) : |angle| < turnBound angle := by
  have hbound : turnBound angle = ⌊|angle|⌋₊ + 2 := rfl
  have hfloor := Nat.lt_floor_add_one |angle|
  rw [hbound]
  push_cast
  linarith

/-- The fuel is enough to take off all turns. -/
theorem unwindDown_turnBound_mem (angle : ℝ) :
    unwindDown (turnBound angle) angle ∈ Set.Icc (min angle 0) 360 := by
  have hfuel := abs_lt_turnBound angle
  have hsize := abs_nonneg angle
  exact unwindDown_mem (by linarith [le_abs_self angle])

/-- Every azimuth is wrapped into the first turn. -/
theorem wrapAzimuth_mem (angle : ℝ) : wrapAzimuth angle ∈ Set.Icc 0 360 := by
  have hfuel := abs_lt_turnBound angle
  have hsize := abs_nonneg angle
  obtain ⟨hlow, hhigh⟩ := unwindDown_turnBound_mem angle
  refine unwindUp_mem (le_trans ?_ hlow) hhigh
  exact le_min (by linarith [neg_abs_le angle]) (by linarith)

/-- An azimuth of the first turn stays as it is. -/
theorem wrapAzimuth_of_mem {angle : ℝ} (h : angle ∈ Set.Icc 0 360) : wrapAzimuth angle = angle := by
  rw [wrapAzimuth, unwindDown_of_le _ h.2, unwindUp_of_nonneg _ h.1]

/-! ## Loops without fuel -/

/-- What is left of a value by steps that are taken for as long as a test holds. -/
inductive Repeats {α : Type} (test : α → Prop) (step : α → α) : α → α → Prop where
  /-- The test does not hold. -/
  | stop {x : α} (h : ¬ test x) : Repeats test step x x
  /-- The test holds, and there is a step before the rest of the loop. -/
  | again {x y : α} (h : test x) (hrest : Repeats test step (step x) y) : Repeats test step x y

namespace Repeats

variable {α : Type} {test : α → Prop} {step : α → α} {x y z : α}

/-- A loop ends in one way only. -/
theorem unique (h : Repeats test step x y) (h' : Repeats test step x z) : y = z := by
  induction h with
  | stop hstop =>
    cases h' with
    | stop _ => rfl
    | again htest _ => exact absurd htest hstop
  | again htest _ ih =>
    cases h' with
    | stop hstop => exact absurd htest hstop
    | again _ hrest => exact ih hrest

/-- What each step keeps is kept by the loop. -/
theorem keeps {P : α → Prop} (hstep : ∀ x, test x → P x → P (step x)) (h : Repeats test step x y)
    (hx : P x) : P y := by
  induction h with
  | stop _ => exact hx
  | again htest _ ih => exact ih (hstep _ htest hx)

end Repeats

/-- Fuel that lasts down to a full turn does not show. -/
theorem repeats_unwindDown {fuel : ℕ} {angle : ℝ} (h : unwindDown fuel angle ≤ 360) :
    Repeats (360 < ·) (· - 360) angle (unwindDown fuel angle) := by
  induction fuel generalizing angle with
  | zero => exact .stop (not_lt.mpr h)
  | succ fuel ih =>
    rw [unwindDown_succ] at h ⊢
    by_cases hturn : 360 < angle
    · rw [if_pos hturn] at h ⊢
      exact .again hturn (ih h)
    · rw [if_neg hturn]
      exact .stop hturn

/-- Fuel that lasts up to zero does not show. -/
theorem repeats_unwindUp {fuel : ℕ} {angle : ℝ} (h : 0 ≤ unwindUp fuel angle) :
    Repeats (· < 0) (· + 360) angle (unwindUp fuel angle) := by
  induction fuel generalizing angle with
  | zero => exact .stop (not_lt.mpr h)
  | succ fuel ih =>
    rw [unwindUp_succ] at h ⊢
    by_cases hnegative : angle < 0
    · rw [if_pos hnegative] at h ⊢
      exact .again hnegative (ih h)
    · rw [if_neg hnegative]
      exact .stop hnegative

/-- The value that both loops leave of an angle, one after the other: full turns are taken off while it
is above one, and then added while it is negative. -/
inductive UnwindsTo (angle : ℝ) : ℝ → Prop
  | unwind {below value : ℝ} (hdown : Repeats (360 < ·) (· - 360) angle below)
      (hup : Repeats (· < 0) (· + 360) below value) : UnwindsTo angle value

/-- From every angle both loops come to an end, at its azimuth. -/
theorem unwindsTo_iff {angle value : ℝ} : UnwindsTo angle value ↔ value = wrapAzimuth angle := by
  have hfirst : Repeats (360 < ·) (· - 360) angle (unwindDown (turnBound angle) angle) :=
    repeats_unwindDown (unwindDown_turnBound_mem angle).2
  have hsecond : Repeats (· < 0) (· + 360) (unwindDown (turnBound angle) angle) (wrapAzimuth angle) :=
    repeats_unwindUp (wrapAzimuth_mem angle).1
  constructor
  · rintro ⟨hdown, hup⟩
    obtain rfl := hdown.unique hfirst
    exact hup.unique hsecond
  · rintro rfl
    exact .unwind hfirst hsecond

/-! ## Whole turns -/

theorem add_turn_modEq (x : ℝ) : x + 360 ≡ x [PMOD 360] :=
  AddCommGroup.add_modEq_left.mpr AddCommGroup.self_modEq_zero

theorem sub_turn_modEq (x : ℝ) : x - 360 ≡ x [PMOD 360] :=
  AddCommGroup.sub_modEq_iff_modEq_add.mpr (add_turn_modEq x).symm

/-- An angle and its azimuth are whole turns apart. -/
theorem wrapAzimuth_modEq (angle : ℝ) : wrapAzimuth angle ≡ angle [PMOD 360] := by
  obtain @⟨below, _, hdown, hup⟩ := unwindsTo_iff.mpr (Eq.refl (wrapAzimuth angle))
  have hbelow : below ≡ angle [PMOD 360] := by
    refine hdown.keeps (P := (· ≡ angle [PMOD 360])) ?_ AddCommGroup.modEq_rfl
    intro x _ hx
    exact (sub_turn_modEq x).trans hx
  refine hup.keeps (P := (· ≡ angle [PMOD 360])) ?_ hbelow
  intro x _ hx
  exact (add_turn_modEq x).trans hx

/-! ## Zeniths -/

theorem wrapZenith_eq (angle : ℝ) : wrapZenith angle =
    if 180 < wrapAzimuth angle then 360 - wrapAzimuth angle else wrapAzimuth angle := by
  simp only [wrapZenith, lt_iff, numeral_eq]

/-- Every zenith is wrapped into the first half turn. -/
theorem wrapZenith_mem (angle : ℝ) : wrapZenith angle ∈ Set.Icc 0 180 := by
  obtain ⟨hlow, hhigh⟩ := wrapAzimuth_mem angle
  rw [wrapZenith_eq]
  by_cases hpast : 180 < wrapAzimuth angle
  · rw [if_pos hpast]
    exact ⟨by linarith, by linarith⟩
  · rw [if_neg hpast]
    exact ⟨hlow, not_lt.mp hpast⟩

/-- A zenith of the first half turn stays as it is. -/
theorem wrapZenith_of_mem {angle : ℝ} (h : angle ∈ Set.Icc 0 180) : wrapZenith angle = angle := by
  have hturn : angle ∈ Set.Icc 0 360 := ⟨h.1, h.2.trans (by norm_num)⟩
  rw [wrapZenith_eq, wrapAzimuth_of_mem hturn, if_neg (not_lt.mpr h.2)]

/-- A zenith is whole turns apart from the angle or from its reflection. -/
theorem wrapZenith_modEq (angle : ℝ) :
    wrapZenith angle ≡ angle [PMOD 360] ∨ wrapZenith angle ≡ -angle [PMOD 360] := by
  have hazimuth := wrapAzimuth_modEq angle
  rw [wrapZenith_eq]
  by_cases hpast : 180 < wrapAzimuth angle
  · right
    rw [if_pos hpast, sub_eq_neg_add]
    exact (add_turn_modEq _).trans (AddCommGroup.neg_modEq_neg.mpr hazimuth)
  · left
    rw [if_neg hpast]
    exact hazimuth

end RadioChannel
