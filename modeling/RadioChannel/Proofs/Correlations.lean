import RadioChannel.Blockage.Model
import RadioChannel.Proofs.ExactScalars

/-!
# Blockers are forgotten with the way and with time

The azimuths of blockers are correlated less, the farther the terminal moved and the more time passed.
What a blocker's state keeps of the old one is a quadratic fit of that correlation, which falls with it.
But the fit exceeds one near full correlation and is not taken there. Where it comes into use it lies
above the correlation that it replaces: across that border, and only there, a longer way can leave a
blocker a little more of its state.
-/

namespace RadioChannel

open ExactScalars

namespace BlockageModel

theorem decimal_eq (m e : ℕ) :
    @OfScientific.ofScientific ℝ Scalar.instOfScientific m true e = m / 10 ^ e := by
  have hpower : @OfScientific.ofScientific ℝ Scalar.instOfScientific m true e =
      m * (10 : ℝ) ^ (-(e : ℤ)) := rfl
  rw [hpower, zpow_neg, zpow_natCast, div_eq_mul_inv]

/-! ## Azimuths -/

variable {m : BlockageModel ℝ} {o2i : Bool} {d₁ d₂ t₁ t₂ : ℝ}

theorem correlationDistance_pos (m : BlockageModel ℝ) (o2i : Bool) :
    0 < m.correlationDistance o2i := by
  unfold correlationDistance
  split
  · rw [numeral_eq]
    norm_num
  · rw [numeral_eq]
    norm_num

theorem speed_pos (h : m.moving = true) : 0 < m.speed := by
  have hspeed : @OfScientific.ofScientific ℝ Scalar.instOfScientific 1 true 6 < m.speed := lt_iff.mp h
  rw [decimal_eq] at hspeed
  have hmargin : (0 : ℝ) < (1 : ℕ) / 10 ^ 6 := by norm_num
  exact hmargin.trans hspeed

/-- The correlation decays with the way of the terminal, and with time where blockers move. -/
theorem azimuthCorrelation_eq (m : BlockageModel ℝ) (d t : ℝ) (o2i : Bool) :
    m.azimuthCorrelation d t o2i = Real.exp (-(d / m.correlationDistance o2i +
      if m.moving then t / (m.correlationDistance o2i / m.speed) else 0)) := by
  unfold azimuthCorrelation
  split
  · rfl
  · rw [add_zero]
    rfl

theorem azimuthCorrelation_anti (hd : d₁ ≤ d₂) (ht : t₁ ≤ t₂) :
    m.azimuthCorrelation d₂ t₂ o2i ≤ m.azimuthCorrelation d₁ t₁ o2i := by
  have hdistance := m.correlationDistance_pos o2i
  have hway : d₁ / m.correlationDistance o2i ≤ d₂ / m.correlationDistance o2i :=
    div_le_div_of_nonneg_right hd hdistance.le
  rw [azimuthCorrelation_eq, azimuthCorrelation_eq, Real.exp_le_exp, neg_le_neg_iff]
  by_cases hmoving : m.moving = true
  · have hspeed := speed_pos hmoving
    have htime : t₁ / (m.correlationDistance o2i / m.speed) ≤
        t₂ / (m.correlationDistance o2i / m.speed) :=
      div_le_div_of_nonneg_right ht (div_pos hdistance hspeed).le
    rw [if_pos hmoving, if_pos hmoving]
    exact add_le_add hway htime
  · rw [if_neg hmoving, if_neg hmoving, add_zero, add_zero]
    exact hway

theorem azimuthCorrelation_zero (m : BlockageModel ℝ) (o2i : Bool) :
    m.azimuthCorrelation 0 0 o2i = 1 := by
  simp [azimuthCorrelation_eq]

theorem azimuthCorrelation_le_one (hd : 0 ≤ d₁) (ht : 0 ≤ t₁) :
    m.azimuthCorrelation d₁ t₁ o2i ≤ 1 := by
  rw [← m.azimuthCorrelation_zero o2i]
  exact azimuthCorrelation_anti hd ht

/-- The quadratic fit: how states are to be correlated, that azimuths have the correlation `r`. -/
noncomputable def fit (r : ℝ) : ℝ := 1.074 * r - 0.069 * r ^ 2 - 0.002

theorem stateCorrelation_eq (r : ℝ) : stateCorrelation r = if fit r < 1 then fit r else r := by
  have hfit : -@OfScientific.ofScientific ℝ Scalar.instOfScientific 69 true 3 * r * r +
      @OfScientific.ofScientific ℝ Scalar.instOfScientific 1074 true 3 * r -
      @OfScientific.ofScientific ℝ Scalar.instOfScientific 2 true 3 = fit r := by
    rw [decimal_eq, decimal_eq, decimal_eq, fit]
    push_cast
    ring
  have hstate : stateCorrelation r = if Scalar.lt (fit r) (@OfNat.ofNat ℝ 1 (Scalar.instOfNat 1)) then
      fit r else r := by
    rw [← hfit]
    rfl
  rw [hstate, one_eq]
  simp only [lt_iff]

/-- Up to full correlation the fit grows with the correlation. -/
theorem fit_mono {r₁ r₂ : ℝ} (h : r₂ ≤ r₁) (hone : r₁ ≤ 1) : fit r₂ ≤ fit r₁ := by
  have hslope : 0 ≤ (r₁ - r₂) * (1074 - 69 * (r₁ + r₂)) :=
    mul_nonneg (by linarith) (by linarith)
  have hdifference : fit r₁ - fit r₂ = (r₁ - r₂) * (1074 - 69 * (r₁ + r₂)) / 1000 := by
    rw [fit, fit]
    ring
  have hnonneg : 0 ≤ fit r₁ - fit r₂ := by
    rw [hdifference]
    exact div_nonneg hslope (by norm_num)
  linarith

/-- A blocker that keeps the part `r` of its state and takes the rest from a new sample. -/
def renew {R : Type} [Scalar R] (r : R) (b : Blocker R) : Draw R (Blocker R) := do
  return { b with state := r * b.state + innovation r * (← Draw.normal) }

theorem drift_eq {R : Type} [Scalar R] {m : BlockageModel R} {d : R} (h : m.drifts d = true)
    (blockers : List (Blocker R)) (t : R) (o2i : Bool) :
    m.drift blockers d t o2i = blockers.mapM (renew (m.retention d t o2i)) := if_pos h

theorem drifts_iff {d : ℝ} : m.drifts d = true ↔ m.moving = true ∨ 1 / 1000000 < d := by
  have hlimit : @OfScientific.ofScientific ℝ Scalar.instOfScientific 1 true 6 = 1 / 1000000 := by
    rw [decimal_eq]
    norm_num
  have hrest : Scalar.le d (@OfScientific.ofScientific ℝ Scalar.instOfScientific 1 true 6) = true ↔
      d ≤ 1 / 1000000 := by rw [hlimit, le_iff]
  rw [drifts, Bool.not_eq_true', Bool.and_eq_false_iff, ← Bool.not_eq_true, hrest, not_le,
    Bool.not_eq_false', or_comm]

end BlockageModel

end RadioChannel
