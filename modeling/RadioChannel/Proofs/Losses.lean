import RadioChannel.Proofs.ExactScalars
import RadioChannel.Proofs.SubClusters

/-!
# Losses of a realization

Blockage takes its toll cluster by cluster. The power that a cluster keeps in a realization is that of
its tap after the loss in the cluster's own direction, and the direct ray has the loss of the first
cluster.
-/

namespace RadioChannel

open ExactScalars

/-- The loss in decibels in a direction of arrival among the blockers of a realization; none where
links are not blocked. -/
noncomputable def RealizationContext.lossToward (c : RealizationContext ℝ) (m : Realization ℝ)
    (d : Directions ℝ) : ℝ :=
  match c.blockage with
  | some model => model.attenuation m.blockers c.frequency d.aoa d.zoa
  | none => 0

/-- Amplitudes are divided by the whole loss. -/
theorem Tensor.DirectRay.amplitude_eq (rx tx : Panel ℝ) (g : LinkGeometry ℝ) (k phase loss : ℝ) :
    (ofGeometry rx tx g k phase loss).amplitude = √(k / (k + 1)) / 10 ^ (loss / 10) := by
  rw [ofGeometry, one_eq]
  rfl

namespace Drawn

variable {c : RealizationContext ℝ} {m : Realization ℝ} {scale : LargeScale ℝ}
  {profile : Profile ℝ} {unwrapped : List (Directions ℝ)} {losses : List ℝ}

open RealizationContext

theorem losses_cases (h : Drawn c m scale profile unwrapped losses) :
    losses = (unwrapped.map Directions.wrap).map (c.lossToward m) ∨
      losses = [] ∧ ∀ d, c.lossToward m d = 0 := by
  obtain ⟨s, hs⟩ := h.losses_eq
  unfold drawBlockage at hs
  unfold lossToward
  cases hblockage : c.blockage with
  | none =>
    rw [hblockage] at hs
    exact Or.inr ⟨(congrArg Prod.snd hs).symm, fun _ => rfl⟩
  | some model =>
    rw [hblockage] at hs
    -- the blockers that are drawn for the losses are those that the realization keeps
    obtain ⟨hblockers, hlosses⟩ := Prod.mk.inj hs
    rw [← hblockers]
    exact Or.inl hlosses.symm

open Scalar in
/-- The direct ray has the loss of the first cluster. -/
theorem directLoss_eq (h : Drawn c m scale profile unwrapped losses) :
    ∃ d, m.directions[0]? = some d ∧ losses.head?.getD 0 = c.lossToward m d := by
  obtain ⟨d, hd, hwrapped⟩ := h.getElem?_wrapped (List.length_pos_iff.mpr h.powers_ne_nil)
  refine ⟨d, hd, ?_⟩
  rcases h.losses_cases with hlosses | ⟨hlosses, hnone⟩
  · rw [hlosses, List.head?_eq_getElem?, List.getElem?_map, hwrapped]
    rfl
  · rw [hnone, hlosses]
    exact zero_eq

/-- A cluster keeps the power of its tap after the loss in its own direction. -/
theorem power_eq (h : Drawn c m scale profile unwrapped losses) {n : ℕ} {p : ℝ}
    (hp : m.powers[n]? = some p) :
    ∃ tap d, profile.taps[n]? = some tap ∧ m.directions[n]? = some d ∧
      p = tap.power / 10 ^ (c.lossToward m d / 10) := by
  have hn : n < m.keptClusters := (List.getElem?_eq_some_iff.mp hp).1
  obtain ⟨d, hd, hwrapped⟩ := h.getElem?_wrapped hn
  have htap : n < profile.taps.length := by rwa [← h.length_powers]
  refine ⟨_, d, List.getElem?_eq_getElem htap, hd, ?_⟩
  have hpowers : (profile.taps.map Tap.power)[n]? = some profile.taps[n].power := by
    rw [List.getElem?_map, List.getElem?_eq_getElem htap]
    rfl
  rw [h.powers_eq] at hp
  rcases h.losses_cases with hlosses | ⟨hlosses, hnone⟩
  · have hloss : losses[n]? = some (c.lossToward m d) := by
      rw [hlosses, List.getElem?_map, hwrapped]
      rfl
    have hattenuate : attenuate (profile.taps.map Tap.power) losses =
        (profile.taps.map Tap.power).zipWith (fun p loss => p / Scalar.tenTo (loss / 10)) losses := by
      cases losses with
      | nil => cases hloss
      | cons loss losses => rfl
    rw [hattenuate, List.getElem?_zipWith, hpowers, hloss] at hp
    exact (Option.some.inj hp).symm
  · rw [hlosses, attenuate, hpowers] at hp
    rw [hnone, zero_div, Real.rpow_zero, div_one]
    exact (Option.some.inj hp).symm

end Drawn

end RadioChannel
