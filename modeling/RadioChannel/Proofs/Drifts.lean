import RadioChannel.Proofs.Correlations
import RadioChannel.Proofs.Screens
import RadioChannel.Proofs.SubClusters
import Mathlib.Probability.Moments.Variance

/-!
# Drifting blockers stay where they may be

The azimuth of a blocker is the distribution function of its state, and uniform as long as the state has
unit variance. A drift keeps a part of the state and takes the rest from a fresh sample. The squares of
both factors add up to one, so that the variance stays what it was, however often the channel is renewed.
For that the kept part must not exceed one in modulus. Neither the decay with the way nor the one with
time makes it do so, and the quadratic fit is given up just where it would.
-/

namespace RadioChannel

open ExactScalars

namespace BlockageModel

/-! ## Samples -/

section Samples

/-- When something is drawn for each entry of a list, the draws can all be made before anything is done
with what was drawn. -/
theorem mapM_map_draw {μ : Type → Type} [Monad μ] [LawfulMonad μ] {α β γ : Type} (f : α → β → γ)
    (draw : μ β) (xs : List α) : (xs.mapM fun x => f x <$> draw) =
      List.zipWith f xs <$> (List.range xs.length).mapM fun _ => draw := by
  induction xs with
  | nil => simp
  | cons x xs ih =>
    rw [List.mapM_cons, ih, List.length_cons, List.range_succ_eq_map, List.mapM_cons, List.mapM_map]
    simp [Function.comp_def]

variable {R : Type} [Scalar R]

/-- Blockers that keep the part `r` of their states, each with a fresh sample. -/
def moved (r : R) (blockers : List (Blocker R)) (samples : List R) : List (Blocker R) :=
  blockers.zipWith (fun b x => { b with state := r * b.state + innovation r * x }) samples

/-- Drifting takes one normal sample for each blocker, in the order of the blockers, and nothing else. -/
theorem drift_eq_moved {m : BlockageModel R} {d : R} (h : m.drifts d = true)
    (blockers : List (Blocker R)) (t : R) (o2i : Bool) : m.drift blockers d t o2i =
      moved (m.retention d t o2i) blockers <$> Draw.times blockers.length Draw.normal := by
  have hrenew (r : R) : renew r = fun b =>
      (fun x => { b with state := r * b.state + innovation r * x }) <$> Draw.normal := rfl
  rw [drift_eq h, hrenew, mapM_map_draw]
  rfl

end Samples

/-! ## Factors -/

variable {m : BlockageModel ℝ} {o2i : Bool} {d t r : ℝ}

theorem innovation_eq (r : ℝ) : innovation r = √(max (1 - r * r) 0) := by
  rw [innovation, larger_eq, zero_eq, one_eq]
  rfl

/-- A part that may be kept of a state. It is not more than everything, and hardly less than nothing; the
sample gets just the part that is left over, and the squares of both add up to one. -/
structure Balanced (r : ℝ) : Prop where
  mem : r ∈ Set.Icc (-(2 / 1000)) 1
  rest_nonneg : 0 ≤ 1 - r * r
  innovation_eq_sqrt : innovation r = √(1 - r * r)
  sq_add_sq : r ^ 2 + innovation r ^ 2 = 1

theorem balanced_of_mem (h : r ∈ Set.Icc (-(2 / 1000)) 1) : Balanced r := by
  have hlower : -1 ≤ r := by linarith [h.1]
  have hrest : 0 ≤ 1 - r * r := by nlinarith [h.2]
  have hfresh : innovation r = √(1 - r * r) := by rw [innovation_eq, max_eq_left hrest]
  refine ⟨h, hrest, hfresh, ?_⟩
  rw [hfresh, Real.sq_sqrt hrest]
  ring

/-- States are correlated to within the constant of the fit, and at most fully. -/
theorem stateCorrelation_mem (h : r ∈ Set.Icc 0 1) :
    stateCorrelation r ∈ Set.Icc (-(2 / 1000)) 1 := by
  obtain ⟨hzero, hone⟩ := h
  have hfit : -(2 / 1000) ≤ fit r := by
    have hleast : fit 0 = -(2 / 1000) := by norm_num [fit]
    rw [← hleast]
    exact fit_mono hzero hone
  rw [stateCorrelation_eq]
  by_cases htaken : fit r < 1
  · rw [if_pos htaken]
    exact ⟨hfit, htaken.le⟩
  · rw [if_neg htaken]
    exact ⟨by linarith, hone⟩

/-- Whatever way was made in whatever time, a state keeps a part of it that is balanced. -/
theorem balanced_retention (m : BlockageModel ℝ) (o2i : Bool) (hd : 0 ≤ d) (ht : 0 ≤ t) :
    Balanced (m.retention d t o2i) := by
  have hpos : 0 ≤ m.azimuthCorrelation d t o2i := by
    rw [azimuthCorrelation_eq]
    exact (Real.exp_pos _).le
  exact balanced_of_mem (stateCorrelation_mem ⟨hpos, azimuthCorrelation_le_one hd ht⟩)

/-! ## Variance -/

open MeasureTheory ProbabilityTheory in
/-- A state of unit variance keeps it over all drifts, if each takes a sample of unit variance that is
independent of what the state was. -/
theorem variance_state {Ω : Type} [MeasurableSpace Ω] {μ : Measure Ω} (m : BlockageModel ℝ)
    {d t : ℕ → ℝ} {o2i : ℕ → Bool} (hd : ∀ k, 0 ≤ d k) (ht : ∀ k, 0 ≤ t k)
    {state sample : ℕ → Ω → ℝ} (hfirst : MemLp (state 0) 2 μ) (hsample : ∀ k, MemLp (sample k) 2 μ)
    (hindep : ∀ k, state k ⟂ᵢ[μ] sample k) (hunit : Var[state 0; μ] = 1)
    (hunits : ∀ k, Var[sample k; μ] = 1)
    (hdrift : ∀ k ω, state (k + 1) ω = m.retention (d k) (t k) (o2i k) * state k ω +
      innovation (m.retention (d k) (t k) (o2i k)) * sample k ω) :
    ∀ k, MemLp (state k) 2 μ ∧ Var[state k; μ] = 1 := by
  intro k
  induction k with
  | zero => exact ⟨hfirst, hunit⟩
  | succ k ih =>
    obtain ⟨hstate, hvariance⟩ := ih
    have hbalanced := m.balanced_retention (o2i k) (hd k) (ht k)
    set r := m.retention (d k) (t k) (o2i k)
    have hnext : state (k + 1) = (fun ω => r * state k ω) + fun ω => innovation r * sample k ω :=
      funext (hdrift k)
    have hkept : MemLp (fun ω => r * state k ω) 2 μ := hstate.const_mul r
    have hfresh : MemLp (fun ω => innovation r * sample k ω) 2 μ := (hsample k).const_mul _
    have hapart : (fun ω => r * state k ω) ⟂ᵢ[μ] fun ω => innovation r * sample k ω :=
      (hindep k).comp (measurable_const_mul r) (measurable_const_mul (innovation r))
    rw [hnext]
    refine ⟨hkept.add hfresh, ?_⟩
    rw [hapart.variance_add hkept hfresh, variance_const_mul, variance_const_mul, hvariance,
      hunits k, mul_one, mul_one]
    exact hbalanced.sq_add_sq

end BlockageModel

/-! ## Renewed channels -/

theorem Vec3.horizontalDistance_nonneg (a b : Vec3 ℝ) : 0 ≤ a.horizontalDistance b :=
  Real.sqrt_nonneg _

theorem Nanoseconds.toSeconds_nonneg (t : Nanoseconds) : 0 ≤ (t.toSeconds : ℝ) :=
  add_nonneg (Nat.cast_nonneg _) (div_nonneg (Nat.cast_nonneg _) (Nat.cast_nonneg _))

open BlockageModel

/-- The way that the terminal made since the last realization. -/
noncomputable def RealizationContext.way (c : RealizationContext ℝ) (previous : Realization ℝ) : ℝ :=
  previous.terminal.horizontalDistance c.geometry.terminal

/-- The time in seconds that passed since the last realization. -/
noncomputable def RealizationContext.elapsed (c : RealizationContext ℝ) (previous : Realization ℝ) : ℝ :=
  Nanoseconds.toSeconds (c.now - previous.generatedAt)

theorem RealizationContext.drawBlockers_eq_moved {c : RealizationContext ℝ} {m : BlockageModel ℝ}
    {previous : Realization ℝ} (hprevious : c.previous = some previous)
    (hsome : previous.blockers ≠ []) (hdrifts : m.drifts (c.way previous) = true) :
    c.drawBlockers m =
      moved (m.retention (c.way previous) (c.elapsed previous) c.condition.o2i) previous.blockers <$>
        Draw.times previous.blockers.length Draw.normal := by
  have hnonempty : previous.blockers.isEmpty = false := by simpa using hsome
  rw [← drift_eq_moved hdrifts, drawBlockers, hprevious]
  simp only [hnonempty]
  rfl

/-- Blockers that drift keep the variance of their states. Whatever the scenario, the speed of the blockers
and the place of the terminal, after whatever way and time, the part of its state that each keeps and the
part of the sample that each takes have squares that add up to one, and that without the difference of one
and the former's square being cut off at zero. One normal sample is drawn for each blocker, in the order of
the blockers. So it is when a channel is renewed, since neither way nor time are negative then: its blockers
are those of the last realization, moved on by such a part. -/
theorem drift_keeps_variance :
    (∀ (m : BlockageModel ℝ) (o2i : Bool) (d t : ℝ), 0 ≤ d → 0 ≤ t → m.drifts d = true →
      Balanced (m.retention d t o2i) ∧ ∀ blockers, m.drift blockers d t o2i =
        moved (m.retention d t o2i) blockers <$> Draw.times blockers.length Draw.normal) ∧
    ∀ (c : RealizationContext ℝ) (m : BlockageModel ℝ) (previous : Realization ℝ),
      c.blockage = some m → c.previous = some previous → previous.blockers ≠ [] →
      m.drifts (c.way previous) = true →
      ∃ r, r = m.retention (c.way previous) (c.elapsed previous) c.condition.o2i ∧ Balanced r ∧
        c.drawBlockers m =
          moved r previous.blockers <$> Draw.times previous.blockers.length Draw.normal ∧
        ∀ (renewed : Realization ℝ) (source source' : RandomSource ℝ),
          c.draw.run source = (.ok renewed, source') → ∃ s, renewed.blockers =
            moved r previous.blockers ((Draw.times previous.blockers.length Draw.normal).run s).1 := by
  refine ⟨?_, ?_⟩
  · intro m o2i d t hd ht hdrifts
    exact ⟨m.balanced_retention o2i hd ht, fun blockers => drift_eq_moved hdrifts blockers t o2i⟩
  · intro c m previous hmodel hprevious hsome hdrifts
    have hmoved := RealizationContext.drawBlockers_eq_moved hprevious hsome hdrifts
    have hway : 0 ≤ c.way previous := Vec3.horizontalDistance_nonneg _ _
    have helapsed : 0 ≤ c.elapsed previous := Nanoseconds.toSeconds_nonneg _
    refine ⟨_, rfl, m.balanced_retention c.condition.o2i hway helapsed, hmoved, ?_⟩
    intro renewed source source' hdraw
    obtain ⟨scale, profile, unwrapped, losses, hdrawn⟩ := RealizationContext.drawn_of_draw hdraw
    obtain ⟨s, hblockers⟩ := hdrawn.blockers_eq hmodel
    rw [hmoved] at hblockers
    exact ⟨s, hblockers.symm⟩

/-- Vehicles at walking pace keep a balanced part of their states over a metre and two seconds. So do the four
around a car in the country, whose channel is renewed after a second, and four samples are taken for them. -/
theorem drift_keeps_variance_country :
    Balanced (BlockageModel.retention ⟨.ruralMacro, 4, .portrait, 1⟩ 1 2 false) ∧
    ∃ (previous renewed : Realization ℝ) (t : RandomSource ℝ),
      RealizationContext.draw { RealizationContext.country with
        now := 1000000000, previous := some previous } (.ofSeed 2) = (.ok renewed, t) ∧
      previous.blockers.length = 4 ∧ ∃ r s, Balanced r ∧
        renewed.blockers = moved r previous.blockers ((Draw.times 4 Draw.normal).run s).1 := by
  obtain ⟨hdrift, hrenewed⟩ := drift_keeps_variance
  let m : BlockageModel ℝ := ⟨.ruralMacro, 4, .portrait, 1⟩
  have hmodel : RealizationContext.country.blockage = some m := by
    simp [RealizationContext.country, m]
  have hmoving : m.moving = true := by
    refine lt_iff.mpr ?_
    rw [decimal_eq]
    norm_num [m]
  have hdrifts : ∀ d, m.drifts d = true := fun d => drifts_iff.mpr (Or.inl hmoving)
  refine ⟨(hdrift m false 1 2 zero_le_one zero_le_two (hdrifts 1)).1, ?_⟩
  obtain ⟨previous, source, hfirst⟩ := RealizationContext.exists_draw
    (c := RealizationContext.country) (ParameterTable.supports_ruralMacro true 40) (.ofSeed 1)
  obtain ⟨scale, profile, unwrapped, losses, hdrawn⟩ := RealizationContext.drawn_of_draw hfirst
  obtain ⟨s, hblockers⟩ := hdrawn.blockers_eq hmodel
  have hcount : previous.blockers.length = 4 := by
    rw [← hblockers]
    exact RealizationContext.length_drawBlockers rfl s
  have hsome : previous.blockers ≠ [] := List.ne_nil_of_length_eq_add_one hcount
  let c : RealizationContext ℝ :=
    { RealizationContext.country with now := 1000000000, previous := some previous }
  obtain ⟨renewed, t, hdraw⟩ := RealizationContext.exists_draw (c := c)
    (ParameterTable.supports_ruralMacro true 40) (.ofSeed 2)
  obtain ⟨r, -, hbalanced, -, hmoved⟩ := hrenewed c m previous hmodel rfl hsome (hdrifts _)
  obtain ⟨s', hs'⟩ := hmoved renewed _ t hdraw
  rw [hcount] at hs'
  exact ⟨previous, renewed, t, hdraw, hcount, r, s', hbalanced, hs'⟩

end RadioChannel
