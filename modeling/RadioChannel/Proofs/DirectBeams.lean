import RadioChannel.Beamforming.Steering
import RadioChannel.Proofs.FlatGains
import RadioChannel.Proofs.MatchedDesks
import RadioChannel.Proofs.RaySums

/-!
# Steered beams collect the direct ray

A beam that is steered from one end of a link to the other turns every element back by the way that the
direct ray takes to it, so that all parts of the ray add up. Between two such beams the ray has the gain
of all pairs of elements, and no other weights of unit norm collect more of it.
-/

namespace RadioChannel

open ExactScalars

/-! ## Weights of unit norm -/

theorem Phasor.norm_eq (row : List (Phasor ℝ)) :
    Phasor.norm row = √(∑ i ∈ Finset.range row.length, ‖coord row i‖ ^ 2) := by
  have hsum : Phasor.norm row = √(Scalar.sum (row.map Phasor.normSq)) := rfl
  rw [hsum, ← sum_normSq_coord]
  simp only [Complex.sq_norm]

/-- Weights of unit norm make of numbers on the unit circle no more than the root of how many there
are. -/
theorem norm_sum_le_of_unit {row : List (Phasor ℝ)} (hrow : Phasor.norm row = 1) {e : ℕ → ℂ}
    (he : ∀ i, ‖e i‖ = 1) : ‖∑ i ∈ Finset.range row.length, coord row i * e i‖ ≤ √row.length := by
  have hcircle : √(∑ i ∈ Finset.range row.length, ‖e i‖ ^ 2) = √row.length := by
    simp [he]
  calc ‖∑ i ∈ Finset.range row.length, coord row i * e i‖
    _ ≤ ∑ i ∈ Finset.range row.length, ‖coord row i * e i‖ := norm_sum_le _ _
    _ = ∑ i ∈ Finset.range row.length, ‖coord row i‖ * ‖e i‖ := by simp only [norm_mul]
    _ ≤ √(∑ i ∈ Finset.range row.length, ‖coord row i‖ ^ 2) *
          √(∑ i ∈ Finset.range row.length, ‖e i‖ ^ 2) := Real.sum_mul_le_sqrt_mul_sqrt _ _ _
    _ = √row.length := by rw [← Phasor.norm_eq, hrow, one_mul, hcircle]

/-! ## Steered beams -/

namespace Panel

variable {p : Panel ℝ} {b : Bearing ℝ} {i : ℕ}

/-- Where an element stands. -/
noncomputable def place (p : Panel ℝ) (i : ℕ) : Vec3 ℝ :=
  p.locationAt (i % p.size.columns) (i / p.size.columns)

theorem getElem?_elementLocations (hi : i < p.elementCount) :
    p.elementLocations[i]? = some (p.place i) := by
  rw [elementLocations, List.getElem?_map, List.getElem?_range hi]
  rfl

/-- How the wave along a bearing is turned on its way to an element. -/
noncomputable def ramp (p : Panel ℝ) (b : Bearing ℝ) (i : ℕ) : ℂ :=
  Complex.exp ((phaseRamp b.zenith b.azimuth (p.place i) : ℝ) * Complex.I)

theorem norm_ramp (p : Panel ℝ) (b : Bearing ℝ) (i : ℕ) : ‖p.ramp b i‖ = 1 :=
  Complex.norm_exp_ofReal_mul_I _

theorem length_steeringWeights (p : Panel ℝ) (b : Bearing ℝ) :
    (p.steeringWeights b).length = p.elementCount := by
  simp [steeringWeights]

theorem coord_steeringWeights (hi : i < p.elementCount) :
    coord (p.steeringWeights b) i = ((√p.elementCount)⁻¹ : ℝ) * (p.ramp b i)⁻¹ := by
  have hmodulus : @OfNat.ofNat ℝ 1 (Scalar.instOfNat 1) / Scalar.sqrt (Scalar.ofNat p.elementCount) =
      (√p.elementCount)⁻¹ := by
    rw [one_eq, one_div]
    rfl
  rw [coord, steeringWeights, List.getElem?_map, getElem?_elementLocations hi, Option.map_some,
    Option.getD_some, Phasor.toComplex_polar, hmodulus, ramp, ← Complex.exp_neg]
  push_cast
  rw [neg_mul]

/-- Every element adds the same to what a steered beam makes of its wave. -/
theorem coord_steeringWeights_mul_ramp (hi : i < p.elementCount) :
    coord (p.steeringWeights b) i * p.ramp b i = ((√p.elementCount)⁻¹ : ℝ) := by
  have hramp : p.ramp b i ≠ 0 := Complex.exp_ne_zero _
  rw [coord_steeringWeights hi, mul_assoc, inv_mul_cancel₀ hramp, mul_one]

theorem sum_steeringWeights_mul_ramp (p : Panel ℝ) (b : Bearing ℝ) :
    ∑ i ∈ Finset.range p.elementCount, coord (p.steeringWeights b) i * p.ramp b i =
      (√p.elementCount : ℝ) := by
  have helement : ∀ i ∈ Finset.range p.elementCount,
      coord (p.steeringWeights b) i * p.ramp b i = ((√p.elementCount)⁻¹ : ℝ) := by
    intro i hi
    exact coord_steeringWeights_mul_ramp (Finset.mem_range.mp hi)
  rw [Finset.sum_congr rfl helement, Finset.sum_const, Finset.card_range, nsmul_eq_mul,
    ← Complex.ofReal_natCast, ← Complex.ofReal_mul, ← div_eq_mul_inv, Real.div_sqrt]

theorem norm_steeringWeights (hp : 0 < p.elementCount) (b : Bearing ℝ) :
    Phasor.norm (p.steeringWeights b) = 1 := by
  have hcount : (0 : ℝ) < p.elementCount := Nat.cast_pos.mpr hp
  have hmodulus : ∀ i ∈ Finset.range p.elementCount,
      ‖coord (p.steeringWeights b) i‖ ^ 2 = (p.elementCount : ℝ)⁻¹ := by
    intro i hi
    have hnorm : ‖coord (p.steeringWeights b) i‖ = (√p.elementCount)⁻¹ := by
      rw [coord_steeringWeights (Finset.mem_range.mp hi), norm_mul, norm_inv (p.ramp b i), norm_ramp,
        inv_one, mul_one, Complex.norm_real, Real.norm_of_nonneg (inv_nonneg.mpr (Real.sqrt_nonneg _))]
    rw [hnorm, inv_pow, Real.sq_sqrt hcount.le]
  rw [Phasor.norm_eq, length_steeringWeights, Finset.sum_congr rfl hmodulus, Finset.sum_const,
    Finset.card_range, nsmul_eq_mul, mul_inv_cancel₀ hcount.ne', Real.sqrt_one]

end Panel

/-! ## The ray between beams -/

namespace Tensor

variable {rx tx : Panel ℝ}

/-- What weights at the receiver and the transmitter collect of a direct ray. -/
noncomputable def DirectRay.collected (ray : DirectRay ℝ) (rx tx : Panel ℝ) (x y : List (Phasor ℝ)) : ℂ :=
  ∑ r ∈ Finset.range rx.elementCount, ∑ t ∈ Finset.range tx.elementCount,
    coord y r * (ray.amplitude * (ray.between (rx.place r) (tx.place t)).toComplex) * coord x t

/-- A direct ray comes to a pair of elements with the turns of both ways. -/
theorem DirectRay.toComplex_between_place (rx tx : Panel ℝ) (g : LinkGeometry ℝ) (k phase loss : ℝ)
    (r t : ℕ) : ((ofGeometry rx tx g k phase loss).between (rx.place r) (tx.place t)).toComplex =
      (ofGeometry rx tx g k phase loss).gain * Complex.exp (phase * Complex.I) *
        (rx.ramp g.arrival r * tx.ramp g.departure t) := by
  have hgain : (ofGeometry rx tx g k phase loss).gain =
      rx.pattern g.directions.zoa g.directions.aoa * tx.pattern g.directions.zod g.directions.aod := rfl
  rw [toComplex_between, planeWave, hgain, Panel.ramp, Panel.ramp, ← Complex.exp_add, ← add_mul,
    ← Complex.ofReal_add, phaseRamp, phaseRamp, ← mul_add]
  rfl

/-- The sum over all pairs of elements comes apart into the sums at both ends. -/
theorem DirectRay.collected_eq (rx tx : Panel ℝ) (g : LinkGeometry ℝ) (k phase loss : ℝ)
    (x y : List (Phasor ℝ)) :
    let ray := ofGeometry rx tx g k phase loss
    ray.collected rx tx x y = ray.amplitude * ray.gain * Complex.exp (phase * Complex.I) *
      ((∑ r ∈ Finset.range rx.elementCount, coord y r * rx.ramp g.arrival r) *
        ∑ t ∈ Finset.range tx.elementCount, coord x t * tx.ramp g.departure t) := by
  intro ray
  rw [collected, Finset.sum_mul_sum, Finset.mul_sum]
  refine Finset.sum_congr rfl fun r _ => ?_
  rw [Finset.mul_sum]
  refine Finset.sum_congr rfl fun t _ => ?_
  rw [toComplex_between_place]
  ring

/-- Weights of unit norm collect at most what all pairs of elements get. -/
theorem DirectRay.norm_collected_le (rx tx : Panel ℝ) (g : LinkGeometry ℝ) (k phase loss : ℝ)
    {x y : List (Phasor ℝ)} (hxlength : x.length = tx.elementCount) (hylength : y.length = rx.elementCount)
    (hx : Phasor.norm x = 1) (hy : Phasor.norm y = 1) :
    let ray := ofGeometry rx tx g k phase loss
    ‖ray.collected rx tx x y‖ ≤ |ray.amplitude * ray.gain| * √(rx.elementCount * tx.elementCount) := by
  intro ray
  have hreceiver := norm_sum_le_of_unit hy (rx.norm_ramp g.arrival)
  have htransmitter := norm_sum_le_of_unit hx (tx.norm_ramp g.departure)
  rw [hylength] at hreceiver
  rw [hxlength] at htransmitter
  rw [collected_eq, norm_mul, norm_mul, Complex.norm_exp_ofReal_mul_I, mul_one, ← Complex.ofReal_mul,
    Complex.norm_real, Real.norm_eq_abs, norm_mul, Real.sqrt_mul (Nat.cast_nonneg _)]
  have hends := mul_le_mul hreceiver htransmitter (norm_nonneg _) (Real.sqrt_nonneg _)
  exact mul_le_mul_of_nonneg_left hends (abs_nonneg _)

/-- Beams along the line between both ends collect that much. -/
theorem DirectRay.norm_collected_steered (rx tx : Panel ℝ) (g : LinkGeometry ℝ) (k phase loss : ℝ) :
    let ray := ofGeometry rx tx g k phase loss
    ‖ray.collected rx tx (tx.steeringWeights g.departure) (rx.steeringWeights g.arrival)‖ =
      |ray.amplitude * ray.gain| * √(rx.elementCount * tx.elementCount) := by
  intro ray
  rw [collected_eq, Panel.sum_steeringWeights_mul_ramp, Panel.sum_steeringWeights_mul_ramp, norm_mul,
    norm_mul, Complex.norm_exp_ofReal_mul_I, mul_one, ← Complex.ofReal_mul, ← Complex.ofReal_mul,
    Complex.norm_real, Complex.norm_real, ← Real.sqrt_mul (Nat.cast_nonneg _), Real.norm_eq_abs,
    Real.norm_of_nonneg (Real.sqrt_nonneg _)]

/-! ## Tensors with a direct ray -/

/-- Each pair of elements of a tensor has the direct ray in its own coefficients. -/
theorem Shaped.response_withDirectRay {h : Tensor ℝ} {clusters : ℕ}
    (hs : h.Shaped rx.elementCount tx.elementCount clusters) (ray : DirectRay ℝ) {r t : ℕ}
    (hr : r < rx.elementCount) (ht : t < tx.elementCount) :
    (h.response r t).length = clusters ∧
      (h.withDirectRay rx tx ray).response r t = ray.blend (rx.place r) (tx.place t) (h.response r t) := by
  have hr' : r < h.length := hs.rows.symm ▸ hr
  have hrow : h[r] ∈ h := List.getElem_mem hr'
  have ht' : t < h[r].length := (hs.columns _ hrow).symm ▸ ht
  have hresponse : h.response r t = h[r][t] := by
    simp [response, List.getElem?_eq_getElem hr', List.getElem?_eq_getElem ht']
  constructor
  · rw [hresponse]
    exact hs.cells _ hrow _ (List.getElem_mem ht')
  · rw [hresponse]
    simp [response, Tensor.withDirectRay, List.getElem?_zipWith, Panel.getElem?_elementLocations hr,
      Panel.getElem?_elementLocations ht, List.getElem?_eq_getElem hr', List.getElem?_eq_getElem ht']

end Tensor

/-- A realization with a direct ray beside the scattered clusters of a tensor. -/
structure Realization.Direct (m : Realization ℝ) (rx tx : Panel ℝ) (scattered : Tensor ℝ)
    (ray : Tensor.DirectRay ℝ) : Prop where
  shaped : scattered.Shaped rx.elementCount tx.elementCount m.clusterCount
  clusters : 0 < m.clusterCount
  tensor_eq : m.tensor = scattered.withDirectRay rx tx ray

namespace Realization.Direct

variable {m : Realization ℝ} {rx tx : Panel ℝ} {scattered : Tensor ℝ} {ray : Tensor.DirectRay ℝ}

theorem counts (h : m.Direct rx tx scattered ray) (hrx : 0 < rx.elementCount) :
    m.tensor.rxCount = rx.elementCount ∧ m.tensor.txCount = tx.elementCount := by
  rw [h.tensor_eq]
  exact (h.shaped.withDirectRay ray).counts hrx

/-- Between any weights the scattered clusters are weakened alike, and the first one has in addition
what the weights collect of the direct ray. From the other end the weights change places. -/
theorem project_ok (h : m.Direct rx tx scattered ray) (hrx : 0 < rx.elementCount)
    {x y : List (Phasor ℝ)} (hx : x.length = tx.elementCount) (hy : y.length = rx.elementCount) :
    ∃ cs cs₀, (⟨m, false⟩ : Link ℝ).project x y = .ok cs ∧ (⟨m, true⟩ : Link ℝ).project y x = .ok cs ∧
      ({ m with tensor := scattered } : Realization ℝ).project x y = .ok cs₀ ∧
      ∀ c < m.clusterCount, coord cs c = ray.diffuse * coord cs₀ c +
        if c = 0 then ray.collected rx tx x y else 0 := by
  obtain ⟨hrxcount, htxcount⟩ := h.counts hrx
  obtain ⟨hrxcount', htxcount'⟩ := h.shaped.counts hrx
  obtain ⟨cs, hcs, hcluster⟩ := m.project_ok (hrxcount.trans hy.symm) (htxcount.trans hx.symm)
  obtain ⟨cs₀, hcs₀, hcluster₀⟩ := Realization.project_ok { m with tensor := scattered }
    (hrxcount'.trans hy.symm) (htxcount'.trans hx.symm)
  refine ⟨cs, cs₀, hcs, hcs, hcs₀, fun c hc => ?_⟩
  rw [hcluster c hc, hcluster₀ c hc, hx, hy]
  have hpair : ∀ t ∈ Finset.range tx.elementCount, ∀ r ∈ Finset.range rx.elementCount,
      coord x t * (coord y r * coord (m.tensor.response r t) c) =
        ray.diffuse * (coord x t * (coord y r * coord (scattered.response r t) c)) +
          if c = 0 then coord y r * (ray.amplitude *
            (ray.between (rx.place r) (tx.place t)).toComplex) * coord x t else 0 := by
    intro t ht r hr
    obtain ⟨hlength, hresponse⟩ := h.shaped.response_withDirectRay ray (Finset.mem_range.mp hr)
      (Finset.mem_range.mp ht)
    have hne : scattered.response r t ≠ [] := by
      intro hnil
      rw [hnil] at hlength
      exact h.clusters.ne hlength
    rw [h.tensor_eq, hresponse, Tensor.coord_blend ray hne]
    split <;> ring
  rw [Finset.sum_congr rfl fun t ht => Finset.sum_congr rfl (hpair t ht)]
  simp only [Finset.sum_add_distrib, ← Finset.mul_sum]
  congr 1
  split
  · rw [Tensor.DirectRay.collected, Finset.sum_comm]
  · simp

end Realization.Direct

/-- A realization that is drawn with line of sight has the direct ray along the line between its ends. -/
theorem Drawn.direct {c : RealizationContext ℝ} {m : Realization ℝ} {scale : LargeScale ℝ}
    {profile : Profile ℝ} {unwrapped : List (Directions ℝ)} {losses : List ℝ}
    (h : Drawn c m scale profile unwrapped losses) (hlos : c.condition.los = true) :
    ∃ d, m.directions[0]? = some d ∧ m.Direct c.rx c.tx
      (.ofClusters c.rx c.tx (c.rayClusters unwrapped m.phases m.powers))
      (.ofGeometry c.rx c.tx c.geometry (10 ^ (m.riceanDb / 10)) m.directPhase (c.lossToward m d)) := by
  obtain ⟨d, hd, hloss⟩ := h.directLoss_eq
  have hkept : unwrapped.length = m.powers.length := h.length_unwrapped.trans h.length_powers.symm
  have hshaped := Tensor.shaped_ofClusters c.rx c.tx (c.rayClusters unwrapped m.phases m.powers)
  rw [c.length_rayClusters hkept h.length_phases,
    c.countP_rayClusters h.powers_ne_nil hkept h.length_phases, ← h.clusterCount_eq] at hshaped
  refine ⟨d, hd, hshaped, ?_, ?_⟩
  · have hpowers : 0 < m.powers.length := List.length_pos_iff.mpr h.powers_ne_nil
    rw [h.clusterCount_eq]
    omega
  · have hricean : scale.ricean = 10 ^ (m.riceanDb / 10) := by
      rw [h.riceanDb]
      rfl
    rw [h.tensor_eq, RealizationContext.tensor, hlos, if_pos rfl, hricean, hloss]

/-- Beams that are steered to each other collect all of the direct ray. Whatever the panels and wherever
their ends are, both beams have unit norm, and between them the ray has its own modulus times the root of
the number of pairs of elements, which is the most that weights of unit norm can collect of it. So it has
on every realization with such a ray, from either end, beside what the beams make of the scattered clusters;
and every realization that is drawn with line of sight has such a ray. -/
theorem steering_collects_direct_ray :
    (∀ (rx tx : Panel ℝ) (a b : Vec3 ℝ) (k phase loss : ℝ),
      0 < rx.elementCount → 0 < tx.elementCount →
      let g := LinkGeometry.between a b
      let ray := Tensor.DirectRay.ofGeometry rx tx g k phase loss
      let w := tx.steer a b
      let v := rx.steer b a
      (w.size = tx.elementCount ∧ v.size = rx.elementCount) ∧ (w.norm = 1 ∧ v.norm = 1) ∧
      ‖ray.collected rx tx w.weights v.weights‖ =
        √(rx.elementCount * tx.elementCount) * (√(k / (k + 1)) / 10 ^ (loss / 10) *
          |rx.pattern g.arrival.zenith g.arrival.azimuth *
            tx.pattern g.departure.zenith g.departure.azimuth|) ∧
      (∀ x y : List (Phasor ℝ), x.length = tx.elementCount → y.length = rx.elementCount →
        Phasor.norm x = 1 → Phasor.norm y = 1 →
        ‖ray.collected rx tx x y‖ ≤ ‖ray.collected rx tx w.weights v.weights‖) ∧
      ∀ (m : Realization ℝ) (scattered : Tensor ℝ), m.Direct rx tx scattered ray →
        ∀ x y : List (Phasor ℝ), x.length = tx.elementCount → y.length = rx.elementCount →
        ∃ cs cs₀, (⟨m, false⟩ : Link ℝ).project x y = .ok cs ∧
          (⟨m, true⟩ : Link ℝ).project y x = .ok cs ∧
          ({ m with tensor := scattered } : Realization ℝ).project x y = .ok cs₀ ∧
          ∀ c < m.clusterCount, coord cs c = ray.diffuse * coord cs₀ c +
            if c = 0 then ray.collected rx tx x y else 0) ∧
    ∀ (g : Generator ℝ) (now : Nanoseconds) (a b : Terminal ℝ) (condition : Condition)
      (previous : Option (Realization ℝ)) (c : RealizationContext ℝ) (m : Realization ℝ)
      (source source' : RandomSource ℝ), g.context now a b condition previous = .ok c →
      condition.los = true → c.draw.run source = (.ok m, source') →
      ∃ scattered d, m.directions[0]? = some d ∧ m.Direct b.panel a.panel scattered
        (.ofGeometry b.panel a.panel (.between a.endpoint.position b.endpoint.position)
          (10 ^ (m.riceanDb / 10)) m.directPhase (c.lossToward m d)) := by
  constructor
  · intro rx tx a b k phase loss hrx htx g ray w v
    have hsteered : ‖ray.collected rx tx w.weights v.weights‖ =
        |ray.amplitude * ray.gain| * √(rx.elementCount * tx.elementCount) :=
      Tensor.DirectRay.norm_collected_steered rx tx g k phase loss
    have hamplitude : ray.amplitude = √(k / (k + 1)) / 10 ^ (loss / 10) :=
      Tensor.DirectRay.amplitude_eq rx tx g k phase loss
    have hnonneg : 0 ≤ √(k / (k + 1)) / (10 : ℝ) ^ (loss / 10) := by positivity
    refine ⟨⟨tx.size_steer a b, rx.size_steer b a⟩, ⟨?_, ?_⟩, ?_, ?_, ?_⟩
    · exact Panel.norm_steeringWeights htx g.departure
    · exact Panel.norm_steeringWeights hrx g.arrival
    · rw [hsteered, hamplitude, abs_mul, abs_of_nonneg hnonneg, mul_comm]
      rfl
    · intro x y hxlength hylength hx hy
      rw [hsteered]
      exact Tensor.DirectRay.norm_collected_le rx tx g k phase loss hxlength hylength hx hy
    · intro m scattered hm x y hx hy
      exact hm.project_ok hrx hx hy
  · intro g now a b condition previous c m source source' hcontext hlos hdraw
    obtain ⟨table, -, rfl⟩ := Generator.context_ok hcontext
    obtain ⟨scale, profile, unwrapped, losses, hdrawn⟩ := RealizationContext.drawn_of_draw hdraw
    obtain ⟨d, hd, hdirect⟩ := hdrawn.direct hlos
    exact ⟨_, d, hd, hdirect⟩

/-- In the country, with two antennas on the car and four on the mast. -/
theorem steering_collects_direct_ray_country :
    let c := RealizationContext.country
    let w := c.tx.steer ⟨0, 0, 25⟩ ⟨40, 10, 1⟩
    let v := c.rx.steer ⟨40, 10, 1⟩ ⟨0, 0, 25⟩
    w.norm = 1 ∧ v.norm = 1 ∧
    ∃ m source scattered ray cs cs₀, c.draw.run (.ofSeed 1) = (.ok m, source) ∧
      m.Direct c.rx c.tx scattered ray ∧ ‖ray.collected c.rx c.tx w.weights v.weights‖ = √8 * ray.amplitude ∧
      (⟨m, false⟩ : Link ℝ).project w.weights v.weights = .ok cs ∧
      (⟨m, true⟩ : Link ℝ).project v.weights w.weights = .ok cs ∧
      ({ m with tensor := scattered } : Realization ℝ).project w.weights v.weights = .ok cs₀ ∧
      coord cs 0 = ray.diffuse * coord cs₀ 0 + ray.collected c.rx c.tx w.weights v.weights := by
  intro c w v
  obtain ⟨m, source, hdraw⟩ := RealizationContext.draw_ok (c := c) (s := .ofSeed 1)
    (ParameterTable.supports_ruralMacro true 40) fun _ _ _ _ _ => beq_iff.mpr rfl
  obtain ⟨scale, profile, unwrapped, losses, hdrawn⟩ := RealizationContext.drawn_of_draw hdraw
  obtain ⟨d, -, hdirect⟩ := hdrawn.direct rfl
  have hgeometry : c.geometry = .between ⟨0, 0, 25⟩ ⟨40, 10, 1⟩ := by
    simp only [c, RealizationContext.country, zero_eq, one_eq, numeral_eq]
  rw [hgeometry] at hdirect
  obtain ⟨⟨hw, hv⟩, ⟨hwnorm, hvnorm⟩, hcollected, -, hproject⟩ := steering_collects_direct_ray.1 c.rx c.tx
    ⟨0, 0, 25⟩ ⟨40, 10, 1⟩ (10 ^ (m.riceanDb / 10)) m.directPhase (c.lossToward m d) (by decide) (by decide)
  obtain ⟨cs, cs₀, hforward, hreverse, hscattered, hclusters⟩ := hproject m _ hdirect _ _ hw hv
  refine ⟨hwnorm, hvnorm, m, source, _, _, cs, cs₀, hdraw, hdirect, ?_, hforward, hreverse, hscattered,
    ?_⟩
  · have hcounts : ((c.rx.elementCount : ℝ) * (c.tx.elementCount : ℝ)) = 8 := by
      have hrx : c.rx.elementCount = 2 := rfl
      have htx : c.tx.elementCount = 4 := rfl
      rw [hrx, htx]
      norm_num
    have hisotropic : ∀ zenith azimuth zenith' azimuth' : ℝ,
        |c.rx.pattern zenith azimuth * c.tx.pattern zenith' azimuth'| = 1 := by
      intro zenith azimuth zenith' azimuth'
      change |@OfNat.ofNat ℝ 1 (Scalar.instOfNat 1) * @OfNat.ofNat ℝ 1 (Scalar.instOfNat 1)| = 1
      rw [one_eq, one_mul, abs_one]
    rw [hcollected, hcounts, hisotropic, mul_one, Tensor.DirectRay.amplitude_eq]
  · rw [hclusters 0 hdirect.clusters, if_pos rfl]

end RadioChannel
