import RadioChannel.Proofs.ExactPhasors
import RadioChannel.Proofs.Reciprocity

/-!
# Gains read off the flat matrix

The gain between two beams is reached in two ways: the clusters of every pair of elements are rotated
and added, and the beams are applied to the sums; or the beams are applied to each cluster, and the
clusters are rotated and added. In exact arithmetic the order of the three sums does not matter, from
whichever end the link is seen.
-/

namespace RadioChannel

open Scalar

theorem coord_zipWith_mul (xs ys : List (Phasor ℝ)) (k : ℕ) :
    coord (xs.zipWith (· * ·) ys) k = coord xs k * coord ys k := by
  rw [coord, coord, coord, List.getElem?_zipWith]
  cases xs[k]? <;> cases ys[k]? <;> simp

/-- A list weighted by functions of the places. -/
theorem toComplex_sum_zipIdx (xs : List (Phasor ℝ)) (f : ℕ → Phasor ℝ) :
    (Phasor.sum (xs.zipIdx.map fun (x, i) => x * f i)).toComplex =
      ∑ i ∈ Finset.range xs.length, coord xs i * (f i).toComplex := by
  have hplaces : xs.zipIdx.map (fun (x, i) => x * f i) =
      (List.range xs.length).map fun i => xs[i]?.getD .zero * f i := by
    refine List.ext_getElem (by simp) fun i hi _ => ?_
    have hi' : i < xs.length := by simpa using hi
    simp [hi']
  rw [hplaces, Phasor.toComplex_sum_range]
  rfl

/-! ## Projections -/

/-- Beams for the elements of a tensor have a projection: in each cluster the coefficients of all pairs
of elements, weighted. -/
theorem Realization.project_ok (m : Realization ℝ) {tx rx : List (Phasor ℝ)}
    (hrx : m.tensor.rxCount = rx.length) (htx : m.tensor.txCount = tx.length) :
    ∃ cs, m.project tx rx = .ok cs ∧ ∀ c < m.clusterCount,
      coord cs c = ∑ t ∈ Finset.range tx.length, ∑ r ∈ Finset.range rx.length,
        coord tx t * (coord rx r * coord (m.tensor.response r t) c) := by
  refine ⟨(List.range m.clusterCount).map (m.projectCluster tx rx), ?_, fun c hc => ?_⟩
  · simp [project, checkDimensions, hrx, htx]
  have hplace : coord ((List.range m.clusterCount).map (m.projectCluster tx rx)) c =
      (m.projectCluster tx rx c).toComplex := by
    simp [coord, hc]
  rw [hplace]
  refine (toComplex_sum_zipIdx tx fun t =>
    Phasor.sum (rx.zipIdx.map fun (w, r) => w * m.coefficient r t c)).trans ?_
  refine Finset.sum_congr rfl fun t _ => ?_
  rw [toComplex_sum_zipIdx rx fun r => m.coefficient r t c, Finset.mul_sum]
  rfl

namespace Link

variable {l : Link ℝ} {x y : List (Phasor ℝ)}

/-- Seen from either end, a projection weights the responses between the elements of both ends. -/
theorem project_ok (hrx : l.rxCount = y.length) (htx : l.txCount = x.length) :
    ∃ cs, l.project x y = .ok cs ∧ ∀ c < l.realization.clusterCount,
      coord cs c = ∑ r ∈ Finset.range y.length, ∑ t ∈ Finset.range x.length,
        coord y r * coord (l.response r t) c * coord x t := by
  obtain ⟨m, _ | _⟩ := l
  · obtain ⟨cs, hcs, hclusters⟩ := m.project_ok hrx htx
    refine ⟨cs, hcs, fun c hc => (hclusters c hc).trans ?_⟩
    rw [Finset.sum_comm]
    refine Finset.sum_congr rfl fun r _ => Finset.sum_congr rfl fun t _ => ?_
    change _ = coord y r * coord (m.tensor.response r t) c * coord x t
    ring
  · -- the receiver's weights stand at the end that transmitted when the realization was drawn
    obtain ⟨cs, hcs, hclusters⟩ := m.project_ok htx hrx
    refine ⟨cs, hcs, fun c hc => (hclusters c hc).trans ?_⟩
    refine Finset.sum_congr rfl fun r _ => Finset.sum_congr rfl fun t _ => ?_
    change _ = coord y r * coord (m.tensor.response t r) c * coord x t
    ring

/-! ## Rotations -/

/-- How each cluster is turned at a frequency. -/
noncomputable def turning (l : Link ℝ) (doppler : List (Phasor ℝ)) (frequency : ℝ) (c : ℕ) : ℂ :=
  coord doppler c * coord (l.realization.delays.map (delayRotation frequency)) c

theorem toComplex_sum_turned (l : Link ℝ) (zs : List (Phasor ℝ)) (frequency : ℝ) :
    (Phasor.sum (zs.zipWith (fun z delay => z * delayRotation frequency delay)
      l.realization.delays)).toComplex = ∑ c ∈ Finset.range l.realization.clusterCount,
        coord zs c * coord (l.realization.delays.map (delayRotation frequency)) c := by
  rw [← toComplex_dot _ _ (n := l.realization.clusterCount), Matrix.dot, List.zipWith_map_right]
  rw [List.length_map]
  exact Nat.min_le_right _ _

theorem gains_ok (l : Link ℝ) (projected doppler : List (Phasor ℝ)) {grid : SpectrumGrid ℝ}
    {band : ℕ} {frequency : ℝ} (hband : grid.centers[band]? = some frequency) :
    ∃ g, (l.gains projected doppler grid)[band]? = some g ∧
      g.toComplex = ∑ c ∈ Finset.range l.realization.clusterCount,
        coord projected c * l.turning doppler frequency c := by
  refine ⟨_, by rw [gains, List.getElem?_map, hband]; rfl, ?_⟩
  refine (l.toComplex_sum_turned _ frequency).trans (Finset.sum_congr rfl fun c _ => ?_)
  rw [coord_zipWith_mul, mul_assoc]
  rfl

theorem flatMatrix_entry (l : Link ℝ) (doppler : List (Phasor ℝ)) (frequency : ℝ) {rx tx r t : ℕ}
    (hr : r < rx) (ht : t < tx) :
    coord ((l.flatMatrix doppler frequency rx tx)[r]?.getD []) t =
      ∑ c ∈ Finset.range l.realization.clusterCount,
        coord (l.response r t) c * l.turning doppler frequency c := by
  have hentry : coord ((l.flatMatrix doppler frequency rx tx)[r]?.getD []) t =
      (Matrix.dot (l.response r t) (doppler.zipWith
        (fun d delay => d * delayRotation frequency delay) l.realization.delays)).toComplex := by
    simp [flatMatrix, coord, hr, ht, Matrix.dot]
  rw [hentry, toComplex_dot _ _ (n := l.realization.clusterCount)]
  · refine Finset.sum_congr rfl fun c _ => ?_
    rw [← List.zipWith_map_right (f := delayRotation frequency), coord_zipWith_mul]
    rfl
  · rw [List.length_zipWith]
    exact (Nat.min_le_right _ _).trans (Nat.min_le_right _ _)

/-- Rotating and adding the clusters of each pair of elements first, or of each pair of beams, gives
the same gain. -/
theorem gain_eq (hrx : l.rxCount = y.length) (htx : l.txCount = x.length)
    (doppler : List (Phasor ℝ)) {grid : SpectrumGrid ℝ} {band : ℕ} {frequency : ℝ}
    (hband : grid.centers[band]? = some frequency) :
    ∃ cs g, l.project x y = .ok cs ∧ (l.gains cs doppler grid)[band]? = some g ∧
      g.toComplex = ∑ r ∈ Finset.range y.length, ∑ t ∈ Finset.range x.length,
        coord y r * coord ((l.flatMatrix doppler frequency y.length x.length)[r]?.getD []) t *
          coord x t := by
  obtain ⟨cs, hproject, hclusters⟩ := project_ok hrx htx
  obtain ⟨g, hg, hgain⟩ := l.gains_ok cs doppler hband
  refine ⟨cs, g, hproject, hg, ?_⟩
  let turned := l.turning doppler frequency
  calc g.toComplex
    _ = ∑ c ∈ Finset.range l.realization.clusterCount, ∑ r ∈ Finset.range y.length,
          ∑ t ∈ Finset.range x.length,
            coord y r * coord (l.response r t) c * coord x t * turned c := by
        rw [hgain]
        refine Finset.sum_congr rfl fun c hc => ?_
        rw [hclusters c (Finset.mem_range.mp hc), Finset.sum_mul]
        exact Finset.sum_congr rfl fun r _ => Finset.sum_mul _ _ _
    _ = ∑ r ∈ Finset.range y.length, ∑ t ∈ Finset.range x.length,
          ∑ c ∈ Finset.range l.realization.clusterCount,
            coord y r * coord (l.response r t) c * coord x t * turned c := by
        rw [Finset.sum_comm]
        exact Finset.sum_congr rfl fun r _ => Finset.sum_comm
    _ = _ := by
        refine Finset.sum_congr rfl fun r hr => Finset.sum_congr rfl fun t ht => ?_
        rw [l.flatMatrix_entry doppler frequency (Finset.mem_range.mp hr) (Finset.mem_range.mp ht),
          Finset.mul_sum, Finset.sum_mul]
        refine Finset.sum_congr rfl fun c _ => ?_
        change _ = coord y r * (coord (l.response r t) c * turned c) * coord x t
        ring

end Link

namespace Evaluator

variable {s s' : Evaluator ℝ} {now : Nanoseconds} {a b : Device ℝ} {offset : ℝ} {m : Matrix ℝ}

/-- The metric of the beam search is the gain that is delivered. Weights applied to the flat matrix at
an offset from the carrier give the complex gain between the beams in a subband that is centred there,
on the link that the flat matrix was made of. -/
theorem delivered_of_flatMatrix (h : (flatMatrix now a b offset).run s = (.ok m, s')) {x y : Beam ℝ}
    (hx : x.weights.length = a.array.elementCount) (hy : y.weights.length = b.array.elementCount)
    {grid : SpectrumGrid ℝ} {band : ℕ}
    (hband : grid.centers[band]? = some (s.generator.frequency + offset)) :
    ∃ l cs g, (channel now a b).run s = (.ok l, s') ∧
      s'.freshGains now l a b x y grid = .ok cs ∧ cs[band]? = some g ∧
      g.toComplex = ∑ r ∈ Finset.range b.array.elementCount, ∑ t ∈ Finset.range a.array.elementCount,
        coord y.weights r * coord (m[r]?.getD []) t * coord x.weights t := by
  obtain ⟨l, hchannel, ⟨hrx, htx⟩, rfl⟩ := run_flatMatrix_ok.mp h
  have hframe : ((Generator.channel now a.terminal b.terminal (s.model.condition a.id b.id)).run
      s.generator).2.frequency = s.generator.frequency := Generator.channel_frame.1
  rw [generator_of_channel_ok hchannel] at hframe
  rw [← hframe] at hband
  obtain ⟨cs, g, hproject, hg, hgain⟩ := Link.gain_eq (hrx.trans hy.symm) (htx.trans hx.symm)
    (s'.doppler now l a b) hband
  rw [hx, hy] at hgain
  refine ⟨l, l.gains cs (s'.doppler now l a b) grid, g, hchannel, ?_, hg, hgain⟩
  rw [freshGains, hproject]
  rfl

/-- Weights on four and on two antennas. -/
theorem delivered_field :
    let x : Beam ℝ := ⟨[⟨1, 0⟩, ⟨0, 1⟩, ⟨1, 0⟩, ⟨0, 1⟩], ⟨11⟩⟩
    let y : Beam ℝ := ⟨[⟨1, 0⟩, ⟨0, 1⟩], ⟨22⟩⟩
    let grid : SpectrumGrid ℝ := ⟨[28000000000, 28000000000 + 1000000], by simp⟩
    x.weights.length = drone.array.elementCount ∧ y.weights.length = rover.array.elementCount ∧
      grid.centers[1]? = some (field.generator.frequency + 1000000) ∧
      ∃ m s' l cs g, (flatMatrix 0 drone rover 1000000).run field = (.ok m, s') ∧
        (channel 0 drone rover).run field = (.ok l, s') ∧
        s'.freshGains 0 l drone rover x y grid = .ok cs ∧ cs[1]? = some g ∧
        g.toComplex = ∑ r ∈ Finset.range 2, ∑ t ∈ Finset.range 4,
          coord y.weights r * coord (m[r]?.getD []) t * coord x.weights t := by
  intro x y grid
  obtain ⟨m, s', hrun⟩ := flatMatrix_field 1000000
  have hband : grid.centers[1]? = some (field.generator.frequency + 1000000) := rfl
  obtain ⟨l, cs, g, hdelivered⟩ := delivered_of_flatMatrix hrun (by decide : x.weights.length = _)
    (by decide : y.weights.length = _) hband
  exact ⟨by decide, by decide, hband, m, s', l, cs, g, hrun, hdelivered⟩

end Evaluator

end RadioChannel
