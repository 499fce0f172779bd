import RadioChannel.Beamforming.Bundle
import RadioChannel.Proofs.Coefficients
import RadioChannel.Proofs.ExactPhasors

/-!
# Digital combining

A combiner's block holds in the row of an output layer a weight for each input layer. The rows of a
bundle's combiner are the columns of the precoder, each at the layer of its stream and scaled to unit
norm. The gain of an output layer is the power of the sum of the input layers' gains, each multiplied
by its weight.
-/

namespace RadioChannel

open ExactScalars

/-! ## Edited lists -/

/-- After edits at different places each place holds what its edit made of it, and all other places
hold what they held. -/
theorem getElem?_foldl_modify {α : Type} (edits : List (ℕ × (α → α)))
    (hd : (edits.map Prod.fst).Nodup) (xs : List α) :
    (∀ e ∈ edits, (edits.foldl (fun xs e => xs.modify e.1 e.2) xs)[e.1]? = xs[e.1]?.map e.2) ∧
      ∀ i ∉ edits.map Prod.fst, (edits.foldl (fun xs e => xs.modify e.1 e.2) xs)[i]? = xs[i]? := by
  induction edits generalizing xs with
  | nil => exact ⟨by simp, fun _ _ => rfl⟩
  | cons first edits ih =>
    rw [List.map_cons, List.nodup_cons] at hd
    obtain ⟨hedited, hothers⟩ := ih hd.2 (xs.modify first.1 first.2)
    rw [List.foldl_cons]
    refine ⟨fun e he => ?_, fun i hi => ?_⟩
    · rcases List.mem_cons.mp he with rfl | he
      · rw [hothers _ hd.1, List.getElem?_modify_eq]
        rfl
      · have hne : first.1 ≠ e.1 := fun heq => hd.1 (heq ▸ List.mem_map_of_mem he)
        rw [hedited e he, List.getElem?_modify_ne _ _ hne]
    · rw [List.map_cons, List.mem_cons, not_or] at hi
      rw [hothers i hi.2, List.getElem?_modify_ne _ _ (Ne.symm hi.1)]

theorem length_foldl_modify {α : Type} (edits : List (ℕ × (α → α))) (xs : List α) :
    (edits.foldl (fun xs e => xs.modify e.1 e.2) xs).length = xs.length := by
  induction edits generalizing xs with
  | nil => rfl
  | cons first edits ih => rw [List.foldl_cons, ih, List.length_modify]

namespace Bundle

/-! ## Rows of a block -/

variable {layers : List UInt8}

/-- Normalizing multiplies all coordinates by the same positive number. -/
theorem coord_normalize (row : List (Phasor ℝ)) :
    ∃ r : ℝ, 0 < r ∧ ∀ k, coord (normalize row) k = r * coord row k := by
  unfold normalize
  dsimp only
  split
  · rename_i hnorm
    rw [lt_iff, zero_eq] at hnorm
    refine ⟨(Phasor.norm row)⁻¹, inv_pos.mpr hnorm, fun k => ?_⟩
    rw [coord_map (g := fun z => z / (Phasor.norm row : ℝ)) (fun z => Phasor.toComplex_shrink z _)
      (zero_div _), Complex.ofReal_inv, div_eq_inv_mul]
  · exact ⟨1, one_pos, fun k => by rw [Complex.ofReal_one, one_mul]⟩

theorem length_normalize {R : Type} [Scalar R] (row : List (Phasor R)) :
    (normalize row).length = row.length := by
  unfold normalize
  dsimp only
  split
  · exact List.length_map _
  · rfl

theorem nodup_toNat (hd : layers.Nodup) : (layers.map UInt8.toNat).Nodup :=
  hd.map fun _ _ h => UInt8.toNat_inj.mp h

theorem lt_combinerSize {layer : UInt8} (h : layer ∈ layers) : layer.toNat < combinerSize layers := by
  have hfold : ∀ size : ℕ,
      size ≤ layers.foldl (fun size layer => max size (layer.toNat + 1)) size ∧
        ∀ layer ∈ layers,
          layer.toNat < layers.foldl (fun size layer => max size (layer.toNat + 1)) size := by
    clear h
    induction layers with
    | nil => exact fun size => ⟨le_rfl, by simp⟩
    | cons first layers ih =>
      intro size
      obtain ⟨hle, hlt⟩ := ih (max size (first.toNat + 1))
      rw [List.foldl_cons]
      refine ⟨(le_max_left _ _).trans hle, fun layer hlayer => ?_⟩
      rcases List.mem_cons.mp hlayer with rfl | hlayer
      · exact (le_max_right size (layer.toNat + 1)).trans hle
      · exact hlt layer hlayer
  exact (hfold 0).2 layer h

/-- In the row of a stream stand its coefficients, each at the layer of its input, up to one positive
factor. Other layers have no weight. -/
theorem combinerRow_ok (hd : layers.Nodup) (coefficients row : List (Phasor ℝ))
    (hlength : coefficients.length = layers.length)
    (hrow : ∀ layer ∈ layers, layer.toNat < row.length) (hzero : ∀ i, coord row i = 0) :
    (combinerRow layers coefficients row).length = row.length ∧ ∃ r : ℝ, 0 < r ∧
      (∀ (j : ℕ) layer, layers[j]? = some layer →
        coord (combinerRow layers coefficients row) layer.toNat = r * coord coefficients j) ∧
      ∀ i ∉ layers.map UInt8.toNat, coord (combinerRow layers coefficients row) i = 0 := by
  -- a row is written by edits at distinct places, and then normalized
  let edits : List (ℕ × (Phasor ℝ → Phasor ℝ)) :=
    (layers.zip coefficients).map fun e => (e.1.toNat, fun _ => e.2)
  have hwritten : (layers.zip coefficients).foldl (fun row e => row.set e.1.toNat e.2) row =
      edits.foldl (fun row e => row.modify e.1 e.2) row := by
    simp only [edits, List.foldl_map, List.set_eq_modify]
  have hkeys : edits.map Prod.fst = layers.map UInt8.toNat := by
    calc edits.map Prod.fst
      _ = ((layers.zip coefficients).map Prod.fst).map UInt8.toNat := by
          rw [List.map_map, List.map_map]
          rfl
      _ = layers.map UInt8.toNat := by rw [List.map_fst_zip (by rw [hlength])]
  obtain ⟨r, hr, hcoord⟩ := coord_normalize (edits.foldl (fun row e => row.modify e.1 e.2) row)
  obtain ⟨hedited, hothers⟩ :=
    getElem?_foldl_modify edits (by rw [hkeys]; exact nodup_toNat hd) row
  have hcombiner : combinerRow layers coefficients row =
      normalize (edits.foldl (fun row e => row.modify e.1 e.2) row) := by rw [← hwritten]; rfl
  rw [hcombiner]
  refine ⟨by rw [length_normalize, length_foldl_modify], r, hr, fun j layer hlayer => ?_,
    fun i hi => ?_⟩
  · have hj : j < layers.length := (List.getElem?_eq_some_iff.mp hlayer).1
    have hx : coefficients[j]? = some coefficients[j] := List.getElem?_eq_getElem (by omega)
    have hmem : (layer.toNat, fun _ => coefficients[j]) ∈ edits := by
      refine List.mem_map.mpr ⟨(layer, coefficients[j]), ?_, rfl⟩
      exact List.mem_of_getElem? (List.getElem?_zip_eq_some.mpr ⟨hlayer, hx⟩)
    have hat := hedited _ hmem
    rw [List.getElem?_eq_getElem (hrow layer (List.mem_of_getElem? hlayer)), Option.map_some] at hat
    rw [hcoord, coord, hat, coord, hx]
  · rw [hcoord, coord, hothers i (by rwa [hkeys]), ← coord, hzero, mul_zero]

/-- The block of a combiner. In the row of the layer of stream `k` stands column `k` of the precoder,
each entry at the layer of its input, up to one positive factor. -/
theorem combinerBlock_ok (hd : layers.Nodup) {x : Matrix ℝ} (hx : x.length = layers.length) :
    (combinerBlock (combinerSize layers) layers x).length = combinerSize layers ∧
      ∀ (k : ℕ) output, layers[k]? = some output → ∃ row,
        (combinerBlock (combinerSize layers) layers x)[output.toNat]? = some row ∧
        row.length = combinerSize layers ∧ ∃ r : ℝ, 0 < r ∧
          (∀ (j : ℕ) input, layers[j]? = some input →
            coord row input.toNat = r * coord (x[j]?.getD []) k) ∧
          ∀ i ∉ layers.map UInt8.toNat, coord row i = 0 := by
  -- the precoder has a row for each input; an output layer takes a column
  let column (k : ℕ) : List (Phasor ℝ) := x.map fun row => row[k]?.getD .zero
  let edits : List (ℕ × (List (Phasor ℝ) → List (Phasor ℝ))) :=
    layers.zipIdx.map fun e => (e.1.toNat, combinerRow layers (column e.2))
  have hwritten : combinerBlock (combinerSize layers) layers x =
      edits.foldl (fun rows e => rows.modify e.1 e.2)
        (List.replicate (combinerSize layers) (List.replicate (combinerSize layers) .zero)) := by
    rw [List.foldl_map]
    rfl
  have hkeys : edits.map Prod.fst = layers.map UInt8.toNat := by
    calc edits.map Prod.fst
      _ = (layers.zipIdx.map Prod.fst).map UInt8.toNat := by
          rw [List.map_map, List.map_map]
          rfl
      _ = layers.map UInt8.toNat := by rw [List.zipIdx_map_fst]
  obtain ⟨hedited, -⟩ := getElem?_foldl_modify edits (by rw [hkeys]; exact nodup_toNat hd)
    (List.replicate (combinerSize layers) (List.replicate (combinerSize layers) .zero))
  rw [hwritten]
  refine ⟨by rw [length_foldl_modify, List.length_replicate], fun k output hk => ?_⟩
  have hmem : (output.toNat, combinerRow layers (column k)) ∈ edits := by
    refine List.mem_map.mpr ⟨(output, k), ?_, rfl⟩
    exact List.mem_zipIdx_iff_getElem?.mpr hk
  have hat := hedited _ hmem
  rw [List.getElem?_replicate, if_pos (lt_combinerSize (List.mem_of_getElem? hk)),
    Option.map_some] at hat
  obtain ⟨hlength, r, hr, hweights, hothers⟩ := combinerRow_ok hd (column k)
    (List.replicate (combinerSize layers) .zero) (by rw [List.length_map, hx])
    (fun layer hlayer => by rw [List.length_replicate]; exact lt_combinerSize hlayer)
    fun i => by
      rw [coord, List.getElem?_replicate]
      split <;> exact Phasor.toComplex_zero
  refine ⟨_, hat, hlength.trans List.length_replicate, r, hr, fun j input hj => ?_, hothers⟩
  have hj' : j < x.length := hx ▸ (List.getElem?_eq_some_iff.mp hj).1
  rw [hweights j input hj, coord, List.getElem?_map, List.getElem?_eq_getElem hj', coord]
  rfl

end Bundle

/-! ## Gains of output layers -/

namespace Evaluator

variable {combiner : Combiner ℝ} {output input size : ℕ}

/-- The weight of an input layer in the row of an output layer. -/
noncomputable def weightIn (block : List (List (Phasor ℝ))) (output input : ℕ) : ℂ :=
  coord (block[output]?.getD []) input

/-- The blocks of a combiner have a weight for so many input layers in the row of an output layer. -/
def Outputs (combiner : Combiner ℝ) (output size : ℕ) : Prop :=
  ∀ block ∈ combiner, ∃ row, block[output]? = some row ∧ row.length = size

theorem Outputs.tail {block : List (List (Phasor ℝ))} (h : Outputs (block :: combiner) output size) :
    Outputs combiner output size :=
  fun block' hblock' => h block' (List.mem_cons_of_mem block hblock')

theorem Outputs.weight (h : Outputs combiner output size) {block : List (List (Phasor ℝ))}
    (hblock : block ∈ combiner) (hinput : input < size) :
    ∃ w, weight block output input = .ok w ∧ w.toComplex = weightIn block output input := by
  obtain ⟨row, hrow, hlength⟩ := h block hblock
  have hentry : row[input]? = some row[input] := List.getElem?_eq_getElem (by omega)
  refine ⟨row[input], ?_, ?_⟩
  · simp only [Evaluator.weight, entryAt, hrow, hentry]
  · rw [weightIn, hrow, Option.getD_some, coord, hentry, Option.getD_some]

/-- An input layer is skipped where no block has a weight for it, and only there. -/
theorem Outputs.isUnused (h : Outputs combiner output size) (hinput : input < size) :
    ∃ unused, isUnused output input combiner = .ok unused ∧
      (unused = true ↔ ∀ block ∈ combiner, weightIn block output input = 0) := by
  induction combiner with
  | nil => exact ⟨true, rfl, by simp⟩
  | cons block blocks ih =>
    obtain ⟨w, hw, hvalue⟩ := h.weight List.mem_cons_self hinput
    unfold Evaluator.isUnused
    rw [hw, List.forall_mem_cons, ← hvalue]
    dsimp only
    have hzero : (w == Phasor.zero) = true ↔ w.toComplex = 0 := by
      rw [← Phasor.toComplex_zero, Complex.ext_iff]
      exact Bool.and_eq_true_iff.trans (and_congr beq_iff beq_iff)
    split
    · rename_i hw0
      obtain ⟨unused, hrun, hiff⟩ := ih h.tail
      exact ⟨unused, hrun, hiff.trans (and_iff_right (hzero.mp hw0)).symm⟩
    · rename_i hw0
      exact ⟨false, rfl, by simp [← hzero, hw0]⟩

theorem Outputs.isUnused_eq_false (h : Outputs combiner output size) (hinput : input < size)
    (hweight : ∃ block ∈ combiner, weightIn block output input ≠ 0) :
    Evaluator.isUnused output input combiner = .ok false := by
  obtain ⟨unused, hrun, hunused⟩ := h.isUnused hinput
  cases unused with
  | false => exact hrun
  | true =>
    obtain ⟨block, hblock, hne⟩ := hweight
    exact absurd (hunused.mp rfl block hblock) hne

/-- An input layer adds its gain times its weight, subband by subband. -/
theorem Outputs.accumulate (h : Outputs combiner output size) (hinput : input < size)
    {values gain : List (Phasor ℝ)} (hvalues : values.length = combiner.length)
    (hgain : gain.length = combiner.length) :
    ∃ sums, accumulate output input values combiner gain = .ok sums ∧
      sums.length = combiner.length ∧ ∀ (band : ℕ) block, combiner[band]? = some block →
        coord sums band = coord values band + weightIn block output input * coord gain band := by
  induction combiner generalizing values gain with
  | nil =>
    obtain rfl := List.length_eq_zero_iff.mp hvalues
    exact ⟨[], rfl, rfl, by simp⟩
  | cons block blocks ih =>
    obtain ⟨value, values, rfl⟩ := List.exists_cons_of_length_eq_add_one hvalues
    obtain ⟨g, gain, rfl⟩ := List.exists_cons_of_length_eq_add_one hgain
    obtain ⟨w, hw, hvalue⟩ := h.weight List.mem_cons_self hinput
    obtain ⟨sums, hsums, hlength, hcoord⟩ :=
      ih h.tail (Nat.succ.inj hvalues) (Nat.succ.inj hgain)
    refine ⟨(value + w * g) :: sums, ?_, by rw [List.length_cons, hlength, List.length_cons], ?_⟩
    · rw [Evaluator.accumulate, hw]
      change (Except.bind (Evaluator.accumulate output input values blocks gain) _) = _
      rw [hsums]
      rfl
    · intro band block' hblock'
      cases band with
      | zero =>
        cases hblock'
        rw [coord_cons_zero, Phasor.toComplex_add, Phasor.toComplex_mul, hvalue]
        rfl
      | succ band => exact hcoord band block' hblock'

section Step

open Scalar

variable {R : Type} [Scalar R] {now : Nanoseconds} {l : Link R} {a b : Device R}
variable {combiner : Combiner R} {grid : SpectrumGrid R}
variable {beams : UInt8 → Except (Fault R) (Beam R × Beam R)}

/-- What an input layer does to the spectrum of an output layer. -/
def combineStep (now : Nanoseconds) (l : Link R) (a b : Device R) (combiner : Combiner R)
    (output : ℕ) (grid : SpectrumGrid R) (beams : UInt8 → Except (Fault R) (Beam R × Beam R))
    (spectrum : List (Phasor R)) (input : ℕ) : Action R (Evaluator R) (List (Phasor R)) := do
  if ← (Evaluator.isUnused output input combiner : Except (Fault R) Bool) then return spectrum
  let (aBeam, bBeam) ← beams input.toUInt8
  let gain ← Evaluator.gains now l a b aBeam bBeam grid
  Evaluator.accumulate output input spectrum combiner gain

theorem combinedGain_eq (layer : UInt8) :
    combinedGain now l a b combiner layer grid beams =
      if (combiner.head?.map List.length).getD 0 ≤ layer.toNat then
        return List.replicate grid.size 0
      else do
        let spectrum ← (List.range ((combiner.head?.map List.length).getD 0)).foldlM
          (combineStep now l a b combiner layer.toNat grid beams) (List.replicate grid.size .zero)
        return spectrum.map Phasor.normSq := rfl

end Step

section Loop

variable {now : Nanoseconds} {l : Link ℝ} {a b : Device ℝ} {grid : SpectrumGrid ℝ}
variable {beams : UInt8 → Except (Fault ℝ) (Beam ℝ × Beam ℝ)}

/-- An input layer without weights is skipped. -/
theorem combineStep_of_unused (h : Outputs combiner output size) (hinput : input < size)
    (hzero : ∀ block ∈ combiner, weightIn block output input = 0) (spectrum : List (Phasor ℝ))
    (s : Evaluator ℝ) :
    (combineStep now l a b combiner output grid beams spectrum input).run s = (.ok spectrum, s) := by
  obtain ⟨unused, hrun, hunused⟩ := h.isUnused hinput
  obtain rfl := hunused.mpr hzero
  have hlook : (liftM (Evaluator.isUnused output input combiner) :
      Action ℝ (Evaluator ℝ) Bool).run s = (.ok true, s) := by rw [Action.run_liftExcept, hrun]
  unfold combineStep
  rw [Action.run_bind_of_ok hlook]
  rfl

/-- An input layer with weights adds its gain times its weight, subband by subband. -/
theorem combineStep_of_used (h : Outputs combiner output size) (hinput : input < size)
    (hweight : ∃ block ∈ combiner, weightIn block output input ≠ 0) {x y : Beam ℝ}
    (hbeams : beams input.toUInt8 = .ok (x, y)) {s t : Evaluator ℝ} {gain spectrum : List (Phasor ℝ)}
    (hgains : (gains now l a b x y grid).run s = (.ok gain, t)) (hgain : gain.length = combiner.length)
    (hspectrum : spectrum.length = combiner.length) :
    ∃ sums, (combineStep now l a b combiner output grid beams spectrum input).run s = (.ok sums, t) ∧
      sums.length = combiner.length ∧ ∀ (band : ℕ) block, combiner[band]? = some block →
        coord sums band = coord spectrum band + weightIn block output input * coord gain band := by
  have hrun := h.isUnused_eq_false hinput hweight
  obtain ⟨sums, hsums, hlength, hcoord⟩ := h.accumulate hinput hspectrum hgain
  have hlook : (liftM (Evaluator.isUnused output input combiner) :
      Action ℝ (Evaluator ℝ) Bool).run s = (.ok false, s) := by rw [Action.run_liftExcept, hrun]
  have hbeam : (liftM (beams input.toUInt8) :
      Action ℝ (Evaluator ℝ) (Beam ℝ × Beam ℝ)).run s = (.ok (x, y), s) := by
    rw [Action.run_liftExcept, hbeams]
  refine ⟨sums, ?_, hlength, hcoord⟩
  unfold combineStep
  rw [Action.run_bind_of_ok hlook, if_neg Bool.false_ne_true, Action.run_bind_of_ok hbeam,
    Action.run_bind_of_ok hgains, Action.run_liftExcept, hsums]

/-- An input layer with weights needs its beams. -/
theorem combineStep_of_missing (h : Outputs combiner output size) (hinput : input < size)
    (hweight : ∃ block ∈ combiner, weightIn block output input ≠ 0) {e : Fault ℝ}
    (hbeams : beams input.toUInt8 = .error e) (spectrum : List (Phasor ℝ)) (s : Evaluator ℝ) :
    (combineStep now l a b combiner output grid beams spectrum input).run s = (.error e, s) := by
  have hlook : (liftM (Evaluator.isUnused output input combiner) :
      Action ℝ (Evaluator ℝ) Bool).run s = (.ok false, s) := by
    rw [Action.run_liftExcept, h.isUnused_eq_false hinput hweight]
  unfold combineStep
  rw [Action.run_bind_of_ok hlook, if_neg Bool.false_ne_true, Action.run_bind, Action.run_liftExcept,
    hbeams]

/-- The gains of an output layer are the powers of the weighted sums of what the input layers are
gained, as far as they have weights. Only these need beams. -/
theorem Outputs.combinedGain {layer : UInt8} (h : Outputs combiner layer.toNat size)
    (now : Nanoseconds) (l : Link ℝ) (a b : Device ℝ)
    (beams : UInt8 → Except (Fault ℝ) (Beam ℝ × Beam ℝ)) (gain : ℕ → List (Phasor ℝ))
    (Q : Evaluator ℝ → Prop) {s : Evaluator ℝ} (hs : Q s)
    (hlength : combiner.length = grid.size)
    (hsize : (combiner.head?.map List.length).getD 0 = size) (hlayer : layer.toNat < size)
    (hgains : ∀ input < size, (∃ block ∈ combiner, weightIn block layer.toNat input ≠ 0) →
      (gain input).length = grid.size ∧ ∃ x y, beams input.toUInt8 = .ok (x, y) ∧ ∀ t, Q t →
        ((gains now l a b x y grid).run t).1 = .ok (gain input) ∧
          Q ((gains now l a b x y grid).run t).2) :
    ∃ powers t, (combinedGain now l a b combiner layer grid beams).run s = (.ok powers, t) ∧ Q t ∧
      ∀ (band : ℕ) block, combiner[band]? = some block → powers[band]? =
        some (Complex.normSq (∑ input ∈ Finset.range size,
          weightIn block layer.toNat input * coord (gain input) band)) := by
  -- before each input layer the spectrum is the sum over the layers before it
  obtain ⟨spectrum, t, hrun, ht, hcount, hcoord⟩ := Action.run_foldlM_range (n := size)
    (f := combineStep now l a b combiner layer.toNat grid beams)
    (b := List.replicate grid.size Phasor.zero) (s := s)
    (P := fun m spectrum t => Q t ∧ spectrum.length = combiner.length ∧
      ∀ (band : ℕ) block, combiner[band]? = some block → coord spectrum band =
        ∑ input ∈ Finset.range m, weightIn block layer.toNat input * coord (gain input) band)
    (by
      refine ⟨hs, by rw [List.length_replicate, hlength], fun band block _ => ?_⟩
      rw [Finset.range_zero, Finset.sum_empty, coord, List.getElem?_replicate]
      split <;> exact Phasor.toComplex_zero)
    (by
      rintro input hinput spectrum t ⟨ht, hcount, hcoord⟩
      by_cases hweight : ∃ block ∈ combiner, weightIn block layer.toNat input ≠ 0
      · obtain ⟨hgain, x, y, hbeams, hdetermined⟩ := hgains input hinput hweight
        obtain ⟨hanswer, hkept⟩ := hdetermined t ht
        obtain ⟨sums, hstep, hsumsLength, hsumsCoord⟩ := combineStep_of_used h hinput hweight hbeams
          (Prod.ext hanswer rfl) (hgain.trans hlength.symm) hcount
        refine ⟨sums, _, hstep, hkept, hsumsLength, fun band block hblock => ?_⟩
        rw [hsumsCoord band block hblock, hcoord band block hblock, Finset.sum_range_succ]
      · push Not at hweight
        refine ⟨spectrum, t, combineStep_of_unused h hinput hweight spectrum t, ht, hcount,
          fun band block hblock => ?_⟩
        rw [Finset.sum_range_succ, hcoord band block hblock,
          hweight block (List.mem_of_getElem? hblock), zero_mul, add_zero])
  rw [combinedGain_eq, hsize, if_neg (not_le.mpr hlayer), Action.run_bind_of_ok hrun]
  refine ⟨_, t, rfl, ht, fun band block hblock => ?_⟩
  have hband : band < spectrum.length := hcount ▸ (List.getElem?_eq_some_iff.mp hblock).1
  rw [← hcoord band block hblock, List.getElem?_map, coord, List.getElem?_eq_getElem hband]
  rfl

end Loop

end Evaluator

end RadioChannel
