import RadioChannel.Proofs.Combining
import RadioChannel.Proofs.MatchedChannels
import RadioChannel.Proofs.Zeros

/-!
# The shape of a combiner's blocks

The block of a subband is square, up to the last layer of its bundle. Rows of other layers are zero, and
so are the weights of other layers in all rows. So the gain of an output layer asks for the beams of the
bundle's layers only, and an output layer that is not one of them radiates nothing.
-/

namespace RadioChannel

open Scalar

variable {R : Type} [Scalar R]

/-- A phasor that compares equal to zero. -/
def Phasor.Null (w : Phasor R) : Prop := (w == Phasor.zero) = true

theorem Phasor.null_iff {w : Phasor R} :
    w.Null ↔ (w.re == 0) = true ∧ (w.im == 0) = true := Bool.and_eq_true_iff

namespace Bundle

variable {layers : List UInt8} {layer : UInt8} {size : Nat}

/-- A row that has no weight at layers outside a bundle. -/
structure RowOf (layers : List UInt8) (size : Nat) (row : List (Phasor R)) : Prop where
  length : row.length = size
  null : ∀ (i : Nat) w, row[i]? = some w → i ∉ layers.map UInt8.toNat → w.Null

/-- A square block of such rows. Those of layers outside the bundle are zero. -/
structure BlockOf (layers : List UInt8) (size : Nat) (block : List (List (Phasor R))) : Prop where
  length : block.length = size
  row : ∀ (i : Nat) row, block[i]? = some row → RowOf layers size row
  zero : ∀ (i : Nat) row, block[i]? = some row → i ∉ layers.map UInt8.toNat →
    row = List.replicate size .zero

theorem combinerSize_le (layers : List UInt8) : combinerSize layers ≤ 256 := by
  have hfold : ∀ size ≤ 256,
      layers.foldl (fun size layer => max size (layer.toNat + 1)) size ≤ 256 := by
    induction layers with
    | nil => exact fun size hsize => hsize
    | cons first layers ih =>
      intro size hsize
      have hfirst := first.toNat_lt_size
      exact ih _ (max_le hsize hfirst)
  exact hfold 0 (Nat.zero_le _)

/-! ## Rows -/

theorem RowOf.set {row : List (Phasor R)} (h : RowOf layers size row) (hlayer : layer ∈ layers)
    (x : Phasor R) : RowOf layers size (row.set layer.toNat x) where
  length := by rw [List.length_set, h.length]
  null i w hw hi := by
    have hne : layer.toNat ≠ i := fun heq => hi (heq ▸ List.mem_map_of_mem hlayer)
    rw [List.getElem?_set_ne hne] at hw
    exact h.null i w hw hi

section Zeros

variable [Scalar.ZeroLaws R]

theorem null_zero : (Phasor.zero : Phasor R).Null :=
  Phasor.null_iff.mpr ⟨ZeroLaws.zero_beq, ZeroLaws.zero_beq⟩

theorem rowOf_replicate (layers : List UInt8) (size : Nat) :
    RowOf layers size (List.replicate size (Phasor.zero : Phasor R)) where
  length := List.length_replicate
  null i w hw _ := by
    rw [(List.eq_of_mem_replicate (List.mem_of_getElem? hw))]
    exact null_zero

/-- Normalizing a row leaves it without weight where it had none. -/
theorem RowOf.normalize {row : List (Phasor R)} (h : RowOf layers size row) :
    RowOf layers size (normalize row) where
  length := by rw [length_normalize, h.length]
  null i w hw hi := by
    unfold Bundle.normalize at hw
    dsimp only at hw
    split at hw
    · next hnorm =>
      rw [List.getElem?_map, Option.map_eq_some_iff] at hw
      obtain ⟨x, hx, rfl⟩ := hw
      obtain ⟨hre, him⟩ := Phasor.null_iff.mp (h.null i x hx hi)
      exact Phasor.null_iff.mpr ⟨ZeroLaws.null_div _ _ hre hnorm, ZeroLaws.null_div _ _ him hnorm⟩
    · exact h.null i w hw hi

theorem RowOf.combinerRow {row : List (Phasor R)} (h : RowOf layers size row)
    (coefficients : List (Phasor R)) : RowOf layers size (combinerRow layers coefficients row) := by
  have hwrite : ∀ (items : List (UInt8 × Phasor R)) (row : List (Phasor R)),
      (∀ item ∈ items, item.1 ∈ layers) → RowOf layers size row →
      RowOf layers size (items.foldl (fun row item => row.set item.1.toNat item.2) row) := by
    intro items
    induction items with
    | nil => exact fun _ _ hrow => hrow
    | cons item items ih =>
      intro row hitems hrow
      exact ih _ (fun i hi => hitems i (List.mem_cons_of_mem item hi))
        (hrow.set (hitems item List.mem_cons_self) item.2)
  exact (hwrite _ row (fun item hitem => (List.of_mem_zip hitem).1) h).normalize

/-! ## Blocks -/

theorem blockOf_replicate (layers : List UInt8) (size : Nat) :
    BlockOf layers size (List.replicate size (List.replicate size (Phasor.zero : Phasor R))) where
  length := List.length_replicate
  row i row hrow := by
    rw [List.eq_of_mem_replicate (List.mem_of_getElem? hrow)]
    exact rowOf_replicate layers size
  zero i row hrow _ := List.eq_of_mem_replicate (List.mem_of_getElem? hrow)

/-- Writing the row of a layer of the bundle. -/
theorem BlockOf.modify {block : List (List (Phasor R))} (h : BlockOf layers size block)
    (hlayer : layer ∈ layers) (coefficients : List (Phasor R)) :
    BlockOf layers size (block.modify layer.toNat (combinerRow layers coefficients)) where
  length := by rw [List.length_modify, h.length]
  row i row hrow := by
    by_cases hi : layer.toNat = i
    · rw [← hi, List.getElem?_modify_eq] at hrow
      obtain ⟨row', hrow', rfl⟩ := Option.map_eq_some_iff.mp hrow
      exact (h.row _ row' hrow').combinerRow coefficients
    · rw [List.getElem?_modify_ne _ _ hi] at hrow
      exact h.row i row hrow
  zero i row hrow hi := by
    have hne : layer.toNat ≠ i := fun heq => hi (heq ▸ List.mem_map_of_mem hlayer)
    rw [List.getElem?_modify_ne _ _ hne] at hrow
    exact h.zero i row hrow hi

theorem blockOf_combinerBlock (layers : List UInt8) (size : Nat) (precoder : Matrix R) :
    BlockOf layers size (combinerBlock size layers precoder) := by
  have hwrite : ∀ (items : List (UInt8 × Nat)) (block : List (List (Phasor R))),
      (∀ item ∈ items, item.1 ∈ layers) → BlockOf layers size block →
      BlockOf layers size (items.foldl (fun rows item => rows.modify item.1.toNat
        (combinerRow layers (precoder.map fun row => row[item.2]?.getD .zero))) block) := by
    intro items
    induction items with
    | nil => exact fun _ _ hblock => hblock
    | cons item items ih =>
      intro block hitems hblock
      exact ih _ (fun i hi => hitems i (List.mem_cons_of_mem item hi))
        (hblock.modify (hitems item List.mem_cons_self) _)
  exact hwrite _ _ (fun item hitem => List.fst_mem_of_mem_zipIdx hitem) (blockOf_replicate layers size)

end Zeros

end Bundle

/-! ## Combiners -/

open Evaluator

variable {layers : List UInt8} {layer : UInt8} {output input : Nat}

/-- A combiner whose blocks are those of a bundle. -/
def Combiner.Of (layers : List UInt8) (m : Combiner R) : Prop :=
  ∀ block ∈ m, Bundle.BlockOf layers (Bundle.combinerSize layers) block

variable {m : Combiner R}

theorem Combiner.Of.size (h : Combiner.Of layers m) (hne : m ≠ []) :
    (m.head?.map List.length).getD 0 = Bundle.combinerSize layers := by
  obtain ⟨block, blocks, rfl⟩ := List.exists_cons_of_ne_nil hne
  exact (h block List.mem_cons_self).length

theorem Bundle.BlockOf.weight {block : List (List (Phasor R))} {size : Nat}
    (h : Bundle.BlockOf layers size block) (houtput : output < size) (hinput : input < size) :
    ∃ row w, block[output]? = some row ∧ row[input]? = some w ∧
      weight block output input = .ok w := by
  obtain ⟨row, hrow⟩ : ∃ row, block[output]? = some row :=
    ⟨_, List.getElem?_eq_getElem (by rw [h.length]; exact houtput)⟩
  obtain ⟨w, hw⟩ : ∃ w, row[input]? = some w :=
    ⟨_, List.getElem?_eq_getElem (by rw [(h.row output row hrow).length]; exact hinput)⟩
  refine ⟨row, w, hrow, hw, ?_⟩
  unfold Evaluator.weight
  rw [entryAt_ok.mpr hrow]
  exact entryAt_ok.mpr hw

/-- Adding an input layer never looks outside the blocks. -/
theorem Combiner.Of.accumulate (h : Combiner.Of layers m)
    (houtput : output < Bundle.combinerSize layers) (hinput : input < Bundle.combinerSize layers)
    (values gains : List (Phasor R)) :
    ∃ sums, accumulate output input values m gains = .ok sums := by
  induction m generalizing values gains with
  | nil =>
    cases values with
    | nil => exact ⟨[], rfl⟩
    | cons value values => exact ⟨value :: values, rfl⟩
  | cons block m ih =>
    cases values with
    | nil => exact ⟨[], rfl⟩
    | cons value values =>
      cases gains with
      | nil => exact ⟨value :: values, rfl⟩
      | cons gain gains =>
        obtain ⟨-, w, -, -, hw⟩ := (h block List.mem_cons_self).weight houtput hinput
        obtain ⟨sums, hsums⟩ :=
          ih (fun block' hblock' => h block' (List.mem_cons_of_mem block hblock')) values gains
        refine ⟨(value + w * gain) :: sums, ?_⟩
        unfold Evaluator.accumulate
        rw [hw]
        change Except.bind (Evaluator.accumulate output input values m gains) _ = _
        rw [hsums]
        rfl

variable [Scalar.ZeroLaws R]

/-- Input layers that are used are of the bundle, and so are the outputs that use them. -/
theorem Combiner.Of.isUnused (h : Combiner.Of layers m)
    (houtput : output < Bundle.combinerSize layers) (hinput : input < Bundle.combinerSize layers) :
    ∃ unused, isUnused output input m = .ok unused ∧
      (unused = false → output ∈ layers.map UInt8.toNat ∧ input ∈ layers.map UInt8.toNat) := by
  induction m with
  | nil => exact ⟨true, rfl, fun h => by cases h⟩
  | cons block m ih =>
    have hblock := h block List.mem_cons_self
    obtain ⟨row, w, hrow, hw, hweight⟩ := hblock.weight houtput hinput
    unfold Evaluator.isUnused
    rw [hweight]
    dsimp only
    by_cases hnull : (w == Phasor.zero) = true
    · rw [if_pos hnull]
      exact ih fun block' hblock' => h block' (List.mem_cons_of_mem block hblock')
    · rw [if_neg hnull]
      refine ⟨false, rfl, fun _ => ⟨?_, ?_⟩⟩
      · by_contra hout
        have hzero := hblock.zero output row hrow hout
        rw [hzero] at hw
        rw [List.eq_of_mem_replicate (List.mem_of_getElem? hw)] at hnull
        exact hnull Bundle.null_zero
      · by_contra hin
        exact hnull ((hblock.row output row hrow).null input w hw hin)

/-! ## Gains of output layers -/

section Gains

variable {now : Nanoseconds} {l : Link R} {a b : Device R} {grid : SpectrumGrid R}
variable {beams : UInt8 → Except (Fault R) (Beam R × Beam R)}

/-- No input layer is used by a layer outside the bundle. -/
theorem Combiner.Of.combineStep_outside (h : Combiner.Of layers m)
    (houtput : output < Bundle.combinerSize layers) (hinput : input < Bundle.combinerSize layers)
    (houtside : output ∉ layers.map UInt8.toNat) (spectrum : List (Phasor R)) (v : Evaluator R) :
    (combineStep now l a b m output grid beams spectrum input).run v = (.ok spectrum, v) := by
  obtain ⟨unused, hunused, hused⟩ := h.isUnused houtput hinput
  cases unused with
  | false => exact absurd (hused rfl).1 houtside
  | true =>
    have hlook : (liftM (Evaluator.isUnused output input m) :
        Action R (Evaluator R) Bool).run v = (.ok true, v) := by rw [Action.run_liftExcept, hunused]
    unfold combineStep
    rw [Action.run_bind_of_ok hlook]
    rfl

/-- With a beam for each layer of the bundle every input layer can be added. -/
theorem Combiner.Of.combineStep_ok (h : Combiner.Of layers m)
    (houtput : output < Bundle.combinerSize layers) (hinput : input < Bundle.combinerSize layers)
    (hbeams : ∀ layer ∈ layers, ∃ pair, beams layer = .ok pair ∧ l.Between pair.2.size pair.1.size)
    (spectrum : List (Phasor R)) (v : Evaluator R) : ∃ sums v',
    (combineStep now l a b m output grid beams spectrum input).run v = (.ok sums, v') := by
  obtain ⟨unused, hunused, hused⟩ := h.isUnused houtput hinput
  have hlook : (liftM (Evaluator.isUnused output input m) :
      Action R (Evaluator R) Bool).run v = (.ok unused, v) := by rw [Action.run_liftExcept, hunused]
  unfold combineStep
  rw [Action.run_bind_of_ok hlook]
  cases unused with
  | true => exact ⟨spectrum, v, rfl⟩
  | false =>
    obtain ⟨layer, hlayer, rfl⟩ := List.mem_map.mp (hused rfl).2
    obtain ⟨⟨x, y⟩, hpair, hbetween⟩ := hbeams layer hlayer
    have hbeam : (liftM (beams layer.toNat.toUInt8) :
        Action R (Evaluator R) (Beam R × Beam R)).run v = (.ok (x, y), v) := by
      rw [Action.run_liftExcept, Nat.toUInt8_eq, UInt8.ofNat_toNat, hpair]
    obtain ⟨gain, v', hgain, -⟩ := run_gains_ok hbetween now a b grid v
    obtain ⟨sums, hsums⟩ := h.accumulate houtput hinput spectrum gain
    refine ⟨sums, v', ?_⟩
    rw [if_neg Bool.false_ne_true, Action.run_bind_of_ok hbeam, Action.run_bind_of_ok hgain,
      Action.run_liftExcept, hsums]

/-- What is sent on a layer outside the bundle is lost. -/
theorem Combiner.Of.combinedGain_outside (h : Combiner.Of layers m) (hne : m ≠ [])
    (houtside : layer ∉ layers) (v : Evaluator R) :
    (combinedGain now l a b m layer grid beams).run v = (.ok (List.replicate grid.size 0), v) := by
  rw [combinedGain_eq, h.size hne]
  split
  · rfl
  next hsize =>
  have houtput : layer.toNat < Bundle.combinerSize layers := Nat.lt_of_not_le hsize
  have hout : layer.toNat ∉ layers.map UInt8.toNat := by
    intro hmem
    obtain ⟨layer', hlayer', heq⟩ := List.mem_map.mp hmem
    exact houtside (UInt8.toNat_inj.mp heq ▸ hlayer')
  obtain ⟨spectrum, v', hrun, hspectrum, hv⟩ := Action.run_foldlM_range
    (n := Bundle.combinerSize layers)
    (f := combineStep now l a b m layer.toNat grid beams)
    (b := List.replicate grid.size Phasor.zero) (s := v)
    (P := fun _ spectrum t => spectrum = List.replicate grid.size Phasor.zero ∧ t = v) ⟨rfl, rfl⟩
    (by
      rintro input hinput spectrum t ⟨rfl, rfl⟩
      exact ⟨_, _, h.combineStep_outside houtput hinput hout _ _, rfl, rfl⟩)
  rw [Action.run_bind_of_ok hrun, hspectrum, hv]
  have hzero : (Phasor.zero : Phasor R).normSq = 0 := by
    rw [Phasor.normSq, Phasor.zero, ZeroLaws.zero_mul_zero, ZeroLaws.zero_add_zero]
  change (Except.ok ((List.replicate grid.size Phasor.zero).map Phasor.normSq), v) = _
  rw [List.map_replicate, hzero]

/-- With a beam for each layer of the bundle any layer can be sent on. -/
theorem Combiner.Of.combinedGain_ok (h : Combiner.Of layers m) (hne : m ≠ [])
    (hbeams : ∀ layer ∈ layers, ∃ pair, beams layer = .ok pair ∧ l.Between pair.2.size pair.1.size)
    (layer : UInt8) (v : Evaluator R) : ∃ powers v',
      (combinedGain now l a b m layer grid beams).run v = (.ok powers, v') := by
  rw [combinedGain_eq, h.size hne]
  split
  · exact ⟨_, v, rfl⟩
  next hsize =>
  obtain ⟨spectrum, v', hrun, -⟩ := Action.run_foldlM_range
    (n := Bundle.combinerSize layers)
    (f := combineStep now l a b m layer.toNat grid beams)
    (b := List.replicate grid.size Phasor.zero) (s := v) (P := fun _ _ _ => True) trivial
    (by
      intro input hinput spectrum t _
      obtain ⟨sums, t', hstep⟩ :=
        h.combineStep_ok (Nat.lt_of_not_le hsize) hinput hbeams spectrum t
      exact ⟨sums, t', hstep, trivial⟩)
  rw [Action.run_bind_of_ok hrun]
  exact ⟨_, v', rfl⟩

end Gains

end RadioChannel
