import RadioChannel.Proofs.Combining
import RadioChannel.Proofs.FlatGains
import RadioChannel.Proofs.MatchedChannels

/-!
# Gains through a combiner

An output layer of a combiner has the power of a weighted sum over the input layers. The sum leaves out
the layers that have no weight in any subband, and only these may be without a beam. At whichever end of
the link the combiner is, the other end has one beam for all input layers.
-/

namespace RadioChannel

open ExactScalars

/-! ## Square combiners -/

namespace Combiner

variable {m : Combiner ℝ} {bands size output : ℕ}

/-- A combiner with a square block of a size for each subband. -/
structure Square (m : Combiner ℝ) (bands size : ℕ) : Prop where
  bands : m.length = bands
  height : ∀ block ∈ m, block.length = size
  width : ∀ block ∈ m, ∀ row ∈ block, row.length = size

theorem Square.size_eq (h : m.Square bands size) (hbands : 0 < bands) :
    (m.head?.map List.length).getD 0 = size := by
  obtain ⟨block, blocks, rfl⟩ := List.exists_cons_of_length_pos (h.bands ▸ hbands)
  exact h.height block List.mem_cons_self

theorem Square.outputs (h : m.Square bands size) (houtput : output < size) :
    Evaluator.Outputs m output size := by
  intro block hblock
  have hrow : output < block.length := (h.height block hblock).symm ▸ houtput
  exact ⟨block[output], List.getElem?_eq_getElem hrow, h.width block hblock _ (List.getElem_mem hrow)⟩

/-- An input layer has a weight in an output layer, in some subband. -/
def Feeds (m : Combiner ℝ) (output input : ℕ) : Prop :=
  ∃ block ∈ m, Evaluator.weightIn block output input ≠ 0

/-- The combiner that takes its only layer as it is, in so many subbands. -/
def identity (bands : ℕ) : Combiner ℝ := List.replicate bands [[⟨1, 0⟩]]

theorem weightIn_of_not_feeds {input : ℕ} (h : ¬m.Feeds output input) {block : List (List (Phasor ℝ))}
    (hblock : block ∈ m) : Evaluator.weightIn block output input = 0 := by
  by_contra hne
  exact h ⟨block, hblock, hne⟩

end Combiner

/-- A device with a combiner set on its array. -/
def Device.combining (d : Device ℝ) (m : Combiner ℝ) : Device ℝ := { d with array := d.array.setCombiner m }

/-- A beam that is set is the active one of its layer. -/
theorem AntennaArray.current_setBeam (array : AntennaArray ℝ) (peer : NodeId) (layer i : UInt8) (beam : Beam ℝ)
    (now : Nanoseconds) :
    (array.setBeam peer layer beam now).current[i]? =
      if layer = i then some beam else array.current[i]? := by
  change (array.current.insert layer beam)[i]? = _
  simp only [Std.TreeMap.getElem?_insert, Std.LawfulEqCmp.compare_eq_iff_eq]

namespace Evaluator

/-! ## Coefficients of a link -/

/-- Gains that a link is answered with between two beams: those of a projection made anew, or of one
that was kept and still fits. -/
def Gains (s : Evaluator ℝ) (now : Nanoseconds) (l : Link ℝ) (a b : Device ℝ) (x y : Beam ℝ)
    (grid : SpectrumGrid ℝ) (gain : List (Phasor ℝ)) : Prop :=
  s.freshGains now l a b x y grid = .ok gain ∨
    ∃ p, s.projections[projectionKey a.id b.id x y]? = some p ∧ p.fits l.realization x y = true ∧
      gain = l.gains p.coefficients (s.doppler now l a b) grid

variable {s t u : Evaluator ℝ} {now : Nanoseconds} {l : Link ℝ} {a b : Device ℝ} {x y : Beam ℝ}
variable {grid : SpectrumGrid ℝ} {gain : List (Phasor ℝ)}

/-- If the cache answers what a new projection would, the gains are those of a new projection. -/
theorem Gains.fresh (h : s.Gains now l a b x y grid gain) {uses : Beam ℝ → Beam ℝ → Prop}
    (hfaithful : s.Faithful l a.id b.id uses) (hxy : uses x y) :
    s.freshGains now l a b x y grid = .ok gain := by
  rcases h with hfresh | ⟨p, hp, hfits, rfl⟩
  · exact hfresh
  · rw [freshGains, hfaithful x y p hxy hp hfits]
    rfl

theorem exists_freshGains (hfit : l.Between y.size x.size) :
    ∃ gain, s.freshGains now l a b x y grid = .ok gain := by
  obtain ⟨coefficients, hproject⟩ := Link.exists_project hfit
  exact ⟨_, except_bind_ok.mpr ⟨coefficients, hproject, rfl⟩⟩

/-- A later evaluator has kept no gains of a link that were not there, but for new projections. -/
structure Continues (s t : Evaluator ℝ) (now : Nanoseconds) (l : Link ℝ) (a b : Device ℝ)
    (grid : SpectrumGrid ℝ) : Prop where
  generator : t.generator = s.generator
  gains : ∀ x y gain, t.Gains now l a b x y grid gain → s.Gains now l a b x y grid gain

theorem Continues.refl (s : Evaluator ℝ) : s.Continues s now l a b grid := ⟨rfl, fun _ _ _ h => h⟩

theorem doppler_congr (h : t.generator = s.generator) :
    t.doppler now l a b = s.doppler now l a b := by
  rw [doppler, doppler, h]

theorem Continues.remember (h : s.Continues t now l a b grid) {cs : List (Phasor ℝ)}
    (hcs : l.project x.weights y.weights = .ok cs) :
    s.Continues (t.remember l a.id b.id x y cs) now l a b grid := by
  have hdoppler : (t.remember l a.id b.id x y cs).doppler now l a b = s.doppler now l a b :=
    doppler_congr h.generator
  refine ⟨h.generator, ?_⟩
  rintro x' y' gain (hfresh | ⟨p, hp, hfits, rfl⟩)
  · left
    rw [freshGains, hdoppler] at hfresh
    exact hfresh
  change (t.projections.insert _ _)[_]? = some p at hp
  rw [Std.HashMap.getElem?_insert] at hp
  split at hp
  · -- the projection that was kept last
    left
    obtain rfl := Option.some.inj hp
    obtain ⟨-, hx, hy⟩ := fits_iff.mp hfits
    obtain ⟨hdx, hdy⟩ := discerns_exact (fun _ _ => True) x y x' y' trivial trivial
    rw [hdoppler, freshGains, ← hdx hx, ← hdy hy, hcs]
    rfl
  · rw [hdoppler, ← doppler_congr h.generator]
    exact h.gains x' y' _ (Or.inr ⟨p, hp, hfits, rfl⟩)

/-- Between beams for its ends a link has gains, whatever was asked for in between. -/
theorem Continues.run_gains (h : s.Continues t now l a b grid) (hfit : l.Between y.size x.size) :
    ∃ gain t', (Evaluator.gains now l a b x y grid).run t = (.ok gain, t') ∧ gain.length = grid.size ∧
      s.Gains now l a b x y grid gain ∧ s.Continues t' now l a b grid := by
  have hlength : ∀ cs doppler, (l.gains cs doppler grid).length = grid.size := by
    intro cs doppler
    exact List.length_map _
  have hrun : ∀ cs t', (projection l a.id b.id x y).run t = (.ok cs, t') →
      (Evaluator.gains now l a b x y grid).run t = (.ok (l.gains cs (t'.doppler now l a b) grid), t') := by
    intro cs t' hprojection
    unfold Evaluator.gains
    rw [Action.run_bind_of_ok hprojection, Action.run_bind_of_ok (Action.run_get t')]
    rfl
  rcases projection_cases t l a.id b.id x y with ⟨p, hp, hfits, hprojection⟩ | ⟨e, he, -⟩ |
    ⟨cs, hcs, hprojection⟩
  · exact ⟨_, t, hrun _ _ hprojection, hlength _ _, h.gains x y _ (Or.inr ⟨p, hp, hfits, rfl⟩), h⟩
  · obtain ⟨cs, hcs⟩ : ∃ cs, l.project x.weights y.weights = .ok cs := Link.exists_project hfit
    rw [hcs] at he
    cases he
  · have hnew : (t.remember l a.id b.id x y cs).Gains now l a b x y grid
        (l.gains cs ((t.remember l a.id b.id x y cs).doppler now l a b) grid) := by
      left
      rw [freshGains, hcs]
      rfl
    have hlater := h.remember hcs
    exact ⟨_, _, hrun _ _ hprojection, hlength _ _, hlater.gains x y _ hnew, hlater⟩

/-! ## Input layers -/

/-- The beams of both ends for an input layer, if it has any. -/
def asked (pairs : UInt8 → Option (Beam ℝ × Beam ℝ)) (input : UInt8) :
    Except (Fault ℝ) (Beam ℝ × Beam ℝ) :=
  match pairs input with
  | some pair => .ok pair
  | none => .error (.missingBeam input)

theorem asked_of_some {pairs : UInt8 → Option (Beam ℝ × Beam ℝ)} {input : UInt8}
    {pair : Beam ℝ × Beam ℝ} (h : pairs input = some pair) : asked pairs input = .ok pair := by
  rw [asked, h]

theorem asked_of_none {pairs : UInt8 → Option (Beam ℝ × Beam ℝ)} {input : UInt8}
    (h : pairs input = none) : asked pairs input = .error (.missingBeam input) := by
  rw [asked, h]

section Loop

variable {m : Combiner ℝ} {size output input : ℕ} {pairs : UInt8 → Option (Beam ℝ × Beam ℝ)}
variable {spectrum : List (Phasor ℝ)}

/-- What an input layer contributes to a subband: nothing without beams, and else its gain times its
weight. -/
noncomputable def contribution (pairs : UInt8 → Option (Beam ℝ × Beam ℝ)) (block : List (List (Phasor ℝ)))
    (output input : ℕ) (gain : ℂ) : ℂ :=
  if (pairs input.toUInt8).isSome then weightIn block output input * gain else 0

/-- An input layer that has beams, or no weights, adds its contribution to all subbands. -/
theorem Continues.combineStep (h : s.Continues t now l a b grid) (hm : m.Square grid.size size)
    (houtput : output < size) (hinput : input < size)
    (hfits : ∀ i x y, pairs i = some (x, y) → l.Between y.size x.size)
    (hbeams : m.Feeds output input → (pairs input.toUInt8).isSome)
    (hspectrum : spectrum.length = grid.size) :
    ∃ sums t' gain, (combineStep now l a b m output grid (asked pairs) spectrum input).run t =
        (.ok sums, t') ∧ s.Continues t' now l a b grid ∧ sums.length = grid.size ∧
      (∀ x y, pairs input.toUInt8 = some (x, y) → s.Gains now l a b x y grid gain) ∧
      ∀ (band : ℕ) block, m[band]? = some block → coord sums band =
        coord spectrum band + contribution pairs block output input (coord gain band) := by
  have houtputs := hm.outputs houtput
  have hskip : ¬m.Feeds output input →
      (Evaluator.combineStep now l a b m output grid (asked pairs) spectrum input).run t =
        (.ok spectrum, t) := by
    intro hunfed
    exact combineStep_of_unused houtputs hinput
      (fun block hblock => Combiner.weightIn_of_not_feeds hunfed hblock) spectrum t
  cases hpair : pairs input.toUInt8 with
  | none =>
    have hunfed : ¬m.Feeds output input := by
      intro hfeeds
      have hsome := hbeams hfeeds
      rw [hpair] at hsome
      cases hsome
    refine ⟨spectrum, t, [], hskip hunfed, h, hspectrum, ?_, ?_⟩
    · intro x y hsome
      cases hsome
    · intro band block _
      simp [contribution, hpair]
  | some pair =>
    obtain ⟨x, y⟩ := pair
    have hfit := hfits _ x y hpair
    by_cases hfeeds : m.Feeds output input
    · obtain ⟨gain, t', hgains, hlength, hgain, hcontinues⟩ := h.run_gains hfit
      obtain ⟨sums, hrun, hsums, hcoord⟩ := combineStep_of_used houtputs hinput hfeeds
        (asked_of_some hpair) hgains (hlength.trans hm.bands.symm) (hspectrum.trans hm.bands.symm)
      refine ⟨sums, t', gain, hrun, hcontinues, hsums.trans hm.bands, ?_, ?_⟩
      · rintro x' y' hsame
        cases hsame
        exact hgain
      · intro band block hblock
        rw [hcoord band block hblock, contribution, hpair, Option.isSome_some, if_pos rfl]
    · -- its gains do not matter
      obtain ⟨gain, hfresh⟩ : ∃ gain, s.freshGains now l a b x y grid = .ok gain := exists_freshGains hfit
      refine ⟨spectrum, t, gain, hskip hfeeds, h, hspectrum, ?_, ?_⟩
      · rintro x' y' hsame
        cases hsame
        exact Or.inl hfresh
      · intro band block hblock
        rw [contribution, Combiner.weightIn_of_not_feeds hfeeds (List.mem_of_getElem? hblock), zero_mul,
          ite_self, add_zero]

variable (now) (a b)

/-- As long as no input layer lacks beams, the spectrum is the sum of the contributions so far. -/
theorem run_combineSteps (hm : m.Square grid.size size) (houtput : output < size)
    (hfits : ∀ i x y, pairs i = some (x, y) → l.Between y.size x.size) {count : ℕ} (hcount : count ≤ size)
    (hbeams : ∀ input < count, m.Feeds output input → (pairs input.toUInt8).isSome) (s : Evaluator ℝ) :
    ∃ spectrum t, ((List.range count).foldlM (combineStep now l a b m output grid (asked pairs))
        (List.replicate grid.size .zero)).run s = (.ok spectrum, t) ∧ spectrum.length = grid.size ∧
      ∃ gain : ℕ → List (Phasor ℝ),
        (∀ input < count, ∀ x y, pairs input.toUInt8 = some (x, y) →
          s.Gains now l a b x y grid (gain input)) ∧
        ∀ (band : ℕ) block, m[band]? = some block → coord spectrum band =
          ∑ input ∈ Finset.range count, contribution pairs block output input (coord (gain input) band) := by
  obtain ⟨spectrum, t, hrun, -, hlength, gain, hgains, hcoord⟩ := Action.run_foldlM_range (n := count)
    (f := combineStep now l a b m output grid (asked pairs))
    (b := List.replicate grid.size Phasor.zero) (s := s)
    (P := fun done spectrum t => s.Continues t now l a b grid ∧ spectrum.length = grid.size ∧
      ∃ gain : ℕ → List (Phasor ℝ),
        (∀ input < done, ∀ x y, pairs input.toUInt8 = some (x, y) →
          s.Gains now l a b x y grid (gain input)) ∧
        ∀ (band : ℕ) block, m[band]? = some block → coord spectrum band =
          ∑ input ∈ Finset.range done, contribution pairs block output input (coord (gain input) band))
    (by
      refine ⟨.refl s, List.length_replicate, fun _ => [], ?_, ?_⟩
      · intro input hinput
        exact absurd hinput (Nat.not_lt_zero input)
      · intro band block _
        rw [Finset.range_zero, Finset.sum_empty, coord, List.getElem?_replicate]
        split <;> exact Phasor.toComplex_zero)
    (by
      rintro input hinput spectrum t ⟨hcontinues, hlength, gain, hgains, hcoord⟩
      obtain ⟨sums, t', new, hrun, hcontinues', hlength', hnew, hsums⟩ := hcontinues.combineStep hm houtput
        (hinput.trans_le hcount) hfits (hbeams input hinput) hlength
      refine ⟨sums, t', hrun, hcontinues', hlength', Function.update gain input new, ?_, ?_⟩
      · intro i hi x y hpair
        rcases Nat.lt_succ_iff_lt_or_eq.mp hi with hlt | rfl
        · rw [Function.update_of_ne hlt.ne]
          exact hgains i hlt x y hpair
        · rw [Function.update_self]
          exact hnew x y hpair
      · intro band block hblock
        have hbefore : ∀ i ∈ Finset.range input,
            contribution pairs block output i (coord (Function.update gain input new i) band) =
              contribution pairs block output i (coord (gain i) band) := by
          intro i hi
          rw [Function.update_of_ne (Finset.mem_range.mp hi).ne]
        rw [hsums band block hblock, hcoord band block hblock, Finset.sum_range_succ,
          Finset.sum_congr rfl hbefore, Function.update_self])
  exact ⟨spectrum, t, hrun, hlength, gain, hgains, hcoord⟩

/-- Powers of an output layer, subband by subband: of the sum over all input layers with beams of their
gains times their weights. -/
structure Combined (m : Combiner ℝ) (grid : SpectrumGrid ℝ) (pairs : UInt8 → Option (Beam ℝ × Beam ℝ))
    (size output : ℕ) (gain : ℕ → List (Phasor ℝ)) (powers : List ℝ) : Prop where
  length : powers.length = grid.size
  power : ∀ (band : ℕ) block, m[band]? = some block → powers[band]? = some (Complex.normSq
    (∑ input ∈ Finset.range size, contribution pairs block output input (coord (gain input) band)))

/-- The first input layer that has a weight in an output layer, and no beams. -/
structure FirstLacking (m : Combiner ℝ) (pairs : UInt8 → Option (Beam ℝ × Beam ℝ))
    (size output input : ℕ) : Prop where
  lt : input < size
  feeds : m.Feeds output input
  lacks : pairs input.toUInt8 = none
  first : ∀ before < input, m.Feeds output before → (pairs before.toUInt8).isSome

theorem exists_firstLacking (h : ∃ input < size, m.Feeds output input ∧ pairs input.toUInt8 = none) :
    ∃ input, FirstLacking m pairs size output input := by
  classical
  obtain ⟨hlt, hfeeds, hlacks⟩ := Nat.find_spec h
  refine ⟨Nat.find h, hlt, hfeeds, hlacks, ?_⟩
  intro before hbefore hfed
  rw [Option.isSome_iff_ne_none]
  intro hnone
  exact Nat.find_min h hbefore ⟨hbefore.trans hlt, hfed, hnone⟩

variable {layer : UInt8}

theorem combinedGain_outside (hm : m.Square grid.size size) (houtside : size ≤ layer.toNat)
    (beams : UInt8 → Except (Fault ℝ) (Beam ℝ × Beam ℝ)) (s : Evaluator ℝ) :
    ((combinedGain now l a b m layer grid beams).run s).1 = .ok (List.replicate grid.size 0) := by
  rw [combinedGain_eq, hm.size_eq grid.size_pos, if_pos houtside, zero_eq]
  rfl

/-- An output layer fails at the first input layer that it needs and that has no beams. -/
theorem combinedGain_lacking (hm : m.Square grid.size size)
    (hfits : ∀ i x y, pairs i = some (x, y) → l.Between y.size x.size) (houtput : layer.toNat < size)
    (hinput : FirstLacking m pairs size layer.toNat input) (s : Evaluator ℝ) :
    ((combinedGain now l a b m layer grid (asked pairs)).run s).1 = .error (.missingBeam input.toUInt8) := by
  obtain ⟨spectrum, t, hrun, -⟩ :=
    run_combineSteps now a b hm houtput hfits hinput.lt.le hinput.first s
  have hfail : (combineStep now l a b m layer.toNat grid (asked pairs) spectrum input).run t =
      (.error (.missingBeam input.toUInt8), t) :=
    combineStep_of_missing (hm.outputs houtput) hinput.lt hinput.feeds (asked_of_none hinput.lacks) spectrum t
  rw [combinedGain_eq, hm.size_eq grid.size_pos, if_neg (not_le.mpr houtput), Action.run_bind,
    Action.run_foldlM_range_error hinput.lt hrun hfail]

/-- An output layer has the powers of all contributions together, if the input layers that it needs have
beams. -/
theorem combinedGain_ok (hm : m.Square grid.size size)
    (hfits : ∀ i x y, pairs i = some (x, y) → l.Between y.size x.size) (houtput : layer.toNat < size)
    (hbeams : ∀ input < size, m.Feeds layer.toNat input → (pairs input.toUInt8).isSome)
    (s : Evaluator ℝ) :
    ∃ powers gain, ((combinedGain now l a b m layer grid (asked pairs)).run s).1 = .ok powers ∧
      (∀ input < size, ∀ x y, pairs input.toUInt8 = some (x, y) →
        s.Gains now l a b x y grid (gain input)) ∧
      Combined m grid pairs size layer.toNat gain powers := by
  obtain ⟨spectrum, t, hrun, hlength, gain, hgains, hcoord⟩ :=
    run_combineSteps now a b hm houtput hfits le_rfl hbeams s
  refine ⟨spectrum.map Phasor.normSq, gain, ?_, hgains, ?_, ?_⟩
  · rw [combinedGain_eq, hm.size_eq grid.size_pos, if_neg (not_le.mpr houtput), Action.run_bind_of_ok hrun]
    rfl
  · rw [List.length_map, hlength]
  · intro band block hblock
    have hband : band < spectrum.length := by
      rw [hlength, ← hm.bands]
      exact (List.getElem?_eq_some_iff.mp hblock).1
    rw [← hcoord band block hblock, List.getElem?_map, coord, List.getElem?_eq_getElem hband]
    rfl

/-- What does not lack beams that it needs has one power for each subband. -/
theorem combinedGain_answers (hm : m.Square grid.size size)
    (hfits : ∀ i x y, pairs i = some (x, y) → l.Between y.size x.size)
    (h : ¬(layer.toNat < size ∧
      ∃ input < size, m.Feeds layer.toNat input ∧ pairs input.toUInt8 = none)) (s : Evaluator ℝ) :
    ∃ powers, ((combinedGain now l a b m layer grid (asked pairs)).run s).1 = .ok powers ∧
      powers.length = grid.size := by
  rcases le_or_gt size layer.toNat with houtside | houtput
  · exact ⟨_, combinedGain_outside now a b hm houtside (asked pairs) s, List.length_replicate⟩
  · have hbeams : ∀ input < size, m.Feeds layer.toNat input → (pairs input.toUInt8).isSome := by
      intro input hinput hfeeds
      rw [Option.isSome_iff_ne_none]
      intro hlacks
      exact h ⟨houtput, input, hinput, hfeeds, hlacks⟩
    obtain ⟨powers, gain, hok, -, hcombined⟩ := combinedGain_ok now a b hm hfits houtput hbeams s
    exact ⟨powers, hok, hcombined.length⟩

theorem combinedGain_error_iff (hm : m.Square grid.size size)
    (hfits : ∀ i x y, pairs i = some (x, y) → l.Between y.size x.size) (s : Evaluator ℝ) :
    (∃ e, ((combinedGain now l a b m layer grid (asked pairs)).run s).1 = .error e) ↔
      layer.toNat < size ∧ ∃ input < size, m.Feeds layer.toNat input ∧ pairs input.toUInt8 = none := by
  constructor
  · rintro ⟨e, he⟩
    by_contra hnone
    obtain ⟨powers, hok, -⟩ := combinedGain_answers now a b hm hfits hnone s
    cases he.symm.trans hok
  · rintro ⟨houtput, hlacking⟩
    obtain ⟨input, hinput⟩ := exists_firstLacking hlacking
    exact ⟨_, combinedGain_lacking now a b hm hfits houtput hinput s⟩

end Loop

/-! ## Either end -/

/-- One of two devices combines, and the other one has a beam. The output layer is the layer of the device
that combines; for its input layers the beams of both ends are its own, if there is one, and that beam. -/
inductive Through (m : Combiner ℝ) (a b : Device ℝ) (aLayer bLayer : UInt8) :
    UInt8 → (UInt8 → Option (Beam ℝ × Beam ℝ)) → Prop where
  /-- The sender combines. -/
  | sending {y : Beam ℝ} : a.array.combiner = some m → b.array.combiner = none →
      b.array.current[bLayer]? = some y →
      Through m a b aLayer bLayer aLayer fun input => a.array.current[input]?.map fun x => (x, y)
  /-- The receiver combines. -/
  | receiving {x : Beam ℝ} : a.array.combiner = none → b.array.combiner = some m →
      a.array.current[aLayer]? = some x →
      Through m a b aLayer bLayer bLayer fun input => b.array.current[input]?.map fun y => (x, y)

theorem beam_map_eq (x : AntennaArray ℝ) (pair : Beam ℝ → Beam ℝ × Beam ℝ) :
    (fun input => (x.beam input).map pair) = asked fun input => x.current[input]?.map pair := by
  funext input
  unfold AntennaArray.beam asked
  dsimp only
  cases x.current[input]? with
  | none => rfl
  | some beam => rfl

theorem run_beam {array : AntennaArray ℝ} {layer : UInt8} {beam : Beam ℝ}
    (h : array.current[layer]? = some beam) (s : Evaluator ℝ) :
    (liftM (array.beam layer) : Action ℝ (Evaluator ℝ) (Beam ℝ)).run s = (.ok beam, s) := by
  rw [Action.run_liftExcept, AntennaArray.beam, h]

theorem run_powerGain {m : Combiner ℝ} {aLayer bLayer layer : UInt8}
    {pairs : UInt8 → Option (Beam ℝ × Beam ℝ)} (h : Through m a b aLayer bLayer layer pairs)
    (now : Nanoseconds) (l : Link ℝ) (grid : SpectrumGrid ℝ) (s : Evaluator ℝ) :
    (powerGain now l a b aLayer bLayer grid).run s =
      (combinedGain now l a b m layer grid (asked pairs)).run s := by
  unfold powerGain
  cases h with
  | sending ha hb hy =>
    rw [ha, hb]
    dsimp only
    rw [Action.run_bind_of_ok (run_beam hy s), beam_map_eq]
  | receiving ha hb hx =>
    rw [ha, hb]
    dsimp only
    rw [Action.run_bind_of_ok (run_beam hx s), beam_map_eq]

/-! ## One layer with weight one -/

theorem accumulate_identity (gain : List (Phasor ℝ)) :
    accumulate 0 0 (List.replicate gain.length .zero) (Combiner.identity gain.length) gain = .ok gain := by
  have hsum : ∀ g : Phasor ℝ, Phasor.zero + (⟨1, 0⟩ : Phasor ℝ) * g = g := by
    intro g
    have hone : (⟨1, 0⟩ : Phasor ℝ).toComplex = 1 := rfl
    refine Phasor.toComplex_injective ?_
    rw [Phasor.toComplex_add, Phasor.toComplex_mul, Phasor.toComplex_zero, hone, zero_add, one_mul]
  unfold Combiner.identity
  induction gain with
  | nil => rfl
  | cons g gain ih =>
    rw [List.length_cons, List.replicate_succ, List.replicate_succ, accumulate]
    change Except.bind (accumulate 0 0 (List.replicate gain.length .zero) _ gain) _ = _
    rw [ih, hsum]
    rfl

theorem isUnused_identity {bands : ℕ} (hbands : 0 < bands) :
    isUnused 0 0 (Combiner.identity bands) = .ok false := by
  obtain ⟨bands, rfl⟩ := Nat.exists_eq_add_one.mpr hbands
  have hone : ((⟨1, 0⟩ : Phasor ℝ) == Phasor.zero) = false := by
    rw [← Bool.not_eq_true]
    intro hzero
    have hre : (1 : ℝ) = 0 := (beq_iff.mp (Bool.and_eq_true_iff.mp hzero).1).trans zero_eq
    exact one_ne_zero hre
  rw [Combiner.identity, List.replicate_succ, isUnused]
  change (if ((⟨1, 0⟩ : Phasor ℝ) == Phasor.zero) = true then _ else _) = _
  rw [hone]
  rfl

theorem length_of_run_gains (h : (Evaluator.gains now l a b x y grid).run s = (.ok gain, t)) :
    gain.length = grid.size := by
  obtain ⟨cs, u, -, h⟩ := Action.run_bind_ok.mp h
  obtain ⟨v, w, -, h⟩ := Action.run_bind_ok.mp h
  have hgain : l.gains cs (v.doppler now l a b) grid = gain := Except.ok.inj (Prod.mk.inj h).1
  rw [← hgain]
  exact List.length_map _

/-- The gains of the only layer of such a combiner are those between the layer's beams. -/
theorem run_combinedGain_identity (now : Nanoseconds) (l : Link ℝ) (a b : Device ℝ)
    (grid : SpectrumGrid ℝ) (beams : UInt8 → Except (Fault ℝ) (Beam ℝ × Beam ℝ)) (s : Evaluator ℝ) :
    (combinedGain now l a b (.identity grid.size) 0 grid beams).run s =
      (do
        let pair ← beams 0
        return (← gains now l a b pair.1 pair.2 grid).map Phasor.normSq :
          Action ℝ (Evaluator ℝ) (List ℝ)).run s := by
  have hsize : ((Combiner.identity grid.size).head?.map List.length).getD 0 = 1 := by
    obtain ⟨bands, hbands⟩ := Nat.exists_eq_add_one.mpr grid.size_pos
    rw [hbands]
    rfl
  have hlook : (liftM (isUnused 0 0 (Combiner.identity grid.size)) :
      Action ℝ (Evaluator ℝ) Bool).run s = (.ok false, s) := by
    rw [Action.run_liftExcept, isUnused_identity grid.size_pos]
  have hstep : (combineStep now l a b (.identity grid.size) 0 grid beams
      (List.replicate grid.size .zero) 0).run s =
        (do
          let pair ← beams 0
          gains now l a b pair.1 pair.2 grid : Action ℝ (Evaluator ℝ) (List (Phasor ℝ))).run s := by
    unfold combineStep
    rw [Action.run_bind_of_ok hlook, if_neg Bool.false_ne_true, Action.run_bind, Action.run_bind,
      Action.run_liftExcept, Action.run_liftExcept]
    have hlayer : Nat.toUInt8 0 = 0 := rfl
    rw [hlayer]
    cases beams 0 with
    | error e => rfl
    | ok pair =>
      dsimp only
      rw [Action.run_bind]
      rcases hgains : (gains now l a b pair.1 pair.2 grid).run s with ⟨e | gain, t⟩
      · rfl
      · dsimp only
        rw [Action.run_liftExcept, ← length_of_run_gains hgains, accumulate_identity]
  have hpowers : (combinedGain now l a b (.identity grid.size) 0 grid beams).run s =
      ((fun spectrum => spectrum.map Phasor.normSq) <$> combineStep now l a b (.identity grid.size) 0 grid
        beams (List.replicate grid.size .zero) 0).run s := by
    rw [combinedGain_eq, hsize, if_neg (by decide), List.range_one, List.foldlM_cons]
    simp only [List.foldlM_nil, bind_pure, map_eq_pure_bind]
    rfl
  rw [hpowers, Action.run_map, hstep, ← Action.run_map]
  simp only [map_eq_pure_bind, bind_assoc]

/-- The answer for the only layer, of a device that combines it as it is. -/
theorem run_powerGain_identity {aLayer bLayer : UInt8} {pairs : UInt8 → Option (Beam ℝ × Beam ℝ)}
    (h : Through (.identity grid.size) a b aLayer bLayer 0 pairs) (now : Nanoseconds) (l : Link ℝ)
    (s : Evaluator ℝ) :
    (powerGain now l a b aLayer bLayer grid).run s =
      match pairs 0 with
      | some (x, y) => (List.map Phasor.normSq <$> gains now l a b x y grid).run s
      | none => (.error (.missingBeam 0), s) := by
  rw [run_powerGain h, run_combinedGain_identity, Action.run_bind, Action.run_liftExcept, asked]
  cases pairs 0 with
  | none => rfl
  | some pair =>
    dsimp only
    rw [map_eq_pure_bind]

/-- The answer for two devices that do not combine. -/
theorem run_powerGain_plain (ha : a.array.combiner = none) (hb : b.array.combiner = none)
    (now : Nanoseconds) (l : Link ℝ) (aLayer bLayer : UInt8) (grid : SpectrumGrid ℝ) (s : Evaluator ℝ) :
    (powerGain now l a b aLayer bLayer grid).run s =
      match a.array.current[aLayer]?, b.array.current[bLayer]? with
      | some x, some y => (List.map Phasor.normSq <$> gains now l a b x y grid).run s
      | some _, none => (.error (.missingBeam bLayer), s)
      | none, _ => (.error (.missingBeam aLayer), s) := by
  unfold powerGain
  rw [ha, hb]
  dsimp only
  rw [Action.run_bind, Action.run_liftExcept, AntennaArray.beam]
  cases a.array.current[aLayer]? with
  | none => rfl
  | some x =>
    dsimp only
    rw [Action.run_bind, Action.run_liftExcept, AntennaArray.beam]
    cases b.array.current[bLayer]? with
    | none => rfl
    | some y =>
      dsimp only
      rw [map_eq_pure_bind]

/-- With its only layer combined as it is, a device sends what it would send without a combiner. -/
theorem run_powerGain_sending (ha : a.array.combiner = none) (hb : b.array.combiner = none)
    {bLayer : UInt8} (hy : b.array.current[bLayer]? = some y) (now : Nanoseconds) (l : Link ℝ)
    (grid : SpectrumGrid ℝ) (s : Evaluator ℝ) :
    (powerGain now l (a.combining (.identity grid.size)) b 0 bLayer grid).run s =
      (powerGain now l a b 0 bLayer grid).run s := by
  have hthrough : Through (.identity grid.size) (a.combining (.identity grid.size)) b 0 bLayer 0 _ :=
    .sending rfl hb hy
  have hcurrent : (a.combining (.identity grid.size)).array.current = a.array.current := rfl
  rw [run_powerGain_identity hthrough, run_powerGain_plain ha hb, hy, hcurrent]
  cases a.array.current[(0 : UInt8)]? <;> rfl

/-- And it receives what it would receive without one. -/
theorem run_powerGain_receiving (ha : a.array.combiner = none) (hb : b.array.combiner = none)
    {aLayer : UInt8} (hx : a.array.current[aLayer]? = some x) (now : Nanoseconds) (l : Link ℝ)
    (grid : SpectrumGrid ℝ) (s : Evaluator ℝ) :
    (powerGain now l a (b.combining (.identity grid.size)) aLayer 0 grid).run s =
      (powerGain now l a b aLayer 0 grid).run s := by
  have hthrough : Through (.identity grid.size) a (b.combining (.identity grid.size)) aLayer 0 0 _ :=
    .receiving ha rfl hx
  have hcurrent : (b.combining (.identity grid.size)).array.current = b.array.current := rfl
  rw [run_powerGain_identity hthrough, run_powerGain_plain ha hb, hx, hcurrent]
  cases b.array.current[(0 : UInt8)]? <;> rfl

theorem run_receivedSpectrum_congr {a' b' : Device ℝ} {aLayer bLayer : UInt8} {sent : Spectrum ℝ}
    (homni : (a'.array.omni || b'.array.omni) = (a.array.omni || b.array.omni))
    (hchannel : channel now a' b' = channel now a b)
    (hpower : ∀ (l : Link ℝ) (s : Evaluator ℝ), (powerGain now l a' b' aLayer bLayer sent.grid).run s =
      (powerGain now l a b aLayer bLayer sent.grid).run s) (s : Evaluator ℝ) :
    (receivedSpectrum now sent a' b' aLayer bLayer).run s =
      (receivedSpectrum now sent a b aLayer bLayer).run s := by
  unfold receivedSpectrum
  rw [homni, hchannel]
  split
  · rfl
  rw [Action.run_bind, Action.run_bind]
  rcases (channel now a b).run s with ⟨e | l, t⟩
  · rfl
  · dsimp only
    rw [Action.run_bind, Action.run_bind, hpower]

/-- The powers that arrive through a combiner. In an evaluator of any history, at whichever end the
combiner is and whatever its weights are, an output layer beyond its blocks has no power. Any other one
has in each subband the power of the sum over all input layers with beams of their gains times their
weights, unless an input layer that has a weight in some subband lacks its beam, and then it fails for the
first such layer. The gains are those of new projections, as far as the projections that are kept answer
what new ones would. A combiner that takes its only layer as it is makes no difference. -/
theorem combined_powers :
    (∀ {m : Combiner ℝ} {a b : Device ℝ} {aLayer bLayer layer : UInt8}
      {pairs : UInt8 → Option (Beam ℝ × Beam ℝ)} {grid : SpectrumGrid ℝ} {size : ℕ},
      Through m a b aLayer bLayer layer pairs → m.Square grid.size size →
      ∀ (now : Nanoseconds) (l : Link ℝ) (s : Evaluator ℝ),
      (∀ i x y, pairs i = some (x, y) → l.Between y.size x.size) →
      let answer := ((powerGain now l a b aLayer bLayer grid).run s).1
      (size ≤ layer.toNat → answer = .ok (List.replicate grid.size 0)) ∧
      (layer.toNat < size →
        (∀ input < size, m.Feeds layer.toNat input → (pairs input.toUInt8).isSome) →
        ∃ powers gain, answer = .ok powers ∧ Combined m grid pairs size layer.toNat gain powers ∧
          ∀ input < size, ∀ x y, pairs input.toUInt8 = some (x, y) →
            s.Gains now l a b x y grid (gain input) ∧
            (s.Faithful l a.id b.id (fun x y => ∃ i, pairs i = some (x, y)) →
              s.freshGains now l a b x y grid = .ok (gain input))) ∧
      ((∃ e, answer = .error e) ↔ layer.toNat < size ∧
        ∃ input < size, m.Feeds layer.toNat input ∧ pairs input.toUInt8 = none) ∧
      (∀ e, answer = .error e →
        ∃ input, FirstLacking m pairs size layer.toNat input ∧ e = .missingBeam input.toUInt8) ∧
      ∀ powers, answer = .ok powers → powers.length = grid.size) ∧
    ∀ (a b : Device ℝ), a.array.combiner = none → b.array.combiner = none →
      ∀ (now : Nanoseconds) (sent : Spectrum ℝ) (aLayer bLayer : UInt8) (s : Evaluator ℝ),
      (∀ y, b.array.current[bLayer]? = some y →
        (receivedSpectrum now sent (a.combining (.identity sent.grid.size)) b 0 bLayer).run s =
          (receivedSpectrum now sent a b 0 bLayer).run s) ∧
      ∀ x, a.array.current[aLayer]? = some x →
        (receivedSpectrum now sent a (b.combining (.identity sent.grid.size)) aLayer 0).run s =
          (receivedSpectrum now sent a b aLayer 0).run s := by
  constructor
  · intro m a b aLayer bLayer layer pairs grid size hthrough hm now l s hfits answer
    have hanswer : answer = ((combinedGain now l a b m layer grid (asked pairs)).run s).1 :=
      congrArg Prod.fst (run_powerGain hthrough now l grid s)
    have herror : (∃ e, answer = .error e) ↔ layer.toNat < size ∧
        ∃ input < size, m.Feeds layer.toNat input ∧ pairs input.toUInt8 = none := by
      rw [hanswer]
      exact combinedGain_error_iff now a b hm hfits s
    rw [hanswer] at herror ⊢
    refine ⟨fun houtside => ?_, fun houtput hbeams => ?_, herror, fun e he => ?_, fun powers hok => ?_⟩
    · exact combinedGain_outside now a b hm houtside (asked pairs) s
    · obtain ⟨powers, gain, hok, hgains, hcombined⟩ := combinedGain_ok now a b hm hfits houtput hbeams s
      refine ⟨powers, gain, hok, hcombined, ?_⟩
      intro input hinput x y hpair
      have hgain := hgains input hinput x y hpair
      exact ⟨hgain, fun hfaithful => hgain.fresh hfaithful ⟨_, hpair⟩⟩
    · obtain ⟨houtput, hlacking⟩ := herror.mp ⟨e, he⟩
      obtain ⟨input, hinput⟩ := exists_firstLacking hlacking
      have hfail := combinedGain_lacking now a b hm hfits houtput hinput s
      exact ⟨input, hinput, Except.error.inj (he.symm.trans hfail)⟩
    · have hnone : ¬(layer.toNat < size ∧
          ∃ input < size, m.Feeds layer.toNat input ∧ pairs input.toUInt8 = none) := by
        intro hlacking
        obtain ⟨e, he⟩ := herror.mpr hlacking
        cases hok.symm.trans he
      obtain ⟨powers', hok', hlength⟩ := combinedGain_answers now a b hm hfits hnone s
      rw [Except.ok.inj (hok.symm.trans hok'), hlength]
  · intro a b ha hb now sent aLayer bLayer s
    constructor
    · intro y hy
      have hpower : ∀ l t, (powerGain now l (a.combining (.identity sent.grid.size)) b 0 bLayer
          sent.grid).run t = (powerGain now l a b 0 bLayer sent.grid).run t := by
        intro l t
        exact run_powerGain_sending ha hb hy now l sent.grid t
      refine run_receivedSpectrum_congr ?_ ?_ hpower s
      · rfl
      · rfl
    · intro x hx
      have hpower : ∀ l t, (powerGain now l a (b.combining (.identity sent.grid.size)) aLayer 0
          sent.grid).run t = (powerGain now l a b aLayer 0 sent.grid).run t := by
        intro l t
        exact run_powerGain_receiving ha hb hx now l sent.grid t
      refine run_receivedSpectrum_congr ?_ ?_ hpower s
      · rfl
      · rfl

/-- A drone with a beam on the first of two layers, and a combiner that sends the first layer alone and both
together. -/
theorem combined_powers_field :
    let x : Beam ℝ := ⟨[⟨1, 0⟩, ⟨0, 1⟩, ⟨1, 0⟩, ⟨0, 1⟩], ⟨11⟩⟩
    let y : Beam ℝ := ⟨[⟨1, 0⟩, ⟨0, 1⟩], ⟨22⟩⟩
    let m : Combiner ℝ := List.replicate 2 [[⟨1, 0⟩, ⟨0, 0⟩], [⟨1, 0⟩, ⟨1, 0⟩]]
    let grid : SpectrumGrid ℝ := ⟨[28000000000, 28000000000 + 1000000], by simp⟩
    let plain : Device ℝ := { drone with array := drone.array.setBeam ⟨2⟩ 0 x 0 }
    let sender : Device ℝ := plain.combining m
    let receiver : Device ℝ := { rover with array := rover.array.setBeam ⟨1⟩ 0 y 0 }
    let pairs : UInt8 → Option (Beam ℝ × Beam ℝ) := fun input =>
      sender.array.current[input]?.map fun x => (x, y)
    ∃ l s', (channel 0 sender receiver).run field = (.ok l, s') ∧
      Through m sender receiver 0 0 0 pairs ∧ Through m sender receiver 1 0 1 pairs ∧
      Through m sender receiver 2 0 2 pairs ∧ m.Square grid.size 2 ∧
      (∀ i x y, pairs i = some (x, y) → l.Between y.size x.size) ∧
      (∃ powers gain, ((powerGain 0 l sender receiver 0 0 grid).run field).1 = .ok powers ∧
        Combined m grid pairs 2 0 gain powers ∧
        field.freshGains 0 l sender receiver x y grid = .ok (gain 0)) ∧
      ((powerGain 0 l sender receiver 1 0 grid).run field).1 = .error (.missingBeam 1) ∧
      ((powerGain 0 l sender receiver 2 0 grid).run field).1 = .ok [0, 0] ∧
      (receivedSpectrum 0 ⟨grid, [1, 1]⟩ (plain.combining (.identity 2)) receiver 0 0).run field =
        (receivedSpectrum 0 ⟨grid, [1, 1]⟩ plain receiver 0 0).run field := by
  intro x y m grid plain sender receiver pairs
  obtain ⟨_, s', hrun⟩ := flatMatrix_field 0
  obtain ⟨l, hchannel, ⟨hrx, htx⟩, -⟩ := run_flatMatrix_ok.mp hrun
  have hpairs : ∀ i, pairs i = if 0 = i then some (x, y) else none := by
    intro i
    change ((drone.array.setBeam ⟨2⟩ 0 x 0).current[i]?).map _ = _
    rw [AntennaArray.current_setBeam, apply_ite (Option.map fun x => (x, y))]
    rfl
  have hy : receiver.array.current[(0 : UInt8)]? = some y :=
    AntennaArray.current_setBeam _ _ 0 0 y 0
  have hthrough : ∀ layer, Through m sender receiver layer 0 layer pairs := fun layer => .sending rfl rfl hy
  have hm : m.Square grid.size 2 := by
    constructor
    · rfl
    · intro block hblock
      rw [(List.mem_replicate.mp hblock).2]
      rfl
    · intro block hblock
      rw [(List.mem_replicate.mp hblock).2]
      simp
  have hfits : ∀ i z w, pairs i = some (z, w) → l.Between w.size z.size := by
    intro i z w hzw
    rw [hpairs] at hzw
    split at hzw
    · cases hzw
      exact ⟨hrx, htx⟩
    · cases hzw
  have hblock : ∀ block, block ∈ m ↔ block = [[⟨1, 0⟩, ⟨0, 0⟩], [⟨1, 0⟩, ⟨1, 0⟩]] := by
    intro block
    simp [m]
  have hfed : m.Feeds 1 1 := by
    refine ⟨_, (hblock _).mpr rfl, ?_⟩
    change (1 : ℂ) ≠ 0
    exact one_ne_zero
  have hunfed : ¬m.Feeds 0 1 := by
    rintro ⟨block, hmem, hne⟩
    rw [(hblock block).mp hmem] at hne
    exact hne rfl
  refine ⟨l, s', hchannel, hthrough 0, hthrough 1, hthrough 2, hm, hfits, ?_, ?_, ?_, ?_⟩
  · obtain ⟨-, hinside, -⟩ := combined_powers.1 (hthrough 0) hm 0 l field hfits
    obtain ⟨powers, gain, hok, hcombined, hgains⟩ := hinside (by decide) (by
      intro input hinput hfeeds
      obtain rfl | rfl : input = 0 ∨ input = 1 := by omega
      · rw [hpairs]
        rfl
      · exact absurd hfeeds hunfed)
    have hfaithful : field.Faithful l sender.id receiver.id fun x y => ∃ i, pairs i = some (x, y) :=
      .of_empty rfl
    exact ⟨powers, gain, hok, hcombined, (hgains 0 (by decide) x y (hpairs 0)).2 hfaithful⟩
  · obtain ⟨-, -, herror, hfirst, -⟩ := combined_powers.1 (hthrough 1) hm 0 l field hfits
    obtain ⟨e, he⟩ := herror.mpr ⟨by decide, 1, by decide, hfed, hpairs 1⟩
    obtain ⟨input, hinput, rfl⟩ := hfirst e he
    obtain rfl | rfl : input = 0 ∨ input = 1 := by
      have hlt := hinput.lt
      omega
    · cases (hpairs 0).symm.trans hinput.lacks
    · exact he
  · obtain ⟨houtside, -⟩ := combined_powers.1 (hthrough 2) hm 0 l field hfits
    exact houtside (by decide)
  · exact (combined_powers.2 plain receiver rfl rfl 0 ⟨grid, [1, 1]⟩ 0 0 field).1 y hy

end Evaluator

end RadioChannel
