import RadioChannel.Proofs.ServedBundles

/-!
# The laws of bundles

What a peer hears of a bundle's layers, end to end: for a bundle that mixes its beams, and for one with
a digital combiner. Both laws are seen at work at a mast that serves two devices at once, on arrays of
two antennas. Both devices are heard best on the same beam of the mast, and there is no noise, so that
each layer has to be silent at the other device.
-/

namespace RadioChannel

open ExactScalars
open scoped ComplexOrder

theorem FreeSpace.amplitude_pos (m : FreeSpace ℝ) (reference : ℝ) (a b : Endpoint ℝ) :
    0 < m.amplitude reference a b := by
  rw [amplitude, tenTo_eq]
  exact Real.rpow_pos_of_pos (by norm_num) _

/-- The least squares of an invertible channel need no regularization. -/
theorem LeastSquares.posDef_of_isUnit {n : ℕ} {g : ComplexMatrix n n} (hg : IsUnit g) :
    (normalMatrix g 0).PosDef :=
  (posDef_normalMatrix_zero_iff g).mpr (Matrix.linearIndependent_cols_of_isUnit hg)

namespace Bundle

open BeamDesk

/-! ## Channels of subbands -/

section Subbands

variable {now : Nanoseconds} {own : Endpoint ℝ} {panel : Panel ℝ} {grid : SpectrumGrid ℝ}
variable {v : Evaluator ℝ}

/-- The coefficient of a subband between beams of two panels is what the one hears of the other over the
flat matrix at its centre. -/
theorem coord_freshGains {l : Link ℝ} {peer : Device ℝ} {p q : Codebook.BeamPair}
    {coefficients : List (Phasor ℝ)}
    (hsize : Codebook.Addressable peer.array.panel.size panel.size)
    (hl : l.Between peer.array.elementCount panel.elementCount)
    (h : v.freshGains now l ⟨own, .ofPanel panel⟩ peer (transmittingBeam panel p)
      (receivingBeam peer q) grid = .ok coefficients) {band : ℕ} {frequency : ℝ}
    (hband : grid.centers[band]? = some frequency) :
    coord coefficients band = heard panel peer q
      (l.flatMatrix (v.doppler now l ⟨own, .ofPanel panel⟩ peer) frequency peer.array.elementCount
        panel.elementCount) (toVector panel.size.count (Codebook.weights panel.size p.tx)) := by
  have hsent : (transmittingBeam panel p).weights.length = panel.size.count :=
    Panel.size_weights hsize.transmitter _ _
  have hreceived : (receivingBeam peer q).weights.length = peer.array.panel.size.count :=
    Panel.size_weights hsize.receiver _ _
  obtain ⟨cs, g, hproject, hg, hsum⟩ := Link.gain_eq (hl.1.trans hreceived.symm)
    (hl.2.trans hsent.symm) (v.doppler now l ⟨own, .ofPanel panel⟩ peer) hband
  rw [Evaluator.freshGains, hproject] at h
  rw [← Except.ok.inj h, coord, hg, Option.getD_some, hsum, hsent, hreceived, heard, dotProduct,
    Finset.sum_range]
  refine Finset.sum_congr rfl fun r _ => ?_
  rw [Matrix.mulVec, dotProduct, Finset.mul_sum, Finset.sum_range]
  exact Finset.sum_congr rfl fun t _ => mul_assoc _ _ _

/-- So the channel of a subband is the one between codebook beams over these matrices. -/
theorem streamChannel_eq {n : ℕ} {peer : Fin n → Device ℝ} {link : Fin n → Link ℝ}
    {pair : Fin n → Codebook.BeamPair} {coefficients : Fin n → Fin n → List (Phasor ℝ)}
    (hsize : ∀ i, Codebook.Addressable (peer i).array.panel.size panel.size)
    (hl : ∀ i, (link i).Between (peer i).array.elementCount panel.elementCount)
    (h : ∀ i j, v.freshGains now (link i) ⟨own, .ofPanel panel⟩ (peer i)
      (transmittingBeam panel (pair j)) (receivingBeam (peer i) (pair i)) grid = .ok (coefficients i j))
    (amplitude : Fin n → ℝ) {band : ℕ} {frequency : ℝ}
    (hband : grid.centers[band]? = some frequency) :
    streamChannel amplitude coefficients band = flatChannel panel peer amplitude pair fun i =>
      (link i).flatMatrix (v.doppler now (link i) ⟨own, .ofPanel panel⟩ (peer i)) frequency
        (peer i).array.elementCount panel.elementCount := by
  ext i j
  rw [streamChannel, flatChannel, Matrix.of_apply, Matrix.of_apply,
    coord_freshGains (hsize i) (hl i) (h i j) hband]

end Subbands

/-! ## Paths between beams -/

theorem elementSpin_pair {k i : ℕ} (hk : k < 2) (hi : i < 2) :
    Codebook.elementSpin ⟨2, 1⟩ k i = (-1) ^ (k * i) := by
  interval_cases k <;> interval_cases i <;> simp [Codebook.elementSpin_second]

theorem addressable_pair : Codebook.Addressable ⟨2, 1⟩ ⟨2, 1⟩ := ⟨⟨2, 1, rfl⟩, ⟨2, 1, rfl⟩, by decide⟩

/-- What is heard between beams of two antennas each. -/
theorem heard_pair {panel : Panel ℝ} {peer : Device ℝ} {pair : Codebook.BeamPair} (h : Matrix ℝ)
    (hpanel : panel.size = ⟨2, 1⟩) (hpeer : peer.array.panel.size = ⟨2, 1⟩) (hrx : pair.rx < 2)
    {t : ℕ} (ht : t < 2) :
    2 * heard panel peer pair h (toVector panel.size.count (Codebook.weights panel.size t)) =
      ∑ u ∈ Finset.range 2, ∑ s ∈ Finset.range 2,
        coord (h[u]?.getD []) s * (-1) ^ (t * s + pair.rx * u) := by
  have hrx' : pair.rx < peer.array.panel.size.count := by
    rw [hpeer]
    exact hrx
  have ht' : t < panel.size.count := by
    rw [hpanel]
    exact ht
  have hspin : _ = (√(peer.array.panel.size.count * panel.size.count) : ℝ) *
      heard panel peer pair h (toVector panel.size.count (Codebook.weights panel.size t)) :=
    Codebook.sum_elementSpin (hpeer ▸ addressable_pair.receiver) (hpanel ▸ addressable_pair.transmitter)
      h hrx' ht'
  generalize heard panel peer pair h _ = w at hspin ⊢
  rw [hpeer, hpanel] at hspin
  have hroot : √(((⟨2, 1⟩ : PanelSize).count : ℝ) * ((⟨2, 1⟩ : PanelSize).count : ℝ)) = 2 :=
    Real.sqrt_mul_self (Nat.cast_nonneg 2)
  rw [hroot] at hspin
  rw [← Complex.ofReal_ofNat, ← hspin]
  refine Finset.sum_congr rfl fun u hu => ?_
  rw [Finset.sum_mul]
  refine Finset.sum_congr rfl fun s hs => ?_
  rw [elementSpin_pair ht (Finset.mem_range.mp hs), elementSpin_pair hrx (Finset.mem_range.mp hu),
    pow_add, mul_assoc]

/-- Paths between all pairs of beams of two panels with two antennas: one from every transmitting beam to
every receiving one, with a gain and with a delay of its own. -/
noncomputable def beamPaths (serial : ℕ) (gain : ℕ → ℕ → ℤ) : Realization ℝ :=
  { opposedPath with
    serial := serial
    tensor := (List.range 2).map fun u => (List.range 2).map fun s => (List.range 4).map fun c =>
      .ofReal (gain (c / 2) (c % 2) * (-1) ^ (c % 2 * s + c / 2 * u) : ℤ)
    delays := (List.range 4).map fun c => (c : ℝ) / (10 ^ 7 : ℕ)
    directions := List.replicate 4 ⟨0, 0, 0, 0⟩ }

/-- The gain of a path as the caller sees it. -/
def pathGain (gain : ℕ → ℕ → ℤ) (reverse : Bool) (r t : ℕ) : ℤ := if reverse then gain t r else gain r t

/-- The cluster that a path is, as the caller sees it. -/
def pathPlace (reverse : Bool) (r t : ℕ) : ℕ := if reverse then 2 * t + r else 2 * r + t

theorem norm_turning {l : Link ℝ} {c : ℕ} (hdirection : c < l.realization.directions.length)
    (hdelay : c < l.realization.delays.length) (carrier frequency : ℝ) (now : Nanoseconds)
    (a b : Vec3 ℝ) : ‖l.turning (l.doppler carrier now a b) frequency c‖ = 1 := by
  have hunit (t : ℝ) : ‖(Phasor.polar (@OfNat.ofNat ℝ 1 (Scalar.instOfNat 1)) t).toComplex‖ = 1 := by
    rw [Phasor.toComplex_polar, one_eq, Complex.ofReal_one, one_mul, Complex.norm_exp_ofReal_mul_I]
  rw [Link.turning, norm_mul, coord, coord, List.getElem?_map, List.getElem?_eq_getElem hdelay,
    Link.doppler, List.getElem?_map, List.getElem?_eq_getElem hdirection]
  exact (congrArg₂ (· * ·) (hunit _) (hunit _)).trans (one_mul 1)

/-- Between beams of two antennas the flat matrix of a device has given gains, turned in any way. -/
def Reaches (panel : Panel ℝ) (peer : Device ℝ) (gain : ℕ → ℕ → ℤ) (h : Matrix ℝ) : Prop :=
  ∀ pair : Codebook.BeamPair, pair.rx < 2 → ∀ t < 2, ‖heard panel peer pair h
    (toVector panel.size.count (Codebook.weights panel.size t))‖ = (2 * |gain pair.rx t| : ℤ)

theorem Reaches.norm_eq {panel : Panel ℝ} {peer : Device ℝ} {gain : ℕ → ℕ → ℤ} {h : Matrix ℝ}
    (hreaches : Reaches panel peer gain h) {pair : Codebook.BeamPair} (hrx : pair.rx < 2) {t : ℕ}
    (ht : t < 2) : ‖heard panel peer pair h
      (toVector panel.size.count (Codebook.weights panel.size t))‖ = 2 * |(gain pair.rx t : ℝ)| := by
  rw [hreaches pair hrx t ht]
  push_cast
  rfl

/-- Between two beams only their own path is heard. -/
theorem reaches_beamPaths {panel : Panel ℝ} {peer : Device ℝ} (hpanel : panel.size = ⟨2, 1⟩)
    (hpeer : peer.array.panel.size = ⟨2, 1⟩) (serial : ℕ) (gain : ℕ → ℕ → ℤ) (reverse : Bool)
    (carrier frequency : ℝ) (now : Nanoseconds) (a b : Vec3 ℝ) :
    Reaches panel peer (pathGain gain reverse)
      (Link.flatMatrix ⟨beamPaths serial gain, reverse⟩
        (Link.doppler ⟨beamPaths serial gain, reverse⟩ carrier now a b) frequency 2 2) := by
  intro pair hrx t ht
  let l : Link ℝ := ⟨beamPaths serial gain, reverse⟩
  let ρ : ℕ → ℂ := l.turning (l.doppler carrier now a b) frequency
  have hentry : ∀ u ∈ Finset.range 2, ∀ s ∈ Finset.range 2,
      coord ((l.flatMatrix (l.doppler carrier now a b) frequency 2 2)[u]?.getD []) s =
        ∑ c ∈ Finset.range 4, (gain (c / 2) (c % 2) : ℂ) *
          (-1) ^ (if reverse then c % 2 * u + c / 2 * s else c % 2 * s + c / 2 * u) * ρ c := by
    intro u hu s hs
    rw [l.flatMatrix_entry _ frequency (Finset.mem_range.mp hu) (Finset.mem_range.mp hs)]
    refine Finset.sum_congr rfl fun c hc => ?_
    have hc' := Finset.mem_range.mp hc
    have hu' := Finset.mem_range.mp hu
    have hs' := Finset.mem_range.mp hs
    congr 1
    cases reverse <;>
      simp [l, Link.response, Tensor.response, beamPaths, coord, hu', hs', hc']
  have hplace : pathPlace reverse pair.rx t < 4 := by
    unfold pathPlace
    split <;> omega
  have hheard : heard panel peer pair (l.flatMatrix (l.doppler carrier now a b) frequency 2 2)
      (toVector panel.size.count (Codebook.weights panel.size t)) =
        2 * (pathGain gain reverse pair.rx t : ℂ) * ρ (pathPlace reverse pair.rx t) := by
    refine mul_left_cancel₀ two_ne_zero ((heard_pair _ hpanel hpeer hrx ht).trans ?_)
    rw [Finset.sum_congr rfl fun u hu => Finset.sum_congr rfl fun s hs => by rw [hentry u hu s hs]]
    generalize pair.rx = r at hrx
    interval_cases r <;> interval_cases t <;> cases reverse <;>
      simp [Finset.sum_range_succ, pathGain, pathPlace] <;> ring
  have hunit : ‖ρ (pathPlace reverse pair.rx t)‖ = 1 :=
    norm_turning (hplace.trans_eq rfl) (hplace.trans_eq rfl) carrier frequency now a b
  refine (congrArg norm hheard).trans ?_
  rw [norm_mul, norm_mul, hunit, mul_one, Complex.norm_ofNat, Complex.norm_intCast]
  push_cast
  rfl

/-! ## Two devices heard on one beam -/

section Pair

variable {panel : Panel ℝ} {peer : Fin 2 → Device ℝ} {amplitude : Fin 2 → ℝ}
variable {pair : Fin 2 → Codebook.BeamPair} {h : Fin 2 → Matrix ℝ}

/-- The channel to two devices can be inverted if their gains are not in proportion. -/
theorem isUnit_flatChannel {gain : Fin 2 → ℕ → ℕ → ℤ} (hpaired : Paired panel peer pair)
    (hpanel : panel.size.count = 2) (hpeer : ∀ i, (peer i).array.panel.size.count = 2)
    (hreaches : ∀ i, Reaches panel (peer i) (gain i) (h i)) (hamplitude : ∀ i, amplitude i ≠ 0)
    (hgain : ∀ r < 2, ∀ r' < 2, |gain 0 r 0| * |gain 1 r' 1| ≠ |gain 0 r 1| * |gain 1 r' 0|) :
    IsUnit (flatChannel panel peer amplitude pair h) := by
  have hreceiving (i : Fin 2) : (pair i).rx < 2 := (hpaired.receiving i).trans_eq (hpeer i)
  have htransmitting (j : Fin 2) : (pair j).tx < 2 := (hpaired.transmitting j).trans_eq hpanel
  have hnorm (i j : Fin 2) : ‖flatChannel panel peer amplitude pair h i j‖ =
      |amplitude i| * (2 * |(gain i (pair i).rx (pair j).tx : ℝ)|) := by
    rw [flatChannel, Matrix.of_apply, norm_mul, Complex.norm_real, Real.norm_eq_abs,
      (hreaches i).norm_eq (hreceiving i) (htransmitting j)]
  rw [Matrix.isUnit_iff_isUnit_det, isUnit_iff_ne_zero, Matrix.det_fin_two]
  intro hdet
  have hequal := congrArg norm (sub_eq_zero.mp hdet)
  rw [norm_mul, norm_mul, hnorm, hnorm, hnorm, hnorm] at hequal
  -- up to the amplitudes both products are of gains
  have hproducts : |gain 0 (pair 0).rx (pair 0).tx| * |gain 1 (pair 1).rx (pair 1).tx| =
      |gain 0 (pair 0).rx (pair 1).tx| * |gain 1 (pair 1).rx (pair 0).tx| := by
    have hfactor : 4 * |amplitude 0| * |amplitude 1| ≠ 0 := by
      simp [hamplitude]
    have hreal := mul_left_cancel₀ hfactor (a := 4 * |amplitude 0| * |amplitude 1|)
      (b := |(gain 0 (pair 0).rx (pair 0).tx : ℝ)| * |(gain 1 (pair 1).rx (pair 1).tx : ℝ)|)
      (c := |(gain 0 (pair 0).rx (pair 1).tx : ℝ)| * |(gain 1 (pair 1).rx (pair 0).tx : ℝ)|)
      (by linear_combination hequal)
    exact_mod_cast hreal
  have hne : (pair 0).tx ≠ (pair 1).tx := fun heq => zero_ne_one (hpaired.distinct heq)
  have hfirst := htransmitting 0
  have hsecond := htransmitting 1
  have hcases : (pair 0).tx = 0 ∧ (pair 1).tx = 1 ∨ (pair 0).tx = 1 ∧ (pair 1).tx = 0 := by omega
  rcases hcases with ⟨h₀, h₁⟩ | ⟨h₀, h₁⟩ <;> rw [h₀, h₁] at hproducts
  · exact hgain _ (hreceiving 0) _ (hreceiving 1) hproducts
  · exact hgain _ (hreceiving 0) _ (hreceiving 1) hproducts.symm

/-- A search finds the first beam if that is heard best. -/
theorem tx_eq_zero {search : BeamSearch ℝ} {own : NodeId} {peer : Device ℝ} {h : Matrix ℝ}
    (hmade : search.MadeOn own panel peer h) (hpanel : panel.size = ⟨2, 1⟩)
    (hpeer : peer.array.panel.size = ⟨2, 1⟩) {gain : ℕ → ℕ → ℤ} (hreaches : Reaches panel peer gain h)
    (hgain : ∀ r < 2, |gain r 1| < |gain 0 0|) : search.pair.tx = 0 := by
  have haddressable : Codebook.Addressable peer.array.panel.size panel.size := by
    rw [hpanel, hpeer]
    exact addressable_pair
  have hcount : panel.size.count = 2 := by rw [hpanel]; rfl
  have hcount' : peer.array.panel.size.count = 2 := by rw [hpeer]; rfl
  obtain ⟨hheight, hwidth, hentry⟩ :=
    Codebook.equivalent_ok haddressable hmade.length hmade.transformed
  obtain ⟨-, z, hz, hunbeaten⟩ :=
    Codebook.isStrongest_of_strongest lt_irrefl lt_trans hmade.strongest
  have hroot : (√(peer.array.panel.size.count * panel.size.count) : ℝ) = √(2 * 2) := by
    rw [hcount, hcount']
    rfl
  have hnorm : ∀ (p : Codebook.BeamPair) (w : Phasor ℝ),
      Codebook.entry? search.equivalent p = some w → p.rx < 2 ∧ p.tx < 2 ∧
        ‖w.toComplex‖ = √(2 * 2) * (2 * |(gain p.rx p.tx : ℝ)|) := by
    intro p w hw
    obtain ⟨hrx, htx⟩ := Codebook.entry?_lt hwidth hw
    rw [hheight, hcount'] at hrx
    rw [hcount] at htx
    refine ⟨hrx, htx, ?_⟩
    rw [← Codebook.coord_of_entry? hw, hentry _ (hrx.trans_eq hcount'.symm) _ (htx.trans_eq hcount.symm),
      norm_mul, Complex.norm_real, Real.norm_eq_abs, abs_of_nonneg (Real.sqrt_nonneg _), hroot]
    exact congrArg (√(2 * 2) * ·) (hreaches.norm_eq hrx htx)
  obtain ⟨hrx, htx, hfound⟩ := hnorm _ z hz
  obtain ⟨w, hw⟩ := Codebook.exists_entry? (r := 0) (t := 0) hwidth
    (by rw [hheight, hcount']; exact two_pos) (by rw [hcount]; exact two_pos)
  obtain ⟨-, -, hother⟩ := hnorm _ w hw
  by_contra hne
  have hone : search.pair.tx = 1 := by omega
  have hweaker : |(gain search.pair.rx 1 : ℝ)| < |(gain 0 0 : ℝ)| := by
    exact_mod_cast hgain _ hrx
  have hlt : ‖z.toComplex‖ < ‖w.toComplex‖ := by
    rw [hfound, hother, hone]
    exact mul_lt_mul_of_pos_left (mul_lt_mul_of_pos_left hweaker two_pos)
      (Real.sqrt_pos.mpr (by positivity))
  have hpower : Scalar.lt z.normSq w.normSq = true := by
    rw [lt_iff, Phasor.normSq_eq, Phasor.normSq_eq, Complex.normSq_eq_norm_sq, Complex.normSq_eq_norm_sq]
    exact pow_lt_pow_left₀ hlt (norm_nonneg _) two_ne_zero
  rw [hunbeaten ⟨0, 0⟩ w List.not_mem_nil hw] at hpower
  cases hpower

end Pair

/-! ### A mast and two devices -/

section Mast

/-- A mast at rest, with two antennas. -/
noncomputable def mast : Device ℝ := .resting 1 ⟨0, 0, 25⟩ 2

/-- A device on one side of the mast. -/
noncomputable def left : Device ℝ := .resting 2 ⟨-80, 60, 1⟩ 2

/-- A device on the other side, not as far. -/
noncomputable def right : Device ℝ := .resting 3 ⟨40, 30, 1⟩ 2

/-- The devices that the mast serves. -/
noncomputable def served : Fin 2 → Device ℝ := ![left, right]

/-- What the device on the left hears of each beam of the mast, through each of its own beams. -/
def leftGain : ℕ → ℕ → ℤ
  | 0, 0 => 6
  | _, 0 => 5
  | _, _ => 1

/-- What the device on the right hears. -/
def rightGain : ℕ → ℕ → ℤ
  | 0, 0 => 3
  | 0, _ => 1
  | _, _ => -2

/-- What each device hears. -/
def servedGain : Fin 2 → ℕ → ℕ → ℤ := ![leftGain, rightGain]

open Scalar in
/-- The carrier of the mast. -/
noncomputable def mastCarrier : ℝ := 2000000000

open Scalar in
/-- Two subbands. -/
noncomputable def mastGrid : SpectrumGrid ℝ := ⟨[mastCarrier, mastCarrier + 3000000], by simp⟩

/-- The paths to the device on the left were drawn from the mast, the others from the far end. -/
noncomputable def mastEvaluator : Evaluator ℝ :=
  .ofGenerator (((Generator.fresh .urbanMacro mastCarrier 0 7).store (.ofSeed 7) mast.id left.id
    (beamPaths 0 leftGain)).store (.ofSeed 7) right.id mast.id
      (beamPaths 1 fun t r => rightGain r t)) (.fixed .lineOfSight)

/-- The mast's desk, without noise, before it has searched for any beam. -/
noncomputable def mastDesk (strategy : Strategy) : BeamDesk ℝ where
  engine := {
    strategy := strategy
    refresh := 0
    noisePower := 0
    referencePower := 0
    grid := mastGrid
    cache := ∅ }
  array := mast.array
  evaluator := mastEvaluator

/-- The link to a device. -/
noncomputable def pathsTo (d : Device ℝ) : Link ℝ :=
  if d.id = left.id then ⟨beamPaths 0 leftGain, false⟩
  else ⟨beamPaths 1 fun t r => rightGain r t, true⟩

/-- Its flat matrix at a frequency. -/
noncomputable def flatTo (d : Device ℝ) (frequency : ℝ) : Matrix ℝ :=
  (pathsTo d).flatMatrix (mastEvaluator.doppler 0 (pathsTo d) mast d) frequency d.array.elementCount
    mast.array.panel.elementCount

theorem trusted_mastEvaluator : mastEvaluator.Trusted mast.id :=
  .of_empty (((Generator.Orderly.of_empty rfl).store rfl).store rfl) rfl

theorem settled_served (i : Fin 2) :
    mastEvaluator.Settled 0 mast.id (served i).id (pathsTo (served i)) := by
  match i with
  | 0 =>
    refine ⟨?_, Generator.serves_iff.mpr ⟨rfl, Or.inl rfl⟩⟩
    refine (Generator.peek_store _ _ _ _ _ _ _).trans ?_
    rw [if_neg (by decide), if_neg (by decide)]
    exact Generator.peek_store_self _ _ (by decide) _
  | 1 =>
    refine ⟨?_, Generator.serves_iff.mpr ⟨rfl, Or.inl rfl⟩⟩
    exact (Generator.peek_store _ _ _ _ _ _ _).trans rfl

theorem between_served (i : Fin 2) : (pathsTo (served i)).Between (served i).array.elementCount
    mast.array.panel.elementCount := by
  match i with
  | 0 => exact ⟨rfl, rfl⟩
  | 1 => exact ⟨rfl, rfl⟩

theorem apart_mast (i : Fin 2) :
    (mast.endpoint.position == (served i).endpoint.position) = false := by
  refine Vec3.apart_exact.mpr fun h => ?_
  have hx : (0 : ℝ) = (served i).endpoint.position.x := congrArg Vec3.x h
  match i with
  | 0 => norm_num [served, left, Device.resting] at hx
  | 1 => norm_num [served, right, Device.resting] at hx

theorem servable_mast : Servable mast.array.panel (∃ i, · = served i) where
  unique := by
    rintro _ _ ⟨i, rfl⟩ ⟨j, rfl⟩ hid
    match i, j with
    | 0, 0 => rfl
    | 0, 1 => cases hid
    | 1, 0 => cases hid
    | 1, 1 => rfl
  addressable := by
    rintro _ ⟨i, rfl⟩
    match i with
    | 0 => exact addressable_pair
    | 1 => exact addressable_pair
  elements := two_pos
  receiving := by
    rintro _ ⟨i, rfl⟩
    match i with
    | 0 => exact two_pos
    | 1 => exact two_pos

/-- The mast's questions about both devices are answered, over the links that it holds. -/
theorem answering_mast (grid : SpectrumGrid ℝ) : Evaluator.Answering (mastEvaluator.Alike mast.id) 0
    mast.endpoint mast.array.panel grid (∃ i, · = served i) (fun d h => h = flatTo d mastCarrier)
    fun d x y cs => mastEvaluator.freshGains 0 (pathsTo d) mast d x y grid = .ok cs := by
  refine Evaluator.answering_settled (fun d hd => ?_)
  obtain ⟨i, rfl⟩ := hd
  refine ⟨settled_served i, between_served i, apart_mast i, ?_⟩
  match i with
  | 0 => rfl
  | 1 => rfl

theorem reaches_served (i : Fin 2) (frequency : ℝ) :
    Reaches mast.array.panel (served i) (servedGain i) (flatTo (served i) frequency) :=
  match i with
  | 0 => reaches_beamPaths rfl rfl 0 leftGain false _ frequency 0 _ _
  | 1 => reaches_beamPaths rfl rfl 1 (fun t r => rightGain r t) true _ frequency 0 _ _

/-- A device that listens through a beam. -/
noncomputable def listening (d : Device ℝ) (beam : Beam ℝ) : Device ℝ :=
  { d with array := d.array.setBeam mast.id 0 beam 0 }

theorem listens_served (i : Fin 2) (beam : Beam ℝ) :
    (listening (served i) beam).endpoint = (served i).endpoint ∧
      (listening (served i) beam).array.combiner = none ∧
      (listening (served i) beam).array.beam 0 = .ok beam := by
  refine ⟨rfl, ?_, ?_⟩
  · match i with
    | 0 => rfl
    | 1 => rfl
  · rw [listening, AntennaArray.beam_setBeam, if_pos rfl]

/-- What stays so of the mast's desk while it serves the devices. -/
def MastReady (strategy : Strategy) : BeamDesk ℝ → Prop :=
  Ready (mastEvaluator.Alike mast.id) mast.id mast.array.panel (mastDesk strategy).engine
    (∃ i, · = served i) fun d h => h = flatTo d mastCarrier

theorem ready_mastDesk (strategy : Strategy) : MastReady strategy (mastDesk strategy) :=
  ready_of_empty (s := mastDesk strategy) ⟨rfl, rfl, trusted_mastEvaluator⟩ rfl rfl

/-- The channel to both devices can be inverted at each frequency. -/
theorem isUnit_served (loss : FreeSpace ℝ) (reference : ℝ) {pair : Fin 2 → Codebook.BeamPair}
    (hpaired : Paired mast.array.panel served pair) (frequency : ℝ) :
    IsUnit (flatChannel mast.array.panel served
      (fun i => loss.amplitude reference mast.endpoint (served i).endpoint) pair
        fun i => flatTo (served i) frequency) := by
  refine isUnit_flatChannel hpaired rfl (fun i => ?_) (fun i => reaches_served i frequency)
    (fun i => (loss.amplitude_pos _ _ _).ne') (by decide)
  match i with
  | 0 => rfl
  | 1 => rfl

theorem streamChannel_served (loss : FreeSpace ℝ) (reference : ℝ) {grid : SpectrumGrid ℝ}
    {pair : Fin 2 → Codebook.BeamPair} {coefficients : Fin 2 → Fin 2 → List (Phasor ℝ)}
    (h : ∀ i j, mastEvaluator.freshGains 0 (pathsTo (served i)) mast (served i)
      (transmittingBeam mast.array.panel (pair j)) (receivingBeam (served i) (pair i)) grid =
        .ok (coefficients i j)) {band : ℕ} {frequency : ℝ} (hband : grid.centers[band]? = some frequency) :
    streamChannel (fun i => loss.amplitude reference mast.endpoint (served i).endpoint) coefficients band =
      flatChannel mast.array.panel served
        (fun i => loss.amplitude reference mast.endpoint (served i).endpoint) pair
          fun i => flatTo (served i) frequency :=
  streamChannel_eq (fun i => servable_mast.addressable _ ⟨i, rfl⟩) between_served h _ hband

theorem answers_mixFlat_mast (loss : FreeSpace ℝ) (layers : List UInt8) :
    Action.Answers (MastReady .flatMmse) (fun _ => True)
      (mixFlat 0 loss mast.endpoint (List.ofFn served) layers) := by
  refine answers_mixFlat servable_mast (fun i => ⟨i, rfl⟩) (answering_mast _) (le_refl 2)
    (fun h pair hh hpaired => ?_) layers
  obtain rfl : h = fun i => flatTo (served i) mastCarrier := funext hh
  exact LeastSquares.posDef_of_isUnit (isUnit_served loss _ hpaired _)

theorem answers_analogStage_mast (loss : FreeSpace ℝ) (strategy : Strategy) :
    Action.Answers (MastReady strategy)
      (fun stage => ∃ search pair, Staged loss mast.endpoint mast.array.panel (mastDesk strategy).engine
        (fun d h => h = flatTo d mastCarrier) served search pair stage)
      (analogStage 0 loss mast.endpoint (List.ofFn served)) :=
  answers_analogStage servable_mast (fun i => ⟨i, rfl⟩) (answering_mast _) (le_refl 2)

theorem answers_combineSpectral_mast (loss : FreeSpace ℝ) (layers : List UInt8) :
    Action.Answers (MastReady .spectralMmse) (fun _ => True)
      (combineSpectral 0 loss mast.endpoint (List.ofFn served) layers) := by
  refine answers_combineSpectral servable_mast (fun i => ⟨i, rfl⟩) (answering_mast _) (le_refl 2)
    (fun pair coefficients hpaired hgained band hband => ?_) layers
  rw [streamChannel_served loss _ hgained (List.getElem?_eq_getElem hband)]
  exact LeastSquares.posDef_of_isUnit (isUnit_served loss _ hpaired _)

/-- A bundle that the mast set up has channels that can be inverted. -/
theorem SetUp.isUnit_served {loss : FreeSpace ℝ} {layer : Fin 2 → UInt8} {s' : BeamDesk ℝ}
    {amplitude : Fin 2 → ℝ} {analog receiving : Fin 2 → Beam ℝ} {link : Fin 2 → Link ℝ}
    {coefficients : Fin 2 → Fin 2 → List (Phasor ℝ)} {combiner : Combiner ℝ}
    (h : SetUp 0 loss mast.endpoint served layer (mastDesk .spectralMmse) s' amplitude analog receiving
      link coefficients combiner) (hready : MastReady .spectralMmse s')
    {band : ℕ} (hband : band < 2) : IsUnit (streamChannel amplitude coefficients band) := by
  obtain ⟨pair, equivalents, t, hstage, rfl⟩ := h.stage
  -- the beams are those that an analog stage comes to
  obtain ⟨_, _, hstage', ⟨search, pair', -, hpaired, rfl⟩, -⟩ :=
    answers_analogStage_mast loss .spectralMmse _ (ready_mastDesk _)
  have hsame := Except.ok.inj (congrArg Prod.fst (hstage.symm.trans hstage'))
  obtain ⟨hpairs, -, hbeams, -⟩ := AnalogStage.mk.inj hsame
  obtain rfl := List.ofFn_injective hpairs
  obtain rfl := List.ofFn_injective hbeams
  have hgenerator := hready.evaluator.generator
  have hgained : ∀ i j, mastEvaluator.freshGains 0 (pathsTo (served i)) mast (served i)
      (transmittingBeam mast.array.panel (pair j)) (receivingBeam (served i) (pair i))
        (mastDesk .spectralMmse).engine.grid = .ok (coefficients i j) := by
    intro i j
    have hheld := (h.settled i).held
    rw [hgenerator] at hheld
    have hlink : link i = pathsTo (served i) :=
      Option.some.inj (hheld.symm.trans (settled_served i).held)
    have hfresh := h.coefficients_eq i j
    rw [Evaluator.freshGains, Evaluator.doppler, hgenerator, hlink] at hfresh
    exact hfresh
  have hcenter := List.getElem?_eq_getElem (l := (mastDesk .spectralMmse).engine.grid.centers) hband
  rw [h.amplitude_eq, streamChannel_served loss _ hgained hcenter]
  exact Bundle.isUnit_served loss _ hpaired _

/-- A column of an invertible channel times its inverse delivers something to its own peer. -/
theorem delivers_own {n : ℕ} {channel P : ComplexMatrix n n} (hone : channel * P = 1) {k : Fin n}
    {r : ℝ} (hr : 0 < r) {z : ℂ} (hz : z = r * (channel * P) k k) : z ≠ 0 := by
  rw [hz, hone, Matrix.one_apply_eq, mul_one]
  exact Complex.ofReal_ne_zero.mpr hr.ne'

end Mast

/-! ## The law of mixed beams -/

section Mixed

variable {n : ℕ} {now : Nanoseconds} {loss : FreeSpace ℝ} {own : Endpoint ℝ} {s s' : BeamDesk ℝ}
variable {peer : Fin n → Device ℝ} {layer : Fin n → UInt8}

/-- The law of a bundle that mixes beams. When a bundle on distinct layers is served, the engine keeps
a search for every peer, made on a flat matrix of the channel to it; conflicts between the searches are
resolved to pairs of beams, and these make the channel between streams and peers. Each layer then has
weights of unit norm, or none at all, that deliver to the peers its column of the channel times the
solution operator of the regularized least squares, up to one positive factor. Other layers keep their
beams, and nothing is combined digitally. So without regularization, and where the channel is
invertible, a layer delivers nothing to any peer but its own.

The law holds for all matrices that the searches can have been made on. A desk is founded in every
reachable scene (`Scene.Reachable.founded`). -/
theorem mixFlat_law (hn : 0 < n) (hlayer : Function.Injective layer)
    (hfounded : s.Founded own.id peer)
    (hrun : (mixFlat now loss own (List.ofFn peer) (List.ofFn layer)).run s = (.ok (), s')) :
    ∃ (search : Fin n → BeamSearch ℝ) (pair : Fin n → Codebook.BeamPair) (mixed : Fin n → Beam ℝ),
      (∀ i, s'.Holds own.id (peer i).id (search i)) ∧
      Codebook.resolveConflicts (List.ofFn fun i => (search i).pair)
        (List.ofFn fun i => (search i).equivalent) = (.ok (), List.ofFn pair) ∧
      (∀ i, ∃ h, (search i).MadeOn own.id s.array.panel (peer i) h) ∧
      (∀ k, s'.array.beam (layer k) = .ok (mixed k) ∧
        (mixed k).weights.length = s.array.panel.size.count ∧
        (∑ a, Complex.normSq (toVector s.array.panel.size.count (mixed k).weights a) = 1 ∨
          toVector s.array.panel.size.count (mixed k).weights = 0)) ∧
      (∀ other, (∀ k, layer k ≠ other) → s'.array.beam other = s.array.beam other) ∧
      s'.array.combiner = none ∧
      ∀ h : Fin n → Matrix ℝ, (∀ i, (search i).MadeOn own.id s.array.panel (peer i) (h i)) →
        let amplitude i := loss.amplitude s.engine.referencePower own (peer i).endpoint
        let channel := flatChannel s.array.panel peer amplitude pair h
        let delivered i k := amplitude i * heard s.array.panel (peer i) (pair i) (h i)
          (toVector s.array.panel.size.count (mixed k).weights)
        ∃ P, Precodes channel s.engine.noisePower P ∧
          (∀ Q, Precodes channel s.engine.noisePower Q → Q = P) ∧
          (∀ k, ∃ r : ℝ, 0 < r ∧ ∀ i, delivered i k = r * (channel * P) i k) ∧
          (s.engine.noisePower = 0 → IsUnit channel → ∀ i k, i ≠ k → delivered i k = 0) := by
  obtain ⟨search, pair, analog, channel, precoder, t, hwork, hengine, hholds, hresolved, hanalog,
    hchannel, hprecoder, hwritten, hothers, hcombiner⟩ := run_mixFlat_ok hn hlayer hrun
  have hlength : ∀ j, (analog j).weights.length = s.array.panel.size.count := by
    intro j
    rw [hanalog]
    exact Panel.size_weights (hfounded.addressable j).transmitter _ _
  have hmade : ∀ i, ∃ h, (search i).MadeOn own.id s.array.panel (peer i) h := by
    intro i
    have hsourced' := hwork.sourced (fun other hother hid => by
      obtain ⟨j, rfl⟩ := List.mem_ofFn.mp hother
      exact hfounded.panels j i hid) (hfounded.sourced i)
    have hfound := hsourced' (search i) (hholds i)
    rwa [hwork.panel] at hfound
  refine ⟨search, pair, fun k => ⟨hybridWeights (List.ofFn analog) precoder k,
    .hybrid (pair k).tx (layer k)⟩, fun i => ?_, hresolved, hmade, fun k => ⟨hwritten k, ?_⟩, hothers,
    hcombiner, fun h hh => ?_⟩
  · obtain ⟨b, hb, hsearch⟩ := hholds i
    exact ⟨b, hengine ▸ hb, hsearch⟩
  · choose h hh using hmade
    obtain ⟨hcount, -⟩ := precodes_of_solve hn hfounded.addressable hh hchannel hprecoder
    obtain ⟨hwidth, hnorm, -⟩ := hybridWeights_ok hn hlength hcount k
    refine ⟨hwidth, hnorm.imp (fun hone => ?_) fun hzero => funext fun a => hzero a⟩
    rw [← hone, Finset.sum_range]
    rfl
  · obtain ⟨hcount, hprecodes, hunique⟩ := precodes_of_solve hn hfounded.addressable hh hchannel hprecoder
    have hdelivered := delivered_eq peer
      (fun i => loss.amplitude s.engine.referencePower own (peer i).endpoint) hn hlength hanalog hcount h
    refine ⟨toMatrix n n precoder, hprecodes, hunique, hdelivered, fun hzero hunit i k hne => ?_⟩
    obtain ⟨r, -, hr⟩ := hdelivered k
    rw [hzero] at hprecodes
    refine (hr i).trans ?_
    rw [hprecodes.mul_eq_one hunit, Matrix.one_apply_ne hne, mul_zero]

/-- A mast that serves two devices on its beams. Both are heard best on its first one, of which one of
them has to give way, and nothing of either layer is left at the other device. -/
theorem mixFlat_law_of_two :
    let layer : Fin 2 → UInt8 := ![5, 2]
    let loss : FreeSpace ℝ := ⟨mastCarrier⟩
    let desk := mastDesk .flatMmse
    let amplitude i := loss.amplitude desk.engine.referencePower mast.endpoint (served i).endpoint
    ∃ s', (mixFlat 0 loss mast.endpoint (List.ofFn served) (List.ofFn layer)).run desk = (.ok (), s') ∧
      0 < 2 ∧ Function.Injective layer ∧ desk.Founded mast.id served ∧ desk.engine.noisePower = 0 ∧
      ∃ (search : Fin 2 → BeamSearch ℝ) (pair : Fin 2 → Codebook.BeamPair) (mixed : Fin 2 → Beam ℝ)
        (h : Fin 2 → Matrix ℝ),
        (∀ i, s'.Holds mast.id (served i).id (search i) ∧ (search i).pair.tx = 0 ∧
          (search i).MadeOn mast.id mast.array.panel (served i) (h i)) ∧
        Codebook.resolveConflicts (List.ofFn fun i => (search i).pair)
          (List.ofFn fun i => (search i).equivalent) = (.ok (), List.ofFn pair) ∧
        (pair 0).tx ≠ (pair 1).tx ∧
        (∀ k, s'.array.beam (layer k) = .ok (mixed k) ∧ (mixed k).weights.length = 2) ∧
        s'.array.combiner = none ∧
        let channel := flatChannel mast.array.panel served amplitude pair h
        let delivered i k := amplitude i * heard mast.array.panel (served i) (pair i) (h i)
          (toVector mast.array.panel.size.count (mixed k).weights)
        IsUnit channel ∧ (∃ P, Precodes channel 0 P ∧ channel * P = 1 ∧
          ∀ k, ∃ r : ℝ, 0 < r ∧ ∀ i, delivered i k = r * (channel * P) i k) ∧
        ∀ i k, delivered i k = 0 ↔ i ≠ k := by
  intro layer loss desk amplitude
  have hlayer : Function.Injective layer := by decide
  have hpanels : ∀ i j, (served i).id = (served j).id →
      (served i).array.panel = (served j).array.panel :=
    fun i j hid => congrArg (·.array.panel) (servable_mast.unique _ _ ⟨i, rfl⟩ ⟨j, rfl⟩ hid)
  have hfounded : desk.Founded mast.id served :=
    ⟨hpanels, fun i => servable_mast.addressable _ ⟨i, rfl⟩, fun i => .of_empty rfl⟩
  obtain ⟨_, s', hrun, -, hready⟩ :=
    answers_mixFlat_mast loss (List.ofFn layer) desk (ready_mastDesk .flatMmse)
  obtain ⟨search, pair, mixed, hholds, hresolved, -, hmixed, -, hcombiner, hlaw⟩ :=
    mixFlat_law two_pos hlayer hfounded hrun
  have hon : ∀ i, (search i).MadeOn mast.id mast.array.panel (served i)
      (flatTo (served i) mastCarrier) := by
    intro i
    obtain ⟨_, hmade, rfl⟩ := hready.on ⟨i, rfl⟩ (hholds i)
    exact hmade
  have hpaired : Paired mast.array.panel served pair := by
    obtain ⟨pair', hresolved', hpaired⟩ := exists_pairs servable_mast (fun i => ⟨i, rfl⟩) (le_refl 2)
      fun i => ⟨_, hon i⟩
    obtain rfl := List.ofFn_injective (congrArg Prod.snd (hresolved.symm.trans hresolved'))
    exact hpaired
  have hunit := isUnit_served loss desk.engine.referencePower hpaired mastCarrier
  obtain ⟨P, hprecodes, -, hdelivered, hsilent⟩ := hlaw _ hon
  have hone := Precodes.mul_eq_one hprecodes hunit
  have hfirst : ∀ i, (search i).pair.tx = 0 := by
    intro i
    match i with
    | 0 => exact tx_eq_zero (hon 0) rfl rfl (reaches_served 0 _) (by decide)
    | 1 => exact tx_eq_zero (hon 1) rfl rfl (reaches_served 1 _) (by decide)
  refine ⟨s', hrun, two_pos, hlayer, hfounded, rfl, search, pair, mixed, _,
    fun i => ⟨hholds i, hfirst i, hon i⟩, hresolved, fun heq => zero_ne_one (hpaired.distinct heq),
    fun k => ⟨(hmixed k).1, (hmixed k).2.1⟩, hcombiner, hunit, ⟨P, hprecodes, hone, hdelivered⟩,
    fun i k => ⟨fun hzero heq => ?_, hsilent rfl hunit i k⟩⟩
  obtain ⟨r, hr, hcolumn⟩ := hdelivered k
  subst heq
  exact delivers_own hone hr (hcolumn i) hzero

end Mixed

/-! ## The law of a digital combiner -/

section Combined

variable {now : Nanoseconds} {own : Endpoint ℝ} {s s' : BeamDesk ℝ} {n : ℕ} {loss : FreeSpace ℝ}
variable {peer : Fin n → Device ℝ} {layer : Fin n → UInt8}

/-- The law of a bundle with a digital combiner. When a bundle on distinct layers is set up, each
layer has the analog beam of its stream, and in each subband the combiner makes the output layer of
stream `k` deliver to the peers column `k` of the channel between streams and peers times the solution
operator of the regularized least squares, up to one positive factor. The channel is made of the
coefficients that the links, as they are settled, have for the beams. A peer that listens through its
own beam receives the power of what is delivered to it. So without regularization, and where the
channel is invertible, an output layer delivers nothing to any peer but its own.

No peer is the node itself, as a scene sees to (`Scene.setBundle`), and the cache of projections is
trusted, as it is where the node's links were asked about from its own end (`Calls.trusted`). -/
theorem combineSpectral_law (hlayer : Function.Injective layer) (hpeer : ∀ i, (peer i).id ≠ own.id)
    (htrusted : s.evaluator.Trusted own.id)
    (hrun : (combineSpectral now loss own (List.ofFn peer) (List.ofFn layer)).run s = (.ok (), s')) :
    ∃ amplitude analog receiving link coefficients combiner,
      SetUp now loss own peer layer s s' amplitude analog receiving link coefficients combiner ∧
      (∀ (band : ℕ) block, combiner[band]? = some block →
        (∀ k j, ∃ w, Evaluator.weight block (layer k).toNat (layer j).toNat = .ok w ∧
          w.toComplex = Evaluator.weightIn block (layer k).toNat (layer j).toNat) ∧
        (∃ X : ComplexMatrix n n,
          ((streamChannel amplitude coefficients band).conjTranspose *
              streamChannel amplitude coefficients band +
            (s.engine.noisePower : ℂ) • (1 : ComplexMatrix n n)) * X =
              (streamChannel amplitude coefficients band).conjTranspose ∧
          ∀ k, ∃ r : ℝ, 0 < r ∧ ∀ i, amplitude i * delivered layer coefficients block band k i =
            r * (streamChannel amplitude coefficients band * X) i k) ∧
        (s.engine.noisePower = 0 → IsUnit (streamChannel amplitude coefficients band) →
          ∀ i k, i ≠ k → delivered layer coefficients block band k i = 0)) ∧
      ∀ (i k : Fin n) (listener : Device ℝ) (y : UInt8), listener.endpoint = (peer i).endpoint →
        listener.array.combiner = none → listener.array.beam y = .ok (receiving i) →
        ∃ powers t, (Evaluator.powerGain now (link i) ⟨own, s'.array⟩ listener (layer k) y
            s.engine.grid).run s'.evaluator = (.ok powers, t) ∧
          ∀ (band : ℕ) block, combiner[band]? = some block → powers[band]? =
            some (Complex.normSq (delivered layer coefficients block band k i)) := by
  obtain ⟨amplitude, analog, receiving, link, coefficients, combiner, hsetUp, hprecoded⟩ :
      ∃ amplitude analog receiving link coefficients combiner,
        SetUp now loss own peer layer s s' amplitude analog receiving link coefficients combiner ∧
        ∀ (band : ℕ) block, combiner[band]? = some block →
          Precoded layer s.engine.noisePower (streamChannel amplitude coefficients band) block := by
    rcases Nat.eq_zero_or_pos n with rfl | hn
    · exact setUp_of_empty htrusted hrun
    · exact setUp_of_run hn hlayer hpeer htrusted hrun
  refine ⟨amplitude, analog, receiving, link, coefficients, combiner, hsetUp,
    fun band block hblock => ⟨fun k j => ?_, (hprecoded band block hblock).delivered_eq hlayer,
      fun hzero hunit i k hne => ?_⟩, fun i k listener y hlistener hplain hbeam =>
      hsetUp.powerGain hlayer hprecoded i k hlistener hplain hbeam⟩
  · obtain ⟨-, row, hrow, hwidth, -⟩ := (hprecoded band block hblock).row hlayer k
    have houtputs : Evaluator.Outputs [block] (layer k).toNat (combinerSize (List.ofFn layer)) := by
      intro block' hblock'
      rw [List.mem_singleton.mp hblock']
      exact ⟨row, hrow, hwidth⟩
    exact houtputs.weight List.mem_cons_self (lt_combinerSize (List.mem_ofFn.mpr ⟨j, rfl⟩))
  · have hprecoded₀ := hprecoded band block hblock
    rw [hzero] at hprecoded₀
    exact hprecoded₀.delivered_eq_zero hlayer hunit hne

/-- A mast that serves two devices through its combiner, on beams of which both would have the first one.
In both subbands an output layer delivers its stream to its own device, and nothing to the other one. So
each device that listens hears power on its own layer, and silence on the other. -/
theorem combineSpectral_law_of_two :
    let layer : Fin 2 → UInt8 := ![5, 2]
    let loss : FreeSpace ℝ := ⟨mastCarrier⟩
    let desk := mastDesk .spectralMmse
    ∃ s', (combineSpectral 0 loss mast.endpoint (List.ofFn served) (List.ofFn layer)).run desk =
        (.ok (), s') ∧
      Function.Injective layer ∧ (∀ i, (served i).id ≠ mast.id) ∧ desk.evaluator.Trusted mast.id ∧
      desk.engine.noisePower = 0 ∧
      ∃ amplitude analog receiving link coefficients combiner,
        SetUp 0 loss mast.endpoint served layer desk s' amplitude analog receiving link coefficients
          combiner ∧ combiner.length = 2 ∧
        (∀ (band : ℕ) block, combiner[band]? = some block →
          IsUnit (streamChannel amplitude coefficients band) ∧
          ∀ i k, delivered layer coefficients block band k i = 0 ↔ i ≠ k) ∧
        ∀ i k, ∃ powers t, (Evaluator.powerGain 0 (link i) ⟨mast.endpoint, s'.array⟩
            (listening (served i) (receiving i)) (layer k) 0 mastGrid).run s'.evaluator = (.ok powers, t) ∧
          ∀ band < 2, ∃ power, powers[band]? = some power ∧ (power = 0 ↔ i ≠ k) := by
  intro layer loss desk
  have hlayer : Function.Injective layer := by decide
  have hother : ∀ i, (served i).id ≠ mast.id := by
    intro i
    match i with
    | 0 => decide
    | 1 => decide
  obtain ⟨_, s', hrun, -, hready⟩ :=
    answers_combineSpectral_mast loss (List.ofFn layer) desk (ready_mastDesk .spectralMmse)
  obtain ⟨amplitude, analog, receiving, link, coefficients, combiner, hsetUp, hlaw, hheard⟩ :=
    combineSpectral_law hlayer hother trusted_mastEvaluator hrun
  have hseparate : ∀ (band : ℕ) block, combiner[band]? = some block →
      IsUnit (streamChannel amplitude coefficients band) ∧
      ∀ i k, delivered layer coefficients block band k i = 0 ↔ i ≠ k := by
    intro band block hblock
    have hband : band < 2 := (List.getElem?_eq_some_iff.mp hblock).1.trans_eq hsetUp.subbands
    have hunit := hsetUp.isUnit_served hready hband
    obtain ⟨-, ⟨X, hX, hdelivered⟩, hsilent⟩ := hlaw band block hblock
    refine ⟨hunit, fun i k => ⟨fun hzero heq => ?_, hsilent rfl hunit i k⟩⟩
    obtain ⟨r, hr, hcolumn⟩ := hdelivered k
    subst heq
    refine delivers_own (Precodes.mul_eq_one hX hunit) hr (hcolumn i) ?_
    rw [hzero, mul_zero]
  refine ⟨s', hrun, hlayer, hother, trusted_mastEvaluator, rfl, amplitude, analog, receiving, link,
    coefficients, combiner, hsetUp, hsetUp.subbands, hseparate, fun i k => ?_⟩
  obtain ⟨hendpoint, hplain, hbeam⟩ := listens_served i (receiving i)
  obtain ⟨powers, t, hgain, hpowers⟩ :=
    hheard i k (listening (served i) (receiving i)) 0 hendpoint hplain hbeam
  refine ⟨powers, t, hgain, fun band hband => ?_⟩
  have hblock := List.getElem?_eq_getElem (hband.trans_eq hsetUp.subbands.symm)
  exact ⟨_, hpowers band _ hblock, Complex.normSq_eq_zero.trans ((hseparate band _ hblock).2 i k)⟩

end Combined

end Bundle

end RadioChannel
