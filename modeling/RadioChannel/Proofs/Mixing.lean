import RadioChannel.Proofs.Bundles
import RadioChannel.Proofs.Searches

/-!
# Bundles that mix beams

Without a digital combiner a bundle mixes its codebook beams, alike in all subbands. The channel between
streams and peers is read off the searches of the peers, solved for a precoder, and each column of the
precoder mixes the beams of one layer. What a peer hears of a layer is then, up to a positive factor of
the layer, an entry of the channel times the precoder.
-/

namespace RadioChannel

open ExactScalars

namespace Bundle

open BeamDesk

/-! ## Mixed beams -/

theorem coord_zipWith_add {a b : List (Phasor ℝ)} (h : a.length = b.length) (i : ℕ) :
    coord (a.zipWith (· + ·) b) i = coord a i + coord b i := by
  by_cases hi : i < a.length
  · have hb : i < b.length := h ▸ hi
    simp [coord, hi, hb]
  · have ha : a.length ≤ i := not_lt.mp hi
    have hb : b.length ≤ i := h ▸ ha
    have hsum : (a.zipWith (· + ·) b).length ≤ i := by
      rw [List.length_zipWith]
      omega
    rw [coord_of_length_le ha, coord_of_length_le hb, coord_of_length_le hsum, add_zero]

theorem foldl_mix {m : ℕ} (items : List (Beam ℝ × Phasor ℝ))
    (hitems : ∀ item ∈ items, item.1.weights.length = m) (start : List (Phasor ℝ))
    (hstart : start.length = m) :
    let out := items.foldl (fun sum (beam, x) => sum.zipWith (· + ·) (beam.weights.map (· * x))) start
    out.length = m ∧ ∀ i, coord out i =
      coord start i + (items.map fun item => coord item.1.weights i * item.2.toComplex).sum := by
  induction items generalizing start with
  | nil => simp [hstart]
  | cons item items ih =>
    rw [List.forall_mem_cons] at hitems
    have hlength : start.length = (item.1.weights.map (· * item.2)).length := by
      rw [List.length_map, hitems.1, hstart]
    obtain ⟨hout, hcoord⟩ := ih hitems.2
      (start.zipWith (· + ·) (item.1.weights.map (· * item.2))) (by simp [hstart, hitems.1])
    refine ⟨hout, fun i => ?_⟩
    rw [List.foldl_cons, hcoord, coord_zipWith_add hlength, List.map_cons, List.sum_cons, add_assoc,
      coord_map (g := (· * item.2.toComplex)) (fun z => Phasor.toComplex_mul z _) (zero_mul _)]

variable {n : ℕ}

theorem zip_ofFn {α β : Type} (f : Fin n → α) (g : Fin n → β) :
    (List.ofFn f).zip (List.ofFn g) = List.ofFn fun i => (f i, g i) := by
  refine List.ext_getElem (by simp) fun i hi hi' => by simp

/-- A mix of beams of one size has that size, and its entries are mixed alike. -/
theorem mix_ok {m : ℕ} (hn : 0 < n) (analog : Fin n → Beam ℝ) (coefficient : Fin n → Phasor ℝ)
    (hanalog : ∀ j, (analog j).weights.length = m) :
    (mix (List.ofFn analog) (List.ofFn coefficient)).length = m ∧
      ∀ i, coord (mix (List.ofFn analog) (List.ofFn coefficient)) i =
        ∑ j, coord (analog j).weights i * (coefficient j).toComplex := by
  have hsize : (((List.ofFn analog).head?.map Beam.size).getD 0) = m := by
    obtain ⟨n, rfl⟩ := Nat.exists_eq_add_one.mpr hn
    rw [List.ofFn_succ]
    exact hanalog 0
  obtain ⟨hlength, hcoord⟩ := foldl_mix (List.ofFn fun j => (analog j, coefficient j))
    (by simpa [List.mem_ofFn] using hanalog) (List.replicate m .zero) (List.length_replicate ..)
  unfold mix
  rw [hsize, zip_ofFn]
  refine ⟨hlength, fun i => ?_⟩
  have hstart : coord (List.replicate m .zero) i = 0 := by
    rw [coord, List.getElem?_replicate]
    split <;> exact Phasor.toComplex_zero
  rw [hcoord, hstart, zero_add, List.map_ofFn, List.sum_ofFn]
  rfl

/-- Normalized weights have unit norm, unless all of them are zero. -/
theorem normalize_cases (weights : List (Phasor ℝ)) :
    ∑ i ∈ Finset.range weights.length, Complex.normSq (coord (normalize weights) i) = 1 ∨
      ∀ i, coord (normalize weights) i = 0 := by
  have hsum := sum_normSq_coord weights
  have hnorm : Phasor.norm weights = √(Scalar.sum (weights.map Phasor.normSq)) := rfl
  rw [← hsum] at hnorm
  have hnonneg : 0 ≤ ∑ i ∈ Finset.range weights.length, Complex.normSq (coord weights i) :=
    Finset.sum_nonneg fun i _ => Complex.normSq_nonneg _
  unfold normalize
  dsimp only
  split
  · next hpositive =>
    left
    rw [lt_iff, zero_eq] at hpositive
    have hentry : ∀ i, Complex.normSq (coord (weights.map (·.shrink (Phasor.norm weights))) i) =
        Complex.normSq (coord weights i) / (Phasor.norm weights * Phasor.norm weights) := by
      intro i
      rw [coord_map (g := fun z => z / (Phasor.norm weights : ℝ)) (fun z => Phasor.toComplex_shrink z _)
        (zero_div _), Complex.normSq_div, Complex.normSq_ofReal]
    have hsquare : Phasor.norm weights * Phasor.norm weights =
        ∑ i ∈ Finset.range weights.length, Complex.normSq (coord weights i) := by
      rw [hnorm, Real.mul_self_sqrt hnonneg]
    rw [Finset.sum_congr rfl fun i _ => hentry i, ← Finset.sum_div, ← hsquare]
    exact div_self (mul_pos hpositive hpositive).ne'
  · next hzero =>
    right
    intro i
    rw [lt_iff, zero_eq, not_lt, hnorm, Real.sqrt_le_iff] at hzero
    by_cases hi : i < weights.length
    · have hentries := (Finset.sum_eq_zero_iff_of_nonneg fun i _ => Complex.normSq_nonneg _).mp
        (le_antisymm (by simpa using hzero.2) hnonneg)
      exact Complex.normSq_eq_zero.mp (hentries i (Finset.mem_range.mpr hi))
    · exact coord_of_length_le (not_lt.mp hi)

/-! ## Channels between streams and peers -/

/-- What a peer hears of a vector of weights over a flat matrix, through its own beam of a pair. -/
noncomputable def heard (panel : Panel ℝ) (peer : Device ℝ) (pair : Codebook.BeamPair) (h : Matrix ℝ)
    (w : Fin panel.size.count → ℂ) : ℂ :=
  dotProduct (toVector peer.array.panel.size.count (Codebook.weights peer.array.panel.size pair.rx))
    ((toMatrix peer.array.panel.size.count panel.size.count h).mulVec w)

/-- The channel between the codebook beams of the streams of a bundle and its peers. -/
noncomputable def flatChannel (panel : Panel ℝ) (peer : Fin n → Device ℝ) (amplitude : Fin n → ℝ)
    (pair : Fin n → Codebook.BeamPair) (h : Fin n → Matrix ℝ) : ComplexMatrix n n :=
  .of fun i j => amplitude i * heard panel (peer i) (pair i) (h i)
    (toVector panel.size.count (Codebook.weights panel.size (pair j).tx))

theorem heard_sum (panel : Panel ℝ) (peer : Device ℝ) (pair : Codebook.BeamPair) (h : Matrix ℝ)
    (w : Fin n → Fin panel.size.count → ℂ) (x : Fin n → ℂ) :
    heard panel peer pair h (fun a => ∑ j, w j a * x j) = ∑ j, heard panel peer pair h (w j) * x j := by
  have hmix : (fun a => ∑ j, w j a * x j) = ∑ j, x j • w j := by
    funext a
    rw [Finset.sum_apply]
    exact Finset.sum_congr rfl fun j _ => mul_comm _ _
  rw [heard, hmix, Matrix.mulVec_sum, dotProduct_sum]
  refine Finset.sum_congr rfl fun j _ => ?_
  rw [Matrix.mulVec_smul, dotProduct_smul, smul_eq_mul, mul_comm]
  rfl

theorem heard_smul (panel : Panel ℝ) (peer : Device ℝ) (pair : Codebook.BeamPair) (h : Matrix ℝ)
    (r : ℂ) (w : Fin panel.size.count → ℂ) :
    heard panel peer pair h (fun a => r * w a) = r * heard panel peer pair h w := by
  have hscaled : (fun a => r * w a) = r • w := rfl
  rw [heard, hscaled, Matrix.mulVec_smul, dotProduct_smul, smul_eq_mul]
  rfl

theorem equivalentRow_ok {pairs : List Codebook.BeamPair} {pair : Codebook.BeamPair}
    {equivalent : Matrix ℝ} {scale : ℝ} {row : List (Phasor ℝ)}
    (h : equivalentRow pairs pair equivalent scale = .ok row) {j : ℕ} {other : Codebook.BeamPair}
    (hj : pairs[j]? = some other) : pair.rx < equivalent.length ∧
      other.tx < (equivalent[pair.rx]?.getD []).length ∧
      coord row j = scale * coord (equivalent[pair.rx]?.getD []) other.tx := by
  obtain ⟨z, hz, hentry⟩ := exists_of_forall₂ (except_mapM_ok.mp h) hj
  obtain ⟨entries, hentries, hentry⟩ := except_bind_ok.mp hentry
  obtain ⟨g, hg, hentry⟩ := except_bind_ok.mp hentry
  obtain rfl := Except.ok.inj hentry
  have hrow := entryAt_ok.mp hentries
  have hg' := entryAt_ok.mp hg
  rw [hrow, Option.getD_some]
  refine ⟨(List.getElem?_eq_some_iff.mp hrow).1, (List.getElem?_eq_some_iff.mp hg').1, ?_⟩
  rw [coord, hz, Option.getD_some, Phasor.toComplex_scale, coord_of_entryAt hg]

/-- The channel that is read off the searches is the one between beams. -/
theorem equivalentChannel_ok (hn : 0 < n) {panel : Panel ℝ} {peer : Fin n → Device ℝ}
    {amplitude : Fin n → ℝ} {pair : Fin n → Codebook.BeamPair} {search : Fin n → BeamSearch ℝ}
    {beams : List (Beam ℝ)} {own : NodeId} {h : Fin n → Matrix ℝ} {channel : Matrix ℝ}
    (hsize : ∀ i, Codebook.Addressable (peer i).array.panel.size panel.size)
    (hmade : ∀ i, (search i).MadeOn own panel (peer i) (h i))
    (hchannel : equivalentChannel ⟨List.ofFn pair, List.ofFn fun i => (search i).equivalent, beams,
      List.ofFn amplitude⟩ (List.ofFn peer) panel.elementCount = .ok channel) :
    channel.length = n ∧ Matrix.columns channel = n ∧
      toMatrix n n channel = flatChannel panel peer amplitude pair h := by
  unfold equivalentChannel at hchannel
  dsimp only at hchannel
  rw [zip_ofFn, zip_ofFn, zip_ofFn] at hchannel
  have hrows := except_mapM_ok.mp hchannel
  refine ⟨by rw [← hrows.length_eq, List.length_ofFn], ?_, ?_⟩
  · obtain ⟨row, hrow, hentries⟩ := exists_of_forall₂ hrows (getElem?_ofFn_val _ ⟨0, hn⟩)
    rw [Matrix.columns, List.head?_eq_getElem?, hrow, Option.map_some, Option.getD_some,
      ← (except_mapM_ok.mp hentries).length_eq, List.length_ofFn]
  · ext i j
    obtain ⟨row, hrow, hentries⟩ := exists_of_forall₂ hrows (getElem?_ofFn_val _ i)
    obtain ⟨hrx, htx, hentry⟩ := equivalentRow_ok hentries (getElem?_ofFn_val pair j)
    obtain ⟨hcount, hwidth, hequivalent⟩ :=
      Codebook.equivalent_ok (hsize i) (hmade i).length (hmade i).transformed
    have hwide : ((search i).equivalent[(pair i).rx]?.getD []).length = panel.size.count := by
      rw [List.getElem?_eq_getElem hrx, Option.getD_some]
      exact hwidth _ (List.getElem_mem hrx)
    rw [hcount] at hrx
    rw [hwide] at htx
    have hnorm : √((peer i).array.panel.size.count * panel.size.count : ℝ) ≠ 0 :=
      (Real.sqrt_pos.mpr (mul_pos (Nat.cast_pos.mpr (Nat.zero_lt_of_lt hrx))
        (Nat.cast_pos.mpr (Nat.zero_lt_of_lt htx)))).ne'
    rw [toMatrix_apply, hrow, Option.getD_some, hentry, hequivalent _ hrx _ htx, flatChannel,
      Matrix.of_apply, heard, ← mul_assoc, ← Complex.ofReal_mul]
    congr 2
    exact div_mul_cancel₀ _ hnorm

/-! ## Beams of streams -/

/-- The weights of a stream are its column of the precoder mixed from the beams, up to a factor. -/
theorem hybridWeights_ok (hn : 0 < n) {m : ℕ} {analog : Fin n → Beam ℝ}
    (hanalog : ∀ j, (analog j).weights.length = m) {precoder : Matrix ℝ} (hlength : precoder.length = n)
    (k : Fin n) :
    let w := hybridWeights (List.ofFn analog) precoder k
    w.length = m ∧
      (∑ i ∈ Finset.range m, Complex.normSq (coord w i) = 1 ∨ ∀ i, coord w i = 0) ∧
      ∃ r : ℝ, 0 < r ∧ ∀ i, coord w i =
        r * ∑ j, coord (analog j).weights i * toMatrix n n precoder j k := by
  have hcolumn : precoder.map (fun row => row[k.val]?.getD .zero) =
      List.ofFn fun j : Fin n => (precoder[j.val]?.getD [])[k.val]?.getD .zero := by
    refine List.ext_getElem (by simp [hlength]) fun i hi hi' => ?_
    simp [List.getElem?_eq_getElem (show i < precoder.length by simpa using hi)]
  obtain ⟨hmixed, hentries⟩ := mix_ok hn analog
    (fun j : Fin n => (precoder[j.val]?.getD [])[k.val]?.getD .zero) hanalog
  obtain ⟨r, hr, hscaled⟩ := coord_normalize (mix (List.ofFn analog)
    (List.ofFn fun j : Fin n => (precoder[j.val]?.getD [])[k.val]?.getD .zero))
  unfold hybridWeights
  rw [hcolumn]
  refine ⟨by rw [length_normalize, hmixed], ?_, r, hr, fun i => ?_⟩
  · have hcases := normalize_cases (mix (List.ofFn analog)
      (List.ofFn fun j : Fin n => (precoder[j.val]?.getD [])[k.val]?.getD .zero))
    rwa [hmixed] at hcases
  · rw [hscaled, hentries]
    rfl

theorem forM_ofFn_congr {α β : Type} {R σ : Type} {f : α → Action R σ Unit} {g : β → Action R σ Unit}
    {a : Fin n → α} {b : Fin n → β} (h : ∀ i, f (a i) = g (b i)) :
    (List.ofFn a).forM f = (List.ofFn b).forM g := by
  induction n with
  | zero => simp
  | succ n ih =>
    rw [List.ofFn_succ, List.ofFn_succ]
    change (f (a 0) >>= fun _ => (List.ofFn fun i : Fin n => a i.succ).forM f) =
      (g (b 0) >>= fun _ => (List.ofFn fun i : Fin n => b i.succ).forM g)
    rw [h 0, ih fun i => h i.succ]

theorem zipIdx_ofFn {α : Type} (f : Fin n → α) :
    (List.ofFn f).zipIdx = List.ofFn fun i => (f i, i.val) := by
  refine List.ext_getElem (by simp) fun i hi hi' => by simp

/-! ## Runs -/

variable {now : Nanoseconds} {loss : FreeSpace ℝ} {own : Endpoint ℝ} {s s' : BeamDesk ℝ}
variable {peer : Fin n → Device ℝ} {layer : Fin n → UInt8}

/-- What a bundle works on that is served: the searches that are kept for its peers, their pairs after
conflicts are resolved, and the precoder that is solved from them. -/
theorem run_mixFlat_ok (hn : 0 < n) (hlayer : Function.Injective layer)
    (hrun : (mixFlat now loss own (List.ofFn peer) (List.ofFn layer)).run s = (.ok (), s')) :
    ∃ (search : Fin n → BeamSearch ℝ) (pair : Fin n → Codebook.BeamPair) (analog : Fin n → Beam ℝ)
      (channel precoder : Matrix ℝ) (t : BeamDesk ℝ),
      Searches now own (· ∈ List.ofFn peer) s t ∧ s'.engine = t.engine ∧
      (∀ i, t.Holds own.id (peer i).id (search i)) ∧
      Codebook.resolveConflicts (List.ofFn fun i => (search i).pair)
        (List.ofFn fun i => (search i).equivalent) = (.ok (), List.ofFn pair) ∧
      analog = (fun j => ⟨Codebook.weights s.array.panel.size (pair j).tx,
        .codebook (pair j).tx (pair j).rx⟩) ∧
      equivalentChannel ⟨List.ofFn pair, List.ofFn fun i => (search i).equivalent, List.ofFn analog,
        List.ofFn fun i => loss.amplitude s.engine.referencePower own (peer i).endpoint⟩
        (List.ofFn peer) s.array.panel.elementCount = .ok channel ∧
      LeastSquares.solveMatrix channel s.engine.noisePower = .ok precoder ∧
      (∀ k : Fin n, s'.array.beam (layer k) =
        .ok ⟨hybridWeights (List.ofFn analog) precoder k, .hybrid (pair k).tx (layer k)⟩) ∧
      (∀ other, (∀ k, layer k ≠ other) → s'.array.beam other = s.array.beam other) ∧
      s'.array.combiner = none := by
  have hempty : (List.ofFn peer).isEmpty = false := by
    rw [List.isEmpty_eq_false_iff, ne_eq, List.ofFn_eq_nil_iff]
    omega
  rw [mixFlat, hempty, if_neg Bool.false_ne_true] at hrun
  obtain ⟨⟨pairs, equivalents, beams, amplitudes⟩, t, hstage, hrun⟩ := Action.run_bind_ok.mp hrun
  obtain ⟨searches, hwork, hholds, hresolved, hequivalents, hbeams, hamplitudes⟩ :=
    analogStage_searches (fun _ hp => hp) hstage
  dsimp only at hresolved hequivalents hbeams hamplitudes
  obtain ⟨search, rfl⟩ := exists_ofFn (hholds.length_eq.symm.trans List.length_ofFn)
  have hlength := Codebook.length_resolveConflicts ((List.ofFn search).map BeamSearch.pair)
    ((List.ofFn search).map BeamSearch.equivalent)
  rw [hresolved, List.length_map, List.length_ofFn] at hlength
  obtain ⟨pair, rfl⟩ := exists_ofFn hlength
  rw [List.map_ofFn] at hequivalents hbeams hamplitudes
  rw [List.map_ofFn, List.map_ofFn] at hresolved
  subst hequivalents hbeams hamplitudes
  obtain ⟨_, _, hget, hrun⟩ := Action.run_bind_ok.mp hrun
  cases hget
  obtain ⟨channel, hchannel, hrun⟩ := Action.run_lift_bind_ok.mp hrun
  obtain ⟨precoder, hprecoder, hrun⟩ := Action.run_lift_bind_ok.mp hrun
  obtain ⟨_, u, hset, hrun⟩ := Action.run_bind_ok.mp hrun
  obtain ⟨-, rfl⟩ := Prod.mk.inj hrun
  -- the beams of the streams, set on the layers
  let analog (j : Fin n) : Beam ℝ :=
    ⟨Codebook.weights s.array.panel.size (pair j).tx, .codebook (pair j).tx (pair j).rx⟩
  let mixed (k : Fin n) : Beam ℝ :=
    ⟨hybridWeights (List.ofFn analog) precoder k, .hybrid (pair k).tx (layer k)⟩
  have hitems : ((List.ofFn peer).zip ((List.ofFn layer).zip (List.ofFn pair))).zipIdx.forM
      (fun item => setBeam item.1.1.id item.1.2.1
        ⟨hybridWeights (List.ofFn analog) precoder item.2, .hybrid item.1.2.2.tx item.1.2.1⟩ now) =
      ((List.ofFn peer).zip ((List.ofFn layer).zip (List.ofFn mixed))).forM
        fun item => setBeam item.1.id item.2.1 item.2.2 now := by
    rw [zip_ofFn, zip_ofFn, zip_ofFn, zip_ofFn, zipIdx_ofFn]
    exact forM_ofFn_congr fun i => rfl
  obtain ⟨array, hset', hwritten, hothers⟩ := run_setBeams_ofFn now peer hlayer mixed t
  have hdone := hset.symm.trans ((congrArg (fun x => x.run t) hitems).trans hset')
  obtain ⟨-, rfl⟩ := Prod.mk.inj hdone
  rw [hwork.array] at hothers hchannel
  rw [hwork.settings] at hprecoder
  refine ⟨search, pair, analog, channel, precoder, t, hwork, rfl, fun i => ?_, hresolved, rfl, hchannel,
    hprecoder, hwritten, hothers, rfl⟩
  obtain ⟨found, hfound, hheld⟩ := exists_of_forall₂ hholds (getElem?_ofFn_val peer i)
  obtain rfl := Option.some.inj ((getElem?_ofFn_val search i).symm.trans hfound)
  exact hheld

/-! ## What streams deliver -/

/-- The solution operator of the regularized least squares of a channel. -/
def Precodes (channel : ComplexMatrix n n) (noisePower : ℝ) (P : ComplexMatrix n n) : Prop :=
  (channel.conjTranspose * channel + (noisePower : ℂ) • (1 : ComplexMatrix n n)) * P =
    channel.conjTranspose

/-- Without regularization the solution operator of an invertible channel is its inverse. -/
theorem Precodes.mul_eq_one {channel P : ComplexMatrix n n} (h : Precodes channel 0 P)
    (hchannel : IsUnit channel) : channel * P = 1 := by
  rw [Precodes, Complex.ofReal_zero] at h
  exact LeastSquares.mul_eq_one_of_normal hchannel h

section Stage

variable {panel : Panel ℝ} {amplitude : Fin n → ℝ} {pair : Fin n → Codebook.BeamPair}
variable {analog : Fin n → Beam ℝ} {precoder : Matrix ℝ}

theorem precodes_of_solve (hn : 0 < n) {search : Fin n → BeamSearch ℝ} {beams : List (Beam ℝ)}
    {own : NodeId} {h : Fin n → Matrix ℝ} {channel : Matrix ℝ} {noisePower : ℝ}
    (hsize : ∀ i, Codebook.Addressable (peer i).array.panel.size panel.size)
    (hmade : ∀ i, (search i).MadeOn own panel (peer i) (h i))
    (hchannel : equivalentChannel ⟨List.ofFn pair, List.ofFn fun i => (search i).equivalent, beams,
      List.ofFn amplitude⟩ (List.ofFn peer) panel.elementCount = .ok channel)
    (hprecoder : LeastSquares.solveMatrix channel noisePower = .ok precoder) :
    precoder.length = n ∧
      Precodes (flatChannel panel peer amplitude pair h) noisePower (toMatrix n n precoder) ∧
      ∀ Q, Precodes (flatChannel panel peer amplitude pair h) noisePower Q →
        Q = toMatrix n n precoder := by
  obtain ⟨hrows, hcolumns, hentries⟩ := equivalentChannel_ok hn hsize hmade hchannel
  obtain ⟨hlength, hsolved⟩ := LeastSquares.solveMatrix_ok hrows hcolumns hprecoder
  have hunit := LeastSquares.isUnit_normal hrows hcolumns hprecoder
  rw [hentries] at hsolved hunit
  exact ⟨hlength, hsolved, fun Q hQ => hunit.mul_left_cancel (hQ.trans hsolved.symm)⟩

/-- What the weights of a stream deliver to the peers is, up to one factor, its column of the channel
times the precoder. -/
theorem delivered_eq (peer : Fin n → Device ℝ) (amplitude : Fin n → ℝ) (hn : 0 < n)
    (hlength : ∀ j, (analog j).weights.length = panel.size.count)
    (hanalog : analog = fun j => ⟨Codebook.weights panel.size (pair j).tx,
      .codebook (pair j).tx (pair j).rx⟩)
    (hcount : precoder.length = n) (h : Fin n → Matrix ℝ) (k : Fin n) :
    ∃ r : ℝ, 0 < r ∧ ∀ i, amplitude i * heard panel (peer i) (pair i) (h i)
      (toVector panel.size.count (hybridWeights (List.ofFn analog) precoder k)) =
        r * (flatChannel panel peer amplitude pair h * toMatrix n n precoder) i k := by
  obtain ⟨-, -, r, hr, hmixed⟩ := hybridWeights_ok hn hlength hcount k
  refine ⟨r, hr, fun i => ?_⟩
  have hvector : toVector panel.size.count (hybridWeights (List.ofFn analog) precoder k) =
      fun a => (r : ℂ) * ∑ j, toVector panel.size.count (Codebook.weights panel.size (pair j).tx) a *
        toMatrix n n precoder j k := by
    funext a
    rw [toVector_apply, hmixed, hanalog]
    rfl
  rw [hvector, heard_smul, heard_sum, Matrix.mul_apply, Finset.mul_sum, Finset.mul_sum, Finset.mul_sum]
  refine Finset.sum_congr rfl fun j _ => ?_
  rw [flatChannel, Matrix.of_apply]
  ring

end Stage

end Bundle

end RadioChannel
