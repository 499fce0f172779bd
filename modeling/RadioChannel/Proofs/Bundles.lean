import RadioChannel.Proofs.Combining
import RadioChannel.Proofs.Desks
import RadioChannel.Proofs.Precoding

/-!
# Bundles with a digital combiner

A bundle is set up subband by subband: the gains of all streams at all peers make a matrix, the matrix
is solved for a precoder, and the precoder is written into the combiner at the layers of the streams.
What a peer receives of an output layer is then, up to a positive factor of the layer, an entry of the
matrix times the precoder. Without regularization nothing is left of other peers' streams.
-/

namespace RadioChannel

open ExactScalars

/-! ## Beams on layers -/

theorem AntennaArray.beam_setBeam (array : AntennaArray ℝ) (peer : NodeId) (layer layer' : UInt8)
    (x : Beam ℝ) (now : Nanoseconds) : (array.setBeam peer layer x now).beam layer' =
      if layer = layer' then .ok x else array.beam layer' := by
  simp only [AntennaArray.beam, AntennaArray.setBeam, Std.TreeMap.getElem?_insert,
    Std.LawfulEqCmp.compare_eq_iff_eq]
  by_cases h : layer = layer' <;> simp [h]

namespace Bundle

open BeamDesk

variable {now : Nanoseconds} {own : Endpoint ℝ} {peer : Device ℝ} {s s' : BeamDesk ℝ}

/-- Beams set on distinct layers are active there, and no other layer changes. -/
theorem run_setBeams (now : Nanoseconds) (items : List (Device ℝ × UInt8 × Beam ℝ))
    (s : BeamDesk ℝ) :
    ∃ array, (items.forM fun (peer, (layer, beam)) => setBeam peer.id layer beam now).run s =
        (.ok (), { s with array := array }) ∧
      ((items.map fun e => e.2.1).Nodup → ∀ e ∈ items, array.beam e.2.1 = .ok e.2.2) ∧
      ∀ layer ∉ items.map fun e => e.2.1, array.beam layer = s.array.beam layer := by
  induction items generalizing s with
  | nil => exact ⟨s.array, rfl, by simp, fun _ _ => rfl⟩
  | cons first items ih =>
    obtain ⟨peer, layer, x⟩ := first
    obtain ⟨array, hrun, hset, hothers⟩ := ih { s with array := s.array.setBeam peer.id layer x now }
    refine ⟨array, ?_, fun hd => ?_, fun layer' hlayer' => ?_⟩
    · exact hrun
    · rw [List.map_cons, List.nodup_cons] at hd
      rw [List.forall_mem_cons]
      refine ⟨?_, hset hd.2⟩
      rw [hothers layer hd.1, AntennaArray.beam_setBeam, if_pos rfl]
    · rw [List.map_cons, List.mem_cons, not_or] at hlayer'
      rw [hothers layer' hlayer'.2, AntennaArray.beam_setBeam, if_neg (Ne.symm hlayer'.1)]

theorem run_setBeams_ofFn {n : ℕ} (now : Nanoseconds) (peer : Fin n → Device ℝ) {layer : Fin n → UInt8}
    (hlayer : Function.Injective layer) (analog : Fin n → Beam ℝ) (s : BeamDesk ℝ) :
    ∃ array, (((List.ofFn peer).zip ((List.ofFn layer).zip (List.ofFn analog))).forM
        fun (peer, (layer, beam)) => setBeam peer.id layer beam now).run s =
          (.ok (), { s with array := array }) ∧
      (∀ j, array.beam (layer j) = .ok (analog j)) ∧
      ∀ other, (∀ j, layer j ≠ other) → array.beam other = s.array.beam other := by
  let items := (List.ofFn peer).zip ((List.ofFn layer).zip (List.ofFn analog))
  have hlayers : items.map (fun e => e.2.1) = List.ofFn layer := by
    calc items.map (fun e => e.2.1)
      _ = (items.map Prod.snd).map Prod.fst := by rw [List.map_map]; rfl
      _ = ((List.ofFn layer).zip (List.ofFn analog)).map Prod.fst := by
          rw [List.map_snd_zip (by simp)]
      _ = List.ofFn layer := List.map_fst_zip (by simp)
  obtain ⟨array, hrun, hset, hothers⟩ := run_setBeams now items s
  refine ⟨array, hrun, fun j => ?_, fun other hother => hothers other ?_⟩
  · have hitem : (peer j, layer j, analog j) ∈ items :=
      List.mem_of_getElem? (i := j.val) (by simp [items])
    exact hset (by rw [hlayers]; exact List.nodup_ofFn.mpr hlayer) _ hitem
  · rw [hlayers, List.mem_ofFn]
    exact fun ⟨j, hj⟩ => hother j hj

/-! ## Gains of streams -/

/-- The beam through which a peer receives on its side of a pair. -/
noncomputable def receivingBeam (peer : Device ℝ) (pair : Codebook.BeamPair) : Beam ℝ :=
  ⟨Codebook.weights peer.array.panel.size pair.rx, .codebook pair.rx pair.tx⟩

/-- The gains of one stream at a peer. -/
noncomputable def streamGain (now : Nanoseconds) (own : Endpoint ℝ) (peer : Device ℝ)
    (amplitude : ℝ) (rxBeam txBeam : Beam ℝ) : Action ℝ (BeamDesk ℝ) (List (Phasor ℝ)) := do
  let s ← Action.get
  let gains ← onEvaluator
    (Evaluator.complexSpectrum now s.engine.grid ⟨own, s.array⟩ peer txBeam rxBeam)
  return gains.map (·.scale amplitude)

theorem streamGains_eq (stage : AnalogStage ℝ) (pair : Codebook.BeamPair) (amplitude : ℝ) :
    streamGains now own stage peer pair amplitude = (do
      let weights ← (Codebook.beam peer.array.panel.size pair.rx : Except (Fault ℝ) _)
      stage.beams.mapM (streamGain now own peer amplitude
        ⟨weights, .codebook pair.rx pair.tx⟩)) := rfl

theorem advances_streamGain (hne : own.id ≠ peer.id) (amplitude : ℝ) (y x : Beam ℝ) :
    Action.Advances (Onward now own.id) (streamGain now own peer amplitude y x) := by
  refine Action.advances_get_bind fun s => ?_
  have hasked : Action.Advances (Onward now own.id) (onEvaluator
      (Evaluator.complexSpectrum now s.engine.grid ⟨own, s.array⟩ peer x y)) :=
    advances_onEvaluator (Evaluator.advances_complexSpectrum (a := ⟨own, s.array⟩) hne _ x y)
  exact Action.Advances.bind Onward.trans hasked (fun gains => Action.advances_pure .refl _) s

/-- The gains of a stream at a peer are the coefficients of a settled link, multiplied by the
amplitude. -/
structure Gained (now : Nanoseconds) (own : Endpoint ℝ) (peer : Device ℝ) (amplitude : ℝ)
    (y x : Beam ℝ) (s : BeamDesk ℝ) (l : Link ℝ) (coefficients gains : List (Phasor ℝ)) : Prop where
  gains : gains = coefficients.map (·.scale amplitude)
  settled : s.evaluator.Settled now own.id peer.id l
  coefficients : s.evaluator.freshGains now l ⟨own, s.array⟩ peer x y s.engine.grid = .ok coefficients

theorem Gained.onward {amplitude : ℝ} {y x : Beam ℝ} {l : Link ℝ} {coefficients gains : List (Phasor ℝ)}
    (h : Gained now own peer amplitude y x s l coefficients gains) (honward : Onward now own.id s s') :
    Gained now own peer amplitude y x s' l coefficients gains where
  gains := h.gains
  settled := honward.evaluator.settled peer.id l h.settled
  coefficients := by
    rw [honward.evaluator.freshGains, honward.array, honward.grid]
    exact h.coefficients

theorem streamGain_ok (hne : own.id ≠ peer.id) (htrusted : s.evaluator.Trusted own.id) {amplitude : ℝ}
    {y x : Beam ℝ} {gains : List (Phasor ℝ)}
    (h : (streamGain now own peer amplitude y x).run s = (.ok gains, s')) :
    ∃ l coefficients, Gained now own peer amplitude y x s' l coefficients gains := by
  rw [streamGain, Action.run_bind_ok] at h
  obtain ⟨_, _, hget, h⟩ := h
  cases hget
  rw [Action.run_bind_ok] at h
  obtain ⟨coefficients, t, hasked, h⟩ := h
  obtain ⟨hgains, rfl⟩ := Prod.mk.inj h
  obtain ⟨hanswer, rfl⟩ := Prod.mk.inj hasked
  obtain ⟨l, hsettled, hfresh⟩ := htrusted.complexSpectrum (a := ⟨own, s.array⟩) hne
    (Prod.ext hanswer rfl)
  exact ⟨l, coefficients, (Except.ok.inj hgains).symm, hsettled, hfresh⟩

theorem advances_streamGains (hne : own.id ≠ peer.id) (stage : AnalogStage ℝ)
    (pair : Codebook.BeamPair) (amplitude : ℝ) :
    Action.Advances (Onward now own.id) (streamGains now own stage peer pair amplitude) := by
  rw [streamGains_eq]
  refine Action.Advances.bind Onward.trans (Action.advances_ofExcept .refl _) fun weights => ?_
  exact Action.advances_mapM .refl Onward.trans fun x _ => advances_streamGain hne amplitude _ x

theorem streamGains_ok (hne : own.id ≠ peer.id) (htrusted : s.evaluator.Trusted own.id)
    {stage : AnalogStage ℝ} {pair : Codebook.BeamPair} {amplitude : ℝ}
    {gains : List (List (Phasor ℝ))}
    (h : (streamGains now own stage peer pair amplitude).run s = (.ok gains, s')) :
    List.Forall₂ (fun x g => ∃ l coefficients,
      Gained now own peer amplitude (receivingBeam peer pair) x s' l coefficients g)
      stage.beams gains := by
  rw [streamGains_eq] at h
  obtain ⟨weights, hweights, h⟩ := Action.run_lift_bind_ok.mp h
  have hbeam : (⟨weights, .codebook pair.rx pair.tx⟩ : Beam ℝ) = receivingBeam peer pair := by
    rw [receivingBeam, Codebook.beam_ok hweights]
  rw [hbeam] at h
  obtain ⟨-, hsteps⟩ := Action.run_mapM_ok .refl Onward.trans
    (fun x _ => advances_streamGain hne amplitude _ x) h
  refine hsteps.imp fun x g hstep => ?_
  obtain ⟨u, v, hrun, hbefore, hafter⟩ := hstep
  obtain ⟨l, coefficients, hgained⟩ :=
    streamGain_ok hne (hbefore.evaluator.trusted htrusted) hrun
  exact ⟨l, coefficients, hgained.onward hafter⟩

/-! ## Channels of subbands -/

variable {n : ℕ}

/-- The channel between the streams of a bundle and its peers in a subband. -/
noncomputable def streamChannel (amplitude : Fin n → ℝ) (coefficients : Fin n → Fin n → List (Phasor ℝ))
    (band : ℕ) : ComplexMatrix n n :=
  .of fun i j => amplitude i * coord (coefficients i j) band

/-- What a peer receives in a subband of an output layer, before the amplitude of its link: the sum of
the coefficients of all streams, each multiplied by the weight that the combiner has for its layer. -/
noncomputable def delivered (layer : Fin n → UInt8) (coefficients : Fin n → Fin n → List (Phasor ℝ))
    (block : List (List (Phasor ℝ))) (band : ℕ) (k i : Fin n) : ℂ :=
  ∑ j, Evaluator.weightIn block (layer k).toNat (layer j).toNat * coord (coefficients i j) band

/-- The matrix that is solved for a subband is the channel between streams and peers. -/
theorem toMatrix_bands {gains : List (List (List (Phasor ℝ)))} {amplitude : Fin n → ℝ}
    {coefficients : Fin n → Fin n → List (Phasor ℝ)}
    (hgains : ∀ i, ∃ row, gains[i.val]? = some row ∧ ∀ j : Fin n,
      row[j.val]? = some ((coefficients i j).map (·.scale (amplitude i)))) (band : ℕ) :
    toMatrix n n (gains.map fun row => row.map (bandOf band)) =
      streamChannel amplitude coefficients band := by
  ext i j
  obtain ⟨row, hrow, hentries⟩ := hgains i
  rw [toMatrix_apply, List.getElem?_map, hrow, Option.map_some, Option.getD_some, coord,
    List.getElem?_map, hentries j, Option.map_some, Option.getD_some, bandOf, ← coord,
    coord_map (g := fun z => amplitude i * z) (fun z => Phasor.toComplex_scale z _) (mul_zero _)]
  rfl

/-- What a bundle leaves behind: its beams on its layers, a combiner, and links that are settled. -/
structure SetUp (now : Nanoseconds) (loss : FreeSpace ℝ) (own : Endpoint ℝ) (peer : Fin n → Device ℝ)
    (layer : Fin n → UInt8) (s s' : BeamDesk ℝ) (amplitude : Fin n → ℝ)
    (analog receiving : Fin n → Beam ℝ) (link : Fin n → Link ℝ)
    (coefficients : Fin n → Fin n → List (Phasor ℝ)) (combiner : Combiner ℝ) : Prop where
  /-- The beams and amplitudes are those of the analog stage. -/
  stage : ∃ (pair : Fin n → Codebook.BeamPair) (equivalents : List (Matrix ℝ)) (t : BeamDesk ℝ),
    (analogStage now loss own (List.ofFn peer)).run s =
      (.ok ⟨List.ofFn pair, equivalents, List.ofFn analog, List.ofFn amplitude⟩, t) ∧
    receiving = fun i => receivingBeam (peer i) (pair i)
  /-- The amplitudes are those of the links. -/
  amplitude_eq : amplitude = fun i => loss.amplitude s.engine.referencePower own (peer i).endpoint
  /-- Each layer has the beam of its stream. -/
  written : ∀ j, s'.array.beam (layer j) = .ok (analog j)
  /-- The combiner is set. -/
  combiner_eq : 0 < n → s'.array.combiner = some combiner
  /-- It has a block for each subband. -/
  subbands : combiner.length = s.engine.grid.size
  /-- The links are settled. -/
  settled : ∀ i, s'.evaluator.Settled now own.id (peer i).id (link i)
  /-- The cache of projections can be trusted. -/
  trusted : s'.evaluator.Trusted own.id
  /-- The coefficients are those of projections made anew. -/
  coefficients_eq : ∀ i j, s'.evaluator.freshGains now (link i) ⟨own, s'.array⟩ (peer i) (analog j)
    (receiving i) s.engine.grid = .ok (coefficients i j)

/-- A precoder for a channel is written into a block, each column in the row of its layer. -/
def Precoded (layer : Fin n → UInt8) (noisePower : ℝ) (channel : ComplexMatrix n n)
    (block : List (List (Phasor ℝ))) : Prop :=
  ∃ x : Matrix ℝ, x.length = n ∧
    (channel.conjTranspose * channel + (noisePower : ℂ) • (1 : ComplexMatrix n n)) *
      toMatrix n n x = channel.conjTranspose ∧
    block = combinerBlock (combinerSize (List.ofFn layer)) (List.ofFn layer) x

variable {loss : FreeSpace ℝ}

theorem setUp_of_empty {peer : Fin 0 → Device ℝ} {layer : Fin 0 → UInt8}
    (htrusted : s.evaluator.Trusted own.id)
    (hrun : (combineSpectral now loss own (List.ofFn peer) (List.ofFn layer)).run s = (.ok (), s')) :
    ∃ amplitude analog receiving link coefficients combiner,
      SetUp now loss own peer layer s s' amplitude analog receiving link coefficients combiner ∧
      ∀ (band : ℕ) block, combiner[band]? = some block →
        Precoded layer s.engine.noisePower (streamChannel amplitude coefficients band) block := by
  rw [List.ofFn_zero] at hrun
  have hsame : (Except.ok (), s) = (Except.ok (), s') := hrun
  obtain ⟨-, rfl⟩ := Prod.mk.inj hsame
  refine ⟨Fin.elim0, Fin.elim0, Fin.elim0, Fin.elim0, Fin.elim0,
    List.replicate s.engine.grid.size [], ?_, fun band block hblock => ?_⟩
  · exact {
      stage := ⟨Fin.elim0, [], s, by simp only [List.ofFn_zero]; rfl, funext fun i => i.elim0⟩
      amplitude_eq := funext fun i => i.elim0
      written := fun j => j.elim0
      combiner_eq := fun h => absurd h (Nat.lt_irrefl 0)
      subbands := List.length_replicate
      settled := fun i => i.elim0
      trusted := htrusted
      coefficients_eq := fun i => i.elim0 }
  · have hnone : block = [] := List.eq_of_mem_replicate (List.mem_of_getElem? hblock)
    refine ⟨[], rfl, Subsingleton.elim _ _, ?_⟩
    rw [hnone, List.ofFn_zero]
    rfl

/-- The gains of all streams at all peers, each peer's over one link. -/
theorem peerGains_ok {peer : Fin n → Device ℝ} {stage : AnalogStage ℝ}
    {pair : Fin n → Codebook.BeamPair} {amplitude : Fin n → ℝ} {analog : Fin n → Beam ℝ}
    {gains : List (List (List (Phasor ℝ)))} (hpeer : ∀ i, (peer i).id ≠ own.id)
    (htrusted : s.evaluator.Trusted own.id) (hpairs : stage.pairs = List.ofFn pair)
    (hbeams : stage.beams = List.ofFn analog) (hamplitudes : stage.amplitudes = List.ofFn amplitude)
    (h : (((List.ofFn peer).zip (stage.pairs.zip stage.amplitudes)).mapM
      fun (peer, (pair, amplitude)) => streamGains now own stage peer pair amplitude).run s =
        (.ok gains, s')) :
    Onward now own.id s s' ∧ gains.length = n ∧ ∃ (link : Fin n → Link ℝ)
      (coefficients : Fin n → Fin n → List (Phasor ℝ)), ∀ i, ∃ row, gains[i.val]? = some row ∧
        row.length = n ∧ ∀ j, ∃ g, row[j.val]? = some g ∧
          Gained now own (peer i) (amplitude i) (receivingBeam (peer i) (pair i)) (analog j) s'
            (link i) (coefficients i j) g := by
  rw [hpairs, hamplitudes] at h
  obtain ⟨honward, hsteps⟩ := Action.run_mapM_ok .refl Onward.trans (fun item hitem => by
    obtain ⟨i, hi⟩ := List.mem_ofFn.mp (List.of_mem_zip hitem).1
    exact advances_streamGains (by rw [← hi]; exact (hpeer i).symm) stage _ _) h
  have hrows : ∀ i, ∃ row, gains[i.val]? = some row ∧ row.length = n ∧
      ∀ j : Fin n, ∃ g l coefficients, row[j.val]? = some g ∧
        Gained now own (peer i) (amplitude i) (receivingBeam (peer i) (pair i)) (analog j) s' l
          coefficients g := by
    intro i
    have hitem : ((List.ofFn peer).zip ((List.ofFn pair).zip (List.ofFn amplitude)))[i.val]? =
        some (peer i, (pair i, amplitude i)) := by
      simp
    obtain ⟨row, hrow, u, v, hrun, hbefore, hafter⟩ := exists_of_forall₂ hsteps hitem
    have hgained := streamGains_ok (hpeer i).symm (hbefore.evaluator.trusted htrusted) hrun
    refine ⟨row, hrow, by rw [← hgained.length_eq, hbeams, List.length_ofFn], fun j => ?_⟩
    have hbeam : stage.beams[j.val]? = some (analog j) := by rw [hbeams, getElem?_ofFn_val]
    obtain ⟨g, hg, l, coefficients, hstream⟩ := exists_of_forall₂ hgained hbeam
    exact ⟨g, l, coefficients, hg, hstream.onward hafter⟩
  choose row hrow hlength g l coefficients hg hgained using hrows
  have hcount : gains.length = n := by rw [← hsteps.length_eq]; simp
  refine ⟨honward, hcount, fun i => l i i, coefficients, fun i => ⟨row i, hrow i, hlength i, fun j => ?_⟩⟩
  -- the evaluator holds one link to a peer
  have hlink : l i j = l i i :=
    Option.some.inj ((hgained i j).settled.held.symm.trans (hgained i i).settled.held)
  have hstream := hgained i j
  rw [hlink] at hstream
  exact ⟨g i j, hg i j, hstream⟩

/-- Blocks are written from precoders for the channels of their subbands. -/
theorem blocks_ok (hn : 0 < n) {gains : List (List (List (Phasor ℝ)))} {amplitude : Fin n → ℝ}
    {coefficients : Fin n → Fin n → List (Phasor ℝ)} {layer : Fin n → UInt8} {noisePower : ℝ}
    {bands : ℕ} {blocks : Combiner ℝ}
    (hcount : gains.length = n) (hgains : ∀ i, ∃ row, gains[i.val]? = some row ∧ row.length = n ∧
      ∀ j : Fin n, row[j.val]? = some ((coefficients i j).map (·.scale (amplitude i))))
    (h : ((List.range bands).mapM fun band => do
      let precoder ← LeastSquares.solveMatrix (gains.map fun row => row.map (bandOf band)) noisePower
      return combinerBlock (combinerSize (List.ofFn layer)) (List.ofFn layer) precoder :
        Except (Fault ℝ) (Combiner ℝ)) = .ok blocks) :
    blocks.length = bands ∧ ∀ (band : ℕ) block, blocks[band]? = some block →
      Precoded layer noisePower (streamChannel amplitude coefficients band) block := by
  have hsteps := except_mapM_ok.mp h
  refine ⟨by rw [← hsteps.length_eq, List.length_range], fun band block hblock => ?_⟩
  obtain ⟨band', hband', hstep⟩ := exists_of_forall₂ hsteps.flip hblock
  obtain rfl : band = band' := by
    rw [List.getElem?_range (by
      have hlt := (List.getElem?_eq_some_iff.mp hblock).1
      rwa [← hsteps.length_eq, List.length_range] at hlt)] at hband'
    exact Option.some.inj hband'
  rw [except_bind_ok] at hstep
  obtain ⟨x, hx, hstep⟩ := hstep
  have hcolumns : Matrix.columns (gains.map fun row => row.map (bandOf band)) = n := by
    obtain ⟨row, hrow, hlength, -⟩ := hgains ⟨0, hn⟩
    rw [Matrix.columns, List.head?_eq_getElem?, List.getElem?_map, hrow]
    simp [hlength]
  obtain ⟨hlength, hsolved⟩ :=
    LeastSquares.solveMatrix_ok (by rw [List.length_map, hcount]) hcolumns hx
  rw [toMatrix_bands (fun i => by
    obtain ⟨row, hrow, -, hentries⟩ := hgains i
    exact ⟨row, hrow, hentries⟩)] at hsolved
  exact ⟨x, hlength, hsolved, (Except.ok.inj hstep).symm⟩

/-- A bundle that is set up was set up beam by beam, and its combiner precoder by precoder. -/
theorem setUp_of_run {peer : Fin n → Device ℝ} {layer : Fin n → UInt8} (hn : 0 < n)
    (hlayer : Function.Injective layer) (hpeer : ∀ i, (peer i).id ≠ own.id)
    (htrusted : s.evaluator.Trusted own.id)
    (hrun : (combineSpectral now loss own (List.ofFn peer) (List.ofFn layer)).run s = (.ok (), s')) :
    ∃ amplitude analog receiving link coefficients combiner,
      SetUp now loss own peer layer s s' amplitude analog receiving link coefficients combiner ∧
      ∀ (band : ℕ) block, combiner[band]? = some block →
        Precoded layer s.engine.noisePower (streamChannel amplitude coefficients band) block := by
  have hempty : (List.ofFn peer).isEmpty = false := by
    rw [List.isEmpty_eq_false_iff, ne_eq, List.ofFn_eq_nil_iff]
    omega
  -- the analog stage
  rw [combineSpectral, hempty, if_neg Bool.false_ne_true, Action.run_bind_ok] at hrun
  obtain ⟨stage, s₁, hstage, hrun⟩ := hrun
  obtain ⟨honward, hpairs, hbeams, hamplitudes⟩ := analogStage_ok (fun p hp => by
    obtain ⟨i, rfl⟩ := List.mem_ofFn.mp hp
    exact (hpeer i).symm) hstage
  obtain ⟨pair, hpair⟩ := exists_ofFn (hpairs.trans List.length_ofFn)
  obtain ⟨analog, hanalog⟩ := exists_ofFn (hbeams.trans List.length_ofFn)
  rw [List.map_ofFn] at hamplitudes
  change stage.amplitudes = List.ofFn fun i =>
    loss.amplitude s.engine.referencePower own (peer i).endpoint at hamplitudes
  -- its beams, set on the layers
  rw [Action.run_bind_ok] at hrun
  obtain ⟨_, s₂, hset, hrun⟩ := hrun
  rw [hanalog] at hset
  obtain ⟨array, hset', hwritten, -⟩ := run_setBeams_ofFn now peer hlayer analog s₁
  obtain ⟨-, rfl⟩ := Prod.mk.inj (hset.symm.trans hset')
  -- the gains of all streams at all peers
  rw [Action.run_bind_ok] at hrun
  obtain ⟨gains, s₃, hgains, hrun⟩ := hrun
  have htrusted₁ : ({ s₁ with array := array } : BeamDesk ℝ).evaluator.Trusted own.id :=
    honward.evaluator.trusted htrusted
  obtain ⟨honward', hlength, link, coefficients, hrows⟩ :=
    peerGains_ok hpeer htrusted₁ hpair hanalog hamplitudes hgains
  -- the precoders, solved from the gains alone
  rw [Action.run_bind_ok] at hrun
  obtain ⟨_, _, hget, hrun⟩ := hrun
  cases hget
  obtain ⟨blocks, hblocks, hrun⟩ := Action.run_lift_bind_ok.mp hrun
  obtain ⟨-, rfl⟩ := Prod.mk.inj hrun
  have hgrid : s₃.engine.grid = s.engine.grid := honward'.grid.trans honward.grid
  have hnoise : s₃.engine.noisePower = s.engine.noisePower :=
    honward'.noisePower.trans honward.noisePower
  obtain ⟨hcount, hprecoded⟩ := blocks_ok hn hlength (fun i => by
    obtain ⟨row, hrow, hwidth, hstreams⟩ := hrows i
    refine ⟨row, hrow, hwidth, fun j => ?_⟩
    obtain ⟨g, hg, hgained⟩ := hstreams j
    rw [hg, hgained.gains]) hblocks
  rw [hnoise] at hprecoded
  refine ⟨fun i => loss.amplitude s.engine.referencePower own (peer i).endpoint, analog,
    fun i => receivingBeam (peer i) (pair i), link, coefficients, blocks, ?_, hprecoded⟩
  exact {
    stage := ⟨pair, stage.equivalents, s₁, by
      rw [hstage, ← hpair, ← hanalog, ← hamplitudes], rfl⟩
    amplitude_eq := rfl
    written := fun j => by
      refine (congrArg (AntennaArray.beam · (layer j)) honward'.array).trans ?_
      exact hwritten j
    combiner_eq := fun _ => rfl
    subbands := by rw [hcount, hgrid]
    settled := fun i => by
      obtain ⟨_, -, -, hstreams⟩ := hrows i
      obtain ⟨_, -, hgained⟩ := hstreams i
      exact hgained.settled
    trusted := honward'.evaluator.trusted htrusted₁
    coefficients_eq := fun i j => by
      obtain ⟨_, -, -, hstreams⟩ := hrows i
      obtain ⟨_, -, hgained⟩ := hstreams j
      rw [← hgrid]
      exact hgained.coefficients }

/-! ## What output layers deliver -/

variable {peer : Fin n → Device ℝ} {layer : Fin n → UInt8} {amplitude : Fin n → ℝ}
variable {analog receiving : Fin n → Beam ℝ} {link : Fin n → Link ℝ}
variable {coefficients : Fin n → Fin n → List (Phasor ℝ)} {combiner : Combiner ℝ}

/-- The row of an output layer in a precoded block has a weight for each layer up to the last one, and
only those of the bundle's layers differ from zero. -/
theorem Precoded.row {noisePower : ℝ} {channel : ComplexMatrix n n}
    {block : List (List (Phasor ℝ))} (h : Precoded layer noisePower channel block)
    (hlayer : Function.Injective layer) (k : Fin n) :
    block.length = combinerSize (List.ofFn layer) ∧ ∃ row, block[(layer k).toNat]? = some row ∧
      row.length = combinerSize (List.ofFn layer) ∧
      ∀ input, (∀ j, (layer j).toNat ≠ input) →
        Evaluator.weightIn block (layer k).toNat input = 0 := by
  obtain ⟨x, hx, -, rfl⟩ := h
  obtain ⟨hlength, hrows⟩ := combinerBlock_ok (List.nodup_ofFn.mpr hlayer) (x := x)
    (by rw [hx, List.length_ofFn])
  obtain ⟨row, hrow, hwidth, r, -, -, hothers⟩ :=
    hrows k.val (layer k) (getElem?_ofFn_val layer k)
  refine ⟨hlength, row, hrow, hwidth, fun input hinput => ?_⟩
  rw [Evaluator.weightIn, hrow, Option.getD_some]
  refine hothers input fun hmem => ?_
  obtain ⟨_, hlayers, rfl⟩ := List.mem_map.mp hmem
  obtain ⟨j, rfl⟩ := List.mem_ofFn.mp hlayers
  exact hinput j rfl

/-- A sum over input layers comes to one over the layers of the bundle. -/
theorem sum_layers {noisePower : ℝ} {channel : ComplexMatrix n n} {block : List (List (Phasor ℝ))}
    (h : Precoded layer noisePower channel block) (hlayer : Function.Injective layer)
    {gain : ℕ → List (Phasor ℝ)} {i : Fin n}
    (hgain : ∀ j, gain (layer j).toNat = coefficients i j) (band : ℕ) (k : Fin n) :
    ∑ input ∈ Finset.range (combinerSize (List.ofFn layer)),
      Evaluator.weightIn block (layer k).toNat input * coord (gain input) band =
        delivered layer coefficients block band k i := by
  obtain ⟨-, row, hrow, -, hothers⟩ := h.row hlayer k
  symm
  refine Finset.sum_of_injOn (fun j => (layer j).toNat)
    (fun j _ j' _ heq => hlayer (UInt8.toNat_inj.mp heq)) (fun j _ => ?_) (fun input _ hinput => ?_)
    fun j _ => by rw [hgain j]
  · exact Finset.mem_coe.mpr (Finset.mem_range.mpr (lt_combinerSize (List.mem_ofFn.mpr ⟨j, rfl⟩)))
  · rw [hothers input fun j hj => hinput ⟨j, Finset.mem_coe.mpr (Finset.mem_univ j), hj⟩, zero_mul]

/-- The power that a peer receives of an output layer through its own beam is that of what the layer
delivers. -/
theorem SetUp.powerGain (h : SetUp now loss own peer layer s s' amplitude analog receiving link
      coefficients combiner) (hlayer : Function.Injective layer)
    {channel : ℕ → ComplexMatrix n n} {noisePower : ℝ}
    (hprecoded : ∀ (band : ℕ) block, combiner[band]? = some block →
      Precoded layer noisePower (channel band) block)
    (i k : Fin n) {listener : Device ℝ} {y : UInt8} (hlistener : listener.endpoint = (peer i).endpoint)
    (hplain : listener.array.combiner = none) (hbeam : listener.array.beam y = .ok (receiving i)) :
    ∃ powers t, (Evaluator.powerGain now (link i) ⟨own, s'.array⟩ listener (layer k) y
        s.engine.grid).run s'.evaluator = (.ok powers, t) ∧
      ∀ (band : ℕ) block, combiner[band]? = some block → powers[band]? =
        some (Complex.normSq (delivered layer coefficients block band k i)) := by
  have hn : 0 < n := k.pos
  have hinjective : Function.Injective fun j => (layer j).toNat :=
    fun j j' heq => hlayer (UInt8.toNat_inj.mp heq)
  -- the combiner is read by layer numbers, the coefficients by streams
  let gain : ℕ → List (Phasor ℝ) :=
    Function.extend (fun j => (layer j).toNat) (coefficients i) fun _ => []
  have hgain : ∀ j, gain (layer j).toNat = coefficients i j :=
    fun j => hinjective.extend_apply (coefficients i) _ j
  have hprecoded' : ∀ block ∈ combiner, ∃ band, Precoded layer noisePower (channel band) block := by
    intro block hblock
    obtain ⟨band, hband⟩ := List.mem_iff_getElem?.mp hblock
    exact ⟨band, hprecoded band block hband⟩
  have houtputs : Evaluator.Outputs combiner (layer k).toNat (combinerSize (List.ofFn layer)) := by
    intro block hblock
    obtain ⟨band, hblock⟩ := hprecoded' block hblock
    obtain ⟨-, row, hrow, hwidth, -⟩ := hblock.row hlayer k
    exact ⟨row, hrow, hwidth⟩
  have hsize : (combiner.head?.map List.length).getD 0 = combinerSize (List.ofFn layer) := by
    have hpos : 0 < combiner.length := h.subbands ▸ s.engine.grid.size_pos
    have hfirst : combiner[0]? = some combiner[0] := List.getElem?_eq_getElem hpos
    rw [List.head?_eq_getElem?, hfirst]
    exact ((hprecoded 0 _ hfirst).row hlayer k).1
  have hheld : s'.evaluator.generator.peek own.id listener.id = some (link i) := by
    rw [Device.id, hlistener]
    exact (h.settled i).held
  have hfresh : ∀ t : Evaluator ℝ, t.generator = s'.evaluator.generator → ∀ j,
      t.freshGains now (link i) ⟨own, s'.array⟩ listener (analog j) (receiving i) s.engine.grid =
        .ok (coefficients i j) := by
    intro t ht j
    rw [← h.coefficients_eq i j, Evaluator.freshGains, Evaluator.freshGains, Evaluator.doppler,
      Evaluator.doppler, ht, hlistener]
  obtain ⟨powers, t, hrun, -, hpowers⟩ := houtputs.combinedGain now (link i)
    ⟨own, s'.array⟩ listener (fun input => (s'.array.beam input).map fun x => (x, receiving i)) gain
    (fun t => (t.generator = s'.evaluator.generator ∧ t.model = s'.evaluator.model) ∧
      t.Trusted own.id) ⟨⟨rfl, rfl⟩, h.trusted⟩ h.subbands hsize
    (lt_combinerSize (List.mem_ofFn.mpr ⟨k, rfl⟩)) (fun input _ hweight => by
      -- a layer with weights is one of the bundle's
      obtain ⟨j, rfl⟩ : ∃ j, (layer j).toNat = input := by
        by_contra hnone
        push Not at hnone
        obtain ⟨block, hblock, hne⟩ := hweight
        obtain ⟨band, hblock⟩ := hprecoded' block hblock
        obtain ⟨-, -, -, -, hothers⟩ := hblock.row hlayer k
        exact hne (hothers input hnone)
      rw [hgain j]
      refine ⟨Evaluator.length_of_freshGains (h.coefficients_eq i j), analog j, receiving i, ?_,
        fun t ht => ?_⟩
      · rw [Nat.toUInt8, UInt8.ofNat_toNat, h.written j]
        rfl
      · obtain ⟨hframe, htrusted⟩ := ht
        obtain ⟨hanswer, hkept⟩ := htrusted.gains (a := ⟨own, s'.array⟩)
          (by rw [hframe.1]; exact hheld) now (analog j) (receiving i) s.engine.grid
        exact ⟨hanswer.trans (hfresh t hframe.1 j),
          Evaluator.keeps_gains now (analog j) (receiving i) s.engine.grid t hframe, hkept⟩)
  refine ⟨powers, t, ?_, fun band block hblock => ?_⟩
  · unfold Evaluator.powerGain
    dsimp only
    rw [h.combiner_eq hn, hplain]
    dsimp only
    have hlook : (liftM (listener.array.beam y) : Action ℝ (Evaluator ℝ) (Beam ℝ)).run s'.evaluator =
        (.ok (receiving i), s'.evaluator) := by rw [Action.run_liftExcept, hbeam]
    rw [Action.run_bind_of_ok hlook]
    exact hrun
  · rw [hpowers band block hblock, sum_layers (hprecoded band block hblock) hlayer hgain]

/-- In a precoded block an output layer delivers to the peers, up to one positive factor, a column of
the channel times the precoder. -/
theorem Precoded.delivered_eq {noisePower : ℝ} {band : ℕ} {block : List (List (Phasor ℝ))}
    (h : Precoded layer noisePower (streamChannel amplitude coefficients band) block)
    (hlayer : Function.Injective layer) :
    ∃ X : ComplexMatrix n n,
      ((streamChannel amplitude coefficients band).conjTranspose *
          streamChannel amplitude coefficients band +
        (noisePower : ℂ) • (1 : ComplexMatrix n n)) * X =
          (streamChannel amplitude coefficients band).conjTranspose ∧
      ∀ k, ∃ r : ℝ, 0 < r ∧ ∀ i, amplitude i * delivered layer coefficients block band k i =
        r * (streamChannel amplitude coefficients band * X) i k := by
  obtain ⟨x, hx, hsolved, rfl⟩ := h
  obtain ⟨-, hrows⟩ := combinerBlock_ok (List.nodup_ofFn.mpr hlayer) (x := x)
    (by rw [hx, List.length_ofFn])
  refine ⟨toMatrix n n x, hsolved, fun k => ?_⟩
  obtain ⟨row, hrow, -, r, hr, hweights, -⟩ := hrows k.val (layer k) (getElem?_ofFn_val layer k)
  refine ⟨r, hr, fun i => ?_⟩
  have hweight : ∀ j, Evaluator.weightIn (combinerBlock (combinerSize (List.ofFn layer))
      (List.ofFn layer) x) (layer k).toNat (layer j).toNat = r * toMatrix n n x j k := by
    intro j
    rw [Evaluator.weightIn, hrow, Option.getD_some,
      hweights j.val (layer j) (getElem?_ofFn_val layer j), toMatrix_apply]
  rw [delivered, Matrix.mul_apply, Finset.mul_sum, Finset.mul_sum]
  refine Finset.sum_congr rfl fun j _ => ?_
  rw [hweight, streamChannel, Matrix.of_apply]
  ring

/-- Without regularization nothing of a stream is left at other peers, if the channel is invertible. -/
theorem Precoded.delivered_eq_zero {band : ℕ} {block : List (List (Phasor ℝ))}
    (h : Precoded layer 0 (streamChannel amplitude coefficients band) block)
    (hlayer : Function.Injective layer) (hunit : IsUnit (streamChannel amplitude coefficients band))
    {i k : Fin n} (hne : i ≠ k) : delivered layer coefficients block band k i = 0 := by
  obtain ⟨X, hX, hdelivered⟩ := h.delivered_eq hlayer
  obtain ⟨r, -, hr⟩ := hdelivered k
  rw [Complex.ofReal_zero] at hX
  have hproduct := hr i
  rw [LeastSquares.mul_eq_one_of_normal hunit hX, Matrix.one_apply_ne hne, mul_zero] at hproduct
  refine (mul_eq_zero.mp hproduct).resolve_left fun hamplitude => ?_
  -- the row of a peer without amplitude would vanish
  obtain ⟨inverse, hinverse⟩ := hunit.exists_right_inv
  have hone : (streamChannel amplitude coefficients band * inverse) i i = 1 := by
    rw [hinverse, Matrix.one_apply_eq]
  rw [Matrix.mul_apply] at hone
  simp only [streamChannel, Matrix.of_apply, hamplitude, zero_mul, Finset.sum_const_zero] at hone
  exact zero_ne_one hone

end Bundle

end RadioChannel
