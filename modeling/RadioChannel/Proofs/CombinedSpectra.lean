import RadioChannel.Proofs.InstalledCombiners
import RadioChannel.Proofs.RuralBundles

/-!
# Spectra through a combiner

A device sends through its combiner on any layer, and never misses a beam of its own for that. What it
sends on a layer outside the bundle that the combiner comes from is lost, unless either antenna radiates
without a beam and the spectrum passes unchanged.
-/

namespace RadioChannel

open Scalar

variable {R : Type} [Scalar R]

/-! ## Channels -/

/-- No channel is refused for a beam. -/
theorem Generator.channel_ne_missingBeam (g : Generator R) (now : Nanoseconds) (a b : Terminal R)
    (condition : Condition) (layer : UInt8) :
    ((channel now a b condition).run g).1 ≠ .error (.missingBeam layer) := by
  by_cases hpos : (a.endpoint.position == b.endpoint.position) = true
  · rw [channel_coincident g now a b condition hpos]
    intro h
    cases h
  rcases channel_cases g now a b condition (by simpa using hpos) with
    ⟨l, -, -, hrun⟩ | ⟨-, previous, hrun⟩ <;> rw [hrun]
  · dsimp only
    unfold checked
    split
    · intro h
      cases h
    · intro h
      split at h <;> cases h
  rw [run_regenerate]
  have hcontext := fitting_context g now a b condition previous
  cases hc : g.context now a b condition previous with
  | error e =>
    rw [context_eq] at hc
    split at hc
    · cases hc
      intro h
      cases h
    rcases ParameterTable.lookup_cases g.scenario (g.linkState a b condition) with
      ⟨-, hlookup⟩ | ⟨-, table, hlookup, -⟩ <;> rw [hlookup] at hc <;> cases hc
    intro h
    cases h
  | ok c =>
    rw [hc] at hcontext
    obtain ⟨-, -, hclusters⟩ := hcontext
    dsimp only
    rcases hd : c.draw.run g.source with ⟨e | m, source⟩
    · have hbreach := RealizationContext.neverRefuses_draw hclusters _ _ _ hd
      intro h
      cases h
      cases hbreach
    · intro h
      cases h

theorem Evaluator.channel_ne_missingBeam (v : Evaluator R) (now : Nanoseconds) (a b : Device R)
    (layer : UInt8) : ((channel now a b).run v).1 ≠ .error (.missingBeam layer) := by
  rw [run_channel]
  exact Generator.channel_ne_missingBeam _ _ _ _ _ _

/-! ## Combiners that can be used -/

/-- A combiner that an array can send through: a square block for each subband, with zero rows at layers
outside the bundle, and a beam for every layer that has a weight. -/
structure Combiner.Usable (m : Combiner R) (layers : List UInt8) (bands : Nat)
    (x : AntennaArray R) : Prop where
  bands : m.length = bands
  size : Bundle.combinerSize layers ≤ 256
  square : ∀ block ∈ m, block.length = Bundle.combinerSize layers ∧
    ∀ row ∈ block, row.length = Bundle.combinerSize layers
  zero : ∀ block ∈ m, ∀ (i : Nat) row, block[i]? = some row → i ∉ layers.map UInt8.toNat →
    ∀ w ∈ row, w = .zero
  beam : ∀ block ∈ m, ∀ row ∈ block, ∀ (i : Nat) w, row[i]? = some w → ¬w.Null →
    ∃ (layer : UInt8) (b : Beam R), layer.toNat = i ∧ x.current[layer]? = some b ∧
      b.size = x.elementCount

theorem Combiner.Of.usable {layers : List UInt8} {m : Combiner R} (h : Combiner.Of layers m)
    {bands : Nat} (hbands : m.length = bands) {x : AntennaArray R} (hx : x.Fit)
    (hbeams : ∀ layer ∈ layers, ∃ b, x.current[layer]? = some b) :
    Combiner.Usable m layers bands x where
  bands := hbands
  size := Bundle.combinerSize_le layers
  square block hblock := by
    refine ⟨(h block hblock).length, fun row hrow => ?_⟩
    obtain ⟨i, hi⟩ := List.getElem?_of_mem hrow
    exact ((h block hblock).row i row hi).length
  zero block hblock i row hrow hi w hw := by
    rw [(h block hblock).zero i row hrow hi] at hw
    exact List.eq_of_mem_replicate hw
  beam block hblock row hrow i w hw hnull := by
    obtain ⟨j, hj⟩ := List.getElem?_of_mem hrow
    have hmem : i ∈ layers.map UInt8.toNat := by
      by_contra hout
      exact hnull (((h block hblock).row j row hj).null i w hw hout)
    obtain ⟨layer, hlayer, rfl⟩ := List.mem_map.mp hmem
    obtain ⟨b, hb⟩ := hbeams layer hlayer
    exact ⟨layer, b, rfl, hb, hx layer b hb⟩

namespace Evaluator

variable [Scalar.ZeroLaws R] {layers : List UInt8} {m : Combiner R} {a b : Device R} {l : Link R}

/-- A combining device has gains on any layer, unless the other one combines too or has no beam. -/
theorem powerGain_cases (hm : a.array.combiner = some m) (hof : Combiner.Of layers m) (hne : m ≠ [])
    (hbeams : ∀ layer ∈ layers, ∃ x, a.array.current[layer]? = some x)
    (hl : l.Between b.array.elementCount a.array.elementCount) (ha : a.array.Fit) (hb : b.array.Fit)
    (now : Nanoseconds) (aLayer bLayer : UInt8) (grid : SpectrumGrid R) (v : Evaluator R) :
    (b.array.isCombining = true ∧ (powerGain now l a b aLayer bLayer grid).run v =
      (.error .combiningAtBothEnds, v)) ∨
    (b.array.current[bLayer]? = none ∧ (powerGain now l a b aLayer bLayer grid).run v =
      (.error (.missingBeam bLayer), v)) ∨
    ∃ powers v', (powerGain now l a b aLayer bLayer grid).run v = (.ok powers, v') ∧
      (aLayer ∉ layers → powers = List.replicate grid.size 0) := by
  unfold powerGain
  rw [hm]
  cases hcombiner : b.array.combiner with
  | some m' =>
    left
    exact ⟨by rw [AntennaArray.isCombining, hcombiner]; rfl, rfl⟩
  | none =>
    right
    dsimp only
    rw [Action.run_bind, Action.run_liftExcept, AntennaArray.beam]
    cases hbeam : b.array.current[bLayer]? with
    | none => exact Or.inl ⟨rfl, rfl⟩
    | some y =>
      right
      dsimp only
      obtain ⟨beams, hchosen⟩ : ∃ beams : UInt8 → Except (Fault R) (Beam R × Beam R),
          beams = fun layer => (a.array.beam layer).map fun x => (x, y) := ⟨_, rfl⟩
      have hsent : ∀ layer ∈ layers, ∃ pair, beams layer = .ok pair ∧
          l.Between pair.2.size pair.1.size := by
        intro layer hlayer
        obtain ⟨x, hx⟩ := hbeams layer hlayer
        rw [hchosen]
        dsimp only
        refine ⟨(x, y), ?_, ?_⟩
        · rw [AntennaArray.beam, hx]
          rfl
        · rw [ha layer x hx, hb bLayer y hbeam]
          exact hl
      obtain ⟨powers, v', hrun⟩ : ∃ powers v',
          (combinedGain now l a b m aLayer grid beams).run v = (.ok powers, v') :=
        hof.combinedGain_ok hne hsent aLayer v
      rw [← hchosen]
      refine ⟨powers, v', hrun, fun houtside => ?_⟩
      rw [hof.combinedGain_outside hne houtside v] at hrun
      exact (Except.ok.inj (congrArg Prod.fst hrun)).symm

end Evaluator

/-- A spectrum without power. -/
def Spectrum.Null (spectrum : Spectrum R) : Prop := ∀ x ∈ spectrum.values, (x == 0) = true

theorem Spectrum.null_of_multiplied [Scalar.ZeroLaws R] {spectrum : Spectrum R} {n : Nat} {power : R}
    (h : spectrum.values = List.replicate n (power * 0)) (hpower : isFinite power = true) :
    spectrum.Null := by
  intro x hx
  rw [h] at hx
  rw [List.eq_of_mem_replicate hx]
  exact ZeroLaws.finite_mul_zero power hpower

/-! ## Scenes -/

namespace Scene

/-- Why what a combining device sends is not received: there is no channel, and not for want of a beam;
or the receiver combines too, or has no beam on its layer. -/
inductive Unreceived (s : Scene R) (a b : Device R) (bLayer : UInt8) : Fault R → Prop
  | channel {e : Fault R} {v : Evaluator R}
    (h : (Evaluator.channel s.now a b).run s.evaluator = (.error e, v))
    (hbeam : ∀ layer, e ≠ .missingBeam layer) : Unreceived s a b bLayer e
  | combining (h : b.array.isCombining = true) : Unreceived s a b bLayer .combiningAtBothEnds
  | beamless (h : b.array.current[bLayer]? = none) : Unreceived s a b bLayer (.missingBeam bLayer)

/-- What is received of a combining device on a layer. On one outside its bundle powers are multiplied
by nothing, and so finite ones are lost. -/
structure Received (s : Scene R) (a b : Device R) (layers : List UInt8) (power : R)
    (aLayer bLayer : UInt8) (outcome : Except (Fault R) (Spectrum R)) : Prop where
  refused : ∀ e, outcome = .error e → s.Unreceived a b bLayer e
  outside : ∀ spectrum, outcome = .ok spectrum → a.array.omni = false → b.array.omni = false →
    aLayer ∉ layers → spectrum.values = List.replicate s.grid.size (power * 0) ∧
      (isFinite power = true → spectrum.Null)

variable [Scalar.ZeroLaws R] {s : Scene R} {settings : SceneSettings R} {start : Scene R}

theorem Matched.received (hs : s.Matched) (hequipped : s.Equipped) {tx rx : NodeId}
    {t u : Station R} (ht : s.stations[tx]? = some t) (hu : s.stations[rx]? = some u)
    {m : Combiner R} {layers : List UInt8} (hm : t.device.array.combiner = some m)
    (hof : Combiner.Of layers m) (hne : m ≠ [])
    (hbeams : ∀ layer ∈ layers, ∃ b, t.device.array.current[layer]? = some b)
    (power : R) (txLayer rxLayer : UInt8) :
    s.Received t.device u.device layers power txLayer rxLayer
      ((Scene.receivedSpectrum tx rx power txLayer rxLayer).run s).1 := by
  have hrun : (Scene.receivedSpectrum tx rx power txLayer rxLayer).run s =
      (Scene.evaluate (Evaluator.receivedSpectrum s.now (.constant s.grid power) t.device u.device
        txLayer rxLayer)).run s := run_between _ ht hu
  rw [hrun, Scene.evaluate, Action.run_on]
  dsimp only
  unfold Evaluator.receivedSpectrum
  by_cases homni : (t.device.array.omni || u.device.array.omni) = true
  · rw [if_pos homni]
    refine ⟨fun e he => (by cases he), fun spectrum _ ht' hu' => ?_⟩
    rw [ht', hu'] at homni
    cases homni
  rw [if_neg homni, Action.run_bind]
  have hupholds : Action.Upholds (Evaluator.Matched s.elements?) _
      (Evaluator.channel s.now t.device u.device) :=
    Evaluator.upholds_channel (hs.known hequipped ht).placed (hs.known hequipped hu).placed
  have hchannel := hupholds s.evaluator hs.evaluator
  rcases hasked : (Evaluator.channel s.now t.device u.device).run s.evaluator with ⟨e | l, v⟩
  · refine ⟨fun e' he' => ?_, fun spectrum hok => by cases hok⟩
    cases he'
    refine .channel hasked fun layer he => ?_
    refine Evaluator.channel_ne_missingBeam s.evaluator s.now t.device u.device layer ?_
    rw [hasked, he]
  rw [hasked] at hchannel
  dsimp only
  rw [Action.run_bind]
  have hgain := Evaluator.powerGain_cases hm hof hne hbeams hchannel.1 (hs.station tx t ht).array
    (hs.station rx u hu).array s.now txLayer rxLayer s.grid v
  rcases hgain with ⟨hcombining, hgain⟩ | ⟨hbeamless, hgain⟩ | ⟨powers, v', hgain, hlost⟩
  · rw [Spectrum.constant, hgain]
    refine ⟨fun e he => ?_, fun spectrum hok => by cases hok⟩
    cases he
    exact .combining hcombining
  · rw [Spectrum.constant, hgain]
    refine ⟨fun e he => ?_, fun spectrum hok => by cases hok⟩
    cases he
    exact .beamless hbeamless
  · rw [Spectrum.constant, hgain]
    refine ⟨fun e he => (by cases he), fun spectrum hok _ _ houtside => ?_⟩
    cases hok
    have hvalues : List.zipWith (· * ·) (List.replicate s.grid.size power) powers =
        List.replicate s.grid.size (power * 0) := by
      rw [hlost houtside, List.zipWith_replicate']
    exact ⟨hvalues, Spectrum.null_of_multiplied hvalues⟩

/-! ## The combiner of a bundle -/

/-- The combiner of a device is always that of the last bundle that it took up, and it can be sent
through: there is a block for each subband of the scene, and a beam for each layer that has a weight. A
spectrum that is sent on a layer outside the bundle is lost where neither device radiates without a
beam. -/
theorem combiner_usable_after (hstart : ofSettings settings = .ok start) (past : List (Request R))
    (hequipped : (start.after past).Equipped) {tx : NodeId} {t : Station R} {m : Combiner R}
    (ht : (start.after past).stations[tx]? = some t) (hm : t.device.array.combiner = some m) :
    ∃ layers, start.bundled past tx = some layers ∧
      m.Usable layers (start.after past).grid.size t.device.array ∧
      ∀ rx u power txLayer rxLayer, (start.after past).stations[rx]? = some u →
        (start.after past).Received t.device u.device layers power txLayer rxLayer
          ((receivedSpectrum tx rx power txLayer rxLayer).run (start.after past)).1 := by
  have hmatched := matched_after hstart past hequipped
  obtain ⟨layers, hbundled, hlength, hof, hbeams⟩ := (combining_after hstart past tx t ht).bundle m hm
  have hne : m ≠ [] := by
    rintro rfl
    have hpos := (start.after past).grid.size_pos
    rw [← hlength] at hpos
    exact absurd hpos (lt_irrefl 0)
  exact ⟨layers, hbundled, hof.usable hlength (hmatched.station tx t ht).array hbeams,
    fun rx u power txLayer rxLayer hu =>
      hmatched.received hequipped ht hu hm hof hne hbeams power txLayer rxLayer⟩

/-! ### A steeple that combines -/

/-- The steeple combines for its bundle on layers with gaps. -/
theorem combining_village : ∃ (start : Scene ℝ) (desk : BeamDesk ℝ) (m : Combiner ℝ),
    Village .spectralMmse start desk ∧ desk.array.combiner = some m ∧
      start.bundled (driving .spectralMmse) ⟨1⟩ = some [5, 2] := by
  obtain ⟨start, desk, hvillage⟩ := exists_village .spectralMmse (by decide)
  obtain ⟨hnone, -⟩ | ⟨-, beams, m, -, -, -, harray⟩ := Bundle.serve_ok_spectral rfl hvillage.served
  · cases hnone
  refine ⟨start, desk, m, hvillage, by rw [harray]; rfl, ?_⟩
  have hbundled : (start.after (building .spectralMmse)).bundled? (.setBundle ⟨1⟩ [⟨2⟩, ⟨3⟩] [5, 2]) ⟨1⟩ =
      some [5, 2] := by
    rw [bundled?, hvillage.taken]
    rfl
  rw [driving, bundling, bundled, bundled, hbundled]
  rfl

/-- In the village the combiner of the steeple can be sent through, also after the tractor has driven
on. -/
theorem combiner_usable_after_driving : ∃ (start : Scene ℝ) (t u w : Station ℝ) (m : Combiner ℝ)
    (layers : List UInt8), ofSettings country = .ok start ∧
    (start.after (driving .spectralMmse)).Equipped ∧
    (start.after (driving .spectralMmse)).stations[(⟨1⟩ : NodeId)]? = some t ∧
    (start.after (driving .spectralMmse)).stations[(⟨2⟩ : NodeId)]? = some u ∧
    (start.after (driving .spectralMmse)).stations[(⟨3⟩ : NodeId)]? = some w ∧
    t.device.array.elementCount = 4 ∧ u.device.endpoint = ploughing ∧
    t.device.array.combiner = some m ∧ layers = [5, 2] ∧
    m.Usable layers (start.after (driving .spectralMmse)).grid.size t.device.array ∧
    ∀ power txLayer rxLayer,
      (start.after (driving .spectralMmse)).Received t.device u.device layers power txLayer rxLayer
        ((receivedSpectrum ⟨1⟩ ⟨2⟩ power txLayer rxLayer).run (start.after (driving .spectralMmse))).1 ∧
      (start.after (driving .spectralMmse)).Received t.device w.device layers power txLayer rxLayer
        ((receivedSpectrum ⟨1⟩ ⟨3⟩ power txLayer rxLayer).run
          (start.after (driving .spectralMmse))).1 := by
  obtain ⟨start, desk, m, hvillage, hm, hbundled⟩ := combining_village
  obtain ⟨layers, hlayers, husable, hreceived⟩ := combiner_usable_after hvillage.described
    (driving .spectralMmse) hvillage.equipped hvillage.server hm
  have hlast : layers = [5, 2] := Option.some.inj (hlayers.symm.trans hbundled)
  have helements : desk.array.elementCount = 4 := by
    rw [AntennaArray.elementCount, hvillage.panel]
    rfl
  exact ⟨start, _, _, _, m, layers, hvillage.described, hvillage.equipped, hvillage.server,
    hvillage.driven, hvillage.left, helements, rfl, hm, hlast, husable, fun power txLayer rxLayer =>
      ⟨hreceived ⟨2⟩ _ power txLayer rxLayer hvillage.driven,
        hreceived ⟨3⟩ _ power txLayer rxLayer hvillage.left⟩⟩

/-- But a steeple that radiates without a beam is heard on every layer. -/
theorem spectrum_not_always_lost : ¬∀ (settings : SceneSettings ℝ) (start : Scene ℝ)
    (past : List (Request ℝ)) (tx rx : NodeId) (t : Station ℝ) (m : Combiner ℝ)
    (layers : List UInt8) (power : ℝ) (txLayer rxLayer : UInt8) (spectrum : Spectrum ℝ),
    ofSettings settings = .ok start → (start.after past).Equipped →
    (start.after past).stations[tx]? = some t → t.device.array.combiner = some m →
    start.bundled past tx = some layers → txLayer ∉ layers →
    ((receivedSpectrum tx rx power txLayer rxLayer).run (start.after past)).1 = .ok spectrum →
    spectrum.Null := by
  intro hall
  obtain ⟨start, desk, m, hvillage, hm, hbundled⟩ := combining_village
  obtain ⟨s, hs⟩ : ∃ s, s = start.after (driving .spectralMmse) := ⟨_, rfl⟩
  have ht := hvillage.server
  have hu := hvillage.left
  rw [← hs] at ht hu
  let silenced : Station ℝ :=
    ⟨{ steeple with array := desk.array.setOmni }, desk.engine⟩
  have hafter : start.after (.setOmni ⟨1⟩ :: driving .spectralMmse) = s.put ⟨1⟩ silenced := by
    rw [after, ← hs, ask, Action.run_map, setOmni, run_alter, ht]
  have hsteeple : (s.put ⟨1⟩ silenced).stations[(⟨1⟩ : NodeId)]? = some silenced := by
    rw [stations_put, if_pos rfl]
  have hbarn : (s.put ⟨1⟩ silenced).stations[(⟨3⟩ : NodeId)]? =
      some ⟨barn, villageEngine .spectralMmse start.grid⟩ := by
    rw [stations_put, if_neg (by decide)]
    exact hu
  have hrun : (receivedSpectrum ⟨1⟩ ⟨3⟩ 1 1 0).run (s.put ⟨1⟩ silenced) =
      (evaluate (Evaluator.receivedSpectrum s.now (.constant s.grid 1) silenced.device barn
        1 0)).run (s.put ⟨1⟩ silenced) := run_between _ hsteeple hbarn
  have hpassed : ((receivedSpectrum ⟨1⟩ ⟨3⟩ 1 1 0).run (s.put ⟨1⟩ silenced)).1 =
      .ok (.constant s.grid 1) := by
    rw [hrun, evaluate, Action.run_on]
    rfl
  have hnull := hall country start (.setOmni ⟨1⟩ :: driving .spectralMmse) ⟨1⟩ ⟨3⟩ silenced m [5, 2] 1 1 0
    (.constant s.grid 1) hvillage.described (Equipped.ask hvillage.equipped trivial) (hafter ▸ hsteeple)
    hm (by rw [bundled, hbundled]; rfl) (by decide) (hafter ▸ hpassed)
  have hone : (@OfNat.ofNat ℝ 1 (Scalar.instOfNat 1)) ∈ (Spectrum.constant s.grid 1).values :=
    List.mem_replicate.mpr ⟨s.grid.size_pos.ne', rfl⟩
  have hzero := ExactScalars.beq_iff.mp (hnull _ hone)
  rw [ExactScalars.one_eq, ExactScalars.zero_eq] at hzero
  exact one_ne_zero hzero

end Scene

end RadioChannel
