import RadioChannel.Proofs.BeamChannels
import RadioChannel.Proofs.Combining
import RadioChannel.Proofs.MatchedChannels
import RadioChannel.Proofs.Selections

/-!
# Beam selection on matched data

An engine keeps geometric beams or beams that were searched for, as its strategy says, and all of them
are for the panel of its device. On an evaluator whose channels match the arrays at their ends, beam
selection keeps it so, whatever the strategy and whether it fails or not, and no fault that it ends with
is a misfit.
-/

namespace RadioChannel

open Scalar

variable {R : Type}

/-- A beam for a panel of so many elements, selected as a strategy says. -/
structure SelectedBeam.Fit (strategy : Strategy) (n : Nat) (b : SelectedBeam R) : Prop where
  size : b.beam.size = n
  search : b.search? = none ↔ strategy = .geometric

/-- All beams that an engine keeps are for a panel of so many elements, and selected by its strategy. -/
def BeamEngine.Fit (n : Nat) (e : BeamEngine R) : Prop :=
  ∀ (key : Nat) (b : SelectedBeam R), e.cache[key]? = some b → b.Fit e.strategy n

theorem BeamEngine.Fit.keep {n : Nat} {e : BeamEngine R} (he : e.Fit n) (own peer : NodeId)
    {b : SelectedBeam R} (hb : b.Fit e.strategy n) : (e.keep own peer b).Fit n := by
  intro key b' hb'
  rw [BeamEngine.keep, Std.HashMap.getElem?_insert] at hb'
  split at hb'
  · cases hb'
    exact hb
  · exact he key b' hb'

variable [Scalar R] {sized : NodeId → Option Nat}

theorem AntennaArray.Fit.setBeam {x : AntennaArray R} (hx : x.Fit) (peer : NodeId) (layer : UInt8)
    {b : Beam R} (hb : b.size = x.elementCount) (now : Nanoseconds) :
    (x.setBeam peer layer b now).Fit := by
  intro layer' b' hb'
  rw [AntennaArray.setBeam, Std.TreeMap.getElem?_insert] at hb'
  split at hb'
  · cases hb'
    exact hb
  · exact hx layer' b' hb'

/-- A device with the panel that its number stands for, which a machine can hold. -/
structure Device.Known (sized : NodeId → Option Nat) (d : Device R) : Prop where
  placed : d.terminal.Placed sized
  sides : d.array.panel.size.HasSides

theorem Panel.size_steer (panel : Panel R) (own peer : Vec3 R) :
    (panel.steer own peer).size = panel.elementCount :=
  (List.length_map _).trans panel.length_elementLocations

namespace BeamDesk

/-- What a desk works on matches: the evaluator's channels are for the arrays at their ends, and the
beams of the array and of the engine are for the panel. -/
structure Fit (sized : NodeId → Option Nat) (panel : Panel R) (strategy : Strategy)
    (s : BeamDesk R) : Prop where
  array : s.array.Fit
  engine : s.engine.Fit panel.elementCount
  evaluator : s.evaluator.Matched sized
  panel : s.array.panel = panel
  strategy : s.engine.strategy = strategy

variable {panel : Panel R} {strategy : Strategy} {now : Nanoseconds} {own : Endpoint R}
variable {peer : Device R}

theorem upholds_onEvaluator {α : Type} {p : α → Prop} {x : Action R (Evaluator R) α}
    (hx : Action.Upholds (Evaluator.Matched sized) p x) :
    Action.Upholds (Fit sized panel strategy) p (onEvaluator x) :=
  hx.on (fun _ hs => hs.evaluator) fun _ _ hs hv =>
    ⟨hs.array, hs.engine, hv, hs.panel, hs.strategy⟩

theorem upholds_keep (peer : NodeId) {b : SelectedBeam R} (hb : b.Fit strategy panel.elementCount) :
    Action.Upholds (Fit sized panel strategy) (fun _ => True)
      (onEngine (Action.modify (·.keep own.id peer b))) := by
  intro s hs
  refine ⟨trivial, hs.array, ?_, hs.evaluator, hs.panel, hs.strategy⟩
  exact hs.engine.keep own.id peer (hs.strategy ▸ hb)

theorem upholds_setBeam (peer : NodeId) (layer : UInt8) {b : Beam R}
    (hb : b.size = panel.elementCount) :
    Action.Upholds (Fit sized panel strategy) (fun _ => True) (setBeam peer layer b now) := by
  intro s hs
  refine ⟨trivial, ?_, hs.engine, hs.evaluator, hs.panel, hs.strategy⟩
  refine hs.array.setBeam peer layer ?_ now
  rw [hb, ← hs.panel]
  rfl

/-! ## Selection -/

theorem upholds_geometricBeam (hstrategy : strategy = .geometric) (own peer : Endpoint R) :
    Action.Upholds (Fit sized panel strategy) (SelectedBeam.Fit strategy panel.elementCount)
      (geometricBeam own peer) := by
  unfold geometricBeam
  split
  · exact Action.upholds_fail rfl
  refine Action.upholds_get_bind fun s hs => ?_
  dsimp only
  split
  · next b hb =>
    obtain ⟨hkept, -⟩ := Option.filter_eq_some_iff.mp hb
    exact Action.upholds_pure (hs.strategy ▸ hs.engine _ b hkept)
  · have hsteered : SelectedBeam.Fit strategy panel.elementCount ⟨own.position, peer.position,
        s.array.panel.steer own.position peer.position, none⟩ := by
      refine ⟨?_, fun _ => hstrategy, fun _ => rfl⟩
      rw [← hs.panel]
      exact s.array.panel.size_steer _ _
    exact Action.Upholds.bind (upholds_keep peer.id hsteered) fun _ _ =>
      Action.upholds_pure hsteered

variable (hown : Terminal.Placed sized ⟨own, panel⟩) (hsides : panel.size.HasSides)

include hown hsides

theorem upholds_searchCodebook (hstrategy : strategy ≠ .geometric) (hpeer : peer.Known sized) :
    Action.Upholds (Fit sized panel strategy) (SelectedBeam.Fit strategy panel.elementCount)
      (searchCodebook now own peer) := by
  unfold searchCodebook
  refine Action.upholds_get_bind fun s hs => ?_
  have hplaced : Device.terminal ⟨own, s.array⟩ = ⟨own, panel⟩ := by
    rw [Device.terminal, hs.panel]
  refine Action.Upholds.bind (upholds_onEvaluator
    (Evaluator.upholds_flatMatrix (hplaced ▸ hown) hpeer.placed 0)) fun h hh => ?_
  -- panels with sides of 32 bits have as many elements as a machine word says
  obtain ⟨hrows, hcolumns⟩ := hh
  have hrx : h.length = peer.array.panel.size.wordCount := by
    rw [hrows, Codebook.wordCount_eq hpeer.sides]
    rfl
  have htx : Matrix.columns h = s.array.panel.size.wordCount := by
    rw [hcolumns, hs.panel, Codebook.wordCount_eq hsides, AntennaArray.elementCount, hs.panel]
    rfl
  refine Action.Upholds.bind (Action.upholds_ofExcept (Codebook.fitting_equivalent hrx htx))
    fun equivalent _ => ?_
  split
  · exact Action.upholds_fail rfl
  · next pair _ =>
    have hfound : SelectedBeam.Fit strategy panel.elementCount ⟨own.position, peer.endpoint.position,
        ⟨Codebook.weights s.array.panel.size pair.tx, .codebook pair.tx pair.rx⟩,
        some ⟨now, pair, equivalent⟩⟩ := by
      constructor
      · rw [hs.panel]
        exact panel.size_weights hsides pair.tx _
      · constructor
        · intro hnone
          cases hnone
        · intro hgeometric
          exact absurd hgeometric hstrategy
    exact Action.Upholds.bind (upholds_keep peer.id hfound) fun _ _ => Action.upholds_pure hfound

/-- A codebook beam is refused for the channel or for its blocked beams, never for what is kept. -/
theorem upholds_codebookBeam (hstrategy : strategy ≠ .geometric) (hpeer : peer.Known sized) :
    Action.Upholds (Fit sized panel strategy) (SelectedBeam.Fit strategy panel.elementCount)
      (codebookBeam now own peer) := by
  have hsearch : Action.Upholds (Fit sized panel strategy) _ (searchCodebook now own peer) :=
    upholds_searchCodebook hown hsides hstrategy hpeer
  unfold codebookBeam
  refine Action.upholds_get_bind fun s hs => ?_
  split
  · exact hsearch
  · next b hb =>
    have hfit : b.Fit strategy panel.elementCount := hs.strategy ▸ hs.engine _ b hb
    have hfound : Fitting (fun _ => True) b.search := by
      unfold SelectedBeam.search
      split
      · exact trivial
      · next hnone => exact absurd (hfit.search.mp hnone) hstrategy
    refine Action.Upholds.bind (Action.upholds_ofExcept hfound) fun search _ => ?_
    split
    · exact Action.upholds_pure hfit
    · exact hsearch

theorem upholds_select (hpeer : peer.Known sized) :
    Action.Upholds (Fit sized panel strategy) (SelectedBeam.Fit strategy panel.elementCount)
      (select now own peer) := by
  unfold select
  refine Action.upholds_get_bind fun s hs => ?_
  rw [hs.strategy]
  cases hstrategy : strategy with
  | geometric => exact upholds_geometricBeam rfl own peer.endpoint
  | codebook => exact upholds_codebookBeam hown hsides (by decide) hpeer
  | flatMmse => exact upholds_codebookBeam hown hsides (by decide) hpeer
  | spectralMmse => exact upholds_codebookBeam hown hsides (by decide) hpeer

theorem upholds_point (hpeer : peer.Known sized) (layer : UInt8) :
    Action.Upholds (Fit sized panel strategy) (fun _ => True) (point now own peer layer) :=
  Action.Upholds.bind (upholds_select hown hsides hpeer) fun _ hb =>
    upholds_setBeam peer.id layer hb.size

end BeamDesk

namespace Bundle

open BeamDesk

variable {panel : Panel R} {strategy : Strategy} {now : Nanoseconds} {loss : FreeSpace R}
variable {own : Endpoint R} {peers : List (Device R)}

/-! ## Mixed beams -/

omit [Scalar R] in
theorem length_foldl_zipWith {n : Nat} (f : Phasor R → Phasor R → Phasor R)
    {items : List (List (Phasor R))} (hitems : ∀ item ∈ items, item.length = n)
    {start : List (Phasor R)} (hstart : start.length = n) :
    (items.foldl (fun sum item => sum.zipWith f item) start).length = n := by
  induction items generalizing start with
  | nil => exact hstart
  | cons item items ih =>
    rw [List.foldl_cons]
    refine ih (fun i hi => hitems i (List.mem_cons_of_mem item hi)) ?_
    rw [List.length_zipWith, hstart, hitems item List.mem_cons_self, Nat.min_self]

theorem length_mix {n : Nat} {beams : List (Beam R)} (hbeams : ∀ b ∈ beams, b.size = n)
    (hne : beams ≠ []) (coefficients : List (Phasor R)) : (mix beams coefficients).length = n := by
  obtain ⟨first, rest, rfl⟩ := List.exists_cons_of_ne_nil hne
  have hmix : mix (first :: rest) coefficients =
      (((first :: rest).zip coefficients).map fun item => item.1.weights.map (· * item.2)).foldl
        (fun sum item => sum.zipWith (· + ·) item) (List.replicate first.size .zero) := by
    rw [List.foldl_map]
    rfl
  rw [hmix]
  refine length_foldl_zipWith _ (fun item hitem => ?_) ?_
  · obtain ⟨⟨b, x⟩, hmem, rfl⟩ := List.mem_map.mp hitem
    rw [List.length_map]
    exact hbeams b (List.of_mem_zip hmem).1
  · rw [List.length_replicate]
    exact hbeams first List.mem_cons_self

/-! ## Stages -/

theorem fitting_equivalentChannel (stage : AnalogStage R) (peers : List (Device R)) (txCount : Nat) :
    Fitting (fun _ => True) (equivalentChannel stage peers txCount) := by
  refine fitting_mapM fun item _ => fitting_mapM fun other _ => ?_
  refine (fitting_entryAt _ _).bind fun row _ => ?_
  exact (fitting_entryAt _ _).bind fun _ _ => trivial

variable (hown : Terminal.Placed sized ⟨own, panel⟩) (hsides : panel.size.HasSides)
variable (hpeers : ∀ peer ∈ peers, peer.Known sized)

section Searched

variable (hstrategy : strategy ≠ .geometric)

include hown hsides hstrategy

theorem upholds_searchOf {peer : Device R} (hpeer : peer.Known sized) :
    Action.Upholds (Fit sized panel strategy) (fun _ => True) (searchOf now own peer) := by
  refine Action.Upholds.bind (upholds_codebookBeam hown hsides hstrategy hpeer) fun b hb => ?_
  refine Action.upholds_ofExcept ?_
  unfold SelectedBeam.search
  split
  · exact trivial
  · next hnone => exact absurd (hb.search.mp hnone) hstrategy

include hpeers

/-- The beams of a bundle are for the panel, one for each pair. -/
theorem upholds_analogStage :
    Action.Upholds (Fit sized panel strategy)
      (fun stage => stage.beams.length = stage.pairs.length ∧
        ∀ b ∈ stage.beams, b.size = panel.elementCount)
      (analogStage now loss own peers) := by
  unfold analogStage
  refine Action.Upholds.bind (Action.Upholds.mapM (r := fun _ _ => True) fun peer hpeer =>
    upholds_searchOf hown hsides hstrategy (hpeers peer hpeer)) fun searches _ => ?_
  refine Action.Upholds.bind (Action.upholds_ofExcept
    (Codebook.fitting_resolveFrom [] _ _)) fun _ _ => ?_
  refine Action.upholds_get_bind fun s hs => ?_
  refine Action.Upholds.bind (Action.upholds_ofExcept (Fitting.mapM
    (r := fun _ b => b.size = panel.elementCount) fun pair _ => ?_)) fun beams hbeams => ?_
  · refine (Codebook.fitting_beam s.array.panel.size pair.tx).bind fun w hw => ?_
    rw [hs.panel, Codebook.wordCount_eq hsides] at hw
    exact hw
  · refine Action.upholds_pure ⟨hbeams.length_eq.symm, fun b hb => ?_⟩
    obtain ⟨_, -, hsize⟩ := exists_of_forall₂_mem hbeams hb
    exact hsize

theorem upholds_mixFlat (layers : List UInt8) :
    Action.Upholds (Fit sized panel strategy) (fun _ => True) (mixFlat now loss own peers layers) := by
  unfold mixFlat
  split
  · exact Action.upholds_pure trivial
  refine Action.Upholds.bind (upholds_analogStage hown hsides hpeers hstrategy)
    fun stage ⟨hlength, hbeams⟩ => ?_
  refine Action.upholds_get_bind fun s hs => ?_
  refine Action.Upholds.bind (Action.upholds_ofExcept (fitting_equivalentChannel _ _ _))
    fun channel _ => ?_
  refine Action.Upholds.bind (Action.upholds_ofExcept (LeastSquares.fitting_solveMatrix _ _))
    fun precoder _ => ?_
  refine Action.Upholds.bind (Action.Upholds.forM fun item hitem => ?_) fun _ _ => ?_
  · obtain ⟨⟨peer, layer, pair⟩, k⟩ := item
    refine upholds_setBeam peer.id layer ?_
    -- a stream that is set has a pair, and so there is a beam to mix
    have hpair : pair ∈ stage.pairs := by
      have hmem := List.fst_mem_of_mem_zipIdx hitem
      exact (List.of_mem_zip (List.of_mem_zip hmem).2).2
    have hne : stage.beams ≠ [] := by
      have hpos : 0 < stage.beams.length := by
        rw [hlength]
        exact List.length_pos_of_mem hpair
      exact List.ne_nil_of_length_pos hpos
    exact (length_normalize _).trans (length_mix hbeams hne _)
  · exact Action.upholds_modify fun t ht =>
      ⟨ht.array, ht.engine, ht.evaluator, ht.panel, ht.strategy⟩

end Searched

include hown

theorem upholds_streamGains {stage : AnalogStage R}
    (hbeams : ∀ b ∈ stage.beams, b.size = panel.elementCount) {peer : Device R}
    (hpeer : peer.Known sized) (pair : Codebook.BeamPair) (amplitude : R) :
    Action.Upholds (Fit sized panel strategy) (fun _ => True)
      (streamGains now own stage peer pair amplitude) := by
  unfold streamGains
  refine Action.Upholds.bind (Action.upholds_ofExcept
    (Codebook.fitting_beam peer.array.panel.size pair.rx)) fun weights hweights => ?_
  rw [Codebook.wordCount_eq hpeer.sides] at hweights
  refine Action.Upholds.imp (Action.Upholds.mapM (r := fun _ _ => True) fun txBeam hmem => ?_)
    fun _ _ => trivial
  refine Action.upholds_get_bind fun s hs => ?_
  have hplaced : Device.terminal ⟨own, s.array⟩ = ⟨own, panel⟩ := by
    rw [Device.terminal, hs.panel]
  have htx : txBeam.size = s.array.elementCount := by
    rw [hbeams txBeam hmem, AntennaArray.elementCount, hs.panel]
  have hrx : Beam.size ⟨weights, .codebook pair.rx pair.tx⟩ = peer.array.elementCount := hweights
  exact Action.Upholds.bind (upholds_onEvaluator (Evaluator.upholds_complexSpectrum
    (hplaced ▸ hown) hpeer.placed htx hrx s.engine.grid)) fun _ _ => Action.upholds_pure trivial

include hsides hpeers

theorem upholds_combineSpectral (hstrategy : strategy ≠ .geometric) (layers : List UInt8) :
    Action.Upholds (Fit sized panel strategy) (fun _ => True)
      (combineSpectral now loss own peers layers) := by
  unfold combineSpectral
  split
  · exact Action.upholds_pure trivial
  refine Action.Upholds.bind (upholds_analogStage hown hsides hpeers hstrategy)
    fun stage ⟨_, hbeams⟩ => ?_
  refine Action.Upholds.bind (Action.Upholds.forM fun item hitem => ?_) fun _ _ => ?_
  · exact upholds_setBeam item.1.id item.2.1
      (hbeams _ (List.of_mem_zip (List.of_mem_zip hitem).2).2)
  refine Action.Upholds.bind (Action.Upholds.mapM (r := fun _ _ => True) fun item hitem => ?_)
    fun gains _ => ?_
  · exact upholds_streamGains hown hbeams (hpeers _ (List.of_mem_zip hitem).1) _ _
  refine Action.upholds_get_bind fun s hs => ?_
  refine Action.Upholds.bind (Action.upholds_ofExcept (fitting_mapM fun band _ => ?_)) fun blocks _ => ?_
  · exact (LeastSquares.fitting_solveMatrix _ _).bind fun _ _ => trivial
  · exact Action.upholds_modify fun t ht =>
      ⟨ht.array, ht.engine, ht.evaluator, ht.panel, ht.strategy⟩

/-- A bundle is served on matched data without a misfit, and leaves matched data. -/
theorem upholds_serve (layers : List UInt8) :
    Action.Upholds (Fit sized panel strategy) (fun _ => True)
      (serve now loss own peers layers) := by
  unfold serve
  split
  · exact Action.upholds_fail rfl
  refine Action.upholds_get_bind fun s hs => ?_
  rw [hs.strategy]
  have hpoint : Action.Upholds (Fit sized panel strategy) (fun _ => True)
      ((peers.zip layers).forM fun item => point now own item.1 item.2) :=
    Action.Upholds.forM fun item hitem =>
      upholds_point hown hsides (hpeers _ (List.of_mem_zip hitem).1) _
  cases strategy with
  | geometric => exact hpoint
  | codebook => exact hpoint
  | flatMmse => exact upholds_mixFlat hown hsides hpeers (by decide) layers
  | spectralMmse => exact upholds_combineSpectral hown hsides hpeers (by decide) layers

end Bundle

end RadioChannel
