import RadioChannel.Beamforming.Conflict
import RadioChannel.Beamforming.Engine
import RadioChannel.Linear.LeastSquares
import RadioChannel.Propagation.Pathloss

/-!
# Slot bundles

A device serves several peers at once, each on a layer. Without a digital stage every layer is pointed
at its peer. With one, every peer keeps a codebook beam, peers on the same beam are separated, and
what one stream leaks to other peers is suppressed by least squares: either by mixing the beams, alike
in all subbands, or by a digital combiner with a block for each subband.
-/

namespace RadioChannel

open Scalar

namespace Bundle

variable {R : Type} [Scalar R]

/-- Weights divided by their norm; weights without norm stay as they are. -/
def normalize (weights : List (Phasor R)) : List (Phasor R) :=
  let norm := Phasor.norm weights
  if lt 0 norm then weights.map (·.shrink norm) else weights

/-! ## Analog stage -/

/-- The codebook beams of a bundle and what is known of the links. The lists have one entry for each
peer. -/
structure AnalogStage (R : Type) where
  /-- The pairs of beams, with distinct transmitting beams. -/
  pairs : List Codebook.BeamPair
  /-- The channels between all pairs of beams. -/
  equivalents : List (Matrix R)
  /-- The transmitting beams. -/
  beams : List (Beam R)
  /-- The amplitudes of the links. -/
  amplitudes : List R

/-- The codebook search of a peer. -/
def searchOf (now : Nanoseconds) (own : Endpoint R) (peer : Device R) :
    Action R (BeamDesk R) (BeamSearch R) := do
  let b ← BeamDesk.codebookBeam now own peer
  b.search

/-- Selects the codebook beams of a bundle. -/
def analogStage (now : Nanoseconds) (loss : FreeSpace R) (own : Endpoint R)
    (peers : List (Device R)) : Action R (BeamDesk R) (AnalogStage R) := do
  let searches ← peers.mapM (searchOf now own)
  let equivalents := searches.map BeamSearch.equivalent
  let (outcome, pairs) := Codebook.resolveConflicts (searches.map BeamSearch.pair) equivalents
  outcome
  let s ← Action.get
  let beams ← (pairs.mapM (fun pair => do
    return ⟨← Codebook.beam s.array.panel.size pair.tx, .codebook pair.tx pair.rx⟩) :
      Except (Fault R) (List (Beam R)))
  return {
    pairs := pairs
    equivalents := equivalents
    beams := beams
    amplitudes := peers.map fun peer => loss.amplitude s.engine.referencePower own peer.endpoint }

/-! ## Flat digital stage -/

/-- The row of the equivalent channel for a peer: what it receives, through its own beam, of every
transmitting beam of the bundle. -/
def equivalentRow (pairs : List Codebook.BeamPair) (pair : Codebook.BeamPair) (equivalent : Matrix R)
    (scale : R) : Except (Fault R) (List (Phasor R)) :=
  pairs.mapM fun other => do
    let row ← entryAt equivalent pair.rx
    let g ← entryAt row other.tx
    return g.scale scale

/-- The channel between the streams of a bundle and its peers, read off the codebook searches.
`txCount` is the number of elements of the device. -/
def equivalentChannel (stage : AnalogStage R) (peers : List (Device R)) (txCount : Nat) :
    Except (Fault R) (Matrix R) :=
  (peers.zip (stage.pairs.zip (stage.equivalents.zip stage.amplitudes))).mapM
    fun (peer, (pair, (equivalent, amplitude))) =>
      equivalentRow stage.pairs pair equivalent
        (amplitude / sqrt (Scalar.ofNat peer.array.elementCount * Scalar.ofNat txCount))

/-- Beams added with one coefficient for each. As many elements are mixed as the first beam has. -/
def mix (beams : List (Beam R)) (coefficients : List (Phasor R)) : List (Phasor R) :=
  let start : List (Phasor R) := List.replicate ((beams.head?.map Beam.size).getD 0) .zero
  (beams.zip coefficients).foldl
    (fun sum (beam, x) => sum.zipWith (· + ·) (beam.weights.map (· * x))) start

/-- The beams mixed for stream `k` of a bundle, with unit norm unless they cancel. -/
def hybridWeights (beams : List (Beam R)) (precoder : Matrix R) (k : Nat) : List (Phasor R) :=
  normalize (mix beams (precoder.map fun row => row[k]?.getD .zero))

/-- Mixes the beams of a bundle, alike in all subbands, and removes the digital combiner. -/
def mixFlat (now : Nanoseconds) (loss : FreeSpace R) (own : Endpoint R) (peers : List (Device R))
    (layers : List UInt8) : Action R (BeamDesk R) Unit := do
  if peers.isEmpty then return ()
  let stage ← analogStage now loss own peers
  let s ← Action.get
  let channel ← equivalentChannel stage peers s.array.elementCount
  let precoder ← LeastSquares.solveMatrix channel s.engine.noisePower
  (peers.zip (layers.zip stage.pairs)).zipIdx.forM fun ((peer, (layer, pair)), k) =>
    BeamDesk.setBeam peer.id layer
      ⟨hybridWeights stage.beams precoder k, .hybrid pair.tx layer⟩ now
  Action.modify fun s => { s with array := s.array.clearCombiner }

/-! ## Spectral digital stage -/

/-- The gains of every stream of a bundle at a peer, through the peer's beam: for each transmitting
beam the gain in each subband, multiplied by the amplitude of the link. -/
def streamGains (now : Nanoseconds) (own : Endpoint R) (stage : AnalogStage R) (peer : Device R)
    (pair : Codebook.BeamPair) (amplitude : R) :
    Action R (BeamDesk R) (List (List (Phasor R))) := do
  let weights ← (Codebook.beam peer.array.panel.size pair.rx : Except (Fault R) _)
  let rxBeam : Beam R := ⟨weights, .codebook pair.rx pair.tx⟩
  stage.beams.mapM fun txBeam => do
    let s ← Action.get
    let gains ← BeamDesk.onEvaluator
      (Evaluator.complexSpectrum now s.engine.grid ⟨own, s.array⟩ peer txBeam rxBeam)
    return gains.map (·.scale amplitude)

/-- The entry of a subband in a list of gains; none where the list is too short. -/
def bandOf (band : Nat) (gains : List (Phasor R)) : Phasor R := gains[band]?.getD .zero

/-- A row of a combiner's block with the coefficients of the streams written at their layers, and
unit norm. -/
def combinerRow (layers : List UInt8) (coefficients row : List (Phasor R)) : List (Phasor R) :=
  normalize ((layers.zip coefficients).foldl (fun row (layer, x) => row.set layer.toNat x) row)

/-- The block of a subband: for each stream, in order, the row of its layer is written. -/
def combinerBlock (size : Nat) (layers : List UInt8) (precoder : Matrix R) :
    List (List (Phasor R)) :=
  layers.zipIdx.foldl
    (fun rows (layer, k) => rows.modify layer.toNat
      (combinerRow layers (precoder.map fun row => row[k]?.getD .zero)))
    (List.replicate size (List.replicate size .zero))

/-- The size of the blocks of a combiner: all layers up to the last one. -/
def combinerSize (layers : List UInt8) : Nat :=
  layers.foldl (fun size layer => max size (layer.toNat + 1)) 0

/-- Sets the codebook beams of a bundle and a digital combiner with a block for each subband. The
beams stay set if a later step fails. -/
def combineSpectral (now : Nanoseconds) (loss : FreeSpace R) (own : Endpoint R)
    (peers : List (Device R)) (layers : List UInt8) : Action R (BeamDesk R) Unit := do
  if peers.isEmpty then return ()
  let stage ← analogStage now loss own peers
  (peers.zip (layers.zip stage.beams)).forM fun (peer, (layer, beam)) =>
    BeamDesk.setBeam peer.id layer beam now
  let gains ← (peers.zip (stage.pairs.zip stage.amplitudes)).mapM
    fun (peer, (pair, amplitude)) => streamGains now own stage peer pair amplitude
  let s ← Action.get
  let blocks ← ((List.range s.engine.grid.size).mapM fun band => do
    let channel : Matrix R := gains.map fun row => row.map (bandOf band)
    let precoder ← LeastSquares.solveMatrix channel s.engine.noisePower
    return combinerBlock (combinerSize layers) layers precoder : Except (Fault R) (Combiner R))
  Action.modify fun s => { s with array := s.array.setCombiner blocks }

/-! ## Bundles -/

/-- Serves the peers of a bundle on the layers of the same places. -/
def serve (now : Nanoseconds) (loss : FreeSpace R) (own : Endpoint R) (peers : List (Device R))
    (layers : List UInt8) : Action R (BeamDesk R) Unit := do
  if peers.length ≠ layers.length then
    Action.fail (.bundleMismatch peers.length layers.length)
  else
    let s ← Action.get
    match s.engine.strategy with
    | .geometric | .codebook =>
      (peers.zip layers).forM fun (peer, layer) => BeamDesk.point now own peer layer
    | .flatMmse => mixFlat now loss own peers layers
    | .spectralMmse => combineSpectral now loss own peers layers

end Bundle

end RadioChannel
