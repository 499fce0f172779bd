import RadioChannel.Generator
import RadioChannel.Spectrum.Projection

/-!
# Spectrum evaluator

Received spectra and channel matrices between devices. The evaluator asks its generator for the
channel under the condition of the link, and caches projections on pairs of beams: these change only
with the realization or with a beam. A cached projection is used while the realization and the weights
of both beams are still those it was made from.
-/

namespace RadioChannel

open Scalar

/-- What a projection is cached under. -/
structure ProjectionKey where
  /-- The beam of the transmitting device. -/
  aBeam : BeamId
  /-- The key of the link. -/
  link : Nat
  /-- The beam of the receiving device. -/
  bBeam : BeamId
deriving Repr, DecidableEq, Hashable

/-- A projection and what it was made from. -/
structure CachedProjection (R : Type) where
  /-- The coefficient of each cluster. -/
  coefficients : List (Phasor R)
  /-- The number of the realization. -/
  serial : Nat
  /-- The weights of the transmitting device. -/
  aWeights : List (Phasor R)
  /-- The weights of the receiving device. -/
  bWeights : List (Phasor R)

/-- Whether a cached projection was made from a realization and two beams. -/
def CachedProjection.fits {R : Type} [Scalar R] (p : CachedProjection R)
    (m : Realization R) (a b : Beam R) : Bool :=
  p.serial == m.serial && p.aWeights == a.weights && p.bWeights == b.weights

/-- Evaluates links between devices. -/
structure Evaluator (R : Type) where
  /-- Where channels come from. -/
  generator : Generator R
  /-- How links are classified. -/
  model : ConditionModel
  /-- The projections that were made. -/
  projections : Std.HashMap ProjectionKey (CachedProjection R)

namespace Evaluator

variable {R : Type} [Scalar R]

/-- An evaluator that has not evaluated anything. -/
def ofGenerator (g : Generator R) (model : ConditionModel) : Evaluator R := ⟨g, model, ∅⟩

/-- The channel from `a` to `b` under the condition of their link. -/
def channel (now : Nanoseconds) (a b : Device R) : Action R (Evaluator R) (Link R) := do
  if a.endpoint.position == b.endpoint.position then
    Action.fail (.coincident a.id b.id)
  else
    let s ← Action.get
    Action.on Evaluator.generator (fun g s => { s with generator := g })
      (Generator.channel now a.terminal b.terminal (s.model.condition a.id b.id))

/-! ## Projections -/

/-- The key of a projection. -/
def projectionKey (a b : NodeId) (aBeam bBeam : Beam R) : ProjectionKey :=
  ⟨aBeam.id, a.linkKey b, bBeam.id⟩

/-- A projection made anew and cached. -/
def reproject (l : Link R) (key : ProjectionKey) (aBeam bBeam : Beam R) :
    Action R (Evaluator R) (List (Phasor R)) := do
  let coefficients ← l.project aBeam.weights bBeam.weights
  Action.modify fun s => { s with
    projections := s.projections.insert key
      ⟨coefficients, l.realization.serial, aBeam.weights, bBeam.weights⟩ }
  return coefficients

/-- The projection of a link on two beams. -/
def projection (l : Link R) (a b : NodeId) (aBeam bBeam : Beam R) :
    Action R (Evaluator R) (List (Phasor R)) := do
  let key := projectionKey a b aBeam bBeam
  let s ← Action.get
  match s.projections[key]? with
  | some p =>
    if p.fits l.realization aBeam bBeam then return p.coefficients
    else reproject l key aBeam bBeam
  | none => reproject l key aBeam bBeam

/-- The Doppler rotations of a link between two devices. -/
def doppler (s : Evaluator R) (now : Nanoseconds) (l : Link R) (a b : Device R) :
    List (Phasor R) :=
  l.doppler s.generator.frequency now a.endpoint.velocity b.endpoint.velocity

/-- The complex gains of a link between two beams on a grid. -/
def gains (now : Nanoseconds) (l : Link R) (a b : Device R) (aBeam bBeam : Beam R)
    (grid : SpectrumGrid R) : Action R (Evaluator R) (List (Phasor R)) := do
  let projected ← projection l a.id b.id aBeam bBeam
  let s ← Action.get
  return l.gains projected (s.doppler now l a b) grid

/-! ## Digital combining -/

/-- The weight of an input layer in an output layer of a subband's block. -/
def weight (block : List (List (Phasor R))) (output input : Nat) : Except (Fault R) (Phasor R) :=
  match entryAt block output with
  | .error e => .error e
  | .ok row => entryAt row input

/-- Whether an input layer has no weight in an output layer in any subband. Subbands after the first
one with a weight are not looked at. -/
def isUnused (output input : Nat) : Combiner R → Except (Fault R) Bool
  | [] => .ok true
  | block :: blocks =>
    match weight block output input with
    | .error e => .error e
    | .ok w => if w == Phasor.zero then isUnused output input blocks else .ok false

/-- Adds an input layer to a spectrum, subband by subband. Subbands without a block or without a gain
stay as they are. -/
def accumulate (output input : Nat) :
    List (Phasor R) → Combiner R → List (Phasor R) → Except (Fault R) (List (Phasor R))
  | value :: values, block :: blocks, gain :: gains => do
    let w ← weight block output input
    return (value + w * gain) :: (← accumulate output input values blocks gains)
  | values, _, _ => .ok values

/-- The power gains of an output layer of a combiner, on a grid. `beams` gives the beams of both
devices for an input layer; layers without any weight are not asked for. An output layer beyond the
combiner radiates nothing. -/
def combinedGain (now : Nanoseconds) (l : Link R) (a b : Device R) (combiner : Combiner R)
    (layer : UInt8) (grid : SpectrumGrid R)
    (beams : UInt8 → Except (Fault R) (Beam R × Beam R)) : Action R (Evaluator R) (List R) := do
  let output := layer.toNat
  let size := (combiner.head?.map List.length).getD 0
  if size ≤ output then return List.replicate grid.size 0
  let start : List (Phasor R) := List.replicate grid.size .zero
  let spectrum ← (List.range size).foldlM
    (fun spectrum input => do
      if ← isUnused output input combiner then return spectrum
      let (aBeam, bBeam) ← beams input.toUInt8
      let gain ← gains now l a b aBeam bBeam grid
      accumulate output input spectrum combiner gain)
    start
  return spectrum.map Phasor.normSq

/-! ## Evaluation -/

/-- The power gains from a layer of `a` to a layer of `b`. One end may combine digitally. -/
def powerGain (now : Nanoseconds) (l : Link R) (a b : Device R) (aLayer bLayer : UInt8)
    (grid : SpectrumGrid R) : Action R (Evaluator R) (List R) := do
  match a.array.combiner, b.array.combiner with
  | some _, some _ => Action.fail .combiningAtBothEnds
  | some combiner, none =>
    let bBeam ← b.array.beam bLayer
    combinedGain now l a b combiner aLayer grid fun input =>
      (a.array.beam input).map fun aBeam => (aBeam, bBeam)
  | none, some combiner =>
    let aBeam ← a.array.beam aLayer
    combinedGain now l a b combiner bLayer grid fun input =>
      (b.array.beam input).map fun bBeam => (aBeam, bBeam)
  | none, none =>
    let aBeam ← a.array.beam aLayer
    let bBeam ← b.array.beam bLayer
    return (← gains now l a b aBeam bBeam grid).map Phasor.normSq

/-- The spectrum that `b` receives on a layer when `a` sends one on a layer. Where either array
radiates without a beam the spectrum passes unchanged. -/
def receivedSpectrum (now : Nanoseconds) (sent : Spectrum R) (a b : Device R)
    (aLayer bLayer : UInt8) : Action R (Evaluator R) (Spectrum R) := do
  if a.array.omni || b.array.omni then return sent
  let l ← channel now a b
  return sent.scaledBy (← powerGain now l a b aLayer bLayer sent.grid)

/-- The complex gains between two beams on a grid. -/
def complexSpectrum (now : Nanoseconds) (grid : SpectrumGrid R) (a b : Device R)
    (aBeam bBeam : Beam R) : Action R (Evaluator R) (List (Phasor R)) := do
  if a.array.omni || b.array.omni then Action.fail .omniArray
  else
    let l ← channel now a b
    gains now l a b aBeam bBeam grid

/-- The channel between all elements of two devices at an offset from the carrier, by receiving and
transmitting element. -/
def flatMatrix (now : Nanoseconds) (a b : Device R) (offset : R) :
    Action R (Evaluator R) (List (List (Phasor R))) := do
  let l ← channel now a b
  let rxCount := b.array.elementCount
  let txCount := a.array.elementCount
  l.checkDimensions rxCount txCount
  let s ← Action.get
  return l.flatMatrix (s.doppler now l a b) (s.generator.frequency + offset) rxCount txCount

end Evaluator

end RadioChannel
