import RadioChannel.Beamforming.Codebook
import RadioChannel.Beamforming.Steering
import RadioChannel.Beamforming.Strategy
import RadioChannel.Spectrum.Evaluator

/-!
# Beam engine

The part of a device that selects its beams. It keeps the last beam it selected for each peer. A
geometric beam is kept until one of the two moves; a codebook beam is kept for a fixed time, wherever
they move.
-/

namespace RadioChannel

open Scalar

/-- The result of a codebook search. -/
structure BeamSearch (R : Type) where
  /-- When the search was made. -/
  generatedAt : Nanoseconds
  /-- The strongest pair of beams. -/
  pair : Codebook.BeamPair
  /-- The channel between all pairs of beams. -/
  equivalent : Matrix R

/-- A beam selected for a peer. -/
structure SelectedBeam (R : Type) where
  /-- Where the device was. -/
  own : Vec3 R
  /-- Where the peer was. -/
  peer : Vec3 R
  /-- The beam. -/
  beam : Beam R
  /-- The search that it comes from; none for a geometric beam. -/
  search? : Option (BeamSearch R)

/-- The search that a beam comes from. -/
def SelectedBeam.search {R : Type} (b : SelectedBeam R) : Except (Fault R) (BeamSearch R) :=
  match b.search? with
  | some s => .ok s
  | none => .error .notCodebookBeam

/-- Selects the beams of one device. -/
structure BeamEngine (R : Type) where
  /-- How beams are selected. -/
  strategy : Strategy
  /-- How long a codebook search stays valid. -/
  refresh : Nanoseconds
  /-- Regularization of the digital stage. -/
  noisePower : R
  /-- Transmit power at which path amplitudes are taken, in dBm. -/
  referencePower : R
  /-- The subbands of the digital stage. -/
  grid : SpectrumGrid R
  /-- The last beam for each peer, by the key of the direction to it. -/
  cache : Std.HashMap Nat (SelectedBeam R)

namespace BeamEngine

variable {R : Type} [Scalar R]

/-- The engine that settings describe, on a grid of subbands. -/
def ofSettings (s : BeamSettings R) (grid : SpectrumGrid R) :
    Except (Fault R) (BeamEngine R) := do
  let strategy ← Strategy.ofName s.strategy
  let refresh ← s.codebookRefresh
  return {
    strategy := strategy
    refresh := refresh
    noisePower := s.noisePower
    referencePower := s.referencePower
    grid := grid
    cache := ∅ }

/-- How many peers the engine has a beam for. -/
def cachedBeams (e : BeamEngine R) : Nat := e.cache.size

/-- The last beam selected by one node for another. -/
def selected? (e : BeamEngine R) (own peer : NodeId) : Option (SelectedBeam R) :=
  e.cache[own.keyTo peer]?

/-- Keeps a beam for a peer. -/
def keep (e : BeamEngine R) (own peer : NodeId) (b : SelectedBeam R) : BeamEngine R :=
  { e with cache := e.cache.insert (own.keyTo peer) b }

/-- Whether a beam was selected at the present positions. -/
def stillThere (b : SelectedBeam R) (own peer : Vec3 R) : Bool :=
  b.own == own && b.peer == peer

/-- Whether a search is still valid. -/
def isFresh (e : BeamEngine R) (now : Nanoseconds) (s : BeamSearch R) : Bool :=
  now - s.generatedAt ≤ e.refresh

end BeamEngine

/-- What a device works on when it selects beams: its engine, its array, and the evaluator that it
shares with other devices. -/
structure BeamDesk (R : Type) where
  /-- The device's engine. -/
  engine : BeamEngine R
  /-- The device's array. -/
  array : AntennaArray R
  /-- The evaluator. -/
  evaluator : Evaluator R

namespace BeamDesk

variable {R : Type} [Scalar R]

/-- A step of the engine. -/
def onEngine {α : Type} (x : Action R (BeamEngine R) α) : Action R (BeamDesk R) α :=
  Action.on BeamDesk.engine (fun e s => { s with engine := e }) x

/-- A step of the evaluator. -/
def onEvaluator {α : Type} (x : Action R (Evaluator R) α) : Action R (BeamDesk R) α :=
  Action.on BeamDesk.evaluator (fun e s => { s with evaluator := e }) x

/-- Sets a beam on the device's array. -/
def setBeam (peer : NodeId) (layer : UInt8) (beam : Beam R) (now : Nanoseconds) :
    Action R (BeamDesk R) Unit :=
  Action.modify fun s => { s with array := s.array.setBeam peer layer beam now }

/-! ## Selection -/

/-- The geometric beam toward a peer. -/
def geometricBeam (own peer : Endpoint R) : Action R (BeamDesk R) (SelectedBeam R) := do
  if own.position == peer.position then Action.fail (.coincident own.id peer.id)
  else
    let s ← Action.get
    let cached := (s.engine.selected? own.id peer.id).filter
      (BeamEngine.stillThere · own.position peer.position)
    match cached with
    | some b => return b
    | none =>
      let steered : SelectedBeam R :=
        ⟨own.position, peer.position, s.array.panel.steer own.position peer.position, none⟩
      onEngine (Action.modify (·.keep own.id peer.id steered))
      return steered

/-- Searches the codebook for the beam toward a peer, and keeps it. -/
def searchCodebook (now : Nanoseconds) (own : Endpoint R) (peer : Device R) :
    Action R (BeamDesk R) (SelectedBeam R) := do
  let s ← Action.get
  let h ← onEvaluator (Evaluator.flatMatrix now ⟨own, s.array⟩ peer 0)
  let size := s.array.panel.size
  let equivalent ← Codebook.equivalent h peer.array.panel.size size
  match Codebook.strongest equivalent [] with
  | none => Action.fail .noAvailableBeam
  | some pair =>
    let found : SelectedBeam R := {
      own := own.position
      peer := peer.endpoint.position
      beam := ⟨Codebook.weights size pair.tx, .codebook pair.tx pair.rx⟩
      search? := some ⟨now, pair, equivalent⟩ }
    onEngine (Action.modify (·.keep own.id peer.id found))
    return found

/-- The codebook beam toward a peer: the one kept while its search is valid, and else a new one. -/
def codebookBeam (now : Nanoseconds) (own : Endpoint R) (peer : Device R) :
    Action R (BeamDesk R) (SelectedBeam R) := do
  let s ← Action.get
  match s.engine.selected? own.id peer.id with
  | none => searchCodebook now own peer
  | some b =>
    let search ← b.search
    if s.engine.isFresh now search then return b else searchCodebook now own peer

/-- The beam toward a peer by the engine's strategy. -/
def select (now : Nanoseconds) (own : Endpoint R) (peer : Device R) :
    Action R (BeamDesk R) (SelectedBeam R) := do
  let s ← Action.get
  match s.engine.strategy with
  | .geometric => geometricBeam own peer.endpoint
  | .codebook | .flatMmse | .spectralMmse => codebookBeam now own peer

/-- Points a layer at a peer. -/
def point (now : Nanoseconds) (own : Endpoint R) (peer : Device R) (layer : UInt8) :
    Action R (BeamDesk R) Unit := do
  let b ← select now own peer
  setBeam peer.id layer b.beam now

end BeamDesk

end RadioChannel
