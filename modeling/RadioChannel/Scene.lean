import RadioChannel.Beamforming.Bundle

/-!
# Scenes

Devices on one channel, each with its own beam engine. The host moves the devices and the clock, and
asks for beams, spectra and channels; a scene changes only when it is told to or asked.
-/

namespace RadioChannel

open Scalar

/-- A device and the engine that selects its beams. -/
structure Station (R : Type) where
  /-- The device. -/
  device : Device R
  /-- Its engine. -/
  engine : BeamEngine R

/-- Devices on one channel. -/
structure Scene (R : Type) where
  /-- The time. -/
  clock : Clock
  /-- The subbands around the carrier. -/
  grid : SpectrumGrid R
  /-- Evaluates links. It classifies them by a copy of `conditions`. -/
  evaluator : Evaluator R
  /-- The conditions the host has set. -/
  conditions : ConditionTable
  /-- The large-scale loss of links. -/
  loss : FreeSpace R
  /-- The devices by their numbers. -/
  stations : Std.HashMap NodeId (Station R)

/-- What a host is told of the channel between two devices. -/
structure ChannelSummary (R : Type) where
  /-- Its condition. -/
  condition : Condition
  /-- Whether it was drawn for the other direction. -/
  reverse : Bool
  /-- Elements of the receiver. -/
  rxElements : Nat
  /-- Elements of the transmitter. -/
  txElements : Nat
  /-- Clusters, sub-clusters counted. -/
  clusters : Nat
  /-- Clusters, sub-clusters not counted. -/
  keptClusters : Nat
  /-- Delay spread in nanoseconds. -/
  delaySpreadNs : R
  /-- Ricean factor in decibels. -/
  riceanDb : R
  /-- When it was drawn, in milliseconds. -/
  generatedAtMs : R
  /-- Delays of all clusters in nanoseconds. -/
  delaysNs : List R
  /-- Powers of the clusters, sub-clusters not counted. -/
  powers : List R

/-- The summary of a link. -/
def ChannelSummary.ofLink {R : Type} [Scalar R] (l : Link R) : ChannelSummary R :=
  let m := l.realization
  { condition := m.condition
    reverse := l.reverse
    rxElements := l.rxCount
    txElements := l.txCount
    clusters := m.clusterCount
    keptClusters := m.keptClusters
    delaySpreadNs := m.delaySpread * 1000000000
    riceanDb := m.riceanDb
    generatedAtMs := Nanoseconds.toSeconds m.generatedAt * 1000
    delaysNs := m.delays.map (· * 1000000000)
    powers := m.powers }

namespace Scene

variable {R : Type} [Scalar R]

/-- The scene that settings describe, without devices. -/
def ofSettings (s : SceneSettings R) : Except (Fault R) (Scene R) := do
  let generator ← Generator.ofSettings s.channel
  let grid ← SpectrumGrid.uniform s.channel.frequency s.bandwidth s.subbands
  return {
    clock := .start
    grid := grid
    evaluator := .ofGenerator generator (.table .standard)
    conditions := .standard
    loss := ⟨s.channel.frequency⟩
    stations := ∅ }

/-- The time in the scene. -/
def now (s : Scene R) : Nanoseconds := s.clock.now

/-- The device with a number. -/
def device? (s : Scene R) (id : NodeId) : Option (Device R) :=
  s.stations[id]?.map Station.device

/-- How many devices there are. -/
def deviceCount (s : Scene R) : Nat := s.stations.size

/-- The station of a device that has to be there. -/
def station (s : Scene R) (id : NodeId) : Except (Fault R) (Station R) :=
  match s.stations[id]? with
  | some t => .ok t
  | none => .error (.unknownDevice id)

/-- Puts a station in the place of the device with its number. -/
def put (s : Scene R) (id : NodeId) (t : Station R) : Scene R :=
  { s with stations := s.stations.insert id t }

/-! ## Devices -/

/-- Adds a device at rest. -/
def addDevice (id : NodeId) (position : Vec3 R) (panel : PanelSettings R) (beams : BeamSettings R) :
    Action R (Scene R) Unit := do
  let s ← Action.get
  if s.stations.contains id then Action.fail (.duplicateDevice id)
  else
    let panel ← Panel.ofSettings panel
    let engine ← BeamEngine.ofSettings beams s.grid
    Action.modify (·.put id ⟨⟨⟨id, position, .zero⟩, .ofPanel panel⟩, engine⟩)

/-- Changes the station of a device that has to be there. -/
def alter (id : NodeId) (f : Station R → Station R) : Action R (Scene R) Unit := do
  let s ← Action.get
  let t ← s.station id
  Action.modify (·.put id (f t))

/-- Moves a device. -/
def setMobility (id : NodeId) (position velocity : Vec3 R) : Action R (Scene R) Unit :=
  alter id fun t => { t with device.endpoint := ⟨t.device.endpoint.id, position, velocity⟩ }

/-- Lets a device radiate without a beam. -/
def setOmni (id : NodeId) : Action R (Scene R) Unit :=
  alter id fun t => { t with device.array := t.device.array.setOmni }

/-- Sets the condition of the link between two devices. -/
def setCondition (a b : NodeId) (c : Condition) : Action R (Scene R) Unit := do
  let s ← Action.get
  let ta ← s.station a
  let tb ← s.station b
  let conditions := s.conditions.set ta.device.id tb.device.id c
  Action.modify fun s => { s with
    conditions := conditions
    evaluator := { s.evaluator with model := .table conditions } }

/-- Sets the time. -/
def advanceTo (t : Nanoseconds) : Action R (Scene R) Unit :=
  Action.modify fun s => { s with clock := s.clock.set t }

/-! ## Beams -/

/-- A step of a device's beam selection. Whatever it changes stays, whether it fails or not. -/
def atDesk (own : NodeId) (t : Station R) (x : Action R (BeamDesk R) Unit) :
    Action R (Scene R) Unit :=
  Action.on (fun s => ⟨t.engine, t.device.array, s.evaluator⟩)
    (fun desk s =>
      { s.put own ⟨{ t.device with array := desk.array }, desk.engine⟩ with
        evaluator := desk.evaluator })
    x

/-- Points a layer of a device at another one. -/
def setBeam (own peer : NodeId) (layer : UInt8) : Action R (Scene R) Unit := do
  if own = peer then Action.fail (.coincident own peer)
  else
    let s ← Action.get
    let t ← s.station own
    let other ← s.station peer
    atDesk own t (BeamDesk.point s.now t.device.endpoint other.device layer)

/-- Serves several peers from one device, each on the layer of the same place. -/
def setBundle (own : NodeId) (peers : List NodeId) (layers : List UInt8) :
    Action R (Scene R) Unit := do
  if peers.contains own then Action.fail (.coincident own own)
  else
    let s ← Action.get
    let t ← s.station own
    let others ← (peers.mapM s.station : Except (Fault R) (List (Station R)))
    atDesk own t
      (Bundle.serve s.now s.loss t.device.endpoint (others.map Station.device) layers)

/-! ## Questions -/

/-- A question to the evaluator. -/
def evaluate {α : Type} (x : Action R (Evaluator R) α) : Action R (Scene R) α :=
  Action.on Scene.evaluator (fun e s => { s with evaluator := e }) x

/-- The spectrum that `rx` receives on a layer when `tx` sends the same power in every subband. Path
loss is left to the host. -/
def receivedSpectrum (tx rx : NodeId) (power : R) (txLayer rxLayer : UInt8) :
    Action R (Scene R) (Spectrum R) := do
  let s ← Action.get
  let a ← s.station tx
  let b ← s.station rx
  evaluate (Evaluator.receivedSpectrum s.now (.constant s.grid power) a.device b.device
    txLayer rxLayer)

/-- The channel from `a` to `b`, drawn if there is none. -/
def channelSummary (a b : NodeId) : Action R (Scene R) (ChannelSummary R) := do
  let s ← Action.get
  let ta ← s.station a
  let tb ← s.station b
  return .ofLink (← evaluate (Evaluator.channel s.now ta.device tb.device))

end Scene

end RadioChannel
