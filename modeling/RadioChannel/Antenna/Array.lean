import RadioChannel.Action
import RadioChannel.Antenna.Beam
import RadioChannel.Antenna.Panel
import Std.Data.HashMap
import Std.Data.TreeMap

/-!
# Antenna arrays

A panel together with the beams set on it. The array remembers the last beam for every peer and
layer, and which beam is active on each layer. It can also be switched to radiate without any beam,
and it may hold a digital combiner.
-/

namespace RadioChannel

/-- A beam and the time at which it was set. -/
structure StoredBeam (R : Type) where
  /-- The beam. -/
  beam : Beam R
  /-- When it was set. -/
  updatedAt : Nanoseconds

/-- A panel and the beams on it. -/
structure AntennaArray (R : Type) where
  /-- The panel. -/
  panel : Panel R
  /-- The last beam set for each peer and layer. -/
  stored : Std.HashMap (NodeId × UInt8) (StoredBeam R)
  /-- The active beam of each layer. -/
  current : Std.TreeMap UInt8 (Beam R)
  /-- Whether the array radiates without a beam. -/
  omni : Bool
  /-- The digital combiner, if there is one. -/
  combiner : Option (Combiner R)

namespace AntennaArray

variable {R : Type}

/-- A panel on which nothing is set. -/
def ofPanel (p : Panel R) : AntennaArray R := ⟨p, ∅, ∅, false, none⟩

/-- How many elements the array has. -/
def elementCount [Scalar R] (a : AntennaArray R) : Nat := a.panel.elementCount

/-! ## Beams -/

/-- Sets the beam for a peer on a layer and makes it active there. -/
def setBeam (a : AntennaArray R) (peer : NodeId) (layer : UInt8) (beam : Beam R)
    (now : Nanoseconds) : AntennaArray R :=
  { a with
    omni := false
    stored := a.stored.insert (peer, layer) ⟨beam, now⟩
    current := a.current.insert layer beam }

/-- Makes the beam last set for a peer on a layer active again. -/
def selectBeam (a : AntennaArray R) (peer : NodeId) (layer : UInt8) :
    Except (Fault R) (AntennaArray R) :=
  match a.stored[(peer, layer)]? with
  | some s => .ok { a with omni := false, current := a.current.insert layer s.beam }
  | none => .error (.missingBeam layer)

/-- The active beam of a layer. -/
def beam (a : AntennaArray R) (layer : UInt8) : Except (Fault R) (Beam R) :=
  match a.current[layer]? with
  | some b => .ok b
  | none => .error (.missingBeam layer)

/-- The beam last set for a peer on a layer. -/
def storedBeam? (a : AntennaArray R) (peer : NodeId) (layer : UInt8) : Option (Beam R) :=
  a.stored[(peer, layer)]?.map StoredBeam.beam

/-- When the beam for a peer on a layer was last set. -/
def updateTime? (a : AntennaArray R) (peer : NodeId) (layer : UInt8) : Option Nanoseconds :=
  a.stored[(peer, layer)]?.map StoredBeam.updatedAt

/-- Lets the array radiate without a beam, until one is set or selected. -/
def setOmni (a : AntennaArray R) : AntennaArray R := { a with omni := true }

/-! ## Digital combining -/

/-- Sets the digital combiner. -/
def setCombiner (a : AntennaArray R) (m : Combiner R) : AntennaArray R :=
  { a with combiner := some m }

/-- Removes the digital combiner. -/
def clearCombiner (a : AntennaArray R) : AntennaArray R := { a with combiner := none }

/-- Whether there is a digital combiner. -/
def isCombining (a : AntennaArray R) : Bool := a.combiner.isSome

end AntennaArray

/-- A radio: an endpoint and the array mounted on it. -/
structure Device (R : Type) where
  /-- Where the radio is and how it moves. -/
  endpoint : Endpoint R
  /-- Its antenna array. -/
  array : AntennaArray R

/-- The node of a device. -/
def Device.id {R : Type} (d : Device R) : NodeId := d.endpoint.id

end RadioChannel
