import RadioChannel.Antenna.Beam
import RadioChannel.Antenna.Panel
import RadioChannel.Geometry.Bearing

/-!
# Steering

The beam that adds up, at all elements of a panel, a plane wave along the straight line to the peer.
-/

namespace RadioChannel

open Scalar

variable {R : Type} [Scalar R]

/-- The weights of equal modulus and unit norm that cancel the phase ramp of a direction. -/
def Panel.steeringWeights (p : Panel R) (b : Bearing R) : List (Phasor R) :=
  p.elementLocations.map fun location =>
    Phasor.polar (1 / sqrt (Scalar.ofNat p.elementCount)) (-phaseRamp b.zenith b.azimuth location)

/-- The beam from one position straight to another. The two differ. -/
def Panel.steer (p : Panel R) (own peer : Vec3 R) : Beam R :=
  let b := Bearing.between peer own
  ⟨p.steeringWeights b, .geometric (degrees b.azimuth) (degrees b.zenith)⟩

end RadioChannel
