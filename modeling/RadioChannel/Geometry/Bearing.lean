import RadioChannel.Geometry.Vec3

/-!
# Bearings

The direction of one point as seen from another, as azimuth and zenith, and the phase a plane wave
from that direction has at a point given in wavelengths.
-/

namespace RadioChannel

open Scalar

/-- A direction in radians. -/
structure Bearing (R : Type) where
  /-- Azimuth in `(-pi, pi]`, measured from the `x` axis. -/
  azimuth : R
  /-- Zenith in `[0, pi]`, measured from the vertical. -/
  zenith : R
deriving Repr, DecidableEq

namespace Bearing

variable {R : Type} [Scalar R]

/-- The direction of `target` seen from `origin`. The zenith means nothing when the two points
coincide. -/
def between (target origin : Vec3 R) : Bearing R :=
  let d := target - origin
  ⟨atan2 d.y d.x, acos (d.z / d.norm)⟩

/-- The unit vector that points in this direction. -/
def toVec3 (b : Bearing R) : Vec3 R := Vec3.direction b.zenith b.azimuth

end Bearing

/-- The phase at `location`, in wavelengths, of a plane wave along the given direction. -/
def phaseRamp {R : Type} [Scalar R] (zenith azimuth : R) (location : Vec3 R) : R :=
  turn * (Vec3.direction zenith azimuth).dot location

/-- The speed of light in metres per second. -/
def speedOfLight {R : Type} [Scalar R] : R := 300000000

end RadioChannel
