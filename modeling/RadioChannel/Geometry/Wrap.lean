import RadioChannel.Scalar

/-!
# Wrapping angles

Cluster angles are kept as azimuths in `[0, 360]` and zeniths in `[0, 180]` degrees. Whole turns are
taken off one by one. The number of turns is bounded by the size of the angle, which is the fuel of
both loops.
-/

namespace RadioChannel

open Scalar

variable {R : Type} [Scalar R]

/-- Takes off full turns while the angle is above one, at most `fuel` of them. -/
def unwindDown : Nat → R → R
  | 0, angle => angle
  | fuel + 1, angle => if lt 360 angle then unwindDown fuel (angle - 360) else angle

/-- Adds full turns while the angle is negative, at most `fuel` of them. -/
def unwindUp : Nat → R → R
  | 0, angle => angle
  | fuel + 1, angle => if lt angle 0 then unwindUp fuel (angle + 360) else angle

/-- More turns than an angle of this size can hold. -/
def turnBound (angle : R) : Nat := wholeUnits (absolute angle) + 2

/-- The azimuth in `[0, 360]` degrees that names the same direction. Both ends of the interval are
kept as they are. -/
def wrapAzimuth (angle : R) : R :=
  unwindUp (turnBound angle) (unwindDown (turnBound angle) angle)

/-- The zenith in `[0, 180]` degrees that names the same direction: past the nadir it is reflected. -/
def wrapZenith (angle : R) : R :=
  let wrapped := wrapAzimuth angle
  if lt 180 wrapped then 360 - wrapped else wrapped

end RadioChannel
