import RadioChannel.Scalar

/-!
# Vectors in space

Positions and velocities in metres and metres per second, and unit directions.
-/

namespace RadioChannel

open Scalar

/-- A vector in three dimensions; `z` points up. -/
structure Vec3 (R : Type) where
  /-- The first horizontal coordinate. -/
  x : R
  /-- The second horizontal coordinate. -/
  y : R
  /-- The height. -/
  z : R
deriving Repr, DecidableEq

namespace Vec3

variable {R : Type} [Scalar R]

/-- Two vectors are equal when their coordinates are, in the sense of the scalars. -/
instance : BEq (Vec3 R) where
  beq a b := a.x == b.x && a.y == b.y && a.z == b.z

/-- The zero vector. -/
def zero : Vec3 R := ⟨0, 0, 0⟩

instance : Add (Vec3 R) where
  add a b := ⟨a.x + b.x, a.y + b.y, a.z + b.z⟩

instance : Sub (Vec3 R) where
  sub a b := ⟨a.x - b.x, a.y - b.y, a.z - b.z⟩

/-- A vector scaled by a factor. -/
def scale (a : Vec3 R) (k : R) : Vec3 R := ⟨a.x * k, a.y * k, a.z * k⟩

/-- The scalar product. -/
def dot (a b : Vec3 R) : R := a.x * b.x + a.y * b.y + a.z * b.z

/-- The Euclidean length. -/
def norm (a : Vec3 R) : R := sqrt (a.dot a)

/-- The distance between two points. -/
def distance (a b : Vec3 R) : R := (a - b).norm

/-- The distance between two points seen from above. -/
def horizontalDistance (a b : Vec3 R) : R :=
  let dx := a.x - b.x
  let dy := a.y - b.y
  sqrt (dx * dx + dy * dy)

/-- The unit vector with the given zenith and azimuth in radians. -/
def direction (zenith azimuth : R) : Vec3 R :=
  ⟨sin zenith * cos azimuth, sin zenith * sin azimuth, cos zenith⟩

end Vec3

end RadioChannel
