import RadioChannel.Geometry.Bearing

/-!
# Link geometry

How the two ends of a link lie to each other. The lower end is taken for the terminal.
-/

namespace RadioChannel

open Scalar

/-- The geometry of a link at one moment. -/
structure LinkGeometry (R : Type) where
  /-- The receiver as seen from the transmitter. -/
  departure : Bearing R
  /-- The transmitter as seen from the receiver. -/
  arrival : Bearing R
  /-- Horizontal distance in metres. -/
  distance : R
  /-- Height of the higher end. -/
  upperHeight : R
  /-- Height of the lower end. -/
  lowerHeight : R
  /-- Position of the lower end. -/
  terminal : Vec3 R

/-- The geometry of the link from a transmitter to a receiver. -/
def LinkGeometry.between {R : Type} [Scalar R] (tx rx : Vec3 R) : LinkGeometry R where
  departure := Bearing.between rx tx
  arrival := Bearing.between tx rx
  distance := tx.horizontalDistance rx
  upperHeight := larger tx.z rx.z
  lowerHeight := smaller tx.z rx.z
  terminal := if le tx.z rx.z then tx else rx

end RadioChannel
