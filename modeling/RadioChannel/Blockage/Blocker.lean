import RadioChannel.Geometry.Bearing
import RadioChannel.Geometry.ErrorFunction
import RadioChannel.Geometry.Wrap

/-!
# Obstructions

A terminal's own user hides a fixed region of directions from it. Other blockers are upright screens
at some distance; rays are diffracted around their four edges.
-/

namespace RadioChannel

open Scalar

/-- The region of directions that the user's body hides, in degrees. -/
structure SelfRegion (R : Type) where
  /-- Azimuth of the centre. -/
  azimuth : R
  /-- Width. -/
  width : R
  /-- Zenith of the centre. -/
  zenith : R
  /-- Height. -/
  height : R
deriving Repr

namespace SelfRegion

variable {R : Type} [Scalar R]

/-- The region of a terminal held upright. -/
def portrait : SelfRegion R := ⟨260, 120, 100, 80⟩

/-- The region of a terminal held sideways. -/
def landscape : SelfRegion R := ⟨40, 160, 110, 75⟩

/-- Whether a direction lies in the region, by the difference of the angles as they stand. -/
def contains (s : SelfRegion R) (azimuth zenith : R) : Bool :=
  lt (absolute (azimuth - s.azimuth)) (s.width / 2) &&
    lt (absolute (zenith - s.zenith)) (s.height / 2)

end SelfRegion

/-- The loss in decibels of a direction that the user's body hides. -/
def selfBlockingLoss {R : Type} [Scalar R] : R := 30

/-- A screen around the terminal. -/
structure Blocker (R : Type) where
  /-- A normal variable that stands for the azimuth of the centre. -/
  state : R
  /-- Width in degrees. -/
  width : R
  /-- Zenith of the centre in degrees. -/
  zenith : R
  /-- Height in degrees. -/
  height : R
  /-- Distance from the terminal in metres. -/
  distance : R
deriving Repr

namespace Blocker

variable {R : Type} [Scalar R]

/-- The azimuth of the centre in degrees: the distribution function of the state, over the full
circle. -/
def azimuth (b : Blocker R) : R :=
  wrapAzimuth (0.5 * erfc (-b.state / sqrt 2) * 360)

/-- The share of the diffracted field at an edge seen under `angle` degrees; `sign` says on which
side of the edge the ray passes. -/
def edgeShare (distance wavelength sign angle : R) : R :=
  let detour := pi / wavelength * distance * (1 / cos (radians angle) - 1)
  atan (sign * pi / 2 * sqrt detour) / pi

/-- The signs at the two edges of an interval of the given width around the blocker's centre, for a
ray that is `offset` off the centre: negative at the edge beyond which the ray passes. -/
def edgeSigns (width offset : R) : R × R :=
  (if lt (width / 2) offset && le offset width then -1 else 1,
    if lt (-width) offset && le offset (-width / 2) then -1 else 1)

/-- Whether a direction is near enough to be affected. -/
def shadows (b : Blocker R) (azimuth zenith : R) : Bool :=
  !(le b.width (absolute (azimuth - b.azimuth)) || le b.height (absolute (zenith - b.zenith)))

/-- The part of the field that the screen takes away from a direction. -/
def shadow (b : Blocker R) (azimuth zenith wavelength : R) : R :=
  let centre := b.azimuth
  let (right, left) := edgeSigns b.width (azimuth - centre)
  let (low, high) := edgeSigns b.height (zenith - b.zenith)
  let share := edgeShare b.distance wavelength
  (share right (azimuth - (centre + b.width / 2)) + share left (azimuth - (centre - b.width / 2))) *
    (share low (zenith - (b.zenith + b.height / 2)) +
      share high (zenith - (b.zenith - b.height / 2)))

/-- The diffraction loss of a direction in decibels, where the screen affects it. -/
def loss? (b : Blocker R) (azimuth zenith wavelength : R) : Option R :=
  if b.shadows azimuth zenith then
    some (-20 * log10 (1 - b.shadow azimuth zenith wavelength))
  else none

end Blocker

end RadioChannel
