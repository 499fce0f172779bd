import RadioChannel.Geometry.Bearing
import RadioChannel.Node

/-!
# Path loss

The large-scale loss of a link in free space, `20 log (4 pi d f / c)` decibels at distance `d`. Nodes
closer than a decimetre count as a decimetre apart.
-/

namespace RadioChannel

open Scalar

/-- Free space at a carrier frequency. -/
structure FreeSpace (R : Type) where
  /-- The carrier frequency in hertz. -/
  frequency : R

namespace FreeSpace

variable {R : Type} [Scalar R]

/-- The loss over a distance in decibels. -/
def lossDb (m : FreeSpace R) (distance : R) : R :=
  let d := larger distance 0.1
  20 * log10 (4 * pi * d * m.frequency / speedOfLight)

/-- The power in dBm received at `b` when `a` sends with the given power in dBm. -/
def receivedPower (m : FreeSpace R) (power : R) (a b : Endpoint R) : R :=
  power - m.lossDb (a.position.distance b.position)

/-- The amplitude received at `b` relative to what `a` sends at the reference power. -/
def amplitude (m : FreeSpace R) (reference : R) (a b : Endpoint R) : R :=
  tenTo ((m.receivedPower reference a b - reference) / 20)

end FreeSpace

end RadioChannel
