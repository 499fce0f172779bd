import RadioChannel.Action
import RadioChannel.Cluster.Profile
import RadioChannel.Geometry.Link
import RadioChannel.Geometry.Wrap

/-!
# Cluster directions

Where clusters arrive from and depart to, in degrees. Weak clusters lie further off the direct path.
With line of sight the first cluster is put onto the direct path and all others move along.
-/

namespace RadioChannel

open Scalar

/-- The directions of a cluster or of a ray at both ends of a link. -/
structure Directions (R : Type) where
  /-- Azimuth of arrival. -/
  aoa : R
  /-- Zenith of arrival. -/
  zoa : R
  /-- Azimuth of departure. -/
  aod : R
  /-- Zenith of departure. -/
  zod : R
deriving Repr

namespace Directions

variable {R : Type} [Scalar R]

/-- The direct path in degrees. -/
def direct (g : LinkGeometry R) : Directions R where
  aoa := degrees g.arrival.azimuth
  zoa := degrees g.arrival.zenith
  aod := degrees g.departure.azimuth
  zod := degrees g.departure.zenith

/-- The difference of two directions, angle by angle. -/
def minus (a b : Directions R) : Directions R :=
  ⟨a.aoa - b.aoa, a.zoa - b.zoa, a.aod - b.aod, a.zod - b.zod⟩

/-- Azimuths in `[0, 360]` and zeniths in `[0, 180]`. -/
def wrap (d : Directions R) : Directions R :=
  ⟨wrapAzimuth d.aoa, wrapZenith d.zoa, wrapAzimuth d.aod, wrapZenith d.zod⟩

/-! ## Drawing -/

/-- The factors between spreads and cluster angles. -/
structure Shape (R : Type) where
  /-- For azimuths. -/
  azimuth : R
  /-- For zeniths. -/
  zenith : R

/-- The factors of a table. With line of sight they are multiplied by cubics in the Ricean factor in
decibels. -/
def Shape.ofTable (table : ParameterTable R) (los : Bool) (k : R) :
    Except (Fault R) (Shape R) := do
  let azimuth ← azimuthScaling table.clusters
  let zenith ← zenithScaling table.clusters
  if los then
    return ⟨azimuth * (1.1035 - 0.028 * k - 2e-3 * square k + 1e-4 * cube k),
      zenith * (1.3086 + 0.0339 * k - 0.0077 * square k + 2e-4 * cube k)⟩
  else
    return ⟨azimuth, zenith⟩

/-- The centres around which cluster angles are drawn: the direct path, except that links into
buildings arrive around the horizon. -/
def centre (o2i : Bool) (direct : Directions R) : Directions R :=
  { direct with zoa := if o2i then 90 else direct.zoa }

/-- An angle off its centre: by the cluster's own distance to one side, and by a random share of the
spread. -/
def scatter (offset side spread sample centre : R) : R :=
  offset * side + sample * spread / 7 + centre

/-- The directions of a cluster with the given share of the greatest power. -/
def drawOne (table : ParameterTable R) (scale : LargeScale R) (shape : Shape R)
    (centre : Directions R) (share : R) : Draw R (Directions R) := do
  let azimuthShape := sqrt (-(ln share)) / 1.4 / shape.azimuth
  let zenithShape := -(ln share) / shape.zenith
  let side : R := if lt (← Draw.uniform) 0.5 then -1 else 1
  let aoa ← Draw.normal
  let aod ← Draw.normal
  let zoa ← Draw.normal
  let zod ← Draw.normal
  return {
    aoa := scatter (2 * scale.azimuthArrival * azimuthShape) side scale.azimuthArrival aoa centre.aoa
    zoa := scatter (scale.zenithArrival * zenithShape) side scale.zenithArrival zoa centre.zoa
    aod :=
      scatter (2 * scale.azimuthDeparture * azimuthShape) side scale.azimuthDeparture aod centre.aod
    zod :=
      scatter (scale.zenithDeparture * zenithShape) side scale.zenithDeparture zod centre.zod
        + table.zenithOffset }

/-- Moves all clusters so that the first one lies on the direct path. -/
def anchor (direct : Directions R) : List (Directions R) → Except (Fault R) (List (Directions R))
  | [] => .error (.breach .indexInRange)
  | first :: rest =>
    let shift := first.minus direct
    .ok ((first :: rest).map (·.minus shift))

/-- The directions of the clusters of a profile, not yet wrapped. -/
def draw (table : ParameterTable R) (los o2i : Bool) (geometry : LinkGeometry R)
    (scale : LargeScale R) (profile : Profile R) :
    Action R (RandomSource R) (List (Directions R)) := do
  let shape ← Shape.ofTable table los scale.riceanDb
  let path := direct geometry
  let drawn ← (profile.taps.mapM fun t =>
    drawOne table scale shape (centre o2i path) (t.anglePower / profile.peak) :
      Draw R (List (Directions R)))
  if los then anchor path drawn else return drawn

end Directions

end RadioChannel
