import RadioChannel.Antenna.Panel
import RadioChannel.Cluster.Rays
import RadioChannel.Phasor

/-!
# Channel tensors

The channel between every pair of elements, cluster by cluster: the sum of the cluster's rays, each
with the gain and the random phase it has at the first elements and the phase ramps of a plane wave
at both ends.

The two strongest clusters are split: of their rays three groups are formed, of which the first keeps
the cluster's place and the other two are appended as sub-clusters, cluster by cluster.
-/

namespace RadioChannel

open Scalar

/-- For each receiving and each transmitting element the coefficients of all clusters. -/
abbrev Tensor (R : Type) := List (List (List (Phasor R)))

namespace Tensor

/-- How many receiving elements the tensor has. -/
def rxCount {R : Type} (h : Tensor R) : Nat := h.length

/-- How many transmitting elements the tensor has; none where there is no receiving one. -/
def txCount {R : Type} (h : Tensor R) : Nat := (h.head?.map List.length).getD 0

/-- The coefficients of all clusters for a pair of elements; none outside the tensor. -/
def response {R : Type} (h : Tensor R) (rx tx : Nat) : List (Phasor R) :=
  ((h[rx]?.getD [])[tx]?).getD []

end Tensor

/-! ## Rays -/

/-- A ray as elements see it. -/
structure Ray (R : Type) where
  /-- Amplitude and phase at the first elements. -/
  gain : Phasor R
  /-- Wave vector toward the direction of arrival. -/
  arrival : Vec3 R
  /-- Wave vector toward the direction of departure. -/
  departure : Vec3 R

namespace Ray

variable {R : Type} [Scalar R]

/-- The product of the gains of both panels. -/
def patternGain (rx tx : Panel R) (d : Directions R) : R :=
  rx.pattern d.zoa d.aoa * tx.pattern d.zod d.aod

/-- The ray with the given directions in radians and a random phase. -/
def ofDirections (rx tx : Panel R) (d : Directions R) (phase : R) : Ray R where
  gain := Phasor.polar (patternGain rx tx d) phase
  arrival := (Vec3.direction d.zoa d.aoa).scale turn
  departure := (Vec3.direction d.zod d.aod).scale turn

/-- The phase between the first elements and those at two locations. -/
def phaseAt (r : Ray R) (rx tx : Vec3 R) : R := r.arrival.dot rx + r.departure.dot tx

/-- The ray between the elements at two locations. -/
def between (r : Ray R) (rx tx : Vec3 R) : Phasor R :=
  r.gain * Phasor.polar 1 (r.phaseAt rx tx)

/-- The sum of rays between the elements at two locations. -/
def total (rays : List (Ray R)) (rx tx : Vec3 R) : Phasor R :=
  Phasor.sum (rays.map (·.between rx tx))

end Ray

/-! ## Sub-clusters -/

/-- The sub-cluster of a ray within a split cluster. -/
inductive Part where
  /-- The rays that keep the cluster's place. -/
  | first
  /-- The rays of the first appended sub-cluster. -/
  | second
  /-- The rays of the second appended sub-cluster. -/
  | third
deriving Repr, DecidableEq

/-- The sub-cluster of the ray with an index. -/
def Part.ofRay (ray : Nat) : Part :=
  if ray ∈ [9, 10, 11, 12, 17, 18] then second
  else if ray ∈ [13, 14, 15, 16] then third
  else first

/-- A cluster's rays in three groups. -/
structure RayCluster (R : Type) where
  /-- The rays that keep the cluster's place. -/
  first : List (Ray R)
  /-- The rays of the first appended sub-cluster. -/
  second : List (Ray R)
  /-- The rays of the second appended sub-cluster. -/
  third : List (Ray R)
  /-- The square root of the power of a ray. -/
  amplitude : R
  /-- Whether the cluster is split. -/
  split : Bool

namespace RayCluster

variable {R : Type} [Scalar R]

/-- The rays of one sub-cluster, in order. -/
def group (rays : List (Ray R)) (p : Part) : List (Ray R) :=
  (rays.zipIdx.filter fun r => Part.ofRay r.2 = p).map Prod.fst

/-- The cluster of the given rays, which share a power among `count`. -/
def ofRays (rays : List (Ray R)) (count : Nat) (power : R) (split : Bool) : RayCluster R where
  first := group rays .first
  second := group rays .second
  third := group rays .third
  amplitude := sqrt (power / Scalar.ofNat count)
  split := split

/-- The coefficient in the cluster's own place: of the whole cluster, or of its first group if it is
split. -/
def main (c : RayCluster R) (rx tx : Vec3 R) : Phasor R :=
  let rays :=
    if c.split then Ray.total c.first rx tx
    else Ray.total c.first rx tx + Ray.total c.second rx tx + Ray.total c.third rx tx
  rays.scale c.amplitude

/-- The coefficients of the appended sub-clusters, if the cluster is split. -/
def appended (c : RayCluster R) (rx tx : Vec3 R) : List (Phasor R) :=
  if c.split then
    [(Ray.total c.second rx tx).scale c.amplitude, (Ray.total c.third rx tx).scale c.amplitude]
  else []

end RayCluster

/-! ## Strongest clusters -/

section Strongest

variable {R : Type} [Scalar R]

/-- The first index of the greatest positive power among those that are not skipped; zero if there is
none. -/
def strongestOf (powers : List R) (skip : Nat → Bool) : Nat :=
  (powers.zipIdx.foldl
    (fun (best : Nat × R) (p, n) => if !skip n && lt best.2 p then (n, p) else best) (0, 0)).1

/-- The indices of the strongest and of the second strongest cluster. -/
def strongestTwo (powers : List R) : Nat × Nat :=
  let first := strongestOf powers fun _ => false
  (first, strongestOf powers (· == first))

/-- The indices of the clusters that are split, in ascending order. -/
def splitClusters (powers : List R) : List Nat :=
  let (first, second) := strongestTwo powers
  if first = second then [first] else [min first second, max first second]

end Strongest

namespace Tensor

variable {R : Type} [Scalar R]

/-- The coefficients of all clusters between two elements, the appended sub-clusters last. -/
def cell (clusters : List (RayCluster R)) (rx tx : Vec3 R) : List (Phasor R) :=
  clusters.map (·.main rx tx) ++ clusters.flatMap (·.appended rx tx)

/-- The tensor of scattered clusters between two panels. -/
def ofClusters (rx tx : Panel R) (clusters : List (RayCluster R)) : Tensor R :=
  let txLocations := tx.elementLocations
  rx.elementLocations.map fun u => txLocations.map fun s => cell clusters u s

/-! ## The direct ray -/

/-- The direct ray of a realization. -/
structure DirectRay (R : Type) where
  /-- The product of the gains of both panels. -/
  gain : R
  /-- Wave vector toward the direction of arrival. -/
  arrival : Vec3 R
  /-- Wave vector toward the direction of departure. -/
  departure : Vec3 R
  /-- Its random phase at the first elements. -/
  phase : R
  /-- Its amplitude. -/
  amplitude : R
  /-- The factor of all scattered coefficients beside it. -/
  diffuse : R

/-- The direct ray along the line between both ends. Scattered and direct power have the proportion
of the Ricean factor `k`; the direct ray is attenuated like the first cluster. -/
def DirectRay.ofGeometry (rx tx : Panel R) (g : LinkGeometry R) (k phase attenuation : R) :
    DirectRay R :=
  let d : Directions R :=
    ⟨g.arrival.azimuth, g.arrival.zenith, g.departure.azimuth, g.departure.zenith⟩
  { gain := Ray.patternGain rx tx d
    arrival := (Vec3.direction d.zoa d.aoa).scale turn
    departure := (Vec3.direction d.zod d.aod).scale turn
    phase := phase
    amplitude := sqrt (k / (k + 1)) / tenTo (attenuation / 10)
    diffuse := sqrt (1 / (k + 1)) }

/-- The direct ray between the elements at two locations, before its amplitude. -/
def DirectRay.between (r : DirectRay R) (rx tx : Vec3 R) : Phasor R :=
  Phasor.polar r.gain (r.phase + r.arrival.dot rx + r.departure.dot tx)

/-- The direct ray added to the first cluster of a pair of elements. -/
def DirectRay.blend (r : DirectRay R) (rx tx : Vec3 R) (cell : List (Phasor R)) : List (Phasor R) :=
  match cell.map (·.scale r.diffuse) with
  | [] => []
  | first :: rest => (first + (r.between rx tx).scale r.amplitude) :: rest

/-- The tensor with the direct ray added. -/
def withDirectRay (h : Tensor R) (rx tx : Panel R) (r : DirectRay R) : Tensor R :=
  let txLocations := tx.elementLocations
  rx.elementLocations.zipWith
    (fun u row => txLocations.zipWith (fun s cell => r.blend u s cell) row) h

end Tensor

end RadioChannel
