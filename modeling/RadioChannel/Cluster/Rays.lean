import RadioChannel.Cluster.Directions
import RadioChannel.Random.Shuffle

/-!
# Rays

Each cluster is spread into rays around its centre. Which angle of arrival goes with which angle of
departure is decided by shuffling each of the four lists of angles on its own, with seeds that depend
on the cluster and the list alone.
-/

namespace RadioChannel

open Scalar

/-- The angles of a cluster's rays in radians, as four lists. -/
structure RayFan (R : Type) where
  /-- Azimuths of arrival. -/
  aoa : List R
  /-- Zeniths of arrival. -/
  zoa : List R
  /-- Azimuths of departure. -/
  aod : List R
  /-- Zeniths of departure. -/
  zod : List R
deriving Repr

namespace RayFan

/-- The seed for a list of cluster `n`; the four lists have different tags. -/
def seed (n tag : Nat) : UInt64 := (n * 1000 + tag).toUInt64

/-- The fan of cluster `n` with its four lists shuffled. -/
def couple {R : Type} (n : Nat) (fan : RayFan R) : RayFan R where
  aoa := shuffle (seed n 200) fan.aoa
  zoa := shuffle (seed n 400) fan.zoa
  aod := shuffle (seed n 100) fan.aod
  zod := shuffle (seed n 300) fan.zod

/-- The rays of a fan: the angles at equal places of the four lists. -/
def rays {R : Type} (fan : RayFan R) : List (Directions R) :=
  ((fan.aoa.zip fan.zoa).zip (fan.aod.zip fan.zod)).map
    fun ((aoa, zoa), (aod, zod)) => ⟨aoa, zoa, aod, zod⟩

variable {R : Type} [Scalar R]

/-- The angles around a centre in degrees, wrapped and in radians. -/
def around (wrap : R → R) (offsets : List R) (spread centre : R) : List R :=
  offsets.map fun offset => radians (wrap (centre + spread * offset))

/-- The fan around the directions of a cluster in degrees, which need not be wrapped. The zenith
spread of departure within a cluster is three eighths of the median spread of all clusters. -/
def spread (table : ParameterTable R) (d : Directions R) : RayFan R :=
  let offsets := rayOffsets.take table.rays
  { aoa := around wrapAzimuth offsets table.clusterAzimuthArrival d.aoa
    zoa := around wrapZenith offsets table.clusterZenithArrival d.zoa
    aod := around wrapAzimuth offsets table.clusterAzimuthDeparture d.aod
    zod := around wrapZenith offsets (0.375 * tenTo table.zenithDeparture.mean) d.zod }

end RayFan

end RadioChannel
