import RadioChannel.Blockage.Model
import RadioChannel.Realization.Basic

/-!
# Drawing realizations

A realization is drawn in a fixed order of random samples: large-scale parameters, delays, powers,
directions, blockers, phases of the rays, phase of the direct ray. Everything else is computed from
these samples.
-/

namespace RadioChannel

open Scalar

/-- What a realization depends on, its random samples apart. -/
structure RealizationContext (R : Type) where
  /-- The number that the realization is given. -/
  serial : Nat
  /-- The statistics. -/
  table : ParameterTable R
  /-- The condition of the link. -/
  condition : Condition
  /-- The geometry of the link. -/
  geometry : LinkGeometry R
  /-- The panel of the receiver. -/
  rx : Panel R
  /-- The panel of the transmitter. -/
  tx : Panel R
  /-- Carrier frequency in hertz. -/
  frequency : R
  /-- The time of the draw. -/
  now : Nanoseconds
  /-- How links are blocked, if they are. -/
  blockage : Option (BlockageModel R)
  /-- The last realization of the link, whose blockers are kept. -/
  previous : Option (Realization R)

namespace RealizationContext

variable {R : Type} [Scalar R]

/-! ## Blockage -/

/-- The blockers of the link: those of the last realization, drifted, if it had any, and else new
ones. -/
def drawBlockers (c : RealizationContext R) (m : BlockageModel R) : Draw R (List (Blocker R)) :=
  match c.previous with
  | some previous =>
    if previous.blockers.isEmpty then m.spawn
    else
      m.drift previous.blockers (previous.terminal.horizontalDistance c.geometry.terminal)
        (Nanoseconds.toSeconds (c.now - previous.generatedAt)) c.condition.o2i
  | none => m.spawn

/-- The blockers of the link, and the loss in decibels of each cluster. Without a blockage model
there are no blockers and no losses. -/
def drawBlockage (c : RealizationContext R) (directions : List (Directions R)) :
    Draw R (List (Blocker R) × List R) := do
  match c.blockage with
  | none => return ([], [])
  | some m =>
    let blockers ← c.drawBlockers m
    return (blockers, directions.map fun d => m.attenuation blockers c.frequency d.aoa d.zoa)

/-- Powers after the losses of their clusters; without losses they stay as they are. -/
def attenuate (powers losses : List R) : List R :=
  match losses with
  | [] => powers
  | _ => powers.zipWith (fun p loss => p / tenTo (loss / 10)) losses

/-! ## Phases -/

/-- A phase uniform over the circle. -/
def drawPhase : Draw R R := Draw.uniformIn (-pi) pi

/-- The random phases of the rays of so many clusters. -/
def drawPhases (c : RealizationContext R) (clusters : Nat) : Draw R (List (List R)) :=
  Draw.times clusters (Draw.times c.table.rays drawPhase)

/-! ## Coefficients -/

/-- The rays of cluster `n`: its fan, coupled, with its random phases. -/
def raysOf (c : RealizationContext R) (n : Nat) (d : Directions R) (phases : List R) :
    List (Ray R) :=
  ((RayFan.spread c.table d).couple n).rays.zipWith (Ray.ofDirections c.rx c.tx) phases

/-- The clusters with their rays. Directions are those before wrapping. -/
def rayClusters (c : RealizationContext R) (directions : List (Directions R))
    (phases : List (List R)) (powers : List R) : List (RayCluster R) :=
  let split := splitClusters powers
  (directions.zip (phases.zip powers)).zipIdx.map fun ((d, (phase, power)), n) =>
    RayCluster.ofRays (c.raysOf n d phase) c.table.rays power (split.contains n)

/-- The tensor of the scattered clusters, and of the direct ray if there is line of sight. -/
def tensor (c : RealizationContext R) (scale : LargeScale R) (clusters : List (RayCluster R))
    (directPhase directLoss : R) : Tensor R :=
  let scattered := Tensor.ofClusters c.rx c.tx clusters
  if c.condition.los then
    scattered.withDirectRay c.rx c.tx
      (.ofGeometry c.rx c.tx c.geometry scale.ricean directPhase directLoss)
  else scattered

/-- A list with two entries appended for each split cluster, made from the cluster's own entry. -/
def withSubClusters {α : Type} (split : List Nat) (f : α → List α) (xs : List α) :
    Except (Fault R) (List α) := do
  let sources ← split.mapM (entryAt xs)
  return xs ++ sources.flatMap f

/-- The delays of the two sub-clusters of a cluster with the given delay. -/
def subClusterDelays (c : RealizationContext R) (delay : R) : List R :=
  [delay + 1.28 * c.table.clusterDelay, delay + 2.56 * c.table.clusterDelay]

/-! ## The realization -/

/-- Draws a realization. -/
def draw (c : RealizationContext R) : Action R (RandomSource R) (Realization R) := do
  let los := c.condition.los
  let correlated ← (LargeScale.drawCorrelated c.table : Draw R (List R))
  let scale ← LargeScale.ofCorrelated c.table los correlated
  let profile ← (Profile.draw c.table los scale : Draw R (Profile R))
  let unwrapped ← Directions.draw c.table los c.condition.o2i c.geometry scale profile
  let wrapped := unwrapped.map Directions.wrap
  let (blockers, losses) ← (c.drawBlockage wrapped : Draw R _)
  let powers := attenuate (profile.taps.map Tap.power) losses
  let phases ← (c.drawPhases powers.length : Draw R _)
  let directPhase ← (drawPhase : Draw R R)
  let clusters := c.rayClusters unwrapped phases powers
  let split := splitClusters powers
  let delays ← (withSubClusters split c.subClusterDelays (profile.taps.map Tap.delay) :
    Except (Fault R) _)
  let directions ← (withSubClusters split (fun d => [d, d]) wrapped : Except (Fault R) _)
  return {
    serial := c.serial
    tensor := c.tensor scale clusters directPhase (losses.head?.getD 0)
    delays := delays
    directions := directions
    condition := c.condition
    generatedAt := c.now
    delaySpread := scale.delaySpread
    riceanDb := scale.riceanDb
    powers := powers
    phases := phases
    directPhase := directPhase
    blockers := blockers
    terminal := c.geometry.terminal }

end RealizationContext

end RadioChannel
