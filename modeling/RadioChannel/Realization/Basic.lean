import RadioChannel.Blockage.Blocker
import RadioChannel.Cluster.Tensor
import RadioChannel.Propagation.Condition
import RadioChannel.Time

/-!
# Realizations

One drawn channel between two nodes. It is drawn for one direction of the link and serves both: from
the other direction it is read with receiving and transmitting elements swapped.
-/

namespace RadioChannel

open Scalar

/-- A channel as drawn, from the node that transmitted to the one that received. -/
structure Realization (R : Type) where
  /-- The number of the realization; its generator gives each one a number of its own. -/
  serial : Nat
  /-- The coefficients by receiving element, transmitting element and cluster. -/
  tensor : Tensor R
  /-- Delay of each cluster in seconds, the appended sub-clusters last. -/
  delays : List R
  /-- Directions of each cluster in degrees, the appended sub-clusters last. -/
  directions : List (Directions R)
  /-- The condition it was drawn for. -/
  condition : Condition
  /-- When it was drawn. -/
  generatedAt : Nanoseconds
  /-- Delay spread in seconds. -/
  delaySpread : R
  /-- Ricean factor in decibels, zero without line of sight. -/
  riceanDb : R
  /-- Power of each cluster that was kept, after blockage. -/
  powers : List R
  /-- Random phases of the rays of each cluster that was kept. -/
  phases : List (List R)
  /-- Random phase of the direct ray. -/
  directPhase : R
  /-- The blockers around the terminal. -/
  blockers : List (Blocker R)
  /-- Where the terminal was. -/
  terminal : Vec3 R

namespace Realization

variable {R : Type}

/-- How many clusters were kept, sub-clusters not counted. -/
def keptClusters (m : Realization R) : Nat := m.powers.length

/-- How many clusters the tensor has, sub-clusters counted. -/
def clusterCount (m : Realization R) : Nat := m.delays.length

/-- Whether the tensor is made for so many receiving and transmitting elements. -/
def checkDimensions (m : Realization R) (rx tx : Nat) : Except (Fault R) Unit :=
  if m.tensor.rxCount = rx ∧ m.tensor.txCount = tx then .ok ()
  else .error (.dimensionMismatch rx tx m.tensor.rxCount m.tensor.txCount)

end Realization

/-- A realization as seen from one direction of its link. -/
structure Link (R : Type) where
  /-- The realization. -/
  realization : Realization R
  /-- Whether it was drawn for the other direction. -/
  reverse : Bool

namespace Link

variable {R : Type}

/-- How many elements the caller's receiver has in the tensor. -/
def rxCount (l : Link R) : Nat :=
  if l.reverse then l.realization.tensor.txCount else l.realization.tensor.rxCount

/-- How many elements the caller's transmitter has in the tensor. -/
def txCount (l : Link R) : Nat :=
  if l.reverse then l.realization.tensor.rxCount else l.realization.tensor.txCount

/-- The coefficients of all clusters between the caller's receiving and transmitting element. -/
def response (l : Link R) (rx tx : Nat) : List (Phasor R) :=
  if l.reverse then l.realization.tensor.response tx rx else l.realization.tensor.response rx tx

/-- Whether the tensor is made for the caller's arrays. -/
def checkDimensions (l : Link R) (rx tx : Nat) : Except (Fault R) Unit :=
  if l.reverse then l.realization.checkDimensions tx rx else l.realization.checkDimensions rx tx

end Link

end RadioChannel
