import RadioChannel.Antenna.Beam
import RadioChannel.Realization.Basic
import RadioChannel.Spectrum.Grid

/-!
# Gains of a link

What a link does to a signal, computed from its tensor. Projected on a pair of beams the tensor leaves
one coefficient for each cluster. At a given time and frequency each cluster is then rotated by its
Doppler shift and by its delay, and the clusters are added.

All functions take the caller's view of the link. On a reverse link the tensor is not transposed;
instead the beams and the velocities change places.
-/

namespace RadioChannel

open Scalar

namespace Realization

variable {R : Type} [Scalar R]

/-- The coefficient of a cluster between a receiving and a transmitting element. -/
def coefficient (m : Realization R) (rx tx cluster : Nat) : Phasor R :=
  (m.tensor.response rx tx)[cluster]?.getD .zero

/-- The coefficient of a cluster between two beams of the tensor's receiver and transmitter. -/
def projectCluster (m : Realization R) (tx rx : List (Phasor R)) (cluster : Nat) : Phasor R :=
  Phasor.sum (tx.zipIdx.map fun (wt, t) =>
    wt * Phasor.sum (rx.zipIdx.map fun (wr, r) => wr * m.coefficient r t cluster))

/-- The coefficients of all clusters between two beams. -/
def project (m : Realization R) (tx rx : List (Phasor R)) : Except (Fault R) (List (Phasor R)) :=
  match m.checkDimensions rx.length tx.length with
  | .error e => .error e
  | .ok () => .ok ((List.range m.clusterCount).map (m.projectCluster tx rx))

/-- The rotation of a cluster by the motion of both ends after `t` seconds. -/
def dopplerOf (txVelocity rxVelocity : Vec3 R) (t frequency : R) (d : Directions R) : Phasor R :=
  let arrival := Vec3.direction (radians d.zoa) (radians d.aoa)
  let departure := Vec3.direction (radians d.zod) (radians d.aod)
  Phasor.polar 1
    (turn * (arrival.dot rxVelocity + departure.dot txVelocity) * t * frequency / speedOfLight)

end Realization

/-- The rotation of a cluster by its delay at a frequency. -/
def delayRotation {R : Type} [Scalar R] (frequency delay : R) : Phasor R :=
  Phasor.polar 1 (-2 * pi * frequency * delay)

namespace Link

variable {R : Type} [Scalar R]

/-- The coefficients of all clusters between a beam of `a` and one of `b`. -/
def project (l : Link R) (a b : List (Phasor R)) : Except (Fault R) (List (Phasor R)) :=
  if l.reverse then l.realization.project b a else l.realization.project a b

/-- The rotations of all clusters by the motion of `a` and `b`, at a time. -/
def doppler (l : Link R) (frequency : R) (now : Nanoseconds) (a b : Vec3 R) : List (Phasor R) :=
  let (tx, rx) := if l.reverse then (b, a) else (a, b)
  l.realization.directions.map
    (Realization.dopplerOf tx rx (Nanoseconds.toSeconds now) frequency)

/-- The complex gain at each centre of a grid, from the coefficients of the clusters between two
beams and their Doppler rotations. -/
def gains (l : Link R) (projected doppler : List (Phasor R)) (grid : SpectrumGrid R) :
    List (Phasor R) :=
  let rotated := projected.zipWith (· * ·) doppler
  grid.centers.map fun frequency =>
    Phasor.sum (rotated.zipWith (fun c delay => c * delayRotation frequency delay)
      l.realization.delays)

/-- The channel between all elements at one frequency, by the caller's receiving and transmitting
elements. -/
def flatMatrix (l : Link R) (doppler : List (Phasor R)) (frequency : R) (rxCount txCount : Nat) :
    List (List (Phasor R)) :=
  let rotation := doppler.zipWith (fun d delay => d * delayRotation frequency delay)
    l.realization.delays
  (List.range rxCount).map fun r => (List.range txCount).map fun t =>
    Phasor.sum ((l.response r t).zipWith (· * ·) rotation)

end Link

end RadioChannel
