import RadioChannel.Phasor

/-!
# Fourier sums

The inverse Fourier transform of a line of `n` samples, without normalization: at frequency `k` it is
the sum of the samples `x j`, each turned by `j * k` of `n` parts of a turn.

The sum is arranged so that symmetric samples give equal powers also in floating point, where a beam
search has to find the first of several equally strong beams. A line of even length is split into its
two halves of alternate samples, and whole quarters of a turn exchange the parts of a phasor instead of
multiplying it; so lines of one, two and four samples are transformed by additions alone. In a line of
odd length the samples at equal distance from the first one are added and subtracted before they are
weighted.
-/

namespace RadioChannel

open Scalar

variable {R : Type} [Scalar R]

/-- A phasor turned by a number of quarters of a turn. -/
def Phasor.quarterTurns (z : Phasor R) (quarters : Nat) : Phasor R :=
  match quarters % 4 with
  | 0 => z
  | 1 => ⟨-z.im, z.re⟩
  | 2 => ⟨-z.re, -z.im⟩
  | _ => ⟨z.im, -z.re⟩

/-- A phasor turned by `k` of `n` parts of a turn: the angle beyond the last whole quarter by a
product, the whole quarters exactly. The sine of an angle within a quarter is the cosine of the rest of
the quarter. -/
def Phasor.turned (z : Phasor R) (n k : Nat) : Phasor R :=
  let beyond := 4 * k % n
  let cosine (m : Nat) : R := cos (turn / Scalar.ofNat (4 * n) * Scalar.ofNat m)
  let z := if beyond = 0 then z else z * ⟨cosine beyond, cosine (n - beyond)⟩
  z.quarterTurns (4 * k / n)

namespace Fourier

/-! ## Lines of odd length -/

/-- The cosine of `k` of `n` parts of a turn, the same one for angles on both sides of the axis. -/
def cosine (n k : Nat) : R :=
  let parts := k % n
  cos (turn / Scalar.ofNat n * Scalar.ofNat (min parts (n - parts)))

/-- The sine of `k` of `n` parts of a turn, opposite ones for angles on both sides of the axis. -/
def sine (n k : Nat) : R :=
  let parts := k % n
  if 2 * parts ≤ n then sin (turn / Scalar.ofNat n * Scalar.ofNat parts)
  else -sin (turn / Scalar.ofNat n * Scalar.ofNat (n - parts))

/-- The samples at equal distance after and before the first one of a line of odd length, with their
distance. -/
def mirrored (line : List (Phasor R)) : List ((Phasor R × Phasor R) × Nat) :=
  ((line.tail.zip line.tail.reverse).take (line.length / 2)).zipIdx 1

/-- The transform of a line of odd length at a frequency. The cosine turns the sum of a mirrored pair
along the first sample, the sine turns its difference across; at frequency zero nothing is turned. -/
def oddLineAt (line : List (Phasor R)) (frequency : Nat) : Phasor R :=
  let n := line.length
  let along := line.headD Phasor.zero + Phasor.sum ((mirrored line).map fun ((after, before), j) =>
    (after + before).scale (cosine n (j * frequency)))
  let across := Phasor.sum ((mirrored line).map fun ((after, before), j) =>
    (after - before).scale (sine n (j * frequency)))
  if frequency % n = 0 then along else along + across.quarterTurns 1

/-! ## All lines -/

/-- Every second sample of a line, from the first one on. -/
def alternate {α : Type} : List α → List α
  | x :: _ :: rest => x :: alternate rest
  | rest => rest

/-- The number of alternate samples is half the length, rounded up. -/
@[simp] theorem length_alternate {α : Type} : (line : List α) →
    (alternate line).length = (line.length + 1) / 2
  | [] => by simp [alternate]
  | [_] => by simp [alternate]
  | _ :: _ :: rest => by
    simp only [alternate, List.length_cons, length_alternate rest]
    omega

/-- The place of the sample that the second half of a line of `n` samples starts from. From the middle
of the line it is turned by whole half turns; that is possible when the middle is odd. -/
def secondStart (n : Nat) : Nat :=
  if n % 4 = 0 then 1 else n / 2

/-- The line read from a place on and around. -/
def readFrom {α : Type} (start : Nat) (line : List α) : List α :=
  line.drop start ++ line.take start

/-- Reading around keeps the length. -/
@[simp] theorem length_readFrom {α : Type} (start : Nat) (line : List α) :
    (readFrom start line).length = line.length := by
  simp only [readFrom, List.length_append, List.length_drop, List.length_take]
  omega

/-- The transform of a line of samples at a frequency. -/
def lineAt (line : List (Phasor R)) (frequency : Nat) : Phasor R :=
  if 0 < line.length ∧ line.length % 2 = 0 then
    let start := secondStart line.length
    lineAt (alternate line) frequency +
      (lineAt (alternate (readFrom start line)) frequency).turned line.length (start * frequency)
  else oddLineAt line frequency
termination_by line.length
decreasing_by all_goals (simp; omega)

end Fourier

end RadioChannel
