import RadioChannel.Antenna.Panel
import RadioChannel.Beamforming.Fourier
import RadioChannel.Linear.Matrix

/-!
# Codebook beams

Codebook beam `k` of a panel of `d1` columns and `d2` rows is the two-dimensional inverse Fourier
vector of frequency `(k % d1, k / d1)`. The channel between all pairs of codebook beams at both ends
is therefore an inverse Fourier transform of the channel between elements, along the four axes of the
two panels. Products of indices are taken in machine words, which matters only for beams beyond the
last one and for panels too large to exist.
-/

namespace RadioChannel

open Scalar

namespace Codebook

variable {R : Type} [Scalar R]

/-! ## Beams -/

/-- The product of two indices in a machine word. -/
def indexProduct (a b : Nat) : Nat := a * b % UInt64.size

/-- The phase of element `i` in beam `k`. -/
def phase (size : PanelSize) (k i : Nat) : R :=
  turn *
    (Scalar.ofNat (indexProduct (k % size.columns) (i % size.columns)) / Scalar.ofNat size.columns +
      Scalar.ofNat (indexProduct (k / size.columns) (i / size.columns)) / Scalar.ofNat size.rows)

/-- The weights of beam `k`, of unit norm. -/
def weights (size : PanelSize) (k : Nat) : List (Phasor R) :=
  (List.range size.wordCount).map fun i =>
    Phasor.polar (1 / sqrt (Scalar.ofNat size.wordCount)) (phase size k i)

theorem length_weights (size : PanelSize) (k : Nat) :
    (weights size k : List (Phasor R)).length = size.wordCount := by
  rw [weights, List.length_map, List.length_range]

/-- The weights of beam `k` of a panel that has columns. -/
def beam (size : PanelSize) (k : Nat) : Except (Fault R) (List (Phasor R)) :=
  if size.columns = 0 then .error (.breach .panelNotEmpty) else .ok (weights size k)

/-! ## The transform -/

/-- The transform along one axis of flat data: the samples of a line are `length` many and `stride`
apart, and each is replaced by the transform of its line at its own place. -/
def transformAlong (length stride : Nat) (data : List (Phasor R)) :
    Except (Fault R) (List (Phasor R)) :=
  if length ≤ 1 then .ok data
  else
    let samples := data.toArray
    (List.range data.length).mapM fun i => do
      let place := i / stride % length
      let start := i - place * stride
      let line ← (List.range length).mapM fun k =>
        match samples[start + k * stride]? with
        | some x => .ok x
        | none => .error (.breach .indexInRange)
      return Fourier.lineAt line place

/-- Flat data as rows of a length, the last of which may be shorter. -/
def rowsOf (length : Nat) (data : List (Phasor R)) : Matrix R :=
  (List.range ((data.length + length - 1) / length)).map fun i =>
    (data.drop (i * length)).take length

/-- The channel between all codebook beams of two panels, by receiving and transmitting beam, from
the channel between their elements: `sqrt (nr nt) b h a` for receiving beam `b` and transmitting beam
`a`. -/
def equivalent (h : Matrix R) (rx tx : PanelSize) : Except (Fault R) (Matrix R) :=
  let nr := rx.wordCount
  let nt := tx.wordCount
  if h.length ≠ nr ∨ h.columns ≠ nt then
    .error (.dimensionMismatch nr nt h.length h.columns)
  else do
    let data ← transformAlong tx.columns 1 h.flatten
    let data ← transformAlong tx.rows tx.columns data
    let data ← transformAlong rx.columns nt data
    let data ← transformAlong rx.rows (indexProduct nt rx.columns) data
    if nt = 0 then .error (.breach .panelNotEmpty) else .ok (rowsOf nt data)

/-! ## Search -/

/-- A pair of codebook indices. -/
structure BeamPair where
  /-- The index at the transmitter. -/
  tx : Nat
  /-- The index at the receiver. -/
  rx : Nat
deriving Repr, DecidableEq

/-- A pair that is not blocked replaces the best one so far if it is stronger. -/
def better (blocked : List Nat) (best : Option (BeamPair × R)) (pair : BeamPair) (power : R) :
    Option (BeamPair × R) :=
  if blocked.contains pair.tx then best
  else
    match best with
    | none => some (pair, power)
    | some (_, p) => if lt p power then some (pair, power) else best

/-- All pairs of beams with their powers, row by row. -/
def powers (g : Matrix R) : List (BeamPair × R) :=
  g.zipIdx.flatMap fun (row, rx) => row.zipIdx.map fun (z, tx) => (⟨tx, rx⟩, z.normSq)

/-- The strongest pair of beams whose transmitting beam is not blocked, the first one among equals;
none if all are blocked. -/
def strongest (g : Matrix R) (blocked : List Nat) : Option BeamPair :=
  ((powers g).foldl (fun best (pair, power) => better blocked best pair power) none).map Prod.fst

end Codebook

end RadioChannel
