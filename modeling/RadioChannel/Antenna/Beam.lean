import RadioChannel.Pairing
import RadioChannel.Phasor

/-!
# Beams

A beam is one complex weight for each element of a panel. Beams carry an identity by which results
that depend on them are cached; identities made from directions, from codebook indices and from
hybrid bundles lie in three disjoint ranges.
-/

namespace RadioChannel

open Scalar

/-- The identity of a beam. -/
structure BeamId where
  /-- The identity as a number. -/
  number : Nat
deriving Repr, DecidableEq, Hashable

namespace BeamId

/-- Codebook identities start here. -/
def codebookBase : Nat := Nat.pow 2 127

/-- Hybrid identities start here. -/
def hybridBase : Nat := Nat.pow 2 126

/-- The nearest 32-bit word to a number. -/
def toWord {R : Type} [Scalar R] (x : R) : UInt32 :=
  (min (nearestNat x) (UInt32.size - 1)).toUInt32

/-- The identity of a direction in degrees, to a hundredth of a degree. -/
def geometric {R : Type} [Scalar R] (azimuth zenith : R) : BeamId :=
  ⟨Pairing.key (toWord ((azimuth + 180) * 100)) (toWord (zenith * 100))⟩

/-- The identity of a pair of codebook indices, taken modulo `2 ^ 32`. -/
def codebook (tx rx : Nat) : BeamId :=
  ⟨codebookBase + Pairing.key tx.toUInt32 rx.toUInt32⟩

/-- The identity of the hybrid beam of a layer around a codebook index, taken modulo `2 ^ 32`. -/
def hybrid (tx : Nat) (layer : UInt8) : BeamId :=
  ⟨hybridBase + Pairing.key tx.toUInt32 layer.toUInt32⟩

end BeamId

/-- Complex weights, one for each element, under an identity. -/
structure Beam (R : Type) where
  /-- The weights in the order of the elements. -/
  weights : List (Phasor R)
  /-- The identity. -/
  id : BeamId
deriving Repr, DecidableEq

namespace Beam

/-- How many elements the beam is for. -/
def size {R : Type} (b : Beam R) : Nat := b.weights.length

/-- The Euclidean norm of the weights. -/
def norm {R : Type} [Scalar R] (b : Beam R) : R := Phasor.norm b.weights

end Beam

/-- Digital combining weights: for each subband, a row for each output layer with an entry for each
input layer. -/
abbrev Combiner (R : Type) := List (List (List (Phasor R)))

end RadioChannel
