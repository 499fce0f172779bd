import RadioChannel.Fault
import RadioChannel.Phasor

/-!
# Matrices

Complex matrices as lists of rows. Callers keep all rows of a matrix equally long; where a row turns
out to be too short for the entry that is needed, the operation stops.
-/

namespace RadioChannel

/-- A complex matrix by rows. -/
abbrev Matrix (R : Type) := List (List (Phasor R))

namespace Matrix

variable {R : Type}

/-- How many columns a matrix has, by its first row. -/
def columns (m : Matrix R) : Nat := (m.head?.map List.length).getD 0

/-- A matrix of so many rows, each of the same number of entries. -/
structure HasSize (rows columns : Nat) (m : Matrix R) : Prop where
  /-- The number of rows. -/
  height : m.length = rows
  /-- The number of entries in each row. -/
  width : ∀ row ∈ m, row.length = columns

variable [Scalar R]

/-- The scalar product of two lists without conjugation, as far as both go. -/
def dot (a b : List (Phasor R)) : Phasor R :=
  Phasor.sum (a.zipWith (· * ·) b)

/-- A list filled up with zeros to a length. -/
def padTo (n : Nat) (row : List (Phasor R)) : List (Phasor R) :=
  row ++ List.replicate (n - row.length) .zero

end Matrix

end RadioChannel
