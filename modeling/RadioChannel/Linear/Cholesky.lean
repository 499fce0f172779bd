import RadioChannel.Linear.Matrix

/-!
# Cholesky factorization

A Hermitian positive definite matrix is the product of a lower triangular matrix with positive
diagonal and its adjoint. The factor is computed column by column; only the lower triangle of the
matrix is read. Systems with the factor are solved by substitution.
-/

namespace RadioChannel

open Scalar

namespace Cholesky

variable {R : Type} [Scalar R]

/-- A row that is not finished: the row of the matrix, and the entries of the factor so far. -/
structure Pending (R : Type) where
  /-- The row of the matrix. -/
  source : List (Phasor R)
  /-- The first entries of the row of the factor. -/
  done : List (Phasor R)

/-- The pivot of a row whose entries left of the diagonal are known: what is left of the diagonal of
the matrix. -/
def pivot (row : Pending R) : Except (Fault R) R := do
  let diagonal ← entryAt row.source row.done.length
  return diagonal.re - Scalar.sum (row.done.map Phasor.normSq)

/-- A row with its entry below a finished diagonal, where `top` is the row of that diagonal and
`diagonal` its value. -/
def extend (top : Pending R) (diagonal : R) (row : Pending R) : Except (Fault R) (Pending R) := do
  let entry ← entryAt row.source top.done.length
  let rest := entry - Matrix.dot row.done (top.done.map Phasor.conj)
  return { row with done := row.done ++ [rest.shrink diagonal] }

/-- Finishes so many rows: takes the first one's pivot, and extends all rows below it. -/
def finish : Nat → List (Pending R) → Except (Fault R) (Matrix R)
  | 0, _ => .ok []
  | _ + 1, [] => .ok []
  | n + 1, top :: below => do
    let p ← pivot top
    if le p 0 || !isFinite p then throw (.notPositiveDefinite p)
    let diagonal := sqrt p
    let below ← below.mapM (extend top diagonal)
    let rows ← finish n below
    return (top.done ++ [.ofReal diagonal]) :: rows

/-- The lower triangular factor of a matrix. Fails at the first pivot that is not positive. -/
def factor (m : Matrix R) : Except (Fault R) (Matrix R) := do
  let rows ← finish m.length (m.map fun row => ⟨row, []⟩)
  return rows.map (Matrix.padTo m.length)

/-! ## Substitution -/

/-- Solves the rows of a lower triangular system in turn, after the unknowns found so far. -/
def forwardFrom (found : List (Phasor R)) :
    Matrix R → List (Phasor R) → Except (Fault R) (List (Phasor R))
  | [], _ => .ok found
  | _ :: _, [] => .error (.breach .indexInRange)
  | row :: rows, b :: bs => do
    let diagonal ← entryAt row found.length
    let z := (b - Matrix.dot row found) / diagonal
    forwardFrom (found ++ [z]) rows bs

/-- The solution `z` of `l z = b` for a lower triangular matrix. -/
def forward (l : Matrix R) (b : List (Phasor R)) : Except (Fault R) (List (Phasor R)) :=
  forwardFrom [] l b

/-- The entry of the adjoint of a matrix right of the diagonal, times the unknowns found so far: the
sum over the rows below of the conjugated entry in a column, times the unknown of that row. -/
def below (column : Nat) (rows : Matrix R) (found : List (Phasor R)) :
    Except (Fault R) (Phasor R) := do
  let entries ← rows.mapM (entryAt · column)
  return Matrix.dot (entries.map Phasor.conj) found

/-- Solves the rows of an adjoint system from the last one up: `l` is the part of the matrix from row
`i` on. The unknowns come back in order. -/
def backFrom (i : Nat) : Matrix R → List (Phasor R) → Except (Fault R) (List (Phasor R))
  | [], _ => .ok []
  | _ :: _, [] => .error (.breach .indexInRange)
  | row :: rows, z :: zs => do
    let found ← backFrom (i + 1) rows zs
    let diagonal ← entryAt row i
    let rest ← below i rows found
    return ((z - rest) / diagonal.conj) :: found

/-- The solution `x` of `l* x = z` for a lower triangular matrix with adjoint `l*`. -/
def back (l : Matrix R) (z : List (Phasor R)) : Except (Fault R) (List (Phasor R)) :=
  backFrom 0 l z

end Cholesky

end RadioChannel
