import RadioChannel.Linear.Cholesky

/-!
# Regularized least squares

For a matrix `h` and a regularization `n0` the normal matrix is `h* h + n0`. It is factored once, and
then solved for any number of right sides. The solution operator `(h* h + n0)⁻¹ h*` is the precoder
that suppresses what the streams of a bundle leak into each other.
-/

namespace RadioChannel

open Scalar

namespace LeastSquares

variable {R : Type} [Scalar R]

/-- A column of a matrix. -/
def column (h : Matrix R) (i : Nat) : Except (Fault R) (List (Phasor R)) :=
  h.mapM (entryAt · i)

/-- The scalar product of two columns, the first one conjugated. -/
def inner (a b : List (Phasor R)) : Phasor R := Matrix.dot (a.map Phasor.conj) b

/-- A phasor with a real number added. -/
def addReal (a : Phasor R) (x : R) : Phasor R := ⟨a.re + x, a.im⟩

/-- The normal matrix `h* h + n0`. -/
def normal (h : Matrix R) (n0 : R) : Except (Fault R) (Matrix R) := do
  let columns ← (List.range (Matrix.columns h)).mapM (column h)
  return columns.zipIdx.map fun (a, i) => columns.zipIdx.map fun (b, j) =>
    if i = j then addReal (inner a b) n0 else inner a b

/-- The Cholesky factor of the normal matrix. -/
def factor (h : Matrix R) (n0 : R) : Except (Fault R) (Matrix R) := do
  Cholesky.factor (← normal h n0)

/-- Solves `l l* x = b` for a lower triangular matrix. -/
def solveFactored (l : Matrix R) (b : List (Phasor R)) : Except (Fault R) (List (Phasor R)) := do
  Cholesky.back l (← Cholesky.forward l b)

/-- The product of the adjoint of a matrix with a vector; surplus rows or entries are left out. -/
def adjointTimes (h : Matrix R) (y : List (Phasor R)) : Except (Fault R) (List (Phasor R)) := do
  let columns ← (List.range (Matrix.columns h)).mapM (column h)
  return columns.map (inner · y)

/-- The solution `x` of `(h* h + n0) x = h* y`. -/
def solve (h : Matrix R) (y : List (Phasor R)) (n0 : R) : Except (Fault R) (List (Phasor R)) := do
  let l ← factor h n0
  solveFactored l (← adjointTimes h y)

/-- The matrix with the given columns, each of `rows` entries. -/
def ofColumns (rows : Nat) (columns : List (List (Phasor R))) : Matrix R :=
  (List.range rows).map fun i => columns.map fun column => column[i]?.getD .zero

/-- The solution `x` of `(h* h + n0) x = h*`. -/
def solveMatrix (h : Matrix R) (n0 : R) : Except (Fault R) (Matrix R) := do
  let l ← factor h n0
  let columns ← h.mapM fun row => solveFactored l (row.map Phasor.conj)
  return ofColumns l.length columns

end LeastSquares

end RadioChannel
