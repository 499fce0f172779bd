import RadioChannel.Scalar

/-!
# Phasors

Complex amplitudes over a scalar type: channel coefficients, antenna weights and spectra are made of
them.
-/

namespace RadioChannel

open Scalar

/-- A complex number given by its real and imaginary part. -/
structure Phasor (R : Type) where
  /-- The in-phase (real) part. -/
  re : R
  /-- The quadrature (imaginary) part. -/
  im : R
deriving Repr, DecidableEq

namespace Phasor

variable {R : Type} [Scalar R]

/-- Two phasors are equal when both parts are, in the sense of the scalars. -/
instance : BEq (Phasor R) where
  beq a b := a.re == b.re && a.im == b.im

/-- The phasor without amplitude. -/
def zero : Phasor R := ⟨0, 0⟩

instance : Inhabited (Phasor R) := ⟨zero⟩

instance : Add (Phasor R) where
  add a b := ⟨a.re + b.re, a.im + b.im⟩

instance : Sub (Phasor R) where
  sub a b := ⟨a.re - b.re, a.im - b.im⟩

instance : Mul (Phasor R) where
  mul a b := ⟨a.re * b.re - a.im * b.im, a.re * b.im + a.im * b.re⟩

/-- The squared modulus. -/
def normSq (a : Phasor R) : R := a.re * a.re + a.im * a.im

/-- The complex conjugate. -/
def conj (a : Phasor R) : Phasor R := ⟨a.re, -a.im⟩

instance : Div (Phasor R) where
  div a b :=
    let n := b.normSq
    ⟨(a.re * b.re + a.im * b.im) / n, (a.im * b.re - a.re * b.im) / n⟩

/-- A phasor scaled by a real factor. -/
def scale (a : Phasor R) (k : R) : Phasor R := ⟨a.re * k, a.im * k⟩

/-- A phasor divided by a real number. -/
def shrink (a : Phasor R) (k : R) : Phasor R := ⟨a.re / k, a.im / k⟩

/-- The phasor of modulus `r` at angle `t`. -/
def polar (r t : R) : Phasor R := ⟨r * cos t, r * sin t⟩

/-- The real number `x` as a phasor. -/
def ofReal (x : R) : Phasor R := ⟨x, 0⟩

/-- The sum of a list, added from the left. -/
def sum (zs : List (Phasor R)) : Phasor R :=
  zs.foldl (· + ·) zero

/-- The Euclidean norm of a list of phasors. -/
def norm (zs : List (Phasor R)) : R :=
  sqrt (Scalar.sum (zs.map normSq))

end Phasor

end RadioChannel
