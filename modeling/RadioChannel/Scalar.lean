/-!
# Scalars

The arithmetic the channel is computed in. Every formula of the library is written once, over an
arbitrary type with the operations below; it runs on binary floating point and is reasoned about on
exact numbers.

The class carries operations and no laws: floating point has few. Comparisons are Boolean because a
number type may hold values (NaN) that are not comparable with themselves.
-/

namespace RadioChannel

/-- A type of numbers with the elementary functions the model needs. -/
class Scalar (R : Type) extends Add R, Sub R, Mul R, Div R, Neg R, BEq R where
  /-- The number nearest to a natural number. -/
  ofNat : Nat → R
  /-- The number nearest to the decimal `m * 10 ^ e`, or `m * 10 ^ (-e)` when the flag is set. -/
  ofDecimal : Nat → Bool → Nat → R
  /-- Half a turn in radians. -/
  pi : R
  /-- Square root. -/
  sqrt : R → R
  /-- Exponential. -/
  exp : R → R
  /-- Natural logarithm. -/
  ln : R → R
  /-- Decimal logarithm. -/
  log10 : R → R
  /-- Real power. -/
  pow : R → R → R
  /-- Sine of an angle in radians. -/
  sin : R → R
  /-- Cosine of an angle in radians. -/
  cos : R → R
  /-- Arc cosine, in `[0, pi]`. -/
  acos : R → R
  /-- Arc tangent, in `[-pi/2, pi/2]`. -/
  atan : R → R
  /-- The angle of the point with the given ordinate and abscissa, in `[-pi, pi]`. -/
  atan2 : R → R → R
  /-- Absolute value. -/
  absolute : R → R
  /-- Strictly less; false when either side is not comparable. -/
  lt : R → R → Bool
  /-- Less or equal; false when either side is not comparable. -/
  le : R → R → Bool
  /-- A total order that agrees with `le` on comparable numbers and places all others as well. -/
  orderedLe : R → R → Bool
  /-- Whether the number is finite. -/
  isFinite : R → Bool
  /-- How many whole units a number holds; none when it is negative or not comparable. -/
  wholeUnits : R → Nat
  /-- The natural number nearest to a number, halves upward; zero when it is negative or not
  comparable. -/
  nearestNat : R → Nat
  /-- The whole number of nanoseconds nearest to a non-negative number of seconds, halves to the
  even neighbour; `none` when 64 bits of seconds cannot hold it. -/
  nanoseconds? : R → Option Nat

namespace Scalar

variable {R : Type} [Scalar R]

/-- Numerals denote the nearest number. -/
scoped instance (n : Nat) : OfNat R n where
  ofNat := Scalar.ofNat n

/-- Decimal literals denote the nearest number. -/
scoped instance : OfScientific R where
  ofScientific := Scalar.ofDecimal

/-- The larger of two numbers; an operand that is not comparable gives way to the other. -/
def larger (a b : R) : R :=
  if lt a b then b else if a == a then a else b

/-- The smaller of two numbers; an operand that is not comparable gives way to the other. -/
def smaller (a b : R) : R :=
  if lt b a then b else if a == a then a else b

/-- The sum of a list, added from the left. -/
def sum (xs : List R) : R :=
  xs.foldl (· + ·) 0

/-- The square of a number. -/
def square (x : R) : R := x * x

/-- The cube of a number. -/
def cube (x : R) : R := x * x * x

/-- A power of ten. -/
def tenTo (x : R) : R := pow 10 x

/-- Radians to degrees. -/
def degrees (x : R) : R := x * (180 / pi)

/-- Degrees to radians. -/
def radians (x : R) : R := x * (pi / 180)

/-- A full turn in radians. -/
def turn : R := 2 * pi

end Scalar

end RadioChannel
