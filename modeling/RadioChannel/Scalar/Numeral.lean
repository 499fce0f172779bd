import RadioChannel.Scalar.Binary64

/-!
# Decimal numerals

Numbers in texts are shown by the shortest decimal that is read back as the same number, with a point
and without an exponent.
-/

namespace RadioChannel

/-- Numbers that have a decimal numeral. -/
class Numeral (R : Type) where
  /-- The numeral of a number. -/
  decimal : R → String

namespace Numeral

/-- How many decimal digits a natural number has; zero has one. -/
def digitCount (n : Nat) : Nat := (Nat.toDigits 10 n).length

/-- The size of a float as a fraction of `10 ^ q`. -/
def inUnits (q : Int) (p : Binary64.Parts) : Nat × Nat :=
  (p.significand * Nat.pow 2 p.exponent.toNat * Nat.pow 10 (-q).toNat,
    Nat.pow 2 (-p.exponent).toNat * Nat.pow 10 q.toNat)

/-- The greatest `e` with `10 ^ e` at most the size of a float other than zero. Below one it is minus
the number of digits of the reciprocal, rounded down from just below. -/
def decade (p : Binary64.Parts) : Int :=
  let (num, den) := inUnits 0 p
  if den ≤ num then (digitCount (num / den) : Int) - 1
  else -(digitCount ((den - 1) / num) : Int)

/-- The two multiples `n * 10 ^ q` around the size of a float that show so many of its digits, the
nearer one first. -/
def neighbours (p : Binary64.Parts) (digits : Nat) : List (Nat × Int) :=
  let q := decade p - digits + 1
  let (num, den) := inUnits q p
  let below := num / den
  if 2 * (num % den) ≤ den then [(below, q), (below + 1, q)] else [(below + 1, q), (below, q)]

/-- The size of a float, `n * 10 ^ q` exactly. -/
def exact (p : Binary64.Parts) : Nat × Int :=
  if 0 ≤ p.exponent then (p.significand * Nat.pow 2 p.exponent.toNat, 0)
  else (p.significand * Nat.pow 5 (-p.exponent).toNat, p.exponent)

/-- The shortest `n * 10 ^ q` that is read as the size of a float; of several ones, the nearest. No
float needs more than 17 digits. -/
def shortest (x : Float) (p : Binary64.Parts) : Nat × Int :=
  let reads : Nat × Int → Bool := fun (n, q) => Float.ofScientific n (decide (q < 0)) q.natAbs == x.abs
  (((List.range 17).flatMap fun i => neighbours p (i + 1)).find? reads).getD (exact p)

/-- The numeral of `n * 10 ^ q`. -/
def positional (n : Nat) (q : Int) : String :=
  let unit := Nat.pow 10 (-q).toNat
  -- the leading one keeps the zeros after the point
  let decimals := ((Nat.toDigits 10 (unit + n % unit)).drop 1).reverse.dropWhile (· == '0')
  let whole := toString (n * Nat.pow 10 q.toNat / unit)
  if decimals.isEmpty then whole else whole ++ "." ++ String.ofList decimals.reverse

/-- The numeral of a float. -/
def ofFloat (x : Float) : String :=
  match Binary64.parts? x with
  | none => if x.isNaN then "NaN" else if x < 0 then "-inf" else "inf"
  | some p =>
    let (n, q) := if p.significand = 0 then (0, 0) else shortest x p
    (if p.negative then "-" else "") ++ positional n q

instance : Numeral Float where
  decimal := ofFloat

end Numeral

end RadioChannel
