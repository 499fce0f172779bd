import RadioChannel.Scalar

/-!
# Binary floating point as scalars

The model runs on 64-bit binary floating point. A finite float is `m * 2 ^ q` with a sign; whatever
has to be exact (the nearest nanosecond, the total order) is computed on these integers.
-/

namespace RadioChannel

namespace Binary64

/-- A finite float as sign, significand and exponent: its value is `± m * 2 ^ q`. -/
structure Parts where
  /-- Whether the sign bit is set. -/
  negative : Bool
  /-- The significand `m`, below `2 ^ 53`. -/
  significand : Nat
  /-- The exponent `q`. -/
  exponent : Int
deriving Repr, DecidableEq

/-- The parts of a float; `none` for infinities and NaN. -/
def parts? (x : Float) : Option Parts :=
  let bits : Nat := x.toBits.toNat
  let negative := decide (Nat.pow 2 63 ≤ bits)
  let biased : Nat := bits / Nat.pow 2 52 % 2048
  let fraction : Nat := bits % Nat.pow 2 52
  if biased = 2047 then none
  else if biased = 0 then some ⟨negative, fraction, -1074⟩
  else some ⟨negative, Nat.pow 2 52 + fraction, (biased : Int) - 1075⟩

/-- The integer nearest to `num / den`, halves to the even neighbour. -/
def roundDiv (num den : Nat) : Nat :=
  let floor := num / den
  let rest := 2 * (num % den)
  if rest < den then floor
  else if den < rest then floor + 1
  else if floor % 2 = 0 then floor
  else floor + 1

/-- The nearest whole number of nanoseconds in a non-negative number of seconds. -/
def nanoseconds? (x : Float) : Option Nat :=
  (parts? x).bind fun p =>
    let num := p.significand * Nat.pow 2 p.exponent.toNat
    let den := Nat.pow 2 (-p.exponent).toNat
    if UInt64.size * den ≤ num then none else some (roundDiv (num * Nat.pow 10 9) den)

/-- Position of a float in the total order: negative NaN, negative numbers, `-0`, `+0`, positive
numbers, positive NaN. -/
def rank (x : Float) : Nat :=
  let bits : Nat := x.toBits.toNat
  if bits < Nat.pow 2 63 then Nat.pow 2 63 + bits else UInt64.size - 1 - bits

end Binary64

instance : Scalar Float where
  ofNat n := if n < UInt64.size then n.toUInt64.toFloat else Float.ofNat n
  ofDecimal m negative e := Float.ofScientific m negative e
  pi := 3.141592653589793
  sqrt := Float.sqrt
  exp := Float.exp
  ln := Float.log
  log10 := Float.log10
  pow := Float.pow
  sin := Float.sin
  cos := Float.cos
  acos := Float.acos
  atan := Float.atan
  atan2 := Float.atan2
  absolute := Float.abs
  lt a b := decide (a < b)
  le a b := decide (a ≤ b)
  orderedLe a b := decide (Binary64.rank a ≤ Binary64.rank b)
  isFinite := Float.isFinite
  wholeUnits x := x.toUInt64.toNat
  nearestNat x := x.round.toUInt64.toNat
  nanoseconds? := Binary64.nanoseconds?

end RadioChannel
