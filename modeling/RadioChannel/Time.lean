import RadioChannel.Scalar

/-!
# Simulation time

Times and periods are whole nanoseconds. The host owns the clock, a 64-bit counter that wraps; the
models are given the time of each call.
-/

namespace RadioChannel

open Scalar

/-- A time since the start of the simulation, or a period, in nanoseconds. -/
abbrev Nanoseconds := Nat

namespace Nanoseconds

/-- The nanoseconds in a second. -/
def perSecond : Nat := 1000000000

/-- The time given by 64 bits of seconds and further nanoseconds, which may make up whole seconds;
`none` when the seconds overflow. -/
def ofParts? (seconds nanos : Nat) : Option Nanoseconds :=
  let total := seconds * perSecond + nanos
  if total < UInt64.size * perSecond then some total else none

/-- A period given in milliseconds, to the nearest nanosecond; negative periods are empty. `none`
when it is too long to be held. -/
def ofMilliseconds? {R : Type} [Scalar R] (ms : R) : Option Nanoseconds :=
  nanoseconds? (larger ms 0 / 1000)

/-- A time in seconds: whole seconds plus the fraction. -/
def toSeconds {R : Type} [Scalar R] (t : Nanoseconds) : R :=
  Scalar.ofNat (t / perSecond) + Scalar.ofNat (t % perSecond) / Scalar.ofNat perSecond

end Nanoseconds

/-- A clock that the host sets and advances. -/
structure Clock where
  /-- The time in nanoseconds, modulo `2 ^ 64`. -/
  ticks : UInt64
deriving Repr, DecidableEq

namespace Clock

/-- The clock at the start of the simulation. -/
def start : Clock := ⟨0⟩

/-- The time the clock shows. -/
def now (c : Clock) : Nanoseconds := c.ticks.toNat

/-- The clock set to a time. -/
def set (_ : Clock) (t : Nanoseconds) : Clock := ⟨t.toUInt64⟩

/-- The clock moved on by a period. -/
def advance (c : Clock) (d : Nanoseconds) : Clock := ⟨c.ticks + d.toUInt64⟩

end Clock

end RadioChannel
