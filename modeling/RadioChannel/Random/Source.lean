import RadioChannel.Random.Keystream
import RadioChannel.Scalar

/-!
# Random draws

A source reads uniform and normal samples off a stream of words. The stream itself is any function
from positions to words; sources made from a seed read the keystream of that seed. Normal samples
come in pairs, of which the second one is kept for the next draw.
-/

namespace RadioChannel

open Scalar

/-- A stream of random words with a reading position. -/
structure RandomSource (R : Type) where
  /-- The word at each position. -/
  words : Nat → UInt32
  /-- How many words have been read. -/
  position : Nat
  /-- The second normal sample of the last pair, if it is still unread. -/
  spare : Option R

namespace RandomSource

variable {R : Type} [Scalar R]

/-- The source of a seed, at its start. -/
def ofSeed (seed : UInt64) : RandomSource R :=
  ⟨Keystream.word (Keystream.keyOfSeed seed), 0, none⟩

end RandomSource

/-- A computation that reads from a random source. -/
abbrev Draw (R α : Type) := StateM (RandomSource R) α

namespace Draw

variable {R : Type} [Scalar R]

/-- The next two words as one number, the low half first. -/
def word64 : Draw R UInt64 := fun s =>
  let low := (s.words s.position).toUInt64
  let high := (s.words (s.position + 1)).toUInt64
  ((high <<< 32) ||| low, { s with position := s.position + 2 })

/-- A multiple of `2 ^ -53`, uniform in `[0, 1)`. -/
def unit : Draw R R := do
  let w ← word64
  return Scalar.ofNat (w >>> 11).toNat / Scalar.ofNat (Nat.pow 2 53)

/-- A source of its own, seeded by the next draw. -/
def fork : Draw R (RandomSource R) := do
  return RandomSource.ofSeed (← word64)

/-- A sample uniform in `(0, 1]`, which has a logarithm. -/
def uniform : Draw R R := do
  return 1 - (← unit)

/-- A sample uniform in `[low, high)`. -/
def uniformIn (low high : R) : Draw R R := do
  return low + (high - low) * (← unit)

/-- A standard normal sample. Two uniform samples give two normal ones, as the abscissa and the
ordinate of a point at a random angle; the ordinate is kept. -/
def normal : Draw R R := fun s =>
  match s.spare with
  | some x => (x, { s with spare := none })
  | none =>
    let (u, s) := unit.run s
    let (v, s) := unit.run s
    let radius := sqrt (-2 * ln (larger u 1e-300))
    let angle := turn * v
    (radius * cos angle, { s with spare := some (radius * sin angle) })

/-- So many draws in a row. -/
def times {α : Type} (n : Nat) (draw : Draw R α) : Draw R (List α) :=
  (List.range n).mapM fun _ => draw

end Draw

end RadioChannel
