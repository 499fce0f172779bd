import RadioChannel.Random.Keystream

/-!
# Shuffling

Rays are coupled by a shuffle that depends only on a seed and on the number of values. The swaps are
therefore computed first, from the seed and the length, and then carried out: the values are never
looked at.
-/

namespace RadioChannel

namespace Shuffle

/-- How often an index is drawn again at most. Each draw is accepted more often than not. -/
def maxTries : Nat := 256

/-- An index below `bound` from the words at `position` on, and the position after the last word
read. A word is scaled down to the bound; it is drawn again where the scaling would favour some
indices, that is, where the low half of the product lies above the greatest multiple of the bound. -/
def indexBelow (words : Nat → UInt32) (bound : Nat) : Nat → Nat → Nat × Nat
  | 0, position => (0, position)
  | tries + 1, position =>
    let product := (words position).toNat * bound
    let zone := bound * Nat.pow 2 (31 - bound.log2) - 1
    if product % UInt32.size ≤ zone then (product / UInt32.size, position + 1)
    else indexBelow words bound tries (position + 1)

/-- The swaps that shuffle `n + 1` values, last place first: each place is swapped with one not after
it. -/
def swapsFrom (words : Nat → UInt32) : Nat → Nat → List (Nat × Nat)
  | 0, _ => []
  | n + 1, position =>
    let (target, next) := indexBelow words (n + 2) maxTries position
    (n + 1, target) :: swapsFrom words n next

/-- The swaps that shuffle a list of the given length. -/
def swaps (seed : UInt64) (length : Nat) : List (Nat × Nat) :=
  swapsFrom (Keystream.word (Keystream.keyOfSeed seed)) (length - 1) 0

end Shuffle

/-- A list shuffled by a seed. -/
def shuffle {α : Type} (seed : UInt64) (xs : List α) : List α :=
  ((Shuffle.swaps seed xs.length).foldl (fun a s => a.swapIfInBounds s.1 s.2) xs.toArray).toList

end RadioChannel
