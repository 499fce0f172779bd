import RadioChannel.Node

/-!
# Pairing keys

Every cache of the library is keyed by one number made of two. The key is Cantor's pairing function:
it is injective on ordered pairs, so the two directions of a link have two keys, and the key of the
pair in ascending order names the link itself.
-/

namespace RadioChannel

namespace Pairing

/-- Cantor's pairing `(x + y) (x + y + 1) / 2 + y`. -/
def key (x y : UInt32) : Nat :=
  (x.toNat + y.toNat) * (x.toNat + y.toNat + 1) / 2 + y.toNat

/-- The key of a pair without regard to order. -/
def unorderedKey (x y : UInt32) : Nat :=
  key (min x y) (max x y)

/-- The keys of the two directions of a pair, the given one first. -/
def directedKeys (x y : UInt32) : Nat × Nat :=
  (key x y, key y x)

/-- Swapping a pair swaps its two keys. -/
theorem directedKeys_swap (x y : UInt32) : directedKeys y x = (directedKeys x y).swap := rfl

end Pairing

namespace NodeId

/-- The key of the direction from one node to another. -/
def keyTo (a b : NodeId) : Nat := Pairing.key a.number b.number

/-- The key of the link between two nodes. -/
def linkKey (a b : NodeId) : Nat := Pairing.unorderedKey a.number b.number

end NodeId

end RadioChannel
