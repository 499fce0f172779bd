import RadioChannel.Geometry.Vec3

/-!
# Nodes

A node is known by a number that the host assigns. What a channel needs to know of a node is its
endpoint: where it is and how it moves.
-/

namespace RadioChannel

/-- The host's number of a node. -/
structure NodeId where
  /-- The number itself. -/
  number : UInt32
deriving Repr, DecidableEq, Hashable

/-- A node's place and motion. -/
structure Endpoint (R : Type) where
  /-- The node. -/
  id : NodeId
  /-- Its position in metres. -/
  position : Vec3 R
  /-- Its velocity in metres per second. -/
  velocity : Vec3 R
deriving Repr, DecidableEq

end RadioChannel
