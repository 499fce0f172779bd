import RadioChannel.Pairing
import Std.Data.HashMap

/-!
# Propagation conditions

Whether a link has line of sight, and whether it leads into a building. The host sets conditions per
link; a link has the same condition in both directions.
-/

namespace RadioChannel

/-- The condition of a link. -/
structure Condition where
  /-- Line of sight. -/
  los : Bool
  /-- From outdoors to indoors. -/
  o2i : Bool
deriving Repr, DecidableEq

namespace Condition

/-- Line of sight, outdoors. -/
def lineOfSight : Condition := ⟨true, false⟩

/-- No line of sight, outdoors. -/
def obstructed : Condition := ⟨false, false⟩

end Condition

/-- Conditions set link by link. -/
structure ConditionTable where
  /-- The condition of a link that was not set. -/
  fallback : Condition
  /-- The conditions set, by the key of the link. -/
  links : Std.HashMap Nat Condition

namespace ConditionTable

/-- A table without any link. -/
def ofFallback (fallback : Condition) : ConditionTable := ⟨fallback, ∅⟩

/-- A table without any link, in which all have line of sight. -/
def standard : ConditionTable := ofFallback .lineOfSight

/-- Sets the condition of the link between two nodes. -/
def set (t : ConditionTable) (a b : NodeId) (c : Condition) : ConditionTable :=
  { t with links := t.links.insert (a.linkKey b) c }

/-- The condition of the link between two nodes. -/
def condition (t : ConditionTable) (a b : NodeId) : Condition :=
  t.links[a.linkKey b]?.getD t.fallback

end ConditionTable

/-- How links are classified. -/
inductive ConditionModel where
  /-- Every link alike. -/
  | fixed (c : Condition)
  /-- Link by link. -/
  | table (t : ConditionTable)

/-- The condition of the link between two nodes. -/
def ConditionModel.condition : ConditionModel → NodeId → NodeId → Condition
  | fixed c, _, _ => c
  | table t, a, b => t.condition a b

end RadioChannel
