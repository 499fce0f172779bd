import RadioChannel.Propagation.Condition
import Mathlib.Data.Sym.Sym2
import Mathlib.Tactic

/-!
# Keys name what they are made of

The pairing key is injective, so a directed key names the two ends of a direction in order, and a link
key names the two ends of a link without order. Conditions are kept under link keys, so a condition
that is set for a link is found from both of its ends and for no other link.
-/

namespace RadioChannel

namespace Pairing

/-- The sum of the numbers up to `s`: the least key of the pairs with sum `s`. -/
def firstKey (s : Nat) : Nat := s * (s + 1) / 2

theorem firstKey_succ (s : Nat) : firstKey (s + 1) = firstKey s + (s + 1) := by
  have h : (s + 1) * (s + 1 + 1) = s * (s + 1) + (s + 1) * 2 := by ring
  rw [firstKey, firstKey, h, Nat.add_mul_div_right _ _ (by decide)]

theorem firstKey_mono {s t : Nat} (h : s ≤ t) : firstKey s ≤ firstKey t := by
  induction h with
  | refl => exact le_refl _
  | step _ ih =>
    rw [firstKey_succ]
    omega

theorem key_eq_firstKey (x y : UInt32) : key x y = firstKey (x.toNat + y.toNat) + y.toNat := rfl

/-- The keys of pairs with a smaller sum are all smaller. -/
theorem key_lt_of_sum_lt {x y u v : UInt32} (h : x.toNat + y.toNat < u.toNat + v.toNat) :
    key x y < key u v := by
  have hs := firstKey_succ (x.toNat + y.toNat)
  have hm : firstKey (x.toNat + y.toNat + 1) ≤ firstKey (u.toNat + v.toNat) := firstKey_mono h
  rw [key_eq_firstKey, key_eq_firstKey]
  omega

/-- Cantor's pairing is injective. -/
theorem key_inj {x y u v : UInt32} : key x y = key u v ↔ x = u ∧ y = v := by
  refine ⟨fun h => ?_, fun ⟨hx, hy⟩ => by rw [hx, hy]⟩
  have hsum : x.toNat + y.toNat = u.toNat + v.toNat := by
    rcases Nat.lt_trichotomy (x.toNat + y.toNat) (u.toNat + v.toNat) with hlt | heq | hgt
    · exact absurd h (key_lt_of_sum_lt hlt).ne
    · exact heq
    · exact absurd h (key_lt_of_sum_lt hgt).ne'
  rw [key_eq_firstKey, key_eq_firstKey, hsum] at h
  have hy : y.toNat = v.toNat := by omega
  exact ⟨UInt32.toNat_inj.mp (by omega), UInt32.toNat_inj.mp hy⟩

/-- An unordered key names a pair up to its order. -/
theorem unorderedKey_inj {x y u v : UInt32} :
    unorderedKey x y = unorderedKey u v ↔ (x = u ∧ y = v) ∨ (x = v ∧ y = u) := by
  rw [unorderedKey, unorderedKey, key_inj]
  simp only [UInt32.min_def, UInt32.max_def]
  grind

end Pairing

namespace NodeId

@[ext] theorem ext {a b : NodeId} (h : a.number = b.number) : a = b := by
  cases a
  cases b
  exact congrArg _ h

@[simp] theorem keyTo_inj {a b c d : NodeId} : a.keyTo b = c.keyTo d ↔ a = c ∧ b = d := by
  rw [keyTo, keyTo, Pairing.key_inj, NodeId.ext_iff, NodeId.ext_iff]

theorem linkKey_inj {a b c d : NodeId} :
    a.linkKey b = c.linkKey d ↔ (a = c ∧ b = d) ∨ (a = d ∧ b = c) := by
  rw [linkKey, linkKey, Pairing.unorderedKey_inj]
  simp only [NodeId.ext_iff]

theorem linkKey_comm (a b : NodeId) : a.linkKey b = b.linkKey a :=
  linkKey_inj.mpr (Or.inr ⟨rfl, rfl⟩)

end NodeId

theorem ConditionTable.condition_standard (a b : NodeId) :
    standard.condition a b = .lineOfSight := by
  simp [condition, standard, ofFallback]

theorem ConditionTable.condition_set (t : ConditionTable) (x y a b : NodeId) (c : Condition) :
    (t.set x y c).condition a b = if s(x, y) = s(a, b) then c else t.condition a b := by
  unfold set condition
  rw [Std.HashMap.getElem?_insert]
  simp only [beq_iff_eq, NodeId.linkKey_inj, Sym2.eq_iff]
  split <;> rfl

/-- A link has one condition, whichever end asks. -/
theorem ConditionModel.condition_comm (model : ConditionModel) (a b : NodeId) :
    model.condition a b = model.condition b a := by
  cases model with
  | fixed c => rfl
  | table t => simp only [condition, ConditionTable.condition, NodeId.linkKey_comm a b]

end RadioChannel
