import RadioChannel.Antenna.Beam
import RadioChannel.Proofs.Keys
import Mathlib.Data.Set.Insert

/-!
# Beam identities do not collide

A pairing key has far fewer bits than an identity. The bits above it tell how the identity was made:
from a direction, from a pair of codebook indices, or from a codebook index and a layer. So results that
are cached for a beam of one kind are never taken for those of another kind, and within the two indexed
kinds never for those of another index.
-/

namespace RadioChannel

namespace Pairing

/-- A key is made below `2 ^ 66`: already the product that it is made from does not reach it. -/
theorem key_product_lt (x y : UInt32) :
    (x.toNat + y.toNat) * (x.toNat + y.toNat + 1) < 2 ^ 66 := by
  have hx := x.toNat_lt
  have hy := y.toNat_lt
  calc (x.toNat + y.toNat) * (x.toNat + y.toNat + 1) < 2 ^ 33 * 2 ^ 33 :=
        Nat.mul_lt_mul'' (by omega) (by omega)
    _ = 2 ^ 66 := by norm_num

theorem key_lt (x y : UInt32) : key x y < 2 ^ 66 := by
  have hproduct := key_product_lt x y
  have hy := y.toNat_lt
  unfold key
  omega

/-- An unordered key names a pair as a set. -/
theorem unorderedKey_eq_iff_set {x y u v : UInt32} :
    unorderedKey x y = unorderedKey u v ↔ ({x, y} : Set UInt32) = {u, v} := by
  rw [unorderedKey_inj, Set.pair_eq_pair_iff]

end Pairing

namespace BeamId

/-- The three ways to make an identity. -/
inductive Family where
  /-- From a direction. -/
  | geometric
  /-- From a pair of codebook indices. -/
  | codebook
  /-- From a codebook index and a layer. -/
  | hybrid
deriving DecidableEq

/-- Where the identities of a family start. -/
def Family.base : Family → Nat
  | geometric => 0
  | codebook => codebookBase
  | hybrid => hybridBase

/-- The identities of a family. -/
inductive Of : Family → BeamId → Prop
  | geometric {R : Type} [Scalar R] (azimuth zenith : R) :
    Of .geometric (BeamId.geometric azimuth zenith)
  | codebook (tx rx : Nat) : Of .codebook (BeamId.codebook tx rx)
  | hybrid (tx : Nat) (layer : UInt8) : Of .hybrid (BeamId.hybrid tx layer)

variable {f f' : Family} {id : BeamId}

/-- Behind its family's start an identity is a key. -/
theorem Of.exists_key (h : Of f id) : ∃ x y, id.number = f.base + Pairing.key x y := by
  cases h with
  | geometric azimuth zenith => exact ⟨_, _, (Nat.zero_add _).symm⟩
  | codebook tx rx => exact ⟨_, _, rfl⟩
  | hybrid tx layer => exact ⟨_, _, rfl⟩

/-- The families lie further apart than a key reaches. -/
theorem Family.base_apart (h : f ≠ f') : f.base + 2 ^ 66 ≤ f'.base ∨ f'.base + 2 ^ 66 ≤ f.base := by
  revert h
  cases f <;> cases f' <;> decide

/-- An identity belongs to one family only. -/
theorem Of.unique (h : Of f id) (h' : Of f' id) : f = f' := by
  obtain ⟨x, y, hkey⟩ := h.exists_key
  obtain ⟨u, v, hkey'⟩ := h'.exists_key
  have hlt := Pairing.key_lt x y
  have hlt' := Pairing.key_lt u v
  by_contra hne
  have hapart := Family.base_apart hne
  omega

/-- An identity fits into 128 bits. -/
theorem Of.number_lt (h : Of f id) : id.number < 2 ^ 128 := by
  obtain ⟨x, y, hkey⟩ := h.exists_key
  have hlt := Pairing.key_lt x y
  have hbase : f.base ≤ 2 ^ 127 := by cases f <;> decide
  omega

/-- Starts are multiples of a power of two that no key reaches: to add a key is to fill in lower bits. -/
theorem or_key (x y : UInt32) : codebookBase ||| Pairing.key x y = codebookBase + Pairing.key x y ∧
    hybridBase ||| Pairing.key x y = hybridBase + Pairing.key x y := by
  have hlt := Pairing.key_lt x y
  have hcodebook : Pairing.key x y < 2 ^ 127 := by omega
  have hhybrid : Pairing.key x y < 2 ^ 126 := by omega
  exact ⟨(Nat.two_pow_add_eq_or_of_lt hcodebook 1).symm, (Nat.two_pow_add_eq_or_of_lt hhybrid 1).symm⟩

theorem toUInt32_inj {m n : Nat} (hm : m < 2 ^ 32) (hn : n < 2 ^ 32) :
    m.toUInt32 = n.toUInt32 ↔ m = n := by
  rw [← UInt32.toNat_inj]
  simp only [Nat.toUInt32_eq, UInt32.toNat_ofNat']
  rw [Nat.mod_eq_of_lt hm, Nat.mod_eq_of_lt hn]

theorem codebook_eq_iff {t r t' r' : Nat} : codebook t r = codebook t' r' ↔
    t.toUInt32 = t'.toUInt32 ∧ r.toUInt32 = r'.toUInt32 := by
  rw [codebook, codebook, BeamId.mk.injEq, Nat.add_left_cancel_iff, Pairing.key_inj]

theorem hybrid_eq_iff {t t' : Nat} {layer layer' : UInt8} : hybrid t layer = hybrid t' layer' ↔
    t.toUInt32 = t'.toUInt32 ∧ layer = layer' := by
  rw [hybrid, hybrid, BeamId.mk.injEq, Nat.add_left_cancel_iff, Pairing.key_inj]
  refine and_congr_right fun _ => ⟨fun h => ?_, fun h => by rw [h]⟩
  have hlayers := congrArg UInt32.toNat h
  rw [UInt8.toNat_toUInt32, UInt8.toNat_toUInt32] at hlayers
  exact UInt8.toNat_inj.mp hlayers

/-- Keys and identities do not collide. A key names an ordered pair and is made within 66 bits; a link's
key names its two ends without order, and the keys of both directions are swapped with the pair. An
identity belongs to one family only, told by bits that no key reaches, and fits into 128 bits; those of
the two indexed families name what they were made from, as long as 32 bits hold the indices. -/
theorem never_collide :
    (∀ x y u v : UInt32, Pairing.key x y = Pairing.key u v ↔ x = u ∧ y = v) ∧
    (∀ x y : UInt32, (x.toNat + y.toNat) * (x.toNat + y.toNat + 1) < 2 ^ 66 ∧
      Pairing.key x y < 2 ^ 66) ∧
    (∀ x y u v : UInt32, Pairing.unorderedKey x y = Pairing.unorderedKey u v ↔
      ({x, y} : Set UInt32) = {u, v}) ∧
    (∀ x y : UInt32, Pairing.directedKeys y x = (Pairing.directedKeys x y).swap) ∧
    (∀ (f f' : Family) (id id' : BeamId), Of f id → Of f' id' → f ≠ f' → id ≠ id') ∧
    (∀ (f : Family) (id : BeamId), Of f id → id.number < 2 ^ 128) ∧
    (∀ x y : UInt32, codebookBase ||| Pairing.key x y = codebookBase + Pairing.key x y ∧
      hybridBase ||| Pairing.key x y = hybridBase + Pairing.key x y) ∧
    (∀ t r t' r' : Nat, t < 2 ^ 32 → r < 2 ^ 32 → t' < 2 ^ 32 → r' < 2 ^ 32 →
      (codebook t r = codebook t' r' ↔ t = t' ∧ r = r')) ∧
    ∀ (t t' : Nat) (layer layer' : UInt8), t < 2 ^ 32 → t' < 2 ^ 32 →
      (hybrid t layer = hybrid t' layer' ↔ t = t' ∧ layer = layer') := by
  refine ⟨fun x y u v => Pairing.key_inj, fun x y => ⟨Pairing.key_product_lt x y, Pairing.key_lt x y⟩,
    fun x y u v => Pairing.unorderedKey_eq_iff_set, Pairing.directedKeys_swap, ?_,
    fun f id h => h.number_lt, or_key, ?_, ?_⟩
  · rintro f f' id _ h h' hne rfl
    exact hne (h.unique h')
  · intro t r t' r' ht hr ht' hr'
    rw [codebook_eq_iff, toUInt32_inj ht ht', toUInt32_inj hr hr']
  · intro t t' layer layer' ht ht'
    rw [hybrid_eq_iff, toUInt32_inj ht ht']

/-- The greatest indices that 32 bits hold, beside each other and in the other family. -/
theorem never_collide_greatest :
    codebook 4294967295 4294967294 ≠ codebook 4294967294 4294967295 ∧
      codebook 4294967295 0 ≠ hybrid 4294967295 0 ∧
      hybrid 4294967295 254 ≠ hybrid 4294967295 255 ∧
      (codebook 4294967295 4294967295).number < 2 ^ 128 := by
  obtain ⟨-, -, -, -, hfamilies, hfits, -, hcodebook, hhybrid⟩ := never_collide
  refine ⟨fun h => ?_, hfamilies _ _ _ _ (.codebook _ _) (.hybrid _ _) (by decide), fun h => ?_,
    hfits _ _ (.codebook _ _)⟩
  · exact absurd ((hcodebook _ _ _ _ (by decide) (by decide) (by decide) (by decide)).mp h).1
      (by decide)
  · exact absurd ((hhybrid _ _ _ _ (by decide) (by decide)).mp h).2 (by decide)

end BeamId

end RadioChannel
