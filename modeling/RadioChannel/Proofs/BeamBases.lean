import RadioChannel.Proofs.BeamChannels
import Mathlib.RingTheory.RootsOfUnity.Complex

/-!
# Codebook beams are a basis

The beams of a panel are orthogonal to each other and of unit norm: along each axis the turns of two
different beams run evenly through whole turns and cancel. There are as many beams as elements, so any
weights are a combination of beams.
-/

namespace RadioChannel

open ExactScalars RadioChannel.Fourier

namespace Fourier

/-! ## Turns that cancel -/

variable {n k l : ℕ}

theorem spin_mul (n k i : ℕ) : spin n (k * i) = spin n k ^ i := by
  induction i with
  | zero => rw [Nat.mul_zero, spin_zero, pow_zero]
  | succ i ih => rw [Nat.mul_succ, spin_add, ih, pow_succ]

theorem isPrimitiveRoot_spin (hn : n ≠ 0) : IsPrimitiveRoot (spin n 1) n := by
  have hroot : spin n 1 = Complex.exp (2 * Real.pi * Complex.I / n) := by
    rw [spin, turn_eq]
    congr 1
    push_cast
    ring
  rw [hroot]
  exact Complex.isPrimitiveRoot_exp n hn

theorem spin_injOn (hk : k < n) (hl : l < n) (h : spin n k = spin n l) : k = l := by
  have hn : n ≠ 0 := Nat.ne_zero_of_lt hk
  have hpow : ∀ m, spin n m = spin n 1 ^ m := by
    intro m
    rw [← spin_mul, Nat.one_mul]
  rw [hpow k, hpow l] at h
  exact (isPrimitiveRoot_spin hn).pow_inj hk hl h

/-- Along a line, the turns of two frequencies are in step if the frequencies are the same, and cancel
otherwise. -/
theorem sum_spin_mul_conj (hk : k < n) (hl : l < n) :
    ∑ i ∈ Finset.range n, spin n (k * i) * (starRingEnd ℂ) (spin n (l * i)) =
      if k = l then (n : ℂ) else 0 := by
  let z := spin n k * (starRingEnd ℂ) (spin n l)
  have hterm : ∀ i, spin n (k * i) * (starRingEnd ℂ) (spin n (l * i)) = z ^ i := by
    intro i
    rw [spin_mul, spin_mul, map_pow, ← mul_pow]
  have hsum : ∑ i ∈ Finset.range n, spin n (k * i) * (starRingEnd ℂ) (spin n (l * i)) =
      ∑ i ∈ Finset.range n, z ^ i := Finset.sum_congr rfl fun i _ => hterm i
  rw [hsum]
  by_cases heq : k = l
  · have hz : z = 1 := by
      rw [← spin_mul_conj n l]
      simp only [z, heq]
    simp [heq, hz]
  · have hz : z ≠ 1 := by
      intro hone
      refine heq (spin_injOn hk hl ?_)
      -- both are inverse to the same number
      have hinverse : spin n k * (starRingEnd ℂ) (spin n l) =
          spin n l * (starRingEnd ℂ) (spin n l) := hone.trans (spin_mul_conj n l).symm
      exact mul_right_cancel₀ (right_ne_zero_of_mul_eq_one hone) hinverse
    have hround : z ^ n = 1 := by
      rw [← hterm n, Nat.mul_comm k, Nat.mul_comm l, spin_self_mul, spin_self_mul, map_one, mul_one]
    rw [if_neg heq, geom_sum_eq hz, hround, sub_self, zero_div]

end Fourier

namespace Codebook

/-! ## Beams of a panel -/

variable {size : PanelSize} {p q : ℕ}

theorem elementSpin_comm (size : PanelSize) (k i : ℕ) : elementSpin size k i = elementSpin size i k := by
  rw [elementSpin, elementSpin, Nat.mul_comm (k % _), Nat.mul_comm (k / _)]

theorem beamWeight_comm (size : PanelSize) (k i : ℕ) : beamWeight size k i = beamWeight size i k := by
  rw [beamWeight, beamWeight, elementSpin_comm]

/-- A beam is given by its frequencies along both axes. -/
theorem place_inj (size : PanelSize) (p q : ℕ) :
    p % size.columns = q % size.columns ∧ p / size.columns = q / size.columns ↔ p = q := by
  constructor
  · rintro ⟨hcolumn, hrow⟩
    rw [← Nat.mod_add_div p size.columns, ← Nat.mod_add_div q size.columns, hcolumn, hrow]
  · rintro rfl
    exact ⟨rfl, rfl⟩

theorem sum_elementSpin_mul_conj (hp : p < size.count) (hq : q < size.count) :
    ∑ i ∈ Finset.range size.count, elementSpin size p i * (starRingEnd ℂ) (elementSpin size q i) =
      if p = q then (size.count : ℂ) else 0 := by
  obtain ⟨c, r⟩ := size
  have hc : 0 < c := Nat.pos_of_mul_pos_right (Nat.zero_lt_of_lt hp)
  let along (n k l i : ℕ) : ℂ := spin n (k * i) * (starRingEnd ℂ) (spin n (l * i))
  have helement : ∀ m, ∀ l ∈ Finset.range c,
      elementSpin ⟨c, r⟩ p (l + c * m) * (starRingEnd ℂ) (elementSpin ⟨c, r⟩ q (l + c * m)) =
        along c (p % c) (q % c) l * along r (p / c) (q / c) m := by
    intro m l hl
    have hl' := Finset.mem_range.mp hl
    simp only [elementSpin, along, Nat.add_mul_mod_self_left, Nat.mod_eq_of_lt hl',
      Nat.add_mul_div_left _ _ hc, Nat.div_eq_of_lt hl', Nat.zero_add, map_mul]
    ring
  have hcolumns : ∑ l ∈ Finset.range c, along c (p % c) (q % c) l = if p % c = q % c then (c : ℂ) else 0 :=
    sum_spin_mul_conj (Nat.mod_lt p hc) (Nat.mod_lt q hc)
  have hrows : ∑ m ∈ Finset.range r, along r (p / c) (q / c) m = if p / c = q / c then (r : ℂ) else 0 :=
    sum_spin_mul_conj (Nat.div_lt_of_lt_mul hp) (Nat.div_lt_of_lt_mul hq)
  have hplace := place_inj ⟨c, r⟩ p q
  calc ∑ i ∈ Finset.range (c * r),
        elementSpin ⟨c, r⟩ p i * (starRingEnd ℂ) (elementSpin ⟨c, r⟩ q i)
    _ = ∑ m ∈ Finset.range r, ∑ l ∈ Finset.range c,
          along c (p % c) (q % c) l * along r (p / c) (q / c) m := by
        rw [sum_range_mul]
        exact Finset.sum_congr rfl fun m _ => Finset.sum_congr rfl (helement m)
    _ = (∑ l ∈ Finset.range c, along c (p % c) (q % c) l) *
          ∑ m ∈ Finset.range r, along r (p / c) (q / c) m := by
        rw [Finset.mul_sum]
        exact Finset.sum_congr rfl fun m _ => (Finset.sum_mul ..).symm
    _ = if p = q then ((c * r : ℕ) : ℂ) else 0 := by
        rw [hcolumns, hrows, ite_zero_mul_ite_zero, if_congr hplace rfl rfl, Nat.cast_mul]

/-- Two beams have the product one if they are the same, and zero otherwise. -/
theorem sum_beamWeight_mul_conj (hp : p < size.count) (hq : q < size.count) :
    ∑ i ∈ Finset.range size.count, beamWeight size p i * (starRingEnd ℂ) (beamWeight size q i) =
      if p = q then 1 else 0 := by
  have hcount : (0 : ℝ) < size.count := Nat.cast_pos.mpr (Nat.zero_lt_of_lt hp)
  have hnorm : (((√size.count)⁻¹ : ℝ) : ℂ) * ((√size.count)⁻¹ : ℝ) * (size.count : ℂ) = 1 := by
    rw [← Complex.ofReal_natCast, ← Complex.ofReal_mul, ← Complex.ofReal_mul, ← mul_inv,
      Real.mul_self_sqrt hcount.le, inv_mul_cancel₀ hcount.ne', Complex.ofReal_one]
  have helement : ∀ i, beamWeight size p i * (starRingEnd ℂ) (beamWeight size q i) =
      ((√size.count)⁻¹ : ℝ) * ((√size.count)⁻¹ : ℝ) *
        (elementSpin size p i * (starRingEnd ℂ) (elementSpin size q i)) := by
    intro i
    rw [beamWeight, beamWeight, map_mul, Complex.conj_ofReal]
    ring
  rw [Finset.sum_congr rfl fun i _ => helement i, ← Finset.mul_sum, sum_elementSpin_mul_conj hp hq,
    mul_ite, hnorm, mul_zero]

/-- Any weights are the sum of their parts along the beams. -/
theorem sum_parts_beamWeight (x : ℕ → ℂ) {i : ℕ} (hi : i < size.count) :
    ∑ k ∈ Finset.range size.count,
      (∑ j ∈ Finset.range size.count, x j * (starRingEnd ℂ) (beamWeight size k j)) *
        beamWeight size k i = x i := by
  have hpart : ∀ j ∈ Finset.range size.count,
      ∑ k ∈ Finset.range size.count,
        x j * (starRingEnd ℂ) (beamWeight size k j) * beamWeight size k i =
        if i = j then x j else 0 := by
    intro j hj
    have hproduct := sum_beamWeight_mul_conj hi (Finset.mem_range.mp hj)
    have hterm : ∀ k, x j * (starRingEnd ℂ) (beamWeight size k j) * beamWeight size k i =
        x j * (beamWeight size i k * (starRingEnd ℂ) (beamWeight size j k)) := by
      intro k
      rw [beamWeight_comm size k j, beamWeight_comm size k i]
      ring
    rw [Finset.sum_congr rfl fun k _ => hterm k, ← Finset.mul_sum, hproduct, mul_ite, mul_one,
      mul_zero]
  simp only [Finset.sum_mul]
  rw [Finset.sum_comm, Finset.sum_congr rfl hpart, Finset.sum_ite_eq, if_pos (Finset.mem_range.mpr hi)]

/-- Beams with these weights are an orthonormal basis of all weights of a panel's elements. -/
structure IsBasis (size : PanelSize) (weight : ℕ → ℕ → ℂ) : Prop where
  orthonormal : ∀ p < size.count, ∀ q < size.count,
    ∑ i ∈ Finset.range size.count, weight p i * (starRingEnd ℂ) (weight q i) = if p = q then 1 else 0
  complete : ∀ x : ℕ → ℂ, ∀ i < size.count, ∑ k ∈ Finset.range size.count,
    (∑ j ∈ Finset.range size.count, x j * (starRingEnd ℂ) (weight k j)) * weight k i = x i

theorem isBasis_beamWeight (size : PanelSize) : IsBasis size (beamWeight size) where
  orthonormal _ hp _ hq := sum_beamWeight_mul_conj hp hq
  complete x _ hi := sum_parts_beamWeight x hi

theorem dot_conj_eq {v w : List (Phasor ℝ)} (hv : v.length = size.count)
    (hbeam : ∀ i < size.count, coord v i = beamWeight size p i)
    (hbeam' : ∀ i < size.count, coord w i = beamWeight size q i) :
    (Matrix.dot v (w.map Phasor.conj)).toComplex =
      ∑ i ∈ Finset.range size.count, beamWeight size p i * (starRingEnd ℂ) (beamWeight size q i) := by
  have hlength : min v.length (w.map Phasor.conj).length ≤ size.count := (min_le_left _ _).trans hv.le
  rw [toComplex_dot v (w.map Phasor.conj) hlength]
  refine Finset.sum_congr rfl fun i hi => ?_
  have hi' := Finset.mem_range.mp hi
  rw [coord_map_conj, hbeam i hi', hbeam' i hi']

/-- The beams of a panel of any size are an orthonormal basis. They are the beams that the panel computes,
as long as products of places and the number of elements stay in a machine word: then each of the first
`size.count` indices is answered with a beam, and the product of any two answers is one for the same index
and zero for different ones. -/
theorem beams_orthonormal (size : PanelSize) : IsBasis size (beamWeight size) ∧
    (size.Indexable → size.wordCount = size.count →
      (∀ k < size.count, ∃ w, (beam size k : Except (Fault ℝ) _) = .ok w ∧ w.length = size.count ∧
        ∀ i < size.count, coord w i = beamWeight size k i) ∧
      ∀ p < size.count, ∀ q < size.count, ∀ v w : List (Phasor ℝ),
        (beam size p : Except (Fault ℝ) _) = .ok v → (beam size q : Except (Fault ℝ) _) = .ok w →
        (Matrix.dot v (w.map Phasor.conj)).toComplex = if p = q then 1 else 0) := by
  have hbasis := isBasis_beamWeight size
  refine ⟨hbasis, fun hsize hcount => ⟨fun k hk => beam_ok_of_indexable hsize hcount hk, ?_⟩⟩
  intro p hp q hq v w hv hw
  obtain ⟨v', hv', hlength, hbeam⟩ := beam_ok_of_indexable hsize hcount hp
  obtain ⟨w', hw', -, hbeam'⟩ := beam_ok_of_indexable hsize hcount hq
  obtain rfl : v' = v := Except.ok.inj (hv'.symm.trans hv)
  obtain rfl : w' = w := Except.ok.inj (hw'.symm.trans hw)
  rw [dot_conj_eq hlength hbeam hbeam']
  exact hbasis.orthonormal p hp q hq

/-- The second and the fourth beam of a panel of three columns and two rows are computed and are
orthogonal. -/
theorem beams_orthonormal_oblong :
    let size : PanelSize := ⟨3, 2⟩
    size.Indexable ∧ size.wordCount = size.count ∧
      ∃ v w : List (Phasor ℝ), beam size 1 = .ok v ∧ beam size 3 = .ok w ∧
        (Matrix.dot v (w.map Phasor.conj)).toComplex = 0 := by
  intro size
  have hsize : size.Indexable := ⟨by decide, by decide⟩
  have hcount : size.wordCount = size.count := by decide
  obtain ⟨-, hcomputed⟩ := beams_orthonormal size
  obtain ⟨hanswers, hproducts⟩ := hcomputed hsize hcount
  obtain ⟨v, hv, -⟩ := hanswers 1 (by decide)
  obtain ⟨w, hw, -⟩ := hanswers 3 (by decide)
  have hproduct := hproducts 1 (by decide) 3 (by decide) v w hv hw
  refine ⟨hsize, hcount, v, w, hv, hw, ?_⟩
  rw [hproduct, if_neg (by decide)]

end Codebook

end RadioChannel
