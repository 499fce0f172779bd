import RadioChannel.Linear.LeastSquares
import RadioChannel.Proofs.Factorization

/-!
# Precoders

On exact numbers the solution operator of regularized least squares is what its name says: the normal
matrix times the operator is the adjoint. Without regularization the operator of an invertible matrix
is its inverse.
-/

namespace RadioChannel

open ExactScalars

namespace LeastSquares

variable {h x : Matrix ℝ} {n0 : ℝ} {m n : ℕ}

/-! ## Normal matrices -/

theorem coord_column {i : ℕ} {a : List (Phasor ℝ)} (ha : column h i = .ok a) (r : ℕ) :
    coord a r = coord (h[r]?.getD []) i := by
  have hentries := except_mapM_ok.mp ha
  cases hr : h[r]? with
  | none =>
    have hle : a.length ≤ r := hentries.length_eq ▸ List.getElem?_eq_none_iff.mp hr
    rw [coord_of_length_le hle, Option.getD_none, coord_nil]
  | some row =>
    obtain ⟨z, hz, hentry⟩ := exists_of_forall₂ hentries hr
    rw [coord, hz, Option.getD_some, Option.getD_some, coord_of_entryAt hentry]

theorem toComplex_inner {i j : Fin n} {a b : List (Phasor ℝ)} (hm : h.length = m)
    (ha : column h i = .ok a) (hb : column h j = .ok b) :
    (inner a b).toComplex = ((toMatrix m n h).conjTranspose * toMatrix m n h) i j := by
  have hlength : b.length = m := (except_mapM_ok.mp hb).length_eq.symm.trans hm
  rw [inner, toComplex_dot _ b (Nat.min_le_right _ _), hlength, Matrix.mul_apply,
    ← Fin.sum_univ_eq_sum_range]
  refine Finset.sum_congr rfl fun r _ => ?_
  rw [coord_map_conj, coord_column ha, coord_column hb]
  rfl

theorem toComplex_addReal (a : Phasor ℝ) (x : ℝ) : (addReal a x).toComplex = a.toComplex + x := by
  apply Complex.ext
  · rfl
  · exact (add_zero _).symm

/-- The normal matrix is the product of the adjoint with the matrix, plus the regularization. -/
theorem normal_ok {g : Matrix ℝ} (hm : h.length = m) (hn : Matrix.columns h = n)
    (hg : normal h n0 = .ok g) :
    g.length = n ∧ toMatrix n n g =
      (toMatrix m n h).conjTranspose * toMatrix m n h + (n0 : ℂ) • (1 : ComplexMatrix n n) := by
  rw [normal, except_bind_ok, hn] at hg
  obtain ⟨columns, hcolumns, hg⟩ := hg
  obtain rfl := Except.ok.inj hg
  have hcolumns' := except_mapM_ok.mp hcolumns
  have hcolumn : ∀ i : Fin n, ∃ a, columns[i.val]? = some a ∧ column h i = .ok a := fun i =>
    exists_of_forall₂ hcolumns' (by rw [List.getElem?_range i.isLt])
  refine ⟨by rw [List.length_map, List.length_zipIdx, ← hcolumns'.length_eq, List.length_range], ?_⟩
  ext i j
  obtain ⟨a, ha, ha'⟩ := hcolumn i
  obtain ⟨b, hb, hb'⟩ := hcolumn j
  rw [toMatrix_apply, Matrix.add_apply, ← toComplex_inner hm ha' hb', Matrix.smul_apply,
    Matrix.one_apply, coord]
  simp only [List.getElem?_map, List.getElem?_zipIdx, ha, hb, Option.map_some, Option.getD_some,
    Nat.zero_add, Fin.ext_iff]
  split
  · rw [toComplex_addReal, smul_eq_mul, mul_one]
  · rw [smul_zero, add_zero]

/-- The factor of the normal matrix is a root of it. -/
theorem factor_ok {l : Matrix ℝ} (hm : h.length = m) (hn : Matrix.columns h = n)
    (hl : factor h n0 = .ok l) :
    l.length = n ∧ Cholesky.IsRoot (toMatrix n n l)
      ((toMatrix m n h).conjTranspose * toMatrix m n h + (n0 : ℂ) • (1 : ComplexMatrix n n)) := by
  rw [factor, except_bind_ok] at hl
  obtain ⟨g, hg, hl⟩ := hl
  obtain ⟨hglength, hnormal⟩ := normal_ok hm hn hg
  have hhermitian : (toMatrix n n g).IsHermitian := by
    rw [hnormal]
    refine (Matrix.isHermitian_conjTranspose_mul_self _).add ?_
    rw [Matrix.IsHermitian, Matrix.conjTranspose_smul, Matrix.conjTranspose_one]
    congr 1
    exact Complex.conj_ofReal n0
  rw [← hnormal]
  exact Cholesky.isRoot_of_factor hglength hl hhermitian

/-! ## Solutions -/

/-- With a root of a matrix its systems are solved. -/
theorem solveFactored_ok {l : Matrix ℝ} {matrix : ComplexMatrix n n} {b y : List (Phasor ℝ)}
    (hlength : l.length = n) (hroot : Cholesky.IsRoot (toMatrix n n l) matrix)
    (hy : solveFactored l b = .ok y) :
    y.length = n ∧ matrix.mulVec (toVector n y) = toVector n b := by
  rw [solveFactored, except_bind_ok] at hy
  obtain ⟨z, hforward, hback⟩ := hy
  obtain ⟨hylength, hy⟩ := Cholesky.back_ok hroot hlength hback
  refine ⟨hylength, ?_⟩
  rw [← hroot.product, ← Matrix.mulVec_mulVec, hy]
  exact Cholesky.forward_ok hroot hlength hforward

/-- The normal matrix times the solution operator is the adjoint. -/
theorem solveMatrix_ok (hm : h.length = m) (hn : Matrix.columns h = n)
    (hx : solveMatrix h n0 = .ok x) :
    x.length = n ∧
      ((toMatrix m n h).conjTranspose * toMatrix m n h + (n0 : ℂ) • (1 : ComplexMatrix n n)) *
        toMatrix n m x = (toMatrix m n h).conjTranspose := by
  rw [solveMatrix, except_bind_ok] at hx
  obtain ⟨l, hl, hx⟩ := hx
  rw [except_bind_ok] at hx
  obtain ⟨columns, hcolumns, hx⟩ := hx
  obtain rfl := Except.ok.inj hx
  obtain ⟨hllength, hroot⟩ := factor_ok hm hn hl
  let g := (toMatrix m n h).conjTranspose * toMatrix m n h + (n0 : ℂ) • (1 : ComplexMatrix n n)
  have hcolumn : ∀ r : Fin m, ∃ y, columns[r.val]? = some y ∧
      g.mulVec (toVector n y) = toVector n ((h[r.val]?.getD []).map Phasor.conj) := by
    intro r
    have hr : h[r.val]? = some (h[r.val]?.getD []) := by
      rw [List.getElem?_eq_getElem (by omega), Option.getD_some]
    obtain ⟨y, hy, hsolved⟩ := exists_of_forall₂ (except_mapM_ok.mp hcolumns) hr
    exact ⟨y, hy, (solveFactored_ok hllength hroot hsolved).2⟩
  have hentry : ∀ (i : Fin n) (r : Fin m) y, columns[r.val]? = some y →
      toMatrix n m (ofColumns l.length columns) i r = coord y i := by
    intro i r y hy
    have hi : i.val < l.length := by omega
    rw [toMatrix_apply, ofColumns, List.getElem?_map, List.getElem?_range hi, Option.map_some,
      Option.getD_some, coord, List.getElem?_map, hy, Option.map_some, Option.getD_some, coord]
  refine ⟨by rw [ofColumns, List.length_map, List.length_range, hllength], ?_⟩
  ext i r
  obtain ⟨y, hy, hsolved⟩ := hcolumn r
  have hrow := congrFun hsolved i
  rw [toVector_apply, coord_map_conj] at hrow
  rw [Matrix.mul_apply, Matrix.conjTranspose_apply]
  calc ∑ j, g i j * toMatrix n m (ofColumns l.length columns) j r
    _ = ∑ j, g i j * toVector n y j :=
        Finset.sum_congr rfl fun j _ => by rw [hentry j r y hy, toVector_apply]
    _ = (starRingEnd ℂ) (toMatrix m n h r i) := hrow

/-- Where there is a solution operator, the normal matrix is invertible. -/
theorem isUnit_normal (hm : h.length = m) (hn : Matrix.columns h = n)
    (hx : solveMatrix h n0 = .ok x) :
    IsUnit ((toMatrix m n h).conjTranspose * toMatrix m n h +
      (n0 : ℂ) • (1 : ComplexMatrix n n)) := by
  obtain ⟨l, hl, -⟩ := except_bind_ok.mp hx
  exact (factor_ok hm hn hl).2.isUnit

/-- Without regularization the solution operator of an invertible matrix is its inverse. -/
theorem mul_eq_one_of_normal {H X : ComplexMatrix n n} (hH : IsUnit H)
    (hX : (H.conjTranspose * H + (0 : ℂ) • (1 : ComplexMatrix n n)) * X = H.conjTranspose) :
    H * X = 1 := by
  rw [zero_smul, add_zero, Matrix.mul_assoc] at hX
  have hadjoint : IsUnit H.conjTranspose := hH.star
  refine hadjoint.mul_left_cancel ?_
  rw [hX, Matrix.mul_one]

end LeastSquares

end RadioChannel
