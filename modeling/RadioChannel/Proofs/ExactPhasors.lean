import RadioChannel.Linear.Matrix
import RadioChannel.Proofs.Actions
import RadioChannel.Proofs.ExactScalars
import Mathlib.Data.Matrix.Mul
import Mathlib.LinearAlgebra.Matrix.ConjTranspose

/-!
# Exact phasors

A phasor with exact parts is a complex number, a list of phasors its sequence of coordinates, filled
up with zeros, and a list of rows the matrix of its coordinates. The operations on phasors and lists
are those on complex numbers, sums and matrices.
-/

/-- Complex matrices with so many rows and columns. -/
abbrev ComplexMatrix (m n : ℕ) := Matrix (Fin m) (Fin n) ℂ

namespace RadioChannel

open ExactScalars

namespace Phasor

/-- A phasor as a complex number. -/
def toComplex (z : Phasor ℝ) : ℂ := ⟨z.re, z.im⟩

@[simp] theorem toComplex_zero : (zero : Phasor ℝ).toComplex = 0 := by
  apply Complex.ext <;> simp [toComplex, zero]

@[simp] theorem toComplex_add (z w : Phasor ℝ) : (z + w).toComplex = z.toComplex + w.toComplex := rfl

@[simp] theorem toComplex_sub (z w : Phasor ℝ) : (z - w).toComplex = z.toComplex - w.toComplex := rfl

@[simp] theorem toComplex_mul (z w : Phasor ℝ) : (z * w).toComplex = z.toComplex * w.toComplex := by
  apply Complex.ext <;> rfl

@[simp] theorem toComplex_conj (z : Phasor ℝ) :
    z.conj.toComplex = (starRingEnd ℂ) z.toComplex := rfl

theorem toComplex_injective : Function.Injective Phasor.toComplex := by
  rintro ⟨x, y⟩ ⟨u, v⟩ h
  exact congrArg₂ Phasor.mk (congrArg Complex.re h) (congrArg Complex.im h)

theorem normSq_eq (z : Phasor ℝ) : z.normSq = Complex.normSq z.toComplex := rfl

@[simp] theorem toComplex_ofReal (x : ℝ) : (ofReal x).toComplex = x := by
  apply Complex.ext
  · rfl
  · exact zero_eq

@[simp] theorem toComplex_scale (z : Phasor ℝ) (k : ℝ) : (z.scale k).toComplex = k * z.toComplex := by
  rw [mul_comm, Complex.ext_iff, Complex.re_mul_ofReal, Complex.im_mul_ofReal]
  exact ⟨rfl, rfl⟩

@[simp] theorem toComplex_shrink (z : Phasor ℝ) (k : ℝ) :
    (z.shrink k).toComplex = z.toComplex / k := by
  rw [Complex.ext_iff, Complex.div_ofReal_re, Complex.div_ofReal_im]
  exact ⟨rfl, rfl⟩

@[simp] theorem toComplex_div (z w : Phasor ℝ) : (z / w).toComplex = z.toComplex / w.toComplex := by
  apply Complex.ext
  · rw [Complex.div_re, ← add_div]
    rfl
  · rw [Complex.div_im, ← sub_div]
    rfl

theorem toComplex_polar (x t : ℝ) : (polar x t).toComplex = x * Complex.exp (t * Complex.I) := by
  apply Complex.ext
  · rw [Complex.re_ofReal_mul, Complex.exp_ofReal_mul_I_re]
    rfl
  · rw [Complex.im_ofReal_mul, Complex.exp_ofReal_mul_I_im]
    rfl

@[simp] theorem toComplex_sum (zs : List (Phasor ℝ)) :
    (sum zs).toComplex = (zs.map toComplex).sum := by
  suffices hfold : ∀ z : Phasor ℝ,
      (zs.foldl (· + ·) z).toComplex = z.toComplex + (zs.map toComplex).sum by
    rw [sum, hfold, toComplex_zero, zero_add]
  induction zs with
  | nil => simp
  | cons w zs ih =>
    intro z
    rw [List.foldl_cons, ih, toComplex_add, List.map_cons, List.sum_cons, add_assoc]

theorem toComplex_sum_range (f : ℕ → Phasor ℝ) (n : ℕ) :
    (sum ((List.range n).map f)).toComplex = ∑ k ∈ Finset.range n, (f k).toComplex := by
  rw [toComplex_sum, List.map_map]
  rfl

end Phasor

/-! ## Coordinates -/

/-- The coordinates of a list, with zeros beyond its end. -/
noncomputable def coord (row : List (Phasor ℝ)) (k : ℕ) : ℂ := (row[k]?.getD .zero).toComplex

@[simp] theorem coord_nil (k : ℕ) : coord [] k = 0 := Phasor.toComplex_zero

@[simp] theorem coord_cons_zero (z : Phasor ℝ) (row : List (Phasor ℝ)) :
    coord (z :: row) 0 = z.toComplex := rfl

@[simp] theorem coord_cons_succ (z : Phasor ℝ) (row : List (Phasor ℝ)) (k : ℕ) :
    coord (z :: row) (k + 1) = coord row k := rfl

theorem coord_of_length_le {row : List (Phasor ℝ)} {k : ℕ} (h : row.length ≤ k) :
    coord row k = 0 := by
  rw [coord, List.getElem?_eq_none h]
  exact Phasor.toComplex_zero

theorem coord_append_left {row : List (Phasor ℝ)} {k : ℕ} (h : k < row.length)
    (more : List (Phasor ℝ)) : coord (row ++ more) k = coord row k := by
  rw [coord, List.getElem?_append_left h, coord]

@[simp] theorem coord_append_length (row : List (Phasor ℝ)) (z : Phasor ℝ)
    (more : List (Phasor ℝ)) : coord (row ++ z :: more) row.length = z.toComplex := by
  simp [coord]

theorem coord_map {f : Phasor ℝ → Phasor ℝ} {g : ℂ → ℂ} (hf : ∀ z, (f z).toComplex = g z.toComplex)
    (hg : g 0 = 0) (row : List (Phasor ℝ)) (k : ℕ) : coord (row.map f) k = g (coord row k) := by
  rw [coord, coord, List.getElem?_map]
  cases row[k]? with
  | none => simp [hg]
  | some z => exact hf z

theorem coord_of_entryAt {row : List (Phasor ℝ)} {k : ℕ} {z : Phasor ℝ}
    (h : (entryAt row k : Except (Fault ℝ) _) = .ok z) : coord row k = z.toComplex := by
  rw [coord, entryAt_ok.mp h, Option.getD_some]

theorem coord_padTo (n : ℕ) (row : List (Phasor ℝ)) (k : ℕ) :
    coord (Matrix.padTo n row) k = coord row k := by
  by_cases h : k < row.length
  · exact coord_append_left h _
  · rw [coord_of_length_le (not_lt.mp h), coord, Matrix.padTo, List.getElem?_append_right (not_lt.mp h),
      List.getElem?_replicate]
    split <;> exact Phasor.toComplex_zero

/-- The scalar product as a sum of products of coordinates, as far as one of the lists goes. -/
theorem toComplex_dot (xs ys : List (Phasor ℝ)) {n : ℕ} (h : min xs.length ys.length ≤ n) :
    (Matrix.dot xs ys).toComplex = ∑ k ∈ Finset.range n, coord xs k * coord ys k := by
  rw [Matrix.dot, Phasor.toComplex_sum]
  induction n generalizing xs ys with
  | zero =>
    rcases Nat.min_eq_zero_iff.mp (Nat.le_zero.mp h) with hx | hy
    · simp [List.length_eq_zero_iff.mp hx]
    · simp [List.length_eq_zero_iff.mp hy]
  | succ n ih =>
    cases xs with
    | nil => simp
    | cons x xs =>
      cases ys with
      | nil => simp
      | cons y ys =>
        rw [Finset.sum_range_succ', List.zipWith_cons_cons, List.map_cons, List.sum_cons,
          Phasor.toComplex_mul, ih xs ys (by simpa using h), add_comm]
        rfl

@[simp] theorem coord_map_conj (row : List (Phasor ℝ)) (k : ℕ) :
    coord (row.map Phasor.conj) k = (starRingEnd ℂ) (coord row k) :=
  coord_map Phasor.toComplex_conj (map_zero _) row k

/-- The sum of the squared moduli is the scalar product with the conjugate. -/
theorem sum_normSq_eq (row : List (Phasor ℝ)) :
    ((Scalar.sum (row.map Phasor.normSq) : ℝ) : ℂ) =
      ∑ k ∈ Finset.range row.length, coord row k * (starRingEnd ℂ) (coord row k) := by
  rw [sum_eq]
  induction row with
  | nil => simp
  | cons z row ih =>
    rw [List.length_cons, Finset.sum_range_succ', List.map_cons, List.sum_cons, Complex.ofReal_add,
      ih, add_comm, coord_cons_zero, Complex.mul_conj, Phasor.normSq_eq]
    rfl

theorem sum_normSq_coord (row : List (Phasor ℝ)) :
    ∑ i ∈ Finset.range row.length, Complex.normSq (coord row i) = Scalar.sum (row.map Phasor.normSq) := by
  have hsum := sum_normSq_eq row
  simp only [Complex.mul_conj] at hsum
  exact_mod_cast hsum.symm

/-- The matrix of the coordinates of rows. -/
noncomputable def toMatrix (m n : ℕ) (rows : Matrix ℝ) : ComplexMatrix m n :=
  .of fun i j => coord (rows[i.val]?.getD []) j.val

@[simp] theorem toMatrix_apply (m n : ℕ) (rows : Matrix ℝ) (i : Fin m) (j : Fin n) :
    toMatrix m n rows i j = coord (rows[i.val]?.getD []) j.val := rfl

/-- The vector of the coordinates of a list. -/
noncomputable def toVector (n : ℕ) (row : List (Phasor ℝ)) : Fin n → ℂ := fun k => coord row k.val

@[simp] theorem toVector_apply (n : ℕ) (row : List (Phasor ℝ)) (k : Fin n) :
    toVector n row k = coord row k.val := rfl

end RadioChannel
