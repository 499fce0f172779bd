import RadioChannel.Proofs.Pivots
import RadioChannel.Proofs.Precoding
import Mathlib.LinearAlgebra.Matrix.NonsingularInverse

/-!
# Which systems are solved

The normal matrix of regularized least squares is positive definite for every positive regularization,
and without one exactly when the columns are independent. Then it has a factor, both substitutions come
to their end, and the solution of a system is the solution operator applied to its right side. In all
other cases the pivot that is not positive is reported, by the operator and for every right side alike.
-/

namespace RadioChannel

open ExactScalars
open scoped ComplexOrder

namespace Cholesky

/-! ## Substitution comes to its end -/

variable {n : ℕ} {l : Matrix ℝ} {b : List (Phasor ℝ)}

theorem exists_forwardFrom {rows : Matrix ℝ} {found bs : List (Phasor ℝ)}
    (hwidth : ∀ row ∈ rows, found.length + rows.length ≤ row.length)
    (hlength : rows.length ≤ bs.length) : ∃ z, forwardFrom found rows bs = .ok z := by
  induction rows generalizing found bs with
  | nil => exact ⟨found, by rw [forwardFrom]⟩
  | cons row rows ih =>
    obtain ⟨b, bs, rfl⟩ := List.exists_cons_of_length_pos (Nat.zero_lt_of_lt hlength)
    rw [List.forall_mem_cons, List.length_cons] at hwidth
    have hdiagonal : found.length < row.length := by omega
    have hentry := (entryAt_ok (R := ℝ)).mpr (List.getElem?_eq_getElem hdiagonal)
    rw [forwardFrom, hentry]
    refine ih (fun r hr => ?_) (Nat.le_of_succ_le_succ hlength)
    have hr' := hwidth.2 r hr
    rw [List.length_append, List.length_singleton]
    omega

theorem exists_backFrom {i : ℕ} {rows : Matrix ℝ} {zs : List (Phasor ℝ)}
    (hwidth : ∀ row ∈ rows, i + rows.length ≤ row.length) (hlength : rows.length ≤ zs.length) :
    ∃ x, backFrom i rows zs = .ok x := by
  induction rows generalizing i zs with
  | nil => exact ⟨[], by rw [backFrom]⟩
  | cons row rows ih =>
    obtain ⟨z, zs, rfl⟩ := List.exists_cons_of_length_pos (Nat.zero_lt_of_lt hlength)
    rw [List.forall_mem_cons, List.length_cons] at hwidth
    obtain ⟨found, hfound⟩ := ih (i := i + 1) (fun r hr => by
      have hr' := hwidth.2 r hr
      omega) (Nat.le_of_succ_le_succ hlength)
    have hdiagonal : i < row.length := by omega
    have hentry := (entryAt_ok (R := ℝ)).mpr (List.getElem?_eq_getElem hdiagonal)
    obtain ⟨entries, hentries⟩ : ∃ entries,
        rows.mapM (fun r => (entryAt r i : Except (Fault ℝ) _)) = .ok entries := by
      refine exists_mapM_ok fun r hr => ⟨_, entryAt_ok.mpr (List.getElem?_eq_getElem ?_)⟩
      have hr' := hwidth.2 r hr
      omega
    rw [backFrom, hfound]
    change ∃ x, (entryAt row i >>= fun diagonal => below i rows found >>= fun rest =>
      pure (((z - rest) / diagonal.conj) :: found)) = Except.ok x
    rw [hentry, below, hentries]
    exact ⟨_, rfl⟩

end Cholesky

namespace LeastSquares

variable {m n : ℕ} {h l x : Matrix ℝ} {b y : List (Phasor ℝ)} {n0 : ℝ}

theorem exists_solveFactored (hl : Matrix.HasSize n n l) (hb : b.length = n) :
    ∃ y, solveFactored l b = .ok y := by
  obtain ⟨z, hz⟩ : ∃ z, Cholesky.forwardFrom [] l b = .ok z := by
    refine Cholesky.exists_forwardFrom (fun row hrow => ?_) (by rw [hl.height, hb])
    rw [List.length_nil, Nat.zero_add, hl.width row hrow, hl.height]
  have hlength : z.length = n := by
    rw [(Cholesky.forwardFrom_ok hz).1, List.length_nil, Nat.zero_add, hl.height]
  obtain ⟨y, hy⟩ : ∃ y, Cholesky.backFrom 0 l z = .ok y := by
    refine Cholesky.exists_backFrom (fun row hrow => ?_) (by rw [hl.height, hlength])
    rw [Nat.zero_add, hl.width row hrow, hl.height]
  exact ⟨y, except_bind_ok.mpr ⟨z, hz, hy⟩⟩

/-! ## Normal matrices -/

/-- The normal matrix of regularized least squares. -/
noncomputable def normalMatrix (g : ComplexMatrix m n) (n0 : ℝ) : ComplexMatrix n n :=
  g.conjTranspose * g + (n0 : ℂ) • (1 : ComplexMatrix n n)

theorem isHermitian_normalMatrix (g : ComplexMatrix m n) (n0 : ℝ) : (normalMatrix g n0).IsHermitian := by
  refine (Matrix.isHermitian_conjTranspose_mul_self g).add ?_
  rw [Matrix.IsHermitian, Matrix.conjTranspose_smul, Matrix.conjTranspose_one]
  congr 1
  exact Complex.conj_ofReal n0

/-- A positive regularization makes every normal matrix positive definite. -/
theorem posDef_normalMatrix (g : ComplexMatrix m n) (hn0 : 0 < n0) : (normalMatrix g n0).PosDef := by
  refine .posSemidef_add (Matrix.posSemidef_conjTranspose_mul_self g) ?_
  exact Matrix.PosDef.one.smul (Complex.zero_lt_real.mpr hn0)

/-- Without regularization the normal matrix is positive definite if and only if the columns are
independent. -/
theorem posDef_normalMatrix_zero_iff (g : ComplexMatrix m n) :
    (normalMatrix g 0).PosDef ↔ LinearIndependent ℂ g.col := by
  rw [normalMatrix, Complex.ofReal_zero, zero_smul, add_zero, ← Matrix.mulVec_injective_iff]
  constructor
  · intro hdefinite a b hab
    refine Matrix.mulVec_injective_of_isUnit hdefinite.isUnit ?_
    rw [← Matrix.mulVec_mulVec, ← Matrix.mulVec_mulVec, hab]
  · exact Matrix.PosDef.conjTranspose_mul_self g

theorem exists_column (hsize : Matrix.HasSize m n h) {i : ℕ} (hi : i < n) :
    ∃ a, column h i = .ok a := by
  refine exists_mapM_ok fun row hrow => ⟨_, entryAt_ok.mpr (List.getElem?_eq_getElem ?_)⟩
  rwa [hsize.width row hrow]

theorem exists_columns (hsize : Matrix.HasSize m n h) :
    ∃ columns, (List.range n).mapM (column h) = .ok columns :=
  exists_mapM_ok fun _ hi => exists_column hsize (List.mem_range.mp hi)

/-- The normal matrix of a matrix that has the number of columns that it names. -/
theorem exists_normal (hsize : Matrix.HasSize m n h) (hn : Matrix.columns h = n) (n0 : ℝ) :
    ∃ g, normal h n0 = .ok g ∧ Matrix.HasSize n n g ∧ toMatrix n n g = normalMatrix (toMatrix m n h) n0 := by
  obtain ⟨columns, hcolumns⟩ := exists_columns hsize
  have hlength : columns.length = n := by
    rw [← (except_mapM_ok.mp hcolumns).length_eq, List.length_range]
  rw [← hn] at hcolumns
  have hg : normal h n0 = .ok _ := except_bind_ok.mpr ⟨columns, hcolumns, rfl⟩
  obtain ⟨hheight, hmatrix⟩ := normal_ok hsize.height hn hg
  refine ⟨_, hg, ⟨hheight, fun row hrow => ?_⟩, hmatrix⟩
  obtain ⟨_, -, rfl⟩ := List.mem_map.mp hrow
  rw [List.length_map, List.length_zipIdx, hlength]

/-- The normal matrix has a factor if it is positive definite; otherwise a pivot is not positive. -/
theorem factor_outcome (hsize : Matrix.HasSize m n h) (hn : Matrix.columns h = n) (n0 : ℝ) :
    ((normalMatrix (toMatrix m n h) n0).PosDef ∧ ∃ l, factor h n0 = .ok l ∧ Matrix.HasSize n n l ∧
      Cholesky.IsRoot (toMatrix n n l) (normalMatrix (toMatrix m n h) n0)) ∨
    (¬ (normalMatrix (toMatrix m n h) n0).PosDef ∧
      ∃ p ≤ 0, factor h n0 = .error (.notPositiveDefinite p)) := by
  obtain ⟨g, hg, hgsize, hmatrix⟩ := exists_normal hsize hn n0
  have hhermitian : (toMatrix n n g).IsHermitian := hmatrix ▸ isHermitian_normalMatrix _ n0
  rw [factor, hg, ← hmatrix]
  rcases Cholesky.factor_outcome hgsize hhermitian with ⟨hdefinite, l, hl⟩ | hfail
  · exact Or.inl ⟨hdefinite, l, hl, Cholesky.hasSize_of_factor hgsize.height hl hhermitian,
      (Cholesky.isRoot_of_factor hgsize.height hl hhermitian).2⟩
  · exact Or.inr hfail

/-! ## Solutions -/

/-- The product of the adjoint of a matrix with a vector of as many entries as it has rows. -/
theorem exists_adjointTimes (hsize : Matrix.HasSize m n h) (hn : Matrix.columns h = n)
    (hy : y.length = m) : ∃ b, adjointTimes h y = .ok b ∧ b.length = n ∧
      toVector n b = (toMatrix m n h).conjTranspose.mulVec (toVector m y) := by
  obtain ⟨columns, hcolumns⟩ := exists_columns hsize
  have hsteps := except_mapM_ok.mp hcolumns
  rw [← hn] at hcolumns
  refine ⟨columns.map (inner · y), except_bind_ok.mpr ⟨columns, hcolumns, rfl⟩, ?_, ?_⟩
  · rw [List.length_map, ← hsteps.length_eq, List.length_range]
  funext i
  obtain ⟨a, ha, hcolumn⟩ := exists_of_forall₂ hsteps (List.getElem?_range i.isLt)
  rw [toVector_apply, coord, List.getElem?_map, ha, Option.map_some, Option.getD_some, inner,
    toComplex_dot _ y (Nat.min_le_right _ _), hy, Matrix.mulVec, dotProduct,
    ← Fin.sum_univ_eq_sum_range]
  refine Finset.sum_congr rfl fun r _ => ?_
  rw [coord_map_conj, coord_column hcolumn]
  rfl

/-- With a factor of its normal matrix every system is solved, and so is the one for the operator. -/
theorem exists_solve (hsize : Matrix.HasSize m n h) (hn : Matrix.columns h = n)
    (hl : factor h n0 = .ok l) (hlsize : Matrix.HasSize n n l)
    (hroot : Cholesky.IsRoot (toMatrix n n l) (normalMatrix (toMatrix m n h) n0)) (hy : y.length = m) :
    ∃ z, solve h y n0 = .ok z ∧ z.length = n ∧ (normalMatrix (toMatrix m n h) n0).mulVec (toVector n z) =
      (toMatrix m n h).conjTranspose.mulVec (toVector m y) := by
  obtain ⟨b, hb, hblength, hbvector⟩ := exists_adjointTimes hsize hn hy
  obtain ⟨z, hz⟩ := exists_solveFactored hlsize hblength
  obtain ⟨hzlength, hsolved⟩ := solveFactored_ok hlsize.height hroot hz
  exact ⟨z, except_bind_ok.mpr ⟨l, hl, except_bind_ok.mpr ⟨b, hb, hz⟩⟩, hzlength,
    hsolved.trans hbvector⟩

theorem exists_solveMatrix (hsize : Matrix.HasSize m n h) (hl : factor h n0 = .ok l)
    (hlsize : Matrix.HasSize n n l) : ∃ x, solveMatrix h n0 = .ok x ∧ Matrix.HasSize n m x := by
  obtain ⟨columns, hcolumns⟩ : ∃ columns,
      h.mapM (fun row => solveFactored l (row.map Phasor.conj)) = .ok columns :=
    exists_mapM_ok fun row hrow => exists_solveFactored hlsize (by
      rw [List.length_map, hsize.width row hrow])
  refine ⟨_, except_bind_ok.mpr ⟨l, hl, except_bind_ok.mpr ⟨columns, hcolumns, rfl⟩⟩, ?_, ?_⟩
  · rw [ofColumns, List.length_map, List.length_range, hlsize.height]
  · intro row hrow
    obtain ⟨_, -, rfl⟩ := List.mem_map.mp hrow
    rw [List.length_map, ← (except_mapM_ok.mp hcolumns).length_eq, hsize.height]

/-- The two outcomes of a solver, by whether the normal matrix is positive definite. -/
theorem solve_outcome (hsize : Matrix.HasSize m n h) (hn : Matrix.columns h = n) (n0 : ℝ) :
    ((normalMatrix (toMatrix m n h) n0).PosDef ∧ ∃ x, solveMatrix h n0 = .ok x ∧
      Matrix.HasSize n m x ∧
      normalMatrix (toMatrix m n h) n0 * toMatrix n m x = (toMatrix m n h).conjTranspose ∧
      ∀ y : List (Phasor ℝ), y.length = m → ∃ z, solve h y n0 = .ok z ∧ z.length = n ∧
        toVector n z = (toMatrix n m x).mulVec (toVector m y)) ∨
    (¬ (normalMatrix (toMatrix m n h) n0).PosDef ∧ ∃ p ≤ 0,
      solveMatrix h n0 = .error (.notPositiveDefinite p) ∧
      ∀ y : List (Phasor ℝ), solve h y n0 = .error (.notPositiveDefinite p)) := by
  rcases factor_outcome hsize hn n0 with ⟨hdefinite, l, hl, hlsize, hroot⟩ | ⟨hindefinite, p, hp, hfail⟩
  · obtain ⟨x, hx, hxsize⟩ := exists_solveMatrix hsize hl hlsize
    have hoperator := (solveMatrix_ok hsize.height hn hx).2
    refine Or.inl ⟨hdefinite, x, hx, hxsize, hoperator, fun y hy => ?_⟩
    obtain ⟨z, hz, hzlength, hsolved⟩ := exists_solve hsize hn hl hlsize hroot hy
    -- both sides solve the same system
    refine ⟨z, hz, hzlength, Matrix.mulVec_injective_of_isUnit hdefinite.isUnit ?_⟩
    rw [hsolved, ← hoperator, Matrix.mulVec_mulVec]
    rfl
  · refine Or.inr ⟨hindefinite, p, hp, ?_, fun y => ?_⟩
    · rw [solveMatrix, hfail]
      rfl
    · rw [solve, hfail]
      rfl

/-- There is a solution operator if and only if the normal matrix is positive definite. -/
theorem exists_solveMatrix_iff (hsize : Matrix.HasSize m n h) (hn : Matrix.columns h = n) (n0 : ℝ) :
    (∃ x, solveMatrix h n0 = .ok x) ↔ (normalMatrix (toMatrix m n h) n0).PosDef := by
  rcases solve_outcome hsize hn n0 with ⟨hdefinite, x, hx, -⟩ | ⟨hindefinite, p, -, hfail, -⟩
  · exact ⟨fun _ => hdefinite, fun _ => ⟨x, hx⟩⟩
  · refine ⟨?_, fun hdefinite => absurd hdefinite hindefinite⟩
    rintro ⟨x, hx⟩
    rw [hfail] at hx
    cases hx

/-- What the solvers of regularized least squares answer, for a matrix of any size and any
regularization. Where there is a solution operator it solves the normal equations, and a system is solved
by applying it to the right side. Where there is none a pivot was not positive, and all systems fail with
it. There is one for every positive regularization, and without regularization if and only if the
columns are independent. -/
theorem solves_normal_equations (hsize : Matrix.HasSize m n h) (hn : Matrix.columns h = n) (n0 : ℝ) :
    (∀ x, solveMatrix h n0 = .ok x → Matrix.HasSize n m x ∧
      normalMatrix (toMatrix m n h) n0 * toMatrix n m x = (toMatrix m n h).conjTranspose ∧
      ∀ y : List (Phasor ℝ), y.length = m → ∃ z, solve h y n0 = .ok z ∧ z.length = n ∧
        toVector n z = (toMatrix n m x).mulVec (toVector m y)) ∧
    (∀ e, solveMatrix h n0 = .error e → (∃ p ≤ 0, e = .notPositiveDefinite p) ∧
      ∀ y : List (Phasor ℝ), solve h y n0 = .error e) ∧
    (0 < n0 → ∃ x, solveMatrix h n0 = .ok x) ∧
    (n0 = 0 → ((∃ x, solveMatrix h n0 = .ok x) ↔ LinearIndependent ℂ (toMatrix m n h).col)) := by
  refine ⟨fun x hx => ?_, fun e he => ?_, fun hn0 => ?_, ?_⟩
  · rcases solve_outcome hsize hn n0 with ⟨-, x', hx', hsolves⟩ | ⟨-, p, -, hfail, -⟩
    · obtain rfl := Except.ok.inj (hx'.symm.trans hx)
      exact hsolves
    · rw [hfail] at hx
      cases hx
  · rcases solve_outcome hsize hn n0 with ⟨-, x, hx, -⟩ | ⟨-, p, hp, hfail, hsystems⟩
    · rw [hx] at he
      cases he
    · obtain rfl := Except.error.inj (hfail.symm.trans he)
      exact ⟨⟨p, hp, rfl⟩, hsystems⟩
  · exact (exists_solveMatrix_iff hsize hn n0).mpr (posDef_normalMatrix _ hn0)
  · rintro rfl
    exact (exists_solveMatrix_iff hsize hn 0).trans (posDef_normalMatrix_zero_iff _)

/-- Three receivers of two streams. -/
noncomputable def tall : Matrix ℝ := [[⟨1, 0⟩, ⟨0, 1⟩], [⟨0, 0⟩, ⟨1, 0⟩], [⟨0, 1⟩, ⟨0, 0⟩]]

theorem toMatrix_tall : toMatrix 3 2 tall = !![1, Complex.I; 0, 1; Complex.I, 0] := by
  ext i j
  fin_cases i <;> fin_cases j <;> apply Complex.ext <;> simp [tall, coord, Phasor.toComplex]

theorem independent_tall : LinearIndependent ℂ (toMatrix 3 2 tall).col := by
  rw [toMatrix_tall, ← Matrix.mulVec_injective_iff]
  refine (injective_iff_map_eq_zero
    (Matrix.mulVecLin !![1, Complex.I; 0, 1; Complex.I, 0])).mpr fun x hx => ?_
  have hsecond : x 1 = 0 := by simpa [Matrix.mulVec, dotProduct] using congrFun hx 1
  have hfirst : x 0 = 0 := by simpa [Matrix.mulVec, dotProduct, hsecond] using congrFun hx 0
  funext i
  fin_cases i
  · exact hfirst
  · exact hsecond

/-- The streams at three receivers are separated also without regularization, by an operator that the
systems are solved with. -/
theorem solves_normal_equations_tall : Matrix.HasSize 3 2 tall ∧ Matrix.columns tall = 2 ∧
    ∃ x, solveMatrix tall 0 = .ok x ∧
      normalMatrix (toMatrix 3 2 tall) 0 * toMatrix 2 3 x = (toMatrix 3 2 tall).conjTranspose ∧
      ∃ z, solve tall [⟨1, 0⟩, ⟨0, 2⟩, ⟨3, 0⟩] 0 = .ok z ∧
        toVector 2 z = (toMatrix 2 3 x).mulVec (toVector 3 [⟨1, 0⟩, ⟨0, 2⟩, ⟨3, 0⟩]) := by
  have hsize : Matrix.HasSize 3 2 tall := ⟨rfl, by simp [tall]⟩
  obtain ⟨hsolves, -, -, hindependent⟩ := solves_normal_equations hsize rfl 0
  obtain ⟨x, hx⟩ := (hindependent rfl).mpr independent_tall
  obtain ⟨-, hoperator, hsystems⟩ := hsolves x hx
  obtain ⟨z, hz, -, happlied⟩ := hsystems [⟨1, 0⟩, ⟨0, 2⟩, ⟨3, 0⟩] rfl
  exact ⟨hsize, rfl, x, hx, hoperator, z, hz, happlied⟩

end LeastSquares

end RadioChannel
