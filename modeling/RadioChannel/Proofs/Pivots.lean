import RadioChannel.Proofs.Factorization
import Mathlib.LinearAlgebra.Matrix.PosDef

/-!
# Pivots

Eliminating the first row and column of a Hermitian matrix leaves a smaller one. The matrix is positive
definite exactly when the entry in its corner is positive and what is left is positive definite.
Finishing a row of a factor is such an elimination, and the pivot is the entry in the corner: so the
factorization comes to its end for positive definite matrices, and meets a pivot that is not positive
for all others.
-/

namespace RadioChannel

open ExactScalars
open scoped ComplexOrder

/-! ## Elimination -/

section Elimination

variable {n : ℕ}

/-- What the elimination of the first row and column leaves of a matrix. -/
noncomputable def eliminated (s : ComplexMatrix (n + 1) (n + 1)) : ComplexMatrix n n :=
  .of fun i j => s i.succ j.succ - s i.succ 0 * s 0 j.succ / s 0 0

theorem eliminated_apply (s : ComplexMatrix (n + 1) (n + 1)) (i j : Fin n) :
    eliminated s i j = s i.succ j.succ - s i.succ 0 * s 0 j.succ / s 0 0 := rfl

variable {s : ComplexMatrix (n + 1) (n + 1)}

theorem isHermitian_eliminated (hs : s.IsHermitian) : (eliminated s).IsHermitian := by
  refine Matrix.IsHermitian.ext fun i j => ?_
  rw [eliminated_apply, eliminated_apply, star_sub, star_div₀, star_mul', hs.apply, hs.apply, hs.apply,
    hs.apply, mul_comm (s 0 j.succ)]

/-- Completing the square: the form of a matrix is a square in its first coordinate, and the form of
what elimination leaves in the others. -/
theorem form_eq (hs : s.IsHermitian) (hne : s 0 0 ≠ 0) (x : Fin (n + 1) → ℂ) :
    dotProduct (star x) (s.mulVec x) =
      s 0 0 * (star (x 0 + (∑ j, s 0 (Fin.succ j) * x j.succ) / s 0 0) *
        (x 0 + (∑ j, s 0 (Fin.succ j) * x j.succ) / s 0 0)) +
      dotProduct (star (Fin.tail x)) ((eliminated s).mulVec (Fin.tail x)) := by
  let r : ℂ := ∑ j, s 0 (Fin.succ j) * x j.succ
  have hr : ∑ i, star (x (Fin.succ i)) * s i.succ 0 = star r := by
    rw [star_sum]
    refine Finset.sum_congr rfl fun i _ => ?_
    rw [star_mul', hs.apply, mul_comm]
  have hcorner : star (s 0 0) = s 0 0 := hs.apply 0 0
  have htail : dotProduct (star (Fin.tail x)) ((eliminated s).mulVec (Fin.tail x)) =
      ∑ i, star (x (Fin.succ i)) * ∑ j, s i.succ (Fin.succ j) * x j.succ - star r * r / s 0 0 := by
    have hrow : ∀ i : Fin n, (eliminated s).mulVec (Fin.tail x) i =
        ∑ j, s i.succ (Fin.succ j) * x j.succ - s i.succ 0 * (r / s 0 0) := by
      intro i
      rw [Matrix.mulVec, dotProduct, ← mul_div_assoc, Finset.mul_sum, Finset.sum_div,
        ← Finset.sum_sub_distrib]
      refine Finset.sum_congr rfl fun j _ => ?_
      rw [eliminated_apply, Fin.tail, sub_mul]
      ring
    rw [dotProduct, ← hr, mul_div_assoc, Finset.sum_mul, ← Finset.sum_sub_distrib]
    refine Finset.sum_congr rfl fun i _ => ?_
    rw [hrow, Pi.star_apply, Fin.tail, mul_sub, mul_assoc]
  have hform : dotProduct (star x) (s.mulVec x) =
      star (x 0) * (s 0 0 * x 0 + r) + (star r * x 0 +
        ∑ i, star (x (Fin.succ i)) * ∑ j, s i.succ (Fin.succ j) * x j.succ) := by
    rw [dotProduct, Fin.sum_univ_succ]
    congr 1
    · rw [Matrix.mulVec, dotProduct, Fin.sum_univ_succ]
      rfl
    · rw [← hr, Finset.sum_mul, ← Finset.sum_add_distrib]
      refine Finset.sum_congr rfl fun i _ => ?_
      rw [Matrix.mulVec, dotProduct, Fin.sum_univ_succ, Pi.star_apply, mul_add, mul_assoc]
  rw [hform, htail, star_add, star_div₀, hcorner]
  change _ = s 0 0 * ((star (x 0) + star r / s 0 0) * (x 0 + r / s 0 0)) + _
  field_simp
  ring

/-- A matrix is positive definite if and only if its corner is positive and elimination leaves a
positive definite matrix. -/
theorem posDef_iff_eliminated (hs : s.IsHermitian) :
    s.PosDef ↔ 0 < s 0 0 ∧ (eliminated s).PosDef := by
  constructor
  · intro h
    refine ⟨h.diag_pos, .of_dotProduct_mulVec_pos (isHermitian_eliminated hs) fun y hy => ?_⟩
    have hne : s 0 0 ≠ 0 := h.diag_pos.ne'
    -- the first coordinate is chosen so that the square vanishes
    let x : Fin (n + 1) → ℂ := Fin.cons (-((∑ j, s 0 (Fin.succ j) * y j) / s 0 0)) y
    have hx : x ≠ 0 := fun hx => hy (funext fun i => congrFun hx i.succ)
    have hform := form_eq hs hne x
    have hsquare : x 0 + (∑ j, s 0 (Fin.succ j) * x j.succ) / s 0 0 = 0 := neg_add_cancel _
    rw [hsquare, mul_zero, mul_zero, zero_add] at hform
    have hpos := h.dotProduct_mulVec_pos hx
    rwa [hform] at hpos
  · rintro ⟨hcorner, h⟩
    refine .of_dotProduct_mulVec_pos hs fun x hx => ?_
    rw [form_eq hs hcorner.ne']
    have hsquare : 0 ≤ star (x 0 + (∑ j, s 0 (Fin.succ j) * x j.succ) / s 0 0) *
        (x 0 + (∑ j, s 0 (Fin.succ j) * x j.succ) / s 0 0) := star_mul_self_nonneg _
    by_cases htail : Fin.tail x = 0
    · have hfirst : x 0 ≠ 0 := by
        intro hzero
        refine hx (funext fun i => ?_)
        cases i using Fin.cases with
        | zero => exact hzero
        | succ i => exact congrFun htail i
      have hsum : ∑ j, s 0 (Fin.succ j) * x j.succ = 0 :=
        Finset.sum_eq_zero fun j _ => by rw [show x j.succ = 0 from congrFun htail j, mul_zero]
      rw [hsum, zero_div, add_zero, htail, star_zero, zero_dotProduct, add_zero]
      exact mul_pos hcorner (star_mul_self_pos (IsRegular.of_ne_zero hfirst))
    · exact add_pos_of_nonneg_of_pos (mul_nonneg hcorner.le hsquare) (h.dotProduct_mulVec_pos htail)

end Elimination

namespace Cholesky

/-! ## Pivots of a factorization -/

section Pivots

variable {c n : ℕ} {top : Pending ℝ} {rows rows' : List (Pending ℝ)}

/-- A row by its place among those that are not finished. -/
def rowAt (rows : List (Pending ℝ)) (i : ℕ) : Pending ℝ := rows[i]?.getD ⟨[], []⟩

theorem rowAt_of_getElem? {i : ℕ} {row : Pending ℝ} (h : rows[i]? = some row) : rowAt rows i = row := by
  rw [rowAt, h, Option.getD_some]

/-- What the first `c` columns of the factor leave of the matrix in the rows that are not finished. -/
noncomputable def remainder (c n : ℕ) (rows : List (Pending ℝ)) : ComplexMatrix n n :=
  .of fun i j => coord (rowAt rows i).source (c + j) - ∑ k ∈ Finset.range c,
    coord (rowAt rows i).done k * (starRingEnd ℂ) (coord (rowAt rows j).done k)

theorem remainder_apply (i j : Fin n) : remainder c n rows i j =
    coord (rowAt rows i).source (c + j) - ∑ k ∈ Finset.range c,
      coord (rowAt rows i).done k * (starRingEnd ℂ) (coord (rowAt rows j).done k) := rfl

/-- Before the first column the matrix itself is left. -/
theorem remainder_start (m : Matrix ℝ) :
    remainder 0 n (m.map fun row => ⟨row, []⟩) = toMatrix n n m := by
  ext i j
  rw [remainder_apply, Finset.range_zero, Finset.sum_empty, sub_zero, Nat.zero_add, toMatrix_apply,
    rowAt, List.getElem?_map]
  cases m[i.val]? <;> rfl

/-- The pivot of the first row is the corner of what is left. -/
theorem exists_pivot (htop : top.done.length = c) (hsource : c < top.source.length)
    (hs : (remainder c (n + 1) (top :: rows)).IsHermitian) :
    ∃ p : ℝ, pivot top = .ok p ∧ remainder c (n + 1) (top :: rows) 0 0 = p := by
  have hentry : (entryAt top.source top.done.length : Except (Fault ℝ) _) =
      .ok top.source[c] := by
    rw [entryAt_ok, htop, List.getElem?_eq_getElem hsource]
  have hp : pivot top = .ok (top.source[c].re - Scalar.sum (top.done.map Phasor.normSq)) := by
    rw [pivot, hentry]
    rfl
  have hsum : (∑ k ∈ Finset.range c, coord top.done k * (starRingEnd ℂ) (coord top.done k)).im = 0 := by
    rw [← htop, ← sum_normSq_eq, Complex.ofReal_im]
  have hcorner : remainder c (n + 1) (top :: rows) 0 0 = coord top.source c -
      ∑ k ∈ Finset.range c, coord top.done k * (starRingEnd ℂ) (coord top.done k) := rfl
  have hreal : (coord top.source top.done.length).im = 0 := by
    have him := Complex.conj_eq_iff_im.mp (hs.apply 0 0)
    rw [hcorner, Complex.sub_im, hsum, sub_zero] at him
    rwa [htop]
  refine ⟨_, hp, ?_⟩
  have hpivot := pivot_ok hp hreal
  rw [htop] at hpivot
  rw [hcorner, ← hpivot]
  exact add_sub_cancel_left _ _

/-- Extending the rows below a diagonal eliminates a row and a column from what is left. -/
theorem remainder_extended {p : ℝ} (hp : 0 < p) (hlength : rows.length = n)
    (hs : (remainder c (n + 1) (top :: rows)).IsHermitian)
    (hcorner : remainder c (n + 1) (top :: rows) 0 0 = p)
    (h : List.Forall₂ (Extended c top √p) rows rows') :
    remainder (c + 1) n rows' = eliminated (remainder c (n + 1) (top :: rows)) := by
  have hrow : ∀ i : Fin n, Extended c top √p (rowAt rows i) (rowAt rows' i) := by
    intro i
    have hi : rows[i.val]? = some rows[i.val] := List.getElem?_eq_getElem (by omega)
    obtain ⟨row', hrow', hextended⟩ := exists_of_forall₂ h hi
    rwa [rowAt_of_getElem? hi, rowAt_of_getElem? hrow']
  -- the new entry of a row, times the diagonal, is what was left in the first column
  have hfirst : ∀ i : Fin n, remainder c (n + 1) (top :: rows) i.succ 0 =
      coord (rowAt rows' i).done c * (√p : ℝ) := fun i => by
    rw [← add_sub_cancel_left (∑ k ∈ Finset.range c, coord (rowAt rows i).done k *
      (starRingEnd ℂ) (coord top.done k)) (coord (rowAt rows' i).done c * _), (hrow i).product]
    rfl
  have hsquare : ((√p : ℝ) : ℂ) * (√p : ℝ) = p := by
    rw [← Complex.ofReal_mul, Real.mul_self_sqrt hp.le]
  have hne : (p : ℂ) ≠ 0 := Complex.ofReal_ne_zero.mpr hp.ne'
  ext i j
  have hlast : remainder c (n + 1) (top :: rows) i.succ 0 *
      remainder c (n + 1) (top :: rows) 0 j.succ / remainder c (n + 1) (top :: rows) 0 0 =
      coord (rowAt rows' i).done c * (starRingEnd ℂ) (coord (rowAt rows' j).done c) := by
    rw [← hs.apply 0 j.succ, hfirst, hfirst, hcorner, star_mul', ← starRingEnd_apply,
      ← starRingEnd_apply, Complex.conj_ofReal, mul_mul_mul_comm, hsquare, mul_div_cancel_right₀ _ hne]
  rw [eliminated_apply, hlast, remainder_apply, remainder_apply, Finset.sum_range_succ, (hrow i).source,
    sub_add_eq_sub_sub]
  congr 2
  · change coord (rowAt rows i).source (c + 1 + j) = coord (rowAt rows i).source (c + (j + 1))
    rw [Nat.add_right_comm, Nat.add_assoc]
  · refine Finset.sum_congr rfl fun k hk => ?_
    rw [(hrow i).known k (Finset.mem_range.mp hk), (hrow j).known k (Finset.mem_range.mp hk)]
    rfl

theorem exists_extend {d : ℝ} {row : Pending ℝ} (h : top.done.length < row.source.length) :
    ∃ row', extend top d row = .ok row' := by
  have hentry : (entryAt row.source top.done.length : Except (Fault ℝ) _) =
      .ok row.source[top.done.length] := entryAt_ok.mpr (List.getElem?_eq_getElem h)
  rw [extend, hentry]
  exact ⟨_, rfl⟩

theorem finish_of_nonpos {p : ℝ} (hp : pivot top = .ok p) (hle : p ≤ 0) :
    finish (n + 1) (top :: rows) = .error (.notPositiveDefinite p) := by
  rw [finish, hp]
  exact if_pos ((refuses_iff p).mpr hle)

theorem finish_of_pos {p : ℝ} (hp : pivot top = .ok p) (hpos : 0 < p)
    (hrows' : rows.mapM (extend top √p) = .ok rows') : finish (n + 1) (top :: rows) =
      (finish n rows').map fun out => (top.done ++ [.ofReal √p]) :: out := by
  have hkept : ¬ (Scalar.le p (@OfNat.ofNat ℝ 0 (Scalar.instOfNat 0)) || !Scalar.isFinite p) = true :=
    fun h => ((refuses_iff p).mp h).not_gt hpos
  have hsqrt : (Scalar.sqrt p : ℝ) = √p := rfl
  rw [finish, hp]
  refine (if_neg hkept).trans ?_
  rw [hsqrt, hrows']
  change (finish n rows' >>= fun out => pure ((top.done ++ [.ofReal √p]) :: out)) = _
  cases finish n rows' <;> rfl

/-- Rows are finished if what is left is positive definite; otherwise a pivot is not positive. -/
theorem finish_outcome (hlength : rows.length = n) (hdone : ∀ r ∈ rows, r.done.length = c)
    (hsource : ∀ r ∈ rows, c + n ≤ r.source.length) (hs : (remainder c n rows).IsHermitian) :
    ((remainder c n rows).PosDef ∧ ∃ out, finish n rows = .ok out) ∨
      (¬ (remainder c n rows).PosDef ∧ ∃ p ≤ 0, finish n rows = .error (.notPositiveDefinite p)) := by
  -- on the rows still to come, with what the finished columns leave of the matrix
  induction n generalizing rows c with
  | zero =>
    refine Or.inl ⟨.of_dotProduct_mulVec_pos hs fun x hx => ?_, [], rfl⟩
    exact absurd (Subsingleton.elim x 0) hx
  | succ n ih =>
    obtain ⟨top, rows, rfl⟩ := List.exists_cons_of_length_eq_add_one hlength
    have hlong : ∀ r ∈ top :: rows, c < r.source.length := fun r hr => by
      have := hsource r hr
      omega
    have htop : top.done.length = c := hdone top List.mem_cons_self
    obtain ⟨p, hp, hcorner⟩ := exists_pivot htop (hlong top List.mem_cons_self) hs
    rw [posDef_iff_eliminated hs, hcorner, Complex.zero_lt_real]
    rcases le_or_gt p 0 with hle | hpos
    · exact Or.inr ⟨fun h => hle.not_gt h.1, p, hle, finish_of_nonpos hp hle⟩
    obtain ⟨rows', hrows'⟩ : ∃ rows', rows.mapM (extend top √p) = .ok rows' :=
      exists_mapM_ok fun row hrow => exists_extend (htop ▸ hlong row (List.mem_cons_of_mem top hrow))
    have hextended := extended_of_mapM (Real.sqrt_pos.mpr hpos) hdone hrows'
    have hsource' : ∀ r' ∈ rows', c + 1 + n ≤ r'.source.length := by
      intro r' hr'
      obtain ⟨r, hr, hrow⟩ := exists_of_forall₂_mem hextended hr'
      rw [hrow.source, Nat.add_right_comm]
      exact hsource r (List.mem_cons_of_mem top hr)
    have hlength' : rows'.length = n := by
      rw [← hextended.length_eq]
      exact Nat.succ.inj hlength
    have hleft := remainder_extended hpos (Nat.succ.inj hlength) hs hcorner hextended
    have hrest := ih hlength' (fun r' => length_of_extended hextended) hsource'
      (hleft ▸ isHermitian_eliminated hs)
    rw [hleft] at hrest
    rw [finish_of_pos hp hpos hrows']
    rcases hrest with ⟨hdefinite, out, hout⟩ | ⟨hindefinite, q, hq, hfail⟩
    · exact Or.inl ⟨⟨hpos, hdefinite⟩, _, by rw [hout]; rfl⟩
    · exact Or.inr ⟨fun h => hindefinite h.2, q, hq, by rw [hfail]; rfl⟩

end Pivots

/-! ## What is read of a matrix -/

section Lower

variable {R : Type} [Scalar R]

/-- Rows that are not finished, cut off behind the diagonal. The first one keeps `width` entries. -/
def clip : ℕ → List (Pending R) → List (Pending R)
  | _, [] => []
  | width, row :: rows => { row with source := row.source.take width } :: clip (width + 1) rows

omit [Scalar R] in
theorem entryAt_take {row : List (Phasor R)} {k width : ℕ} (hk : k < width) :
    (entryAt (row.take width) k : Except (Fault R) _) = entryAt row k := by
  rw [entryAt, entryAt, List.getElem?_take_of_lt hk]

theorem extend_clip {top row : Pending R} {d : R} {width k : ℕ} (hk : top.done.length < width) :
    extend { top with source := top.source.take k } d { row with source := row.source.take width } =
      (extend top d row).map fun row' => { row' with source := row'.source.take width } := by
  unfold extend
  dsimp only
  rw [entryAt_take hk]
  cases (entryAt row.source top.done.length : Except (Fault R) _) <;> rfl

theorem mapM_extend_clip {top : Pending R} {d : R} {width k : ℕ} (hk : top.done.length < width)
    (rows : List (Pending R)) :
    (clip width rows).mapM (extend { top with source := top.source.take k } d) =
      (rows.mapM (extend top d)).map (clip width) := by
  induction rows generalizing width with
  | nil => rfl
  | cons row rows ih =>
    rw [clip, List.mapM_cons, List.mapM_cons, extend_clip hk, ih (Nat.lt_succ_of_lt hk)]
    cases extend top d row with
    | error e => rfl
    | ok row' => cases rows.mapM (extend top d) <;> rfl

theorem length_of_mapM_extend {top : Pending R} {d : R} {rows rows' : List (Pending R)} {c : ℕ}
    (hdone : ∀ r ∈ rows, r.done.length = c) (h : rows.mapM (extend top d) = .ok rows') :
    ∀ r ∈ rows', r.done.length = c + 1 := by
  intro r' hr'
  obtain ⟨r, hr, hextend⟩ := exists_of_forall₂_mem (except_mapM_ok.mp h) hr'
  obtain ⟨_, -, hrow⟩ := except_bind_ok.mp hextend
  obtain rfl := Except.ok.inj hrow
  rw [List.length_append, hdone r hr, List.length_singleton]

/-- Finishing rows reads nothing behind the diagonal. -/
theorem finish_clip {n c : ℕ} {rows : List (Pending R)} (hdone : ∀ r ∈ rows, r.done.length = c) :
    finish n (clip (c + 1) rows) = finish n rows := by
  induction n generalizing rows c with
  | zero => rfl
  | succ n ih =>
    cases rows with
    | nil => rfl
    | cons top rows =>
      have htop : top.done.length = c := hdone top List.mem_cons_self
      have hpivot : pivot { top with source := top.source.take (c + 1) } = pivot top := by
        unfold pivot
        dsimp only
        rw [entryAt_take (by omega)]
      rw [clip, finish, finish, hpivot]
      cases pivot top with
      | error e => rfl
      | ok p =>
        refine if_congr Iff.rfl rfl ?_
        dsimp only
        rw [mapM_extend_clip (by omega)]
        cases hrows' : rows.mapM (extend top (Scalar.sqrt p)) with
        | error e => rfl
        | ok rows' =>
          have hbelow : ∀ r ∈ rows, r.done.length = c := fun r hr =>
            hdone r (List.mem_cons_of_mem top hr)
          have hrest := ih (length_of_mapM_extend hbelow hrows')
          exact congrArg (fun rest : Except (Fault R) (Matrix R) =>
            rest >>= fun out => pure ((top.done ++ [.ofReal (Scalar.sqrt p)]) :: out)) hrest

omit [Scalar R] in
theorem clip_congr {width : ℕ} {m m' : Matrix R} (hlength : m'.length = m.length)
    (h : ∀ (i : ℕ) row row', m[i]? = some row → m'[i]? = some row' →
      row'.take (width + i) = row.take (width + i)) :
    clip width (m'.map fun row => ⟨row, []⟩) = clip width (m.map fun row => ⟨row, []⟩) := by
  induction m generalizing m' width with
  | nil => rw [List.length_eq_zero_iff.mp hlength]
  | cons row m ih =>
    obtain ⟨row', m', rfl⟩ := List.exists_cons_of_length_eq_add_one hlength
    have hrest : clip (width + 1) (m'.map fun row => ⟨row, []⟩) =
        clip (width + 1) (m.map fun row => ⟨row, []⟩) :=
      ih (Nat.succ.inj hlength) fun i r r' hr hr' => by
        rw [Nat.add_right_comm]
        exact h (i + 1) r r' hr hr'
    have hfirst : row'.take width = row.take width := h 0 row row' rfl rfl
    rw [List.map_cons, List.map_cons, clip, clip, hrest]
    dsimp only
    rw [hfirst]

/-- Matrices whose rows agree up to the diagonal have the same factor. -/
theorem factor_congr {m m' : Matrix R} (hlength : m'.length = m.length)
    (h : ∀ (i : ℕ) row row', m[i]? = some row → m'[i]? = some row' →
      row'.take (i + 1) = row.take (i + 1)) : factor m' = factor m := by
  have hclip : clip 1 (m'.map fun row => ⟨row, []⟩) = clip 1 (m.map fun row => ⟨row, []⟩) :=
    clip_congr hlength fun i row row' hrow hrow' => by
      rw [Nat.add_comm]
      exact h i row row' hrow hrow'
  unfold factor
  rw [hlength, ← finish_clip (c := 0) (by simp), hclip, finish_clip (c := 0) (by simp)]

end Lower

/-! ## Factors -/

variable {n : ℕ} {m l : Matrix ℝ}

/-- A Hermitian matrix is factored if it is positive definite; otherwise a pivot is not positive. -/
theorem factor_outcome (hsize : Matrix.HasSize n n m) (hm : (toMatrix n n m).IsHermitian) :
    ((toMatrix n n m).PosDef ∧ ∃ l, factor m = .ok l) ∨
      (¬ (toMatrix n n m).PosDef ∧ ∃ p ≤ 0, factor m = .error (.notPositiveDefinite p)) := by
  let start : List (Pending ℝ) := m.map fun row => ⟨row, []⟩
  have hlength : start.length = n := by rw [List.length_map, hsize.height]
  have hsource : ∀ r ∈ start, 0 + n ≤ r.source.length := by
    intro r hr
    obtain ⟨row, hrow, rfl⟩ := List.mem_map.mp hr
    rw [Nat.zero_add]
    exact (hsize.width row hrow).ge
  have hoverall := finish_outcome hlength (by simp [start]) hsource (by rwa [remainder_start])
  rw [remainder_start] at hoverall
  unfold factor
  rw [hsize.height]
  rcases hoverall with ⟨hdefinite, out, hout⟩ | ⟨hindefinite, p, hp, hfail⟩
  · exact Or.inl ⟨hdefinite, _, by rw [hout]; rfl⟩
  · exact Or.inr ⟨hindefinite, p, hp, by rw [hfail]; rfl⟩

/-- The factor of a Hermitian matrix is square. -/
theorem hasSize_of_factor (hn : m.length = n) (h : factor m = .ok l)
    (hm : (toMatrix n n m).IsHermitian) : Matrix.HasSize n n l := by
  obtain ⟨rows, hfinished, rfl⟩ := finished_of_factor hn h hm
  have hheight : rows.length = n := by rw [hfinished.length, List.length_map, hn]
  refine ⟨by rw [List.length_map, hheight], fun row hrow => ?_⟩
  obtain ⟨o, ho, rfl⟩ := List.mem_map.mp hrow
  obtain ⟨i, hi⟩ := List.mem_iff_getElem?.mp ho
  have hwidth := hfinished.width i o hi
  have hi' := (List.getElem?_eq_some_iff.mp hi).1
  rw [Matrix.padTo, List.length_append, List.length_replicate]
  omega

/-- The diagonal of a factor is real and positive. -/
theorem positive_of_factor (hn : m.length = n) (h : factor m = .ok l)
    (hm : (toMatrix n n m).IsHermitian) (i : Fin n) : ∃ d : ℝ, 0 < d ∧ toMatrix n n l i i = d := by
  obtain ⟨rows, hfinished, rfl⟩ := finished_of_factor hn h hm
  have hi : i.val < rows.length := by
    rw [hfinished.length, List.length_map, hn]
    exact i.isLt
  obtain ⟨d, hd, hdiagonal⟩ := hfinished.diagonal i _ (List.getElem?_eq_getElem hi)
  refine ⟨d, hd, ?_⟩
  rw [toMatrix_apply, List.getElem?_map, List.getElem?_eq_getElem hi, Option.map_some, Option.getD_some,
    coord_padTo, ← hdiagonal, Nat.zero_add]

/-- A Cholesky factor of a matrix: lower triangular with a positive diagonal, and the matrix is its
product with its adjoint. -/
structure IsFactor (n : ℕ) (l m : Matrix ℝ) : Prop where
  size : Matrix.HasSize n n l
  lower : ∀ i j, i < j → toMatrix n n l i j = 0
  positive : ∀ i, ∃ d : ℝ, 0 < d ∧ toMatrix n n l i i = d
  product : toMatrix n n l * (toMatrix n n l).conjTranspose = toMatrix n n m

theorem isFactor_of_factor (hn : m.length = n) (h : factor m = .ok l)
    (hm : (toMatrix n n m).IsHermitian) : IsFactor n l m where
  size := hasSize_of_factor hn h hm
  lower := (isRoot_of_factor hn h hm).2.lower
  positive := positive_of_factor hn h hm
  product := (isRoot_of_factor hn h hm).2.product

/-- The factorization decides whether a Hermitian matrix is positive definite. It answers a Cholesky
factor for such matrices and no others, and for the others it reports a pivot that is not positive.
Of any square matrix it reads the rows up to the diagonal only. -/
theorem factor_decides (hsize : Matrix.HasSize n n m) :
    ((toMatrix n n m).IsHermitian →
      ((∃ l, factor m = .ok l) ↔ (toMatrix n n m).PosDef) ∧
      (∀ l, factor m = .ok l → IsFactor n l m) ∧
      (¬ (toMatrix n n m).PosDef → ∃ p ≤ 0, factor m = .error (.notPositiveDefinite p))) ∧
    ∀ m' : Matrix ℝ, Matrix.HasSize n n m' →
      (∀ (i : ℕ) row row', m[i]? = some row → m'[i]? = some row' →
        row'.take (i + 1) = row.take (i + 1)) → factor m' = factor m := by
  refine ⟨fun hm => ?_, fun m' hsize' hrows =>
    factor_congr (hsize'.height.trans hsize.height.symm) hrows⟩
  refine ⟨?_, fun l hl => isFactor_of_factor hsize.height hl hm, fun hindefinite => ?_⟩
  · rcases factor_outcome hsize hm with ⟨hdefinite, l, hl⟩ | ⟨hindefinite, p, -, hfail⟩
    · exact ⟨fun _ => hdefinite, fun _ => ⟨l, hl⟩⟩
    · refine ⟨?_, fun hdefinite => absurd hdefinite hindefinite⟩
      rintro ⟨l, hl⟩
      rw [hfail] at hl
      cases hl
  · rcases factor_outcome hsize hm with ⟨hdefinite, -⟩ | ⟨-, hfail⟩
    · exact absurd hdefinite hindefinite
    · exact hfail

/-- A positive definite matrix with a twist off its diagonal. -/
noncomputable def twisted : Matrix ℝ := [[⟨(2 : ℕ), 0⟩, ⟨0, -1⟩], [⟨0, 1⟩, ⟨1, 0⟩]]

theorem toMatrix_twisted : toMatrix 2 2 twisted = !![2, -Complex.I; Complex.I, 1] := by
  ext i j
  fin_cases i <;> fin_cases j <;> apply Complex.ext <;> simp [twisted, coord, Phasor.toComplex]

theorem isHermitian_twisted : (toMatrix 2 2 twisted).IsHermitian := by
  rw [toMatrix_twisted]
  refine Matrix.IsHermitian.ext fun i j => ?_
  fin_cases i <;> fin_cases j <;> simp

theorem posDef_twisted : (toMatrix 2 2 twisted).PosDef := by
  have hrest : eliminated (toMatrix 2 2 twisted) = !![((1 / 2 : ℝ) : ℂ)] := by
    ext i j
    fin_cases i
    fin_cases j
    rw [eliminated_apply, toMatrix_twisted]
    norm_num
  rw [posDef_iff_eliminated isHermitian_twisted]
  refine ⟨by rw [toMatrix_twisted]; norm_num, ?_⟩
  rw [posDef_iff_eliminated (isHermitian_eliminated isHermitian_twisted), hrest]
  refine ⟨Complex.zero_lt_real.mpr (by norm_num), ?_⟩
  exact .of_dotProduct_mulVec_pos (Matrix.IsHermitian.ext fun i => i.elim0)
    fun x hx => absurd (Subsingleton.elim x 0) hx

/-- The twisted matrix has a factor. -/
theorem factor_decides_twisted : Matrix.HasSize 2 2 twisted ∧ (toMatrix 2 2 twisted).IsHermitian ∧
    (toMatrix 2 2 twisted).PosDef ∧ ∃ l, factor twisted = .ok l ∧ IsFactor 2 l twisted := by
  have hsize : Matrix.HasSize 2 2 twisted := ⟨rfl, by simp [twisted]⟩
  obtain ⟨hiff, hfactor, -⟩ := (factor_decides hsize).1 isHermitian_twisted
  obtain ⟨l, hl⟩ := hiff.mpr posDef_twisted
  exact ⟨hsize, isHermitian_twisted, posDef_twisted, l, hl, hfactor l hl⟩

end Cholesky

end RadioChannel
