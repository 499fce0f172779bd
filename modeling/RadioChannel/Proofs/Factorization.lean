import RadioChannel.Linear.Cholesky
import RadioChannel.Proofs.Actions
import RadioChannel.Proofs.ExactPhasors
import Mathlib.LinearAlgebra.Matrix.Hermitian

/-!
# Factors and substitution

On exact numbers the factor of a Hermitian matrix is a root of it: lower triangular, with positive
diagonal, and the matrix is its product with its adjoint. Substitution solves the systems of a
triangular matrix and of its adjoint.
-/

namespace RadioChannel

open ExactScalars

namespace Cholesky

/-! ## Finishing rows -/

/-- What finishing rows comes to, of each of which the first `c` entries were known. -/
structure Finished (c : ℕ) (rows : List (Pending ℝ)) (out : Matrix ℝ) : Prop where
  length : out.length = rows.length
  width : ∀ (i : ℕ) o, out[i]? = some o → o.length = c + i + 1
  known : ∀ (i : ℕ) r o, rows[i]? = some r → out[i]? = some o → ∀ k < c, coord o k = coord r.done k
  diagonal : ∀ (i : ℕ) o, out[i]? = some o → ∃ d : ℝ, 0 < d ∧ coord o (c + i) = d
  product : ∀ (i j : ℕ) r o o', j ≤ i → rows[i]? = some r → out[i]? = some o → out[j]? = some o' →
    ∑ k ∈ Finset.range (c + j + 1), coord o k * (starRingEnd ℂ) (coord o' k) = coord r.source (c + j)

/-- The square of the entry at a finished diagonal is what the row leaves of it. -/
theorem pivot_ok {top : Pending ℝ} {p : ℝ} (h : pivot top = .ok p)
    (hreal : (coord top.source top.done.length).im = 0) :
    ∑ k ∈ Finset.range top.done.length, coord top.done k * (starRingEnd ℂ) (coord top.done k) + p =
      coord top.source top.done.length := by
  rw [pivot, except_bind_ok] at h
  obtain ⟨z, hentry, h⟩ := h
  obtain rfl := Except.ok.inj h
  rw [coord_of_entryAt hentry] at hreal ⊢
  have hz : z.toComplex = (z.re : ℝ) := Complex.ext rfl hreal
  rw [← sum_normSq_eq, hz, ← Complex.ofReal_add]
  congr 1
  exact add_sub_cancel _ _

/-- A row of which one entry more is known, the one that completes its product with the row of a
finished diagonal. -/
structure Extended (c : ℕ) (top : Pending ℝ) (d : ℝ) (row row' : Pending ℝ) : Prop where
  source : row'.source = row.source
  length : row'.done.length = c + 1
  known : ∀ k < c, coord row'.done k = coord row.done k
  product : ∑ k ∈ Finset.range c, coord row.done k * (starRingEnd ℂ) (coord top.done k) +
    coord row'.done c * d = coord row.source c

theorem extend_ok {c : ℕ} {top row row' : Pending ℝ} {d : ℝ} (hd : 0 < d)
    (htop : top.done.length = c) (hlength : row.done.length = c)
    (h : extend top d row = .ok row') : Extended c top d row row' := by
  rw [extend, except_bind_ok, htop] at h
  obtain ⟨z, hentry, h⟩ := h
  obtain rfl := Except.ok.inj h
  refine ⟨rfl, by simp [hlength], fun k hk => coord_append_left (by rwa [hlength]) _, ?_⟩
  have hdot := toComplex_dot row.done (top.done.map Phasor.conj) (n := c) (by simp [hlength])
  simp only [coord_map_conj] at hdot
  have hne : (d : ℂ) ≠ 0 := Complex.ofReal_ne_zero.mpr hd.ne'
  have hlast : coord (row.done ++ [(z - Matrix.dot row.done (top.done.map Phasor.conj)).shrink d]) c =
      (z.toComplex - (Matrix.dot row.done (top.done.map Phasor.conj)).toComplex) / d := by
    rw [← hlength, coord_append_length, Phasor.toComplex_shrink, Phasor.toComplex_sub]
  rw [hlast, hdot, div_mul_cancel₀ _ hne, coord_of_entryAt hentry]
  exact add_sub_cancel _ _

/-- All rows below a finished diagonal are extended. -/
theorem extended_of_mapM {c : ℕ} {top : Pending ℝ} {rows rows' : List (Pending ℝ)} {d : ℝ} (hd : 0 < d)
    (hdone : ∀ r ∈ top :: rows, r.done.length = c) (h : rows.mapM (extend top d) = .ok rows') :
    List.Forall₂ (Extended c top d) rows rows' := by
  rw [List.forall_mem_cons] at hdone
  refine ((List.forall₂_and_left _ _).mpr ⟨hdone.2, except_mapM_ok.mp h⟩).imp fun row row' hrow => ?_
  exact extend_ok hd hdone.1 hrow.1 hrow.2

theorem length_of_extended {c : ℕ} {top : Pending ℝ} {rows rows' : List (Pending ℝ)} {d : ℝ}
    (h : List.Forall₂ (Extended c top d) rows rows') {r' : Pending ℝ} (hr' : r' ∈ rows') :
    r'.done.length = c + 1 := by
  obtain ⟨_, -, hrow⟩ := exists_of_forall₂_mem h hr'
  exact hrow.length

/-- What a row makes of one that is finished by its diagonal. -/
theorem sum_finished {c : ℕ} {known : List (Phasor ℝ)} (hknown : known.length = c) (d : ℝ)
    (o : List (Phasor ℝ)) :
    ∑ k ∈ Finset.range (c + 1), coord o k * (starRingEnd ℂ) (coord (known ++ [.ofReal d]) k) =
      ∑ k ∈ Finset.range c, coord o k * (starRingEnd ℂ) (coord known k) + coord o c * d := by
  have hlast : coord (known ++ [.ofReal d]) c = d := by
    rw [← hknown, coord_append_length, Phasor.toComplex_ofReal]
  rw [Finset.sum_range_succ, hlast, Complex.conj_ofReal]
  congr 1
  refine Finset.sum_congr rfl fun k hk => ?_
  rw [coord_append_left (by rw [hknown]; exact Finset.mem_range.mp hk)]

/-- A row of the factor above finished rows, for all of which its diagonal was known. -/
theorem Finished.cons {c : ℕ} {top : Pending ℝ} {rows rows' : List (Pending ℝ)} {out : Matrix ℝ}
    {d : ℝ} (hd : 0 < d) (htop : top.done.length = c)
    (hdiagonal : ∑ k ∈ Finset.range c, coord top.done k * (starRingEnd ℂ) (coord top.done k) +
      (d : ℂ) * d = coord top.source c)
    (hrows : List.Forall₂ (Extended c top d) rows rows') (h : Finished (c + 1) rows' out) :
    Finished c (top :: rows) ((top.done ++ [.ofReal d]) :: out) where
  length := by rw [List.length_cons, List.length_cons, h.length, hrows.length_eq]
  width := by
    intro i o ho
    cases i with
    | zero =>
      cases ho
      simp [htop]
    | succ i =>
      rw [h.width i o ho]
      omega
  known := by
    intro i r o hr ho k hk
    cases i with
    | zero =>
      cases hr
      cases ho
      exact coord_append_left (by rwa [htop]) _
    | succ i =>
      obtain ⟨r', hr', hrow⟩ := exists_of_forall₂ hrows hr
      rw [h.known i r' o hr' ho k (by omega), hrow.known k hk]
  diagonal := by
    intro i o ho
    cases i with
    | zero =>
      cases ho
      refine ⟨d, hd, ?_⟩
      rw [Nat.add_zero, ← htop, coord_append_length, Phasor.toComplex_ofReal]
    | succ i =>
      obtain ⟨d', hd', ho'⟩ := h.diagonal i o ho
      exact ⟨d', hd', by rwa [← Nat.add_assoc, Nat.add_right_comm]⟩
  product := by
    -- the new row meets itself at its diagonal, the others at the entry it gave them
    intro i j r o o' hji hr ho ho'
    cases j with
    | zero =>
      cases ho'
      change _ = coord r.source c
      rw [Nat.add_zero, sum_finished htop]
      cases i with
      | zero =>
        cases hr
        cases ho
        rw [← hdiagonal, ← htop, coord_append_length, Phasor.toComplex_ofReal]
        congr 1
        refine Finset.sum_congr rfl fun k hk => ?_
        rw [coord_append_left (Finset.mem_range.mp hk)]
      | succ i =>
        obtain ⟨r', hr', hrow⟩ := exists_of_forall₂ hrows hr
        have hcoord : ∀ k < c + 1, coord o k = coord r'.done k := h.known i r' o hr' ho
        rw [← hrow.product, hcoord c (Nat.lt_succ_self c)]
        congr 1
        refine Finset.sum_congr rfl fun k hk => ?_
        have hk' := Finset.mem_range.mp hk
        rw [hcoord k (by omega), hrow.known k hk']
    | succ j =>
      cases i with
      | zero => omega
      | succ i =>
        obtain ⟨r', hr', hrow⟩ := exists_of_forall₂ hrows hr
        have hproduct := h.product i j r' o o' (by omega) hr' ho ho'
        rw [hrow.source] at hproduct
        rwa [Nat.add_right_comm c 1 j] at hproduct

/-- The test that stops the factorization. -/
theorem refuses_iff (p : ℝ) :
    (Scalar.le p (@OfNat.ofNat ℝ 0 (Scalar.instOfNat 0)) || !Scalar.isFinite p) = true ↔ p ≤ 0 := by
  have hfinite : Scalar.isFinite p = true := rfl
  rw [hfinite, Bool.not_true, Bool.or_false, le_iff, zero_eq]

/-- Finished rows are rows of a root of the matrix, if its diagonal is real. -/
theorem finished_of_finish {n : ℕ} {rows : List (Pending ℝ)} {out : Matrix ℝ} {c : ℕ}
    (h : finish n rows = .ok out) (hn : rows.length = n) (hdone : ∀ r ∈ rows, r.done.length = c)
    (hreal : ∀ (i : ℕ) r, rows[i]? = some r → (coord r.source (c + i)).im = 0) :
    Finished c rows out := by
  -- on the rows still to come, which all know their first `c` entries
  induction n generalizing rows out c with
  | zero =>
    obtain rfl := List.length_eq_zero_iff.mp hn
    obtain rfl := Except.ok.inj h
    exact ⟨rfl, by simp, by simp, by simp, by simp⟩
  | succ n ih =>
    obtain ⟨top, rows, rfl⟩ := List.exists_cons_of_length_eq_add_one hn
    have htop : top.done.length = c := hdone top List.mem_cons_self
    rw [finish, except_bind_ok] at h
    obtain ⟨p, hp, h⟩ := h
    split at h
    · cases h
    rename_i hpositive
    dsimp only at h
    rw [except_bind_ok] at h
    obtain ⟨rows', hrows', h⟩ := h
    rw [except_bind_ok] at h
    obtain ⟨out', hout', h⟩ := h
    obtain rfl := Except.ok.inj h
    have hp0 : 0 < p := not_le.mp fun hle => hpositive ((refuses_iff p).mpr hle)
    have hd : 0 < Scalar.sqrt p := Real.sqrt_pos.mpr hp0
    have hextended := extended_of_mapM hd hdone hrows'
    have hfinished : Finished (c + 1) rows' out' := by
      refine ih hout' ?_ (fun r' => length_of_extended hextended) fun i r' hr' => ?_
      · rw [← hextended.length_eq]
        exact Nat.succ.inj hn
      · obtain ⟨r, hr, hrow⟩ := exists_of_forall₂ hextended.flip hr'
        rw [hrow.source, Nat.add_right_comm]
        exact hreal (i + 1) r hr
    refine hfinished.cons hd htop ?_ hextended
    have hpivot := pivot_ok hp (by rw [htop]; exact hreal 0 top rfl)
    rw [htop] at hpivot
    rw [← hpivot, ← Complex.ofReal_mul]
    congr 2
    exact Real.mul_self_sqrt hp0.le

/-! ## Roots -/

/-- A lower triangular root of a matrix without zeros on its diagonal. -/
structure IsRoot {n : ℕ} (root matrix : ComplexMatrix n n) : Prop where
  lower : ∀ i j, i < j → root i j = 0
  diagonal : ∀ i, root i i ≠ 0
  product : root * root.conjTranspose = matrix

/-- A matrix with a root is invertible. -/
theorem IsRoot.isUnit {n : ℕ} {root matrix : ComplexMatrix n n} (h : IsRoot root matrix) :
    IsUnit matrix := by
  have hdet : root.det = ∏ i, root i i :=
    Matrix.det_of_isLowerTriangular root fun i j hij => h.lower i j hij
  have hroot : IsUnit root := by
    rw [Matrix.isUnit_iff_isUnit_det, hdet, isUnit_iff_ne_zero]
    exact Finset.prod_ne_zero_iff.mpr fun i _ => h.diagonal i
  rw [← h.product]
  exact hroot.mul hroot.star

theorem sum_eq_sum_range {n j : ℕ} (hj : j ≤ n) {f : ℕ → ℂ} (hf : ∀ k, j ≤ k → k < n → f k = 0) :
    ∑ k : Fin n, f k = ∑ k ∈ Finset.range j, f k := by
  rw [Fin.sum_univ_eq_sum_range]
  symm
  refine Finset.sum_subset (Finset.range_subset_range.mpr hj) fun k hk hk' => ?_
  exact hf k (not_lt.mp fun h => hk' (Finset.mem_range.mpr h)) (Finset.mem_range.mp hk)

/-- The factor of a Hermitian matrix consists of finished rows, filled up with zeros. -/
theorem finished_of_factor {m l : Matrix ℝ} {n : ℕ} (hn : m.length = n) (h : factor m = .ok l)
    (hm : (toMatrix n n m).IsHermitian) :
    ∃ rows, Finished 0 (m.map fun row => ⟨row, []⟩) rows ∧ l = rows.map (Matrix.padTo n) := by
  rw [factor, except_bind_ok, hn] at h
  obtain ⟨rows, hrows, h⟩ := h
  obtain rfl := Except.ok.inj h
  refine ⟨rows, finished_of_finish hrows (by simp [hn]) (by simp) fun i r hr => ?_, rfl⟩
  rw [List.getElem?_map] at hr
  obtain ⟨row, hrow, rfl⟩ := Option.map_eq_some_iff.mp hr
  have hi : i < n := hn ▸ (List.getElem?_eq_some_iff.mp hrow).1
  have hreal := Complex.conj_eq_iff_im.mp (hm.apply ⟨i, hi⟩ ⟨i, hi⟩)
  rw [toMatrix_apply, hrow] at hreal
  rwa [Nat.zero_add]

/-- The factor of a Hermitian matrix is a root of it. -/
theorem isRoot_of_factor {m l : Matrix ℝ} {n : ℕ} (hn : m.length = n) (h : factor m = .ok l)
    (hm : (toMatrix n n m).IsHermitian) :
    l.length = n ∧ IsRoot (toMatrix n n l) (toMatrix n n m) := by
  obtain ⟨rows, hfinished, rfl⟩ := finished_of_factor hn h hm
  have hlength : rows.length = n := by rw [hfinished.length, List.length_map, hn]
  have hsource : ∀ i : Fin n, (m.map fun row => (⟨row, []⟩ : Pending ℝ))[i.val]? =
      some ⟨m[i.val]?.getD [], []⟩ := by
    intro i
    have hi : i.val < m.length := by omega
    rw [List.getElem?_map, List.getElem?_eq_getElem hi]
    rfl
  have hrow : ∀ i : Fin n, rows[i.val]? = some (rows[i.val]?.getD []) := by
    intro i
    have hi : i.val < rows.length := by omega
    rw [List.getElem?_eq_getElem hi]
    rfl
  have hentry : ∀ (i : Fin n) (j : ℕ),
      coord ((rows.map (Matrix.padTo n))[i.val]?.getD []) j = coord (rows[i.val]?.getD []) j := by
    intro i j
    rw [List.getElem?_map, hrow i]
    exact coord_padTo n _ j
  have hlower : ∀ (i : Fin n) (j : ℕ), i.val < j → coord (rows[i.val]?.getD []) j = 0 := by
    intro i j hij
    refine coord_of_length_le ?_
    rw [hfinished.width i.val _ (hrow i)]
    omega
  refine ⟨by rw [List.length_map, hlength], fun i j hij => ?_, fun i => ?_, ?_⟩
  · rw [toMatrix_apply, hentry]
    exact hlower i j hij
  · obtain ⟨d, hd, hdiagonal⟩ := hfinished.diagonal i.val _ (hrow i)
    rw [Nat.zero_add] at hdiagonal
    rw [toMatrix_apply, hentry, hdiagonal]
    exact Complex.ofReal_ne_zero.mpr hd.ne'
  · have hproduct : ∀ i j : Fin n, j ≤ i →
        (toMatrix n n (rows.map (Matrix.padTo n)) *
          (toMatrix n n (rows.map (Matrix.padTo n))).conjTranspose) i j = toMatrix n n m i j := by
      intro i j hij
      have hentries := hfinished.product i.val j.val _ _ _ hij (hsource i) (hrow i) (hrow j)
      rw [Nat.zero_add] at hentries
      rw [Matrix.mul_apply, toMatrix_apply, ← hentries]
      simp only [Matrix.conjTranspose_apply, toMatrix_apply, hentry]
      refine sum_eq_sum_range (f := fun k => coord (rows[i.val]?.getD []) k *
        (starRingEnd ℂ) (coord (rows[j.val]?.getD []) k)) j.isLt fun k hk _ => ?_
      rw [hlower j k hk, map_zero, mul_zero]
    -- the entries above the diagonal follow, both sides being Hermitian
    ext i j
    rcases le_total j i with hij | hij
    · exact hproduct i j hij
    · have hleft := (Matrix.isHermitian_mul_conjTranspose_self
        (toMatrix n n (rows.map (Matrix.padTo n)))).apply i j
      rw [← hleft, hproduct j i hij]
      exact hm.apply i j

/-! ## Substitution -/

theorem forwardFrom_ok {rows : Matrix ℝ} {bs found out : List (Phasor ℝ)}
    (h : forwardFrom found rows bs = .ok out) :
    out.length = found.length + rows.length ∧
      (∀ k < found.length, coord out k = coord found k) ∧
      ∀ (t : ℕ) row, rows[t]? = some row → coord row (found.length + t) ≠ 0 →
        ∑ k ∈ Finset.range (found.length + t + 1), coord row k * coord out k = coord bs t := by
  induction rows generalizing found bs with
  | nil =>
    rw [forwardFrom] at h
    obtain rfl := Except.ok.inj h
    exact ⟨rfl, fun _ _ => rfl, by simp⟩
  | cons row rows ih =>
    cases bs with
    | nil => cases h
    | cons b bs =>
      rw [forwardFrom, except_bind_ok] at h
      obtain ⟨diagonal, hdiagonal, h⟩ := h
      dsimp only at h
      obtain ⟨hlength, hknown, hrows⟩ := ih h
      rw [List.length_append, List.length_singleton] at hlength hknown hrows
      refine ⟨by rw [hlength, List.length_cons]; omega, fun k hk => ?_, fun t r hr hne => ?_⟩
      · rw [hknown k (by omega), coord_append_left hk]
      cases t with
      | zero =>
        cases hr
        have hlast := hknown found.length (Nat.lt_succ_self _)
        rw [coord_append_length, Phasor.toComplex_div, Phasor.toComplex_sub,
          toComplex_dot row found (Nat.min_le_right _ _), ← coord_of_entryAt hdiagonal] at hlast
        have hfound : ∑ k ∈ Finset.range found.length, coord row k * coord out k =
            ∑ k ∈ Finset.range found.length, coord row k * coord found k := by
          refine Finset.sum_congr rfl fun k hk => ?_
          have hk' := Finset.mem_range.mp hk
          rw [hknown k (by omega), coord_append_left hk']
        rw [Nat.add_zero] at hne ⊢
        rw [Finset.sum_range_succ, hfound, hlast, mul_div_cancel₀ _ hne]
        exact add_sub_cancel _ _
      | succ t =>
        have hplace : found.length + (t + 1) = found.length + 1 + t := by omega
        rw [hplace] at hne ⊢
        exact hrows t r hr hne

theorem below_ok {column : ℕ} {rows : Matrix ℝ} {found : List (Phasor ℝ)} {z : Phasor ℝ}
    (h : below column rows found = .ok z) (hfound : found.length = rows.length) :
    z.toComplex = ∑ r ∈ Finset.range rows.length,
      (starRingEnd ℂ) (coord (rows[r]?.getD []) column) * coord found r := by
  rw [below, except_bind_ok] at h
  obtain ⟨entries, hentries, h⟩ := h
  obtain rfl := Except.ok.inj h
  rw [toComplex_dot _ found (Nat.min_le_right _ _), hfound]
  refine Finset.sum_congr rfl fun r hr => ?_
  have hrow := List.getElem?_eq_getElem (Finset.mem_range.mp hr)
  obtain ⟨entry, hr', hentry⟩ := exists_of_forall₂ (except_mapM_ok.mp hentries) hrow
  rw [coord_map_conj, hrow, Option.getD_some, coord_of_entryAt hentry, coord, hr', Option.getD_some]

/-- Substitution from the last row up solves one row of the adjoint after the other. -/
theorem backFrom_ok {i : ℕ} {rows : Matrix ℝ} {zs out : List (Phasor ℝ)}
    (h : backFrom i rows zs = .ok out) :
    out.length = rows.length ∧
      ∀ (t : ℕ) row, rows[t]? = some row → coord row (i + t) ≠ 0 →
        ∑ r ∈ Finset.range (rows.length - t),
          (starRingEnd ℂ) (coord (rows[t + r]?.getD []) (i + t)) * coord out (t + r) = coord zs t := by
  induction rows generalizing i zs out with
  | nil =>
    rw [backFrom] at h
    obtain rfl := Except.ok.inj h
    exact ⟨rfl, by simp⟩
  | cons row rows ih =>
    cases zs with
    | nil => cases h
    | cons z zs =>
      rw [backFrom, except_bind_ok] at h
      obtain ⟨found, hfound, h⟩ := h
      rw [except_bind_ok] at h
      obtain ⟨diagonal, hdiagonal, h⟩ := h
      rw [except_bind_ok] at h
      obtain ⟨rest, hrest, h⟩ := h
      obtain rfl := Except.ok.inj h
      obtain ⟨hlength, hrows⟩ := ih hfound
      refine ⟨by rw [List.length_cons, hlength, List.length_cons], fun t r hr hne => ?_⟩
      cases t with
      | zero =>
        cases hr
        have hne' : (starRingEnd ℂ) (coord row i) ≠ 0 := (map_ne_zero _).mpr hne
        have hrest' := below_ok hrest hlength
        rw [Nat.sub_zero, List.length_cons, Finset.sum_range_succ']
        simp only [Nat.zero_add, Nat.add_zero, List.getElem?_cons_succ, List.getElem?_cons_zero,
          Option.getD_some, coord_cons_succ, coord_cons_zero, Phasor.toComplex_div,
          Phasor.toComplex_sub, Phasor.toComplex_conj]
        rw [← hrest', ← coord_of_entryAt hdiagonal, mul_div_cancel₀ _ hne']
        exact add_sub_cancel _ _
      | succ t =>
        have hplace : i + (t + 1) = i + 1 + t := by omega
        rw [hplace] at hne ⊢
        rw [List.length_cons, Nat.add_sub_add_right, coord_cons_succ, ← hrows t r hr hne]
        refine Finset.sum_congr rfl fun k _ => ?_
        rw [Nat.add_right_comm, List.getElem?_cons_succ, coord_cons_succ]

/-! ## Systems -/

variable {n : ℕ} {l : Matrix ℝ} {m : ComplexMatrix n n}

/-- Forward substitution solves the system of a root. -/
theorem forward_ok {b z : List (Phasor ℝ)} (hroot : IsRoot (toMatrix n n l) m) (hl : l.length = n)
    (h : forward l b = .ok z) : (toMatrix n n l).mulVec (toVector n z) = toVector n b := by
  obtain ⟨-, -, hrows⟩ := forwardFrom_ok h
  funext i
  have hi : l[i.val]? = some (l[i.val]?.getD []) := by
    rw [List.getElem?_eq_getElem (by omega), Option.getD_some]
  have hrow := hrows i.val _ hi (by simpa using hroot.diagonal i)
  rw [List.length_nil, Nat.zero_add] at hrow
  rw [toVector_apply, ← hrow]
  refine sum_eq_sum_range (f := fun k => coord (l[i.val]?.getD []) k * coord z k) i.isLt
    fun k hk hkn => ?_
  have hzero := hroot.lower i ⟨k, hkn⟩ hk
  rw [toMatrix_apply] at hzero
  rw [hzero, zero_mul]

/-- Substitution from the last row up solves the system of the adjoint of a root. -/
theorem back_ok {x z : List (Phasor ℝ)} (hroot : IsRoot (toMatrix n n l) m) (hl : l.length = n)
    (h : back l z = .ok x) :
    x.length = n ∧ (toMatrix n n l).conjTranspose.mulVec (toVector n x) = toVector n z := by
  obtain ⟨hlength, hrows⟩ := backFrom_ok h
  refine ⟨hlength.trans hl, ?_⟩
  funext i
  have hi : l[i.val]? = some (l[i.val]?.getD []) := by
    rw [List.getElem?_eq_getElem (by omega), Option.getD_some]
  have hrow := hrows i.val _ hi (by simpa using hroot.diagonal i)
  rw [Nat.zero_add, hl] at hrow
  let f : ℕ → ℂ := fun k => (starRingEnd ℂ) (coord (l[k]?.getD []) i.val) * coord x k
  have hzero : ∑ k ∈ Finset.range i.val, f k = 0 := by
    refine Finset.sum_eq_zero fun k hk => ?_
    have hki := Finset.mem_range.mp hk
    have hlower := hroot.lower ⟨k, hki.trans i.isLt⟩ i hki
    rw [toMatrix_apply] at hlower
    change (starRingEnd ℂ) (coord (l[k]?.getD []) i.val) * _ = 0
    rw [hlower, map_zero, zero_mul]
  calc ∑ k : Fin n, f k
    _ = ∑ k ∈ Finset.range n, f k := Fin.sum_univ_eq_sum_range f n
    _ = ∑ k ∈ Finset.range (i.val + (n - i.val)), f k := by rw [Nat.add_sub_cancel' i.isLt.le]
    _ = ∑ k ∈ Finset.range (n - i.val), f (i.val + k) := by
        rw [Finset.sum_range_add, hzero, zero_add]
    _ = toVector n z i := hrow

end Cholesky

end RadioChannel
