import RadioChannel.Beamforming.Fourier
import RadioChannel.Proofs.ExactPhasors
import Mathlib.Analysis.SpecialFunctions.Trigonometric.Basic

/-!
# Fourier sums

However a line is taken apart, its transform at a frequency is the plain sum of its samples, each
turned by as many parts of a turn as its place times the frequency.
-/

namespace RadioChannel

open ExactScalars

namespace Fourier

/-! ## Parts of a turn -/

/-- The number of modulus one at `k` of `n` parts of a turn. -/
noncomputable def spin (n k : ℕ) : ℂ := Complex.exp ((Scalar.turn : ℝ) * Complex.I * (k / n))

@[simp] theorem spin_zero (n : ℕ) : spin n 0 = 1 := by simp [spin]

theorem spin_add (n k l : ℕ) : spin n (k + l) = spin n k * spin n l := by
  rw [spin, spin, spin, ← Complex.exp_add, Nat.cast_add, add_div, mul_add]

theorem spin_self_mul (n k : ℕ) : spin n (n * k) = 1 := by
  rcases Nat.eq_zero_or_pos n with rfl | hn
  · simp [spin]
  · have hn' : (n : ℂ) ≠ 0 := Nat.cast_ne_zero.mpr hn.ne'
    rw [spin, Nat.cast_mul, mul_div_cancel_left₀ _ hn', mul_comm, turn_eq, Complex.ofReal_mul,
      Complex.ofReal_ofNat]
    exact Complex.exp_nat_mul_two_pi_mul_I k

theorem spin_mod (n k : ℕ) : spin n (k % n) = spin n k := by
  conv_rhs => rw [← Nat.mod_add_div k n, spin_add, spin_self_mul, mul_one]

theorem spin_mod_mul (n k l : ℕ) : spin n (k % n * l) = spin n (k * l) := by
  rw [← spin_mod n (k % n * l), ← spin_mod n (k * l), Nat.mod_mul_mod]

theorem spin_mul_left {c : ℕ} (hc : c ≠ 0) (n k : ℕ) : spin (c * n) (c * k) = spin n k := by
  rw [spin, spin, Nat.cast_mul, Nat.cast_mul, mul_div_mul_left _ _ (Nat.cast_ne_zero.mpr hc)]

theorem spin_eq (n k : ℕ) : spin n k =
    ⟨Real.cos (2 * Real.pi * (k * (n : ℝ)⁻¹)), Real.sin (2 * Real.pi * (k * (n : ℝ)⁻¹))⟩ := by
  have harg : (Scalar.turn : ℝ) * Complex.I * (k / n) =
      ((2 * Real.pi * (k * (n : ℝ)⁻¹) : ℝ) : ℂ) * Complex.I := by
    rw [turn_eq]
    push_cast
    ring
  rw [spin, harg]
  apply Complex.ext
  · exact Complex.exp_ofReal_mul_I_re _
  · exact Complex.exp_ofReal_mul_I_im _

theorem spin_mul_conj (n k : ℕ) : spin n k * (starRingEnd ℂ) (spin n k) = 1 := by
  rw [Complex.mul_conj, spin_eq, Complex.normSq_mk, ← sq, ← sq, Real.cos_sq_add_sin_sq,
    Complex.ofReal_one]

theorem spin_quarter : spin 4 1 = Complex.I := by
  have hangle : 2 * Real.pi * ((1 : ℕ) * ((4 : ℕ) : ℝ)⁻¹) = Real.pi / 2 := by
    push_cast
    ring
  rw [spin_eq, hangle, Real.cos_pi_div_two, Real.sin_pi_div_two]
  rfl

end Fourier

open RadioChannel.Fourier

namespace Phasor

/-! ## Turned phasors -/

theorem toComplex_quarterTurns (z : Phasor ℝ) (quarters : ℕ) :
    (z.quarterTurns quarters).toComplex = z.toComplex * spin 4 quarters := by
  rw [← spin_mod, quarterTurns]
  obtain h | h | h | h : quarters % 4 = 0 ∨ quarters % 4 = 1 ∨ quarters % 4 = 2 ∨ quarters % 4 = 3 := by
    omega
  all_goals rw [h]
  · rw [spin_zero, mul_one]
    rfl
  · rw [spin_quarter, Complex.ext_iff, Complex.mul_I_re, Complex.mul_I_im]
    exact ⟨rfl, rfl⟩
  · rw [show 2 = 1 + 1 from rfl, spin_add, spin_quarter, Complex.I_mul_I, mul_neg_one]
    rfl
  · rw [show 3 = 1 + 1 + 1 from rfl, spin_add, spin_add, spin_quarter, Complex.I_mul_I, neg_one_mul,
      mul_neg, Complex.ext_iff, Complex.neg_re, Complex.neg_im, Complex.mul_I_re, Complex.mul_I_im,
      neg_neg]
    exact ⟨rfl, rfl⟩

theorem toComplex_turned (z : Phasor ℝ) {n : ℕ} (hn : n ≠ 0) (k : ℕ) :
    (z.turned n k).toComplex = z.toComplex * spin n k := by
  have hn' : (n : ℝ) ≠ 0 := Nat.cast_ne_zero.mpr hn
  have hbeyond : (4 * k % n : ℕ) ≤ n := (Nat.mod_lt _ (Nat.pos_of_ne_zero hn)).le
  -- what is beyond the last quarter is a part of `4 * n` parts
  have hangle : (⟨Scalar.cos (Scalar.turn / Scalar.ofNat (4 * n) * Scalar.ofNat (4 * k % n)),
      Scalar.cos (Scalar.turn / Scalar.ofNat (4 * n) * Scalar.ofNat (n - 4 * k % n))⟩ :
        Phasor ℝ).toComplex = spin (4 * n) (4 * k % n) := by
    rw [spin_eq]
    apply Complex.ext
    · change Real.cos (2 * Real.pi / ((4 * n : ℕ) : ℝ) * ((4 * k % n : ℕ) : ℝ)) = _
      rw [div_eq_mul_inv, mul_right_comm, mul_assoc]
    · change Real.cos (2 * Real.pi / ((4 * n : ℕ) : ℝ) * ((n - 4 * k % n : ℕ) : ℝ)) = _
      rw [← Real.cos_pi_div_two_sub, Nat.cast_sub hbeyond]
      congr 1
      push_cast
      field_simp
      ring
  have hquarters : spin (4 * n) (4 * k % n) * spin 4 (4 * k / n) = spin n k := by
    rw [← spin_mul_left hn 4, mul_comm n 4, ← spin_add, Nat.mod_add_div,
      spin_mul_left (by decide : 4 ≠ 0)]
  unfold turned
  dsimp only
  rw [toComplex_quarterTurns, ← hquarters, ← mul_assoc]
  congr 1
  split
  · next hzero => rw [hzero, spin_zero, mul_one]
  · rw [toComplex_mul, hangle]

end Phasor

namespace Fourier

/-! ## Lines of odd length -/

variable {n : ℕ}

theorem opposite_angle (hn : n ≠ 0) (p : ℝ) :
    2 * Real.pi - 2 * Real.pi * (n : ℝ)⁻¹ * (n - p) = 2 * Real.pi * (p * (n : ℝ)⁻¹) := by
  have hn' : (n : ℝ) ≠ 0 := Nat.cast_ne_zero.mpr hn
  field_simp
  ring

theorem cosine_eq (hn : n ≠ 0) (k : ℕ) : (cosine n k : ℝ) = (spin n k).re := by
  have hparts : (k % n : ℕ) ≤ n := (Nat.mod_lt _ (Nat.pos_of_ne_zero hn)).le
  rw [← spin_mod, spin_eq]
  change Real.cos (2 * Real.pi / (n : ℝ) * ((min (k % n) (n - k % n) : ℕ) : ℝ)) = _
  rcases le_total (k % n) (n - k % n) with hle | hle
  · rw [min_eq_left hle, div_eq_mul_inv, mul_right_comm, mul_assoc]
  · rw [min_eq_right hle, Nat.cast_sub hparts, ← Real.cos_two_pi_sub, div_eq_mul_inv,
      opposite_angle hn]

theorem sine_eq (hn : n ≠ 0) (k : ℕ) : (sine n k : ℝ) = (spin n k).im := by
  have hparts : (k % n : ℕ) ≤ n := (Nat.mod_lt _ (Nat.pos_of_ne_zero hn)).le
  rw [← spin_mod, spin_eq]
  unfold sine
  dsimp only
  split
  · change Real.sin (2 * Real.pi / (n : ℝ) * ((k % n : ℕ) : ℝ)) = _
    rw [div_eq_mul_inv, mul_right_comm, mul_assoc]
  · change -Real.sin (2 * Real.pi / (n : ℝ) * ((n - k % n : ℕ) : ℝ)) = _
    rw [Nat.cast_sub hparts, ← Real.sin_two_pi_sub, div_eq_mul_inv, opposite_angle hn]

theorem mirrored_eq {m : ℕ} {samples : List (Phasor ℝ)} (hlength : samples.length = 2 * m + 1) :
    mirrored samples = (List.range m).map fun j =>
      ((samples[j + 1]?.getD .zero, samples[2 * m - j]?.getD .zero), j + 1) := by
  refine List.ext_getElem (by simp [mirrored, hlength]; omega) fun j hj _ => ?_
  have hj' : j < m := by
    simp [mirrored, hlength] at hj
    omega
  have hafter : samples[j + 1]? = some samples[j + 1] := List.getElem?_eq_getElem (by omega)
  have hplace : 2 * m - 1 - j + 1 = 2 * m - j := by omega
  simp [mirrored, hafter, hlength, hplace, Nat.add_comm 1 j]

/-- The samples on both sides of the first one are turned the same way round and the other. -/
theorem pair_eq (hn : n ≠ 0) {j : ℕ} (hj : j ≤ n) (frequency : ℕ) (a b : ℂ) :
    (cosine n (j * frequency) : ℝ) * (a + b) +
      (sine n (j * frequency) : ℝ) * (a - b) * Complex.I =
      a * spin n (j * frequency) + b * spin n ((n - j) * frequency) := by
  have hround : spin n (j * frequency) * spin n ((n - j) * frequency) = 1 := by
    rw [← spin_add, ← Nat.add_mul, Nat.add_sub_cancel' hj, spin_self_mul]
  have hback : spin n ((n - j) * frequency) = (starRingEnd ℂ) (spin n (j * frequency)) := by
    refine mul_left_cancel₀ (left_ne_zero_of_mul_eq_one hround) ?_
    rw [hround, spin_mul_conj]
  rw [hback, cosine_eq hn, sine_eq hn]
  apply Complex.ext <;> simp <;> ring

theorem toComplex_oddLineAt {m : ℕ} {line : List (Phasor ℝ)} (hlength : line.length = 2 * m + 1)
    (frequency : ℕ) : (oddLineAt line frequency).toComplex =
      ∑ j ∈ Finset.range line.length, coord line j * spin line.length (j * frequency) := by
  have hn : 2 * m + 1 ≠ 0 := by omega
  have hhead : (line.headD Phasor.zero).toComplex = coord line 0 := by
    rw [coord, ← List.head?_eq_getElem?, List.headD_eq_head?_getD]
  have hacross : frequency % (2 * m + 1) = 0 →
      ∀ j : ℕ, (sine (2 * m + 1) (j * frequency) : ℝ) = 0 := by
    intro hzero j
    rw [sine_eq hn, ← spin_mod, Nat.mul_mod, hzero, Nat.mul_zero, Nat.zero_mod, spin_zero,
      Complex.one_im]
  have hsplit : (oddLineAt line frequency).toComplex = coord line 0 + ∑ j ∈ Finset.range m,
      ((cosine (2 * m + 1) ((j + 1) * frequency) : ℝ) *
        (coord line (j + 1) + coord line (2 * m - j)) +
      (sine (2 * m + 1) ((j + 1) * frequency) : ℝ) *
        (coord line (j + 1) - coord line (2 * m - j)) * Complex.I) := by
    unfold oddLineAt
    dsimp only
    rw [mirrored_eq hlength, hlength, List.map_map, List.map_map, Finset.sum_add_distrib, ← add_assoc]
    split
    · next hzero =>
      rw [Phasor.toComplex_add, hhead, Phasor.toComplex_sum_range]
      simp [hacross hzero]
      rfl
    · rw [Phasor.toComplex_add, Phasor.toComplex_add, hhead, Phasor.toComplex_quarterTurns,
        spin_quarter, Phasor.toComplex_sum_range, Phasor.toComplex_sum_range, Finset.sum_mul]
      simp
      rfl
  let turned (j : ℕ) : ℂ := coord line j * spin (2 * m + 1) (j * frequency)
  have hpair : ∀ j ∈ Finset.range m,
      (cosine (2 * m + 1) ((j + 1) * frequency) : ℝ) *
        (coord line (j + 1) + coord line (2 * m - j)) +
      (sine (2 * m + 1) ((j + 1) * frequency) : ℝ) *
        (coord line (j + 1) - coord line (2 * m - j)) * Complex.I =
      turned (j + 1) + turned (m + (m - 1 - j) + 1) := by
    intro j hj
    have hj' := Finset.mem_range.mp hj
    have hplace : 2 * m + 1 - (j + 1) = 2 * m - j := by omega
    have hback : m + (m - 1 - j) + 1 = 2 * m - j := by omega
    rw [pair_eq hn (by omega), hplace, hback]
  have hfirst : turned 0 = coord line 0 := by simp [turned]
  calc (oddLineAt line frequency).toComplex
    _ = coord line 0 + ∑ j ∈ Finset.range m, (turned (j + 1) + turned (m + (m - 1 - j) + 1)) := by
        rw [hsplit, Finset.sum_congr rfl hpair]
    _ = turned 0 + (∑ j ∈ Finset.range m, turned (j + 1) +
          ∑ j ∈ Finset.range m, turned (m + j + 1)) := by
        rw [hfirst, Finset.sum_add_distrib, Finset.sum_range_reflect fun j => turned (m + j + 1)]
    _ = ∑ j ∈ Finset.range (2 * m + 1), turned j := by
        rw [Finset.sum_range_succ', Nat.two_mul, Finset.sum_range_add, add_comm]
    _ = ∑ j ∈ Finset.range line.length, coord line j * spin line.length (j * frequency) := by
        rw [hlength]

/-! ## All lines -/

theorem coord_alternate (line : List (Phasor ℝ)) (j : ℕ) :
    coord (alternate line) j = coord line (2 * j) := by
  fun_induction alternate line generalizing j with
  | case1 x _ rest ih =>
    cases j with
    | zero => rfl
    | succ j => exact ih j
  | case2 rest hshort =>
    match rest with
    | [] => rw [coord_nil, coord_nil]
    | [x] =>
      cases j with
      | zero => rfl
      | succ j => rfl
    | x :: y :: rest => exact (hshort x y rest rfl).elim

theorem coord_readFrom {start : ℕ} (line : List (Phasor ℝ)) (hstart : start ≤ line.length) {j : ℕ}
    (hj : j < line.length) : coord (readFrom start line) j = coord line ((start + j) % line.length) := by
  have hdrop : (line.drop start).length = line.length - start := List.length_drop
  rcases Nat.lt_or_ge j (line.length - start) with hlt | hge
  · rw [readFrom, coord_append_left (by omega), Nat.mod_eq_of_lt (by omega), coord, coord,
      List.getElem?_drop]
  · rw [readFrom, coord, coord, List.getElem?_append_right (by omega), hdrop,
      List.getElem?_take_of_lt (by omega), Nat.mod_eq_sub_mod (by omega), Nat.mod_eq_of_lt (by omega)]
    congr 3
    omega

theorem sum_range_alternate (g : ℕ → ℂ) (m : ℕ) : ∑ j ∈ Finset.range (2 * m), g j =
    ∑ j ∈ Finset.range m, g (2 * j) + ∑ j ∈ Finset.range m, g (2 * j + 1) := by
  induction m with
  | zero => simp
  | succ m ih =>
    rw [Nat.mul_succ, Finset.sum_range_succ, Finset.sum_range_succ, ih, Finset.sum_range_succ,
      Finset.sum_range_succ]
    ring

theorem sum_range_around (g : ℕ → ℂ) (c m : ℕ) :
    ∑ j ∈ Finset.range m, g ((c + j) % m) = ∑ j ∈ Finset.range m, g j := by
  conv_rhs => rw [← Nat.image_Ico_mod c m, Finset.sum_image (Nat.mod_injOn_Ico c m),
    Finset.sum_Ico_eq_sum_range, Nat.add_sub_cancel_left]

/-- Read around from an odd place, the alternate samples are those at all odd places. -/
theorem sum_range_alternate_around (g : ℕ → ℂ) {start m : ℕ} (hstart : start % 2 = 1) :
    ∑ j ∈ Finset.range m, g ((start + 2 * j) % (2 * m)) = ∑ j ∈ Finset.range m, g (2 * j + 1) := by
  rw [← sum_range_around (fun j => g (2 * j + 1)) (start / 2)]
  refine Finset.sum_congr rfl fun j _ => congrArg g ?_
  have hodd : (start + 2 * j) % 2 = 1 := by omega
  have hhalf : (start + 2 * j) / 2 = start / 2 + j := by omega
  rw [Nat.mod_mul, hodd, hhalf, Nat.add_comm]

theorem secondStart_odd {m : ℕ} (hm : 0 < m) :
    secondStart (2 * m) % 2 = 1 ∧ secondStart (2 * m) ≤ 2 * m := by
  unfold secondStart
  split <;> omega

/-- The transform of a line is the sum of its turned samples. -/
theorem toComplex_lineAt (line : List (Phasor ℝ)) (frequency : ℕ) :
    (lineAt line frequency).toComplex =
      ∑ j ∈ Finset.range line.length, coord line j * spin line.length (j * frequency) := by
  fun_induction lineAt line frequency with
  | case1 line heven start ihfirst ihsecond =>
    obtain ⟨m, hm⟩ : ∃ m, line.length = 2 * m := ⟨line.length / 2, by omega⟩
    have hstart : start = secondStart (2 * m) := congrArg secondStart hm
    obtain ⟨hodd, hle⟩ := secondStart_odd (m := m) (by omega)
    rw [← hstart] at hodd hle
    have hhalf : (2 * m + 1) / 2 = m := by omega
    let turned (j : ℕ) : ℂ := coord line j * spin (2 * m) (j * frequency)
    have hfirst : ∀ j ∈ Finset.range m,
        coord (alternate line) j * spin m (j * frequency) = turned (2 * j) := by
      intro j _
      rw [coord_alternate, ← spin_mul_left two_ne_zero m, ← mul_assoc]
    have hsecond : ∀ j ∈ Finset.range m,
        coord (alternate (readFrom start line)) j * spin m (j * frequency) *
          spin (2 * m) (start * frequency) = turned ((start + 2 * j) % (2 * m)) := by
      intro j hj
      have hj' := Finset.mem_range.mp hj
      rw [coord_alternate, coord_readFrom line (by omega) (by omega), hm,
        ← spin_mul_left two_ne_zero m, mul_assoc, ← spin_add, ← mul_assoc, ← Nat.add_mul,
        Nat.add_comm (2 * j) start, ← spin_mod_mul]
    rw [Phasor.toComplex_add, Phasor.toComplex_turned _ (by omega), ihfirst, ihsecond, length_alternate,
      length_alternate, length_readFrom, hm, hhalf, Finset.sum_congr rfl hfirst, Finset.sum_mul,
      Finset.sum_congr rfl hsecond, sum_range_alternate_around turned hodd, ← sum_range_alternate]
  | case2 line hshort =>
    rcases Nat.eq_zero_or_pos line.length with hnone | hsome
    · rw [List.length_eq_zero_iff.mp hnone]
      simp only [oddLineAt, mirrored, List.length_nil, List.tail_nil, List.reverse_nil, List.zip_nil_left,
        List.take_nil, List.zipIdx_nil, List.map_nil, List.headD_nil, Finset.range_zero,
        Finset.sum_empty]
      split <;> simp [Phasor.toComplex_quarterTurns]
    · exact toComplex_oddLineAt (m := line.length / 2) (by omega) _

end Fourier

end RadioChannel
