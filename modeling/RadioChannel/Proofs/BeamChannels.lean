import RadioChannel.Antenna.Beam
import RadioChannel.Beamforming.Codebook
import RadioChannel.Proofs.Actions
import RadioChannel.Proofs.FourierSums

/-!
# Channels between beams

The transform along the four axes of two panels turns the channel between their elements into the
channel between their codebook beams: its entry for a receiving beam `b` and a transmitting beam `a` is
`sqrt (nr nt) b h a`, which is what sending on the one beam and receiving on the other would give.
-/

namespace RadioChannel

open ExactScalars RadioChannel.Fourier

/-- A size whose sides have 32 bits, as all sizes that settings give. -/
def PanelSize.HasSides (size : PanelSize) : Prop :=
  ∃ columns rows : UInt32, size = .ofSides columns rows

/-- A size on whose sides the product of two places is held by a machine word. -/
structure PanelSize.Indexable (size : PanelSize) : Prop where
  columns : size.columns ≤ UInt32.size
  rows : size.rows ≤ UInt32.size

theorem PanelSize.HasSides.indexable {size : PanelSize} (h : size.HasSides) : size.Indexable := by
  obtain ⟨columns, rows, rfl⟩ := h
  exact ⟨columns.toNat_lt_size.le, rows.toNat_lt_size.le⟩

namespace Codebook

variable {size rx tx : PanelSize}

/-! ## Transforms along an axis -/

/-- The line that a transform reads for a place. -/
theorem line_ok {R : Type} {data samples : List (Phasor R)} {length start stride : ℕ}
    (h : (List.range length).mapM (fun k =>
      match data.toArray[start + k * stride]? with
      | some x => (.ok x : Except (Fault R) (Phasor R))
      | none => .error (.breach .indexInRange)) = .ok samples) :
    samples.length = length ∧ ∀ k < length, samples[k]? = data[start + k * stride]? := by
  have hsteps := except_mapM_ok.mp h
  refine ⟨by rw [← hsteps.length_eq, List.length_range], fun k hk => ?_⟩
  obtain ⟨x, hx, hsample⟩ := exists_of_forall₂ hsteps (List.getElem?_range hk)
  rw [List.getElem?_toArray] at hsample
  split at hsample
  · next hdata => rw [hx, hdata, Except.ok.inj hsample]
  · cases hsample

/-- The place of an entry in its line, and where the line starts. -/
theorem place_eq {offset stride place length : ℕ} (hoffset : offset < stride) (hplace : place < length)
    (block : ℕ) : (offset + stride * (place + length * block)) / stride % length = place ∧
      offset + stride * (place + length * block) - place * stride =
        offset + stride * (length * block) := by
  constructor
  · rw [Nat.add_mul_div_left _ _ (by omega), Nat.div_eq_of_lt hoffset, Nat.zero_add,
      Nat.add_mul_mod_self_left, Nat.mod_eq_of_lt hplace]
  · have hsum : offset + stride * (place + length * block) =
        offset + stride * (length * block) + place * stride := by ring
    omega

theorem index_lt {offset stride place length block count : ℕ} (hoffset : offset < stride)
    (hplace : place < length) (hblock : stride * (length * (block + 1)) ≤ count) :
    offset + stride * (place + length * block) < count := by
  have hstep : stride * (place + length * block + 1) ≤ stride * (length * (block + 1)) :=
    Nat.mul_le_mul_left _ (by rw [Nat.mul_succ]; omega)
  rw [Nat.mul_succ] at hstep
  omega

/-- Along an axis whose blocks fill the data, no line leaves the data. -/
theorem transformAlong_exists {R : Type} [Scalar R] {length stride : ℕ} {data : List (Phasor R)}
    (hblocks : stride * length ∣ data.length) : ∃ out, transformAlong length stride data = .ok out := by
  unfold transformAlong
  split
  · exact ⟨data, rfl⟩
  obtain ⟨blocks, hblocks⟩ := hblocks
  refine exists_mapM_ok fun i hi => ?_
  rw [List.mem_range] at hi
  have hstride : 0 < stride := by
    refine Nat.pos_of_ne_zero ?_
    rintro rfl
    rw [hblocks, Nat.zero_mul, Nat.zero_mul] at hi
    exact Nat.not_lt_zero _ hi
  have hlength : 0 < length := by omega
  -- the entry by its offset within a stride, its place and its block
  have hentry : i % stride + stride * (i / stride % length + length * (i / stride / length)) = i := by
    rw [Nat.mod_add_div, Nat.mod_add_div]
  have hblock : stride * (length * (i / stride / length + 1)) ≤ data.length := by
    rw [hblocks, ← Nat.mul_assoc]
    refine Nat.mul_le_mul_left _ (Nat.succ_le_of_lt ?_)
    rw [Nat.div_div_eq_div_mul]
    exact Nat.div_lt_of_lt_mul (hblocks ▸ hi)
  obtain ⟨hplace, hstart⟩ := place_eq (Nat.mod_lt i hstride) (Nat.mod_lt (i / stride) hlength)
    (i / stride / length)
  rw [hentry] at hstart
  have hline : ∀ k ∈ List.range length, ∃ x,
      (match data.toArray[i - i / stride % length * stride + k * stride]? with
        | some x => (.ok x : Except (Fault R) (Phasor R))
        | none => .error (.breach .indexInRange)) = .ok x := by
    intro k hk
    have hplace' : i - i / stride % length * stride + k * stride =
        i % stride + stride * (k + length * (i / stride / length)) := by
      rw [hstart]
      ring
    have hin := index_lt (Nat.mod_lt i hstride) (List.mem_range.mp hk) hblock
    rw [hplace', List.getElem?_toArray, List.getElem?_eq_getElem hin]
    exact ⟨_, rfl⟩
  obtain ⟨line, hline⟩ := exists_mapM_ok hline
  exact ⟨_, except_bind_ok.mpr ⟨line, hline, rfl⟩⟩

theorem length_transformAlong {R : Type} [Scalar R] {length stride : ℕ} {data out : List (Phasor R)}
    (h : transformAlong length stride data = .ok out) : out.length = data.length := by
  unfold transformAlong at h
  split at h
  · rw [Except.ok.inj h]
  · rw [← (except_mapM_ok.mp h).length_eq, List.length_range]

/-- Along one axis, the entry at a place is the sum of the samples of its line, each turned. The line
through an entry is given by its offset within a stride and by the block of all places of the axis. -/
theorem transformAlong_ok {length stride : ℕ} (hlength : 0 < length) {data out : List (Phasor ℝ)}
    (h : transformAlong length stride data = .ok out) : out.length = data.length ∧
      ∀ offset < stride, ∀ place < length, ∀ block, stride * (length * (block + 1)) ≤ data.length →
        coord out (offset + stride * (place + length * block)) =
          ∑ k ∈ Finset.range length,
            coord data (offset + stride * (k + length * block)) * spin length (k * place) := by
  refine ⟨length_transformAlong h, fun offset hoffset place hplace block hblock => ?_⟩
  unfold transformAlong at h
  split at h
  · obtain rfl := Except.ok.inj h
    obtain rfl : length = 1 := by omega
    obtain rfl : place = 0 := by omega
    simp
  · have hsteps := except_mapM_ok.mp h
    obtain ⟨hplaced, hstart⟩ := place_eq hoffset hplace block
    have hindex := List.getElem?_range (index_lt hoffset hplace hblock)
    obtain ⟨z, hz, hstep⟩ := exists_of_forall₂ hsteps hindex
    dsimp only at hstep
    rw [hplaced, hstart] at hstep
    obtain ⟨line, hline, hz'⟩ := except_bind_ok.mp hstep
    obtain rfl := Except.ok.inj hz'
    obtain ⟨hcount, hsamples⟩ := line_ok hline
    rw [coord, hz, Option.getD_some, toComplex_lineAt, hcount]
    refine Finset.sum_congr rfl fun k hk => ?_
    have hplace' : offset + stride * (length * block) + k * stride =
        offset + stride * (k + length * block) := by ring
    rw [coord, coord, hsamples k (Finset.mem_range.mp hk), hplace']

/-! ## Transforms along both axes of a panel -/

/-- How an element of a panel is turned in a beam. -/
noncomputable def elementSpin (size : PanelSize) (k i : ℕ) : ℂ :=
  spin size.columns (k % size.columns * (i % size.columns)) *
    spin size.rows (k / size.columns * (i / size.columns))

@[simp] theorem elementSpin_zero (size : PanelSize) (k : ℕ) : elementSpin size k 0 = 1 := by
  simp [elementSpin]

@[simp] theorem elementSpin_first (size : PanelSize) (i : ℕ) : elementSpin size 0 i = 1 := by
  simp [elementSpin]

theorem sum_range_mul (f : ℕ → ℂ) (c r : ℕ) : ∑ i ∈ Finset.range (c * r), f i =
    ∑ k ∈ Finset.range r, ∑ l ∈ Finset.range c, f (l + c * k) := by
  induction r with
  | zero => simp
  | succ r ih =>
    rw [Nat.mul_succ, Finset.sum_range_add, Finset.sum_range_succ, ih]
    simp only [Nat.add_comm]

/-- Along both axes of a panel, the entry of a beam is the sum over the elements of the panel, each
turned as in the beam. -/
theorem transformPanel_ok {size : PanelSize} (hsize : 0 < size.count) {stride : ℕ}
    {data between out : List (Phasor ℝ)}
    (hcolumns : transformAlong size.columns stride data = .ok between)
    (hrows : transformAlong size.rows (stride * size.columns) between = .ok out) :
    out.length = data.length ∧
      ∀ offset < stride, ∀ k < size.count, ∀ block, stride * (size.count * (block + 1)) ≤ data.length →
        coord out (offset + stride * (k + size.count * block)) =
          ∑ i ∈ Finset.range size.count,
            coord data (offset + stride * (i + size.count * block)) * elementSpin size k i := by
  obtain ⟨c, r⟩ := size
  have hc : 0 < c := Nat.pos_of_mul_pos_right hsize
  have hr : 0 < r := Nat.pos_of_mul_pos_left hsize
  obtain ⟨hlength, hcolumns⟩ := transformAlong_ok hc hcolumns
  obtain ⟨hlength', hrows⟩ := transformAlong_ok hr hrows
  refine ⟨hlength'.trans hlength, fun offset hoffset k hk block hblock => ?_⟩
  have hcolumn : k % c < c := Nat.mod_lt _ hc
  have hrow : k / c < r := Nat.div_lt_of_lt_mul hk
  have hoffset' : offset + stride * (k % c) < stride * c := by
    have hnext : stride * (k % c + 1) ≤ stride * c := Nat.mul_le_mul_left _ hcolumn
    rw [Nat.mul_succ] at hnext
    omega
  -- an element's place is its column within a stride of rows
  have hplace : ∀ l m : ℕ, offset + stride * (l + c * m + c * r * block) =
      offset + stride * (l + c * (m + r * block)) := fun l m => by ring
  have hplace' : ∀ l m : ℕ, offset + stride * (l + c * (m + r * block)) =
      offset + stride * l + stride * c * (m + r * block) := fun l m => by ring
  have hrowblock : stride * c * (r * (block + 1)) ≤ between.length := by
    rw [hlength]
    calc stride * c * (r * (block + 1))
      _ = stride * (c * r * (block + 1)) := by ring
      _ ≤ data.length := hblock
  have hcolumnblock : ∀ m < r, stride * (c * (m + r * block + 1)) ≤ data.length := by
    intro m hm
    refine le_trans (Nat.mul_le_mul_left _ ?_) hblock
    calc c * (m + r * block + 1)
      _ ≤ c * (r * block + r) := Nat.mul_le_mul_left _ (by omega)
      _ = c * r * (block + 1) := by ring
  calc coord out (offset + stride * (k + c * r * block))
    _ = coord out (offset + stride * (k % c) + stride * c * (k / c + r * block)) := by
        rw [← hplace', ← hplace, Nat.mod_add_div]
    _ = ∑ m ∈ Finset.range r, coord between (offset + stride * (k % c) + stride * c * (m + r * block)) *
          spin r (m * (k / c)) := hrows _ hoffset' _ hrow _ hrowblock
    _ = ∑ m ∈ Finset.range r, ∑ l ∈ Finset.range c,
          coord data (offset + stride * (l + c * m + c * r * block)) *
            (spin c (l * (k % c)) * spin r (m * (k / c))) := by
        refine Finset.sum_congr rfl fun m hm => ?_
        rw [← hplace', hcolumns _ hoffset _ hcolumn _ (hcolumnblock m (Finset.mem_range.mp hm)),
          Finset.sum_mul]
        exact Finset.sum_congr rfl fun l _ => by rw [hplace, mul_assoc]
    _ = ∑ i ∈ Finset.range (c * r),
          coord data (offset + stride * (i + c * r * block)) * elementSpin ⟨c, r⟩ k i := by
        rw [sum_range_mul]
        refine Finset.sum_congr rfl fun m _ => Finset.sum_congr rfl fun l hl => ?_
        have hl' := Finset.mem_range.mp hl
        rw [elementSpin, Nat.add_mul_mod_self_left, Nat.mod_eq_of_lt hl', Nat.add_mul_div_left _ _ hc,
          Nat.div_eq_of_lt hl', Nat.zero_add, Nat.mul_comm (k % c), Nat.mul_comm (k / c)]

/-! ## Flat data -/

theorem length_flatten {R : Type} {n : ℕ} {h : Matrix R} (hrows : ∀ row ∈ h, row.length = n) :
    h.flatten.length = n * h.length := by
  rw [List.length_flatten, List.map_congr_left hrows, List.map_const', List.sum_replicate, smul_eq_mul,
    Nat.mul_comm]

theorem coord_flatten {n : ℕ} {h : Matrix ℝ} (hrows : ∀ row ∈ h, row.length = n) (r : ℕ) {t : ℕ}
    (ht : t < n) : coord h.flatten (t + n * r) = coord (h[r]?.getD []) t := by
  induction h generalizing r with
  | nil => rw [List.flatten_nil, coord_nil, List.getElem?_nil, Option.getD_none, coord_nil]
  | cons row h ih =>
    rw [List.forall_mem_cons] at hrows
    rw [List.flatten_cons]
    cases r with
    | zero => exact coord_append_left (by omega) _
    | succ r =>
      have hplace : t + n * (r + 1) = row.length + (t + n * r) := by
        rw [hrows.1]
        ring
      rw [List.getElem?_cons_succ, ← ih hrows.2, hplace, coord, coord,
        List.getElem?_append_right (Nat.le_add_right _ _), Nat.add_sub_cancel_left]

theorem shape_rowsOf {R : Type} {n count : ℕ} (hn : 0 < n) {data : List (Phasor R)}
    (hdata : data.length = n * count) :
    (rowsOf n data).length = count ∧ ∀ row ∈ rowsOf n data, row.length = n := by
  have hcount : (data.length + n - 1) / n = count := by
    rw [hdata, Nat.add_sub_assoc hn, Nat.mul_add_div hn, Nat.div_eq_of_lt (by omega), Nat.add_zero]
  refine ⟨by rw [rowsOf, List.length_map, List.length_range, hcount], fun row hrow => ?_⟩
  obtain ⟨r, hr, rfl⟩ := List.mem_map.mp hrow
  rw [hcount, List.mem_range] at hr
  have hnext : n * (r + 1) ≤ n * count := Nat.mul_le_mul_left _ hr
  rw [Nat.mul_succ, Nat.mul_comm n r] at hnext
  rw [List.length_take, List.length_drop]
  omega

theorem rowsOf_ok {n count : ℕ} (hn : 0 < n) {data : List (Phasor ℝ)} (hdata : data.length = n * count) :
    (rowsOf n data).length = count ∧ (∀ row ∈ rowsOf n data, row.length = n) ∧
      ∀ r < count, ∀ t < n, coord ((rowsOf n data)[r]?.getD []) t = coord data (t + n * r) := by
  obtain ⟨hcount, hwidth⟩ := shape_rowsOf hn hdata
  refine ⟨hcount, hwidth, fun r hr t ht => ?_⟩
  rw [rowsOf, List.length_map, List.length_range] at hcount
  rw [rowsOf, hcount, List.getElem?_map, List.getElem?_range hr, Option.map_some, Option.getD_some,
    coord, coord, List.getElem?_take_of_lt ht, List.getElem?_drop, Nat.mul_comm r, Nat.add_comm]

/-! ## Beams -/

theorem wordCount_eq (hsize : size.HasSides) : size.wordCount = size.count := by
  obtain ⟨columns, rows, rfl⟩ := hsize
  exact PanelSize.wordCount_ofSides columns rows

/-- Products of places on a panel do not overflow. -/
theorem indexProduct_eq {side a b : ℕ} (hside : side ≤ UInt32.size) (ha : a < side) (hb : b < side) :
    indexProduct a b = a * b :=
  Nat.mod_eq_of_lt (Nat.mul_lt_mul'' (ha.trans_le hside) (hb.trans_le hside))

theorem exp_phase (hsize : size.Indexable) {k i : ℕ} (hk : k < size.count) (hi : i < size.count) :
    Complex.exp ((phase size k i : ℝ) * Complex.I) = elementSpin size k i := by
  obtain ⟨columns, rows⟩ := size
  have hcolumns : 0 < columns := Nat.pos_of_mul_pos_right (Nat.zero_lt_of_lt hk)
  have hphase : (phase ⟨columns, rows⟩ k i : ℝ) = Scalar.turn *
      (((k % columns * (i % columns) : ℕ) : ℝ) / (columns : ℝ) +
        ((k / columns * (i / columns) : ℕ) : ℝ) / (rows : ℝ)) := by
    rw [← indexProduct_eq hsize.columns (Nat.mod_lt _ hcolumns) (Nat.mod_lt _ hcolumns),
      ← indexProduct_eq hsize.rows (Nat.div_lt_of_lt_mul hk) (Nat.div_lt_of_lt_mul hi)]
    rfl
  rw [hphase, elementSpin, spin, spin, ← Complex.exp_add]
  congr 1
  push_cast
  ring

/-- The weight of an element in a beam of unit norm. -/
noncomputable def beamWeight (size : PanelSize) (k i : ℕ) : ℂ :=
  ((√size.count)⁻¹ : ℝ) * elementSpin size k i

theorem coord_weights (hsize : size.Indexable) (hcount : size.wordCount = size.count) {k i : ℕ}
    (hk : k < size.count) (hi : i < size.count) :
    coord (weights size k) i = beamWeight size k i := by
  rw [coord, weights, hcount, List.getElem?_map, List.getElem?_range hi, Option.map_some,
    Option.getD_some, Phasor.toComplex_polar, exp_phase hsize hk hi, beamWeight, ← one_div, ← one_eq]
  rfl

/-! ## Equivalent channels -/

theorem norms_cancel {m n : ℕ} (hm : 0 < m) (hn : 0 < n) :
    ((√(m * n) : ℝ) : ℂ) * (((√m)⁻¹ : ℝ) * ((√n)⁻¹ : ℝ)) = 1 := by
  have hm' : √(m : ℝ) ≠ 0 := (Real.sqrt_pos.mpr (Nat.cast_pos.mpr hm)).ne'
  have hn' : √(n : ℝ) ≠ 0 := (Real.sqrt_pos.mpr (Nat.cast_pos.mpr hn)).ne'
  rw [← Complex.ofReal_mul, ← Complex.ofReal_mul, Real.sqrt_mul (Nat.cast_nonneg m),
    ← Complex.ofReal_one]
  congr 1
  field_simp

/-- What the turned elements add up to is, but for the norms, what the beams make of the matrix. -/
theorem sum_beamWeight (h : Matrix ℝ) {r t : ℕ} (hr : r < rx.count) (ht : t < tx.count) :
    ∑ u ∈ Finset.range rx.count, (∑ i ∈ Finset.range tx.count,
      coord (h[u]?.getD []) i * elementSpin tx t i) * elementSpin rx r u =
      (√(rx.count * tx.count) : ℝ) * ∑ u ∈ Finset.range rx.count, ∑ i ∈ Finset.range tx.count,
        beamWeight rx r u * coord (h[u]?.getD []) i * beamWeight tx t i := by
  rw [Finset.mul_sum]
  refine Finset.sum_congr rfl fun u _ => ?_
  rw [Finset.mul_sum, Finset.sum_mul]
  refine Finset.sum_congr rfl fun i _ => ?_
  rw [beamWeight, beamWeight]
  linear_combination (-(coord (h[u]?.getD []) i * elementSpin tx t i * elementSpin rx r u)) *
    norms_cancel (Nat.zero_lt_of_lt hr) (Nat.zero_lt_of_lt ht)

theorem sum_elementSpin (hrx : rx.HasSides) (htx : tx.HasSides) (h : Matrix ℝ) {r t : ℕ}
    (hr : r < rx.count) (ht : t < tx.count) :
    ∑ u ∈ Finset.range rx.count, (∑ i ∈ Finset.range tx.count,
      coord (h[u]?.getD []) i * elementSpin tx t i) * elementSpin rx r u =
      (√(rx.count * tx.count) : ℝ) * dotProduct (toVector rx.count (weights rx r))
        ((toMatrix rx.count tx.count h).mulVec (toVector tx.count (weights tx t))) := by
  rw [sum_beamWeight h hr ht, dotProduct, Finset.sum_range]
  congr 1
  refine Finset.sum_congr rfl fun u _ => ?_
  rw [Matrix.mulVec, dotProduct, Finset.mul_sum, Finset.sum_range]
  refine Finset.sum_congr rfl fun i _ => ?_
  rw [toVector_apply, toVector_apply, toMatrix_apply,
    coord_weights hrx.indexable (wordCount_eq hrx) hr u.isLt,
    coord_weights htx.indexable (wordCount_eq htx) ht i.isLt, mul_assoc]

/-- Two panels whose elements, and the entries of whose flat matrix, a machine word can count. -/
structure Counted (rx tx : PanelSize) : Prop where
  receiver : rx.wordCount = rx.count
  transmitter : tx.wordCount = tx.count
  fits : tx.count * rx.count < UInt64.size

/-- Two panels whose flat matrix a machine can hold. -/
structure Addressable (rx tx : PanelSize) : Prop where
  receiver : rx.HasSides
  transmitter : tx.HasSides
  fits : tx.count * rx.count < UInt64.size

theorem Addressable.counted (h : Addressable rx tx) : Counted rx tx :=
  ⟨wordCount_eq h.receiver, wordCount_eq h.transmitter, h.fits⟩

/-- An equivalent channel has a row for each receiving beam and a column for each transmitting one. -/
theorem shape_equivalent {R : Type} [Scalar R] {h e : Matrix R}
    (hrows : ∀ row ∈ h, row.length = tx.wordCount) (he : equivalent h rx tx = .ok e) :
    e.length = rx.wordCount ∧ ∀ row ∈ e, row.length = tx.wordCount := by
  unfold equivalent at he
  dsimp only at he
  split at he
  · cases he
  rename_i hdimensions
  rw [not_or, not_not, not_not] at hdimensions
  obtain ⟨columnwise, hfirst, he⟩ := except_bind_ok.mp he
  obtain ⟨transmitting, hsecond, he⟩ := except_bind_ok.mp he
  obtain ⟨receiving, hthird, he⟩ := except_bind_ok.mp he
  obtain ⟨out, hfourth, he⟩ := except_bind_ok.mp he
  split at he
  · cases he
  rename_i hcount
  obtain rfl := Except.ok.inj he
  refine shape_rowsOf (Nat.pos_of_ne_zero hcount) ?_
  rw [length_transformAlong hfourth, length_transformAlong hthird, length_transformAlong hsecond,
    length_transformAlong hfirst, length_flatten hrows, hdimensions.1]

/-- The entry of an equivalent channel for two beams is the sum over all pairs of elements, each turned
as in the beams. -/
theorem equivalent_sum (hsize : Counted rx tx) {h e : Matrix ℝ}
    (hrows : ∀ row ∈ h, row.length = tx.count) (he : equivalent h rx tx = .ok e) :
    e.length = rx.count ∧ (∀ row ∈ e, row.length = tx.count) ∧
      ∀ r < rx.count, ∀ t < tx.count, coord (e[r]?.getD []) t =
        ∑ u ∈ Finset.range rx.count, (∑ i ∈ Finset.range tx.count,
          coord (h[u]?.getD []) i * elementSpin tx t i) * elementSpin rx r u := by
  obtain ⟨hrx, htx, hfits⟩ := hsize
  unfold equivalent at he
  dsimp only at he
  rw [hrx, htx] at he
  split at he
  · cases he
  rename_i hdimensions
  rw [not_or, not_not, not_not] at hdimensions
  obtain ⟨hlength, hcolumns⟩ := hdimensions
  obtain ⟨columnwise, hfirst, he⟩ := except_bind_ok.mp he
  obtain ⟨transmitting, hsecond, he⟩ := except_bind_ok.mp he
  obtain ⟨receiving, hthird, he⟩ := except_bind_ok.mp he
  obtain ⟨out, hfourth, he⟩ := except_bind_ok.mp he
  split at he
  · cases he
  rename_i htxcount
  obtain rfl := Except.ok.inj he
  have htxpos : 0 < tx.count := Nat.pos_of_ne_zero htxcount
  have hrxpos : 0 < rx.count := by
    rw [← hlength]
    refine List.length_pos_of_ne_nil fun hnil => htxcount ?_
    rw [← hcolumns, hnil]
    rfl
  have hstride : indexProduct tx.count rx.columns = tx.count * rx.columns := by
    refine Nat.mod_eq_of_lt (lt_of_le_of_lt (Nat.mul_le_mul_left _ ?_) hfits)
    exact Nat.le_mul_of_pos_right _ (Nat.pos_of_mul_pos_left hrxpos)
  have hflat : h.flatten.length = tx.count * rx.count := by rw [length_flatten hrows, hlength]
  obtain ⟨hlength₁, htx₁⟩ := transformPanel_ok htxpos hfirst (by rwa [Nat.one_mul])
  obtain ⟨hlength₂, hrx₁⟩ := transformPanel_ok hrxpos hthird (by rwa [← hstride])
  rw [hflat] at hlength₁ htx₁
  rw [hlength₁] at hlength₂ hrx₁
  obtain ⟨hcount, hwidth, hentry⟩ := rowsOf_ok htxpos hlength₂
  refine ⟨hcount, hwidth, fun r hr t ht => ?_⟩
  have hbeam : ∀ u < rx.count, coord transmitting (t + tx.count * u) =
      ∑ i ∈ Finset.range tx.count, coord (h[u]?.getD []) i * elementSpin tx t i := by
    intro u hu
    have hsum := htx₁ 0 one_pos t ht u (by rw [Nat.one_mul]; exact Nat.mul_le_mul_left _ hu)
    simp only [Nat.zero_add, Nat.one_mul] at hsum
    rw [hsum]
    refine Finset.sum_congr rfl fun i hi => ?_
    rw [coord_flatten hrows u (Finset.mem_range.mp hi)]
  have hpair := hrx₁ t ht r hr 0 (by rw [Nat.mul_one])
  simp only [Nat.mul_zero, Nat.add_zero] at hpair
  rw [hentry r hr t ht, hpair]
  exact Finset.sum_congr rfl fun u hu => by rw [hbeam u (Finset.mem_range.mp hu)]

/-- The entry of an equivalent channel for two beams is what the channel between elements gives for
them, but for a factor that makes up for the norms of the beams. -/
theorem equivalent_ok (hsize : Addressable rx tx) {h e : Matrix ℝ}
    (hrows : ∀ row ∈ h, row.length = tx.count) (he : equivalent h rx tx = .ok e) :
    e.length = rx.count ∧ (∀ row ∈ e, row.length = tx.count) ∧
      ∀ r < rx.count, ∀ t < tx.count, coord (e[r]?.getD []) t =
        (√(rx.count * tx.count) : ℝ) * dotProduct (toVector rx.count (weights rx r))
          ((toMatrix rx.count tx.count h).mulVec (toVector tx.count (weights tx t))) := by
  obtain ⟨hheight, hwidth, hentry⟩ := equivalent_sum hsize.counted hrows he
  refine ⟨hheight, hwidth, fun r hr t ht => ?_⟩
  rw [hentry r hr t ht, sum_elementSpin hsize.receiver hsize.transmitter h hr ht]

/-- A channel between the elements of two panels with elements has an equivalent. -/
theorem equivalent_answers {R : Type} [Scalar R] (hsize : Counted rx tx) (hrx : 0 < rx.count)
    (htx : 0 < tx.count) {h : Matrix R} (hlength : h.length = rx.count)
    (hrows : ∀ row ∈ h, row.length = tx.count) : ∃ e, equivalent h rx tx = .ok e := by
  have hcolumns : h.columns = tx.count := by
    obtain ⟨row, rows, rfl⟩ := List.exists_cons_of_length_pos (hlength ▸ hrx)
    exact hrows row List.mem_cons_self
  have hflat : h.flatten.length = tx.count * rx.count := by rw [length_flatten hrows, hlength]
  have hstride : indexProduct tx.count rx.columns = tx.count * rx.columns := by
    refine Nat.mod_eq_of_lt (lt_of_le_of_lt (Nat.mul_le_mul_left _ ?_) hsize.fits)
    exact Nat.le_mul_of_pos_right _ (Nat.pos_of_mul_pos_left hrx)
  have hfirst : 1 * tx.columns ∣ h.flatten.length := by
    rw [hflat, Nat.one_mul, PanelSize.count, Nat.mul_assoc]
    exact Nat.dvd_mul_right _ _
  obtain ⟨columnwise, hcolumnwise⟩ := transformAlong_exists hfirst
  have hsecond : tx.columns * tx.rows ∣ columnwise.length := by
    rw [length_transformAlong hcolumnwise, hflat]
    exact Nat.dvd_mul_right _ _
  obtain ⟨transmitting, htransmitting⟩ := transformAlong_exists hsecond
  have hthird : tx.count * rx.columns ∣ transmitting.length := by
    rw [length_transformAlong htransmitting, length_transformAlong hcolumnwise, hflat]
    exact Nat.mul_dvd_mul_left _ (Nat.dvd_mul_right _ _)
  obtain ⟨receiving, hreceiving⟩ := transformAlong_exists hthird
  have hfourth : tx.count * rx.columns * rx.rows ∣ receiving.length := by
    rw [length_transformAlong hreceiving, length_transformAlong htransmitting,
      length_transformAlong hcolumnwise, hflat, Nat.mul_assoc]
    exact dvd_refl _
  obtain ⟨out, hout⟩ := transformAlong_exists hfourth
  refine ⟨rowsOf tx.count out, ?_⟩
  unfold equivalent
  dsimp only
  rw [hsize.receiver, hsize.transmitter, hstride,
    if_neg (by rw [not_or, not_not, not_not]; exact ⟨hlength, hcolumns⟩)]
  exact except_bind_ok.mpr ⟨columnwise, hcolumnwise, except_bind_ok.mpr ⟨transmitting, htransmitting,
    except_bind_ok.mpr ⟨receiving, hreceiving, except_bind_ok.mpr ⟨out, hout, if_neg htx.ne'⟩⟩⟩⟩

theorem equivalent_exists {R : Type} [Scalar R] (hsize : Addressable rx tx) (hrx : 0 < rx.count)
    (htx : 0 < tx.count) {h : Matrix R} (hlength : h.length = rx.count)
    (hrows : ∀ row ∈ h, row.length = tx.count) : ∃ e, equivalent h rx tx = .ok e :=
  equivalent_answers hsize.counted hrx htx hlength hrows

/-- A machine word that counts the entries of a flat matrix counts the elements of both panels. -/
theorem counted_of_fits (hrx : 0 < rx.count) (htx : 0 < tx.count)
    (hfits : rx.count * tx.count < UInt64.size) : Counted rx tx where
  receiver := Nat.mod_eq_of_lt ((Nat.le_mul_of_pos_right _ htx).trans_lt hfits)
  transmitter := Nat.mod_eq_of_lt ((Nat.le_mul_of_pos_left _ hrx).trans_lt hfits)
  fits := by rwa [Nat.mul_comm]

/-- The weights of a beam as the panel computes them, from products of places in machine words. -/
theorem beam_ok_of_indexable (hsize : size.Indexable) (hcount : size.wordCount = size.count) {k : ℕ}
    (hk : k < size.count) : ∃ w, (beam size k : Except (Fault ℝ) _) = .ok w ∧ w.length = size.count ∧
      ∀ i < size.count, coord w i = beamWeight size k i := by
  have hcolumns : size.columns ≠ 0 := (Nat.pos_of_mul_pos_right (Nat.zero_lt_of_lt hk)).ne'
  refine ⟨weights size k, if_neg hcolumns, (length_weights size k).trans hcount, fun i hi => ?_⟩
  exact coord_weights hsize hcount hk hi

/-- The transform along the four axes of two panels answers the channel between all pairs of their beams,
for panels of any sizes and any channel between their elements that fits into a machine. The entry for
two beams is what the channel makes of their weights, but for the norms. These weights are those that the
panels compute, as long as products of places stay in a machine word. -/
theorem equivalent_projects (hrx : 0 < rx.columns ∧ 0 < rx.rows) (htx : 0 < tx.columns ∧ 0 < tx.rows)
    (hfits : rx.count * tx.count < UInt64.size) {h : Matrix ℝ}
    (hsize : Matrix.HasSize rx.count tx.count h) :
    (∃ g, equivalent h rx tx = .ok g ∧ Matrix.HasSize rx.count tx.count g ∧
      ∀ r < rx.count, ∀ t < tx.count, coord (g[r]?.getD []) t =
        (√(rx.count * tx.count) : ℝ) * ∑ u ∈ Finset.range rx.count, ∑ s ∈ Finset.range tx.count,
          beamWeight rx r u * coord (h[u]?.getD []) s * beamWeight tx t s) ∧
    ∀ size, size = rx ∨ size = tx → size.Indexable → ∀ k < size.count,
      ∃ w, (beam size k : Except (Fault ℝ) _) = .ok w ∧ w.length = size.count ∧
        ∀ i < size.count, coord w i = beamWeight size k i := by
  have hrxcount : 0 < rx.count := Nat.mul_pos hrx.1 hrx.2
  have htxcount : 0 < tx.count := Nat.mul_pos htx.1 htx.2
  have hcounted := counted_of_fits hrxcount htxcount hfits
  constructor
  · obtain ⟨g, hg⟩ := equivalent_answers hcounted hrxcount htxcount hsize.height hsize.width
    obtain ⟨hheight, hwidth, hentry⟩ := equivalent_sum hcounted hsize.width hg
    refine ⟨g, hg, ⟨hheight, hwidth⟩, fun r hr t ht => ?_⟩
    rw [hentry r hr t ht, sum_beamWeight h hr ht]
  · rintro size (rfl | rfl) hindexable k hk
    · exact beam_ok_of_indexable hindexable hcounted.receiver hk
    · exact beam_ok_of_indexable hindexable hcounted.transmitter hk

/-- A channel between two elements above each other and a panel of three columns and two rows. -/
noncomputable def oblong : Matrix ℝ :=
  (List.range 2).map fun u => (List.range 6).map fun s => ⟨u + 1, s⟩

/-- The channel between the beams of these two panels, with the weights that the panels compute. -/
theorem equivalent_projects_oblong : Matrix.HasSize 2 6 oblong ∧
    ∃ g, equivalent oblong ⟨1, 2⟩ ⟨3, 2⟩ = .ok g ∧ ∀ r < 2, ∀ t < 6, ∃ b a,
      beam ⟨1, 2⟩ r = .ok b ∧ beam ⟨3, 2⟩ t = .ok a ∧ coord (g[r]?.getD []) t =
        (√((2 : ℕ) * (6 : ℕ)) : ℝ) * ∑ u ∈ Finset.range 2, ∑ s ∈ Finset.range 6,
          coord b u * coord (oblong[u]?.getD []) s * coord a s := by
  have hsize : Matrix.HasSize 2 6 oblong := ⟨by simp [oblong], by simp [oblong]⟩
  have hrx : 0 < (⟨1, 2⟩ : PanelSize).columns ∧ 0 < (⟨1, 2⟩ : PanelSize).rows := by decide
  have htx : 0 < (⟨3, 2⟩ : PanelSize).columns ∧ 0 < (⟨3, 2⟩ : PanelSize).rows := by decide
  obtain ⟨⟨g, hg, -, hentry⟩, hbeam⟩ := equivalent_projects hrx htx (by decide) hsize
  refine ⟨hsize, g, hg, fun r hr t ht => ?_⟩
  obtain ⟨b, hb, -, hbweights⟩ := hbeam ⟨1, 2⟩ (Or.inl rfl) ⟨by decide, by decide⟩ r hr
  obtain ⟨a, ha, -, haweights⟩ := hbeam ⟨3, 2⟩ (Or.inr rfl) ⟨by decide, by decide⟩ t ht
  refine ⟨b, a, hb, ha, (hentry r hr t ht).trans ?_⟩
  congr 1
  refine Finset.sum_congr rfl fun u hu => Finset.sum_congr rfl fun s hs => ?_
  rw [hbweights u (Finset.mem_range.mp hu), haweights s (Finset.mem_range.mp hs)]

end Codebook

/-- The codebook beams of a panel have a weight for each element. -/
theorem Panel.size_weights {R : Type} [Scalar R] {panel : Panel R} (hsides : panel.size.HasSides) (k : ℕ)
    (id : BeamId) :
    Beam.size ⟨(Codebook.weights panel.size k : List (Phasor R)), id⟩ = panel.elementCount :=
  (Codebook.length_weights panel.size k).trans (Codebook.wordCount_eq hsides)

end RadioChannel
