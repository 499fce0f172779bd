import RadioChannel.Proofs.FlatGains
import RadioChannel.Proofs.Reciprocity
import RadioChannel.Proofs.Searches
import RadioChannel.Proofs.StrongestBeams

/-!
# Both ends agree on their beams

A search from the other end of a link works on the transposed flat matrix. The transform along the
axes of the two panels turns it into the transposed equivalent channel, in which the strongest pair of
beams is the same one with its ends exchanged, unless several pairs are equally strong.
-/

namespace RadioChannel

open ExactScalars

theorem ExactScalars.lt_irrefl (x : ℝ) : Scalar.lt x x = false := decide_eq_false (not_lt.mpr le_rfl)

theorem ExactScalars.lt_trans (x y z : ℝ) (hxy : Scalar.lt x y = true) (hyz : Scalar.lt y z = true) :
    Scalar.lt x z = true := lt_iff.mpr ((lt_iff.mp hxy).trans (lt_iff.mp hyz))

/-! ## Transposed matrices -/

theorem ext_coord {xs ys : List (Phasor ℝ)} (hlength : xs.length = ys.length)
    (h : ∀ k < xs.length, coord xs k = coord ys k) : xs = ys := by
  refine List.ext_getElem hlength fun k hk hk' => Phasor.toComplex_injective ?_
  have hcoord := h k hk
  rwa [coord, coord, List.getElem?_eq_getElem hk, List.getElem?_eq_getElem hk', Option.getD_some,
    Option.getD_some] at hcoord

namespace Matrix

variable {R : Type} [Scalar R]

@[simp] theorem length_transposed (n : ℕ) (m : Matrix R) : (m.transposed n).length = n := by
  rw [transposed, List.length_map, List.length_range]

theorem length_of_mem_transposed {n : ℕ} {m : Matrix R} {row : List (Phasor R)}
    (h : row ∈ m.transposed n) : row.length = List.length m := by
  obtain ⟨j, -, rfl⟩ := List.mem_map.mp h
  exact List.length_map _

theorem coord_transposed (m : Matrix ℝ) {n t : ℕ} (ht : t < n) (r : ℕ) :
    coord ((m.transposed n)[t]?.getD []) r = coord (m[r]?.getD []) t := by
  rw [transposed, List.getElem?_map, List.getElem?_range ht, Option.map_some, Option.getD_some, coord,
    List.getElem?_map]
  cases m[r]? <;> simp [coord]

theorem ext_coord {rows columns : ℕ} {m m' : Matrix ℝ} (hlength : List.length m = rows)
    (hlength' : List.length m' = rows) (hrows : ∀ row ∈ m, row.length = columns)
    (hrows' : ∀ row ∈ m', row.length = columns)
    (h : ∀ i < rows, ∀ j < columns, coord (m[i]?.getD []) j = coord (m'[i]?.getD []) j) : m = m' := by
  refine List.ext_getElem (hlength.trans hlength'.symm) fun i hi hi' => ?_
  have hrow := hrows _ (List.getElem_mem hi)
  refine RadioChannel.ext_coord (hrow.trans (hrows' _ (List.getElem_mem hi')).symm) fun j hj => ?_
  have hentry := h i (hlength ▸ hi) j (hrow ▸ hj)
  rwa [List.getElem?_eq_getElem hi, List.getElem?_eq_getElem hi'] at hentry

theorem toMatrix_transposed (m n : ℕ) (h : Matrix ℝ) :
    toMatrix n m (h.transposed n) = (toMatrix m n h).transpose := by
  ext t r
  rw [toMatrix_apply, coord_transposed h t.isLt, Matrix.transpose_apply, toMatrix_apply]

end Matrix

namespace Codebook

theorem Addressable.symm {rx tx : PanelSize} (h : Addressable rx tx) : Addressable tx rx :=
  ⟨h.transmitter, h.receiver, Nat.mul_comm _ _ ▸ h.fits⟩

/-- The equivalent channel of the transposed channel between elements is the transposed one. -/
theorem equivalent_transposed {rx tx : PanelSize} (hsize : Addressable rx tx) {h e e' : Matrix ℝ}
    (hlength : h.length = rx.count) (hrows : ∀ row ∈ h, row.length = tx.count)
    (he : equivalent h rx tx = .ok e) (he' : equivalent (h.transposed tx.count) tx rx = .ok e') :
    e' = e.transposed tx.count := by
  obtain ⟨hcount, -, hentry⟩ := equivalent_ok hsize hrows he
  obtain ⟨hcount', hwidth', hentry'⟩ := equivalent_ok hsize.symm
    (fun row hrow => (Matrix.length_of_mem_transposed hrow).trans hlength) he'
  refine Matrix.ext_coord hcount' (Matrix.length_transposed _ _) hwidth'
    (fun row hrow => (Matrix.length_of_mem_transposed hrow).trans hcount) fun t ht r hr => ?_
  rw [hentry' t ht r hr, Matrix.coord_transposed e ht, hentry r hr t ht, Matrix.toMatrix_transposed,
    Matrix.mulVec_transpose, dotProduct_comm, ← Matrix.dotProduct_mulVec, mul_comm (rx.count : ℝ)]

section Search

variable {R : Type} [Scalar R]

theorem entry?_transposed {n : ℕ} {g : Matrix R} (hrows : ∀ row ∈ g, row.length = n) (pair : BeamPair) :
    entry? (g.transposed n) pair.swap = entry? g pair := by
  obtain ⟨t, r⟩ := pair
  change ((g.transposed n)[t]?.bind fun row => row[r]?) = g[r]?.bind fun row => row[t]?
  cases hrow : g[r]? with
  | none =>
    rw [Option.bind_none, Option.bind_eq_none_iff]
    intro column hcolumn
    rw [List.getElem?_eq_none_iff, Matrix.length_of_mem_transposed (List.mem_of_getElem? hcolumn)]
    exact List.getElem?_eq_none_iff.mp hrow
  | some row =>
    have hlength := hrows row (List.mem_of_getElem? hrow)
    rw [Option.bind_some, Matrix.transposed, List.getElem?_map]
    by_cases ht : t < n
    · rw [List.getElem?_range ht, Option.map_some, Option.bind_some, List.getElem?_map, hrow,
        Option.map_some, List.getElem?_eq_getElem (hlength ▸ ht), Option.getD_some]
    · rw [List.getElem?_eq_none (by rw [List.length_range]; omega), Option.map_none, Option.bind_none,
        List.getElem?_eq_none (by omega)]

theorem IsStrongest.transposed {n : ℕ} {g : Matrix R} (hrows : ∀ row ∈ g, row.length = n)
    {pair : BeamPair} (h : IsStrongest (g.transposed n) [] pair) : IsStrongest g [] pair.swap where
  free := List.not_mem_nil
  unbeaten := by
    obtain ⟨z, hz, hunbeaten⟩ := h.unbeaten
    refine ⟨z, by rw [← entry?_transposed hrows]; exact hz, fun other w _ hw => ?_⟩
    exact hunbeaten other.swap w List.not_mem_nil (by rw [entry?_transposed hrows]; exact hw)

end Search

theorem coord_of_entry? {g : Matrix ℝ} {pair : BeamPair} {z : Phasor ℝ} (h : entry? g pair = some z) :
    coord (g[pair.rx]?.getD []) pair.tx = z.toComplex := by
  obtain ⟨row, hrow, hentry⟩ := Option.bind_eq_some_iff.mp h
  rw [hrow, Option.getD_some, coord, hentry, Option.getD_some]

theorem exists_strongest {e : Matrix ℝ} {pair : BeamPair} {z : Phasor ℝ}
    (hz : entry? e pair = some z) : ∃ pair', strongest e [] = some pair' := by
  cases hstrongest : strongest e [] with
  | none => exact absurd (blocked_of_strongest lt_irrefl lt_trans hstrongest hz) List.not_mem_nil
  | some pair' => exact ⟨pair', rfl⟩

/-- In a transposed equivalent channel the search finds the same beams, if no others are as strong. -/
theorem strongest_transposed {n : ℕ} {e : Matrix ℝ} (hrows : ∀ row ∈ e, row.length = n)
    {pair : BeamPair} (h : strongest e [] = some pair) :
    ∃ pair', strongest (e.transposed n) [] = some pair' ∧
      ((∀ other, IsStrongest e [] other → other = pair) → pair' = pair.swap) := by
  obtain ⟨-, z, hz, -⟩ := isStrongest_of_strongest lt_irrefl lt_trans h
  rw [← entry?_transposed hrows] at hz
  obtain ⟨pair', hpair'⟩ := exists_strongest hz
  refine ⟨pair', hpair', fun hunique => ?_⟩
  rw [← hunique _ ((isStrongest_of_strongest lt_irrefl lt_trans hpair').transposed hrows)]
  rfl

end Codebook

/-! ## Searches from both ends -/

theorem Vec3.apart_exact {u v : Vec3 ℝ} : (u == v) = false ↔ u ≠ v := by
  rw [Bool.eq_false_iff, ne_eq, ne_eq, not_iff_not]
  change (u.x == v.x && u.y == v.y && u.z == v.z) = true ↔ u = v
  rw [Bool.and_eq_true, Bool.and_eq_true, beq_iff, beq_iff, beq_iff]
  constructor
  · rintro ⟨⟨hx, hy⟩, hz⟩
    cases u
    cases v
    cases hx
    cases hy
    cases hz
    rfl
  · rintro rfl
    exact ⟨⟨rfl, rfl⟩, rfl⟩

namespace BeamDesk

variable {now : Nanoseconds} {a b : Device ℝ} {s s' t : BeamDesk ℝ} {found : SelectedBeam ℝ}

/-- Both ends choose the same beams. After a device has searched for its beam toward another one, a
search of the other one at the same time goes through. It keeps the transposed equivalent channel, and,
if the strongest entry is the only one of its power, the same two beams. The cache is in order after
any calls (`Evaluator.Calls.traced`), and panels whose flat matrix was computed are addressable. -/
theorem codebookBeam_agrees (ho : s.evaluator.generator.Orderly) (hne : a.id ≠ b.id)
    (hsize : Codebook.Addressable b.array.panel.size a.array.panel.size)
    (hs : s.array.panel = a.array.panel) (ht : t.array.panel = b.array.panel)
    (hshared : t.evaluator = s'.evaluator) (hdue : s.Due now a.id b.id) (hdue' : t.Due now b.id a.id)
    (hrun : (codebookBeam now a.endpoint b).run s = (.ok found, s')) :
    ∃ search found' search' t', found.search? = some search ∧ search.generatedAt = now ∧
      (codebookBeam now b.endpoint a).run t = (.ok found', t') ∧
      t'.engine.selected? b.id a.id = some found' ∧
      found'.search? = some search' ∧ search'.generatedAt = now ∧
      search'.equivalent = Matrix.transposed a.array.elementCount search.equivalent ∧
      ((∀ pair, Codebook.IsStrongest search.equivalent [] pair → pair = search.pair) →
        search'.pair = search.pair.swap) := by
  have hown (offset : ℝ) : Evaluator.flatMatrix now ⟨a.endpoint, s.array⟩ b offset =
      Evaluator.flatMatrix now a b offset := Evaluator.flatMatrix_congr _ hs b now offset
  have hpeer (offset : ℝ) : Evaluator.flatMatrix now ⟨b.endpoint, t.array⟩ a offset =
      Evaluator.flatMatrix now b a offset := Evaluator.flatMatrix_congr _ ht a now offset
  rw [run_codebookBeam_of_due hdue, run_searchCodebook_ok, hown, hs] at hrun
  obtain ⟨h, v, e, pair, hflat, he, hpair, rfl, rfl⟩ := hrun
  obtain ⟨hlength, hrows⟩ := Evaluator.length_flatMatrix hflat
  obtain ⟨hcount, hwidth, -⟩ := Codebook.equivalent_ok hsize hrows he
  -- the flat matrix from the other end
  obtain ⟨l, hchannel, -⟩ := Evaluator.run_flatMatrix_ok.mp hflat
  have hpos := Vec3.apart_exact.mpr
    (Vec3.apart_exact.mp (Evaluator.apart_of_channel hchannel)).symm
  have hback := Evaluator.flatMatrix_flip ho hne hpos hflat
  change t.evaluator = v at hshared
  rw [← hpeer, ← hshared] at hback
  -- its equivalent channel
  obtain ⟨-, z, hz, -⟩ := Codebook.isStrongest_of_strongest lt_irrefl lt_trans hpair
  obtain ⟨hrx, htx⟩ := Codebook.entry?_lt hwidth hz
  obtain ⟨e', he'⟩ := Codebook.equivalent_exists hsize.symm (Nat.zero_lt_of_lt htx)
    (Nat.zero_lt_of_lt (hcount ▸ hrx)) (Matrix.length_transposed _ h)
    fun row hrow => (Matrix.length_of_mem_transposed hrow).trans hlength
  have htransposed := Codebook.equivalent_transposed hsize hlength hrows he he'
  -- its strongest pair
  obtain ⟨pair', hpair', hswap⟩ := Codebook.strongest_transposed hwidth hpair
  rw [← htransposed] at hpair'
  rw [← ht] at he'
  have hfound := run_searchCodebook_ok.mpr ⟨_, _, e', pair', hback, he', hpair', rfl, rfl⟩
  rw [← run_codebookBeam_of_due hdue'] at hfound
  refine ⟨_, _, ⟨now, pair', e'⟩, _, rfl, rfl, hfound, ?_, rfl, rfl, htransposed, hswap⟩
  exact (selected_keep _ _ _ _ _).trans (if_pos rfl)

end BeamDesk

/-! ## Two antennas and one -/

namespace Codebook

theorem elementSpin_second : elementSpin ⟨2, 1⟩ 1 1 = -1 := by
  have hspin : Fourier.spin 2 1 = -1 := by
    rw [← Fourier.spin_mul_left (by decide : 2 ≠ 0)]
    change Fourier.spin 4 (1 + 1) = -1
    rw [Fourier.spin_add, Fourier.spin_quarter, Complex.I_mul_I]
  change Fourier.spin 2 1 * Fourier.spin 1 0 = -1
  rw [hspin, Fourier.spin_zero, mul_one]

theorem addressable_single : Addressable ⟨1, 1⟩ ⟨2, 1⟩ := ⟨⟨1, 1, rfl⟩, ⟨2, 1, rfl⟩, by decide⟩

/-- What two antennas with opposite phases give to their two beams. -/
theorem equivalent_opposed {h e : Matrix ℝ} {τ : ℂ} (hrows : ∀ row ∈ h, row.length = 2)
    (hfirst : coord (h[0]?.getD []) 0 = τ) (hsecond : coord (h[0]?.getD []) 1 = -τ)
    (he : equivalent h ⟨1, 1⟩ ⟨2, 1⟩ = .ok e) :
    coord (e[0]?.getD []) 0 = 0 ∧ coord (e[0]?.getD []) 1 = 2 * τ := by
  obtain ⟨-, -, hentry⟩ := equivalent_ok addressable_single hrows he
  have hgain (t : ℕ) (ht : t < 2) :
      coord (e[0]?.getD []) t = τ - τ * elementSpin ⟨2, 1⟩ t 1 := by
    rw [hentry 0 one_pos t ht, ← sum_elementSpin addressable_single.receiver
      addressable_single.transmitter h one_pos ht]
    change ∑ u ∈ Finset.range 1, (∑ i ∈ Finset.range 2, coord (h[u]?.getD []) i *
      elementSpin ⟨2, 1⟩ t i) * elementSpin ⟨1, 1⟩ 0 u = _
    rw [Finset.sum_range_one, Finset.sum_range_succ, Finset.sum_range_one, hfirst, hsecond,
      elementSpin_zero, elementSpin_zero]
    ring
  rw [hgain 0 two_pos, hgain 1 one_lt_two, elementSpin_second, elementSpin_first]
  exact ⟨by ring, by ring⟩

/-- Of two entries in a row of which only the second is not zero, that one is the strongest. -/
theorem IsStrongest.eq_second {e : Matrix ℝ} (hlength : List.length e = 1)
    (hrows : ∀ row ∈ e, row.length = 2) (hfirst : coord (e[0]?.getD []) 0 = 0)
    (hsecond : coord (e[0]?.getD []) 1 ≠ 0) {pair : BeamPair} (h : IsStrongest e [] pair) :
    pair = ⟨1, 0⟩ := by
  obtain ⟨-, z, hz, hunbeaten⟩ := h
  obtain ⟨hrx, htx⟩ := entry?_lt hrows hz
  have hzero := coord_of_entry? hz
  obtain ⟨t, r⟩ := pair
  rw [hlength] at hrx
  obtain rfl : r = 0 := Nat.lt_one_iff.mp hrx
  have ht : t = 0 ∨ t = 1 := by
    change t < 2 at htx
    omega
  rcases ht with rfl | rfl
  · have hrow : 0 < List.length e := hlength.symm ▸ one_pos
    obtain ⟨w, hw⟩ := exists_entry? hrows hrow one_lt_two
    have hpower := coord_of_entry? hw
    have hbeaten := hunbeaten ⟨1, 0⟩ w List.not_mem_nil hw
    rw [Phasor.normSq_eq, Phasor.normSq_eq, ← hzero, ← hpower, hfirst, map_zero] at hbeaten
    have hstronger : Scalar.lt 0 (Complex.normSq (coord (e[0]?.getD []) 1)) = true :=
      lt_iff.mpr (Complex.normSq_pos.mpr hsecond)
    rw [hbeaten] at hstronger
    cases hstronger
  · rfl

end Codebook

section Hover

open BeamDesk

/-- A drone that hovers, with two antennas. -/
noncomputable def hovering : Device ℝ := .resting 1 drone.endpoint.position 2

/-- A rover that is parked, with one antenna. -/
noncomputable def parked : Device ℝ := .resting 2 rover.endpoint.position 1

/-- A direct path that the two antennas see with opposite phases. -/
noncomputable def opposedPath : Realization ℝ where
  serial := 0
  tensor := [[[.ofReal 1], [.ofReal (-1)]]]
  delays := [0]
  directions := [⟨0, 0, 0, 0⟩]
  condition := .lineOfSight
  generatedAt := 0
  delaySpread := 0
  riceanDb := 0
  powers := [1]
  phases := [[0]]
  directPhase := 0
  blockers := []
  terminal := .zero

/-- The drone's desk before it has searched for any beam. -/
noncomputable def hoverDesk : BeamDesk ℝ where
  engine := {
    strategy := .spectralMmse
    refresh := 0
    noisePower := 1
    referencePower := 0
    grid := ⟨[2000000000], by simp⟩
    cache := ∅ }
  array := hovering.array
  evaluator := .ofGenerator
    ((Generator.fresh .ruralMacro 28000000000 0 1).store (.ofSeed 1) hovering.id parked.id opposedPath)
    (.fixed .lineOfSight)

theorem settled_hoverDesk :
    hoverDesk.evaluator.Settled 0 hovering.id parked.id ⟨opposedPath, false⟩ where
  held := Generator.peek_store_self _ _ (by decide) _
  serves := Generator.serves_iff.mpr ⟨rfl, Or.inl rfl⟩

theorem toComplex_polar_ne_zero (t : ℝ) :
    (Phasor.polar (@OfNat.ofNat ℝ 1 (Scalar.instOfNat 1)) t).toComplex ≠ 0 := by
  rw [Phasor.toComplex_polar, one_eq, Complex.ofReal_one, one_mul]
  exact Complex.exp_ne_zero _

theorem flatMatrix_hoverDesk (offset : ℝ) : ∃ h τ,
    (Evaluator.flatMatrix 0 hovering parked offset).run hoverDesk.evaluator =
      (.ok h, hoverDesk.evaluator) ∧ τ ≠ 0 ∧
    coord (h[0]?.getD []) 0 = τ ∧ coord (h[0]?.getD []) 1 = -τ := by
  have hchannel : (Evaluator.channel 0 hovering parked).run hoverDesk.evaluator =
      (.ok ⟨opposedPath, false⟩, hoverDesk.evaluator) :=
    Evaluator.Settled.channel settled_hoverDesk Evaluator.apart_field.1 rfl rfl
  let l : Link ℝ := ⟨opposedPath, false⟩
  let doppler := hoverDesk.evaluator.doppler 0 l hovering parked
  let frequency := hoverDesk.evaluator.generator.frequency + offset
  have hentry : ∀ t < 2, coord ((l.flatMatrix doppler frequency 1 2)[0]?.getD []) t =
      coord (l.response 0 t) 0 * l.turning doppler frequency 0 := by
    intro t ht
    rw [l.flatMatrix_entry doppler frequency one_pos ht]
    exact Finset.sum_range_one _
  refine ⟨_, l.turning doppler frequency 0,
    Evaluator.run_flatMatrix_ok.mpr ⟨l, hchannel, ⟨rfl, rfl⟩, rfl⟩, ?_, ?_, ?_⟩
  · exact mul_ne_zero (toComplex_polar_ne_zero _) (toComplex_polar_ne_zero _)
  · refine (hentry 0 (by decide)).trans ?_
    change (Phasor.ofReal 1).toComplex * _ = _
    rw [Phasor.toComplex_ofReal, Complex.ofReal_one, one_mul]
  · refine (hentry 1 (by decide)).trans ?_
    change (Phasor.ofReal (-1)).toComplex * _ = _
    rw [Phasor.toComplex_ofReal, Complex.ofReal_neg, Complex.ofReal_one, neg_one_mul]

theorem due_hoverDesk : hoverDesk.Due 0 hovering.id parked.id := by
  intro b hb
  simp [BeamEngine.selected?, hoverDesk] at hb

/-- Only one of the drone's two codebook beams reaches the rover. -/
theorem codebookBeam_hoverDesk : ∃ found search s',
    (codebookBeam 0 hovering.endpoint parked).run hoverDesk = (.ok found, s') ∧
      found.search? = some search ∧ search.pair = ⟨1, 0⟩ ∧
      ∀ pair, Codebook.IsStrongest search.equivalent [] pair → pair = ⟨1, 0⟩ := by
  obtain ⟨h, τ, hflat, hτ, hfirst, hsecond⟩ :=
    flatMatrix_hoverDesk (@OfNat.ofNat ℝ 0 (Scalar.instOfNat 0))
  obtain ⟨hlength, hrows⟩ := Evaluator.length_flatMatrix hflat
  obtain ⟨e, he⟩ := Codebook.equivalent_exists Codebook.addressable_single one_pos two_pos hlength hrows
  obtain ⟨hcount, hwidth, -⟩ := Codebook.equivalent_ok Codebook.addressable_single hrows he
  obtain ⟨hzero, hgain⟩ := Codebook.equivalent_opposed hrows hfirst hsecond he
  have honly (pair : Codebook.BeamPair) (hpair : Codebook.IsStrongest e [] pair) : pair = ⟨1, 0⟩ :=
    hpair.eq_second hcount hwidth hzero (hgain ▸ mul_ne_zero two_ne_zero hτ)
  obtain ⟨z, hz⟩ := Codebook.exists_entry? hwidth (by rw [hcount]; exact one_pos) two_pos
  obtain ⟨pair, hpair⟩ := Codebook.exists_strongest hz
  have hrun : (searchCodebook 0 hovering.endpoint parked).run hoverDesk = _ :=
    run_searchCodebook_ok.mpr ⟨h, _, e, pair, hflat, he, hpair, rfl, rfl⟩
  rw [← run_codebookBeam_of_due due_hoverDesk] at hrun
  exact ⟨_, ⟨0, pair, e⟩, _, hrun, rfl,
    honly pair (Codebook.isStrongest_of_strongest lt_irrefl lt_trans hpair), honly⟩

/-- The drone searches for its beam to the rover, and then the rover for its beam to the drone. -/
theorem codebookBeam_agrees_hovering : ∃ found search s',
    hoverDesk.evaluator.generator.Orderly ∧ hovering.id ≠ parked.id ∧
      Codebook.Addressable parked.array.panel.size hovering.array.panel.size ∧
      hoverDesk.Due 0 hovering.id parked.id ∧
      (codebookBeam 0 hovering.endpoint parked).run hoverDesk = (.ok found, s') ∧
      found.search? = some search ∧ search.pair = ⟨1, 0⟩ ∧
      let roverDesk : BeamDesk ℝ := { hoverDesk with array := parked.array, evaluator := s'.evaluator }
      roverDesk.Due 0 parked.id hovering.id ∧ ∃ found' search' t',
        (codebookBeam 0 parked.endpoint hovering).run roverDesk = (.ok found', t') ∧
        found'.search? = some search' ∧ search'.pair = ⟨0, 1⟩ ∧
        search'.equivalent = Matrix.transposed 2 search.equivalent := by
  have ho : hoverDesk.evaluator.generator.Orderly := (Generator.Orderly.of_empty rfl).store rfl
  obtain ⟨found, search, s', hrun, hsearch, hpair, honly⟩ := codebookBeam_hoverDesk
  let roverDesk : BeamDesk ℝ := { hoverDesk with array := parked.array, evaluator := s'.evaluator }
  have hdue : roverDesk.Due 0 parked.id hovering.id := by
    intro b hb
    simp [BeamEngine.selected?, roverDesk, hoverDesk] at hb
  have hshared : roverDesk.evaluator = s'.evaluator := rfl
  obtain ⟨search₀, found', search', t', hsearch₀, -, hrun', -, hsearch', -, hequivalent, hswap⟩ :=
    codebookBeam_agrees ho (by decide : hovering.id ≠ parked.id) Codebook.addressable_single rfl rfl
      hshared due_hoverDesk hdue hrun
  obtain rfl := Option.some.inj (hsearch.symm.trans hsearch₀)
  rw [hpair] at hswap
  exact ⟨found, search, s', ho, by decide, Codebook.addressable_single, due_hoverDesk, hrun, hsearch,
    hpair, hdue, found', search', t', hrun', hsearch', hswap honly, hequivalent⟩

end Hover

end RadioChannel
