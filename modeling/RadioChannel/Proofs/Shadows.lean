import RadioChannel.Proofs.KeptTaps
import RadioChannel.Proofs.Screens

/-!
# Blockage takes power away

A screen takes a share of the field at each of its edges, and the share grows with the angle between the
ray and the edge. Beyond an edge that share counts as negative, but then the ray is farther from the
other edge. So over the width of a screen, and over its height, the shares add up to less than the whole
field and not below zero, as long as no edge is seen under a right angle or more. The sizes that
blockers are drawn with are small enough.
-/

namespace RadioChannel

open ExactScalars

namespace Blocker

/-! ## Edges -/

variable {distance wavelength : ℝ}

theorem edgeShare_eq (distance wavelength sign angle : ℝ) :
    edgeShare distance wavelength sign angle = Real.arctan (sign * Real.pi / 2 *
      √(Real.pi / wavelength * distance * (1 / Real.cos (Scalar.radians angle) - 1))) / Real.pi := by
  rw [edgeShare, one_eq, numeral_eq]
  rfl

theorem edgeShare_neg (distance wavelength sign angle : ℝ) :
    edgeShare distance wavelength (-sign) angle = -edgeShare distance wavelength sign angle := by
  rw [edgeShare_eq, edgeShare_eq, neg_mul, neg_div, neg_mul, Real.arctan_neg, neg_div]

/-- An edge takes less than half of the field away. -/
theorem edgeShare_mem (distance wavelength angle : ℝ) :
    edgeShare distance wavelength 1 angle ∈ Set.Ico 0 (1 / 2) := by
  rw [edgeShare_eq]
  refine ⟨div_nonneg (Real.arctan_nonneg.mpr (by positivity)) Real.pi_pos.le, ?_⟩
  rw [div_lt_iff₀ Real.pi_pos, one_div_mul_eq_div]
  exact Real.arctan_lt_pi_div_two _

/-- Up to a right angle the cosine falls and stays positive. -/
theorem cos_radians_anti {a a' : ℝ} (hle : |a| ≤ |a'|) (hlt : |a'| < 90) :
    0 < Real.cos (Scalar.radians a') ∧
      Real.cos (Scalar.radians a') ≤ Real.cos (Scalar.radians a) := by
  have hpi := Real.pi_pos
  have habs : ∀ x : ℝ, Real.cos (Scalar.radians x) = Real.cos (|x| * (Real.pi / 180)) := by
    intro x
    have hradians : (Scalar.radians x : ℝ) = x * (Real.pi / 180) := rfl
    rw [hradians, ← Real.cos_abs, abs_mul, abs_of_pos (by positivity : 0 < Real.pi / 180)]
  have hright : |a'| * (Real.pi / 180) < Real.pi / 2 := by
    calc |a'| * (Real.pi / 180) < 90 * (Real.pi / 180) := by gcongr
      _ = Real.pi / 2 := by ring
  have hnonneg : ∀ x : ℝ, 0 ≤ |x| * (Real.pi / 180) := fun x => by positivity
  rw [habs, habs]
  refine ⟨Real.cos_pos_of_mem_Ioo ⟨by linarith [hnonneg a'], hright⟩, ?_⟩
  exact Real.cos_le_cos_of_nonneg_of_le_pi (hnonneg a) (by linarith) (by gcongr)

/-- An edge takes more away, the farther off it is. -/
theorem edgeShare_mono (hdistance : 0 ≤ distance) (hwavelength : 0 ≤ wavelength) {a a' : ℝ}
    (hle : |a| ≤ |a'|) (hlt : |a'| < 90) :
    edgeShare distance wavelength 1 a ≤ edgeShare distance wavelength 1 a' := by
  obtain ⟨hpos, hcos⟩ := cos_radians_anti hle hlt
  have hdetour := sub_le_sub_right (one_div_le_one_div_of_le hpos hcos) 1
  rw [edgeShare_eq, edgeShare_eq]
  gcongr

/-- What counts as negative at an edge beyond which a ray passes is no more than what an edge that is
farther off takes away. -/
theorem edgeShare_add_neg_mem (hdistance : 0 ≤ distance) (hwavelength : 0 ≤ wavelength) {a a' : ℝ}
    (hle : |a| ≤ |a'|) (hlt : |a'| < 90) :
    edgeShare distance wavelength 1 a' + edgeShare distance wavelength (-1) a ∈ Set.Ico 0 1 := by
  have hmono := edgeShare_mono hdistance hwavelength hle hlt
  obtain ⟨hnonneg, -⟩ := edgeShare_mem distance wavelength a
  obtain ⟨-, hhalf⟩ := edgeShare_mem distance wavelength a'
  rw [edgeShare_neg]
  exact ⟨by linarith, by linarith⟩

/-- A ray within reach of a screen passes beyond its upper edge, beyond its lower edge or between them. -/
theorem edgeSigns_cases {width offset : ℝ} (h : |offset| < width) :
    (width / 2 < offset ∧ edgeSigns width offset = (-1, 1)) ∨
    (offset ≤ -width / 2 ∧ edgeSigns width offset = (1, -1)) ∨
    edgeSigns width offset = (1, 1) := by
  obtain ⟨hlower, hupper⟩ := abs_lt.mp h
  have hsigns : edgeSigns width offset = (if width / 2 < offset then -1 else 1,
      if offset ≤ -width / 2 then -1 else 1) := by
    simp only [edgeSigns, one_eq, numeral_eq, Bool.and_eq_true, lt_iff, le_iff, hlower, hupper.le,
      and_true, true_and]
  rw [hsigns]
  by_cases hbeyond : width / 2 < offset
  · rw [if_pos hbeyond, if_neg (by linarith)]
    exact Or.inl ⟨hbeyond, rfl⟩
  · rw [if_neg hbeyond]
    split
    · next hbelow => exact Or.inr (Or.inl ⟨hbelow, rfl⟩)
    · exact Or.inr (Or.inr rfl)

open Scalar in
/-- The shares of two opposite edges of a screen together. -/
noncomputable def edgeSum (distance wavelength width offset : ℝ) : ℝ :=
  edgeShare distance wavelength (edgeSigns width offset).1 (offset - width / 2) +
    edgeShare distance wavelength (edgeSigns width offset).2 (offset + width / 2)

/-- A screen takes less than all of the field away, and adds nothing to it, if both edges are seen under
less than a right angle. -/
theorem edgeSum_mem (hdistance : 0 ≤ distance) (hwavelength : 0 ≤ wavelength) {width offset : ℝ}
    (h : |offset| < width) (hwidth : width ≤ 60) :
    edgeSum distance wavelength width offset ∈ Set.Ico 0 1 := by
  obtain ⟨hlower, hupper⟩ := abs_lt.mp h
  rw [edgeSum, numeral_eq]
  rcases edgeSigns_cases h with ⟨hbeyond, hsigns⟩ | ⟨hbelow, hsigns⟩ | hsigns <;>
    rw [hsigns] <;> dsimp only
  · -- beyond the upper edge the lower one is farther off, and the other way round
    rw [add_comm]
    exact edgeShare_add_neg_mem hdistance hwavelength (abs_le_abs (by linarith) (by linarith))
      (abs_lt.mpr ⟨by linarith, by linarith⟩)
  · exact edgeShare_add_neg_mem hdistance hwavelength
      (abs_le_abs_of_nonpos (by linarith) (by linarith)) (abs_lt.mpr ⟨by linarith, by linarith⟩)
  · obtain ⟨hupward, hupward'⟩ := edgeShare_mem distance wavelength (offset - width / 2)
    obtain ⟨hdownward, hdownward'⟩ := edgeShare_mem distance wavelength (offset + width / 2)
    exact ⟨by linarith, by linarith⟩

/-! ## Screens -/

theorem shadow_eq (b : Blocker ℝ) (azimuth zenith wavelength : ℝ) :
    b.shadow azimuth zenith wavelength =
      edgeSum b.distance wavelength b.width (azimuth - b.azimuth) *
        edgeSum b.distance wavelength b.height (zenith - b.zenith) := by
  have hfar : ∀ x centre width : ℝ, x - (centre - width / 2) = x - centre + width / 2 := by
    intro x centre width
    ring
  simp only [shadow, edgeSum, numeral_eq, hfar, ← sub_sub]

theorem shadows_iff {b : Blocker ℝ} {azimuth zenith : ℝ} : b.shadows azimuth zenith = true ↔
    |azimuth - b.azimuth| < b.width ∧ |zenith - b.zenith| < b.height := by
  have habs : ∀ x : ℝ, Scalar.absolute x = |x| := fun _ => rfl
  rw [shadows, Bool.not_eq_true', Bool.or_eq_false_iff, ← Bool.not_eq_true, ← Bool.not_eq_true,
    le_iff, le_iff, not_le, not_le, habs, habs]

/-- A screen so narrow that a direction near enough to be affected is less than a right angle off all
of its edges. -/
structure Narrow (b : Blocker ℝ) : Prop where
  width : b.width ∈ Set.Ioc 0 60
  height : b.height ∈ Set.Ioc 0 60
  distance : 0 ≤ b.distance

variable {b : Blocker ℝ} {azimuth zenith : ℝ}

theorem Narrow.shadow_mem (h : b.Narrow) (hwavelength : 0 ≤ wavelength)
    (hshadows : b.shadows azimuth zenith = true) :
    b.shadow azimuth zenith wavelength ∈ Set.Ico 0 1 := by
  obtain ⟨hwidth, hheight⟩ := shadows_iff.mp hshadows
  obtain ⟨hacross, hacross'⟩ := edgeSum_mem h.distance hwavelength hwidth h.width.2
  obtain ⟨hup, hup'⟩ := edgeSum_mem h.distance hwavelength hheight h.height.2
  rw [shadow_eq]
  exact ⟨mul_nonneg hacross hup, mul_lt_one_of_nonneg_of_lt_one_left hacross hacross' hup'.le⟩

theorem Narrow.loss_nonneg (h : b.Narrow) (hwavelength : 0 ≤ wavelength) {l : ℝ}
    (hl : b.loss? azimuth zenith wavelength = some l) : 0 ≤ l := by
  unfold loss? at hl
  split at hl
  · next hshadows =>
    obtain ⟨hnonneg, hlt⟩ := h.shadow_mem hwavelength hshadows
    have hlog : Real.logb 10 (1 - b.shadow azimuth zenith wavelength) ≤ 0 :=
      Real.logb_nonpos (by norm_num) (by linarith) (by linarith)
    have hl' : -20 * Real.logb 10 (1 - b.shadow azimuth zenith wavelength) = l := by
      rw [← Option.some.inj hl, one_eq, numeral_eq]
      rfl
    linarith
  · cases hl

end Blocker

theorem BlockageModel.attenuation_nonneg (model : BlockageModel ℝ) {blockers : List (Blocker ℝ)}
    (h : ∀ b ∈ blockers, b.Narrow) {frequency : ℝ} (hfrequency : 0 ≤ frequency) (azimuth zenith : ℝ) :
    0 ≤ model.attenuation blockers frequency azimuth zenith := by
  have hwavelength : 0 ≤ speedOfLight / frequency := div_nonneg (Nat.cast_nonneg _) hfrequency
  unfold attenuation
  refine List.foldlRecOn (motive := fun loss => 0 ≤ loss) blockers _ ?_ fun loss hloss b hb => ?_
  · split
    · rw [zero_eq, zero_add, selfBlockingLoss, numeral_eq]
      norm_num
    · exact zero_eq.ge
  · split
    · next l hl => exact add_nonneg hloss ((h b hb).loss_nonneg hwavelength hl)
    · exact hloss

/-! ## Sizes -/

namespace Draw

theorem unit_mem (s : RandomSource ℝ) : (unit.run s).1 ∈ Set.Ico (0 : ℝ) 1 := by
  have hunit : (unit.run s).1 = (((word64.run s).1 >>> 11).toNat : ℝ) / (2 ^ 53 : ℕ) := rfl
  have hlt : ((word64.run s).1 >>> 11).toNat < 2 ^ 53 := by
    rw [UInt64.toNat_shiftRight, Nat.shiftRight_eq_div_pow]
    exact Nat.div_lt_of_lt_mul (word64.run s).1.toNat_lt
  rw [hunit]
  exact ⟨by positivity, (div_lt_one (by positivity)).mpr (Nat.cast_lt.mpr hlt)⟩

theorem uniformIn_mem {low high : ℝ} (h : low < high) (s : RandomSource ℝ) :
    ((uniformIn low high).run s).1 ∈ Set.Ico low high := by
  obtain ⟨hnonneg, hlt⟩ := unit_mem s
  have huniform : ((uniformIn low high).run s).1 = low + (high - low) * (unit.run s).1 := rfl
  have hwidth : 0 < high - low := sub_pos.mpr h
  rw [huniform]
  exact ⟨le_add_of_nonneg_right (mul_nonneg hwidth.le hnonneg),
    by linarith [mul_lt_of_lt_one_right hwidth hlt]⟩

end Draw

theorem BlockageModel.narrow_drawBlocker (model : BlockageModel ℝ) (s : RandomSource ℝ) :
    (model.drawBlocker.run s).1.Narrow := by
  have hdrawn : ∀ (low high : ℕ) (t : RandomSource ℝ), 0 < low → low < high → high ≤ 60 →
      ((Draw.uniformIn (low : ℝ) high).run t).1 ∈ Set.Ioc 0 60 := by
    intro low high t hlow hlt hhigh
    obtain ⟨hge, hless⟩ := Draw.uniformIn_mem (Nat.cast_lt.mpr hlt) t
    exact ⟨(Nat.cast_pos.mpr hlow).trans_le hge, hless.le.trans (Nat.cast_le_ofNat.mpr hhigh)⟩
  have hheight : (@OfNat.ofNat ℝ 5 (Scalar.instOfNat 5)) ∈ Set.Ioc 0 60 := by
    rw [numeral_eq]
    norm_num
  unfold drawBlocker
  rw [run_draw_bind]
  split
  · exact ⟨hdrawn 15 45 _ (by decide) (by decide) (by decide),
      hdrawn 5 15 _ (by decide) (by decide) (by decide), Nat.cast_nonneg 2⟩
  · exact ⟨hdrawn 5 15 _ (by decide) (by decide) (by decide), hheight, Nat.cast_nonneg 10⟩

/-- A blocker with the screen of one that some model draws, at any azimuth. -/
def Blocker.Spawned {R : Type} [Scalar R] (b : Blocker R) : Prop :=
  ∃ (model : BlockageModel R) (s : RandomSource R), b.screen ∈ (model.spawn.run s).1.map Blocker.screen

theorem Blocker.Spawned.narrow {b : Blocker ℝ} (h : b.Spawned) : b.Narrow := by
  obtain ⟨model, s, hmem⟩ := h
  obtain ⟨spawned, hspawned, hscreen⟩ := List.mem_map.mp hmem
  have hnarrow : spawned.Narrow :=
    forall_mem_mapM_run (fun _ t => model.narrow_drawBlocker t) _ s spawned hspawned
  simp only [Blocker.screen, Prod.mk.injEq] at hscreen
  obtain ⟨hwidth, -, hheight, hdistance⟩ := hscreen
  exact ⟨hwidth ▸ hnarrow.width, hheight ▸ hnarrow.height, hdistance ▸ hnarrow.distance⟩

/-! ## Blockers of a link -/

section Link

variable {R : Type} [Scalar R]

theorem RealizationContext.spawned_drawBlockers {c : RealizationContext R}
    (hprevious : ∀ previous, c.previous = some previous → ∀ b ∈ previous.blockers, b.Spawned)
    (model : BlockageModel R) (s : RandomSource R) :
    ∀ b ∈ ((c.drawBlockers model).run s).1, b.Spawned := by
  have hnew : ∀ b ∈ (model.spawn.run s).1, b.Spawned :=
    fun b hb => ⟨model, s, List.mem_map_of_mem hb⟩
  unfold drawBlockers
  split
  · next previous hsome =>
    split
    · exact hnew
    · intro b hb
      -- a drifting blocker has the screen of one that was there before
      have hscreen := List.mem_map_of_mem (f := Blocker.screen) hb
      rw [BlockageModel.screens_drift] at hscreen
      obtain ⟨before, hbefore, heq⟩ := List.mem_map.mp hscreen
      obtain ⟨model', s', hmem⟩ := hprevious previous hsome before hbefore
      exact ⟨model', s', heq ▸ hmem⟩
  · exact hnew

theorem Drawn.spawned_blockers {c : RealizationContext R} {m : Realization R} {scale : LargeScale R}
    {profile : Profile R} {unwrapped : List (Directions R)} {losses : List R}
    (h : Drawn c m scale profile unwrapped losses)
    (hprevious : ∀ previous, c.previous = some previous → ∀ b ∈ previous.blockers, b.Spawned) :
    ∀ b ∈ m.blockers, b.Spawned := by
  cases hblockage : c.blockage with
  | none =>
    obtain ⟨s, hs⟩ := h.losses_eq
    rw [RealizationContext.drawBlockage, hblockage] at hs
    have hnone : m.blockers = [] := (congrArg Prod.fst hs).symm
    simp [hnone]
  | some model =>
    obtain ⟨s, hs⟩ := h.blockers_eq hblockage
    exact hs ▸ RealizationContext.spawned_drawBlockers hprevious model s

namespace Generator

variable {g : Generator R} {births : List (Birth R)}

/-- A request between distinct nodes stores a realization with spawned blockers. -/
theorem Mirrors.spawned_of_store (h : g.Mirrors births)
    (hbirths : ∀ x ∈ births, ∀ b ∈ x.realization.blockers, b.Spawned) {now : Nanoseconds}
    {a b : Terminal R} {condition : Condition} (hid : a.endpoint.id ≠ b.endpoint.id)
    {m : Realization R} {source : RandomSource R} (hrun : (channel now a b condition).run g =
      (.ok ⟨m, false⟩, g.store source a.endpoint.id b.endpoint.id m)) :
    ∀ b ∈ m.blockers, b.Spawned := by
  obtain ⟨table, scale, profile, unwrapped, losses, -, hdrawn⟩ := drawn_of_store hrun
  refine hdrawn.spawned_blockers fun previous hprevious => ?_
  rw [contextOf, h.peek_eq hid, Option.map_map, Option.map_eq_some_iff] at hprevious
  obtain ⟨birth, hlatest, rfl⟩ := hprevious
  exact hbirths birth (List.mem_of_find?_eq_some hlatest)

/-- In every history all blockers are spawned ones, wherever they have drifted. -/
theorem History.spawned_blockers (h : History g births) :
    ∀ x ∈ births, ∀ b ∈ x.realization.blockers, b.Spawned := by
  induction h with
  | start h => simp
  | tune frequency _ ih => exact ih
  | request now a b condition hid hbefore ih =>
    rename_i g births
    rcases born_cases g now a b condition with ⟨hborn, -, -⟩ | ⟨m, source, hborn, hrun, -⟩
    · rw [hborn]
      exact ih
    · rw [hborn]
      exact List.forall_mem_cons.mpr ⟨hbefore.mirrors.spawned_of_store ih hid hrun, ih⟩

end Generator

end Link

/-! ## Powers and amplitudes -/

theorem RealizationContext.lossToward_nonneg {c : RealizationContext ℝ} (hfrequency : 0 ≤ c.frequency)
    {m : Realization ℝ} (h : ∀ b ∈ m.blockers, b.Spawned) (d : Directions ℝ) :
    0 ≤ c.lossToward m d := by
  unfold lossToward
  split
  · next model _ => exact model.attenuation_nonneg (fun b hb => (h b hb).narrow) hfrequency _ _
  · exact le_refl 0

theorem div_loss_le {x loss : ℝ} (hx : 0 ≤ x) (hloss : 0 ≤ loss) : x / 10 ^ (loss / 10) ≤ x :=
  div_le_self hx (Real.one_le_rpow (by norm_num) (by positivity))

/-- The amplitude of a direct ray with a loss is at most that without one. -/
theorem Tensor.DirectRay.amplitude_mem (rx tx : Panel ℝ) (g : LinkGeometry ℝ) (k phase : ℝ) {loss : ℝ}
    (hloss : 0 ≤ loss) : (ofGeometry rx tx g k phase loss).amplitude ∈
      Set.Icc 0 (ofGeometry rx tx g k phase 0).amplitude := by
  rw [amplitude_eq, amplitude_eq, zero_div, Real.rpow_zero, div_one]
  exact ⟨by positivity, div_loss_le (Real.sqrt_nonneg _) hloss⟩

/-- Blockage takes power away and never adds any. A screen of a size that blockers are drawn with,
wherever it stands, takes nothing or a part of the field away but never all of it, so that every loss is
finite and none is negative. In every history, each cluster of a new realization has some power left and
at most that of its tap, and its direct ray is at most as strong as without a loss. -/
theorem Generator.blockage_never_amplifies :
    (∀ (model : BlockageModel ℝ) (blockers : List (Blocker ℝ)) (frequency azimuth zenith : ℝ),
      (∀ b ∈ blockers, b.Spawned) → 0 < frequency →
      (∀ b ∈ blockers, b.shadows azimuth zenith = true →
        b.shadow azimuth zenith (speedOfLight / frequency) ∈ Set.Ico 0 1) ∧
      0 ≤ model.attenuation blockers frequency azimuth zenith) ∧
    ∀ (g : Generator ℝ) (births : List (Birth ℝ)) (now : Nanoseconds) (a b : Terminal ℝ)
      (condition : Condition) (m : Realization ℝ) (source : RandomSource ℝ),
      History g births → a.endpoint.id ≠ b.endpoint.id → 0 < g.frequency →
      (channel now a b condition).run g =
        (.ok ⟨m, false⟩, g.store source a.endpoint.id b.endpoint.id m) →
      ∃ table scale profile unwrapped losses d,
        let c := g.contextOf now a b condition
          ((g.peek a.endpoint.id b.endpoint.id).map Link.realization) table
        Drawn c m scale profile unwrapped losses ∧
        (∀ (n : ℕ) (p : ℝ), m.powers[n]? = some p → ∃ tap : Tap ℝ, profile.taps[n]? = some tap ∧
          0 < p ∧ p ≤ tap.power) ∧
        m.tensor = c.tensor scale (c.rayClusters unwrapped m.phases m.powers) m.directPhase
          (c.lossToward m d) ∧
        (Tensor.DirectRay.ofGeometry c.rx c.tx c.geometry scale.ricean m.directPhase
          (c.lossToward m d)).amplitude ∈ Set.Icc 0 (Tensor.DirectRay.ofGeometry c.rx c.tx c.geometry
            scale.ricean m.directPhase 0).amplitude := by
  refine ⟨fun model blockers frequency azimuth zenith hspawned hfrequency => ⟨fun b hb hshadows => ?_,
    model.attenuation_nonneg (fun b hb => (hspawned b hb).narrow) hfrequency.le azimuth zenith⟩,
    fun g births now a b condition m source hhistory hid hfrequency hrun => ?_⟩
  · exact (hspawned b hb).narrow.shadow_mem (div_nonneg (Nat.cast_nonneg _) hfrequency.le) hshadows
  · have hspawned := hhistory.mirrors.spawned_of_store hhistory.spawned_blockers hid hrun
    obtain ⟨table, scale, profile, unwrapped, losses, -, hdrawn⟩ := drawn_of_store hrun
    obtain ⟨d, -, hloss⟩ := hdrawn.directLoss_eq
    have hnonneg := RealizationContext.lossToward_nonneg (c := g.contextOf now a b condition
      ((g.peek a.endpoint.id b.endpoint.id).map Link.realization) table) hfrequency.le hspawned
    refine ⟨table, scale, profile, unwrapped, losses, d, hdrawn, fun n p hp => ?_,
      hloss ▸ hdrawn.tensor_eq, Tensor.DirectRay.amplitude_mem _ _ _ _ _ (hnonneg d)⟩
    obtain ⟨tap, d', htap, -, rfl⟩ := hdrawn.power_eq hp
    have hpower := hdrawn.power_pos tap (List.mem_of_getElem? htap)
    exact ⟨tap, htap, by positivity, div_loss_le hpower.le (hnonneg d')⟩

/-- Four vehicles around a car: what they take away right behind them, the loss of a direction that the
user hides as well, and the powers of the car's link to a tower. -/
theorem Generator.blockage_never_amplifies_parked :
    let model : BlockageModel ℝ := ⟨.ruralMacro, 4, .portrait, 0⟩
    let vehicles := (model.spawn.run (.ofSeed 1)).1
    vehicles.length = 4 ∧ 0 ≤ model.attenuation vehicles 28000000000 260 100 ∧
    (∀ b ∈ vehicles, b.shadow b.azimuth b.zenith (speedOfLight / 28000000000) ∈ Set.Ico 0 1) ∧
    ∃ m source, (channel 0 tower car ⟨true, false⟩).run parked =
        (.ok ⟨m, false⟩, parked.store source tower.endpoint.id car.endpoint.id m) ∧
      ∃ c scale profile unwrapped losses, Drawn c m scale profile unwrapped losses ∧
        ∀ (n : ℕ) (p : ℝ), m.powers[n]? = some p → ∃ tap : Tap ℝ, profile.taps[n]? = some tap ∧
          0 < p ∧ p ≤ tap.power := by
  intro model vehicles
  obtain ⟨hscreens, hlinks⟩ := blockage_never_amplifies
  have hspawned : ∀ b ∈ vehicles, b.Spawned := fun b hb => ⟨model, _, List.mem_map_of_mem hb⟩
  have hbehind : ∀ b ∈ vehicles, b.shadows b.azimuth b.zenith = true := by
    intro b hb
    rw [Blocker.shadows_iff, sub_self, sub_self, abs_zero]
    exact ⟨(hspawned b hb).narrow.width.1, (hspawned b hb).narrow.height.1⟩
  have hcarrier : (0 : ℝ) < 28000000000 := by norm_num
  obtain ⟨m, source, hrun, -⟩ := channel_ruralMacro (g := parked) rfl (numeral_beq_zero _) 0
    ⟨true, false⟩ apart_country fun l hl => by
      simp [parked, fresh, peek] at hl
  obtain ⟨table, scale, profile, unwrapped, losses, -, hdrawn, hkept, -⟩ := hlinks parked [] 0 tower
    car ⟨true, false⟩ m source (History.start rfl) (by decide) hcarrier hrun
  exact ⟨model.length_spawn _, (hscreens model vehicles _ 260 100 hspawned hcarrier).2,
    fun b hb => (hscreens model vehicles _ _ _ hspawned hcarrier).1 b hb (hbehind b hb),
    m, source, hrun, _, scale, profile, unwrapped, losses, hdrawn, hkept⟩

end RadioChannel
