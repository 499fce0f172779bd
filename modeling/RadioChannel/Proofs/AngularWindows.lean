import RadioChannel.Proofs.Correlations
import RadioChannel.Proofs.Shadows
import RadioChannel.Proofs.Wrapping

/-!
# Angular windows and the way around north

The user's body and every screen hide a window of directions: those less than some angle off its
centre. The azimuth of a direction and that of a centre are compared as they stand, in the first turn
both, and not around the circle. The two ways differ by the directions that are near to the centre
across north alone. So a window is seen as a whole unless it reaches past north, as does the region that
is hidden by the user of a terminal held sideways: of it the part before north is not seen.
-/

namespace RadioChannel

open ExactScalars

/-! ## Around the circle -/

/-- The smallest difference in degrees of two azimuths, up to whole turns. -/
noncomputable def circularDistance (a b : ℝ) : ℝ := ⨅ k : ℤ, |a - b + 360 * k|

/-- More turns than one bring the difference of two azimuths no nearer to zero than one turn or none. -/
theorem min_abs_le_abs_add_turns (x : ℝ) (k : ℤ) : min |x| (360 - |x|) ≤ |x + 360 * k| := by
  rcases eq_or_ne k 0 with rfl | hk
  · simp
  · have hturns : (1 : ℝ) ≤ |(k : ℝ)| := by exact_mod_cast Int.one_le_abs hk
    have hfar : |360 * (k : ℝ)| = 360 * |(k : ℝ)| := by rw [abs_mul, abs_of_pos (by norm_num)]
    have htriangle := abs_sub_abs_le_abs_sub (360 * (k : ℝ)) (-x)
    rw [abs_neg, sub_neg_eq_add, add_comm (360 * (k : ℝ)) x] at htriangle
    exact (min_le_right _ _).trans (by linarith)

/-- In the first turn, two azimuths are as far apart as they stand or the rest of a turn. -/
theorem circularDistance_eq {a b : ℝ} (ha : a ∈ Set.Icc 0 360) (hb : b ∈ Set.Icc 0 360) :
    circularDistance a b = min |a - b| (360 - |a - b|) := by
  have hbounded : BddBelow (Set.range fun k : ℤ => |a - b + 360 * k|) :=
    ⟨0, Set.forall_mem_range.mpr fun k => abs_nonneg _⟩
  refine le_antisymm (le_min ?_ ?_) (le_ciInf (min_abs_le_abs_add_turns _))
  · exact (ciInf_le hbounded 0).trans_eq (by simp)
  · -- the rest of the turn is reached by one turn against the sign of the difference
    rcases abs_cases (a - b) with ⟨habs, hsign⟩ | ⟨habs, hsign⟩
    · refine (ciInf_le hbounded (-1)).trans (le_of_eq ?_)
      rw [habs, abs_of_nonpos] <;> push_cast <;> linarith [ha.2, hb.1]
    · refine (ciInf_le hbounded 1).trans (le_of_eq ?_)
      rw [habs, abs_of_nonneg] <;> push_cast <;> linarith [ha.1, hb.2]

/-! ## Windows -/

/-- A window of directions: its centre, and how far it reaches to either side and up and down. -/
structure Window (R : Type) where
  /-- Azimuth of the centre in degrees. -/
  azimuth : R
  /-- How far azimuths may be off it. -/
  reach : R
  /-- Zenith of the centre in degrees. -/
  zenith : R
  /-- How far zeniths may be off it. -/
  lift : R

open Scalar in
/-- The window that the user hides. -/
def SelfRegion.window {R : Type} [Scalar R] (s : SelfRegion R) : Window R :=
  ⟨s.azimuth, s.width / 2, s.zenith, s.height / 2⟩

/-- The window in which a screen affects rays. -/
def Blocker.window {R : Type} [Scalar R] (b : Blocker R) : Window R :=
  ⟨b.azimuth, b.width, b.zenith, b.height⟩

namespace Window

variable {w : Window ℝ} {azimuth zenith : ℝ}

/-- A direction lies in the window, measured around the circle. -/
def Holds (w : Window ℝ) (azimuth zenith : ℝ) : Prop :=
  |zenith - w.zenith| < w.lift ∧ circularDistance azimuth w.azimuth < w.reach

/-- A direction lies in the window, by azimuths as they stand. -/
def Reads (w : Window ℝ) (azimuth zenith : ℝ) : Prop :=
  |zenith - w.zenith| < w.lift ∧ |azimuth - w.azimuth| < w.reach

/-- A direction lies in the window by way of north. -/
def Across (w : Window ℝ) (azimuth zenith : ℝ) : Prop :=
  |zenith - w.zenith| < w.lift ∧ 360 - |azimuth - w.azimuth| < w.reach

/-- A window that ends at north or before, on either side. -/
def Clear (w : Window ℝ) : Prop := w.azimuth ∈ Set.Icc w.reach (360 - w.reach)

/-- Around the circle there are two ways to the centre. -/
theorem holds_iff (hcentre : w.azimuth ∈ Set.Icc 0 360) (hazimuth : azimuth ∈ Set.Icc 0 360) :
    w.Holds azimuth zenith ↔ w.Reads azimuth zenith ∨ w.Across azimuth zenith := by
  rw [Holds, circularDistance_eq hazimuth hcentre, min_lt_iff, and_or_left, Reads, Across]

theorem Clear.not_across (h : w.Clear) (hazimuth : azimuth ∈ Set.Icc 0 360) :
    ¬ w.Across azimuth zenith := by
  rintro ⟨-, hacross⟩
  have hfar : |azimuth - w.azimuth| ≤ 360 - w.reach :=
    abs_le.mpr ⟨by linarith [h.2, hazimuth.1], by linarith [h.1, hazimuth.2]⟩
  linarith

/-- A window that is clear of north is seen as it is. -/
theorem Clear.reads_iff (h : w.Clear) (hcentre : w.azimuth ∈ Set.Icc 0 360)
    (hazimuth : azimuth ∈ Set.Icc 0 360) : w.Reads azimuth zenith ↔ w.Holds azimuth zenith := by
  rw [holds_iff hcentre hazimuth, or_iff_left (h.not_across hazimuth)]

/-- A window that is clear of north does not hold north, by either of its names. -/
theorem Clear.not_reads_north (h : w.Clear) (hnorth : azimuth = 0 ∨ azimuth = 360) :
    ¬ w.Reads azimuth zenith := by
  rintro ⟨-, hreads⟩
  obtain ⟨hlow, hhigh⟩ := abs_lt.mp hreads
  rcases hnorth with rfl | rfl
  · linarith [h.1]
  · linarith [h.2]

/-- A window of at most half a turn is seen as it is from every direction only if it is clear of
north. -/
theorem clear_iff (hcentre : w.azimuth ∈ Set.Icc 0 360) (hreach : w.reach ≤ 180) (hlift : 0 < w.lift) :
    w.Clear ↔ ∀ azimuth ∈ Set.Icc (0 : ℝ) 360, ∀ zenith,
      w.Reads azimuth zenith ↔ w.Holds azimuth zenith := by
  refine ⟨fun h azimuth hazimuth zenith => h.reads_iff hcentre hazimuth, fun h => ?_⟩
  have hlevel : |w.zenith - w.zenith| < w.lift := by rwa [sub_self, abs_zero]
  -- past north the window is missed from the other name of north
  have hmissed : ∀ north ∈ Set.Icc (0 : ℝ) 360, 180 ≤ |north - w.azimuth| →
      w.reach ≤ 360 - |north - w.azimuth| := by
    intro north hnorth hfar
    by_contra hacross
    have hreads := (h north hnorth w.zenith).mpr
      ((holds_iff hcentre hnorth).mpr (Or.inr ⟨hlevel, not_le.mp hacross⟩))
    linarith [hreads.2]
  obtain ⟨hlow, hhigh⟩ := hcentre
  constructor
  · by_contra hbelow
    have habs : |360 - w.azimuth| = 360 - w.azimuth := abs_of_nonneg (by linarith)
    have := hmissed 360 (by norm_num) (by rw [habs]; linarith)
    linarith
  · by_contra habove
    have habs : |0 - w.azimuth| = w.azimuth := by rw [zero_sub, abs_neg, abs_of_nonneg hlow]
    have := hmissed 0 (by norm_num) (by rw [habs]; linarith)
    linarith

end Window

/-! ## Bodies and screens -/

namespace SelfRegion

theorem contains_iff {s : SelfRegion ℝ} {azimuth zenith : ℝ} :
    s.contains azimuth zenith = true ↔ s.window.Reads azimuth zenith := by
  rw [contains, Bool.and_eq_true, lt_iff, lt_iff, absolute_eq, absolute_eq, and_comm]
  rfl

theorem window_portrait : (portrait : SelfRegion ℝ).window = ⟨260, 60, 100, 40⟩ := by
  simp only [window, portrait, numeral_eq, Window.mk.injEq]
  norm_num

theorem window_landscape : (landscape : SelfRegion ℝ).window = ⟨40, 80, 110, 75 / 2⟩ := by
  simp only [window, landscape, numeral_eq, Window.mk.injEq]
  norm_num

theorem clear_portrait : (portrait : SelfRegion ℝ).window.Clear := by
  rw [window_portrait]
  constructor <;> norm_num

/-- The region of a terminal held sideways reaches 40 degrees past north, where it is not seen. -/
theorem landscape_contains_iff {azimuth zenith : ℝ} (hazimuth : azimuth ∈ Set.Icc 0 360) :
    (landscape : SelfRegion ℝ).contains azimuth zenith = true ↔
      (landscape : SelfRegion ℝ).window.Holds azimuth zenith ∧ azimuth ≤ 320 := by
  rw [contains_iff, Window.holds_iff (by rw [window_landscape]; norm_num) hazimuth, window_landscape]
  constructor
  · intro hreads
    obtain ⟨-, hnear⟩ := abs_lt.mp hreads.2
    exact ⟨Or.inl hreads, by linarith⟩
  · rintro ⟨hreads | ⟨-, hacross⟩, hbefore⟩
    · exact hreads
    · have hfar : |azimuth - 40| ≤ 280 := abs_le.mpr ⟨by linarith [hazimuth.1], by linarith⟩
      linarith

end SelfRegion

namespace Blocker

/-- Wherever its state has drifted, a screen stands at an azimuth of the first turn. -/
theorem azimuth_mem (b : Blocker ℝ) : b.azimuth ∈ Set.Icc 0 360 := wrapAzimuth_mem _

theorem isSome_loss?_iff {b : Blocker ℝ} {azimuth zenith wavelength : ℝ} :
    (b.loss? azimuth zenith wavelength).isSome = true ↔ b.window.Reads azimuth zenith := by
  have hshadows : (b.loss? azimuth zenith wavelength).isSome = b.shadows azimuth zenith := by
    unfold loss?
    split <;> simp_all
  rw [hshadows, shadows_iff, and_comm]
  rfl

end Blocker

/-! ## Losses -/

namespace BlockageModel

variable {model : BlockageModel ℝ} {blockers : List (Blocker ℝ)} {frequency azimuth zenith : ℝ}

/-- Losses that are added one after the other, where there are any. -/
theorem foldl_losses (loss? : Blocker ℝ → Option ℝ) {step : ℝ → Blocker ℝ → ℝ}
    (hstep : ∀ loss b, step loss b = loss + (loss? b).getD 0) (blockers : List (Blocker ℝ)) (loss : ℝ) :
    blockers.foldl step loss = loss + (blockers.filterMap loss?).sum := by
  induction blockers generalizing loss with
  | nil => simp
  | cons b blockers ih =>
    rw [List.foldl_cons, ih, hstep]
    cases hb : loss? b with
    | some l => rw [List.filterMap_cons_some hb, List.sum_cons, Option.getD_some, add_assoc]
    | none => rw [List.filterMap_cons_none hb, Option.getD_none, add_zero]

/-- The loss of a direction is that of the user's body and those of the screens in its way. -/
theorem attenuation_eq (model : BlockageModel ℝ) (blockers : List (Blocker ℝ))
    (frequency azimuth zenith : ℝ) : model.attenuation blockers frequency azimuth zenith =
      (if model.selfRegion.contains azimuth zenith then 30 else 0) +
        (blockers.filterMap (·.loss? azimuth zenith (speedOfLight / frequency))).sum := by
  unfold attenuation
  rw [foldl_losses (·.loss? azimuth zenith (speedOfLight / frequency))]
  · simp only [zero_eq, zero_add, selfBlockingLoss, numeral_eq]
  · intro loss b
    split
    · next l hl =>
      rw [hl]
      rfl
    · next hl => rw [hl, Option.getD_none, add_zero]

/-- Toward north nothing is lost if all windows are clear of it. -/
theorem attenuation_north (hregion : model.selfRegion.window.Clear)
    (hblockers : ∀ b ∈ blockers, b.window.Clear) (hnorth : azimuth = 0 ∨ azimuth = 360) :
    model.attenuation blockers frequency azimuth zenith = 0 := by
  have hbody : ¬ model.selfRegion.contains azimuth zenith = true := fun h =>
    hregion.not_reads_north hnorth (SelfRegion.contains_iff.mp h)
  have hscreens : blockers.filterMap (·.loss? azimuth zenith (speedOfLight / frequency)) = [] := by
    refine List.filterMap_eq_nil_iff.mpr fun b hb => ?_
    rw [← Option.not_isSome_iff_eq_none, Blocker.isSome_loss?_iff]
    exact (hblockers b hb).not_reads_north hnorth
  rw [attenuation_eq, if_neg hbody, hscreens, List.sum_nil, add_zero]

/-- Two names of a direction have one loss if all windows are clear of north. -/
theorem attenuation_congr (hregion : model.selfRegion.window.Clear)
    (hblockers : ∀ b ∈ blockers, b.window.Clear) {azimuth' : ℝ} (hazimuth : azimuth ∈ Set.Icc 0 360)
    (hazimuth' : azimuth' ∈ Set.Icc 0 360) (hsame : circularDistance azimuth azimuth' = 0) :
    model.attenuation blockers frequency azimuth zenith =
      model.attenuation blockers frequency azimuth' zenith := by
  rw [circularDistance_eq hazimuth hazimuth', min_eq_iff] at hsame
  obtain ⟨hlow, hhigh⟩ := hazimuth
  obtain ⟨hlow', hhigh'⟩ := hazimuth'
  rcases hsame with ⟨hsame, -⟩ | ⟨hturn, -⟩
  · rw [sub_eq_zero.mp (abs_eq_zero.mp hsame)]
  · -- a whole turn apart, they are the two names of north
    rcases abs_cases (azimuth - azimuth') with ⟨habs, -⟩ | ⟨habs, -⟩
    · rw [attenuation_north hregion hblockers (Or.inr (by linarith)),
        attenuation_north hregion hblockers (Or.inl (by linarith))]
    · rw [attenuation_north hregion hblockers (Or.inl (by linarith)),
        attenuation_north hregion hblockers (Or.inr (by linarith))]

/-- What is hidden from a direction of the first turn. The loss adds up over the user's body and the
screens in the way. The user of a terminal held upright is in the way of just the directions within his
window, and that of a terminal held sideways of those but for the last 40 degrees before north. A screen
is in the way of the directions within its window, but for those from which it is near across north
alone; there are none of these just if its window is clear of north. Two names of one direction have the
same loss if no window reaches past north. -/
theorem attenuation_of_windows (scenario : Scenario) (settings : ChannelSettings ℝ)
    (blockers : List (Blocker ℝ)) (frequency : ℝ) {azimuth : ℝ} (zenith : ℝ)
    (hazimuth : azimuth ∈ Set.Icc 0 360) :
    let model := ofSettings scenario settings
    let wavelength := speedOfLight / frequency
    model.attenuation blockers frequency azimuth zenith =
      (if model.selfRegion.contains azimuth zenith then 30 else 0) +
        (blockers.filterMap (·.loss? azimuth zenith wavelength)).sum ∧
    (model.selfRegion.contains azimuth zenith = true ↔
      model.selfRegion.window.Holds azimuth zenith ∧ (settings.portrait = true ∨ azimuth ≤ 320)) ∧
    (∀ b ∈ blockers,
      (b.window.Holds azimuth zenith ↔
        (b.loss? azimuth zenith wavelength).isSome = true ∨ b.window.Across azimuth zenith) ∧
      (b.width ≤ 180 → 0 < b.height → (b.window.Clear ↔
        ∀ azimuth' ∈ Set.Icc (0 : ℝ) 360, ∀ zenith',
          (b.loss? azimuth' zenith' wavelength).isSome = true ↔ b.window.Holds azimuth' zenith'))) ∧
    (settings.portrait = true → (∀ b ∈ blockers, b.window.Clear) →
      ∀ azimuth' ∈ Set.Icc (0 : ℝ) 360, circularDistance azimuth azimuth' = 0 →
        model.attenuation blockers frequency azimuth zenith =
          model.attenuation blockers frequency azimuth' zenith) := by
  intro model wavelength
  have hregion : model.selfRegion = if settings.portrait then .portrait else .landscape := rfl
  refine ⟨attenuation_eq _ _ _ _ _, ?_, fun b hb => ⟨?_, fun hwidth hheight => ?_⟩,
    fun hportrait hblockers azimuth' hazimuth' hsame => ?_⟩
  · rw [hregion]
    cases settings.portrait with
    | true =>
      have hcentre : (SelfRegion.portrait : SelfRegion ℝ).window.azimuth ∈ Set.Icc 0 360 := by
        rw [SelfRegion.window_portrait]
        norm_num
      simpa [SelfRegion.contains_iff] using SelfRegion.clear_portrait.reads_iff hcentre hazimuth
    | false => simpa using SelfRegion.landscape_contains_iff hazimuth
  · rw [Blocker.isSome_loss?_iff]
    exact Window.holds_iff b.azimuth_mem hazimuth
  · simp only [Blocker.isSome_loss?_iff]
    exact Window.clear_iff b.azimuth_mem hwidth hheight
  · refine attenuation_congr ?_ hblockers hazimuth hazimuth' hsame
    rw [hregion, if_pos hportrait]
    exact SelfRegion.clear_portrait

/-- The polynomial of the error function does not quite add up to one at zero. -/
theorem erfc_zero : erfc (0 : ℝ) = 999999999 / 1000000000 := by
  have hexp : Scalar.exp (-0 * 0 : ℝ) = 1 := by
    rw [mul_zero]
    exact Real.exp_zero
  unfold erfc
  simp only [decimal_eq, one_eq, zero_eq, le_iff, le_refl, if_true, hexp, absolute_eq, abs_zero]
  norm_num

/-- A screen in the middle of its distribution stands in the south, but for that. -/
theorem azimuth_of_state_zero {b : Blocker ℝ} (hstate : b.state = 0) :
    b.azimuth = 180 * (999999999 / 1000000000) := by
  have hzero : erfc (-b.state / Scalar.sqrt (@OfNat.ofNat ℝ 2 (Scalar.instOfNat 2))) =
      999999999 / 1000000000 := by
    rw [hstate, neg_zero, ← erfc_zero]
    congr 1
    exact zero_div _
  have hhalf : @OfScientific.ofScientific ℝ Scalar.instOfScientific 5 true 1 *
      (999999999 / 1000000000) * @OfNat.ofNat ℝ 360 (Scalar.instOfNat 360) =
        180 * (999999999 / 1000000000) := by
    rw [decimal_eq, numeral_eq]
    norm_num
  rw [Blocker.azimuth, hzero, hhalf]
  exact wrapAzimuth_of_mem (by norm_num)

/-- A vehicle ten degrees wide in the south, and a terminal held sideways. The direction at 330 degrees
is within the user's window and loses nothing, while 30 decibels are lost at 30 degrees. With the
terminal held upright, north has the same loss by both names. -/
theorem attenuation_of_windows_south :
    let vehicle : Blocker ℝ := ⟨0, 10, 90, 5, 10⟩
    let upright : ChannelSettings ℝ := .standard
    let sideways : ChannelSettings ℝ := { upright with portrait := false }
    vehicle.window.Clear ∧
    (ofSettings .urbanMacro sideways).selfRegion.window.Holds 330 110 ∧
    (ofSettings .urbanMacro sideways).attenuation [vehicle] 28000000000 330 110 = 0 ∧
    (ofSettings .urbanMacro sideways).attenuation [vehicle] 28000000000 30 110 = 30 ∧
    (ofSettings .urbanMacro upright).attenuation [vehicle] 28000000000 0 100 =
      (ofSettings .urbanMacro upright).attenuation [vehicle] 28000000000 360 100 := by
  intro vehicle upright sideways
  have hclear : vehicle.window.Clear := by
    have hcentre : vehicle.window.azimuth = 180 * (999999999 / 1000000000) :=
      azimuth_of_state_zero rfl
    have hreach : vehicle.window.reach = 10 := rfl
    rw [Window.Clear, hcentre, hreach]
    constructor <;> norm_num
  have hregion : (ofSettings .urbanMacro sideways).selfRegion.window = ⟨40, 80, 110, 75 / 2⟩ :=
    SelfRegion.window_landscape
  have hholds : ∀ azimuth ∈ ({330, 30} : Set ℝ),
      (ofSettings .urbanMacro sideways).selfRegion.window.Holds azimuth 110 := by
    rintro azimuth (rfl | rfl) <;>
      rw [hregion, Window.Holds, circularDistance_eq (by norm_num) (by norm_num)] <;> norm_num
  -- twenty degrees above or below the vehicle its loss does not count
  have hmissed : ∀ azimuth : ℝ, [vehicle].filterMap
      (·.loss? azimuth 110 (speedOfLight / (28000000000 : ℝ))) = [] := by
    intro azimuth
    refine List.filterMap_eq_nil_iff.mpr (List.forall_mem_singleton.mpr ?_)
    rw [← Option.not_isSome_iff_eq_none, Blocker.isSome_loss?_iff]
    rintro ⟨hlevel, -⟩
    have hlift : |(110 : ℝ) - 90| < 5 := hlevel
    norm_num at hlift
  obtain ⟨hbehind, hbefore, -⟩ := attenuation_of_windows .urbanMacro sideways [vehicle] 28000000000 110
    (by norm_num : (330 : ℝ) ∈ Set.Icc 0 360)
  obtain ⟨hahead, hpast, -⟩ := attenuation_of_windows .urbanMacro sideways [vehicle] 28000000000 110
    (by norm_num : (30 : ℝ) ∈ Set.Icc 0 360)
  obtain ⟨-, -, -, hnorth⟩ := attenuation_of_windows .urbanMacro upright [vehicle] 28000000000 100
    (by norm_num : (0 : ℝ) ∈ Set.Icc 0 360)
  have hturn : circularDistance 0 360 = 0 := by
    rw [circularDistance_eq (by norm_num) (by norm_num)]
    norm_num
  refine ⟨hclear, hholds 330 (by simp), ?_, ?_,
    hnorth rfl (List.forall_mem_singleton.mpr hclear) 360 (by norm_num) hturn⟩
  · rw [hbehind, hmissed, if_neg, List.sum_nil, add_zero]
    intro hcontains
    obtain ⟨-, hupright | hlast⟩ := hbefore.mp hcontains
    · cases hupright
    · norm_num at hlast
  · rw [hahead, hmissed, if_pos (hpast.mpr ⟨hholds 30 (by simp), Or.inr (by norm_num)⟩), List.sum_nil,
      add_zero]

end BlockageModel

end RadioChannel
