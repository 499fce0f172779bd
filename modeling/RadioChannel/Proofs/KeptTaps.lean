import RadioChannel.Proofs.Losses
import Mathlib.Order.Interval.Finset.Fin

/-!
# What is kept of a profile

A profile starts from as many clusters as its table has, with delays in ascending order and powers that
add up to one. A cluster is kept if it is strong enough beside the strongest one, with the direct ray
counted. Those that are kept bring their own delay, power and angle power along and stay in order.
-/

namespace RadioChannel

open ExactScalars

/-- What a fold gathers is above its start and above all that it meets, if no step goes below either. -/
theorem le_foldl {α β : Type} [Preorder β] {f : β → α → β} {g : α → β}
    (h : ∀ m x, m ≤ f m x ∧ g x ≤ f m x) (xs : List α) (m : β) :
    m ≤ xs.foldl f m ∧ ∀ x ∈ xs, g x ≤ xs.foldl f m := by
  induction xs generalizing m with
  | nil => exact ⟨le_refl m, by simp⟩
  | cons x xs ih =>
    obtain ⟨hm, hxs⟩ := ih (f m x)
    rw [List.foldl_cons]
    exact ⟨(h m x).1.trans hm, List.forall_mem_cons.mpr ⟨(h m x).2.trans hm, hxs⟩⟩

namespace Profile

/-! ## Delays -/

theorem earliest_le {delays : List ℝ} : ∀ t ∈ delays, earliest delays ≤ t := by
  cases delays with
  | nil => simp
  | cons first rest =>
    have hsmaller : ∀ m t : ℝ, Scalar.smaller m t ≤ m ∧ Scalar.smaller m t ≤ t := fun m t => by
      rw [smaller_eq]
      exact ⟨min_le_left m t, min_le_right m t⟩
    exact List.forall_mem_cons.mpr (le_foldl (β := ℝᵒᵈ) hsmaller rest first)

/-- Aligned delays ascend. -/
theorem pairwise_align (delays : List ℝ) : (align delays).Pairwise (· ≤ ·) := by
  have hsorted : (align delays).Pairwise fun x y => Scalar.orderedLe x y = true := by
    refine List.pairwise_mergeSort (fun x y z hxy hyz => ?_) (fun x y => ?_) _
    · exact le_iff.mpr ((le_iff.mp hxy).trans (le_iff.mp hyz))
    · rw [Bool.or_eq_true]
      exact (le_total x y).imp le_iff.mpr le_iff.mpr
  exact hsorted.imp fun h => le_iff.mp h

/-- Aligned delays start from zero. -/
theorem align_nonneg {delays : List ℝ} : ∀ t ∈ align delays, 0 ≤ t := by
  intro t ht
  obtain ⟨t', ht', rfl⟩ := List.mem_map.mp (List.mem_mergeSort.mp ht)
  exact sub_nonneg.mpr (earliest_le t' ht')

/-! ## Powers -/

theorem decay_pos (table : ParameterTable ℝ) (spread delay shadow : ℝ) :
    0 < decay table spread delay shadow :=
  mul_pos (Real.exp_pos _) (Real.rpow_pos_of_pos (by norm_num [tenTo_eq]) _)

theorem normalize_pos {powers : List ℝ} (h : ∀ p ∈ powers, 0 < p) : ∀ p ∈ normalize powers, 0 < p := by
  intro p hp
  obtain ⟨q, hq, rfl⟩ := List.mem_map.mp hp
  have hsum : 0 < powers.sum := List.sum_pos powers h (List.ne_nil_of_mem hq)
  rw [sum_eq]
  exact div_pos (h q hq) hsum

theorem sum_normalize {powers : List ℝ} (h : ∀ p ∈ powers, 0 < p) (hne : powers ≠ []) :
    (normalize powers).sum = 1 := by
  have hsum : 0 < powers.sum := List.sum_pos powers h hne
  rw [normalize, sum_eq]
  simp only [div_eq_mul_inv]
  rw [List.sum_map_mul_right, List.map_id', mul_inv_cancel₀ hsum.ne']

theorem drawPowers_pos (table : ParameterTable ℝ) (spread : ℝ) (delays : List ℝ)
    (s : RandomSource ℝ) : ∀ p ∈ ((drawPowers table spread delays).run s).1, 0 < p := by
  rw [drawPowers, run_draw_bind, run_draw_pure]
  exact normalize_pos (forall_mem_mapM_run (fun delay t => decay_pos _ _ _ _) delays s)

theorem sum_drawPowers (table : ParameterTable ℝ) (spread : ℝ) {delays : List ℝ} (hne : delays ≠ [])
    (s : RandomSource ℝ) : ((drawPowers table spread delays).run s).1.sum = 1 := by
  rw [drawPowers, run_draw_bind, run_draw_pure]
  refine sum_normalize (forall_mem_mapM_run (fun delay t => decay_pos _ _ _ _) delays s) ?_
  rw [← List.length_pos_iff, length_mapM_run]
  exact List.length_pos_iff.mpr hne

/-- The power of each cluster with the direct ray counted, which is `k` times as strong as all scattered
power and comes with the first cluster. -/
noncomputable def angleShare (los : Bool) (k : ℝ) {count : ℕ} (power : Fin count → ℝ)
    (n : Fin count) : ℝ :=
  if los then power n / (1 + k) + (if n.val = 0 then k / (1 + k) else 0) else power n

theorem angleShare_pos (los : Bool) {k : ℝ} (hk : 0 < k) {count : ℕ} {power : Fin count → ℝ}
    (hpower : ∀ n, 0 < power n) (n : Fin count) : 0 < angleShare los k power n := by
  have hscattered := hpower n
  unfold angleShare
  split_ifs <;> positivity

theorem blend_ofFn (k : ℝ) {count : ℕ} (power : Fin count → ℝ) :
    blend k (List.ofFn power) = List.ofFn (angleShare true k power) := by
  cases count with
  | zero => rfl
  | succ count => simp [blend, List.ofFn_succ, angleShare, Function.comp_def]

/-- The tap of the `n`-th cluster. -/
noncomputable def tapOf (los : Bool) (k : ℝ) {count : ℕ} (delay power : Fin count → ℝ)
    (n : Fin count) : Tap ℝ :=
  ⟨delay n, power n, angleShare los k power n⟩

theorem assemble_ofFn (los : Bool) (k : ℝ) {count : ℕ} (delay power : Fin count → ℝ) :
    assemble los k (List.ofFn delay) (List.ofFn power) =
      (List.finRange count).map (tapOf los k delay power) := by
  have hangles : (if los then blend k (List.ofFn power) else List.ofFn power) =
      List.ofFn (angleShare los k power) := by
    cases los with
    | false => rfl
    | true => exact blend_ofFn k power
  rw [assemble, hangles]
  exact List.ext_getElem (by simp) fun n _ _ => by simp [tapOf]

/-! ## Pruning -/

/-- The greatest power is that of a cluster, and none is greater. -/
theorem isGreatest_greatest {taps : List (Tap ℝ)} (hne : taps ≠ [])
    (hpos : ∀ t ∈ taps, 0 < t.anglePower) :
    IsGreatest {p | ∃ t ∈ taps, t.anglePower = p} (greatest taps) := by
  have hlarger : ∀ (m : ℝ) (t : Tap ℝ), m ≤ Scalar.larger m t.anglePower ∧
      t.anglePower ≤ Scalar.larger m t.anglePower := fun m t => by
    rw [larger_eq]
    exact ⟨le_max_left _ _, le_max_right _ _⟩
  have hupper : ∀ t ∈ taps, t.anglePower ≤ greatest taps := (le_foldl hlarger taps _).2
  refine ⟨?_, fun p ⟨t, ht, hp⟩ => hp ▸ hupper t ht⟩
  rcases greatest_mem taps with hzero | ⟨t, ht, hgreatest⟩
  · obtain ⟨t, ht⟩ := List.exists_mem_of_ne_nil taps hne
    have hle := hupper t ht
    rw [hzero, zero_eq] at hle
    exact absurd hle (hpos t ht).not_ge
  · exact ⟨t, ht, hgreatest.symm⟩

/-- The clusters of a draw before weak ones are dropped. Delays ascend from zero, and the powers are
positive and add up to one. -/
structure Starts (table : ParameterTable ℝ) (scale : LargeScale ℝ) (s : RandomSource ℝ)
    (delay power : Fin table.clusters → ℝ) : Prop where
  delays : ((drawDelays table scale.delaySpread).run s).1 = List.ofFn delay
  powers : ((drawPowers table scale.delaySpread (List.ofFn delay)).run
    ((drawDelays table scale.delaySpread).run s).2).1 = List.ofFn power
  ascending : Monotone delay
  nonneg : ∀ n, 0 ≤ delay n
  pos : ∀ n, 0 < power n
  total : 0 < table.clusters → ∑ n, power n = 1

theorem exists_starts (table : ParameterTable ℝ) (scale : LargeScale ℝ) (s : RandomSource ℝ) :
    ∃ delay power, Starts table scale s delay power := by
  obtain ⟨delay, hdelay⟩ := exists_ofFn (length_drawDelays table scale.delaySpread s)
  have hlength := length_drawPowers table scale.delaySpread (List.ofFn delay)
    ((drawDelays table scale.delaySpread).run s).2
  rw [List.length_ofFn] at hlength
  obtain ⟨power, hpower⟩ := exists_ofFn hlength
  -- the drawn delays are aligned ones
  have hsorted : (List.ofFn delay).Pairwise (· ≤ ·) := hdelay ▸ pairwise_align _
  have hnonneg : ∀ t ∈ List.ofFn delay, 0 ≤ t := hdelay ▸ align_nonneg
  have hpos : ∀ p ∈ List.ofFn power, 0 < p := hpower ▸ drawPowers_pos _ _ _ _
  refine ⟨delay, power, hdelay, hpower, ?_, fun n => hnonneg _ (List.mem_ofFn.mpr ⟨n, rfl⟩),
    fun n => hpos _ (List.mem_ofFn.mpr ⟨n, rfl⟩), fun hclusters => ?_⟩
  · exact List.sortedLE_ofFn_iff.mp hsorted.sortedLE
  · rw [← List.sum_ofFn, ← hpower]
    refine sum_drawPowers table _ ?_ _
    rwa [← List.length_pos_iff, List.length_ofFn]

variable {table : ParameterTable ℝ} {scale : LargeScale ℝ} {s : RandomSource ℝ}
  {delay power : Fin table.clusters → ℝ}

theorem Starts.candidates_eq (h : Starts table scale s delay power) (los : Bool) :
    ((candidates table los scale).run s).1 =
      (List.finRange table.clusters).map (tapOf los scale.ricean delay power) := by
  rw [candidates, run_draw_bind, run_draw_bind, run_draw_pure, h.delays, h.powers, assemble_ofFn]

/-- The places of the clusters that are strong enough beside the given power. -/
noncomputable def strongPlaces (los : Bool) (k peak : ℝ) {count : ℕ} (power : Fin count → ℝ) :
    List (Fin count) :=
  (List.finRange count).filter fun n => decide (0.0032 * peak ≤ angleShare los k power n)

theorem prune_map (los : Bool) (k : ℝ) {count : ℕ} (delay power : Fin count → ℝ) :
    prune ((List.finRange count).map (tapOf los k delay power)) =
      (strongPlaces los k (greatest ((List.finRange count).map (tapOf los k delay power))) power).map
        (tapOf los k delay power) := by
  have hthreshold : (pruneThreshold : ℝ) = 0.0032 := by
    rw [threshold_eq]
    norm_num
  rw [prune, List.filter_map, hthreshold]
  rfl

/-- The tap of the `n`-th cluster once it is kept: with line of sight its delay is shortened. -/
noncomputable def keptTap (los : Bool) (scale : LargeScale ℝ) {count : ℕ} (delay power : Fin count → ℝ)
    (n : Fin count) : Tap ℝ where
  delay := if los then delay n / delayDivisor scale.riceanDb else delay n
  power := power n
  anglePower := angleShare los scale.ricean power n

theorem rescale_map (los : Bool) (scale : LargeScale ℝ) {count : ℕ} (delay power : Fin count → ℝ)
    (places : List (Fin count)) :
    rescale los scale.riceanDb (places.map (tapOf los scale.ricean delay power)) =
      places.map (keptTap los scale delay power) := by
  cases los with
  | false => rfl
  | true => simp [rescale, tapOf, keptTap]

namespace Starts

theorem isGreatest_peak (h : Starts table scale s delay power) (los : Bool)
    (hclusters : 0 < table.clusters) :
    IsGreatest (Set.range (angleShare los scale.ricean power))
      ((draw table los scale).run s).1.peak := by
  have hricean : 0 < scale.ricean := Real.rpow_pos_of_pos (by norm_num) _
  have hne : (List.finRange table.clusters).map (tapOf los scale.ricean delay power) ≠ [] := by
    simpa using hclusters.ne'
  have hgreatest := isGreatest_greatest hne
    (List.forall_mem_map.mpr fun n _ => angleShare_pos los hricean h.pos n)
  rw [draw_eq, run_draw_bind, run_draw_pure, h.candidates_eq]
  refine Eq.subst (motive := fun powers => IsGreatest powers _) (Set.ext fun p => ?_) hgreatest
  simp [tapOf]

theorem taps_draw (h : Starts table scale s delay power) (los : Bool) :
    ((draw table los scale).run s).1.taps =
      (strongPlaces los scale.ricean ((draw table los scale).run s).1.peak power).map
        (keptTap los scale delay power) := by
  rw [draw_eq, run_draw_bind, run_draw_pure, h.candidates_eq, prune_map, rescale_map]

theorem monotone_keptTap (h : Starts table scale s delay power) {los : Bool}
    (hdivisor : los = true → 0 < delayDivisor scale.riceanDb) :
    Monotone fun n => (keptTap los scale delay power n).delay := by
  intro n n' hn
  cases los with
  | false => exact h.ascending hn
  | true => exact div_le_div_of_nonneg_right (h.ascending hn) (hdivisor rfl).le

theorem keptTap_nonneg (h : Starts table scale s delay power) {los : Bool}
    (hdivisor : los = true → 0 < delayDivisor scale.riceanDb) (n : Fin table.clusters) :
    0 ≤ (keptTap los scale delay power n).delay := by
  cases los with
  | false => exact h.nonneg n
  | true => exact div_nonneg (h.nonneg n) (hdivisor rfl).le

/-- The powers of some of the clusters add up to one at most. -/
theorem sum_powers_le (h : Starts table scale s delay power) (los : Bool)
    {places : List (Fin table.clusters)} (hplaces : places.Sublist (List.finRange table.clusters)) :
    ((places.map (keptTap los scale delay power)).map Tap.power).sum ≤ 1 := by
  have hall : ((List.finRange table.clusters).map power).sum ≤ 1 := by
    rw [← List.ofFn_eq_map, List.sum_ofFn]
    rcases Nat.eq_zero_or_pos table.clusters with hnone | hclusters
    · have hempty : IsEmpty (Fin table.clusters) := hnone ▸ Fin.isEmpty
      rw [Fintype.sum_empty]
      exact zero_le_one
    · exact (h.total hclusters).le
  rw [List.map_map]
  refine le_trans ((hplaces.map power).sum_le_sum fun p hp => ?_) hall
  obtain ⟨n, -, rfl⟩ := List.mem_map.mp hp
  exact (h.pos n).le

end Starts

/-- What is kept of clusters with the given delays and powers. These are the clusters that have at least
0.0032 times the power of the strongest one, in order, each with its own delay and powers. -/
structure Keeps {table : ParameterTable ℝ} (los : Bool) (scale : LargeScale ℝ)
    (delay power : Fin table.clusters → ℝ) (profile : Profile ℝ) : Prop where
  peak : 0 < table.clusters →
    IsGreatest (Set.range (angleShare los scale.ricean power)) profile.peak
  taps : profile.taps = ((List.finRange table.clusters).filter fun n =>
    decide (0.0032 * profile.peak ≤ angleShare los scale.ricean power n)).map fun n =>
      ⟨if los then delay n / delayDivisor scale.riceanDb else delay n, power n,
        angleShare los scale.ricean power n⟩
  ne_nil : 0 < table.clusters → profile.taps ≠ []
  delays : (los = true → 0 < delayDivisor scale.riceanDb) →
    (profile.taps.map Tap.delay).Pairwise (· ≤ ·) ∧ ∀ t ∈ profile.taps, 0 ≤ t.delay
  powers : (∀ t ∈ profile.taps, 0 < t.power) ∧ (profile.taps.map Tap.power).sum ≤ 1

theorem Starts.keeps (h : Starts table scale s delay power) (los : Bool) :
    Keeps los scale delay power ((draw table los scale).run s).1 := by
  have htaps := h.taps_draw los
  have hplaces : (strongPlaces los scale.ricean ((draw table los scale).run s).1.peak power).Sublist
      (List.finRange table.clusters) := List.filter_sublist
  refine ⟨h.isGreatest_peak los, htaps, fun hclusters => ?_, fun hdivisor => ⟨?_, ?_⟩, ?_, ?_⟩
  · exact taps_draw_ne_nil hclusters.ne' fun _ _ => beq_iff.mpr rfl
  · rw [htaps, List.map_map, List.pairwise_map]
    exact ((List.pairwise_lt_finRange _).sublist hplaces).imp fun hn =>
      h.monotone_keptTap hdivisor hn.le
  · rw [htaps]
    exact List.forall_mem_map.mpr fun n _ => h.keptTap_nonneg hdivisor n
  · rw [htaps]
    exact List.forall_mem_map.mpr fun n _ => h.pos n
  · rw [htaps]
    exact h.sum_powers_le los hplaces

end Profile

/-! ## Kept clusters of a realization -/

open Profile

/-- There are clusters in every table. -/
theorem ParameterTable.clusters_pos {scenario : Scenario} {link : LinkState ℝ}
    {table : ParameterTable ℝ} (h : lookup scenario link = .ok table) : 0 < table.clusters := by
  have hclusters := (supports_of_lookup h).clusters
  exact Nat.pos_of_ne_zero fun hzero => by simp [hzero] at hclusters

/-- Each tap of a drawn profile has some power. -/
theorem Drawn.power_pos {c : RealizationContext ℝ} {m : Realization ℝ} {scale : LargeScale ℝ}
    {profile : Profile ℝ} {unwrapped : List (Directions ℝ)} {losses : List ℝ}
    (h : Drawn c m scale profile unwrapped losses) : ∀ tap ∈ profile.taps, 0 < tap.power := by
  obtain ⟨s, hs⟩ := h.profile_eq
  obtain ⟨delay, power, hstarts⟩ := Profile.exists_starts c.table scale s
  exact hs ▸ (hstarts.keeps c.condition.los).powers.1

/-- A profile keeps the clusters that are strong enough beside the strongest one, each with its own
delay and powers, in order. A drawn realization has these clusters: their delays and directions are its
first ones, the directions are drawn from their powers, and their powers are what blockage takes from. -/
theorem Profile.draw_keeps_strong :
    (∀ (table : ParameterTable ℝ) (los : Bool) (scale : LargeScale ℝ) (s : RandomSource ℝ),
      ∃ delay power, Starts table scale s delay power ∧
        Keeps los scale delay power ((draw table los scale).run s).1) ∧
    (∀ (scenario : Scenario) (link : LinkState ℝ) (table : ParameterTable ℝ),
      ParameterTable.lookup scenario link = .ok table → 0 < table.clusters) ∧
    ∀ (c : RealizationContext ℝ) (m : Realization ℝ) (source source' : RandomSource ℝ),
      c.draw.run source = (.ok m, source') →
      ∃ scale s, let profile := ((draw c.table c.condition.los scale).run s).1
        m.riceanDb = scale.riceanDb ∧ m.keptClusters = profile.taps.length ∧
        m.delays.take m.keptClusters = profile.taps.map Tap.delay ∧
        (∃ unwrapped s s', (Directions.draw c.table c.condition.los c.condition.o2i c.geometry scale
            profile).run s = (.ok unwrapped, s') ∧
          m.directions.take m.keptClusters = unwrapped.map Directions.wrap) ∧
        ∀ (n : ℕ) (p : ℝ), m.powers[n]? = some p → ∃ (tap : Tap ℝ) (d : Directions ℝ),
          profile.taps[n]? = some tap ∧ m.directions[n]? = some d ∧
            p = tap.power / 10 ^ (c.lossToward m d / 10) := by
  refine ⟨fun table los scale s => ?_, fun _ _ _ => ParameterTable.clusters_pos,
    fun c m source source' hdraw => ?_⟩
  · obtain ⟨delay, power, h⟩ := exists_starts table scale s
    exact ⟨delay, power, h, h.keeps los⟩
  · obtain ⟨scale, profile, unwrapped, losses, h⟩ := RealizationContext.drawn_of_draw hdraw
    obtain ⟨s, rfl⟩ := h.profile_eq
    obtain ⟨s₁, s₂, hunwrapped⟩ := h.unwrapped_eq
    obtain ⟨delays, hdelays⟩ := RealizationContext.append_of_withSubClusters h.delays_eq
    obtain ⟨directions, hdirections⟩ := RealizationContext.append_of_withSubClusters h.directions_eq
    have hkept : (unwrapped.map Directions.wrap).length = m.keptClusters := by
      rw [List.length_map, h.length_unwrapped, Realization.keptClusters, h.length_powers]
    refine ⟨scale, s, h.riceanDb, h.length_powers, ?_, ⟨unwrapped, s₁, s₂, hunwrapped, ?_⟩,
      fun n p hp => h.power_eq hp⟩
    · rw [hdelays, Realization.keptClusters, h.length_powers, List.take_left' (List.length_map _)]
    · rw [hdirections, List.take_left' hkept]

/-- In the country and with a Ricean factor of zero decibels, clusters are kept and shortening leaves
their delays in order. A car's link to a mast has delays of such clusters, with a factor of its own. -/
theorem Profile.draw_keeps_strong_country :
    let table : ParameterTable ℝ := .ruralMacro true 40
    let scale : LargeScale ℝ := ⟨0, 1, 1, 1, 1, 1⟩
    let taps := ((draw table true scale).run (.ofSeed 1)).1.taps
    (∃ power : Fin table.clusters → ℝ, ∑ n, power n = 1 ∧
      IsGreatest (Set.range (angleShare true scale.ricean power))
        ((draw table true scale).run (.ofSeed 1)).1.peak) ∧
    taps ≠ [] ∧ (taps.map Tap.delay).Pairwise (· ≤ ·) ∧ (∀ t ∈ taps, 0 ≤ t.delay ∧ 0 < t.power) ∧
    ∃ m source scale s, RealizationContext.country.draw.run (.ofSeed 1) = (.ok m, source) ∧
      m.delays.take m.keptClusters = ((draw table true scale).run s).1.taps.map Tap.delay := by
  intro table scale taps
  obtain ⟨hkeeps, hclusters, hdrawn⟩ := draw_keeps_strong
  have htable : 0 < table.clusters :=
    hclusters .ruralMacro ⟨true, false, 25, 1, 40, 28000000000⟩ table rfl
  have hdivisor : 0 < delayDivisor scale.riceanDb := by
    simp only [delayDivisor, Scalar.square, Scalar.cube, scale, mul_zero, sub_zero, add_zero]
    change 0 < (7705 : ℕ) * (10 : ℝ) ^ (-(4 : ℕ) : ℤ)
    positivity
  obtain ⟨delay, power, hstarts, hkept⟩ := hkeeps table true scale (.ofSeed 1)
  obtain ⟨m, source, hdraw⟩ := RealizationContext.draw_ok (c := .country) (s := .ofSeed 1)
    (ParameterTable.supports_ruralMacro true 40) fun _ _ _ _ _ => beq_iff.mpr rfl
  obtain ⟨scale', s, -, -, hdelays, -⟩ := hdrawn .country m _ _ hdraw
  obtain ⟨hascending, hnonneg⟩ := hkept.delays fun _ => hdivisor
  exact ⟨⟨power, hstarts.total htable, hkept.peak htable⟩, hkept.ne_nil htable, hascending,
    fun t ht => ⟨hnonneg t ht, hkept.powers.1 t ht⟩, m, source, scale', s, hdraw, hdelays⟩

end RadioChannel
