import RadioChannel.Proofs.Breaches

/-!
# Where sub-clusters stand

The two strongest clusters of a realization are split, and each leaves two sub-clusters behind all
other clusters. Their coefficients are collected while the clusters are gone through, their delays and
directions are appended afterwards, cluster by cluster. Both orders are that of the split clusters: in
every list the same places belong to the same sub-cluster.
-/

namespace RadioChannel

open Scalar

variable {R : Type}

/-! ## Entries at chosen places -/

/-- Lists of one length, put one after the other, are read block by block. -/
theorem getElem?_flatMap_of_length {α β : Type} {f : α → List β} {k : Nat}
    (hf : ∀ x, (f x).length = k) (xs : List α) (j : Nat) {i : Nat} (hi : i < k) :
    (xs.flatMap f)[k * j + i]? = xs[j]?.bind fun x => (f x)[i]? := by
  induction xs generalizing j with
  | nil => rfl
  | cons x xs ih =>
    cases j with
    | zero =>
      rw [List.flatMap_cons, Nat.mul_zero, Nat.zero_add, List.getElem?_append_left (by rwa [hf])]
      rfl
    | succ j =>
      have hlater : k * (j + 1) + i = (f x).length + (k * j + i) := by
        rw [hf, Nat.mul_succ]
        omega
      rw [List.flatMap_cons, hlater, List.getElem?_append_right (Nat.le_add_right _ _),
        Nat.add_sub_cancel_left, ih]
      rfl

/-- What a filter keeps are the entries at the places it accepts, where these are in order. -/
theorem map_getElem?_eq_filter {α : Type} {p : α → Bool} {xs : List α} {places : List Nat}
    (hsorted : places.Pairwise (· < ·)) (hbelow : ∀ n ∈ places, n < xs.length)
    (hplaces : ∀ n x, xs[n]? = some x → (p x = true ↔ n ∈ places)) :
    places.map (xs[·]?) = (xs.filter p).map some := by
  have hxs : (List.range xs.length).map (xs[·]?) = xs.map some := by
    refine List.ext_getElem (by simp) fun n hn _ => ?_
    simp
  have hkept : (List.range xs.length).filter (fun n => xs[n]?.any p) = places := by
    refine List.Perm.eq_of_pairwise (fun a b _ _ (hab : a < b) (hba : b < a) => ?_)
      (List.pairwise_lt_range.filter _) hsorted ?_
    · omega
    refine (List.perm_ext_iff_of_nodup (List.nodup_range.filter _)
      (hsorted.imp fun h => Nat.ne_of_lt h)).mpr fun n => ?_
    rw [List.mem_filter, List.mem_range]
    constructor
    · rintro ⟨hn, hany⟩
      rw [List.getElem?_eq_getElem hn] at hany
      exact (hplaces n _ (List.getElem?_eq_getElem hn)).mp hany
    · intro hn
      have hx := List.getElem?_eq_getElem (hbelow n hn)
      exact ⟨hbelow n hn, by rw [hx]; exact (hplaces n _ hx).mpr hn⟩
  have hsome : (xs.map some).filter (fun x => x.any p) = (xs.filter p).map some := by
    rw [List.filter_map]
    rfl
  rw [← hsome, ← hxs, List.filter_map, ← hkept]
  rfl

namespace RealizationContext

/-- The entries of all clusters keep their places. -/
theorem append_of_withSubClusters {α : Type} {split : List Nat} {f : α → List α} {xs ys : List α}
    (h : withSubClusters split f xs = (.ok ys : Except (Fault R) _)) : ∃ zs, ys = xs ++ zs := by
  rw [withSubClusters, except_bind_ok] at h
  obtain ⟨sources, -, h⟩ := h
  exact ⟨_, (Except.ok.inj h).symm⟩

/-- The entries that are appended for the split clusters, each beside its cluster's own entry. -/
theorem getElem?_withSubClusters {α : Type} {split : List Nat} {f : α → List α}
    (hf : ∀ x, (f x).length = 2) {xs ys : List α}
    (h : withSubClusters split f xs = (.ok ys : Except (Fault R) _)) {j n : Nat}
    (hn : split[j]? = some n) :
    ∃ x, xs[n]? = some x ∧ ys[n]? = some x ∧
      ∀ i < 2, ys[xs.length + 2 * j + i]? = (f x)[i]? := by
  rw [withSubClusters, except_bind_ok] at h
  obtain ⟨sources, hsources, h⟩ := h
  obtain rfl := Except.ok.inj h
  obtain ⟨x, hx, hentry⟩ := exists_of_forall₂ (except_mapM_ok.mp hsources) hn
  have hxs : xs[n]? = some x := entryAt_ok.mp hentry
  have hlt : n < xs.length := (List.getElem?_eq_some_iff.mp hxs).1
  refine ⟨x, hxs, by rw [List.getElem?_append_left hlt, hxs], fun i hi => ?_⟩
  rw [Nat.add_assoc, List.getElem?_append_right (Nat.le_add_right _ _), Nat.add_sub_cancel_left,
    getElem?_flatMap_of_length hf sources j hi, hx]
  rfl

end RealizationContext

variable [Scalar R]

/-! ## The strongest clusters -/

/-- The stronger of the best cluster so far and the next one, if that is not skipped. -/
def stronger (skip : Nat → Bool) (best : Nat × R) (next : R × Nat) : Nat × R :=
  if !skip next.2 && lt best.2 next.1 then (next.2, next.1) else best

theorem strongestOf_eq (powers : List R) (skip : Nat → Bool) :
    strongestOf powers skip = (powers.zipIdx.foldl (stronger skip) (0, 0)).1 := rfl

/-- The strongest cluster is not a skipped one, unless no other has a positive power. -/
theorem strongestOf_cases (powers : List R) (skip : Nat → Bool) :
    (∀ n p, powers[n]? = some p → skip n = false → lt 0 p = false) ∨
      skip (strongestOf powers skip) = false := by
  suffices hfold : ∀ pairs : List (R × Nat),
      (∀ q ∈ pairs, skip q.2 = false → lt 0 q.1 = false) ∧
        pairs.foldl (stronger skip) (0, 0) = (0, 0) ∨
      skip (pairs.foldl (stronger skip) (0, 0)).1 = false by
    rw [strongestOf_eq]
    refine (hfold powers.zipIdx).imp_left fun ⟨hnone, _⟩ n p hp => ?_
    exact hnone (p, n) (List.mk_mem_zipIdx_iff_getElem?.mpr hp)
  intro pairs
  induction pairs using List.reverseRecOn with
  | nil => exact Or.inl ⟨by simp, rfl⟩
  | append_singleton pairs q ih =>
    rw [List.foldl_append, List.foldl_cons, List.foldl_nil, stronger]
    split
    · next htaken =>
      rw [Bool.and_eq_true, Bool.not_eq_true'] at htaken
      exact Or.inr htaken.1
    · next hleft =>
      refine ih.imp_left fun ⟨hnone, hzero⟩ => ⟨fun r hr hskip => ?_, hzero⟩
      rcases List.mem_append.mp hr with hr | hr
      · exact hnone r hr hskip
      · obtain rfl := List.mem_singleton.mp hr
        rw [hzero, hskip] at hleft
        simpa using hleft

/-- No power that was looked at is greater than that of the strongest cluster, if there is a positive
one. -/
theorem strongestOf_unbeaten (hirrefl : ∀ x : R, lt x x = false)
    (htrans : ∀ x y z : R, lt x y = true → lt y z = true → lt x z = true) {powers : List R}
    (skip : Nat → Bool) {n : Nat} {p : R} (hp : powers[n]? = some p) (hskip : skip n = false)
    (hpos : lt 0 p = true) :
    ∃ q, powers[strongestOf powers skip]? = some q ∧ lt q p = false := by
  suffices hfold : ∀ pairs : List (R × Nat), ∀ best, best = pairs.foldl (stronger skip) (0, 0) →
      (best = (0, 0) ∨ (best.2, best.1) ∈ pairs) ∧
        ∀ q ∈ pairs, skip q.2 = false → lt best.2 q.1 = false by
    obtain ⟨hfound, hunbeaten⟩ := hfold powers.zipIdx _ rfl
    have hle := hunbeaten (p, n) (List.mk_mem_zipIdx_iff_getElem?.mpr hp) hskip
    rcases hfound with hzero | hmem
    · rw [hzero, hpos] at hle
      cases hle
    · exact ⟨_, List.mk_mem_zipIdx_iff_getElem?.mp hmem, hle⟩
  intro pairs
  induction pairs using List.reverseRecOn with
  | nil =>
    rintro _ rfl
    exact ⟨Or.inl rfl, by simp⟩
  | append_singleton pairs q ih =>
    obtain ⟨hfound, hunbeaten⟩ := ih _ rfl
    rintro best rfl
    rw [List.foldl_append, List.foldl_cons, List.foldl_nil, stronger]
    split
    · next htaken =>
      rw [Bool.and_eq_true] at htaken
      refine ⟨Or.inr (by simp), fun r hr hr_skip => ?_⟩
      rcases List.mem_append.mp hr with hr | hr
      · -- who beats the new one would have beaten the old one
        by_contra hbeaten
        have hlonger := htrans _ _ _ htaken.2 (by simpa using hbeaten)
        rw [hunbeaten r hr hr_skip] at hlonger
        cases hlonger
      · obtain rfl := List.mem_singleton.mp hr
        exact hirrefl _
    · next hleft =>
      refine ⟨hfound.imp_right fun hmem => List.mem_append_left _ hmem, fun r hr hr_skip => ?_⟩
      rcases List.mem_append.mp hr with hr | hr
      · exact hunbeaten r hr hr_skip
      · obtain rfl := List.mem_singleton.mp hr
        rw [hr_skip] at hleft
        simpa using hleft

theorem mem_splitClusters {powers : List R} {n : Nat} :
    n ∈ splitClusters powers ↔ n = (strongestTwo powers).1 ∨ n = (strongestTwo powers).2 := by
  simp only [splitClusters]
  grind

theorem sorted_splitClusters (powers : List R) : (splitClusters powers).Pairwise (· < ·) := by
  simp only [splitClusters]
  split
  · exact List.pairwise_singleton _ _
  · rename_i hne
    simp only [List.pairwise_cons, List.mem_singleton, forall_eq, List.not_mem_nil,
      false_implies, implies_true, List.Pairwise.nil, and_true]
    omega

/-- Two clusters are split where two powers are positive. -/
theorem length_splitClusters_two {powers : List R} {i j : Nat} {p q : R} (hij : i ≠ j)
    (hp : powers[i]? = some p) (hq : powers[j]? = some q) (hp_pos : lt 0 p = true)
    (hq_pos : lt 0 q = true) : (splitClusters powers).length = 2 := by
  have hne : (strongestTwo powers).1 ≠ (strongestTwo powers).2 := by
    rcases strongestOf_cases powers (· == (strongestTwo powers).1) with hnone | hsecond
    · -- one of both clusters is not the strongest one
      by_cases hi : i = (strongestTwo powers).1
      · have hj := hnone j q hq (by simp; omega)
        rw [hq_pos] at hj
        cases hj
      · have hi' := hnone i p hp (by simpa using hi)
        rw [hp_pos] at hi'
        cases hi'
    · exact fun heq => beq_eq_false_iff_ne.mp hsecond heq.symm
  simp only [splitClusters, if_neg hne]
  rfl

/-- A cluster that stands alone is the only one to be split. -/
theorem length_splitClusters_one {powers : List R} (h : powers.length = 1) :
    (splitClusters powers).length = 1 := by
  have hne : powers ≠ [] := List.ne_nil_of_length_pos (by omega)
  have hfirst := strongestOf_lt hne fun _ => false
  have hsecond := strongestOf_lt hne (· == strongestOf powers fun _ => false)
  have heq : (strongestTwo powers).1 = (strongestTwo powers).2 := by
    simp only [strongestTwo]
    omega
  simp only [splitClusters, if_pos heq]
  rfl

/-- Of both places that were found, the first has a power that no positive one exceeds, and the second
one that no positive one at another place than the first exceeds. -/
structure Foremost (powers : List R) (first second : Nat) : Prop where
  first_unbeaten : ∀ (n : Nat) (p : R), powers[n]? = some p → lt 0 p = true →
    ∃ q, powers[first]? = some q ∧ lt q p = false
  second_unbeaten : ∀ (n : Nat) (p : R), n ≠ first → powers[n]? = some p → lt 0 p = true →
    second ≠ first ∧ ∃ q, powers[second]? = some q ∧ lt q p = false

theorem foremost_strongestTwo (hirrefl : ∀ x : R, lt x x = false)
    (htrans : ∀ x y z : R, lt x y = true → lt y z = true → lt x z = true) (powers : List R) :
    Foremost powers (strongestTwo powers).1 (strongestTwo powers).2 where
  first_unbeaten n p hp hpos :=
    strongestOf_unbeaten hirrefl htrans (fun _ => false) hp rfl hpos
  second_unbeaten n p hn hp hpos := by
    have hskip : (n == (strongestTwo powers).1) = false := beq_eq_false_iff_ne.mpr hn
    refine ⟨?_, strongestOf_unbeaten hirrefl htrans (· == (strongestTwo powers).1) hp hskip hpos⟩
    rcases strongestOf_cases powers (· == (strongestTwo powers).1) with hnone | hsecond
    · rw [hnone n p hp hskip] at hpos
      cases hpos
    · exact beq_eq_false_iff_ne.mp hsecond

/-! ## Coefficients -/

namespace RayCluster

/-- The coefficients of the two sub-clusters that a cluster leaves behind when it is split. -/
def behind (k : RayCluster R) (u s : Vec3 R) : List (Phasor R) :=
  [(Ray.total k.second u s).scale k.amplitude, (Ray.total k.third u s).scale k.amplitude]

theorem flatMap_appended (clusters : List (RayCluster R)) (u s : Vec3 R) :
    clusters.flatMap (·.appended u s) = (clusters.filter (·.split)).flatMap (·.behind u s) := by
  induction clusters with
  | nil => rfl
  | cons k clusters ih =>
    rw [List.flatMap_cons, ih, List.filter_cons, appended]
    cases k.split <;> rfl

end RayCluster

namespace Tensor

/-- Behind the coefficients of all clusters stand those of the sub-clusters, a pair for each split
cluster. -/
theorem getElem?_cell {clusters : List (RayCluster R)} {places : List Nat}
    (hsorted : places.Pairwise (· < ·)) (hbelow : ∀ n ∈ places, n < clusters.length)
    (hsplit : ∀ n k, clusters[n]? = some k → (k.split = true ↔ n ∈ places)) {j n : Nat}
    {k : RayCluster R} (hn : places[j]? = some n) (hk : clusters[n]? = some k) (u s : Vec3 R) :
    (cell clusters u s)[clusters.length + 2 * j]? = (k.behind u s)[0]? ∧
      (cell clusters u s)[clusters.length + 2 * j + 1]? = (k.behind u s)[1]? := by
  have hkept : (clusters.filter (·.split))[j]? = some k := by
    have hplaces := congrArg (·[j]?) (map_getElem?_eq_filter hsorted hbelow hsplit)
    simpa [hn, hk] using hplaces.symm
  have hbehind : ∀ i < 2, (cell clusters u s)[clusters.length + 2 * j + i]? =
      (k.behind u s)[i]? := by
    intro i hi
    rw [cell, Nat.add_assoc, List.getElem?_append_right (by rw [List.length_map]; omega),
      List.length_map, Nat.add_sub_cancel_left, RayCluster.flatMap_appended,
      getElem?_flatMap_of_length (k := 2) (fun _ => rfl) _ j hi, hkept]
    rfl
  exact ⟨hbehind 0 (by omega), hbehind 1 (by omega)⟩

variable {rx tx : Panel R} {r t : Nat} {u s : Vec3 R}

theorem response_ofClusters (hu : rx.elementLocations[r]? = some u)
    (hs : tx.elementLocations[t]? = some s) (clusters : List (RayCluster R)) :
    (ofClusters rx tx clusters).response r t = cell clusters u s := by
  simp [response, ofClusters, hu, hs]

theorem response_withDirectRay (hu : rx.elementLocations[r]? = some u)
    (hs : tx.elementLocations[t]? = some s) (clusters : List (RayCluster R)) (ray : DirectRay R) :
    ((ofClusters rx tx clusters).withDirectRay rx tx ray).response r t =
      ray.blend u s (cell clusters u s) := by
  simp [response, withDirectRay, ofClusters, List.getElem?_zipWith, hu, hs]

/-- The direct ray leaves all but the first cluster with their share of the power. -/
theorem getElem?_blend (ray : DirectRay R) (cell : List (Phasor R)) {i : Nat} (hi : 0 < i) :
    (ray.blend u s cell)[i]? = cell[i]?.map (·.scale ray.diffuse) := by
  cases cell with
  | nil => rfl
  | cons first rest =>
    obtain ⟨i, rfl⟩ := Nat.exists_eq_add_one_of_ne_zero hi.ne'
    simp [DirectRay.blend]

end Tensor

namespace RealizationContext

variable (c : RealizationContext R)

/-- The coefficient of one sub-cluster of cluster `n` between two elements: the sum of its rays, each
with an equal part of the cluster's power. Beside a direct ray all scattered ones are weakened. -/
def subCluster (riceanDb : R) (n : Nat) (d : Directions R) (phases : List R) (power : R) (part : Part)
    (rx tx : Vec3 R) : Phasor R :=
  let scattered := (Ray.total (RayCluster.group (c.raysOf n d phases) part) rx tx).scale
    (sqrt (power / Scalar.ofNat c.table.rays))
  if c.condition.los then scattered.scale (sqrt (1 / (tenTo (riceanDb / 10) + 1))) else scattered

theorem getElem?_rayClusters {directions : List (Directions R)} {phases : List (List R)}
    {powers : List R} {n : Nat} {d : Directions R} {row : List R} {p : R}
    (hd : directions[n]? = some d) (hrow : phases[n]? = some row) (hp : powers[n]? = some p) :
    (c.rayClusters directions phases powers)[n]? =
      some (RayCluster.ofRays (c.raysOf n d row) c.table.rays p
        ((splitClusters powers).contains n)) := by
  have hzip : (directions.zip (phases.zip powers))[n]? = some (d, row, p) := by
    rw [List.getElem?_zip_eq_some, List.getElem?_zip_eq_some]
    exact ⟨hd, hrow, hp⟩
  simp [rayClusters, hzip]

end RealizationContext

namespace Drawn

variable {c : RealizationContext R} {m : Realization R} {scale : LargeScale R}
  {profile : Profile R} {unwrapped : List (Directions R)} {losses : List R}

theorem keptClusters_le (h : Drawn c m scale profile unwrapped losses) :
    m.keptClusters ≤ c.table.clusters := by
  obtain ⟨s, hs⟩ := h.profile_eq
  rw [Realization.keptClusters, h.length_powers, ← hs]
  exact Profile.length_taps_le _ _ _ _

theorem getElem?_delays (h : Drawn c m scale profile unwrapped losses) {j n : Nat}
    (hn : (splitClusters m.powers)[j]? = some n) :
    ∃ delay, m.delays[n]? = some delay ∧
      m.delays[m.keptClusters + 2 * j]? = some (delay + 1.28 * c.table.clusterDelay) ∧
      m.delays[m.keptClusters + 2 * j + 1]? = some (delay + 2.56 * c.table.clusterDelay) := by
  obtain ⟨delay, -, hdelay, hbehind⟩ :=
    RealizationContext.getElem?_withSubClusters (fun _ => rfl) h.delays_eq hn
  rw [List.length_map, ← h.length_powers] at hbehind
  exact ⟨delay, hdelay, hbehind 0 (by omega), hbehind 1 (by omega)⟩

theorem getElem?_wrapped (h : Drawn c m scale profile unwrapped losses) {n : Nat}
    (hn : n < m.keptClusters) :
    ∃ d, m.directions[n]? = some d ∧ (unwrapped.map Directions.wrap)[n]? = some d := by
  obtain ⟨behind, hbehind⟩ := RealizationContext.append_of_withSubClusters h.directions_eq
  have hlt : n < (unwrapped.map Directions.wrap).length := by
    rwa [List.length_map, h.length_unwrapped, ← h.length_powers]
  rw [hbehind, List.getElem?_append_left hlt]
  exact ⟨_, List.getElem?_eq_getElem hlt, List.getElem?_eq_getElem hlt⟩

theorem getElem?_directions (h : Drawn c m scale profile unwrapped losses) {j n : Nat}
    (hn : (splitClusters m.powers)[j]? = some n) :
    ∃ d, unwrapped[n]? = some d ∧ m.directions[n]? = some d.wrap ∧
      m.directions[m.keptClusters + 2 * j]? = some d.wrap ∧
      m.directions[m.keptClusters + 2 * j + 1]? = some d.wrap := by
  obtain ⟨wrapped, hwrapped, hdirection, hbehind⟩ :=
    RealizationContext.getElem?_withSubClusters (fun _ => rfl) h.directions_eq hn
  rw [List.getElem?_map, Option.map_eq_some_iff] at hwrapped
  obtain ⟨d, hd, rfl⟩ := hwrapped
  rw [List.length_map, h.length_unwrapped, ← h.length_powers] at hbehind
  exact ⟨d, hd, hdirection, hbehind 0 (by omega), hbehind 1 (by omega)⟩

/-- Behind the kept clusters of each pair of elements stand the sub-clusters of the split ones. -/
theorem getElem?_response (h : Drawn c m scale profile unwrapped losses) {j n : Nat}
    (hn : (splitClusters m.powers)[j]? = some n) {d : Directions R} {row : List R} {p : R}
    (hd : unwrapped[n]? = some d) (hrow : m.phases[n]? = some row) (hp : m.powers[n]? = some p)
    {r t : Nat} {u s : Vec3 R} (hu : c.rx.elementLocations[r]? = some u)
    (hs : c.tx.elementLocations[t]? = some s) :
    (m.tensor.response r t)[m.keptClusters + 2 * j]? =
        some (c.subCluster m.riceanDb n d row p .second u s) ∧
      (m.tensor.response r t)[m.keptClusters + 2 * j + 1]? =
        some (c.subCluster m.riceanDb n d row p .third u s) := by
  have hkept : 0 < m.keptClusters := List.length_pos_iff.mpr h.powers_ne_nil
  have hlength := c.length_rayClusters (h.length_unwrapped.trans h.length_powers.symm)
    h.length_phases
  have hsplit : ∀ i k, (c.rayClusters unwrapped m.phases m.powers)[i]? = some k →
      (k.split = true ↔ i ∈ splitClusters m.powers) := by
    intro i k hk
    have hi : i < m.powers.length := hlength ▸ (List.getElem?_eq_some_iff.mp hk).1
    have hi_unwrapped : i < unwrapped.length := by rwa [h.length_unwrapped, ← h.length_powers]
    have hi_phases : i < m.phases.length := by rwa [h.length_phases]
    rw [c.getElem?_rayClusters (List.getElem?_eq_getElem hi_unwrapped)
      (List.getElem?_eq_getElem hi_phases) (List.getElem?_eq_getElem hi)] at hk
    cases hk
    exact List.contains_iff_mem
  obtain ⟨hsecond, hthird⟩ := Tensor.getElem?_cell (sorted_splitClusters m.powers)
    (by rw [hlength]; exact splitClusters_lt h.powers_ne_nil) hsplit hn
    (c.getElem?_rayClusters hd hrow hp) u s
  rw [hlength] at hsecond hthird
  rw [h.tensor_eq, RealizationContext.tensor]
  cases hlos : c.condition.los with
  | false =>
    simp only [Bool.false_eq_true, if_false, Tensor.response_ofClusters hu hs,
      RealizationContext.subCluster, hlos]
    exact ⟨hsecond, hthird⟩
  | true =>
    simp only [if_true, Tensor.response_withDirectRay hu hs, RealizationContext.subCluster, hlos]
    rw [Tensor.getElem?_blend _ _ (by omega), Tensor.getElem?_blend _ _ (by omega)]
    rw [h.riceanDb]
    exact ⟨congrArg (Option.map _) hsecond, congrArg (Option.map _) hthird⟩

end Drawn

/-! ## Drawn realizations -/

/-- The layout of a drawn realization. For every ray of every kept cluster there is a phase, for every
kept cluster a power, and every list that counts sub-clusters has two more entries for each split
cluster. These are the strongest and the second strongest one, in ascending order. The second and the
third sub-cluster of the `j`-th of them stand at the same two places in the delays, in the directions
and between any two elements. -/
theorem RealizationContext.draw_layout {c : RealizationContext R} {m : Realization R}
    {source source' : RandomSource R} (h : c.draw.run source = (.ok m, source')) :
    let split := splitClusters m.powers
    let count := m.keptClusters + 2 * split.length
    (0 < m.keptClusters ∧ m.keptClusters ≤ c.table.clusters) ∧
    (m.powers.length = m.keptClusters ∧ m.phases.length = m.keptClusters ∧
      ∀ row ∈ m.phases, row.length = c.table.rays) ∧
    (m.tensor.Shaped c.rx.elementCount c.tx.elementCount count ∧ m.delays.length = count ∧
      m.directions.length = count) ∧
    (split.Pairwise (· < ·) ∧
      ∀ n, n ∈ split ↔ n = (strongestTwo m.powers).1 ∨ n = (strongestTwo m.powers).2) ∧
    ((∀ x : R, lt x x = false) →
      (∀ x y z : R, lt x y = true → lt y z = true → lt x z = true) →
      Foremost m.powers (strongestTwo m.powers).1 (strongestTwo m.powers).2) ∧
    (∀ (i j : Nat) (p q : R), i ≠ j → m.powers[i]? = some p → m.powers[j]? = some q → lt 0 p = true →
      lt 0 q = true → split.length = 2) ∧
    (m.keptClusters = 1 → split.length = 1) ∧
    ∀ (j n : Nat), split[j]? = some n → ∃ (delay : R) (d : Directions R) (row : List R) (p : R),
      (m.delays[n]? = some delay ∧ m.directions[n]? = some (Directions.wrap d) ∧
        m.phases[n]? = some row ∧ m.powers[n]? = some p) ∧
      (m.delays[m.keptClusters + 2 * j]? = some (delay + 1.28 * c.table.clusterDelay) ∧
        m.delays[m.keptClusters + 2 * j + 1]? = some (delay + 2.56 * c.table.clusterDelay)) ∧
      (m.directions[m.keptClusters + 2 * j]? = some (Directions.wrap d) ∧
        m.directions[m.keptClusters + 2 * j + 1]? = some (Directions.wrap d)) ∧
      ∀ r t u s, c.rx.elementLocations[r]? = some u → c.tx.elementLocations[t]? = some s →
        (m.tensor.response r t)[m.keptClusters + 2 * j]? =
            some (c.subCluster m.riceanDb n d row p .second u s) ∧
          (m.tensor.response r t)[m.keptClusters + 2 * j + 1]? =
            some (c.subCluster m.riceanDb n d row p .third u s) := by
  obtain ⟨scale, profile, unwrapped, losses, hdrawn⟩ := drawn_of_draw h
  have hcount : m.clusterCount = m.keptClusters + 2 * (splitClusters m.powers).length :=
    hdrawn.clusterCount_eq
  refine ⟨⟨List.length_pos_iff.mpr hdrawn.powers_ne_nil, hdrawn.keptClusters_le⟩,
    ⟨rfl, hdrawn.length_phases, hdrawn.length_of_mem_phases⟩,
    ⟨hcount ▸ hdrawn.shaped_tensor, hcount, hdrawn.length_directions.trans hcount⟩,
    ⟨sorted_splitClusters _, fun n => mem_splitClusters⟩,
    fun hirrefl htrans => foremost_strongestTwo hirrefl htrans _,
    fun i j p q => length_splitClusters_two, length_splitClusters_one, fun j n hn => ?_⟩
  obtain ⟨delay, hdelay, hdelays⟩ := hdrawn.getElem?_delays hn
  obtain ⟨d, hd, hdirection, hdirections⟩ := hdrawn.getElem?_directions hn
  have hlt : n < m.powers.length :=
    splitClusters_lt hdrawn.powers_ne_nil n (List.mem_of_getElem? hn)
  have hrow : n < m.phases.length := by rwa [hdrawn.length_phases]
  exact ⟨delay, d, m.phases[n], m.powers[n],
    ⟨hdelay, hdirection, List.getElem?_eq_getElem hrow, List.getElem?_eq_getElem hlt⟩,
    hdelays, hdirections, fun r t u s hu hs => hdrawn.getElem?_response hn hd
      (List.getElem?_eq_getElem hrow) (List.getElem?_eq_getElem hlt) hu hs⟩

/-- What a realization in the country depends on, from a mast to a car among four blockers. -/
noncomputable def RealizationContext.country : RealizationContext ℝ where
  serial := 0
  table := .ruralMacro true 40
  condition := ⟨true, false⟩
  geometry := .between ⟨0, 0, 25⟩ ⟨40, 10, 1⟩
  rx := .ofSize 2 1
  tx := .ofSize 4 1
  frequency := 28000000000
  now := 0
  blockage := some ⟨.ruralMacro, 4, .portrait, 1⟩
  previous := none

/-- Real powers are comparable, so that a draw on the table of its condition always goes through. -/
theorem RealizationContext.exists_draw {c : RealizationContext ℝ}
    (htable : c.table.Supports c.condition.los) (s : RandomSource ℝ) :
    ∃ m t, c.draw.run s = (.ok m, t) :=
  draw_ok htable fun _ _ _ _ _ => ExactScalars.beq_iff.mpr rfl

/-- A realization in the country has at most eleven clusters, and both sub-clusters of a split one come
at fixed times after it. -/
theorem RealizationContext.draw_layout_country :
    ∃ m source, country.draw.run (.ofSeed 1) = (.ok m, source) ∧ m.keptClusters ≤ 11 ∧
      m.tensor.Shaped 2 4 (m.keptClusters + 2 * (splitClusters m.powers).length) ∧
      ∀ j n, (splitClusters m.powers)[j]? = some n → ∃ delay, m.delays[n]? = some delay ∧
        m.delays[m.keptClusters + 2 * j]? = some (delay + 1.28 * 3.91e-9) ∧
        m.delays[m.keptClusters + 2 * j + 1]? = some (delay + 2.56 * 3.91e-9) := by
  obtain ⟨m, source, hdraw⟩ := draw_ok (c := country) (s := .ofSeed 1)
    (ParameterTable.supports_ruralMacro true 40) fun _ _ _ _ _ => ExactScalars.beq_iff.mpr rfl
  obtain ⟨⟨-, hkept⟩, -, ⟨hshaped, -⟩, -, -, -, -, hplaces⟩ := draw_layout hdraw
  refine ⟨m, source, hdraw, hkept, hshaped, fun j n hn => ?_⟩
  obtain ⟨delay, -, -, -, ⟨hdelay, -⟩, hdelays, -⟩ := hplaces j n hn
  exact ⟨delay, hdelay, hdelays⟩

end RadioChannel
