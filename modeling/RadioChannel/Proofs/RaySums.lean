import RadioChannel.Proofs.ExactPhasors
import RadioChannel.Proofs.Losses

/-!
# Splitting a cluster loses no ray

The coefficients of a cluster stand in its own place, and in two places behind all clusters if it is
split. Wherever they stand, they add up to all rays of the cluster, each once, with an equal share of
its power. A direct ray weakens the scattered ones alike and adds to the first cluster alone.
-/

namespace RadioChannel

open ExactScalars

/-! ## Places of a cluster -/

namespace Tensor

/-- How many columns the split ones of so many clusters have behind all clusters. -/
def columnsBehind (split : ℕ → Bool) (n : ℕ) : ℕ := 2 * (List.range n).countP split

theorem columnsBehind_succ (split : ℕ → Bool) (n : ℕ) :
    columnsBehind split (n + 1) = columnsBehind split n + if split n then 2 else 0 := by
  rw [columnsBehind, columnsBehind, List.range_succ, List.countP_append, Nat.mul_add,
    List.countP_singleton]
  split <;> rfl

/-- The two columns of a split cluster behind all clusters: they come after those of the split clusters
before it. -/
def splitColumns (split : ℕ → Bool) (kept n : ℕ) : List ℕ :=
  if split n then [kept + columnsBehind split n, kept + columnsBehind split n + 1] else []

/-- The columns that belong to cluster `n` of `kept` clusters. -/
def columnsOf (split : ℕ → Bool) (kept n : ℕ) : List ℕ := n :: splitColumns split kept n

/-- Every column belongs to one cluster. -/
theorem columnsOf_perm (split : ℕ → Bool) (kept : ℕ) :
    ((List.range kept).flatMap (columnsOf split kept)).Perm
      (List.range (kept + columnsBehind split kept)) := by
  have hbehind : ∀ n, (List.range n).flatMap (splitColumns split kept) =
      List.range' kept (columnsBehind split n) := by
    intro n
    induction n with
    | zero => rfl
    | succ n ih =>
      rw [List.range_succ, List.flatMap_append, ih, List.flatMap_singleton, columnsBehind_succ,
        splitColumns]
      split
      · rw [← List.range'_append_1]
        rfl
      · rw [List.append_nil, Nat.add_zero]
  refine (List.map_append_flatMap_perm (List.range kept) id (splitColumns split kept)).symm.trans ?_
  rw [List.map_id, hbehind, List.range_eq_range', List.range_eq_range', ← List.range'_append_1,
    Nat.zero_add]

end Tensor

/-! ## Rays as waves -/

theorem Vec3.scale_dot (a b : Vec3 ℝ) (k : ℝ) : (a.scale k).dot b = k * a.dot b := by
  simp only [scale, dot]
  ring

/-- A ray with the given directions and phase between the elements at two locations: the pattern gain,
turned by the ray's own phase and by the way to both elements. -/
noncomputable def planeWave (rx tx : Panel ℝ) (d : Directions ℝ) (phase : ℝ) (u s : Vec3 ℝ) : ℂ :=
  (rx.pattern d.zoa d.aoa * tx.pattern d.zod d.aod : ℝ) * Complex.exp (phase * Complex.I) *
    Complex.exp ((Scalar.turn * ((Vec3.direction d.zoa d.aoa).dot u +
      (Vec3.direction d.zod d.aod).dot s) : ℝ) * Complex.I)

/-- Both phases of a wave turn it together. -/
theorem planeWave_eq (rx tx : Panel ℝ) (d : Directions ℝ) (phase : ℝ) (u s : Vec3 ℝ) :
    planeWave rx tx d phase u s = (Ray.patternGain rx tx d : ℝ) * Complex.exp ((phase + 2 * Real.pi *
      ((Vec3.direction d.zoa d.aoa).dot u + (Vec3.direction d.zod d.aod).dot s) : ℝ) *
        Complex.I) := by
  rw [planeWave, mul_assoc, ← Complex.exp_add, ← add_mul, ← Complex.ofReal_add]
  rfl

theorem Ray.toComplex_between (rx tx : Panel ℝ) (d : Directions ℝ) (phase : ℝ) (u s : Vec3 ℝ) :
    ((Ray.ofDirections rx tx d phase).between u s).toComplex = planeWave rx tx d phase u s := by
  rw [between, Phasor.toComplex_mul, ofDirections, Phasor.toComplex_polar, Phasor.toComplex_polar,
    phaseAt, Vec3.scale_dot, Vec3.scale_dot, ← mul_add, one_eq, Complex.ofReal_one, one_mul, turn_eq]
  rfl

/-- The line between both ends, as the directions of a ray in radians. -/
def LinkGeometry.directions (g : LinkGeometry ℝ) : Directions ℝ :=
  ⟨g.arrival.azimuth, g.arrival.zenith, g.departure.azimuth, g.departure.zenith⟩

/-- The direct ray is such a wave, too, along the line between both ends. -/
theorem Tensor.DirectRay.toComplex_between (rx tx : Panel ℝ) (g : LinkGeometry ℝ)
    (k phase loss : ℝ) (u s : Vec3 ℝ) :
    ((DirectRay.ofGeometry rx tx g k phase loss).between u s).toComplex =
      planeWave rx tx g.directions phase u s := by
  rw [between, Phasor.toComplex_polar, planeWave_eq]
  simp only [ofGeometry, LinkGeometry.directions, Vec3.scale_dot, turn_eq, mul_add, add_assoc]

/-! ## Rays of a cluster -/

namespace RayCluster

/-- The groups of rays by their places in the cluster are a partition of it. -/
theorem sum_groups (rays : List (Ray ℝ)) (f : Ray ℝ → ℂ) :
    ((group rays .first).map f).sum + ((group rays .second).map f).sum +
      ((group rays .third).map f).sum = (rays.map f).sum := by
  suffices hpairs : ∀ pairs : List (Ray ℝ × ℕ),
      (((pairs.filter fun r => Part.ofRay r.2 = .first).map Prod.fst).map f).sum +
        (((pairs.filter fun r => Part.ofRay r.2 = .second).map Prod.fst).map f).sum +
        (((pairs.filter fun r => Part.ofRay r.2 = .third).map Prod.fst).map f).sum =
          ((pairs.map Prod.fst).map f).sum by
    have h := hpairs rays.zipIdx
    rwa [List.zipIdx_map_fst] at h
  intro pairs
  induction pairs with
  | nil => simp
  | cons r pairs ih =>
    rw [List.map_cons, List.map_cons, List.sum_cons, ← ih]
    -- the first ray is in one of the three groups
    cases hpart : Part.ofRay r.2 <;> simp [hpart] <;> ring

theorem toComplex_total (rays : List (Ray ℝ)) (u s : Vec3 ℝ) :
    (Ray.total rays u s).toComplex = (rays.map fun r => (r.between u s).toComplex).sum := by
  rw [Ray.total, Phasor.toComplex_sum, List.map_map]
  rfl

/-- The coefficients of a cluster add up to all of its rays, whether it is split or not. -/
theorem toComplex_main_add_appended (rays : List (Ray ℝ)) (count : ℕ) (power : ℝ) (split : Bool)
    (u s : Vec3 ℝ) :
    ((ofRays rays count power split).main u s).toComplex +
      (((ofRays rays count power split).appended u s).map Phasor.toComplex).sum =
        √(power / count) * (rays.map fun r => (r.between u s).toComplex).sum := by
  rw [← sum_groups, ← toComplex_total, ← toComplex_total, ← toComplex_total]
  cases split with
  | false =>
    simp only [main, appended, ofRays, Bool.false_eq_true, if_false, Phasor.toComplex_scale,
      Phasor.toComplex_add, List.map_nil, List.sum_nil, add_zero]
    rfl
  | true =>
    simp only [main, appended, ofRays, if_true, Phasor.toComplex_scale, List.map_cons, List.map_nil,
      List.sum_cons, List.sum_nil, add_zero, ← mul_add, ← add_assoc]
    rfl

end RayCluster

/-! ## Columns of a cluster -/

/-- A place that is accepted comes after the accepted places before it. -/
theorem getElem?_filter_range {p : ℕ → Bool} {n k : ℕ} (hn : n < k) (hp : p n = true) :
    ((List.range k).filter p)[(List.range n).countP p]? = some n := by
  obtain ⟨m, rfl⟩ := Nat.exists_eq_add_of_lt hn
  rw [List.range_eq_range', Nat.add_assoc, ← List.range'_append_1, List.filter_append,
    List.countP_eq_length_filter, ← List.range_eq_range',
    List.getElem?_append_right (Nat.le_refl _), Nat.sub_self, Nat.zero_add, List.range'_succ,
    List.filter_cons_of_pos hp]
  rfl

namespace Tensor

variable {clusters : List (RayCluster ℝ)} {split : ℕ → Bool} {n : ℕ} {k : RayCluster ℝ}
  {u s : Vec3 ℝ}

/-- The columns that belong to a cluster have the coefficients of its own place and of both
sub-clusters. -/
theorem sum_cell (hsplit : ∀ i k, clusters[i]? = some k → k.split = split i)
    (hk : clusters[n]? = some k) :
    ((columnsOf split clusters.length n).map (coord (cell clusters u s))).sum =
      (k.main u s).toComplex + ((k.appended u s).map Phasor.toComplex).sum := by
  have hn : n < clusters.length := (List.getElem?_eq_some_iff.mp hk).1
  have hown : coord (cell clusters u s) n = (k.main u s).toComplex := by
    rw [coord, cell, List.getElem?_append_left (by rwa [List.length_map]), List.getElem?_map, hk]
    rfl
  rw [columnsOf, List.map_cons, List.sum_cons, hown, RayCluster.appended, splitColumns,
    ← hsplit n k hk]
  cases hsplits : k.split with
  | false => rfl
  | true =>
    have hplaces : ∀ i k, clusters[i]? = some k →
        (k.split = true ↔ i ∈ (List.range clusters.length).filter split) := by
      intro i k hi
      rw [List.mem_filter, List.mem_range, hsplit i k hi]
      exact (and_iff_right (List.getElem?_eq_some_iff.mp hi).1).symm
    obtain ⟨hsecond, hthird⟩ := getElem?_cell (List.pairwise_lt_range.filter split)
      (fun i hi => List.mem_range.mp (List.mem_filter.mp hi).1) hplaces
      (getElem?_filter_range hn ((hsplit n k hk).symm.trans hsplits)) hk u s
    simp only [if_true, List.map_cons, List.map_nil, columnsBehind, coord]
    rw [hsecond, hthird]
    rfl

/-- The direct ray weakens all coefficients alike and adds to the first one. -/
theorem coord_blend (ray : DirectRay ℝ) {cells : List (Phasor ℝ)} (hne : cells ≠ []) (i : ℕ) :
    coord (ray.blend u s cells) i = ray.diffuse * coord cells i +
      if i = 0 then ray.amplitude * (ray.between u s).toComplex else 0 := by
  cases cells with
  | nil => exact absurd rfl hne
  | cons first rest =>
    cases i with
    | zero => simp [DirectRay.blend]
    | succ i =>
      rw [if_neg (Nat.succ_ne_zero i), add_zero, DirectRay.blend]
      exact coord_map (fun z => Phasor.toComplex_scale z _) (mul_zero _) rest i

/-- Only the first cluster's columns have a part of the direct ray. -/
theorem sum_columns_affine (split : ℕ → Bool) {kept : ℕ} (hn : n < kept) (f : ℕ → ℂ) (a b : ℂ) :
    ((columnsOf split kept n).map fun i => a * f i + if i = 0 then b else 0).sum =
      a * ((columnsOf split kept n).map f).sum + if n = 0 then b else 0 := by
  have hbehind : ∀ i, kept + i ≠ 0 := fun i => by omega
  unfold columnsOf splitColumns
  split
  · simp only [List.map_cons, List.map_nil, List.sum_cons, List.sum_nil, hbehind, Nat.add_assoc,
      if_false, add_zero]
    ring
  · simp

end Tensor

/-! ## Scattered clusters -/

/-- Clusters of so many rays each: the directions of the rays in radians, their phases, the power that
the rays of a cluster share, and which clusters are split. -/
structure Scattering (kept rays : ℕ) where
  directions : Fin kept → Fin rays → Directions ℝ
  phases : Fin kept → Fin rays → ℝ
  powers : Fin kept → ℝ
  split : ℕ → Bool

namespace Scattering

variable {kept rays : ℕ}

/-- The clusters between two panels. -/
noncomputable def clusters (x : Scattering kept rays) (rx tx : Panel ℝ) : List (RayCluster ℝ) :=
  List.ofFn fun n => RayCluster.ofRays
    (List.ofFn fun m => Ray.ofDirections rx tx (x.directions n m) (x.phases n m))
    rays (x.powers n) (x.split n)

/-- The coefficients between all elements of two panels. -/
noncomputable def tensor (x : Scattering kept rays) (rx tx : Panel ℝ) : Tensor ℝ :=
  Tensor.ofClusters rx tx (x.clusters rx tx)

/-- All rays of a cluster between two elements, each with an equal share of its power. -/
noncomputable def rayTotal (x : Scattering kept rays) (rx tx : Panel ℝ) (n : Fin kept)
    (u s : Vec3 ℝ) : ℂ :=
  √(x.powers n / rays) * ∑ m, planeWave rx tx (x.directions n m) (x.phases n m) u s

open Scalar in
/-- All rays of a cluster beside a direct ray: weakened, and the first cluster with the direct ray. -/
noncomputable def riceanTotal (x : Scattering kept rays) (rx tx : Panel ℝ) (g : LinkGeometry ℝ)
    (k phase loss : ℝ) (n : Fin kept) (u s : Vec3 ℝ) : ℂ :=
  √(1 / (k + 1)) * x.rayTotal rx tx n u s +
    if n.val = 0 then
      (√(k / (k + 1)) / tenTo (loss / 10) : ℝ) * planeWave rx tx g.directions phase u s
    else 0

/-- The columns that belong to a cluster. -/
def columnsOf (x : Scattering kept rays) (n : Fin kept) : List ℕ := Tensor.columnsOf x.split kept n

theorem length_clusters (x : Scattering kept rays) (rx tx : Panel ℝ) :
    (x.clusters rx tx).length = kept := List.length_ofFn

theorem getElem?_clusters (x : Scattering kept rays) (rx tx : Panel ℝ) {i : ℕ} {k : RayCluster ℝ} :
    (x.clusters rx tx)[i]? = some k ↔ ∃ n : Fin kept, n.val = i ∧ RayCluster.ofRays
      (List.ofFn fun m => Ray.ofDirections rx tx (x.directions n m) (x.phases n m))
      rays (x.powers n) (x.split n) = k := by
  rw [clusters, List.getElem?_ofFn]
  constructor
  · intro h
    split at h
    · next hi => exact ⟨⟨i, hi⟩, rfl, Option.some.inj h⟩
    · cases h
  · rintro ⟨n, rfl, rfl⟩
    rw [dif_pos n.isLt]

theorem sum_cell (x : Scattering kept rays) (rx tx : Panel ℝ) (n : Fin kept) (u s : Vec3 ℝ) :
    ((x.columnsOf n).map (coord (Tensor.cell (x.clusters rx tx) u s))).sum =
      x.rayTotal rx tx n u s := by
  have hsplit : ∀ i k, (x.clusters rx tx)[i]? = some k → k.split = x.split i := by
    intro i k hk
    obtain ⟨n, rfl, rfl⟩ := (x.getElem?_clusters rx tx).mp hk
    rfl
  have hsum := Tensor.sum_cell (u := u) (s := s) hsplit
    ((x.getElem?_clusters rx tx).mpr ⟨n, rfl, rfl⟩)
  rw [length_clusters, RayCluster.toComplex_main_add_appended] at hsum
  rw [columnsOf, hsum, rayTotal, List.map_ofFn, List.sum_ofFn]
  simp only [Function.comp_apply, Ray.toComplex_between]

/-- Between each pair of elements a tensor has as many columns as the clusters take up, and those of a
cluster add up to a given sum. -/
def Sums (x : Scattering kept rays) (rx tx : Panel ℝ) (h : Tensor ℝ)
    (total : Fin kept → Vec3 ℝ → Vec3 ℝ → ℂ) : Prop :=
  ∀ r t u s, rx.elementLocations[r]? = some u → tx.elementLocations[t]? = some s →
    (h.response r t).length = kept + Tensor.columnsBehind x.split kept ∧
    ∀ n, ((x.columnsOf n).map (coord (h.response r t))).sum = total n u s

theorem length_cell (x : Scattering kept rays) (rx tx : Panel ℝ) (u s : Vec3 ℝ) :
    (Tensor.cell (x.clusters rx tx) u s).length = kept + Tensor.columnsBehind x.split kept := by
  have hflags : (x.clusters rx tx).map (·.split) = (List.range kept).map x.split :=
    List.ext_getElem (by simp [clusters]) fun n _ _ => by simp [clusters, RayCluster.ofRays]
  have hcount := congrArg (List.countP id) hflags
  rw [List.countP_map, List.countP_map] at hcount
  rw [Tensor.length_cell, length_clusters, Tensor.columnsBehind]
  exact congrArg (kept + 2 * ·) hcount

theorem sums_tensor (x : Scattering kept rays) (rx tx : Panel ℝ) :
    x.Sums rx tx (x.tensor rx tx) (x.rayTotal rx tx) := by
  intro r t u s hu hs
  rw [tensor, Tensor.response_ofClusters hu hs]
  exact ⟨x.length_cell rx tx u s, fun n => x.sum_cell rx tx n u s⟩

/-- With a direct ray the sums are weakened alike, and the first one has the direct ray beside it. -/
theorem sums_withDirectRay (x : Scattering kept rays) (rx tx : Panel ℝ) (g : LinkGeometry ℝ)
    (k phase loss : ℝ) :
    x.Sums rx tx ((x.tensor rx tx).withDirectRay rx tx (.ofGeometry rx tx g k phase loss))
      (x.riceanTotal rx tx g k phase loss) := by
  intro r t u s hu hs
  rw [tensor, Tensor.response_withDirectRay hu hs]
  refine ⟨(Tensor.length_blend _ _ _ _).trans (x.length_cell rx tx u s), fun n => ?_⟩
  have hne : Tensor.cell (x.clusters rx tx) u s ≠ [] := by
    rw [← List.length_pos_iff, x.length_cell]
    exact Nat.add_pos_left n.pos _
  rw [riceanTotal, ← x.sum_cell, columnsOf, ← Tensor.DirectRay.toComplex_between,
    ← Tensor.sum_columns_affine _ n.isLt]
  refine congrArg (fun f => (List.map f _).sum) (funext fun i => ?_)
  rw [Tensor.coord_blend _ hne, Tensor.DirectRay.ofGeometry, one_eq]
  rfl

end Scattering

/-! ## Rays of a realization -/

namespace RealizationContext

/-- The scattered clusters of a realization: the rays of a cluster lie around its direction and are
coupled, phases and powers are those of the realization, and its strongest clusters are split. -/
structure Scatters (c : RealizationContext ℝ) (m : Realization ℝ)
    (x : Scattering m.keptClusters c.table.rays) : Prop where
  directions : ∀ n : Fin m.keptClusters, ∃ d, m.directions[n.val]? = some (Directions.wrap d) ∧
    ((RayFan.spread c.table d).couple n).rays = List.ofFn (x.directions n)
  phases : ∀ n : Fin m.keptClusters, m.phases[n.val]? = some (List.ofFn (x.phases n))
  powers : m.powers = List.ofFn x.powers
  split : ∀ n, x.split n = true ↔ n ∈ splitClusters m.powers

/-- The scattered part of a drawn tensor is that of scattered clusters. -/
theorem exists_scattering {c : RealizationContext ℝ} {m : Realization ℝ} {scale : LargeScale ℝ}
    {profile : Profile ℝ} {unwrapped : List (Directions ℝ)} {losses : List ℝ}
    (h : Drawn c m scale profile unwrapped losses)
    (hrays : c.table.rays = (rayOffsets : List ℝ).length) :
    ∃ x, c.Scatters m x ∧ c.rayClusters unwrapped m.phases m.powers = x.clusters c.rx c.tx := by
  have hkept : unwrapped.length = m.keptClusters := h.length_unwrapped.trans h.length_powers.symm
  obtain ⟨d, hd⟩ := exists_ofFn hkept
  have hphases : ∀ n : Fin m.keptClusters, ∃ row : Fin c.table.rays → ℝ,
      m.phases[n.val]? = some (List.ofFn row) := by
    intro n
    have hn : n.val < m.phases.length := by
      rw [h.length_phases]
      exact n.isLt
    obtain ⟨row, hrow⟩ := exists_ofFn (h.length_of_mem_phases _ (List.getElem_mem hn))
    exact ⟨row, by rw [List.getElem?_eq_getElem hn, hrow]⟩
  have hdirections : ∀ n : Fin m.keptClusters, ∃ directions : Fin c.table.rays → Directions ℝ,
      ((RayFan.spread c.table (d n)).couple n).rays = List.ofFn directions :=
    fun n => exists_ofFn (length_rays c.table n (d n) hrays)
  choose phases hphases using hphases
  choose directions hdirections using hdirections
  let x : Scattering m.keptClusters c.table.rays :=
    ⟨directions, phases, m.powers.get, (splitClusters m.powers).contains⟩
  refine ⟨x, ⟨fun n => ⟨d n, ?_, hdirections n⟩, hphases, (List.ofFn_get _).symm,
    fun n => List.contains_iff_mem⟩, List.ext_getElem? fun i => ?_⟩
  · obtain ⟨behind, hbehind⟩ := append_of_withSubClusters h.directions_eq
    rw [hbehind, hd, List.getElem?_append_left (by simp)]
    simp
  by_cases hi : i < m.keptClusters
  · have hraysOf : c.raysOf i (d ⟨i, hi⟩) (List.ofFn (phases ⟨i, hi⟩)) = List.ofFn fun r =>
        Ray.ofDirections c.rx c.tx (directions ⟨i, hi⟩ r) (phases ⟨i, hi⟩ r) := by
      rw [raysOf, hdirections ⟨i, hi⟩]
      exact List.ext_getElem (by simp) fun r _ _ => by simp
    rw [c.getElem?_rayClusters (by rw [hd]; exact getElem?_ofFn_val d ⟨i, hi⟩) (hphases ⟨i, hi⟩)
      (List.getElem?_eq_getElem hi), hraysOf]
    exact ((x.getElem?_clusters c.rx c.tx).mpr ⟨⟨i, hi⟩, rfl, rfl⟩).symm
  · have hrows := c.length_rayClusters hkept h.length_phases
    rw [List.getElem?_eq_none (by rw [hrows]; exact not_lt.mp hi),
      List.getElem?_eq_none (by rw [Scattering.length_clusters]; exact not_lt.mp hi)]

/-- Splitting the strongest clusters loses and duplicates no ray. Whatever the rays of the clusters are
and whichever clusters are split, every column belongs to one cluster, and those of a cluster add up to
all of its rays, each with an equal share of its power; beside a direct ray these sums are weakened
alike, and the first one has the direct ray in addition. The tensor of a drawn realization is one of
these: its rays are coupled around the clusters' directions, and its strongest clusters are split. -/
theorem columns_sum_rays :
    (∀ {kept rays : ℕ} (x : Scattering kept rays) (rx tx : Panel ℝ),
      (List.ofFn x.columnsOf).flatten.Perm (List.range (kept + Tensor.columnsBehind x.split kept)) ∧
      x.Sums rx tx (x.tensor rx tx) (x.rayTotal rx tx) ∧
      ∀ (g : LinkGeometry ℝ) (k phase loss : ℝ),
        x.Sums rx tx ((x.tensor rx tx).withDirectRay rx tx (.ofGeometry rx tx g k phase loss))
          (x.riceanTotal rx tx g k phase loss)) ∧
    ∀ (c : RealizationContext ℝ) (m : Realization ℝ) (source source' : RandomSource ℝ),
      c.table.rays = (rayOffsets : List ℝ).length → c.draw.run source = (.ok m, source') →
      ∃ x d, c.Scatters m x ∧ m.directions[0]? = some d ∧ x.Sums c.rx c.tx m.tensor
        (if c.condition.los then
          x.riceanTotal c.rx c.tx c.geometry (10 ^ (m.riceanDb / 10)) m.directPhase (c.lossToward m d)
        else x.rayTotal c.rx c.tx) := by
  refine ⟨fun {kept rays} x rx tx => ⟨?_, x.sums_tensor rx tx, x.sums_withDirectRay rx tx⟩,
    fun c m source source' hrays h => ?_⟩
  · have hflatten : (List.ofFn x.columnsOf).flatten =
        (List.range kept).flatMap (Tensor.columnsOf x.split kept) := by
      rw [List.flatMap_def]
      exact congrArg List.flatten (List.ext_getElem (by simp) fun n _ _ => by
        simp [Scattering.columnsOf])
    rw [hflatten]
    exact Tensor.columnsOf_perm x.split kept
  · obtain ⟨scale, profile, unwrapped, losses, hdrawn⟩ := drawn_of_draw h
    obtain ⟨x, hx, hclusters⟩ := exists_scattering hdrawn hrays
    obtain ⟨d, hd, hloss⟩ := hdrawn.directLoss_eq
    refine ⟨x, d, hx, hd, ?_⟩
    rw [hdrawn.tensor_eq, hclusters, hloss, tensor]
    split
    · have hsums := x.sums_withDirectRay c.rx c.tx c.geometry scale.ricean m.directPhase
        (c.lossToward m d)
      rwa [LargeScale.ricean, ← hdrawn.riceanDb] at hsums ⊢
    · exact x.sums_tensor c.rx c.tx

/-- In the country, the columns of each cluster between the second antenna of the car and the last one
of the mast. -/
theorem columns_sum_rays_country :
    ∃ m source x d, country.draw.run (.ofSeed 1) = (.ok m, source) ∧ country.Scatters m x ∧
      m.directions[0]? = some d ∧
      ∀ n, ((x.columnsOf n).map (coord (m.tensor.response 1 3))).sum =
        x.riceanTotal country.rx country.tx country.geometry (10 ^ (m.riceanDb / 10)) m.directPhase
          (country.lossToward m d) n (country.rx.locationAt 1 0) (country.tx.locationAt 3 0) := by
  obtain ⟨m, source, hdraw⟩ := draw_ok (c := country) (s := .ofSeed 1)
    (ParameterTable.supports_ruralMacro true 40) fun _ _ _ _ _ => beq_iff.mpr rfl
  obtain ⟨x, d, hx, hd, hsums⟩ := columns_sum_rays.2 country m _ _ rfl hdraw
  exact ⟨m, source, x, d, hdraw, hx, hd, (hsums 1 3 _ _ rfl rfl).2⟩

end RealizationContext

end RadioChannel
