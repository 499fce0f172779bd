import RadioChannel.Proofs.Drawing
import RadioChannel.Proofs.Profiles

/-!
# The shape of a realization

A realization has phases for every ray of every kept cluster, two sub-clusters for every split one,
and a coefficient for each cluster, sub-clusters counted, between each pair of elements. So every list
is as long as those who read it by index take it to be.
-/

namespace RadioChannel

open Scalar

variable {R : Type}

/-! ## Sub-clusters -/

theorem exists_of_mem_zipWith {α β γ : Type} {f : α → β → γ} {xs : List α} {ys : List β} {z : γ}
    (h : z ∈ List.zipWith f xs ys) : ∃ x, ∃ y ∈ ys, f x y = z := by
  rw [← List.map_uncurry_zip_eq_zipWith] at h
  obtain ⟨⟨x, y⟩, hmem, hz⟩ := List.mem_map.mp h
  exact ⟨x, y, (List.of_mem_zip hmem).2, hz⟩

theorem mapM_entryAt {α : Type} {xs : List α} {split : List Nat} (h : ∀ n ∈ split, n < xs.length) :
    ∃ ys : List α, (split.mapM (entryAt xs) : Except (Fault R) (List α)) = .ok ys ∧
      ys.length = split.length := by
  induction split with
  | nil => exact ⟨[], rfl, rfl⟩
  | cons n split ih =>
    obtain ⟨ys, hys, hlen⟩ := ih fun m hm => h m (List.mem_cons_of_mem n hm)
    have hn : n < xs.length := h n List.mem_cons_self
    refine ⟨xs[n] :: ys, ?_, by simp [hlen]⟩
    have hentry : (entryAt xs n : Except (Fault R) α) = .ok xs[n] := by
      simp [entryAt, List.getElem?_eq_getElem hn]
    rw [List.mapM_cons, hentry, hys]
    rfl

namespace RealizationContext

/-- Two entries are appended for each split cluster, if all of them are in the list. -/
theorem withSubClusters_ok {α : Type} {split : List Nat} {f : α → List α}
    (hf : ∀ x, (f x).length = 2) {xs : List α} (h : ∀ n ∈ split, n < xs.length) :
    ∃ ys : List α, (withSubClusters split f xs : Except (Fault R) (List α)) = .ok ys ∧
      ys.length = xs.length + 2 * split.length := by
  obtain ⟨sources, hsources, hlen⟩ := mapM_entryAt (R := R) h
  refine ⟨xs ++ sources.flatMap f, ?_, ?_⟩
  · rw [withSubClusters, hsources]
    rfl
  · have htwo : (sources.map fun x => (f x).length) = List.replicate sources.length 2 := by
      rw [List.eq_replicate_iff]
      simp [hf]
    rw [List.length_append, List.length_flatMap, htwo, List.sum_replicate_nat, hlen, Nat.mul_comm]

end RealizationContext

variable [Scalar R]

/-! ## Strongest clusters -/

theorem strongestOf_lt {powers : List R} (hne : powers ≠ []) (skip : Nat → Bool) :
    strongestOf powers skip < powers.length := by
  suffices hfold : ∀ (pairs : List (R × Nat)) (best : Nat × R) (n : Nat),
      (∀ p ∈ pairs, p.2 < n) → best.1 < n →
      (pairs.foldl (fun best pair =>
        if !skip pair.2 && lt best.2 pair.1 then (pair.2, pair.1) else best) best).1 < n by
    refine hfold _ _ _ (fun p hp => ?_) (List.length_pos_iff.mpr hne)
    exact List.snd_lt_of_mem_zipIdx hp
  intro pairs
  induction pairs with
  | nil => exact fun best n _ hbest => hbest
  | cons pair pairs ih =>
    intro best n hpairs hbest
    rw [List.foldl_cons]
    refine ih _ n (fun p hp => hpairs p (List.mem_cons_of_mem _ hp)) ?_
    split
    · exact hpairs pair List.mem_cons_self
    · exact hbest

theorem splitClusters_lt {powers : List R} (hne : powers ≠ []) :
    ∀ n ∈ splitClusters powers, n < powers.length := by
  intro n hn
  have hmem : n = (strongestTwo powers).1 ∨ n = (strongestTwo powers).2 := by
    unfold splitClusters at hn
    grind
  rcases hmem with rfl | rfl
  · exact strongestOf_lt hne fun _ => false
  · exact strongestOf_lt hne fun n => n == strongestOf powers fun _ => false

theorem nodup_splitClusters (powers : List R) : (splitClusters powers).Nodup := by
  simp only [splitClusters]
  split
  · exact List.nodup_singleton _
  · rename_i hne
    simp only [List.nodup_cons, List.mem_singleton, List.not_mem_nil, not_false_eq_true,
      List.nodup_nil, and_true]
    omega

/-! ## Rays and coefficients -/

@[simp] theorem length_shuffle {α : Type} (seed : UInt64) (xs : List α) :
    (shuffle seed xs).length = xs.length := by
  suffices hfold : ∀ (swaps : List (Nat × Nat)) (a : Array α),
      (swaps.foldl (fun a s => a.swapIfInBounds s.1 s.2) a).size = a.size by
    rw [shuffle, Array.length_toList, hfold, List.size_toArray]
  intro swaps
  induction swaps with
  | nil => exact fun a => rfl
  | cons swap swaps ih =>
    intro a
    rw [List.foldl_cons, ih, Array.size_swapIfInBounds]

/-- A fan has all rays of the table, and they are still there after they were coupled. -/
theorem length_rays (table : ParameterTable R) (n : Nat) (d : Directions R)
    (hrays : table.rays = (rayOffsets : List R).length) :
    ((RayFan.spread table d).couple n).rays.length = table.rays := by
  simp [RayFan.rays, RayFan.couple, RayFan.spread, RayFan.around, hrays]

/-- A tensor with so many rows, columns and clusters. -/
structure Tensor.Shaped (h : Tensor R) (rx tx clusters : Nat) : Prop where
  rows : h.length = rx
  columns : ∀ row ∈ h, row.length = tx
  cells : ∀ row ∈ h, ∀ cell ∈ row, cell.length = clusters

namespace Tensor

omit [Scalar R] in
theorem Shaped.txCount_eq {h : Tensor R} {rx tx clusters : Nat} (hs : h.Shaped rx tx clusters) :
    h.txCount = if rx = 0 then 0 else tx := by
  cases h with
  | nil => exact (if_pos hs.rows.symm).symm
  | cons row rows =>
    rw [if_neg (by rw [← hs.rows]; exact Nat.succ_ne_zero _)]
    exact hs.columns row List.mem_cons_self

theorem length_cell (clusters : List (RayCluster R)) (rx tx : Vec3 R) :
    (cell clusters rx tx).length = clusters.length + 2 * clusters.countP (·.split) := by
  rw [cell, List.length_append, List.length_map]
  congr 1
  induction clusters with
  | nil => rfl
  | cons c clusters ih =>
    rw [List.flatMap_cons, List.length_append, ih, List.countP_cons, RayCluster.appended,
      Nat.mul_add, Nat.add_comm]
    cases c.split <;> rfl

theorem shaped_ofClusters (rx tx : Panel R) (clusters : List (RayCluster R)) :
    (ofClusters rx tx clusters).Shaped rx.elementCount tx.elementCount
      (clusters.length + 2 * clusters.countP (·.split)) where
  rows := by simp [ofClusters]
  columns := by simp [ofClusters]
  cells := by
    intro row hrow cell hcell
    simp only [ofClusters, List.mem_map] at hrow
    obtain ⟨u, -, rfl⟩ := hrow
    obtain ⟨s, -, rfl⟩ := List.mem_map.mp hcell
    exact length_cell clusters u s

theorem length_blend (r : DirectRay R) (rx tx : Vec3 R) (cell : List (Phasor R)) :
    (r.blend rx tx cell).length = cell.length := by
  cases cell <;> simp [DirectRay.blend]

/-- The direct ray adds to a coefficient of each pair of elements, and none of its own. -/
theorem Shaped.withDirectRay {h : Tensor R} {rx tx : Panel R} {clusters : Nat}
    (hs : h.Shaped rx.elementCount tx.elementCount clusters) (r : DirectRay R) :
    (h.withDirectRay rx tx r).Shaped rx.elementCount tx.elementCount clusters where
  rows := by simp [Tensor.withDirectRay, hs.rows]
  columns := by
    intro row hrow
    obtain ⟨u, row', hrow', rfl⟩ := exists_of_mem_zipWith hrow
    simp [hs.columns row' hrow']
  cells := by
    intro row hrow cell hcell
    obtain ⟨u, row', hrow', rfl⟩ := exists_of_mem_zipWith hrow
    obtain ⟨s, cell', hcell', rfl⟩ := exists_of_mem_zipWith hcell
    rw [length_blend]
    exact hs.cells row' hrow' cell' hcell'

end Tensor

namespace RealizationContext

variable (c : RealizationContext R)

theorem length_rayClusters {directions : List (Directions R)} {phases : List (List R)}
    {powers : List R} (hd : directions.length = powers.length)
    (hp : phases.length = powers.length) :
    (c.rayClusters directions phases powers).length = powers.length := by
  simp [rayClusters, hd, hp]

/-- The split clusters are those of the list of split clusters. -/
theorem countP_rayClusters {directions : List (Directions R)} {phases : List (List R)}
    {powers : List R} (hne : powers ≠ []) (hd : directions.length = powers.length)
    (hp : phases.length = powers.length) :
    (c.rayClusters directions phases powers).countP (·.split) = (splitClusters powers).length := by
  have hcount : (c.rayClusters directions phases powers).countP (·.split) =
      ((directions.zip (phases.zip powers)).zipIdx.map Prod.snd).countP
        ((splitClusters powers).contains ·) := by
    rw [rayClusters, List.countP_map, List.countP_map]
    rfl
  have hperm : ((List.range powers.length).filter ((splitClusters powers).contains ·)).Perm
      (splitClusters powers) := by
    refine (List.perm_ext_iff_of_nodup (List.nodup_range.filter _) (nodup_splitClusters _)).mpr
      fun n => ?_
    rw [List.mem_filter, List.mem_range, List.contains_iff_mem]
    exact ⟨fun h => h.2, fun h => ⟨splitClusters_lt hne n h, h⟩⟩
  rw [hcount, List.zipIdx_map_snd, List.length_zip, List.length_zip, hd, hp, Nat.min_self,
    Nat.min_self, ← List.range_eq_range', List.countP_eq_length_filter, hperm.length_eq]

/-- The tensor has a coefficient for each cluster, sub-clusters counted. -/
theorem shaped_tensor {scale : LargeScale R} {directions : List (Directions R)}
    {phases : List (List R)} {powers : List R} (hne : powers ≠ [])
    (hd : directions.length = powers.length) (hp : phases.length = powers.length)
    (directPhase directLoss : R) :
    (c.tensor scale (c.rayClusters directions phases powers) directPhase directLoss).Shaped
      c.rx.elementCount c.tx.elementCount
      (powers.length + 2 * (splitClusters powers).length) := by
  have hscattered := Tensor.shaped_ofClusters c.rx c.tx (c.rayClusters directions phases powers)
  rw [c.length_rayClusters hd hp, c.countP_rayClusters hne hd hp] at hscattered
  unfold tensor
  dsimp only
  split
  · exact hscattered.withDirectRay _
  · exact hscattered

/-! ## Losses -/

theorem length_losses (c : RealizationContext R) (directions : List (Directions R))
    (s : RandomSource R) : ((c.drawBlockage directions).run s).1.2 = [] ∨
      ((c.drawBlockage directions).run s).1.2.length = directions.length := by
  unfold drawBlockage
  cases c.blockage with
  | none => exact Or.inl rfl
  | some m =>
    right
    rw [run_draw_bind, run_draw_pure, List.length_map]

theorem length_attenuate {powers losses : List R}
    (h : losses = [] ∨ losses.length = powers.length) :
    (attenuate powers losses).length = powers.length := by
  rcases h with rfl | h
  · rfl
  · cases losses with
    | nil => rfl
    | cons loss losses => rw [attenuate, List.length_zipWith, h, Nat.min_self]; simp

theorem attenuate_nil (losses : List R) : attenuate [] losses = [] := by
  cases losses <;> rfl

/-- Without clusters there would be no strongest one to split. -/
theorem withSubClusters_nil {α : Type} (f : α → List α) :
    (withSubClusters (splitClusters ([] : List R)) f [] : Except (Fault R) (List α)) =
      .error (.breach .indexInRange) := rfl

end RealizationContext

/-! ## Lists of a realization -/

theorem Directions.length_of_draw {table : ParameterTable R} {los o2i : Bool}
    {geometry : LinkGeometry R} {scale : LargeScale R} {profile : Profile R}
    {unwrapped : List (Directions R)} {s t : RandomSource R}
    (h : (draw table los o2i geometry scale profile).run s = (.ok unwrapped, t)) :
    unwrapped.length = profile.taps.length := by
  rw [draw, Action.run_bind_ok] at h
  obtain ⟨shape, u, -, h⟩ := h
  rw [Action.run_bind_ok] at h
  obtain ⟨drawn, v, hdrawn, h⟩ := h
  have hlength : drawn.length = profile.taps.length := by
    rw [Action.run_liftState, Prod.mk.injEq, Except.ok.injEq] at hdrawn
    rw [← hdrawn.1, length_mapM_run]
  cases los with
  | false =>
    obtain ⟨hunwrapped, -⟩ := Prod.mk.inj h
    rw [← Except.ok.inj hunwrapped, hlength]
  | true =>
    obtain ⟨hunwrapped, -⟩ := Prod.mk.inj h
    cases drawn with
    | nil => cases hunwrapped
    | cons first rest => rw [← Except.ok.inj hunwrapped, List.length_map, hlength]

namespace Drawn

variable {c : RealizationContext R} {m : Realization R} {scale : LargeScale R}
  {profile : Profile R} {unwrapped : List (Directions R)} {losses : List R}

open RealizationContext

/-- A profile without clusters would not have come through the splitting of clusters. -/
theorem taps_ne_nil (h : Drawn c m scale profile unwrapped losses) : profile.taps ≠ [] := by
  intro hnil
  have hdelays := h.delays_eq
  rw [h.powers_eq, hnil, List.map_nil, attenuate_nil, List.map_nil, withSubClusters_nil] at hdelays
  cases hdelays

theorem length_unwrapped (h : Drawn c m scale profile unwrapped losses) :
    unwrapped.length = profile.taps.length := by
  obtain ⟨s, t, hrun⟩ := h.unwrapped_eq
  exact Directions.length_of_draw hrun

theorem length_powers (h : Drawn c m scale profile unwrapped losses) :
    m.powers.length = profile.taps.length := by
  obtain ⟨s, hs⟩ := h.losses_eq
  have hlosses := c.length_losses (unwrapped.map Directions.wrap) s
  rw [hs, List.length_map, h.length_unwrapped, ← List.length_map Tap.power] at hlosses
  rw [h.powers_eq, length_attenuate hlosses, List.length_map]

theorem powers_ne_nil (h : Drawn c m scale profile unwrapped losses) : m.powers ≠ [] :=
  List.ne_nil_of_length_pos (h.length_powers ▸ List.length_pos_iff.mpr h.taps_ne_nil)

theorem length_phases (h : Drawn c m scale profile unwrapped losses) :
    m.phases.length = m.powers.length := by
  obtain ⟨s, hs⟩ := h.phases_eq
  rw [← hs, drawPhases, length_times]

theorem length_of_mem_phases (h : Drawn c m scale profile unwrapped losses) :
    ∀ row ∈ m.phases, row.length = c.table.rays := by
  obtain ⟨s, hs⟩ := h.phases_eq
  rw [← hs]
  have hrow : ∀ (_ : Nat) (t : RandomSource R),
      ((Draw.times c.table.rays drawPhase).run t).1.length = c.table.rays :=
    fun _ t => length_times _ _ t
  exact forall_mem_mapM_run hrow _ s

theorem clusterCount_eq (h : Drawn c m scale profile unwrapped losses) :
    m.clusterCount = m.powers.length + 2 * (splitClusters m.powers).length := by
  have hbelow : ∀ n ∈ splitClusters m.powers, n < (profile.taps.map Tap.delay).length := by
    rw [List.length_map, ← h.length_powers]
    exact splitClusters_lt h.powers_ne_nil
  obtain ⟨delays, hdelays, hlength⟩ :=
    withSubClusters_ok (R := R) (f := c.subClusterDelays) (fun _ => rfl) hbelow
  rw [h.delays_eq] at hdelays
  rw [Realization.clusterCount, Except.ok.inj hdelays, hlength, List.length_map, h.length_powers]

theorem length_directions (h : Drawn c m scale profile unwrapped losses) :
    m.directions.length = m.clusterCount := by
  have hbelow : ∀ n ∈ splitClusters m.powers, n < (unwrapped.map Directions.wrap).length := by
    rw [List.length_map, h.length_unwrapped, ← h.length_powers]
    exact splitClusters_lt h.powers_ne_nil
  obtain ⟨directions, hdirections, hlength⟩ :=
    withSubClusters_ok (R := R) (f := fun d => [d, d]) (fun _ => rfl) hbelow
  rw [h.directions_eq] at hdirections
  rw [Except.ok.inj hdirections, hlength, h.clusterCount_eq, List.length_map, h.length_unwrapped,
    h.length_powers]

theorem shaped_tensor (h : Drawn c m scale profile unwrapped losses) :
    m.tensor.Shaped c.rx.elementCount c.tx.elementCount m.clusterCount := by
  rw [h.tensor_eq, h.clusterCount_eq]
  exact c.shaped_tensor h.powers_ne_nil (h.length_unwrapped.trans h.length_powers.symm)
    h.length_phases _ _

end Drawn

end RadioChannel
