import RadioChannel.Proofs.Idling
import RadioChannel.Proofs.SubClusters
import RadioChannel.Proofs.Wrapping

/-!
# Directions are kept wrapped

A realization keeps the directions of its clusters wrapped, and those of sub-clusters are copies of
them. So whatever was asked for before, all azimuths that a generator holds lie in the first turn and
all zeniths in the first half turn.
-/

namespace RadioChannel

namespace Directions

/-- Directions with azimuths in the first turn and zeniths in the first half turn. -/
structure Wrapped (d : Directions ℝ) : Prop where
  aoa : d.aoa ∈ Set.Icc 0 360
  zoa : d.zoa ∈ Set.Icc 0 180
  aod : d.aod ∈ Set.Icc 0 360
  zod : d.zod ∈ Set.Icc 0 180

theorem wrapped_wrap (d : Directions ℝ) : d.wrap.Wrapped where
  aoa := wrapAzimuth_mem d.aoa
  zoa := wrapZenith_mem d.zoa
  aod := wrapAzimuth_mem d.aod
  zod := wrapZenith_mem d.zod

end Directions

section Lists

variable {R : Type}

/-- What is made from entries with a property has it as well, if it is kept. -/
theorem RealizationContext.forall_withSubClusters {α : Type} {P : α → Prop} {split : List ℕ}
    {f : α → List α} {xs ys : List α} (h : withSubClusters split f xs = (.ok ys : Except (Fault R) _))
    (hf : ∀ x, P x → ∀ y ∈ f x, P y) (hxs : ∀ x ∈ xs, P x) : ∀ y ∈ ys, P y := by
  rw [withSubClusters, except_bind_ok] at h
  obtain ⟨sources, hsources, h⟩ := h
  obtain rfl := Except.ok.inj h
  intro y hy
  rcases List.mem_append.mp hy with hy | hy
  · exact hxs y hy
  · obtain ⟨x, hx, hyx⟩ := List.mem_flatMap.mp hy
    obtain ⟨n, -, hn⟩ := exists_of_forall₂_mem (except_mapM_ok.mp hsources) hx
    exact hf x (hxs x (List.mem_of_getElem? (entryAt_ok.mp hn))) y hyx

variable [Scalar R]

/-- Whatever holds of all realizations that are drawn holds of all that a generator has. -/
theorem Generator.Reachable.forall_cached {P : Realization R → Prop}
    (hdraw : ∀ (c : RealizationContext R) (m : Realization R) (s t : RandomSource R),
      c.draw.run s = (.ok m, t) → P m) {g : Generator R} (hg : g.Reachable) :
    ∀ (key : ℕ) (m : Realization R), g.cache[key]? = some m → P m := by
  induction hg with
  | start h =>
    intro key m hm
    simp [cache_ofSettings h] at hm
  | serve hreach call ih =>
    rename_i g
    cases call with
    | tune frequency => exact ih
    | look a b => exact ih
    | request now a b condition =>
      change ∀ key m, ((channel now a b condition).run g).2.cache[key]? = some m → P m
      rcases hrun : (channel now a b condition).run g with ⟨e | l, g'⟩
      · obtain ⟨source, rfl⟩ := channel_error hrun
        exact ih
      rcases channel_drew hrun with ⟨rfl, -⟩ | ⟨table, source, -, hdrawn, -, rfl⟩
      · exact ih
      -- the new realization takes the place of what its link held
      intro key m hm
      dsimp only [store] at hm
      rw [Std.HashMap.getElem?_erase, Std.HashMap.getElem?_insert] at hm
      split at hm
      · cases hm
      split at hm
      · obtain rfl := Option.some.inj hm
        exact hdraw _ _ _ _ hdrawn
      · exact ih key m hm

end Lists

theorem Drawn.wrapped {c : RealizationContext ℝ} {m : Realization ℝ} {scale : LargeScale ℝ}
    {profile : Profile ℝ} {unwrapped : List (Directions ℝ)} {losses : List ℝ}
    (h : Drawn c m scale profile unwrapped losses) : ∀ d ∈ m.directions, d.Wrapped := by
  refine RealizationContext.forall_withSubClusters h.directions_eq ?_ ?_
  · intro d hd d' hd'
    have hsame : d' = d := by simpa using hd'
    rwa [hsame]
  · intro d hd
    obtain ⟨drawn, -, rfl⟩ := List.mem_map.mp hd
    exact drawn.wrapped_wrap

/-- Angles are wrapped, and stored wrapped. Taking full turns off an angle while it is above one, and
then adding them while it is negative, comes to an end, and at the azimuth. It lies in the first turn,
whole turns apart from the angle, and is the angle itself if that lies there. The zenith lies in the
first half turn, whole turns apart from the angle or from its reflection. Wrapping again changes neither.
A realization that was drawn, and every one that a generator holds, has such angles for all of its
clusters, sub-clusters counted. -/
theorem wrapped_angles :
    (∀ angle : ℝ, (∀ value, UnwindsTo angle value ↔ value = wrapAzimuth angle) ∧
      wrapAzimuth angle ∈ Set.Icc 0 360 ∧ wrapAzimuth angle ≡ angle [PMOD 360] ∧
      (angle ∈ Set.Icc 0 360 → wrapAzimuth angle = angle) ∧
      wrapAzimuth (wrapAzimuth angle) = wrapAzimuth angle ∧
      wrapZenith angle ∈ Set.Icc 0 180 ∧
      (wrapZenith angle ≡ angle [PMOD 360] ∨ wrapZenith angle ≡ -angle [PMOD 360]) ∧
      wrapZenith (wrapZenith angle) = wrapZenith angle) ∧
    (∀ (c : RealizationContext ℝ) (m : Realization ℝ) (source source' : RandomSource ℝ),
      c.draw.run source = (.ok m, source') →
      m.directions.length = m.clusterCount ∧ ∀ d ∈ m.directions, d.Wrapped) ∧
    ∀ (g : Generator ℝ) (key : ℕ) (m : Realization ℝ), g.Reachable → g.cache[key]? = some m →
      m.directions.length = m.clusterCount ∧ ∀ d ∈ m.directions, d.Wrapped := by
  have hdraw : ∀ (c : RealizationContext ℝ) (m : Realization ℝ) (source source' : RandomSource ℝ),
      c.draw.run source = (.ok m, source') →
      m.directions.length = m.clusterCount ∧ ∀ d ∈ m.directions, d.Wrapped := by
    intro c m source source' h
    obtain ⟨scale, profile, unwrapped, losses, hdrawn⟩ := RealizationContext.drawn_of_draw h
    exact ⟨hdrawn.length_directions, hdrawn.wrapped⟩
  refine ⟨fun angle => ?_, hdraw, fun g key m hg => hg.forall_cached hdraw key m⟩
  have hazimuth := wrapAzimuth_mem angle
  have hzenith := wrapZenith_mem angle
  exact ⟨fun value => unwindsTo_iff, hazimuth, wrapAzimuth_modEq angle, wrapAzimuth_of_mem,
    wrapAzimuth_of_mem hazimuth, hzenith, wrapZenith_modEq angle, wrapZenith_of_mem hzenith⟩

/-- A full turn stays one, and a mast in the country has wrapped directions of a car, those of a new
realization as well as those of the one it holds. -/
theorem wrapped_angles_country :
    (360 : ℝ) ∈ Set.Icc 0 360 ∧ wrapAzimuth (360 : ℝ) = 360 ∧
    (∃ m source, RealizationContext.country.draw.run (.ofSeed 1) = (.ok m, source) ∧
      ∀ d ∈ m.directions, d.Wrapped) ∧
    ∃ (g : Generator ℝ) (m : Realization ℝ), g.Reachable ∧
      g.cache[(⟨1⟩ : NodeId).keyTo ⟨2⟩]? = some m ∧ 0 < m.directions.length ∧
      ∀ d ∈ m.directions, d.Wrapped := by
  obtain ⟨hangles, hdraws, hheld⟩ := wrapped_angles
  have hturn : (360 : ℝ) ∈ Set.Icc 0 360 := by norm_num
  obtain ⟨m, source, hdraw⟩ := RealizationContext.exists_draw (c := RealizationContext.country)
    (ParameterTable.supports_ruralMacro true 40) (.ofSeed 1)
  obtain ⟨m', source', hrun, hcomplete⟩ := Generator.channel_country
  have hreach := (Generator.Reachable.start Generator.ofSettings_country).serve
    (.request 0 Generator.tower Generator.car ⟨true, false⟩)
  rw [Generator.serve, hrun] at hreach
  have hcached : (Generator.store (.fresh .ruralMacro (28000000000 : ℝ) 0 1) source' ⟨1⟩ ⟨2⟩
      m').cache[(⟨1⟩ : NodeId).keyTo ⟨2⟩]? = some m' := by
    simp [Generator.store]
  obtain ⟨hlength, hwrapped⟩ := hheld _ _ m' hreach hcached
  have hsome : 0 < m'.directions.length := by
    rw [hlength, hcomplete.clusters]
    exact Nat.add_pos_left hcomplete.kept _
  exact ⟨hturn, (hangles 360).2.2.2.1 hturn, ⟨m, source, hdraw, (hdraws _ m _ _ hdraw).2⟩, _, m',
    hreach, hcached, hsome, hwrapped⟩

end RadioChannel
