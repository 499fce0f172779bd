import RadioChannel.Proofs.Idling
import RadioChannel.Proofs.Losses

/-!
# Clusters on the direct path

With line of sight the first cluster is put onto the direct path, and all others are moved by as much.
So clusters are as far apart as they were drawn. The directions of a realization are these, wrapped, and
the sub-clusters of the first cluster lie on the direct path with it.
-/

namespace RadioChannel

namespace Directions

section Drawing

variable {R : Type} [Scalar R]

/-- The directions of the clusters of a profile as they are drawn around their centres. -/
def drawAround (table : ParameterTable R) (los o2i : Bool) (geometry : LinkGeometry R)
    (scale : LargeScale R) (profile : Profile R) : Action R (RandomSource R) (List (Directions R)) := do
  let shape ← Shape.ofTable table los scale.riceanDb
  (profile.taps.mapM fun t =>
    drawOne table scale shape (centre o2i (direct geometry)) (t.anglePower / profile.peak) :
      Draw R (List (Directions R)))

/-- With line of sight the clusters that were drawn are anchored. -/
theorem run_draw_los {table : ParameterTable R} {o2i : Bool} {geometry : LinkGeometry R}
    {scale : LargeScale R} {profile : Profile R} {s t : RandomSource R}
    {anchored : List (Directions R)} :
    (draw table true o2i geometry scale profile).run s = (.ok anchored, t) ↔
      ∃ drawn, (drawAround table true o2i geometry scale profile).run s = (.ok drawn, t) ∧
        anchor (direct geometry) drawn = .ok anchored := by
  have hdraw : draw table true o2i geometry scale profile =
      drawAround table true o2i geometry scale profile >>= fun drawn =>
        liftM (anchor (direct geometry) drawn) := by
    simp only [draw, drawAround, bind_assoc, if_true]
  rw [hdraw, Action.run_bind_ok]
  simp only [Action.run_liftExcept, Prod.mk.injEq]
  constructor
  · rintro ⟨drawn, u, hrun, hanchor, rfl⟩
    exact ⟨drawn, hrun, hanchor⟩
  · rintro ⟨drawn, hrun, hanchor⟩
    exact ⟨drawn, t, hrun, hanchor, rfl⟩

end Drawing

variable {a b shift path : Directions ℝ} {drawn anchored : List (Directions ℝ)}

theorem minus_minus_cancel (a b : Directions ℝ) : a.minus (a.minus b) = b := by
  simp only [minus, sub_sub_cancel]

theorem minus_minus_minus (a b shift : Directions ℝ) :
    (a.minus shift).minus (b.minus shift) = a.minus b := by
  simp only [minus, sub_sub_sub_cancel_right]

/-- Clusters that were moved so that the first one lies on a path. -/
structure Anchored (path : Directions ℝ) (drawn anchored : List (Directions ℝ)) : Prop where
  length_eq : anchored.length = drawn.length
  first : anchored[0]? = some path
  apart : ∀ (i j : ℕ) (a b a' b' : Directions ℝ), drawn[i]? = some a → drawn[j]? = some b →
    anchored[i]? = some a' → anchored[j]? = some b' → a'.minus b' = a.minus b

theorem anchored_of_anchor (h : (anchor path drawn : Except (Fault ℝ) _) = .ok anchored) :
    Anchored path drawn anchored := by
  cases drawn with
  | nil => cases h
  | cons first rest =>
    obtain rfl := Except.ok.inj h
    refine ⟨List.length_map _, ?_, fun i j a b a' b' ha hb ha' hb' => ?_⟩
    · exact congrArg some (minus_minus_cancel first path)
    · rw [List.getElem?_map, ha] at ha'
      rw [List.getElem?_map, hb] at hb'
      rw [← Option.some.inj ha', ← Option.some.inj hb', minus_minus_minus]

end Directions

namespace Drawn

open Directions

variable {c : RealizationContext ℝ} {m : Realization ℝ} {scale : LargeScale ℝ}
  {profile : Profile ℝ} {unwrapped : List (Directions ℝ)} {losses : List ℝ}

theorem exists_anchored (h : Drawn c m scale profile unwrapped losses)
    (hlos : c.condition.los = true) : ∃ drawn s t,
      (drawAround c.table true c.condition.o2i c.geometry scale profile).run s = (.ok drawn, t) ∧
      (draw c.table true c.condition.o2i c.geometry scale profile).run s = (.ok unwrapped, t) ∧
      Anchored (direct c.geometry) drawn unwrapped := by
  obtain ⟨s, t, hrun⟩ := h.unwrapped_eq
  rw [hlos] at hrun
  obtain ⟨drawn, hdrawn, hanchor⟩ := run_draw_los.mp hrun
  exact ⟨drawn, s, t, hdrawn, hrun, anchored_of_anchor hanchor⟩

theorem take_directions (h : Drawn c m scale profile unwrapped losses) :
    m.directions.take m.keptClusters = unwrapped.map wrap := by
  obtain ⟨behind, hbehind⟩ := RealizationContext.append_of_withSubClusters h.directions_eq
  rw [hbehind, Realization.keptClusters, h.length_powers, ← h.length_unwrapped,
    List.take_left' (List.length_map _)]

theorem first_direction (h : Drawn c m scale profile unwrapped losses)
    (hlos : c.condition.los = true) : m.directions[0]? = some (direct c.geometry).wrap := by
  obtain ⟨drawn, s, t, -, -, hanchored⟩ := h.exists_anchored hlos
  obtain ⟨d, hd, hwrapped⟩ := h.getElem?_wrapped (List.length_pos_iff.mpr h.powers_ne_nil)
  rw [List.getElem?_map, hanchored.first] at hwrapped
  rw [hd, ← hwrapped]
  rfl

/-- The sub-clusters of a cluster have its direction. -/
theorem direction_behind (h : Drawn c m scale profile unwrapped losses) {j n : ℕ}
    (hn : (splitClusters m.powers)[j]? = some n) {i : ℕ} (hi : i < 2) :
    m.directions[m.keptClusters + 2 * j + i]? = m.directions[n]? := by
  obtain ⟨d, -, hdirection, hsecond, hthird⟩ := h.getElem?_directions hn
  obtain rfl | rfl : i = 0 ∨ i = 1 := by omega
  · exact hsecond.trans hdirection.symm
  · exact hthird.trans hdirection.symm

end Drawn

/-- Clusters with line of sight are anchored. The clusters of a drawn realization were moved after they
were drawn, all by as much, so that the first one lies on the direct path. In the realization this is the
direct path wrapped, and the two sub-clusters of the first cluster, if it is split, lie on it as well. For
two nodes it is the path from one position to the other: each end arrives from where the other one is. -/
theorem RealizationContext.first_cluster_anchored :
    (∀ (c : RealizationContext ℝ) (m : Realization ℝ) (source source' : RandomSource ℝ),
      c.condition.los = true → c.draw.run source = (.ok m, source') →
      ∃ scale profile unwrapped losses drawn s t, Drawn c m scale profile unwrapped losses ∧
        ((Directions.drawAround c.table true c.condition.o2i c.geometry scale profile).run s =
            (.ok drawn, t) ∧
          (Directions.draw c.table true c.condition.o2i c.geometry scale profile).run s =
            (.ok unwrapped, t)) ∧
        unwrapped.length = drawn.length ∧
        (∀ (i j : ℕ) (a b a' b' : Directions ℝ), drawn[i]? = some a → drawn[j]? = some b →
          unwrapped[i]? = some a' → unwrapped[j]? = some b' → a'.minus b' = a.minus b) ∧
        m.directions.take m.keptClusters = unwrapped.map Directions.wrap ∧
        m.directions[0]? = some ⟨wrapAzimuth (Scalar.degrees c.geometry.arrival.azimuth),
          wrapZenith (Scalar.degrees c.geometry.arrival.zenith),
          wrapAzimuth (Scalar.degrees c.geometry.departure.azimuth),
          wrapZenith (Scalar.degrees c.geometry.departure.zenith)⟩ ∧
        ∀ j : ℕ, (splitClusters m.powers)[j]? = some 0 → ∀ i < 2,
          m.directions[m.keptClusters + 2 * j + i]? = m.directions[0]?) ∧
    ∀ (g : Generator ℝ) (now : Nanoseconds) (a b : Terminal ℝ) (condition : Condition)
      (m : Realization ℝ) (source : RandomSource ℝ), condition.los = true →
      (Generator.channel now a b condition).run g =
        (.ok ⟨m, false⟩, g.store source a.endpoint.id b.endpoint.id m) →
      let arrival := Bearing.between a.endpoint.position b.endpoint.position
      let departure := Bearing.between b.endpoint.position a.endpoint.position
      m.directions[0]? = some ⟨wrapAzimuth (Scalar.degrees arrival.azimuth),
        wrapZenith (Scalar.degrees arrival.zenith), wrapAzimuth (Scalar.degrees departure.azimuth),
        wrapZenith (Scalar.degrees departure.zenith)⟩ := by
  refine ⟨fun c m source source' hlos hdraw => ?_, fun g now a b condition m source hlos hrun => ?_⟩
  · obtain ⟨scale, profile, unwrapped, losses, h⟩ := drawn_of_draw hdraw
    obtain ⟨drawn, s, t, hdrawn, hunwrapped, hanchored⟩ := h.exists_anchored hlos
    exact ⟨scale, profile, unwrapped, losses, drawn, s, t, h, ⟨hdrawn, hunwrapped⟩,
      hanchored.length_eq, hanchored.apart, h.take_directions, h.first_direction hlos,
      fun j hj i hi => h.direction_behind hj hi⟩
  · obtain ⟨table, scale, profile, unwrapped, losses, -, h⟩ := Generator.drawn_of_store hrun
    exact h.first_direction hlos

/-- A car in the country is seen from a mast, and the mast from the car, on the first cluster of their
link. -/
theorem RealizationContext.first_cluster_anchored_country :
    (∃ (m : Realization ℝ) (source : RandomSource ℝ) (drawn unwrapped : List (Directions ℝ)),
      country.draw.run (.ofSeed 1) = (.ok m, source) ∧
      (∀ (i j : ℕ) (a b a' b' : Directions ℝ), drawn[i]? = some a → drawn[j]? = some b →
        unwrapped[i]? = some a' → unwrapped[j]? = some b' → a'.minus b' = a.minus b) ∧
      m.directions.take m.keptClusters = unwrapped.map Directions.wrap ∧
      m.directions[0]? = some (Directions.direct country.geometry).wrap) ∧
    ∃ m source, (Generator.channel 0 Generator.tower Generator.car ⟨true, false⟩).run
        (.fresh .ruralMacro (28000000000 : ℝ) 0 1) =
          (.ok ⟨m, false⟩, (Generator.fresh .ruralMacro (28000000000 : ℝ) 0 1).store source ⟨1⟩ ⟨2⟩ m) ∧
      m.directions[0]?.map Directions.aoa = some (wrapAzimuth (Scalar.degrees
        (Bearing.between Generator.tower.endpoint.position
          Generator.car.endpoint.position).azimuth)) := by
  obtain ⟨hdraws, hlinks⟩ := first_cluster_anchored
  obtain ⟨m, source, hdraw⟩ := draw_ok (c := country) (s := .ofSeed 1)
    (ParameterTable.supports_ruralMacro true 40) fun _ _ _ _ _ => ExactScalars.beq_iff.mpr rfl
  obtain ⟨scale, profile, unwrapped, losses, drawn, s, t, -, -, -, hapart, htake,
    hfirst, -⟩ := hdraws country m _ _ rfl hdraw
  obtain ⟨m', source', hrun, -⟩ := Generator.channel_country
  refine ⟨⟨m, source, drawn, unwrapped, hdraw, hapart, htake, hfirst⟩, m', source', hrun, ?_⟩
  rw [hlinks _ 0 Generator.tower Generator.car ⟨true, false⟩ m' source' rfl hrun]
  rfl

end RadioChannel
