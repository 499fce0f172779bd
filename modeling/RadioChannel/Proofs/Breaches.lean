import RadioChannel.Proofs.ExactScalars
import RadioChannel.Proofs.Requests
import RadioChannel.Proofs.Shapes

/-!
# Which requests meet a rule that is broken

The table of an urban link into a building has no Ricean factor, whatever the line of sight, while a
draw with line of sight reads one. So a draw for such a link with line of sight runs out of variables.
Every other draw finds all it reads by index, and goes through.
-/

namespace RadioChannel

open Scalar

/-- Whether the scenario is one of the two urban ones. -/
def Scenario.isUrban : Scenario → Bool
  | .urbanMacro | .streetCanyon => true
  | _ => false

theorem Scenario.not_isIndoor_of_isUrban {s : Scenario} (h : s.isUrban = true) :
    s.isIndoor = false := by
  revert h
  cases s <;> simp [isUrban, isIndoor]

variable {R : Type} [Scalar R]

/-! ## Tables -/

namespace ParameterTable

/-- What draws rely on in a table, with a Ricean factor or without one. -/
structure Supports (table : ParameterTable R) (ricean : Bool) : Prop where
  rays : table.rays = (rayOffsets : List R).length
  clusters : table.clusters ∈ [8, 10, 11, 12, 19, 20]
  size : table.correlation.size = if ricean then 7 else 6

theorem supports_ruralMacro (los : Bool) (distance : R) : (ruralMacro los distance).Supports los := by
  cases los <;> exact ⟨rfl, List.mem_of_elem_eq_true rfl, rfl⟩

theorem supports_urbanMacro (link : LinkState R) (gigahertz : R) :
    (urbanMacro link gigahertz).Supports (link.los && !link.o2i) := by
  obtain ⟨los, o2i, _, _, _, _⟩ := link
  cases los <;> cases o2i <;> exact ⟨rfl, List.mem_of_elem_eq_true rfl, rfl⟩

theorem supports_streetCanyon (link : LinkState R) (gigahertz : R) :
    (streetCanyon link gigahertz).Supports (link.los && !link.o2i) := by
  obtain ⟨los, o2i, _, _, _, _⟩ := link
  cases los <;> cases o2i <;> exact ⟨rfl, List.mem_of_elem_eq_true rfl, rfl⟩

theorem supports_office (los : Bool) (gigahertz : R) : (office los gigahertz).Supports los := by
  cases los <;> exact ⟨rfl, List.mem_of_elem_eq_true rfl, rfl⟩

/-- There is a table for every link, except from outdoors into an office. With line of sight it has a
Ricean factor, except for urban links into buildings. -/
theorem lookup_cases (scenario : Scenario) (link : LinkState R) :
    ((scenario.isIndoor && link.o2i) = true ∧ lookup scenario link =
      .error (.unsupportedCondition scenario.name "outdoor-to-indoor links")) ∨
    ((scenario.isIndoor && link.o2i) = false ∧ ∃ table, lookup scenario link = .ok table ∧
      table.Supports (link.los && !(scenario.isUrban && link.o2i))) := by
  cases scenario with
  | ruralMacro =>
    refine Or.inr ⟨rfl, _, rfl, ?_⟩
    simpa [Scenario.isUrban] using supports_ruralMacro link.los link.distance
  | urbanMacro => exact Or.inr ⟨rfl, _, rfl, supports_urbanMacro link _⟩
  | streetCanyon => exact Or.inr ⟨rfl, _, rfl, supports_streetCanyon link _⟩
  | mixedOffice =>
    cases ho2i : link.o2i with
    | true => exact Or.inl ⟨rfl, by simp [lookup, ho2i]⟩
    | false =>
      refine Or.inr ⟨rfl, _, by simp only [lookup, ho2i]; rfl, ?_⟩
      simpa [Scenario.isUrban] using supports_office link.los _
  | openOffice =>
    cases ho2i : link.o2i with
    | true => exact Or.inl ⟨rfl, by simp [lookup, ho2i]⟩
    | false =>
      refine Or.inr ⟨rfl, _, by simp only [lookup, ho2i]; rfl, ?_⟩
      simpa [Scenario.isUrban] using supports_office link.los _

/-- A table that was found supports draws. -/
theorem supports_of_lookup {scenario : Scenario} {link : LinkState R} {table : ParameterTable R}
    (h : lookup scenario link = .ok table) :
    table.Supports (link.los && !(scenario.isUrban && link.o2i)) := by
  rcases lookup_cases scenario link with ⟨-, hnone⟩ | ⟨-, found, hfound, hsupports⟩
  · cases hnone.symm.trans h
  · obtain rfl := Except.ok.inj (hfound.symm.trans h)
    exact hsupports

end ParameterTable

namespace LargeScale

theorem length_drawCorrelated (table : ParameterTable R) (s : RandomSource R) :
    ((drawCorrelated table).run s).1.length = table.correlation.size := by
  rw [drawCorrelated, run_draw_bind, run_draw_pure, CorrelationRoot.correlate, List.length_map]
  rfl

/-- With seven variables, or six without line of sight, there are large-scale parameters. -/
theorem ofCorrelated_ok (table : ParameterTable R) {los : Bool} {xs : List R}
    (h : xs.length = if los then 7 else 6) : ∃ scale, ofCorrelated table los xs = .ok scale := by
  cases los with
  | true =>
    match xs, h with
    | [_, _, _, _, _, _, _], _ => exact ⟨_, rfl⟩
  | false =>
    match xs, h with
    | [_, _, _, _, _, _], _ => exact ⟨_, rfl⟩

theorem ofCorrelated_breach (table : ParameterTable R) {xs : List R} (h : xs.length = 6) :
    ofCorrelated table true xs = .error (.breach .indexInRange) := by
  match xs, h with
  | [_, _, _, _, _, _], _ => rfl

end LargeScale

/-! ## Directions -/

namespace Directions

theorem ofTable_ok {table : ParameterTable R} (h : table.clusters ∈ [8, 10, 11, 12, 19, 20])
    (los : Bool) (k : R) : ∃ shape, Shape.ofTable table los k = .ok shape := by
  unfold Shape.ofTable
  generalize table.clusters = clusters at h
  simp only [List.mem_cons, List.not_mem_nil, or_false] at h
  rcases h with rfl | rfl | rfl | rfl | rfl | rfl <;> cases los <;> exact ⟨_, rfl⟩

theorem anchor_ok (direct : Directions R) {xs : List (Directions R)} (hne : xs ≠ []) :
    ∃ ys, anchor direct xs = .ok ys ∧ ys.length = xs.length := by
  cases xs with
  | nil => exact absurd rfl hne
  | cons first rest => exact ⟨_, rfl, List.length_map _⟩

/-- There is a direction for each cluster that was kept. -/
theorem draw_ok {table : ParameterTable R} (h : table.clusters ∈ [8, 10, 11, 12, 19, 20])
    (los o2i : Bool) (geometry : LinkGeometry R) (scale : LargeScale R) {profile : Profile R}
    (hne : profile.taps ≠ []) (s : RandomSource R) :
    ∃ unwrapped t, (draw table los o2i geometry scale profile).run s = (.ok unwrapped, t) ∧
      unwrapped.length = profile.taps.length := by
  obtain ⟨shape, hshape⟩ := ofTable_ok h los scale.riceanDb
  simp only [draw, Action.run_bind, Action.run_liftExcept, Action.run_liftState, hshape]
  have hlength := length_mapM_run (fun t => drawOne table scale shape
    (centre o2i (direct geometry)) (t.anglePower / profile.peak)) profile.taps s
  cases los with
  | false => exact ⟨_, _, rfl, hlength⟩
  | true =>
    obtain ⟨anchored, hanchored, hanchor⟩ := anchor_ok (direct geometry)
      (List.ne_nil_of_length_pos (hlength ▸ List.length_pos_iff.mpr hne))
    simp only [if_true, Action.run_liftExcept, hanchored]
    exact ⟨anchored, _, rfl, hanchor.trans hlength⟩

end Directions

/-! ## Draws -/

/-- What those who read a realization by index take for granted, for the panels at its ends. -/
structure Realization.Complete (m : Realization R) (rx tx : Panel R) : Prop where
  kept : 0 < m.keptClusters
  phases : m.phases.length = m.keptClusters
  rays : ∀ row ∈ m.phases, row.length = (rayOffsets : List R).length
  split : ∀ n ∈ splitClusters m.powers, n < m.keptClusters
  clusters : m.clusterCount = m.keptClusters + 2 * (splitClusters m.powers).length
  directions : m.directions.length = m.clusterCount
  tensor : m.tensor.Shaped rx.elementCount tx.elementCount m.clusterCount

namespace RealizationContext

/-- The candidates of a draw, under the large-scale parameters it begins with. -/
def candidates (table : ParameterTable R) (los : Bool) :
    Action R (RandomSource R) (List (Tap R)) := do
  let correlated ← (LargeScale.drawCorrelated table : Draw R (List R))
  let scale ← LargeScale.ofCorrelated table los correlated
  (Profile.candidates table los scale : Draw R (List (Tap R)))

variable {c : RealizationContext R}

/-- A draw with line of sight fails where there is no Ricean factor. -/
theorem draw_breach (hlos : c.condition.los = true) (hsize : c.table.correlation.size = 6)
    (s : RandomSource R) : (c.draw.run s).1 = .error (.breach .indexInRange) := by
  have hscale := LargeScale.ofCorrelated_breach c.table
    ((LargeScale.length_drawCorrelated c.table s).trans hsize)
  simp only [draw, Action.run_bind, Action.run_liftState, Action.run_liftExcept, hlos, hscale]

/-- A realization that was drawn is complete. -/
theorem complete_of_drawn {m : Realization R} {scale : LargeScale R} {profile : Profile R}
    {unwrapped : List (Directions R)} {losses : List R} {ricean : Bool}
    (htable : c.table.Supports ricean) (h : Drawn c m scale profile unwrapped losses) :
    m.Complete c.rx c.tx where
  kept := List.length_pos_iff.mpr h.powers_ne_nil
  phases := h.length_phases
  rays row hrow := (h.length_of_mem_phases row hrow).trans htable.rays
  split := splitClusters_lt h.powers_ne_nil
  clusters := h.clusterCount_eq
  directions := h.length_directions
  tensor := h.shaped_tensor

variable [SignedScalar R]

/-- A draw goes through on the table of its condition, if all powers are comparable. -/
theorem draw_ok (htable : c.table.Supports c.condition.los)
    {s : RandomSource R} (hself : ∀ taps t, (candidates c.table c.condition.los).run s = (.ok taps, t) →
      ∀ tap ∈ taps, (tap.anglePower == tap.anglePower) = true) :
    ∃ m t, c.draw.run s = (.ok m, t) := by
  obtain ⟨scale, hscale⟩ := LargeScale.ofCorrelated_ok c.table
    ((LargeScale.length_drawCorrelated c.table s).trans htable.size)
  have htaps : ∀ tap ∈ ((Profile.candidates c.table c.condition.los scale).run
      ((LargeScale.drawCorrelated c.table).run s).2).1,
      (tap.anglePower == tap.anglePower) = true := by
    refine hself _ ((Profile.candidates c.table c.condition.los scale).run
      ((LargeScale.drawCorrelated c.table).run s).2).2 ?_
    simp only [candidates, Action.run_bind, Action.run_liftState, Action.run_liftExcept, hscale]
  have hclusters : c.table.clusters ≠ 0 := fun h => by simpa [h] using htable.clusters
  have hne := Profile.taps_draw_ne_nil hclusters htaps
  rcases hprofile : (Profile.draw c.table c.condition.los scale).run
    ((LargeScale.drawCorrelated c.table).run s).2 with ⟨profile, s₁⟩
  rw [hprofile] at hne
  obtain ⟨unwrapped, s₂, hunwrapped, hlength⟩ := Directions.draw_ok htable.clusters
    c.condition.los c.condition.o2i c.geometry scale hne s₁
  rcases hblockage : (c.drawBlockage (unwrapped.map Directions.wrap)).run s₂ with
    ⟨⟨blockers, losses⟩, s₃⟩
  have hlosses : losses = [] ∨ losses.length = (profile.taps.map Tap.power).length := by
    have h := c.length_losses (unwrapped.map Directions.wrap) s₂
    rwa [hblockage, List.length_map, hlength, ← List.length_map Tap.power] at h
  have hpowers := length_attenuate hlosses
  rw [List.length_map] at hpowers
  have hpowers_ne : attenuate (profile.taps.map Tap.power) losses ≠ [] :=
    List.ne_nil_of_length_pos (hpowers ▸ List.length_pos_iff.mpr hne)
  have hsplit := splitClusters_lt hpowers_ne
  rw [hpowers] at hsplit
  have hbelow_delays : ∀ n ∈ splitClusters (attenuate (profile.taps.map Tap.power) losses),
      n < (profile.taps.map Tap.delay).length := by
    rwa [List.length_map]
  have hbelow_directions : ∀ n ∈ splitClusters (attenuate (profile.taps.map Tap.power) losses),
      n < (unwrapped.map Directions.wrap).length := by
    rwa [List.length_map, hlength]
  obtain ⟨delays, hdelays, -⟩ :=
    withSubClusters_ok (R := R) (f := c.subClusterDelays) (fun _ => rfl) hbelow_delays
  obtain ⟨directions, hdirections, -⟩ :=
    withSubClusters_ok (R := R) (f := fun d => [d, d]) (fun _ => rfl) hbelow_directions
  -- each stage of the draw answers, in the order in which they are run
  unfold draw
  simp only [Action.run_bind_ok, Action.run_liftState, Action.run_liftExcept, Action.run_pure,
    Prod.mk.injEq, Except.ok.injEq]
  exact ⟨_, _, _, _, ⟨rfl, rfl⟩, scale, _, ⟨hscale, rfl⟩,
    profile, s₁, ⟨congrArg Prod.fst hprofile, congrArg Prod.snd hprofile⟩, unwrapped, s₂, hunwrapped,
    (blockers, losses), s₃, ⟨congrArg Prod.fst hblockage, congrArg Prod.snd hblockage⟩,
    _, _, ⟨rfl, rfl⟩, _, _, ⟨rfl, rfl⟩, delays, _, ⟨hdelays, rfl⟩,
    directions, _, ⟨hdirections, rfl⟩, rfl, rfl⟩

end RealizationContext

/-! ## Requests -/

namespace Generator

variable [SignedScalar R]

variable (g : Generator R) (now : Nanoseconds) (a b : Terminal R) (condition : Condition)

/-- No power in a draw for the link is not comparable. -/
def Comparable : Prop :=
  ∀ table taps s, ParameterTable.lookup g.scenario (g.linkState a b condition) = .ok table →
    (RealizationContext.candidates table condition.los).run g.source = (.ok taps, s) →
    ∀ tap ∈ taps, (tap.anglePower == tap.anglePower) = true

/-- A new draw misses the carrier, the table or a variable, or goes through. -/
theorem regenerate_outcome (hself : g.Comparable a b condition)
    (previous : Option (Realization R)) :
    ((g.frequency == 0) = true ∧
      ((regenerate now a b condition previous).run g).1 = .error .carrierNotSet) ∨
    ((g.frequency == 0) = false ∧ (g.scenario.isIndoor && condition.o2i) = true ∧
      ((regenerate now a b condition previous).run g).1 =
        .error (.unsupportedCondition g.scenario.name "outdoor-to-indoor links")) ∨
    ((g.frequency == 0) = false ∧
      (g.scenario.isUrban = true ∧ condition.los = true ∧ condition.o2i = true) ∧
      ((regenerate now a b condition previous).run g).1 = .error (.breach .indexInRange)) ∨
    ((g.frequency == 0) = false ∧ (g.scenario.isIndoor && condition.o2i) = false ∧
      ¬(g.scenario.isUrban = true ∧ condition.los = true ∧ condition.o2i = true) ∧
      ∃ m source, (regenerate now a b condition previous).run g =
          (.ok ⟨m, false⟩, g.store source a.endpoint.id b.endpoint.id m) ∧
        m.Complete b.panel a.panel) := by
  rw [run_regenerate, context_eq]
  by_cases hf : (g.frequency == 0) = true
  · exact Or.inl ⟨hf, by rw [if_pos hf]⟩
  right
  have hf' : (g.frequency == 0) = false := by simpa using hf
  rw [if_neg hf]
  rcases ParameterTable.lookup_cases g.scenario (g.linkState a b condition) with
    ⟨hindoor, hlookup⟩ | ⟨hindoor, table, hlookup, htable⟩
  · exact Or.inl ⟨hf', hindoor, by rw [hlookup]; rfl⟩
  right
  rw [hlookup]
  change table.Supports (condition.los && !(g.scenario.isUrban && condition.o2i)) at htable
  have hcontext : Except.map (g.contextOf now a b condition previous) (.ok table) =
      (.ok (g.contextOf now a b condition previous table) : Except (Fault R) _) := rfl
  rw [hcontext]
  dsimp only
  by_cases hurban : g.scenario.isUrban = true ∧ condition.los = true ∧ condition.o2i = true
  · left
    obtain ⟨hu, hlos, ho2i⟩ := hurban
    have hsize : table.correlation.size = 6 := by simpa [hu, hlos, ho2i] using htable.size
    have hdraw := RealizationContext.draw_breach
      (c := g.contextOf now a b condition previous table) hlos hsize g.source
    refine ⟨hf', ⟨hu, hlos, ho2i⟩, ?_⟩
    rcases hrun : (g.contextOf now a b condition previous table).draw.run g.source with
      ⟨e | m, source⟩ <;> rw [hrun] at hdraw <;> cases hdraw
    rfl
  · right
    have hricean : (condition.los && !(g.scenario.isUrban && condition.o2i)) = condition.los := by
      revert hurban
      cases condition.los <;> cases g.scenario.isUrban <;> cases condition.o2i <;> simp
    rw [hricean] at htable
    obtain ⟨m, source, hdraw⟩ := RealizationContext.draw_ok
      (c := g.contextOf now a b condition previous table) htable
      fun taps t hrun => hself table taps t hlookup hrun
    obtain ⟨scale, profile, unwrapped, losses, hdrawn⟩ := RealizationContext.drawn_of_draw hdraw
    refine ⟨hf', hindoor, hurban, m, source, by rw [hdraw], ?_⟩
    exact RealizationContext.complete_of_drawn htable hdrawn

/-- Which requests meet a rule that is broken: those that need a new draw for an urban link into a
building with line of sight, whose table has one variable too few. All other draws go through, unless
a table or the carrier is missing, and give a realization that is complete for the panels of both
ends. -/
theorem channel_breach_iff (hself : g.Comparable a b condition) :
    ((∃ rule, ((channel now a b condition).run g).1 = .error (.breach rule)) ↔
      (a.endpoint.position == b.endpoint.position) = false ∧
      (∀ l, g.peek a.endpoint.id b.endpoint.id = some l →
        g.serves now condition.los l.realization = false) ∧
      (g.frequency == 0) = false ∧
      g.scenario.isUrban = true ∧ condition.los = true ∧ condition.o2i = true) ∧
    ((a.endpoint.position == b.endpoint.position) = false →
      (∀ l, g.peek a.endpoint.id b.endpoint.id = some l →
        g.serves now condition.los l.realization = false) →
      (g.frequency == 0) = false →
      (g.scenario.isIndoor && condition.o2i) = false →
      ¬(g.scenario.isUrban = true ∧ condition.los = true ∧ condition.o2i = true) →
      ∃ m source, (channel now a b condition).run g =
          (.ok ⟨m, false⟩, g.store source a.endpoint.id b.endpoint.id m) ∧
        m.Complete b.panel a.panel) ∧
    (∀ table, ParameterTable.lookup g.scenario (g.linkState a b condition) = .ok table →
      (table.correlation.size = (if condition.los then 7 else 6) ↔
        ¬(g.scenario.isUrban = true ∧ condition.los = true ∧ condition.o2i = true))) := by
  refine ⟨⟨fun ⟨rule, hbreach⟩ => ?_, fun ⟨hpos, hstale, hf, hurban⟩ => ?_⟩,
    fun hpos hstale hf hindoor hurban => ?_, fun table hlookup => ?_⟩
  · by_cases hpos : (a.endpoint.position == b.endpoint.position) = true
    · rw [channel_coincident g now a b condition hpos] at hbreach
      cases hbreach
    have hpos' : (a.endpoint.position == b.endpoint.position) = false := by simpa using hpos
    rcases channel_cases g now a b condition hpos' with ⟨l, -, -, hrun⟩ | ⟨hstale, previous, hrun⟩
    · -- a realization that serves is refused for its dimensions at most
      rw [hrun, checked] at hbreach
      split at hbreach
      · cases hbreach
      · split at hbreach <;> cases hbreach
    · rw [hrun] at hbreach
      rcases regenerate_outcome g now a b condition hself previous with
        ⟨-, he⟩ | ⟨-, -, he⟩ | ⟨hf, hurban, -⟩ | ⟨-, -, -, m, source, hok, -⟩
      · rw [he] at hbreach
        cases hbreach
      · rw [he] at hbreach
        cases hbreach
      · exact ⟨hpos', hstale, hf, hurban⟩
      · rw [hok] at hbreach
        cases hbreach
  · rw [run_channel_of_stale hpos hstale]
    rcases regenerate_outcome g now a b condition hself _ with
      ⟨hf', -⟩ | ⟨-, hindoor, -⟩ | ⟨-, -, he⟩ | ⟨-, -, hnot, -⟩
    · exact absurd hf' (by simp [hf])
    · -- no urban scenario is the indoor one, so the table is there
      rw [Scenario.not_isIndoor_of_isUrban hurban.1] at hindoor
      cases hindoor
    · exact ⟨_, he⟩
    · exact absurd hurban hnot
  · rw [run_channel_of_stale hpos hstale]
    rcases regenerate_outcome g now a b condition hself _ with
      ⟨hf', -⟩ | ⟨-, hindoor', -⟩ | ⟨-, hurban', -⟩ | ⟨-, -, -, hok⟩
    · exact absurd hf' (by simp [hf])
    · exact absurd hindoor' (by simp [hindoor])
    · exact absurd hurban' hurban
    · exact hok
  · rcases ParameterTable.lookup_cases g.scenario (g.linkState a b condition) with
      ⟨-, hnone⟩ | ⟨-, table', hlookup', htable⟩
    · rw [hnone] at hlookup
      cases hlookup
    · rw [hlookup] at hlookup'
      cases hlookup'
      rw [htable.size]
      change (if condition.los && !(g.scenario.isUrban && condition.o2i) then 7 else 6) =
        (if condition.los then 7 else 6) ↔ _
      cases condition.los <;> cases g.scenario.isUrban <;> cases condition.o2i <;> simp

theorem comparable_real (g : Generator ℝ) (a b : Terminal ℝ) (condition : Condition) :
    g.Comparable a b condition :=
  fun _ _ _ _ _ _ _ => ExactScalars.beq_iff.mpr rfl

/-- A link from a mast into a room with line of sight, in town and in the country. -/
theorem channel_breach_in_town :
    let mast : Terminal ℝ := (Device.resting 1 ⟨0, 0, 25⟩ 4).terminal
    let room : Terminal ℝ := (Device.resting 2 ⟨40, 10, 1⟩ 2).terminal
    let town : Generator ℝ := fresh .urbanMacro 28000000000 0 7
    let country : Generator ℝ := fresh .ruralMacro 28000000000 0 7
    town.Comparable mast room ⟨true, true⟩ ∧ country.Comparable mast room ⟨true, true⟩ ∧
      (∃ rule, ((channel 0 mast room ⟨true, true⟩).run town).1 = .error (.breach rule)) ∧
      ∃ m source, (channel 0 mast room ⟨true, true⟩).run country =
          (.ok ⟨m, false⟩, country.store source ⟨1⟩ ⟨2⟩ m) ∧
        m.Complete room.panel mast.panel := by
  intro mast room town country
  have hf : ((28000000000 : ℝ) == 0) = false := ExactScalars.numeral_beq_zero _
  have hpos : (mast.endpoint.position == room.endpoint.position) = false := by
    change ((0 : ℝ) == 40 && (0 : ℝ) == 10 && (25 : ℝ) == 1) = false
    rw [ExactScalars.zero_beq_numeral]
    rfl
  have hstale : ∀ (scenario : Scenario) (l : Link ℝ),
      (fresh scenario (28000000000 : ℝ) 0 7).peek ⟨1⟩ ⟨2⟩ = some l →
      (fresh scenario (28000000000 : ℝ) 0 7).serves 0 true l.realization = false := by
    intro scenario l hl
    rw [peek_fresh] at hl
    cases hl
  obtain ⟨hbreach, -⟩ := channel_breach_iff town 0 mast room ⟨true, true⟩ (comparable_real _ _ _ _)
  obtain ⟨-, hcomplete, -⟩ :=
    channel_breach_iff country 0 mast room ⟨true, true⟩ (comparable_real _ _ _ _)
  exact ⟨comparable_real _ _ _ _, comparable_real _ _ _ _,
    hbreach.mpr ⟨hpos, hstale .urbanMacro, hf, rfl, rfl, rfl⟩,
    hcomplete hpos (hstale .ruralMacro) hf rfl (by simp [country, fresh, Scenario.isUrban])⟩

end Generator

end RadioChannel
