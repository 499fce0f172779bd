import RadioChannel.Proofs.Idling
import RadioChannel.Proofs.Reuse

/-!
# Blockers stay with their link

The blockers of a link are drawn with its first realization. Every later one takes them over from the
realization that it replaces, in whichever direction that was drawn, and moves no more than their
azimuths. So all realizations of a link have the same screens around the terminal.
-/

namespace RadioChannel

open Scalar

variable {R : Type}

/-- What stays of a blocker while it drifts: width, zenith, height and distance. -/
def Blocker.screen (b : Blocker R) : R × R × R × R := (b.width, b.zenith, b.height, b.distance)

/-- The screens around the terminal, in order. -/
def Realization.screens (m : Realization R) : List (R × R × R × R) := m.blockers.map Blocker.screen

variable [Scalar R]

/-! ## Steps of the blockers -/

namespace BlockageModel

theorem length_spawn (model : BlockageModel R) (s : RandomSource R) :
    (model.spawn.run s).1.length = model.count :=
  length_times _ _ _

/-- Drifting blockers keep their screens. -/
theorem screens_drift (model : BlockageModel R) (blockers : List (Blocker R))
    (displacement elapsed : R) (o2i : Bool) (s : RandomSource R) :
    ((model.drift blockers displacement elapsed o2i).run s).1.map Blocker.screen =
      blockers.map Blocker.screen := by
  unfold drift
  split
  · rw [← List.forall₂_eq_eq_eq, List.forall₂_map_left_iff, List.forall₂_map_right_iff]
    refine List.Forall₂.imp ?_ (mapM_forall₂ _ blockers s).flip
    rintro drifted blocker ⟨t, rfl⟩
    rfl
  · rfl

/-- Blockers that do not move by themselves stay where they are around a terminal at rest. -/
theorem drift_at_rest {model : BlockageModel R} (hspeed : lt 1e-6 model.speed = false)
    {displacement : R} (hrest : le displacement 1e-6 = true) (blockers : List (Blocker R))
    (elapsed : R) (o2i : Bool) :
    model.drift blockers displacement elapsed o2i = pure blockers := by
  have hstill : model.drifts displacement = false := by simp [drifts, moving, hspeed, hrest]
  simp only [drift, hstill, Bool.false_eq_true, if_false]

end BlockageModel

namespace RealizationContext

variable {c : RealizationContext R} {model : BlockageModel R}

theorem length_drawBlockers (hprevious : c.previous = none) (s : RandomSource R) :
    ((c.drawBlockers model).run s).1.length = model.count := by
  rw [drawBlockers, hprevious]
  exact model.length_spawn s

/-- The blockers of the last realization are taken over with their screens, and as they are where
nothing moves. -/
theorem drawBlockers_of_previous {previous : Realization R} (hprevious : c.previous = some previous)
    (hcount : previous.blockers.length = model.count) (s : RandomSource R) :
    ((c.drawBlockers model).run s).1.map Blocker.screen = previous.screens ∧
      (lt 1e-6 model.speed = false →
        le (previous.terminal.horizontalDistance c.geometry.terminal) 1e-6 = true →
        ((c.drawBlockers model).run s).1 = previous.blockers) := by
  rw [drawBlockers, hprevious]
  dsimp only
  split
  · next hempty =>
    -- a model without blockers draws none again
    have hnone : previous.blockers = [] := List.isEmpty_iff.mp hempty
    have hspawned : (model.spawn.run s).1 = [] := by
      rw [← List.length_eq_zero_iff, model.length_spawn, ← hcount, hnone, List.length_nil]
    rw [Realization.screens, hnone, hspawned]
    exact ⟨rfl, fun _ _ => rfl⟩
  · refine ⟨model.screens_drift _ _ _ _ _, fun hspeed hrest => ?_⟩
    rw [BlockageModel.drift_at_rest hspeed hrest]
    rfl

end RealizationContext

/-- The blockers of a drawn realization. -/
theorem Drawn.blockers_eq {c : RealizationContext R} {m : Realization R} {scale : LargeScale R}
    {profile : Profile R} {unwrapped : List (Directions R)} {losses : List R}
    (h : Drawn c m scale profile unwrapped losses) {model : BlockageModel R}
    (hmodel : c.blockage = some model) : ∃ s, ((c.drawBlockers model).run s).1 = m.blockers := by
  obtain ⟨s, hs⟩ := h.losses_eq
  rw [RealizationContext.drawBlockage, hmodel] at hs
  exact ⟨s, congrArg Prod.fst hs⟩

namespace Generator

/-! ## Births of a link -/

/-- The blockers of all births persist: there are as many as the model has, those of one link have the
same screens, and those of a birth are those of the link's birth before it, if neither the terminal nor
the blockers moved. -/
structure Persisting (model : BlockageModel R) (births : List (Birth R)) : Prop where
  count : ∀ x ∈ births, x.realization.blockers.length = model.count
  screens : ∀ x ∈ births, ∀ y ∈ births, x.link = y.link →
    x.realization.screens = y.realization.screens
  resting : ∀ (newer between older : List (Birth R)) (x y : Birth R),
    births = newer ++ y :: (between ++ x :: older) → y.link = x.link →
    (∀ z ∈ between, z.link ≠ x.link) → lt 1e-6 model.speed = false →
    le (x.realization.terminal.horizontalDistance y.realization.terminal) 1e-6 = true →
    y.realization.blockers = x.realization.blockers

theorem Persisting.nil (model : BlockageModel R) : Persisting model [] where
  count := by simp
  screens := by simp
  resting newer between older x y h := by simp at h

/-- A birth that takes over the blockers of the link's last one lets them persist. -/
theorem Persisting.cons {model : BlockageModel R} {births : List (Birth R)}
    (h : Persisting model births) {birth : Birth R}
    (hfirst : Birth.latest births birth.tx birth.rx = none →
      birth.realization.blockers.length = model.count)
    (hnext : ∀ last, Birth.latest births birth.tx birth.rx = some last →
      birth.realization.screens = last.realization.screens ∧
      (lt 1e-6 model.speed = false →
        le (last.realization.terminal.horizontalDistance birth.realization.terminal) 1e-6 = true →
        birth.realization.blockers = last.realization.blockers)) :
    Persisting model (birth :: births) where
  count := by
    intro x hx
    rcases List.mem_cons.mp hx with rfl | hx
    · cases hlatest : Birth.latest births x.tx x.rx with
      | none => exact hfirst hlatest
      | some last =>
        have hscreens := congrArg List.length (hnext last hlatest).1
        rw [Realization.screens, Realization.screens, List.length_map, List.length_map] at hscreens
        rw [hscreens]
        exact h.count last (List.mem_of_find?_eq_some hlatest)
    · exact h.count x hx
  screens := by
    have hearlier : ∀ y ∈ births, birth.link = y.link →
        birth.realization.screens = y.realization.screens := by
      intro y hy hlink
      obtain ⟨last, hlatest⟩ := Option.isSome_iff_exists.mp
        (Birth.latest_isSome_iff.mpr (List.mem_map.mpr ⟨y, hy, hlink.symm⟩))
      have hlast : last.link = s(birth.tx, birth.rx) := by simpa using List.find?_some hlatest
      exact (hnext last hlatest).1.trans
        (h.screens last (List.mem_of_find?_eq_some hlatest) y hy (hlast.trans hlink))
    intro x hx y hy hlink
    rcases List.mem_cons.mp hx with hx | hx <;> rcases List.mem_cons.mp hy with hy | hy
    · rw [hx, hy]
    · rw [hx] at hlink ⊢
      exact hearlier y hy hlink
    · rw [hy] at hlink ⊢
      exact (hearlier x hx hlink.symm).symm
    · exact h.screens x hx y hy hlink
  resting := by
    intro newer between older x y hbirths hlink hbetween hspeed hrest
    cases newer with
    | nil =>
      obtain ⟨rfl, rfl⟩ := List.cons.inj hbirths
      have hlatest : Birth.latest (between ++ x :: older) birth.tx birth.rx = some x := by
        rw [Birth.latest, List.find?_append, List.find?_eq_none.mpr, Option.none_or,
          List.find?_cons_of_pos]
        · exact decide_eq_true hlink.symm
        · intro z hz hzlink
          exact hbetween z hz ((of_decide_eq_true hzlink).trans hlink)
      exact (hnext x hlatest).2 hspeed hrest
    | cons first newer =>
      obtain ⟨-, hrest_births⟩ := List.cons.inj hbirths
      exact h.resting newer between older x y hrest_births hlink hbetween hspeed hrest

/-! ## Runs -/

variable {g : Generator R} {births : List (Birth R)}

/-- A realization that a request stored has the blockers of the link's last one, or the first ones. -/
theorem blockers_of_store {now : Nanoseconds} {a b : Terminal R}
    {condition : Condition} {m : Realization R} {source : RandomSource R} {model : BlockageModel R}
    (hmodel : g.blockage = some model)
    (h : (channel now a b condition).run g =
      (.ok ⟨m, false⟩, g.store source a.endpoint.id b.endpoint.id m)) :
    (g.peek a.endpoint.id b.endpoint.id = none → m.blockers.length = model.count) ∧
    ∀ l, g.peek a.endpoint.id b.endpoint.id = some l →
      l.realization.blockers.length = model.count →
      m.screens = l.realization.screens ∧
      (lt 1e-6 model.speed = false →
        le (l.realization.terminal.horizontalDistance m.terminal) 1e-6 = true →
        m.blockers = l.realization.blockers) := by
  obtain ⟨table, scale, profile, unwrapped, losses, -, hdrawn⟩ := drawn_of_store h
  obtain ⟨s, hs⟩ := hdrawn.blockers_eq hmodel
  refine ⟨fun hnone => ?_, fun l hl hcount => ?_⟩
  · rw [← hs]
    exact RealizationContext.length_drawBlockers (by rw [contextOf, hnone]; rfl) s
  · obtain ⟨hscreens, hresting⟩ := RealizationContext.drawBlockers_of_previous
      (c := g.contextOf now a b condition ((g.peek a.endpoint.id b.endpoint.id).map
        Link.realization) table) (by rw [contextOf, hl]; rfl) hcount s
    rw [hs] at hscreens hresting
    rw [← hdrawn.terminal] at hresting
    exact ⟨hscreens, hresting⟩

/-- In every history the blockers of all births persist. -/
theorem History.persisting (h : History g births) {model : BlockageModel R}
    (hmodel : g.blockage = some model) : Persisting model births := by
  induction h with
  | start h => exact Persisting.nil model
  | tune frequency _ ih => exact ih hmodel
  | request now a b condition hid hbefore ih =>
    rename_i g births
    have hkept : g.blockage = some model := by
      obtain ⟨source, drawn, cache, hframe⟩ := channel_keeps g now a b condition
      rwa [hframe] at hmodel
    rcases born_cases g now a b condition with ⟨hborn, -, -⟩ | ⟨m, source, hborn, hrun, -⟩
    · rw [hborn]
      exact ih hkept
    rw [hborn]
    obtain ⟨hfirst, hnext⟩ := blockers_of_store hkept hrun
    rw [hbefore.mirrors.peek_eq hid] at hfirst hnext
    refine (ih hkept).cons (fun hnone => hfirst (by rw [hnone]; rfl)) fun last hlast => ?_
    exact hnext _ (by rw [hlast]; rfl) ((ih hkept).count last (List.mem_of_find?_eq_some hlast))

/-- The blockers of a link persist over its life, whatever is asked for in between. All realizations of
the link, drawn in either direction, have as many blockers as the model says, and the same widths,
zeniths, heights and distances at the same places. A realization has the very blockers of the link's
realization before it, if the terminal has not moved since and the blockers do not move by themselves. -/
theorem History.blockers_persist (h : History g births) {model : BlockageModel R}
    (hmodel : g.blockage = some model) :
    (∀ x ∈ births, ∀ y ∈ births, x.link = y.link →
      x.realization.blockers.length = model.count ∧ y.realization.blockers.length = model.count ∧
      ∀ (k : Nat) (b b' : Blocker R), x.realization.blockers[k]? = some b →
        y.realization.blockers[k]? = some b' →
        b.width = b'.width ∧ b.zenith = b'.zenith ∧ b.height = b'.height ∧
          b.distance = b'.distance) ∧
    ∀ (newer between older : List (Birth R)) (x y : Birth R),
      births = newer ++ y :: (between ++ x :: older) → y.link = x.link →
      (∀ z ∈ between, z.link ≠ x.link) → lt 1e-6 model.speed = false →
      le (x.realization.terminal.horizontalDistance y.realization.terminal) 1e-6 = true →
      y.realization.blockers = x.realization.blockers := by
  have hpersisting := h.persisting hmodel
  refine ⟨fun x hx y hy hlink => ⟨hpersisting.count x hx, hpersisting.count y hy,
    fun k b b' hb hb' => ?_⟩, hpersisting.resting⟩
  have hscreen := congrArg (·[k]?) (hpersisting.screens x hx y hy hlink)
  simpa [Realization.screens, Blocker.screen, hb, hb'] using hscreen

/-! ## A car among parked ones -/

/-- A request that stores a realization adds its birth to the history. -/
theorem History.request_stored {now : Nanoseconds} {a b : Terminal R} {condition : Condition}
    {m : Realization R} {source : RandomSource R} (h : History g births)
    (hid : a.endpoint.id ≠ b.endpoint.id) (hrun : (channel now a b condition).run g =
      (.ok ⟨m, false⟩, g.store source a.endpoint.id b.endpoint.id m)) :
    History (g.store source a.endpoint.id b.endpoint.id m)
      (⟨a.endpoint.id, b.endpoint.id, m⟩ :: births) := by
  have hrequest := h.request now a b condition hid
  have hborn : g.born now a b condition = [⟨a.endpoint.id, b.endpoint.id, m⟩] := by
    simp [born, hrun, store]
  rwa [hborn, hrun] at hrequest

/-- A generator in the country, where four parked vehicles stand around each terminal. -/
noncomputable def parked : Generator ℝ :=
  { fresh .ruralMacro 28000000000 0 1 with blockage := some ⟨.ruralMacro, 4, .portrait, 0⟩ }

theorem terminal_tower_car : (LinkGeometry.between tower.endpoint.position
    car.endpoint.position).terminal = car.endpoint.position := by
  refine if_neg ?_
  change ¬(le (25 : ℝ) 1 = true)
  rw [ExactScalars.le_iff]
  simp

theorem terminal_car_tower : (LinkGeometry.between car.endpoint.position
    tower.endpoint.position).terminal = car.endpoint.position := by
  refine if_pos ?_
  change le (1 : ℝ) 25 = true
  rw [ExactScalars.le_iff]
  simp

theorem horizontalDistance_self (p : Vec3 ℝ) :
    p.horizontalDistance p = @OfNat.ofNat ℝ 0 Zero.toOfNat0 := by
  simp only [Vec3.horizontalDistance, sub_self, mul_zero, add_zero]
  exact Real.sqrt_zero

theorem tolerance_pos : @OfNat.ofNat ℝ 0 Zero.toOfNat0 < (1e-6 : ℝ) := by
  have h : (1e-6 : ℝ) = (1 : ℕ) * (10 : ℝ) ^ (-(6 : ℕ) : ℤ) := rfl
  rw [h, ExactScalars.numeral_eq]
  positivity

/-- The car asks for its link to the tower after the tower has, without line of sight this time, and
gets a realization of its own with the same four blockers. -/
theorem blockers_persist_parked :
    ∃ (g : Generator ℝ) (m m' : Realization ℝ),
      History g [⟨⟨2⟩, ⟨1⟩, m'⟩, ⟨⟨1⟩, ⟨2⟩, m⟩] ∧
      g.blockage = some ⟨.ruralMacro, 4, .portrait, 0⟩ ∧ m.serial ≠ m'.serial ∧
      m.blockers.length = 4 ∧ m'.blockers = m.blockers := by
  have hcarrier : (parked.frequency == 0) = false := ExactScalars.numeral_beq_zero _
  have hback : (car.endpoint.position == tower.endpoint.position) = false := by
    change ((40 : ℝ) == 0 && (10 : ℝ) == 0 && (1 : ℝ) == 25) = false
    rw [ExactScalars.numeral_beq_zero]
    rfl
  -- the tower asks first
  obtain ⟨m, source, hfirst, -⟩ := channel_ruralMacro (g := parked) rfl hcarrier 0
    ⟨true, false⟩ apart_country fun l hl => by
      simp [parked, fresh, peek] at hl
  obtain ⟨_, _, _, _, _, -, hdrawn⟩ := drawn_of_store hfirst
  have hhistory := (History.start (g := parked) rfl).request_stored (by decide) hfirst
  generalize hg : parked.store source tower.endpoint.id car.endpoint.id m = g at hfirst hhistory
  have hheld : g.peek ⟨2⟩ ⟨1⟩ = some ⟨m, true⟩ := by
    rw [← hg, peek_store]
    rfl
  have hsight : m.condition.los = true := congrArg Condition.los hdrawn.condition
  -- then the car does, and the line of sight is gone
  obtain ⟨m', source', hsecond, -⟩ := channel_ruralMacro (g := g) (hg ▸ rfl) (hg ▸ hcarrier) 0
    ⟨false, false⟩ hback fun l hl => by
      obtain rfl : ⟨m, true⟩ = l := Option.some.inj (hheld.symm.trans hl)
      simp [serves, hsight]
  obtain ⟨_, _, _, _, _, -, hdrawn'⟩ := drawn_of_store hsecond
  replace hhistory := hhistory.request_stored (by decide) hsecond
  have hmodel : (g.store source' car.endpoint.id tower.endpoint.id m').blockage =
      some ⟨.ruralMacro, 4, .portrait, 0⟩ := hg ▸ rfl
  obtain ⟨hscreens, hresting⟩ := hhistory.blockers_persist hmodel
  have hrest : le (m.terminal.horizontalDistance m'.terminal) (1e-6 : ℝ) = true := by
    rw [hdrawn.terminal, hdrawn'.terminal, contextOf, contextOf, terminal_tower_car,
      terminal_car_tower, horizontalDistance_self, ExactScalars.le_iff]
    exact tolerance_pos.le
  have hstill : lt (1e-6 : ℝ) (0 : ℝ) = false := by
    rw [← Bool.not_eq_true, ExactScalars.lt_iff, ExactScalars.zero_eq]
    exact tolerance_pos.not_gt
  refine ⟨_, m, m', hhistory, hmodel, ?_, ?_, ?_⟩
  · rw [hdrawn.serial, hdrawn'.serial, contextOf, contextOf, ← hg]
    exact Nat.zero_ne_one
  · have hmem : (⟨⟨1⟩, ⟨2⟩, m⟩ : Birth ℝ) ∈ [⟨⟨2⟩, ⟨1⟩, m'⟩, ⟨⟨1⟩, ⟨2⟩, m⟩] :=
      List.mem_cons_of_mem _ List.mem_cons_self
    exact (hscreens _ hmem _ hmem rfl).1
  · exact hresting [] [] [] ⟨⟨1⟩, ⟨2⟩, m⟩ ⟨⟨2⟩, ⟨1⟩, m'⟩ rfl Sym2.eq_swap (by simp) hstill hrest

end Generator

end RadioChannel
