import RadioChannel.Proofs.Actions
import RadioChannel.Realization.Draw

/-!
# How a realization is drawn

A draw that answers went through all of its steps. `Drawn` names what the steps left behind, so that
statements on realizations need not open the draw again.
-/

namespace RadioChannel

open Scalar

variable {R : Type} [Scalar R]

/-- What the steps of a draw leave behind in the realization `m`: the large-scale parameters, the
profile, the directions before wrapping and the losses of the clusters. -/
structure Drawn (c : RealizationContext R) (m : Realization R) (scale : LargeScale R)
    (profile : Profile R) (unwrapped : List (Directions R)) (losses : List R) : Prop where
  serial : m.serial = c.serial
  condition : m.condition = c.condition
  generatedAt : m.generatedAt = c.now
  terminal : m.terminal = c.geometry.terminal
  riceanDb : m.riceanDb = scale.riceanDb
  scale_eq : ∃ s, LargeScale.ofCorrelated c.table c.condition.los
    ((LargeScale.drawCorrelated c.table).run s).1 = .ok scale
  profile_eq : ∃ s, ((Profile.draw c.table c.condition.los scale).run s).1 = profile
  unwrapped_eq : ∃ s t, (Directions.draw c.table c.condition.los c.condition.o2i c.geometry scale
    profile).run s = (.ok unwrapped, t)
  losses_eq : ∃ s, ((c.drawBlockage (unwrapped.map Directions.wrap)).run s).1 = (m.blockers, losses)
  powers_eq : m.powers = RealizationContext.attenuate (profile.taps.map Tap.power) losses
  phases_eq : ∃ s, ((c.drawPhases m.powers.length).run s).1 = m.phases
  delays_eq : RealizationContext.withSubClusters (splitClusters m.powers) c.subClusterDelays
    (profile.taps.map Tap.delay) = (.ok m.delays : Except (Fault R) _)
  directions_eq : RealizationContext.withSubClusters (splitClusters m.powers) (fun d => [d, d])
    (unwrapped.map Directions.wrap) = (.ok m.directions : Except (Fault R) _)
  tensor_eq : m.tensor = c.tensor scale (c.rayClusters unwrapped m.phases m.powers) m.directPhase
    (losses.head?.getD 0)

namespace RealizationContext

variable {c : RealizationContext R} {m : Realization R} {s s' : RandomSource R}

/-- A draw that answers left all of this behind. -/
theorem drawn_of_draw (h : c.draw.run s = (.ok m, s')) :
    ∃ scale profile unwrapped losses, Drawn c m scale profile unwrapped losses := by
  unfold draw at h
  simp only [Action.run_bind_ok, Action.run_liftState, Action.run_liftExcept, Action.run_pure,
    Prod.mk.injEq, Except.ok.injEq] at h
  obtain ⟨correlated, s₁, ⟨rfl, rfl⟩, scale, s₂, ⟨hscale, rfl⟩, profile, s₃, ⟨hprofile, rfl⟩,
    unwrapped, s₄, hunwrapped, blockage, s₅, ⟨hblockage, rfl⟩, phases, s₆, ⟨hphases, rfl⟩,
    directPhase, s₇, ⟨rfl, rfl⟩, delays, s₈, ⟨hdelays, rfl⟩, directions, s₉, ⟨hdirections, rfl⟩,
    rfl, rfl⟩ := h
  exact ⟨scale, profile, unwrapped, blockage.2, {
    serial := rfl
    condition := rfl
    generatedAt := rfl
    terminal := rfl
    riceanDb := rfl
    scale_eq := ⟨_, hscale⟩
    profile_eq := ⟨_, hprofile⟩
    unwrapped_eq := ⟨_, _, hunwrapped⟩
    losses_eq := ⟨_, hblockage⟩
    powers_eq := rfl
    phases_eq := ⟨_, hphases⟩
    delays_eq := hdelays
    directions_eq := hdirections
    tensor_eq := rfl }⟩

end RealizationContext

end RadioChannel
