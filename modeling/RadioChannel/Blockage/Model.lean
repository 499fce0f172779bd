import RadioChannel.Blockage.Blocker
import RadioChannel.Random.Source
import RadioChannel.Scenario.Basic
import RadioChannel.Settings

/-!
# Blockage

The blockers of a link are drawn once. From one realization of the link to the next only their
azimuths drift, correlated in the distance the terminal moved and in the time that passed.
-/

namespace RadioChannel

open Scalar

/-- How the links of one channel are blocked. -/
structure BlockageModel (R : Type) where
  /-- The scenario, which decides on the size of blockers. -/
  scenario : Scenario
  /-- How many blockers a link has. -/
  count : Nat
  /-- The region the user hides. -/
  selfRegion : SelfRegion R
  /-- Speed of the blockers in metres per second. -/
  speed : R

namespace BlockageModel

variable {R : Type} [Scalar R]

/-- The model that settings describe. -/
def ofSettings (scenario : Scenario) (s : ChannelSettings R) : BlockageModel R where
  scenario := scenario
  count := s.blockerCount
  selfRegion := if s.portrait then .portrait else .landscape
  speed := s.blockerSpeed

/-! ## Drawing blockers -/

/-- A new blocker: indoors a person or a piece of furniture, outdoors a vehicle. -/
def drawBlocker (m : BlockageModel R) : Draw R (Blocker R) := do
  let state ← Draw.normal
  if m.scenario.isIndoor then
    let width ← Draw.uniformIn 15 45
    let height ← Draw.uniformIn 5 15
    return ⟨state, width, 90, height, 2⟩
  else
    let width ← Draw.uniformIn 5 15
    return ⟨state, width, 90, 5, 10⟩

/-- A new set of blockers. -/
def spawn (m : BlockageModel R) : Draw R (List (Blocker R)) :=
  Draw.times m.count m.drawBlocker

/-! ## Drift -/

/-- Whether the blockers move by themselves. -/
def moving (m : BlockageModel R) : Bool := lt 1e-6 m.speed

/-- The distance in metres over which azimuths are correlated. -/
def correlationDistance (m : BlockageModel R) (o2i : Bool) : R :=
  if m.scenario.isIndoor || o2i then 5 else 10

/-- The correlation of azimuths after a displacement in metres and a time in seconds. -/
def azimuthCorrelation (m : BlockageModel R) (displacement elapsed : R) (o2i : Bool) : R :=
  let distance := m.correlationDistance o2i
  if m.moving then
    exp (-(displacement / distance + elapsed / (distance / m.speed)))
  else exp (-(displacement / distance))

/-- The correlation of normal variables that gives uniform ones the correlation `r`: a quadratic fit,
where it stays below one. -/
def stateCorrelation (r : R) : R :=
  let mapped := -0.069 * r * r + 1.074 * r - 0.002
  if lt mapped 1 then mapped else r

/-- The factor of the old state in the new one. -/
def retention (m : BlockageModel R) (displacement elapsed : R) (o2i : Bool) : R :=
  stateCorrelation (m.azimuthCorrelation displacement elapsed o2i)

/-- The factor of the fresh sample in the new state. -/
def innovation (r : R) : R := sqrt (larger (1 - r * r) 0)

/-- Whether blockers drift at all: they do not around a terminal at rest, if they do not move. -/
def drifts (m : BlockageModel R) (displacement : R) : Bool :=
  !(le displacement 1e-6 && !m.moving)

/-- The blockers after a displacement of the terminal and some time. -/
def drift (m : BlockageModel R) (blockers : List (Blocker R)) (displacement elapsed : R)
    (o2i : Bool) : Draw R (List (Blocker R)) :=
  if m.drifts displacement then
    let r := m.retention displacement elapsed o2i
    let fresh := innovation r
    blockers.mapM fun b => do
      return { b with state := r * b.state + fresh * (← Draw.normal) }
  else pure blockers

/-! ## Attenuation -/

/-- The loss in decibels of a direction of arrival, in degrees: that of the user's body and that of
every blocker that affects it. -/
def attenuation (m : BlockageModel R) (blockers : List (Blocker R)) (frequency azimuth zenith : R) :
    R :=
  let wavelength := speedOfLight / frequency
  blockers.foldl
    (fun loss b =>
      match b.loss? azimuth zenith wavelength with
      | some l => loss + l
      | none => loss)
    (if m.selfRegion.contains azimuth zenith then 0 + selfBlockingLoss else 0)

end BlockageModel

end RadioChannel
