import RadioChannel.Antenna.Array
import RadioChannel.Realization.Draw

/-!
# Channel generator

The generator keeps one realization for each link. It is drawn for the direction first asked for and
serves both directions until the line of sight changes or its time is up. Then it is replaced by one
drawn for the direction that asked.

Realizations are cached under the key of their direction; at most one direction of a link is cached.
-/

namespace RadioChannel

open Scalar

/-- Draws channels and keeps them. -/
structure Generator (R : Type) where
  /-- The scenario. -/
  scenario : Scenario
  /-- Carrier frequency in hertz. -/
  frequency : R
  /-- How long a realization is kept; an empty period keeps it for good. -/
  updatePeriod : Nanoseconds
  /-- How links are blocked, if they are. -/
  blockage : Option (BlockageModel R)
  /-- Where samples are drawn from. -/
  source : RandomSource R
  /-- How many realizations have been drawn. -/
  drawn : Nat
  /-- The realizations, by the key of their direction. -/
  cache : Std.HashMap Nat (Realization R)

/-- One end of a link as the generator sees it: a node and the panel it uses. -/
structure Terminal (R : Type) where
  /-- The node. -/
  endpoint : Endpoint R
  /-- Its panel. -/
  panel : Panel R

/-- The device's end of its links. -/
def Device.terminal {R : Type} (d : Device R) : Terminal R := ⟨d.endpoint, d.array.panel⟩

namespace Generator

variable {R : Type} [Scalar R]

/-- The generator that settings describe. -/
def ofSettings (s : ChannelSettings R) : Except (Fault R) (Generator R) := do
  let scenario ← Scenario.ofName s.scenario
  let updatePeriod ← s.updatePeriod
  return {
    scenario := scenario
    frequency := s.frequency
    updatePeriod := updatePeriod
    blockage := if s.blockage then some (BlockageModel.ofSettings scenario s) else none
    source := .ofSeed s.seed
    drawn := 0
    cache := ∅ }

/-- Moves the carrier. Realizations already drawn stay. -/
def setFrequency (g : Generator R) (frequency : R) : Generator R := { g with frequency := frequency }

/-- How many links have a realization. -/
def cachedLinks (g : Generator R) : Nat := g.cache.size

/-- The realization of a link as seen from `a` to `b`, if there is one. -/
def peek (g : Generator R) (a b : NodeId) : Option (Link R) :=
  match g.cache[a.keyTo b]? with
  | some m => some ⟨m, false⟩
  | none => g.cache[b.keyTo a]?.map fun m => ⟨m, true⟩

/-- Whether a realization has served its time. -/
def expired (g : Generator R) (now : Nanoseconds) (m : Realization R) : Bool :=
  g.updatePeriod != 0 && g.updatePeriod < now - m.generatedAt

/-- Whether a realization still serves a link: with the same line of sight, and not expired. -/
def serves (g : Generator R) (now : Nanoseconds) (los : Bool) (m : Realization R) : Bool :=
  m.condition.los == los && !g.expired now m

/-- What a new realization from `a` to `b` depends on. -/
def context (g : Generator R) (now : Nanoseconds) (a b : Terminal R) (condition : Condition)
    (previous : Option (Realization R)) : Except (Fault R) (RealizationContext R) := do
  if g.frequency == 0 then throw .carrierNotSet
  let geometry := LinkGeometry.between a.endpoint.position b.endpoint.position
  let table ← ParameterTable.lookup g.scenario {
    los := condition.los
    o2i := condition.o2i
    upperHeight := geometry.upperHeight
    lowerHeight := geometry.lowerHeight
    distance := geometry.distance
    frequency := g.frequency }
  return {
    serial := g.drawn
    table := table
    condition := condition
    geometry := geometry
    rx := b.panel
    tx := a.panel
    frequency := g.frequency
    now := now
    blockage := g.blockage
    previous := previous }

/-- Draws a new realization from `a` to `b` and puts it in the place of the link's last one, in
whichever direction that was. A failure changes nothing but the random source. -/
def regenerate (now : Nanoseconds) (a b : Terminal R) (condition : Condition)
    (previous : Option (Realization R)) : Action R (Generator R) (Link R) := fun g =>
  match g.context now a b condition previous with
  | .error e => (.error e, g)
  | .ok c =>
    match c.draw.run g.source with
    | (.error e, source) => (.error e, { g with source := source })
    | (.ok m, source) =>
      (.ok ⟨m, false⟩,
        { g with
          source := source
          drawn := g.drawn + 1
          cache := (g.cache.insert (a.endpoint.id.keyTo b.endpoint.id) m).erase
            (b.endpoint.id.keyTo a.endpoint.id) })

/-- The channel from `a` to `b`: the cached realization while it serves, and else a new one. -/
def channel (now : Nanoseconds) (a b : Terminal R) (condition : Condition) :
    Action R (Generator R) (Link R) := fun g =>
  if a.endpoint.position == b.endpoint.position then
    (.error (.coincident a.endpoint.id b.endpoint.id), g)
  else
    match g.peek a.endpoint.id b.endpoint.id with
    | none => regenerate now a b condition none g
    | some link =>
      if g.serves now condition.los link.realization then
        (match link.checkDimensions b.panel.elementCount a.panel.elementCount with
          | .ok () => .ok link
          | .error e => .error e, g)
      else regenerate now a b condition (some link.realization) g

end Generator

end RadioChannel
