import RadioChannel.Cluster.LargeScale

/-!
# Power delay profiles

The clusters of a realization as delays and powers. Delays are exponential and ascending; powers
decay with the delay and are shadowed cluster by cluster. Clusters too weak to matter are dropped.

With line of sight the first cluster holds the direct ray. Its power counts when clusters are dropped
and when their angles are drawn, and there alone: the power kept for the channel coefficients is that
of the scattered rays.
-/

namespace RadioChannel

open Scalar

/-- A cluster before it has a direction. -/
structure Tap (R : Type) where
  /-- Delay after the first cluster in seconds. -/
  delay : R
  /-- Share of the scattered power. -/
  power : R
  /-- Share of the power with the direct ray included. -/
  anglePower : R
deriving Repr

/-- The clusters of a realization as delays and powers. -/
structure Profile (R : Type) where
  /-- The clusters that were kept, in the order of their delays. -/
  taps : List (Tap R)
  /-- The greatest power with the direct ray included. -/
  peak : R

namespace Profile

variable {R : Type} [Scalar R]

/-- The least of a list of delays; zero for none. -/
def earliest : List R → R
  | [] => 0
  | t :: ts => ts.foldl smaller t

/-- Delays counted from the earliest one, in ascending order. -/
def align (delays : List R) : List R :=
  (delays.map (· - earliest delays)).mergeSort orderedLe

/-- Exponential delays, as many as the table has clusters. -/
def drawDelays (table : ParameterTable R) (spread : R) : Draw R (List R) := do
  let delays ← Draw.times table.clusters do
    return -table.delayScale * spread * ln (← Draw.uniform)
  return align delays

/-- The power of a cluster before normalization: the decay with its delay, times its shadowing. -/
def decay (table : ParameterTable R) (spread delay shadow : R) : R :=
  exp (-delay * (table.delayScale - 1) / table.delayScale / spread) *
    tenTo (-shadow * table.shadowing / 10)

/-- Powers divided by their sum. -/
def normalize (powers : List R) : List R :=
  powers.map (· / Scalar.sum powers)

/-- The powers of clusters at the given delays. -/
def drawPowers (table : ParameterTable R) (spread : R) (delays : List R) : Draw R (List R) := do
  let powers ← delays.mapM fun delay => do
    return decay table spread delay (← Draw.normal)
  return normalize powers

/-- The powers with the direct ray included, which is `ricean` times as strong as all others. -/
def blend (ricean : R) (powers : List R) : List R :=
  match powers.map (· / (1 + ricean)) with
  | [] => []
  | first :: rest => (first + ricean / (1 + ricean)) :: rest

/-- The taps of clusters at the given delays with the given powers. -/
def assemble (los : Bool) (ricean : R) (delays powers : List R) : List (Tap R) :=
  (delays.zip (powers.zip (if los then blend ricean powers else powers))).map
    fun (delay, power, anglePower) => ⟨delay, power, anglePower⟩

/-- The greatest power with the direct ray included. -/
def greatest (taps : List (Tap R)) : R :=
  taps.foldl (fun m t => larger m t.anglePower) 0

/-- The taps that are strong enough beside the strongest one. -/
def prune (taps : List (Tap R)) : List (Tap R) :=
  let limit := pruneThreshold * greatest taps
  taps.filter fun t => le limit t.anglePower

/-- The divisor of the delays with line of sight, a cubic in the Ricean factor in decibels. -/
def delayDivisor (k : R) : R :=
  0.7705 - 0.0433 * k + 2e-4 * square k + 17e-6 * cube k

/-- With line of sight the delays are shortened. -/
def rescale (los : Bool) (k : R) (taps : List (Tap R)) : List (Tap R) :=
  if los then taps.map fun t => { t with delay := t.delay / delayDivisor k } else taps

/-- Draws the profile of a realization. -/
def draw (table : ParameterTable R) (los : Bool) (scale : LargeScale R) :
    Draw R (Profile R) := do
  let delays ← drawDelays table scale.delaySpread
  let powers ← drawPowers table scale.delaySpread delays
  let all := assemble los scale.ricean delays powers
  return ⟨rescale los scale.riceanDb (prune all), greatest all⟩

end Profile

end RadioChannel
