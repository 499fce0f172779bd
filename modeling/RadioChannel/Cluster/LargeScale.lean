import RadioChannel.Random.Source
import RadioChannel.Scenario.Table

/-!
# Large-scale parameters

The Ricean factor and the spreads of one realization: correlated normal variables, of which all but
the Ricean factor are exponents of ten.
-/

namespace RadioChannel

open Scalar

/-- The large-scale parameters of a realization. -/
structure LargeScale (R : Type) where
  /-- Ricean factor in decibels; zero without line of sight. -/
  riceanDb : R
  /-- Delay spread in seconds. -/
  delaySpread : R
  /-- Azimuth spread of departure in degrees. -/
  azimuthDeparture : R
  /-- Azimuth spread of arrival in degrees. -/
  azimuthArrival : R
  /-- Zenith spread of departure in degrees. -/
  zenithDeparture : R
  /-- Zenith spread of arrival in degrees. -/
  zenithArrival : R
deriving Repr

namespace LargeScale

variable {R : Type} [Scalar R]

/-- A log-normal value from a standard normal one. -/
def logNormal (s : Spread R) (x : R) : R := tenTo (x * s.deviation + s.mean)

/-- The spreads made from the last five of the correlated variables. -/
def ofVariables (table : ParameterTable R) (riceanDb ds asd asa zsd zsa : R) : LargeScale R where
  riceanDb := riceanDb
  delaySpread := logNormal table.delaySpread ds
  azimuthDeparture := smaller (logNormal table.azimuthDeparture asd) maxAzimuthSpread
  azimuthArrival := smaller (logNormal table.azimuthArrival asa) maxAzimuthSpread
  zenithDeparture := smaller (logNormal table.zenithDeparture zsd) maxZenithSpread
  zenithArrival := smaller (logNormal table.zenithArrival zsa) maxZenithSpread

/-- The parameters read off the correlated variables. Shadow fading comes first and is left to the
path loss; with line of sight the Ricean factor comes next. -/
def ofCorrelated (table : ParameterTable R) (los : Bool) (correlated : List R) :
    Except (Fault R) (LargeScale R) :=
  match los, correlated with
  | true, _ :: k :: ds :: asd :: asa :: zsd :: zsa :: _ =>
    .ok (ofVariables table (k * table.ricean.deviation + table.ricean.mean) ds asd asa zsd zsa)
  | false, _ :: ds :: asd :: asa :: zsd :: zsa :: _ =>
    .ok (ofVariables table 0 ds asd asa zsd zsa)
  | _, _ => .error (.breach .indexInRange)

/-- The correlated values of one realization. -/
def drawCorrelated (table : ParameterTable R) : Draw R (List R) := do
  return table.correlation.correlate (← Draw.times table.correlation.size Draw.normal)

/-- The Ricean factor as a ratio of powers. -/
def ricean (l : LargeScale R) : R := tenTo (l.riceanDb / 10)

end LargeScale

end RadioChannel
