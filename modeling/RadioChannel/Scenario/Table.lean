import RadioChannel.Scenario.Basic
import RadioChannel.Scenario.Correlation

/-!
# Parameter tables

The statistics of the cluster model for each scenario and condition. Delay spreads are in seconds and
angular spreads in degrees; both are log-normal, given by mean and deviation of their decimal
logarithms. Some entries depend on the carrier, on the distance and on the heights of the two ends.
-/

namespace RadioChannel

open Scalar

/-- Mean and standard deviation of a normal variable. -/
structure Spread (R : Type) where
  /-- The mean. -/
  mean : R
  /-- The standard deviation. -/
  deviation : R
deriving Repr

/-- The statistics of one scenario and condition. -/
structure ParameterTable (R : Type) where
  /-- Number of clusters. -/
  clusters : Nat
  /-- Rays in each cluster. -/
  rays : Nat
  /-- Logarithm of the delay spread. -/
  delaySpread : Spread R
  /-- Logarithm of the azimuth spread of departure. -/
  azimuthDeparture : Spread R
  /-- Logarithm of the azimuth spread of arrival. -/
  azimuthArrival : Spread R
  /-- Logarithm of the zenith spread of arrival. -/
  zenithArrival : Spread R
  /-- Logarithm of the zenith spread of departure. -/
  zenithDeparture : Spread R
  /-- Offset of the zenith of departure in degrees. -/
  zenithOffset : R
  /-- Delay spread within a cluster in seconds. -/
  clusterDelay : R
  /-- Azimuth spread of departure within a cluster in degrees. -/
  clusterAzimuthDeparture : R
  /-- Azimuth spread of arrival within a cluster in degrees. -/
  clusterAzimuthArrival : R
  /-- Zenith spread of arrival within a cluster in degrees. -/
  clusterZenithArrival : R
  /-- Ricean factor in decibels. -/
  ricean : Spread R
  /-- Proportion of the delays' scale to the delay spread. -/
  delayScale : R
  /-- Deviation of the shadowing of each cluster in decibels. -/
  shadowing : R
  /-- Root of the correlation of the large-scale parameters. -/
  correlation : CorrelationRoot R

/-- What a table depends on. -/
structure LinkState (R : Type) where
  /-- The condition's line of sight. -/
  los : Bool
  /-- Whether the link leads into a building. -/
  o2i : Bool
  /-- Height of the higher end in metres. -/
  upperHeight : R
  /-- Height of the lower end in metres. -/
  lowerHeight : R
  /-- Horizontal distance in metres. -/
  distance : R
  /-- Carrier frequency in hertz. -/
  frequency : R

namespace ParameterTable

variable {R : Type} [Scalar R]

/-- The table of a rural macrocell. It depends on the distance alone, and makes no difference for
links into buildings. -/
def ruralMacro (los : Bool) (distance : R) : ParameterTable R :=
  if los then
    { clusters := 11
      rays := 20
      delaySpread := ⟨-7.49, 0.55⟩
      azimuthDeparture := ⟨0.90, 0.38⟩
      azimuthArrival := ⟨1.52, 0.24⟩
      zenithArrival := ⟨0.60, 0.16⟩
      zenithDeparture := ⟨0.3, 0.4⟩
      zenithOffset := 0
      clusterDelay := 3.91e-9
      clusterAzimuthDeparture := 2
      clusterAzimuthArrival := 3
      clusterZenithArrival := 3
      ricean := ⟨7, 4⟩
      delayScale := 3.8
      shadowing := 3
      correlation := .ruralSight }
  else
    { clusters := 10
      rays := 20
      delaySpread := ⟨-7.43, 0.48⟩
      azimuthDeparture := ⟨0.95, 0.45⟩
      azimuthArrival := ⟨1.52, 0.13⟩
      zenithArrival := ⟨0.88, 0.16⟩
      zenithDeparture := ⟨0.3, 0.49⟩
      zenithOffset := atan (30 / distance) - atan (33.5 / distance)
      clusterDelay := 3.91e-9
      clusterAzimuthDeparture := 2
      clusterAzimuthArrival := 3
      clusterZenithArrival := 3
      ricean := ⟨0, 0⟩
      delayScale := 1.7
      shadowing := 3
      correlation := .ruralObstructed }

/-- The table of an urban link into a building, whatever its line of sight. -/
def intoBuilding (zenithDeparture : Spread R) (zenithOffset : R) : ParameterTable R where
  clusters := 12
  rays := 20
  delaySpread := ⟨-6.62, 0.32⟩
  azimuthDeparture := ⟨1.25, 0.42⟩
  azimuthArrival := ⟨1.76, 0.16⟩
  zenithArrival := ⟨1.01, 0.43⟩
  zenithDeparture := zenithDeparture
  zenithOffset := zenithOffset
  clusterDelay := 11e-9
  clusterAzimuthDeparture := 5
  clusterAzimuthArrival := 20
  clusterZenithArrival := 6
  ricean := ⟨0, 0⟩
  delayScale := 2.2
  shadowing := 4
  correlation := .intoBuilding

/-- The table of an urban macrocell with line of sight outdoors; `lg` is the logarithm of the carrier
in gigahertz. -/
def urbanMacroSight (link : LinkState R) (lg clusterDelay : R) : ParameterTable R where
  clusters := 12
  rays := 20
  delaySpread := ⟨-6.955 - 0.0963 * lg, 0.66⟩
  azimuthDeparture := ⟨1.06 + 0.1114 * lg, 0.28⟩
  azimuthArrival := ⟨1.81, 0.20⟩
  zenithArrival := ⟨0.95, 0.16⟩
  zenithDeparture :=
    ⟨larger (-2.1 * link.distance / 1000 - 0.01 * (link.lowerHeight - 1.5) + 0.75) (-0.5), 0.40⟩
  zenithOffset := 0
  clusterDelay := clusterDelay
  clusterAzimuthDeparture := 5
  clusterAzimuthArrival := 11
  clusterZenithArrival := 7
  ricean := ⟨9, 3.5⟩
  delayScale := 2.5
  shadowing := 3
  correlation := .urbanSight

/-- The table of an urban macrocell without line of sight outdoors. -/
def urbanMacroObstructed (zenithMean zenithOffset lg clusterDelay : R) : ParameterTable R where
  clusters := 20
  rays := 20
  delaySpread := ⟨-6.28 - 0.204 * lg, 0.39⟩
  azimuthDeparture := ⟨1.5 - 0.1144 * lg, 0.28⟩
  azimuthArrival := ⟨2.08 - 0.27 * lg, 0.11⟩
  zenithArrival := ⟨-0.3236 * lg + 1.512, 0.16⟩
  zenithDeparture := ⟨zenithMean, 0.49⟩
  zenithOffset := zenithOffset
  clusterDelay := clusterDelay
  clusterAzimuthDeparture := 2
  clusterAzimuthArrival := 15
  clusterZenithArrival := 7
  ricean := ⟨0, 0⟩
  delayScale := 2.3
  shadowing := 3
  correlation := .urbanObstructed

/-- The table of an urban macrocell at a carrier in gigahertz. -/
def urbanMacro (link : LinkState R) (gigahertz : R) : ParameterTable R :=
  let lg := log10 gigahertz
  let clusterDelay := larger (-3.4084 * lg + 6.5622) 0.25 * 1e-9
  if link.los && !link.o2i then urbanMacroSight link lg clusterDelay
  else
    let zenithMean :=
      larger (-2.1 * link.distance / 1000 - 0.01 * (link.lowerHeight - 1.5) + 0.9) (-0.5)
    let slope := 0.208 * lg - 0.782
    let offset := -0.13 * lg + 2.03
    let ceiling := 7.66 * lg - 5.96
    let zenithOffset := ceiling - tenTo (slope * log10 (larger link.distance 25) + offset)
    if link.o2i then intoBuilding ⟨zenithMean, 0.49⟩ zenithOffset
    else urbanMacroObstructed zenithMean zenithOffset lg clusterDelay

/-- The table of a street canyon with line of sight outdoors; `lg` is the logarithm of one plus the
carrier in gigahertz. -/
def streetCanyonSight (link : LinkState R) (lg : R) : ParameterTable R where
  clusters := 12
  rays := 20
  delaySpread := ⟨-0.24 * lg - 7.14, 0.38⟩
  azimuthDeparture := ⟨-0.05 * lg + 1.21, 0.41⟩
  azimuthArrival := ⟨-0.08 * lg + 1.73, 0.014 * lg + 0.28⟩
  zenithArrival := ⟨-0.1 * lg + 0.73, -0.04 * lg + 0.34⟩
  zenithDeparture :=
    ⟨larger (-14.8 * link.distance / 1000
        + 0.01 * absolute (link.lowerHeight - link.upperHeight) + 0.83) (-0.21), 0.35⟩
  zenithOffset := 0
  clusterDelay := 5e-9
  clusterAzimuthDeparture := 3
  clusterAzimuthArrival := 17
  clusterZenithArrival := 7
  ricean := ⟨9, 5⟩
  delayScale := 3
  shadowing := 3
  correlation := .canyonSight

/-- The table of a street canyon without line of sight outdoors. -/
def streetCanyonObstructed (zenithMean zenithOffset lg : R) : ParameterTable R where
  clusters := 19
  rays := 20
  delaySpread := ⟨-0.24 * lg - 6.83, 0.16 * lg + 0.28⟩
  azimuthDeparture := ⟨-0.23 * lg + 1.53, 0.11 * lg + 0.33⟩
  azimuthArrival := ⟨-0.08 * lg + 1.81, 0.05 * lg + 0.3⟩
  zenithArrival := ⟨-0.04 * lg + 0.92, -0.07 * lg + 0.41⟩
  zenithDeparture := ⟨zenithMean, 0.35⟩
  zenithOffset := zenithOffset
  clusterDelay := 11e-9
  clusterAzimuthDeparture := 10
  clusterAzimuthArrival := 22
  clusterZenithArrival := 7
  ricean := ⟨0, 0⟩
  delayScale := 2.1
  shadowing := 3
  correlation := .canyonObstructed

/-- The table of a street canyon at a carrier in gigahertz. -/
def streetCanyon (link : LinkState R) (gigahertz : R) : ParameterTable R :=
  let lg := log10 (1 + gigahertz)
  if link.los && !link.o2i then streetCanyonSight link lg
  else
    let zenithMean :=
      larger (-3.1 * link.distance / 1000
        + 0.01 * larger (link.lowerHeight - link.upperHeight) 0 + 0.2) (-0.5)
    let zenithOffset := -tenTo (-1.5 * log10 (larger link.distance 10) + 3.3)
    if link.o2i then intoBuilding ⟨zenithMean, 0.35⟩ zenithOffset
    else streetCanyonObstructed zenithMean zenithOffset lg

/-- The table of an indoor office at a carrier in gigahertz. -/
def office (los : Bool) (gigahertz : R) : ParameterTable R :=
  let lg := log10 (1 + gigahertz)
  if los then
    { clusters := 8
      rays := 20
      delaySpread := ⟨-0.01 * lg - 7.79, -0.16 * lg + 0.50⟩
      azimuthDeparture := ⟨1.60, 0.18⟩
      azimuthArrival := ⟨-0.19 * lg + 1.86, 0.12 * lg⟩
      zenithArrival := ⟨-0.26 * lg + 1.21, -0.04 * lg + 0.17⟩
      zenithDeparture := ⟨-1.43 * lg + 2.25, 0.13 * lg + 0.15⟩
      zenithOffset := 0
      clusterDelay := 3.91e-9
      clusterAzimuthDeparture := 7
      clusterAzimuthArrival := -6.2 * lg + 16.72
      clusterZenithArrival := -3.85 * lg + 10.28
      ricean := ⟨0.84 * lg + 2.12, -0.58 * lg + 6.19⟩
      delayScale := 2.15
      shadowing := 6
      correlation := .officeSight }
  else
    { clusters := 10
      rays := 20
      delaySpread := ⟨-0.28 * lg - 7.29, 0.1 * lg + 0.11⟩
      azimuthDeparture := ⟨1.49, 0.17⟩
      azimuthArrival := ⟨-0.11 * lg + 1.8, 0.12 * lg⟩
      zenithArrival := ⟨-0.15 * lg + 1.04, -0.09 * lg + 0.24⟩
      zenithDeparture := ⟨1.37, 0.38⟩
      zenithOffset := 0
      clusterDelay := 3.91e-9
      clusterAzimuthDeparture := 3
      clusterAzimuthArrival := -13 * lg + 30.53
      clusterZenithArrival := -3.72 * lg + 10.25
      ricean := ⟨0, 0⟩
      delayScale := 1.84
      shadowing := 3
      correlation := .officeObstructed }

/-- The table of a scenario for a link. Offices have no links into buildings. -/
def lookup (scenario : Scenario) (link : LinkState R) : Except (Fault R) (ParameterTable R) :=
  let gigahertz := link.frequency / 1000000000
  match scenario with
  | .ruralMacro => .ok (ruralMacro link.los link.distance)
  | .urbanMacro => .ok (urbanMacro link gigahertz)
  | .streetCanyon => .ok (streetCanyon link gigahertz)
  | .mixedOffice | .openOffice =>
    if link.o2i then .error (.unsupportedCondition scenario.name "outdoor-to-indoor links")
    else .ok (office link.los gigahertz)

end ParameterTable

/-! ## Angular scaling -/

section Scaling

variable {R : Type} [Scalar R]

/-- The factor from azimuth spread to cluster azimuths, by the number of clusters. -/
def azimuthScaling : Nat → Except (Fault R) R
  | 4 => .ok 0.779
  | 5 => .ok 0.860
  | 8 => .ok 1.018
  | 10 => .ok 1.090
  | 11 => .ok 1.123
  | 12 => .ok 1.146
  | 14 => .ok 1.190
  | 15 => .ok 1.221
  | 16 => .ok 1.226
  | 19 => .ok 1.273
  | 20 => .ok 1.289
  | n => .error (.noAngularScaling n)

/-- The factor from zenith spread to cluster zeniths, by the number of clusters. -/
def zenithScaling : Nat → Except (Fault R) R
  | 8 => .ok 0.889
  | 10 => .ok 0.957
  | 11 => .ok 1.031
  | 12 => .ok 1.104
  | 19 => .ok 1.184
  | 20 => .ok 1.178
  | n => .error (.noAngularScaling n)

/-- The offsets of the twenty rays of a cluster from its centre, for a spread of one degree. -/
def rayOffsets : List R :=
  [0.0447, -0.0447, 0.1413, -0.1413, 0.2492, -0.2492, 0.3715, -0.3715, 0.5129, -0.5129,
    0.6797, -0.6797, 0.8844, -0.8844, 1.1481, -1.1481, 1.5195, -1.5195, 2.1551, -2.1551]

/-- Azimuth spreads are cut off here, in degrees. -/
def maxAzimuthSpread : R := 104

/-- Zenith spreads are cut off here, in degrees. -/
def maxZenithSpread : R := 52

/-- Clusters weaker than this fraction of the strongest one are dropped. -/
def pruneThreshold : R := 0.0032

end Scaling

end RadioChannel
