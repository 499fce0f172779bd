import RadioChannel.Scalar

/-!
# Correlation of large-scale parameters

The large-scale parameters of a link are correlated normal variables: independent ones multiplied by
a square root of their correlation matrix. Their order is shadow fading, Ricean factor, delay spread,
azimuth spreads of departure and arrival, zenith spreads of departure and arrival; without line of
sight there is no Ricean factor and the matrix has one row and column less.
-/

namespace RadioChannel

open Scalar

/-- A lower triangular square root of a correlation matrix. -/
structure CorrelationRoot (R : Type) where
  /-- Whether the Ricean factor is among the parameters. -/
  withRicean : Bool
  /-- The rows. -/
  rows : List (List R)

namespace CorrelationRoot

variable {R : Type} [Scalar R]

/-- How many parameters are correlated. -/
def size (m : CorrelationRoot R) : Nat := m.rows.length

/-- The product with a vector of independent variables. A vector that is too short counts as filled
up with zeros. -/
def correlate (m : CorrelationRoot R) (independent : List R) : List R :=
  m.rows.map fun row => Scalar.sum (row.zipWith (· * ·) independent)

/-- Rural macrocell with line of sight. -/
def ruralSight : CorrelationRoot R where
  withRicean := true
  rows :=
    [[1, 0, 0, 0, 0, 0, 0],
      [0, 1, 0, 0, 0, 0, 0],
      [-0.5, 0, 0.866025, 0, 0, 0, 0],
      [0, 0, 0, 1, 0, 0, 0],
      [0, 0, 0, 0, 1, 0, 0],
      [0, 0, 0, 0.5, 0, 0.866025, 0],
      [-0.8, 0, -0.46188, 0, 0, 0, 0.382971]]

/-- Rural macrocell without line of sight. -/
def ruralObstructed : CorrelationRoot R where
  withRicean := false
  rows :=
    [[1, 0, 0, 0, 0, 0],
      [-0.5, 0.866025, 0, 0, 0, 0],
      [0.6, -0.11547, 0.791623, 0, 0, 0],
      [0, 0, 0, 1, 0, 0],
      [0, -0.57735, 0.547399, 0, 0.605823, 0],
      [-0.4, -0.23094, 0.143166, 0, -0.349446, 0.802532]]

/-- Urban macrocell with line of sight. -/
def urbanSight : CorrelationRoot R where
  withRicean := true
  rows :=
    [[1, 0, 0, 0, 0, 0, 0],
      [0, 1, 0, 0, 0, 0, 0],
      [-0.4, -0.4, 0.824621, 0, 0, 0, 0],
      [-0.5, 0, 0.242536, 0.83137, 0, 0, 0],
      [-0.5, -0.2, 0.630593, -0.484671, 0.278293, 0, 0],
      [0, 0, -0.242536, 0.672172, 0.642214, 0.27735, 0],
      [-0.8, 0, -0.388057, -0.367926, 0.238537, -3.58949e-15, 0.130931]]

/-- Urban macrocell without line of sight. -/
def urbanObstructed : CorrelationRoot R where
  withRicean := false
  rows :=
    [[1, 0, 0, 0, 0, 0],
      [-0.4, 0.916515, 0, 0, 0, 0],
      [-0.6, 0.174574, 0.78072, 0, 0, 0],
      [0, 0.654654, 0.365963, 0.661438, 0, 0],
      [0, -0.545545, 0.762422, 0.118114, 0.327327, 0],
      [-0.4, -0.174574, -0.396459, 0.392138, 0.49099, 0.507445]]

/-- From an urban street into a building. -/
def intoBuilding : CorrelationRoot R where
  withRicean := false
  rows :=
    [[1, 0, 0, 0, 0, 0],
      [-0.5, 0.866025, 0, 0, 0, 0],
      [0, 0.46188, 0.886942, 0, 0, 0],
      [0.53, 0.305996, -0.159349, 0.774645, 0, 0],
      [0, 0, 0, 0, 1, 0],
      [0.4, -0.381051, 0.671972, 0.0150753, 0, 0.492978]]

/-- Street canyon with line of sight. -/
def canyonSight : CorrelationRoot R where
  withRicean := true
  rows :=
    [[1, 0, 0, 0, 0, 0, 0],
      [0.5, 0.866025, 0, 0, 0, 0, 0],
      [-0.4, -0.57735, 0.711805, 0, 0, 0, 0],
      [-0.5, 0.057735, 0.468293, 0.726201, 0, 0, 0],
      [-0.4, -0.11547, 0.805464, -0.23482, 0.350363, 0, 0],
      [0, 0, 0, 0.688514, 0.461454, 0.559471, 0],
      [0, 0, 0.280976, 0.231921, -0.490509, 0.11916, 0.782603]]

/-- Street canyon without line of sight. -/
def canyonObstructed : CorrelationRoot R where
  withRicean := false
  rows :=
    [[1, 0, 0, 0, 0, 0],
      [-0.7, 0.714143, 0, 0, 0, 0],
      [0, 0, 1, 0, 0, 0],
      [-0.4, 0.168034, 0, 0.90098, 0, 0],
      [0, -0.70014, 0.5, 0.130577, 0.4927, 0],
      [0, 0, 0.5, 0.221981, -0.566238, 0.616522]]

/-- Indoor office with line of sight. -/
def officeSight : CorrelationRoot R where
  withRicean := true
  rows :=
    [[1, 0, 0, 0, 0, 0, 0],
      [0.5, 0.866025, 0, 0, 0, 0, 0],
      [-0.8, -0.11547, 0.588784, 0, 0, 0, 0],
      [-0.4, 0.23094, 0.520847, 0.717903, 0, 0, 0],
      [-0.5, 0.288675, 0.73598, -0.348236, 0.0610847, 0, 0],
      [0.2, -0.11547, 0.418943, 0.123222, -0.525329, 0.69282, 0],
      [-0.1, 0.173205, 0.237778, -0.00535748, 0.378725, 0.490748, 0.720532]]

/-- Indoor office without line of sight. -/
def officeObstructed : CorrelationRoot R where
  withRicean := false
  rows :=
    [[1, 0, 0, 0, 0, 0],
      [-0.5, 0.866025, 0, 0, 0, 0],
      [0, 0.46188, 0.886942, 0, 0, 0],
      [-0.4, -0.23094, 0.120263, 0.878751, 0, 0],
      [0, -0.11547, 0.398372, 0.0289317, 0.909466, 0],
      [-0.1, -0.173205, 0.315691, -0.134243, 0.283816, 0.872792]]

end CorrelationRoot

end RadioChannel
