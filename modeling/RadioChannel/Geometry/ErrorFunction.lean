import RadioChannel.Scalar

/-!
# The complementary error function

A rational approximation with an absolute error below `1.5e-7`. It maps a normal variable to a
uniform one.
-/

namespace RadioChannel

open Scalar

/-- The complementary error function, by the polynomial in `1 / (1 + p |x|)` of degree five. The
negative half follows by `erfc (-x) = 2 - erfc x`. -/
def erfc {R : Type} [Scalar R] (x : R) : R :=
  let t := 1 / (1 + 0.3275911 * absolute x)
  let poly :=
    t * (0.254829592 + t * (-0.284496736 + t * (1.421413741 + t * (-1.453152027 + t * 1.061405429))))
  let result := poly * exp (-x * x)
  if le 0 x then result else 2 - result

end RadioChannel
