import RadioChannel.Fault

/-!
# Spectra

A grid of subbands, given by their centre frequencies, and powers sampled on it. A grid has at least
one subband.
-/

namespace RadioChannel

open Scalar

/-- The centre frequencies of subbands in hertz, in order. -/
structure SpectrumGrid (R : Type) where
  /-- The frequencies. -/
  centers : List R
  /-- There is at least one. -/
  nonempty : centers ≠ []

namespace SpectrumGrid

variable {R : Type}

/-- The grid with the given frequencies. -/
def ofCenters (centers : List R) : Except (Fault R) (SpectrumGrid R) :=
  if h : centers ≠ [] then .ok ⟨centers, h⟩ else .error .emptySpectrum

/-- So many equal subbands that span a bandwidth around a frequency. -/
def uniform [Scalar R] (center bandwidth : R) (bands : Nat) : Except (Fault R) (SpectrumGrid R) :=
  let width := bandwidth / Scalar.ofNat bands
  let start := center - bandwidth / 2
  ofCenters ((List.range bands).map fun i => start + (Scalar.ofNat i + 0.5) * width)

/-- How many subbands the grid has. -/
def size (g : SpectrumGrid R) : Nat := g.centers.length

/-- A grid has a subband. -/
theorem size_pos (g : SpectrumGrid R) : 0 < g.size := List.length_pos_iff.mpr g.nonempty

end SpectrumGrid

/-- A power density or a gain in each subband of a grid. -/
structure Spectrum (R : Type) where
  /-- The subbands. -/
  grid : SpectrumGrid R
  /-- The values, in the order of the subbands. -/
  values : List R

namespace Spectrum

variable {R : Type} [Scalar R]

/-- The same value in every subband. -/
def constant (grid : SpectrumGrid R) (value : R) : Spectrum R :=
  ⟨grid, List.replicate grid.size value⟩

/-- The spectrum multiplied by a gain, subband by subband. -/
def scaledBy (s : Spectrum R) (gain : List R) : Spectrum R :=
  { s with values := s.values.zipWith (· * ·) gain }

/-- The sum of the values. -/
def sum (s : Spectrum R) : R := Scalar.sum s.values

/-- The mean of the values. -/
def mean (s : Spectrum R) : R := s.sum / Scalar.ofNat s.values.length

end Spectrum

end RadioChannel
