import RadioChannel.Fault
import RadioChannel.Time

/-!
# Settings

What the host chooses for a scene, for the channel in it, and for each device's panel and beam
selection. Names of scenarios, orientations and strategies are text here; they are read where the
part they configure is built.
-/

namespace RadioChannel

open Scalar

/-- Settings of the statistical channel. -/
structure ChannelSettings (R : Type) where
  /-- Name of the scenario. -/
  scenario : String
  /-- Carrier frequency in hertz. -/
  frequency : R
  /-- How long a realization is kept, in milliseconds; an empty period keeps it for good. -/
  updatePeriodMs : R
  /-- Whether clusters can be blocked. -/
  blockage : Bool
  /-- Number of blockers around a terminal, its user apart. -/
  blockerCount : Nat
  /-- Whether the terminal is held upright. -/
  portrait : Bool
  /-- Speed of the blockers in metres per second. -/
  blockerSpeed : R
  /-- Seed of the random stream. -/
  seed : UInt64

/-- Settings of a planar panel. -/
structure PanelSettings (R : Type) where
  /-- Elements in a row. -/
  columns : UInt32
  /-- Number of rows. -/
  rows : UInt32
  /-- Distance of columns in wavelengths. -/
  spacingH : R
  /-- Distance of rows in wavelengths. -/
  spacingV : R
  /-- Name of the orientation. -/
  orientation : String

/-- Settings of a device's beam selection. -/
structure BeamSettings (R : Type) where
  /-- Name of the strategy. -/
  strategy : String
  /-- How long a codebook search stays valid, in milliseconds. -/
  codebookRefreshMs : R
  /-- Regularization of the digital stage, in the unit of the squared equivalent channel. -/
  noisePower : R
  /-- Transmit power at which path amplitudes are taken, in dBm. -/
  referencePower : R

/-- Settings of a scene. -/
structure SceneSettings (R : Type) where
  /-- The channel. -/
  channel : ChannelSettings R
  /-- Span of the subbands around the carrier in hertz. -/
  bandwidth : R
  /-- Number of subbands. -/
  subbands : Nat

/-- A period in milliseconds as nanoseconds. -/
def periodOfMilliseconds {R : Type} [Scalar R] (ms : R) : Except (Fault R) Nanoseconds :=
  match Nanoseconds.ofMilliseconds? ms with
  | some t => .ok t
  | none => .error (.breach .periodRepresentable)

namespace ChannelSettings

variable {R : Type} [Scalar R]

/-- A macrocell at 28 GHz that is drawn anew every millisecond, without blockage. -/
def standard : ChannelSettings R where
  scenario := "UMa"
  frequency := 28000000000
  updatePeriodMs := 1
  blockage := false
  blockerCount := 4
  portrait := true
  blockerSpeed := 1
  seed := 1

/-- How long a realization is kept. -/
def updatePeriod (s : ChannelSettings R) : Except (Fault R) Nanoseconds :=
  periodOfMilliseconds s.updatePeriodMs

end ChannelSettings

/-- A panel of four columns and eight rows at half a wavelength. -/
def PanelSettings.standard {R : Type} [Scalar R] : PanelSettings R where
  columns := 4
  rows := 8
  spacingH := 0.5
  spacingV := 0.5
  orientation := "X0"

namespace BeamSettings

variable {R : Type} [Scalar R]

/-- Geometric beams. -/
def standard : BeamSettings R where
  strategy := "dft"
  codebookRefreshMs := 100
  noisePower := 1e-13
  referencePower := 30

/-- How long a codebook search stays valid. -/
def codebookRefresh (s : BeamSettings R) : Except (Fault R) Nanoseconds :=
  periodOfMilliseconds s.codebookRefreshMs

end BeamSettings

/-- Sixteen subbands over 100 MHz. -/
def SceneSettings.standard {R : Type} [Scalar R] : SceneSettings R where
  channel := ChannelSettings.standard
  bandwidth := 100000000
  subbands := 16

end RadioChannel
