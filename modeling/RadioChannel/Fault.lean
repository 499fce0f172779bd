import RadioChannel.Node
import RadioChannel.Scalar.Numeral

/-!
# Faults

Why an operation of the library gives no answer. Most faults are answers to the host about its
request. A `breach` says instead that a caller broke a rule the operation relies on; the library
never checks these in advance, and stops at the first one it meets.
-/

namespace RadioChannel

/-- A rule that callers keep. -/
inductive Requirement where
  /-- Every index lies inside its list. -/
  | indexInRange
  /-- A panel whose elements are addressed has at least one column and one row. -/
  | panelNotEmpty
  /-- A period can be held in 64 bits of seconds. -/
  | periodRepresentable
deriving Repr, DecidableEq

/-- Why an operation gives no answer. -/
inductive Fault (R : Type) where
  /-- No scenario has this name. -/
  | unknownScenario (name : String)
  /-- A realization needs a carrier frequency. -/
  | carrierNotSet
  /-- No angular shape factor is tabulated for this number of clusters. -/
  | noAngularScaling (clusters : Nat)
  /-- The scenario does not describe the requested condition. -/
  | unsupportedCondition (scenario reason : String)
  /-- A channel has other dimensions than the arrays it is used with. -/
  | dimensionMismatch (expectedRx expectedTx actualRx actualTx : Nat)
  /-- Two nodes at one place see each other in no direction. -/
  | coincident (a b : NodeId)
  /-- A geometric beam has no codebook data. -/
  | notCodebookBeam
  /-- No device has this number. -/
  | unknownDevice (id : NodeId)
  /-- A device has this number already. -/
  | duplicateDevice (id : NodeId)
  /-- The layer has no beam. -/
  | missingBeam (layer : UInt8)
  /-- A complex spectrum needs beams at both ends. -/
  | omniArray
  /-- Only one end of a link may combine digitally. -/
  | combiningAtBothEnds
  /-- Every transmit beam was excluded from the search. -/
  | noAvailableBeam
  /-- A pivot of the factorization was not positive. -/
  | notPositiveDefinite (pivot : R)
  /-- A bundle names as many peers as layers. -/
  | bundleMismatch (peers layers : Nat)
  /-- No beam selection strategy has this name. -/
  | unknownStrategy (name : String)
  /-- No panel orientation has this name. -/
  | unknownOrientation (name : String)
  /-- A spectrum has at least one band. -/
  | emptySpectrum
  /-- A caller broke a rule. -/
  | breach (rule : Requirement)
deriving Repr, DecidableEq

namespace Requirement

/-- The rule in words. -/
def message : Requirement → String
  | indexInRange => "index out of range"
  | panelNotEmpty => "panel has no elements"
  | periodRepresentable => "period out of range"

end Requirement

namespace Fault

/-- The text shown to the host. -/
def message {R : Type} [Numeral R] : Fault R → String
  | unknownScenario name => s!"unknown scenario: {name}"
  | carrierNotSet => "carrier frequency is not set"
  | noAngularScaling clusters => s!"no angular scaling factor for {clusters} clusters"
  | unsupportedCondition scenario reason => s!"scenario {scenario} does not support {reason}"
  | dimensionMismatch expectedRx expectedTx actualRx actualTx =>
    s!"channel tensor is {actualRx}x{actualTx}, arrays expect {expectedRx}x{expectedTx}"
  | coincident a b => s!"devices {a.number} and {b.number} share the same position"
  | notCodebookBeam => "beam cache entry was not produced by a codebook strategy"
  | unknownDevice id => s!"unknown device {id.number}"
  | duplicateDevice id => s!"device {id.number} is already registered"
  | missingBeam layer => s!"no beamforming vector on layer {layer}"
  | omniArray => "array is in omni transmission mode"
  | combiningAtBothEnds => "digital combining cannot be active at both ends of a link"
  | noAvailableBeam => "no transmit beam left after exclusions"
  | notPositiveDefinite pivot =>
    s!"matrix is not positive definite (pivot {Numeral.decimal pivot})"
  | bundleMismatch peers layers => s!"slot bundle has {peers} peers but {layers} layers"
  | unknownStrategy name => s!"unknown beamforming strategy: {name}"
  | unknownOrientation name => s!"unknown antenna orientation: {name}"
  | emptySpectrum => "spectrum grid is empty"
  | breach rule => rule.message

end Fault

variable {R α : Type}

/-- The element of a list at an index that callers keep inside it. -/
def entryAt (xs : List α) (i : Nat) : Except (Fault R) α :=
  match xs[i]? with
  | some x => .ok x
  | none => .error (.breach .indexInRange)

end RadioChannel
