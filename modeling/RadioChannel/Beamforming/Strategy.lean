import RadioChannel.Fault

/-!
# Beam selection strategies
-/

namespace RadioChannel

/-- How a device selects its beams. -/
inductive Strategy where
  /-- Straight toward the peer. -/
  | geometric
  /-- The best pair of codebook beams. -/
  | codebook
  /-- Codebook beams mixed over a bundle, alike in all subbands. -/
  | flatMmse
  /-- Codebook beams combined digitally over a bundle, subband by subband. -/
  | spectralMmse
deriving Repr, DecidableEq

namespace Strategy

/-- The name of a strategy. -/
def name : Strategy → String
  | geometric => "dft"
  | codebook => "codebook"
  | flatMmse => "mmse"
  | spectralMmse => "mmse_spectrum"

/-- The strategy with a name. The codebook search has a second one. -/
def ofName {R : Type} : String → Except (Fault R) Strategy
  | "dft" => .ok geometric
  | "codebook" | "fft_codebook" => .ok codebook
  | "mmse" => .ok flatMmse
  | "mmse_spectrum" => .ok spectralMmse
  | other => .error (.unknownStrategy other)

/-- Every strategy is found under its name. -/
theorem ofName_name {R : Type} (s : Strategy) :
    (ofName s.name : Except (Fault R) Strategy) = .ok s := by
  cases s <;> rfl

end Strategy

end RadioChannel
