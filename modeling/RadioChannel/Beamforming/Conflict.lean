import RadioChannel.Beamforming.Codebook

/-!
# Beam conflicts

In a bundle no two peers may be served on one transmitting beam. Peers are taken in order; one whose
beam is taken already gets its strongest pair among those with a free beam.
-/

namespace RadioChannel

namespace Codebook

variable {R : Type} [Scalar R]

/-- Resolves the selections of peers in order, after some beams were claimed. The selections come
back also where it fails: those before the failure resolved, the others as they were. Peers without a
matrix are left as they are. -/
def resolveFrom (claimed : List Nat) :
    List BeamPair → List (Matrix R) → Except (Fault R) Unit × List BeamPair
  | pair :: pairs, g :: gs =>
    if claimed.contains pair.tx then
      match strongest g claimed with
      | none => (.error .noAvailableBeam, pair :: pairs)
      | some other =>
        let (outcome, rest) := resolveFrom (other.tx :: claimed) pairs gs
        (outcome, other :: rest)
    else
      let (outcome, rest) := resolveFrom (pair.tx :: claimed) pairs gs
      (outcome, pair :: rest)
  | pairs, _ => (.ok (), pairs)

/-- Gives the peers of a bundle distinct transmitting beams, by their selections and by the channels
between all beams. -/
def resolveConflicts (pairs : List BeamPair) (equivalents : List (Matrix R)) :
    Except (Fault R) Unit × List BeamPair :=
  resolveFrom [] pairs equivalents

end Codebook

end RadioChannel
