import RadioChannel.Proofs.Coefficients
import RadioChannel.Proofs.Selections

/-!
# What serving a bundle asks for

Selecting the beams of a bundle and asking for the gains of its streams changes nothing of a device but
the searches it keeps, and of the evaluator only what requests and projections change.
-/

namespace RadioChannel

namespace BeamDesk

/-- What searches and questions of a node leave as it is at a point of time. -/
structure Onward (now : Nanoseconds) (own : NodeId) (s t : BeamDesk ℝ) : Prop where
  array : t.array = s.array
  grid : t.engine.grid = s.engine.grid
  noisePower : t.engine.noisePower = s.engine.noisePower
  referencePower : t.engine.referencePower = s.engine.referencePower
  evaluator : Evaluator.Later now own s.evaluator t.evaluator

variable {now : Nanoseconds} {own : Endpoint ℝ} {peer : Device ℝ}

theorem Onward.refl {own : NodeId} (s : BeamDesk ℝ) : Onward now own s s :=
  ⟨rfl, rfl, rfl, rfl, .refl _⟩

theorem Onward.trans {own : NodeId} (s t u : BeamDesk ℝ) (h : Onward now own s t)
    (h' : Onward now own t u) : Onward now own s u where
  array := h'.array.trans h.array
  grid := h'.grid.trans h.grid
  noisePower := h'.noisePower.trans h.noisePower
  referencePower := h'.referencePower.trans h.referencePower
  evaluator := .trans _ _ _ h.evaluator h'.evaluator

theorem advances_onEvaluator {α : Type} {own : NodeId} {x : Action ℝ (Evaluator ℝ) α}
    (hx : Action.Advances (Evaluator.Later now own) x) :
    Action.Advances (Onward now own) (onEvaluator x) :=
  fun s => ⟨rfl, rfl, rfl, rfl, hx s.evaluator⟩

/-! ## Searches -/

theorem advances_searchCodebook (hne : own.id ≠ peer.id) :
    Action.Advances (Onward now own.id) (searchCodebook now own peer) := by
  refine Action.advances_get_bind fun s => ?_
  have hasked (offset : ℝ) : Action.Advances (Onward now own.id)
      (onEvaluator (Evaluator.flatMatrix now ⟨own, s.array⟩ peer offset)) :=
    advances_onEvaluator (Evaluator.advances_flatMatrix (a := ⟨own, s.array⟩) hne offset)
  refine Action.Advances.bind Onward.trans (hasked _) (fun h => ?_) s
  refine Action.Advances.bind Onward.trans (Action.advances_ofExcept .refl _) fun equivalent => ?_
  cases Codebook.strongest equivalent [] with
  | none => exact fun t => .refl t
  | some pair => exact fun t => ⟨rfl, rfl, rfl, rfl, .refl _⟩

theorem advances_codebookBeam (hne : own.id ≠ peer.id) :
    Action.Advances (Onward now own.id) (codebookBeam now own peer) := by
  refine Action.advances_get_bind fun s => ?_
  cases s.engine.selected? own.id peer.id with
  | none => exact advances_searchCodebook hne s
  | some b =>
    refine Action.Advances.bind Onward.trans (Action.advances_ofExcept .refl _) (fun search => ?_) s
    split
    · exact fun t => .refl t
    · exact advances_searchCodebook hne

end BeamDesk

namespace Bundle

open BeamDesk

variable {now : Nanoseconds} {loss : FreeSpace ℝ} {own : Endpoint ℝ} {peers : List (Device ℝ)}
variable {s s' : BeamDesk ℝ}

theorem advances_searchOf {peer : Device ℝ} (hne : own.id ≠ peer.id) :
    Action.Advances (Onward now own.id) (searchOf now own peer) :=
  Action.Advances.bind Onward.trans (advances_codebookBeam hne) fun _ =>
    Action.advances_ofExcept .refl _

/-- The analog stage has a pair, a beam and an amplitude for each peer. -/
theorem analogStage_ok {stage : AnalogStage ℝ} (hpeers : ∀ peer ∈ peers, own.id ≠ peer.id)
    (h : (analogStage now loss own peers).run s = (.ok stage, s')) :
    Onward now own.id s s' ∧ stage.pairs.length = peers.length ∧
      stage.beams.length = peers.length ∧ stage.amplitudes = peers.map fun peer =>
        loss.amplitude s.engine.referencePower own peer.endpoint := by
  obtain ⟨searches, hsearches, -, -, -, hamplitudes⟩ := run_analogStage_ok h
  obtain ⟨honward, -⟩ := Action.run_mapM_ok .refl Onward.trans
    (fun peer hpeer => advances_searchOf (hpeers peer hpeer)) hsearches
  obtain ⟨hpairs, hbeams⟩ := lengths_of_analogStage h
  rw [honward.referencePower] at hamplitudes
  exact ⟨honward, hpairs, hbeams, hamplitudes⟩

end Bundle

end RadioChannel
