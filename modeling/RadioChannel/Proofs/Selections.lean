import RadioChannel.Beamforming.Bundle
import RadioChannel.Proofs.Actions

/-!
# What selecting beams leaves

Selecting beams changes nothing of a device but the beams that its engine keeps, and every beam that is
newly kept was steered or searched for at its own panel. Serving a bundle also sets beams, on the same
panel.
-/

namespace RadioChannel

open Scalar

variable {R : Type} [Scalar R]

namespace BeamDesk

/-- How a beam that is kept was selected for a peer: steered at it, or found in a codebook search of the
channel between the two. -/
inductive Selected (now : Nanoseconds) (own : Endpoint R) (panel : Panel R) (peer : Device R) :
    SelectedBeam R → Prop
  | steered : Selected now own panel peer ⟨own.position, peer.endpoint.position,
      panel.steer own.position peer.endpoint.position, none⟩
  | searched {device : Device R} {v v' : Evaluator R} {h equivalent : Matrix R}
    {pair : Codebook.BeamPair} (hown : device.endpoint = own) (hpanel : device.array.panel = panel)
    (hchannel : (Evaluator.flatMatrix now device peer 0).run v = (.ok h, v'))
    (hequivalent : Codebook.equivalent h peer.array.panel.size panel.size = .ok equivalent)
    (hpair : Codebook.strongest equivalent [] = some pair) :
    Selected now own panel peer ⟨own.position, peer.endpoint.position,
      ⟨Codebook.weights panel.size pair.tx, .codebook pair.tx pair.rx⟩, some ⟨now, pair, equivalent⟩⟩

/-- Work at a desk for the peers that were asked for. -/
structure Works (now : Nanoseconds) (own : Endpoint R) (asked : Device R → Prop)
    (s t : BeamDesk R) : Prop where
  panel : t.array.panel = s.array.panel
  settings : t.engine = { s.engine with cache := t.engine.cache }
  kept : ∀ key b, t.engine.cache[key]? = some b → s.engine.cache[key]? = some b ∨
    ∃ peer, asked peer ∧ key = own.id.keyTo peer.id ∧ Selected now own s.array.panel peer b

/-- Work that sets no beams. -/
structure Selects (now : Nanoseconds) (own : Endpoint R) (asked : Device R → Prop)
    (s t : BeamDesk R) : Prop extends Works now own asked s t where
  array : t.array = s.array

variable {now : Nanoseconds} {own : Endpoint R} {asked : Device R → Prop} {s t u : BeamDesk R}

omit [Scalar R] in
theorem settings_trans {e e' e'' : BeamEngine R} (h : e' = { e with cache := e'.cache })
    (h' : e'' = { e' with cache := e''.cache }) : e'' = { e with cache := e''.cache } := by
  rw [h] at h'
  exact h'

theorem Works.refl (s : BeamDesk R) : Works now own asked s s :=
  ⟨rfl, rfl, fun _ _ h => Or.inl h⟩

theorem Works.trans (s t u : BeamDesk R) (h : Works now own asked s t)
    (h' : Works now own asked t u) : Works now own asked s u where
  panel := h'.panel.trans h.panel
  settings := settings_trans h.settings h'.settings
  kept := by
    intro key b hb
    rcases h'.kept key b hb with hold | hnew
    · exact h.kept key b hold
    · rw [h.panel] at hnew
      exact Or.inr hnew

theorem Selects.refl (s : BeamDesk R) : Selects now own asked s s := ⟨.refl s, rfl⟩

theorem Selects.trans (s t u : BeamDesk R) (h : Selects now own asked s t)
    (h' : Selects now own asked t u) : Selects now own asked s u :=
  ⟨h.toWorks.trans _ _ _ h'.toWorks, h'.array.trans h.array⟩

/-! ## Selection -/

theorem selects_onEvaluator {α : Type} (x : Action R (Evaluator R) α) :
    Action.Advances (Selects now own asked) (onEvaluator x) :=
  fun _ => ⟨⟨rfl, rfl, fun _ _ h => Or.inl h⟩, rfl⟩

theorem selects_ofExcept {α : Type} (x : Except (Fault R) α) :
    Action.Advances (Selects now own asked) (Action.ofExcept x) := Action.advances_ofExcept .refl x

theorem selects_keep {peer : Device R} {b : SelectedBeam R} (hasked : asked peer)
    (hb : Selected now own s.array.panel peer b) :
    Selects now own asked s { s with engine := s.engine.keep own.id peer.id b } := by
  refine ⟨⟨rfl, rfl, fun key b' hb' => ?_⟩, rfl⟩
  change (s.engine.cache.insert (own.id.keyTo peer.id) b)[key]? = some b' at hb'
  rw [Std.HashMap.getElem?_insert] at hb'
  split at hb'
  · next heq =>
    cases hb'
    exact Or.inr ⟨peer, hasked, (by simpa using heq : own.id.keyTo peer.id = key).symm, hb⟩
  · exact Or.inl hb'

theorem selects_geometricBeam {peer : Device R} (hasked : asked peer) :
    Action.Advances (Selects now own asked) (geometricBeam own peer.endpoint) := by
  intro s
  unfold geometricBeam
  rw [Action.run_ite]
  split
  · exact .refl s
  · rw [Action.run_bind_of_ok (Action.run_get s)]
    dsimp only
    split
    · exact .refl s
    · exact selects_keep hasked .steered

/-- A search fails without keeping anything, or finds a beam and keeps it. -/
theorem searchCodebook_cases (now : Nanoseconds) (own : Endpoint R) (peer : Device R)
    (s : BeamDesk R) :
    (∃ e v, (searchCodebook now own peer).run s = (.error e, { s with evaluator := v })) ∨
    ∃ b v, Selected now own s.array.panel peer b ∧
      (∃ search, b.search? = some search ∧ search.generatedAt = now) ∧
      (searchCodebook now own peer).run s =
        (.ok b, { s with evaluator := v, engine := s.engine.keep own.id peer.id b }) := by
  unfold searchCodebook
  rw [Action.run_bind_of_ok (Action.run_get s), Action.run_bind]
  rcases hchannel : (Evaluator.flatMatrix now ⟨own, s.array⟩ peer 0).run s.evaluator with
    ⟨e | h, v⟩
  · have hrun : (onEvaluator (Evaluator.flatMatrix now ⟨own, s.array⟩ peer 0)).run s =
        (.error e, { s with evaluator := v }) := by
      unfold onEvaluator
      rw [Action.run_on, hchannel]
    rw [hrun]
    exact Or.inl ⟨e, v, rfl⟩
  · have hrun : (onEvaluator (Evaluator.flatMatrix now ⟨own, s.array⟩ peer 0)).run s =
        (.ok h, { s with evaluator := v }) := by
      unfold onEvaluator
      rw [Action.run_on, hchannel]
    rw [hrun]
    dsimp only
    rw [Action.run_bind, Action.run_liftExcept]
    cases hequivalent : Codebook.equivalent h peer.array.panel.size s.array.panel.size with
    | error e => exact Or.inl ⟨e, v, rfl⟩
    | ok equivalent =>
      dsimp only
      cases hpair : Codebook.strongest equivalent [] with
      | none => exact Or.inl ⟨.noAvailableBeam, v, rfl⟩
      | some pair =>
        exact Or.inr ⟨_, v, .searched rfl rfl hchannel hequivalent hpair, ⟨_, rfl, rfl⟩, rfl⟩

theorem selects_searchCodebook {peer : Device R} (hasked : asked peer) :
    Action.Advances (Selects now own asked) (searchCodebook now own peer) := by
  intro s
  rcases searchCodebook_cases now own peer s with ⟨e, v, hrun⟩ | ⟨b, v, hselected, -, hrun⟩
  · rw [hrun]
    exact ⟨⟨rfl, rfl, fun _ _ h => Or.inl h⟩, rfl⟩
  · rw [hrun]
    obtain ⟨⟨-, -, hkept⟩, -⟩ := selects_keep hasked hselected
    exact ⟨⟨rfl, rfl, hkept⟩, rfl⟩

theorem selects_codebookBeam {peer : Device R} (hasked : asked peer) :
    Action.Advances (Selects now own asked) (codebookBeam now own peer) := by
  refine Action.advances_get_bind fun s => ?_
  cases s.engine.selected? own.id peer.id with
  | none => exact selects_searchCodebook hasked s
  | some b =>
    refine Action.Advances.bind Selects.trans (selects_ofExcept _) (fun search => ?_) s
    split
    · exact fun t => .refl t
    · exact selects_searchCodebook hasked

theorem selects_select {peer : Device R} (hasked : asked peer) :
    Action.Advances (Selects now own asked) (select now own peer) := by
  refine Action.advances_get_bind fun s => ?_
  cases s.engine.strategy with
  | geometric => exact selects_geometricBeam hasked s
  | codebook => exact selects_codebookBeam hasked s
  | flatMmse => exact selects_codebookBeam hasked s
  | spectralMmse => exact selects_codebookBeam hasked s

/-! ## Beams -/

theorem works_of_selects {α : Type} {x : Action R (BeamDesk R) α}
    (h : Action.Advances (Selects now own asked) x) : Action.Advances (Works now own asked) x :=
  fun s => (h s).toWorks

theorem works_setBeam (peer : NodeId) (layer : UInt8) (beam : Beam R) :
    Action.Advances (Works now own asked) (setBeam peer layer beam now) :=
  fun _ => ⟨rfl, rfl, fun _ _ h => Or.inl h⟩

theorem works_point {peer : Device R} (hasked : asked peer) (layer : UInt8) :
    Action.Advances (Works now own asked) (point now own peer layer) :=
  Action.Advances.bind Works.trans (works_of_selects (selects_select hasked)) fun _ =>
    works_setBeam _ _ _

/-! ## Geometric beams -/

variable {peer : Device R} {layer : UInt8}

theorem run_select_geometric (hstrategy : s.engine.strategy = .geometric) :
    (select now own peer).run s = (geometricBeam own peer.endpoint).run s := by
  unfold select
  rw [Action.run_bind_of_ok (Action.run_get s), hstrategy]

theorem run_point_coincident (now : Nanoseconds) (layer : UInt8)
    (hstrategy : s.engine.strategy = .geometric)
    (hpos : (own.position == peer.endpoint.position) = true) :
    (point now own peer layer).run s = (.error (.coincident own.id peer.id), s) := by
  unfold point
  rw [Action.run_bind, run_select_geometric hstrategy, geometricBeam, Action.run_ite, if_pos hpos]
  rfl

theorem run_point_steered (now : Nanoseconds) (layer : UInt8)
    (hstrategy : s.engine.strategy = .geometric)
    (hpos : (own.position == peer.endpoint.position) = false)
    (hnone : s.engine.selected? own.id peer.id = none) :
    ∃ engine, engine.strategy = .geometric ∧ (point now own peer layer).run s =
      (.ok (), ⟨engine, s.array.setBeam peer.id layer
        (s.array.panel.steer own.position peer.endpoint.position) now, s.evaluator⟩) := by
  refine ⟨s.engine.keep own.id peer.id ⟨own.position, peer.endpoint.position,
    s.array.panel.steer own.position peer.endpoint.position, none⟩, hstrategy, ?_⟩
  have hnone' : s.engine.selected? own.id peer.endpoint.id = none := hnone
  unfold point
  rw [Action.run_bind, run_select_geometric hstrategy, geometricBeam, Action.run_ite,
    if_neg (by simp [hpos]), Action.run_bind_of_ok (Action.run_get s), hnone']
  rfl

end BeamDesk

namespace Codebook

theorem beam_ok {size : PanelSize} {k : Nat} {w : List (Phasor R)} (h : beam size k = .ok w) :
    w = weights size k := by
  unfold beam at h
  split at h
  · cases h
  · exact (Except.ok.inj h).symm

theorem mapM_beam_ok {size : PanelSize} {pairs : List BeamPair} {beams : List (Beam R)}
    (h : pairs.mapM (fun pair => do
      return (⟨← beam size pair.tx, .codebook pair.tx pair.rx⟩ : Beam R)) =
        (.ok beams : Except (Fault R) _)) :
    beams = pairs.map fun pair => ⟨weights size pair.tx, .codebook pair.tx pair.rx⟩ := by
  have hbeams : List.Forall₂ (fun (pair : BeamPair) (b : Beam R) =>
      ⟨weights size pair.tx, .codebook pair.tx pair.rx⟩ = b) pairs beams := by
    refine (except_mapM_ok.mp h).imp fun pair b hb => ?_
    obtain ⟨w, hw, hb⟩ := except_bind_ok.mp hb
    rw [← Except.ok.inj hb, beam_ok hw]
  rw [← List.forall₂_map_left_iff, List.forall₂_eq_eq_eq] at hbeams
  exact hbeams.symm

theorem length_resolveFrom (claimed : List Nat) (pairs : List BeamPair) (gs : List (Matrix R)) :
    (resolveFrom claimed pairs gs).2.length = pairs.length := by
  induction pairs generalizing claimed gs with
  | nil => cases gs <;> rfl
  | cons pair pairs ih =>
    cases gs with
    | nil => rfl
    | cons g gs =>
      unfold resolveFrom
      split
      · split
        · rfl
        · exact congrArg Nat.succ (ih _ gs)
      · exact congrArg Nat.succ (ih _ gs)

theorem length_resolveConflicts (pairs : List BeamPair) (gs : List (Matrix R)) :
    (resolveConflicts pairs gs).2.length = pairs.length := length_resolveFrom [] pairs gs

end Codebook

namespace Bundle

open BeamDesk

variable {now : Nanoseconds} {loss : FreeSpace R} {own : Endpoint R} {asked : Device R → Prop}
variable {peers : List (Device R)}

/-- The analog stage works on the searches of its peers and reads nothing else. -/
theorem run_analogStage_ok {s t : BeamDesk R} {stage : AnalogStage R}
    (h : (analogStage now loss own peers).run s = (.ok stage, t)) :
    ∃ searches, (peers.mapM (searchOf now own)).run s = (.ok searches, t) ∧
      Codebook.resolveConflicts (searches.map BeamSearch.pair) (searches.map BeamSearch.equivalent) =
        (.ok (), stage.pairs) ∧
      stage.equivalents = searches.map BeamSearch.equivalent ∧
      stage.beams = stage.pairs.map (fun pair =>
        ⟨Codebook.weights t.array.panel.size pair.tx, .codebook pair.tx pair.rx⟩) ∧
      stage.amplitudes = peers.map fun peer =>
        loss.amplitude t.engine.referencePower own peer.endpoint := by
  obtain ⟨searches, u, hsearches, h⟩ := Action.run_bind_ok.mp h
  dsimp only at h
  obtain ⟨_, hresolved, h⟩ := Action.run_lift_bind_ok.mp h
  obtain ⟨_, _, hget, h⟩ := Action.run_bind_ok.mp h
  cases hget
  obtain ⟨beams, hbeams, h⟩ := Action.run_lift_bind_ok.mp h
  obtain ⟨hstage, rfl⟩ := Prod.mk.inj h
  obtain rfl := Except.ok.inj hstage
  exact ⟨searches, hsearches, Prod.ext hresolved rfl, rfl, Codebook.mapM_beam_ok hbeams, rfl⟩

/-- It has a pair and a beam for each peer. -/
theorem lengths_of_analogStage {s t : BeamDesk R} {stage : AnalogStage R}
    (h : (analogStage now loss own peers).run s = (.ok stage, t)) :
    stage.pairs.length = peers.length ∧ stage.beams.length = peers.length := by
  obtain ⟨searches, hsearches, hresolved, -, hbeams, -⟩ := run_analogStage_ok h
  obtain ⟨-, hsteps⟩ := Action.run_mapM_ok (r := fun _ _ => True) (fun _ => trivial)
    (fun _ _ _ _ _ => trivial) (fun _ _ _ => trivial) hsearches
  have hpairs : stage.pairs.length = peers.length := by
    have hlength := Codebook.length_resolveConflicts (searches.map BeamSearch.pair)
      (searches.map BeamSearch.equivalent)
    rwa [hresolved, List.length_map, ← hsteps.length_eq] at hlength
  exact ⟨hpairs, by rw [hbeams, List.length_map, hpairs]⟩

theorem selects_searchOf {peer : Device R} (hasked : asked peer) :
    Action.Advances (Selects now own asked) (searchOf now own peer) :=
  Action.Advances.bind Selects.trans (selects_codebookBeam hasked) fun _ => selects_ofExcept _

theorem selects_analogStage (hasked : ∀ peer ∈ peers, asked peer) :
    Action.Advances (Selects now own asked) (analogStage now loss own peers) := by
  unfold analogStage
  refine Action.Advances.bind Selects.trans (Action.advances_mapM .refl Selects.trans fun peer hpeer =>
    selects_searchOf (hasked peer hpeer)) fun searches => ?_
  refine Action.Advances.bind Selects.trans (selects_ofExcept _) fun _ => ?_
  refine Action.advances_get_bind fun s => ?_
  exact Action.Advances.bind Selects.trans (selects_ofExcept _)
    (fun beams => Action.advances_pure .refl _) s

theorem selects_streamGains (stage : AnalogStage R) (peer : Device R) (pair : Codebook.BeamPair)
    (amplitude : R) :
    Action.Advances (Selects now own asked) (streamGains now own stage peer pair amplitude) := by
  unfold streamGains
  refine Action.Advances.bind Selects.trans (selects_ofExcept _) fun weights => ?_
  refine Action.advances_mapM .refl Selects.trans fun beam _ => ?_
  refine Action.advances_get_bind fun s => ?_
  exact Action.Advances.bind Selects.trans (selects_onEvaluator _)
    (fun gains => Action.advances_pure .refl _) s

/-! ## Serving -/

theorem works_mixFlat (hasked : ∀ peer ∈ peers, asked peer) (layers : List UInt8) :
    Action.Advances (Works now own asked) (mixFlat now loss own peers layers) := by
  unfold mixFlat
  split
  · exact Action.advances_pure .refl _
  refine Action.Advances.bind Works.trans (works_of_selects (selects_analogStage hasked)) fun stage => ?_
  refine Action.advances_get_bind fun s => ?_
  refine Action.Advances.bind Works.trans (Action.advances_ofExcept .refl _) (fun channel => ?_) s
  refine Action.Advances.bind Works.trans (Action.advances_ofExcept .refl _) fun precoder => ?_
  refine Action.Advances.bind Works.trans (Action.advances_forM .refl Works.trans fun _ _ =>
    works_setBeam _ _ _) fun _ => ?_
  exact fun t => ⟨rfl, rfl, fun _ _ h => Or.inl h⟩

theorem works_combineSpectral (hasked : ∀ peer ∈ peers, asked peer) (layers : List UInt8) :
    Action.Advances (Works now own asked) (combineSpectral now loss own peers layers) := by
  unfold combineSpectral
  split
  · exact Action.advances_pure .refl _
  refine Action.Advances.bind Works.trans (works_of_selects (selects_analogStage hasked)) fun stage => ?_
  refine Action.Advances.bind Works.trans (Action.advances_forM .refl Works.trans fun _ _ =>
    works_setBeam _ _ _) fun _ => ?_
  refine Action.Advances.bind Works.trans (Action.advances_mapM .refl Works.trans fun _ _ =>
    works_of_selects (selects_streamGains stage _ _ _)) fun gains => ?_
  refine Action.advances_get_bind fun s => ?_
  refine Action.Advances.bind Works.trans (Action.advances_ofExcept .refl _) (fun blocks => ?_) s
  exact fun t => ⟨rfl, rfl, fun _ _ h => Or.inl h⟩

/-- Serving a bundle works on its peers only, whatever the strategy. -/
theorem works_serve (hasked : ∀ peer ∈ peers, asked peer) (layers : List UInt8) :
    Action.Advances (Works now own asked) (serve now loss own peers layers) := by
  unfold serve
  split
  · exact fun t => .refl t
  refine Action.advances_get_bind fun s => ?_
  have hpoint : ∀ item ∈ peers.zip layers,
      Action.Advances (Works now own asked) (point now own item.1 item.2) := fun _ hitem =>
    works_point (hasked _ (List.of_mem_zip hitem).1) _
  cases s.engine.strategy with
  | geometric => exact Action.advances_forM .refl Works.trans hpoint s
  | codebook => exact Action.advances_forM .refl Works.trans hpoint s
  | flatMmse => exact works_mixFlat hasked layers s
  | spectralMmse => exact works_combineSpectral hasked layers s

end Bundle

end RadioChannel
