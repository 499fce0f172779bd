import RadioChannel.Proofs.BeamChannels
import RadioChannel.Proofs.Evaluations
import RadioChannel.Proofs.Keys
import RadioChannel.Proofs.Selections

/-!
# The codebook searches that an engine keeps

A search was made on the flat matrix of the channel to a peer. Selecting beams keeps every search that
is still valid, so the searches that a bundle works on are those that are kept when it is served.
-/

namespace RadioChannel

open Scalar

variable {R : Type} [Scalar R]

/-- What a search was made on: the flat matrix that an evaluator gave for devices with the panels of
the node and of its peer. -/
structure BeamSearch.MadeOn (search : BeamSearch R) (own : NodeId) (panel : Panel R) (peer : Device R)
    (h : Matrix R) : Prop where
  measured : ∃ (a b : Device R) (v v' : Evaluator R), a.id = own ∧ a.array.panel = panel ∧
    b.id = peer.id ∧ b.array.panel = peer.array.panel ∧
    (Evaluator.flatMatrix search.generatedAt a b 0).run v = (.ok h, v')
  transformed : Codebook.equivalent h peer.array.panel.size panel.size = .ok search.equivalent
  strongest : Codebook.strongest search.equivalent [] = some search.pair

theorem BeamSearch.MadeOn.length {search : BeamSearch R} {own : NodeId} {panel : Panel R}
    {peer : Device R} {h : Matrix R} (hmade : search.MadeOn own panel peer h) :
    ∀ row ∈ h, row.length = panel.size.count := by
  obtain ⟨a, b, v, v', -, hpanel, -, -, hrun⟩ := hmade.measured
  rw [← hpanel]
  exact (Evaluator.length_flatMatrix hrun).2

theorem BeamSearch.MadeOn.congr {search : BeamSearch R} {own : NodeId} {panel : Panel R}
    {peer other : Device R} {h : Matrix R} (hmade : search.MadeOn own panel peer h)
    (hid : other.id = peer.id) (hpanel : other.array.panel = peer.array.panel) :
    search.MadeOn own panel other h where
  measured := by
    rw [hid, hpanel]
    exact hmade.measured
  transformed := hpanel ▸ hmade.transformed
  strongest := hmade.strongest

namespace BeamDesk

/-- A search is kept for a peer. -/
def Holds (s : BeamDesk R) (own peer : NodeId) (search : BeamSearch R) : Prop :=
  ∃ b, s.engine.selected? own peer = some b ∧ b.search? = some search

/-- All searches kept for a peer were made on a flat matrix of the channel to it. -/
def Sourced (s : BeamDesk R) (own : NodeId) (peer : Device R) : Prop :=
  ∀ search, s.Holds own peer.id search → ∃ h, search.MadeOn own s.array.panel peer h

/-- What a desk stands on when it serves peers: a number stands for one panel, flat matrices fit the
machine, and the searches that are kept were made on them. -/
structure Founded {n : Nat} (s : BeamDesk R) (own : NodeId) (peer : Fin n → Device R) : Prop where
  panels : ∀ i j, (peer i).id = (peer j).id → (peer i).array.panel = (peer j).array.panel
  addressable : ∀ i, Codebook.Addressable (peer i).array.panel.size s.array.panel.size
  sourced : ∀ i, s.Sourced own (peer i)

variable {now : Nanoseconds} {own : Endpoint R} {asked : Device R → Prop} {s t u : BeamDesk R}
variable {peer : Device R}

theorem Sourced.of_empty {own : NodeId} (h : s.engine.cache = ∅) : s.Sourced own peer := by
  rintro search ⟨b, hb, -⟩
  rw [BeamEngine.selected?, h] at hb
  simp at hb

theorem Selected.madeOn {b : SelectedBeam R} {panel : Panel R} {search : BeamSearch R}
    (h : Selected now own panel peer b) (hb : b.search? = some search) :
    ∃ m, search.MadeOn own.id panel peer m := by
  cases h with
  | steered => cases hb
  | @searched device v v' m equivalent pair hown hpanel hchannel hequivalent hpair =>
    obtain rfl := Option.some.inj hb
    exact ⟨m, ⟨device, peer, v, v', congrArg Endpoint.id hown, hpanel, rfl, rfl, hchannel⟩, hequivalent,
      hpair⟩

/-- Work for peers with the panels that their numbers stand for keeps a desk sourced. -/
theorem Works.sourced (h : Works now own asked s t)
    (hasked : ∀ other, asked other → other.id = peer.id → other.array.panel = peer.array.panel)
    (hs : s.Sourced own.id peer) : t.Sourced own.id peer := by
  rintro search ⟨b, hb, hsearch⟩
  rw [h.panel]
  rcases h.kept _ b hb with hold | ⟨other, hother, hkey, hselected⟩
  · exact hs search ⟨b, hold, hsearch⟩
  · have hid : other.id = peer.id := (NodeId.keyTo_inj.mp hkey).2.symm
    obtain ⟨m, hmade⟩ := hselected.madeOn hsearch
    exact ⟨m, hmade.congr hid.symm (hasked other hother hid).symm⟩

/-! ## Valid searches -/

/-- Work that sets no beams and keeps all searches that are still valid. -/
structure Searches (now : Nanoseconds) (own : Endpoint R) (asked : Device R → Prop)
    (s t : BeamDesk R) : Prop extends Selects now own asked s t where
  valid : ∀ id search, s.Holds own.id id search → s.engine.isFresh now search = true →
    t.Holds own.id id search

theorem Works.isFresh (h : Works now own asked s t) (search : BeamSearch R) :
    t.engine.isFresh now search = s.engine.isFresh now search := by
  rw [h.settings]
  rfl

theorem Searches.refl (s : BeamDesk R) : Searches now own asked s s := ⟨.refl s, fun _ _ h _ => h⟩

theorem Searches.trans (s t u : BeamDesk R) (h : Searches now own asked s t)
    (h' : Searches now own asked t u) : Searches now own asked s u where
  toSelects := h.toSelects.trans _ _ _ h'.toSelects
  valid := fun id search hholds hfresh =>
    h'.valid id search (h.valid id search hholds hfresh) ((h.isFresh search).trans hfresh)

omit [Scalar R] in
theorem selected_keep (e : BeamEngine R) (own peer id : NodeId) (b : SelectedBeam R) :
    (e.keep own peer b).selected? own id = if peer = id then some b else e.selected? own id := by
  rw [BeamEngine.selected?, BeamEngine.keep, Std.HashMap.getElem?_insert]
  simp [BeamEngine.selected?]

/-- A search made anew replaces only one for the same peer. -/
theorem searches_searchCodebook (hasked : asked peer)
    (hstale : ∀ search, s.Holds own.id peer.id search → s.engine.isFresh now search = false) :
    Searches now own asked s ((searchCodebook now own peer).run s).2 := by
  refine ⟨selects_searchCodebook hasked s, fun id search hholds hfresh => ?_⟩
  rcases searchCodebook_cases now own peer s with ⟨e, v, hrun⟩ | ⟨b, v, -, -, hrun⟩
  · rw [hrun]
    exact hholds
  · rw [hrun]
    obtain ⟨b', hb', hsearch⟩ := hholds
    refine ⟨b', ?_, hsearch⟩
    change (s.engine.keep own.id peer.id b).selected? own.id id = some b'
    rw [selected_keep, if_neg, hb']
    rintro rfl
    rw [hstale search ⟨b', hb', hsearch⟩] at hfresh
    cases hfresh

/-- A beam that is kept from a search is used while the search is valid. -/
theorem run_codebookBeam_of_kept {b : SelectedBeam R} {search : BeamSearch R}
    (hb : s.engine.selected? own.id peer.id = some b) (hsearch : b.search? = some search) :
    (codebookBeam now own peer).run s =
      if s.engine.isFresh now search then (.ok b, s) else (searchCodebook now own peer).run s := by
  have hkept : b.search = .ok search := by
    rw [SelectedBeam.search, hsearch]
  unfold codebookBeam
  rw [Action.run_bind_of_ok (Action.run_get s), hb]
  dsimp only
  rw [Action.run_bind, Action.run_liftExcept, hkept]
  exact Action.run_ite ..

/-- A beam without a search is refused, one with a valid search is used, and else a search is made. -/
theorem codebookBeam_cases (now : Nanoseconds) (own : Endpoint R) (peer : Device R) (s : BeamDesk R) :
    (∃ e, (codebookBeam now own peer).run s = (.error e, s)) ∨
    (∃ b search, s.engine.selected? own.id peer.id = some b ∧ b.search? = some search ∧
      s.engine.isFresh now search = true ∧ (codebookBeam now own peer).run s = (.ok b, s)) ∨
    ((∀ search, s.Holds own.id peer.id search → s.engine.isFresh now search = false) ∧
      (codebookBeam now own peer).run s = (searchCodebook now own peer).run s) := by
  cases hselected : s.engine.selected? own.id peer.id with
  | none =>
    refine Or.inr (Or.inr ⟨?_, ?_⟩)
    · rintro search ⟨b, hb, -⟩
      rw [hselected] at hb
      cases hb
    · unfold codebookBeam
      rw [Action.run_bind_of_ok (Action.run_get s), hselected]
  | some b =>
    cases hsearch : b.search? with
    | none =>
      refine Or.inl ⟨.notCodebookBeam, ?_⟩
      unfold codebookBeam SelectedBeam.search
      rw [Action.run_bind_of_ok (Action.run_get s), hselected]
      dsimp only
      rw [Action.run_bind, Action.run_liftExcept, hsearch]
    | some search =>
      have hrun : (codebookBeam now own peer).run s = _ := run_codebookBeam_of_kept hselected hsearch
      cases hfresh : s.engine.isFresh now search with
      | true =>
        rw [hfresh, if_pos rfl] at hrun
        exact Or.inr (Or.inl ⟨b, search, rfl, hsearch, hfresh, hrun⟩)
      | false =>
        rw [hfresh, if_neg Bool.false_ne_true] at hrun
        refine Or.inr (Or.inr ⟨?_, hrun⟩)
        rintro search' ⟨b', hb', hsearch'⟩
        obtain rfl := Option.some.inj (hselected.symm.trans hb')
        obtain rfl := Option.some.inj (hsearch.symm.trans hsearch')
        exact hfresh

theorem searches_codebookBeam (hasked : asked peer) :
    Action.Advances (Searches now own asked) (codebookBeam now own peer) := by
  intro s
  rcases codebookBeam_cases now own peer s with ⟨e, hrun⟩ | ⟨b, search, -, -, -, hrun⟩ | ⟨hstale, hrun⟩
  · rw [hrun]
    exact .refl s
  · rw [hrun]
    exact .refl s
  · rw [hrun]
    exact searches_searchCodebook hasked hstale

/-- The beam that is selected is kept, and its search is valid. -/
theorem codebookBeam_ok {b : SelectedBeam R} (h : (codebookBeam now own peer).run s = (.ok b, t)) :
    t.engine.selected? own.id peer.id = some b ∧
      ∀ search, b.search? = some search → t.engine.isFresh now search = true := by
  rcases codebookBeam_cases now own peer s with ⟨e, hrun⟩ | ⟨b', search, hb, hsearch, hfresh, hrun⟩ |
    ⟨-, hrun⟩
  · rw [hrun] at h
    cases h
  · rw [hrun] at h
    cases h
    refine ⟨hb, fun search' hsearch' => ?_⟩
    obtain rfl := Option.some.inj (hsearch.symm.trans hsearch')
    exact hfresh
  · rw [hrun] at h
    rcases searchCodebook_cases now own peer s with ⟨e, v, hrun⟩ | ⟨b', v, -, ⟨search, hsearch, hnow⟩,
      hrun⟩
    · rw [hrun] at h
      cases h
    · rw [hrun] at h
      cases h
      refine ⟨(selected_keep _ _ _ _ _).trans (if_pos rfl), fun search' hsearch' => ?_⟩
      obtain rfl := Option.some.inj (hsearch.symm.trans hsearch')
      rw [BeamEngine.isFresh, hnow, Nat.sub_self]
      exact decide_eq_true (Nat.zero_le _)

/-! ## Searches that are due -/

/-- A search for a peer is due: what is kept for it, if anything, comes from a search that is no longer
valid. -/
def Due (s : BeamDesk R) (now : Nanoseconds) (own peer : NodeId) : Prop :=
  ∀ b, s.engine.selected? own peer = some b →
    ∃ search, b.search? = some search ∧ s.engine.isFresh now search = false

theorem run_codebookBeam_of_due (h : s.Due now own.id peer.id) :
    (codebookBeam now own peer).run s = (searchCodebook now own peer).run s := by
  cases hselected : s.engine.selected? own.id peer.id with
  | none =>
    unfold codebookBeam
    rw [Action.run_bind_of_ok (Action.run_get s), hselected]
  | some b =>
    obtain ⟨search, hsearch, hstale⟩ := h b hselected
    rw [run_codebookBeam_of_kept hselected hsearch, hstale, if_neg Bool.false_ne_true]

/-- What a search finds is the strongest pair of beams on the flat matrix, and it keeps that. -/
theorem run_searchCodebook_ok {found : SelectedBeam R} :
    (searchCodebook now own peer).run s = (.ok found, t) ↔ ∃ h v equivalent pair,
      (Evaluator.flatMatrix now ⟨own, s.array⟩ peer 0).run s.evaluator = (.ok h, v) ∧
      Codebook.equivalent h peer.array.panel.size s.array.panel.size = .ok equivalent ∧
      Codebook.strongest equivalent [] = some pair ∧
      found = ⟨own.position, peer.endpoint.position,
        ⟨Codebook.weights s.array.panel.size pair.tx, .codebook pair.tx pair.rx⟩,
        some ⟨now, pair, equivalent⟩⟩ ∧
      t = { s with evaluator := v, engine := s.engine.keep own.id peer.id found } := by
  unfold searchCodebook onEvaluator
  rw [Action.run_bind_of_ok (Action.run_get s), Action.run_bind, Action.run_on]
  rcases (Evaluator.flatMatrix now ⟨own, s.array⟩ peer 0).run s.evaluator with ⟨e | h, v⟩
  · simp
  dsimp only
  rw [Action.run_bind, Action.run_liftExcept]
  cases hequivalent : Codebook.equivalent h peer.array.panel.size s.array.panel.size with
  | error e => simp [hequivalent]
  | ok equivalent =>
    dsimp only
    cases hpair : Codebook.strongest equivalent [] with
    | none => simp [hequivalent, hpair]
    | some pair =>
      constructor
      · intro hrun
        obtain ⟨hfound, rfl⟩ := Prod.mk.inj hrun
        obtain rfl := Except.ok.inj hfound
        exact ⟨h, v, equivalent, pair, rfl, hequivalent, hpair, rfl, rfl⟩
      · rintro ⟨h', v', equivalent', pair', hh, he, hp, rfl, rfl⟩
        cases hh
        obtain rfl := Except.ok.inj (hequivalent.symm.trans he)
        obtain rfl := Option.some.inj (hpair.symm.trans hp)
        rfl

end BeamDesk

namespace Bundle

open BeamDesk

variable {now : Nanoseconds} {loss : FreeSpace R} {own : Endpoint R} {asked : Device R → Prop}
variable {peers : List (Device R)} {s t : BeamDesk R}

theorem searches_searchOf {peer : Device R} (hasked : asked peer) :
    Action.Advances (Searches now own asked) (searchOf now own peer) :=
  Action.Advances.bind Searches.trans (searches_codebookBeam hasked) fun _ =>
    Action.advances_ofExcept .refl _

theorem searchOf_ok {peer : Device R} {search : BeamSearch R}
    (h : (searchOf now own peer).run s = (.ok search, t)) :
    t.Holds own.id peer.id search ∧ t.engine.isFresh now search = true := by
  obtain ⟨b, u, hb, hlifted⟩ := Action.run_bind_ok.mp h
  rw [Action.run_liftExcept] at hlifted
  obtain ⟨hsearch, rfl⟩ := Prod.mk.inj hlifted
  obtain ⟨hselected, hfresh⟩ := codebookBeam_ok hb
  have hsearch' : b.search? = some search := by
    unfold SelectedBeam.search at hsearch
    split at hsearch
    · next h => rw [h, Except.ok.inj hsearch]
    · cases hsearch
  exact ⟨⟨b, hselected, hsearch'⟩, hfresh search hsearch'⟩

/-- The analog stage of a bundle is made of the searches that are then kept for the peers. -/
theorem analogStage_searches {stage : AnalogStage R} (hasked : ∀ peer ∈ peers, asked peer)
    (h : (analogStage now loss own peers).run s = (.ok stage, t)) :
    ∃ searches, Searches now own asked s t ∧
      List.Forall₂ (fun peer search => t.Holds own.id peer.id search) peers searches ∧
      Codebook.resolveConflicts (searches.map BeamSearch.pair) (searches.map BeamSearch.equivalent) =
        (.ok (), stage.pairs) ∧
      stage.equivalents = searches.map BeamSearch.equivalent ∧
      stage.beams = stage.pairs.map (fun pair =>
        ⟨Codebook.weights s.array.panel.size pair.tx, .codebook pair.tx pair.rx⟩) ∧
      stage.amplitudes = peers.map fun peer =>
        loss.amplitude s.engine.referencePower own peer.endpoint := by
  obtain ⟨searches, hsearches, hresolved, hequivalents, hbeams, hamplitudes⟩ := run_analogStage_ok h
  obtain ⟨hall, hsteps⟩ := Action.run_mapM_ok .refl Searches.trans
    (fun peer hpeer => searches_searchOf (hasked peer hpeer)) hsearches
  rw [hall.panel] at hbeams
  rw [hall.settings] at hamplitudes
  refine ⟨searches, hall, hsteps.imp fun peer search hstep => ?_, hresolved, hequivalents, hbeams,
    hamplitudes⟩
  obtain ⟨u, v, hrun, -, hafter⟩ := hstep
  obtain ⟨hholds, hfresh⟩ := searchOf_ok hrun
  exact hafter.valid _ search hholds hfresh

end Bundle

end RadioChannel
