import RadioChannel.Proofs.Agreement
import RadioChannel.Proofs.Answers
import RadioChannel.Proofs.Conflicts
import RadioChannel.Proofs.Mixing
import RadioChannel.Proofs.Solutions

/-!
# Bundles that are served

A bundle is served for any number of peers where a few things are in place: the node's questions about
its peers are answered, its array has a beam for each peer, and the channel between streams and peers
can be solved. With noise it always can. Each stage is shown to answer, and to leave the desk ready for
the next one.
-/

namespace RadioChannel

open ExactScalars
open scoped ComplexOrder

theorem mapM_ofFn_ok {R α β : Type} {n : ℕ} {f : α → Except (Fault R) β} {a : Fin n → α} {b : Fin n → β}
    (h : ∀ i, f (a i) = .ok (b i)) : (List.ofFn a).mapM f = .ok (List.ofFn b) :=
  except_mapM_ok.mpr (forall₂_ofFn h)

namespace Codebook

theorem comparable_exact (g : Matrix ℝ) : Comparable g := fun _ _ _ _ => beq_iff.mpr rfl

/-- What a peer gets has an entry in its channel, if what it selected had one. -/
theorem Settles.entry {R : Type} [Scalar R] {claimed : List ℕ} {g : Matrix R} {pair result : BeamPair}
    (h : Settles claimed g pair result) (hpair : ∃ z, entry? g pair = some z) :
    ∃ z, entry? g result = some z := by
  cases h with
  | keeps _ => exact hpair
  | moves _ hother =>
    obtain ⟨-, z, hz, -⟩ := hother
    exact ⟨z, hz⟩

end Codebook

/-- A search compares all pairs of beams of the two panels. -/
theorem BeamSearch.MadeOn.hasSize {search : BeamSearch ℝ} {own : NodeId} {panel : Panel ℝ}
    {peer : Device ℝ} {h : Matrix ℝ} (hmade : search.MadeOn own panel peer h)
    (haddressable : Codebook.Addressable peer.array.panel.size panel.size) :
    Matrix.HasSize peer.array.panel.size.count panel.size.count search.equivalent := by
  obtain ⟨hheight, hwidth, -⟩ :=
    Codebook.equivalent_ok haddressable hmade.length hmade.transformed
  exact ⟨hheight, hwidth⟩

/-- A search on a flat matrix of a kind. -/
def BeamSearch.On (search : BeamSearch ℝ) (own : NodeId) (panel : Panel ℝ) (peer : Device ℝ)
    (flat : Matrix ℝ → Prop) : Prop := ∃ h, search.MadeOn own panel peer h ∧ flat h

/-- A beam from such a search. -/
def SelectedBeam.From (b : SelectedBeam ℝ) (own : NodeId) (panel : Panel ℝ) (peer : Device ℝ)
    (flat : Matrix ℝ → Prop) : Prop := ∃ search, b.search? = some search ∧ search.On own panel peer flat

namespace BeamDesk

/-- A desk with given settings and a panel, at which whatever is kept for a peer comes from a search on a
flat matrix of the peer's kind. -/
structure Ready (inv : Evaluator ℝ → Prop) (own : NodeId) (panel : Panel ℝ) (engine : BeamEngine ℝ)
    (asked : Device ℝ → Prop) (flat : Device ℝ → Matrix ℝ → Prop) (s : BeamDesk ℝ) : Prop where
  evaluator : inv s.evaluator
  settings : s.engine = { engine with cache := s.engine.cache }
  searched : ∀ peer, asked peer → ∀ b, s.engine.selected? own peer.id = some b →
    b.From own panel peer (flat peer)
  panel : s.array.panel = panel
  omni : s.array.omni = false

theorem Ready.on {inv : Evaluator ℝ → Prop} {own : NodeId} {panel : Panel ℝ} {engine : BeamEngine ℝ}
    {asked : Device ℝ → Prop} {flat : Device ℝ → Matrix ℝ → Prop} {s : BeamDesk ℝ} {peer : Device ℝ}
    {search : BeamSearch ℝ} (hs : Ready inv own panel engine asked flat s) (hpeer : asked peer)
    (hholds : s.Holds own peer.id search) : search.On own panel peer (flat peer) := by
  obtain ⟨b, hb, hsearch⟩ := hholds
  obtain ⟨found, hfound, hon⟩ := hs.searched peer hpeer b hb
  obtain rfl := Option.some.inj (hsearch.symm.trans hfound)
  exact hon

theorem ready_of_empty {inv : Evaluator ℝ → Prop} {own : NodeId} {asked : Device ℝ → Prop}
    {flat : Device ℝ → Matrix ℝ → Prop} {s : BeamDesk ℝ} (hevaluator : inv s.evaluator)
    (homni : s.array.omni = false) (hempty : s.engine.cache = ∅) :
    Ready inv own s.array.panel s.engine asked flat s where
  evaluator := hevaluator
  settings := rfl
  panel := rfl
  omni := homni
  searched peer _ b hb := by
    rw [BeamEngine.selected?, hempty, Std.HashMap.getElem?_empty] at hb
    cases hb

/-- Peers that a node can serve from a panel: a number stands for one of them, and the flat matrices
between panels with elements fit the machine. -/
structure Servable (panel : Panel ℝ) (asked : Device ℝ → Prop) : Prop where
  unique : ∀ peer other, asked peer → asked other → peer.id = other.id → peer = other
  addressable : ∀ peer, asked peer → Codebook.Addressable peer.array.panel.size panel.size
  elements : 0 < panel.size.count
  receiving : ∀ peer, asked peer → 0 < peer.array.panel.size.count

variable {inv : Evaluator ℝ → Prop} {now : Nanoseconds} {own : Endpoint ℝ} {panel : Panel ℝ}
variable {engine : BeamEngine ℝ} {asked : Device ℝ → Prop} {flat : Device ℝ → Matrix ℝ → Prop}
variable {gained : Device ℝ → Beam ℝ → Beam ℝ → List (Phasor ℝ) → Prop} {peer : Device ℝ}

/-! ## Searches -/

section Searches

variable (hpeers : Servable panel asked)
variable (hanswers : Evaluator.Answering inv now own panel engine.grid asked flat gained)

include hpeers hanswers

theorem answers_searchCodebook (hpeer : asked peer) :
    Action.Answers (Ready inv own.id panel engine asked flat)
      (fun b => b.From own.id panel peer (flat peer))
      (searchCodebook now own peer) := by
  intro s hs
  obtain ⟨h, v, hrun, ⟨hsize, hflat⟩, hv⟩ :=
    hanswers.flatMatrix peer hpeer s.array hs.panel s.evaluator hs.evaluator
  have haddressable := hpeers.addressable peer hpeer
  obtain ⟨equivalent, hequivalent⟩ := Codebook.equivalent_exists haddressable
    (hpeers.receiving peer hpeer) hpeers.elements hsize.height hsize.width
  obtain ⟨hheight, hwidth, -⟩ := Codebook.equivalent_ok haddressable hsize.width hequivalent
  obtain ⟨z, hz⟩ := Codebook.exists_entry? (r := 0) hwidth
    (hheight.symm ▸ hpeers.receiving peer hpeer) hpeers.elements
  obtain ⟨pair, hpair⟩ := Codebook.exists_strongest hz
  have hon : (⟨now, pair, equivalent⟩ : BeamSearch ℝ).On own.id panel peer (flat peer) :=
    ⟨h, ⟨⟨⟨own, s.array⟩, peer, s.evaluator, v, rfl, hs.panel, rfl, rfl, hrun⟩, hequivalent, hpair⟩,
      hflat⟩
  rw [← hs.panel] at hequivalent
  refine ⟨_, _, run_searchCodebook_ok.mpr ⟨h, v, equivalent, pair, hrun, hequivalent, hpair, rfl, rfl⟩,
    ⟨_, rfl, hon⟩, hv, ?_, fun other hother b hb => ?_, hs.panel, hs.omni⟩
  · exact settings_trans hs.settings rfl
  · dsimp only at hb
    rw [selected_keep] at hb
    split at hb
    · next hid =>
      obtain rfl := Option.some.inj hb
      obtain rfl := hpeers.unique peer other hpeer hother hid
      exact ⟨_, rfl, hon⟩
    · exact hs.searched other hother b hb

theorem answers_codebookBeam (hpeer : asked peer) :
    Action.Answers (Ready inv own.id panel engine asked flat)
      (fun b => b.From own.id panel peer (flat peer))
      (codebookBeam now own peer) := by
  intro s hs
  have hsearch := answers_searchCodebook hpeers hanswers hpeer s hs
  cases hkept : s.engine.selected? own.id peer.id with
  | none =>
    have hdue : s.Due now own.id peer.id := fun b hb => by
      rw [hkept] at hb
      cases hb
    rw [run_codebookBeam_of_due hdue]
    exact hsearch
  | some b =>
    obtain ⟨search, hb, hon⟩ := hs.searched peer hpeer b hkept
    rw [run_codebookBeam_of_kept hkept hb]
    split
    · exact ⟨b, s, rfl, ⟨search, hb, hon⟩, hs⟩
    · exact hsearch

omit hpeers hanswers in
theorem answers_setBeam (peer : NodeId) (layer : UInt8) (beam : Beam ℝ) :
    Action.Answers (Ready inv own.id panel engine asked flat) (fun _ => True)
      (setBeam peer layer beam now) :=
  Action.answers_modify fun _ hs => ⟨hs.evaluator, hs.settings, hs.searched, hs.panel, rfl⟩

/-- An engine that searches codebooks points at a peer. -/
theorem answers_point (hstrategy : engine.strategy ≠ .geometric) (hpeer : asked peer) (layer : UInt8) :
    Action.Answers (Ready inv own.id panel engine asked flat) (fun _ => True)
      (point now own peer layer) := by
  have hbeam := answers_codebookBeam hpeers hanswers hpeer
  have hselect : Action.Answers (Ready inv own.id panel engine asked flat)
      (fun b => b.From own.id panel peer (flat peer)) (select now own peer) := by
    refine Action.answers_get_bind fun s hs => ?_
    have hsame : s.engine.strategy = engine.strategy := by rw [hs.settings]
    rw [hsame]
    cases hcase : engine.strategy with
    | geometric => exact absurd hcase hstrategy
    | codebook => exact hbeam
    | flatMmse => exact hbeam
    | spectralMmse => exact hbeam
  exact hselect.bind fun b _ => answers_setBeam peer.id layer b.beam

end Searches

end BeamDesk

namespace Codebook

/-- Where every channel has a column for each peer, conflicts are resolved to one pair for each peer. -/
theorem exists_resolution {pairs : List BeamPair} {gs : List (Matrix ℝ)}
    (hlength : gs.length = pairs.length) (hgs : ∀ g ∈ gs, pairs.length ≤ Matrix.columns g) :
    ∃ results, resolveConflicts pairs gs = (.ok (), results) ∧ IsResolution [] pairs gs results := by
  rcases hrun : resolveConflicts pairs gs with ⟨outcome, results⟩
  have hends : EndsWith [] pairs gs results outcome :=
    (resolveFrom_iff hlength fun g _ => comparable_exact g).mp hrun
  cases outcome with
  | ok => exact ⟨results, rfl, hends⟩
  | error e =>
    obtain ⟨-, i, hstops⟩ := hends
    exact absurd hstops (not_stopsAt hgs)

/-- So peers with a selection each get pairs that have an entry, on distinct beams. -/
theorem resolveConflicts_ofFn {n columns : ℕ} {rows : Fin n → ℕ} {selected : Fin n → BeamPair}
    {g : Fin n → Matrix ℝ} (hsize : ∀ i, Matrix.HasSize (rows i) columns (g i)) (hcount : n ≤ columns)
    (hrows : ∀ i, 0 < rows i) (hselected : ∀ i, strongest (g i) [] = some (selected i)) :
    ∃ pair : Fin n → BeamPair, resolveConflicts (List.ofFn selected) (List.ofFn g) =
        (.ok (), List.ofFn pair) ∧
      (∀ i, (pair i).rx < rows i ∧ (pair i).tx < columns) ∧
      Function.Injective fun i => (pair i).tx := by
  have hlength : (List.ofFn g).length = (List.ofFn selected).length := by
    rw [List.length_ofFn, List.length_ofFn]
  have hcolumns : ∀ m ∈ List.ofFn g, (List.ofFn selected).length ≤ Matrix.columns m := by
    intro m hm
    obtain ⟨i, rfl⟩ := List.mem_ofFn.mp hm
    obtain ⟨row, rest, hrow⟩ := List.exists_cons_of_length_pos ((hsize i).height.symm ▸ hrows i)
    have hwidth := (hsize i).width row (hrow ▸ List.mem_cons_self)
    rw [hrow, List.length_ofFn]
    exact hcount.trans_eq hwidth.symm
  obtain ⟨results, hrun, hresolution⟩ := exists_resolution hlength hcolumns
  obtain ⟨pair, rfl⟩ := exists_ofFn (hresolution.length.trans List.length_ofFn)
  refine ⟨pair, hrun, fun i => ?_, ?_⟩
  · have hsettles := hresolution.settles i _ _ _ (getElem?_ofFn_val selected i) (getElem?_ofFn_val g i)
      (getElem?_ofFn_val pair i)
    obtain ⟨-, z, hz, -⟩ := isFallback_of_strongest (comparable_exact _) (hselected i)
    obtain ⟨w, hw⟩ := hsettles.entry ⟨z, hz⟩
    rw [← (hsize i).height]
    exact entry?_lt (hsize i).width hw
  · have hnodup := hresolution.nodup hlength
    rw [List.map_ofFn] at hnodup
    exact List.nodup_ofFn.mp hnodup

/-- All beams of a panel with elements can be computed. -/
theorem mapM_beam_ofFn {n : ℕ} {size : PanelSize} (hsize : 0 < size.count) (pair : Fin n → BeamPair) :
    (List.ofFn pair).mapM (fun pair => do
      return (⟨← beam size pair.tx, .codebook pair.tx pair.rx⟩ : Beam ℝ)) =
        (.ok (List.ofFn fun j => ⟨weights size (pair j).tx, .codebook (pair j).tx (pair j).rx⟩) :
          Except (Fault ℝ) _) := by
  have hcolumns : size.columns ≠ 0 := (Nat.pos_of_mul_pos_right hsize).ne'
  refine mapM_ofFn_ok fun j => ?_
  rw [beam, if_neg hcolumns]
  rfl

end Codebook

namespace Bundle

open BeamDesk

/-- Pairs of beams on which the peers of a bundle can be served: beams of the panels at both ends, and
the transmitting ones distinct. -/
structure Paired {n : ℕ} (panel : Panel ℝ) (peer : Fin n → Device ℝ)
    (pair : Fin n → Codebook.BeamPair) : Prop where
  receiving : ∀ i, (pair i).rx < (peer i).array.panel.size.count
  transmitting : ∀ i, (pair i).tx < panel.size.count
  distinct : Function.Injective fun i => (pair i).tx

/-- The codebook beam on the transmitting side of a pair. -/
noncomputable def transmittingBeam (panel : Panel ℝ) (pair : Codebook.BeamPair) : Beam ℝ :=
  ⟨Codebook.weights panel.size pair.tx, .codebook pair.tx pair.rx⟩

variable {inv : Evaluator ℝ → Prop} {now : Nanoseconds} {loss : FreeSpace ℝ} {own : Endpoint ℝ}
variable {panel : Panel ℝ} {engine : BeamEngine ℝ} {asked : Device ℝ → Prop}
variable {flat : Device ℝ → Matrix ℝ → Prop}
variable {gained : Device ℝ → Beam ℝ → Beam ℝ → List (Phasor ℝ) → Prop}
variable {n : ℕ} {peer : Fin n → Device ℝ} {layer : Fin n → UInt8}

/-! ## Analog stage -/

/-- What the analog stage of a bundle is made of. -/
structure Staged (loss : FreeSpace ℝ) (own : Endpoint ℝ) (panel : Panel ℝ) (engine : BeamEngine ℝ)
    (flat : Device ℝ → Matrix ℝ → Prop) (peer : Fin n → Device ℝ) (search : Fin n → BeamSearch ℝ)
    (pair : Fin n → Codebook.BeamPair) (stage : AnalogStage ℝ) : Prop where
  searched : ∀ i, (search i).On own.id panel (peer i) (flat (peer i))
  paired : Paired panel peer pair
  stage_eq : stage = {
    pairs := List.ofFn pair
    equivalents := List.ofFn fun i => (search i).equivalent
    beams := List.ofFn fun j => transmittingBeam panel (pair j)
    amplitudes := List.ofFn fun i => loss.amplitude engine.referencePower own (peer i).endpoint }

variable (hpeers : Servable panel asked) (hasked : ∀ i, asked (peer i))
variable (hanswers : Evaluator.Answering inv now own panel engine.grid asked flat gained)

include hpeers hanswers

theorem answers_searchOf {p : Device ℝ} (hp : asked p) :
    Action.Answers (Ready inv own.id panel engine asked flat)
      (fun search => search.On own.id panel p (flat p)) (searchOf now own p) := by
  refine (answers_codebookBeam hpeers hanswers hp).bind fun b hb => ?_
  obtain ⟨search, hsearch, hon⟩ := hb
  have hkept : b.search = .ok search := by
    rw [SelectedBeam.search, hsearch]
  exact Action.answers_ofExcept hkept hon

include hasked

omit hanswers in
/-- Peers with searches get pairs on which they can be served, if the panel has a beam for each. -/
theorem exists_pairs (hcount : n ≤ panel.size.count) {node : NodeId} {search : Fin n → BeamSearch ℝ}
    (hmade : ∀ i, ∃ h, (search i).MadeOn node panel (peer i) h) :
    ∃ pair : Fin n → Codebook.BeamPair, Codebook.resolveConflicts (List.ofFn fun i => (search i).pair)
        (List.ofFn fun i => (search i).equivalent) = (.ok (), List.ofFn pair) ∧
      Paired panel peer pair := by
  choose h hmade using hmade
  obtain ⟨pair, hresolved, hrange, hdistinct⟩ := Codebook.resolveConflicts_ofFn
    (fun i => (hmade i).hasSize (hpeers.addressable _ (hasked i))) hcount
      (fun i => hpeers.receiving _ (hasked i)) fun i => (hmade i).strongest
  exact ⟨pair, hresolved, fun i => (hrange i).1, fun i => (hrange i).2, hdistinct⟩

/-- The analog stage answers where the panel has a beam for each peer. -/
theorem answers_analogStage (hcount : n ≤ panel.size.count) :
    Action.Answers (Ready inv own.id panel engine asked flat)
      (fun stage => ∃ search pair, Staged loss own panel engine flat peer search pair stage)
      (analogStage now loss own (List.ofFn peer)) := by
  unfold analogStage
  refine Action.Answers.bind (Action.Answers.mapM_ofFn fun i =>
    answers_searchOf hpeers hanswers (hasked i)) fun searches hsearches => ?_
  obtain ⟨search, rfl, hon⟩ := hsearches
  obtain ⟨pair, hresolved, hpaired⟩ := exists_pairs hpeers hasked hcount fun i =>
    (hon i).imp fun _ => And.left
  have hequivalents : (List.ofFn search).map BeamSearch.equivalent =
      List.ofFn fun i => (search i).equivalent := List.map_ofFn
  rw [← hequivalents, show (List.ofFn fun i => (search i).pair) =
    (List.ofFn search).map BeamSearch.pair from List.map_ofFn.symm] at hresolved
  dsimp only
  rw [hresolved]
  dsimp only
  refine Action.Answers.bind (p := fun _ => True) (Action.answers_ofExcept rfl trivial) fun _ _ => ?_
  refine Action.answers_get_bind fun s hs => ?_
  have hbeams := Codebook.mapM_beam_ofFn hpeers.elements pair
  rw [← hs.panel] at hbeams
  refine Action.Answers.bind (p := (· = _)) (Action.answers_ofExcept hbeams rfl) fun beams hb => ?_
  have hamplitudes : (List.ofFn peer).map
      (fun p => loss.amplitude s.engine.referencePower own p.endpoint) =
        List.ofFn fun i => loss.amplitude engine.referencePower own (peer i).endpoint := by
    rw [List.map_ofFn, hs.settings]
    rfl
  refine Action.answers_pure ⟨search, pair, hon, hpaired, ?_⟩
  rw [hb, hequivalents, hamplitudes, hs.panel]
  rfl

/-! ## Flat digital stage -/

omit hpeers hasked hanswers in
theorem exists_equivalentRow {e : Matrix ℝ} {rows columns : ℕ} (hsize : Matrix.HasSize rows columns e)
    {pair : Fin n → Codebook.BeamPair} (hpair : ∀ j, (pair j).tx < columns) {p : Codebook.BeamPair}
    (hp : p.rx < rows) (scale : ℝ) :
    ∃ row, equivalentRow (List.ofFn pair) p e scale = .ok row ∧ row.length = n := by
  have hrow := List.getElem?_eq_getElem (hsize.height.symm ▸ hp)
  obtain ⟨row, hentries⟩ : ∃ row, equivalentRow (List.ofFn pair) p e scale = .ok row := by
    refine exists_mapM_ok fun other hother => ?_
    obtain ⟨j, rfl⟩ := List.mem_ofFn.mp hother
    have hentry := List.getElem?_eq_getElem
      ((hsize.width _ (List.mem_of_getElem? hrow)).symm ▸ hpair j)
    exact ⟨_, except_bind_ok.mpr ⟨_, entryAt_ok.mpr hrow,
      except_bind_ok.mpr ⟨_, entryAt_ok.mpr hentry, rfl⟩⟩⟩
  exact ⟨row, hentries, by rw [← (except_mapM_ok.mp hentries).length_eq, List.length_ofFn]⟩

omit hanswers in
/-- The channel between streams and peers can be read off the searches. -/
theorem exists_equivalentChannel {search : Fin n → BeamSearch ℝ} {pair : Fin n → Codebook.BeamPair}
    {stage : AnalogStage ℝ} (hstage : Staged loss own panel engine flat peer search pair stage) :
    ∃ channel, equivalentChannel stage (List.ofFn peer) panel.elementCount = .ok channel ∧
      Matrix.HasSize n n channel := by
  obtain ⟨hon, hpaired, rfl⟩ := hstage
  have hrow : ∀ i (scale : ℝ), ∃ row,
      equivalentRow (List.ofFn pair) (pair i) (search i).equivalent scale = .ok row ∧ row.length = n := by
    intro i scale
    obtain ⟨h, hmade, -⟩ := hon i
    exact exists_equivalentRow (hmade.hasSize (hpeers.addressable _ (hasked i))) hpaired.transmitting
      (hpaired.receiving i) scale
  unfold equivalentChannel
  dsimp only
  rw [zip_ofFn, zip_ofFn, zip_ofFn]
  choose row hrow hlength using hrow
  refine ⟨_, mapM_ofFn_ok fun i => hrow i _, ⟨List.length_ofFn, fun r hr => ?_⟩⟩
  obtain ⟨i, rfl⟩ := List.mem_ofFn.mp hr
  exact hlength i _

/-- A bundle that mixes beams is served where the channel that the searches lead to can be solved. -/
theorem answers_mixFlat (hcount : n ≤ panel.size.count)
    (hsolvable : ∀ (h : Fin n → Matrix ℝ) (pair : Fin n → Codebook.BeamPair),
      (∀ i, flat (peer i) (h i)) → Paired panel peer pair →
      (LeastSquares.normalMatrix (flatChannel panel peer
        (fun i => loss.amplitude engine.referencePower own (peer i).endpoint) pair h)
          engine.noisePower).PosDef) (layers : List UInt8) :
    Action.Answers (Ready inv own.id panel engine asked flat) (fun _ => True)
      (mixFlat now loss own (List.ofFn peer) layers) := by
  unfold mixFlat
  split
  · exact Action.answers_pure trivial
  rename_i hempty
  have hn : 0 < n := by
    rw [List.isEmpty_iff, List.ofFn_eq_nil_iff] at hempty
    exact Nat.pos_of_ne_zero hempty
  refine (answers_analogStage hpeers hasked hanswers hcount).bind fun stage hstage => ?_
  obtain ⟨search, pair, hstage⟩ := hstage
  refine Action.answers_get_bind fun s hs => ?_
  obtain ⟨channel, hchannel, hsize⟩ := exists_equivalentChannel hpeers hasked hstage
  have helements : s.array.elementCount = panel.elementCount := by rw [AntennaArray.elementCount, hs.panel]
  have hnoise : s.engine.noisePower = engine.noisePower := by rw [hs.settings]
  obtain ⟨precoder, hprecoder⟩ : ∃ precoder,
      LeastSquares.solveMatrix channel engine.noisePower = .ok precoder := by
    obtain ⟨hon, hpaired, hstage⟩ := hstage
    choose h hmade hflat using hon
    rw [hstage] at hchannel
    obtain ⟨-, hcolumns, hentries⟩ := equivalentChannel_ok hn
      (fun i => hpeers.addressable _ (hasked i)) hmade hchannel
    refine (LeastSquares.exists_solveMatrix_iff hsize hcolumns _).mpr ?_
    rw [hentries]
    exact hsolvable h pair hflat hpaired
  rw [helements, hnoise]
  refine Action.Answers.bind (Action.answers_ofExcept hchannel rfl) fun _ hsame => ?_
  subst hsame
  refine Action.Answers.bind (p := fun _ => True) (Action.answers_ofExcept hprecoder trivial)
    fun _ _ => ?_
  refine Action.Answers.bind (p := fun _ => True) (Action.Answers.forM fun item _ =>
    answers_setBeam _ _ _) fun _ _ => ?_
  exact Action.answers_modify fun _ ht => ⟨ht.evaluator, ht.settings, ht.searched, ht.panel, ht.omni⟩

/-! ## Spectral digital stage -/

omit hasked in
/-- The gains of all streams at a peer are answered. -/
theorem answers_streamGains {p : Device ℝ} (hp : asked p) {stage : AnalogStage ℝ}
    {pair : Fin n → Codebook.BeamPair}
    (hbeams : stage.beams = List.ofFn fun j => transmittingBeam panel (pair j))
    (q : Codebook.BeamPair) (amplitude : ℝ) :
    Action.Answers (Ready inv own.id panel engine asked flat)
      (fun gains => ∃ coefficients : Fin n → List (Phasor ℝ),
        (gains = List.ofFn fun j => (coefficients j).map (·.scale amplitude)) ∧
        ∀ j, gained p (transmittingBeam panel (pair j)) (receivingBeam p q) (coefficients j))
      (streamGains now own stage p q amplitude) := by
  have haddressable := hpeers.addressable p hp
  have hcolumns : p.array.panel.size.columns ≠ 0 :=
    (Nat.pos_of_mul_pos_right (hpeers.receiving p hp)).ne'
  have hweights : (Codebook.beam p.array.panel.size q.rx : Except (Fault ℝ) _) =
      .ok (receivingBeam p q).weights := if_neg hcolumns
  have hstream : ∀ j, Action.Answers (Ready inv own.id panel engine asked flat)
      (fun g => ∃ coefficients, gained p (transmittingBeam panel (pair j)) (receivingBeam p q)
        coefficients ∧ g = coefficients.map (·.scale amplitude))
      (streamGain now own p amplitude (receivingBeam p q) (transmittingBeam panel (pair j))) := by
    intro j
    refine Action.answers_get_bind fun s hs => ?_
    have hgrid : s.engine.grid = engine.grid := by rw [hs.settings]
    have hsent : (transmittingBeam panel (pair j)).size = panel.elementCount :=
      Panel.size_weights haddressable.transmitter _ _
    have hreceived : (receivingBeam p q).size = p.array.elementCount :=
      Panel.size_weights haddressable.receiver _ _
    have hasked : Action.Answers (Ready inv own.id panel engine asked flat)
        (gained p (transmittingBeam panel (pair j)) (receivingBeam p q)) (onEvaluator
          (Evaluator.complexSpectrum now engine.grid ⟨own, s.array⟩ p (transmittingBeam panel (pair j))
            (receivingBeam p q))) :=
      (hanswers.complexSpectrum p hp s.array hs.panel hs.omni _ _ hsent hreceived).on
        (fun _ ht => ht.evaluator) fun _ _ ht hv => ⟨hv, ht.settings, ht.searched, ht.panel, ht.omni⟩
    rw [hgrid]
    exact hasked.bind fun coefficients hgained => Action.answers_pure ⟨coefficients, hgained, rfl⟩
  rw [streamGains_eq, hbeams]
  refine Action.Answers.bind (Action.answers_ofExcept hweights rfl) fun _ hsame => ?_
  subst hsame
  refine (Action.Answers.mapM_ofFn hstream).imp fun gains hgains => ?_
  obtain ⟨g, rfl, hg⟩ := hgains
  choose coefficients hgained hscaled using hg
  exact ⟨coefficients, congrArg List.ofFn (funext hscaled), hgained⟩

omit hpeers hasked hanswers in
/-- Blocks can be computed where the channel of every subband can be solved. -/
theorem exists_blocks (hn : 0 < n) {bands : ℕ} {noisePower : ℝ} {amplitude : Fin n → ℝ}
    {coefficients : Fin n → Fin n → List (Phasor ℝ)}
    (hsolvable : ∀ band < bands,
      (LeastSquares.normalMatrix (streamChannel amplitude coefficients band) noisePower).PosDef)
    (layers : List UInt8) :
    ∃ blocks, ((List.range bands).mapM fun band => do
      let channel : Matrix ℝ := (List.ofFn fun i => List.ofFn fun j =>
        (coefficients i j).map (·.scale (amplitude i))).map fun row => row.map (bandOf band)
      let precoder ← LeastSquares.solveMatrix channel noisePower
      return combinerBlock (combinerSize layers) layers precoder : Except (Fault ℝ) (Combiner ℝ)) =
        .ok blocks := by
  let gains : List (List (List (Phasor ℝ))) := List.ofFn fun i => List.ofFn fun j =>
    (coefficients i j).map (·.scale (amplitude i))
  refine exists_mapM_ok fun band hband => ?_
  have hentries : toMatrix n n (gains.map fun row => row.map (bandOf band)) =
      streamChannel amplitude coefficients band :=
    toMatrix_bands (fun i => ⟨_, getElem?_ofFn_val _ i, fun j => getElem?_ofFn_val _ j⟩) band
  have hsize : Matrix.HasSize n n (gains.map fun row => row.map (bandOf band)) := by
    refine ⟨by rw [List.length_map, List.length_ofFn], fun row hrow => ?_⟩
    obtain ⟨_, hmem, rfl⟩ := List.mem_map.mp hrow
    obtain ⟨i, rfl⟩ := List.mem_ofFn.mp hmem
    rw [List.length_map, List.length_ofFn]
  have hcolumns : Matrix.columns (gains.map fun row => row.map (bandOf band)) = n := by
    rw [Matrix.columns, List.head?_eq_getElem?, List.getElem?_map, getElem?_ofFn_val _ ⟨0, hn⟩]
    simp
  obtain ⟨precoder, hprecoder⟩ := (LeastSquares.exists_solveMatrix_iff hsize hcolumns noisePower).mpr
    (hentries ▸ hsolvable band (List.mem_range.mp hband))
  exact ⟨_, except_bind_ok.mpr ⟨precoder, hprecoder, rfl⟩⟩

/-- A bundle with a digital combiner is served where the channels of all subbands can be solved. -/
theorem answers_combineSpectral (hcount : n ≤ panel.size.count)
    (hsolvable : ∀ (pair : Fin n → Codebook.BeamPair) (coefficients : Fin n → Fin n → List (Phasor ℝ)),
      Paired panel peer pair → (∀ i j, gained (peer i) (transmittingBeam panel (pair j))
        (receivingBeam (peer i) (pair i)) (coefficients i j)) → ∀ band < engine.grid.size,
      (LeastSquares.normalMatrix (streamChannel
        (fun i => loss.amplitude engine.referencePower own (peer i).endpoint) coefficients band)
          engine.noisePower).PosDef) (layers : List UInt8) :
    Action.Answers (Ready inv own.id panel engine asked flat) (fun _ => True)
      (combineSpectral now loss own (List.ofFn peer) layers) := by
  unfold combineSpectral
  split
  · exact Action.answers_pure trivial
  rename_i hempty
  have hn : 0 < n := by
    rw [List.isEmpty_iff, List.ofFn_eq_nil_iff] at hempty
    exact Nat.pos_of_ne_zero hempty
  refine (answers_analogStage hpeers hasked hanswers hcount).bind fun stage hstage => ?_
  obtain ⟨search, pair, -, hpaired, rfl⟩ := hstage
  refine Action.Answers.bind (p := fun _ => True) (Action.Answers.forM fun item _ =>
    answers_setBeam _ _ _) fun _ _ => ?_
  dsimp only
  rw [zip_ofFn, zip_ofFn]
  refine Action.Answers.bind (Action.Answers.mapM_ofFn fun i =>
    answers_streamGains hpeers hanswers (hasked i) rfl (pair i) _) fun _ hgains => ?_
  obtain ⟨gains, rfl, hgains⟩ := hgains
  choose coefficients hscaled hgained using hgains
  obtain rfl := funext hscaled
  refine Action.answers_get_bind fun s hs => ?_
  obtain ⟨blocks, hblocks⟩ := exists_blocks hn (hsolvable pair coefficients hpaired hgained) layers
  rw [show s.engine = { engine with cache := s.engine.cache } from hs.settings]
  refine Action.Answers.bind (p := fun _ => True) (Action.answers_ofExcept hblocks trivial)
    fun _ _ => ?_
  exact Action.answers_modify fun _ ht => ⟨ht.evaluator, ht.settings, ht.searched, ht.panel, ht.omni⟩

/-! ## Serving -/

/-- With noise a bundle is served that has no more peers than the panel has beams, whatever the channels
are. -/
theorem answers_serve (hcount : n ≤ panel.size.count) (hnoise : 0 < engine.noisePower)
    (hstrategy : engine.strategy ≠ .geometric) {layers : List UInt8} (hlayers : layers.length = n) :
    Action.Answers (Ready inv own.id panel engine asked flat) (fun _ => True)
      (serve now loss own (List.ofFn peer) layers) := by
  unfold serve
  rw [if_neg (by rw [List.length_ofFn, hlayers, not_not])]
  refine Action.answers_get_bind fun s hs => ?_
  have hsame : s.engine.strategy = engine.strategy := by rw [hs.settings]
  have hpoint : Action.Answers (Ready inv own.id panel engine asked flat) (fun _ => True)
      (((List.ofFn peer).zip layers).forM fun item => point now own item.1 item.2) := by
    refine Action.Answers.forM fun item hitem => ?_
    obtain ⟨i, hi⟩ := List.mem_ofFn.mp (List.of_mem_zip hitem).1
    exact answers_point hpeers hanswers hstrategy (hi ▸ hasked i) item.2
  rw [hsame]
  cases hcase : engine.strategy with
  | geometric => exact absurd hcase hstrategy
  | codebook => exact hpoint
  | flatMmse =>
    exact answers_mixFlat hpeers hasked hanswers hcount
      (fun _ _ _ _ => LeastSquares.posDef_normalMatrix _ hnoise) layers
  | spectralMmse =>
    exact answers_combineSpectral hpeers hasked hanswers hcount
      (fun _ _ _ _ _ _ => LeastSquares.posDef_normalMatrix _ hnoise) layers

end Bundle

end RadioChannel
