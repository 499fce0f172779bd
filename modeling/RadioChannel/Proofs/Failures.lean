import RadioChannel.Proofs.Scenes
import RadioChannel.Proofs.Selections
import RadioChannel.Scalar.Binary64

/-!
# What a failed bundle leaves on the antenna

A bundle that is refused, and a bundle that would mix its beams, leave the antenna as it was. Without a
digital stage peers are served one after the other, and those before the one that failed keep their
beams. With a combiner the analog beams of all peers are set before the gains of the streams are asked
for; they stay, and the combiner is the one from before.
-/

namespace RadioChannel

open Scalar

variable {R : Type}

/-! ## Beams set one after the other -/

namespace AntennaArray

/-- Sets beams, each for a peer on a layer. -/
def setBeams (a : AntennaArray R) (now : Nanoseconds) (items : List ((NodeId × UInt8) × Beam R)) :
    AntennaArray R :=
  items.foldl (fun a item => a.setBeam item.1.1 item.1.2 item.2 now) a

variable {a : AntennaArray R} {now : Nanoseconds} {items : List ((NodeId × UInt8) × Beam R)}

@[simp] theorem combiner_setBeams : (a.setBeams now items).combiner = a.combiner := by
  induction items generalizing a with
  | nil => rfl
  | cons item items ih => exact ih

end AntennaArray

variable [Scalar R]

namespace BeamDesk

variable {now : Nanoseconds} {own : Endpoint R} {peer : Device R} {layer : UInt8}
variable {s t : BeamDesk R}

theorem array_select (now : Nanoseconds) (own : Endpoint R) (peer : Device R) (s : BeamDesk R) :
    ((select now own peer).run s).2.array = s.array := by
  have hselects : Selects now own (fun _ => True) s ((select now own peer).run s).2 :=
    selects_select trivial s
  exact hselects.array

theorem point_ok (h : (point now own peer layer).run s = (.ok (), t)) :
    ∃ b, t.array = s.array.setBeam peer.id layer b now := by
  unfold point at h
  rw [Action.run_bind_ok] at h
  obtain ⟨b, u, hselect, h⟩ := h
  have harray : u.array = s.array := by
    have hsame := array_select now own peer s
    rwa [hselect] at hsame
  cases h
  exact ⟨b.beam, by rw [← harray]⟩

theorem point_error {e : Fault R} (h : (point now own peer layer).run s = (.error e, t)) :
    t.array = s.array := by
  unfold point at h
  rw [Action.run_bind] at h
  have hsame := array_select now own peer s
  rcases hselect : (select now own peer).run s with ⟨e' | b, u⟩ <;> rw [hselect] at h hsame
  · cases h
    exact hsame
  · cases h

/-- Peers that were all pointed at have their beams, one for each. -/
theorem points_ok {items : List (Device R × UInt8)}
    (h : (items.forM fun (peer, layer) => point now own peer layer).run s = (.ok (), t)) :
    ∃ beams, beams.length = items.length ∧ t.array =
      s.array.setBeams now ((items.map fun item => (item.1.id, item.2)).zip beams) := by
  induction items generalizing s with
  | nil =>
    cases h
    exact ⟨[], rfl, rfl⟩
  | cons item items ih =>
    change (point now own item.1 item.2 >>= fun _ =>
      items.forM fun (peer, layer) => point now own peer layer).run s = _ at h
    rw [Action.run_bind_ok] at h
    obtain ⟨_, u, hfirst, hrest⟩ := h
    obtain ⟨b, hb⟩ := point_ok hfirst
    obtain ⟨beams, hlength, hbeams⟩ := ih hrest
    refine ⟨b :: beams, by rw [List.length_cons, hlength, List.length_cons], ?_⟩
    rw [hbeams, hb]
    rfl

end BeamDesk

namespace Bundle

open BeamDesk

variable {now : Nanoseconds} {loss : FreeSpace R} {own : Endpoint R} {peers : List (Device R)}
variable {layers : List UInt8} {s s' : BeamDesk R} {e : Fault R}

/-- The peers of a bundle with their layers. -/
def seats (peers : List (Device R)) (layers : List UInt8) : List (NodeId × UInt8) :=
  (peers.map Device.id).zip layers

omit [Scalar R] in
/-- The steps that set given beams cannot fail. -/
theorem run_setAll (beams : List (Beam R)) (s : BeamDesk R) :
    ((peers.zip (layers.zip beams)).forM fun (peer, (layer, beam)) =>
        setBeam peer.id layer beam now).run s =
      (.ok (), { s with array := s.array.setBeams now ((seats peers layers).zip beams) }) := by
  induction peers generalizing layers beams s with
  | nil => rfl
  | cons peer peers ih =>
    cases layers with
    | nil => rfl
    | cons layer layers =>
      cases beams with
      | nil => rfl
      | cons beam beams => exact ih beams { s with array := s.array.setBeam peer.id layer beam now }

theorem run_serve (hlength : peers.length = layers.length) :
    (serve now loss own peers layers).run s =
      (match s.engine.strategy with
      | .geometric | .codebook =>
        (peers.zip layers).forM fun (peer, layer) => point now own peer layer
      | .flatMmse => mixFlat now loss own peers layers
      | .spectralMmse => combineSpectral now loss own peers layers).run s := by
  unfold serve
  rw [Action.run_ite, if_neg (not_not_intro hlength)]
  cases hstrategy : s.engine.strategy <;>
    rw [Action.run_bind_of_ok (Action.run_get s), hstrategy]

theorem run_serve_mismatch (hlength : peers.length ≠ layers.length) :
    (serve now loss own peers layers).run s =
      (.error (.bundleMismatch peers.length layers.length), s) := by
  unfold serve
  rw [Action.run_ite, if_pos hlength, Action.run_fail]

/-- Whether peers are served one after the other. -/
def OneByOne (strategy : Strategy) : Prop := strategy = .geometric ∨ strategy = .codebook

theorem strategy_cases (strategy : Strategy) :
    OneByOne strategy ∨ strategy = .flatMmse ∨ strategy = .spectralMmse := by
  cases strategy with
  | geometric => exact Or.inl (Or.inl rfl)
  | codebook => exact Or.inl (Or.inr rfl)
  | flatMmse => exact Or.inr (Or.inl rfl)
  | spectralMmse => exact Or.inr (Or.inr rfl)

theorem run_serve_oneByOne (hlength : peers.length = layers.length)
    (hstrategy : OneByOne s.engine.strategy) : (serve now loss own peers layers).run s =
      ((peers.zip layers).forM fun (peer, layer) => point now own peer layer).run s := by
  rw [run_serve hlength]
  rcases hstrategy with h | h <;> rw [h]

/-- One by one, the peers before the one that fails keep their beams. -/
theorem serve_error_oneByOne (hlength : peers.length = layers.length)
    (hstrategy : OneByOne s.engine.strategy)
    (h : (serve now loss own peers layers).run s = (.error e, s')) :
    ∃ beams t, beams.length < peers.length ∧
      (serve now loss own (peers.take beams.length) (layers.take beams.length)).run s = (.ok (), t) ∧
      t.array = s.array.setBeams now ((seats peers layers).zip beams) ∧ s'.array = t.array := by
  rw [run_serve_oneByOne hlength hstrategy] at h
  obtain ⟨done, item, rest, t, hitems, hdone, hitem⟩ := Action.run_forM_error h
  obtain ⟨beams, hbeams, harray⟩ := points_ok hdone
  have hshort : beams.length < peers.length := by
    have htotal := congrArg List.length hitems
    rw [List.length_zip, hlength, Nat.min_self, List.length_append, List.length_cons] at htotal
    omega
  have hprefix : (peers.take beams.length).zip (layers.take beams.length) = done := by
    rw [List.zip, ← List.take_zipWith, ← List.zip, hitems, hbeams, List.take_left]
  refine ⟨beams, t, hshort, ?_, ?_, point_error hitem⟩
  · rw [run_serve_oneByOne (by simp [hlength]) hstrategy, hprefix]
    exact hdone
  · have hseats : seats peers layers =
        (done.map fun item => (item.1.id, item.2)) ++
          ((item :: rest).map fun item => (item.1.id, item.2)) := by
      rw [seats, ← List.map_append, ← hitems, List.zip_map_left]
      rfl
    have hzip : ((done.map fun item => (item.1.id, item.2)) ++
          (item :: rest).map fun item => (item.1.id, item.2)).zip (beams ++ []) =
        (done.map fun item => (item.1.id, item.2)).zip beams ++
          ((item :: rest).map fun item => (item.1.id, item.2)).zip [] :=
      List.zip_append ((List.length_map _).trans hbeams.symm)
    rw [List.append_nil, List.zip_nil_right, List.append_nil] at hzip
    rw [harray, hseats, hzip]

theorem array_analogStage (now : Nanoseconds) (loss : FreeSpace R) (own : Endpoint R)
    (peers : List (Device R)) (s : BeamDesk R) :
    ((analogStage now loss own peers).run s).2.array = s.array := by
  have hselects : Selects now own (fun _ => True) s ((analogStage now loss own peers).run s).2 :=
    selects_analogStage (fun _ _ => trivial) s
  exact hselects.array

/-- Bundles whose beams would be mixed set no beam before everything else went well. -/
theorem serve_error_flat (hlength : peers.length = layers.length)
    (hstrategy : s.engine.strategy = .flatMmse)
    (h : (serve now loss own peers layers).run s = (.error e, s')) : s'.array = s.array := by
  rw [run_serve hlength, hstrategy] at h
  dsimp only at h
  unfold mixFlat at h
  split at h
  · cases h
  rw [Action.run_bind] at h
  have hstage := array_analogStage now loss own peers s
  rcases hrun : (analogStage now loss own peers).run s with ⟨e' | stage, t⟩ <;>
    rw [hrun] at h hstage
  · cases h
    exact hstage
  dsimp only at h hstage
  rw [Action.run_bind_of_ok (Action.run_get t), Action.run_bind, Action.run_liftExcept] at h
  cases hchannel : equivalentChannel stage peers t.array.elementCount with
  | error e' =>
    rw [hchannel] at h
    cases h
    exact hstage
  | ok channel =>
    rw [hchannel] at h
    dsimp only at h
    rw [Action.run_bind, Action.run_liftExcept] at h
    cases hprecoder : LeastSquares.solveMatrix channel t.engine.noisePower with
    | error e' =>
      rw [hprecoder] at h
      cases h
      exact hstage
    | ok precoder =>
      -- what is left sets beams and removes the combiner, and answers
      rw [hprecoder] at h
      dsimp only at h
      unfold setBeam at h
      rw [Action.run_bind_of_ok (Action.run_forM_modify _ _ t)] at h
      cases h

/-- A bundle with a combiner. Nothing is done without peers, and nothing is set while beams are selected.
After that the beams of all peers are, and stay; the blocks for all subbands make the combiner, unless
the gains or a block fail. -/
theorem combineSpectral_cases (now : Nanoseconds) (loss : FreeSpace R) (own : Endpoint R)
    (peers : List (Device R)) (layers : List UInt8) (s : BeamDesk R) :
    (peers = [] ∧ (combineSpectral now loss own peers layers).run s = (.ok (), s)) ∨
    (peers ≠ [] ∧ ∃ e t, ((analogStage now loss own peers).run s).1 = .error e ∧
      (combineSpectral now loss own peers layers).run s = (.error e, t) ∧ t.array = s.array) ∨
    (peers ≠ [] ∧ ∃ stage t, ((analogStage now loss own peers).run s).1 = .ok stage ∧
      t.array = s.array.setBeams now ((seats peers layers).zip stage.beams) ∧
      t.engine.grid = s.engine.grid ∧
      ((∃ e, (combineSpectral now loss own peers layers).run s = (.error e, t)) ∨
      ∃ m, m.length = t.engine.grid.size ∧
        (∀ block ∈ m, ∃ precoder, block = combinerBlock (combinerSize layers) layers precoder) ∧
        (combineSpectral now loss own peers layers).run s =
          (.ok (), { t with array := t.array.setCombiner m }))) := by
  unfold combineSpectral
  split
  · next hempty => exact Or.inl ⟨List.isEmpty_iff.mp hempty, rfl⟩
  next hnonempty =>
  have hne : peers ≠ [] := fun hempty => hnonempty (List.isEmpty_iff.mpr hempty)
  right
  have hstage : Selects now own (fun _ => True) s ((analogStage now loss own peers).run s).2 :=
    selects_analogStage (fun _ _ => trivial) s
  rw [Action.run_bind]
  rcases hrun : (analogStage now loss own peers).run s with ⟨e | stage, t⟩ <;> rw [hrun] at hstage
  · exact Or.inl ⟨hne, e, t, rfl, rfl, hstage.array⟩
  refine Or.inr ⟨hne, stage, ?_⟩
  dsimp only at hstage ⊢
  rw [Action.run_bind_of_ok (run_setAll stage.beams t), hstage.array, Action.run_bind]
  -- neither the gains nor the blocks touch the array again
  have hselects : Action.Advances (Selects now own fun _ => True)
      ((peers.zip (stage.pairs.zip stage.amplitudes)).mapM fun (x : Device R × Codebook.BeamPair × R) =>
        streamGains now own stage x.1 x.2.1 x.2.2) :=
    Action.advances_mapM Selects.refl Selects.trans fun x _ => selects_streamGains stage x.1 x.2.1 x.2.2
  have hgains := hselects
    { t with array := s.array.setBeams now ((seats peers layers).zip stage.beams) }
  rcases hrun' : ((peers.zip (stage.pairs.zip stage.amplitudes)).mapM
      fun (x : Device R × Codebook.BeamPair × R) => streamGains now own stage x.1 x.2.1 x.2.2).run
    { t with array := s.array.setBeams now ((seats peers layers).zip stage.beams) } with
    ⟨e | gains, u⟩ <;> rw [hrun'] at hgains
  all_goals
    have hgrid : u.engine.grid = s.engine.grid := by rw [hgains.settings, hstage.settings]
    refine ⟨u, rfl, hgains.array, hgrid, ?_⟩
  · exact Or.inl ⟨e, rfl⟩
  dsimp only
  rw [Action.run_bind_of_ok (Action.run_get u), Action.run_bind, Action.run_liftExcept]
  cases hblocks : (List.range u.engine.grid.size).mapM fun band => do
      let precoder ← LeastSquares.solveMatrix
        (gains.map fun (row : List (List (Phasor R))) => row.map (bandOf band))
        u.engine.noisePower
      return combinerBlock (combinerSize layers) layers precoder with
  | error e => exact Or.inl ⟨e, rfl⟩
  | ok blocks =>
    have hsteps := except_mapM_ok.mp hblocks
    refine Or.inr ⟨blocks, by rw [← hsteps.length_eq, List.length_range], fun block hblock => ?_, rfl⟩
    obtain ⟨band, -, hband⟩ := exists_of_forall₂_mem hsteps hblock
    obtain ⟨precoder, -, hband⟩ := except_bind_ok.mp hband
    exact ⟨precoder, (Except.ok.inj hband).symm⟩

/-- With a combiner nothing is set while beams are selected; after that the beams of all peers are. -/
theorem serve_error_spectral (hlength : peers.length = layers.length)
    (hstrategy : s.engine.strategy = .spectralMmse)
    (h : (serve now loss own peers layers).run s = (.error e, s')) :
    ((∃ e', ((analogStage now loss own peers).run s).1 = .error e') ∧ s'.array = s.array) ∨
    ∃ stage, ((analogStage now loss own peers).run s).1 = .ok stage ∧
      s'.array = s.array.setBeams now ((seats peers layers).zip stage.beams) := by
  rw [run_serve hlength, hstrategy] at h
  dsimp only at h
  rcases combineSpectral_cases now loss own peers layers s with ⟨-, hrun⟩ |
    ⟨-, e', t, hstage, hrun, harray⟩ |
    ⟨-, stage, t, hstage, harray, -, ⟨e', hrun⟩ | ⟨m, -, -, hrun⟩⟩ <;> rw [hrun] at h <;> cases h
  · exact Or.inl ⟨⟨e, hstage⟩, harray⟩
  · exact Or.inr ⟨stage, hstage, harray⟩

end Bundle

/-! ## Scenes -/

namespace Scene

variable {s s' : Scene R} {own : NodeId} {peers : List NodeId} {layers : List UInt8}

omit [Scalar R] in
theorem stations_withDesk (t : Station R) (desk : BeamDesk R) :
    (s.withDesk own t desk).stations[own]? =
      some ⟨{ t.device with array := desk.array }, desk.engine⟩ := by
  simp [withDesk, put]

theorem Reachable.seats_eq (hs : s.Reachable) (layers : List UInt8) {others : List (Station R)}
    (hothers : List.Forall₂ (fun id other => s.stations[id]? = some other) peers others) :
    Bundle.seats (others.map Station.device) layers = peers.zip layers := by
  have hids : (others.map Station.device).map Device.id = peers := by
    induction hothers with
    | nil => rfl
    | cons hid _ ih => rw [List.map_cons, List.map_cons, ih, hs.id_eq hid]
  rw [Bundle.seats, hids]

/-- What a bundle that failed leaves on the antenna of its device. A bundle that is refused and a
bundle that would be mixed leave it as it was. One by one, it is as the bundle of the first peers leaves
it that goes well. With a combiner it has the analog beams of all peers, unless they could not be
selected. The combiner is the one from before in any case. -/
theorem Reachable.array_of_setBundle_error (hs : s.Reachable) {t : Station R} {e : Fault R}
    (ht : s.stations[own]? = some t) (h : (setBundle own peers layers).run s = (.error e, s')) :
    ∃ t', s'.stations[own]? = some t' ∧
      t'.device.array.combiner = t.device.array.combiner ∧
      (s.Unservable own peers ∨ peers.length ≠ layers.length ∨ t.engine.strategy = .flatMmse →
        t'.device.array = t.device.array) ∧
      (¬s.Unservable own peers → peers.length = layers.length →
        Bundle.OneByOne t.engine.strategy →
        ∃ beams s'' t'', beams.length < peers.length ∧
          (setBundle own (peers.take beams.length) (layers.take beams.length)).run s = (.ok (), s'') ∧
          s''.stations[own]? = some t'' ∧ t'.device.array = t''.device.array ∧
          t''.device.array = t.device.array.setBeams s.now ((peers.zip layers).zip beams)) ∧
      (¬s.Unservable own peers → peers.length = layers.length →
        t.engine.strategy = .spectralMmse →
        ∃ others, List.Forall₂ (fun id other => s.stations[id]? = some other) peers others ∧
          (((∃ e', ((Bundle.analogStage s.now s.loss t.device.endpoint
              (others.map Station.device)).run (s.desk t)).1 = .error e') ∧
            t'.device.array = t.device.array) ∨
          ∃ stage, ((Bundle.analogStage s.now s.loss t.device.endpoint
              (others.map Station.device)).run (s.desk t)).1 = .ok stage ∧
            t'.device.array =
              t.device.array.setBeams s.now ((peers.zip layers).zip stage.beams))) := by
  rcases setBundle_cases own peers layers s with ⟨hun, e', hrun⟩ | ⟨t₀, others, ht₀, hne, hothers⟩
  · -- refused for the devices: nothing was touched
    rw [hrun] at h
    cases h
    exact ⟨t, ht, rfl, fun _ => rfl, fun hserve => absurd hun hserve, fun hserve => absurd hun hserve⟩
  obtain rfl : t = t₀ := Option.some.inj (ht.symm.trans ht₀)
  have hservable := not_unservable ht hne hothers
  have hseats := hs.seats_eq layers hothers
  rw [run_setBundle ht hne hothers, run_atDesk] at h
  obtain ⟨hserve, rfl⟩ := Prod.mk.inj h
  rcases hdesk : (Bundle.serve s.now s.loss t.device.endpoint (others.map Station.device) layers).run
    (s.desk t) with ⟨outcome, desk⟩
  rw [hdesk] at hserve
  change outcome = .error e at hserve
  rw [hserve] at hdesk
  refine ⟨_, stations_withDesk t desk, ?_⟩
  have hlengths : (others.map Station.device).length = peers.length := by
    rw [List.length_map, hothers.length_eq]
  by_cases hlength : peers.length = layers.length
  · have hlength' : (others.map Station.device).length = layers.length := by rw [hlengths, hlength]
    by_cases hone : Bundle.OneByOne t.engine.strategy
    · obtain ⟨beams, u, hshort, hprefix, hu, harray⟩ :=
        Bundle.serve_error_oneByOne hlength' hone hdesk
      rw [hlengths] at hshort
      rw [hseats] at hu
      have hfirst : (setBundle own (peers.take beams.length) (layers.take beams.length)).run s =
          (.ok (), s.withDesk own t u) := by
        rw [run_setBundle ht (fun hown => hne (List.mem_of_mem_take hown))
          (List.forall₂_take beams.length hothers), run_atDesk, List.map_take, hprefix]
      refine ⟨?_, fun hflat => ?_, fun _ _ _ => ?_, fun _ _ hspectral => ?_⟩
      · change desk.array.combiner = _
        rw [harray, hu]
        exact AntennaArray.combiner_setBeams
      · rcases hflat with hun | hmismatch | hflat
        · exact absurd hun hservable
        · exact absurd hlength hmismatch
        · rcases hone with h | h <;> rw [h] at hflat <;> cases hflat
      · exact ⟨beams, _, _, hshort, hfirst, stations_withDesk t u, harray, hu⟩
      · rcases hone with h | h <;> rw [h] at hspectral <;> cases hspectral
    by_cases hflat : t.engine.strategy = .flatMmse
    · have harray : desk.array = t.device.array := Bundle.serve_error_flat hlength' hflat hdesk
      refine ⟨congrArg AntennaArray.combiner harray, fun _ => harray,
        fun _ _ hone' => absurd hone' hone, fun _ _ hspectral => ?_⟩
      rw [hflat] at hspectral
      cases hspectral
    have hspectral : t.engine.strategy = .spectralMmse :=
      ((Bundle.strategy_cases _).resolve_left hone).resolve_left hflat
    have hleft := Bundle.serve_error_spectral hlength' hspectral hdesk
    rw [hseats] at hleft
    refine ⟨?_, fun hkept => ?_, fun _ _ hone' => absurd hone' hone, fun _ _ _ => ⟨others, hothers, hleft⟩⟩
    · change desk.array.combiner = _
      rcases hleft with ⟨-, harray⟩ | ⟨stage, -, harray⟩
      · exact congrArg AntennaArray.combiner harray
      · rw [harray]
        exact AntennaArray.combiner_setBeams
    · rcases hkept with hun | hmismatch | hflat'
      · exact absurd hun hservable
      · exact absurd hlength hmismatch
      · exact absurd hflat' hflat
  · rw [Bundle.run_serve_mismatch (by rwa [hlengths])] at hdesk
    cases hdesk
    exact ⟨rfl, fun _ => rfl, fun _ hlength' => absurd hlength' hlength,
      fun _ hlength' => absurd hlength' hlength⟩

/-! ## A square -/

/-- A single antenna. -/
def singleAntenna : PanelSettings Float := { PanelSettings.standard with columns := 1, rows := 1 }

theorem ofSettings_standard : ∃ s : Scene Float, ofSettings .standard = .ok s ∧ s.stations = ∅ := by
  have hheld : Nanoseconds.ofMilliseconds? (1 : Float) = some 1000000 := by decide +kernel
  have hperiod : (SceneSettings.standard : SceneSettings Float).channel.updatePeriod =
      .ok 1000000 := by
    change periodOfMilliseconds (1 : Float) = _
    rw [periodOfMilliseconds, hheld]
  unfold ofSettings Generator.ofSettings
  rw [hperiod]
  exact ⟨_, rfl, rfl⟩

theorem ofSettings_dft (grid : SpectrumGrid Float) :
    BeamEngine.ofSettings (BeamSettings.standard : BeamSettings Float) grid =
      .ok ⟨.geometric, 100000000, 1e-13, 30, grid, ∅⟩ := by
  have hheld : Nanoseconds.ofMilliseconds? (100 : Float) = some 100000000 := by decide +kernel
  have hrefresh : BeamSettings.codebookRefresh (BeamSettings.standard : BeamSettings Float) =
      .ok 100000000 := by
    change periodOfMilliseconds (100 : Float) = _
    rw [periodOfMilliseconds, hheld]
  unfold BeamEngine.ofSettings
  rw [hrefresh]
  rfl

/-- A device that was just added to a square. -/
def onSquare (grid : SpectrumGrid Float) (panel : Panel Float) (id : NodeId) (position : Vec3 Float) :
    Station Float :=
  ⟨⟨⟨id, position, .zero⟩, .ofPanel panel⟩, ⟨.geometric, 100000000, 1e-13, 30, grid, ∅⟩⟩

/-- A mast on a square serves a terminal on the ground and one that climbed the mast. -/
theorem setBundle_on_square : ∃ (s s' : Scene Float) (t t' : Station Float) (x : Beam Float),
    s.Reachable ∧ s.stations[(⟨1⟩ : NodeId)]? = some t ∧ ¬s.Unservable ⟨1⟩ [⟨2⟩, ⟨3⟩] ∧
    t.engine.strategy = .geometric ∧
    (setBundle ⟨1⟩ [⟨2⟩, ⟨3⟩] [0, 1]).run s = (.error (.coincident ⟨1⟩ ⟨3⟩), s') ∧
    s'.stations[(⟨1⟩ : NodeId)]? = some t' ∧ t.device.array.beam 0 = .error (.missingBeam 0) ∧
    t'.device.array.beam 0 = .ok x := by
  obtain ⟨s₀, hsettings, hempty⟩ := ofSettings_standard
  obtain ⟨panel, hpanel⟩ : ∃ panel, Panel.ofSettings singleAntenna = .ok panel := ⟨_, rfl⟩
  obtain ⟨mast, hmast⟩ : ∃ t, t = onSquare s₀.grid panel ⟨1⟩ ⟨0, 0, 10⟩ := ⟨_, rfl⟩
  obtain ⟨ground, hground⟩ : ∃ t, t = onSquare s₀.grid panel ⟨2⟩ ⟨40, 10, 1.5⟩ := ⟨_, rfl⟩
  obtain ⟨climber, hclimber⟩ : ∃ t, t = onSquare s₀.grid panel ⟨3⟩ ⟨0, 0, 10⟩ := ⟨_, rfl⟩
  obtain ⟨s, hs⟩ : ∃ s, s = ((s₀.put ⟨1⟩ mast).put ⟨2⟩ ground).put ⟨3⟩ climber := ⟨_, rfl⟩
  have hreach : s.Reachable := by
    rw [hs, hmast, hground, hclimber]
    refine Reachable.addDevice (Reachable.addDevice (Reachable.addDevice (.start hsettings)
      ?_ hpanel (ofSettings_dft _) _) ?_ hpanel (ofSettings_dft _) _) ?_ hpanel (ofSettings_dft _) _
    · simp [hempty]
    · simp [put, hempty]
    · simp [put, hempty]
  have h₁ : s.stations[(⟨1⟩ : NodeId)]? = some mast := by
    rw [hs, stations_put, if_neg (by decide), stations_put, if_neg (by decide), stations_put,
      if_pos rfl]
  have h₂ : s.stations[(⟨2⟩ : NodeId)]? = some ground := by
    rw [hs, stations_put, if_neg (by decide), stations_put, if_pos rfl]
  have h₃ : s.stations[(⟨3⟩ : NodeId)]? = some climber := by
    rw [hs, stations_put, if_pos rfl]
  have hservable : ¬s.Unservable ⟨1⟩ [⟨2⟩, ⟨3⟩] := by
    simp only [Unservable, h₁, h₂, h₃, List.exists_mem_cons_iff, List.not_mem_nil, reduceCtorEq,
      false_and, exists_false, or_false]
    decide
  have hapart : ((⟨0, 0, 10⟩ : Vec3 Float) == ⟨40, 10, 1.5⟩) = false := by decide
  have htogether : ((⟨0, 0, 10⟩ : Vec3 Float) == ⟨0, 0, 10⟩) = true := by decide
  -- the terminal on the ground gets its beam, the other one is where the mast is
  obtain ⟨engine, hengine, hfirst⟩ := BeamDesk.run_point_steered s.now 0
    (show (s.desk mast).engine.strategy = .geometric by rw [hmast]; rfl)
    (show (mast.device.endpoint.position == ground.device.endpoint.position) = false by
      rw [hmast, hground]; exact hapart)
    (by rw [hmast]; simp [desk, onSquare, BeamEngine.selected?])
  obtain ⟨x, hx⟩ : ∃ x, x = (s.desk mast).array.panel.steer mast.device.endpoint.position
    ground.device.endpoint.position := ⟨_, rfl⟩
  obtain ⟨u, hu⟩ : ∃ u : BeamDesk Float, u = ⟨engine, (s.desk mast).array.setBeam ground.device.id 0
    x s.now, (s.desk mast).evaluator⟩ := ⟨_, rfl⟩
  rw [← hx, ← hu] at hfirst
  have hsecond := BeamDesk.run_point_coincident s.now 1
    (show u.engine.strategy = .geometric by rw [hu]; exact hengine)
    (show (mast.device.endpoint.position == climber.device.endpoint.position) = true by
      rw [hmast, hclimber]; exact htogether)
  have hrun : (setBundle ⟨1⟩ [⟨2⟩, ⟨3⟩] [0, 1]).run s =
      (.error (.coincident ⟨1⟩ ⟨3⟩), s.withDesk ⟨1⟩ mast u) := by
    rw [run_setBundle h₁ (by decide) (.cons h₂ (.cons h₃ .nil)), run_atDesk,
      Bundle.run_serve_oneByOne rfl (Or.inl (by rw [hmast]; rfl))]
    have hserved : (BeamDesk.point s.now mast.device.endpoint ground.device 0 >>= fun _ =>
        BeamDesk.point s.now mast.device.endpoint climber.device 1 >>= fun _ => pure ()).run
          (s.desk mast) = (.error (.coincident ⟨1⟩ ⟨3⟩), u) := by
      rw [Action.run_bind_of_ok hfirst, Action.run_bind, hsecond, hmast, hclimber]
      rfl
    exact congrArg (fun r => (r.1, s.withDesk ⟨1⟩ mast r.2)) hserved
  refine ⟨s, _, mast, _, x, hreach, h₁, hservable, by rw [hmast]; rfl, hrun, stations_withDesk mast u,
    ?_, ?_⟩
  · rw [hmast]
    rfl
  · rw [hu]
    simp [AntennaArray.beam, AntennaArray.setBeam]

/-- The bundle fails for the second terminal, and the layer of the first one has a beam it had not. -/
theorem array_changed_by_setBundle_error : ∃ (s s' : Scene Float) (t t' : Station Float),
    s.Reachable ∧ s.stations[(⟨1⟩ : NodeId)]? = some t ∧
    (setBundle ⟨1⟩ [⟨2⟩, ⟨3⟩] [0, 1]).run s = (.error (.coincident ⟨1⟩ ⟨3⟩), s') ∧
    s'.stations[(⟨1⟩ : NodeId)]? = some t' ∧ t'.device.array ≠ t.device.array := by
  obtain ⟨s, s', t, t', x, hreach, ht, -, -, hrun, ht', hbefore, hafter⟩ := setBundle_on_square
  refine ⟨s, s', t, t', hreach, ht, hrun, ht', fun hsame => ?_⟩
  rw [hsame, hbefore] at hafter
  cases hafter

/-- It has the beam of the bundle of the first terminal, and nothing else is set. -/
theorem array_of_setBundle_error_on_square : ∃ (s s' : Scene Float) (t t' : Station Float)
    (beams : List (Beam Float)), s.Reachable ∧ s.stations[(⟨1⟩ : NodeId)]? = some t ∧
    (setBundle ⟨1⟩ [⟨2⟩, ⟨3⟩] [0, 1]).run s = (.error (.coincident ⟨1⟩ ⟨3⟩), s') ∧
    s'.stations[(⟨1⟩ : NodeId)]? = some t' ∧ beams.length = 1 ∧
    t'.device.array =
      t.device.array.setBeams s.now (([⟨2⟩, ⟨3⟩].zip ([0, 1] : List UInt8)).zip beams) := by
  obtain ⟨s, s', t, t', x, hreach, ht, hservable, hstrategy, hrun, ht', hbefore, hafter⟩ :=
    setBundle_on_square
  obtain ⟨t'', ht'', -, -, hone, -⟩ := Reachable.array_of_setBundle_error hreach ht hrun
  obtain rfl : t' = t'' := Option.some.inj (ht'.symm.trans ht'')
  obtain ⟨beams, _, u, hshort, -, -, harray, hbeams⟩ := hone hservable rfl (Or.inl hstrategy)
  rw [hbeams] at harray
  refine ⟨s, s', t, t', beams, hreach, ht, hrun, ht', ?_, harray⟩
  match beams, hshort with
  | [], _ =>
    -- without a beam the layer would be as it was
    have hsame : t'.device.array = t.device.array := harray
    rw [hsame, hbefore] at hafter
    cases hafter
  | [_], _ => rfl

end Scene

end RadioChannel
