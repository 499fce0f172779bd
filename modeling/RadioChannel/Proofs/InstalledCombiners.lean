import RadioChannel.Proofs.CombinerShapes
import RadioChannel.Proofs.MatchedScenes

/-!
# Installed combiners

An antenna gets a combiner from a bundle that its device takes up, and keeps it until the next one.
Beams that are set later replace beams and remove none; and a bundle that fails leaves the combiner from
before. So the combiner is that of the last bundle that was taken up, and the layers of that bundle have
beams.
-/

namespace RadioChannel

open Scalar

variable {R : Type}

/-! ## Arrays -/

namespace AntennaArray

/-- The combiner stays, and so does a beam on each layer that has one. -/
structure Keeps (x y : AntennaArray R) : Prop where
  combiner : y.combiner = x.combiner
  beam : ∀ (layer : UInt8) b, x.current[layer]? = some b → ∃ b', y.current[layer]? = some b'

variable {x y z : AntennaArray R} {now : Nanoseconds} {items : List ((NodeId × UInt8) × Beam R)}

theorem Keeps.refl (x : AntennaArray R) : x.Keeps x := ⟨rfl, fun _ b hb => ⟨b, hb⟩⟩

theorem Keeps.trans (h : x.Keeps y) (h' : y.Keeps z) : x.Keeps z := by
  refine ⟨h'.combiner.trans h.combiner, fun layer b hb => ?_⟩
  obtain ⟨b', hb'⟩ := h.beam layer b hb
  exact h'.beam layer b' hb'

theorem keeps_setBeam (x : AntennaArray R) (peer : NodeId) (layer : UInt8) (b : Beam R)
    (now : Nanoseconds) : x.Keeps (x.setBeam peer layer b now) := by
  refine ⟨rfl, fun layer' b' hb' => ?_⟩
  rw [setBeam, Std.TreeMap.getElem?_insert]
  split
  · exact ⟨b, rfl⟩
  · exact ⟨b', hb'⟩

theorem keeps_setBeams (x : AntennaArray R) (now : Nanoseconds)
    (items : List ((NodeId × UInt8) × Beam R)) : x.Keeps (x.setBeams now items) := by
  induction items generalizing x with
  | nil => exact .refl x
  | cons item items ih => exact (x.keeps_setBeam _ _ _ now).trans (ih _)

/-- A layer that a beam is set on has one. -/
theorem exists_current_setBeams {layer : UInt8} (h : layer ∈ items.map fun item => item.1.2) :
    ∃ b, (x.setBeams now items).current[layer]? = some b := by
  induction items generalizing x with
  | nil => cases h
  | cons item items ih =>
    rw [List.map_cons, List.mem_cons] at h
    rcases h with rfl | h
    · obtain ⟨b, hb⟩ := (keeps_setBeams (x.setBeam item.1.1 item.1.2 item.2 now) now items).beam
        item.1.2 item.2 Std.TreeMap.getElem?_insert_self
      exact ⟨b, hb⟩
    · exact ih h

end AntennaArray

variable [Scalar R]

/-! ## Desks -/

namespace BeamDesk

theorem keeps_point (now : Nanoseconds) (own : Endpoint R) (peer : Device R) (layer : UInt8)
    (s : BeamDesk R) : s.array.Keeps ((point now own peer layer).run s).2.array := by
  rcases hrun : (point now own peer layer).run s with ⟨e | _, t⟩
  · rw [point_error hrun]
    exact .refl _
  · obtain ⟨b, hb⟩ := point_ok hrun
    rw [hb]
    exact s.array.keeps_setBeam _ _ _ _

end BeamDesk

namespace Bundle

open BeamDesk

variable {now : Nanoseconds} {loss : FreeSpace R} {own : Endpoint R} {peers : List (Device R)}
variable {layers : List UInt8} {s t : BeamDesk R}

omit [Scalar R] in
theorem length_seats (hlength : peers.length = layers.length) :
    (seats peers layers).length = layers.length := by
  rw [seats, List.length_zip, List.length_map, hlength, Nat.min_self]

omit [Scalar R] in
/-- Beams for the seats of a bundle are set on all its layers. -/
theorem layers_seats (hlength : peers.length = layers.length) {beams : List (Beam R)}
    (hbeams : beams.length = peers.length) :
    ((seats peers layers).zip beams).map (fun item => item.1.2) = layers := by
  calc ((seats peers layers).zip beams).map (fun item => item.1.2)
    _ = (((seats peers layers).zip beams).map Prod.fst).map Prod.snd := by
        rw [List.map_map]
        rfl
    _ = (seats peers layers).map Prod.snd := by
        rw [List.map_fst_zip (by rw [length_seats hlength, hbeams, hlength])]
    _ = layers := by
        rw [seats, List.map_snd_zip (by rw [List.length_map, hlength])]

/-- Without a spectral stage no combiner is installed. -/
theorem combiner_serve_none (hstrategy : s.engine.strategy ≠ .spectralMmse)
    (hnone : s.array.combiner = none) :
    ((serve now loss own peers layers).run s).2.array.combiner = none := by
  have hkeep : ∀ {α : Type} {x : Action R (BeamDesk R) α},
      Action.Advances (Selects now own fun _ => True) x →
      Action.Advances (fun s t => s.array.combiner = none → t.array.combiner = none) x := by
    intro α x hx s hs
    rw [(hx s).array]
    exact hs
  have htrans : ∀ s t u : BeamDesk R, (s.array.combiner = none → t.array.combiner = none) →
      (t.array.combiner = none → u.array.combiner = none) →
      s.array.combiner = none → u.array.combiner = none := fun _ _ _ h h' hs => h' (h hs)
  by_cases hlength : peers.length = layers.length
  · rcases strategy_cases s.engine.strategy with hone | hflat | hspectral
    · rw [run_serve_oneByOne hlength hone]
      refine Action.advances_forM (r := fun s t => s.array.combiner = none → t.array.combiner = none)
        (fun _ hs => hs) htrans (fun item _ s hs => ?_) s hnone
      rw [(keeps_point now own item.1 item.2 s).combiner]
      exact hs
    · rw [run_serve hlength, hflat]
      dsimp only
      unfold mixFlat
      split
      · exact hnone
      refine Action.Advances.bind htrans (hkeep (selects_analogStage fun _ _ => trivial)) (fun stage => ?_)
        s hnone
      refine Action.advances_get_bind fun t => ?_
      refine Action.Advances.bind htrans (hkeep (selects_ofExcept _)) (fun channel => ?_) t
      refine Action.Advances.bind htrans (hkeep (selects_ofExcept _)) fun precoder => ?_
      refine Action.Advances.bind htrans (Action.advances_forM (fun _ hs => hs) htrans
        fun item _ s hs => hs) fun _ => ?_
      exact fun _ _ => rfl
    · exact absurd hspectral hstrategy
  · rw [run_serve_mismatch hlength]
    exact hnone

theorem keeps_serve_error {e : Fault R} (hstrategy : s.engine.strategy = .spectralMmse)
    (h : (serve now loss own peers layers).run s = (.error e, t)) : s.array.Keeps t.array := by
  by_cases hlength : peers.length = layers.length
  · rcases serve_error_spectral hlength hstrategy h with ⟨-, harray⟩ | ⟨stage, -, harray⟩
    · rw [harray]
      exact .refl _
    · rw [harray]
      exact s.array.keeps_setBeams _ _
  · rw [run_serve_mismatch hlength] at h
    cases h
    exact .refl _

variable [Scalar.ZeroLaws R]

/-- With a spectral stage a bundle of peers that is taken up sets beams on all its layers, and installs
a combiner with a block for each subband. -/
theorem serve_ok_spectral (hstrategy : s.engine.strategy = .spectralMmse)
    (h : (serve now loss own peers layers).run s = (.ok (), t)) : (peers = [] ∧ t = s) ∨
    (peers ≠ [] ∧ ∃ (beams : List (Beam R)) (m : Combiner R),
      ((seats peers layers).zip beams).map (fun item => item.1.2) = layers ∧
      m.length = s.engine.grid.size ∧ Combiner.Of layers m ∧
      t.array = (s.array.setBeams now ((seats peers layers).zip beams)).setCombiner m) := by
  by_cases hlength : peers.length = layers.length
  swap
  · rw [run_serve_mismatch hlength] at h
    cases h
  rw [run_serve hlength, hstrategy] at h
  dsimp only at h
  rcases combineSpectral_cases now loss own peers layers s with ⟨hempty, hrun⟩ |
    ⟨-, e, u, -, hrun, -⟩ |
    ⟨hne, stage, u, hstage, harray, hgrid, ⟨e, hrun⟩ | ⟨m, hsize, hblocks, hrun⟩⟩ <;>
    rw [hrun] at h <;> cases h
  · exact Or.inl ⟨hempty, rfl⟩
  · have hbeams : stage.beams.length = peers.length :=
      (lengths_of_analogStage (Prod.ext hstage rfl)).2
    refine Or.inr ⟨hne, stage.beams, m, layers_seats hlength hbeams, hsize.trans (congrArg _ hgrid),
      fun block hblock => ?_, congrArg (·.setCombiner m) harray⟩
    obtain ⟨precoder, hprecoder⟩ := hblocks block hblock
    rw [hprecoder]
    exact blockOf_combinerBlock layers _ precoder

end Bundle

/-! ## Stations -/

namespace Station

/-- The combiner of a station is that of a bundle on some layers, and these have beams. -/
structure Combining (bands : Nat) (bundled : Option (List UInt8)) (t : Station R) : Prop where
  size : t.engine.grid.size = bands
  spectral : t.engine.strategy ≠ .spectralMmse → t.device.array.combiner = none
  bundle : ∀ m, t.device.array.combiner = some m → ∃ layers, bundled = some layers ∧
    m.length = bands ∧ Combiner.Of layers m ∧
    ∀ layer ∈ layers, ∃ b, t.device.array.current[layer]? = some b

/-- A station keeps its combiner and what it was made for. -/
structure Keeps (t t' : Station R) : Prop where
  grid : t'.engine.grid = t.engine.grid
  strategy : t'.engine.strategy = t.engine.strategy
  array : t.device.array.Keeps t'.device.array

variable {bands : Nat} {bundled : Option (List UInt8)} {t t' : Station R}

theorem Combining.keeps (h : t.Combining bands bundled) (ht : t.Keeps t') :
    t'.Combining bands bundled where
  size := by rw [ht.grid, h.size]
  spectral hstrategy := by
    rw [ht.array.combiner]
    exact h.spectral (ht.strategy ▸ hstrategy)
  bundle m hm := by
    rw [ht.array.combiner] at hm
    obtain ⟨layers, hbundled, hlength, hof, hbeams⟩ := h.bundle m hm
    refine ⟨layers, hbundled, hlength, hof, fun layer hlayer => ?_⟩
    obtain ⟨b, hb⟩ := hbeams layer hlayer
    exact ht.array.beam layer b hb

theorem Combining.of_none (hsize : t.engine.grid.size = bands)
    (hnone : t.device.array.combiner = none) : t.Combining bands bundled where
  size := hsize
  spectral _ := hnone
  bundle m hm := by
    rw [hnone] at hm
    cases hm

/-- So does one whose desk kept it. -/
theorem Keeps.of_works {now : Nanoseconds} {own : Endpoint R} {asked : Device R → Prop}
    {v : Evaluator R} {desk : BeamDesk R}
    (hworks : BeamDesk.Works now own asked ⟨t.engine, t.device.array, v⟩ desk)
    (harray : t.device.array.Keeps desk.array) :
    t.Keeps ⟨{ t.device with array := desk.array }, desk.engine⟩ := by
  refine ⟨?_, ?_, harray⟩
  all_goals
    rw [hworks.settings]

/-- Serving a bundle leaves the combiner as it was, or installs that of the bundle. -/
theorem Combining.serve [Scalar.ZeroLaws R] (h : t.Combining bands bundled) {now : Nanoseconds}
    {loss : FreeSpace R} {own : Endpoint R} {peers : List (Device R)} {layers : List UInt8}
    {v : Evaluator R} {outcome : Except (Fault R) Unit} {desk : BeamDesk R}
    (hrun : (Bundle.serve now loss own peers layers).run ⟨t.engine, t.device.array, v⟩ =
      (outcome, desk)) :
    Station.Combining bands
      ((if peers ≠ [] ∧ outcome.isOk then some layers else none).or bundled)
      ⟨{ t.device with array := desk.array }, desk.engine⟩ := by
  have hworks : BeamDesk.Works now own (fun _ => True) ⟨t.engine, t.device.array, v⟩
      ((Bundle.serve now loss own peers layers).run ⟨t.engine, t.device.array, v⟩).2 :=
    Bundle.works_serve (fun _ _ => trivial) layers _
  rw [hrun] at hworks
  have hgrid : desk.engine.grid = t.engine.grid := by rw [hworks.settings]
  by_cases hspectral : t.engine.strategy = .spectralMmse
  · cases outcome with
    | error e =>
      rw [if_neg (by rintro ⟨-, hok⟩; cases hok)]
      exact h.keeps (.of_works hworks (Bundle.keeps_serve_error hspectral hrun))
    | ok _ =>
      rcases Bundle.serve_ok_spectral hspectral hrun with
        ⟨hempty, rfl⟩ | ⟨hne, beams, m, hlayers, hlength, hof, harray⟩
      · rw [if_neg (by rintro ⟨hne, -⟩; exact hne hempty)]
        exact h
      · rw [if_pos ⟨hne, rfl⟩]
        refine ⟨by rw [hgrid, h.size], fun hother => ?_, fun m' hm' => ?_⟩
        · refine absurd ?_ hother
          rw [hworks.settings]
          exact hspectral
        · change desk.array.combiner = some m' at hm'
          rw [harray] at hm'
          obtain rfl : m = m' := Option.some.inj hm'
          refine ⟨layers, rfl, hlength.trans h.size, hof, fun layer hlayer => ?_⟩
          change ∃ b, desk.array.current[layer]? = some b
          rw [harray]
          rw [← hlayers] at hlayer
          exact AntennaArray.exists_current_setBeams hlayer
  · have hnone : ((Bundle.serve now loss own peers layers).run
        ⟨t.engine, t.device.array, v⟩).2.array.combiner = none :=
      Bundle.combiner_serve_none hspectral (h.spectral hspectral)
    rw [hrun] at hnone
    exact .of_none (by rw [hgrid, h.size]) hnone

end Station

theorem BeamEngine.grid_ofSettings {settings : BeamSettings R} {grid : SpectrumGrid R}
    {engine : BeamEngine R} (h : BeamEngine.ofSettings settings grid = .ok engine) :
    engine.grid = grid := by
  obtain ⟨strategy, -, h⟩ := except_bind_ok.mp h
  obtain ⟨refresh, -, h⟩ := except_bind_ok.mp h
  rw [← Except.ok.inj h]

namespace Scene

/-- The layers of a bundle that a request makes a device take up. -/
def bundled? (s : Scene R) (request : Request R) (own : NodeId) : Option (List UInt8) :=
  match request with
  | .setBundle id peers layers =>
    if id = own ∧ peers ≠ [] ∧ ((ask request).run s).1.isOk then some layers else none
  | _ => none

/-- The layers of the last bundle that a device took up; none if there was none. -/
def bundled (start : Scene R) : List (Request R) → NodeId → Option (List UInt8)
  | [], _ => none
  | request :: past, own => ((start.after past).bundled? request own).or (start.bundled past own)

/-- All stations have the combiners of their bundles. -/
def Combining (s : Scene R) (bundled : NodeId → Option (List UInt8)) : Prop :=
  ∀ (id : NodeId) (t : Station R), s.stations[id]? = some t → t.Combining s.grid.size (bundled id)

variable {s s' : Scene R} {own : NodeId} {bundled : NodeId → Option (List UInt8)}

/-! ## Requests -/

/-- The subbands of a scene never change. -/
theorem grid_ask (request : Request R) : ((ask request).run s).2.grid = s.grid := by
  cases request with
  | addDevice id position panel beams =>
    rw [ask, Action.run_map]
    rcases addDevice_cases id position panel beams s with
      ⟨e, hrun⟩ | ⟨p, engine, -, -, -, hrun⟩ <;> rw [hrun]
    rfl
  | setMobility id position velocity =>
    rw [ask, Action.run_map, setMobility, run_alter]
    cases s.stations[id]? <;> rfl
  | setOmni id =>
    rw [ask, Action.run_map, setOmni, run_alter]
    cases s.stations[id]? <;> rfl
  | setCondition a b condition =>
    rw [ask, Action.run_map]
    rcases setCondition_cases a b condition s with ⟨e, hrun⟩ | ⟨ta, tb, -, -, hrun⟩ <;> rw [hrun]
  | advanceTo t => rfl
  | setBeam own peer layer =>
    rw [ask, Action.run_map]
    rcases setBeam_cases own peer layer s with ⟨e, hrun⟩ | ⟨t, other, -, -, -, hrun⟩ <;> rw [hrun]
    rfl
  | setBundle own peers layers =>
    rw [ask, Action.run_map]
    rcases setBundle_cases own peers layers s with ⟨-, e, hrun⟩ | ⟨t, others, ht, hne, hothers⟩
    · rw [hrun]
    · rw [run_setBundle ht hne hothers]
      rfl
  | receivedSpectrum tx rx power txLayer rxLayer =>
    rw [ask, Action.run_map]
    rcases receivedSpectrum_cases tx rx power txLayer rxLayer s with
      ⟨e, hrun⟩ | ⟨a, b, -, -, hrun⟩ <;> rw [hrun]
    rfl
  | channelSummary a b =>
    rw [ask, Action.run_map]
    rcases channelSummary_cases a b s with ⟨e, hrun⟩ | ⟨ta, tb, -, -, hrun⟩ <;> rw [hrun]

/-- Requests that add no device and serve no bundle leave every station its combiner. -/
theorem replaces_keeps {request : Request R} (hadds : request.adds = false)
    (hbundle : ∀ own peers layers, request ≠ .setBundle own peers layers) :
    ∃ own, Replaces own Station.Keeps s ((ask request).run s).2 := by
  cases request with
  | addDevice id position panel beams => cases hadds
  | setMobility id position velocity =>
    rw [ask, Action.run_map]
    exact ⟨id, (replaces_alter id _ s).imp fun t t' h => h ▸ ⟨rfl, rfl, .refl _⟩⟩
  | setOmni id =>
    rw [ask, Action.run_map]
    exact ⟨id, (replaces_alter id _ s).imp fun t t' h =>
      h ▸ ⟨rfl, rfl, rfl, fun _ b hb => ⟨b, hb⟩⟩⟩
  | setCondition a b condition =>
    rw [ask, Action.run_map]
    refine ⟨a, Or.inl ?_⟩
    rcases setCondition_cases a b condition s with ⟨e, hrun⟩ | ⟨ta, tb, -, -, hrun⟩ <;> rw [hrun]
  | advanceTo t => exact ⟨⟨0⟩, Or.inl rfl⟩
  | setBeam own peer layer =>
    rw [ask, Action.run_map]
    refine ⟨own, ?_⟩
    rcases setBeam_cases own peer layer s with ⟨e, hrun⟩ | ⟨t, other, ht, -, -, hrun⟩
    · rw [hrun]
      exact Or.inl rfl
    · rw [hrun, run_atDesk]
      have hworks : BeamDesk.Works s.now t.device.endpoint (fun _ => True) (s.desk t)
          ((BeamDesk.point s.now t.device.endpoint other.device layer).run (s.desk t)).2 :=
        BeamDesk.works_point trivial layer (s.desk t)
      have hkeeps := BeamDesk.keeps_point s.now t.device.endpoint other.device layer (s.desk t)
      exact Or.inr ⟨t, _, ht, .of_works hworks hkeeps, rfl⟩
  | setBundle own peers layers => exact absurd rfl (hbundle own peers layers)
  | receivedSpectrum tx rx power txLayer rxLayer => exact ⟨tx, Or.inl (stations_asks rfl)⟩
  | channelSummary a b => exact ⟨a, Or.inl (stations_asks rfl)⟩

theorem Combining.keeps (h : s.Combining bundled) (hgrid : s'.grid = s.grid)
    (hs' : Replaces own Station.Keeps s s') : s'.Combining bundled := by
  intro id t' ht'
  rw [hgrid]
  rcases hs' with hsame | ⟨t, t'', ht, hkeeps, hinsert⟩
  · rw [hsame] at ht'
    exact h id t' ht'
  · rw [hinsert, Std.HashMap.getElem?_insert] at ht'
    split at ht'
    · next hid =>
      cases ht'
      obtain rfl : own = id := by simpa using hid
      exact (h own t ht).keeps hkeeps
    · exact h id t' ht'

theorem Combining.addDevice (h : s.Combining bundled) (id : NodeId) (position : Vec3 R)
    (panel : PanelSettings R) (beams : BeamSettings R) :
    ((addDevice id position panel beams).run s).2.Combining bundled := by
  rcases addDevice_cases id position panel beams s with
    ⟨e, hrun⟩ | ⟨p, engine, -, -, hengine, hrun⟩ <;> rw [hrun]
  · exact h
  · intro id' t' ht'
    rw [stations_put] at ht'
    split at ht'
    · cases ht'
      exact .of_none (by rw [BeamEngine.grid_ofSettings hengine]; rfl) rfl
    · exact h id' t' ht'

theorem Combining.setBundle [Scalar.ZeroLaws R] (h : s.Combining bundled) (own : NodeId)
    (peers : List NodeId) (layers : List UInt8) :
    ((ask (.setBundle own peers layers)).run s).2.Combining fun id =>
      (s.bundled? (.setBundle own peers layers) id).or (bundled id) := by
  intro id t' ht'
  rw [grid_ask]
  unfold bundled?
  dsimp only
  rw [ask, Action.run_map] at ht' ⊢
  rcases setBundle_cases own peers layers s with ⟨-, e, hrun⟩ | ⟨t, others, ht, hne, hothers⟩
  · rw [hrun] at ht' ⊢
    rw [if_neg (by rintro ⟨-, -, hok⟩; cases hok)]
    exact h id t' ht'
  rw [run_setBundle ht hne hothers, run_atDesk] at ht' ⊢
  rcases hserve : (Bundle.serve s.now s.loss t.device.endpoint (others.map Station.device) layers).run
    (s.desk t) with ⟨outcome, desk⟩
  rw [hserve, withDesk, stations_put] at ht'
  dsimp only
  by_cases hid : own = id
  · subst hid
    rw [if_pos rfl] at ht'
    cases ht'
    have hserved := (h own t ht).serve hserve
    have htaken : (others.map Station.device ≠ [] ∧ outcome.isOk) ↔ (own = own ∧ peers ≠ [] ∧
        (Except.map (fun _ => Answer.done (R := R)) outcome).isOk) := by
      have hnonempty : others.map Station.device ≠ [] ↔ peers ≠ [] := by
        rw [← List.length_pos_iff, ← List.length_pos_iff, List.length_map, hothers.length_eq]
      rw [hnonempty, eq_self_iff_true, true_and]
      cases outcome <;> rfl
    rw [if_congr htaken rfl rfl] at hserved
    exact hserved
  · rw [if_neg hid] at ht'
    rw [if_neg fun hown => hid hown.1]
    exact h id t' ht'

/-- After a request every device has the combiner of the last bundle that it took up. -/
theorem Combining.ask [Scalar.ZeroLaws R] (h : s.Combining bundled) (request : Request R) :
    ((ask request).run s).2.Combining fun id => (s.bundled? request id).or (bundled id) := by
  by_cases hbundle : ∃ own peers layers, request = .setBundle own peers layers
  · obtain ⟨own, peers, layers, rfl⟩ := hbundle
    exact h.setBundle own peers layers
  push Not at hbundle
  have hnone : ∀ id, s.bundled? request id = none := by
    intro id
    unfold bundled?
    split
    · exact absurd rfl (hbundle _ _ _)
    · rfl
  simp only [hnone, Option.none_or]
  cases hadds : request.adds with
  | false =>
    obtain ⟨own, hkeeps⟩ := replaces_keeps (s := s) hadds hbundle
    exact h.keeps (grid_ask request) hkeeps
  | true =>
    cases request with
    | addDevice id position panel beams =>
      rw [Scene.ask, Action.run_map]
      exact h.addDevice id position panel beams
    | _ => cases hadds

theorem combining_after [Scalar.ZeroLaws R] {settings : SceneSettings R} {start : Scene R}
    (hstart : ofSettings settings = .ok start) (past : List (Request R)) :
    (start.after past).Combining (start.bundled past) := by
  induction past with
  | nil =>
    intro id t ht
    rw [after, stations_ofSettings hstart] at ht
    simp at ht
  | cons request past ih => exact ih.ask request

end Scene

end RadioChannel
