import RadioChannel.Proofs.Actions
import RadioChannel.Scene

/-!
# Scenes that requests lead to

What a request can do to the stations of a scene, said once for all requests. Whatever holds of every
reachable scene is proved from it.
-/

namespace RadioChannel

open Scalar

variable {R : Type} [Scalar R]

namespace Scene

/-! ## Requests -/

/-- What a host asks of a scene. -/
inductive Request (R : Type) where
  | addDevice (id : NodeId) (position : Vec3 R) (panel : PanelSettings R) (beams : BeamSettings R)
  | setMobility (id : NodeId) (position velocity : Vec3 R)
  | setOmni (id : NodeId)
  | setCondition (a b : NodeId) (condition : Condition)
  | advanceTo (t : Nanoseconds)
  | setBeam (own peer : NodeId) (layer : UInt8)
  | setBundle (own : NodeId) (peers : List NodeId) (layers : List UInt8)
  | receivedSpectrum (tx rx : NodeId) (power : R) (txLayer rxLayer : UInt8)
  | channelSummary (a b : NodeId)

/-- What a request is answered with. -/
inductive Answer (R : Type) where
  | done
  | spectrum (s : Spectrum R)
  | summary (c : ChannelSummary R)

/-- One request. -/
def ask : Request R → Action R (Scene R) (Answer R)
  | .addDevice id position panel beams => (fun _ => .done) <$> addDevice id position panel beams
  | .setMobility id position velocity => (fun _ => .done) <$> setMobility id position velocity
  | .setOmni id => (fun _ => .done) <$> setOmni id
  | .setCondition a b condition => (fun _ => .done) <$> setCondition a b condition
  | .advanceTo t => (fun _ => .done) <$> advanceTo t
  | .setBeam own peer layer => (fun _ => .done) <$> setBeam own peer layer
  | .setBundle own peers layers => (fun _ => .done) <$> setBundle own peers layers
  | .receivedSpectrum tx rx power txLayer rxLayer =>
    .spectrum <$> receivedSpectrum tx rx power txLayer rxLayer
  | .channelSummary a b => .summary <$> channelSummary a b

/-- The scenes of a host whose requests may fail, but break no rule. -/
inductive Reachable : Scene R → Prop
  | start {settings : SceneSettings R} {s : Scene R} (h : ofSettings settings = .ok s) : Reachable s
  | ask {s : Scene R} (h : Reachable s) (request : Request R)
    (hrules : ∀ rule, ((ask request).run s).1 ≠ .error (.breach rule)) :
    Reachable ((ask request).run s).2

/-! ## Steps -/

omit [Scalar R] in
theorem station_ok {s : Scene R} {id : NodeId} {t : Station R} :
    s.station id = .ok t ↔ s.stations[id]? = some t := by
  unfold station
  cases s.stations[id]? <;> simp

omit [Scalar R] in
theorem mapM_station_ok {s : Scene R} {ids : List NodeId} {ts : List (Station R)} :
    ids.mapM s.station = .ok ts ↔ List.Forall₂ (fun id t => s.stations[id]? = some t) ids ts := by
  rw [except_mapM_ok]
  simp only [station_ok]

omit [Scalar R] in
theorem stations_put (s : Scene R) (id id' : NodeId) (t : Station R) :
    (s.put id t).stations[id']? = if id = id' then some t else s.stations[id']? := by
  rw [put, Std.HashMap.getElem?_insert]
  simp only [beq_iff_eq]

/-- What the beam selection of a device starts from. -/
def desk (s : Scene R) (t : Station R) : BeamDesk R := ⟨t.engine, t.device.array, s.evaluator⟩

/-- The scene after the beam selection of a device. -/
def withDesk (s : Scene R) (own : NodeId) (t : Station R) (desk : BeamDesk R) : Scene R :=
  { s.put own ⟨{ t.device with array := desk.array }, desk.engine⟩ with evaluator := desk.evaluator }

omit [Scalar R] in
theorem run_atDesk (own : NodeId) (t : Station R) (x : Action R (BeamDesk R) Unit) (s : Scene R) :
    (atDesk own t x).run s =
      ((x.run (s.desk t)).1, s.withDesk own t (x.run (s.desk t)).2) := rfl

variable {s : Scene R}

omit [Scalar R] in
theorem run_alter (id : NodeId) (f : Station R → Station R) : (alter id f).run s =
    match s.stations[id]? with
    | some t => (.ok (), s.put id (f t))
    | none => (.error (.unknownDevice id), s) := by
  unfold alter
  rw [Action.run_bind_of_ok (Action.run_get s), Action.run_bind, Action.run_liftExcept]
  unfold station
  cases s.stations[id]? <;> rfl

/-- Whether a bundle is refused for the devices that it names. -/
def Unservable (s : Scene R) (own : NodeId) (peers : List NodeId) : Prop :=
  own ∈ peers ∨ s.stations[own]? = none ∨ ∃ peer ∈ peers, s.stations[peer]? = none

omit [Scalar R] in
theorem station_error {id : NodeId} {e : Fault R} (h : s.station id = .error e) :
    s.stations[id]? = none := by
  unfold station at h
  split at h
  · cases h
  · assumption

/-- A bundle is work at its device's desk, if the devices that it names are there. -/
theorem run_setBundle {own : NodeId} {peers : List NodeId} {t : Station R}
    {others : List (Station R)} (ht : s.stations[own]? = some t) (hne : own ∉ peers)
    (hothers : List.Forall₂ (fun id other => s.stations[id]? = some other) peers others)
    (layers : List UInt8) : (setBundle own peers layers).run s =
      (atDesk own t (Bundle.serve s.now s.loss t.device.endpoint (others.map Station.device)
        layers)).run s := by
  unfold setBundle
  rw [Action.run_ite, if_neg (by simpa using hne), Action.run_bind_of_ok (Action.run_get s),
    Action.run_bind, Action.run_liftExcept, station_ok.mpr ht]
  dsimp only
  rw [Action.run_bind, Action.run_liftExcept, mapM_station_ok.mpr hothers]

theorem setBundle_cases (own : NodeId) (peers : List NodeId) (layers : List UInt8) (s : Scene R) :
    (s.Unservable own peers ∧ ∃ e, (setBundle own peers layers).run s = (.error e, s)) ∨
    (∃ t others, s.stations[own]? = some t ∧ own ∉ peers ∧
      List.Forall₂ (fun id other => s.stations[id]? = some other) peers others) := by
  by_cases hown : own ∈ peers
  · refine Or.inl ⟨Or.inl hown, .coincident own own, ?_⟩
    rw [setBundle, Action.run_ite, if_pos (by simpa using hown), Action.run_fail]
  cases ht : s.station own with
  | error e =>
    refine Or.inl ⟨Or.inr (Or.inl (station_error ht)), e, ?_⟩
    rw [setBundle, Action.run_ite, if_neg (by simpa using hown),
      Action.run_bind_of_ok (Action.run_get s), Action.run_bind, Action.run_liftExcept, ht]
  | ok t =>
    cases hothers : peers.mapM s.station with
    | error e =>
      obtain ⟨peer, hpeer, hnone⟩ := except_mapM_error hothers
      refine Or.inl ⟨Or.inr (Or.inr ⟨peer, hpeer, station_error hnone⟩), e, ?_⟩
      rw [setBundle, Action.run_ite, if_neg (by simpa using hown),
        Action.run_bind_of_ok (Action.run_get s), Action.run_bind, Action.run_liftExcept, ht]
      dsimp only
      rw [Action.run_bind, Action.run_liftExcept, hothers]
    | ok others => exact Or.inr ⟨t, others, station_ok.mp ht, hown, mapM_station_ok.mp hothers⟩

omit [Scalar R] in
/-- A bundle can be served where its device and all its peers are known and apart. -/
theorem not_unservable {own : NodeId} {peers : List NodeId} {t : Station R}
    {others : List (Station R)} (ht : s.stations[own]? = some t) (hne : own ∉ peers)
    (hothers : List.Forall₂ (fun id other => s.stations[id]? = some other) peers others) :
    ¬s.Unservable own peers := by
  rintro (hown | hnone | ⟨peer, hpeer, hnone⟩)
  · exact hne hown
  · rw [ht] at hnone
    cases hnone
  · obtain ⟨i, hi⟩ := List.getElem?_of_mem hpeer
    obtain ⟨other, -, hsome⟩ := exists_of_forall₂ hothers hi
    rw [hnone] at hsome
    cases hsome

/-- Pointing a layer is work at its device's desk, if both devices are there. -/
theorem run_setBeam {own peer : NodeId} {t other : Station R} (ht : s.stations[own]? = some t)
    (hne : own ≠ peer) (hother : s.stations[peer]? = some other) (layer : UInt8) :
    (setBeam own peer layer).run s =
      (atDesk own t (BeamDesk.point s.now t.device.endpoint other.device layer)).run s := by
  unfold setBeam
  rw [Action.run_ite, if_neg hne, Action.run_bind_of_ok (Action.run_get s), Action.run_bind,
    Action.run_liftExcept, station_ok.mpr ht]
  dsimp only
  rw [Action.run_bind, Action.run_liftExcept, station_ok.mpr hother]

theorem setBeam_cases (own peer : NodeId) (layer : UInt8) (s : Scene R) :
    (∃ e, (setBeam own peer layer).run s = (.error e, s)) ∨
    (∃ t other, s.stations[own]? = some t ∧ own ≠ peer ∧ s.stations[peer]? = some other ∧
      (setBeam own peer layer).run s =
        (atDesk own t (BeamDesk.point s.now t.device.endpoint other.device layer)).run s) := by
  by_cases hown : own = peer
  · left
    exact ⟨.coincident own peer, by rw [setBeam, Action.run_ite, if_pos hown, Action.run_fail]⟩
  cases ht : s.station own with
  | error e =>
    left
    refine ⟨e, ?_⟩
    rw [setBeam, Action.run_ite, if_neg hown, Action.run_bind_of_ok (Action.run_get s),
      Action.run_bind, Action.run_liftExcept, ht]
  | ok t =>
    cases hother : s.station peer with
    | error e =>
      left
      refine ⟨e, ?_⟩
      rw [setBeam, Action.run_ite, if_neg hown, Action.run_bind_of_ok (Action.run_get s),
        Action.run_bind, Action.run_liftExcept, ht]
      dsimp only
      rw [Action.run_bind, Action.run_liftExcept, hother]
    | ok other =>
      right
      exact ⟨t, other, station_ok.mp ht, hown, station_ok.mp hother,
        run_setBeam (station_ok.mp ht) hown (station_ok.mp hother) layer⟩

/-! ## Steps between two devices -/

section Between

variable {α : Type} {a b : NodeId} {ta tb : Station R}
variable (f : Scene R → Station R → Station R → Action R (Scene R) α)

/-- A step that needs the stations of two devices. -/
def between (a b : NodeId) : Action R (Scene R) α := do
  let s ← Action.get
  let ta ← s.station a
  let tb ← s.station b
  f s ta tb

omit [Scalar R] in
theorem run_between (ha : s.stations[a]? = some ta) (hb : s.stations[b]? = some tb) :
    (between f a b).run s = (f s ta tb).run s := by
  unfold between
  rw [Action.run_bind_of_ok (Action.run_get s), Action.run_bind, Action.run_liftExcept,
    station_ok.mpr ha]
  dsimp only
  rw [Action.run_bind, Action.run_liftExcept, station_ok.mpr hb]

omit [Scalar R] in
/-- It fails without a change, or goes on with the stations of both. -/
theorem between_cases (a b : NodeId) (s : Scene R) :
    (∃ e, (between f a b).run s = (.error e, s)) ∨
    (∃ ta tb, s.stations[a]? = some ta ∧ s.stations[b]? = some tb ∧
      (between f a b).run s = (f s ta tb).run s) := by
  cases ha : s.station a with
  | error e =>
    refine Or.inl ⟨e, ?_⟩
    unfold between
    rw [Action.run_bind_of_ok (Action.run_get s), Action.run_bind, Action.run_liftExcept, ha]
  | ok ta =>
    cases hb : s.station b with
    | error e =>
      refine Or.inl ⟨e, ?_⟩
      unfold between
      rw [Action.run_bind_of_ok (Action.run_get s), Action.run_bind, Action.run_liftExcept, ha]
      dsimp only
      rw [Action.run_bind, Action.run_liftExcept, hb]
    | ok tb =>
      exact Or.inr ⟨ta, tb, station_ok.mp ha, station_ok.mp hb,
        run_between f (station_ok.mp ha) (station_ok.mp hb)⟩

omit [Scalar R] in
theorem run_setCondition (ha : s.stations[a]? = some ta) (hb : s.stations[b]? = some tb)
    (c : Condition) : (setCondition a b c).run s = (.ok (), { s with
      conditions := s.conditions.set ta.device.id tb.device.id c
      evaluator := { s.evaluator with
        model := .table (s.conditions.set ta.device.id tb.device.id c) } }) :=
  run_between _ ha hb

omit [Scalar R] in
theorem setCondition_cases (a b : NodeId) (c : Condition) (s : Scene R) :
    (∃ e, (setCondition a b c).run s = (.error e, s)) ∨
    (∃ ta tb, s.stations[a]? = some ta ∧ s.stations[b]? = some tb ∧
      (setCondition a b c).run s = (.ok (), { s with
        conditions := s.conditions.set ta.device.id tb.device.id c
        evaluator := { s.evaluator with
          model := .table (s.conditions.set ta.device.id tb.device.id c) } })) :=
  between_cases _ a b s

theorem receivedSpectrum_cases (tx rx : NodeId) (power : R) (txLayer rxLayer : UInt8) (s : Scene R) :
    (∃ e, (receivedSpectrum tx rx power txLayer rxLayer).run s = (.error e, s)) ∨
    (∃ a b, s.stations[tx]? = some a ∧ s.stations[rx]? = some b ∧
      (receivedSpectrum tx rx power txLayer rxLayer).run s =
        (evaluate (Evaluator.receivedSpectrum s.now (.constant s.grid power) a.device b.device
          txLayer rxLayer)).run s) :=
  between_cases _ tx rx s

theorem run_channelSummary (ha : s.stations[a]? = some ta) (hb : s.stations[b]? = some tb) :
    (channelSummary a b).run s =
      let outcome := (Evaluator.channel s.now ta.device tb.device).run s.evaluator
      (outcome.1.map .ofLink, { s with evaluator := outcome.2 }) :=
  (run_between _ ha hb).trans (Action.run_map _ _ s)

theorem channelSummary_cases (a b : NodeId) (s : Scene R) :
    (∃ e, (channelSummary a b).run s = (.error e, s)) ∨
    (∃ ta tb, s.stations[a]? = some ta ∧ s.stations[b]? = some tb ∧
      (channelSummary a b).run s =
        let outcome := (Evaluator.channel s.now ta.device tb.device).run s.evaluator
        (outcome.1.map .ofLink, { s with evaluator := outcome.2 })) := by
  rcases between_cases (fun s ta tb =>
    ChannelSummary.ofLink <$> evaluate (Evaluator.channel s.now ta.device tb.device)) a b s with
    hfail | ⟨ta, tb, ha, hb, -⟩
  · exact Or.inl hfail
  · exact Or.inr ⟨ta, tb, ha, hb, run_channelSummary ha hb⟩

end Between

/-! ## Stations -/

/-- How a request changes the station under a number. -/
inductive Change (s : Scene R) : NodeId → Station R → Prop
  | added {id : NodeId} {position : Vec3 R} {settings : PanelSettings R} {beams : BeamSettings R}
    {panel : Panel R} {engine : BeamEngine R} (hnew : s.stations[id]? = none)
    (hpanel : Panel.ofSettings settings = .ok panel)
    (hengine : BeamEngine.ofSettings beams s.grid = .ok engine) :
    Change s id ⟨⟨⟨id, position, .zero⟩, .ofPanel panel⟩, engine⟩
  | moved {id : NodeId} {t : Station R} (ht : s.stations[id]? = some t) (position velocity : Vec3 R) :
    Change s id { t with device.endpoint := ⟨t.device.endpoint.id, position, velocity⟩ }
  | silenced {id : NodeId} {t : Station R} (ht : s.stations[id]? = some t) :
    Change s id { t with device.array := t.device.array.setOmni }
  | pointed {own peer : NodeId} {t other : Station R} (ht : s.stations[own]? = some t)
    (hother : s.stations[peer]? = some other) (hne : own ≠ peer) (layer : UInt8)
    {outcome : Except (Fault R) Unit} {desk : BeamDesk R}
    (hrun : (BeamDesk.point s.now t.device.endpoint other.device layer).run (s.desk t) =
      (outcome, desk)) : Change s own ⟨{ t.device with array := desk.array }, desk.engine⟩
  | bundled {own : NodeId} {peers : List NodeId} {t : Station R} {others : List (Station R)}
    (ht : s.stations[own]? = some t)
    (hothers : List.Forall₂ (fun id other => s.stations[id]? = some other) peers others)
    (hne : own ∉ peers) (layers : List UInt8) {outcome : Except (Fault R) Unit} {desk : BeamDesk R}
    (hrun : (Bundle.serve s.now s.loss t.device.endpoint (others.map Station.device) layers).run
      (s.desk t) = (outcome, desk)) : Change s own ⟨{ t.device with array := desk.array }, desk.engine⟩

/-- What a request makes of the stations: all stay as they are, or one is changed. -/
def Changes (s s' : Scene R) : Prop :=
  s'.stations = s.stations ∨ ∃ id t, s.Change id t ∧ s'.stations = s.stations.insert id t

theorem changes_alter {id : NodeId} {f : Station R → Station R}
    (hf : ∀ t, s.stations[id]? = some t → s.Change id (f t)) :
    s.Changes ((alter id f).run s).2 := by
  rw [run_alter]
  cases ht : s.stations[id]? with
  | none => exact Or.inl rfl
  | some t => exact Or.inr ⟨id, f t, hf t ht, rfl⟩

theorem run_addDevice {id : NodeId} {settings : PanelSettings R} {beams : BeamSettings R}
    {panel : Panel R} {engine : BeamEngine R} (hnew : s.stations[id]? = none)
    (hpanel : Panel.ofSettings settings = .ok panel)
    (hengine : BeamEngine.ofSettings beams s.grid = .ok engine) (position : Vec3 R) :
    (addDevice id position settings beams).run s =
      (.ok (), s.put id ⟨⟨⟨id, position, .zero⟩, .ofPanel panel⟩, engine⟩) := by
  have hfree : s.stations.contains id = false := by
    rw [Std.HashMap.contains_eq_isSome_getElem?, hnew]
    rfl
  unfold addDevice
  rw [Action.run_bind_of_ok (Action.run_get s), Action.run_ite, if_neg (by simp [hfree]),
    Action.run_bind, Action.run_liftExcept, hpanel]
  dsimp only
  rw [Action.run_bind, Action.run_liftExcept, hengine]
  rfl

/-- A device is refused without a change, or it is put under a number that was free. -/
theorem addDevice_cases (id : NodeId) (position : Vec3 R) (settings : PanelSettings R)
    (beams : BeamSettings R) (s : Scene R) :
    (∃ e, (addDevice id position settings beams).run s = (.error e, s)) ∨
    (∃ panel engine, s.stations[id]? = none ∧ Panel.ofSettings settings = .ok panel ∧
      BeamEngine.ofSettings beams s.grid = .ok engine ∧
      (addDevice id position settings beams).run s =
        (.ok (), s.put id ⟨⟨⟨id, position, .zero⟩, .ofPanel panel⟩, engine⟩)) := by
  by_cases htaken : s.stations.contains id = true
  · left
    refine ⟨.duplicateDevice id, ?_⟩
    rw [addDevice, Action.run_bind_of_ok (Action.run_get s), Action.run_ite, if_pos htaken,
      Action.run_fail]
  cases hpanel : Panel.ofSettings settings with
  | error e =>
    left
    refine ⟨e, ?_⟩
    rw [addDevice, Action.run_bind_of_ok (Action.run_get s), Action.run_ite, if_neg htaken,
      Action.run_bind, Action.run_liftExcept, hpanel]
  | ok panel =>
    cases hengine : BeamEngine.ofSettings beams s.grid with
    | error e =>
      left
      refine ⟨e, ?_⟩
      rw [addDevice, Action.run_bind_of_ok (Action.run_get s), Action.run_ite, if_neg htaken,
        Action.run_bind, Action.run_liftExcept, hpanel]
      dsimp only
      rw [Action.run_bind, Action.run_liftExcept, hengine]
    | ok engine =>
      right
      have hnew : s.stations[id]? = none := by
        refine Std.HashMap.getElem?_eq_none ?_
        rwa [Std.HashMap.contains_iff_mem] at htaken
      exact ⟨panel, engine, hnew, rfl, rfl, run_addDevice hnew hpanel hengine position⟩

theorem changes_addDevice (id : NodeId) (position : Vec3 R) (panel : PanelSettings R)
    (beams : BeamSettings R) : s.Changes ((addDevice id position panel beams).run s).2 := by
  rcases addDevice_cases id position panel beams s with ⟨e, hrun⟩ | ⟨p, engine, hnew, hpanel, hengine, hrun⟩
  · rw [hrun]
    exact Or.inl rfl
  · rw [hrun]
    exact Or.inr ⟨id, _, .added hnew hpanel hengine, rfl⟩

theorem changes_setCondition (a b : NodeId) (condition : Condition) :
    s.Changes ((setCondition a b condition).run s).2 := by
  left
  rcases setCondition_cases a b condition s with ⟨e, hrun⟩ | ⟨ta, tb, -, -, hrun⟩ <;> rw [hrun]

theorem changes_setBeam (own peer : NodeId) (layer : UInt8) :
    s.Changes ((setBeam own peer layer).run s).2 := by
  rcases setBeam_cases own peer layer s with ⟨e, hrun⟩ | ⟨t, other, ht, hne, hother, hrun⟩
  · rw [hrun]
    exact Or.inl rfl
  · rw [hrun, run_atDesk]
    exact Or.inr ⟨own, _, .pointed ht hother hne layer rfl, rfl⟩

theorem changes_setBundle (own : NodeId) (peers : List NodeId) (layers : List UInt8) :
    s.Changes ((setBundle own peers layers).run s).2 := by
  rcases setBundle_cases own peers layers s with ⟨-, e, hrun⟩ | ⟨t, others, ht, hne, hothers⟩
  · rw [hrun]
    exact Or.inl rfl
  · rw [run_setBundle ht hne hothers, run_atDesk]
    exact Or.inr ⟨own, _, .bundled ht hothers hne layers rfl, rfl⟩

omit [Scalar R] in
theorem stations_evaluate {α : Type} (x : Action R (Evaluator R) α) :
    ((evaluate x).run s).2.stations = s.stations := rfl

/-- Questions leave the stations as they are. -/
theorem changes_receivedSpectrum (tx rx : NodeId) (power : R) (txLayer rxLayer : UInt8) :
    s.Changes ((receivedSpectrum tx rx power txLayer rxLayer).run s).2 := by
  left
  rcases receivedSpectrum_cases tx rx power txLayer rxLayer s with ⟨e, hrun⟩ | ⟨a, b, -, -, hrun⟩ <;>
    rw [hrun]
  exact stations_evaluate _

theorem changes_channelSummary (a b : NodeId) : s.Changes ((channelSummary a b).run s).2 := by
  left
  rcases channelSummary_cases a b s with ⟨e, hrun⟩ | ⟨ta, tb, -, -, hrun⟩ <;> rw [hrun]

theorem changes_ask (request : Request R) : s.Changes ((ask request).run s).2 := by
  cases request with
  | addDevice id position panel beams =>
    rw [ask, Action.run_map]
    exact changes_addDevice id position panel beams
  | setMobility id position velocity =>
    rw [ask, Action.run_map]
    exact changes_alter fun t ht => .moved ht position velocity
  | setOmni id =>
    rw [ask, Action.run_map]
    exact changes_alter fun t ht => .silenced ht
  | setCondition a b condition =>
    rw [ask, Action.run_map]
    exact changes_setCondition a b condition
  | advanceTo t => exact Or.inl rfl
  | setBeam own peer layer =>
    rw [ask, Action.run_map]
    exact changes_setBeam own peer layer
  | setBundle own peers layers =>
    rw [ask, Action.run_map]
    exact changes_setBundle own peers layers
  | receivedSpectrum tx rx power txLayer rxLayer =>
    rw [ask, Action.run_map]
    exact changes_receivedSpectrum tx rx power txLayer rxLayer
  | channelSummary a b =>
    rw [ask, Action.run_map]
    exact changes_channelSummary a b

theorem stations_ofSettings {settings : SceneSettings R} (h : ofSettings settings = .ok s) :
    s.stations = ∅ := by
  obtain ⟨generator, -, h⟩ := except_bind_ok.mp h
  obtain ⟨grid, -, h⟩ := except_bind_ok.mp h
  obtain rfl := Except.ok.inj h
  rfl

/-- Devices are kept under their own numbers. -/
def Numbered (s : Scene R) : Prop :=
  ∀ (id : NodeId) (t : Station R), s.stations[id]? = some t → t.device.id = id

omit [Scalar R] in
theorem Numbered.of_empty (h : s.stations = ∅) : s.Numbered := by
  intro id t ht
  rw [h] at ht
  simp at ht

theorem Change.id_eq {id : NodeId} {t : Station R} (h : s.Change id t) (hs : s.Numbered) :
    t.device.id = id := by
  cases h with
  | added => rfl
  | moved ht =>
    have hid := hs _ _ ht
    exact hid
  | silenced ht =>
    have hid := hs _ _ ht
    exact hid
  | pointed ht =>
    have hid := hs _ _ ht
    exact hid
  | bundled ht =>
    have hid := hs _ _ ht
    exact hid

/-- A request leaves devices their numbers, even if it breaks a rule. -/
theorem Numbered.ask (hs : s.Numbered) (request : Request R) :
    ((Scene.ask request).run s).2.Numbered := by
  intro id t ht
  rcases changes_ask (s := s) request with hsame | ⟨id', t', hchange, hinsert⟩
  · rw [hsame] at ht
    exact hs id t ht
  · rw [hinsert, Std.HashMap.getElem?_insert] at ht
    split at ht
    · next heq =>
      cases ht
      exact (hchange.id_eq hs).trans (by simpa using heq)
    · exact hs id t ht

theorem run_ask_addDevice {id : NodeId} {settings : PanelSettings R} {beams : BeamSettings R}
    {panel : Panel R} {engine : BeamEngine R} (hnew : s.stations[id]? = none)
    (hpanel : Panel.ofSettings settings = .ok panel)
    (hengine : BeamEngine.ofSettings beams s.grid = .ok engine) (position : Vec3 R) :
    (Scene.ask (.addDevice id position settings beams)).run s =
      (.ok .done, s.put id ⟨⟨⟨id, position, .zero⟩, .ofPanel panel⟩, engine⟩) := by
  rw [Scene.ask, Action.run_map, run_addDevice hnew hpanel hengine position]
  rfl

theorem Reachable.addDevice (hs : s.Reachable) {id : NodeId} {settings : PanelSettings R}
    {beams : BeamSettings R} {panel : Panel R} {engine : BeamEngine R}
    (hnew : s.stations[id]? = none) (hpanel : Panel.ofSettings settings = .ok panel)
    (hengine : BeamEngine.ofSettings beams s.grid = .ok engine) (position : Vec3 R) :
    (s.put id ⟨⟨⟨id, position, .zero⟩, .ofPanel panel⟩, engine⟩).Reachable := by
  have hrun := run_ask_addDevice hnew hpanel hengine position
  have hasked := hs.ask (.addDevice id position settings beams) fun rule => by simp [hrun]
  rwa [hrun] at hasked

theorem Reachable.numbered (hs : s.Reachable) : s.Numbered := by
  induction hs with
  | start h => exact .of_empty (stations_ofSettings h)
  | ask _ request _ ih => exact ih.ask request

theorem Reachable.id_eq (hs : s.Reachable) {id : NodeId} {t : Station R}
    (ht : s.stations[id]? = some t) : t.device.id = id := hs.numbered id t ht

end Scene

end RadioChannel
