import RadioChannel.Proofs.Failures
import RadioChannel.Proofs.Frames
import RadioChannel.Proofs.MatchedDesks
import RadioChannel.Proofs.Overrides
import RadioChannel.Proofs.Stations

/-!
# Misfits do not occur in scenes

A scene whose devices all have elements keeps its data matched: what the shared evaluator holds for two
devices is for their arrays, and what a device's engine and antenna hold is for its own panel and comes
from its own strategy. So no request that a host can make ends with a misfit.
-/

namespace RadioChannel

open Scalar

variable {R : Type} [Scalar R]

/-! ## Settings -/

theorem fitting_periodOfMilliseconds (ms : R) :
    Fitting (fun _ => True) (periodOfMilliseconds ms) := by
  unfold periodOfMilliseconds
  split
  · exact trivial
  · exact rfl

theorem Panel.fitting_ofSettings (settings : PanelSettings R) :
    Fitting (fun _ => True) (Panel.ofSettings settings) := by
  refine Fitting.bind (p := fun _ => True) ?_ fun _ _ => trivial
  unfold Orientation.ofName
  split
  · exact trivial
  · exact trivial
  · exact trivial
  · exact trivial
  · exact rfl

theorem BeamEngine.fitting_ofSettings (settings : BeamSettings R) (grid : SpectrumGrid R) :
    Fitting (fun _ => True) (BeamEngine.ofSettings settings grid) := by
  refine Fitting.bind (p := fun _ => True) ?_ fun _ _ => ?_
  · unfold Strategy.ofName
    split
    · exact trivial
    · exact trivial
    · exact trivial
    · exact trivial
    · exact trivial
    · exact rfl
  · exact (fitting_periodOfMilliseconds _).bind fun _ _ => trivial

/-! ## Matched scenes -/

/-- A station whose engine and antenna hold beams for its panel. -/
structure Station.Fit (t : Station R) : Prop where
  sides : t.device.array.panel.size.HasSides
  array : t.device.array.Fit
  engine : t.engine.Fit t.device.array.elementCount

theorem Station.Fit.of_new {id : NodeId} {position : Vec3 R} {settings : PanelSettings R}
    {beams : BeamSettings R} {grid : SpectrumGrid R} {panel : Panel R} {engine : BeamEngine R}
    (hpanel : Panel.ofSettings settings = .ok panel)
    (hengine : BeamEngine.ofSettings beams grid = .ok engine) :
    Station.Fit ⟨⟨⟨id, position, .zero⟩, .ofPanel panel⟩, engine⟩ where
  sides := Panel.hasSides_of_settings hpanel
  array := by
    intro layer b hb
    simp [AntennaArray.ofPanel] at hb
  engine := by
    intro key b hb
    rw [BeamEngine.cache_ofSettings hengine] at hb
    simp at hb

namespace Scene

/-- How many elements the device with a number has. -/
def elements? (s : Scene R) (id : NodeId) : Option Nat :=
  s.stations[id]?.map fun t => t.device.array.elementCount

/-- All devices have at least one column and one row. -/
def Equipped (s : Scene R) : Prop :=
  ∀ (id : NodeId) (t : Station R), s.stations[id]? = some t →
    1 ≤ t.device.array.panel.size.columns ∧ 1 ≤ t.device.array.panel.size.rows

/-- A scene whose data matches. -/
structure Matched (s : Scene R) : Prop where
  numbered : s.Numbered
  station : ∀ (id : NodeId) (t : Station R), s.stations[id]? = some t → t.Fit
  evaluator : s.evaluator.Matched s.elements?

variable {s s' : Scene R} {id : NodeId} {t t' : Station R}

theorem Matched.known (hs : s.Matched) (hequipped : s.Equipped) (ht : s.stations[id]? = some t) :
    t.device.Known s.elements? := by
  obtain ⟨hcolumns, hrows⟩ := hequipped id t ht
  refine ⟨⟨?_, Nat.mul_pos hcolumns hrows⟩, (hs.station id t ht).sides⟩
  have hid : t.device.terminal.endpoint.id = id := hs.numbered id t ht
  rw [hid, elements?, ht]
  rfl

theorem Matched.fit_desk (hs : s.Matched) (ht : s.stations[id]? = some t) :
    (s.desk t).Fit s.elements? t.device.array.panel t.engine.strategy :=
  ⟨(hs.station id t ht).array, (hs.station id t ht).engine, hs.evaluator, rfl, rfl⟩

theorem elements?_insert (hs' : s'.stations = s.stations.insert id t') (other : NodeId) :
    s'.elements? other =
      if id = other then some t'.device.array.elementCount else s.elements? other := by
  rw [elements?, hs', Std.HashMap.getElem?_insert]
  by_cases hid : id = other
  · simp [hid]
  · simp [hid, elements?]

/-- A station is replaced by one of the same device, on the same panel. -/
theorem Matched.replace (hs : s.Matched) (ht : s.stations[id]? = some t)
    (hs' : s'.stations = s.stations.insert id t') (hid : t'.device.id = t.device.id)
    (hpanel : t'.device.array.panel = t.device.array.panel) (hfit : t'.Fit)
    (hevaluator : s'.evaluator.Matched s.elements?) : s'.Matched := by
  have hcount : t'.device.array.elementCount = t.device.array.elementCount := by
    rw [AntennaArray.elementCount, hpanel, AntennaArray.elementCount]
  have helements : s'.elements? = s.elements? := by
    funext other
    rw [elements?_insert hs']
    split
    · next hother =>
      rw [← hother, elements?, ht, hcount]
      rfl
    · rfl
  refine ⟨fun other u hu => ?_, fun other u hu => ?_, helements ▸ hevaluator⟩
  all_goals
    rw [hs', Std.HashMap.getElem?_insert] at hu
    split at hu
  · next hother =>
    cases hu
    rw [hid, hs.numbered id t ht]
    simpa using hother
  · exact hs.numbered other u hu
  · cases hu
    exact hfit
  · exact hs.station other u hu

theorem Matched.evaluated (hs : s.Matched) (hstations : s'.stations = s.stations)
    (hevaluator : s'.evaluator.Matched s.elements?) : s'.Matched := by
  refine ⟨fun other u hu => ?_, fun other u hu => ?_, ?_⟩
  · rw [hstations] at hu
    exact hs.numbered other u hu
  · rw [hstations] at hu
    exact hs.station other u hu
  · have helements : s'.elements? = s.elements? := by
      funext other
      rw [elements?, elements?, hstations]
    exact helements ▸ hevaluator

/-! ## Requests -/

/-- From a scene a step ends in a matched one, and not with a misfit. -/
def Settling {α : Type} (s : Scene R) (x : Action R (Scene R) α) : Prop :=
  Fitting (fun _ => True) (x.run s).1 ∧ (x.run s).2.Matched

section Steps

variable {α β : Type} {x : Action R (Scene R) α}

theorem Settling.map (h : s.Settling x) (f : α → β) : s.Settling (f <$> x) := by
  unfold Settling
  rw [Action.run_map]
  exact ⟨h.1.map fun _ _ => trivial, h.2⟩

theorem settling_get_bind {f : Scene R → Action R (Scene R) α} (h : s.Settling (f s)) :
    s.Settling (Action.get >>= f) := h

theorem Matched.fail (hs : s.Matched) {e : Fault R} (he : e.isMisfit = false) :
    s.Settling (Action.fail e : Action R (Scene R) α) := ⟨he, hs⟩

theorem Matched.lift_bind (hs : s.Matched) {r : Except (Fault R) β} {p : β → Prop}
    {f : β → Action R (Scene R) α} (hr : Fitting p r) (hf : ∀ b, p b → s.Settling (f b)) :
    s.Settling ((liftM r : Action R (Scene R) β) >>= f) := by
  cases r with
  | error e => exact ⟨hr, hs⟩
  | ok b => exact hf b hr

omit [Scalar R] in
theorem fitting_station (s : Scene R) (id : NodeId) :
    Fitting (fun t => s.stations[id]? = some t) (s.station id) := by
  cases h : s.station id with
  | ok t => exact station_ok.mp h
  | error e =>
    unfold Scene.station at h
    split at h
    · cases h
    · cases h
      exact rfl

theorem Matched.evaluate (hs : s.Matched) {y : Action R (Evaluator R) α}
    (hy : Action.Upholds (Evaluator.Matched s.elements?) (fun _ => True) y) :
    s.Settling (Scene.evaluate y) := by
  obtain ⟨houtcome, hevaluator⟩ := hy s.evaluator hs.evaluator
  exact ⟨houtcome, hs.evaluated rfl hevaluator⟩

end Steps

theorem Matched.addDevice (hs : s.Matched) (id : NodeId) (position : Vec3 R)
    (panel : PanelSettings R) (beams : BeamSettings R) :
    s.Settling (addDevice id position panel beams) := by
  unfold Scene.addDevice
  refine settling_get_bind ?_
  split
  · exact hs.fail rfl
  next hfree =>
  have hnew : s.stations[id]? = none := by
    refine Std.HashMap.getElem?_eq_none ?_
    rwa [Std.HashMap.contains_iff_mem] at hfree
  refine hs.lift_bind (Panel.fitting_ofSettings panel).self fun p hp => ?_
  refine hs.lift_bind (BeamEngine.fitting_ofSettings beams s.grid).self fun engine he => ?_
  refine ⟨trivial, fun other u hu => ?_, fun other u hu => ?_, ?_⟩
  · rw [Action.run_modify, stations_put] at hu
    split at hu
    · next hother =>
      cases hu
      exact hother
    · exact hs.numbered other u hu
  · rw [Action.run_modify, stations_put] at hu
    split at hu
    · cases hu
      exact .of_new hp he
    · exact hs.station other u hu
  · -- no realization is held for a device that was not there
    refine hs.evaluator.mono fun other n hn => ?_
    rw [elements?_insert rfl, if_neg, hn]
    rintro rfl
    rw [elements?, hnew] at hn
    cases hn

theorem Matched.alter (hs : s.Matched) (id : NodeId) {f : Station R → Station R}
    (hid : ∀ t, (f t).device.id = t.device.id)
    (hpanel : ∀ t, (f t).device.array.panel = t.device.array.panel)
    (hfit : ∀ t : Station R, t.Fit → (f t).Fit) : s.Settling (alter id f) := by
  unfold Scene.alter
  refine settling_get_bind (hs.lift_bind (fitting_station s id) fun t ht => ⟨trivial, ?_⟩)
  exact hs.replace ht rfl (hid t) (hpanel t) (hfit t (hs.station id t ht)) hs.evaluator

theorem Matched.setCondition (hs : s.Matched) (a b : NodeId) (c : Condition) :
    s.Settling (setCondition a b c) := by
  unfold Scene.setCondition
  refine settling_get_bind (hs.lift_bind (fitting_station s a) fun ta ha => ?_)
  refine hs.lift_bind (fitting_station s b) fun tb hb => ⟨trivial, ?_⟩
  exact hs.evaluated rfl hs.evaluator

/-- Work at a desk for devices that are there keeps the scene matched. -/
theorem Matched.atDesk (hs : s.Matched) (ht : s.stations[id]? = some t)
    {x : Action R (BeamDesk R) Unit}
    (hx : Action.Upholds (BeamDesk.Fit s.elements? t.device.array.panel t.engine.strategy)
      (fun _ => True) x) : s.Settling (atDesk id t x) := by
  obtain ⟨houtcome, hdesk⟩ := hx (s.desk t) (hs.fit_desk ht)
  unfold Settling
  rw [run_atDesk]
  refine ⟨houtcome, hs.replace ht rfl rfl hdesk.panel ?_ hdesk.evaluator⟩
  refine ⟨?_, hdesk.array, ?_⟩
  · exact hdesk.panel ▸ (hs.station id t ht).sides
  · have hengine := hdesk.engine
    rw [← hdesk.panel] at hengine
    exact hengine

section Served

variable (hs : s.Matched) (hequipped : s.Equipped)

include hs hequipped

theorem Matched.setBeam (own peer : NodeId) (layer : UInt8) :
    s.Settling (setBeam own peer layer) := by
  unfold Scene.setBeam
  split
  · exact hs.fail rfl
  refine settling_get_bind (hs.lift_bind (fitting_station s own) fun t ht => ?_)
  refine hs.lift_bind (fitting_station s peer) fun other hother => hs.atDesk ht ?_
  have hown := hs.known hequipped ht
  exact BeamDesk.upholds_point hown.placed hown.sides (hs.known hequipped hother) layer

theorem Matched.setBundle (own : NodeId) (peers : List NodeId) (layers : List UInt8) :
    s.Settling (setBundle own peers layers) := by
  unfold Scene.setBundle
  split
  · exact hs.fail rfl
  refine settling_get_bind (hs.lift_bind (fitting_station s own) fun t ht => ?_)
  refine hs.lift_bind (Fitting.mapM fun peer _ => fitting_station s peer) fun others hothers => ?_
  have hown := hs.known hequipped ht
  refine hs.atDesk ht (Bundle.upholds_serve hown.placed hown.sides (fun device hdevice => ?_) layers)
  obtain ⟨other, hmem, rfl⟩ := List.mem_map.mp hdevice
  obtain ⟨peer, -, hother⟩ := exists_of_forall₂_mem hothers hmem
  exact hs.known hequipped hother

theorem Matched.receivedSpectrum (tx rx : NodeId) (power : R) (txLayer rxLayer : UInt8) :
    s.Settling (receivedSpectrum tx rx power txLayer rxLayer) := by
  unfold Scene.receivedSpectrum
  refine settling_get_bind (hs.lift_bind (fitting_station s tx) fun a ha => ?_)
  refine hs.lift_bind (fitting_station s rx) fun b hb => hs.evaluate ?_
  exact Evaluator.upholds_receivedSpectrum (hs.known hequipped ha).placed
    (hs.known hequipped hb).placed (hs.station tx a ha).array (hs.station rx b hb).array _ _ _

theorem Matched.channelSummary (a b : NodeId) : s.Settling (channelSummary a b) := by
  unfold Scene.channelSummary
  refine settling_get_bind (hs.lift_bind (fitting_station s a) fun ta ha => ?_)
  refine hs.lift_bind (fitting_station s b) fun tb hb => ?_
  rw [bind_pure_comp]
  refine (hs.evaluate ?_).map _
  exact (Evaluator.upholds_channel (hs.known hequipped ha).placed
    (hs.known hequipped hb).placed).imp fun _ _ => trivial

/-- A request ends without a misfit, and leaves a matched scene. -/
theorem Matched.ask (request : Request R) : s.Settling (ask request) := by
  cases request with
  | addDevice id position panel beams => exact (hs.addDevice id position panel beams).map _
  | setMobility id position velocity =>
    have halter : s.Settling (setMobility id position velocity) :=
      hs.alter id (fun _ => rfl) (fun _ => rfl) fun t ht => ⟨ht.sides, ht.array, ht.engine⟩
    exact halter.map _
  | setOmni id =>
    have halter : s.Settling (setOmni id) :=
      hs.alter id (fun _ => rfl) (fun _ => rfl) fun t ht => ⟨ht.sides, ht.array, ht.engine⟩
    exact halter.map _
  | setCondition a b condition => exact (hs.setCondition a b condition).map _
  | advanceTo t => exact ⟨trivial, hs.evaluated rfl hs.evaluator⟩
  | setBeam own peer layer => exact (hs.setBeam hequipped own peer layer).map _
  | setBundle own peers layers => exact (hs.setBundle hequipped own peers layers).map _
  | receivedSpectrum tx rx power txLayer rxLayer =>
    exact (hs.receivedSpectrum hequipped tx rx power txLayer rxLayer).map _
  | channelSummary a b => exact (hs.channelSummary hequipped a b).map _

end Served

/-! ## Runs -/

theorem persists_ask (s : Scene R) (request : Request R) :
    s.Persists ((ask request).run s).2 := by
  rcases changes_ask (s := s) request with hsame | ⟨id, t, hchange, hinsert⟩
  · intro id t ht
    exact ⟨t, by rw [hsame, ht], rfl, rfl⟩
  · exact hchange.persists hinsert

omit [Scalar R] in
/-- Devices that have elements had them before. -/
theorem Equipped.of_persists (h : s'.Equipped) (hs : s.Persists s') : s.Equipped := by
  intro id t ht
  obtain ⟨t', ht', -, hpanel⟩ := hs id t ht
  rw [← hpanel]
  exact h id t' ht'

theorem matched_of_settings {settings : SceneSettings R} (h : ofSettings settings = .ok s) :
    s.Matched := by
  have hempty := stations_ofSettings h
  refine ⟨.of_empty hempty, fun id t ht => ?_, ?_⟩
  · rw [hempty] at ht
    simp at ht
  · obtain ⟨generator, hgenerator, h⟩ := except_bind_ok.mp h
    obtain ⟨grid, -, h⟩ := except_bind_ok.mp h
    obtain rfl := Except.ok.inj h
    obtain ⟨scenario, -, hgenerator⟩ := except_bind_ok.mp hgenerator
    obtain ⟨period, -, hgenerator⟩ := except_bind_ok.mp hgenerator
    obtain rfl := Except.ok.inj hgenerator
    exact Generator.Matched.of_empty rfl

variable {start : Scene R} {settings : SceneSettings R}

theorem matched_after (hstart : ofSettings settings = .ok start) (past : List (Request R))
    (hequipped : (start.after past).Equipped) : (start.after past).Matched := by
  induction past with
  | nil => exact matched_of_settings hstart
  | cons request past ih =>
    have hbefore := hequipped.of_persists (persists_ask (start.after past) request)
    exact ((ih hbefore).ask hbefore request).2

/-- A request adds devices with elements only. -/
def Request.Equips : Request R → Prop
  | .addDevice _ _ panel _ => 1 ≤ panel.columns.toNat ∧ 1 ≤ panel.rows.toNat
  | _ => True

theorem Equipped.ask (hs : s.Equipped) {request : Request R} (hrequest : request.Equips) :
    ((Scene.ask request).run s).2.Equipped := by
  intro id t ht
  have hdevice : ((Scene.ask request).run s).2.device? id = some t.device := by
    rw [device?, ht]
    rfl
  rcases device_of_ask hdevice with ⟨device, hbefore, hpanel⟩ | ⟨position, settings, beams, rfl, hpanel⟩
  · obtain ⟨u, hu, rfl⟩ := Option.map_eq_some_iff.mp hbefore
    rw [hpanel]
    exact hs id u hu
  · obtain ⟨orientation, -, hpanel⟩ := except_bind_ok.mp hpanel
    rw [← Except.ok.inj hpanel]
    exact hrequest

theorem equipped_after (hempty : start.stations = ∅) {past : List (Request R)}
    (hpast : ∀ request ∈ past, request.Equips) : (start.after past).Equipped := by
  induction past with
  | nil =>
    intro id t ht
    rw [after, hempty] at ht
    simp at ht
  | cons request past ih =>
    exact (ih fun r hr => hpast r (List.mem_cons_of_mem request hr)).ask (hpast request List.mem_cons_self)

end Scene

end RadioChannel
