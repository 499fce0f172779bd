import RadioChannel.Proofs.Failures
import RadioChannel.Proofs.Frames
import RadioChannel.Proofs.Overrides
import RadioChannel.Proofs.Stations
import RadioChannel.Proofs.Zeros

/-!
# Geometric beams follow their devices

A geometric engine keeps a beam for each peer, with the two places it was steered between, and gives it
out again only between places that compare equal to these. As every beam that it keeps is steered by its
own panel, pointing a layer gives it the beam from where the device is to where the peer is, however
often the two have moved, and however long ago.
-/

namespace RadioChannel

open Scalar

variable {R : Type} [Scalar R]

/-- A panel's beam between two places, as it is kept. -/
def SelectedBeam.Steered (place : Vec3 R → Prop) (panel : Panel R) (b : SelectedBeam R) : Prop :=
  place b.own ∧ place b.peer ∧ b.beam = panel.steer b.own b.peer

namespace BeamDesk

/-- A desk without codebooks, where only steered beams are kept. -/
structure Geometric (place : Vec3 R → Prop) (p : Panel R) (s : BeamDesk R) : Prop where
  strategy : s.engine.strategy = .geometric
  panel : s.array.panel = p
  kept : ∀ (key : Nat) b, s.engine.cache[key]? = some b → b.Steered place p

variable {place : Vec3 R → Prop} {panel : Panel R} {own peer : Endpoint R}
variable {device : Device R} {s t : BeamDesk R} {b : SelectedBeam R}

theorem Geometric.keep (hs : s.Geometric place panel) (hown : place own.position)
    (hpeer : place peer.position) : Geometric place panel { s with
      engine := s.engine.keep own.id peer.id ⟨own.position, peer.position,
        s.array.panel.steer own.position peer.position, none⟩ } := by
  refine ⟨hs.strategy, hs.panel, fun key b hb => ?_⟩
  change (s.engine.cache.insert (own.id.keyTo peer.id) _)[key]? = some b at hb
  rw [Std.HashMap.getElem?_insert] at hb
  split at hb
  · cases hb
    exact ⟨hown, hpeer, by rw [hs.panel]⟩
  · exact hs.kept key b hb

/-- A beam is given out again, or it is steered and kept. -/
theorem geometricBeam_cases (own peer : Endpoint R) (s : BeamDesk R)
    (hapart : (own.position == peer.position) = false) :
    (∃ b, s.engine.selected? own.id peer.id = some b ∧
      BeamEngine.stillThere b own.position peer.position = true ∧
      (geometricBeam own peer).run s = (.ok b, s)) ∨
    (geometricBeam own peer).run s = (.ok ⟨own.position, peer.position,
      s.array.panel.steer own.position peer.position, none⟩, { s with
        engine := s.engine.keep own.id peer.id ⟨own.position, peer.position,
          s.array.panel.steer own.position peer.position, none⟩ }) := by
  unfold geometricBeam
  rw [Action.run_ite, if_neg (by simp [hapart]), Action.run_bind_of_ok (Action.run_get s)]
  dsimp only
  cases hcached : (s.engine.selected? own.id peer.id).filter
      (BeamEngine.stillThere · own.position peer.position) with
  | none => exact Or.inr rfl
  | some b =>
    rw [Option.filter_eq_some_iff] at hcached
    exact Or.inl ⟨b, hcached.1, hcached.2, rfl⟩

variable (hplace : ∀ x y, place x → place y → (x == y) = true → x = y)

include hplace in
/-- Pointing fails at a device in the same place. Otherwise it sets the beam from one place to the
other. -/
theorem Geometric.point (hs : s.Geometric place panel) (hown : place own.position)
    (hdevice : place device.endpoint.position) (now : Nanoseconds) (layer : UInt8) :
    ((own.position == device.endpoint.position) = true ∧
      (point now own device layer).run s = (.error (.coincident own.id device.id), s)) ∨
    ((own.position == device.endpoint.position) = false ∧ ∃ t : BeamDesk R, t.Geometric place panel ∧
      t.array = s.array.setBeam device.id layer
        (panel.steer own.position device.endpoint.position) now ∧
      (point now own device layer).run s = (.ok (), t)) := by
  cases hapart : own.position == device.endpoint.position with
  | true => exact Or.inl ⟨rfl, run_point_coincident now layer hs.strategy hapart⟩
  | false =>
    right
    refine ⟨rfl, ?_⟩
    unfold BeamDesk.point
    rw [Action.run_bind, run_select_geometric hs.strategy]
    rcases geometricBeam_cases own device.endpoint s hapart with ⟨b, hb, hthere, hrun⟩ | hrun
    · rw [hrun]
      refine ⟨_, ?_, ?_, rfl⟩
      · exact ⟨hs.strategy, hs.panel, hs.kept⟩
      · -- the places that were kept are the present ones
        obtain ⟨hbown, hbpeer, hbeam⟩ := hs.kept _ b hb
        have hplaces : (b.own == own.position && b.peer == device.endpoint.position) = true := hthere
        rw [Bool.and_eq_true] at hplaces
        obtain ⟨hsame, hsame'⟩ := hplaces
        rw [hplace _ _ hbown hown hsame, hplace _ _ hbpeer hdevice hsame'] at hbeam
        rw [← hbeam]
    · rw [hrun]
      have hkept := hs.keep hown hdevice
      refine ⟨_, ?_, ?_, rfl⟩
      · exact ⟨hkept.strategy, hkept.panel, hkept.kept⟩
      · rw [← hs.panel]

include hplace in
/-- A bundle points the layers of its peers and does nothing else. -/
theorem Geometric.serve {peers : List (Device R)} (hs : s.Geometric place panel)
    (hown : place own.position) (hpeers : ∀ device ∈ peers, place device.endpoint.position)
    (now : Nanoseconds) (loss : FreeSpace R) (layers : List UInt8) :
    ((Bundle.serve now loss own peers layers).run s).2.Geometric place panel := by
  by_cases hlength : peers.length = layers.length
  · rw [Bundle.run_serve_oneByOne hlength (Or.inl hs.strategy)]
    refine Action.advances_forM (r := fun s t => s.Geometric place panel → t.Geometric place panel)
      (fun _ hs => hs) (fun _ _ _ h h' hs => h' (h hs)) (fun item hitem s hs => ?_) s hs
    have hdevice := hpeers item.1 (List.of_mem_zip hitem).1
    rcases hs.point hplace hown hdevice now item.2 with ⟨-, hrun⟩ | ⟨-, t, ht, -, hrun⟩
    · rw [hrun]
      exact hs
    · rw [hrun]
      exact ht
  · rw [Bundle.run_serve_mismatch hlength]
    exact hs

end BeamDesk

/-! ## Scenes -/

/-- A station at a place. If its engine is geometric, all beams that it keeps are steered by its panel. -/
structure Station.Steered (place : Vec3 R → Prop) (t : Station R) : Prop where
  position : place t.device.endpoint.position
  kept : t.engine.strategy = .geometric → ∀ (key : Nat) b, t.engine.cache[key]? = some b →
    b.Steered place t.device.array.panel

namespace Scene

/-- A request puts a device at a place, or nowhere else. -/
def Request.Puts (place : Vec3 R → Prop) : Request R → Prop
  | .addDevice _ position _ _ | .setMobility _ position _ => place position
  | _ => True

/-- All stations are steered. -/
def Steered (place : Vec3 R → Prop) (s : Scene R) : Prop :=
  ∀ (id : NodeId) (t : Station R), s.stations[id]? = some t → t.Steered place

variable {place : Vec3 R → Prop} {s s' start : Scene R} {own peer : NodeId} {t other : Station R}
variable {settings : SceneSettings R} {past : List (Request R)} {layer : UInt8}

theorem Steered.congr (hs : s.Steered place) (h : s'.stations = s.stations) : s'.Steered place := by
  intro id t ht
  rw [h] at ht
  exact hs id t ht

theorem Steered.insert (hs : s.Steered place) {id : NodeId} (ht : t.Steered place)
    (h : s'.stations = s.stations.insert id t) : s'.Steered place := by
  intro id' u hu
  rw [h, Std.HashMap.getElem?_insert] at hu
  split at hu
  · cases hu
    exact ht
  · exact hs id' u hu

theorem Steered.desk (ht : t.Steered place) (hstrategy : t.engine.strategy = .geometric)
    (s : Scene R) : (s.desk t).Geometric place t.device.array.panel :=
  ⟨hstrategy, rfl, ht.kept hstrategy⟩

/-- Work that keeps geometric desks geometric leaves stations steered. -/
theorem Steered.atDesk (hs : s.Steered place) (ht : s.stations[own]? = some t)
    {peers : List (Device R)} {x : Action R (BeamDesk R) Unit}
    (hworks : Action.Advances (BeamDesk.Works s.now t.device.endpoint (· ∈ peers)) x)
    (hx : (s.desk t).Geometric place t.device.array.panel →
      (x.run (s.desk t)).2.Geometric place t.device.array.panel) :
    ((Scene.atDesk own t x).run s).2.Steered place := by
  rw [run_atDesk]
  refine hs.insert ?_ rfl
  refine ⟨(hs own t ht).position, fun hstrategy => ?_⟩
  have hsame : t.engine.strategy = .geometric := by
    have hsettings := (hworks (s.desk t)).settings
    rw [hsettings] at hstrategy
    exact hstrategy
  have hgeometric := hx (Steered.desk (hs own t ht) hsame s)
  have hkept := hgeometric.kept
  rwa [← hgeometric.panel] at hkept

theorem stations_advanceTo (s : Scene R) (times : List Nanoseconds) :
    (s.after (times.map .advanceTo)).stations = s.stations := by
  induction times with
  | nil => rfl
  | cons time times ih => exact ih

section Places

variable (hplace : ∀ x y, place x → place y → (x == y) = true → x = y)

include hplace

theorem Steered.setBeam (hs : s.Steered place) (own peer : NodeId) (layer : UInt8) :
    ((Scene.setBeam own peer layer).run s).2.Steered place := by
  rcases setBeam_cases own peer layer s with ⟨e, hrun⟩ | ⟨t, other, ht, -, hother, hrun⟩
  · rw [hrun]
    exact hs
  rw [hrun]
  refine hs.atDesk ht (BeamDesk.works_point (List.mem_singleton_self other.device) layer)
    fun hdesk => ?_
  rcases hdesk.point hplace (hs own t ht).position (hs peer other hother).position s.now layer with
    ⟨-, hpoint⟩ | ⟨-, u, hu, -, hpoint⟩
  · rw [hpoint]
    exact hdesk
  · rw [hpoint]
    exact hu

theorem Steered.setBundle (hs : s.Steered place) (own : NodeId) (peers : List NodeId)
    (layers : List UInt8) : ((Scene.setBundle own peers layers).run s).2.Steered place := by
  rcases setBundle_cases own peers layers s with ⟨-, e, hrun⟩ | ⟨t, others, ht, hne, hothers⟩
  · rw [hrun]
    exact hs
  rw [run_setBundle ht hne hothers]
  refine hs.atDesk ht (Bundle.works_serve (fun _ hdevice => hdevice) layers) fun hdesk =>
    hdesk.serve hplace (hs own t ht).position (fun device hdevice => ?_) s.now s.loss layers
  obtain ⟨other, hmem, rfl⟩ := List.mem_map.mp hdevice
  obtain ⟨peer, -, hother⟩ := exists_of_forall₂_mem hothers hmem
  exact (hs peer other hother).position

/-- Requests that put devices at places leave all stations steered. -/
theorem Steered.ask (hs : s.Steered place) {request : Request R} (hrequest : request.Puts place) :
    ((Scene.ask request).run s).2.Steered place := by
  cases request with
  | addDevice id position panel beams =>
    rw [Scene.ask, Action.run_map]
    rcases addDevice_cases id position panel beams s with ⟨e, hrun⟩ | ⟨p, engine, -, -, hengine, hrun⟩
    · rw [hrun]
      exact hs
    · rw [hrun]
      refine hs.insert ?_ rfl
      refine ⟨hrequest, fun _ key b hb => ?_⟩
      rw [BeamEngine.cache_ofSettings hengine] at hb
      simp at hb
  | setMobility id position velocity =>
    rw [Scene.ask, Action.run_map, Scene.setMobility, run_alter]
    cases ht : s.stations[id]? with
    | none => exact hs
    | some t =>
      refine hs.insert ?_ rfl
      exact ⟨hrequest, (hs id t ht).kept⟩
  | setOmni id =>
    rw [Scene.ask, Action.run_map, Scene.setOmni, run_alter]
    cases ht : s.stations[id]? with
    | none => exact hs
    | some t =>
      refine hs.insert ?_ rfl
      exact ⟨(hs id t ht).position, (hs id t ht).kept⟩
  | setCondition a b condition =>
    rw [Scene.ask, Action.run_map]
    rcases setCondition_cases a b condition s with ⟨e, hrun⟩ | ⟨ta, tb, -, -, hrun⟩
    · rw [hrun]
      exact hs
    · rw [hrun]
      exact hs.congr rfl
  | advanceTo t => exact hs.congr rfl
  | setBeam own peer layer =>
    rw [Scene.ask, Action.run_map]
    exact hs.setBeam hplace own peer layer
  | setBundle own peers layers =>
    rw [Scene.ask, Action.run_map]
    exact hs.setBundle hplace own peers layers
  | receivedSpectrum tx rx power txLayer rxLayer => exact hs.congr (stations_asks rfl)
  | channelSummary a b => exact hs.congr (stations_asks rfl)

theorem steered_after (hstart : ofSettings settings = .ok start)
    (hpast : ∀ request ∈ past, request.Puts place) : (start.after past).Steered place := by
  induction past with
  | nil =>
    intro id t ht
    rw [after, stations_ofSettings hstart] at ht
    simp at ht
  | cons request past ih =>
    exact (ih fun r hr => hpast r (List.mem_cons_of_mem request hr)).ask hplace
      (hpast request List.mem_cons_self)

/-- Pointing a layer goes well where the peer is elsewhere, and sets the beam from one to the other. -/
theorem Steered.run_setBeam (hs : s.Steered place) (ht : s.stations[own]? = some t)
    (hother : s.stations[peer]? = some other) (hne : own ≠ peer)
    (hstrategy : t.engine.strategy = .geometric)
    (hapart : (t.device.endpoint.position == other.device.endpoint.position) = false)
    (layer : UInt8) :
    ∃ desk : BeamDesk R, desk.engine.strategy = .geometric ∧
      desk.array = t.device.array.setBeam other.device.id layer (t.device.array.panel.steer
        t.device.endpoint.position other.device.endpoint.position) s.now ∧
      (Scene.setBeam own peer layer).run s = (.ok (), s.withDesk own t desk) := by
  have hdesk := Steered.desk (hs own t ht) hstrategy s
  rcases hdesk.point hplace (hs own t ht).position (hs peer other hother).position s.now layer with
    ⟨htogether, -⟩ | ⟨-, u, hu, harray, hpoint⟩
  · rw [hapart] at htogether
    cases htogether
  · refine ⟨u, hu.strategy, harray, ?_⟩
    rw [Scene.run_setBeam ht hne hother, run_atDesk, hpoint]

/-- Geometric beams follow the devices. After any requests, whatever was moved and pointed before, a
layer that was pointed at a peer has the beam of the panel from where its device is now to where the
peer is now. However the time goes on, nothing changes of it, and pointing the layer again sets the same
beam. -/
theorem beam_after_setBeam (hstart : ofSettings settings = .ok start)
    (hpast : ∀ request ∈ past, request.Puts place)
    (ht : (start.after past).stations[own]? = some t) (hstrategy : t.engine.strategy = .geometric)
    (hrun : (Scene.setBeam own peer layer).run (start.after past) = (.ok (), s')) :
    ∃ other t', (start.after past).stations[peer]? = some other ∧ s'.stations[own]? = some t' ∧
      t'.device.endpoint = t.device.endpoint ∧ t'.device.array.panel = t.device.array.panel ∧
      t'.device.array.beam layer = .ok (t.device.array.panel.steer t.device.endpoint.position
        other.device.endpoint.position) ∧
      ∀ times : List Nanoseconds, (s'.after (times.map .advanceTo)).stations = s'.stations ∧
        ∃ s'' t'', (Scene.setBeam own peer layer).run (s'.after (times.map .advanceTo)) =
          (.ok (), s'') ∧ s''.stations[own]? = some t'' ∧
          t''.device.array.beam layer = t'.device.array.beam layer := by
  have hs := steered_after hplace hstart hpast
  rcases setBeam_cases own peer layer (start.after past) with
    ⟨e, hfail⟩ | ⟨t₀, other, ht₀, hne, hother, hpoint⟩
  · rw [hfail] at hrun
    cases hrun
  obtain rfl := Option.some.inj (ht.symm.trans ht₀)
  -- it went well, so the two are apart
  have hapart : (t.device.endpoint.position == other.device.endpoint.position) = false := by
    rw [hpoint, run_atDesk] at hrun
    have hdesk := Steered.desk (hs own t ht) hstrategy (start.after past)
    rcases hdesk.point hplace (hs own t ht).position (hs peer other hother).position
      (start.after past).now layer with ⟨-, hcoincident⟩ | ⟨hapart, -⟩
    · rw [hcoincident] at hrun
      cases hrun
    · exact hapart
  obtain ⟨desk, hdesk, harray, hset⟩ := hs.run_setBeam hplace ht hother hne hstrategy hapart layer
  obtain rfl : s' = (start.after past).withDesk own t desk :=
    (Prod.mk.inj (hrun.symm.trans hset)).2
  have hown : ((start.after past).withDesk own t desk).stations[own]? =
      some ⟨{ t.device with array := desk.array }, desk.engine⟩ := stations_withDesk t desk
  refine ⟨other, _, hother, hown, rfl, ?_, ?_, fun times => ?_⟩
  · change desk.array.panel = _
    rw [harray, AntennaArray.setBeam]
  · simp [harray, AntennaArray.beam, AntennaArray.setBeam]
  -- the time is none of the engine's concern
  have hsame := stations_advanceTo ((start.after past).withDesk own t desk) times
  have hsteered := hs.setBeam hplace own peer layer
  rw [hset] at hsteered
  have hpeer : ((start.after past).withDesk own t desk).stations[peer]? = some other :=
    (stations_put _ own peer _).trans (by rw [if_neg hne, hother])
  rw [← hsame] at hown hpeer
  obtain ⟨desk', -, harray', hagain⟩ :=
    (hsteered.congr hsame).run_setBeam hplace hown hpeer hne hdesk hapart layer
  refine ⟨hsame, _, _, hagain, stations_withDesk _ _, ?_⟩
  simp [harray, harray', AntennaArray.beam, AntennaArray.setBeam]

end Places

/-! ## A walk across a square -/

/-- A mast and a terminal are added to a square. -/
def arriving : List (Request Float) :=
  [.addDevice ⟨2⟩ ⟨40, 10, 1.5⟩ singleAntenna .standard,
    .addDevice ⟨1⟩ ⟨0, 0, 10⟩ singleAntenna .standard]

/-- The mast is pointed at the terminal, which then walks on. -/
def walking : List (Request Float) :=
  .setMobility ⟨2⟩ ⟨20, 20, 1.5⟩ .zero :: .setBeam ⟨1⟩ ⟨2⟩ 0 :: arriving

theorem puts_walking : ∀ request ∈ walking, request.Puts Vec3.Plain := by
  intro request hrequest
  simp only [walking, arriving, List.mem_cons, List.not_mem_nil, or_false] at hrequest
  rcases hrequest with rfl | rfl | rfl | rfl
  · exact ⟨by decide +kernel, by decide +kernel, by decide +kernel⟩
  · trivial
  · exact ⟨by decide +kernel, by decide +kernel, by decide +kernel⟩
  · exact ⟨by decide +kernel, by decide +kernel, by decide +kernel⟩

theorem after_arriving {start : Scene Float} (hempty : start.stations = ∅) :
    start.after arriving =
      (start.put ⟨1⟩ (onSquare start.grid (.ofSize 1 1) ⟨1⟩ ⟨0, 0, 10⟩)).put ⟨2⟩
        (onSquare start.grid (.ofSize 1 1) ⟨2⟩ ⟨40, 10, 1.5⟩) :=
  after_additions hempty (rfl : Panel.ofSettings singleAntenna = .ok (.ofSize 1 1)) rfl
    (ofSettings_dft start.grid) (ofSettings_dft start.grid) (by decide) _ _

theorem plain_inj : ∀ x y : Vec3 Float, x.Plain → y.Plain → (x == y) = true → x = y :=
  fun _ _ hx hy => hx.eq_of_beq hy

/-- The mast stands where it was put and the terminal where it went, and pointing the mast goes well. -/
theorem after_walking : ∃ (start s' : Scene Float) (t other : Station Float),
    ofSettings .standard = .ok start ∧
    (start.after walking).stations[(⟨1⟩ : NodeId)]? = some t ∧
    (start.after walking).stations[(⟨2⟩ : NodeId)]? = some other ∧
    t.engine.strategy = .geometric ∧ t.device.endpoint.position = ⟨0, 0, 10⟩ ∧
    other.device.endpoint.position = ⟨20, 20, 1.5⟩ ∧
    (setBeam ⟨1⟩ ⟨2⟩ 0).run (start.after walking) = (.ok (), s') := by
  obtain ⟨start, hstart, hempty⟩ := ofSettings_standard
  obtain ⟨mast, hmast⟩ : ∃ t, t = onSquare start.grid (.ofSize 1 1) ⟨1⟩ ⟨0, 0, 10⟩ := ⟨_, rfl⟩
  obtain ⟨terminal, hterminal⟩ : ∃ t, t = onSquare start.grid (.ofSize 1 1) ⟨2⟩ ⟨40, 10, 1.5⟩ :=
    ⟨_, rfl⟩
  have hsettled := after_arriving hempty
  rw [← hmast, ← hterminal] at hsettled
  obtain ⟨s, hs⟩ : ∃ s, s = start.after arriving := ⟨_, rfl⟩
  have hfirst : s.stations[(⟨1⟩ : NodeId)]? = some mast := by
    rw [hs, hsettled, stations_put, if_neg (by decide), stations_put, if_pos rfl]
  have hsecond : s.stations[(⟨2⟩ : NodeId)]? = some terminal := by
    rw [hs, hsettled, stations_put, if_pos rfl]
  have hapart : ((⟨0, 0, 10⟩ : Vec3 Float) == ⟨40, 10, 1.5⟩) = false := by decide
  have hapart' : ((⟨0, 0, 10⟩ : Vec3 Float) == ⟨20, 20, 1.5⟩) = false := by decide
  -- pointed for the first time
  have hsteered : s.Steered Vec3.Plain := by
    rw [hs]
    exact steered_after plain_inj hstart fun request hrequest =>
      puts_walking request (List.mem_cons_of_mem _ (List.mem_cons_of_mem _ hrequest))
  obtain ⟨desk, hdesk, -, hpointed⟩ := hsteered.run_setBeam plain_inj hfirst hsecond (by decide)
    (by rw [hmast]; rfl) (by rw [hmast, hterminal]; exact hapart) 0
  -- the terminal walks on
  obtain ⟨u, hu⟩ : ∃ u, u = s.withDesk ⟨1⟩ mast desk := ⟨_, rfl⟩
  have hafter : start.after walking = ((setMobility ⟨2⟩ ⟨20, 20, 1.5⟩ .zero).run u).2 := by
    rw [walking, after, after, ← hs, ask, ask, Action.run_map, Action.run_map, hpointed, hu]
  have hu₁ : u.stations[(⟨1⟩ : NodeId)]? =
      some ⟨{ mast.device with array := desk.array }, desk.engine⟩ := by
    rw [hu]
    exact stations_withDesk mast desk
  have hu₂ : u.stations[(⟨2⟩ : NodeId)]? = some terminal := by
    rw [hu]
    exact (stations_put s ⟨1⟩ ⟨2⟩ _).trans (by rw [if_neg (by decide), hsecond])
  rw [setMobility, run_alter, hu₂] at hafter
  have hown : (start.after walking).stations[(⟨1⟩ : NodeId)]? =
      some ⟨{ mast.device with array := desk.array }, desk.engine⟩ := by
    rw [hafter]
    exact (stations_put u ⟨2⟩ ⟨1⟩ _).trans (by rw [if_neg (by decide), hu₁])
  have hpeer : (start.after walking).stations[(⟨2⟩ : NodeId)]? = some { terminal with
      device.endpoint := ⟨terminal.device.endpoint.id, ⟨20, 20, 1.5⟩, .zero⟩ } := by
    rw [hafter]
    exact (stations_put u ⟨2⟩ ⟨2⟩ _).trans (if_pos rfl)
  -- and the mast is pointed again
  obtain ⟨desk', -, -, hrun⟩ := (steered_after plain_inj hstart puts_walking).run_setBeam plain_inj
    hown hpeer (by decide) hdesk (by rw [hmast]; exact hapart') 0
  exact ⟨start, _, _, _, hstart, hown, hpeer, hdesk, by rw [hmast]; rfl, rfl, hrun⟩

/-- Pointed again, the mast has the beam to where the terminal is now. -/
theorem beam_after_walking : ∃ (start s' : Scene Float) (t t' : Station Float),
    ofSettings .standard = .ok start ∧ (∀ request ∈ walking, request.Puts Vec3.Plain) ∧
    (start.after walking).stations[(⟨1⟩ : NodeId)]? = some t ∧ t.engine.strategy = .geometric ∧
    (setBeam ⟨1⟩ ⟨2⟩ 0).run (start.after walking) = (.ok (), s') ∧
    s'.stations[(⟨1⟩ : NodeId)]? = some t' ∧
    t'.device.array.beam 0 = .ok (t.device.array.panel.steer ⟨0, 0, 10⟩ ⟨20, 20, 1.5⟩) := by
  obtain ⟨start, s', t, other, hstart, ht, hother, hstrategy, hmast, hterminal, hrun⟩ := after_walking
  obtain ⟨other', t', hother', ht', -, -, hbeam, -⟩ :=
    beam_after_setBeam plain_inj hstart puts_walking ht hstrategy hrun
  obtain rfl := Option.some.inj (hother.symm.trans hother')
  rw [hmast, hterminal] at hbeam
  exact ⟨start, s', t, t', hstart, puts_walking, ht, hstrategy, hrun, ht', hbeam⟩

end Scene

end RadioChannel
