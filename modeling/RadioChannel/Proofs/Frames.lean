import RadioChannel.Proofs.Scenes
import RadioChannel.Proofs.Selections

/-!
# What requests leave alone

Only an addition brings a device, and nothing takes one away or gives it another panel. Pointing a
device changes no antenna but its own and moves nothing; moving it changes where it is and no more;
questions change no device. A request that does neither and is refused changes nothing at all.
-/

namespace RadioChannel

open Scalar

variable {R : Type} [Scalar R]

namespace Scene

/-! ## Requests -/

/-- Whether a request adds a device. -/
def Request.adds : Request R → Bool
  | .addDevice .. => true
  | _ => false

/-- The device that a request selects beams for. -/
def Request.pointed? : Request R → Option NodeId
  | .setBeam own _ _ | .setBundle own _ _ => some own
  | _ => none

/-- Whether a request only asks. -/
def Request.asks : Request R → Bool
  | .receivedSpectrum .. | .channelSummary .. => true
  | _ => false

/-- What a request leaves of a scene, whether it is answered or refused. -/
structure Frame (s : Scene R) (request : Request R) (outcome : Except (Fault R) (Answer R))
    (s' : Scene R) : Prop where
  kept : ∀ id device, s.device? id = some device →
    ∃ device', s'.device? id = some device' ∧ device'.array.panel = device.array.panel
  counted : s'.deviceCount = s.deviceCount + if request.adds && outcome.isOk then 1 else 0
  pointed : ∀ own, request.pointed? = some own →
    (∀ id, (s'.device? id).map Device.endpoint = (s.device? id).map Device.endpoint) ∧
    ∀ id, id ≠ own → s'.device? id = s.device? id
  moved : ∀ id position velocity, request = .setMobility id position velocity →
    ∀ t, s.stations[id]? = some t →
      s' = s.put id { t with device.endpoint := ⟨id, position, velocity⟩ }
  asked : request.asks = true → s'.stations = s.stations
  refused : request.pointed? = none → request.asks = false → outcome.isOk = false → s' = s

/-! ## One station -/

/-- At most one station is replaced, by one that is related to it. -/
def Replaces (own : NodeId) (p : Station R → Station R → Prop) (s s' : Scene R) : Prop :=
  s'.stations = s.stations ∨
    ∃ t t', s.stations[own]? = some t ∧ p t t' ∧ s'.stations = s.stations.insert own t'

section Replaces

variable {own : NodeId} {p q : Station R → Station R → Prop} {s s' : Scene R}

omit [Scalar R]

theorem Replaces.imp (h : Replaces own p s s') (hpq : ∀ t t', p t t' → q t t') :
    Replaces own q s s' := by
  rcases h with hsame | ⟨t, t', ht, hp, hs'⟩
  · exact Or.inl hsame
  · exact Or.inr ⟨t, t', ht, hpq t t' hp, hs'⟩

theorem Replaces.device?_eq (h : Replaces own p s s') {id : NodeId} (hid : id ≠ own) :
    s'.device? id = s.device? id := by
  rcases h with hsame | ⟨t, t', ht, hp, hs'⟩
  · rw [device?, hsame, device?]
  · rw [device?, hs', Std.HashMap.getElem?_insert, if_neg (by simpa using Ne.symm hid), device?]

/-- What both stations have in common is read as before. -/
theorem Replaces.map_device? {β : Type} {f : Device R → β} (h : Replaces own p s s')
    (hf : ∀ t t', p t t' → f t'.device = f t.device) (id : NodeId) :
    (s'.device? id).map f = (s.device? id).map f := by
  by_cases hid : id = own
  · rcases h with hsame | ⟨t, t', ht, hp, hs'⟩
    · rw [device?, hsame, device?]
    · rw [hid, device?, hs', Std.HashMap.getElem?_insert_self, device?, ht]
      exact congrArg some (hf t t' hp)
  · rw [h.device?_eq hid]

theorem Replaces.deviceCount_eq (h : Replaces own p s s') : s'.deviceCount = s.deviceCount := by
  rcases h with hsame | ⟨t, t', ht, hp, hs'⟩
  · rw [deviceCount, hsame, deviceCount]
  · have hheld : own ∈ s.stations := by
      rw [Std.HashMap.mem_iff_isSome_getElem?, ht]
      rfl
    rw [deviceCount, hs', Std.HashMap.size_insert, if_pos hheld, deviceCount]

end Replaces

variable {s s' : Scene R} {own : NodeId}

omit [Scalar R] in
theorem replaces_alter (id : NodeId) (f : Station R → Station R) (s : Scene R) :
    Replaces id (fun t t' => t' = f t) s ((alter id f).run s).2 := by
  rw [run_alter]
  cases ht : s.stations[id]? with
  | none => exact Or.inl rfl
  | some t => exact Or.inr ⟨t, f t, ht, rfl, rfl⟩

/-- Pointing a device leaves it its place and its panel. -/
def Repointed (t t' : Station R) : Prop :=
  t'.device.endpoint = t.device.endpoint ∧ t'.device.array.panel = t.device.array.panel

theorem replaces_atDesk {t : Station R} {peers : List (Device R)}
    {x : Action R (BeamDesk R) Unit} (ht : s.stations[own]? = some t)
    (hx : Action.Advances (BeamDesk.Works s.now t.device.endpoint (· ∈ peers)) x) :
    Replaces own Repointed s ((atDesk own t x).run s).2 := by
  rw [run_atDesk]
  refine Or.inr ⟨t, _, ht, ?_, rfl⟩
  exact ⟨rfl, (hx (s.desk t)).panel⟩

theorem replaces_setBeam (own peer : NodeId) (layer : UInt8) (s : Scene R) :
    Replaces own Repointed s ((setBeam own peer layer).run s).2 := by
  rcases setBeam_cases own peer layer s with ⟨e, hrun⟩ | ⟨t, other, ht, -, -, hrun⟩
  · rw [hrun]
    exact Or.inl rfl
  · rw [hrun]
    exact replaces_atDesk ht (BeamDesk.works_point (List.mem_singleton_self other.device) layer)

theorem replaces_setBundle (own : NodeId) (peers : List NodeId) (layers : List UInt8) (s : Scene R) :
    Replaces own Repointed s ((setBundle own peers layers).run s).2 := by
  rcases setBundle_cases own peers layers s with ⟨-, e, hrun⟩ | ⟨t, others, ht, hne, hothers⟩
  · rw [hrun]
    exact Or.inl rfl
  · rw [run_setBundle ht hne hothers]
    exact replaces_atDesk ht (Bundle.works_serve (fun _ hdevice => hdevice) layers)

theorem replaces_pointed {request : Request R} (h : request.pointed? = some own) :
    Replaces own Repointed s ((ask request).run s).2 := by
  cases request with
  | setBeam own' peer layer =>
    obtain rfl : own' = own := Option.some.inj h
    rw [ask, Action.run_map]
    exact replaces_setBeam _ peer layer s
  | setBundle own' peers layers =>
    obtain rfl : own' = own := Option.some.inj h
    rw [ask, Action.run_map]
    exact replaces_setBundle _ peers layers s
  | _ => cases h

/-! ## Requests that add nothing -/

theorem stations_asks {request : Request R} (h : request.asks = true) :
    ((ask request).run s).2.stations = s.stations := by
  cases request with
  | receivedSpectrum tx rx power txLayer rxLayer =>
    rw [ask, Action.run_map]
    rcases receivedSpectrum_cases tx rx power txLayer rxLayer s with
      ⟨e, hrun⟩ | ⟨a, b, -, -, hrun⟩ <;> rw [hrun]
    exact stations_evaluate _
  | channelSummary a b =>
    rw [ask, Action.run_map]
    rcases channelSummary_cases a b s with ⟨e, hrun⟩ | ⟨ta, tb, -, -, hrun⟩ <;> rw [hrun]
  | _ => cases h

/-- A request that adds no device replaces at most one, on the same panel. -/
theorem replaces_ask {request : Request R} (hadds : request.adds = false) :
    ∃ own, Replaces own (fun t t' => t'.device.array.panel = t.device.array.panel) s
      ((ask request).run s).2 := by
  cases request with
  | addDevice id position panel beams => cases hadds
  | setMobility id position velocity =>
    rw [ask, Action.run_map]
    exact ⟨id, (replaces_alter id _ s).imp fun t t' h => h ▸ rfl⟩
  | setOmni id =>
    rw [ask, Action.run_map]
    exact ⟨id, (replaces_alter id _ s).imp fun t t' h => h ▸ rfl⟩
  | setCondition a b condition =>
    rw [ask, Action.run_map]
    refine ⟨a, Or.inl ?_⟩
    rcases setCondition_cases a b condition s with ⟨e, hrun⟩ | ⟨ta, tb, -, -, hrun⟩ <;> rw [hrun]
  | advanceTo t => exact ⟨⟨0⟩, Or.inl rfl⟩
  | setBeam own peer layer => exact ⟨own, (replaces_pointed rfl).imp fun _ _ h => h.2⟩
  | setBundle own peers layers => exact ⟨own, (replaces_pointed rfl).imp fun _ _ h => h.2⟩
  | receivedSpectrum tx rx power txLayer rxLayer => exact ⟨tx, Or.inl (stations_asks rfl)⟩
  | channelSummary a b => exact ⟨a, Or.inl (stations_asks rfl)⟩

theorem panel_ask {request : Request R} (hadds : request.adds = false) (id : NodeId) :
    (((ask request).run s).2.device? id).map (fun device => device.array.panel) =
      (s.device? id).map fun device => device.array.panel := by
  obtain ⟨own, hreplaces⟩ := replaces_ask (s := s) hadds
  exact hreplaces.map_device? (fun _ _ h => h) id

/-- The devices after a request are those before it, on their panels, and one that it adds. -/
theorem device_of_ask {request : Request R} {id : NodeId} {device' : Device R}
    (h : ((ask request).run s).2.device? id = some device') :
    (∃ device, s.device? id = some device ∧ device'.array.panel = device.array.panel) ∨
    ∃ position settings beams, request = .addDevice id position settings beams ∧
      Panel.ofSettings settings = .ok device'.array.panel := by
  cases hadds : request.adds with
  | false =>
    left
    have hpanel := panel_ask (s := s) hadds id
    rw [h, Option.map_some, eq_comm, Option.map_eq_some_iff] at hpanel
    obtain ⟨device, hdevice, hsame⟩ := hpanel
    exact ⟨device, hdevice, hsame.symm⟩
  | true =>
    cases request with
    | addDevice id' position settings beams =>
      rw [ask, Action.run_map] at h
      rcases addDevice_cases id' position settings beams s with
        ⟨e, hrun⟩ | ⟨panel, engine, -, hpanel, -, hrun⟩ <;> rw [hrun] at h
      · exact Or.inl ⟨device', h, rfl⟩
      · rw [device?, stations_put] at h
        split at h
        · next hid =>
          cases h
          exact Or.inr ⟨position, settings, beams, by rw [hid], hpanel⟩
        · exact Or.inl ⟨device', h, rfl⟩
    | _ => cases hadds

/-! ## The frame -/

theorem moved_ask (hs : s.Numbered) {id : NodeId} {t : Station R} (ht : s.stations[id]? = some t)
    (position velocity : Vec3 R) : ((ask (.setMobility id position velocity)).run s).2 =
      s.put id { t with device.endpoint := ⟨id, position, velocity⟩ } := by
  have hid : t.device.endpoint.id = id := hs id t ht
  rw [ask, Action.run_map, setMobility, run_alter, ht]
  dsimp only
  rw [hid]

/-- A step that is done as a whole or not at all. -/
def AllOrNothing (s : Scene R) (x : Action R (Scene R) Unit) : Prop :=
  (∃ e, x.run s = (.error e, s)) ∨ ∃ s', x.run s = (.ok (), s')

omit [Scalar R] in
theorem allOrNothing_alter (id : NodeId) (f : Station R → Station R) :
    s.AllOrNothing (alter id f) := by
  unfold AllOrNothing
  rw [run_alter]
  cases s.stations[id]? with
  | none => exact Or.inl ⟨_, rfl⟩
  | some t => exact Or.inr ⟨_, rfl⟩

omit [Scalar R] in
theorem AllOrNothing.refused {x : Action R (Scene R) Unit} (hx : s.AllOrNothing x)
    (hfail : (((fun _ => Answer.done (R := R)) <$> x).run s).1.isOk = false) :
    (((fun _ => Answer.done (R := R)) <$> x).run s).2 = s := by
  rw [Action.run_map] at hfail ⊢
  rcases hx with ⟨e, hrun⟩ | ⟨s', hrun⟩
  · rw [hrun]
  · rw [hrun] at hfail
    cases hfail

theorem refused_ask {request : Request R} (hpointed : request.pointed? = none)
    (hasks : request.asks = false) (hfail : ((ask request).run s).1.isOk = false) :
    ((ask request).run s).2 = s := by
  cases request with
  | addDevice id position panel beams =>
    refine AllOrNothing.refused ?_ hfail
    rcases addDevice_cases id position panel beams s with hrefused | ⟨p, engine, -, -, -, hrun⟩
    · exact Or.inl hrefused
    · exact Or.inr ⟨_, hrun⟩
  | setMobility id position velocity =>
    exact AllOrNothing.refused (allOrNothing_alter id _) hfail
  | setOmni id => exact AllOrNothing.refused (allOrNothing_alter id _) hfail
  | setCondition a b condition =>
    refine AllOrNothing.refused ?_ hfail
    rcases setCondition_cases a b condition s with hrefused | ⟨ta, tb, -, -, hrun⟩
    · exact Or.inl hrefused
    · exact Or.inr ⟨_, hrun⟩
  | advanceTo t => cases hfail
  | setBeam own peer layer => cases hpointed
  | setBundle own peers layers => cases hpointed
  | receivedSpectrum tx rx power txLayer rxLayer => cases hasks
  | channelSummary a b => cases hasks

theorem kept_ask (request : Request R) {id : NodeId} {device : Device R}
    (hdevice : s.device? id = some device) :
    ∃ device', ((ask request).run s).2.device? id = some device' ∧
      device'.array.panel = device.array.panel := by
  cases hadds : request.adds with
  | false =>
    have hpanel := panel_ask (s := s) hadds id
    rw [hdevice, Option.map_some, Option.map_eq_some_iff] at hpanel
    exact hpanel
  | true =>
    cases request with
    | addDevice id' position settings beams =>
      refine ⟨device, ?_, rfl⟩
      rw [ask, Action.run_map]
      rcases addDevice_cases id' position settings beams s with
        ⟨e, hrun⟩ | ⟨panel, engine, hnew, -, -, hrun⟩ <;> rw [hrun]
      · exact hdevice
      · -- the number of the new device was free
        rw [device?, stations_put, if_neg]
        · exact hdevice
        · rintro rfl
          rw [device?, hnew] at hdevice
          cases hdevice
    | _ => cases hadds

theorem counted_ask (request : Request R) : ((ask request).run s).2.deviceCount =
    s.deviceCount + if request.adds && ((ask request).run s).1.isOk then 1 else 0 := by
  cases hadds : request.adds with
  | false =>
    obtain ⟨own, hreplaces⟩ := replaces_ask (s := s) hadds
    rw [hreplaces.deviceCount_eq]
    simp
  | true =>
    cases request with
    | addDevice id position settings beams =>
      rw [ask, Action.run_map]
      rcases addDevice_cases id position settings beams s with
        ⟨e, hrun⟩ | ⟨panel, engine, hnew, -, -, hrun⟩ <;> rw [hrun]
      · rfl
      · have hfree : id ∉ s.stations := by
          rw [Std.HashMap.mem_iff_isSome_getElem?, hnew]
          simp
        rw [deviceCount, put, Std.HashMap.size_insert, if_neg hfree]
        rfl
    | _ => cases hadds

theorem frame_ask (hs : s.Numbered) (request : Request R) :
    s.Frame request ((ask request).run s).1 ((ask request).run s).2 where
  kept _ _ hdevice := kept_ask request hdevice
  counted := counted_ask request
  pointed own hpointed := by
    have hreplaces := replaces_pointed (s := s) hpointed
    exact ⟨hreplaces.map_device? fun _ _ h => h.1, fun _ hid => hreplaces.device?_eq hid⟩
  moved id position velocity hrequest t ht := by
    rw [hrequest]
    exact moved_ask hs ht position velocity
  asked hasks := stations_asks hasks
  refused := refused_ask

end Scene

end RadioChannel
