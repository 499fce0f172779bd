import RadioChannel.Proofs.Scenes
import RadioChannel.Proofs.Searches

/-!
# The stations of reachable scenes

A device keeps its number and its panel for ever, and panels have sides of 32 bits. So every search
that an engine keeps was made on the flat matrix of the channel to a device that is still there, with
the panels that both have now.
-/

namespace RadioChannel

variable {R : Type} [Scalar R]

theorem Panel.hasSides_of_settings {settings : PanelSettings R} {panel : Panel R}
    (h : Panel.ofSettings settings = .ok panel) : panel.size.HasSides := by
  obtain ⟨orientation, -, h⟩ := except_bind_ok.mp h
  obtain rfl := Except.ok.inj h
  exact ⟨settings.columns, settings.rows, rfl⟩

theorem BeamEngine.cache_ofSettings {settings : BeamSettings R} {grid : SpectrumGrid R}
    {engine : BeamEngine R} (h : BeamEngine.ofSettings settings grid = .ok engine) :
    engine.cache = ∅ := by
  obtain ⟨strategy, -, h⟩ := except_bind_ok.mp h
  obtain ⟨refresh, -, h⟩ := except_bind_ok.mp h
  obtain rfl := Except.ok.inj h
  rfl

namespace Scene

variable {s s' : Scene R}

/-! ## Steps -/

/-- The devices that are there. -/
def Present (s : Scene R) (device : Device R) : Prop :=
  ∃ (id : NodeId) (t : Station R), s.stations[id]? = some t ∧ t.device = device

/-- A request adds a station with an empty cache, or leaves a station its number and its panel, and
what its engine newly keeps was selected for devices that are there. -/
theorem Change.cases {id : NodeId} {t' : Station R} (h : s.Change id t') :
    (s.stations[id]? = none ∧ t'.device.array.panel.size.HasSides ∧ t'.engine.cache = ∅) ∨
    ∃ t, s.stations[id]? = some t ∧ t'.device.id = t.device.id ∧
      t'.device.array.panel = t.device.array.panel ∧
      ∀ key b, t'.engine.cache[key]? = some b → t.engine.cache[key]? = some b ∨
        ∃ device, s.Present device ∧ key = t.device.id.keyTo device.id ∧
          BeamDesk.Selected s.now t.device.endpoint t.device.array.panel device b := by
  cases h with
  | added hnew hpanel hengine =>
    exact Or.inl ⟨hnew, Panel.hasSides_of_settings hpanel, BeamEngine.cache_ofSettings hengine⟩
  | moved ht => exact Or.inr ⟨_, ht, rfl, rfl, fun _ _ hb => Or.inl hb⟩
  | silenced ht => exact Or.inr ⟨_, ht, rfl, rfl, fun _ _ hb => Or.inl hb⟩
  | @pointed peer t other ht hother _ layer _ desk hrun =>
    have hwork : BeamDesk.Works s.now t.device.endpoint s.Present (s.desk t) _ :=
      BeamDesk.works_point ⟨peer, other, hother, rfl⟩ layer (s.desk t)
    rw [hrun] at hwork
    exact Or.inr ⟨t, ht, rfl, hwork.panel, hwork.kept⟩
  | @bundled peers t others ht hothers _ layers _ desk hrun =>
    have hpresent : ∀ device ∈ others.map Station.device, s.Present device := by
      intro device hdevice
      obtain ⟨other, hother, rfl⟩ := List.mem_map.mp hdevice
      obtain ⟨peer, -, hpeer⟩ := exists_of_forall₂_mem hothers hother
      exact ⟨peer, other, hpeer, rfl⟩
    have hwork : BeamDesk.Works s.now t.device.endpoint s.Present (s.desk t)
        ((Bundle.serve s.now s.loss t.device.endpoint (others.map Station.device) layers).run
          (s.desk t)).2 :=
      Bundle.works_serve hpresent layers (s.desk t)
    rw [hrun] at hwork
    exact Or.inr ⟨t, ht, rfl, hwork.panel, hwork.kept⟩

/-! ## What stays true of stations -/

/-- Devices stay, with their numbers and their panels. -/
def Persists (s s' : Scene R) : Prop :=
  ∀ (id : NodeId) (t : Station R), s.stations[id]? = some t → ∃ t', s'.stations[id]? = some t' ∧
    t'.device.id = t.device.id ∧ t'.device.array.panel = t.device.array.panel

theorem Change.persists {id : NodeId} {t' : Station R} (h : s.Change id t')
    (hs' : s'.stations = s.stations.insert id t') : s.Persists s' := by
  intro id' t ht
  rw [hs', Std.HashMap.getElem?_insert]
  split
  · next heq =>
    obtain rfl : id = id' := by simpa using heq
    rcases h.cases with ⟨hnew, -⟩ | ⟨u, hu, hid, hpanel, -⟩
    · rw [hnew] at ht
      cases ht
    · obtain rfl := Option.some.inj (hu.symm.trans ht)
      exact ⟨t', rfl, hid, hpanel⟩
  · exact ⟨t, ht, rfl, rfl⟩

/-- How a station came to the beams that it keeps: each was selected, at some time, for a device that is
there, on the panels that both have now. -/
structure Traced (s : Scene R) (own : NodeId) (t : Station R) : Prop where
  sides : t.device.array.panel.size.HasSides
  kept : ∀ key b, t.engine.cache[key]? = some b →
    ∃ (peer : NodeId) (other : Station R), s.stations[peer]? = some other ∧ key = own.keyTo peer ∧
      ∃ (now : Nanoseconds) (here : Endpoint R) (device : Device R), here.id = own ∧
        device.id = other.device.id ∧ device.array.panel = other.device.array.panel ∧
        BeamDesk.Selected now here t.device.array.panel device b

theorem Traced.persists {own : NodeId} {t : Station R} (h : s.Traced own t) (hs : s.Persists s') :
    s'.Traced own t := by
  refine ⟨h.sides, fun key b hb => ?_⟩
  obtain ⟨peer, other, hother, hkey, now, here, device, hhere, hdevice, hpanel, hselected⟩ :=
    h.kept key b hb
  obtain ⟨other', hother', hid', hpanel'⟩ := hs peer other hother
  exact ⟨peer, other', hother', hkey, now, here, device, hhere, hdevice.trans hid'.symm,
    hpanel.trans hpanel'.symm, hselected⟩

theorem Change.traced {id : NodeId} {t' : Station R} (h : s.Change id t') (hnumbered : s.Numbered)
    (hs : ∀ (own : NodeId) (t : Station R), s.stations[own]? = some t → s.Traced own t) :
    s.Traced id t' := by
  rcases h.cases with ⟨-, hsides, hempty⟩ | ⟨t, ht, -, hpanel, hkept⟩
  · refine ⟨hsides, fun key b hb => ?_⟩
    rw [hempty] at hb
    simp at hb
  · obtain ⟨hsides, hold⟩ := hs id t ht
    refine ⟨hpanel ▸ hsides, fun key b hb => ?_⟩
    rw [hpanel]
    rcases hkept key b hb with hb' | ⟨device, ⟨peer, other, hother, rfl⟩, hkey, hselected⟩
    · exact hold key b hb'
    · rw [hnumbered id t ht, hnumbered peer other hother] at hkey
      exact ⟨peer, other, hother, hkey, s.now, t.device.endpoint, other.device, hnumbered id t ht, rfl,
        rfl, hselected⟩

/-- A request leaves all stations traced. -/
theorem traced_ask (hnumbered : s.Numbered)
    (hs : ∀ (own : NodeId) (t : Station R), s.stations[own]? = some t → s.Traced own t)
    (request : Request R) {own : NodeId} {t : Station R}
    (ht : ((ask request).run s).2.stations[own]? = some t) :
    ((ask request).run s).2.Traced own t := by
  rcases changes_ask (s := s) request with hsame | ⟨id, t', hchange, hinsert⟩
  · rw [hsame] at ht
    exact (hs own t ht).persists fun id t ht => ⟨t, by rw [hsame, ht], rfl, rfl⟩
  · have hpersists := hchange.persists hinsert
    rw [hinsert, Std.HashMap.getElem?_insert] at ht
    split at ht
    · next heq =>
      obtain rfl : id = own := by simpa using heq
      obtain rfl := Option.some.inj ht
      exact (hchange.traced hnumbered hs).persists hpersists
    · exact (hs own t ht).persists hpersists

/-- All searches that a station keeps were made on flat matrices of channels to devices that are
there. -/
def Upkept (s : Scene R) (own : NodeId) (t : Station R) : Prop :=
  t.device.array.panel.size.HasSides ∧
  ∀ key b search, t.engine.cache[key]? = some b → b.search? = some search →
    ∃ (peer : NodeId) (other : Station R), s.stations[peer]? = some other ∧ key = own.keyTo peer ∧
      ∃ h, search.MadeOn own t.device.array.panel other.device h

theorem Traced.upkept {own : NodeId} {t : Station R} (h : s.Traced own t) : s.Upkept own t := by
  refine ⟨h.sides, fun key b search hb hsearch => ?_⟩
  obtain ⟨peer, other, hother, hkey, now, here, device, rfl, hid, hpanel, hselected⟩ := h.kept key b hb
  obtain ⟨m, hmade⟩ := hselected.madeOn hsearch
  exact ⟨peer, other, hother, hkey, m, hmade.congr hid.symm hpanel.symm⟩

theorem Reachable.upkept (hs : s.Reachable) {own : NodeId} {t : Station R}
    (ht : s.stations[own]? = some t) : s.Upkept own t := by
  suffices htraced : ∀ (own : NodeId) (t : Station R), s.stations[own]? = some t → s.Traced own t from
    (htraced own t ht).upkept
  clear ht
  induction hs with
  | start h =>
    intro own t ht
    rw [stations_ofSettings h] at ht
    simp at ht
  | ask hs request _ ih => exact fun own t => traced_ask hs.numbered ih request

/-- The desk of a device in a reachable scene is sourced for all devices that are there. -/
theorem Reachable.sourced (hs : s.Reachable) {own peer : NodeId} {t other : Station R}
    (ht : s.stations[own]? = some t) (hother : s.stations[peer]? = some other) :
    (s.desk t).Sourced t.device.id other.device := by
  rintro search ⟨b, hb, hsearch⟩
  obtain ⟨-, hkept⟩ := hs.upkept ht
  obtain ⟨peer', other', hother', hkey, hmade⟩ := hkept _ b search hb hsearch
  obtain ⟨-, hpeer⟩ := NodeId.keyTo_inj.mp hkey
  rw [hs.id_eq hother] at hpeer
  obtain rfl := Option.some.inj (hother.symm.trans (hpeer ▸ hother'))
  rw [hs.id_eq ht]
  exact hmade

/-- So bundles are served on good ground, as far as flat matrices fit the machine. -/
theorem Reachable.founded (hs : s.Reachable) {own : NodeId} {t : Station R}
    (ht : s.stations[own]? = some t) {n : ℕ} {peer : Fin n → NodeId} {other : Fin n → Station R}
    (hother : ∀ i, s.stations[peer i]? = some (other i))
    (hfits : ∀ i, t.device.array.panel.size.count * (other i).device.array.panel.size.count <
      UInt64.size) :
    (s.desk t).Founded t.device.id fun i => (other i).device where
  panels := fun i j hid => by
    rw [hs.id_eq (hother i), hs.id_eq (hother j)] at hid
    have hsame := hother j
    rw [← hid, hother i] at hsame
    rw [Option.some.inj hsame]
  addressable := fun i => ⟨(hs.upkept (hother i)).1, (hs.upkept ht).1, hfits i⟩
  sourced := fun i => hs.sourced ht (hother i)

end Scene

end RadioChannel
