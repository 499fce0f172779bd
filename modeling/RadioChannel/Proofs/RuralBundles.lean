import RadioChannel.Proofs.MatchedScenes
import RadioChannel.Proofs.ServedBundles

/-!
# Bundles in the country

In the country every channel can be drawn. So a device that searches codebooks and expects noise takes
up any bundle of devices at other places, as far as its panel has a beam for each of them. This is seen
at a steeple that serves a tractor and a barn.
-/

namespace RadioChannel

open ExactScalars

namespace Scene

section After

variable {R : Type} [Scalar R] {settings : SceneSettings R} {start : Scene R} {own : NodeId}
variable {t : Station R}

/-- After any requests all stations are traced. -/
theorem traced_after (hstart : ofSettings settings = .ok start) (past : List (Request R))
    (ht : (start.after past).stations[own]? = some t) : (start.after past).Traced own t := by
  induction past generalizing own t with
  | nil =>
    rw [after, stations_ofSettings hstart] at ht
    simp at ht
  | cons request past ih =>
    exact traced_ask (numbered_after hstart past) (fun own t => ih) request ht

end After

/-! ## Bundles that a scene can serve -/

/-- What a device of a scene in the country needs to serve a bundle of peers. -/
structure Serviceable {n : ℕ} (s : Scene ℝ) (own : NodeId) (t : Station ℝ) (peer : Fin n → NodeId)
    (u : Fin n → Station ℝ) : Prop where
  scenario : s.evaluator.generator.scenario = .ruralMacro
  carrier : s.evaluator.generator.frequency ≠ 0
  /-- The device is there, searches codebooks and expects noise. -/
  station : s.stations[own]? = some t
  strategy : t.engine.strategy ≠ .geometric
  noise : 0 < t.engine.noisePower
  /-- The peers are there, at other places. -/
  peers : ∀ i, s.stations[peer i]? = some (u i)
  apart : ∀ i, t.device.endpoint.position ≠ (u i).device.endpoint.position
  /-- All of them radiate in beams. -/
  beam : t.device.array.omni = false
  beams : ∀ i, (u i).device.array.omni = false
  /-- The device has a beam for each peer, and the flat matrices fit the machine. -/
  count : n ≤ t.device.array.panel.size.count
  fits : ∀ i, t.device.array.panel.size.count * (u i).device.array.panel.size.count < UInt64.size

variable {settings : SceneSettings ℝ} {start : Scene ℝ} {past : List (Request ℝ)} {own : NodeId}
variable {t : Station ℝ} {n : ℕ} {peer : Fin n → NodeId} {u : Fin n → Station ℝ}

theorem Serviceable.ne (h : (start.after past).Serviceable own t peer u) (i : Fin n) : own ≠ peer i := by
  intro heq
  have hsame := h.peers i
  rw [← heq, h.station] at hsame
  exact h.apart i (by rw [Option.some.inj hsame])

theorem Serviceable.servable (h : (start.after past).Serviceable own t peer u)
    (hstart : ofSettings settings = .ok start) (hequipped : (start.after past).Equipped) :
    BeamDesk.Servable t.device.array.panel (∃ i, · = (u i).device) where
  unique := by
    rintro _ _ ⟨i, rfl⟩ ⟨j, rfl⟩ hid
    have hnumbered := numbered_after hstart past
    rw [hnumbered _ _ (h.peers i), hnumbered _ _ (h.peers j)] at hid
    have hsame := h.peers j
    rw [← hid, h.peers i] at hsame
    rw [Option.some.inj hsame]
  addressable := by
    rintro _ ⟨i, rfl⟩
    exact ⟨(traced_after hstart past (h.peers i)).sides, (traced_after hstart past h.station).sides,
      h.fits i⟩
  elements := Nat.mul_pos (hequipped _ _ h.station).1 (hequipped _ _ h.station).2
  receiving := by
    rintro _ ⟨i, rfl⟩
    exact Nat.mul_pos (hequipped _ _ (h.peers i)).1 (hequipped _ _ (h.peers i)).2

/-- After any requests the desk of a device that searches codebooks is ready for its peers. -/
theorem Serviceable.ready (h : (start.after past).Serviceable own t peer u)
    (hstart : ofSettings settings = .ok start) (hequipped : (start.after past).Equipped) :
    BeamDesk.Ready (fun v => v.generator.Rural (start.after past).elements?) t.device.endpoint.id
      t.device.array.panel t.engine (∃ i, · = (u i).device) (fun _ _ => True)
      ((start.after past).desk t) where
  evaluator := ⟨h.scenario, by rw [Bool.eq_false_iff, ne_eq, beq_iff, zero_eq]; exact h.carrier,
    (matched_after hstart past hequipped).evaluator⟩
  settings := rfl
  panel := rfl
  omni := h.beam
  searched := by
    rintro _ ⟨i, rfl⟩ b hb
    have hnumbered := numbered_after hstart past
    have hfit : b.search? ≠ none := fun hnone => h.strategy
      ((((matched_after hstart past hequipped).station own t h.station).engine _ b hb).search.mp hnone)
    obtain ⟨search, hsearch⟩ := Option.ne_none_iff_exists'.mp hfit
    -- the peer of the entry is the one that is asked about
    obtain ⟨peer', other, hother, hkey, m, hmade⟩ :=
      (traced_after hstart past h.station).upkept.2 _ b search hb hsearch
    obtain ⟨-, hpeer⟩ := NodeId.keyTo_inj.mp hkey
    have hid : (u i).device.id = peer i := hnumbered _ _ (h.peers i)
    rw [← hpeer, hid, h.peers i] at hother
    obtain rfl := Option.some.inj hother
    have hown : t.device.endpoint.id = own := hnumbered _ _ h.station
    rw [hown]
    exact ⟨search, hsearch, m, hmade, trivial⟩

/-- In the country a bundle is always taken up. -/
theorem Serviceable.taken_up (h : (start.after past).Serviceable own t peer u)
    (hstart : ofSettings settings = .ok start) (hequipped : (start.after past).Equipped)
    (layer : Fin n → UInt8) :
    ∃ desk, desk.array.panel = t.device.array.panel ∧
      (Bundle.serve (start.after past).now (start.after past).loss t.device.endpoint
        (List.ofFn fun i => (u i).device) (List.ofFn layer)).run ((start.after past).desk t) =
          (.ok (), desk) ∧
      (setBundle own (List.ofFn peer) (List.ofFn layer)).run (start.after past) =
        (.ok (), (start.after past).withDesk own t desk) := by
  have hmatched := matched_after hstart past hequipped
  have hanswering : Evaluator.Answering (fun v => v.generator.Rural (start.after past).elements?)
      (start.after past).now t.device.endpoint t.device.array.panel t.engine.grid
      (∃ i, · = (u i).device) (fun _ _ => True) fun _ _ _ _ => True := by
    refine Evaluator.answering_rural (hmatched.known hequipped h.station).placed fun d hd => ?_
    obtain ⟨i, rfl⟩ := hd
    exact ⟨(hmatched.known hequipped (h.peers i)).placed, Vec3.apart_exact.mpr (h.apart i), h.beams i⟩
  obtain ⟨_, desk, hserved, -, hready⟩ := Bundle.answers_serve (h.servable hstart hequipped)
    (fun i => ⟨i, rfl⟩) hanswering h.count h.noise h.strategy List.length_ofFn _
    (h.ready hstart hequipped)
  refine ⟨desk, hready.panel, hserved, ?_⟩
  have hne : own ∉ List.ofFn peer := by
    rw [List.mem_ofFn]
    exact fun ⟨i, hi⟩ => h.ne i hi.symm
  rw [run_setBundle h.station hne (forall₂_ofFn h.peers), List.map_ofFn, run_atDesk]
  exact congrArg (fun r => (r.1, (start.after past).withDesk own t r.2)) hserved

/-! ## A steeple, a tractor and a barn -/

section Village

/-- A panel of two columns with a number of rows. -/
noncomputable def villagePanel (rows : UInt32) : PanelSettings ℝ :=
  { PanelSettings.standard with columns := 2, rows := rows }

/-- Beams of a strategy; noise weighs as much as what is heard. -/
noncomputable def villageBeams (strategy : Strategy) : BeamSettings ℝ :=
  { countryBeams with strategy := strategy.name, noisePower := 1 }

open Scalar in
/-- A steeple with four antennas. -/
noncomputable def steeple : Device ℝ := ⟨⟨⟨1⟩, ⟨0, 0, 25⟩, .zero⟩, .ofPanel (.ofSize 2 2)⟩

open Scalar in
/-- A tractor with two antennas, which is parked. -/
noncomputable def tractor : Device ℝ := ⟨⟨⟨2⟩, ⟨40, 10, 1⟩, .zero⟩, .ofPanel (.ofSize 2 1)⟩

open Scalar in
/-- A barn with two antennas. -/
noncomputable def barn : Device ℝ := ⟨⟨⟨3⟩, ⟨-30, 50, 4⟩, .zero⟩, .ofPanel (.ofSize 2 1)⟩

/-- The three of them are added, all with one strategy. -/
noncomputable def building (strategy : Strategy) : List (Request ℝ) :=
  [.addDevice ⟨3⟩ barn.endpoint.position (villagePanel 1) (villageBeams strategy),
    .addDevice ⟨2⟩ tractor.endpoint.position (villagePanel 1) (villageBeams strategy),
    .addDevice ⟨1⟩ steeple.endpoint.position (villagePanel 2) (villageBeams strategy)]

/-- Then the steeple takes up a bundle of the other two, on layers with gaps. -/
noncomputable def bundling (strategy : Strategy) : List (Request ℝ) :=
  .setBundle ⟨1⟩ [⟨2⟩, ⟨3⟩] [5, 2] :: building strategy

open Scalar in
/-- The tractor on its way. -/
noncomputable def ploughing : Endpoint ℝ := ⟨⟨2⟩, ⟨60, -20, 1⟩, ⟨2, -1, 0⟩⟩

/-- And then the tractor drives on. -/
noncomputable def driving (strategy : Strategy) : List (Request ℝ) :=
  .setMobility ⟨2⟩ ploughing.position ploughing.velocity :: bundling strategy

/-- The engine of all three. -/
noncomputable def villageEngine (strategy : Strategy) (grid : SpectrumGrid ℝ) : BeamEngine ℝ where
  strategy := strategy
  refresh := 0
  noisePower := 1
  referencePower := countryBeams.referencePower
  grid := grid
  cache := ∅

variable {start : Scene ℝ} (strategy : Strategy)

theorem ofSettings_villageBeams (grid : SpectrumGrid ℝ) :
    BeamEngine.ofSettings (villageBeams strategy) grid = .ok (villageEngine strategy grid) :=
  ofSettings_beams (villageBeams strategy) strategy (Strategy.ofName_name strategy) rfl grid

theorem after_building (hempty : start.stations = ∅) :
    start.after (building strategy) =
      ((start.put ⟨1⟩ ⟨steeple, villageEngine strategy start.grid⟩).put ⟨2⟩
        ⟨tractor, villageEngine strategy start.grid⟩).put ⟨3⟩
          ⟨barn, villageEngine strategy start.grid⟩ := by
  have hengine := ofSettings_villageBeams strategy start.grid
  have hfirst := after_additions hempty (rfl : Panel.ofSettings (villagePanel 2) = .ok (.ofSize 2 2))
    (rfl : Panel.ofSettings (villagePanel 1) = .ok (.ofSize 2 1)) hengine hengine
    (by decide : (⟨1⟩ : NodeId) ≠ ⟨2⟩) steeple.endpoint.position tractor.endpoint.position
  obtain ⟨s, hs⟩ : ∃ s, s = (start.put ⟨1⟩ ⟨steeple, villageEngine strategy start.grid⟩).put ⟨2⟩
    ⟨tractor, villageEngine strategy start.grid⟩ := ⟨_, rfl⟩
  have hnew : s.stations[(⟨3⟩ : NodeId)]? = none := by
    rw [hs, stations_put, if_neg (by decide), stations_put, if_neg (by decide), hempty]
    simp
  have hgrid : s.grid = start.grid := by
    rw [hs]
    rfl
  have hthird := run_ask_addDevice hnew (rfl : Panel.ofSettings (villagePanel 1) = .ok (.ofSize 2 1))
    (by rw [hgrid]; exact hengine) barn.endpoint.position
  rw [hs] at hthird
  rw [building, after, hfirst]
  exact congrArg Prod.snd hthird

/-- Whatever is added has elements. -/
theorem equips_driving : ∀ request ∈ driving strategy, request.Equips := by
  intro request hrequest
  simp only [driving, bundling, building, List.mem_cons, List.not_mem_nil, or_false] at hrequest
  rcases hrequest with rfl | rfl | rfl | rfl | rfl
  · trivial
  · trivial
  · exact ⟨by decide, by decide⟩
  · exact ⟨by decide, by decide⟩
  · exact ⟨by decide, by decide⟩

/-- The scene of the village: the steeple has taken up its bundle, and the tractor has driven on. -/
structure Village (strategy : Strategy) (start : Scene ℝ) (desk : BeamDesk ℝ) : Prop where
  described : ofSettings country = .ok start
  equipped : (start.after (driving strategy)).Equipped
  panel : desk.array.panel = steeple.array.panel
  served : (Bundle.serve (start.after (building strategy)).now (start.after (building strategy)).loss
    steeple.endpoint (List.ofFn ![tractor, barn]) (List.ofFn ![5, 2])).run ((start.after (building strategy)).desk
      ⟨steeple, villageEngine strategy start.grid⟩) = (.ok (), desk)
  taken : (ask (.setBundle ⟨1⟩ [⟨2⟩, ⟨3⟩] [5, 2])).run (start.after (building strategy)) =
    (.ok .done, start.after (bundling strategy))
  server : (start.after (driving strategy)).stations[(⟨1⟩ : NodeId)]? =
    some ⟨{ steeple with array := desk.array }, desk.engine⟩
  driven : (start.after (driving strategy)).stations[(⟨2⟩ : NodeId)]? =
    some ⟨{ tractor with endpoint := ploughing }, villageEngine strategy start.grid⟩
  left : (start.after (driving strategy)).stations[(⟨3⟩ : NodeId)]? =
    some ⟨barn, villageEngine strategy start.grid⟩

theorem serviceable_building (hempty : start.stations = ∅)
    (hevaluator : start.evaluator =
      .ofGenerator (.fresh .ruralMacro 28000000000 0 1) (.table .standard))
    (hstrategy : strategy ≠ .geometric) :
    (start.after (building strategy)).Serviceable ⟨1⟩ ⟨steeple, villageEngine strategy start.grid⟩
      ![⟨2⟩, ⟨3⟩] ![⟨tractor, villageEngine strategy start.grid⟩,
        ⟨barn, villageEngine strategy start.grid⟩] := by
  have hbuilt := after_building strategy hempty
  have hgenerator : (start.after (building strategy)).evaluator.generator =
      .fresh .ruralMacro 28000000000 0 1 := by
    rw [hbuilt]
    exact congrArg Evaluator.generator hevaluator
  exact {
    scenario := by rw [hgenerator]; rfl
    carrier := by
      rw [hgenerator]
      change (28000000000 : ℝ) ≠ 0
      norm_num
    station := by
      rw [hbuilt, stations_put, if_neg (by decide), stations_put, if_neg (by decide), stations_put,
        if_pos rfl]
    strategy := hstrategy
    noise := by
      change (0 : ℝ) < 1
      exact one_pos
    peers := fun i => by
      match i with
      | 0 =>
        rw [hbuilt, stations_put, if_neg (by decide), stations_put]
        rfl
      | 1 =>
        rw [hbuilt, stations_put]
        rfl
    apart := fun i heq => by
      match i with
      | 0 =>
        have hx : steeple.endpoint.position.x = tractor.endpoint.position.x := congrArg Vec3.x heq
        simp only [steeple, tractor, zero_eq, numeral_eq] at hx
        norm_num at hx
      | 1 =>
        have hx : steeple.endpoint.position.x = barn.endpoint.position.x := congrArg Vec3.x heq
        simp only [steeple, barn, zero_eq, numeral_eq] at hx
        norm_num at hx
    beam := rfl
    beams := fun i => by
      match i with
      | 0 => rfl
      | 1 => rfl
    count := (by decide : 2 ≤ (⟨2, 2⟩ : PanelSize).count)
    fits := fun i => by
      have hfits : (⟨2, 2⟩ : PanelSize).count * (⟨2, 1⟩ : PanelSize).count < UInt64.size := by decide
      match i with
      | 0 => exact hfits
      | 1 => exact hfits }

theorem exists_village (hstrategy : strategy ≠ .geometric) : ∃ start desk, Village strategy start desk := by
  obtain ⟨start, hstart, hempty, hevaluator⟩ := ofSettings_country
  have hequipped : (start.after (building strategy)).Equipped :=
    equipped_after hempty fun request hrequest => equips_driving strategy request
      (List.mem_cons_of_mem _ (List.mem_cons_of_mem _ hrequest))
  have hserviceable := serviceable_building strategy hempty hevaluator hstrategy
  have hdevices : (fun i => ((![⟨tractor, villageEngine strategy start.grid⟩,
      ⟨barn, villageEngine strategy start.grid⟩] : Fin 2 → Station ℝ) i).device) = ![tractor, barn] := by
    funext i
    match i with
    | 0 => rfl
    | 1 => rfl
  obtain ⟨desk, hpanel, hserved, htaken⟩ := hserviceable.taken_up hstart hequipped ![5, 2]
  rw [hdevices] at hserved
  have hasked : (ask (.setBundle ⟨1⟩ [⟨2⟩, ⟨3⟩] [5, 2])).run (start.after (building strategy)) =
      (.ok .done, (start.after (building strategy)).withDesk ⟨1⟩
        ⟨steeple, villageEngine strategy start.grid⟩ desk) := by
    have hpeers : List.ofFn (![⟨2⟩, ⟨3⟩] : Fin 2 → NodeId) = [⟨2⟩, ⟨3⟩] := rfl
    have hlayers : List.ofFn (![5, 2] : Fin 2 → UInt8) = [5, 2] := rfl
    rw [hpeers, hlayers] at htaken
    rw [ask, Action.run_map, htaken]
    rfl
  have hbundled : start.after (bundling strategy) = (start.after (building strategy)).withDesk ⟨1⟩
      ⟨steeple, villageEngine strategy start.grid⟩ desk := by
    rw [bundling, after, hasked]
  have hserver : (start.after (bundling strategy)).stations[(⟨1⟩ : NodeId)]? =
      some ⟨{ steeple with array := desk.array }, desk.engine⟩ := by
    rw [hbundled, stations_withDesk]
  have htractor : (start.after (bundling strategy)).stations[(⟨2⟩ : NodeId)]? =
      some ⟨tractor, villageEngine strategy start.grid⟩ := by
    rw [hbundled, withDesk, stations_put, if_neg (by decide)]
    exact hserviceable.peers 0
  have hbarn : (start.after (bundling strategy)).stations[(⟨3⟩ : NodeId)]? =
      some ⟨barn, villageEngine strategy start.grid⟩ := by
    rw [hbundled, withDesk, stations_put, if_neg (by decide)]
    exact hserviceable.peers 1
  have hdriven : start.after (driving strategy) = (start.after (bundling strategy)).put ⟨2⟩
      ⟨{ tractor with endpoint := ploughing }, villageEngine strategy start.grid⟩ := by
    rw [driving, after, ask, Action.run_map, setMobility, run_alter, htractor]
    rfl
  exact ⟨start, desk, {
    described := hstart
    equipped := equipped_after hempty (equips_driving strategy)
    panel := hpanel
    served := hserved
    taken := by rw [hasked, hbundled]
    server := by rw [hdriven, stations_put, if_neg (by decide)]; exact hserver
    driven := by rw [hdriven, stations_put, if_pos rfl]
    left := by rw [hdriven, stations_put, if_neg (by decide)]; exact hbarn }⟩

end Village

end Scene

end RadioChannel
