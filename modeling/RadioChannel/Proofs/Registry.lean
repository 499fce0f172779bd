import RadioChannel.Proofs.Failures
import RadioChannel.Proofs.Frames
import RadioChannel.Proofs.Overrides

/-!
# Devices and engines in two tables

A scene keeps each device together with its engine. A registry keeps the two in tables of their own, and
takes a device out of its table while the beams of that device are selected, so that its peers are looked
up among the others. Whatever comes of the selection, the device is put back; only where a rule is
broken nobody does. Asked the same, a registry and a scene answer the same and keep the same devices.
-/

namespace RadioChannel

open Scalar

variable {R : Type}

/-- Devices on one channel and their engines, each in a table by the numbers of the devices. -/
structure Registry (R : Type) where
  clock : Clock
  grid : SpectrumGrid R
  evaluator : Evaluator R
  conditions : ConditionTable
  loss : FreeSpace R
  devices : Std.HashMap NodeId (Device R)
  engines : Std.HashMap NodeId (BeamEngine R)

namespace Registry

/-- What a table holds for a device that has to be there. -/
def lookUp {α : Type} (table : Std.HashMap NodeId α) (id : NodeId) : Except (Fault R) α :=
  match table[id]? with
  | some x => .ok x
  | none => .error (.unknownDevice id)

def putDevice (r : Registry R) (id : NodeId) (device : Device R) : Registry R :=
  { r with devices := r.devices.insert id device }

def putEngine (r : Registry R) (id : NodeId) (engine : BeamEngine R) : Registry R :=
  { r with engines := r.engines.insert id engine }

def takeDevice (r : Registry R) (id : NodeId) : Registry R :=
  { r with devices := r.devices.erase id }

/-! ## Steps -/

def alter (id : NodeId) (f : Device R → Device R) : Action R (Registry R) Unit := do
  let r ← Action.get
  let device ← (lookUp r.devices id : Except (Fault R) (Device R))
  Action.modify (·.putDevice id (f device))

def setCondition (a b : NodeId) (c : Condition) : Action R (Registry R) Unit := do
  let r ← Action.get
  let da ← (lookUp r.devices a : Except (Fault R) (Device R))
  let db ← (lookUp r.devices b : Except (Fault R) (Device R))
  let conditions := r.conditions.set da.id db.id c
  Action.modify fun r => { r with
    conditions := conditions
    evaluator := { r.evaluator with model := .table conditions } }

def evaluate {α : Type} (x : Action R (Evaluator R) α) : Action R (Registry R) α :=
  Action.on Registry.evaluator (fun e r => { r with evaluator := e }) x

/-- Work on a device that was taken out. Its engine works in its place; the device is put back when the
work is over, whether it failed or not. Work that breaks a rule is never over. -/
def outside (own : NodeId) (device : Device R) (engine : BeamEngine R)
    (x : Action R (BeamDesk R) Unit) : Action R (Registry R) Unit := fun r =>
  match x.run ⟨engine, device.array, r.evaluator⟩ with
  | (.error (.breach rule), desk) =>
    (.error (.breach rule), { r.putEngine own desk.engine with evaluator := desk.evaluator })
  | (outcome, desk) =>
    (outcome, { (r.putEngine own desk.engine).putDevice own { device with array := desk.array } with
      evaluator := desk.evaluator })

/-- Takes a device out for work that may look up the others. -/
def selecting (own : NodeId) (work : Registry R → Device R → Action R (BeamDesk R) Unit) :
    Action R (Registry R) Unit := do
  let r ← Action.get
  let engine ← (lookUp r.engines own : Except (Fault R) (BeamEngine R))
  let device ← (lookUp r.devices own : Except (Fault R) (Device R))
  Action.modify (·.takeDevice own)
  let others ← Action.get
  outside own device engine (work others device)

/-! ## Requests -/

section Requests

variable [Scalar R]

/-- The registry that settings describe, without devices. -/
def ofSettings (s : SceneSettings R) : Except (Fault R) (Registry R) := do
  let generator ← Generator.ofSettings s.channel
  let grid ← SpectrumGrid.uniform s.channel.frequency s.bandwidth s.subbands
  return {
    clock := .start
    grid := grid
    evaluator := .ofGenerator generator (.table .standard)
    conditions := .standard
    loss := ⟨s.channel.frequency⟩
    devices := ∅
    engines := ∅ }

def addDevice (id : NodeId) (position : Vec3 R) (panel : PanelSettings R) (beams : BeamSettings R) :
    Action R (Registry R) Unit := do
  let r ← Action.get
  if r.devices.contains id then Action.fail (.duplicateDevice id)
  else
    let panel ← Panel.ofSettings panel
    let engine ← BeamEngine.ofSettings beams r.grid
    Action.modify (·.putDevice id ⟨⟨id, position, .zero⟩, .ofPanel panel⟩)
    Action.modify (·.putEngine id engine)

def setBeam (own peer : NodeId) (layer : UInt8) : Action R (Registry R) Unit :=
  if own = peer then Action.fail (.coincident own peer)
  else selecting own fun r device => do
    let other ← (lookUp r.devices peer : Except (Fault R) (Device R))
    BeamDesk.point r.clock.now device.endpoint other layer

def setBundle (own : NodeId) (peers : List NodeId) (layers : List UInt8) :
    Action R (Registry R) Unit :=
  if peers.contains own then Action.fail (.coincident own own)
  else selecting own fun r device => do
    let others ← (peers.mapM (lookUp r.devices) : Except (Fault R) (List (Device R)))
    Bundle.serve r.clock.now r.loss device.endpoint others layers

def receivedSpectrum (tx rx : NodeId) (power : R) (txLayer rxLayer : UInt8) :
    Action R (Registry R) (Spectrum R) := do
  let r ← Action.get
  let a ← (lookUp r.devices tx : Except (Fault R) (Device R))
  let b ← (lookUp r.devices rx : Except (Fault R) (Device R))
  evaluate (Evaluator.receivedSpectrum r.clock.now (.constant r.grid power) a b txLayer rxLayer)

def channelSummary (a b : NodeId) : Action R (Registry R) (ChannelSummary R) := do
  let r ← Action.get
  let da ← (lookUp r.devices a : Except (Fault R) (Device R))
  let db ← (lookUp r.devices b : Except (Fault R) (Device R))
  return .ofLink (← evaluate (Evaluator.channel r.clock.now da db))

/-- One request. -/
def ask : Scene.Request R → Action R (Registry R) (Scene.Answer R)
  | .addDevice id position panel beams => (fun _ => .done) <$> addDevice id position panel beams
  | .setMobility id position velocity => (fun _ => .done) <$>
    alter id fun device => { device with endpoint := ⟨device.endpoint.id, position, velocity⟩ }
  | .setOmni id => (fun _ => .done) <$>
    alter id fun device => { device with array := device.array.setOmni }
  | .setCondition a b condition => (fun _ => .done) <$> setCondition a b condition
  | .advanceTo t => (fun _ => .done) <$> Action.modify fun r => { r with clock := r.clock.set t }
  | .setBeam own peer layer => (fun _ => .done) <$> setBeam own peer layer
  | .setBundle own peers layers => (fun _ => .done) <$> setBundle own peers layers
  | .receivedSpectrum tx rx power txLayer rxLayer =>
    .spectrum <$> receivedSpectrum tx rx power txLayer rxLayer
  | .channelSummary a b => .summary <$> channelSummary a b

/-- The registry after requests, of which the last one is listed first. -/
def after (start : Registry R) : List (Scene.Request R) → Registry R
  | [] => start
  | request :: past => ((ask request).run (after start past)).2

end Requests

/-! ## Registries of scenes -/

/-- A registry that keeps what a scene keeps. -/
structure Shows (r : Registry R) (s : Scene R) : Prop where
  clock : r.clock = s.clock
  grid : r.grid = s.grid
  evaluator : r.evaluator = s.evaluator
  conditions : r.conditions = s.conditions
  loss : r.loss = s.loss
  devices : ∀ id : NodeId, r.devices[id]? = s.device? id
  engines : ∀ id : NodeId, r.engines[id]? = s.stations[id]?.map Station.engine

/-- A step of the registry answers as one of the scene does, and shows what that one leaves unless it
broke a rule. -/
def Follows {α : Type} (r : Registry R) (s : Scene R) (x : Action R (Registry R) α)
    (y : Action R (Scene R) α) : Prop :=
  (x.run r).1 = (y.run s).1 ∧
    ((∀ rule, (y.run s).1 ≠ .error (.breach rule)) → (x.run r).2.Shows (y.run s).2)

section Follows

variable {α β : Type} {r : Registry R} {s : Scene R} {own id : NodeId} {t : Station R}

theorem Follows.map {x : Action R (Registry R) α} {y : Action R (Scene R) α}
    (h : r.Follows s x y) (f : α → β) : r.Follows s (f <$> x) (f <$> y) := by
  obtain ⟨hanswer, hshows⟩ := h
  unfold Follows
  rw [Action.run_map, Action.run_map, hanswer]
  refine ⟨rfl, fun hrules => hshows fun rule hrule => hrules rule ?_⟩
  rw [hrule]
  rfl

theorem Shows.fail (h : r.Shows s) (e : Fault R) :
    r.Follows s (Action.fail e : Action R (Registry R) α) (Action.fail e) := ⟨rfl, fun _ => h⟩

theorem follows_get_bind {x : Registry R → Action R (Registry R) α}
    {y : Scene R → Action R (Scene R) α} (hxy : r.Follows s (x r) (y s)) :
    r.Follows s (Action.get >>= x) (Action.get >>= y) := hxy

theorem follows_of_get_bind {x : Action R (Registry R) α} {y : Scene R → Action R (Scene R) α}
    (hxy : r.Follows s x (y s)) : r.Follows s x (Action.get >>= y) := hxy

theorem Shows.lift_bind (h : r.Shows s) {e : Except (Fault R) α}
    {x : α → Action R (Registry R) β} {y : α → Action R (Scene R) β}
    (hxy : ∀ a, e = .ok a → r.Follows s (x a) (y a)) :
    r.Follows s (liftM e >>= x) (liftM e >>= y) := by
  cases e with
  | error e => exact h.fail e
  | ok a => exact hxy a rfl

theorem Shows.mem_devices_iff (h : r.Shows s) (id : NodeId) : id ∈ r.devices ↔ id ∈ r.engines := by
  rw [Std.HashMap.mem_iff_isSome_getElem?, Std.HashMap.mem_iff_isSome_getElem?, h.devices,
    h.engines, Scene.device?, Option.isSome_map, Option.isSome_map]

theorem Shows.size_devices (h : r.Shows s) : r.devices.size = s.deviceCount := by
  have hsame : r.devices.Equiv (s.stations.map fun _ => Station.device) := by
    refine Std.HashMap.Equiv.of_forall_getElem?_eq fun id => ?_
    rw [h.devices, Std.HashMap.getElem?_map, Scene.device?]
  rw [hsame.size_eq, Std.HashMap.size_map, Scene.deviceCount]

theorem Shows.lookUp_devices (h : r.Shows s) (id : NodeId) :
    lookUp r.devices id = (s.station id).map Station.device := by
  unfold lookUp Scene.station
  rw [h.devices, Scene.device?]
  cases s.stations[id]? <;> rfl

theorem Shows.lookUp_engines (h : r.Shows s) (id : NodeId) :
    lookUp r.engines id = (s.station id).map Station.engine := by
  unfold lookUp Scene.station
  rw [h.engines]
  cases s.stations[id]? <;> rfl

/-- Looking up a device of the registry is looking up a station of the scene. -/
theorem Shows.device_bind (h : r.Shows s) {x : Device R → Action R (Registry R) β}
    {y : Station R → Action R (Scene R) β}
    (hxy : ∀ t, s.stations[id]? = some t → r.Follows s (x t.device) (y t)) :
    r.Follows s (liftM (lookUp r.devices id : Except (Fault R) (Device R)) >>= x)
      (liftM (s.station id) >>= y) := by
  rw [h.lookUp_devices]
  cases hid : s.station id with
  | error e => exact h.fail e
  | ok t => exact hxy t (Scene.station_ok.mp hid)

theorem Shows.evaluate (h : r.Shows s) (x : Action R (Evaluator R) α) :
    r.Follows s (Registry.evaluate x) (Scene.evaluate x) := by
  unfold Follows Registry.evaluate Scene.evaluate
  rw [Action.run_on, Action.run_on, h.evaluator]
  exact ⟨rfl, fun _ => ⟨h.clock, h.grid, rfl, h.conditions, h.loss, h.devices, h.engines⟩⟩

/-- A device that is changed in its table is changed in its station. -/
theorem Shows.alter (h : r.Shows s) (id : NodeId) {f : Device R → Device R}
    {g : Station R → Station R} (hdevice : ∀ t, (g t).device = f t.device)
    (hengine : ∀ t, (g t).engine = t.engine) :
    r.Follows s (alter id f) (Scene.alter id g) := by
  refine follows_get_bind (h.device_bind fun t ht => ⟨rfl, fun _ => ?_⟩)
  refine ⟨h.clock, h.grid, h.evaluator, h.conditions, h.loss, fun other => ?_, fun other => ?_⟩
  · change (r.devices.insert id _)[other]? = (s.stations.insert id _)[other]?.map Station.device
    rw [Std.HashMap.getElem?_insert, Std.HashMap.getElem?_insert, h.devices, ← hdevice]
    split <;> rfl
  · change r.engines[other]? = (s.stations.insert id _)[other]?.map Station.engine
    rw [Std.HashMap.getElem?_insert, h.engines]
    split
    · next hother =>
      obtain rfl : id = other := by simpa using hother
      rw [ht, Option.map_some, Option.map_some, hengine]
    · rfl

theorem Shows.setCondition (h : r.Shows s) (a b : NodeId) (c : Condition) :
    r.Follows s (setCondition a b c) (Scene.setCondition a b c) := by
  refine follows_get_bind (h.device_bind fun ta _ => h.device_bind fun tb _ => ⟨rfl, fun _ => ?_⟩)
  refine ⟨h.clock, h.grid, ?_, ?_, h.loss, h.devices, h.engines⟩
  · change { r.evaluator with model := .table (r.conditions.set ta.device.id tb.device.id c) } =
      { s.evaluator with model := .table (s.conditions.set ta.device.id tb.device.id c) }
    rw [h.evaluator, h.conditions]
  · change r.conditions.set _ _ _ = s.conditions.set _ _ _
    rw [h.conditions]

/-! ## Devices that were taken out -/

theorem Shows.putBack (h : r.Shows s) (desk : BeamDesk R) :
    Shows { ((r.takeDevice own).putEngine own desk.engine).putDevice own
        { t.device with array := desk.array } with evaluator := desk.evaluator }
      (s.withDesk own t desk) := by
  refine ⟨h.clock, h.grid, rfl, h.conditions, h.loss, fun other => ?_, fun other => ?_⟩
  · change ((r.devices.erase own).insert own _)[other]? =
      (s.stations.insert own _)[other]?.map Station.device
    rw [Std.HashMap.getElem?_insert, Std.HashMap.getElem?_insert]
    split
    · rfl
    · next hother => rw [Std.HashMap.getElem?_erase, if_neg hother, h.devices, Scene.device?]
  · change (r.engines.insert own _)[other]? = (s.stations.insert own _)[other]?.map Station.engine
    rw [Std.HashMap.getElem?_insert, Std.HashMap.getElem?_insert, h.engines]
    split <;> rfl

theorem Shows.of_untouched (ht : s.stations[own]? = some t)
    (h : r.Shows (s.withDesk own t (s.desk t))) : r.Shows s := by
  have hstations (other : NodeId) :
      (s.withDesk own t (s.desk t)).stations[other]? = s.stations[other]? := by
    change (s.stations.insert own t)[other]? = _
    rw [Std.HashMap.getElem?_insert]
    split
    · next hother => rw [← ht, (by simpa using hother : own = other)]
    · rfl
  refine ⟨h.clock, h.grid, h.evaluator, h.conditions, h.loss, fun other => ?_, fun other => ?_⟩
  · rw [h.devices, Scene.device?, hstations, Scene.device?]
  · rw [h.engines, hstations]

/-- Work outside is work at the desk, and the device is back after it. -/
theorem Shows.outside (h : r.Shows s) (own : NodeId) (t : Station R)
    (x : Action R (BeamDesk R) Unit) :
    ((outside own t.device t.engine x).run (r.takeDevice own)).1 = (x.run (s.desk t)).1 ∧
      ((∀ rule, (x.run (s.desk t)).1 ≠ .error (.breach rule)) →
        ((outside own t.device t.engine x).run (r.takeDevice own)).2.Shows
          (s.withDesk own t (x.run (s.desk t)).2)) := by
  have hdesk : (⟨t.engine, t.device.array, (r.takeDevice own).evaluator⟩ : BeamDesk R) =
      s.desk t := by
    rw [Scene.desk, ← h.evaluator]
    rfl
  have hrun : (Registry.outside own t.device t.engine x).run (r.takeDevice own) =
      match x.run (s.desk t) with
      | (.error (.breach rule), desk) => (.error (.breach rule),
        { (r.takeDevice own).putEngine own desk.engine with evaluator := desk.evaluator })
      | (outcome, desk) => (outcome,
        { ((r.takeDevice own).putEngine own desk.engine).putDevice own
          { t.device with array := desk.array } with evaluator := desk.evaluator }) := by
    rw [← hdesk]
    rfl
  rw [hrun]
  rcases x.run (s.desk t) with ⟨outcome, desk⟩
  split
  · next rule desk' heq =>
    cases heq
    exact ⟨rfl, fun hrules => absurd rfl (hrules rule)⟩
  · next heq =>
    cases heq
    exact ⟨rfl, fun _ => h.putBack desk⟩

/-- Among the others a peer is looked up as before. -/
theorem Shows.lookUp_others (h : r.Shows s) {own id : NodeId} (hne : id ≠ own) :
    lookUp (r.takeDevice own).devices id = (s.station id).map Station.device := by
  rw [← h.lookUp_devices, lookUp, lookUp, takeDevice, Std.HashMap.getElem?_erase,
    if_neg (by simpa using Ne.symm hne)]

theorem lift_map_bind {σ γ : Type} (e : Except (Fault R) α) (f : α → β)
    (x : β → Action R σ γ) :
    (liftM (e.map f) : Action R σ β) >>= x = liftM e >>= fun a => x (f a) := by
  cases e <;> rfl

theorem Shows.run_selecting (h : r.Shows s) (ht : s.stations[own]? = some t)
    (work : Registry R → Device R → Action R (BeamDesk R) Unit) :
    (selecting own work).run r =
      (Registry.outside own t.device t.engine (work (r.takeDevice own) t.device)).run
        (r.takeDevice own) := by
  unfold selecting
  rw [Action.run_bind_of_ok (Action.run_get r), Action.run_bind, Action.run_liftExcept,
    h.lookUp_engines, Scene.station_ok.mpr ht]
  change (liftM (lookUp r.devices own : Except (Fault R) (Device R)) >>= _ :
    Action R (Registry R) Unit).run r = _
  rw [Action.run_bind, Action.run_liftExcept, h.lookUp_devices, Scene.station_ok.mpr ht]
  rfl

/-- Selecting beams outside the table is selecting them at the desk, also where a peer that is looked up
is not there. -/
theorem Shows.selecting (h : r.Shows s) {work : Registry R → Device R → Action R (BeamDesk R) Unit}
    {e : Except (Fault R) α} {y : Station R → α → Action R (BeamDesk R) Unit}
    (hwork : ∀ t, s.stations[own]? = some t →
      work (r.takeDevice own) t.device = liftM e >>= y t) :
    r.Follows s (selecting own work)
      (liftM (s.station own) >>= fun t => liftM e >>= fun a => Scene.atDesk own t (y t a)) := by
  cases ht : s.station own with
  | error fault =>
    refine ⟨?_, fun _ => ?_⟩
    all_goals
      unfold Registry.selecting
      rw [Action.run_bind_of_ok (Action.run_get r), Action.run_bind, Action.run_liftExcept,
        h.lookUp_engines, ht]
    · rfl
    · exact h
  | ok t =>
    have hstation := Scene.station_ok.mp ht
    obtain ⟨hanswer, hshows⟩ := h.outside own t (work (r.takeDevice own) t.device)
    unfold Follows
    rw [h.run_selecting hstation, hanswer]
    rw [hwork t hstation] at hshows ⊢
    cases e with
    | error fault => exact ⟨rfl, fun hrules => (hshows hrules).of_untouched hstation⟩
    | ok a => exact ⟨rfl, hshows⟩

end Follows

section Requests

variable [Scalar R] {r : Registry R} {s : Scene R}

theorem Shows.addDevice (h : r.Shows s) (id : NodeId) (position : Vec3 R)
    (panel : PanelSettings R) (beams : BeamSettings R) :
    r.Follows s (addDevice id position panel beams) (Scene.addDevice id position panel beams) := by
  refine follows_get_bind ?_
  have hcontains : r.devices.contains id = s.stations.contains id := by
    rw [Std.HashMap.contains_eq_isSome_getElem?, h.devices, Scene.device?, Option.isSome_map,
      Std.HashMap.contains_eq_isSome_getElem?]
  rw [hcontains, h.grid]
  split
  · exact h.fail _
  refine h.lift_bind fun p _ => h.lift_bind fun engine _ => ⟨rfl, fun _ => ?_⟩
  refine ⟨h.clock, h.grid, h.evaluator, h.conditions, h.loss, fun other => ?_, fun other => ?_⟩
  · change (r.devices.insert id _)[other]? = (s.stations.insert id _)[other]?.map Station.device
    rw [Std.HashMap.getElem?_insert, Std.HashMap.getElem?_insert, h.devices]
    split <;> rfl
  · change (r.engines.insert id _)[other]? = (s.stations.insert id _)[other]?.map Station.engine
    rw [Std.HashMap.getElem?_insert, Std.HashMap.getElem?_insert, h.engines]
    split <;> rfl

theorem Shows.setBeam (h : r.Shows s) (own peer : NodeId) (layer : UInt8) :
    r.Follows s (setBeam own peer layer) (Scene.setBeam own peer layer) := by
  unfold Registry.setBeam Scene.setBeam
  split
  · exact h.fail _
  next hne =>
  refine follows_of_get_bind (h.selecting fun t _ => ?_)
  rw [h.lookUp_others (Ne.symm hne), lift_map_bind, Scene.now, ← h.clock]
  rfl

theorem Shows.setBundle (h : r.Shows s) (own : NodeId) (peers : List NodeId)
    (layers : List UInt8) :
    r.Follows s (setBundle own peers layers) (Scene.setBundle own peers layers) := by
  unfold Registry.setBundle Scene.setBundle
  split
  · exact h.fail _
  next hne =>
  have hpeers : peers.mapM (lookUp (r.takeDevice own).devices) =
      (peers.mapM s.station).map (List.map Station.device) := by
    refine except_mapM_map fun peer hpeer => h.lookUp_others ?_
    rintro rfl
    exact hne (by simpa using hpeer)
  refine follows_of_get_bind (h.selecting fun t _ => ?_)
  rw [hpeers, lift_map_bind, Scene.now, ← h.clock, ← h.loss]
  rfl

theorem Shows.receivedSpectrum (h : r.Shows s) (tx rx : NodeId) (power : R)
    (txLayer rxLayer : UInt8) : r.Follows s (receivedSpectrum tx rx power txLayer rxLayer)
      (Scene.receivedSpectrum tx rx power txLayer rxLayer) := by
  refine follows_get_bind (h.device_bind fun a _ => h.device_bind fun b _ => ?_)
  rw [Scene.now, ← h.clock, ← h.grid]
  exact h.evaluate _

theorem Shows.channelSummary (h : r.Shows s) (a b : NodeId) :
    r.Follows s (channelSummary a b) (Scene.channelSummary a b) := by
  refine follows_get_bind (h.device_bind fun da _ => h.device_bind fun db _ => ?_)
  rw [Scene.now, ← h.clock, bind_pure_comp, bind_pure_comp]
  exact (h.evaluate _).map _

/-- A request is answered by the registry as it is by the scene. -/
theorem Shows.ask (h : r.Shows s) (request : Scene.Request R) :
    r.Follows s (ask request) (Scene.ask request) := by
  cases request with
  | addDevice id position panel beams => exact (h.addDevice id position panel beams).map _
  | setMobility id position velocity =>
    have halter : r.Follows s _ (Scene.setMobility id position velocity) :=
      h.alter id (f := fun device =>
        { device with endpoint := ⟨device.endpoint.id, position, velocity⟩ }) (fun _ => rfl) fun _ => rfl
    exact halter.map _
  | setOmni id =>
    have halter : r.Follows s _ (Scene.setOmni id) :=
      h.alter id (f := fun device => { device with array := device.array.setOmni })
        (fun _ => rfl) fun _ => rfl
    exact halter.map _
  | setCondition a b condition => exact (h.setCondition a b condition).map _
  | advanceTo t =>
    refine ⟨rfl, fun _ => ⟨?_, h.grid, h.evaluator, h.conditions, h.loss, h.devices, h.engines⟩⟩
    exact congrArg (Clock.set · t) h.clock
  | setBeam own peer layer => exact (h.setBeam own peer layer).map _
  | setBundle own peers layers => exact (h.setBundle own peers layers).map _
  | receivedSpectrum tx rx power txLayer rxLayer =>
    exact (h.receivedSpectrum tx rx power txLayer rxLayer).map _
  | channelSummary a b => exact (h.channelSummary a b).map _

/-! ## Runs -/

theorem exists_ofSettings {settings : SceneSettings R} (hs : Scene.ofSettings settings = .ok s) :
    ∃ r : Registry R, ofSettings settings = .ok r := by
  obtain ⟨generator, hgenerator, hs⟩ := except_bind_ok.mp hs
  obtain ⟨grid, hgrid, -⟩ := except_bind_ok.mp hs
  exact ⟨_, except_bind_ok.mpr ⟨generator, hgenerator, except_bind_ok.mpr ⟨grid, hgrid, rfl⟩⟩⟩

theorem shows_ofSettings {settings : SceneSettings R} (hs : Scene.ofSettings settings = .ok s)
    (hr : ofSettings settings = .ok r) : r.Shows s := by
  obtain ⟨generator, hgenerator, hs⟩ := except_bind_ok.mp hs
  obtain ⟨grid, hgrid, hs⟩ := except_bind_ok.mp hs
  obtain ⟨generator', hgenerator', hr⟩ := except_bind_ok.mp hr
  obtain ⟨grid', hgrid', hr⟩ := except_bind_ok.mp hr
  obtain rfl := Except.ok.inj (hgenerator.symm.trans hgenerator')
  obtain rfl := Except.ok.inj (hgrid.symm.trans hgrid')
  cases hs
  cases hr
  exact ⟨rfl, rfl, rfl, rfl, rfl, fun id => by simp [Scene.device?], fun id => by simp⟩

theorem Shows.after (h : r.Shows s) {past : List (Scene.Request R)} (hrules : s.Unbroken past) :
    (r.after past).Shows (s.after past) := by
  induction past with
  | nil => exact h
  | cons request past ih => exact ((ih hrules.1).ask request).2 hrules.2

/-- After any requests that broke no rule, answered or refused, each registered device has an engine and
each engine a device, a device is registered under its own number, and the registry keeps the devices of
the scene. The next request is answered by both in the same way, it leaves the same devices in both, and
it leaves alone what it is not about. -/
theorem frame_after {settings : SceneSettings R} {start : Scene R} {registry : Registry R}
    (hstart : Scene.ofSettings settings = .ok start)
    (hregistry : ofSettings settings = .ok registry) {past : List (Scene.Request R)}
    {request : Scene.Request R} (hrules : start.Unbroken (request :: past))
    {outcome : Except (Fault R) (Scene.Answer R)} {s' : Scene R}
    (hrun : (Scene.ask request).run (start.after past) = (outcome, s')) :
    (registry.after past).Shows (start.after past) ∧
    (∀ id, id ∈ (registry.after past).devices ↔ id ∈ (registry.after past).engines) ∧
    (∀ (id : NodeId) device, (registry.after past).devices[id]? = some device → device.id = id) ∧
    (registry.after past).devices.size = (start.after past).deviceCount ∧
    (∃ r', (ask request).run (registry.after past) = (outcome, r') ∧ r'.Shows s') ∧
    (start.after past).Frame request outcome s' := by
  obtain ⟨hpast, hrequest⟩ := hrules
  have hshows := (shows_ofSettings hstart hregistry).after hpast
  have hnumbered := Scene.numbered_after hstart past
  have hframe := Scene.frame_ask hnumbered request
  obtain ⟨hanswer, hnext⟩ := hshows.ask request
  rw [hrun] at hframe hanswer hnext hrequest
  refine ⟨hshows, hshows.mem_devices_iff, fun id device hdevice => ?_, hshows.size_devices, ?_, hframe⟩
  · rw [hshows.devices] at hdevice
    obtain ⟨t, ht, rfl⟩ := Option.map_eq_some_iff.mp hdevice
    exact hnumbered id t ht
  · exact ⟨_, Prod.ext hanswer rfl, hnext hrequest⟩

/-- A bundle that fails for its second terminal has taken the mast out and has put it back. -/
theorem frame_after_bundle : ∃ (settings : SceneSettings Float) (start : Scene Float)
    (registry : Registry Float) (past : List (Scene.Request Float)) (s' : Scene Float),
    Scene.ofSettings settings = .ok start ∧ ofSettings settings = .ok registry ∧
    start.Unbroken (.setBundle ⟨1⟩ [⟨2⟩, ⟨3⟩] [0, 1] :: past) ∧
    (Scene.ask (.setBundle ⟨1⟩ [⟨2⟩, ⟨3⟩] [0, 1])).run (start.after past) =
      (.error (.coincident ⟨1⟩ ⟨3⟩), s') ∧
    (∃ r', (ask (.setBundle ⟨1⟩ [⟨2⟩, ⟨3⟩] [0, 1])).run (registry.after past) =
      (.error (.coincident ⟨1⟩ ⟨3⟩), r') ∧ r'.Shows s') ∧
    (start.after past).Frame (.setBundle ⟨1⟩ [⟨2⟩, ⟨3⟩] [0, 1]) (.error (.coincident ⟨1⟩ ⟨3⟩)) s' := by
  obtain ⟨s, s', t, t', x, hreach, -, -, -, hrun, -⟩ := Scene.setBundle_on_square
  obtain ⟨settings, start, past, hstart, hpast, rfl⟩ := hreach.exists_after
  obtain ⟨registry, hregistry⟩ := exists_ofSettings hstart
  have hasked : (Scene.ask (.setBundle ⟨1⟩ [⟨2⟩, ⟨3⟩] [0, 1])).run (start.after past) =
      (.error (.coincident ⟨1⟩ ⟨3⟩), s') := by
    rw [Scene.ask, Action.run_map, hrun]
    rfl
  have hrules : start.Unbroken (.setBundle ⟨1⟩ [⟨2⟩, ⟨3⟩] [0, 1] :: past) :=
    ⟨hpast, fun rule hrule => by rw [hasked] at hrule; cases hrule⟩
  obtain ⟨-, -, -, -, hnext, hframe⟩ := frame_after hstart hregistry hrules hasked
  exact ⟨settings, start, registry, past, s', hstart, hregistry, hrules, hasked, hnext, hframe⟩

end Requests

end Registry

end RadioChannel
