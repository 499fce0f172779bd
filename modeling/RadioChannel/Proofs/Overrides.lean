import RadioChannel.Proofs.Progress
import RadioChannel.Proofs.Reciprocity

/-!
# Conditions that reach the channel

The host gives conditions to links, and the channel of a link is drawn under the condition that the
link has then. A realization that is held serves on while the line of sight is the one it was drawn
under. So the line of sight of a channel is always the one given last, while its other flag is the one
given last before it was drawn.
-/

namespace RadioChannel

open Scalar

namespace Evaluator

variable {R : Type} {now : Nanoseconds} {s t u : Evaluator R}

/-- What calls at a point of time leave behind: the model, and links that hold what they held or what
was drawn since, at that time and under the condition that the model gives them. -/
structure Draws (now : Nanoseconds) (s t : Evaluator R) : Prop where
  model : t.model = s.model
  drawn_le : s.generator.drawn ≤ t.generator.drawn
  held : ∀ a b l, t.generator.peek a b = some l → s.generator.peek a b = some l ∨
    (l.realization.condition = s.model.condition a b ∧ l.realization.generatedAt = now ∧
      s.generator.drawn ≤ l.realization.serial ∧ l.realization.serial < t.generator.drawn)

theorem Draws.of_peek (hmodel : t.model = s.model) (hdrawn : t.generator.drawn = s.generator.drawn)
    (hpeek : t.generator.peek = s.generator.peek) : Draws now s t where
  model := hmodel
  drawn_le := hdrawn.ge
  held a b l hl := Or.inl (by rwa [← hpeek])

theorem Draws.refl (s : Evaluator R) : Draws now s s := .of_peek rfl rfl rfl

theorem Draws.trans (s t u : Evaluator R) (h : Draws now s t) (h' : Draws now t u) :
    Draws now s u where
  model := h'.model.trans h.model
  drawn_le := h.drawn_le.trans h'.drawn_le
  held a b l hl := by
    rcases h'.held a b l hl with hold | ⟨hcondition, htime, hlow, hhigh⟩
    · rcases h.held a b l hold with holder | ⟨hcondition, htime, hlow, hhigh⟩
      · exact Or.inl holder
      · exact Or.inr ⟨hcondition, htime, hlow, hhigh.trans_le h'.drawn_le⟩
    · rw [h.model] at hcondition
      exact Or.inr ⟨hcondition, htime, h.drawn_le.trans hlow, hhigh⟩

variable [Scalar R]

theorem draws_channel (now : Nanoseconds) (a b : Device R) :
    Action.Advances (Draws now) (channel now a b) := by
  intro s
  rw [run_channel]
  rcases hrun : (Generator.channel now a.terminal b.terminal (s.model.condition a.id b.id)).run
    s.generator with ⟨e | l, g⟩
  · obtain ⟨source, rfl⟩ := Generator.channel_error hrun
    exact .of_peek rfl rfl rfl
  rcases Generator.channel_ok hrun with ⟨rfl, -⟩ | ⟨source, rfl, -, hserial, hcondition, htime⟩
  · exact .refl s
  refine ⟨rfl, Nat.le_succ _, fun x y l' hl' => ?_⟩
  have hnew (hlink : s.model.condition x y = s.model.condition a.id b.id)
      (hm : l'.realization = l.realization) :
      l'.realization.condition = s.model.condition x y ∧ l'.realization.generatedAt = now ∧
        s.generator.drawn ≤ l'.realization.serial ∧
        l'.realization.serial < s.generator.drawn + 1 := by
    rw [hm, hlink, hserial]
    exact ⟨hcondition, htime, Nat.le_refl _, Nat.lt_succ_self _⟩
  dsimp only at hl'
  rw [Generator.peek_store] at hl'
  split at hl'
  · next hforward =>
    split at hl'
    · cases hl'
    · cases hl'
      exact Or.inr (hnew (by rw [hforward.1, hforward.2]; rfl) rfl)
  split at hl'
  · next hbackward =>
    cases hl'
    refine Or.inr (hnew ?_ rfl)
    rw [hbackward.1, hbackward.2]
    exact s.model.condition_comm _ _
  · exact Or.inl hl'

/-- What a call does with the channel draws nothing. -/
theorem progress_draws (now : Nanoseconds) : Progress now (Draws (R := R) now) where
  refl := .refl
  trans := Draws.trans
  evaluate := by
    rintro c rfl
    rcases c.evaluate_cases with ⟨r, hrun⟩ | hrun
    · rw [hrun]
      exact Action.advances_ofExcept .refl r
    rw [hrun]
    refine Action.Advances.bind Draws.trans (draws_channel c.now c.a c.b) fun l s => ?_
    have hkeeps : Keeps (fun t => t.generator = s.generator ∧ t.model = s.model) (c.follow l) :=
      (composable_keeps _).follow c l fun x y _ => keeps_generator_projection s l _ _ x y
    obtain ⟨hgenerator, hmodel⟩ := hkeeps s ⟨rfl, rfl⟩
    exact .of_peek hmodel (by rw [hgenerator]) (by rw [hgenerator])

/-- A channel that was answered is answered again under any conditions with the same line of sight. -/
theorem channel_under {a b : Device R} {v : Evaluator R} {l : Link R} (hne : a.id ≠ b.id)
    (h : (channel now a b).run s = (.ok l, v)) (hrx : l.rxCount = b.array.elementCount)
    (htx : l.txCount = a.array.elementCount) (model : ConditionModel)
    (hlos : (model.condition a.id b.id).los = (v.model.condition a.id b.id).los) :
    (channel now a b).run { v with model := model } = (.ok l, { v with model := model }) := by
  have hsettled := settled_of_channel hne h
  have hstill : Settled { v with model := model } now a.id b.id l :=
    ⟨hsettled.held, hlos ▸ hsettled.serves⟩
  exact hstill.channel (apart_of_channel h) hrx htx

end Evaluator

namespace Scene

variable {R : Type} [Scalar R]

/-! ## What was given -/

/-- The scene after requests, of which the last one is listed first. -/
def after (start : Scene R) : List (Request R) → Scene R
  | [] => start
  | request :: past => ((ask request).run (after start past)).2

/-- The condition that a request gives to a link. A request that fails gives none. -/
def given? (s : Scene R) (request : Request R) (a b : NodeId) : Option Condition :=
  match request with
  | .setCondition x y c => if s(x, y) = s(a, b) ∧ ((ask request).run s).1.isOk then some c else none
  | _ => none

/-- The condition that was given to a link last: line of sight and outdoors if none was. -/
def given (start : Scene R) : List (Request R) → NodeId → NodeId → Condition
  | [], _, _ => .lineOfSight
  | request :: past, a, b => ((start.after past).given? request a b).getD (start.given past a b)

/-- Later requests give a link no condition. -/
def Silent (start : Scene R) (past : List (Request R)) (a b : NodeId) : List (Request R) → Prop
  | [] => True
  | request :: later => (start.after (later ++ past)).given? request a b = none ∧
      start.Silent past a b later

/-- A request draws a realization: its number is one of those that the request uses up. -/
def Begets (s : Scene R) (request : Request R) (m : Realization R) : Prop :=
  s.evaluator.generator.drawn ≤ m.serial ∧
  m.serial < ((ask request).run s).2.evaluator.generator.drawn ∧ m.generatedAt = s.now

/-- None of the requests breaks a rule. -/
def Unbroken (start : Scene R) : List (Request R) → Prop
  | [] => True
  | request :: past => start.Unbroken past ∧
      ∀ rule, ((ask request).run (start.after past)).1 ≠ .error (.breach rule)

variable {start s : Scene R} {past : List (Request R)} {a b : NodeId}

/-- A reachable scene is one after requests of which none breaks a rule. -/
theorem Reachable.exists_after (hs : s.Reachable) : ∃ settings start past,
    ofSettings settings = .ok start ∧ start.Unbroken past ∧ s = start.after past := by
  induction hs with
  | @start settings s h => exact ⟨settings, s, [], h, trivial, rfl⟩
  | ask hs request hrules ih =>
    obtain ⟨settings, start, past, hstart, hpast, rfl⟩ := ih
    exact ⟨settings, start, request :: past, hstart, ⟨hpast, hrules⟩, rfl⟩

theorem numbered_after {settings : SceneSettings R} (hstart : ofSettings settings = .ok start)
    (past : List (Request R)) : (start.after past).Numbered := by
  induction past with
  | nil => exact .of_empty (stations_ofSettings hstart)
  | cons request past ih => exact ih.ask request

/-- Two devices that are added to an empty scene are put there, and nothing else is changed. -/
theorem after_additions (hempty : start.stations = ∅) {settings settings' : PanelSettings R}
    {panel panel' : Panel R} (hpanel : Panel.ofSettings settings = .ok panel)
    (hpanel' : Panel.ofSettings settings' = .ok panel') {beams beams' : BeamSettings R}
    {engine engine' : BeamEngine R} (hengine : BeamEngine.ofSettings beams start.grid = .ok engine)
    (hengine' : BeamEngine.ofSettings beams' start.grid = .ok engine') (hne : a ≠ b)
    (position position' : Vec3 R) :
    start.after [.addDevice b position' settings' beams', .addDevice a position settings beams] =
      (start.put a ⟨⟨⟨a, position, .zero⟩, .ofPanel panel⟩, engine⟩).put b
        ⟨⟨⟨b, position', .zero⟩, .ofPanel panel'⟩, engine'⟩ := by
  have hnew : start.stations[a]? = none := by simp [hempty]
  rw [after, after, after, run_ask_addDevice hnew hpanel hengine position]
  obtain ⟨s, hs⟩ : ∃ s, s = start.put a ⟨⟨⟨a, position, .zero⟩, .ofPanel panel⟩, engine⟩ := ⟨_, rfl⟩
  have hnew' : s.stations[b]? = none := by
    rw [hs, stations_put, if_neg hne, hempty]
    simp
  have hsecond := run_ask_addDevice hnew' hpanel' (by rw [hs]; exact hengine') position'
  rw [hs] at hsecond
  exact congrArg Prod.snd hsecond

theorem given_append_of_silent {later : List (Request R)} (h : start.Silent past a b later) :
    start.given (later ++ past) a b = start.given past a b := by
  induction later with
  | nil => rfl
  | cons request later ih =>
    rw [List.cons_append, given, h.1, Option.getD_none, ih h.2]

/-! ## One request -/

/-- A request gives a condition to one link and draws nothing, or draws realizations and gives no
condition. -/
theorem ask_cases (hs : s.Numbered) (request : Request R) :
    ((∀ a b, s.given? request a b = none) ∧ s.Goes (Evaluator.Draws s.now) ((ask request).run s).2) ∨
    ∃ x y c, (∀ a b, s.given? request a b = if s(x, y) = s(a, b) then some c else none) ∧
      ((ask request).run s).2 = { s with
        conditions := s.conditions.set x y c
        evaluator := { s.evaluator with model := .table (s.conditions.set x y c) } } := by
  have hdraws (hother : ∀ x y c, request ≠ .setCondition x y c) :
      s.Goes (Evaluator.Draws s.now) ((ask request).run s).2 :=
    goes_ask (Evaluator.progress_draws s.now) hother
  cases request with
  | setCondition x y c =>
    rcases setCondition_cases x y c s with ⟨e, hrun⟩ | ⟨tx, ty, hx, hy, hrun⟩
    · refine Or.inl ⟨fun a b => ?_, ?_⟩
      · simp [given?, ask, Action.run_map, hrun, Except.isOk, Except.toBool, Except.map]
      · rw [ask, Action.run_map, hrun]
        exact ⟨rfl, .refl _⟩
    · rw [hs x tx hx, hs y ty hy] at hrun
      refine Or.inr ⟨x, y, c, fun a b => ?_, ?_⟩
      · simp [given?, ask, Action.run_map, hrun, Except.isOk, Except.toBool, Except.map]
      · rw [ask, Action.run_map, hrun]
  | _ => exact Or.inl ⟨fun _ _ => rfl, hdraws (by simp)⟩

/-- A request that draws gives no condition. -/
theorem given?_of_begets (hs : s.Numbered) {request : Request R} {m : Realization R}
    (h : s.Begets request m) (a b : NodeId) : s.given? request a b = none := by
  rcases ask_cases hs request with ⟨hnone, -⟩ | ⟨x, y, c, -, hrun⟩
  · exact hnone a b
  · obtain ⟨hlow, hhigh, -⟩ := h
    rw [hrun] at hhigh
    exact absurd hlow (Nat.not_le_of_lt hhigh)

/-! ## All requests -/

/-- One of the past requests drew a realization, under the condition that had been given to the link
last. -/
def DrawnUnder (start : Scene R) (past : List (Request R)) (a b : NodeId) (m : Realization R) :
    Prop :=
  ∃ newer request older, past = newer ++ request :: older ∧ (start.after older).Begets request m ∧
    m.condition = start.given older a b

theorem DrawnUnder.cons {m : Realization R} (h : start.DrawnUnder past a b m) (request : Request R) :
    start.DrawnUnder (request :: past) a b m := by
  obtain ⟨newer, drawer, older, rfl, hbegets, hcondition⟩ := h
  exact ⟨request :: newer, drawer, older, rfl, hbegets, hcondition⟩

/-- What past requests tell of a scene: the conditions that were given are those in the table and in
the evaluator's copy, and every link holds what was drawn under them. -/
structure Told (start : Scene R) (past : List (Request R)) : Prop where
  numbered : (start.after past).Numbered
  table : ∀ a b, (start.after past).conditions.condition a b = start.given past a b
  model : (start.after past).evaluator.model = .table (start.after past).conditions
  held : ∀ a b l, (start.after past).evaluator.generator.peek a b = some l →
    start.DrawnUnder past a b l.realization

theorem Told.condition (h : start.Told past) (a b : NodeId) :
    (start.after past).evaluator.model.condition a b = start.given past a b := by
  rw [h.model]
  exact h.table a b

theorem told_start {settings : SceneSettings R} (h : ofSettings settings = .ok start) :
    start.Told [] := by
  obtain ⟨generator, hgenerator, h⟩ := except_bind_ok.mp h
  obtain ⟨grid, -, h⟩ := except_bind_ok.mp h
  obtain rfl := Except.ok.inj h
  obtain ⟨scenario, -, hgenerator⟩ := except_bind_ok.mp hgenerator
  obtain ⟨period, -, hgenerator⟩ := except_bind_ok.mp hgenerator
  obtain rfl := Except.ok.inj hgenerator
  refine ⟨.of_empty rfl, ConditionTable.condition_standard, rfl, fun a b l hl => ?_⟩
  simp [after, Evaluator.ofGenerator, Generator.peek] at hl

theorem Told.ask (h : start.Told past) (request : Request R) : start.Told (request :: past) := by
  rcases ask_cases h.numbered request with ⟨hnone, htable, hdraws⟩ | ⟨x, y, c, hgiven, hrun⟩
  · -- what the request draws it draws under the conditions that it leaves
    have hsame (a b : NodeId) : start.given (request :: past) a b = start.given past a b := by
      rw [given, hnone, Option.getD_none]
    refine ⟨h.numbered.ask request, fun a b => ?_, ?_, fun a b l hl => ?_⟩
    · rw [hsame, ← h.table]
      exact congrArg (ConditionTable.condition · a b) htable
    · exact (hdraws.model.trans h.model).trans (congrArg ConditionModel.table htable.symm)
    · rcases hdraws.held a b l hl with hold | ⟨hcondition, htime, hlow, hhigh⟩
      · exact (h.held a b l hold).cons request
      · exact ⟨[], request, past, rfl, ⟨hlow, hhigh, htime⟩, hcondition.trans (h.condition a b)⟩
  · have hafter : start.after (request :: past) = _ := hrun
    refine ⟨h.numbered.ask request, fun a b => ?_, by rw [hafter], fun a b l hl => ?_⟩
    · rw [hafter, given, hgiven, ← h.table]
      dsimp only
      rw [ConditionTable.condition_set]
      split <;> rfl
    · rw [hafter] at hl
      exact (h.held a b l hl).cons request

theorem told_of_settings {settings : SceneSettings R} (h : ofSettings settings = .ok start)
    (past : List (Request R)) : start.Told past := by
  induction past with
  | nil => exact told_start h
  | cons request past ih => exact ih.ask request

/-- Conditions reach the channel. After any requests, those that fail or break a rule included, a
channel that is answered has the line of sight that was given to its link last. Its condition as a
whole is the one that had been given last when the realization was drawn, and so it is the one given
last if none was given since. -/
theorem given_reaches_channel {settings : SceneSettings R} (hstart : ofSettings settings = .ok start)
    (past : List (Request R)) {summary : ChannelSummary R}
    (hsummary : ((channelSummary a b).run (start.after past)).1 = .ok summary) :
    summary.condition.los = (start.given past a b).los ∧
    ∃ l newer request older, summary = .ofLink l ∧
      .channelSummary a b :: past = newer ++ request :: older ∧
      (start.after older).Begets request l.realization ∧
      summary.condition = start.given older a b ∧
      (start.Silent (request :: older) a b newer → summary.condition = start.given past a b) := by
  have htold := told_of_settings hstart past
  rcases channelSummary_cases a b (start.after past) with ⟨e, hrun⟩ | ⟨ta, tb, ha, hb, hrun⟩
  · rw [hrun] at hsummary
    cases hsummary
  rcases hchannel : (Evaluator.channel (start.after past).now ta.device tb.device).run
    (start.after past).evaluator with ⟨e | l, v⟩ <;> rw [hchannel] at hrun
  · rw [hrun] at hsummary
    cases hsummary
  rw [hrun] at hsummary
  obtain rfl : ChannelSummary.ofLink l = summary := Except.ok.inj hsummary
  have hcondition : (start.after past).evaluator.model.condition ta.device.id tb.device.id =
      start.given past a b := by
    rw [htold.numbered a ta ha, htold.numbered b tb hb, htold.condition]
  have hdrawn : l.realization.condition.los = (start.given past a b).los ∧
      start.DrawnUnder (.channelSummary a b :: past) a b l.realization := by
    rw [← hcondition]
    rcases Generator.channel_ok (Evaluator.generator_of_channel_ok hchannel) with
      ⟨-, hheld, hserves⟩ | ⟨source, hstore, -, hserial, hnew, htime⟩
    · have hheld' : (start.after past).evaluator.generator.peek a b = some l := by
        rwa [← htold.numbered a ta ha, ← htold.numbered b tb hb]
      exact ⟨(Generator.serves_iff.mp hserves).1, (htold.held a b l hheld').cons _⟩
    · refine ⟨congrArg Condition.los hnew, [], .channelSummary a b, past, rfl,
        ⟨hserial.ge, ?_, htime⟩, hnew.trans hcondition⟩
      rw [Scene.ask, Action.run_map, hrun, hserial]
      change _ < v.generator.drawn
      rw [hstore]
      exact Nat.lt_succ_self _
  obtain ⟨hlos, newer, request, older, hpast, hbegets, hunder⟩ := hdrawn
  refine ⟨hlos, l, newer, request, older, rfl, hpast, hbegets, hunder, fun hsilent => ?_⟩
  have hgiven := given_append_of_silent hsilent
  rw [← hpast] at hgiven
  have hnone := given?_of_begets (told_of_settings hstart older).numbered hbegets a b
  calc l.realization.condition = start.given older a b := hunder
    _ = start.given (request :: older) a b := by rw [given, hnone, Option.getD_none]
    _ = start.given past a b := hgiven.symm

/-! ## A house in the country -/

section Country

/-- A macrocell in the country whose channels are never drawn for their age. -/
noncomputable def country : SceneSettings ℝ :=
  { SceneSettings.standard with
    channel := { ChannelSettings.standard with scenario := "RMa", updatePeriodMs := 0 } }

/-- Geometric beams; codebooks would be searched each time. -/
noncomputable def countryBeams : BeamSettings ℝ :=
  { BeamSettings.standard with codebookRefreshMs := 0 }

/-- A single antenna. -/
noncomputable def countryPanel : PanelSettings ℝ :=
  { PanelSettings.standard with columns := 1, rows := 1 }

/-- A tower and a house are added. -/
noncomputable def settling : List (Request ℝ) :=
  [.addDevice ⟨2⟩ rover.endpoint.position countryPanel countryBeams,
    .addDevice ⟨1⟩ drone.endpoint.position countryPanel countryBeams]

/-- Then the tower asks for its channel to the house, and only then is told that it leads indoors. -/
noncomputable def moving : List (Request ℝ) :=
  .setCondition ⟨1⟩ ⟨2⟩ ⟨true, true⟩ :: .channelSummary ⟨1⟩ ⟨2⟩ :: settling

theorem ofSettings_country : ∃ start : Scene ℝ, ofSettings country = .ok start ∧
    start.stations = ∅ ∧
    start.evaluator = .ofGenerator (.fresh .ruralMacro 28000000000 0 1) (.table .standard) := by
  obtain ⟨grid, hgrid⟩ : ∃ grid : SpectrumGrid ℝ, SpectrumGrid.uniform country.channel.frequency
      country.bandwidth country.subbands = .ok grid := ⟨_, rfl⟩
  have hgenerator : Generator.ofSettings country.channel =
      .ok (.fresh .ruralMacro 28000000000 0 1) := Generator.ofSettings_country
  exact ⟨_, except_bind_ok.mpr ⟨_, hgenerator, except_bind_ok.mpr ⟨grid, hgrid, rfl⟩⟩, rfl, rfl⟩

/-- The engine for settings with a known strategy whose searches are valid for no time. -/
theorem ofSettings_beams (beams : BeamSettings ℝ) (strategy : Strategy)
    (hstrategy : (Strategy.ofName beams.strategy : Except (Fault ℝ) Strategy) = .ok strategy)
    (hrefresh : beams.codebookRefreshMs = 0) (grid : SpectrumGrid ℝ) :
    BeamEngine.ofSettings beams grid =
      .ok ⟨strategy, 0, beams.noisePower, beams.referencePower, grid, ∅⟩ := by
  have hperiod : beams.codebookRefresh = .ok 0 := by
    rw [BeamSettings.codebookRefresh, hrefresh, ExactScalars.zero_eq,
      ExactScalars.periodOfMilliseconds_zero]
  exact except_bind_ok.mpr ⟨strategy, hstrategy, except_bind_ok.mpr ⟨0, hperiod, rfl⟩⟩

/-- A tower with a single antenna. -/
noncomputable def tower : Device ℝ := .resting 1 drone.endpoint.position 1

/-- A house with a single antenna. -/
noncomputable def house : Device ℝ := .resting 2 rover.endpoint.position 1

/-- The devices stand where they were put, and nothing else has changed. -/
theorem after_adding {start : Scene ℝ} (hempty : start.stations = ∅) {beams : BeamSettings ℝ}
    {engine : BeamEngine ℝ} (hengine : BeamEngine.ofSettings beams start.grid = .ok engine) :
    start.after [.addDevice ⟨2⟩ rover.endpoint.position countryPanel beams,
      .addDevice ⟨1⟩ drone.endpoint.position countryPanel beams] =
        (start.put ⟨1⟩ ⟨tower, engine⟩).put ⟨2⟩ ⟨house, engine⟩ :=
  after_additions hempty (rfl : Panel.ofSettings countryPanel = .ok (.ofSize 1 1)) rfl hengine hengine
    (by decide) _ _

theorem stations_added (start : Scene ℝ) (engine : BeamEngine ℝ) :
    ((start.put ⟨1⟩ ⟨tower, engine⟩).put ⟨2⟩ ⟨house, engine⟩).stations[(⟨1⟩ : NodeId)]? =
      some ⟨tower, engine⟩ ∧
    ((start.put ⟨1⟩ ⟨tower, engine⟩).put ⟨2⟩ ⟨house, engine⟩).stations[(⟨2⟩ : NodeId)]? =
      some ⟨house, engine⟩ := by
  constructor
  · rw [stations_put, if_neg (by decide), stations_put, if_pos rfl]
  · rw [stations_put, if_pos rfl]

theorem after_settling {start : Scene ℝ} (hempty : start.stations = ∅) :
    ∃ engine, start.after settling = (start.put ⟨1⟩ ⟨tower, engine⟩).put ⟨2⟩ ⟨house, engine⟩ := by
  have hengine := ofSettings_beams countryBeams .geometric rfl rfl start.grid
  exact ⟨_, after_adding hempty hengine⟩

theorem channel_settled (now : Nanoseconds) : ∃ l v,
    (Evaluator.channel now tower house).run
      (.ofGenerator (.fresh .ruralMacro 28000000000 0 1) (.table .standard)) = (.ok l, v) ∧
    (l.rxCount = house.array.elementCount ∧ l.txCount = tower.array.elementCount) ∧
    l.realization.condition = .lineOfSight ∧ v.model = .table .standard := by
  obtain ⟨s, hs⟩ : ∃ s : Evaluator ℝ,
    s = .ofGenerator (.fresh .ruralMacro 28000000000 0 1) (.table .standard) := ⟨_, rfl⟩
  have hnone : s.generator.peek tower.id house.id = none := by
    rw [hs]
    exact Generator.peek_fresh _ _ _ _ _ _
  have hcarrier : (s.generator.frequency == 0) = false := by
    rw [hs]
    exact ExactScalars.numeral_beq_zero _
  obtain ⟨_, v, hflat⟩ := Evaluator.flatMatrix_of_unheld (by rw [hs]; rfl) hcarrier hnone
    Evaluator.apart_field.1 (by decide) now 0
  obtain ⟨l, hchannel, hsize, -⟩ := Evaluator.run_flatMatrix_ok.mp hflat
  have hmodel : v.model = s.model := by
    have hdraws := Evaluator.draws_channel now tower house s
    rw [hchannel] at hdraws
    exact hdraws.model
  rw [← hs]
  refine ⟨l, v, hchannel, hsize, ?_, by rw [hmodel, hs]; rfl⟩
  rcases Generator.channel_ok (Evaluator.generator_of_channel_ok hchannel) with
    ⟨-, hheld, -⟩ | ⟨source, -, -, -, hcondition, -⟩
  · exact absurd (hnone.symm.trans hheld) (by simp)
  · rw [hcondition, hs]
    exact ConditionTable.condition_standard _ _

/-- The channel is drawn outdoors, and it is still held when it is said to lead indoors. -/
theorem summary_country : ∃ start summary, ofSettings country = .ok start ∧
    ((channelSummary ⟨1⟩ ⟨2⟩).run (start.after moving)).1 = .ok summary ∧
    start.given moving ⟨1⟩ ⟨2⟩ = ⟨true, true⟩ ∧ summary.condition = ⟨true, false⟩ := by
  obtain ⟨start, hstart, hempty, hevaluator⟩ := ofSettings_country
  obtain ⟨engine, hsettled⟩ := after_settling hempty
  obtain ⟨s, hs⟩ : ∃ s, s = start.after settling := ⟨_, rfl⟩
  obtain ⟨hfirst, hsecond⟩ := stations_added start engine
  rw [← hsettled, ← hs] at hfirst hsecond
  obtain ⟨l, v, hchannel, ⟨hrx, htx⟩, hcondition, hmodel⟩ := channel_settled s.now
  have hfresh : s.evaluator =
      .ofGenerator (.fresh .ruralMacro 28000000000 0 1) (.table .standard) := by
    rw [hs, hsettled]
    exact hevaluator
  rw [← hfresh] at hchannel
  -- asking draws the channel
  have hasked := run_channelSummary hfirst hsecond
  rw [hchannel] at hasked
  dsimp only at hasked
  obtain ⟨u, hu⟩ : ∃ u : Scene ℝ, u = { s with evaluator := v } := ⟨_, rfl⟩
  rw [← hu] at hasked
  have hafter : start.after (.channelSummary ⟨1⟩ ⟨2⟩ :: settling) = u := by
    rw [after, ← hs, ask, Action.run_map, hasked]
  -- telling changes the table
  have htold := run_setCondition (s := u) (by rw [hu]; exact hfirst) (by rw [hu]; exact hsecond)
    ⟨true, true⟩
  have hagain := Evaluator.channel_under (by decide : tower.id ≠ house.id) hchannel hrx htx
    (.table (u.conditions.set tower.id house.id ⟨true, true⟩)) (by
      rw [hmodel, ConditionModel.condition, ConditionModel.condition, ConditionTable.condition_set,
        if_pos rfl, ConditionTable.condition_standard]
      rfl)
  have hmoved : start.after moving = { u with
      conditions := u.conditions.set tower.id house.id ⟨true, true⟩
      evaluator := { v with
        model := .table (u.conditions.set tower.id house.id ⟨true, true⟩) } } := by
    rw [moving, after, hafter, ask, Action.run_map, htold, hu]
  -- asking again finds it
  have hanswer : (channelSummary ⟨1⟩ ⟨2⟩).run (start.after moving) = _ :=
    run_channelSummary (by rw [hmoved, hu]; exact hfirst) (by rw [hmoved, hu]; exact hsecond)
  have hheld : (Evaluator.channel (start.after moving).now tower house).run
      (start.after moving).evaluator = (.ok l, (start.after moving).evaluator) := by
    rw [hmoved, hu]
    rw [hu] at hagain
    exact hagain
  rw [hheld] at hanswer
  refine ⟨start, .ofLink l, hstart, congrArg Prod.fst hanswer, ?_, hcondition⟩
  rw [moving, given, hafter]
  simp [given?, ask, Action.run_map, htold, Except.isOk, Except.toBool, Except.map]

/-- Even so the channel has the line of sight that was given last. -/
theorem given_reaches_country : ∃ start summary, ofSettings country = .ok start ∧
    ((channelSummary ⟨1⟩ ⟨2⟩).run (start.after moving)).1 = .ok summary ∧
    summary.condition.los = (start.given moving ⟨1⟩ ⟨2⟩).los ∧
    ∃ l newer request older, summary = .ofLink l ∧
      .channelSummary ⟨1⟩ ⟨2⟩ :: moving = newer ++ request :: older ∧
      (start.after older).Begets request l.realization ∧
      summary.condition = start.given older ⟨1⟩ ⟨2⟩ := by
  obtain ⟨start, summary, hstart, hsummary, -, -⟩ := summary_country
  obtain ⟨hlos, l, newer, request, older, hl, hpast, hbegets, hcondition, -⟩ :=
    given_reaches_channel hstart moving hsummary
  exact ⟨start, summary, hstart, hsummary, hlos, l, newer, request, older, hl, hpast, hbegets,
    hcondition⟩

/-- But its condition is not always the one that was given last. -/
theorem condition_not_always_given : ¬∀ (settings : SceneSettings ℝ) (start : Scene ℝ)
    (past : List (Request ℝ)) (a b : NodeId) (summary : ChannelSummary ℝ),
    ofSettings settings = .ok start →
    ((channelSummary a b).run (start.after past)).1 = .ok summary →
    summary.condition.los = (start.given past a b).los ∧
      summary.condition.o2i = (start.given past a b).o2i := by
  intro hall
  obtain ⟨start, summary, hstart, hsummary, hgiven, hcondition⟩ := summary_country
  obtain ⟨-, ho2i⟩ := hall country start moving ⟨1⟩ ⟨2⟩ summary hstart hsummary
  rw [hgiven, hcondition] at ho2i
  exact absurd ho2i (by decide)

end Country

end Scene

end RadioChannel
