import RadioChannel.Proofs.Breaches

/-!
# Calls that leave no trace

A request that is answered by what the link holds leaves the generator as it was, and so does a request
that is refused: once samples are drawn, a draw ends in a realization or at a broken rule. Such calls
can be left out of a history, or put in, and the other calls are answered as before.
-/

namespace RadioChannel

open Scalar

/-- Whether the fault is a broken rule, and not an answer to the host. -/
def Fault.isBreach {R : Type} : Fault R → Bool
  | .breach _ => true
  | _ => false

theorem isBreach_of_entryAt {R α : Type} {xs : List α} {i : Nat} {e : Fault R}
    (h : entryAt xs i = .error e) : e.isBreach = true := by
  unfold entryAt at h
  split at h
  · cases h
  · cases h
    rfl

/-! ## Steps that refuse nothing -/

namespace Action

variable {R σ α β : Type}

/-- A run of the step answers or meets a broken rule. -/
def NeverRefuses (x : Action R σ α) : Prop :=
  ∀ s e t, x.run s = (.error e, t) → e.isBreach = true

theorem neverRefuses_pure (a : α) : NeverRefuses (pure a : Action R σ α) := by
  intro s e t h
  cases h

theorem neverRefuses_liftState (x : StateM σ α) : NeverRefuses (liftM x : Action R σ α) := by
  intro s e t h
  cases h

theorem neverRefuses_liftExcept {x : Except (Fault R) α}
    (hx : ∀ e, x = .error e → e.isBreach = true) : NeverRefuses (liftM x : Action R σ α) := by
  intro s e t h
  rw [run_liftExcept] at h
  exact hx e (Prod.mk.inj h).1

theorem NeverRefuses.bind {x : Action R σ α} {f : α → Action R σ β} (hx : NeverRefuses x)
    (hf : ∀ a, NeverRefuses (f a)) : NeverRefuses (x >>= f) := by
  intro s e t h
  rw [run_bind] at h
  rcases hrun : x.run s with ⟨e' | a, u⟩ <;> rw [hrun] at h
  · cases h
    exact hx s _ _ hrun
  · exact hf a u e t h

end Action

variable {R : Type} [Scalar R]

theorem LargeScale.isBreach_of_ofCorrelated {table : ParameterTable R} {los : Bool} {xs : List R}
    {e : Fault R} (h : ofCorrelated table los xs = .error e) : e.isBreach = true := by
  unfold ofCorrelated at h
  split at h <;> cases h
  rfl

theorem Directions.isBreach_of_anchor {direct : Directions R} {xs : List (Directions R)}
    {e : Fault R} (h : anchor direct xs = .error e) : e.isBreach = true := by
  cases xs <;> cases h
  rfl

namespace RealizationContext

omit [Scalar R] in
theorem isBreach_of_withSubClusters {α : Type} {split : List Nat} {f : α → List α} {xs : List α}
    {e : Fault R} (h : withSubClusters split f xs = .error e) : e.isBreach = true := by
  unfold withSubClusters at h
  cases hs : split.mapM (entryAt (R := R) xs) with
  | error e' =>
    rw [hs] at h
    cases h
    obtain ⟨_, -, hentry⟩ := except_mapM_error hs
    exact isBreach_of_entryAt hentry
  | ok sources =>
    rw [hs] at h
    cases h

open RadioChannel.Action in
theorem neverRefuses_directions {table : ParameterTable R}
    (h : table.clusters ∈ [8, 10, 11, 12, 19, 20]) (los o2i : Bool) (geometry : LinkGeometry R)
    (scale : LargeScale R) (profile : Profile R) :
    NeverRefuses (Directions.draw table los o2i geometry scale profile) := by
  unfold Directions.draw
  refine .bind (neverRefuses_liftExcept fun e he => ?_) fun shape => ?_
  · obtain ⟨shape, hshape⟩ := Directions.ofTable_ok h los scale.riceanDb
    rw [hshape] at he
    cases he
  refine .bind (neverRefuses_liftState _) fun drawn => ?_
  split
  · exact neverRefuses_liftExcept fun _ => Directions.isBreach_of_anchor
  · exact neverRefuses_pure _

open RadioChannel.Action in
/-- A number of clusters without angular scaling is the one thing that a draw refuses. -/
theorem neverRefuses_draw {c : RealizationContext R}
    (h : c.table.clusters ∈ [8, 10, 11, 12, 19, 20]) : NeverRefuses c.draw := by
  unfold draw
  refine .bind (neverRefuses_liftState _) fun correlated => ?_
  refine .bind (neverRefuses_liftExcept fun _ => LargeScale.isBreach_of_ofCorrelated) fun scale => ?_
  refine .bind (neverRefuses_liftState _) fun profile => ?_
  refine .bind (neverRefuses_directions h _ _ _ _ _) fun unwrapped => ?_
  refine .bind (neverRefuses_liftState _) fun blockage => ?_
  refine .bind (neverRefuses_liftState _) fun phases => ?_
  refine .bind (neverRefuses_liftState _) fun directPhase => ?_
  refine .bind (neverRefuses_liftExcept fun _ => isBreach_of_withSubClusters) fun delays => ?_
  refine .bind (neverRefuses_liftExcept fun _ => isBreach_of_withSubClusters) fun directions => ?_
  exact neverRefuses_pure _

end RealizationContext

namespace Generator

variable {g g' : Generator R} {now : Nanoseconds} {a b : Terminal R} {condition : Condition}

/-- The tables of all scenarios have numbers of clusters with angular scaling, so what is refused is
refused before anything is drawn. -/
theorem regenerate_refused {previous : Option (Realization R)} {e : Fault R}
    (h : (regenerate now a b condition previous).run g = (.error e, g')) (he : e.isBreach = false) :
    g' = g := by
  rw [run_regenerate] at h
  cases hc : g.context now a b condition previous with
  | error e' =>
    rw [hc] at h
    exact (Prod.mk.inj h).2.symm
  | ok c =>
    rw [hc] at h
    obtain ⟨table, hlookup, rfl⟩ := context_ok hc
    have hclusters := (ParameterTable.supports_of_lookup hlookup).clusters
    dsimp only at h
    split at h
    · next e' source hdraw =>
      cases h
      have hbreach := RealizationContext.neverRefuses_draw
        (c := g.contextOf now a b condition previous table) hclusters _ _ _ hdraw
      rw [hbreach] at he
      cases he
    · cases h

/-- A request that is refused leaves the generator as it was. -/
theorem channel_refused {e : Fault R} (h : (channel now a b condition).run g = (.error e, g'))
    (he : e.isBreach = false) : g' = g := by
  by_cases hpos : (a.endpoint.position == b.endpoint.position) = true
  · rw [channel_coincident g now a b condition hpos] at h
    exact (Prod.mk.inj h).2.symm
  rcases channel_cases g now a b condition (by simpa using hpos) with
    ⟨l, -, -, hrun⟩ | ⟨-, previous, hrun⟩
  · rw [hrun] at h
    exact (Prod.mk.inj h).2.symm
  · rw [hrun] at h
    exact regenerate_refused h he

omit [Scalar R] in
theorem Orderly.congr (h : g.Orderly) (hcache : g'.cache = g.cache) (hdrawn : g'.drawn = g.drawn) :
    g'.Orderly where
  serial_lt := by
    rw [hcache, hdrawn]
    exact h.serial_lt
  one_direction := by
    rw [hcache]
    exact h.one_direction

/-- A request that is answered by what the link held leaves the generator as it was. -/
theorem Orderly.channel_held (ho : g.Orderly) {l : Link R}
    (h : (Generator.channel now a b condition).run g = (.ok l, g'))
    (hl : g.peek a.endpoint.id b.endpoint.id = some l) : g' = g := by
  rcases channel_ok h with ⟨hsame, -⟩ | ⟨source, -, -, hserial, -⟩
  · exact hsame
  · have hold := ho.peek_serial_lt hl
    omega

omit [Scalar R] in
/-- A realization is accepted for the arrays that it was drawn for, except that a tensor without rows
does not know its columns. -/
theorem checked_of_shaped {m : Realization R} {rx tx clusters : Nat}
    (hs : m.tensor.Shaped rx tx clusters) :
    checked ⟨m, false⟩ rx tx =
      if 0 < rx ∨ tx = 0 then .ok ⟨m, false⟩ else .error (.dimensionMismatch 0 tx 0 0) := by
  have hrx : m.tensor.rxCount = rx := hs.rows
  have htx := hs.txCount_eq
  unfold checked Link.rxCount Link.txCount
  simp only [Bool.false_eq_true, if_false, hrx, htx, true_and]
  by_cases hzero : rx = 0
  · simp [hzero, eq_comm]
  · simp [hzero, Nat.pos_of_ne_zero hzero]

/-- A realization is accepted for the panels that it was drawn for. -/
theorem checked_of_complete {m : Realization R} (hm : m.Complete b.panel a.panel)
    (hrows : 0 < b.panel.elementCount) :
    checked ⟨m, false⟩ b.panel.elementCount a.panel.elementCount = .ok ⟨m, false⟩ := by
  rw [checked_of_shaped hm.tensor, if_pos (Or.inl hrows)]

/-! ## Histories -/

/-- What a host does with a generator. -/
inductive Call (R : Type) where
  /-- Moves the carrier. -/
  | tune (frequency : R)
  /-- Looks at what a link holds. -/
  | look (a b : NodeId)
  /-- Asks for the channel of a link. -/
  | request (now : Nanoseconds) (a b : Terminal R) (condition : Condition)

/-- What a call comes to. -/
inductive Reply (R : Type) where
  | tuned
  | seen (link : Option (Link R))
  | answered (outcome : Except (Fault R) (Link R))

/-- One call. -/
def serve (g : Generator R) : Call R → Reply R × Generator R
  | .tune frequency => (.tuned, g.setFrequency frequency)
  | .look a b => (.seen (g.peek a b), g)
  | .request now a b condition =>
    (.answered ((channel now a b condition).run g).1, ((channel now a b condition).run g).2)

/-- Labelled calls one after the other, with the replies under the same labels. -/
def serveAll {ι : Type} (g : Generator R) : List (ι × Call R) → List (ι × Reply R) × Generator R
  | [] => ([], g)
  | (label, call) :: calls =>
    let (reply, g₁) := g.serve call
    let (replies, g₂) := g₁.serveAll calls
    ((label, reply) :: replies, g₂)

/-- The generators that calls lead to. -/
inductive Reachable : Generator R → Prop
  | start {s : ChannelSettings R} {g : Generator R} (h : ofSettings s = .ok g) : Reachable g
  | serve {g : Generator R} (h : Reachable g) (call : Call R) : Reachable (g.serve call).2

/-- Whether a call is a look, a request that the link's own realization answers, or a request that is
refused. -/
def Idle (g : Generator R) : Call R → Prop
  | .tune _ => False
  | .look _ _ => True
  | .request now a b condition =>
    match ((channel now a b condition).run g).1 with
    | .ok l => g.peek a.endpoint.id b.endpoint.id = some l
    | .error e => e.isBreach = false

/-- Whether all calls with other labels are idle where they stand. -/
def IdleBesides {ι : Type} (keep : ι → Bool) (g : Generator R) : List (ι × Call R) → Prop
  | [] => True
  | (label, call) :: calls =>
    (keep label = false → g.Idle call) ∧ (g.serve call).2.IdleBesides keep calls

theorem cache_ofSettings {settings : ChannelSettings R} (h : ofSettings settings = .ok g) :
    g.cache = ∅ := by
  unfold ofSettings at h
  rw [except_bind_ok] at h
  obtain ⟨scenario, -, h⟩ := h
  rw [except_bind_ok] at h
  obtain ⟨updatePeriod, -, h⟩ := h
  cases h
  rfl

theorem Reachable.orderly (hg : g.Reachable) : g.Orderly := by
  induction hg with
  | start h => exact Orderly.of_empty (cache_ofSettings h)
  | serve _ call ih =>
    cases call with
    | tune frequency => exact ih.congr rfl rfl
    | look a b => exact ih
    | request now a b condition => exact ih.channel now a b condition

theorem Reachable.serve_idle (hg : g.Reachable) {call : Call R} (hidle : g.Idle call) :
    (g.serve call).2 = g := by
  cases call with
  | tune frequency => exact hidle.elim
  | look a b => rfl
  | request now a b condition =>
    change ((channel now a b condition).run g).2 = g
    rcases hrun : (channel now a b condition).run g with ⟨e | l, g'⟩ <;>
      simp only [Idle, hrun] at hidle
    · exact channel_refused hrun hidle
    · exact hg.orderly.channel_held hrun hidle

/-- Requests that are answered by what the link holds, and requests that are refused, leave the whole
generator as it was. A history without some of its idle calls gets the same replies to all others, and
ends with the same generator. -/
theorem Reachable.traceless (hg : g.Reachable) :
    (∀ (now : Nanoseconds) (a b : Terminal R) (condition : Condition) (l : Link R) (g' : Generator R),
      (channel now a b condition).run g = (.ok l, g') →
      g.peek a.endpoint.id b.endpoint.id = some l → g' = g) ∧
    (∀ (now : Nanoseconds) (a b : Terminal R) (condition : Condition) (e : Fault R)
      (g' : Generator R), (channel now a b condition).run g = (.error e, g') →
      e.isBreach = false → g' = g) ∧
    (∀ (ι : Type) (keep : ι → Bool) (calls : List (ι × Call R)), g.IdleBesides keep calls →
      g.serveAll (calls.filter fun c => keep c.1) =
        ((g.serveAll calls).1.filter fun r => keep r.1, (g.serveAll calls).2)) := by
  refine ⟨fun now a b condition l g' h hl => hg.orderly.channel_held h hl,
    fun now a b condition e g' h he => channel_refused h he, fun ι keep calls hidle => ?_⟩
  induction calls generalizing g with
  | nil => rfl
  | cons labelled calls ih =>
    obtain ⟨label, call⟩ := labelled
    obtain ⟨hcall, hcalls⟩ := hidle
    have hrest := ih (hg.serve call) hcalls
    cases hkeep : keep label with
    | true => simp only [List.filter_cons, hkeep, if_true, serveAll, hrest]
    | false =>
      rw [hg.serve_idle (hcall hkeep)] at hrest
      simp only [List.filter_cons, hkeep, Bool.false_eq_true, if_false, serveAll,
        hg.serve_idle (hcall hkeep), hrest]

/-! ## A link in the country -/

/-- A mast in the country. -/
noncomputable def tower : Terminal ℝ := (Device.resting 1 ⟨0, 0, 25⟩ 4).terminal

/-- A car on a field. -/
noncomputable def car : Terminal ℝ := (Device.resting 2 ⟨40, 10, 1⟩ 2).terminal

theorem ofSettings_country : ofSettings
    { (ChannelSettings.standard : ChannelSettings ℝ) with scenario := "RMa", updatePeriodMs := 0 } =
    .ok (fresh .ruralMacro 28000000000 0 1) := by
  unfold ofSettings ChannelSettings.updatePeriod
  rw [ExactScalars.zero_eq, ExactScalars.periodOfMilliseconds_zero]
  rfl

theorem apart_country : (tower.endpoint.position == car.endpoint.position) = false := by
  change ((0 : ℝ) == 40 && (0 : ℝ) == 10 && (25 : ℝ) == 1) = false
  rw [ExactScalars.zero_beq_numeral]
  rfl

/-- In the country a request is answered by a new draw wherever no realization serves. -/
theorem channel_ruralMacro {g : Generator ℝ} (hscenario : g.scenario = .ruralMacro)
    (hf : (g.frequency == 0) = false) (now : Nanoseconds) {a b : Terminal ℝ} (condition : Condition)
    (hpos : (a.endpoint.position == b.endpoint.position) = false)
    (hstale : ∀ l, g.peek a.endpoint.id b.endpoint.id = some l →
      g.serves now condition.los l.realization = false) :
    ∃ m source, (channel now a b condition).run g =
        (.ok ⟨m, false⟩, g.store source a.endpoint.id b.endpoint.id m) ∧
      m.Complete b.panel a.panel := by
  rw [run_channel_of_stale hpos hstale]
  rcases regenerate_outcome g now a b condition (comparable_real _ _ _ _)
    ((g.peek a.endpoint.id b.endpoint.id).map Link.realization) with
    ⟨hzero, -⟩ | ⟨-, hindoor, -⟩ | ⟨-, ⟨hurban, -⟩, -⟩ | ⟨-, -, -, hdrawn⟩
  · rw [hzero] at hf
    cases hf
  · rw [hscenario] at hindoor
    cases hindoor
  · rw [hscenario] at hurban
    cases hurban
  · exact hdrawn

theorem channel_country : ∃ m source,
    (channel 0 tower car ⟨true, false⟩).run (fresh .ruralMacro (28000000000 : ℝ) 0 1) =
      (.ok ⟨m, false⟩, (fresh .ruralMacro (28000000000 : ℝ) 0 1).store source ⟨1⟩ ⟨2⟩ m) ∧
    m.Complete car.panel tower.panel :=
  channel_ruralMacro rfl (ExactScalars.numeral_beq_zero _) _ _ apart_country fun l hl => by
    rw [peek_fresh] at hl
    cases hl

/-- The tower asks for its link to the car twice, and then for a link to its own place. The second and
the third call could be left out. -/
theorem traceless_country :
    let request : Call ℝ := .request 0 tower car ⟨true, false⟩
    let calls : List (Bool × Call ℝ) :=
      [(true, request), (false, request), (false, .request 0 tower tower ⟨true, false⟩),
        (true, request)]
    ∃ g : Generator ℝ, g.Reachable ∧ g.IdleBesides id calls ∧
      (∃ m g', (channel 0 tower car ⟨true, false⟩).run g = (.ok ⟨m, false⟩, g') ∧
        g'.peek ⟨1⟩ ⟨2⟩ = some ⟨m, false⟩ ∧
        (channel 0 tower car ⟨true, false⟩).run g' = (.ok ⟨m, false⟩, g')) ∧
      g.serveAll (calls.filter fun c => id c.1) =
        ((g.serveAll calls).1.filter fun r => id r.1, (g.serveAll calls).2) := by
  intro request calls
  obtain ⟨g, hg⟩ : ∃ g, g = fresh Scenario.ruralMacro (28000000000 : ℝ) 0 1 := ⟨_, rfl⟩
  have hreach : g.Reachable := .start (hg ▸ ofSettings_country)
  obtain ⟨m, source, hnew, hcomplete⟩ := channel_country
  obtain ⟨g', hg'⟩ : ∃ g', g' = g.store source ⟨1⟩ ⟨2⟩ m := ⟨_, rfl⟩
  rw [← hg, ← hg'] at hnew
  have hheld : g'.peek tower.endpoint.id car.endpoint.id = some ⟨m, false⟩ := by
    rw [hg', peek_store]
    rfl
  have hserves : g'.serves 0 true m = true := by
    rw [serves_iff]
    rcases channel_ok hnew with ⟨-, hpeek, -⟩ | ⟨_, -, -, -, hcondition, -⟩
    · rw [hg, peek_fresh] at hpeek
      cases hpeek
    · exact ⟨congrArg Condition.los hcondition, Or.inl (by rw [hg', hg]; rfl)⟩
  have hagain : (channel 0 tower car ⟨true, false⟩).run g' = (.ok ⟨m, false⟩, g') := by
    rcases channel_cases g' 0 tower car ⟨true, false⟩ apart_country with
      ⟨l, hl, -, hrun⟩ | ⟨hstale, -⟩
    · rw [hheld] at hl
      cases hl
      rw [hrun, checked_of_complete hcomplete (by decide)]
    · have hunserved := hstale _ hheld
      rw [hserves] at hunserved
      cases hunserved
  have hself : (tower.endpoint.position == tower.endpoint.position) = true := by
    change ((0 : ℝ) == 0 && (0 : ℝ) == 0 && (25 : ℝ) == 25) = true
    simp
  have hidle : g.IdleBesides id calls := by
    have hfirst : (g.serve request).2 = g' := congrArg Prod.snd hnew
    have hsecond : g'.Idle request := by
      simp only [request, Idle, hagain]
      exact hheld
    have hthird : g'.Idle (.request 0 tower tower ⟨true, false⟩) := by
      simp only [Idle, channel_coincident g' 0 tower tower ⟨true, false⟩ hself]
      rfl
    have hstay : (g'.serve request).2 = g' := congrArg Prod.snd hagain
    refine ⟨by simp, ?_⟩
    rw [hfirst]
    refine ⟨fun _ => hsecond, ?_⟩
    rw [hstay]
    exact ⟨fun _ => hthird, by simp, trivial⟩
  exact ⟨g, hreach, hidle, ⟨m, g', hnew, hheld, hagain⟩, hreach.traceless.2.2 Bool id calls hidle⟩

end Generator

end RadioChannel
