import RadioChannel.Proofs.Overrides

/-!
# Conditions of pairs

A table of conditions is a map on pairs of nodes without order. A pair has the condition that was set
last for its two nodes, whichever of them was named first, and the fallback if none was set. A scene has
two copies of its table, of which one classifies links, and no request changes one without the other.
-/

namespace RadioChannel

open Scalar

/-! ## Tables -/

namespace ConditionTable

/-- A condition to be set for the link between two endpoints. -/
structure Setting (R : Type) where
  a : Endpoint R
  b : Endpoint R
  condition : Condition

variable {R : Type}

/-- The setting is for the link between these endpoints, whichever it names first. -/
def Setting.Names (setting : Setting R) (x y : Endpoint R) : Prop :=
  s(setting.a.id, setting.b.id) = s(x.id, y.id)

/-- The table with a condition set. -/
def apply (t : ConditionTable) (setting : Setting R) : ConditionTable :=
  t.set setting.a.id setting.b.id setting.condition

/-- The table after conditions were set one after the other. -/
def ofSettings (fallback : Condition) (settings : List (Setting R)) : ConditionTable :=
  settings.foldl apply (ofFallback fallback)

variable {fallback : Condition} {settings : List (Setting R)} {x y : Endpoint R}

theorem condition_comm (t : ConditionTable) (a b : NodeId) : t.condition a b = t.condition b a :=
  (ConditionModel.table t).condition_comm a b

theorem condition_ofFallback (fallback : Condition) (a b : NodeId) :
    (ofFallback fallback).condition a b = fallback := by
  simp [condition, ofFallback]

theorem condition_apply_of_names {setting : Setting R} (h : setting.Names x y) (t : ConditionTable) :
    (t.apply setting).condition x.id y.id = setting.condition := by
  rw [apply, condition_set]
  exact if_pos h

/-- Settings for other links leave a link its condition. -/
theorem condition_foldl_apply (h : ∀ setting ∈ settings, ¬setting.Names x y) (t : ConditionTable) :
    (settings.foldl apply t).condition x.id y.id = t.condition x.id y.id := by
  induction settings generalizing t with
  | nil => rfl
  | cons setting settings ih =>
    obtain ⟨hother, hothers⟩ := List.forall_mem_cons.mp h
    rw [List.foldl_cons, ih hothers, apply, condition_set]
    exact if_neg hother

/-- A link has the condition of the last setting for it. -/
theorem condition_ofSettings_of_last {setting : Setting R} (h : setting.Names x y)
    (earlier : List (Setting R)) {later : List (Setting R)}
    (hlater : ∀ setting ∈ later, ¬setting.Names x y) :
    (ofSettings fallback (earlier ++ setting :: later)).condition x.id y.id = setting.condition := by
  rw [ofSettings, List.foldl_append, List.foldl_cons, condition_foldl_apply hlater,
    condition_apply_of_names h]

theorem condition_ofSettings_of_none (h : ∀ setting ∈ settings, ¬setting.Names x y) :
    (ofSettings fallback settings).condition x.id y.id = fallback := by
  rw [ofSettings, condition_foldl_apply h, condition_ofFallback]

end ConditionTable

/-! ## Scenes -/

namespace Scene

open ConditionTable (Setting)

variable {R : Type} [Scalar R]

omit [Scalar R] in
/-- A condition that is refused changes nothing. -/
theorem setCondition_error {s s' : Scene R} {a b : NodeId} {c : Condition} {e : Fault R}
    (h : (setCondition a b c).run s = (.error e, s')) : s' = s := by
  rcases setCondition_cases a b c s with ⟨e', hrun⟩ | ⟨ta, tb, -, -, hrun⟩ <;> rw [hrun] at h
  · exact (Prod.mk.inj h).2.symm
  · cases (Prod.mk.inj h).1

/-- A table of conditions is a map on pairs. Both ends of a link are told one condition, the one that was
set last for the two nodes in either order, or the fallback if none was. After any requests, those that
fail included, the evaluator of a scene tells every pair what the scene's own table does. That is what the
host has given to the pair last, and a condition that is refused leaves the scene as it was. -/
theorem conditions_of_pairs :
    (∀ (fallback : Condition) (settings : List (Setting R)) (x y : Endpoint R),
      let t := ConditionTable.ofSettings fallback settings
      t.condition x.id y.id = t.condition y.id x.id ∧
      (∀ earlier setting later, settings = earlier ++ setting :: later → setting.Names x y →
        (∀ other ∈ later, ¬other.Names x y) → t.condition x.id y.id = setting.condition) ∧
      ((∀ setting ∈ settings, ¬setting.Names x y) → t.condition x.id y.id = fallback)) ∧
    ∀ (settings : SceneSettings R) (start : Scene R) (past : List (Request R)),
      ofSettings settings = .ok start →
      (∀ a b, (start.after past).evaluator.model.condition a b =
          (start.after past).conditions.condition a b ∧
        (start.after past).conditions.condition a b = start.given past a b) ∧
      ∀ a b c e s', (setCondition a b c).run (start.after past) = (.error e, s') →
        s' = start.after past := by
  refine ⟨fun fallback settings x y => ⟨ConditionTable.condition_comm _ _ _, ?_,
    ConditionTable.condition_ofSettings_of_none⟩, fun settings start past hstart => ⟨fun a b => ?_,
    fun a b c e s' hrun => setCondition_error hrun⟩⟩
  · rintro earlier setting later rfl hnames hlater
    exact ConditionTable.condition_ofSettings_of_last hnames earlier hlater
  · have htold := told_of_settings hstart past
    exact ⟨(htold.condition a b).trans (htold.table a b).symm, htold.table a b⟩

/-- A tower and a house do not see each other, and then, in the other order, their link leads indoors. In
their scene this condition reaches the evaluator, and a condition for a device that is not there changes
nothing. -/
theorem conditions_of_pairs_country :
    let settings : List (Setting ℝ) := [⟨tower.endpoint, house.endpoint, .obstructed⟩,
      ⟨house.endpoint, tower.endpoint, ⟨true, true⟩⟩,
      ⟨house.endpoint, { tower.endpoint with id := ⟨3⟩ }, .lineOfSight⟩]
    let t := ConditionTable.ofSettings .obstructed settings
    t.condition ⟨1⟩ ⟨2⟩ = ⟨true, true⟩ ∧ t.condition ⟨2⟩ ⟨1⟩ = ⟨true, true⟩ ∧
    ∃ start s', ofSettings country = .ok start ∧
      (setCondition ⟨1⟩ ⟨9⟩ .obstructed).run (start.after settling) =
        (.error (.unknownDevice ⟨9⟩), s') ∧ s' = start.after settling ∧
      (start.after (.setCondition ⟨2⟩ ⟨1⟩ ⟨true, true⟩ :: settling)).evaluator.model.condition ⟨1⟩ ⟨2⟩ =
        ⟨true, true⟩ := by
  intro settings t
  obtain ⟨htables, hscenes⟩ := conditions_of_pairs (R := ℝ)
  obtain ⟨hcomm, hlast, -⟩ := htables .obstructed settings tower.endpoint house.endpoint
  have hset : t.condition ⟨1⟩ ⟨2⟩ = ⟨true, true⟩ := by
    refine hlast [_] _ [_] rfl (by decide : s((⟨2⟩ : NodeId), ⟨1⟩) = s(⟨1⟩, ⟨2⟩)) ?_
    rw [List.forall_mem_singleton]
    exact (by decide : s((⟨2⟩ : NodeId), ⟨3⟩) ≠ s(⟨1⟩, ⟨2⟩))
  obtain ⟨start, hstart, hempty, -⟩ := ofSettings_country
  obtain ⟨engine, hsettled⟩ := after_settling hempty
  obtain ⟨hfirst, hsecond⟩ := stations_added start engine
  have hninth : (start.after settling).stations[(⟨9⟩ : NodeId)]? = none := by
    rw [hsettled, stations_put, if_neg (by decide), stations_put, if_neg (by decide), hempty]
    simp
  rw [← hsettled] at hfirst hsecond
  have hrefused : (setCondition ⟨1⟩ ⟨9⟩ .obstructed).run (start.after settling) =
      (.error (.unknownDevice ⟨9⟩), start.after settling) := by
    unfold setCondition
    rw [Action.run_bind_of_ok (Action.run_get _), Action.run_bind, Action.run_liftExcept,
      station_ok.mpr hfirst]
    dsimp only
    rw [Action.run_bind, Action.run_liftExcept, station, hninth]
  obtain ⟨hcopies, -⟩ := hscenes country start (.setCondition ⟨2⟩ ⟨1⟩ ⟨true, true⟩ :: settling) hstart
  obtain ⟨hmodel, hgiven⟩ := hcopies ⟨1⟩ ⟨2⟩
  obtain ⟨-, hkept⟩ := hscenes country start settling hstart
  refine ⟨hset, hcomm.symm.trans hset, start, _, hstart, hrefused, hkept _ _ _ _ _ hrefused, ?_⟩
  rw [hmodel, hgiven, given]
  simp [given?, ask, Action.run_map, run_setCondition hsecond hfirst, Except.isOk, Except.toBool,
    Except.map]

end Scene

end RadioChannel
