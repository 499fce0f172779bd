import RadioChannel.Antenna.Array
import RadioChannel.Scalar.Binary64

/-!
# What an array remembers

An array that goes through any calls is read off its history. For each peer and layer it has stored the
beam that was set last for both. On each layer the beam is active that was last set or selected there,
and this is still the beam stored for some peer. It radiates without a beam if that was said last, and its
combiner is the one set last, unless it was removed since.
-/

namespace RadioChannel

namespace AntennaArray

variable {R : Type}

/-! ## Calls -/

/-- A call on an array. -/
inductive Call (R : Type) where
  | setBeam (peer : NodeId) (layer : UInt8) (beam : Beam R) (now : Nanoseconds)
  | selectBeam (peer : NodeId) (layer : UInt8)
  | setOmni
  | setCombiner (m : Combiner R)
  | clearCombiner

/-- The layer whose active beam a call is about. -/
def Call.layer? : Call R → Option UInt8
  | .setBeam _ layer _ _ => some layer
  | .selectBeam _ layer => some layer
  | _ => none

/-- The array that a call makes of an array. -/
def perform (a : AntennaArray R) : Call R → Except (Fault R) (AntennaArray R)
  | .setBeam peer layer beam now => .ok (a.setBeam peer layer beam now)
  | .selectBeam peer layer => a.selectBeam peer layer
  | .setOmni => .ok a.setOmni
  | .setCombiner m => .ok (a.setCombiner m)
  | .clearCombiner => .ok a.clearCombiner

/-- The array after a call. A call that fails makes no new array, and the old one stays. -/
def step (a : AntennaArray R) (call : Call R) : AntennaArray R :=
  match a.perform call with
  | .ok a' => a'
  | .error _ => a

/-- The array on a panel after calls, of which the last one is listed first. -/
def after (panel : Panel R) : List (Call R) → AntennaArray R
  | [] => .ofPanel panel
  | call :: past => (after panel past).step call

/-! ## Histories -/

/-- What the last call did that did something of a kind. What a call does may depend on the calls before
it. -/
def latest {α : Type} (effect : List (Call R) → Call R → Option α) : List (Call R) → Option α
  | [] => none
  | call :: past => (effect past call).or (latest effect past)

/-- What a call stores for a peer on a layer. -/
def Call.stores (peer : NodeId) (layer : UInt8) : Call R → Option (StoredBeam R)
  | .setBeam peer' layer' beam now => if (peer', layer') = (peer, layer) then some ⟨beam, now⟩ else none
  | _ => none

/-- The beam that was set last for a peer on a layer, and when. -/
def lastSet (peer : NodeId) (layer : UInt8) : List (Call R) → Option (StoredBeam R) :=
  latest fun _ call => call.stores peer layer

/-- The beam that a call makes active: the one it sets, or the one it selects, if that was set before. -/
def Call.beam? (past : List (Call R)) : Call R → Option (Beam R)
  | .setBeam _ _ beam _ => some beam
  | .selectBeam peer layer => (lastSet peer layer past).map StoredBeam.beam
  | _ => none

/-- The beam that was last set or selected on a layer, for any peer. -/
def lastActive (layer : UInt8) : List (Call R) → Option (Beam R) :=
  latest fun past call => if call.layer? = some layer then call.beam? past else none

/-- Whether a call lets the array radiate without a beam or ends that; other calls do neither. -/
def Call.silences (past : List (Call R)) : Call R → Option Bool
  | .setOmni => some true
  | call => (call.beam? past).map fun _ => false

/-- Whether the last call that let the array radiate without a beam or ended that did the former. -/
def lastSilence : List (Call R) → Option Bool := latest Call.silences

/-- The combiner that a call about combiners leaves behind, or none. -/
def Call.combines : Call R → Option (Option (Combiner R))
  | .setCombiner m => some (some m)
  | .clearCombiner => some none
  | _ => none

/-- The combiner that the last call about combiners left behind. -/
def lastCombiner : List (Call R) → Option (Option (Combiner R)) := latest fun _ call => call.combines

/-! ## One call -/

/-- An array is as its history says. -/
structure Remembers (a : AntennaArray R) (past : List (Call R)) : Prop where
  stored : ∀ peer layer, a.stored[(peer, layer)]? = lastSet peer layer past
  current : ∀ layer : UInt8, a.current[layer]? = lastActive layer past
  held : ∀ (layer : UInt8) beam, a.current[layer]? = some beam → ∃ peer,
    a.storedBeam? peer layer = some beam
  omni : a.omni = (lastSilence past).getD false
  combiner : a.combiner = (lastCombiner past).join

theorem remembers_ofPanel (panel : Panel R) : (ofPanel panel).Remembers [] where
  stored := by simp [ofPanel, lastSet, latest]
  current := by simp [ofPanel, lastActive, latest]
  held := by simp [ofPanel]
  omni := rfl
  combiner := rfl

namespace Remembers

variable {a : AntennaArray R} {past : List (Call R)}

/-- A beam that a call makes active on a layer is the last one there, and all other layers stay. -/
theorem current_insert (h : a.Remembers past) {call : Call R} {layer : UInt8} {beam : Beam R}
    (hlayer : call.layer? = some layer) (hbeam : call.beam? past = some beam) (layer' : UInt8) :
    (a.current.insert layer beam)[layer']? = lastActive layer' (call :: past) := by
  rw [Std.TreeMap.getElem?_insert, h.current]
  simp only [lastActive, latest, hlayer, hbeam, Option.some.injEq,
    Std.LawfulEqCmp.compare_eq_iff_eq]
  split <;> rfl

theorem setBeam (h : a.Remembers past) (peer : NodeId) (layer : UInt8) (beam : Beam R)
    (now : Nanoseconds) :
    (a.setBeam peer layer beam now).Remembers (.setBeam peer layer beam now :: past) where
  stored peer' layer' := by
    rw [AntennaArray.setBeam, Std.HashMap.getElem?_insert, h.stored]
    simp only [lastSet, latest, Call.stores, beq_iff_eq]
    split <;> rfl
  current layer' := h.current_insert rfl rfl layer'
  held layer' beam' hbeam := by
    rw [AntennaArray.setBeam, Std.TreeMap.getElem?_insert] at hbeam
    simp only [storedBeam?, AntennaArray.setBeam, Std.HashMap.getElem?_insert]
    split at hbeam
    · next hlayer =>
      obtain rfl := Std.LawfulEqCmp.compare_eq_iff_eq.mp hlayer
      exact ⟨peer, by simpa using hbeam⟩
    · next hlayer =>
      obtain ⟨peer', hstored⟩ := h.held layer' beam' hbeam
      refine ⟨peer', ?_⟩
      rw [if_neg (by simp_all)]
      exact hstored
  omni := rfl
  combiner := h.combiner

theorem selectBeam (h : a.Remembers past) {peer : NodeId} {layer : UInt8} {stored : StoredBeam R}
    (hstored : a.stored[(peer, layer)]? = some stored) :
    Remembers { a with omni := false, current := a.current.insert layer stored.beam }
      (.selectBeam peer layer :: past) where
  stored := h.stored
  current layer' := by
    refine h.current_insert rfl ?_ layer'
    rw [Call.beam?, ← h.stored, hstored]
    rfl
  held layer' beam' hbeam := by
    rw [Std.TreeMap.getElem?_insert] at hbeam
    split at hbeam
    · next hlayer =>
      obtain rfl := Std.LawfulEqCmp.compare_eq_iff_eq.mp hlayer
      exact ⟨peer, by rw [storedBeam?, hstored, ← hbeam]; rfl⟩
    · exact h.held layer' beam' hbeam
  omni := by
    simp [lastSilence, latest, Call.silences, Call.beam?, ← h.stored, hstored]
  combiner := h.combiner

/-- A selection without a beam is none to remember. -/
theorem selectBeam_missing (h : a.Remembers past) {peer : NodeId} {layer : UInt8}
    (hstored : a.stored[(peer, layer)]? = none) : a.Remembers (.selectBeam peer layer :: past) := by
  have hbeam : (Call.selectBeam peer layer).beam? past = none := by
    rw [Call.beam?, ← h.stored, hstored]
    rfl
  refine ⟨h.stored, fun layer' => ?_, h.held, ?_, h.combiner⟩
  · simp [h.current, lastActive, latest, hbeam]
  · simp [h.omni, lastSilence, latest, Call.silences, hbeam]

theorem step (h : a.Remembers past) (call : Call R) : (a.step call).Remembers (call :: past) := by
  cases call with
  | setBeam peer layer beam now => exact h.setBeam peer layer beam now
  | selectBeam peer layer =>
    simp only [AntennaArray.step, perform, AntennaArray.selectBeam]
    split
    · next hperform =>
      split at hperform
      · next stored hstored =>
        cases hperform
        exact h.selectBeam hstored
      · cases hperform
    · next hperform =>
      split at hperform
      · cases hperform
      · next hstored => exact h.selectBeam_missing hstored
  | setOmni => exact ⟨h.stored, h.current, h.held, rfl, h.combiner⟩
  | setCombiner m => exact ⟨h.stored, h.current, h.held, h.omni, rfl⟩
  | clearCombiner => exact ⟨h.stored, h.current, h.held, h.omni, rfl⟩

theorem beam_eq (h : a.Remembers past) (layer : UInt8) :
    a.beam layer = (lastActive layer past).elim (.error (.missingBeam layer)) .ok := by
  rw [beam, h.current]
  cases lastActive layer past <;> rfl

/-- A call fails where it selects what was never set. -/
theorem perform_error_iff (h : a.Remembers past) {call : Call R} {e : Fault R} :
    a.perform call = .error e ↔ ∃ peer layer, call = .selectBeam peer layer ∧
      lastSet peer layer past = none ∧ e = .missingBeam layer := by
  cases call with
  | selectBeam peer layer =>
    rw [perform, AntennaArray.selectBeam, h.stored]
    constructor
    · intro herror
      cases hset : lastSet peer layer past with
      | some stored =>
        rw [hset] at herror
        cases herror
      | none =>
        rw [hset] at herror
        exact ⟨peer, layer, rfl, hset, (Except.error.inj herror).symm⟩
    · rintro ⟨peer', layer', hcall, hset, rfl⟩
      cases hcall
      rw [hset]
  | _ => simp [perform]

end Remembers

theorem step_of_error {a : AntennaArray R} {call : Call R} {e : Fault R}
    (h : a.perform call = .error e) : a.step call = a := by
  rw [step, h]

theorem remembers_after (panel : Panel R) (past : List (Call R)) :
    (after panel past).Remembers past := by
  induction past with
  | nil => exact remembers_ofPanel panel
  | cons call past ih => exact ih.step call

/-! ## All calls -/

/-- An array is read off the calls it went through. Stored are the beams set last for each peer and layer,
with their times. Active on a layer is the beam that was set or selected there last, and this is the one
now stored for some peer. A call fails only if it selects what was never set, and then it changes nothing.
No call touches the active beams of other layers, and only calls about combiners touch the combiner. -/
theorem after_of_history (panel : Panel R) (past : List (Call R)) :
    let a := after panel past
    (∀ peer layer, a.storedBeam? peer layer = (lastSet peer layer past).map StoredBeam.beam ∧
      a.updateTime? peer layer = (lastSet peer layer past).map StoredBeam.updatedAt) ∧
    (∀ layer, a.beam layer = (lastActive layer past).elim (.error (.missingBeam layer)) .ok) ∧
    (∀ layer beam, a.beam layer = .ok beam → ∃ peer, a.storedBeam? peer layer = some beam) ∧
    (a.omni = true ↔ lastSilence past = some true) ∧
    a.combiner = (lastCombiner past).join ∧
    ∀ call,
      (∀ e, a.perform call = .error e ↔ ∃ peer layer, call = .selectBeam peer layer ∧
        lastSet peer layer past = none ∧ e = .missingBeam layer) ∧
      (∀ e, a.perform call = .error e → after panel (call :: past) = a) ∧
      (∀ layer, call.layer? ≠ some layer → (after panel (call :: past)).beam layer = a.beam layer) ∧
      (call.combines = none → (after panel (call :: past)).combiner = a.combiner) := by
  have h := remembers_after panel past
  refine ⟨fun peer layer => ?_, h.beam_eq, fun layer beam hbeam => ?_, ?_, h.combiner, fun call =>
    ⟨fun e => h.perform_error_iff, fun e he => step_of_error he, fun layer hlayer => ?_,
      fun hcombines => ?_⟩⟩
  · rw [storedBeam?, updateTime?, h.stored]
    exact ⟨rfl, rfl⟩
  · refine h.held layer beam ?_
    rw [AntennaArray.beam] at hbeam
    split at hbeam
    · next hcurrent =>
      cases hbeam
      exact hcurrent
    · cases hbeam
  · rw [h.omni]
    cases lastSilence past <;> simp
  · rw [h.beam_eq, (remembers_after panel (call :: past)).beam_eq]
    simp only [lastActive, latest, if_neg hlayer, Option.none_or]
  · rw [h.combiner, (remembers_after panel (call :: past)).combiner]
    simp only [lastCombiner, latest, hcombines, Option.none_or]

/-- Two peers share a layer. The first one's beam is selected again while the second one's stays stored,
and a third peer has none to select. -/
theorem after_of_history_shared :
    let panel : Panel Float := .ofSize 1 1
    let first : Beam Float := ⟨[⟨1, 0⟩], ⟨10⟩⟩
    let second : Beam Float := ⟨[⟨0, 1⟩], ⟨20⟩⟩
    let past : List (Call Float) :=
      [.selectBeam ⟨1⟩ 0, .setOmni, .setBeam ⟨2⟩ 0 second 1, .setBeam ⟨1⟩ 0 first 0]
    let a := after panel past
    (a.beam 0 = .ok first ∧ ∃ peer, a.storedBeam? peer 0 = some first) ∧
    (a.storedBeam? ⟨2⟩ 0 = some second ∧ a.updateTime? ⟨2⟩ 0 = some 1) ∧
    a.omni = false ∧
    (a.perform (.selectBeam ⟨3⟩ 0) = .error (.missingBeam 0) ∧
      after panel (.selectBeam ⟨3⟩ 0 :: past) = a) ∧
    (after panel (.setBeam ⟨3⟩ 1 second 2 :: past)).beam 0 = .ok first := by
  intro panel first second past a
  obtain ⟨hstored, hbeam, hheld, homni, -, hcalls⟩ := after_of_history panel past
  have hactive : lastActive 0 past = some first := by
    simp [past, lastActive, lastSet, latest, Call.layer?, Call.beam?, Call.stores]
  have hbeam' : a.beam 0 = .ok first := by
    rw [hbeam, hactive]
    rfl
  have hsecond : lastSet ⟨2⟩ 0 past = some ⟨second, 1⟩ := by
    simp [past, lastSet, latest, Call.stores]
  have hthird : lastSet ⟨3⟩ 0 past = none := by
    simp [past, lastSet, latest, Call.stores]
  obtain ⟨herror, hsame, -⟩ := hcalls (.selectBeam ⟨3⟩ 0)
  obtain ⟨-, -, hother, -⟩ := hcalls (.setBeam ⟨3⟩ 1 second 2)
  have hfails := (herror (.missingBeam 0)).mpr ⟨⟨3⟩, 0, rfl, hthird, rfl⟩
  have hsounds : lastSilence past = some false := by
    simp [past, lastSilence, lastSet, latest, Call.silences, Call.beam?, Call.stores]
  refine ⟨⟨hbeam', hheld 0 first hbeam'⟩, ?_, ?_, ⟨hfails, hsame _ hfails⟩,
    (hother 0 (by decide)).trans hbeam'⟩
  · obtain ⟨hstored', htime⟩ := hstored ⟨2⟩ 0
    rw [hsecond] at hstored' htime
    exact ⟨hstored', htime⟩
  · rw [hsounds] at homni
    simpa using homni

end AntennaArray

end RadioChannel
