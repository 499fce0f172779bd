import RadioChannel.Spectrum.Evaluator
import RadioChannel.Proofs.Actions
import RadioChannel.Proofs.Requests

/-!
# Calls of the evaluator

A call first asks the generator for the channel. What follows reads nothing of the evaluator but its
carrier and the projections of the link on the beams that the call uses. Hence a property of steps
holds of what follows a channel as soon as it holds of these projections, of a look at the carrier and
of computations without state, and is kept by sequences.
-/

namespace RadioChannel

open Scalar

/-- What a host asks of an evaluator about two devices. -/
inductive Question (R : Type) where
  /-- The channel between them. -/
  | link
  /-- The spectrum received on a layer when one is sent on a layer. -/
  | received (sent : Spectrum R) (aLayer bLayer : UInt8)
  /-- The complex gains between two beams. -/
  | complex (grid : SpectrumGrid R) (aBeam bBeam : Beam R)
  /-- The channel between all elements at an offset from the carrier. -/
  | flat (offset : R)

/-- What a host is told. -/
inductive Answer (R : Type) where
  /-- A channel. -/
  | link (l : Link R)
  /-- A received spectrum. -/
  | spectrum (received : Spectrum R)
  /-- Complex gains. -/
  | gains (values : List (Phasor R))
  /-- A channel between elements. -/
  | matrix (entries : List (List (Phasor R)))

/-- A call of an evaluator. The devices come with all beams that are set on them. -/
structure Call (R : Type) where
  /-- The time. -/
  now : Nanoseconds
  /-- The device that transmits. -/
  a : Device R
  /-- The device that receives. -/
  b : Device R
  /-- What is asked. -/
  question : Question R

namespace Call

variable {R : Type}

/-- The pairs of beams that a call may project the link on. A digital combiner takes the beams of
all its layers. -/
def Uses (c : Call R) (x y : Beam R) : Prop :=
  match c.question with
  | .link | .flat _ => False
  | .complex _ aBeam bBeam => x = aBeam ∧ y = bBeam
  | .received _ aLayer bLayer =>
    match c.a.array.combiner, c.b.array.combiner with
    | none, none => c.a.array.beam aLayer = .ok x ∧ c.b.array.beam bLayer = .ok y
    | some _, none => (∃ input, c.a.array.beam input = .ok x) ∧ c.b.array.beam bLayer = .ok y
    | none, some _ => c.a.array.beam aLayer = .ok x ∧ ∃ input, c.b.array.beam input = .ok y
    | some _, some _ => False

/-- One call asks for the link of another from its other end. -/
def Opposes (c' c : Call R) : Prop :=
  c.a.id ≠ c.b.id ∧ c'.a.id = c.b.id ∧ c'.b.id = c.a.id

variable [Scalar R]

/-- The call as a step of the evaluator. -/
def evaluate (c : Call R) : Action R (Evaluator R) (Answer R) :=
  match c.question with
  | .link => .link <$> Evaluator.channel c.now c.a c.b
  | .received sent aLayer bLayer =>
    .spectrum <$> Evaluator.receivedSpectrum c.now sent c.a c.b aLayer bLayer
  | .complex grid aBeam bBeam =>
    .gains <$> Evaluator.complexSpectrum c.now grid c.a c.b aBeam bBeam
  | .flat offset => .matrix <$> Evaluator.flatMatrix c.now c.a c.b offset

/-- What a call does with the channel. -/
def follow (c : Call R) (l : Link R) : Action R (Evaluator R) (Answer R) :=
  match c.question with
  | .link => pure (.link l)
  | .received sent aLayer bLayer => do
    return .spectrum (sent.scaledBy
      (← Evaluator.powerGain c.now l c.a c.b aLayer bLayer sent.grid))
  | .complex grid aBeam bBeam => do
    return .gains (← Evaluator.gains c.now l c.a c.b aBeam bBeam grid)
  | .flat offset => do
    l.checkDimensions c.b.array.elementCount c.a.array.elementCount
    let s ← Action.get
    return .matrix (l.flatMatrix (s.doppler c.now l c.a c.b) (s.generator.frequency + offset)
      c.b.array.elementCount c.a.array.elementCount)

/-- A call is answered without any channel, or asks for it and goes on. -/
theorem evaluate_cases (c : Call R) :
    (∃ r, c.evaluate = Action.ofExcept r) ∨
      c.evaluate = Evaluator.channel c.now c.a c.b >>= c.follow := by
  obtain ⟨now, a, b, question⟩ := c
  cases question with
  | link => exact Or.inr rfl
  | received sent aLayer bLayer =>
    by_cases homni : (a.array.omni || b.array.omni) = true
    · refine Or.inl ⟨.ok (.spectrum sent), ?_⟩
      simp only [evaluate, Evaluator.receivedSpectrum, homni, if_true]
      rfl
    · refine Or.inr ?_
      simp only [evaluate, Evaluator.receivedSpectrum, homni, Bool.false_eq_true, if_false, map_bind]
      rfl
  | complex grid aBeam bBeam =>
    by_cases homni : (a.array.omni || b.array.omni) = true
    · refine Or.inl ⟨.error .omniArray, ?_⟩
      simp only [evaluate, Evaluator.complexSpectrum, homni, if_true]
      rfl
    · refine Or.inr ?_
      simp only [evaluate, Evaluator.complexSpectrum, homni, Bool.false_eq_true, if_false, map_bind]
      rfl
  | flat offset =>
    refine Or.inr ?_
    simp only [evaluate, Evaluator.flatMatrix, map_bind]
    rfl

end Call

namespace Evaluator

variable {R : Type}

/-! ## Composing evaluations -/

/-- A property of steps that holds of computations without state and of whatever only reads the
carrier, and that sequences keep. -/
structure Composable (P : ∀ ⦃α : Type⦄, Action R (Evaluator R) α → Prop) : Prop where
  ofExcept : ∀ ⦃α : Type⦄ (x : Except (Fault R) α), P (Action.ofExcept x)
  frequency : ∀ ⦃α : Type⦄ (f : R → α), P (Action.get >>= fun s => pure (f s.generator.frequency))
  bind : ∀ ⦃α β : Type⦄ {x : Action R (Evaluator R) α} {f : α → Action R (Evaluator R) β},
    P x → (∀ a, P (f a)) → P (x >>= f)

namespace Composable

variable {P : ∀ ⦃α : Type⦄, Action R (Evaluator R) α → Prop}

theorem pure (h : Composable P) {α : Type} (a : α) : P (pure a : Action R (Evaluator R) α) :=
  h.ofExcept (.ok a)

theorem map (h : Composable P) {α β : Type} {x : Action R (Evaluator R) α} (hx : P x) (f : α → β) :
    P (x >>= fun a => Pure.pure (f a)) :=
  h.bind hx fun a => h.pure (f a)

/-- What follows a computation without state matters for its answer only. -/
theorem ofExcept_bind (h : Composable P) {α β : Type} {x : Except (Fault R) α}
    {f : α → Action R (Evaluator R) β} (hf : ∀ a, x = .ok a → P (f a)) :
    P ((liftM x : Action R (Evaluator R) α) >>= f) := by
  cases hx : x with
  | error e => exact h.ofExcept (.error e)
  | ok a => exact hf a hx

theorem foldlM (h : Composable P) {α β : Type} {f : β → α → Action R (Evaluator R) β}
    (hf : ∀ b a, P (f b a)) (xs : List α) (b : β) : P (xs.foldlM f b) := by
  induction xs generalizing b with
  | nil => exact h.pure b
  | cons a xs ih =>
    rw [List.foldlM_cons]
    exact h.bind (hf b a) ih

end Composable

variable [Scalar R]

/-- The channel of the evaluator is the one of its generator, and nothing else changes. -/
theorem run_channel (s : Evaluator R) (now : Nanoseconds) (a b : Device R) :
    (channel now a b).run s =
      let r := (Generator.channel now a.terminal b.terminal (s.model.condition a.id b.id)).run
        s.generator
      (r.1, { s with generator := r.2 }) := by
  by_cases hpos : (a.endpoint.position == b.endpoint.position) = true
  · rw [Generator.channel_coincident s.generator now a.terminal b.terminal _ hpos]
    simp only [channel, hpos, if_true]
    rfl
  · simp only [channel, hpos]
    rfl

theorem apart_of_channel {s s' : Evaluator R} {now : Nanoseconds} {a b : Device R} {l : Link R}
    (h : (channel now a b).run s = (.ok l, s')) :
    (a.endpoint.position == b.endpoint.position) = false := by
  cases hpos : a.endpoint.position == b.endpoint.position with
  | false => rfl
  | true =>
    rw [run_channel, Generator.channel_coincident _ _ _ _ _ hpos] at h
    cases h

/-- Of the transmitter's array a flat matrix depends on the panel only. -/
theorem flatMatrix_congr (endpoint : Endpoint R) {x y : AntennaArray R} (h : x.panel = y.panel)
    (b : Device R) (now : Nanoseconds) (offset : R) :
    flatMatrix now ⟨endpoint, x⟩ b offset = flatMatrix now ⟨endpoint, y⟩ b offset := by
  unfold flatMatrix channel doppler Device.terminal Device.id AntennaArray.elementCount
  rw [h]

section FlatMatrix

variable {s s' : Evaluator R} {now : Nanoseconds} {a b : Device R} {offset : R}
variable {m : List (List (Phasor R))}

/-- A flat matrix comes from a link between arrays of as many elements. -/
theorem run_flatMatrix_ok :
    (flatMatrix now a b offset).run s = (.ok m, s') ↔
      ∃ l, (channel now a b).run s = (.ok l, s') ∧
        (l.rxCount = b.array.elementCount ∧ l.txCount = a.array.elementCount) ∧
        l.flatMatrix (s'.doppler now l a b) (s'.generator.frequency + offset)
          b.array.elementCount a.array.elementCount = m := by
  unfold flatMatrix
  simp only [Action.run_bind_ok, Action.run_liftExcept, Action.run_get, Action.run_pure,
    Prod.mk.injEq, Except.ok.injEq, ← Link.checkDimensions_ok]
  constructor
  · rintro ⟨l, u, hchannel, _, _, ⟨hsize, rfl⟩, _, _, ⟨rfl, rfl⟩, hm, rfl⟩
    exact ⟨l, hchannel, hsize, hm⟩
  · rintro ⟨l, hchannel, hsize, hm⟩
    exact ⟨l, s', hchannel, (), s', ⟨hsize, rfl⟩, s', s', ⟨rfl, rfl⟩, hm, rfl⟩

/-- A flat matrix has a row for each receiving element and a column for each transmitting one. -/
theorem length_flatMatrix (h : (flatMatrix now a b offset).run s = (.ok m, s')) :
    m.length = b.array.elementCount ∧ ∀ row ∈ m, row.length = a.array.elementCount := by
  obtain ⟨l, -, -, rfl⟩ := run_flatMatrix_ok.mp h
  unfold Link.flatMatrix
  refine ⟨by rw [List.length_map, List.length_range], fun row hrow => ?_⟩
  obtain ⟨r, -, rfl⟩ := List.mem_map.mp hrow
  rw [List.length_map, List.length_range]

end FlatMatrix

namespace Composable

variable {P : ∀ ⦃α : Type⦄, Action R (Evaluator R) α → Prop}
variable {now : Nanoseconds} {l : Link R} {a b : Device R}

/-- Gains are composed from one projection. -/
theorem gains (h : Composable P) {x y : Beam R} (hproj : P (projection l a.id b.id x y))
    (grid : SpectrumGrid R) : P (gains now l a b x y grid) :=
  h.bind hproj fun projected => h.frequency fun frequency =>
    l.gains projected (l.doppler frequency now a.endpoint.velocity b.endpoint.velocity) grid

/-- The gain of a combiner is composed from the projections on the beams of its layers. -/
theorem combinedGain (h : Composable P) {combiner : Combiner R} {layer : UInt8}
    {grid : SpectrumGrid R} {beams : UInt8 → Except (Fault R) (Beam R × Beam R)}
    (hproj : ∀ input x y, beams input = .ok (x, y) → P (projection l a.id b.id x y)) :
    P (combinedGain now l a b combiner layer grid beams) := by
  unfold Evaluator.combinedGain
  dsimp only
  split
  · exact h.pure _
  refine h.bind (h.foldlM (fun spectrum input => ?_) _ _) fun _ => h.pure _
  refine h.ofExcept_bind fun unused _ => ?_
  split
  · exact h.pure _
  refine h.ofExcept_bind fun pair hbeams => ?_
  exact h.bind (h.gains (hproj _ _ _ hbeams) grid) fun gain => h.ofExcept _

/-- What a call does with the channel is composed from the projections on the beams it uses. -/
theorem follow (h : Composable P) (c : Call R) (l : Link R)
    (hproj : ∀ x y, c.Uses x y → P (projection l c.a.id c.b.id x y)) : P (c.follow l) := by
  obtain ⟨now, a, b, question⟩ := c
  cases question with
  | link => exact h.pure _
  | complex grid aBeam bBeam => exact h.map (h.gains (hproj _ _ ⟨rfl, rfl⟩) grid) _
  | flat offset =>
    exact h.bind (h.ofExcept _) fun _ => h.frequency fun frequency =>
      Answer.matrix (l.flatMatrix
        (l.doppler frequency now a.endpoint.velocity b.endpoint.velocity) (frequency + offset)
        b.array.elementCount a.array.elementCount)
  | received sent aLayer bLayer =>
    refine h.map ?_ _
    unfold Call.Uses at hproj
    unfold powerGain
    rcases ha : a.array.combiner with _ | aCombiner <;>
      rcases hb : b.array.combiner with _ | bCombiner <;> simp only [ha, hb] at hproj ⊢
    · refine h.ofExcept_bind fun x hx => h.ofExcept_bind fun y hy => ?_
      exact h.map (h.gains (hproj x y ⟨hx, hy⟩) _) _
    · refine h.ofExcept_bind fun x hx => h.combinedGain fun input x' y hbeams => ?_
      obtain ⟨_, hy, hxy⟩ := except_map_ok.mp hbeams
      cases hxy
      exact hproj x y ⟨hx, input, hy⟩
    · refine h.ofExcept_bind fun y hy => h.combinedGain fun input x y' hbeams => ?_
      obtain ⟨_, hx, hxy⟩ := except_map_ok.mp hbeams
      cases hxy
      exact hproj x y ⟨⟨input, hx⟩, hy⟩
    · exact h.ofExcept _

end Composable

end Evaluator

end RadioChannel
