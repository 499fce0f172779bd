import RadioChannel.Linear.Matrix
import RadioChannel.Proofs.Coefficients
import RadioChannel.Proofs.Idling

/-!
# Both directions of a link

A realization is drawn for one direction of a link and read in both. For the other direction the
elements, the weights and the velocities change places, and nothing else does: the channel between
elements is the transpose, and the gains between beams are the same.
-/

namespace RadioChannel

open Scalar

namespace Matrix

variable {R : Type} [Scalar R]

/-- The matrix with its columns, of which there are so many, as rows. -/
def transposed (columns : Nat) (m : Matrix R) : Matrix R :=
  (List.range columns).map fun j => m.map fun row => row[j]?.getD .zero

/-- A table with so many columns, with its indices exchanged. -/
theorem transposed_table (f : Nat → Nat → Phasor R) (rows columns : Nat) :
    transposed columns ((List.range rows).map fun i => (List.range columns).map (f i)) =
      (List.range columns).map fun j => (List.range rows).map fun i => f i j := by
  refine List.map_congr_left fun j hj => ?_
  rw [List.map_map]
  refine List.map_congr_left fun i _ => ?_
  simp [List.mem_range.mp hj]

end Matrix

/-! ## A link seen from its other end -/

namespace Link

variable {R : Type}

@[simp] theorem rxCount_flip (l : Link R) : l.flip.rxCount = l.txCount := by
  obtain ⟨m, _ | _⟩ := l <;> rfl

@[simp] theorem txCount_flip (l : Link R) : l.flip.txCount = l.rxCount := by
  obtain ⟨m, _ | _⟩ := l <;> rfl

@[simp] theorem response_flip (l : Link R) (rx tx : Nat) :
    l.flip.response tx rx = l.response rx tx := by
  obtain ⟨m, _ | _⟩ := l <;> rfl

variable [Scalar R]

@[simp] theorem doppler_flip (l : Link R) (frequency : R) (now : Nanoseconds) (a b : Vec3 R) :
    l.flip.doppler frequency now b a = l.doppler frequency now a b := by
  obtain ⟨m, _ | _⟩ := l <;> rfl

@[simp] theorem project_flip (l : Link R) (x y : List (Phasor R)) :
    l.flip.project y x = l.project x y := by
  obtain ⟨m, _ | _⟩ := l <;> rfl

theorem flatMatrix_flip (l : Link R) (rotation : List (Phasor R)) (frequency : R) (rx tx : Nat) :
    l.flip.flatMatrix rotation frequency tx rx =
      Matrix.transposed tx (l.flatMatrix rotation frequency rx tx) := by
  rw [flatMatrix, flatMatrix, Matrix.transposed_table]
  simp only [response_flip]
  rfl

end Link

namespace Evaluator

variable {R : Type} [Scalar R] {s s' : Evaluator R} {now : Nanoseconds} {a b : Device R} {l : Link R}

theorem doppler_flip (s : Evaluator R) (now : Nanoseconds) (l : Link R) (a b : Device R) :
    s.doppler now l.flip b a = s.doppler now l a b := Link.doppler_flip l _ _ _ _

/-- The gains between two beams are those of the link seen from its other end. -/
theorem freshGains_flip (s : Evaluator R) (now : Nanoseconds) (l : Link R) (a b : Device R)
    (x y : Beam R) (grid : SpectrumGrid R) :
    s.freshGains now l.flip b a y x grid = s.freshGains now l a b x y grid := by
  rw [freshGains, freshGains, Link.project_flip, doppler_flip]
  rfl

/-- A link that serves requests of one end serves those of the other end. -/
theorem Settled.flip {own peer : NodeId} (h : s.Settled now own peer l) (ho : s.generator.Orderly)
    (hne : own ≠ peer) : s.Settled now peer own l.flip where
  held := ho.peek_swap hne h.held
  serves := by
    rw [ConditionModel.condition_comm]
    exact h.serves

theorem orderly_channel (h : s.generator.Orderly) (now : Nanoseconds) (a b : Device R) :
    ((channel now a b).run s).2.generator.Orderly := by
  rw [run_channel]
  exact h.channel _ _ _ _

/-- Asked from its other end right away, a link is the same realization seen from there, if the arrays
are those it was drawn for. -/
theorem channel_flip (ho : s.generator.Orderly) (hne : a.id ≠ b.id)
    (hpos : (b.endpoint.position == a.endpoint.position) = false)
    (h : (channel now a b).run s = (.ok l, s'))
    (hsize : l.rxCount = b.array.elementCount ∧ l.txCount = a.array.elementCount) :
    (channel now b a).run s' = (.ok l.flip, s') := by
  have ho' : s'.generator.Orderly := by
    have hkept := orderly_channel ho now a b
    rwa [h] at hkept
  exact ((settled_of_channel hne h).flip ho' hne).channel hpos (by rw [Link.rxCount_flip, hsize.2])
    (by rw [Link.txCount_flip, hsize.1])

/-- Asked from the other end right away, the channel between elements is the transpose. -/
theorem flatMatrix_flip (ho : s.generator.Orderly) (hne : a.id ≠ b.id)
    (hpos : (b.endpoint.position == a.endpoint.position) = false) {offset : R} {m : Matrix R}
    (h : (flatMatrix now a b offset).run s = (.ok m, s')) :
    (flatMatrix now b a offset).run s' = (.ok (m.transposed a.array.elementCount), s') := by
  obtain ⟨l, hchannel, hsize, rfl⟩ := run_flatMatrix_ok.mp h
  refine run_flatMatrix_ok.mpr ⟨l.flip, channel_flip ho hne hpos hchannel hsize, ?_, ?_⟩
  · rw [Link.rxCount_flip, Link.txCount_flip]
    exact hsize.symm
  · rw [doppler_flip, Link.flatMatrix_flip]

/-- Direction symmetry. Asked from the other end right after it was given, the channel between the
elements of two devices is the transpose, bit by bit. Both ends hold one realization, each in its own
direction, and whichever direction it was drawn for, it gives both ends the same gains between their
beams. -/
theorem Calls.reciprocal {past : List (Call R)} (h : Calls s past) (hne : a.id ≠ b.id)
    (hpos : (b.endpoint.position == a.endpoint.position) = false) (now : Nanoseconds) :
    (∀ (offset : R) (m : Matrix R) (s' : Evaluator R),
      (flatMatrix now a b offset).run s = (.ok m, s') →
        m.length = b.array.elementCount ∧ (∀ row ∈ m, row.length = a.array.elementCount) ∧
        (flatMatrix now b a offset).run s' = (.ok (m.transposed a.array.elementCount), s')) ∧
    (∀ l, s.generator.peek a.id b.id = some l → s.generator.peek b.id a.id = some l.flip) ∧
    (∀ (l : Link R) (x y : Beam R) (grid : SpectrumGrid R),
      s.freshGains now l.flip b a y x grid = s.freshGains now l a b x y grid) := by
  have ho := h.traced.orderly
  refine ⟨fun offset m s' hrun => ?_, fun l => ho.peek_swap hne, fun l => s.freshGains_flip now l a b⟩
  obtain ⟨hrows, hcolumns⟩ := length_flatMatrix hrun
  exact ⟨hrows, hcolumns, flatMatrix_flip ho hne hpos hrun⟩

end Evaluator

/-! ## Two moving devices in the country -/

/-- A drone with a row of four antennas. -/
noncomputable def drone : Device ℝ :=
  ⟨⟨⟨1⟩, ⟨0, 0, 25⟩, ⟨3, 0, 0⟩⟩, .ofPanel (.ofSize 4 1)⟩

/-- A rover with a row of two antennas. -/
noncomputable def rover : Device ℝ :=
  ⟨⟨⟨2⟩, ⟨40, 10, 1⟩, ⟨0, 2, 0⟩⟩, .ofPanel (.ofSize 2 1)⟩

/-- An evaluator in the country that has evaluated nothing. -/
noncomputable def field : Evaluator ℝ :=
  .ofGenerator (.fresh .ruralMacro 28000000000 0 1) (.fixed .lineOfSight)

namespace Evaluator

/-- In the country a link that is not held yet is drawn, for the arrays at its ends. -/
theorem flatMatrix_of_unheld {s : Evaluator ℝ} {a b : Device ℝ}
    (hscenario : s.generator.scenario = .ruralMacro) (hf : (s.generator.frequency == 0) = false)
    (hnone : s.generator.peek a.id b.id = none)
    (hpos : (a.endpoint.position == b.endpoint.position) = false)
    (helements : 0 < b.array.elementCount) (now : Nanoseconds) (offset : ℝ) :
    ∃ m s', (flatMatrix now a b offset).run s = (.ok m, s') := by
  have hstale (l : Link ℝ) (hl : s.generator.peek a.id b.id = some l) :
      s.generator.serves now (s.model.condition a.id b.id).los l.realization = false := by
    rw [hnone] at hl
    cases hl
  obtain ⟨-, hdrawn, -⟩ := Generator.channel_breach_iff s.generator now a.terminal b.terminal
    (s.model.condition a.id b.id) (Generator.comparable_real _ _ _ _)
  obtain ⟨m, source, hrun, hcomplete⟩ := hdrawn hpos hstale hf (by rw [hscenario]; rfl)
    (by rw [hscenario]; exact fun h => Bool.false_ne_true h.1)
  have hchecked := Generator.checked_of_complete hcomplete helements
  unfold Generator.checked at hchecked
  split at hchecked
  · next hsize => exact ⟨_, _, run_flatMatrix_ok.mpr ⟨⟨m, false⟩, by rw [run_channel, hrun], hsize, rfl⟩⟩
  · cases hchecked

theorem apart_field : (drone.endpoint.position == rover.endpoint.position) = false ∧
    (rover.endpoint.position == drone.endpoint.position) = false := by
  constructor
  · change ((0 : ℝ) == 40 && (0 : ℝ) == 10 && (25 : ℝ) == 1) = false
    rw [ExactScalars.zero_beq_numeral]
    rfl
  · change ((40 : ℝ) == 0 && (10 : ℝ) == 0 && (1 : ℝ) == 25) = false
    rw [ExactScalars.numeral_beq_zero]
    rfl

theorem flatMatrix_field (offset : ℝ) :
    ∃ m s', (flatMatrix 0 drone rover offset).run field = (.ok m, s') :=
  flatMatrix_of_unheld rfl (ExactScalars.numeral_beq_zero _) (Generator.peek_fresh _ _ _ _ _ _)
    apart_field.1 (by decide) 0 offset

/-- The drone asks for its channel to the rover, and the rover for the one to the drone. -/
theorem reciprocal_field :
    Calls field [] ∧ drone.id ≠ rover.id ∧
      (rover.endpoint.position == drone.endpoint.position) = false ∧
      ∃ m s', (flatMatrix 0 drone rover 0).run field = (.ok m, s') ∧
        m.length = 2 ∧ (∀ row ∈ m, row.length = 4) ∧
        (flatMatrix 0 rover drone 0).run s' = (.ok (Matrix.transposed 4 m), s') ∧
        ∀ (l : Link ℝ) (x y : Beam ℝ) (grid : SpectrumGrid ℝ),
          field.freshGains 0 l.flip rover drone y x grid = field.freshGains 0 l drone rover x y grid := by
  have hcalls : Calls field [] := .start rfl rfl
  have hne : drone.id ≠ rover.id := by decide
  obtain ⟨hflat, -, hgains⟩ := hcalls.reciprocal hne apart_field.2 0
  obtain ⟨m, s', hrun⟩ := flatMatrix_field 0
  obtain ⟨hrows, hcolumns, hback⟩ := hflat 0 m s' hrun
  exact ⟨hcalls, hne, apart_field.2, m, s', hrun, hrows, hcolumns, hback, hgains⟩

end Evaluator

end RadioChannel
