import RadioChannel.Proofs.Misfits
import RadioChannel.Proofs.Transparency

/-!
# Channels that match the arrays at their ends

A realization is drawn for the arrays at both ends of its link, and it is kept for the two. While the
arrays stay, every channel that is answered is for the arrays it is asked for, whichever end asks, and
it can be projected on any beams with as many weights.
-/

namespace RadioChannel

open Scalar

variable {R : Type}

/-- A channel for so many receiving and transmitting elements. -/
def Link.Between (l : Link R) (rx tx : Nat) : Prop := l.rxCount = rx ∧ l.txCount = tx

variable {sized : NodeId → Option Nat}

namespace Generator

variable {g g' : Generator R} {a b : NodeId}

/-- Every realization that is kept is for the arrays of the two nodes. -/
def Matched (sized : NodeId → Option Nat) (g : Generator R) : Prop :=
  ∀ (a b : NodeId) (m : Realization R), g.cache[a.keyTo b]? = some m →
    sized b = some m.tensor.rxCount ∧ sized a = some m.tensor.txCount

theorem Matched.of_empty (h : g.cache = ∅) : g.Matched sized := by
  intro a b m hm
  rw [h] at hm
  simp at hm

theorem Matched.congr (h : g.Matched sized) (hcache : g'.cache = g.cache) : g'.Matched sized := by
  intro a b m hm
  rw [hcache] at hm
  exact h a b m hm

/-- Realizations stay matched when devices are added. -/
theorem Matched.mono {sized' : NodeId → Option Nat} (h : g.Matched sized)
    (hle : ∀ id n, sized id = some n → sized' id = some n) : g.Matched sized' := by
  intro a b m hm
  obtain ⟨hrx, htx⟩ := h a b m hm
  exact ⟨hle b _ hrx, hle a _ htx⟩

theorem Matched.peek (h : g.Matched sized) {l : Link R} (hl : g.peek a b = some l) :
    sized b = some l.rxCount ∧ sized a = some l.txCount := by
  unfold Generator.peek at hl
  split at hl
  · next m hm =>
    cases hl
    exact h a b m hm
  · obtain ⟨m, hm, rfl⟩ := Option.map_eq_some_iff.mp hl
    obtain ⟨hrx, htx⟩ := h b a m hm
    exact ⟨htx, hrx⟩

theorem Matched.store (h : g.Matched sized) (source : RandomSource R) {m : Realization R}
    (hb : sized b = some m.tensor.rxCount) (ha : sized a = some m.tensor.txCount) :
    (g.store source a b m).Matched sized := by
  intro x y m' hm'
  rw [Generator.store, Std.HashMap.getElem?_erase, Std.HashMap.getElem?_insert] at hm'
  split at hm'
  · cases hm'
  split at hm'
  · next hkey =>
    cases hm'
    obtain ⟨rfl, rfl⟩ := NodeId.keyTo_inj.mp (by simpa using hkey)
    exact ⟨hb, ha⟩
  · exact h x y m' hm'

end Generator

/-- One end of a link with the array that its node is known for, which has elements. -/
structure Terminal.Placed (sized : NodeId → Option Nat) (t : Terminal R) : Prop where
  size : sized t.endpoint.id = some t.panel.elementCount
  pos : 0 < t.panel.elementCount

theorem Tensor.Shaped.counts {h : Tensor R} {rx tx clusters : Nat} (hs : h.Shaped rx tx clusters)
    (hrx : 0 < rx) : h.rxCount = rx ∧ h.txCount = tx := by
  obtain ⟨row, rows, htensor⟩ := List.exists_cons_of_length_pos (hs.rows ▸ hrx)
  have hrow := hs.columns row (by rw [htensor]; exact List.mem_cons_self)
  refine ⟨hs.rows, ?_⟩
  rw [Tensor.txCount, htensor]
  exact hrow

variable [Scalar R]

/-- What is drawn is for the arrays that it is drawn for. -/
theorem RealizationContext.counts_of_draw {c : RealizationContext R} {m : Realization R}
    {s s' : RandomSource R} (h : c.draw.run s = (.ok m, s')) (hrx : 0 < c.rx.elementCount) :
    m.tensor.rxCount = c.rx.elementCount ∧ m.tensor.txCount = c.tx.elementCount := by
  obtain ⟨scale, profile, unwrapped, losses, hdrawn⟩ := drawn_of_draw h
  have hscattered := Tensor.shaped_ofClusters c.rx c.tx (c.rayClusters unwrapped m.phases m.powers)
  rw [hdrawn.tensor_eq, RealizationContext.tensor]
  split
  · exact (hscattered.withDirectRay _).counts hrx
  · exact hscattered.counts hrx

namespace Generator

variable {a b : Terminal R}

theorem fitting_context (g : Generator R) (now : Nanoseconds) (a b : Terminal R)
    (condition : Condition) (previous : Option (Realization R)) :
    Fitting (fun c => c.rx = b.panel ∧ c.tx = a.panel ∧ c.table.clusters ∈ [8, 10, 11, 12, 19, 20])
      (g.context now a b condition previous) := by
  rw [context_eq]
  split
  · exact rfl
  rcases ParameterTable.lookup_cases g.scenario (g.linkState a b condition) with
    ⟨-, hlookup⟩ | ⟨-, table, hlookup, hsupports⟩
  · rw [hlookup]
    exact rfl
  · rw [hlookup]
    exact ⟨rfl, rfl, hsupports.clusters⟩

theorem upholds_regenerate (ha : a.Placed sized) (hb : b.Placed sized) (now : Nanoseconds)
    (condition : Condition) (previous : Option (Realization R)) :
    Action.Upholds (Matched sized)
      (fun l : Link R => l.Between b.panel.elementCount a.panel.elementCount)
      (regenerate now a b condition previous) := by
  intro g hg
  have hcontext := fitting_context g now a b condition previous
  rw [run_regenerate]
  cases hc : g.context now a b condition previous with
  | error e =>
    rw [hc] at hcontext
    exact ⟨hcontext, hg⟩
  | ok c =>
    rw [hc] at hcontext
    obtain ⟨hrx, htx, hclusters⟩ := hcontext
    dsimp only
    rcases hd : c.draw.run g.source with ⟨e | m, source⟩
    · have hbreach := RealizationContext.neverRefuses_draw hclusters _ _ _ hd
      exact ⟨Fault.isMisfit_of_isBreach hbreach, hg.congr rfl⟩
    · have hcounts := RealizationContext.counts_of_draw hd (hrx ▸ hb.pos)
      rw [hrx, htx] at hcounts
      refine ⟨hcounts, hg.store source ?_ ?_⟩
      · rw [hb.size, hcounts.1]
      · rw [ha.size, hcounts.2]

omit [Scalar R] in
/-- What is held is for the two nodes, and so for their arrays. -/
theorem Matched.held {g : Generator R} (hg : g.Matched sized) (ha : a.Placed sized)
    (hb : b.Placed sized) {l : Link R} (hl : g.peek a.endpoint.id b.endpoint.id = some l) :
    l.Between b.panel.elementCount a.panel.elementCount ∧
      checked l b.panel.elementCount a.panel.elementCount = .ok l := by
  obtain ⟨hrx, htx⟩ := hg.peek hl
  rw [hb.size] at hrx
  rw [ha.size] at htx
  have hfits : l.Between b.panel.elementCount a.panel.elementCount :=
    ⟨(Option.some.inj hrx).symm, (Option.some.inj htx).symm⟩
  exact ⟨hfits, if_pos hfits⟩

/-- A channel between two ends is for the arrays that they have. -/
theorem upholds_channel (ha : a.Placed sized) (hb : b.Placed sized) (now : Nanoseconds)
    (condition : Condition) :
    Action.Upholds (Matched sized)
      (fun l : Link R => l.Between b.panel.elementCount a.panel.elementCount)
      (channel now a b condition) := by
  intro g hg
  by_cases hpos : (a.endpoint.position == b.endpoint.position) = true
  · rw [channel_coincident g now a b condition hpos]
    exact ⟨rfl, hg⟩
  rcases channel_cases g now a b condition (by simpa using hpos) with
    ⟨l, hpeek, -, hrun⟩ | ⟨-, previous, hrun⟩
  · obtain ⟨hfits, hchecked⟩ := hg.held ha hb hpeek
    rw [hrun, hchecked]
    exact ⟨hfits, hg⟩
  · rw [hrun]
    exact upholds_regenerate ha hb now condition previous g hg

end Generator

theorem Link.exists_project {l : Link R} {x y : List (Phasor R)} (h : l.Between y.length x.length) :
    ∃ coefficients, l.project x y = .ok coefficients := by
  obtain ⟨m, reverse⟩ := l
  obtain ⟨hrx, htx⟩ := h
  cases reverse with
  | false =>
    have hcheck : m.checkDimensions y.length x.length = .ok () := if_pos ⟨hrx, htx⟩
    refine ⟨(List.range m.clusterCount).map (m.projectCluster x y), ?_⟩
    rw [Link.project, if_neg Bool.false_ne_true, Realization.project, hcheck]
  | true =>
    have hcheck : m.checkDimensions x.length y.length = .ok () := if_pos ⟨htx, hrx⟩
    refine ⟨(List.range m.clusterCount).map (m.projectCluster y x), ?_⟩
    rw [Link.project, if_pos rfl, Realization.project, hcheck]

namespace Evaluator

/-- The generator's realizations are for the arrays of their nodes. -/
def Matched (sized : NodeId → Option Nat) (v : Evaluator R) : Prop := v.generator.Matched sized

variable {a b : Device R} {now : Nanoseconds} {l : Link R}

theorem upholds_channel (ha : a.terminal.Placed sized) (hb : b.terminal.Placed sized) :
    Action.Upholds (Matched sized)
      (fun l : Link R => l.Between b.array.elementCount a.array.elementCount)
      (channel now a b) := by
  intro v hv
  rw [run_channel]
  exact Generator.upholds_channel ha hb now (v.model.condition a.id b.id) v.generator hv

/-- A channel has gains between any two beams with as many weights as its ends have elements. -/
theorem run_gains_ok {x y : Beam R} (h : l.Between y.size x.size) (now : Nanoseconds)
    (a b : Device R) (grid : SpectrumGrid R) (v : Evaluator R) : ∃ values v',
      (gains now l a b x y grid).run v = (.ok values, v') ∧ v'.generator = v.generator := by
  obtain ⟨coefficients, hproject⟩ := Link.exists_project h
  have hprojection : ∃ values v', (projection l a.id b.id x y).run v = (.ok values, v') ∧
      v'.generator = v.generator := by
    rcases projection_cases v l a.id b.id x y with ⟨p, -, -, hrun⟩ | ⟨e, hfail, -⟩ | ⟨values, -, hrun⟩
    · exact ⟨_, _, hrun, rfl⟩
    · rw [hproject] at hfail
      cases hfail
    · exact ⟨_, _, hrun, rfl⟩
  obtain ⟨values, v', hrun, hgenerator⟩ := hprojection
  refine ⟨l.gains values (v'.doppler now l a b) grid, v', ?_, hgenerator⟩
  unfold gains
  rw [Action.run_bind_of_ok hrun, Action.run_bind_of_ok (Action.run_get v')]
  rfl

theorem upholds_gains {x y : Beam R} (h : l.Between y.size x.size) (grid : SpectrumGrid R) :
    Action.Upholds (Matched sized) (fun _ => True) (gains now l a b x y grid) := by
  intro v hv
  obtain ⟨values, v', hrun, hgenerator⟩ := run_gains_ok h now a b grid v
  rw [hrun]
  exact ⟨trivial, hv.congr (congrArg Generator.cache hgenerator)⟩

/-! ## Digital combining -/

omit [Scalar R] in
theorem fitting_weight (block : List (List (Phasor R))) (output input : Nat) :
    Fitting (fun _ => True) (weight block output input) := by
  unfold weight
  have hrow := fitting_entryAt (R := R) block output
  split
  · next e he =>
    rw [he] at hrow
    exact hrow
  · exact fitting_entryAt _ _

theorem fitting_isUnused (output input : Nat) (combiner : Combiner R) :
    Fitting (fun _ => True) (isUnused output input combiner) := by
  induction combiner with
  | nil => exact trivial
  | cons block blocks ih =>
    unfold isUnused
    have hweight := fitting_weight block output input
    split
    · next e he =>
      rw [he] at hweight
      exact hweight
    · split
      · exact ih
      · exact trivial

theorem fitting_accumulate (output input : Nat) (values : List (Phasor R)) (combiner : Combiner R)
    (gains : List (Phasor R)) :
    Fitting (fun _ => True) (accumulate output input values combiner gains) := by
  fun_induction accumulate output input values combiner gains with
  | case1 value values block blocks gain gains ih =>
    exact (fitting_weight _ _ _).bind fun _ _ => ih.bind fun _ _ => trivial
  | case2 => exact trivial

theorem upholds_combinedGain {combiner : Combiner R} {layer : UInt8} {grid : SpectrumGrid R}
    {beams : UInt8 → Except (Fault R) (Beam R × Beam R)}
    (hbeams : ∀ input, Fitting (fun pair => l.Between pair.2.size pair.1.size) (beams input)) :
    Action.Upholds (Matched sized) (fun _ => True)
      (combinedGain now l a b combiner layer grid beams) := by
  unfold combinedGain
  dsimp only
  split
  · exact Action.upholds_pure trivial
  refine Action.Upholds.bind (Action.Upholds.foldlM fun spectrum input _ => ?_) fun _ _ =>
    Action.upholds_pure trivial
  refine Action.Upholds.bind (Action.upholds_ofExcept (fitting_isUnused _ _ _)) fun unused _ => ?_
  split
  · exact Action.upholds_pure trivial
  refine Action.Upholds.bind (Action.upholds_ofExcept (hbeams _)) fun pair hpair => ?_
  exact Action.Upholds.bind (upholds_gains hpair grid) fun _ _ =>
    Action.upholds_ofExcept (fitting_accumulate _ _ _ _ _)

end Evaluator

/-! ## Devices -/

/-- All active beams of an array are for its elements. -/
def AntennaArray.Fit (x : AntennaArray R) : Prop :=
  ∀ (layer : UInt8) (b : Beam R), x.current[layer]? = some b → b.size = x.elementCount

theorem AntennaArray.Fit.beam {x : AntennaArray R} (hx : x.Fit) (layer : UInt8) :
    Fitting (fun b => b.size = x.elementCount) (x.beam layer) := by
  unfold AntennaArray.beam
  split
  · next b hb => exact hx layer b hb
  · exact rfl

namespace Evaluator

variable {a b : Device R} {now : Nanoseconds} {l : Link R}

theorem upholds_powerGain (h : l.Between b.array.elementCount a.array.elementCount)
    (ha : a.array.Fit) (hb : b.array.Fit) (aLayer bLayer : UInt8) (grid : SpectrumGrid R) :
    Action.Upholds (Matched sized) (fun _ => True) (powerGain now l a b aLayer bLayer grid) := by
  unfold powerGain
  split
  · exact Action.upholds_fail rfl
  · refine Action.Upholds.bind (Action.upholds_ofExcept (hb.beam bLayer)) fun y hy => ?_
    refine upholds_combinedGain fun input => (ha.beam input).map fun x hx => ?_
    rw [hx, hy]
    exact h
  · refine Action.Upholds.bind (Action.upholds_ofExcept (ha.beam aLayer)) fun x hx => ?_
    refine upholds_combinedGain fun input => (hb.beam input).map fun y hy => ?_
    rw [hx, hy]
    exact h
  · refine Action.Upholds.bind (Action.upholds_ofExcept (ha.beam aLayer)) fun x hx => ?_
    refine Action.Upholds.bind (Action.upholds_ofExcept (hb.beam bLayer)) fun y hy => ?_
    refine Action.Upholds.bind (upholds_gains ?_ grid) fun _ _ => Action.upholds_pure trivial
    rw [hx, hy]
    exact h

theorem upholds_receivedSpectrum (ha : a.terminal.Placed sized) (hb : b.terminal.Placed sized)
    (ha' : a.array.Fit) (hb' : b.array.Fit) (sent : Spectrum R) (aLayer bLayer : UInt8) :
    Action.Upholds (Matched sized) (fun _ => True)
      (receivedSpectrum now sent a b aLayer bLayer) := by
  unfold receivedSpectrum
  split
  · exact Action.upholds_pure trivial
  refine Action.Upholds.bind (upholds_channel ha hb) fun l hl => ?_
  exact Action.Upholds.bind (upholds_powerGain hl ha' hb' aLayer bLayer sent.grid) fun _ _ =>
    Action.upholds_pure trivial

theorem upholds_complexSpectrum (ha : a.terminal.Placed sized) (hb : b.terminal.Placed sized)
    {x y : Beam R} (hx : x.size = a.array.elementCount) (hy : y.size = b.array.elementCount)
    (grid : SpectrumGrid R) :
    Action.Upholds (Matched sized) (fun _ => True) (complexSpectrum now grid a b x y) := by
  unfold complexSpectrum
  split
  · exact Action.upholds_fail rfl
  refine Action.Upholds.bind (upholds_channel ha hb) fun l hl => ?_
  refine upholds_gains ?_ grid
  rw [hx, hy]
  exact hl

/-- A flat matrix has a row for each receiving element and a column for each transmitting one. -/
theorem upholds_flatMatrix (ha : a.terminal.Placed sized) (hb : b.terminal.Placed sized)
    (offset : R) : Action.Upholds (Matched sized)
      (fun h : Matrix R => h.length = b.array.elementCount ∧
        Matrix.columns h = a.array.elementCount)
      (flatMatrix now a b offset) := by
  unfold flatMatrix
  refine Action.Upholds.bind (upholds_channel ha hb) fun l hl => ?_
  refine Action.Upholds.bind (p := fun _ => True) (Action.upholds_ofExcept ?_) fun _ _ => ?_
  · rw [Link.checkDimensions_ok.mpr hl]
    exact trivial
  refine Action.upholds_get_bind fun v _ => Action.upholds_pure ?_
  unfold Link.flatMatrix Matrix.columns
  have hpos : 0 < b.array.elementCount := hb.pos
  obtain ⟨n, hn⟩ := Nat.exists_eq_succ_of_ne_zero hpos.ne'
  constructor
  · rw [List.length_map, List.length_range]
  · rw [hn, List.range_succ_eq_map, List.map_cons, List.head?_cons, Option.map_some,
      Option.getD_some, List.length_map, List.length_range]

end Evaluator

end RadioChannel
