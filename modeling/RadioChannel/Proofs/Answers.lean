import RadioChannel.Proofs.Coefficients
import RadioChannel.Proofs.MatchedChannels

/-!
# Steps that answer

A law about what a step answers says nothing of a step that fails. Here is what it takes that a step
answers from all states with an invariant, and keeps the invariant. Two kinds of evaluators answer all
that a node asks of its peers: those in the country, where every channel can be drawn, and those that
hold a link to each peer that still serves.
-/

namespace RadioChannel

open Scalar

namespace Action

variable {R σ τ α β : Type} {inv : σ → Prop} {p q : α → Prop}

/-- From each state with an invariant a step answers something of a kind, and ends in such a state. -/
def Answers (inv : σ → Prop) (p : α → Prop) (x : Action R σ α) : Prop :=
  ∀ s, inv s → ∃ a t, x.run s = (.ok a, t) ∧ p a ∧ inv t

theorem answers_pure {a : α} (ha : p a) : Answers inv p (pure a : Action R σ α) :=
  fun s hs => ⟨a, s, rfl, ha, hs⟩

theorem answers_ofExcept {x : Except (Fault R) α} {a : α} (hx : x = .ok a) (ha : p a) :
    Answers inv p (ofExcept x : Action R σ α) :=
  fun s hs => ⟨a, s, congrArg (·, s) hx, ha, hs⟩

theorem answers_modify {f : σ → σ} (hf : ∀ s, inv s → inv (f s)) :
    Answers inv (fun _ => True) (modify f : Action R σ Unit) :=
  fun s hs => ⟨(), f s, rfl, trivial, hf s hs⟩

theorem Answers.imp {x : Action R σ α} (h : Answers inv p x) (hpq : ∀ a, p a → q a) :
    Answers inv q x := by
  intro s hs
  obtain ⟨a, t, hrun, ha, ht⟩ := h s hs
  exact ⟨a, t, hrun, hpq a ha, ht⟩

theorem Answers.bind {x : Action R σ α} {f : α → Action R σ β} {q : β → Prop}
    (hx : Answers inv p x) (hf : ∀ a, p a → Answers inv q (f a)) : Answers inv q (x >>= f) := by
  intro s hs
  obtain ⟨a, t, hrun, ha, ht⟩ := hx s hs
  rw [run_bind_of_ok hrun]
  exact hf a ha t ht

theorem answers_get_bind {f : σ → Action R σ α} (hf : ∀ s, inv s → Answers inv p (f s)) :
    Answers inv p (get >>= f) := fun s hs => hf s hs s hs

theorem Answers.mapM_ofFn {n : ℕ} {f : α → Action R σ β} {a : Fin n → α} {r : Fin n → β → Prop}
    (hf : ∀ i, Answers inv (r i) (f (a i))) :
    Answers inv (fun ys => ∃ b, ys = List.ofFn b ∧ ∀ i, r i (b i)) ((List.ofFn a).mapM f) := by
  induction n with
  | zero => exact answers_pure ⟨Fin.elim0, rfl, fun i => i.elim0⟩
  | succ n ih =>
    rw [List.ofFn_succ, List.mapM_cons]
    refine Answers.bind (hf 0) fun b hb => ?_
    refine Answers.bind (ih fun i => hf i.succ) fun _ hbs => ?_
    obtain ⟨bs, rfl, hbs⟩ := hbs
    refine answers_pure ⟨Fin.cons b bs, (List.ofFn_cons b bs).symm, fun i => ?_⟩
    cases i using Fin.cases with
    | zero => exact hb
    | succ i => exact hbs i

theorem Answers.forM {f : α → Action R σ Unit} {xs : List α}
    (hf : ∀ a ∈ xs, Answers inv (fun _ => True) (f a)) :
    Answers inv (fun _ => True) (xs.forM f) := by
  induction xs with
  | nil => exact answers_pure trivial
  | cons a xs ih =>
    exact Answers.bind (hf a List.mem_cons_self) fun _ _ =>
      ih fun a' ha' => hf a' (List.mem_cons_of_mem a ha')

theorem Answers.on {view : σ → τ} {update : τ → σ → σ} {inv' : τ → Prop} {x : Action R τ α}
    (hx : Answers inv' p x) (hview : ∀ s, inv s → inv' (view s))
    (hupdate : ∀ s t, inv s → inv' t → inv (update t s)) : Answers inv p (on view update x) := by
  intro s hs
  obtain ⟨a, t, hrun, ha, ht⟩ := hx (view s) (hview s hs)
  exact ⟨a, update t s, congrArg (fun r => (r.1, update r.2 s)) hrun, ha, hupdate s t hs ht⟩

end Action

/-! ## Channels in the country -/

variable {sized : NodeId → Option ℕ} {now : Nanoseconds}

/-- A generator in the country that has a carrier, with realizations for the arrays of their nodes. -/
structure Generator.Rural (sized : NodeId → Option ℕ) (g : Generator ℝ) : Prop where
  scenario : g.scenario = .ruralMacro
  carrier : (g.frequency == 0) = false
  matched : g.Matched sized

/-- In the country a channel is answered: by what the link holds, or by a new draw. -/
theorem Generator.answers_channel {a b : Terminal ℝ} (ha : a.Placed sized) (hb : b.Placed sized)
    (hpos : (a.endpoint.position == b.endpoint.position) = false) (now : Nanoseconds)
    (condition : Condition) : Action.Answers (Rural sized)
      (fun l : Link ℝ => l.Between b.panel.elementCount a.panel.elementCount)
      (channel now a b condition) := by
  intro g hg
  have hanswered : ∃ l g', (channel now a b condition).run g = (.ok l, g') := by
    rcases channel_cases g now a b condition hpos with ⟨l, hl, -, hrun⟩ | ⟨hstale, -⟩
    · obtain ⟨-, hchecked⟩ := hg.matched.held ha hb hl
      exact ⟨l, g, by rw [hrun, hchecked]⟩
    · obtain ⟨m, source, hrun, -⟩ :=
        channel_ruralMacro hg.scenario hg.carrier now condition hpos hstale
      exact ⟨_, _, hrun⟩
  obtain ⟨l, g', hrun⟩ := hanswered
  have hmatched : Action.Upholds (Matched sized) _ (channel now a b condition) :=
    upholds_channel ha hb now condition
  obtain ⟨hbetween, hmatched'⟩ := hmatched g hg.matched
  obtain ⟨source, drawn, cache, hframe⟩ := channel_keeps g now a b condition
  rw [hrun] at hbetween hmatched' hframe
  refine ⟨l, g', hrun, hbetween, ?_, ?_, hmatched'⟩
  · rw [show g' = _ from hframe]
    exact hg.scenario
  · rw [show g' = _ from hframe]
    exact hg.carrier

/-! ## What a node asks of its peers -/

namespace Evaluator

variable {inv : Evaluator ℝ → Prop} {own : Endpoint ℝ} {panel : Panel ℝ} {grid : SpectrumGrid ℝ}
variable {asked : Device ℝ → Prop}

/-- All that a node with a panel asks of its peers is answered, and so again afterwards: flat matrices of
a kind, and gains of a kind between beams of the sizes of the panels. -/
structure Answering (inv : Evaluator ℝ → Prop) (now : Nanoseconds) (own : Endpoint ℝ)
    (panel : Panel ℝ) (grid : SpectrumGrid ℝ) (asked : Device ℝ → Prop)
    (flat : Device ℝ → Matrix ℝ → Prop)
    (gained : Device ℝ → Beam ℝ → Beam ℝ → List (Phasor ℝ) → Prop) : Prop where
  flatMatrix : ∀ peer, asked peer → ∀ array : AntennaArray ℝ, array.panel = panel →
    Action.Answers inv
      (fun h => Matrix.HasSize peer.array.elementCount panel.elementCount h ∧ flat peer h)
      (Evaluator.flatMatrix now ⟨own, array⟩ peer 0)
  complexSpectrum : ∀ peer, asked peer → ∀ array : AntennaArray ℝ, array.panel = panel →
    array.omni = false → ∀ x y : Beam ℝ, x.size = panel.elementCount →
    y.size = peer.array.elementCount → Action.Answers inv (gained peer x y)
      (Evaluator.complexSpectrum now grid ⟨own, array⟩ peer x y)

section

variable {a b : Device ℝ} {p : Link ℝ → Prop}

theorem answers_flatMatrix (hchannel : Action.Answers inv
      (fun l => l.Between b.array.elementCount a.array.elementCount ∧ p l) (channel now a b))
    (offset : ℝ) : Action.Answers inv
      (fun h => Matrix.HasSize b.array.elementCount a.array.elementCount h ∧ ∃ l v, p l ∧ inv v ∧
        h = l.flatMatrix (v.doppler now l a b) (v.generator.frequency + offset) b.array.elementCount
          a.array.elementCount)
      (flatMatrix now a b offset) := by
  unfold flatMatrix
  refine Action.Answers.bind hchannel fun l hl => ?_
  refine Action.Answers.bind (p := fun _ => True)
    (Action.answers_ofExcept (Link.checkDimensions_ok.mpr hl.1) trivial) fun _ _ => ?_
  refine Action.answers_get_bind fun v hv => Action.answers_pure ⟨⟨?_, ?_⟩, l, v, hl.2, hv, rfl⟩
  · rw [Link.flatMatrix, List.length_map, List.length_range]
  · intro row hrow
    obtain ⟨r, -, rfl⟩ := List.mem_map.mp hrow
    rw [List.length_map, List.length_range]

theorem answers_complexSpectrum {x y : Beam ℝ} {q : List (Phasor ℝ) → Prop}
    (hchannel : Action.Answers inv p (channel now a b)) (ha : a.array.omni = false)
    (hb : b.array.omni = false)
    (hgains : ∀ l, p l → Action.Answers inv q (gains now l a b x y grid)) :
    Action.Answers inv q (complexSpectrum now grid a b x y) := by
  unfold complexSpectrum
  rw [ha, hb, if_neg (by decide)]
  exact Action.Answers.bind hchannel hgains

end

/-- In the country every channel to a peer at another place is answered. -/
theorem answering_rural (hown : Terminal.Placed sized ⟨own, panel⟩)
    (hpeer : ∀ peer, asked peer → peer.terminal.Placed sized ∧
      (own.position == peer.endpoint.position) = false ∧ peer.array.omni = false) :
    Answering (fun v => v.generator.Rural sized) now own panel grid asked (fun _ _ => True)
      fun _ _ _ _ => True := by
  have hchannel : ∀ peer, asked peer → ∀ array : AntennaArray ℝ, array.panel = panel →
      Action.Answers (fun v : Evaluator ℝ => v.generator.Rural sized)
        (fun l => l.Between peer.array.elementCount panel.elementCount ∧ True)
        (channel now ⟨own, array⟩ peer) := by
    rintro peer hasked array rfl v hv
    obtain ⟨hplaced, hpos, -⟩ := hpeer peer hasked
    obtain ⟨l, g', hrun, hbetween, hg'⟩ := Generator.answers_channel hown hplaced hpos now
      (v.model.condition own.id peer.id) v.generator hv
    refine ⟨l, { v with generator := g' }, ?_, ⟨hbetween, trivial⟩, hg'⟩
    rw [run_channel]
    exact congrArg (fun r => (r.1, { v with generator := r.2 })) hrun
  refine ⟨fun peer hasked array hpanel => ?_, fun peer hasked array hpanel homni x y hx hy => ?_⟩
  · subst hpanel
    exact (answers_flatMatrix (a := ⟨own, array⟩) (hchannel peer hasked array rfl) _).imp
      fun h hh => ⟨hh.1, trivial⟩
  · refine answers_complexSpectrum (hchannel peer hasked array hpanel) homni (hpeer peer hasked).2.2
      fun l hl v hv => ?_
    have hbetween : l.Between y.size x.size := by
      rw [hx, hy]
      exact hl.1
    obtain ⟨values, v', hrun, hgenerator⟩ := run_gains_ok hbetween now ⟨own, array⟩ peer grid v
    exact ⟨values, v', hrun, trivial, hgenerator ▸ hv⟩

/-- An evaluator like another one, with projections that can be trusted on the links of a node. -/
structure Alike (v : Evaluator ℝ) (own : NodeId) (v' : Evaluator ℝ) : Prop where
  generator : v'.generator = v.generator
  model : v'.model = v.model
  trusted : v'.Trusted own

/-- Where a link to each peer is held that serves, it answers. -/
theorem answering_settled {v : Evaluator ℝ} {link : Device ℝ → Link ℝ}
    (hpeer : ∀ peer, asked peer → v.Settled now own.id peer.id (link peer) ∧
      (link peer).Between peer.array.elementCount panel.elementCount ∧
      (own.position == peer.endpoint.position) = false ∧ peer.array.omni = false) :
    Answering (v.Alike own.id) now own panel grid asked
      (fun peer h => h = (link peer).flatMatrix (v.doppler now (link peer) ⟨own, .ofPanel panel⟩ peer)
        v.generator.frequency peer.array.elementCount panel.elementCount)
      fun peer x y cs =>
        v.freshGains now (link peer) ⟨own, .ofPanel panel⟩ peer x y grid = .ok cs := by
  have hchannel : ∀ peer, asked peer → ∀ array : AntennaArray ℝ, array.panel = panel →
      Action.Answers (v.Alike own.id)
        (fun l => l.Between peer.array.elementCount panel.elementCount ∧ l = link peer)
        (channel now ⟨own, array⟩ peer) := by
    rintro peer hasked array rfl v' hv'
    obtain ⟨hsettled, ⟨hrx, htx⟩, hpos, -⟩ := hpeer peer hasked
    have hsettled' : v'.Settled now own.id peer.id (link peer) := by
      refine ⟨?_, ?_⟩
      · rw [hv'.generator]
        exact hsettled.held
      · rw [hv'.generator, hv'.model]
        exact hsettled.serves
    exact ⟨link peer, v', Settled.channel (a := ⟨own, array⟩) hsettled' hpos hrx htx,
      ⟨⟨hrx, htx⟩, rfl⟩, hv'⟩
  refine ⟨fun peer hasked array hpanel => ?_, fun peer hasked array hpanel homni x y hx hy => ?_⟩
  · subst hpanel
    refine (answers_flatMatrix (a := ⟨own, array⟩) (hchannel peer hasked array rfl) _).imp ?_
    rintro h ⟨hsize, l, v', rfl, hv', rfl⟩
    refine ⟨hsize, ?_⟩
    rw [ExactScalars.zero_eq, add_zero, Evaluator.doppler, hv'.generator]
    rfl
  · refine answers_complexSpectrum (hchannel peer hasked array hpanel) homni (hpeer peer hasked).2.2.2
      ?_
    rintro l ⟨⟨hrx, htx⟩, rfl⟩ v' hv'
    have hheld : v'.generator.peek own.id peer.id = some (link peer) := by
      rw [hv'.generator]
      exact (hpeer peer hasked).1.held
    have hbetween : (link peer).Between y.weights.length x.weights.length := by
      rw [show x.weights.length = _ from hx, show y.weights.length = _ from hy]
      exact ⟨hrx, htx⟩
    obtain ⟨projected, hproject⟩ := Link.exists_project hbetween
    obtain ⟨hanswer, htrusted⟩ := Trusted.gains (a := ⟨own, array⟩) (b := peer) hv'.trusted hheld now x y
      grid
    obtain ⟨hgenerator, hmodel⟩ := keeps_gains (s := v') (l := link peer) (a := ⟨own, array⟩)
      (b := peer) now x y grid v' ⟨rfl, rfl⟩
    have hfresh : v'.freshGains now (link peer) ⟨own, array⟩ peer x y grid =
        v.freshGains now (link peer) ⟨own, .ofPanel panel⟩ peer x y grid := by
      rw [freshGains, freshGains, doppler, doppler, hv'.generator]
    refine ⟨_, _, Prod.ext (hanswer.trans (except_bind_ok.mpr ⟨projected, hproject, rfl⟩)) rfl, ?_,
      hgenerator.trans hv'.generator, hmodel.trans hv'.model, htrusted⟩
    rw [← hfresh]
    exact except_bind_ok.mpr ⟨projected, hproject, rfl⟩

end Evaluator

end RadioChannel
