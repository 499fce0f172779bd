import RadioChannel.Proofs.Evaluations
import RadioChannel.Proofs.Scenes

/-!
# What requests do to the evaluator

Devices share one evaluator, and whatever a request does to it, it does by calls at the time of the
scene. So beam selection leads along every relation of evaluators that such calls lead along, and so
does every request but one: setting a condition replaces the model that classifies links.
-/

namespace RadioChannel

open Scalar

variable {R : Type} [Scalar R]

/-- A relation of evaluators that calls at a point of time lead along. -/
structure Evaluator.Progress (now : Nanoseconds) (r : Evaluator R → Evaluator R → Prop) : Prop where
  refl : ∀ s, r s s
  trans : ∀ s t u, r s t → r t u → r s u
  evaluate : ∀ c : Call R, c.now = now → Action.Advances r c.evaluate

namespace Evaluator.Progress

variable {now : Nanoseconds} {r : Evaluator R → Evaluator R → Prop}

/-! ## Calls -/

omit [Scalar R] in
/-- What a call wraps into its answer leads where the call leads. -/
theorem unwrap {α : Type} {x : Action R (Evaluator R) α} {f : α → Answer R}
    (h : Action.Advances r (f <$> x)) : Action.Advances r x := by
  intro s
  have hstep := h s
  rwa [Action.run_map] at hstep

theorem channel (h : Progress now r) (a b : Device R) :
    Action.Advances r (Evaluator.channel now a b) :=
  unwrap (h.evaluate ⟨now, a, b, .link⟩ rfl)

theorem receivedSpectrum (h : Progress now r) (sent : Spectrum R) (a b : Device R)
    (aLayer bLayer : UInt8) :
    Action.Advances r (Evaluator.receivedSpectrum now sent a b aLayer bLayer) :=
  unwrap (h.evaluate ⟨now, a, b, .received sent aLayer bLayer⟩ rfl)

theorem complexSpectrum (h : Progress now r) (grid : SpectrumGrid R) (a b : Device R)
    (x y : Beam R) : Action.Advances r (Evaluator.complexSpectrum now grid a b x y) :=
  unwrap (h.evaluate ⟨now, a, b, .complex grid x y⟩ rfl)

theorem flatMatrix (h : Progress now r) (a b : Device R) (offset : R) :
    Action.Advances r (Evaluator.flatMatrix now a b offset) :=
  unwrap (h.evaluate ⟨now, a, b, .flat offset⟩ rfl)

/-! ## Beam selection -/

/-- The evaluators of two desks are related. -/
def OnDesks (r : Evaluator R → Evaluator R → Prop) (s t : BeamDesk R) : Prop :=
  r s.evaluator t.evaluator

section Steps

variable {α β : Type}

theorem ofExcept (h : Progress now r) (x : Except (Fault R) α) :
    Action.Advances (OnDesks r) (Action.ofExcept x) := fun _ => h.refl _

theorem bind (h : Progress now r) {x : Action R (BeamDesk R) α} {f : α → Action R (BeamDesk R) β}
    (hx : Action.Advances (OnDesks r) x) (hf : ∀ a, Action.Advances (OnDesks r) (f a)) :
    Action.Advances (OnDesks r) (x >>= f) :=
  Action.Advances.bind (r := OnDesks r) (fun _ _ _ => h.trans _ _ _) hx hf

theorem mapM (h : Progress now r) {f : α → Action R (BeamDesk R) β} {xs : List α}
    (hf : ∀ a, Action.Advances (OnDesks r) (f a)) : Action.Advances (OnDesks r) (xs.mapM f) :=
  Action.advances_mapM (r := OnDesks r) (fun _ => h.refl _) (fun _ _ _ => h.trans _ _ _)
    fun a _ => hf a

theorem forM (h : Progress now r) {f : α → Action R (BeamDesk R) Unit} {xs : List α}
    (hf : ∀ a, Action.Advances (OnDesks r) (f a)) : Action.Advances (OnDesks r) (xs.forM f) :=
  Action.advances_forM (r := OnDesks r) (fun _ => h.refl _) (fun _ _ _ => h.trans _ _ _)
    fun a _ => hf a

end Steps

omit [Scalar R] in
theorem onEvaluator {α : Type} {x : Action R (Evaluator R) α} (hx : Action.Advances r x) :
    Action.Advances (OnDesks r) (BeamDesk.onEvaluator x) := fun s => hx s.evaluator

theorem setBeam (h : Progress now r) (peer : NodeId) (layer : UInt8) (beam : Beam R) :
    Action.Advances (OnDesks r) (BeamDesk.setBeam peer layer beam now) := fun _ => h.refl _

theorem geometricBeam (h : Progress now r) (own peer : Endpoint R) :
    Action.Advances (OnDesks r) (BeamDesk.geometricBeam own peer) := by
  intro s
  unfold BeamDesk.geometricBeam
  rw [Action.run_ite]
  split
  · exact h.refl _
  · rw [Action.run_bind_of_ok (Action.run_get s)]
    dsimp only
    split <;> exact h.refl _

theorem searchCodebook (h : Progress now r) (own : Endpoint R) (peer : Device R) :
    Action.Advances (OnDesks r) (BeamDesk.searchCodebook now own peer) := by
  refine Action.advances_get_bind fun s => ?_
  refine h.bind (onEvaluator (h.flatMatrix _ _ _)) (fun m => ?_) s
  refine h.bind (h.ofExcept _) fun equivalent => ?_
  cases Codebook.strongest equivalent [] with
  | none => exact fun t => h.refl _
  | some pair => exact fun t => h.refl _

theorem codebookBeam (h : Progress now r) (own : Endpoint R) (peer : Device R) :
    Action.Advances (OnDesks r) (BeamDesk.codebookBeam now own peer) := by
  refine Action.advances_get_bind fun s => ?_
  cases s.engine.selected? own.id peer.id with
  | none => exact h.searchCodebook own peer s
  | some b =>
    refine h.bind (h.ofExcept _) (fun search => ?_) s
    split
    · exact fun t => h.refl _
    · exact h.searchCodebook own peer

theorem select (h : Progress now r) (own : Endpoint R) (peer : Device R) :
    Action.Advances (OnDesks r) (BeamDesk.select now own peer) := by
  refine Action.advances_get_bind fun s => ?_
  cases s.engine.strategy with
  | geometric => exact h.geometricBeam own peer.endpoint s
  | codebook => exact h.codebookBeam own peer s
  | flatMmse => exact h.codebookBeam own peer s
  | spectralMmse => exact h.codebookBeam own peer s

theorem point (h : Progress now r) (own : Endpoint R) (peer : Device R) (layer : UInt8) :
    Action.Advances (OnDesks r) (BeamDesk.point now own peer layer) :=
  h.bind (h.select own peer) fun _ => h.setBeam _ _ _

/-! ## Bundles -/

variable (loss : FreeSpace R) (own : Endpoint R) (peers : List (Device R)) (layers : List UInt8)

theorem analogStage (h : Progress now r) :
    Action.Advances (OnDesks r) (Bundle.analogStage now loss own peers) := by
  unfold Bundle.analogStage
  refine h.bind (h.mapM fun peer => h.bind (h.codebookBeam own peer) fun b => h.ofExcept b.search)
    fun searches => ?_
  refine h.bind (h.ofExcept _) fun _ => ?_
  refine Action.advances_get_bind fun s => ?_
  exact h.bind (h.ofExcept _) (fun beams => h.ofExcept (.ok _)) s

theorem streamGains (h : Progress now r) (stage : Bundle.AnalogStage R) (peer : Device R)
    (pair : Codebook.BeamPair) (amplitude : R) :
    Action.Advances (OnDesks r) (Bundle.streamGains now own stage peer pair amplitude) := by
  unfold Bundle.streamGains
  refine h.bind (h.ofExcept _) fun weights => h.mapM fun beam => ?_
  refine Action.advances_get_bind fun s => ?_
  exact h.bind (onEvaluator (h.complexSpectrum _ _ _ _ _)) (fun gains => h.ofExcept (.ok _)) s

theorem mixFlat (h : Progress now r) :
    Action.Advances (OnDesks r) (Bundle.mixFlat now loss own peers layers) := by
  unfold Bundle.mixFlat
  split
  · exact h.ofExcept (.ok ())
  refine h.bind (h.analogStage loss own peers) fun stage => ?_
  refine Action.advances_get_bind fun s => ?_
  refine h.bind (h.ofExcept _) (fun channel => ?_) s
  refine h.bind (h.ofExcept _) fun precoder => ?_
  exact h.bind (h.forM fun _ => h.setBeam _ _ _) fun _ t => h.refl t.evaluator

theorem combineSpectral (h : Progress now r) :
    Action.Advances (OnDesks r) (Bundle.combineSpectral now loss own peers layers) := by
  unfold Bundle.combineSpectral
  split
  · exact h.ofExcept (.ok ())
  refine h.bind (h.analogStage loss own peers) fun stage => ?_
  refine h.bind (h.forM fun _ => h.setBeam _ _ _) fun _ => ?_
  refine h.bind (h.mapM fun _ => h.streamGains own stage _ _ _) fun gains => ?_
  refine Action.advances_get_bind fun s => ?_
  refine h.bind (h.ofExcept _) (fun blocks => ?_) s
  exact fun t => h.refl _

/-- Serving a bundle asks the evaluator and does nothing else to it, whatever the strategy. -/
theorem serve (h : Progress now r) :
    Action.Advances (OnDesks r) (Bundle.serve now loss own peers layers) := by
  unfold Bundle.serve
  split
  · exact fun t => h.refl _
  refine Action.advances_get_bind fun s => ?_
  have hpoints : Action.Advances (OnDesks r) ((peers.zip layers).forM fun item =>
      BeamDesk.point now own item.1 item.2) := h.forM fun item => h.point own item.1 item.2
  cases s.engine.strategy with
  | geometric => exact hpoints s
  | codebook => exact hpoints s
  | flatMmse => exact h.mixFlat loss own peers layers s
  | spectralMmse => exact h.combineSpectral loss own peers layers s

end Evaluator.Progress

namespace Scene

open Evaluator

variable {s : Scene R} {r : Evaluator R → Evaluator R → Prop}

/-! ## Requests -/

/-- Conditions stay, and the evaluators are related. -/
def Goes (r : Evaluator R → Evaluator R → Prop) (s t : Scene R) : Prop :=
  t.conditions = s.conditions ∧ r s.evaluator t.evaluator

theorem goes_addDevice (h : Progress s.now r) (id : NodeId) (position : Vec3 R)
    (panel : PanelSettings R) (beams : BeamSettings R) :
    s.Goes r ((addDevice id position panel beams).run s).2 := by
  unfold addDevice
  rw [Action.run_bind_of_ok (Action.run_get s), Action.run_ite]
  split
  · exact ⟨rfl, h.refl _⟩
  · rw [Action.run_bind, Action.run_liftExcept]
    cases Panel.ofSettings panel with
    | error e => exact ⟨rfl, h.refl _⟩
    | ok p =>
      dsimp only
      rw [Action.run_bind, Action.run_liftExcept]
      cases BeamEngine.ofSettings beams s.grid <;> exact ⟨rfl, h.refl _⟩

theorem goes_alter (h : Progress s.now r) (id : NodeId) (f : Station R → Station R) :
    s.Goes r ((alter id f).run s).2 := by
  rw [run_alter]
  cases s.stations[id]? <;> exact ⟨rfl, h.refl _⟩

theorem goes_setBeam (h : Progress s.now r) (own peer : NodeId) (layer : UInt8) :
    s.Goes r ((setBeam own peer layer).run s).2 := by
  rcases setBeam_cases own peer layer s with ⟨e, hrun⟩ | ⟨t, other, -, -, -, hrun⟩
  · rw [hrun]
    exact ⟨rfl, h.refl _⟩
  · rw [hrun, run_atDesk]
    exact ⟨rfl, h.point t.device.endpoint other.device layer (s.desk t)⟩

theorem goes_setBundle (h : Progress s.now r) (own : NodeId) (peers : List NodeId)
    (layers : List UInt8) : s.Goes r ((setBundle own peers layers).run s).2 := by
  rcases setBundle_cases own peers layers s with ⟨-, e, hrun⟩ | ⟨t, others, ht, hne, hothers⟩
  · rw [hrun]
    exact ⟨rfl, h.refl _⟩
  · rw [run_setBundle ht hne hothers, run_atDesk]
    exact ⟨rfl, h.serve s.loss t.device.endpoint _ layers (s.desk t)⟩

theorem goes_receivedSpectrum (h : Progress s.now r) (tx rx : NodeId) (power : R)
    (txLayer rxLayer : UInt8) :
    s.Goes r ((receivedSpectrum tx rx power txLayer rxLayer).run s).2 := by
  rcases receivedSpectrum_cases tx rx power txLayer rxLayer s with ⟨e, hrun⟩ | ⟨a, b, -, -, hrun⟩ <;>
    rw [hrun]
  · exact ⟨rfl, h.refl _⟩
  · exact ⟨rfl, h.receivedSpectrum _ _ _ _ _ s.evaluator⟩

theorem goes_channelSummary (h : Progress s.now r) (a b : NodeId) :
    s.Goes r ((channelSummary a b).run s).2 := by
  rcases channelSummary_cases a b s with ⟨e, hrun⟩ | ⟨ta, tb, -, -, hrun⟩ <;> rw [hrun]
  · exact ⟨rfl, h.refl _⟩
  · exact ⟨rfl, h.channel _ _ s.evaluator⟩

/-- A request that sets no condition calls the evaluator and does nothing else to it. -/
theorem goes_ask (h : Progress s.now r) {request : Request R}
    (hrequest : ∀ a b c, request ≠ .setCondition a b c) : s.Goes r ((ask request).run s).2 := by
  cases request with
  | setCondition a b c => exact absurd rfl (hrequest a b c)
  | advanceTo t => exact ⟨rfl, h.refl _⟩
  | addDevice id position panel beams =>
    rw [ask, Action.run_map]
    exact goes_addDevice h id position panel beams
  | setMobility id position velocity =>
    rw [ask, Action.run_map]
    exact goes_alter h id _
  | setOmni id =>
    rw [ask, Action.run_map]
    exact goes_alter h id _
  | setBeam own peer layer =>
    rw [ask, Action.run_map]
    exact goes_setBeam h own peer layer
  | setBundle own peers layers =>
    rw [ask, Action.run_map]
    exact goes_setBundle h own peers layers
  | receivedSpectrum tx rx power txLayer rxLayer =>
    rw [ask, Action.run_map]
    exact goes_receivedSpectrum h tx rx power txLayer rxLayer
  | channelSummary a b =>
    rw [ask, Action.run_map]
    exact goes_channelSummary h a b

end Scene

end RadioChannel
