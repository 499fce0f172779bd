import RadioChannel.Proofs.Evaluations
import RadioChannel.Scalar.Binary64

/-!
# When cached projections are those a call would make

A cached projection was made by an earlier call for the same link, on beams with the same identities
and the same weights. If that call asked from the same end, the projection is the one that would be
made now. If it asked from the other end, the projection is the one with the beams at the wrong ends:
the key of a projection does not tell the ends of a link apart.
-/

namespace RadioChannel

open Scalar

namespace Evaluator

variable {R : Type}

/-! ## What determines an evaluation -/

/-- A step has one answer on all states with a property, and keeps the property. -/
def Determined (Q : Evaluator R → Prop) ⦃α : Type⦄ (x : Action R (Evaluator R) α) : Prop :=
  ∃ r, ∀ s, Q s → (x.run s).1 = r ∧ Q (x.run s).2

/-- A step keeps a property of states. -/
def Keeps (Q : Evaluator R → Prop) ⦃α : Type⦄ (x : Action R (Evaluator R) α) : Prop :=
  ∀ s, Q s → Q (x.run s).2

theorem composable_keeps (Q : Evaluator R → Prop) : Composable (Keeps Q) where
  ofExcept _ _ _ hs := hs
  frequency _ _ _ hs := hs
  bind := by
    intro α β x f hx hf s hs
    rw [Action.run_bind]
    have hkept := hx s hs
    rcases hrun : x.run s with ⟨e | a, t⟩ <;> rw [hrun] at hkept
    · exact hkept
    · exact hf a t hkept

theorem composable_determined {Q : Evaluator R → Prop} {frequency : R}
    (hQ : ∀ s, Q s → s.generator.frequency = frequency) : Composable (Determined Q) where
  ofExcept _ x := ⟨x, fun s hs => ⟨rfl, hs⟩⟩
  frequency _ f := ⟨.ok (f frequency), fun s hs => ⟨by rw [← hQ s hs]; rfl, hs⟩⟩
  bind := by
    rintro α β x f ⟨r, hx⟩ hf
    cases r with
    | error e =>
      refine ⟨.error e, fun s hs => ?_⟩
      obtain ⟨hr, hkept⟩ := hx s hs
      rw [Action.run_bind]
      rcases hrun : x.run s with ⟨e' | a, t⟩ <;> rw [hrun] at hr hkept <;> cases hr
      exact ⟨rfl, hkept⟩
    | ok a =>
      obtain ⟨r, hf⟩ := hf a
      refine ⟨r, fun s hs => ?_⟩
      obtain ⟨hr, hkept⟩ := hx s hs
      rw [Action.run_bind]
      rcases hrun : x.run s with ⟨e | a', t⟩ <;> rw [hrun] at hr hkept <;> cases hr
      exact hf t hkept

variable [Scalar R]

/-! ## Projections -/

/-- The evaluator after a projection of a link was cached. -/
def remember (s : Evaluator R) (l : Link R) (a b : NodeId) (x y : Beam R)
    (coefficients : List (Phasor R)) : Evaluator R :=
  { s with
    projections := s.projections.insert (projectionKey a b x y)
      ⟨coefficients, l.realization.serial, x.weights, y.weights⟩ }

theorem reproject_cases (s : Evaluator R) (l : Link R) (a b : NodeId) (x y : Beam R) :
    (∃ e, l.project x.weights y.weights = .error e ∧
      (reproject l (projectionKey a b x y) x y).run s = (.error e, s)) ∨
    (∃ coefficients, l.project x.weights y.weights = .ok coefficients ∧
      (reproject l (projectionKey a b x y) x y).run s =
        (.ok coefficients, s.remember l a b x y coefficients)) := by
  unfold reproject
  rw [Action.run_bind, Action.run_liftExcept]
  cases l.project x.weights y.weights with
  | error e => exact Or.inl ⟨e, rfl, rfl⟩
  | ok coefficients => exact Or.inr ⟨coefficients, rfl, rfl⟩

/-- A projection is the cached one where that fits, and is else made and cached. -/
theorem projection_cases (s : Evaluator R) (l : Link R) (a b : NodeId) (x y : Beam R) :
    (∃ p, s.projections[projectionKey a b x y]? = some p ∧ p.fits l.realization x y = true ∧
      (projection l a b x y).run s = (.ok p.coefficients, s)) ∨
    (∃ e, l.project x.weights y.weights = .error e ∧
      (projection l a b x y).run s = (.error e, s)) ∨
    (∃ coefficients, l.project x.weights y.weights = .ok coefficients ∧
      (projection l a b x y).run s = (.ok coefficients, s.remember l a b x y coefficients)) := by
  unfold projection
  rw [Action.run_bind_of_ok (Action.run_get s)]
  cases hp : s.projections[projectionKey a b x y]? with
  | none => exact Or.inr (reproject_cases s l a b x y)
  | some p =>
    dsimp only
    by_cases hfits : p.fits l.realization x y = true
    · rw [if_pos hfits]
      exact Or.inl ⟨p, rfl, hfits, rfl⟩
    · rw [if_neg hfits]
      exact Or.inr (reproject_cases s l a b x y)

/-- Whatever the cache answers for a link on beams in use is what the link projects them to. -/
def Faithful (s : Evaluator R) (l : Link R) (a b : NodeId) (uses : Beam R → Beam R → Prop) : Prop :=
  ∀ x y p, uses x y → s.projections[projectionKey a b x y]? = some p →
    p.fits l.realization x y = true → l.project x.weights y.weights = .ok p.coefficients

theorem fits_iff {p : CachedProjection R} {m : Realization R} {x y : Beam R} :
    p.fits m x y = true ↔
      p.serial = m.serial ∧ (p.aWeights == x.weights) = true ∧ (p.bWeights == y.weights) = true := by
  simp [CachedProjection.fits, and_assoc]

/-- Weights in use that compare equal are equal. -/
def Discerns (uses : Beam R → Beam R → Prop) : Prop :=
  ∀ x y x' y', uses x y → uses x' y' →
    ((x.weights == x'.weights) = true → x.weights = x'.weights) ∧
    ((y.weights == y'.weights) = true → y.weights = y'.weights)

variable {l : Link R} {a b : NodeId} {uses : Beam R → Beam R → Prop}

theorem Faithful.of_empty {s : Evaluator R} (h : s.projections = ∅) : s.Faithful l a b uses := by
  intro x y p _ hp
  simp [h] at hp

/-- A new projection keeps the cache faithful. -/
theorem Faithful.remember {s : Evaluator R} (h : s.Faithful l a b uses) (hd : Discerns uses)
    {x y : Beam R} (hxy : uses x y) {coefficients : List (Phasor R)}
    (hproject : l.project x.weights y.weights = .ok coefficients) :
    (s.remember l a b x y coefficients).Faithful l a b uses := by
  intro x' y' p huses hp hfits
  change (s.projections.insert _ _)[_]? = some p at hp
  rw [Std.HashMap.getElem?_insert] at hp
  split at hp
  · obtain rfl := Option.some.inj hp
    obtain ⟨-, hx, hy⟩ := fits_iff.mp hfits
    obtain ⟨hdx, hdy⟩ := hd x y x' y' hxy huses
    rw [← hdx hx, ← hdy hy]
    exact hproject
  · exact h x' y' p huses hp hfits

/-- On faithful caches a projection is determined. -/
theorem determined_projection (g : Generator R) (hd : Discerns uses) {x y : Beam R}
    (hxy : uses x y) :
    Determined (fun s => s.generator = g ∧ s.Faithful l a b uses) (projection l a b x y) := by
  refine ⟨l.project x.weights y.weights, fun s ⟨hg, hs⟩ => ?_⟩
  rcases projection_cases s l a b x y with ⟨p, hp, hfits, hrun⟩ | ⟨e, he, hrun⟩ | ⟨cs, hcs, hrun⟩
  · rw [hrun]
    exact ⟨(hs x y p hxy hp hfits).symm, hg, hs⟩
  · rw [hrun]
    exact ⟨he.symm, hg, hs⟩
  · rw [hrun]
    exact ⟨hcs.symm, hg, hs.remember hd hxy hcs⟩

/-! ## Where cached projections come from -/

theorem generator_of_channel_ok {s s' : Evaluator R} {now : Nanoseconds} {a b : Device R}
    (h : (channel now a b).run s = (.ok l, s')) :
    (Generator.channel now a.terminal b.terminal (s.model.condition a.id b.id)).run s.generator =
      (.ok l, s'.generator) := by
  rw [run_channel] at h
  obtain ⟨hl, rfl⟩ := Prod.mk.inj h
  exact Prod.ext hl rfl

/-- A cached projection was made by a call: it is what a link, as the call saw it, projects beams to
that the call used. -/
structure MadeBy (c : Call R) (l : Link R) (k : ProjectionKey) (p : CachedProjection R) : Prop where
  beams : ∃ x y, c.Uses x y ∧ k = projectionKey c.a.id c.b.id x y ∧ p.aWeights = x.weights ∧
    p.bWeights = y.weights
  serial : p.serial = l.realization.serial
  coefficients : l.project p.aWeights p.bWeights = .ok p.coefficients

/-- Projections leave the generator and the conditions as they are. -/
theorem keeps_generator_projection (s₀ : Evaluator R) (l : Link R) (a b : NodeId) (x y : Beam R) :
    Keeps (fun s => s.generator = s₀.generator ∧ s.model = s₀.model) (projection l a b x y) := by
  intro s hs
  rcases projection_cases s l a b x y with ⟨p, -, -, hrun⟩ | ⟨e, -, hrun⟩ | ⟨cs, -, hrun⟩ <;>
    rw [hrun] <;> exact hs

/-- What a call does with a channel leaves cached projections as they were, or makes new ones. -/
theorem keeps_projection {s₀ : Evaluator R} {c : Call R} {x y : Beam R} (hxy : c.Uses x y) :
    Keeps (fun s => s.generator = s₀.generator ∧ ∀ k p, s.projections[k]? = some p →
      s₀.projections[k]? = some p ∨ MadeBy c l k p) (projection l c.a.id c.b.id x y) := by
  rintro s ⟨hg, hs⟩
  rcases projection_cases s l c.a.id c.b.id x y with ⟨p, -, -, hrun⟩ | ⟨e, -, hrun⟩ | ⟨cs, hcs, hrun⟩
  · rw [hrun]
    exact ⟨hg, hs⟩
  · rw [hrun]
    exact ⟨hg, hs⟩
  · rw [hrun]
    refine ⟨hg, fun k p hp => ?_⟩
    change (s.projections.insert _ _)[_]? = some p at hp
    rw [Std.HashMap.getElem?_insert] at hp
    split at hp
    · rename_i hk
      obtain rfl := Option.some.inj hp
      exact Or.inr ⟨⟨x, y, hxy, (beq_iff_eq.mp hk).symm, rfl, rfl⟩, rfl, hcs⟩
    · exact hs k p hp

/-- Every cached projection was made by one of the past calls, from a realization that its link has
not got in any other form since. -/
structure Traced (s : Evaluator R) (past : List (Call R)) : Prop where
  orderly : s.generator.Orderly
  origin : ∀ k p, s.projections[k]? = some p → p.serial < s.generator.drawn ∧
    ∃ c ∈ past, ∃ l, MadeBy c l k p ∧ ∀ l', s.generator.peek c.a.id c.b.id = some l' →
      l'.realization.serial = p.serial → l' = l

/-- The evaluators that hosts can bring about, each with the calls made so far, the last one first.
The beams on the devices, their places and the time are part of each call; between calls the carrier
may be moved and links may be classified anew. -/
inductive Calls : Evaluator R → List (Call R) → Prop where
  /-- Nothing has been drawn or projected. -/
  | start {s : Evaluator R} (hcache : s.generator.cache = ∅) (hprojections : s.projections = ∅) :
      Calls s []
  /-- The carrier is moved. -/
  | tune {s : Evaluator R} {past : List (Call R)} (frequency : R) : Calls s past →
      Calls { s with generator := s.generator.setFrequency frequency } past
  /-- Links are classified anew. -/
  | classify {s : Evaluator R} {past : List (Call R)} (model : ConditionModel) : Calls s past →
      Calls { s with model := model } past
  /-- A call is made. -/
  | call {s : Evaluator R} {past : List (Call R)} (c : Call R) : Calls s past →
      Calls (c.evaluate.run s).2 (c :: past)

theorem Traced.weaken {s : Evaluator R} {past : List (Call R)} (h : s.Traced past) (c : Call R) :
    s.Traced (c :: past) where
  orderly := h.orderly
  origin k p hp := by
    obtain ⟨hserial, c', hc', l, hmade⟩ := h.origin k p hp
    exact ⟨hserial, c', List.mem_cons_of_mem c hc', l, hmade⟩

theorem Traced.channel {s : Evaluator R} {past : List (Call R)} (h : s.Traced past)
    (now : Nanoseconds) (a b : Device R) : ((channel now a b).run s).2.Traced past := by
  rw [run_channel]
  refine ⟨h.orderly.channel _ _ _ _, fun k p hp => ?_⟩
  obtain ⟨hserial, c, hc, l, hmade, hunique⟩ := h.origin k p hp
  refine ⟨Nat.lt_of_lt_of_le hserial Generator.drawn_le_channel, c, hc, l, hmade,
    fun l' hl' heq => hunique l' (Generator.peek_of_channel hl' ?_) heq⟩
  rw [heq]
  exact hserial

theorem Traced.call {s : Evaluator R} {past : List (Call R)} (h : s.Traced past) (c : Call R) :
    (c.evaluate.run s).2.Traced (c :: past) := by
  rcases c.evaluate_cases with ⟨r, hrun⟩ | hrun
  · rw [hrun]
    exact h.weaken c
  have hchannel := Traced.channel h c.now c.a c.b
  rw [hrun, Action.run_bind]
  rcases hanswer : (Evaluator.channel c.now c.a c.b).run s with ⟨e | l, s₁⟩ <;>
    rw [hanswer] at hchannel
  · exact hchannel.weaken c
  have hkeeps : Keeps (fun s => s.generator = s₁.generator ∧ ∀ k p, s.projections[k]? = some p →
      s₁.projections[k]? = some p ∨ MadeBy c l k p) (c.follow l) :=
    (composable_keeps _).follow c l fun x y hxy => keeps_projection hxy
  obtain ⟨hgenerator, hprojections⟩ := hkeeps s₁ ⟨rfl, fun k p hp => Or.inl hp⟩
  have hgen := generator_of_channel_ok hanswer
  refine ⟨hgenerator ▸ hchannel.orderly, fun k p hp => ?_⟩
  rw [hgenerator]
  rcases hprojections k p hp with hold | hnew
  · exact (hchannel.weaken c).origin k p hold
  · refine ⟨hnew.serial ▸ h.orderly.channel_ok_serial_lt hgen, c, List.mem_cons_self, l, hnew,
      fun l' hl' _ => Generator.peek_channel_ok hgen hl'⟩

/-- After all calls every cached projection is traced. -/
theorem Calls.traced {s : Evaluator R} {past : List (Call R)} (h : Calls s past) :
    s.Traced past := by
  induction h with
  | start hcache hprojections =>
    exact ⟨.of_empty hcache, fun k p hp => by simp [hprojections] at hp⟩
  | tune frequency _ ih => exact ⟨⟨ih.orderly.serial_lt, ih.orderly.one_direction⟩, ih.origin⟩
  | classify model _ ih => exact ⟨ih.orderly, ih.origin⟩
  | call c _ ih => exact ih.call c

/-! ## Transparency -/

/-- The evaluator with its projections forgotten. -/
def forget (s : Evaluator R) : Evaluator R := { s with projections := ∅ }

variable {s : Evaluator R} {past : List (Call R)}

/-- A cached projection that fits is the projection of the link, as seen from the end that the call
that made it asked from. -/
theorem Traced.hit (h : s.Traced past) {c : Call R} {s' : Evaluator R} {x y : Beam R}
    {p : CachedProjection R} (hanswer : (Evaluator.channel c.now c.a c.b).run s = (.ok l, s'))
    (hp : s.projections[projectionKey c.a.id c.b.id x y]? = some p)
    (hfits : p.fits l.realization x y = true) :
    ∃ c' ∈ past, ∃ x' y', c'.Uses x' y' ∧ x'.id = x.id ∧ y'.id = y.id ∧
      (x'.weights == x.weights) = true ∧ (y'.weights == y.weights) = true ∧
      ((c'.a.id = c.a.id ∧ c'.b.id = c.b.id ∧
          l.project x'.weights y'.weights = .ok p.coefficients) ∨
        (c'.Opposes c ∧ l.flip.project x'.weights y'.weights = .ok p.coefficients)) := by
  obtain ⟨hold, c', hc', l₀, hmade, hunique⟩ := h.origin _ p hp
  obtain ⟨⟨x', y', huses, hkey, hx, hy⟩, hserial, hproject⟩ := hmade
  obtain ⟨hfit, hfx, hfy⟩ := fits_iff.mp hfits
  rw [hfit] at hold
  have hpeek := Generator.peek_of_channel_ok (generator_of_channel_ok hanswer) hold
  change s.generator.peek c.a.id c.b.id = some l at hpeek
  rw [projectionKey, projectionKey, ProjectionKey.mk.injEq, NodeId.linkKey_inj] at hkey
  obtain ⟨hxid, hlink, hyid⟩ := hkey
  rw [hx] at hfx hproject
  rw [hy] at hfy hproject
  refine ⟨c', hc', x', y', huses, hxid.symm, hyid.symm, hfx, hfy, ?_⟩
  -- the key tells the link, not which of its ends asked
  by_cases hsame : c'.a.id = c.a.id ∧ c'.b.id = c.b.id
  · left
    obtain ⟨ha, hb⟩ := hsame
    rw [ha, hb] at hunique
    rw [hunique l hpeek hfit.symm]
    exact ⟨ha, hb, hproject⟩
  · right
    obtain ⟨hb, ha⟩ : c.a.id = c'.b.id ∧ c.b.id = c'.a.id :=
      hlink.resolve_left fun hends => hsame ⟨hends.1.symm, hends.2.symm⟩
    have hne : c.a.id ≠ c.b.id := fun hne => hsame ⟨(hne.trans ha).symm, (hne.symm.trans hb).symm⟩
    rw [← ha, ← hb] at hunique
    rw [hunique l.flip (h.orderly.peek_swap hne hpeek) hfit.symm]
    exact ⟨⟨hne, ha.symm, hb.symm⟩, hproject⟩

/-- On a faithful cache a call is answered as if nothing had been projected yet. -/
theorem evaluate_forget {c : Call R} (hd : Discerns c.Uses)
    (hfaithful : ∀ l s', (Evaluator.channel c.now c.a c.b).run s = (.ok l, s') →
      s.Faithful l c.a.id c.b.id c.Uses) :
    (c.evaluate.run s).1 = (c.evaluate.run s.forget).1 ∧
      (c.evaluate.run s).2.generator = (c.evaluate.run s.forget).2.generator := by
  rcases c.evaluate_cases with ⟨r, hrun⟩ | hrun
  · rw [hrun]
    exact ⟨rfl, rfl⟩
  rw [hrun, Action.run_bind, Action.run_bind]
  have hforget : (Evaluator.channel c.now c.a c.b).run s.forget =
      (((Evaluator.channel c.now c.a c.b).run s).1,
        ((Evaluator.channel c.now c.a c.b).run s).2.forget) := by
    rw [run_channel, run_channel]
    rfl
  have hprojections : ((Evaluator.channel c.now c.a c.b).run s).2.projections = s.projections := by
    rw [run_channel]
  rw [hforget]
  rcases hanswer : (Evaluator.channel c.now c.a c.b).run s with ⟨e | l, s₁⟩
  · exact ⟨rfl, rfl⟩
  rw [hanswer] at hprojections
  have hs₁ : s₁.Faithful l c.a.id c.b.id c.Uses := by
    intro x y p huses hp
    rw [hprojections] at hp
    exact hfaithful l s₁ hanswer x y p huses hp
  obtain ⟨r, hdetermined⟩ : Determined
      (fun s => s.generator = s₁.generator ∧ s.Faithful l c.a.id c.b.id c.Uses) (c.follow l) :=
    (composable_determined fun s hs => by rw [hs.1]).follow c l fun x y hxy =>
      determined_projection s₁.generator hd hxy
  -- the same answer on the faithful cache and on the empty one
  obtain ⟨hcached, hgen, -⟩ := hdetermined s₁ ⟨rfl, hs₁⟩
  obtain ⟨hfresh, hgen', -⟩ := hdetermined s₁.forget ⟨rfl, .of_empty rfl⟩
  exact ⟨hcached.trans hfresh.symm, hgen.trans hgen'.symm⟩

/-- When the cache of projections is transparent. A cached projection that fits is what the link
projects the beams of an earlier call to: as seen by the present call if that call asked from the same
end, and as seen from the other end if it asked from there. So a call is answered as if nothing had
been projected yet, unless an earlier call put beams with the same identities and weights at the ends
in the other order, and the link tells the difference. -/
theorem cache_transparent_unless_turned (h : Calls s past) (c : Call R) :
    (∀ l s' x y p, (Evaluator.channel c.now c.a c.b).run s = (.ok l, s') →
      s.projections[projectionKey c.a.id c.b.id x y]? = some p →
      p.fits l.realization x y = true →
      ∃ c' ∈ past, ∃ x' y', c'.Uses x' y' ∧ x'.id = x.id ∧ y'.id = y.id ∧
        (x'.weights == x.weights) = true ∧ (y'.weights == y.weights) = true ∧
        ((c'.a.id = c.a.id ∧ c'.b.id = c.b.id ∧
            l.project x'.weights y'.weights = .ok p.coefficients) ∨
          (c'.Opposes c ∧ l.flip.project x'.weights y'.weights = .ok p.coefficients))) ∧
    (Discerns (fun x y => ∃ c' ∈ c :: past, c'.Uses x y) →
      (∀ c' ∈ past, c'.Opposes c → ∀ x y x' y', c.Uses x y → c'.Uses x' y' →
        x'.id = x.id → y'.id = y.id → x'.weights = x.weights → y'.weights = y.weights →
        ∀ l s', (Evaluator.channel c.now c.a c.b).run s = (.ok l, s') →
          l.flip.project x.weights y.weights = l.project x.weights y.weights) →
      (c.evaluate.run s).1 = (c.evaluate.run s.forget).1 ∧
        (c.evaluate.run s).2.generator = (c.evaluate.run s.forget).2.generator) := by
  have htraced := h.traced
  refine ⟨fun l s' x y p hanswer hp hfits => htraced.hit hanswer hp hfits, fun hd hturned => ?_⟩
  refine evaluate_forget (fun x y x' y' hxy hxy' => ?_) fun l s' hanswer x y p hxy hp hfits => ?_
  · exact hd x y x' y' ⟨c, List.mem_cons_self, hxy⟩ ⟨c, List.mem_cons_self, hxy'⟩
  obtain ⟨c', hc', x', y', hxy', hx, hy, hxw, hyw, hmade⟩ := htraced.hit hanswer hp hfits
  obtain ⟨hdx, hdy⟩ := hd x' y' x y ⟨c', List.mem_cons_of_mem c hc', hxy'⟩
    ⟨c, List.mem_cons_self, hxy⟩
  rw [hdx hxw, hdy hyw] at hmade
  rcases hmade with ⟨-, -, hsame⟩ | ⟨hopposes, hother⟩
  · exact hsame
  · rw [← hturned c' hc' hopposes x y x' y' hxy hxy' hx hy (hdx hxw) (hdy hyw) l s' hanswer]
    exact hother

/-- A mast and a street that both use their own beam, whoever asks. -/
theorem cache_transparent_own_beams :
    let mast : Device Float := .resting 1 ⟨0, 0, 10⟩ 2
    let street : Device Float := .resting 2 ⟨40, 10, 1⟩ 2
    let down : Beam Float := ⟨[⟨1, 0⟩, ⟨0, 1⟩], ⟨11⟩⟩
    let up : Beam Float := ⟨[⟨1, 0⟩, ⟨1, 0⟩], ⟨22⟩⟩
    let grid : SpectrumGrid Float := ⟨[2000000000, 2001000000], by simp⟩
    let there : Call Float := ⟨5, mast, street, .complex grid down up⟩
    let back : Call Float := ⟨3, street, mast, .complex grid up down⟩
    let start : Evaluator Float :=
      .ofGenerator (.fresh .urbanMacro 2000000000 1000 7) (.fixed .lineOfSight)
    let s := (there.evaluate.run start).2
    Calls s [there] ∧ there.Opposes back ∧
      Discerns (fun x y => ∃ c' ∈ [back, there], c'.Uses x y) ∧
      (∀ x y x' y', back.Uses x y → there.Uses x' y' → ¬x'.id = x.id) ∧
      (back.evaluate.run s).1 = (back.evaluate.run s.forget).1 ∧
      (back.evaluate.run s).2.generator = (back.evaluate.run s.forget).2.generator := by
  intro mast street down up grid there back start s
  have hcalls : Calls s [there] := .call there (.start rfl rfl)
  have hopposes : there.Opposes back := ⟨by decide, rfl, rfl⟩
  have hids : ∀ x y x' y', back.Uses x y → there.Uses x' y' → ¬x'.id = x.id := by
    rintro x y x' y' ⟨rfl, rfl⟩ ⟨rfl, rfl⟩
    decide
  have hd : Discerns (fun x y => ∃ c' ∈ [back, there], c'.Uses x y) := by
    have hne : (down.weights == up.weights) = false ∧ (up.weights == down.weights) = false := by
      decide
    have huses : ∀ x y, (∃ c' ∈ [back, there], c'.Uses x y) →
        (x = up ∧ y = down) ∨ (x = down ∧ y = up) := by
      rintro x y ⟨c, hc, hxy⟩
      rcases List.mem_pair.mp hc with rfl | rfl
      · exact Or.inl hxy
      · exact Or.inr hxy
    intro x y x' y' hxy hxy'
    rcases huses x y hxy with ⟨rfl, rfl⟩ | ⟨rfl, rfl⟩ <;>
      rcases huses x' y' hxy' with ⟨rfl, rfl⟩ | ⟨rfl, rfl⟩ <;> simp [hne]
  obtain ⟨-, htransparent⟩ := cache_transparent_unless_turned hcalls back
  obtain ⟨hanswer, hgenerator⟩ := htransparent hd fun c' hc' _ x y x' y' hxy hxy' hx => by
    rw [List.mem_singleton] at hc'
    rw [hc'] at hxy'
    exact absurd hx (hids x y x' y' hxy hxy')
  exact ⟨hcalls, hopposes, hd, hids, hanswer, hgenerator⟩

end Evaluator

end RadioChannel
