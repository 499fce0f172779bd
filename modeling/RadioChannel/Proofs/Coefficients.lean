import RadioChannel.Proofs.ExactScalars
import RadioChannel.Proofs.Transparency

/-!
# Gains of settled links

At one point of time a link that was asked for once stays as it is: later requests of the same node
are answered by the same realization. If the cache of projections can be trusted, all gains of the
link at that time are those of projections made anew.
-/

namespace RadioChannel

open Scalar

namespace Evaluator

/-- The complex gains of a link between two beams, from a projection made anew. -/
def freshGains {R : Type} [Scalar R] (s : Evaluator R) (now : Nanoseconds) (l : Link R)
    (a b : Device R) (x y : Beam R) (grid : SpectrumGrid R) : Except (Fault R) (List (Phasor R)) := do
  let projected ← l.project x.weights y.weights
  return l.gains projected (s.doppler now l a b) grid

/-- A link that the generator holds, and that serves requests of a node for a peer. -/
structure Settled {R : Type} [Scalar R] (s : Evaluator R) (now : Nanoseconds) (own peer : NodeId)
    (l : Link R) : Prop where
  held : s.generator.peek own peer = some l
  serves : s.generator.serves now (s.model.condition own peer).los l.realization = true

/-- What the cache of projections answers on the links of a node is what the links project to. -/
structure Trusted {R : Type} [Scalar R] (s : Evaluator R) (own : NodeId) : Prop where
  /-- The generator's cache is in order. -/
  orderly : s.generator.Orderly
  /-- Projections were made from realizations that were drawn. -/
  serial_lt : ∀ (k : ProjectionKey) (p : CachedProjection R), s.projections[k]? = some p →
    p.serial < s.generator.drawn
  /-- The answers are those of the links. -/
  faithful : ∀ peer l, s.generator.peek own peer = some l → s.Faithful l own peer fun _ _ => True

theorem Trusted.of_empty {R : Type} [Scalar R] {s : Evaluator R} {own : NodeId}
    (h : s.generator.Orderly) (hempty : s.projections = ∅) : s.Trusted own where
  orderly := h
  serial_lt k p hp := by simp [hempty] at hp
  faithful _ _ _ := .of_empty hempty

variable {s s' : Evaluator ℝ} {now : Nanoseconds} {own peer : NodeId} {a b : Device ℝ} {l : Link ℝ}

theorem length_of_freshGains {x y : Beam ℝ} {grid : SpectrumGrid ℝ} {cs : List (Phasor ℝ)}
    (h : s.freshGains now l a b x y grid = .ok cs) : cs.length = grid.size := by
  rw [freshGains, except_bind_ok] at h
  obtain ⟨projected, -, h⟩ := h
  obtain rfl := Except.ok.inj h
  exact List.length_map _

theorem discerns_exact (uses : Beam ℝ → Beam ℝ → Prop) : Discerns uses := by
  have hlawful : LawfulBEq (Phasor ℝ) := {
    eq_of_beq := by
      rintro ⟨x, y⟩ ⟨u, v⟩ h
      obtain ⟨hx, hy⟩ := Bool.and_eq_true_iff.mp h
      exact congrArg₂ Phasor.mk (ExactScalars.beq_iff.mp hx) (ExactScalars.beq_iff.mp hy)
    rfl := fun {z} =>
      Bool.and_eq_true_iff.mpr ⟨ExactScalars.beq_iff.mpr rfl, ExactScalars.beq_iff.mpr rfl⟩ }
  intro x y x' y' _ _
  exact ⟨eq_of_beq, eq_of_beq⟩

/-- A node that has only been asked about from its own end can trust the cache. -/
theorem Calls.trusted {past : List (Call ℝ)} (h : Calls s past)
    (hown : ∀ c ∈ past, c.b.id = own → c.a.id = own) : s.Trusted own where
  orderly := h.traced.orderly
  serial_lt k p hp := (h.traced.origin k p hp).1
  faithful peer l hheld x y p _ hp hfits := by
    obtain ⟨-, c, hc, l', hmade, hunique⟩ := h.traced.origin _ p hp
    obtain ⟨x', y', -, hkey, -, -⟩ := hmade.beams
    have hends : c.a.id = own ∧ c.b.id = peer := by
      rcases NodeId.linkKey_inj.mp (congrArg ProjectionKey.link hkey) with ⟨ha, hb⟩ | ⟨hb, ha⟩
      · exact ⟨ha.symm, hb.symm⟩
      · have hself := hown c hc hb.symm
        exact ⟨hself, by rw [ha, hself, ← hb]⟩
    obtain ⟨hserial, hx, hy⟩ := fits_iff.mp hfits
    rw [hends.1, hends.2] at hunique
    obtain rfl := hunique l hheld hserial.symm
    obtain ⟨hdx, hdy⟩ := discerns_exact (fun _ _ => True) ⟨p.aWeights, x.id⟩ ⟨p.bWeights, y.id⟩ x y
      trivial trivial
    rw [← hdx hx, ← hdy hy]
    exact hmade.coefficients

/-! ## Projections -/

theorem keeps_gains (now : Nanoseconds) (x y : Beam ℝ) (grid : SpectrumGrid ℝ) :
    Keeps (fun t => t.generator = s.generator ∧ t.model = s.model) (gains now l a b x y grid) :=
  (composable_keeps _).gains (keeps_generator_projection s l a.id b.id x y) grid

/-- Projections of a held link keep the cache trusted. -/
theorem Trusted.remember (h : s.Trusted own) (hheld : s.generator.peek own peer = some l)
    {x y : Beam ℝ} {coefficients : List (Phasor ℝ)}
    (hproject : l.project x.weights y.weights = .ok coefficients) :
    (s.remember l own peer x y coefficients).Trusted own where
  orderly := h.orderly
  serial_lt k p hp := by
    change (s.projections.insert _ _)[_]? = some p at hp
    rw [Std.HashMap.getElem?_insert] at hp
    split at hp
    · obtain rfl := Option.some.inj hp
      exact h.orderly.peek_serial_lt hheld
    · exact h.serial_lt k p hp
  faithful peer' l' hheld' := by
    by_cases hpeer : peer' = peer
    · subst hpeer
      obtain rfl := Option.some.inj (hheld'.symm.trans hheld)
      exact (h.faithful peer' l' hheld).remember (discerns_exact _) trivial hproject
    · intro x' y' p _ hp hfits
      change (s.projections.insert _ _)[_]? = some p at hp
      rw [Std.HashMap.getElem?_insert] at hp
      split at hp
      · -- the keys of links to two peers differ
        rename_i hkey
        have hlink := congrArg ProjectionKey.link (beq_iff_eq.mp hkey)
        rcases NodeId.linkKey_inj.mp hlink with ⟨-, heq⟩ | ⟨heq, heq'⟩
        · exact absurd heq.symm hpeer
        · exact absurd (heq.symm.trans heq'.symm) hpeer
      · exact h.faithful peer' l' hheld' x' y' p trivial hp hfits

/-- On a trusted cache the projection of a held link is the one made anew. -/
theorem Trusted.projection (h : s.Trusted own) (hheld : s.generator.peek own peer = some l)
    (x y : Beam ℝ) :
    ((projection l own peer x y).run s).1 = l.project x.weights y.weights ∧
      ((projection l own peer x y).run s).2.generator = s.generator ∧
      ((projection l own peer x y).run s).2.Trusted own := by
  rcases projection_cases s l own peer x y with ⟨p, hp, hfits, hrun⟩ | ⟨e, he, hrun⟩ | ⟨cs, hcs, hrun⟩
  · rw [hrun]
    exact ⟨(h.faithful peer l hheld x y p trivial hp hfits).symm, rfl, h⟩
  · rw [hrun]
    exact ⟨he.symm, rfl, h⟩
  · rw [hrun]
    exact ⟨hcs.symm, rfl, h.remember hheld hcs⟩

/-- On a trusted cache the gains of a held link are those of a projection made anew. -/
theorem Trusted.gains (h : s.Trusted a.id) (hheld : s.generator.peek a.id b.id = some l)
    (now : Nanoseconds) (x y : Beam ℝ) (grid : SpectrumGrid ℝ) :
    ((gains now l a b x y grid).run s).1 = s.freshGains now l a b x y grid ∧
      ((gains now l a b x y grid).run s).2.Trusted a.id := by
  obtain ⟨hanswer, hgenerator, htrusted⟩ := h.projection hheld x y
  unfold Evaluator.gains freshGains
  rw [Action.run_bind]
  rcases hrun : (Evaluator.projection l a.id b.id x y).run s with ⟨e | cs, t⟩ <;>
    rw [hrun] at hanswer hgenerator htrusted
  · rw [← hanswer]
    exact ⟨rfl, htrusted⟩
  · rw [← hanswer]
    refine ⟨?_, htrusted⟩
    change Except.ok (l.gains cs (t.doppler now l a b) grid) = _
    rw [doppler, hgenerator]
    rfl

/-! ## Requests -/

/-- An answer to a request settles the link. -/
theorem settled_of_channel {R : Type} [Scalar R] {s s' : Evaluator R} {a b : Device R} {l : Link R}
    (hne : a.id ≠ b.id) (h : (channel now a b).run s = (.ok l, s')) :
    s'.Settled now a.id b.id l := by
  have hmodel : s'.model = s.model := by
    rw [run_channel] at h
    rw [← (Prod.mk.inj h).2]
  have hperiod : ∀ t : Evaluator R, t.model = s.model →
      l.realization.condition = s.model.condition a.id b.id → l.realization.generatedAt = now →
      t.generator.serves now (t.model.condition a.id b.id).los l.realization = true := by
    intro t ht hcondition htime
    rw [Generator.serves_iff, ht, hcondition, htime]
    exact ⟨rfl, Or.inr (by rw [Nat.sub_self]; exact Nat.zero_le _)⟩
  rcases Generator.channel_ok (generator_of_channel_ok h) with
    ⟨hsame, hpeek, hserves⟩ | ⟨source, hstore, hforward, -, hcondition, htime⟩
  · refine ⟨by rw [hsame]; exact hpeek, ?_⟩
    rw [hsame, hmodel]
    exact hserves
  · refine ⟨?_, hperiod s' hmodel hcondition htime⟩
    obtain ⟨m, reverse⟩ := l
    cases hforward
    rw [hstore]
    exact Generator.peek_store_self _ _ hne _

/-- A settled link answers a request between other places, if the arrays are those it was drawn for. -/
theorem Settled.channel {R : Type} [Scalar R] {s : Evaluator R} {a b : Device R} {l : Link R}
    (h : s.Settled now a.id b.id l)
    (hpos : (a.endpoint.position == b.endpoint.position) = false)
    (hrx : l.rxCount = b.array.elementCount) (htx : l.txCount = a.array.elementCount) :
    (channel now a b).run s = (.ok l, s) := by
  rw [run_channel]
  rcases Generator.channel_cases s.generator now a.terminal b.terminal
      (s.model.condition a.id b.id) hpos with ⟨l', hpeek, -, hrun⟩ | ⟨hnone, -⟩
  · obtain rfl := Option.some.inj (hpeek.symm.trans h.held)
    rw [hrun]
    refine Prod.ext ?_ rfl
    exact if_pos ⟨hrx, htx⟩
  · have hserves := hnone l h.held
    have hserved : s.generator.serves now (s.model.condition a.id b.id).los l.realization = true :=
      h.serves
    rw [hserved] at hserves
    cases hserves

/-- What requests and projections of a node leave as it is at a point of time. -/
structure Later (now : Nanoseconds) (own : NodeId) (s t : Evaluator ℝ) : Prop where
  frequency : t.generator.frequency = s.generator.frequency
  model : t.model = s.model
  settled : ∀ peer l, s.Settled now own peer l → t.Settled now own peer l
  trusted : s.Trusted own → t.Trusted own

theorem Later.refl (s : Evaluator ℝ) : Later now own s s := ⟨rfl, rfl, fun _ _ h => h, fun h => h⟩

theorem Later.trans (s t u : Evaluator ℝ) (h : Later now own s t) (h' : Later now own t u) :
    Later now own s u where
  frequency := h'.frequency.trans h.frequency
  model := h'.model.trans h.model
  settled peer l hl := h'.settled peer l (h.settled peer l hl)
  trusted hs := h'.trusted (h.trusted hs)

theorem Later.freshGains (h : Later now own s s') (l : Link ℝ) (a b : Device ℝ) (x y : Beam ℝ)
    (grid : SpectrumGrid ℝ) :
    s'.freshGains now l a b x y grid = s.freshGains now l a b x y grid := by
  unfold Evaluator.freshGains doppler
  rw [h.frequency]

/-- A new draw is not what any cached projection was made from. -/
theorem Trusted.channel (h : s.Trusted own) : ((channel now a b).run s).2.Trusted own := by
  rw [run_channel]
  refine ⟨h.orderly.channel _ _ _ _, fun k p hp => ?_, fun peer l hl x y p _ hp hfits => ?_⟩
  · exact Nat.lt_of_lt_of_le (h.serial_lt k p hp) Generator.drawn_le_channel
  · have hold : l.realization.serial < s.generator.drawn := by
      rw [← (fits_iff.mp hfits).1]
      exact h.serial_lt _ p hp
    exact h.faithful peer l (Generator.peek_of_channel hl hold) x y p trivial hp hfits

theorem advances_channel (hne : a.id ≠ b.id) :
    Action.Advances (Later now a.id) (channel now a b) := by
  intro s
  have hframe : ((Evaluator.channel now a b).run s).2.generator.frequency = s.generator.frequency ∧
      ((Evaluator.channel now a b).run s).2.generator.updatePeriod = s.generator.updatePeriod := by
    rw [run_channel]
    exact Generator.channel_frame
  refine ⟨hframe.1, by rw [run_channel], fun peer l hl => ?_, Trusted.channel⟩
  have hserves := Generator.serves_iff.mp hl.serves
  refine ⟨?_, Generator.serves_iff.mpr (by rw [hframe.2, run_channel]; exact hserves)⟩
  rw [run_channel]
  refine Generator.peek_channel_of_serves hne hl.held fun hpeer => ?_
  have hasked := hl.serves
  rw [hpeer] at hasked
  exact hasked

theorem later_gains (hheld : s.generator.peek a.id b.id = some l) (now : Nanoseconds) (x y : Beam ℝ)
    (grid : SpectrumGrid ℝ) : Later now a.id s ((gains now l a b x y grid).run s).2 := by
  obtain ⟨hgenerator, hmodel⟩ :=
    keeps_gains (s := s) (l := l) (a := a) (b := b) now x y grid s ⟨rfl, rfl⟩
  refine ⟨by rw [hgenerator], hmodel, fun peer l' hl' => ?_, fun h => (h.gains hheld now x y grid).2⟩
  exact ⟨by rw [hgenerator]; exact hl'.held, by rw [hgenerator, hmodel]; exact hl'.serves⟩

theorem advances_complexSpectrum (hne : a.id ≠ b.id) (grid : SpectrumGrid ℝ) (x y : Beam ℝ) :
    Action.Advances (Later now a.id) (complexSpectrum now grid a b x y) := by
  intro s
  unfold complexSpectrum
  split
  · exact .refl s
  have hrequest : Later now a.id s _ := advances_channel hne s
  rw [Action.run_bind]
  rcases hchannel : (Evaluator.channel now a b).run s with ⟨e | l, t⟩ <;> rw [hchannel] at hrequest
  · exact hrequest
  · exact Later.trans _ _ _ hrequest (later_gains (settled_of_channel hne hchannel).held now x y grid)

theorem advances_flatMatrix (hne : a.id ≠ b.id) (offset : ℝ) :
    Action.Advances (Later now a.id) (flatMatrix now a b offset) := by
  unfold flatMatrix
  refine Action.Advances.bind Later.trans (advances_channel hne) fun l => ?_
  refine Action.Advances.bind Later.trans (Action.advances_ofExcept .refl _) fun _ => ?_
  exact fun s => .refl s

/-- The complex gains that a node asks for are those of a settled link, from a projection made anew. -/
theorem Trusted.complexSpectrum (h : s.Trusted a.id) (hne : a.id ≠ b.id) {grid : SpectrumGrid ℝ}
    {x y : Beam ℝ} {cs : List (Phasor ℝ)}
    (hrun : (complexSpectrum now grid a b x y).run s = (.ok cs, s')) :
    ∃ l, s'.Settled now a.id b.id l ∧ s'.freshGains now l a b x y grid = .ok cs := by
  unfold Evaluator.complexSpectrum at hrun
  split at hrun
  · cases hrun
  rw [Action.run_bind_ok] at hrun
  obtain ⟨l, t, hchannel, hgains⟩ := hrun
  have ht : t.Trusted a.id := by
    have hkept : ((Evaluator.channel now a b).run s).2.Trusted a.id := h.channel
    rwa [hchannel] at hkept
  have hsettled := settled_of_channel hne hchannel
  have hlater := later_gains hsettled.held now x y grid
  have hanswer := (ht.gains hsettled.held now x y grid).1
  rw [hgains] at hlater hanswer
  exact ⟨l, hlater.settled b.id l hsettled, by rw [hlater.freshGains, ← hanswer]⟩

end Evaluator

end RadioChannel
