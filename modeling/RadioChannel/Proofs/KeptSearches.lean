import RadioChannel.Proofs.RuralBundles

/-!
# The codebook beams that engines keep

A device that searches codebooks keeps a beam for a peer together with the channel between all pairs of
beams that it was found in. That channel has a row for each element of the peer and a column for each
of its own, also when it was measured long ago, because no request changes a panel. The beam is one of
the strongest in it. A later look at the beam depends on its age alone: where the two devices are by
then is not asked.
-/

namespace RadioChannel

open Scalar

variable {R : Type} [Scalar R]

/-- A beam that a device keeps for a peer is a strongest one of a search, which has an entry for every
pair of beams of the two panels. -/
structure SelectedBeam.Found (own peer : Panel R) (search : BeamSearch R) (b : SelectedBeam R) :
    Prop where
  searched : b.search? = some search
  height : search.equivalent.length = peer.elementCount
  width : ∀ row ∈ search.equivalent, row.length = own.elementCount
  strongest : Codebook.IsStrongest search.equivalent [] search.pair
  receiving : search.pair.rx < peer.elementCount
  transmitting : search.pair.tx < own.elementCount
  weights : Codebook.beam own.size search.pair.tx = .ok b.beam.weights
  id : b.beam.id = .codebook search.pair.tx search.pair.rx

namespace BeamDesk

variable {now : Nanoseconds} {own : Endpoint R} {panel : Panel R} {peer : Device R}
variable {s : BeamDesk R} {b : SelectedBeam R} {search : BeamSearch R}

section Order

variable (hirrefl : ∀ x : R, lt x x = false)
variable (htrans : ∀ x y z : R, lt x y = true → lt y z = true → lt x z = true)

include hirrefl htrans in
/-- A search between panels finds such a beam. -/
theorem Selected.found (h : Selected now own panel peer b) (hsides : panel.size.HasSides)
    (hpeer : peer.array.panel.size.HasSides) (hcolumns : panel.size.columns ≠ 0)
    (hb : b.search? = some search) : b.Found panel peer.array.panel search := by
  cases h with
  | steered => cases hb
  | @searched device v v' m equivalent pair hown hpanel hchannel hequivalent hpair =>
    subst hpanel
    obtain rfl := Option.some.inj hb
    obtain ⟨-, hrows⟩ := Evaluator.length_flatMatrix hchannel
    obtain ⟨hheight, hwidth⟩ := Codebook.shape_equivalent
      (fun row hrow => (hrows row hrow).trans (Codebook.wordCount_eq hsides).symm) hequivalent
    rw [Codebook.wordCount_eq hpeer] at hheight
    rw [Codebook.wordCount_eq hsides] at hwidth
    have hstrongest := Codebook.isStrongest_of_strongest hirrefl htrans hpair
    obtain ⟨z, hz, -⟩ := hstrongest.unbeaten
    obtain ⟨hrx, htx⟩ := Codebook.entry?_lt hwidth hz
    exact ⟨rfl, hheight, hwidth, hstrongest, hrx.trans_eq hheight, htx,
      by rw [Codebook.beam, if_neg hcolumns], rfl⟩

end Order

/-! ## Lookups -/

/-- What a lookup for a peer does where a desk keeps a beam from a search. Up to a certain age of the
search it is that beam, and nothing changes. Later the beam is replaced by one from a search that is
made now, or there is an error and the engine keeps what it has. -/
structure Refreshes (s : BeamDesk R) (now : Nanoseconds) (own : Endpoint R) (peer : Device R)
    (search : BeamSearch R) (b : SelectedBeam R) : Prop where
  reused : now - search.generatedAt ≤ s.engine.refresh →
    (codebookBeam now own peer).run s = (.ok b, s)
  expired : s.engine.refresh < now - search.generatedAt →
    (∃ e v, (codebookBeam now own peer).run s = (.error e, { s with evaluator := v })) ∨
    ∃ b' search' v, Selected now own s.array.panel peer b' ∧ b'.search? = some search' ∧
      search'.generatedAt = now ∧ search.generatedAt < now ∧ (codebookBeam now own peer).run s =
        (.ok b', { s with evaluator := v, engine := s.engine.keep own.id peer.id b' })

theorem refreshes (hb : s.engine.selected? own.id peer.id = some b) (hsearch : b.search? = some search)
    (now : Nanoseconds) : s.Refreshes now own peer search b where
  reused hage := by
    rw [run_codebookBeam_of_kept hb hsearch, BeamEngine.isFresh, if_pos (decide_eq_true hage)]
  expired hage := by
    rw [run_codebookBeam_of_kept hb hsearch, BeamEngine.isFresh, decide_eq_false (not_le.mpr hage),
      if_neg Bool.false_ne_true]
    rcases searchCodebook_cases now own peer s with hfailed | ⟨b', v, hselected, ⟨search', hsearch', hnow⟩,
      hrun⟩
    · exact Or.inl hfailed
    · exact Or.inr ⟨b', search', v, hselected, hsearch', hnow,
        Nat.lt_of_sub_pos (Nat.zero_lt_of_lt hage), hrun⟩

end BeamDesk

namespace Scene

variable {settings : SceneSettings R} {start : Scene R} {past : List (Request R)} {own : NodeId}
variable {t : Station R}

/-- What engines keep that search codebooks. After any requests of a scene whose devices have elements,
every beam that is kept is for a device that is there, and is a strongest one of a search on the panels
that both have, with the weights of its index. A lookup reuses it up to a certain age of that search,
wherever the two devices are by then and whatever else has changed; later it replaces it by a beam that
is searched for now, or fails and leaves it. -/
theorem searches_kept_after (hirrefl : ∀ x : R, lt x x = false)
    (htrans : ∀ x y z : R, lt x y = true → lt y z = true → lt x z = true)
    (hstart : ofSettings settings = .ok start) (past : List (Request R))
    (hequipped : (start.after past).Equipped) (ht : (start.after past).stations[own]? = some t)
    (hstrategy : t.engine.strategy ≠ .geometric) {key : Nat} {b : SelectedBeam R}
    (hb : t.engine.cache[key]? = some b) :
    ∃ (peer : NodeId) (other : Station R) (search : BeamSearch R),
      (start.after past).stations[peer]? = some other ∧ key = own.keyTo peer ∧
      b.Found t.device.array.panel other.device.array.panel search ∧
      ∀ (now : Nanoseconds) (here : Endpoint R) (device : Device R) (desk : BeamDesk R),
        here.id = own → device.id = peer → desk.engine.selected? own peer = some b →
        desk.Refreshes now here device search b := by
  have htraced := traced_after hstart past ht
  obtain ⟨peer, other, hother, hkey, now, here, device, -, -, hpanel, hselected⟩ :=
    htraced.kept key b hb
  have hfit : b.search? ≠ none := fun hnone =>
    hstrategy ((((matched_after hstart past hequipped).station own t ht).engine key b hb).search.mp hnone)
  obtain ⟨search, hsearch⟩ := Option.ne_none_iff_exists'.mp hfit
  refine ⟨peer, other, search, hother, hkey, ?_, ?_⟩
  · rw [← hpanel]
    refine hselected.found hirrefl htrans htraced.sides ?_
      (Nat.one_le_iff_ne_zero.mp (hequipped own t ht).1) hsearch
    rw [hpanel]
    exact (traced_after hstart past hother).sides
  · rintro now here device desk rfl rfl hkept
    exact BeamDesk.refreshes hkept hsearch now

/-! ### A steeple that searches -/

/-- The steeple keeps a search for each device of its bundle. -/
theorem searching_village : ∃ (start : Scene ℝ) (desk : BeamDesk ℝ), Village .flatMmse start desk ∧
    desk.engine.strategy = .flatMmse ∧
    ∀ peer : NodeId, peer = ⟨2⟩ ∨ peer = ⟨3⟩ → ∃ b, desk.engine.selected? ⟨1⟩ peer = some b := by
  obtain ⟨start, desk, hvillage⟩ := exists_village .flatMmse (by decide)
  have hlayer : Function.Injective (![5, 2] : Fin 2 → UInt8) := by decide
  have hserved := hvillage.served
  obtain ⟨s, hs⟩ : ∃ s, s = start.after (building .flatMmse) := ⟨_, rfl⟩
  rw [← hs, Bundle.run_serve (by simp)] at hserved
  obtain ⟨search, -, -, -, -, t, hwork, hengine, hholds, -⟩ :=
    Bundle.run_mixFlat_ok two_pos hlayer hserved
  refine ⟨start, desk, hvillage, ?_, fun peer hpeer => ?_⟩
  · rw [hengine, hwork.settings]
    rfl
  · rw [hengine]
    rcases hpeer with rfl | rfl
    · obtain ⟨b, hb, -⟩ := hholds 0
      exact ⟨b, hb⟩
    · obtain ⟨b, hb, -⟩ := hholds 1
      exact ⟨b, hb⟩

/-- In the village the steeple keeps what it searched for, also after the tractor has driven on. -/
theorem searches_kept_after_driving : ∃ (start : Scene ℝ) (t u w : Station ℝ) (b b' : SelectedBeam ℝ)
    (search search' : BeamSearch ℝ), ofSettings country = .ok start ∧
    (start.after (driving .flatMmse)).Equipped ∧
    (start.after (driving .flatMmse)).stations[(⟨1⟩ : NodeId)]? = some t ∧
    (start.after (driving .flatMmse)).stations[(⟨2⟩ : NodeId)]? = some u ∧
    (start.after (driving .flatMmse)).stations[(⟨3⟩ : NodeId)]? = some w ∧
    t.engine.strategy ≠ .geometric ∧ t.device.array.elementCount = 4 ∧ u.device.endpoint = ploughing ∧
    t.engine.cache[(⟨1⟩ : NodeId).keyTo ⟨2⟩]? = some b ∧
    b.Found t.device.array.panel u.device.array.panel search ∧
    t.engine.cache[(⟨1⟩ : NodeId).keyTo ⟨3⟩]? = some b' ∧
    b'.Found t.device.array.panel w.device.array.panel search' ∧
    ∀ now, ((start.after (driving .flatMmse)).desk t).Refreshes now t.device.endpoint u.device search b ∧
      ((start.after (driving .flatMmse)).desk t).Refreshes now t.device.endpoint w.device search' b' := by
  obtain ⟨start, desk, hvillage, hsearching, hkept⟩ := searching_village
  have helements : desk.array.elementCount = 4 := by
    rw [AntennaArray.elementCount, hvillage.panel]
    rfl
  have hne : desk.engine.strategy ≠ .geometric := by
    rw [hsearching]
    decide
  obtain ⟨b, hb⟩ := hkept ⟨2⟩ (Or.inl rfl)
  obtain ⟨b', hb'⟩ := hkept ⟨3⟩ (Or.inr rfl)
  obtain ⟨peer, other, search, hother, hkey, hfound, hlookup⟩ := searches_kept_after
    ExactScalars.lt_irrefl ExactScalars.lt_trans hvillage.described (driving .flatMmse) hvillage.equipped
    hvillage.server hne hb
  obtain rfl := (NodeId.keyTo_inj.mp hkey).2
  obtain rfl := Option.some.inj (hvillage.driven.symm.trans hother)
  obtain ⟨peer', other', search', hother', hkey', hfound', hlookup'⟩ := searches_kept_after
    ExactScalars.lt_irrefl ExactScalars.lt_trans hvillage.described (driving .flatMmse) hvillage.equipped
    hvillage.server hne hb'
  obtain rfl := (NodeId.keyTo_inj.mp hkey').2
  obtain rfl := Option.some.inj (hvillage.left.symm.trans hother')
  have hlater (now : Nanoseconds) (v : Evaluator ℝ) :
      BeamDesk.Refreshes ⟨desk.engine, desk.array, v⟩ now steeple.endpoint
        { tractor with endpoint := ploughing } search b ∧
      BeamDesk.Refreshes ⟨desk.engine, desk.array, v⟩ now steeple.endpoint barn search' b' :=
    ⟨hlookup now _ _ _ rfl rfl hb, hlookup' now _ _ _ rfl rfl hb'⟩
  exact ⟨start, _, _, _, b, b', search, search', hvillage.described, hvillage.equipped, hvillage.server,
    hvillage.driven, hvillage.left, hne, helements, rfl, hb, hfound, hb', hfound',
    fun now => hlater now _⟩

end Scene

end RadioChannel
