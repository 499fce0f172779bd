import RadioChannel.Proofs.Shuffles
import RadioChannel.Proofs.SubClusters

/-!
# Rays are coupled alike in all channels

The angles of a cluster's rays are shuffled, those of each kind by a seed of their own. A shuffle does not
look at what it shuffles, and every cluster has as many rays. So the rays of one cluster are coupled by one
permutation for each kind of angle, in whichever channel.
-/

namespace RadioChannel

/-- The kinds of angles of a ray. -/
inductive RayAngle
  | aoa
  | zoa
  | aod
  | zod
deriving DecidableEq

namespace RayAngle

variable {R : Type}

/-- The angle of this kind. -/
def of : RayAngle → Directions R → R
  | aoa => Directions.aoa
  | zoa => Directions.zoa
  | aod => Directions.aod
  | zod => Directions.zod

/-- The angles of this kind of all rays of a fan. -/
def list : RayAngle → RayFan R → List R
  | aoa => RayFan.aoa
  | zoa => RayFan.zoa
  | aod => RayFan.aod
  | zod => RayFan.zod

/-- What the seeds for this kind of angles have in addition. -/
def tag : RayAngle → ℕ
  | aoa => 200
  | zoa => 400
  | aod => 100
  | zod => 300

theorem list_couple (kind : RayAngle) (n : ℕ) (fan : RayFan R) :
    kind.list (fan.couple n) = shuffle (RayFan.seed n kind.tag) (kind.list fan) := by
  cases kind <;> rfl

/-- The rays of a fan have its angles, if there are as many of each kind. -/
theorem map_rays {fan : RayFan R} {rays : ℕ} (h : ∀ kind : RayAngle, (kind.list fan).length = rays)
    (kind : RayAngle) : fan.rays.map kind.of = kind.list fan := by
  have haoa : fan.aoa.length = rays := h aoa
  have hzoa : fan.zoa.length = rays := h zoa
  have haod : fan.aod.length = rays := h aod
  have hzod : fan.zod.length = rays := h zod
  cases kind <;> exact List.ext_getElem (by simp [RayFan.rays, list, haoa, hzoa, haod, hzod])
    fun i _ _ => by simp [RayFan.rays, list, of]

theorem tag_inj {kind kind' : RayAngle} : kind.tag = kind'.tag ↔ kind = kind' := by
  cases kind <;> cases kind' <;> decide

theorem tag_lt (kind : RayAngle) : kind.tag < 1000 := by
  cases kind <;> decide

end RayAngle

namespace RayFan

/-- Each cluster has four seeds that no other one has, as long as they are below the size of a word. -/
theorem seed_inj {n n' : ℕ} (hn : n < 2 ^ 54) (hn' : n' < 2 ^ 54) {kind kind' : RayAngle} :
    seed n kind.tag = seed n' kind'.tag ↔ n = n' ∧ kind = kind' := by
  have htag := kind.tag_lt
  have htag' := kind'.tag_lt
  have hseed : (seed n kind.tag).toNat = n * 1000 + kind.tag :=
    UInt64.toNat_ofNat_of_lt' (by simp only [UInt64.size]; omega)
  have hseed' : (seed n' kind'.tag).toNat = n' * 1000 + kind'.tag :=
    UInt64.toNat_ofNat_of_lt' (by simp only [UInt64.size]; omega)
  rw [← UInt64.toNat_inj, hseed, hseed', ← RayAngle.tag_inj]
  omega

variable {R : Type} [Scalar R]

theorem length_list_spread {table : ParameterTable R} (d : Directions R)
    (hrays : table.rays = (rayOffsets : List R).length) (kind : RayAngle) :
    (kind.list (spread table d)).length = 20 := by
  cases kind <;> simp [RayAngle.list, spread, around, hrays, rayOffsets]

/-- The permutation of a cluster's rays for one kind of angles. -/
def order (n : ℕ) (kind : RayAngle) : Equiv.Perm (Fin 20) := Shuffle.order (seed n kind.tag) 20

/-- Rays that are others with the angles of each kind permuted, as it is done for cluster `n`. -/
structure CoupledRays (n : ℕ) (before after : List (Directions R)) : Prop where
  perm : ∀ kind : RayAngle, (after.map kind.of).Perm (before.map kind.of)
  permuted : ∀ kind : RayAngle, ∃ angles : Fin 20 → R, before.map kind.of = List.ofFn angles ∧
    after.map kind.of = List.ofFn (angles ∘ order n kind)

theorem coupledRays_couple {table : ParameterTable R} (d : Directions R) (n : ℕ)
    (hrays : table.rays = (rayOffsets : List R).length) :
    CoupledRays n (spread table d).rays ((spread table d).couple n).rays := by
  have hlength := length_list_spread d hrays
  have hcoupled : ∀ kind : RayAngle, (kind.list ((spread table d).couple n)).length = 20 := by
    intro kind
    rw [RayAngle.list_couple, length_shuffle, hlength]
  have hbefore := RayAngle.map_rays hlength
  have hafter : ∀ kind : RayAngle, ((spread table d).couple n).rays.map kind.of =
      shuffle (seed n kind.tag) (kind.list (spread table d)) := by
    intro kind
    rw [RayAngle.map_rays hcoupled, RayAngle.list_couple]
  constructor
  · intro kind
    rw [hbefore, hafter]
    exact shuffle_perm _ _
  · intro kind
    obtain ⟨angles, hangles⟩ := exists_ofFn (hlength kind)
    refine ⟨angles, (hbefore kind).trans hangles, ?_⟩
    rw [hafter, hangles, shuffle_ofFn, order]

end RayFan

/-! ## Rays of a realization -/

variable {R : Type} [Scalar R]

/-- What cluster `n` of a realization is made of: rays around its direction before they are coupled, and
those after, which have the phases and the power of the realization. -/
structure RayCluster.MadeOf (c : RealizationContext R) (m : Realization R)
    (clusters : List (RayCluster R)) (n : ℕ) (before after : List (Directions R)) : Prop where
  around : ∃ d, m.directions[n]? = some (Directions.wrap d) ∧
    before = (RayFan.spread c.table d).rays
  cluster : ∃ phases power, m.phases[n]? = some phases ∧ m.powers[n]? = some power ∧
    clusters[n]? = some (.ofRays (after.zipWith (Ray.ofDirections c.rx c.tx) phases) c.table.rays power
      ((splitClusters m.powers).contains n))

theorem Drawn.coupled {c : RealizationContext R} {m : Realization R} {scale : LargeScale R}
    {profile : Profile R} {unwrapped : List (Directions R)} {losses : List R}
    (h : Drawn c m scale profile unwrapped losses)
    (hrays : c.table.rays = (rayOffsets : List R).length) {n : ℕ} (hn : n < m.keptClusters) :
    ∃ before after,
      RayCluster.MadeOf c m (c.rayClusters unwrapped m.phases m.powers) n before after ∧
      RayFan.CoupledRays n before after := by
  obtain ⟨wrapped, hdirection, hwrapped⟩ := h.getElem?_wrapped hn
  rw [List.getElem?_map, Option.map_eq_some_iff] at hwrapped
  obtain ⟨d, hd, rfl⟩ := hwrapped
  have hphases : n < m.phases.length := by rwa [h.length_phases]
  have hrow := List.getElem?_eq_getElem hphases
  have hpower := List.getElem?_eq_getElem hn
  refine ⟨_, ((RayFan.spread c.table d).couple n).rays, ⟨⟨d, hdirection, rfl⟩, ?_⟩,
    RayFan.coupledRays_couple d n hrays⟩
  exact ⟨_, _, hrow, hpower, c.getElem?_rayClusters hd hrow hpower⟩

open Shuffle in
/-- Rays are coupled without a look at their angles. Whatever is shuffled, the procedure that picks places
and swaps what is there, however many tries it takes, permutes all lists of one length by one permutation;
what it comes to is the shuffled list. No place that is picked lies beyond the list, the list that comes out
is a permutation, and it does not matter whether a function is applied before or after. So each cluster of a
realization is made of the rays around its direction with the angles of each kind permuted, by a permutation
that is told by the place of the cluster and the kind alone; and no two of these are made of one seed. -/
theorem coupling_value_blind :
    (∀ (seed : UInt64) (n : ℕ), ∃ permutation : Equiv.Perm (Fin n),
      ∀ {α : Type} (tries : ℕ) (values : Fin n → α) (shuffled : Array α),
        Run (Keystream.word (Keystream.keyOfSeed seed)) tries (n - 1) 0 (Array.ofFn values) shuffled →
        shuffled = Array.ofFn (values ∘ permutation) ∧
          (tries ≤ maxTries → shuffle seed (List.ofFn values) = shuffled.toList)) ∧
    (∀ (seed : UInt64) {α β : Type} (f : α → β) (xs : List α),
      (∀ s ∈ swaps seed xs.length, s.2 ≤ s.1 ∧ s.1 < xs.length) ∧ (shuffle seed xs).Perm xs ∧
        shuffle seed (xs.map f) = (shuffle seed xs).map f) ∧
    (∀ {R : Type} [Scalar R] (scenario : Scenario) (link : LinkState R) (c : RealizationContext R)
      (m : Realization R) (source source' : RandomSource R),
      ParameterTable.lookup scenario link = .ok c.table → c.draw.run source = (.ok m, source') →
      m.keptClusters ≤ 20 ∧ ∃ scale clusters loss,
        m.tensor = c.tensor scale clusters m.directPhase loss ∧ clusters.length = m.keptClusters ∧
        ∀ n < m.keptClusters, ∃ before after, RayCluster.MadeOf c m clusters n before after ∧
          RayFan.CoupledRays n before after) ∧
    ∀ n < 20, ∀ n' < 20, ∀ kind kind' : RayAngle,
      RayFan.seed n kind.tag = RayFan.seed n' kind'.tag ↔ n = n' ∧ kind = kind' := by
  refine ⟨?_, ?_, ?_, ?_⟩
  · intro seed n
    obtain ⟨permutation, hpermutation⟩ :=
      exists_permutation (Keystream.word (Keystream.keyOfSeed seed)) n (n - 1) 0
    refine ⟨permutation, fun tries values shuffled hrun => ?_⟩
    exact ⟨hpermutation tries values shuffled hrun, fun htries => shuffle_eq_of_run hrun htries⟩
  · intro seed α β f xs
    exact ⟨swaps_mem seed xs.length, shuffle_perm seed xs, shuffle_map seed f xs⟩
  · intro R _ scenario link c m source source' hlookup hdraw
    obtain ⟨scale, profile, unwrapped, losses, hdrawn⟩ := RealizationContext.drawn_of_draw hdraw
    have hsupports := ParameterTable.supports_of_lookup hlookup
    have hclusters : c.table.clusters ≤ 20 := by
      have hmem := hsupports.clusters
      simp only [List.mem_cons, List.not_mem_nil, or_false] at hmem
      omega
    have hlength : (c.rayClusters unwrapped m.phases m.powers).length = m.keptClusters :=
      c.length_rayClusters (hdrawn.length_unwrapped.trans hdrawn.length_powers.symm)
        hdrawn.length_phases
    exact ⟨hdrawn.keptClusters_le.trans hclusters, scale, _, _, hdrawn.tensor_eq, hlength,
      fun n hn => hdrawn.coupled hsupports.rays hn⟩
  · intro n hn n' hn' kind kind'
    exact RayFan.seed_inj (hn.trans (by norm_num)) (hn'.trans (by norm_num))

open Shuffle in
/-- Two values are shuffled by a seed with which the first try is enough; and the rays of all clusters
between a mast in the country and a car are coupled. -/
theorem coupling_value_blind_country :
    (∃ shuffled, Run (Keystream.word (Keystream.keyOfSeed 1100)) 1 1 0 #[false, true] shuffled ∧
      shuffle 1100 [false, true] = shuffled.toList) ∧
    ∃ m source, RealizationContext.country.draw.run (.ofSeed 1) = (.ok m, source) ∧
      0 < m.keptClusters ∧ ∀ n < m.keptClusters, ∃ before after, RayFan.CoupledRays n before after ∧
        ∃ d : Directions ℝ, m.directions[n]? = some d.wrap ∧
          before = (RayFan.spread RealizationContext.country.table d).rays := by
  obtain ⟨hruns, -, hrealizations, -⟩ := coupling_value_blind
  constructor
  · have hfirst : Accepts (Keystream.word (Keystream.keyOfSeed 1100)) 2 0 := by decide +kernel
    have hrun : Run (Keystream.word (Keystream.keyOfSeed 1100)) 1 1 0 #[false, true] _ :=
      .swap (.accept hfirst) .finish
    obtain ⟨permutation, hpermutation⟩ := hruns 1100 2
    exact ⟨_, hrun, (hpermutation 1 ![false, true] _ hrun).2 (by decide)⟩
  · obtain ⟨m, source, hdraw⟩ := RealizationContext.exists_draw (c := RealizationContext.country)
      (ParameterTable.supports_ruralMacro true 40) (.ofSeed 1)
    obtain ⟨scale, profile, unwrapped, losses, hdrawn⟩ := RealizationContext.drawn_of_draw hdraw
    obtain ⟨-, -, clusters, -, -, -, hcoupled⟩ := hrealizations .ruralMacro
      ⟨true, false, 25, 1, 40, 28000000000⟩ RealizationContext.country m _ _ rfl hdraw
    refine ⟨m, source, hdraw, List.length_pos_iff.mpr hdrawn.powers_ne_nil, fun n hn => ?_⟩
    obtain ⟨before, after, hmade, hrays⟩ := hcoupled n hn
    exact ⟨before, after, hrays, hmade.around⟩

end RadioChannel
