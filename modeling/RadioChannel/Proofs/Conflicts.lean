import RadioChannel.Beamforming.Conflict
import RadioChannel.Proofs.Comparisons
import RadioChannel.Proofs.StrongestBeams

/-!
# Conflicts resolved

Peers are served in order, each by the beam it selected unless an earlier peer ended up with it, and
then by its strongest pair among those with a free beam. What a peer gets depends on what the earlier
ones got, not on what they asked for: one that moves may take the beam that a later one selected. There
is one such list of pairs at most, and resolving finds it unless some peer is left without a free beam.
-/

namespace RadioChannel

open Scalar

namespace Codebook

variable {R : Type} {g : Matrix R} {gs : List (Matrix R)} {claimed claimed' : List Nat}
variable {p q pair result : BeamPair} {pairs results : List BeamPair}

/-- One pair of beams comes before another in the order of rows. -/
def BeamPair.Precedes (p q : BeamPair) : Prop := p.rx < q.rx ∨ p.rx = q.rx ∧ p.tx < q.tx

theorem BeamPair.Precedes.not_swap (h : p.Precedes q) : ¬q.Precedes p := by
  unfold BeamPair.Precedes at h ⊢
  omega

theorem precedes_or_precedes (h : p ≠ q) : p.Precedes q ∨ q.Precedes p := by
  have hne : ¬(p.tx = q.tx ∧ p.rx = q.rx) := fun heq => h (BeamPair.mk.injEq .. ▸ heq)
  unfold BeamPair.Precedes
  omega

variable [Scalar R]

/-- A channel all powers of which are comparable. -/
def Comparable (g : Matrix R) : Prop := ∀ row ∈ g, ∀ z ∈ row, (z.normSq == z.normSq) = true

theorem Comparable.entry {z : Phasor R} (hg : Comparable g) (hz : entry? g pair = some z) :
    (z.normSq == z.normSq) = true := by
  obtain ⟨row, hrow, hentry⟩ := Option.bind_eq_some_iff.mp hz
  exact hg row (List.mem_of_getElem? hrow) z (List.mem_of_getElem? hentry)

/-- The pair that a peer falls back to: the strongest of those whose transmitting beam is free, and the
first of them in the order of rows. -/
structure IsFallback (g : Matrix R) (claimed : List Nat) (pair : BeamPair) : Prop where
  free : pair.tx ∉ claimed
  strongest : ∃ z, entry? g pair = some z ∧ ∀ other w, other.tx ∉ claimed →
    entry? g other = some w → le w.normSq z.normSq = true ∧
      (other.Precedes pair → lt w.normSq z.normSq = true)

/-- What a peer gets after some beams were claimed. -/
inductive Settles (claimed : List Nat) (g : Matrix R) (pair : BeamPair) : BeamPair → Prop
  | keeps (hfree : pair.tx ∉ claimed) : Settles claimed g pair pair
  | moves {other : BeamPair} (htaken : pair.tx ∈ claimed) (hother : IsFallback g claimed other) :
    Settles claimed g pair other

/-- A peer that has lost its beam and finds no free one. -/
structure Stuck (claimed : List Nat) (g : Matrix R) (pair : BeamPair) : Prop where
  taken : pair.tx ∈ claimed
  none_free : ∀ other z, entry? g other = some z → other.tx ∈ claimed

/-- Pairs that settle every peer after the beams that were claimed and those that the earlier ones
got. -/
structure IsResolution (claimed : List Nat) (pairs : List BeamPair) (gs : List (Matrix R))
    (results : List BeamPair) : Prop where
  length : results.length = pairs.length
  settles : ∀ i pair g result, pairs[i]? = some pair → gs[i]? = some g → results[i]? = some result →
    Settles (claimed ++ (results.take i).map BeamPair.tx) g pair result

/-- Pairs that settle the peers before one that is stuck, and leave it and the later ones as they
were. -/
structure StopsAt (i : Nat) (claimed : List Nat) (pairs : List BeamPair) (gs : List (Matrix R))
    (results : List BeamPair) : Prop where
  before : IsResolution claimed (pairs.take i) (gs.take i) (results.take i)
  stuck : ∃ pair g, pairs[i]? = some pair ∧ gs[i]? = some g ∧
    Stuck (claimed ++ (results.take i).map BeamPair.tx) g pair
  after : results.drop i = pairs.drop i

/-! ## The search -/

/-- The first of the strongest pairs in a list, none if all are blocked. -/
def Heads (blocked : List Nat) (xs : List (BeamPair × R)) : Option (BeamPair × R) → Prop
  | none => ∀ x ∈ xs, x.1.tx ∈ blocked
  | some best => best.1.tx ∉ blocked ∧ ∃ before after, xs = before ++ best :: after ∧
    (∀ x ∈ before, x.1.tx ∉ blocked → lt x.2 best.2 = true) ∧
    ∀ x ∈ after, x.1.tx ∉ blocked → lt best.2 x.2 = false

theorem powers_ordered (g : Matrix R) :
    (powers g).Pairwise fun x y => x.1.Precedes y.1 := by
  have hindices : ∀ {α : Type} (xs : List α), xs.zipIdx.Pairwise fun x y => x.2 < y.2 := by
    intro α xs
    rw [← List.pairwise_map (f := Prod.snd) (R := (· < ·)), List.zipIdx_map_snd]
    exact List.pairwise_lt_range'
  unfold powers
  rw [List.pairwise_flatMap]
  refine ⟨fun row _ => ?_, ?_⟩
  · rw [List.pairwise_map]
    exact (hindices row.1).imp fun h => Or.inr ⟨rfl, h⟩
  · refine (hindices g).imp fun hlt x hx y hy => ?_
    obtain ⟨_, -, rfl⟩ := List.mem_map.mp hx
    obtain ⟨_, -, rfl⟩ := List.mem_map.mp hy
    exact Or.inl hlt

theorem comparable_powers (hg : Comparable g) : ∀ x ∈ powers g, (x.2 == x.2) = true := by
  rintro ⟨other, power⟩ hx
  obtain ⟨z, hz, rfl⟩ := mem_powers.mp hx
  exact hg.entry hz

section Order

variable [Scalar.OrderLaws R]

theorem lt_self (x : R) : lt x x = false := by
  by_contra h
  rw [Bool.not_eq_false] at h
  rw [OrderLaws.lt_asymm x x h] at h
  cases h

variable {blocked : List Nat} {xs : List (BeamPair × R)} {best : Option (BeamPair × R)}

/-- A step of the search keeps the first of the strongest pairs. -/
theorem Heads.better (h : Heads blocked xs best) (hxs : ∀ x ∈ xs, (x.2 == x.2) = true)
    (x : BeamPair × R) : Heads blocked (xs ++ [x]) (better blocked best x.1 x.2) := by
  unfold Codebook.better
  by_cases hx : x.1.tx ∈ blocked
  · rw [if_pos (List.contains_iff_mem.mpr hx)]
    cases best with
    | none =>
      intro y hy
      rcases List.mem_append.mp hy with hy | hy
      · exact h y hy
      · rwa [List.mem_singleton.mp hy]
    | some q =>
      obtain ⟨hfree, before, after, rfl, hbefore, hafter⟩ := h
      refine ⟨hfree, before, after ++ [x], by simp, hbefore, fun y hy hy' => ?_⟩
      rcases List.mem_append.mp hy with hy | hy
      · exact hafter y hy hy'
      · exact absurd hx (List.mem_singleton.mp hy ▸ hy')
  rw [if_neg fun hc => hx (List.contains_iff_mem.mp hc)]
  cases best with
  | none => exact ⟨hx, xs, [], rfl, fun y hy hfree => absurd (h y hy) hfree, by simp⟩
  | some q =>
    obtain ⟨hfree, before, after, rfl, hbefore, hafter⟩ := h
    dsimp only
    cases hlt : lt q.2 x.2 with
    | false =>
      refine ⟨hfree, before, after ++ [x], by simp, hbefore, fun y hy hy' => ?_⟩
      rcases List.mem_append.mp hy with hy | hy
      · exact hafter y hy hy'
      · exact List.mem_singleton.mp hy ▸ hlt
    | true =>
      refine ⟨hx, before ++ q :: after, [], rfl, fun y hy hy' => ?_, by simp⟩
      -- none before is stronger than the best one so far, which is weaker than the next
      have hunbeaten : lt q.2 y.2 = false := by
        rcases List.mem_append.mp hy with hy | hy
        · exact OrderLaws.lt_asymm _ _ (hbefore y hy hy')
        · rcases List.mem_cons.mp hy with rfl | hy
          · exact lt_self _
          · exact hafter y hy hy'
      refine (OrderLaws.lt_or_lt _ y.2 _ (hxs y hy) hlt).resolve_left fun h => ?_
      rw [hunbeaten] at h
      cases h

theorem heads_foldl (blocked : List Nat) (hxs : ∀ x ∈ xs, (x.2 == x.2) = true) : Heads blocked xs
    (xs.foldl (fun best (pair, power) => Codebook.better blocked best pair power) none) := by
  induction xs using List.reverseRecOn with
  | nil => exact fun x hx => absurd hx List.not_mem_nil
  | append_singleton xs x ih =>
    rw [List.foldl_append]
    have hbefore : ∀ y ∈ xs, (y.2 == y.2) = true := fun y hy => hxs y (List.mem_append_left _ hy)
    exact (ih hbefore).better hbefore x

theorem isFallback_of_strongest (hg : Comparable g) (h : strongest g claimed = some pair) :
    IsFallback g claimed pair := by
  have hheads := heads_foldl claimed (comparable_powers hg)
  obtain ⟨⟨pair, power⟩, hbest, rfl⟩ := Option.map_eq_some_iff.mp h
  rw [hbest] at hheads
  obtain ⟨hfree, before, after, hsplit, hbefore, hafter⟩ := hheads
  have hordered := powers_ordered g
  rw [hsplit, List.pairwise_append, List.pairwise_cons] at hordered
  have hlisted : (pair, power) ∈ powers g :=
    hsplit ▸ List.mem_append_right before List.mem_cons_self
  obtain ⟨z, hz, rfl⟩ := mem_powers.mp hlisted
  refine ⟨hfree, z, hz, fun other w hother hw => ?_⟩
  have hmem : (other, w.normSq) ∈ before ++ (pair, z.normSq) :: after :=
    hsplit ▸ mem_powers.mpr ⟨w, hw, rfl⟩
  rw [OrderLaws.le_eq_not_lt _ _ (hg.entry hw) (hg.entry hz), Bool.not_eq_true']
  rcases List.mem_append.mp hmem with hmem | hmem
  · have hlt := hbefore _ hmem hother
    exact ⟨OrderLaws.lt_asymm _ _ hlt, fun _ => hlt⟩
  · rcases List.mem_cons.mp hmem with heq | hmem
    · obtain ⟨rfl, hpower⟩ := Prod.mk.inj heq
      rw [hpower]
      exact ⟨lt_self _, fun hself => absurd hself hself.not_swap⟩
    · exact ⟨hafter _ hmem hother, fun hprecedes =>
        absurd hprecedes (hordered.2.1.1 _ hmem).not_swap⟩

theorem strongest_eq_none (hg : Comparable g) (h : strongest g claimed = none) {z : Phasor R}
    (hz : entry? g pair = some z) : pair.tx ∈ claimed := by
  have hheads := heads_foldl claimed (comparable_powers hg)
  rw [Option.map_eq_none_iff.mp h] at hheads
  exact hheads _ (mem_powers.mpr ⟨z, hz, rfl⟩)

theorem IsFallback.unique (hg : Comparable g) (hp : IsFallback g claimed p)
    (hq : IsFallback g claimed q) : p = q := by
  obtain ⟨z, hz, hpbest⟩ := hp.strongest
  obtain ⟨w, hw, hqbest⟩ := hq.strongest
  have hle := fun {x y : Phasor R} {p q : BeamPair} (hx : entry? g p = some x)
    (hy : entry? g q = some y) => OrderLaws.le_eq_not_lt _ _ (hg.entry hx) (hg.entry hy)
  by_contra hne
  rcases precedes_or_precedes hne with hbefore | hbefore
  · have hnot := (hpbest q w hq.free hw).1
    rw [hle hw hz, (hqbest p z hp.free hz).2 hbefore] at hnot
    cases hnot
  · have hnot := (hqbest p z hp.free hz).1
    rw [hle hz hw, (hpbest q w hq.free hw).2 hbefore] at hnot
    cases hnot

end Order

/-! ## One peer -/

theorem Settles.congr (hperm : claimed.Perm claimed') (h : Settles claimed g pair result) :
    Settles claimed' g pair result := by
  cases h with
  | keeps hfree => exact .keeps fun hmem => hfree (hperm.mem_iff.mpr hmem)
  | moves htaken hother =>
    obtain ⟨hfree, z, hz, hbest⟩ := hother
    exact .moves (hperm.mem_iff.mp htaken) ⟨fun hmem => hfree (hperm.mem_iff.mpr hmem), z, hz,
      fun other w hother => hbest other w fun hmem => hother (hperm.mem_iff.mp hmem)⟩

omit [Scalar R] in
theorem Stuck.congr (hperm : claimed.Perm claimed') (h : Stuck claimed g pair) :
    Stuck claimed' g pair :=
  ⟨hperm.mem_iff.mp h.taken, fun other z hz => hperm.mem_iff.mp (h.none_free other z hz)⟩

theorem Settles.free (h : Settles claimed g pair result) : result.tx ∉ claimed := by
  cases h with
  | keeps hfree => exact hfree
  | moves _ hother => exact hother.free

theorem Stuck.not_settles (h : Stuck claimed g pair) : ¬Settles claimed g pair result := by
  intro hsettles
  cases hsettles with
  | keeps hfree => exact hfree h.taken
  | moves _ hother =>
    obtain ⟨hfree, z, hz, -⟩ := hother
    exact hfree (h.none_free _ z hz)

theorem Settles.unique [Scalar.OrderLaws R] {result' : BeamPair} (hg : Comparable g)
    (h : Settles claimed g pair result) (h' : Settles claimed g pair result') :
    result = result' := by
  cases h with
  | keeps hfree =>
    cases h' with
    | keeps _ => rfl
    | moves htaken _ => exact absurd htaken hfree
  | moves htaken hother =>
    cases h' with
    | keeps hfree => exact absurd htaken hfree
    | moves _ hother' => exact hother.unique hg hother'

/-- The first peer gets its pair and the others are resolved after it, or it is stuck and nothing
changes. -/
theorem resolveFrom_cons [Scalar.OrderLaws R] (hg : Comparable g) (claimed : List Nat)
    (pair : BeamPair) (pairs : List BeamPair) (gs : List (Matrix R)) :
    (∃ result, Settles claimed g pair result ∧
      resolveFrom claimed (pair :: pairs) (g :: gs) =
        ((resolveFrom (result.tx :: claimed) pairs gs).1,
          result :: (resolveFrom (result.tx :: claimed) pairs gs).2)) ∨
    Stuck claimed g pair ∧
      resolveFrom claimed (pair :: pairs) (g :: gs) = (.error .noAvailableBeam, pair :: pairs) := by
  rw [resolveFrom]
  by_cases htaken : pair.tx ∈ claimed
  · rw [if_pos (List.contains_iff_mem.mpr htaken)]
    cases hother : strongest g claimed with
    | none => exact Or.inr ⟨⟨htaken, fun _ _ hz => strongest_eq_none hg hother hz⟩, rfl⟩
    | some other => exact Or.inl ⟨other, .moves htaken (isFallback_of_strongest hg hother), rfl⟩
  · rw [if_neg fun hc => htaken (List.contains_iff_mem.mp hc)]
    exact Or.inl ⟨pair, .keeps htaken, rfl⟩

/-! ## All peers -/

theorem isResolution_cons : IsResolution claimed (pair :: pairs) (g :: gs) (result :: results) ↔
    Settles claimed g pair result ∧ IsResolution (result.tx :: claimed) pairs gs results := by
  constructor
  · rintro ⟨hlength, hsettles⟩
    refine ⟨by simpa using hsettles 0 pair g result rfl rfl rfl, Nat.succ.inj hlength, ?_⟩
    intro i pair' g' result' hpair hg hresult
    exact (hsettles (i + 1) pair' g' result' hpair hg hresult).congr List.perm_middle
  · rintro ⟨hfirst, hlength, hsettles⟩
    refine ⟨congrArg Nat.succ hlength, fun i pair' g' result' hpair hg hresult => ?_⟩
    cases i with
    | zero =>
      obtain rfl := Option.some.inj hpair
      obtain rfl := Option.some.inj hg
      obtain rfl := Option.some.inj hresult
      simpa using hfirst
    | succ i => exact (hsettles i pair' g' result' hpair hg hresult).congr List.perm_middle.symm

theorem stopsAt_zero : StopsAt 0 claimed (pair :: pairs) (g :: gs) results ↔
    Stuck claimed g pair ∧ results = pair :: pairs := by
  constructor
  · rintro ⟨-, ⟨_, _, hpair, hg, hstuck⟩, hafter⟩
    obtain rfl := Option.some.inj hpair
    obtain rfl := Option.some.inj hg
    exact ⟨by simpa using hstuck, hafter⟩
  · rintro ⟨hstuck, rfl⟩
    exact ⟨⟨rfl, by simp⟩, ⟨pair, g, rfl, rfl, by simpa using hstuck⟩, rfl⟩

theorem stopsAt_succ {i : Nat} :
    StopsAt (i + 1) claimed (pair :: pairs) (g :: gs) (result :: results) ↔
      Settles claimed g pair result ∧ StopsAt i (result.tx :: claimed) pairs gs results := by
  constructor
  · rintro ⟨hbefore, ⟨pair', g', hpair, hg, hstuck⟩, hafter⟩
    obtain ⟨hfirst, hbefore⟩ := isResolution_cons.mp hbefore
    exact ⟨hfirst, hbefore, ⟨pair', g', hpair, hg, hstuck.congr List.perm_middle⟩, hafter⟩
  · rintro ⟨hfirst, hbefore, ⟨pair', g', hpair, hg, hstuck⟩, hafter⟩
    exact ⟨isResolution_cons.mpr ⟨hfirst, hbefore⟩,
      ⟨pair', g', hpair, hg, hstuck.congr List.perm_middle.symm⟩, hafter⟩

theorem StopsAt.lt {i : Nat} (h : StopsAt i claimed pairs gs results) : i < pairs.length := by
  obtain ⟨pair, -, hpair, -⟩ := h.stuck
  exact (List.getElem?_eq_some_iff.mp hpair).1

theorem StopsAt.length {i : Nat} (h : StopsAt i claimed pairs gs results) :
    results.length = pairs.length := by
  have hbefore := h.before.length
  have hafter := congrArg List.length h.after
  rw [List.length_take, List.length_take] at hbefore
  rw [List.length_drop, List.length_drop] at hafter
  omega

/-- What resolving ends with: a resolution, or one up to the peer that it stopped at. -/
def EndsWith (claimed : List Nat) (pairs : List BeamPair) (gs : List (Matrix R))
    (results : List BeamPair) : Except (Fault R) Unit → Prop
  | .ok () => IsResolution claimed pairs gs results
  | .error e => e = .noAvailableBeam ∧ ∃ i, StopsAt i claimed pairs gs results

variable {outcome : Except (Fault R) Unit}

theorem EndsWith.length (h : EndsWith claimed pairs gs results outcome) :
    results.length = pairs.length := by
  cases outcome with
  | ok => exact IsResolution.length h
  | error e =>
    obtain ⟨-, i, hstops⟩ := h
    exact hstops.length

theorem endsWith_nil : EndsWith claimed [] [] results outcome ↔ outcome = .ok () ∧ results = [] := by
  constructor
  · intro h
    cases outcome with
    | ok => exact ⟨rfl, List.length_eq_zero_iff.mp h.length⟩
    | error e =>
      obtain ⟨-, i, hstops⟩ := h
      exact absurd hstops.lt (Nat.not_lt_zero i)
  · rintro ⟨rfl, rfl⟩
    exact ⟨rfl, by simp⟩

theorem endsWith_cons : EndsWith claimed (pair :: pairs) (g :: gs) results outcome ↔
    (∃ result rest, results = result :: rest ∧ Settles claimed g pair result ∧
      EndsWith (result.tx :: claimed) pairs gs rest outcome) ∨
    Stuck claimed g pair ∧ results = pair :: pairs ∧ outcome = .error .noAvailableBeam := by
  constructor
  · intro h
    obtain ⟨result, rest, rfl⟩ := List.exists_cons_of_length_eq_add_one h.length
    cases outcome with
    | ok => exact Or.inl ⟨result, rest, rfl, isResolution_cons.mp h⟩
    | error e =>
      obtain ⟨rfl, i, hstops⟩ := h
      cases i with
      | zero =>
        obtain ⟨hstuck, hresults⟩ := stopsAt_zero.mp hstops
        exact Or.inr ⟨hstuck, hresults, rfl⟩
      | succ i =>
        obtain ⟨hfirst, hrest⟩ := stopsAt_succ.mp hstops
        exact Or.inl ⟨result, rest, rfl, hfirst, rfl, i, hrest⟩
  · rintro (⟨result, rest, rfl, hfirst, hrest⟩ | ⟨hstuck, rfl, rfl⟩)
    · cases outcome with
      | ok => exact isResolution_cons.mpr ⟨hfirst, hrest⟩
      | error e =>
        obtain ⟨he, i, hstops⟩ := hrest
        exact ⟨he, i + 1, stopsAt_succ.mpr ⟨hfirst, hstops⟩⟩
    · exact ⟨rfl, 0, stopsAt_zero.mpr ⟨hstuck, rfl⟩⟩

/-- A run of resolving is determined by what it ends with. -/
theorem resolveFrom_iff [Scalar.OrderLaws R] (hlength : gs.length = pairs.length)
    (hgs : ∀ g ∈ gs, Comparable g) :
    resolveFrom claimed pairs gs = (outcome, results) ↔
      EndsWith claimed pairs gs results outcome := by
  induction pairs generalizing claimed gs results with
  | nil =>
    obtain rfl := List.length_eq_zero_iff.mp hlength
    rw [endsWith_nil, resolveFrom, Prod.mk.injEq, eq_comm, @eq_comm _ results]
    exact nofun
  | cons pair pairs ih =>
    obtain ⟨g, gs, rfl⟩ := List.exists_cons_of_length_eq_add_one hlength
    obtain ⟨hg, hgs⟩ := List.forall_mem_cons.mp hgs
    have hrest : ∀ claimed results, resolveFrom claimed pairs gs = (outcome, results) ↔
        EndsWith claimed pairs gs results outcome := fun _ _ => ih (Nat.succ.inj hlength) hgs
    rw [endsWith_cons]
    rcases resolveFrom_cons hg claimed pair pairs gs with ⟨result, hfirst, hrun⟩ | ⟨hstuck, hrun⟩
    · rw [hrun, Prod.mk.injEq]
      constructor
      · rintro ⟨houtcome, rfl⟩
        exact Or.inl ⟨result, _, rfl, hfirst, (hrest _ _).mp (Prod.ext houtcome rfl)⟩
      · rintro (⟨result', rest, rfl, hfirst', hends⟩ | ⟨hstuck, -⟩)
        · obtain rfl := hfirst.unique hg hfirst'
          rw [(hrest _ _).mpr hends]
          exact ⟨rfl, rfl⟩
        · exact absurd hfirst hstuck.not_settles
    · rw [hrun, Prod.mk.injEq]
      constructor
      · rintro ⟨rfl, rfl⟩
        exact Or.inr ⟨hstuck, rfl, rfl⟩
      · rintro (⟨result, rest, -, hfirst, -⟩ | ⟨-, rfl, rfl⟩)
        · exact absurd hfirst hstuck.not_settles
        · exact ⟨rfl, rfl⟩

/-- Peers that are settled have distinct transmitting beams. -/
theorem IsResolution.nodup (hlength : gs.length = pairs.length)
    (h : IsResolution claimed pairs gs results) : (results.map BeamPair.tx).Nodup := by
  rw [List.Nodup, List.pairwise_map, List.pairwise_iff_getElem]
  intro i j hi hj hij heq
  have hpairs : j < pairs.length := h.length ▸ hj
  have hgs : j < gs.length := hlength ▸ hpairs
  have hfree := (h.settles j _ _ _ (List.getElem?_eq_getElem hpairs) (List.getElem?_eq_getElem hgs)
    (List.getElem?_eq_getElem hj)).free
  refine hfree (List.mem_append_right _ (heq ▸ List.mem_map_of_mem ?_))
  exact List.mem_take_iff_getElem.mpr ⟨i, by omega, rfl⟩

omit [Scalar R] in
/-- A peer is stuck only where all its columns were claimed. -/
theorem Stuck.columns_le (h : Stuck claimed g pair) : Matrix.columns g ≤ claimed.length := by
  have hclaimed : List.range (Matrix.columns g) ⊆ claimed := by
    intro t ht
    cases g with
    | nil => exact absurd (List.mem_range.mp ht) (Nat.not_lt_zero t)
    | cons row g =>
      have hlt : t < row.length := List.mem_range.mp ht
      exact h.none_free ⟨t, 0⟩ row[t] (List.getElem?_eq_getElem hlt)
  simpa using (List.nodup_range.subperm hclaimed).length_le

/-- Where every channel has as many columns as there are peers, no peer is left without a beam. -/
theorem not_stopsAt {i : Nat} (hgs : ∀ g ∈ gs, pairs.length ≤ Matrix.columns g) :
    ¬StopsAt i [] pairs gs results := by
  intro h
  obtain ⟨pair, g, -, hg, hstuck⟩ := h.stuck
  have hcolumns := hstuck.columns_le
  rw [List.nil_append, List.length_map, List.length_take] at hcolumns
  have hpeers := hgs g (List.mem_of_getElem? hg)
  have hi := h.lt
  omega

/-- Resolving the conflicts of a bundle is greedy. It succeeds with the one list of pairs that settles
every peer after the earlier ones, on distinct beams. It fails exactly where some peer is left without
a free beam, with the earlier ones settled and the others as they were. That cannot happen where every
channel has a column for each peer. -/
theorem resolveConflicts_greedy [Scalar.OrderLaws R] (hlength : gs.length = pairs.length)
    (hgs : ∀ g ∈ gs, Comparable g) :
    (∀ results, resolveConflicts pairs gs = (.ok (), results) ↔ IsResolution [] pairs gs results) ∧
      (∀ results, resolveConflicts pairs gs = (.ok (), results) →
        (results.map BeamPair.tx).Nodup) ∧
      (∀ e results, resolveConflicts pairs gs = (.error e, results) ↔
        e = .noAvailableBeam ∧ ∃ i, StopsAt i [] pairs gs results) ∧
      ((∀ g ∈ gs, pairs.length ≤ Matrix.columns g) →
        ∃ results, resolveConflicts pairs gs = (.ok (), results)) := by
  have hok : ∀ results, resolveConflicts pairs gs = (.ok (), results) ↔
      IsResolution [] pairs gs results := fun _ => resolveFrom_iff hlength hgs
  have herror : ∀ e results, resolveConflicts pairs gs = (.error e, results) ↔
      e = .noAvailableBeam ∧ ∃ i, StopsAt i [] pairs gs results := fun _ _ =>
    resolveFrom_iff hlength hgs
  refine ⟨hok, fun results h => ((hok results).mp h).nodup hlength, herror, fun hcolumns => ?_⟩
  rcases hrun : resolveConflicts pairs gs with ⟨e | ⟨⟩, results⟩
  · obtain ⟨-, i, hstops⟩ := (herror e results).mp hrun
    exact absurd hstops (not_stopsAt hcolumns)
  · exact ⟨results, rfl⟩

/-- The channels of three peers. At the second one the strongest beam but the first is the second, and
at the third one it is the third, at the second receiving beam. -/
def contested : List (Matrix Float) :=
  [[[⟨1, 0⟩, ⟨0, 0⟩, ⟨0, 0⟩]], [[⟨3, 0⟩, ⟨0, 2⟩, ⟨1, 0⟩]],
    [[⟨1, 0⟩, ⟨5, 0⟩, ⟨1, 0⟩], [⟨1, 0⟩, ⟨1, 0⟩, ⟨1, 1⟩]]]

/-- A peer that loses its beam takes the one that the next peer selected; of two peers with one beam,
the second is stuck. -/
theorem resolveConflicts_greedy_cascade :
    resolveConflicts [⟨0, 0⟩, ⟨0, 0⟩, ⟨1, 0⟩] contested = (.ok (), [⟨0, 0⟩, ⟨1, 0⟩, ⟨2, 1⟩]) ∧
      IsResolution [] [⟨0, 0⟩, ⟨0, 0⟩, ⟨1, 0⟩] contested [⟨0, 0⟩, ⟨1, 0⟩, ⟨2, 1⟩] ∧
      ∃ i, StopsAt (R := Float) i [] [⟨0, 0⟩, ⟨0, 0⟩] [[[⟨1, 0⟩]], [[⟨1, 0⟩]]] [⟨0, 0⟩, ⟨0, 0⟩] := by
  have hcomparable : ∀ g ∈ contested, Comparable g := by
    unfold Comparable
    decide
  have hsingle : ∀ g ∈ ([[[⟨1, 0⟩]], [[⟨1, 0⟩]]] : List (Matrix Float)), Comparable g := by
    unfold Comparable
    decide
  have hpeers : contested.length = ([⟨0, 0⟩, ⟨0, 0⟩, ⟨1, 0⟩] : List BeamPair).length := rfl
  have hpair : ([[[⟨1, 0⟩]], [[⟨1, 0⟩]]] : List (Matrix Float)).length =
      ([⟨0, 0⟩, ⟨0, 0⟩] : List BeamPair).length := rfl
  obtain ⟨hok, -⟩ := resolveConflicts_greedy hpeers hcomparable
  obtain ⟨-, -, herror, -⟩ := resolveConflicts_greedy hpair hsingle
  exact ⟨rfl, (hok _).mp rfl, ((herror .noAvailableBeam _).mp rfl).2⟩

end Codebook

end RadioChannel
