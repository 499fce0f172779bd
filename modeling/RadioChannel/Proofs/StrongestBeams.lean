import RadioChannel.Beamforming.Codebook
import RadioChannel.Proofs.Actions

/-!
# The strongest pair of beams

The search over an equivalent channel goes through its entries row by row and keeps the strongest one
so far. Whatever the numbers are, as long as their comparison is transitive and no number is less than
itself, it ends with an entry that none is stronger than, and finds one unless all are blocked.
-/

namespace RadioChannel

open Scalar

namespace Codebook

variable {R : Type}

/-- The entry of an equivalent channel for a pair of beams. -/
def entry? (g : Matrix R) (pair : BeamPair) : Option (Phasor R) :=
  g[pair.rx]?.bind fun row => row[pair.tx]?

theorem entry?_lt {n : ℕ} {g : Matrix R} (hrows : ∀ row ∈ g, row.length = n) {pair : BeamPair}
    {z : Phasor R} (h : entry? g pair = some z) : pair.rx < List.length g ∧ pair.tx < n := by
  obtain ⟨row, hrow, hentry⟩ := Option.bind_eq_some_iff.mp h
  rw [← hrows row (List.mem_of_getElem? hrow)]
  exact ⟨(List.getElem?_eq_some_iff.mp hrow).1, (List.getElem?_eq_some_iff.mp hentry).1⟩

theorem exists_entry? {R : Type} {n r t : ℕ} {g : Matrix R} (hrows : ∀ row ∈ g, row.length = n)
    (hr : r < List.length g) (ht : t < n) : ∃ z, entry? g ⟨t, r⟩ = some z := by
  have hrow : t < g[r].length := (hrows _ (List.getElem_mem hr)).symm ▸ ht
  exact ⟨_, Option.bind_eq_some_iff.mpr
    ⟨g[r], List.getElem?_eq_getElem hr, List.getElem?_eq_getElem hrow⟩⟩

/-- A pair with its ends exchanged. -/
def BeamPair.swap (pair : BeamPair) : BeamPair := ⟨pair.rx, pair.tx⟩

variable [Scalar R]

theorem mem_powers {g : Matrix R} {pair : BeamPair} {power : R} :
    (pair, power) ∈ powers g ↔ ∃ z, entry? g pair = some z ∧ z.normSq = power := by
  unfold powers entry?
  simp only [List.mem_flatMap, List.mem_map, Prod.exists, List.mem_zipIdx_iff_getElem?,
    Prod.mk.injEq, Option.bind_eq_some_iff]
  constructor
  · rintro ⟨row, rx, hrow, z, tx, hz, rfl, hpower⟩
    exact ⟨z, ⟨row, hrow, hz⟩, hpower⟩
  · rintro ⟨z, ⟨row, hrow, hz⟩, hpower⟩
    exact ⟨row, pair.rx, hrow, z, pair.tx, hz, rfl, hpower⟩

/-- A pair of beams whose transmitting beam is not blocked, with an entry that no other such entry is
stronger than. -/
structure IsStrongest (g : Matrix R) (blocked : List Nat) (pair : BeamPair) : Prop where
  free : pair.tx ∉ blocked
  unbeaten : ∃ z, entry? g pair = some z ∧ ∀ other w, other.tx ∉ blocked →
    entry? g other = some w → lt z.normSq w.normSq = false

/-- The best pair of a list so far. -/
structure Leads (blocked : List Nat) (xs : List (BeamPair × R)) (best : Option (BeamPair × R)) :
    Prop where
  listed : ∀ p, best = some p → p ∈ xs ∧ p.1.tx ∉ blocked
  unbeaten : ∀ p ∈ xs, p.1.tx ∉ blocked → ∃ q, best = some q ∧ lt q.2 p.2 = false

variable {blocked : List Nat} {xs : List (BeamPair × R)} {best : Option (BeamPair × R)}
variable {x : BeamPair × R}

/-- The best pair still leads if the next one is blocked or not stronger. -/
theorem Leads.keep (h : Leads blocked xs best)
    (hx : x.1.tx ∉ blocked → ∃ q, best = some q ∧ lt q.2 x.2 = false) :
    Leads blocked (xs ++ [x]) best where
  listed p hp := ⟨List.mem_append_left _ (h.listed p hp).1, (h.listed p hp).2⟩
  unbeaten p hp hfree := by
    rcases List.mem_append.mp hp with hp | hp
    · exact h.unbeaten p hp hfree
    · rw [List.mem_singleton.mp hp] at hfree ⊢
      exact hx hfree

/-- The next pair leads if none of the earlier ones is stronger. -/
theorem leads_next (hself : lt x.2 x.2 = false) (hfree : x.1.tx ∉ blocked)
    (hx : ∀ p ∈ xs, p.1.tx ∉ blocked → lt x.2 p.2 = false) : Leads blocked (xs ++ [x]) (some x) where
  listed p hp := by
    obtain rfl := Option.some.inj hp
    exact ⟨List.mem_append_right _ List.mem_cons_self, hfree⟩
  unbeaten p hp hp' := by
    refine ⟨x, rfl, ?_⟩
    rcases List.mem_append.mp hp with hp | hp
    · exact hx p hp hp'
    · rwa [List.mem_singleton.mp hp]

section Order

variable (hirrefl : ∀ x : R, lt x x = false)
variable (htrans : ∀ x y z : R, lt x y = true → lt y z = true → lt x z = true)

include hirrefl htrans in
/-- A step of the search keeps a pair that leads. -/
theorem Leads.better (h : Leads blocked xs best) (x : BeamPair × R) :
    Leads blocked (xs ++ [x]) (better blocked best x.1 x.2) := by
  unfold Codebook.better
  by_cases hx : x.1.tx ∈ blocked
  · rw [if_pos (List.contains_iff_mem.mpr hx)]
    exact h.keep fun hfree => absurd hx hfree
  rw [if_neg fun hc => hx (List.contains_iff_mem.mp hc)]
  cases hbest : best with
  | none =>
    refine leads_next (hirrefl _) hx fun p hp hfree => ?_
    obtain ⟨q, hq, -⟩ := h.unbeaten p hp hfree
    rw [hbest] at hq
    cases hq
  | some q =>
    dsimp only
    cases hlt : lt q.2 x.2 with
    | false => exact hbest ▸ h.keep fun _ => ⟨q, hbest, hlt⟩
    | true =>
      refine leads_next (hirrefl _) hx fun p hp hfree => ?_
      obtain ⟨q', hq', hp'⟩ := h.unbeaten p hp hfree
      obtain rfl := Option.some.inj (hbest.symm.trans hq')
      -- whatever beats the next pair beats the best one before it
      by_contra hbeaten
      rw [Bool.not_eq_false] at hbeaten
      rw [htrans _ _ _ hlt hbeaten] at hp'
      cases hp'

include hirrefl htrans in
theorem leads_foldl (blocked : List Nat) (xs : List (BeamPair × R)) : Leads blocked xs
    (xs.foldl (fun best (pair, power) => Codebook.better blocked best pair power) none) := by
  induction xs using List.reverseRecOn with
  | nil => exact ⟨by simp, by simp⟩
  | append_singleton xs x ih =>
    rw [List.foldl_append]
    exact ih.better hirrefl htrans x

include hirrefl htrans in
/-- The pair that a search finds is a strongest one. -/
theorem isStrongest_of_strongest {g : Matrix R} {pair : BeamPair}
    (h : strongest g blocked = some pair) : IsStrongest g blocked pair := by
  have hleads := leads_foldl hirrefl htrans blocked (powers g)
  obtain ⟨⟨_, power⟩, hbest, rfl⟩ := Option.map_eq_some_iff.mp h
  obtain ⟨hlisted, hfree⟩ := hleads.listed _ hbest
  obtain ⟨z, hz, rfl⟩ := mem_powers.mp hlisted
  refine ⟨hfree, z, hz, fun other w hother hw => ?_⟩
  obtain ⟨q, hq, hunbeaten⟩ := hleads.unbeaten (other, w.normSq) (mem_powers.mpr ⟨w, hw, rfl⟩) hother
  obtain rfl := Option.some.inj (hbest.symm.trans hq)
  exact hunbeaten

include hirrefl htrans in
/-- A search that finds none was blocked everywhere. -/
theorem blocked_of_strongest {g : Matrix R} (h : strongest g blocked = none) {pair : BeamPair}
    {z : Phasor R} (hz : entry? g pair = some z) : pair.tx ∈ blocked := by
  have hleads := leads_foldl hirrefl htrans blocked (powers g)
  rw [Option.map_eq_none_iff.mp h] at hleads
  by_contra hfree
  obtain ⟨q, hq, -⟩ := hleads.unbeaten (pair, z.normSq) (mem_powers.mpr ⟨z, hz, rfl⟩) hfree
  cases hq

end Order

end Codebook

end RadioChannel
