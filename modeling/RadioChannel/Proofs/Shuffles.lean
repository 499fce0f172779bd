import RadioChannel.Proofs.Actions
import RadioChannel.Random.Shuffle
import Mathlib.Algebra.Group.End
import Mathlib.Data.List.FinRange

/-!
# Shuffles do not look at what they shuffle

A shuffle goes through the places of a list, from the last one to the second. It draws a place not after
the present one, reading words until one is accepted, and swaps what is at the two places. How many words
are read and which places are drawn is told by the words alone. So all lists of one length are permuted
alike.
-/

namespace RadioChannel

namespace Shuffle

/-! ## Drawing places -/

variable {words : ℕ → UInt32} {bound tries position target next : ℕ}

/-- Whether the word at a position gives an index: not if the low half of its product with the bound lies
above the greatest multiple of the bound. -/
def Accepts (words : ℕ → UInt32) (bound position : ℕ) : Prop :=
  (words position).toNat * bound % UInt32.size ≤ bound * 2 ^ (31 - bound.log2) - 1

/-- The index that an accepted word gives: the high half of its product with the bound. -/
def indexAt (words : ℕ → UInt32) (bound position : ℕ) : ℕ :=
  (words position).toNat * bound / UInt32.size

/-- Words are read from a position on until one is accepted, within so many tries; that one gives the
target, and reading goes on behind it. -/
inductive Picks (words : ℕ → UInt32) (bound : ℕ) : ℕ → ℕ → ℕ → ℕ → Prop
  | accept {tries position : ℕ} (h : Accepts words bound position) :
      Picks words bound (tries + 1) position (indexAt words bound position) (position + 1)
  | reject {tries position target next : ℕ} (h : ¬Accepts words bound position)
      (hrest : Picks words bound tries (position + 1) target next) :
      Picks words bound (tries + 1) position target next

instance (words : ℕ → UInt32) (bound position : ℕ) : Decidable (Accepts words bound position) :=
  inferInstanceAs (Decidable (_ ≤ _))

theorem indexBelow_succ (words : ℕ → UInt32) (bound tries position : ℕ) :
    indexBelow words bound (tries + 1) position =
      if Accepts words bound position then (indexAt words bound position, position + 1)
      else indexBelow words bound tries (position + 1) := rfl

theorem Picks.indexBelow_eq (h : Picks words bound tries position target next) :
    indexBelow words bound tries position = (target, next) := by
  induction h with
  | accept h => rw [indexBelow_succ, if_pos h]
  | reject h hrest ih => rw [indexBelow_succ, if_neg h, ih]

/-- Whoever has more tries picks the same. -/
theorem Picks.mono {more : ℕ} (h : Picks words bound tries position target next)
    (hmore : tries ≤ more) : Picks words bound more position target next := by
  induction h generalizing more with
  | accept h =>
    obtain ⟨more, rfl⟩ := Nat.exists_eq_add_of_le' (Nat.one_le_of_lt hmore)
    exact .accept h
  | reject h hrest ih =>
    obtain ⟨more, rfl⟩ := Nat.exists_eq_add_of_le' (Nat.one_le_of_lt hmore)
    exact .reject h (ih (Nat.le_of_succ_le_succ hmore))

theorem indexBelow_lt (words : ℕ → UInt32) (hbound : 0 < bound) (tries position : ℕ) :
    (indexBelow words bound tries position).1 < bound := by
  induction tries generalizing position with
  | zero => exact hbound
  | succ tries ih =>
    rw [indexBelow_succ]
    split
    · -- a word scaled down by its size is less than the bound
      have hword : (words position).toNat * bound < UInt32.size * bound :=
        Nat.mul_lt_mul_of_pos_right (words position).toNat_lt hbound
      exact Nat.div_lt_of_lt_mul hword
    · exact ih (position + 1)

theorem swapsFrom_mem (words : ℕ → UInt32) (place position : ℕ) :
    ∀ s ∈ swapsFrom words place position, s.2 ≤ s.1 ∧ s.1 ≤ place := by
  induction place generalizing position with
  | zero =>
    intro s hs
    cases hs
  | succ place ih =>
    intro s hs
    have htarget := indexBelow_lt words (Nat.succ_pos (place + 1)) maxTries position
    rcases List.mem_cons.mp hs with rfl | hs
    · exact ⟨Nat.le_of_lt_succ htarget, le_rfl⟩
    · obtain ⟨hle, hplace⟩ := ih _ s hs
      exact ⟨hle, Nat.le_succ_of_le hplace⟩

/-- Each place is swapped with one not after it. -/
theorem swaps_mem (seed : UInt64) (n : ℕ) : ∀ s ∈ swaps seed n, s.2 ≤ s.1 ∧ s.1 < n := by
  cases n with
  | zero =>
    intro s hs
    cases hs
  | succ n =>
    intro s hs
    obtain ⟨hle, hplace⟩ := swapsFrom_mem _ n 0 s hs
    exact ⟨hle, Nat.lt_succ_of_le hplace⟩

/-! ## Swapping -/

variable {α β : Type} {n : ℕ}

/-- The permutation that swaps two places, if there are such. -/
def swapAt (n : ℕ) (s : ℕ × ℕ) : Equiv.Perm (Fin n) :=
  if h : s.1 < n ∧ s.2 < n then Equiv.swap ⟨s.1, h.1⟩ ⟨s.2, h.2⟩ else 1

theorem swapIfInBounds_ofFn (values : Fin n → α) (i j : ℕ) :
    (Array.ofFn values).swapIfInBounds i j = Array.ofFn (values ∘ swapAt n (i, j)) := by
  unfold Array.swapIfInBounds swapAt
  by_cases hi : i < n
  · by_cases hj : j < n
    · simp only [Array.size_ofFn, hi, hj, and_self, dite_true]
      refine Array.ext (by simp) fun k hk _ => ?_
      simp only [Array.getElem_swap, Array.getElem_ofFn, Function.comp_apply, Equiv.swap_apply_def,
        Fin.mk.injEq]
      split_ifs <;> rfl
    · simp [hi, hj]
  · simp [hi]

/-- The permutation that is made of `n` values, from a place down to the second one. -/
def orderFrom (words : ℕ → UInt32) (n tries : ℕ) : ℕ → ℕ → Equiv.Perm (Fin n)
  | 0, _ => 1
  | place + 1, position =>
    let pick := indexBelow words (place + 2) tries position
    swapAt n (place + 1, pick.1) * orderFrom words n tries place pick.2

/-- The permutation that a seed makes of `n` values. -/
def order (seed : UInt64) (n : ℕ) : Equiv.Perm (Fin n) :=
  orderFrom (Keystream.word (Keystream.keyOfSeed seed)) n maxTries (n - 1) 0

theorem foldl_swapsFrom (words : ℕ → UInt32) (values : Fin n → α) (place position : ℕ) :
    (swapsFrom words place position).foldl (fun a s => a.swapIfInBounds s.1 s.2)
      (Array.ofFn values) = Array.ofFn (values ∘ orderFrom words n maxTries place position) := by
  induction place generalizing values position with
  | zero => rfl
  | succ place ih =>
    rw [swapsFrom, List.foldl_cons, swapIfInBounds_ofFn, ih]
    rfl

/-- The procedure: at each place down to the second one a place is picked and the values at both are
swapped, before the next one is picked. No pick takes more than so many tries. -/
inductive Run (words : ℕ → UInt32) (tries : ℕ) : ℕ → ℕ → Array α → Array α → Prop
  | finish {position : ℕ} {values : Array α} : Run words tries 0 position values values
  | swap {place position target next : ℕ} {values shuffled : Array α}
      (hpick : Picks words (place + 2) tries position target next)
      (hrest : Run words tries place next (values.swapIfInBounds (place + 1) target) shuffled) :
      Run words tries (place + 1) position values shuffled

theorem Run.mono {more place : ℕ} {values shuffled : Array α}
    (h : Run words tries place position values shuffled) (hmore : tries ≤ more) :
    Run words more place position values shuffled := by
  induction h with
  | finish => exact .finish
  | swap hpick hrest ih => exact .swap (hpick.mono hmore) ih

/-- The procedure permutes the values, and which way does not depend on them. -/
theorem Run.eq_ofFn {place : ℕ} {start shuffled : Array α}
    (h : Run words tries place position start shuffled) {values : Fin n → α}
    (hstart : start = Array.ofFn values) :
    shuffled = Array.ofFn (values ∘ orderFrom words n tries place position) := by
  induction h generalizing values with
  | finish => exact hstart
  | swap hpick hrest ih =>
    subst hstart
    rw [ih (swapIfInBounds_ofFn values _ _), orderFrom, hpick.indexBelow_eq]
    rfl

/-- More tries than a run had make no difference. -/
theorem Run.orderFrom_eq {more place : ℕ} {values shuffled : Array α}
    (h : Run words tries place position values shuffled) (hmore : tries ≤ more) (n : ℕ) :
    orderFrom words n more place position = orderFrom words n tries place position := by
  induction h with
  | finish => rfl
  | swap hpick hrest ih =>
    rw [orderFrom, orderFrom, (hpick.mono hmore).indexBelow_eq, hpick.indexBelow_eq, ih]

/-- There is one permutation for all values and all numbers of tries. -/
theorem exists_permutation (words : ℕ → UInt32) (n place position : ℕ) :
    ∃ permutation : Equiv.Perm (Fin n), ∀ {α : Type} (tries : ℕ) (values : Fin n → α)
      (shuffled : Array α), Run words tries place position (Array.ofFn values) shuffled →
      shuffled = Array.ofFn (values ∘ permutation) := by
  by_cases hends : ∃ (α : Type) (tries : ℕ) (start shuffled : Array α),
      Run words tries place position start shuffled
  · obtain ⟨_, enough, start, ended, hended⟩ := hends
    refine ⟨orderFrom words n enough place position, fun tries values shuffled hrun => ?_⟩
    -- with the tries of both runs either one is made as it was
    have hone := hended.orderFrom_eq (Nat.le_max_left enough tries) n
    have hother := hrun.orderFrom_eq (Nat.le_max_right enough tries) n
    rw [hrun.eq_ofFn rfl, ← hother, hone]
  · exact ⟨1, fun tries values shuffled hrun => absurd ⟨_, tries, _, _, hrun⟩ hends⟩

end Shuffle

open Shuffle

variable {α β : Type} {n : ℕ}

theorem shuffle_ofFn (seed : UInt64) (values : Fin n → α) :
    shuffle seed (List.ofFn values) = List.ofFn (values ∘ order seed n) := by
  rw [shuffle, ← Array.toList_ofFn, Array.toArray_toList, Array.length_toList, Array.size_ofFn, swaps,
    foldl_swapsFrom, Array.toList_ofFn, order]

theorem shuffle_perm (seed : UInt64) (xs : List α) : (shuffle seed xs).Perm xs := by
  obtain ⟨n, values, rfl⟩ : ∃ n, ∃ values : Fin n → α, xs = List.ofFn values :=
    ⟨xs.length, exists_ofFn rfl⟩
  rw [shuffle_ofFn]
  exact (order seed n).ofFn_comp_perm values

theorem shuffle_map (seed : UInt64) (f : α → β) (xs : List α) :
    shuffle seed (xs.map f) = (shuffle seed xs).map f := by
  obtain ⟨n, values, rfl⟩ : ∃ n, ∃ values : Fin n → α, xs = List.ofFn values :=
    ⟨xs.length, exists_ofFn rfl⟩
  rw [List.map_ofFn, shuffle_ofFn, shuffle_ofFn, List.map_ofFn, Function.comp_assoc]

/-- A shuffle is what the procedure comes to, if that does not take more tries than there are. -/
theorem shuffle_eq_of_run {seed : UInt64} {tries : ℕ} {values : Fin n → α} {shuffled : Array α}
    (h : Run (Keystream.word (Keystream.keyOfSeed seed)) tries (n - 1) 0 (Array.ofFn values) shuffled)
    (htries : tries ≤ maxTries) : shuffle seed (List.ofFn values) = shuffled.toList := by
  have hshuffled := (h.mono htries).eq_ofFn rfl
  rw [hshuffled, shuffle_ofFn, Array.toList_ofFn, order]

end RadioChannel
