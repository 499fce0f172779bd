import RadioChannel.Cluster.Profile
import Mathlib.Data.List.Forall2

/-!
# Which clusters are kept

A cluster is dropped when it is weak beside the strongest one. At least one cluster is kept: powers
are formed without any subtraction, so that none is negative, and the strongest one is not weak beside
itself. Only a power that is not comparable, which may arise in floating point when all powers vanish,
would be dropped with all others.
-/

namespace RadioChannel

open Scalar

/-- Numbers with a sign, as binary floating point has one. What is formed from unsigned numbers
without subtraction is unsigned or not comparable, and then counts as unsigned too. -/
class SignedScalar (R : Type) [Scalar R] where
  unsigned : R → Prop
  unsigned_ofNat (n : Nat) : unsigned (Scalar.ofNat n)
  unsigned_exp (x : R) : unsigned (exp x)
  unsigned_pow {x : R} (hx : unsigned x) (y : R) : unsigned (pow x y)
  unsigned_add {x y : R} (hx : unsigned x) (hy : unsigned y) : unsigned (x + y)
  unsigned_mul {x y : R} (hx : unsigned x) (hy : unsigned y) : unsigned (x * y)
  unsigned_div {x y : R} (hx : unsigned x) (hy : unsigned y) : unsigned (x / y)
  zero_self : ((0 : R) == 0) = true
  zero_le {x : R} (hx : unsigned x) (hself : (x == x) = true) : le 0 x = true
  le_trans {x y z : R} (hxy : le x y = true) (hyz : le y z = true) : le x z = true
  fraction_le {x y : R} (hx : lt 0 x = true) (hone : le x 1 = true) (hy : unsigned y)
    (hself : (y == y) = true) : le (x * y) y = true
  threshold_pos : lt 0 (pruneThreshold : R) = true
  threshold_le_one : le (pruneThreshold : R) 1 = true

/-- Many draws in a row give one value each, drawn somewhere along the way. -/
theorem mapM_forall₂ {σ α β : Type} (f : α → StateM σ β) (xs : List α) (s : σ) :
    List.Forall₂ (fun x y => ∃ t, ((f x).run t).1 = y) xs ((xs.mapM f).run s).1 := by
  induction xs generalizing s with
  | nil => exact .nil
  | cons x xs ih =>
    rw [List.mapM_cons]
    exact .cons ⟨s, rfl⟩ (ih _)

@[simp] theorem length_mapM_run {σ α β : Type} (f : α → StateM σ β) (xs : List α) (s : σ) :
    ((xs.mapM f).run s).1.length = xs.length :=
  (mapM_forall₂ f xs s).length_eq.symm

theorem forall_mem_mapM_run {σ α β : Type} {f : α → StateM σ β} {P : β → Prop}
    (h : ∀ x s, P ((f x).run s).1) (xs : List α) (s : σ) : ∀ y ∈ ((xs.mapM f).run s).1, P y := by
  intro y hy
  obtain ⟨i, hi, rfl⟩ := List.mem_iff_getElem.mp hy
  have hi' : i < xs.length := by simpa using hi
  obtain ⟨t, ht⟩ := (List.forall₂_iff_get.mp (mapM_forall₂ f xs s)).2 i hi' hi
  change ((f xs[i]).run t).1 = _ at ht
  rw [List.get_eq_getElem] at ht
  rw [← ht]
  exact h _ t

theorem run_draw_bind {R α β : Type} (x : Draw R α) (f : α → Draw R β) (s : RandomSource R) :
    (x >>= f).run s = (f (x.run s).1).run (x.run s).2 := rfl

theorem run_draw_pure {R α : Type} (a : α) (s : RandomSource R) :
    (pure a : Draw R α).run s = (a, s) := rfl

@[simp] theorem length_times {R α : Type} (n : Nat) (draw : Draw R α) (s : RandomSource R) :
    ((Draw.times n draw).run s).1.length = n := by
  simp [Draw.times]

namespace Profile

variable {R : Type} [Scalar R]

/-! ## Candidates -/

/-- The clusters of a profile before weak ones are dropped. -/
def candidates (table : ParameterTable R) (los : Bool) (scale : LargeScale R) :
    Draw R (List (Tap R)) := do
  let delays ← drawDelays table scale.delaySpread
  let powers ← drawPowers table scale.delaySpread delays
  return assemble los scale.ricean delays powers

theorem draw_eq (table : ParameterTable R) (los : Bool) (scale : LargeScale R) :
    draw table los scale = do
      let all ← candidates table los scale
      return ⟨rescale los scale.riceanDb (prune all), greatest all⟩ := rfl

theorem length_drawDelays (table : ParameterTable R) (spread : R) (s : RandomSource R) :
    ((drawDelays table spread).run s).1.length = table.clusters := by
  rw [drawDelays, run_draw_bind, run_draw_pure, align, List.length_mergeSort, List.length_map,
    length_times]

theorem length_drawPowers (table : ParameterTable R) (spread : R) (delays : List R)
    (s : RandomSource R) : ((drawPowers table spread delays).run s).1.length = delays.length := by
  rw [drawPowers, run_draw_bind, run_draw_pure, normalize, List.length_map, length_mapM_run]

theorem length_blend (ricean : R) (powers : List R) :
    (blend ricean powers).length = powers.length := by
  cases powers <;> simp [blend]

theorem length_candidates (table : ParameterTable R) (los : Bool) (scale : LargeScale R)
    (s : RandomSource R) : ((candidates table los scale).run s).1.length = table.clusters := by
  simp only [candidates, run_draw_bind, run_draw_pure, assemble, List.length_map, List.length_zip]
  cases los <;> simp [length_blend, length_drawPowers, length_drawDelays]

/-- A profile has at most as many clusters as its table. -/
theorem length_taps_le (table : ParameterTable R) (los : Bool) (scale : LargeScale R)
    (s : RandomSource R) : ((draw table los scale).run s).1.taps.length ≤ table.clusters := by
  have hprune := List.length_filter_le
    (fun t => le (pruneThreshold * greatest ((candidates table los scale).run s).1) t.anglePower)
    ((candidates table los scale).run s).1
  rw [length_candidates] at hprune
  rw [draw_eq, run_draw_bind, run_draw_pure]
  cases los with
  | false => exact hprune
  | true =>
    simp only [rescale, if_true, List.length_map]
    exact hprune

theorem greatest_mem (taps : List (Tap R)) :
    greatest taps = 0 ∨ ∃ t ∈ taps, greatest taps = t.anglePower := by
  suffices hfold : ∀ m : R, taps.foldl (fun m t => larger m t.anglePower) m = m ∨
      ∃ t ∈ taps, taps.foldl (fun m t => larger m t.anglePower) m = t.anglePower from hfold 0
  induction taps with
  | nil => exact fun m => Or.inl rfl
  | cons t taps ih =>
    intro m
    rw [List.foldl_cons]
    have hlarger : larger m t.anglePower = m ∨ larger m t.anglePower = t.anglePower := by
      unfold larger
      split
      · exact Or.inr rfl
      · split
        · exact Or.inl rfl
        · exact Or.inr rfl
    rcases ih (larger m t.anglePower) with heq | ⟨u, hu, heq⟩
    · rcases hlarger with hm | ht
      · exact Or.inl (heq.trans hm)
      · exact Or.inr ⟨t, List.mem_cons_self, heq.trans ht⟩
    · exact Or.inr ⟨u, List.mem_cons_of_mem t hu, heq⟩

/-! ## Powers without sign -/

variable [SignedScalar R]

open SignedScalar

theorem unsigned_tenTo (x : R) : unsigned (tenTo x) := unsigned_pow (unsigned_ofNat 10) x

theorem unsigned_sum {xs : List R} (h : ∀ x ∈ xs, unsigned x) : unsigned (Scalar.sum xs) := by
  suffices hfold : ∀ y : R, unsigned y → unsigned (xs.foldl (· + ·) y) from
    hfold 0 (unsigned_ofNat 0)
  induction xs with
  | nil => exact fun y hy => hy
  | cons x xs ih =>
    intro y hy
    rw [List.foldl_cons]
    exact ih (fun z hz => h z (List.mem_cons_of_mem x hz)) _
      (unsigned_add hy (h x List.mem_cons_self))

theorem unsigned_decay (table : ParameterTable R) (spread delay shadow : R) :
    unsigned (decay table spread delay shadow) :=
  unsigned_mul (unsigned_exp _) (unsigned_tenTo _)

theorem unsigned_normalize {powers : List R} (h : ∀ p ∈ powers, unsigned p) :
    ∀ p ∈ normalize powers, unsigned p := by
  intro p hp
  obtain ⟨q, hq, rfl⟩ := List.mem_map.mp hp
  exact unsigned_div (h q hq) (unsigned_sum h)

theorem unsigned_drawPowers (table : ParameterTable R) (spread : R) (delays : List R)
    (s : RandomSource R) : ∀ p ∈ ((drawPowers table spread delays).run s).1, unsigned p := by
  rw [drawPowers, run_draw_bind, run_draw_pure]
  exact unsigned_normalize (forall_mem_mapM_run (fun delay t => unsigned_decay _ _ _ _) delays s)

theorem unsigned_blend {ricean : R} (hricean : unsigned ricean) {powers : List R}
    (h : ∀ p ∈ powers, unsigned p) : ∀ p ∈ blend ricean powers, unsigned p := by
  have htotal : unsigned (1 + ricean) := unsigned_add (unsigned_ofNat 1) hricean
  cases powers with
  | nil => simp [blend]
  | cons first rest =>
    intro p hp
    rw [blend, List.map_cons] at hp
    rcases List.mem_cons.mp hp with rfl | hp
    · exact unsigned_add (unsigned_div (h first List.mem_cons_self) htotal)
        (unsigned_div hricean htotal)
    · obtain ⟨q, hq, rfl⟩ := List.mem_map.mp hp
      exact unsigned_div (h q (List.mem_cons_of_mem first hq)) htotal

theorem unsigned_candidates (table : ParameterTable R) (los : Bool) (scale : LargeScale R)
    (s : RandomSource R) : ∀ t ∈ ((candidates table los scale).run s).1, unsigned t.anglePower := by
  simp only [candidates, run_draw_bind, run_draw_pure, assemble]
  intro t ht
  obtain ⟨⟨delay, power, anglePower⟩, hmem, rfl⟩ := List.mem_map.mp ht
  have hpower := (List.of_mem_zip (List.of_mem_zip hmem).2).2
  have hpowers := unsigned_drawPowers table scale.delaySpread
    ((drawDelays table scale.delaySpread).run s).1 ((drawDelays table scale.delaySpread).run s).2
  cases los with
  | false => exact hpowers _ hpower
  | true => exact unsigned_blend (unsigned_tenTo _) hpowers _ hpower

/-! ## Pruning -/

/-- A cluster is kept where there is any, if all powers are comparable and without sign. -/
theorem prune_ne_nil {taps : List (Tap R)} (hne : taps ≠ [])
    (hunsigned : ∀ t ∈ taps, unsigned t.anglePower)
    (hself : ∀ t ∈ taps, (t.anglePower == t.anglePower) = true) : prune taps ≠ [] := by
  have hkept : ∃ t ∈ taps, le (pruneThreshold * greatest taps) t.anglePower = true := by
    rcases greatest_mem taps with hzero | ⟨t, ht, hgreatest⟩
    · obtain ⟨t, ht⟩ := List.exists_mem_of_ne_nil taps hne
      refine ⟨t, ht, le_trans ?_ (zero_le (hunsigned t ht) (hself t ht))⟩
      rw [hzero]
      exact fraction_le threshold_pos threshold_le_one (unsigned_ofNat 0) zero_self
    · refine ⟨t, ht, ?_⟩
      rw [hgreatest]
      exact fraction_le threshold_pos threshold_le_one (hunsigned t ht) (hself t ht)
  obtain ⟨t, ht, hle⟩ := hkept
  exact List.ne_nil_of_mem (List.mem_filter.mpr ⟨ht, hle⟩)

/-- A profile has a cluster, if all powers of candidates are comparable. -/
theorem taps_draw_ne_nil {table : ParameterTable R} (hclusters : table.clusters ≠ 0) {los : Bool}
    {scale : LargeScale R} {s : RandomSource R}
    (hself : ∀ t ∈ ((candidates table los scale).run s).1,
      (t.anglePower == t.anglePower) = true) :
    ((draw table los scale).run s).1.taps ≠ [] := by
  have hne : ((candidates table los scale).run s).1 ≠ [] := by
    rw [← List.length_pos_iff, length_candidates]
    exact Nat.pos_of_ne_zero hclusters
  have hkept := prune_ne_nil hne (unsigned_candidates table los scale s) hself
  rw [draw_eq, run_draw_bind, run_draw_pure]
  cases los with
  | false => exact hkept
  | true => simpa [rescale] using hkept

end Profile

end RadioChannel
