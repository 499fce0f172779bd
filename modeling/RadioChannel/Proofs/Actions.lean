import RadioChannel.Action
import Mathlib.Tactic

/-!
# Runs of actions

A run of a sequence is taken apart into the runs of its steps: an answer of the sequence comes from
answers of both steps. A relation of states that each step keeps is kept by loops and traversals.
-/

namespace RadioChannel

namespace Action

variable {R σ τ α β : Type}

/-- A sequence answers where both steps answer. -/
theorem run_bind_ok {x : Action R σ α} {f : α → Action R σ β} {s t : σ} {b : β} :
    (x >>= f).run s = (.ok b, t) ↔
      ∃ a u, x.run s = (.ok a, u) ∧ (f a).run u = (.ok b, t) := by
  rw [run_bind]
  rcases hx : x.run s with ⟨_ | a, u⟩ <;> simp

theorem run_bind_of_ok {x : Action R σ α} {f : α → Action R σ β} {s t : σ} {a : α}
    (h : x.run s = (.ok a, t)) : (x >>= f).run s = (f a).run t := by
  rw [run_bind, h]

theorem run_map (f : α → β) (x : Action R σ α) (s : σ) :
    (f <$> x).run s = ((x.run s).1.map f, (x.run s).2) := by
  rw [← bind_pure_comp, run_bind]
  rcases x.run s with ⟨_ | _, _⟩ <;> rfl

@[simp] theorem run_liftExcept (x : Except (Fault R) α) (s : σ) :
    (liftM x : Action R σ α).run s = (x, s) := rfl

/-- A computation that touches no state leaves it to the rest of a sequence. -/
theorem run_lift_bind_ok {x : Except (Fault R) α} {f : α → Action R σ β} {s t : σ} {b : β} :
    ((liftM x : Action R σ α) >>= f).run s = (.ok b, t) ↔
      ∃ a, x = .ok a ∧ (f a).run s = (.ok b, t) := by
  rw [run_bind, run_liftExcept]
  cases x <;> simp

@[simp] theorem run_liftState (x : StateM σ α) (s : σ) :
    (liftM x : Action R σ α).run s = (.ok (x.run s).1, (x.run s).2) := rfl

@[simp] theorem run_on (view : σ → τ) (update : τ → σ → σ) (x : Action R τ α) (s : σ) :
    (on view update x).run s = ((x.run (view s)).1, update (x.run (view s)).2 s) := rfl

@[simp] theorem run_ite (c : Prop) [Decidable c] (x y : Action R σ α) (s : σ) :
    (if c then x else y).run s = if c then x.run s else y.run s := by
  split <;> rfl

/-- A loop over indices answers if each step does and keeps what holds before it. -/
theorem run_foldlM_range {f : β → Nat → Action R σ β} {P : Nat → β → σ → Prop} {n : Nat} {b : β}
    {s : σ} (hstart : P 0 b s) (hstep : ∀ m < n, ∀ b s, P m b s →
      ∃ b' s', (f b m).run s = (.ok b', s') ∧ P (m + 1) b' s') :
    ∃ b' s', ((List.range n).foldlM f b).run s = (.ok b', s') ∧ P n b' s' := by
  induction n with
  | zero => exact ⟨b, s, rfl, hstart⟩
  | succ n ih =>
    obtain ⟨b', s', hrun, hb'⟩ := ih fun m hm => hstep m (Nat.lt_succ_of_lt hm)
    obtain ⟨b'', s'', hlast, hb''⟩ := hstep n (Nat.lt_succ_self n) b' s' hb'
    refine ⟨b'', s'', ?_, hb''⟩
    rw [List.range_succ, List.foldlM_append, run_bind_of_ok hrun, List.foldlM_cons,
      run_bind_of_ok hlast]
    rfl

/-- A loop over indices fails at the first step that fails. -/
theorem run_foldlM_range_error {f : β → Nat → Action R σ β} {m n : Nat} {b b' : β} {s t u : σ}
    {e : Fault R} (hm : m < n) (hbefore : ((List.range m).foldlM f b).run s = (.ok b', t))
    (hfail : (f b' m).run t = (.error e, u)) : ((List.range n).foldlM f b).run s = (.error e, u) := by
  induction n with
  | zero => exact absurd hm (Nat.not_lt_zero m)
  | succ n ih =>
    rw [List.range_succ, List.foldlM_append, run_bind]
    rcases Nat.lt_succ_iff_lt_or_eq.mp hm with hlt | rfl
    · rw [ih hlt]
    · rw [hbefore]
      change ((f b' m) >>= fun b'' => pure b'').run t = _
      rw [run_bind, hfail]

/-! ## States that runs lead to -/

/-- Every run of a step leads along a relation of states. -/
def Advances (r : σ → σ → Prop) (x : Action R σ α) : Prop := ∀ s, r s (x.run s).2

section Advances

variable {r : σ → σ → Prop} (hrefl : ∀ s, r s s) (htrans : ∀ s t u, r s t → r t u → r s u)

include hrefl in
theorem advances_ofExcept (x : Except (Fault R) α) : Advances r (ofExcept x : Action R σ α) :=
  fun s => hrefl s

include hrefl in
theorem advances_pure (a : α) : Advances r (pure a : Action R σ α) := fun s => hrefl s

include htrans in
theorem Advances.bind {x : Action R σ α} {f : α → Action R σ β} (hx : Advances r x)
    (hf : ∀ a, Advances r (f a)) : Advances r (x >>= f) := by
  intro s
  have hstep := hx s
  rw [run_bind]
  rcases hrun : x.run s with ⟨e | a, t⟩ <;> rw [hrun] at hstep
  · exact hstep
  · exact htrans _ _ _ hstep (hf a t)

theorem advances_get_bind {f : σ → Action R σ β} (hf : ∀ s, r s ((f s).run s).2) :
    Advances r (get >>= f) := hf

include hrefl htrans in
theorem advances_mapM {f : α → Action R σ β} {xs : List α} (hf : ∀ x ∈ xs, Advances r (f x)) :
    Advances r (xs.mapM f) := by
  induction xs with
  | nil => exact advances_pure hrefl _
  | cons x xs ih =>
    rw [List.mapM_cons]
    refine Advances.bind htrans (hf x List.mem_cons_self) fun y => ?_
    exact Advances.bind htrans (ih fun x' hx' => hf x' (List.mem_cons_of_mem x hx')) fun ys =>
      advances_pure hrefl _

include hrefl htrans in
theorem advances_forM {f : α → Action R σ Unit} {xs : List α} (hf : ∀ x ∈ xs, Advances r (f x)) :
    Advances r (xs.forM f) := by
  induction xs with
  | nil => exact advances_pure hrefl _
  | cons x xs ih =>
    exact Advances.bind htrans (hf x List.mem_cons_self) fun _ =>
      ih fun x' hx' => hf x' (List.mem_cons_of_mem x hx')

include hrefl htrans in
/-- A traversal that answers ran each step on a state on its way, and answers what the steps did. -/
theorem run_mapM_ok {f : α → Action R σ β} {xs : List α} {ys : List β} {s t : σ}
    (hf : ∀ x ∈ xs, Advances r (f x)) (h : (xs.mapM f).run s = (.ok ys, t)) :
    r s t ∧ List.Forall₂ (fun x y => ∃ u v, (f x).run u = (.ok y, v) ∧ r s u ∧ r v t) xs ys := by
  induction xs generalizing ys s with
  | nil =>
    rw [List.mapM_nil, run_pure] at h
    obtain ⟨hys, rfl⟩ := Prod.mk.inj h
    obtain rfl := Except.ok.inj hys
    exact ⟨hrefl s, .nil⟩
  | cons x xs ih =>
    rw [List.mapM_cons, run_bind_ok] at h
    obtain ⟨y, u, hx, h⟩ := h
    rw [run_bind_ok] at h
    obtain ⟨ys', v, hxs, h⟩ := h
    obtain ⟨hys, rfl⟩ := Prod.mk.inj h
    obtain rfl := Except.ok.inj hys
    have hstep : r s u := by
      have hu := hf x List.mem_cons_self s
      rwa [hx] at hu
    obtain ⟨hrest, hsteps⟩ := ih (fun x' hx' => hf x' (List.mem_cons_of_mem x hx')) hxs
    refine ⟨htrans _ _ _ hstep hrest, .cons ⟨s, u, hx, hrefl s, hrest⟩ (hsteps.imp ?_)⟩
    rintro x' y' ⟨u', v', hx', hbefore, hafter⟩
    exact ⟨u', v', hx', htrans _ _ _ hstep hbefore, hafter⟩

end Advances

/-! ## Steps over a list -/

theorem run_forM_modify (f : α → σ → σ) (xs : List α) (s : σ) :
    (xs.forM fun x => (modify (f x) : Action R σ Unit)).run s =
      (.ok (), xs.foldl (fun s x => f x s) s) := by
  induction xs generalizing s with
  | nil => rfl
  | cons x xs ih => exact ih (f x s)

/-- Steps over a list fail at one of them: those before it have answered. -/
theorem run_forM_error {f : α → Action R σ Unit} {xs : List α} {s t : σ} {e : Fault R}
    (h : (xs.forM f).run s = (.error e, t)) :
    ∃ done x rest u, xs = done ++ x :: rest ∧ (done.forM f).run s = (.ok (), u) ∧
      (f x).run u = (.error e, t) := by
  induction xs generalizing s with
  | nil => cases h
  | cons x xs ih =>
    change (f x >>= fun _ => xs.forM f).run s = _ at h
    rw [run_bind] at h
    rcases hx : (f x).run s with ⟨e' | _, u⟩ <;> rw [hx] at h
    · cases h
      exact ⟨[], x, xs, s, rfl, rfl, hx⟩
    · obtain ⟨done, y, rest, v, rfl, hdone, hy⟩ := ih h
      refine ⟨x :: done, y, rest, v, rfl, ?_, hy⟩
      change (f x >>= fun _ => done.forM f).run s = _
      rw [run_bind_of_ok hx, hdone]

end Action

theorem except_bind_ok {R α β : Type} {x : Except (Fault R) α} {f : α → Except (Fault R) β} {b : β} :
    (x >>= f) = .ok b ↔ ∃ a, x = .ok a ∧ f a = .ok b := by
  cases x with
  | error e =>
    constructor
    · intro h
      cases h
    · rintro ⟨_, h, _⟩
      cases h
  | ok a =>
    constructor
    · exact fun h => ⟨a, rfl, h⟩
    · rintro ⟨_, h, hb⟩
      cases h
      exact hb

/-- A traversal answers where every step does, with the list of their answers. -/
theorem except_mapM_ok {R α β : Type} {f : α → Except (Fault R) β} {xs : List α} {ys : List β} :
    xs.mapM f = .ok ys ↔ List.Forall₂ (fun x y => f x = .ok y) xs ys := by
  induction xs generalizing ys with
  | nil =>
    rw [List.mapM_nil, List.forall₂_nil_left_iff]
    exact ⟨fun h => (Except.ok.inj h).symm, fun h => congrArg Except.ok h.symm⟩
  | cons x xs ih =>
    rw [List.mapM_cons, List.forall₂_cons_left_iff]
    cases hx : f x with
    | error e =>
      constructor
      · intro h
        cases h
      · rintro ⟨_, _, h, _⟩
        cases h
    | ok y =>
      cases hxs : xs.mapM f with
      | error e =>
        constructor
        · intro h
          cases h
        · rintro ⟨_, _, _, hys', _⟩
          rw [ih.mpr hys'] at hxs
          cases hxs
      | ok ys' =>
        constructor
        · intro h
          cases h
          exact ⟨y, ys', rfl, ih.mp hxs, rfl⟩
        · rintro ⟨y', zs, hy, hzs, rfl⟩
          cases hy
          rw [ih.mpr hzs] at hxs
          cases hxs
          rfl

/-- A traversal whose steps map what other steps answer. -/
theorem except_mapM_map {R α β γ : Type} {f : α → Except (Fault R) γ} {g : α → Except (Fault R) β}
    {h : β → γ} {xs : List α} (hf : ∀ x ∈ xs, f x = (g x).map h) :
    xs.mapM f = (xs.mapM g).map (List.map h) := by
  induction xs with
  | nil => rfl
  | cons x xs ih =>
    rw [List.mapM_cons, List.mapM_cons, hf x List.mem_cons_self,
      ih fun y hy => hf y (List.mem_cons_of_mem x hy)]
    cases g x with
    | error e => rfl
    | ok b => cases xs.mapM g <;> rfl

/-- A traversal answers if all its steps do. -/
theorem exists_mapM_ok {R α β : Type} {f : α → Except (Fault R) β} {xs : List α}
    (h : ∀ x ∈ xs, ∃ y, f x = .ok y) : ∃ ys, xs.mapM f = .ok ys := by
  induction xs with
  | nil => exact ⟨[], rfl⟩
  | cons x xs ih =>
    obtain ⟨y, hy⟩ := h x List.mem_cons_self
    obtain ⟨ys, hys⟩ := ih fun x' hx' => h x' (List.mem_cons_of_mem x hx')
    exact ⟨y :: ys, by rw [List.mapM_cons, hy, hys]; rfl⟩

/-- A traversal fails where one of its steps does. -/
theorem except_mapM_error {R α β : Type} {f : α → Except (Fault R) β} {xs : List α} {e : Fault R}
    (h : xs.mapM f = .error e) : ∃ x ∈ xs, f x = .error e := by
  induction xs with
  | nil => cases h
  | cons x xs ih =>
    rw [List.mapM_cons] at h
    cases hx : f x with
    | error e' =>
      rw [hx] at h
      cases h
      exact ⟨x, List.mem_cons_self, hx⟩
    | ok y =>
      cases hxs : xs.mapM f with
      | error e' =>
        rw [hx, hxs] at h
        cases h
        obtain ⟨x', hx', hfail⟩ := ih hxs
        exact ⟨x', List.mem_cons_of_mem x hx', hfail⟩
      | ok ys =>
        rw [hx, hxs] at h
        cases h

theorem entryAt_ok {R α : Type} {xs : List α} {i : Nat} {x : α} :
    (entryAt xs i : Except (Fault R) α) = .ok x ↔ xs[i]? = some x := by
  unfold entryAt
  cases xs[i]? <;> simp

theorem exists_of_forall₂ {α β : Type} {r : α → β → Prop} {xs : List α} {ys : List β}
    (h : List.Forall₂ r xs ys) {i : Nat} {x : α} (hx : xs[i]? = some x) :
    ∃ y, ys[i]? = some y ∧ r x y := by
  induction h generalizing i with
  | nil => simp at hx
  | cons hxy _ ih =>
    cases i with
    | zero =>
      cases hx
      exact ⟨_, rfl, hxy⟩
    | succ i => exact ih hx

theorem exists_of_forall₂_mem {α β : Type} {r : α → β → Prop} {xs : List α} {ys : List β}
    (h : List.Forall₂ r xs ys) {y : β} (hy : y ∈ ys) : ∃ x ∈ xs, r x y := by
  induction h with
  | nil => simp at hy
  | cons hxy _ ih =>
    rcases List.mem_cons.mp hy with rfl | hy
    · exact ⟨_, List.mem_cons_self, hxy⟩
    · obtain ⟨x, hx, hr⟩ := ih hy
      exact ⟨x, List.mem_cons_of_mem _ hx, hr⟩

theorem exists_ofFn {α : Type} {n : Nat} {xs : List α} (h : xs.length = n) :
    ∃ f : Fin n → α, xs = List.ofFn f := by
  subst h
  exact ⟨xs.get, (List.ofFn_get xs).symm⟩

theorem getElem?_ofFn_val {α : Type} {n : Nat} (f : Fin n → α) (i : Fin n) :
    (List.ofFn f)[i.val]? = some (f i) := by
  simp

theorem forall₂_ofFn {α β : Type} {n : Nat} {r : α → β → Prop} {f : Fin n → α} {g : Fin n → β}
    (h : ∀ i, r (f i) (g i)) : List.Forall₂ r (List.ofFn f) (List.ofFn g) :=
  List.forall₂_iff_get.mpr ⟨by simp, fun i hi hi' => by simpa using h _⟩

theorem except_map_ok {R α β : Type} {x : Except (Fault R) α} {f : α → β} {b : β} :
    x.map f = .ok b ↔ ∃ a, x = .ok a ∧ f a = b := by
  cases x <;> simp [Except.map]

end RadioChannel
