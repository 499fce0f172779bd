import RadioChannel.Proofs.Idling
import RadioChannel.Beamforming.Bundle

/-!
# Outcomes without misfits

Three faults tell a host that data of the library's own making does not fit together: a channel that is
not for the arrays it is used with, a beam without the search it should come from, and a table with a
number of clusters that nothing is tabulated for. Here is what it takes that an outcome is none of the
three, and that a step keeps an invariant besides; and that linear algebra and codebooks, which fail in
other ways, never fail in these.
-/

namespace RadioChannel

open Scalar

variable {R α β : Type}

/-- Whether a fault says that data of the library's own making does not fit together. -/
def Fault.isMisfit : Fault R → Bool
  | .dimensionMismatch .. | .notCodebookBeam | .noAngularScaling _ => true
  | _ => false

theorem Fault.isMisfit_of_isBreach {e : Fault R} (h : e.isBreach = true) : e.isMisfit = false := by
  cases e with
  | breach rule => rfl
  | _ => cases h

/-! ## Outcomes -/

/-- An outcome that is an answer of a kind, or a fault that is no misfit. -/
def Fitting (p : α → Prop) : Except (Fault R) α → Prop
  | .ok a => p a
  | .error e => e.isMisfit = false

variable {p q : α → Prop} {x : Except (Fault R) α}

theorem Fitting.imp (h : Fitting p x) (hpq : ∀ a, p a → q a) : Fitting q x := by
  cases x with
  | ok a => exact hpq a h
  | error e => exact h

theorem Fitting.self (h : Fitting p x) : Fitting (fun a => x = .ok a) x := by
  cases x with
  | error e => exact h
  | ok a => exact rfl

theorem Fitting.bind {f : α → Except (Fault R) β} {q : β → Prop} (hx : Fitting p x)
    (hf : ∀ a, p a → Fitting q (f a)) : Fitting q (x >>= f) := by
  cases x with
  | ok a => exact hf a hx
  | error e => exact hx

theorem Fitting.map {f : α → β} {q : β → Prop} (hx : Fitting p x) (hf : ∀ a, p a → q (f a)) :
    Fitting q (x.map f) := by
  cases x with
  | ok a => exact hf a hx
  | error e => exact hx

theorem Fitting.mapM {f : α → Except (Fault R) β} {r : α → β → Prop} {xs : List α}
    (hf : ∀ a ∈ xs, Fitting (r a) (f a)) : Fitting (List.Forall₂ r xs) (xs.mapM f) := by
  induction xs with
  | nil => exact .nil
  | cons a xs ih =>
    rw [List.mapM_cons]
    refine Fitting.bind (hf a List.mem_cons_self) fun b hb => ?_
    refine Fitting.bind (ih fun a' ha' => hf a' (List.mem_cons_of_mem a ha')) fun bs hbs => ?_
    exact .cons hb hbs

/-- A traversal of which nothing is known but that no step ends in a misfit. -/
theorem fitting_mapM {f : α → Except (Fault R) β} {xs : List α}
    (hf : ∀ a ∈ xs, Fitting (fun _ => True) (f a)) : Fitting (fun _ => True) (xs.mapM f) :=
  (Fitting.mapM (r := fun _ _ => True) hf).imp fun _ _ => trivial

theorem fitting_entryAt (xs : List α) (i : Nat) :
    Fitting (fun _ => True) (entryAt xs i : Except (Fault R) α) := by
  unfold entryAt
  split
  · trivial
  · exact Fault.isMisfit_of_isBreach (by rfl)

/-! ## Steps -/

namespace Action

variable {σ τ : Type} {inv : σ → Prop}

/-- From each state with an invariant a step ends in one, with a fitting outcome. -/
def Upholds (inv : σ → Prop) (p : α → Prop) (x : Action R σ α) : Prop :=
  ∀ s, inv s → Fitting p (x.run s).1 ∧ inv (x.run s).2

theorem upholds_pure {a : α} (ha : p a) : Upholds inv p (pure a : Action R σ α) :=
  fun _ hs => ⟨ha, hs⟩

theorem upholds_fail {e : Fault R} (he : e.isMisfit = false) :
    Upholds inv p (fail e : Action R σ α) := fun _ hs => ⟨he, hs⟩

theorem upholds_ofExcept (hx : Fitting p x) : Upholds inv p (ofExcept x : Action R σ α) :=
  fun _ hs => ⟨hx, hs⟩

theorem upholds_modify {f : σ → σ} (hf : ∀ s, inv s → inv (f s)) :
    Upholds inv (fun _ => True) (modify f : Action R σ Unit) := fun s hs => ⟨trivial, hf s hs⟩

theorem Upholds.imp {x : Action R σ α} (h : Upholds inv p x) (hpq : ∀ a, p a → q a) :
    Upholds inv q x := fun s hs => ⟨(h s hs).1.imp hpq, (h s hs).2⟩

theorem Upholds.bind {x : Action R σ α} {f : α → Action R σ β} {q : β → Prop}
    (hx : Upholds inv p x) (hf : ∀ a, p a → Upholds inv q (f a)) : Upholds inv q (x >>= f) := by
  intro s hs
  obtain ⟨houtcome, hinv⟩ := hx s hs
  rw [run_bind]
  rcases hrun : x.run s with ⟨e | a, t⟩ <;> rw [hrun] at houtcome hinv
  · exact ⟨houtcome, hinv⟩
  · exact hf a houtcome t hinv

theorem upholds_get_bind {f : σ → Action R σ α} (hf : ∀ s, inv s → Upholds inv p (f s)) :
    Upholds inv p (get >>= f) := fun s hs => hf s hs s hs

theorem Upholds.mapM {f : α → Action R σ β} {r : α → β → Prop} {xs : List α}
    (hf : ∀ a ∈ xs, Upholds inv (r a) (f a)) : Upholds inv (List.Forall₂ r xs) (xs.mapM f) := by
  induction xs with
  | nil => exact upholds_pure .nil
  | cons a xs ih =>
    rw [List.mapM_cons]
    refine Upholds.bind (hf a List.mem_cons_self) fun b hb => ?_
    refine Upholds.bind (ih fun a' ha' => hf a' (List.mem_cons_of_mem a ha')) fun bs hbs => ?_
    exact upholds_pure (.cons hb hbs)

theorem Upholds.forM {f : α → Action R σ Unit} {xs : List α}
    (hf : ∀ a ∈ xs, Upholds inv (fun _ => True) (f a)) :
    Upholds inv (fun _ => True) (xs.forM f) := by
  induction xs with
  | nil => exact upholds_pure trivial
  | cons a xs ih =>
    exact Upholds.bind (hf a List.mem_cons_self) fun _ _ =>
      ih fun a' ha' => hf a' (List.mem_cons_of_mem a ha')

theorem Upholds.foldlM {f : β → α → Action R σ β} {xs : List α} {b : β}
    (hf : ∀ b, ∀ a ∈ xs, Upholds inv (fun _ => True) (f b a)) :
    Upholds inv (fun _ => True) (xs.foldlM f b) := by
  induction xs generalizing b with
  | nil => exact upholds_pure trivial
  | cons a xs ih =>
    rw [List.foldlM_cons]
    refine Upholds.bind (hf b a List.mem_cons_self) fun b' _ => ?_
    exact ih fun b' a' ha' => hf b' a' (List.mem_cons_of_mem a ha')

theorem Upholds.on {view : σ → τ} {update : τ → σ → σ} {inv' : τ → Prop} {x : Action R τ α}
    (hx : Upholds inv' p x) (hview : ∀ s, inv s → inv' (view s))
    (hupdate : ∀ s t, inv s → inv' t → inv (update t s)) : Upholds inv p (on view update x) := by
  intro s hs
  obtain ⟨houtcome, hinv⟩ := hx (view s) (hview s hs)
  exact ⟨houtcome, hupdate s _ hs hinv⟩

end Action

variable [Scalar R]

/-! ## Linear algebra -/

namespace Cholesky

theorem fitting_finish (n : Nat) (rows : List (Pending R)) :
    Fitting (fun _ => True) (finish n rows) := by
  induction n generalizing rows with
  | zero => trivial
  | succ n ih =>
    cases rows with
    | nil => trivial
    | cons top below =>
      unfold finish pivot
      refine Fitting.bind (p := fun _ => True) ?_ fun pivot _ => ?_
      · exact (fitting_entryAt _ _).bind fun _ _ => trivial
      · dsimp only
        split
        · exact rfl
        · refine Fitting.bind (fitting_mapM fun row _ => ?_) fun below _ => ?_
          · exact (fitting_entryAt _ _).bind fun _ _ => trivial
          · exact (ih below).bind fun _ _ => trivial

theorem fitting_factor (m : Matrix R) : Fitting (fun _ => True) (factor m) :=
  (fitting_finish _ _).bind fun _ _ => trivial

theorem fitting_forwardFrom (found : List (Phasor R)) (rows : Matrix R) (b : List (Phasor R)) :
    Fitting (fun _ => True) (forwardFrom found rows b) := by
  induction rows generalizing found b with
  | nil =>
    unfold forwardFrom
    exact trivial
  | cons row rows ih =>
    cases b with
    | nil => exact rfl
    | cons b bs =>
      unfold forwardFrom
      exact (fitting_entryAt _ _).bind fun _ _ => ih _ _

theorem fitting_backFrom (i : Nat) (rows : Matrix R) (z : List (Phasor R)) :
    Fitting (fun _ => True) (backFrom i rows z) := by
  induction rows generalizing i z with
  | nil => trivial
  | cons row rows ih =>
    cases z with
    | nil => exact rfl
    | cons z zs =>
      unfold backFrom below
      refine (ih _ _).bind fun found _ => ?_
      refine (fitting_entryAt _ _).bind fun diagonal _ => ?_
      refine Fitting.bind (p := fun _ => True) ?_ fun rest _ => trivial
      exact (fitting_mapM fun _ _ => fitting_entryAt _ _).bind fun _ _ => trivial

end Cholesky

namespace LeastSquares

theorem fitting_normal (h : Matrix R) (n0 : R) : Fitting (fun _ => True) (normal h n0) :=
  (fitting_mapM fun _ _ => fitting_mapM fun _ _ => fitting_entryAt _ _).bind fun _ _ => trivial

/-- A system is solved, or its matrix is not positive definite or ragged. -/
theorem fitting_solveMatrix (h : Matrix R) (n0 : R) : Fitting (fun _ => True) (solveMatrix h n0) := by
  refine Fitting.bind (p := fun _ => True) ?_ fun l _ => ?_
  · exact (fitting_normal h n0).bind fun _ _ => Cholesky.fitting_factor _
  · refine Fitting.bind (fitting_mapM fun row _ => ?_) fun columns _ => trivial
    exact (Cholesky.fitting_forwardFrom _ _ _).bind fun _ _ => Cholesky.fitting_backFrom _ _ _

end LeastSquares

/-! ## Codebooks -/

namespace Codebook

theorem fitting_transformAlong (length stride : Nat) (data : List (Phasor R)) :
    Fitting (fun _ => True) (transformAlong length stride data) := by
  unfold transformAlong
  split
  · trivial
  · refine fitting_mapM fun i _ => Fitting.bind (fitting_mapM fun k _ => ?_) fun _ _ => trivial
    split
    · trivial
    · exact rfl

/-- A channel between as many elements as two panels have is transformed, or its indices run out. -/
theorem fitting_equivalent {h : Matrix R} {rx tx : PanelSize} (hrows : h.length = rx.wordCount)
    (hcolumns : Matrix.columns h = tx.wordCount) :
    Fitting (fun _ => True) (equivalent h rx tx) := by
  unfold equivalent
  rw [if_neg (by simp [hrows, hcolumns])]
  refine (fitting_transformAlong _ _ _).bind fun _ _ => ?_
  refine (fitting_transformAlong _ _ _).bind fun _ _ => ?_
  refine (fitting_transformAlong _ _ _).bind fun _ _ => ?_
  refine (fitting_transformAlong _ _ _).bind fun _ _ => ?_
  split
  · exact rfl
  · trivial

theorem fitting_resolveFrom (claimed : List Nat) (pairs : List BeamPair) (gs : List (Matrix R)) :
    Fitting (fun _ => True) (resolveFrom claimed pairs gs).1 := by
  induction pairs generalizing claimed gs with
  | nil => trivial
  | cons pair pairs ih =>
    cases gs with
    | nil => trivial
    | cons g gs =>
      unfold resolveFrom
      split
      · split
        · exact rfl
        · exact ih _ gs
      · exact ih _ gs

theorem fitting_beam (size : PanelSize) (k : Nat) :
    Fitting (fun w => w.length = size.wordCount) (beam size k : Except (Fault R) (List (Phasor R))) := by
  unfold beam
  split
  · exact rfl
  · exact length_weights size k

end Codebook

end RadioChannel
