import RadioChannel.Fault

/-!
# Actions

A step on a state that may fail. The state is part of the outcome either way: a step that fails keeps
whatever it changed before it failed, which is what the host observes.
-/

namespace RadioChannel

/-- A step on states of type `σ` that answers a value or a fault, and always a new state. -/
def Action (R σ α : Type) : Type := σ → Except (Fault R) α × σ

namespace Action

variable {R σ τ α β : Type}

/-- Runs the step. -/
def run (x : Action R σ α) (s : σ) : Except (Fault R) α × σ := x s

/-- Two steps in sequence; a fault of the first one skips the second. -/
def andThen (x : Action R σ α) (f : α → Action R σ β) : Action R σ β := fun s =>
  match x s with
  | (.ok a, t) => f a t
  | (.error e, t) => (.error e, t)

instance : Monad (Action R σ) where
  pure a := fun s => (.ok a, s)
  bind := andThen

/-- The step that fails. -/
def fail (e : Fault R) : Action R σ α := fun s => (.error e, s)

/-- The state itself. -/
def get : Action R σ σ := fun s => (.ok s, s)

/-- Changes the state. -/
def modify (f : σ → σ) : Action R σ Unit := fun s => (.ok (), f s)

/-- A computation without state. -/
def ofExcept (x : Except (Fault R) α) : Action R σ α := fun s => (x, s)

/-- A computation that does not fail. -/
def ofState (x : StateM σ α) : Action R σ α := fun s =>
  match x.run s with
  | (a, t) => (.ok a, t)

/-- A step on a part of the state. -/
def on (view : σ → τ) (update : τ → σ → σ) (x : Action R τ α) : Action R σ α := fun s =>
  match x (view s) with
  | (r, t) => (r, update t s)

instance : MonadLift (Except (Fault R)) (Action R σ) where
  monadLift := ofExcept

instance : MonadLift (StateM σ) (Action R σ) where
  monadLift := ofState

@[simp] theorem run_pure (a : α) (s : σ) : (pure a : Action R σ α).run s = (.ok a, s) := rfl

@[simp] theorem run_fail (e : Fault R) (s : σ) : (fail e : Action R σ α).run s = (.error e, s) := rfl

@[simp] theorem run_get (s : σ) : (get : Action R σ σ).run s = (.ok s, s) := rfl

@[simp] theorem run_modify (f : σ → σ) (s : σ) :
    (modify f : Action R σ Unit).run s = (.ok (), f s) := rfl

/-- A sequence runs the second step only where the first one answered. -/
theorem run_bind (x : Action R σ α) (f : α → Action R σ β) (s : σ) :
    (x >>= f).run s = match x.run s with
      | (.ok a, t) => (f a).run t
      | (.error e, t) => (.error e, t) := rfl

instance : LawfulMonad (Action R σ) :=
  LawfulMonad.mk' (Action R σ)
    (by
      intro α x
      funext s
      change (match x s with
        | (.ok a, t) => (.ok a, t)
        | (.error e, t) => (.error e, t) : Except (Fault R) α × σ) = x s
      rcases x s with ⟨_ | _, _⟩ <;> rfl)
    (by intros; rfl)
    (by
      intro α β γ x f g
      funext s
      change andThen (andThen x f) g s = andThen x (fun a => andThen (f a) g) s
      unfold andThen
      rcases x s with ⟨_ | _, _⟩ <;> rfl)

end Action

end RadioChannel
