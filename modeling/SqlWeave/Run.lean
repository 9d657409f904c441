import SqlWeave.Error

/-!
# Runs

A run is a computation over a state that may fail. What it did to the state before it failed stays.

Results:
* `bind_of_ok`, `bind_of_error`: a run goes on behind a success and ends with a failure.
* `bind_ofResult`: a result alone leaves the state as it is.
-/

namespace SqlWeave

/-- A computation over a state that may fail: the result, and the state that it leaves. -/
def Run (ω α : Type) := ω → Result α × ω

namespace Run

variable {ω α β : Type}

instance : Monad (Run ω) where
  pure a w := (.ok a, w)
  bind m f w :=
    match m w with
    | (.ok a, w) => f a w
    | (.error e, w) => (.error e, w)

/-- The run that a function of the state is. -/
def step (f : ω → Result α × ω) : Run ω α := f

/-- A run that has its result already. -/
def ofResult (r : Result α) : Run ω α := fun w => (r, w)

instance : MonadLift (Except Error) (Run ω) := ⟨ofResult⟩

/-- A run over a part of a state. -/
def within {σ : Type} (get : ω → σ) (set : σ → ω → ω) (m : Run σ α) : Run ω α := fun w =>
  let (r, s) := m (get w)
  (r, set s w)

/-- A run that changes the state and cannot fail. -/
def change (f : ω → ω) : Run ω Unit := fun w => (.ok (), f w)

theorem step_apply (f : ω → Result α × ω) (w : ω) : step f w = f w := rfl

theorem bind_apply (m : Run ω α) (f : α → Run ω β) (w : ω) :
    (m >>= f) w =
      match m w with
      | (.ok a, w) => f a w
      | (.error e, w) => (.error e, w) := rfl

theorem bind_of_ok {m : Run ω α} {w w' : ω} {a : α} (h : m w = (.ok a, w')) (f : α → Run ω β) :
    (m >>= f) w = f a w' := by
  rw [bind_apply, h]

theorem bind_of_error {m : Run ω α} {w w' : ω} {e : Error} (h : m w = (.error e, w'))
    (f : α → Run ω β) : (m >>= f) w = (.error e, w') := by
  rw [bind_apply, h]

theorem bind_ofResult (a : α) (f : α → Run ω β) : ofResult (.ok a) >>= f = f a := rfl

instance : LawfulMonad (Run ω) :=
  LawfulMonad.mk' (Run ω)
    (fun m => by
      funext w
      change (match m w with
        | (.ok a, w) => (.ok (id a), w)
        | (.error e, w) => (.error e, w)) = m w
      rcases m w with ⟨_ | _, _⟩ <;> rfl)
    (fun _ _ => rfl)
    (fun m f g => by
      funext w
      simp only [bind_apply]
      rcases m w with ⟨_ | _, _⟩ <;> rfl)

end Run
end SqlWeave
