import SqlWeave.Cursor
import SqlWeave.Run

/-!
# Executors

What sends statements to an engine. An executor works on a state, which it may share with whatever
watches it. One that can be cancelled takes a token with every call; whoever holds the token sees
the same flag.
-/

namespace SqlWeave

/-- What sends statements to an engine. -/
structure Executor (ω : Type) where
  /-- Runs a command; the number of rows that it changed. -/
  execute : Statement → Run ω Nat
  /-- Runs a query; its lines. -/
  query : Statement → Run ω Cursor
  /-- Runs a query; the first value of its first line, null where there is none. -/
  scalar : Statement → Run ω Value
  begin : Run ω Unit
  commit : Run ω Unit
  rollback : Run ω Unit

namespace Executor

variable {ω σ : Type}

/-- The executor that does something with every call. -/
def around (f : {α : Type} → Run σ α → Run ω α) (x : Executor σ) : Executor ω where
  execute s := f (x.execute s)
  query s := f (x.query s)
  scalar s := f (x.scalar s)
  begin := f x.begin
  commit := f x.commit
  rollback := f x.rollback

/-- An executor on a part of a state. -/
def within (get : ω → σ) (set : σ → ω → ω) (x : Executor σ) : Executor ω :=
  x.around (Run.within get set)

/-- The executor that changes the state before every call. -/
def noting (f : ω → ω) (x : Executor ω) : Executor ω := x.around fun m w => m (f w)

end Executor

/-- A flag of the state by which a caller asks for its calls to end. -/
structure CancelToken (ω : Type) where
  isCancelled : ω → Bool
  cancel : ω → ω
  cancelled : ∀ w, isCancelled (cancel w) = true

/-- An executor whose calls can be cancelled. Whether it heeds the token is its own affair. -/
abbrev CancellableExecutor (ω : Type) := CancelToken ω → Executor ω

end SqlWeave
