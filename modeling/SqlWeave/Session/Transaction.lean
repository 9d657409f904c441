import SqlWeave.Session.Database

/-!
# Transactions

A body is run between the beginning of a transaction and its end: its changes stay where the body
succeeds, and are undone where it fails. The failure of the body is what the caller learns, also
where undoing fails.
-/

namespace SqlWeave

namespace Database

variable {ω α : Type}

/-- Begins a transaction. -/
def begin (db : Database ω) : Run ω Unit := do
  db.record .begun
  db.executor.begin

/-- Ends a transaction; its changes stay. -/
def commit (db : Database ω) : Run ω Unit := do
  db.record .committed
  db.executor.commit

/-- Ends a transaction; its changes are undone. -/
def rollback (db : Database ω) : Run ω Unit := do
  db.record .rolledBack
  db.executor.rollback

/-- Undoes the changes of a body that failed. -/
def undo (db : Database ω) (w : ω) : ω :=
  match db.rollback w with
  | (.ok (), w) => w
  | (.error e, w) => db.log (.rollbackFailed e.message) w

/-- Ends a transaction as its body did. -/
def conclude (db : Database ω) : Result α × ω → Result α × ω
  | (.ok a, w) => (do db.commit; pure a : Run ω α) w
  | (.error e, w) => (.error e, db.undo w)

/-- Runs a body in a transaction. -/
def transaction (db : Database ω) (body : Run ω α) : Run ω α := do
  db.begin
  .step fun w => db.conclude (body w)

end Database
end SqlWeave
