import SqlWeave.Session.Executor

/-!
# Executors with prepared answers

A tape holds the answers that an executor gives, in their order, and what it was sent. It stands in
for an engine where none is there. A statement that is refused takes no answer off the tape.
-/

namespace SqlWeave

/-- The calls of a transaction. -/
inductive TransactionCall where
  | begin | commit | rollback
  deriving DecidableEq, Repr

/-- The name of a call. -/
def TransactionCall.name : TransactionCall → String
  | begin => "begin"
  | commit => "commit"
  | rollback => "rollback"

/-- The answers that are left, and what was sent. -/
structure Tape where
  /-- The answers to commands; one row where there are none left. -/
  changed : List Nat := []
  /-- The answers to queries; no lines where there are none left. -/
  results : List Cursor := []
  /-- The answers to queries for one value; null where there are none left. -/
  scalars : List Value := []
  sent : List Statement := []
  calls : List TransactionCall := []

namespace Tape

/-- What a tape refuses, and how. -/
structure Refusal where
  statement : Statement → Option Error
  call : TransactionCall → Option Error

/-- The refusal of nothing. -/
def Refusal.none : Refusal := ⟨fun _ => Option.none, fun _ => Option.none⟩

/-- Keeps a statement and answers it, unless it is refused. -/
def answer {α : Type} (refusal : Refusal) (next : Tape → α × Tape) (s : Statement) : Run Tape α :=
  fun t =>
    let t := { t with sent := t.sent ++ [s] }
    match refusal.statement s with
    | some e => (.error e, t)
    | Option.none =>
      let (a, t) := next t
      (.ok a, t)

/-- Keeps a call of a transaction. -/
def note (refusal : Refusal) (c : TransactionCall) : Run Tape Unit := fun t =>
  ((refusal.call c).elim (.ok ()) .error, { t with calls := t.calls ++ [c] })

/-- The executor that answers from a tape. -/
def executor (refusal : Refusal) : Executor Tape where
  execute := answer refusal fun t => (t.changed.head?.getD 1, { t with changed := t.changed.tail })
  query := answer refusal fun t =>
    (t.results.head?.getD ⟨[], []⟩, { t with results := t.results.tail })
  scalar := answer refusal fun t =>
    (t.scalars.head?.getD .null, { t with scalars := t.scalars.tail })
  begin := note refusal .begin
  commit := note refusal .commit
  rollback := note refusal .rollback

end Tape
end SqlWeave
