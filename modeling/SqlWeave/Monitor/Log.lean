import SqlWeave.Monitor.Hook

/-!
# Log events

What is logged of statements: an event has a level and named fields. The logging hook logs every
statement, its text cut to a number of bytes, and on demand its outcome.
-/

namespace SqlWeave

open Number

/-- How much an event matters. -/
inductive Level where
  | error | warn | info | debug | trace
  deriving DecidableEq, Repr

/-- The name of a level. -/
def Level.name : Level → String
  | error => "ERROR"
  | warn => "WARN"
  | info => "INFO"
  | debug => "DEBUG"
  | trace => "TRACE"

/-- What a field of an event holds. -/
inductive LogField where
  | number (n : Nat)
  | text (s : String)
  deriving DecidableEq, Repr

/-- An event of the log. -/
structure LogEvent where
  level : Level
  fields : List (String × LogField)
  deriving DecidableEq, Repr

namespace LogEvent

/-- The field that says what happened. -/
def messageField : String := "message"

/-- The field of a time in microseconds. -/
def elapsedField : String := "elapsed_us"

/-- An event that says what happened. -/
def message (level : Level) (text : String) (fields : List (String × LogField)) : LogEvent :=
  ⟨level, fields ++ [(messageField, .text text)]⟩

/-- The start of a transaction. -/
def begun : LogEvent := message .debug "BEGIN" []

/-- The end of a transaction whose changes stay. -/
def committed : LogEvent := message .debug "COMMIT" []

/-- The end of a transaction whose changes are undone. -/
def rolledBack : LogEvent := message .debug "ROLLBACK" []

/-- Changes could not be undone. -/
def rollbackFailed (error : String) : LogEvent :=
  message .warn "rollback failed" [("error", .text error)]

/-- A table is about to be made. -/
def createTable (d : Dialect) (table : String) (columns : Nat) : LogEvent :=
  message .debug "create table"
    [("dialect", .text d.name), ("table", .text table), ("columns", .number columns)]

/-- A batch of rows is about to be inserted. -/
def insertBatch (d : Dialect) (table : String) (rows params : Nat) : LogEvent :=
  message .debug "bulk insert batch"
    [("dialect", .text d.name), ("table", .text table), ("rows", .number rows),
      ("params", .number params)]

end LogEvent

/-- How statements are logged. -/
structure Logging where
  level : Level := .debug
  /-- The number of bytes that are kept of a statement, if it is limited. -/
  maxLength : Option Nat := some 200
  logResults : Bool := false
  deriving DecidableEq, Repr

namespace Logging

/-- A statement as it is logged. -/
def shorten (l : Logging) (sql : String) : String :=
  match l.maxLength with
  | some n => Text.abbreviate n sql
  | none => sql

/-- The tag of a statement, or what stands for none. -/
def tagText (c : Context) : String := c.tag.getD "-"

/-- The event of a statement that is about to be sent. -/
def beforeEvent (l : Logging) (c : Context) : LogEvent :=
  ⟨l.level, [("dialect", .text c.dialect.name), ("query_type", .text c.kind.name),
    ("tag", .text (tagText c)), ("param_count", .number c.paramCount),
    ("sql", .text (l.shorten c.sql))]⟩

/-- The event of a statement whose outcome is known. -/
def afterEvent (l : Logging) (c : Context) (nanos : Nat) (o : Outcome) : LogEvent :=
  ⟨l.level, [("query_type", .text c.kind.name), ("tag", .text (tagText c)),
    (LogEvent.elapsedField, .number (min (nanos / 1000) (2 ^ 64 - 1))),
    ("result", .text o.text)]⟩

/-- The hook that logs statements, the latest event last. -/
def hook (l : Logging) : Hook (List LogEvent) where
  before c log := (.continue, log ++ [l.beforeEvent c])
  after c nanos o log := if l.logResults then log ++ [l.afterEvent c nanos o] else log

end Logging
end SqlWeave
