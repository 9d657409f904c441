import SqlWeave.Mapping.Reading
import SqlWeave.Monitor.Log
import SqlWeave.Query.Modify
import SqlWeave.Query.Upsert
import SqlWeave.Schema.Statement
import SqlWeave.Session.Executor

/-!
# Databases

A database writes statements for its options, shows them to its hooks and sends them to its
executor. Operations on records work on the table and the columns of their mapping.

Results:
* `perform_of_abort`: a statement that a hook stops is not sent.
* `perform_of_pass`: a statement that passes is sent once, with the text that the hooks leave, and
  its outcome is told to every hook.
-/

namespace SqlWeave

/-- Options, an executor, and what watches the statements. -/
structure Database (ω : Type) where
  config : Config
  executor : Executor ω
  hooks : List (Hook ω) := []
  /-- The name of the place that statements come from. -/
  tag : Option String := none
  /-- Where the events of the database itself go. -/
  log : LogEvent → ω → ω := fun _ w => w
  /-- The time in nanoseconds. -/
  clock : ω → Nat := fun _ => 0

namespace Database

variable {ω α : Type}

/-- A query on a table. -/
def query (db : Database ω) (table : TableName) : Query := .new table db.config

/-- A query on the table of a mapping. -/
def queryOf (db : Database ω) (m : Mapping α) : Query := db.query (.parse m.table)

/-! ## Sending statements -/

/-- A statement as the hooks see it, of the kind given or else of the kind that its text shows. -/
def context (db : Database ω) (s : Statement) (kind : Option StatementKind) : Context :=
  let c := Context.new s.sql s.params.length db.config.dialect
  { c with kind := kind.getD c.kind, tag := db.tag }

/-- Why a statement that a hook stops fails. -/
def aborted (reason : String) : Error := .other ("query aborted by hook: " ++ reason)

/-- The outcome of a call as hooks are told it. -/
def outcomeOf (outcome : α → Outcome) : Result α → Outcome
  | .ok a => outcome a
  | .error e => .failed e.message

/-- Sends a statement by a call of the executor, unless a hook stops it. -/
def perform (db : Database ω) (kind : Option StatementKind) (outcome : α → Outcome)
    (call : Statement → Run ω α) (e : Expression) : Run ω α := fun w =>
  let s := e.render .atSign
  match Hook.ask db.hooks (db.context s kind) w with
  | (.error reason, w) => (.error (aborted reason), w)
  | (.ok c, w) =>
    let (r, w') := call { s with sql := c.sql } w
    (r, Hook.tell db.hooks c (db.clock w' - db.clock w) (outcomeOf outcome r) w')

/-- Runs a statement as a command; the number of rows that it changed. -/
def execute (db : Database ω) (e : Expression) (kind : Option StatementKind := none) : Run ω Nat :=
  db.perform kind .affected db.executor.execute e

/-- Runs a statement as a query; its rows. -/
def rows (db : Database ω) (e : Expression) : Run ω (List Row) :=
  db.perform (some .select) (fun rows => .rows rows.length)
    (fun s => do (← db.executor.query s).readAll) e

/-- Runs a statement as a query; the first value of its first line. -/
def scalar (db : Database ω) (e : Expression) (kind : Option StatementKind := none) : Run ω Value :=
  db.perform kind (fun _ => .scalar) db.executor.scalar e

/-- Logs an event of the database. -/
def record (db : Database ω) (e : LogEvent) : Run ω Unit := .change (db.log e)

/-! ## Reading -/

/-- The rows of a query. -/
def selectRows (db : Database ω) (q : Query) : Run ω (List Row) := do db.rows (← q.select)

/-- A number that an engine counted. -/
def countOf : Value → Result Nat
  | .null => .ok 0
  | v =>
    match IntRange.u64.ofValue v with
    | .ok n => .ok n.toNat
    | .error m => .error (.decode "count" m.message)

/-- The number of rows of a query. -/
def count (db : Database ω) (q : Query) : Run ω Nat := do
  countOf (← db.scalar (← q.count none) (some .select))

/-! ## Writing rows -/

/-- Inserts a row. -/
def insert (db : Database ω) (table : TableName) (r : Row) : Run ω Nat := do
  db.execute (← (db.query table).insert r) (some .insert)

/-- Inserts a row; the value that the engine made for the key. -/
def insertKey (db : Database ω) (table : TableName) (r : Row) (key : String) : Run ω Value := do
  db.scalar (← (db.query table).insertKey r key) (some .insert)

/-- Inserts the rows that a query selects. -/
def insertSelected (db : Database ω) (table : TableName) (source : Query)
    (columns : List String) : Run ω Nat := do
  db.execute (← (db.query table).insertSelected source columns) (some .insert)

/-- Writes the statements of a bulk insert, up to the first that cannot be written. -/
def writeBatches (db : Database ω) (table : String) :
    List (List Row × Result Expression) → Run ω (List Expression)
  | [] => pure []
  | (rows, statement) :: rest => do
    let e ← statement
    db.record (.insertBatch db.config.dialect table rows.length e.values.length)
    let more ← db.writeBatches table rest
    pure (e :: more)

/-- Runs commands of one kind one after another; the number of rows that they changed. -/
def executeAll (db : Database ω) (kind : StatementKind) : List Expression → Run ω Nat
  | [] => pure 0
  | e :: rest => do
    let n ← db.execute e (some kind)
    let more ← db.executeAll kind rest
    pure (n + more)

/-- Inserts many rows in batches, all of which are written before the first is sent. -/
def bulkInsert (db : Database ω) (table : TableName) (rows : List Row) : Run ω Nat := do
  let q := db.query table
  q.checkBulk rows
  let statements ← db.writeBatches table.name (q.bulkBatches rows)
  db.executeAll .insert statements

/-- Changes the rows of a query. -/
def update (db : Database ω) (q : Query) (r : Row) : Run ω Nat := do
  db.execute (← q.update r.cells) (some .update)

/-- Removes the rows of a query. -/
def delete (db : Database ω) (q : Query) : Run ω Nat := do
  db.execute (← q.delete) (some .delete)

/-- Removes the rows of a query from its table and the joined ones. -/
def deleteJoined (db : Database ω) (q : Query) : Run ω Nat := do
  db.execute (← q.deleteJoined) (some .delete)

/-- Inserts rows, or changes those that are there. -/
def upsert (db : Database ω) (table : TableName) (rows : List Row) (u : Upsert) : Run ω Nat := do
  db.execute (← (db.query table).upsert rows u) (some .upsert)

/-! ## Writing records -/

/-- Inserts a record. A column made by the engine is read back into it. -/
def insertRecord (db : Database ω) (e : Entity α) (a : α) : Run ω (Nat × α) := do
  let table := TableName.parse e.table
  match e.columns.find? (·.isGenerated) with
  | none =>
    let n ← db.insert table (e.insertRow a)
    pure (n, a)
  | some c =>
    let key ← db.insertKey table (e.insertRow a) c.name
    if key.isNull then pure (1, a)
    else
      let a ← c.assign key a
      pure (1, a)

/-- Inserts many records in batches. -/
def bulkInsertRecords (db : Database ω) (e : Entity α) (records : List α) : Run ω Nat :=
  db.bulkInsert (.parse e.table) (records.map e.insertRow)

/-- The query for the row of a record, found by the columns of the key. -/
def queryFor (db : Database ω) (m : Mapping α) (a : α) : Result Query := do
  let keys ← m.keyValues a
  pure (keys.foldl (fun q (name, v) => q.filter (.equals name v)) (db.queryOf m))

/-- Changes the row of a record. -/
def updateRecord (db : Database ω) (e : Entity α) (a : α) : Run ω Nat := do
  db.update (← db.queryFor e.toMapping a) (e.updateRow a)

/-- Removes the row of a record. -/
def deleteRecord (db : Database ω) (e : Entity α) (a : α) : Run ω Nat := do
  db.delete (← db.queryFor e.toMapping a)

/-! ## Tables -/

/-- Makes a table. -/
def createTable (db : Database ω) (s : Schema) : Run ω Nat := do
  let e ← db.config.createTable s
  let d := db.config.dialect
  db.record (.createTable d (s.tableName d) s.columns.length)
  db.execute e (some .ddl)

/-- Removes a table. -/
def dropTable (db : Database ω) (name : String) : Run ω Nat := do
  db.execute (← db.config.dropTable name) (some .ddl)

/-- There is a table of a name. -/
def tableExists (db : Database ω) (name : String) : Run ω Bool := do
  let n ← countOf (← db.scalar (← db.config.tableExists name) (some .select))
  pure (decide (0 < n))

/-! ## Laws -/

theorem perform_of_abort (db : Database ω) (kind : Option StatementKind) (outcome : α → Outcome)
    (call : Statement → Run ω α) {e : Expression} {w w' : ω} {reason : String}
    (h : Hook.ask db.hooks (db.context (e.render .atSign) kind) w = (.error reason, w')) :
    db.perform kind outcome call e w = (.error (aborted reason), w') := by
  simp [perform, h]

theorem perform_of_pass (db : Database ω) (kind : Option StatementKind) (outcome : α → Outcome)
    (call : Statement → Run ω α) {e : Expression} {w w' : ω} {c : Context}
    (h : Hook.ask db.hooks (db.context (e.render .atSign) kind) w = (.ok c, w')) :
    db.perform kind outcome call e w =
      ((call ⟨c.sql, e.values⟩ w').1,
        Hook.tell db.hooks c (db.clock (call ⟨c.sql, e.values⟩ w').2 - db.clock w')
          (outcomeOf outcome (call ⟨c.sql, e.values⟩ w').1) (call ⟨c.sql, e.values⟩ w').2) := by
  simp only [perform, h]
  rfl

end Database
end SqlWeave
