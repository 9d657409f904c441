import SqlWeave.Session.Foreign
import SqlWeave.Session.Transaction

/-!
# Databases whose calls can be cancelled

The operations of a database of which every call takes a token. Statements are written and shown to
the hooks as ever; the executor gets the token with every call.
-/

namespace SqlWeave

namespace CancellableDatabase

variable {ω α : Type}

/-- A query on a table. -/
def query (db : CancellableDatabase ω) (table : TableName) : Query := .new table db.config

/-- A query on the table of a mapping. -/
def queryOf (db : CancellableDatabase ω) (m : Mapping α) : Query := db.query (.parse m.table)

/-! ## Sending statements -/

/-- Runs a statement as a command; the number of rows that it changed. -/
def execute (db : CancellableDatabase ω) (t : CancelToken ω) (e : Expression)
    (kind : Option StatementKind := none) : Run ω Nat :=
  (db.under t).perform kind .affected (db.executor t).execute e

/-- Runs a statement as a query; its rows. -/
def rows (db : CancellableDatabase ω) (t : CancelToken ω) (e : Expression) : Run ω (List Row) :=
  (db.under t).perform (some .select) (fun rows => .rows rows.length)
    (fun s => do (← (db.executor t).query s).readAll) e

/-- Runs a statement as a query; the first value of its first line. -/
def scalar (db : CancellableDatabase ω) (t : CancelToken ω) (e : Expression)
    (kind : Option StatementKind := none) : Run ω Value :=
  (db.under t).perform kind (fun _ => .scalar) (db.executor t).scalar e

/-- Logs an event of the database. -/
def record (db : CancellableDatabase ω) (e : LogEvent) : Run ω Unit := .change (db.log e)

/-! ## Reading -/

/-- The rows of a query. -/
def selectRows (db : CancellableDatabase ω) (t : CancelToken ω) (q : Query) :
    Run ω (List Row) := do
  db.rows t (← q.select)

/-- The number of rows of a query. -/
def count (db : CancellableDatabase ω) (t : CancelToken ω) (q : Query) : Run ω Nat := do
  Database.countOf (← db.scalar t (← q.count none) (some .select))

/-! ## Writing rows -/

/-- Inserts a row. -/
def insert (db : CancellableDatabase ω) (t : CancelToken ω) (table : TableName) (r : Row) :
    Run ω Nat := do
  db.execute t (← (db.query table).insert r) (some .insert)

/-- Inserts a row; the value that the engine made for the key. -/
def insertKey (db : CancellableDatabase ω) (t : CancelToken ω) (table : TableName) (r : Row)
    (key : String) : Run ω Value := do
  db.scalar t (← (db.query table).insertKey r key) (some .insert)

/-- Inserts the rows that a query selects. -/
def insertSelected (db : CancellableDatabase ω) (t : CancelToken ω) (table : TableName)
    (source : Query) (columns : List String) : Run ω Nat := do
  db.execute t (← (db.query table).insertSelected source columns) (some .insert)

/-- Runs commands of one kind one after another; the number of rows that they changed. -/
def executeAll (db : CancellableDatabase ω) (t : CancelToken ω) (kind : StatementKind) :
    List Expression → Run ω Nat
  | [] => pure 0
  | e :: rest => do
    let n ← db.execute t e (some kind)
    let more ← db.executeAll t kind rest
    pure (n + more)

/-- Inserts many rows in batches, all of which are written before the first is sent. -/
def bulkInsert (db : CancellableDatabase ω) (t : CancelToken ω) (table : TableName)
    (rows : List Row) : Run ω Nat := do
  let q := db.query table
  q.checkBulk rows
  let statements ← (db.under t).writeBatches table.name (q.bulkBatches rows)
  db.executeAll t .insert statements

/-- Changes the rows of a query. -/
def update (db : CancellableDatabase ω) (t : CancelToken ω) (q : Query) (r : Row) :
    Run ω Nat := do
  db.execute t (← q.update r.cells) (some .update)

/-- Removes the rows of a query. -/
def delete (db : CancellableDatabase ω) (t : CancelToken ω) (q : Query) : Run ω Nat := do
  db.execute t (← q.delete) (some .delete)

/-- Inserts rows, or changes those that are there. -/
def upsertRows (db : CancellableDatabase ω) (t : CancelToken ω) (table : TableName)
    (rows : List Row) (u : Upsert) : Run ω Nat := do
  db.execute t (← (db.query table).upsert rows u) (some .upsert)

/-- Inserts a row, or changes the one that is there. -/
def upsert (db : CancellableDatabase ω) (t : CancelToken ω) (table : TableName) (r : Row)
    (u : Upsert) : Run ω Nat := do
  db.execute t (← (db.query table).upsert [r] u) (some .upsert)

/-! ## Writing records -/

/-- Inserts a record. A column made by the engine is read back into it. -/
def insertRecord (db : CancellableDatabase ω) (t : CancelToken ω) (e : Entity α) (a : α) :
    Run ω (Nat × α) := do
  let table := TableName.parse e.table
  match e.columns.find? (·.isGenerated) with
  | some c =>
    let key ← db.insertKey t table (e.insertRow a) c.name
    if key.isNull then pure (1, a)
    else
      let a ← c.assign key a
      pure (1, a)
  | none =>
    let n ← db.insert t table (e.insertRow a)
    pure (n, a)

/-- The query for the row of a record, found by the columns of the key. -/
def queryFor (db : CancellableDatabase ω) (m : Mapping α) (a : α) : Result Query := do
  let keys ← m.keyValues a
  pure (keys.foldl (fun q (name, v) => q.filter (.equals name v)) (db.queryOf m))

/-- Changes the row of a record. -/
def updateRecord (db : CancellableDatabase ω) (t : CancelToken ω) (e : Entity α) (a : α) :
    Run ω Nat := do
  db.update t (← db.queryFor e.toMapping a) (e.updateRow a)

/-- Removes the row of a record. -/
def deleteRecord (db : CancellableDatabase ω) (t : CancelToken ω) (e : Entity α) (a : α) :
    Run ω Nat := do
  db.delete t (← db.queryFor e.toMapping a)

/-! ## Tables -/

/-- Makes a table. -/
def createTable (db : CancellableDatabase ω) (t : CancelToken ω) (s : Schema) : Run ω Nat := do
  let e ← db.config.createTable s
  let d := db.config.dialect
  db.record (.createTable d (s.tableName d) s.columns.length)
  db.execute t e (some .ddl)

/-- There is a table of a name. -/
def tableExists (db : CancellableDatabase ω) (t : CancelToken ω) (name : String) :
    Run ω Bool := do
  let n ← Database.countOf (← db.scalar t (← db.config.tableExists name) (some .select))
  pure (decide (0 < n))

/-! ## Transactions -/

/-- Runs a body in a transaction: its changes stay where it succeeds, and are undone where it
fails. The failure of the body is what the caller learns. -/
def transaction (db : CancellableDatabase ω) (t : CancelToken ω) (body : Run ω α) :
    Run ω α := do
  db.record .begun
  (db.executor t).begin
  .step fun w =>
    match body w with
    | (.ok a, w) =>
      (do
        db.record .committed
        (db.executor t).commit
        pure a : Run ω α) w
    | (.error e, w) =>
      match (do db.record .rolledBack; (db.executor t).rollback : Run ω Unit) w with
      | (.ok (), w) => (.error e, w)
      | (.error failure, w) => (.error e, db.log (.rollbackFailed failure.message) w)

/-! ## Laws -/

end CancellableDatabase
end SqlWeave
