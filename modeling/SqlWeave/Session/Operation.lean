import SqlWeave.Session.Cancellable

/-!
# Operations

The operations that a database has whether its calls can be cancelled or not, each with what it is
given. An operation can be run on either kind of database.
-/

namespace SqlWeave

/-- An operation on a database, by the type of its result. -/
inductive Operation : Type → Type 1 where
  /-- Runs a statement as a command. -/
  | execute (e : Expression) : Operation Nat
  /-- Runs a statement as a query. -/
  | rows (e : Expression) : Operation (List Row)
  /-- Runs a statement as a query for one value. -/
  | scalar (e : Expression) : Operation Value
  | selectRows (q : Query) : Operation (List Row)
  | select {α : Type} (e : Entity α) (q : Query) : Operation (List α)
  | selectAll {α : Type} (e : Entity α) : Operation (List α)
  | count (q : Query) : Operation Nat
  | insert (table : TableName) (r : Row) : Operation Nat
  | insertKey (table : TableName) (r : Row) (key : String) : Operation Value
  | insertRecord {α : Type} (e : Entity α) (a : α) : Operation (Nat × α)
  | insertSelected (table : TableName) (source : Query) (columns : List String) : Operation Nat
  | bulkInsert (table : TableName) (rows : List Row) : Operation Nat
  | update (q : Query) (r : Row) : Operation Nat
  | updateRecord {α : Type} (e : Entity α) (a : α) : Operation Nat
  | delete (q : Query) : Operation Nat
  | deleteRecord {α : Type} (e : Entity α) (a : α) : Operation Nat
  | upsert (table : TableName) (r : Row) (u : Upsert) : Operation Nat
  | upsertRows (table : TableName) (rows : List Row) (u : Upsert) : Operation Nat
  | createTable (s : Schema) : Operation Nat
  | tableExists (name : String) : Operation Bool

namespace Operation

variable {ω α : Type}

/-- An operation on a database. -/
def run (db : Database ω) : {α : Type} → Operation α → Run ω α
  | _, execute e => db.execute e
  | _, rows e => db.rows e
  | _, scalar e => db.scalar e
  | _, selectRows q => db.selectRows q
  | _, select e q => db.select e q
  | _, selectAll e => db.selectAll e
  | _, count q => db.count q
  | _, insert table r => db.insert table r
  | _, insertKey table r key => db.insertKey table r key
  | _, insertRecord e a => db.insertRecord e a
  | _, insertSelected table source columns => db.insertSelected table source columns
  | _, bulkInsert table rs => db.bulkInsert table rs
  | _, update q r => db.update q r
  | _, updateRecord e a => db.updateRecord e a
  | _, delete q => db.delete q
  | _, deleteRecord e a => db.deleteRecord e a
  | _, upsert table r u => db.upsert table [r] u
  | _, upsertRows table rs u => db.upsert table rs u
  | _, createTable s => db.createTable s
  | _, tableExists name => db.tableExists name

/-- An operation on a database whose calls can be cancelled. -/
def runCancellable (db : CancellableDatabase ω) (t : CancelToken ω) :
    {α : Type} → Operation α → Run ω α
  | _, execute e => db.execute t e
  | _, rows e => db.rows t e
  | _, scalar e => db.scalar t e
  | _, selectRows q => db.selectRows t q
  | _, select e q => db.select t e q
  | _, selectAll e => db.selectAll t e
  | _, count q => db.count t q
  | _, insert table r => db.insert t table r
  | _, insertKey table r key => db.insertKey t table r key
  | _, insertRecord e a => db.insertRecord t e a
  | _, insertSelected table source columns => db.insertSelected t table source columns
  | _, bulkInsert table rs => db.bulkInsert t table rs
  | _, update q r => db.update t q r
  | _, updateRecord e a => db.updateRecord t e a
  | _, delete q => db.delete t q
  | _, deleteRecord e a => db.deleteRecord t e a
  | _, upsert table r u => db.upsert t table r u
  | _, upsertRows table rs u => db.upsertRows t table rs u
  | _, createTable s => db.createTable t s
  | _, tableExists name => db.tableExists t name

/-- The operation loads foreign members under some options. -/
def loads (c : Config) : {α : Type} → Operation α → Bool
  | _, select _ _ | _, selectAll _ => c.loadForeign
  | _, _ => false

end Operation
end SqlWeave
