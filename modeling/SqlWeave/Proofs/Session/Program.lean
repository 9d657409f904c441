import SqlWeave.Proofs.Session.Script
import SqlWeave.Session.Tape

/-!
# Programs of operations

A program does operations on a database one after another, each chosen by the results before it, and
brackets some of them in transactions, nested to any depth. What it does with a failure is its own
affair: it may go on. Programs are trees, so every program ends.

A database and one whose calls can be cancelled differ in their operations and in how a transaction
is begun and ended. A *facade* is what a program needs of either: how an operation, a direct call
for a transaction and a bracketed body are run. Tokens stand in a program under names.

Results:
* `DirectOperation.run_eq`: the operations that only a database without tokens has are scripts too.
* `Database.facade_eq`, `CancellableDatabase.facade_eq`: both facades run scripts and bracket bodies
  in the same way.
* `Program.agree_run`: a program is run alike on databases that agree.
-/

namespace SqlWeave

/-! ## Operations of a database without tokens -/

/-- An operation on a database whose calls take no token. -/
inductive DirectOperation : Type → Type 1 where
  | shared {α : Type} (o : Operation α) : DirectOperation α
  | bulkInsertRecords {α : Type} (e : Entity α) (records : List α) : DirectOperation Nat
  | deleteJoined (q : Query) : DirectOperation Nat
  | dropTable (name : String) : DirectOperation Nat
  /-- Serves a request for foreign rows from a cache or by its query, and leaves a cache. -/
  | serve (r : ForeignRequest) (k : ForeignCache) :
    DirectOperation (Result (List Row) × ForeignCache)

/-- Serves a request for foreign rows; where its query fails, the cache stays as it is. -/
def Script.serve (c : Config) (r : ForeignRequest) (k : ForeignCache) :
    Script (Result (List Row) × ForeignCache) :=
  match k.find? r with
  | some rows => pure (.ok rows, k)
  | none => (selectRows (r.query c)).resume fun
    | .ok rows => pure (.ok rows, k.insert r rows)
    | .error e => pure (.error e, k)

/-- Serves a request for foreign rows from a cache or by its query. -/
def Database.serveFrom {ω : Type} (db : Database ω) (k : ForeignCache) (r : ForeignRequest) :
    Run ω (Result (List Row) × ForeignCache) := fun w =>
  let (rows, k, w) := db.foreignSource r (k, w)
  (.ok (rows, k), w)

theorem Script.run_serve {ω : Type} (db : Database ω) (r : ForeignRequest) (k : ForeignCache) :
    (serve db.config r k).run db = db.serveFrom k r := by
  funext w
  unfold serve Database.serveFrom
  obtain ⟨rows, hk, hs⟩ | ⟨rows, w', hk, hq, hs⟩ | ⟨err, w', hk, hq, hs⟩ :=
    db.foreignSource_cases r k w <;> rw [hk, hs]
  · rfl
  · rw [run_resume, run_selectRows, Run.resume, hq]
    rfl
  · rw [run_resume, run_selectRows, Run.resume, hq]
    rfl

namespace DirectOperation

variable {ω α : Type}

/-- An operation on a database. -/
def run (db : Database ω) : {α : Type} → DirectOperation α → Run ω α
  | _, shared o => o.run db
  | _, bulkInsertRecords e records => db.bulkInsertRecords e records
  | _, deleteJoined q => db.deleteJoined q
  | _, dropTable name => db.dropTable name
  | _, serve r k => db.serveFrom k r

/-- What an operation does under some options. -/
def script (c : Config) : {α : Type} → DirectOperation α → Script α
  | _, shared o => o.script c false
  | _, bulkInsertRecords e records =>
    Script.bulkInsert c (.parse e.table) (records.map e.insertRow)
  | _, deleteJoined q => Script.command .delete q.deleteJoined
  | _, dropTable name => Script.command .ddl (c.dropTable name)
  | _, serve r k => Script.serve c r k

/-- **An operation is its script.** -/
theorem run_eq (db : Database ω) (o : DirectOperation α) :
    o.run db = (o.script db.config).run db := by
  symm
  cases o with
  | shared o => exact (o.run_eq db).symm
  | bulkInsertRecords e records => exact Script.run_bulkInsert _ _
  | deleteJoined q => exact Script.run_command _ _
  | dropTable name => exact Script.run_command _ _
  | serve r k => exact Script.run_serve db r k

end DirectOperation

/-! ## Programs -/

/-- A program of operations. `τ` has names for tokens and `κ` for direct calls for transactions. -/
inductive Program (τ κ : Type) (Op : Type → Type 1) : Type → Type 1 where
  | done {α : Type} (r : Result α) : Program τ κ Op α
  | operation {α β : Type} (t : τ) (o : Op β) (next : Result β → Program τ κ Op α) :
    Program τ κ Op α
  | call {α : Type} (t : τ) (c : κ) (next : Result Unit → Program τ κ Op α) : Program τ κ Op α
  | transaction {α β : Type} (t : τ) (body : Program τ κ Op β)
    (next : Result β → Program τ κ Op α) : Program τ κ Op α

/-- What a program is run on. -/
structure Facade (ω τ κ : Type) (Op : Type → Type 1) where
  operation : {α : Type} → τ → Op α → Run ω α
  call : τ → κ → Run ω Unit
  transaction : {α : Type} → τ → Run ω α → Run ω α

/-- Runs a program. -/
def Program.run {ω τ κ : Type} {Op : Type → Type 1} (f : Facade ω τ κ Op) :
    {α : Type} → Program τ κ Op α → Run ω α
  | _, done r => .ofResult r
  | _, operation t o next => (f.operation t o).resume fun r => (next r).run f
  | _, call t c next => (f.call t c).resume fun r => (next r).run f
  | _, transaction t body next => (f.transaction t (body.run f)).resume fun r => (next r).run f

/-! ## Facades -/

/-- A call for a transaction. -/
def Database.call {ω : Type} (db : Database ω) : TransactionCall → Run ω Unit
  | .begin => db.begin
  | .commit => db.commit
  | .rollback => db.rollback

/-- A database as programs see it. -/
def Database.facade {ω κ : Type} (db : Database ω) (calls : κ → TransactionCall) :
    Facade ω Unit κ DirectOperation where
  operation _ o := o.run db
  call _ c := db.call (calls c)
  transaction _ body := db.transaction body

/-- A database whose calls can be cancelled as programs see it. It has no direct calls for
transactions. -/
def CancellableDatabase.facade {ω τ : Type} (db : CancellableDatabase ω)
    (token : τ → CancelToken ω) : Facade ω τ Empty Operation where
  operation t o := o.runCancellable db (token t)
  call _ c := nomatch c
  transaction t body := db.transaction (token t) body

namespace Facade

variable {ω τ κ : Type} {Op : Type → Type 1}

/-- The facade that runs scripts and brackets bodies on databases, one for each token. -/
def ofScripts (dbs : τ → Database ω) (script : {α : Type} → Op α → Script α)
    (calls : κ → TransactionCall) : Facade ω τ κ Op where
  operation t o := (script o).run (dbs t)
  call t c := (dbs t).call (calls c)
  transaction t body := (dbs t).transaction body

end Facade

/-- **A database runs scripts.** -/
theorem Database.facade_eq {ω κ : Type} (db : Database ω) (calls : κ → TransactionCall) :
    db.facade calls =
      .ofScripts (fun _ => db) (fun o => DirectOperation.script db.config o) calls := by
  unfold facade Facade.ofScripts
  simp only [DirectOperation.run_eq]

/-- **A database whose calls can be cancelled runs scripts**, each on the database that holds the
token. -/
theorem CancellableDatabase.facade_eq {ω τ : Type} (db : CancellableDatabase ω)
    (token : τ → CancelToken ω) :
    db.facade token =
      .ofScripts (fun t => db.under (token t)) (fun o => Operation.script db.config true o)
        Empty.elim := by
  unfold facade Facade.ofScripts
  simp only [Operation.runCancellable_eq, transaction_under]
  congr
  funext t c
  exact c.elim

/-! ## Programs on databases that agree -/

theorem Database.Agree.call {ω ω' : Type} {R : ω → ω' → Prop} {D : Nat → Nat → Prop}
    {db : Database ω} {db' : Database ω'} (h : db.Agree R D db') (c : TransactionCall) :
    Run.Agree R (db.call c) (db'.call c) := by
  cases c with
  | begin => exact h.begin_run
  | commit => exact h.commit_run
  | rollback => exact h.rollback_run

/-- **A program is run alike on databases that agree.** -/
theorem Program.agree_run {ω ω' τ κ α : Type} {Op : Type → Type 1} {R : ω → ω' → Prop}
    {D : Nat → Nat → Prop} {dbs : τ → Database ω} {dbs' : τ → Database ω'}
    (h : ∀ t, (dbs t).Agree R D (dbs' t)) (script : {α : Type} → Op α → Script α)
    (calls : κ → TransactionCall) (p : Program τ κ Op α) :
    Run.Agree R (p.run (.ofScripts dbs script calls)) (p.run (.ofScripts dbs' script calls)) := by
  induction p with
  | done r => exact Run.agree_ofResult r
  | operation t o next ih => exact ((h t).script (script o)).resume ih
  | call t c next ih => exact ((h t).call (calls c)).resume ih
  | transaction t body next ihb ih => exact ((h t).transaction ihb).resume ih

end SqlWeave
