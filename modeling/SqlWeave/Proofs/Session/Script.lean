import SqlWeave.Proofs.Session.Trace

/-!
# What an operation does, apart from the database

An operation sends statements and logs events, and what it does next depends on the answers alone.
The options decide on the statements; executor, hooks and clock have no say in them. So an operation
is a *script*: a tree of statements with a branch for every answer. A database runs a script by
sending its statements.

Whatever holds of every script run on a database holds of every operation. Where foreign members are
loaded, the scripts of the two kinds of database differ: one loads them while records are completed
and the other ahead.

Results:
* `Script.run_bind`: scripts one after another are run one after another.
* `Operation.run_eq`, `Operation.runCancellable_eq`: every operation is its script.
* `Database.Agree.script`: databases that agree run a script alike.
-/

namespace SqlWeave

namespace Run

variable {ω ω' α β : Type}

/-- Goes on with the result of a run, be it a failure. -/
def resume (m : Run ω α) (f : Result α → Run ω β) : Run ω β := fun w => f (m w).1 (m w).2

/-- Runs that agree, one after another, whatever the result of the first. -/
theorem Agree.resume {R : ω → ω' → Prop} {m : Run ω α} {m' : Run ω' α}
    {f : Result α → Run ω β} {f' : Result α → Run ω' β} (h : Agree R m m')
    (hf : ∀ r, Agree R (f r) (f' r)) : Agree R (m.resume f) (m'.resume f') := by
  intro w w' hw
  obtain ⟨hr, hs⟩ := h w w' hw
  unfold Run.resume
  rw [← hr]
  exact hf _ _ _ hs

end Run

/-! ## Scripts -/

/-- The calls of an executor by which statements are sent. -/
inductive Channel where
  | execute
  | rows
  | scalar

namespace Channel

/-- What a call answers. -/
def Answer : Channel → Type
  | execute => Nat
  | rows => List Row
  | scalar => Value

/-- An answer as hooks are told it. -/
def outcome : (c : Channel) → c.Answer → Outcome
  | execute => Outcome.affected
  | rows => fun rs : List Row => .rows rs.length
  | scalar => fun _ => .scalar

end Channel

/-- Sends a statement by one of the calls. -/
def Executor.call {ω : Type} (x : Executor ω) : (c : Channel) → Statement → Run ω c.Answer
  | .execute => x.execute
  | .rows => fun s => do (← x.query s).readAll
  | .scalar => x.scalar

/-- Sends a statement by one of the calls, unless a hook stops it. -/
def Database.send {ω : Type} (db : Database ω) (c : Channel) (kind : Option StatementKind)
    (e : Expression) : Run ω c.Answer := db.perform kind c.outcome (db.executor.call c) e

/-- What is done on a database. -/
inductive Script (α : Type) where
  | done (r : Result α)
  /-- Sends a statement and goes on with what became of it. -/
  | send (c : Channel) (kind : Option StatementKind) (e : Expression)
    (next : Result c.Answer → Script α)
  | record (e : LogEvent) (next : Script α)

namespace Script

variable {ω ω' α β : Type}

/-- Goes on with the result of a script, be it a failure. -/
def resume : Script α → (Result α → Script β) → Script β
  | done r, f => f r
  | send c kind e next, f => send c kind e fun r => (next r).resume f
  | record e next, f => record e (next.resume f)

instance : Monad Script where
  pure a := done (.ok a)
  bind s f := s.resume fun
    | .ok a => f a
    | .error e => done (.error e)

instance : MonadLift (Except Error) Script := ⟨done⟩

/-- Does what a script says on a database. -/
def run (db : Database ω) : Script α → Run ω α
  | done r => .ofResult r
  | send c kind e next => (db.send c kind e).resume fun r => (next r).run db
  | record e next => fun w => next.run db (db.log e w)

/-- Sends a statement; the answer. -/
def sent (c : Channel) (kind : Option StatementKind) (e : Expression) : Script c.Answer :=
  send c kind e done

/-- Logs an event. -/
def note (e : LogEvent) : Script Unit := record e (pure ())

variable {db : Database ω}

theorem run_resume (s : Script α) (f : Result α → Script β) :
    (s.resume f).run db = (s.run db).resume fun r => (f r).run db := by
  funext w
  induction s generalizing w with
  | done r => rfl
  | send c kind e next ih => exact ih _ _
  | record e next ih => exact ih _

/-- **Scripts one after another are run one after another.** -/
theorem run_bind (s : Script α) (f : α → Script β) :
    (s >>= f).run db = s.run db >>= fun a => (f a).run db := by
  funext w
  refine (congrFun (run_resume s _) w).trans ?_
  rw [Run.bind_apply, Run.resume]
  rcases s.run db w with ⟨_ | a, w'⟩ <;> rfl

theorem run_note (e : LogEvent) : (note e).run db = db.record e := rfl

/-- A script is run alike where every statement is sent alike and every event is logged alike. -/
theorem run_congr (db db' : Database ω) (hs : ∀ c kind e, db.send c kind e = db'.send c kind e)
    (hl : db.log = db'.log) (s : Script α) : s.run db = s.run db' := by
  funext w
  induction s generalizing w with
  | done r => rfl
  | send c kind e next ih =>
    unfold run Run.resume
    rw [hs]
    exact ih _ _
  | record e next ih =>
    unfold run
    rw [hl]
    exact ih _

/-! ## Statements of one kind -/

/-- Sends a command, if it can be written. -/
def command (kind : StatementKind) (statement : Result Expression) : Script Nat := do
  sent .execute (some kind) (← statement)

/-- Sends a query for one value, if it can be written. -/
def value (kind : StatementKind) (statement : Result Expression) : Script Value := do
  sent .scalar (some kind) (← statement)

/-- Sends a selection, if it can be written; its rows. -/
def selectRows (q : Query) : Script (List Row) := do sent .rows (some .select) (← q.select)

theorem run_command (kind : StatementKind) (statement : Result Expression) :
    (command kind statement).run db =
      Run.ofResult statement >>= fun e => db.execute e (some kind) := run_bind _ _

theorem run_value (kind : StatementKind) (statement : Result Expression) :
    (value kind statement).run db =
      Run.ofResult statement >>= fun e => db.scalar e (some kind) := run_bind _ _

theorem run_selectRows (q : Query) : (selectRows q).run db = db.selectRows q := run_bind _ _

/-! ## Many rows -/

/-- Writes the statements of a bulk insert, up to the first that cannot be written. -/
def writeBatches (d : Dialect) (table : String) :
    List (List Row × Result Expression) → Script (List Expression)
  | [] => pure []
  | (rows, statement) :: rest => do
    let e ← statement
    note (.insertBatch d table rows.length e.values.length)
    let more ← writeBatches d table rest
    pure (e :: more)

/-- Sends commands of one kind one after another. -/
def executeAll (kind : StatementKind) : List Expression → Script Nat
  | [] => pure 0
  | e :: rest => do
    let n ← command kind (.ok e)
    let more ← executeAll kind rest
    pure (n + more)

/-- Inserts many rows in batches. -/
def bulkInsert (c : Config) (table : TableName) (rows : List Row) : Script Nat := do
  let q := Query.new table c
  q.checkBulk rows
  let statements ← writeBatches c.dialect table.name (q.bulkBatches rows)
  executeAll .insert statements

theorem run_writeBatches (table : String) : ∀ batches : List (List Row × Result Expression),
    (writeBatches db.config.dialect table batches).run db = db.writeBatches table batches
  | [] => rfl
  | (rows, statement) :: rest => by
    unfold writeBatches Database.writeBatches
    simp only [run_bind, run_note, run_writeBatches table rest]
    rfl

theorem run_executeAll (kind : StatementKind) : ∀ statements : List Expression,
    (executeAll kind statements).run db = db.executeAll kind statements
  | [] => rfl
  | e :: rest => by
    unfold executeAll Database.executeAll
    simp only [run_bind, run_command, run_executeAll kind rest]
    rfl

theorem run_bulkInsert (table : TableName) (rows : List Row) :
    (bulkInsert db.config table rows).run db = db.bulkInsert table rows := by
  unfold bulkInsert Database.bulkInsert
  simp only [run_bind, run_writeBatches, run_executeAll]
  rfl

/-! ## Records -/

/-- Inserts a record. -/
def insertRecord (c : Config) (e : Entity α) (a : α) : Script (Nat × α) :=
  let q := Query.new (.parse e.table) c
  match e.columns.find? (·.isGenerated) with
  | none => do
    let n ← command .insert (q.insert (e.insertRow a))
    pure (n, a)
  | some column => do
    let key ← value .insert (q.insertKey (e.insertRow a) column.name)
    if key.isNull then pure (1, a)
    else
      let a ← column.assign key a
      pure (1, a)

/-- The query for the row of a record. -/
def queryFor (c : Config) (m : Mapping α) (a : α) : Result Query := do
  let keys ← m.keyValues a
  pure (keys.foldl (fun q (name, v) => q.filter (.equals name v)) (.new (.parse m.table) c))

/-- Changes the row of a record. -/
def updateRecord (c : Config) (e : Entity α) (a : α) : Script Nat := do
  command .update ((← queryFor c e.toMapping a).update (e.updateRow a).cells)

/-- Removes the row of a record. -/
def deleteRecord (c : Config) (e : Entity α) (a : α) : Script Nat := do
  command .delete (← queryFor c e.toMapping a).delete

theorem run_insertRecord (e : Entity α) (a : α) :
    (insertRecord db.config e a).run db = db.insertRecord e a := by
  unfold insertRecord Database.insertRecord
  cases e.columns.find? (·.isGenerated) with
  | none =>
    simp only [run_bind, run_command]
    rfl
  | some column =>
    simp only [run_bind, run_value]
    refine congrArg (db.insertKey _ _ _ >>= ·) (funext fun key => ?_)
    split
    · rfl
    · exact run_bind _ _

theorem run_updateRecord (e : Entity α) (a : α) :
    (updateRecord db.config e a).run db = db.updateRecord e a := by
  unfold updateRecord
  simp only [run_bind, run_command]
  rfl

theorem run_deleteRecord (e : Entity α) (a : α) :
    (deleteRecord db.config e a).run db = db.deleteRecord e a := by
  unfold deleteRecord
  simp only [run_bind, run_command]
  rfl

/-! ## Counts -/

/-- Asks for a number. -/
def number (statement : Result Expression) : Script Nat := do
  Database.countOf (← value .select statement)

/-- Asks whether there is a table. -/
def tableExists (c : Config) (name : String) : Script Bool := do
  let n ← number (c.tableExists name)
  pure (decide (0 < n))

theorem run_number (statement : Result Expression) :
    (number statement).run db =
      Run.ofResult statement >>= fun e => db.scalar e (some .select) >>= fun v =>
        Run.ofResult (Database.countOf v) := by
  unfold number
  rw [run_bind, run_value, bind_assoc]
  rfl

theorem run_tableExists (name : String) :
    (tableExists db.config name).run db = db.tableExists name := by
  unfold tableExists Database.tableExists
  simp only [run_bind, run_number, bind_assoc]
  rfl

/-! ## Foreign members -/

/-- Loads the rows for a request, unless they are kept; the cache that is left. -/
def load (c : Config) (r : ForeignRequest) (k : ForeignCache) : Script (List Row × ForeignCache) :=
  match k.find? r with
  | some rows => pure (rows, k)
  | none => do
    let rows ← selectRows (r.query c)
    pure (rows, k.insert r rows)

/-- Loads pending members in their order and attaches them to their owners. -/
def attachAll (c : Config) (e : Entity α) :
    List Pending → List α → ForeignCache → Script (List α)
  | [], records, _ => pure records
  | p :: rest, records, k =>
    match e.foreign[p.member]?, records[p.owner]? with
    | some f, some a => do
      let (rows, k) ← load c (← Entity.request f p.key) k
      let a ← f.attach rows a
      attachAll c e rest (records.set p.owner a) k
    | _, _ => attachAll c e rest records k

/-- Loads the rows of all pending members. -/
def loadAhead (c : Config) (e : Entity α) : List Pending → ForeignCache → Script ForeignCache
  | [], k => pure k
  | p :: rest, k =>
    match e.foreign[p.member]? with
    | none => loadAhead c e rest k
    | some f => do
      let (_, k) ← load c (← Entity.request f p.key) k
      loadAhead c e rest k

/-- The records that have all their pending members among the rows kept. -/
def attachKept (e : Entity α) (k : ForeignCache) (pending : List Pending) (records : List α) :
    Script (List α) := done (e.attachAll k.source pending records ()).1

/-- The records of a query, with foreign members where the options ask for them: loaded one after
another, or all of them ahead. -/
def select (c : Config) (ahead : Bool) (e : Entity α) (q : Query) : Script (List α) := do
  let rows ← selectRows q
  let (records, pending) ← e.readRows none 0 (rows.map .ok)
  if c.loadForeign then
    if ahead then
      let k ← loadAhead c e pending {}
      attachKept e k pending records
    else attachAll c e pending records {}
  else pure records

/-- A request is served as it is from a cache beside the state. -/
theorem run_load (r : ForeignRequest) (k : ForeignCache) (w : ω) :
    (load db.config r k).run db w =
      ((db.foreignSource r (k, w)).1.map fun rows => (rows, (db.foreignSource r (k, w)).2.1),
        (db.foreignSource r (k, w)).2.2) := by
  unfold load
  obtain ⟨rows, hk, hs⟩ | ⟨rows, w', hk, hq, hs⟩ | ⟨err, w', hk, hq, hs⟩ :=
    db.foreignSource_cases r k w <;> rw [hk, hs]
  · rfl
  · rw [run_bind, run_selectRows, Run.bind_of_ok hq]
    rfl
  · rw [run_bind, run_selectRows, Run.bind_of_error hq]
    rfl

theorem run_load_of_ok {r : ForeignRequest} {k k' : ForeignCache} {w w' : ω} {rows : List Row}
    (h : db.foreignSource r (k, w) = (.ok rows, k', w')) :
    (load db.config r k).run db w = (.ok (rows, k'), w') := by
  rw [run_load, h]
  rfl

theorem run_load_of_error {r : ForeignRequest} {k k' : ForeignCache} {w w' : ω} {err : Error}
    (h : db.foreignSource r (k, w) = (.error err, k', w')) :
    (load db.config r k).run db w = (.error err, w') := by
  rw [run_load, h]
  rfl

/-- Members are attached as they are from a cache beside the state. -/
theorem run_attachAll (e : Entity α) :
    ∀ (pending : List Pending) (records : List α) (k : ForeignCache) (w : ω),
      (attachAll db.config e pending records k).run db w =
        ((e.attachAll db.foreignSource pending records (k, w)).1,
          (e.attachAll db.foreignSource pending records (k, w)).2.2)
  | [], _, _, _ => rfl
  | p :: rest, records, k, w => by
    have skip (h : e.resolveOne db.foreignSource p records (k, w) = (.ok records, k, w)) :
        (attachAll db.config e rest records k).run db w =
          ((e.attachAll db.foreignSource (p :: rest) records (k, w)).1,
            (e.attachAll db.foreignSource (p :: rest) records (k, w)).2.2) := by
      rw [run_attachAll e rest]
      unfold Entity.attachAll
      rw [Entity.resolve_cons_of_ok h]
    unfold attachAll
    cases hf : e.foreign[p.member]? with
    | none => exact skip (by rw [Entity.resolveOne_of_none hf]; rfl)
    | some f =>
      cases ha : records[p.owner]? with
      | none => exact skip (by unfold Entity.resolveOne; rw [hf, ha]; rfl)
      | some a =>
        dsimp only
        rw [run_bind]
        cases hr : Entity.request f p.key with
        | error err =>
          have hone : e.resolveOne db.foreignSource p records (k, w) = (.error err, k, w) :=
            Entity.resolveOne_of_request_error hf ha hr
          rw [Entity.attachAll_of_error (Entity.resolve_cons_of_error hone)]
          rfl
        | ok r =>
          refine (congrFun (run_bind (load db.config r k) _) w).trans ?_
          rcases hs : db.foreignSource r (k, w) with ⟨err | rows, k', w'⟩
          · have hone := Entity.resolveOne_of_error hf ha hr hs
            rw [Run.bind_of_error (run_load_of_error hs),
              Entity.attachAll_of_error (Entity.resolve_cons_of_error hone)]
          · have hone := Entity.resolveOne_of_ok hf ha hr hs
            rw [Run.bind_of_ok (run_load_of_ok hs)]
            refine (congrFun (run_bind (done (f.attach rows a)) _) w').trans ?_
            unfold Entity.attachAll
            cases hat : f.attach rows a with
            | error err =>
              rw [hat] at hone
              rw [Entity.resolve_cons_of_error hone]
              rfl
            | ok a' =>
              rw [hat] at hone
              rw [Entity.resolve_cons_of_ok hone]
              exact run_attachAll e rest _ _ _

theorem run_loadAhead (e : Entity α) : ∀ (pending : List Pending) (k : ForeignCache) (w : ω),
    (loadAhead db.config e pending k).run db w = db.loadAhead e pending k w
  | [], _, _ => rfl
  | p :: rest, k, w => by
    unfold loadAhead
    cases hf : e.foreign[p.member]? with
    | none =>
      rw [Database.loadAhead_of_none hf]
      exact run_loadAhead e rest k w
    | some f =>
      dsimp only
      rw [run_bind]
      cases hr : Entity.request f p.key with
      | error err =>
        rw [Database.loadAhead_of_request_error hf hr]
        rfl
      | ok r =>
        refine (congrFun (run_bind (load db.config r k) _) w).trans ?_
        rcases hs : db.foreignSource r (k, w) with ⟨err | rows, k', w'⟩
        · rw [Run.bind_of_error (run_load_of_error hs), Database.loadAhead_of_error hf hr hs]
        · rw [Run.bind_of_ok (run_load_of_ok hs), Database.loadAhead_of_ok hf hr hs]
          exact run_loadAhead e rest k' w'

/-- Attaching rows that are kept leaves the state as it is. -/
theorem run_attachKept (e : Entity α) (k : ForeignCache) (pending : List Pending)
    (records : List α) :
    (attachKept e k pending records).run db = e.attachAll k.source pending records := by
  funext w
  obtain ⟨hr, hs⟩ := e.agree_attachAll (R := fun (_ : Unit) w' => w' = w)
    (fun r => Run.agree_pure ((k.find? r).getD [])) pending records () w rfl
  exact Prod.ext hr hs.symm

theorem run_select (e : Entity α) (q : Query) :
    (select db.config false e q).run db = db.select e q := by
  unfold select Database.select Database.readRecords
  rw [run_bind, run_selectRows, bind_assoc]
  refine congrArg (db.selectRows q >>= ·) (funext fun rows => (run_bind _ _).trans ?_)
  refine congrArg (Run.ofResult _ >>= ·) (funext fun ⟨records, pending⟩ => ?_)
  dsimp only
  cases db.config.loadForeign with
  | false => rfl
  | true =>
    funext w
    exact run_attachAll e pending records {} w

theorem run_selectAhead (e : Entity α) (q : Query) :
    (select db.config true e q).run db = db.selectAhead e q := by
  unfold select Database.selectAhead Database.readRecords
  rw [run_bind, run_selectRows, bind_assoc]
  refine congrArg (db.selectRows q >>= ·) (funext fun rows => (run_bind _ _).trans ?_)
  refine congrArg (Run.ofResult _ >>= ·) (funext fun ⟨records, pending⟩ => ?_)
  dsimp only
  cases db.config.loadForeign with
  | false => rfl
  | true =>
    refine (run_bind _ _).trans ?_
    simp only [run_attachKept]
    exact congrArg (· >>= _) (funext fun w => run_loadAhead e pending {} w)

end Script

/-! ## Operations -/

namespace Operation

variable {ω α : Type}

open Script in
/-- What an operation does under some options. Foreign members may be loaded ahead. -/
def script (c : Config) (ahead : Bool) : {α : Type} → Operation α → Script α
  | _, execute e => sent .execute none e
  | _, rows e => sent .rows (some .select) e
  | _, scalar e => sent .scalar none e
  | _, selectRows q => Script.selectRows q
  | _, select e q => Script.select c ahead e q
  | _, selectAll e => Script.select c ahead e (.new (.parse e.table) c)
  | _, count q => number (q.count none)
  | _, insert table r => command .insert ((Query.new table c).insert r)
  | _, insertKey table r key => value .insert ((Query.new table c).insertKey r key)
  | _, insertRecord e a => Script.insertRecord c e a
  | _, insertSelected table source columns =>
    command .insert ((Query.new table c).insertSelected source columns)
  | _, bulkInsert table rs => Script.bulkInsert c table rs
  | _, update q r => command .update (q.update r.cells)
  | _, updateRecord e a => Script.updateRecord c e a
  | _, delete q => command .delete q.delete
  | _, deleteRecord e a => Script.deleteRecord c e a
  | _, upsert table r u => command .upsert ((Query.new table c).upsert [r] u)
  | _, upsertRows table rs u => command .upsert ((Query.new table c).upsert rs u)
  | _, createTable s => do
    let e ← c.createTable s
    note (.createTable c.dialect (s.tableName c.dialect) s.columns.length)
    sent .execute (some .ddl) e
  | _, tableExists name => Script.tableExists c name

/-- **An operation is its script.** -/
theorem run_eq (db : Database ω) (o : Operation α) :
    o.run db = (o.script db.config false).run db := by
  symm
  cases o with
  | selectRows q => exact Script.run_selectRows q
  | select e q => exact Script.run_select e q
  | selectAll e => exact Script.run_select e _
  | count q => exact Script.run_number _
  | insertRecord e a => exact Script.run_insertRecord e a
  | bulkInsert table rs => exact Script.run_bulkInsert table rs
  | updateRecord e a => exact Script.run_updateRecord e a
  | deleteRecord e a => exact Script.run_deleteRecord e a
  | insertKey table r key => exact Script.run_value _ _
  | createTable s =>
    simp only [script, run, Database.createTable]
    -- the statement is kept whole
    generalize db.config.createTable s = statement
    exact Script.run_bind (.done statement) _
  | tableExists name => exact Script.run_tableExists name
  | execute e => rfl
  | rows e => rfl
  | scalar e => rfl
  | _ => exact Script.run_command _ _

/-- **An operation with a token is its script**, on the database that holds the token. -/
theorem runCancellable_eq (db : CancellableDatabase ω) (t : CancelToken ω) (o : Operation α) :
    o.runCancellable db t = (o.script db.config true).run (db.under t) := by
  have same (h : o.runCancellable db t = o.run (db.under t))
      (hs : o.script db.config true = o.script db.config false) :
      o.runCancellable db t = (o.script db.config true).run (db.under t) := by
    rw [h, hs]
    exact o.run_eq (db.under t)
  cases o with
  | select e q => exact (Script.run_selectAhead e q).symm
  | selectAll e => exact (Script.run_selectAhead e _).symm
  | insertRecord e a => exact same (db.insertRecord_under t e a) rfl
  | bulkInsert table rs => exact same (db.bulkInsert_under t table rs) rfl
  | createTable s =>
    refine same ?_ rfl
    have hconfig : (db.under t).config = db.config := rfl
    simp only [runCancellable, run, CancellableDatabase.createTable, Database.createTable, hconfig]
    generalize db.config.createTable s = statement
    rfl
  | _ => exact same rfl rfl

end Operation

namespace Database.Agree

variable {ω ω' α : Type} {R : ω → ω' → Prop} {D : Nat → Nat → Prop} {db : Database ω}
  {db' : Database ω'} (h : db.Agree R D db')
include h

theorem send (c : Channel) (kind : Option StatementKind) (e : Expression) :
    Run.Agree R (db.send c kind e) (db'.send c kind e) := by
  refine h.perform (fun s => ?_) kind e
  cases c with
  | execute => exact h.execute s
  | rows => exact (h.query s).bind fun cursor => Run.agree_ofResult cursor.readAll
  | scalar => exact h.scalar s

/-- **Databases that agree run a script alike.** -/
theorem script (s : Script α) : Run.Agree R (s.run db) (s.run db') := by
  intro w w' hw
  induction s generalizing w w' with
  | done r => exact ⟨rfl, hw⟩
  | send c kind e next ih =>
    exact (h.send c kind e).resume (fun r w w' => ih r w w') w w' hw
  | record e next ih => exact ih _ _ (h.log e w w' hw)

end Database.Agree
end SqlWeave
