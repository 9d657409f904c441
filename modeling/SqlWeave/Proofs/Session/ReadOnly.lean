import SqlWeave.Proofs.Template.Opening
import SqlWeave.Session.Database
import SqlWeave.Session.Tape

/-!
# Hooks that let only queries pass

A hook sees of a statement which kind it has, and the kind is read off the first word. A connection
is kept read-only by a hook that stops every kind but queries. That works for each statement that
changes rows or tables, whichever hooks were asked before, since its first word is the keyword of
another kind; with one exception. SQL Server makes a table of the rows of a query by a SELECT.

Results:
* `StatementKind.ofSql_keyword`: a statement that begins with a keyword has its kind.
* `Change.begins_word`: every statement of a change begins with the change's word.
* `Hook.ask_of_onlyQueries`: among any hooks, one that lets only queries pass stops all others.
* `Change.stopped_iff`: which changes a read-only connection stops.
* `Sample.copyNotes_passes`: one that it does not.
-/

namespace SqlWeave

/-! ## Keywords -/

namespace StatementKind

/-- **A statement that begins with a keyword has the keyword's kind.** An INSERT may say what to do
with a key that is there. -/
theorem ofSql_keyword {word : String} {kind : StatementKind} (h : (word, kind) ∈ keywords)
    (rest : String) :
    ofSql (word ++ " " ++ rest) =
      if word = "INSERT" ∧ handlesConflicts (word ++ " " ++ rest).toList then upsert else kind := by
  have htext : (word ++ " " ++ rest).toList = word.toList ++ ' ' :: rest.toList := by
    rw [String.toList_append, String.toList_append, List.append_assoc]
    rfl
  unfold ofSql
  rw [htext]
  simp only [keywords, List.mem_cons, List.not_mem_nil, or_false, Prod.mk.injEq] at h
  -- no keyword is the beginning of another one, so each is found at its own place
  rcases h with ⟨rfl, rfl⟩ | ⟨rfl, rfl⟩ | ⟨rfl, rfl⟩ | ⟨rfl, rfl⟩ | ⟨rfl, rfl⟩ | ⟨rfl, rfl⟩ |
    ⟨rfl, rfl⟩ | ⟨rfl, rfl⟩ | ⟨rfl, rfl⟩ | ⟨rfl, rfl⟩ <;> rfl

/-- Of all keywords only SELECT is that of queries. -/
theorem ofSql_eq_select_iff {word : String} (h : word ∈ keywords.map Prod.fst) (rest : String) :
    ofSql (word ++ " " ++ rest) = select ↔ word = "SELECT" := by
  obtain ⟨⟨word, kind⟩, hk, rfl⟩ := List.mem_map.mp h
  have hkind : kind = select ↔ word = "SELECT" :=
    (by decide : ∀ k ∈ keywords, k.2 = select ↔ k.1 = "SELECT") _ hk
  rw [ofSql_keyword hk]
  split
  · next hinsert => simp [hinsert.1]
  · exact hkind

end StatementKind

/-! ## Changes -/

/-- The statements that change rows or tables, as they are asked for. -/
inductive Change where
  | insert (q : Query) (r : Row)
  | insertKey (q : Query) (r : Row) (key : String)
  | insertSelected (q source : Query) (columns : List String)
  | bulkInsert (q : Query) (rows : List Row)
  | update (q : Query) (cells : List Cell)
  | delete (q : Query)
  | deleteJoined (q : Query)
  | upsert (q : Query) (rows : List Row) (u : Upsert)
  | createTable (c : Config) (s : Schema)
  | createTableFrom (c : Config) (name : String) (source : Query)
  | dropTable (c : Config) (name : String)
  | truncateTable (c : Config) (name : String)
  | addConstraint (c : Config) (k : Constraint)
  | dropConstraint (c : Config) (table name : String)
  | createIndex (c : Config) (i : Index)
  | dropIndex (c : Config) (table name : String)

namespace Change

/-- The statements of a change; a bulk insert may have several. -/
def statements : Change → Result (List Expression)
  | insert q r => (q.insert r).map ([·])
  | insertKey q r key => (q.insertKey r key).map ([·])
  | insertSelected q source columns => (q.insertSelected source columns).map ([·])
  | bulkInsert q rows => q.bulkInsert rows
  | update q cells => (q.update cells).map ([·])
  | delete q => q.delete.map ([·])
  | deleteJoined q => q.deleteJoined.map ([·])
  | upsert q rows u => (q.upsert rows u).map ([·])
  | createTable c s => (c.createTable s).map ([·])
  | createTableFrom c name source => (c.createTableFrom name source).map ([·])
  | dropTable c name => (c.dropTable name).map ([·])
  | truncateTable c name => (c.truncateTable name).map ([·])
  | addConstraint c k => (c.addConstraint k).map ([·])
  | dropConstraint c table name => (c.dropConstraint table name).map ([·])
  | createIndex c i => (c.createIndex i).map ([·])
  | dropIndex c table name => (c.dropIndex table name).map ([·])

/-- The word that the statements of a change begin with. -/
def word : Change → String
  | insert .. | insertKey .. | insertSelected .. => "INSERT"
  | bulkInsert q _ => q.batchWord
  | update .. => "UPDATE"
  | delete _ | deleteJoined _ => "DELETE"
  | upsert q _ _ => q.upsertWord
  | createTable .. | createIndex .. => "CREATE"
  | createTableFrom c _ _ => Config.copyWord c.dialect
  | dropTable .. | dropIndex .. => "DROP"
  | truncateTable c _ => Config.truncateWord c.dialect
  | addConstraint .. | dropConstraint .. => "ALTER"

/-- The change makes a table by a SELECT. -/
def selectsInto : Change → Bool
  | createTableFrom c _ _ => c.dialect = .sqlServer
  | _ => false

/-- The word of a change is a keyword, and that of queries only where a SELECT makes the table. -/
theorem word_spec (c : Change) : c.word ∈ StatementKind.keywords.map Prod.fst ∧
    (c.word = "SELECT" ↔ c.selectsInto = true) := by
  cases c with
  | bulkInsert q rows =>
    dsimp only [word, selectsInto, Query.batchWord]
    cases q.dialect <;> decide
  | upsert q rows u =>
    dsimp only [word, selectsInto, Query.upsertWord]
    cases q.dialect <;> decide
  | createTableFrom c name source =>
    dsimp only [word, selectsInto, Config.copyWord]
    cases c.dialect <;> decide
  | truncateTable c name =>
    dsimp only [word, selectsInto, Config.truncateWord]
    cases c.dialect <;> decide
  | _ =>
    dsimp only [word, selectsInto]
    decide

/-- **Every statement of a change begins with its word.** -/
theorem begins_word (c : Change) {es : List Expression} (h : c.statements = .ok es)
    {e : Expression} (he : e ∈ es) : e.Begins (c.word ++ " ") := by
  have single : ∀ {r : Result Expression}, r.map ([·]) = .ok es → r = .ok e := by
    intro r hr
    obtain ⟨x, hx, rfl⟩ := map_eq_ok_iff.mp hr
    rw [hx, List.mem_singleton.mp he]
  cases c with
  | insert q r => exact (q.opens_insertPhrase r).begins (single h)
  | insertKey q r key => exact (q.opens_insertKeyPhrase r key).begins (single h)
  | insertSelected q source columns =>
    exact (q.opens_insertSelectedPhrase source columns).begins (single h)
  | bulkInsert q rows =>
    obtain ⟨batch, -, hb⟩ := exists_batch_of_mem_bulkInsert h he
    exact (q.opens_batchPhrase batch).begins hb
  | update q cells => exact (q.opens_updatePhrase cells).begins (single h)
  | delete q => exact q.opens_deletePhrase.begins (single h)
  | deleteJoined q => exact q.opens_deleteJoinedPhrase.begins (single h)
  | upsert q rows u => exact (q.opens_upsertPhrase rows u).begins (single h)
  | createTable c s => exact Config.begins_createTable (single (r := c.createTable s) h)
  | createTableFrom c name source => exact Config.begins_createTableFrom (single h)
  | dropTable c name => exact Config.begins_dropTable (single h)
  | truncateTable c name => exact Config.begins_truncateTable (single h)
  | addConstraint c k => exact Config.begins_addConstraint (single h)
  | dropConstraint c table name => exact Config.begins_dropConstraint (single h)
  | createIndex c i => exact Config.begins_createIndex (single h)
  | dropIndex c table name => exact Config.begins_dropIndex (single h)

/-- **A statement of a change reads as a query only if it makes a table by a SELECT.** -/
theorem ofSql_statement (c : Change) {es : List Expression} (h : c.statements = .ok es)
    {e : Expression} (he : e ∈ es) (style : Style) :
    StatementKind.ofSql (e.render style).sql = .select ↔ c.selectsInto = true := by
  obtain ⟨rest, hsql⟩ := c.begins_word h he style
  rw [hsql, StatementKind.ofSql_eq_select_iff c.word_spec.1, c.word_spec.2]

end Change

/-! ## Read-only connections -/

namespace Hook

variable {ω : Type}

/-- The hook stops every statement but queries. -/
def OnlyQueries (h : Hook ω) : Prop :=
  ∀ c w, c.kind ≠ .select → ∃ reason, (h.before c w).1 = .abort reason

/-- The hook of a connection that nothing is changed through. -/
def readOnly : Hook ω :=
  refuse fun c => if c.kind = .select then none else some "read-only connection"

theorem onlyQueries_readOnly : (readOnly : Hook ω).OnlyQueries := by
  intro c w hc
  refine ⟨"read-only connection", ?_⟩
  unfold readOnly refuse
  simp [hc]

/-- **Among any hooks, one that lets only queries pass stops all other statements.** A hook that is
asked before it may put another text in the place of the statement, but the kind stays. -/
theorem ask_of_onlyQueries {hooks : List (Hook ω)} (h : ∃ k ∈ hooks, k.OnlyQueries) :
    ∀ (c : Context) (w : ω), c.kind ≠ .select →
      ∃ reason w', ask hooks c w = (.error reason, w') := by
  induction hooks with
  | nil =>
    obtain ⟨k, hk, -⟩ := h
    cases hk
  | cons k hooks ih =>
    intro c w hc
    have hrest : (∀ reason, (k.before c w).1 ≠ .abort reason) → ∃ j ∈ hooks, j.OnlyQueries := by
      intro hpass
      obtain ⟨j, hj, honly⟩ := h
      rcases List.mem_cons.mp hj with rfl | hj
      · obtain ⟨reason, hr⟩ := honly c w hc
        exact absurd hr (hpass reason)
      · exact ⟨j, hj, honly⟩
    unfold ask
    rcases ha : k.before c w with ⟨_ | sql | reason, w'⟩ <;> rw [ha] at hrest <;> dsimp only
    · exact ih (hrest fun _ hr => by cases hr) c w' hc
    · exact ih (hrest fun _ hr => by cases hr) { c with sql := sql } w' hc
    · exact ⟨reason, w', rfl⟩

end Hook

namespace Database

variable {ω : Type}

/-- A statement that is no query is not sent, whatever would become of it. -/
theorem execute_of_onlyQueries (db : Database ω) (h : ∃ k ∈ db.hooks, k.OnlyQueries)
    {e : Expression} (he : StatementKind.ofSql (e.render .atSign).sql ≠ .select) (w : ω) :
    ∃ reason w', ∀ x : Executor ω,
      ({ db with executor := x }).execute e none w = (.error (aborted reason), w') := by
  obtain ⟨reason, w', hask⟩ :=
    Hook.ask_of_onlyQueries h (db.context (e.render .atSign) none) w he
  exact ⟨reason, w', fun x =>
    perform_of_abort { db with executor := x } none .affected x.execute hask⟩

/-- A query passes the hook of a read-only connection. -/
theorem execute_of_readOnly (db : Database ω) (h : db.hooks = [Hook.readOnly]) {e : Expression}
    (he : StatementKind.ofSql (e.render .atSign).sql = .select) (w : ω) :
    db.execute e none w = db.executor.execute (e.render .atSign) w := by
  have hkind : (db.context (e.render .atSign) none).kind = .select := he
  have hask : Hook.ask db.hooks (db.context (e.render .atSign) none) w =
      (.ok (db.context (e.render .atSign) none), w) := by
    rw [h]
    simp [Hook.ask, Hook.readOnly, Hook.refuse, hkind]
  unfold execute
  rw [perform_of_pass db none .affected db.executor.execute hask, h]
  rfl

end Database

/-- **A read-only connection stops every change but one.** Let a hook that lets only queries pass be
among the hooks of a database, and run a statement of a change as it stands. If the change makes no
table by a SELECT, its statement does not read as a query, and is not sent. If it does, which is so
on SQL Server alone, its statement reads as a query, and the hook of a read-only connection lets it
be sent. -/
theorem Change.stopped_iff (c : Change) {es : List Expression} (h : c.statements = .ok es)
    {e : Expression} (he : e ∈ es) :
    (StatementKind.ofSql (e.render .atSign).sql = .select ↔ c.selectsInto = true) ∧
    ∀ {ω : Type} (db : Database ω) (w : ω),
      (c.selectsInto = false → (∃ k ∈ db.hooks, k.OnlyQueries) →
        ∃ reason w', ∀ x : Executor ω,
          ({ db with executor := x }).execute e none w = (.error (Database.aborted reason), w')) ∧
      (c.selectsInto = true → db.hooks = [Hook.readOnly] →
        db.execute e none w = db.executor.execute (e.render .atSign) w) := by
  have hkind := c.ofSql_statement h he .atSign
  refine ⟨hkind, fun db w => ⟨fun hc hooks => ?_, fun hc hooks => ?_⟩⟩
  · have hne : StatementKind.ofSql (e.render .atSign).sql ≠ .select := by
      rw [ne_eq, hkind, hc]
      exact Bool.false_ne_true
    exact db.execute_of_onlyQueries hooks hne w
  · exact db.execute_of_readOnly hooks (hkind.mpr hc) w

namespace Sample

/-- A database that nothing is changed through. Its executor keeps what it is sent. -/
def readOnly (d : Dialect) : Database Tape where
  config := .new d
  executor := Tape.executor .none
  hooks := [.reword fun sql => "/* shop */ " ++ sql, .readOnly]

/-- The notes, copied to a new table. -/
def copyNotes (d : Dialect) : Change :=
  .createTableFrom (.new d) "Copy" (.new ⟨"Notes", none⟩ (.new d))

/-- MySQL makes the copy by a CREATE, which is stopped. -/
theorem copyNotes_stopped :
    (copyNotes .mysql).statements = .ok [.raw "CREATE TABLE `Copy` AS SELECT * FROM `Notes`"] ∧
    (copyNotes .mysql).selectsInto = false ∧ (∃ k ∈ (readOnly .mysql).hooks, k.OnlyQueries) ∧
    ∃ reason, ((readOnly .mysql).execute
        (.raw "CREATE TABLE `Copy` AS SELECT * FROM `Notes`") none {}).1 =
      .error (Database.aborted reason) := by
  have h : (copyNotes .mysql).statements =
      .ok [.raw "CREATE TABLE `Copy` AS SELECT * FROM `Notes`"] := by rfl
  have hooks : ∃ k ∈ (readOnly .mysql).hooks, k.OnlyQueries :=
    ⟨.readOnly, List.mem_cons_of_mem _ List.mem_cons_self, Hook.onlyQueries_readOnly⟩
  obtain ⟨-, stopped⟩ := (copyNotes .mysql).stopped_iff h List.mem_cons_self
  obtain ⟨reason, w', hr⟩ := (stopped (readOnly .mysql) {}).1 rfl hooks
  exact ⟨h, rfl, hooks, reason, congrArg Prod.fst (hr (Tape.executor .none))⟩

/-- SQL Server makes the copy by a SELECT, which is sent. -/
theorem copyNotes_passes : ∃ e : Expression,
    (copyNotes .sqlServer).statements = .ok [e] ∧
    (e.render .atSign).sql = "SELECT * INTO [Copy] FROM (SELECT * FROM [Notes]) [source]" ∧
    StatementKind.ofSql (e.render .atSign).sql = .select ∧
    ((readOnly .sqlServer).execute e none {}).2.sent.map Statement.sql =
      ["/* shop */ SELECT * INTO [Copy] FROM (SELECT * FROM [Notes]) [source]"] :=
  ⟨.raw "SELECT * INTO [Copy] FROM (SELECT * FROM [Notes]) [source]", by rfl, by rfl, by rfl,
    by rfl⟩

end Sample
end SqlWeave
