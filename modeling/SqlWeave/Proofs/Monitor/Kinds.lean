import SqlWeave.Proofs.Clauses.Guard
import SqlWeave.Proofs.Monitor.Statement
import SqlWeave.Proofs.Session.ReadOnly
import SqlWeave.Proofs.Session.Script

/-!
# The kind read off a statement is the kind of the action

A database tells its hooks what a statement does. Its own methods know it, and send each statement
under the kind of what was asked for. A statement that is sent without a kind gets the one that its
text shows. The two agree: the first word tells most kinds apart, and an INSERT is told from an
upsert by its words for conflicts, if no name has them in it and texts are bound.

Operators are free text between the blanks around them, so those words may also come about behind a
name that is quoted already and goes on behind its closing quote. That is the one way in which texts
that are silent by themselves make an INSERT look like an upsert (`insert_shown_as_upsert`), so an
operator has to be silent together with what is written in front of it.

Results:
* `Query.handlesConflicts_of_silent`, `Query.handlesConflicts_of_upsert`: silent INSERTs say nothing
  of conflicts, and upserts that are INSERTs do.
* `Query.ofSql_statement`: the kind that is read off a statement is that of its action.
* `Database.Method.sends`: a method sends the statements of its action under the action's kind.
* **`Query.shows_kind`**: a statement may be sent without a kind, as if its method sent it.
* `Query.insert_shown_as_upsert`: silent texts that make an INSERT look like an upsert.
-/

namespace SqlWeave

namespace Query

variable {q : Query}

/-! ## Kinds -/

/-- The kind under which a database sends the statements of an action. -/
def Action.kind : Action → StatementKind
  | select | count _ => .select
  | insert _ | insertKey _ _ | insertSelected _ _ | bulkInsert _ => .insert
  | update _ => .update
  | delete | deleteJoined => .delete
  | upsert _ _ => .upsert

/-- The action inserts nothing, or the query binds texts and the names that the INSERT has are
silent, in the query that it selects from as well. -/
def Action.Silent (q : Query) : Action → Prop
  | insert r => q.config.escapeStrings = false ∧ Conflict.Silent q.table.name ∧ r.Silent
  | insertKey r key =>
    q.config.escapeStrings = false ∧ Conflict.Silent q.table.name ∧ r.Silent ∧ Conflict.Silent key
  | insertSelected source columns =>
    q.config.escapeStrings = false ∧ Conflict.Silent q.table.name ∧ source.Silent ∧
      ∀ n ∈ columns, Conflict.Silent n
  | bulkInsert rows =>
    q.config.escapeStrings = false ∧ Conflict.Silent q.table.name ∧ ∀ r ∈ rows, r.Silent
  | _ => True

/-- The word that the statements of an action begin with. -/
def Action.word (q : Query) : Action → String
  | select | count _ => "SELECT"
  | insert _ | insertKey _ _ | insertSelected _ _ => "INSERT"
  | bulkInsert _ => q.batchWord
  | update _ => "UPDATE"
  | delete | deleteJoined => "DELETE"
  | upsert _ _ => q.upsertWord

variable {a : Action} {es : List Expression} {e : Expression}

theorem eq_ok_of_mem {r : Result Expression} (h : r.map ([·]) = .ok es) (he : e ∈ es) :
    r = .ok e := by
  obtain ⟨x, hx, rfl⟩ := map_eq_ok_iff.mp h
  rw [hx, List.mem_singleton.mp he]

theorem begins_word (h : q.perform a = .ok es) (he : e ∈ es) : e.Begins (a.word q ++ " ") := by
  cases a with
  | select => exact q.opens_selectPhrase.begins (eq_ok_of_mem h he)
  | count column => exact (q.opens_countPhrase column).begins (eq_ok_of_mem h he)
  | insert r => exact (Change.insert q r).begins_word h he
  | insertKey r key => exact (Change.insertKey q r key).begins_word h he
  | insertSelected source columns =>
    exact (Change.insertSelected q source columns).begins_word h he
  | bulkInsert rows => exact (Change.bulkInsert q rows).begins_word h he
  | update cells => exact (Change.update q cells).begins_word h he
  | delete => exact (Change.delete q).begins_word h he
  | deleteJoined => exact (Change.deleteJoined q).begins_word h he
  | upsert rows u => exact (Change.upsert q rows u).begins_word h he

theorem batchPhrase_of_batchWord (h : q.batchWord = "INSERT") (rows : List Row) :
    q.batchPhrase rows = q.valuesBatch rows := by
  unfold batchWord at h
  unfold batchPhrase
  cases hd : q.dialect with
  | firebird =>
    rw [hd] at h
    exact absurd h (by decide)
  | _ => rfl

/-- **A silent INSERT does not handle conflicts.** -/
theorem handlesConflicts_of_silent (hs : a.Silent q) (ha : a.kind = .insert)
    (hword : a.word q = "INSERT") (h : q.perform a = .ok es) (he : e ∈ es) (style : Style) :
    StatementKind.handlesConflicts (e.render style).sql.toList = false := by
  have hb : q.config.escapeStrings = false → q.binding.BindsAll := fun h => ⟨rfl, h⟩
  cases a with
  | insert r =>
    obtain ⟨hbinds, ht, hr⟩ := hs
    exact (hushed_insertPhrase (hb hbinds) ht hr).handlesConflicts (eq_ok_of_mem h he) style
  | insertKey r key =>
    obtain ⟨hbinds, ht, hr, hk⟩ := hs
    exact (hushed_insertKeyPhrase (hb hbinds) ht hr hk).handlesConflicts (eq_ok_of_mem h he) style
  | insertSelected source columns =>
    obtain ⟨hbinds, ht, hsource, hc⟩ := hs
    exact (hushed_insertSelectedPhrase (hb hbinds) ht hsource hc).handlesConflicts
      (eq_ok_of_mem h he) style
  | bulkInsert rows =>
    obtain ⟨hbinds, ht, hr⟩ := hs
    obtain ⟨batch, hbatch, hb'⟩ := exists_batch_of_mem_bulkInsert h he
    have hrows : ∀ r ∈ batch, r.Silent := fun r hm =>
      hr r (flatten_batches _ _ rows ▸ List.mem_flatten_of_mem hbatch hm)
    rw [batchPhrase_of_batchWord hword] at hb'
    exact (hushed_valuesBatch (hb hbinds) ht hrows).handlesConflicts hb' style
  | _ => cases ha

/-- **An upsert that is an INSERT handles conflicts.** -/
theorem handlesConflicts_of_upsert {rows : List Row} {u : Upsert} (hword : q.upsertWord = "INSERT")
    (h : q.upsert rows u = .ok e) (style : Style) :
    StatementKind.handlesConflicts (e.render style).sql.toList = true := by
  cases rows with
  | nil =>
    -- an upsert of no rows is refused
    have hm : .failure (.validation .noUpsertRows) ∈ q.upsertPhrase [] u := by
      simp [upsertPhrase, Upsert.check]
    obtain ⟨x, hx⟩ := Phrase.writable_of_toExpression h _ hm
    cases hx
  | cons first rest =>
    have hsub : ∀ part ∈ q.upsertRowsPhrase (first :: rest) u first,
        part ∈ q.upsertPhrase (first :: rest) u := fun part hm => List.mem_append_right _ hm
    unfold upsertWord at hword
    cases hd : q.dialect with
    | sqlServer =>
      rw [hd] at hword
      exact absurd hword (by decide)
    | firebird =>
      rw [hd] at hword
      exact absurd hword (by decide)
    | mysql =>
      have hm : .text " ON DUPLICATE KEY UPDATE " ∈ q.upsertRowsPhrase (first :: rest) u first := by
        simp [upsertRowsPhrase, hd]
      exact Phrase.handlesConflicts_of_mem (hsub _ hm) (by decide) h style
    | sqlite =>
      have hm : .text " ON CONFLICT " ∈ q.upsertRowsPhrase (first :: rest) u first := by
        simp [upsertRowsPhrase, hd]
      exact Phrase.handlesConflicts_of_mem (hsub _ hm) (by decide) h style

/-- The word of an action tells its kind, but an INSERT may be an upsert. -/
theorem word_spec (q : Query) (a : Action) :
    (a.word q ≠ "INSERT" ∧ (a.word q, a.kind) ∈ StatementKind.keywords) ∨
      a.word q = "INSERT" ∧ (a.kind = .insert ∨ a.kind = .upsert) := by
  cases a with
  | bulkInsert rows =>
    dsimp only [Action.word, Action.kind, batchWord]
    cases q.dialect <;> decide
  | upsert rows u =>
    dsimp only [Action.word, Action.kind, upsertWord]
    cases q.dialect <;> decide
  | _ =>
    dsimp only [Action.word, Action.kind]
    decide

/-- **The kind that is read off a statement of a silent action is the kind of the action**, in every
style. -/
theorem ofSql_statement (hs : a.Silent q) (h : q.perform a = .ok es) (he : e ∈ es)
    (style : Style) : StatementKind.ofSql (e.render style).sql = a.kind := by
  obtain ⟨rest, hsql⟩ := begins_word h he style
  have hread : ∀ kind, (a.word q, kind) ∈ StatementKind.keywords →
      StatementKind.ofSql (e.render style).sql =
        if a.word q = "INSERT" ∧
          StatementKind.handlesConflicts (e.render style).sql.toList = true then .upsert
        else kind := by
    intro kind hk
    rw [hsql]
    exact StatementKind.ofSql_keyword hk rest
  rcases word_spec q a with ⟨hword, hk⟩ | ⟨hword, ha⟩
  · rw [hread _ hk, if_neg fun hc => hword hc.1]
  · have hk : (a.word q, StatementKind.insert) ∈ StatementKind.keywords := by
      rw [hword]
      decide
    rw [hread _ hk]
    rcases ha with ha | ha
    · rw [handlesConflicts_of_silent hs ha hword h he style, ha, if_neg (by simp)]
    · cases a with
      | upsert rows u =>
        rw [handlesConflicts_of_upsert hword (eq_ok_of_mem h he) style, if_pos ⟨hword, rfl⟩]
        rfl
      | _ => cases ha

end Query

/-! ## Sending -/

namespace Script

variable {α β γ : Type} {kind : StatementKind} {es : List Expression}

/-- Whatever a script sends is one of some statements and is sent under a kind. -/
def Sends (kind : StatementKind) (es : List Expression) : Script α → Prop
  | done _ => True
  | send _ k e next => k = some kind ∧ e ∈ es ∧ ∀ r, (next r).Sends kind es
  | record _ next => next.Sends kind es

theorem resume_resume (s : Script α) (f : Result α → Script β) (g : Result β → Script γ) :
    (s.resume f).resume g = s.resume fun r => (f r).resume g := by
  induction s with
  | done r => rfl
  | send c k e next ih => exact congrArg (send c k e) (funext ih)
  | record e next ih => exact congrArg (record e) ih

theorem bind_bind (s : Script α) (f : α → Script β) (g : β → Script γ) :
    (s >>= f) >>= g = s >>= fun a => f a >>= g := by
  refine (resume_resume s _ _).trans (congrArg s.resume (funext fun r => ?_))
  cases r <;> rfl

/-- **Scripts one after another send what each of them sends.** -/
theorem Sends.bind {s : Script α} (hs : s.Sends kind es) {f : α → Script β}
    (hf : ∀ a, (f a).Sends kind es) : (s >>= f).Sends kind es := by
  induction s with
  | done r =>
    cases r with
    | error e => exact trivial
    | ok a => exact hf a
  | send c k e next ih => exact ⟨hs.1, hs.2.1, fun r => ih r (hs.2.2 r)⟩
  | record e next ih => exact ih hs

theorem sends_sent (c : Channel) {e : Expression} (he : e ∈ es) :
    (sent c (some kind) e).Sends kind es := ⟨rfl, he, fun _ => trivial⟩

theorem sends_executeAll : ∀ {statements : List Expression}, statements ⊆ es →
    (executeAll kind statements).Sends kind es
  | [], _ => trivial
  | e :: rest, h => by
    obtain ⟨he, hrest⟩ := List.cons_subset.mp h
    have hfirst : (command kind (.ok e)).Sends kind es := sends_sent .execute he
    exact hfirst.bind fun n => (sends_executeAll hrest).bind fun more => trivial

/-- Writing the batches of a bulk insert sends nothing, and answers what was written. -/
theorem sends_writeBatches_bind {d : Dialect} {table : String}
    {batches : List (List Row × Result Expression)} {statements : List Expression}
    {f : List Expression → Script α}
    (h : List.Forall₂ (fun b e => b.2 = .ok e) batches statements)
    (hf : (f statements).Sends kind es) : (writeBatches d table batches >>= f).Sends kind es := by
  induction h generalizing f with
  | nil => exact hf
  | @cons b e batches statements hb h ih =>
    obtain ⟨rows, r⟩ := b
    cases hb
    have hrest : ((writeBatches d table batches >>= fun more => pure (e :: more)) >>= f).Sends
        kind es := by
      rw [bind_bind]
      exact ih hf
    exact hrest

theorem sends_command {statement : Result Expression}
    (h : ∀ e, statement = .ok e → e ∈ es) : (command kind statement).Sends kind es := by
  cases statement with
  | error x => exact trivial
  | ok e => exact sends_sent .execute (h e rfl)

theorem sends_value {statement : Result Expression}
    (h : ∀ e, statement = .ok e → e ∈ es) : (value kind statement).Sends kind es := by
  cases statement with
  | error x => exact trivial
  | ok e => exact sends_sent .scalar (h e rfl)

end Script

namespace Database

variable {ω α : Type} {db : Database ω} {q : Query} {a : Query.Action} {es : List Expression}

/-- The method of a database by which an action on a query is asked for. -/
inductive Method (db : Database ω) : {α : Type} → Query → Query.Action → Run ω α → Prop
  | selectRows (q : Query) : Method db q .select (db.selectRows q)
  | count (q : Query) : Method db q (.count none) (db.count q)
  | insert (table : TableName) (r : Row) :
    Method db (db.query table) (.insert r) (db.insert table r)
  | insertKey (table : TableName) (r : Row) (key : String) :
    Method db (db.query table) (.insertKey r key) (db.insertKey table r key)
  | insertSelected (table : TableName) (source : Query) (columns : List String) :
    Method db (db.query table) (.insertSelected source columns)
      (db.insertSelected table source columns)
  | bulkInsert (table : TableName) (rows : List Row) :
    Method db (db.query table) (.bulkInsert rows) (db.bulkInsert table rows)
  | update (q : Query) (r : Row) : Method db q (.update r.cells) (db.update q r)
  | delete (q : Query) : Method db q .delete (db.delete q)
  | deleteJoined (q : Query) : Method db q .deleteJoined (db.deleteJoined q)
  | upsert (table : TableName) (rows : List Row) (u : Upsert) :
    Method db (db.query table) (.upsert rows u) (db.upsert table rows u)

/-- **The method for an action sends the statements of the action under its kind**, and nothing
else. -/
theorem Method.sends {m : Run ω α} (hm : db.Method q a m) (h : q.perform a = .ok es) :
    ∃ s : Script α, s.Sends a.kind es ∧ s.run db = m := by
  have single : ∀ {r : Result Expression}, r.map ([·]) = .ok es → ∀ e, r = .ok e → e ∈ es := by
    rintro r hr e rfl
    cases hr
    exact List.mem_singleton_self e
  cases hm with
  | selectRows =>
    refine ⟨.selectRows q, ?_, Script.run_selectRows q⟩
    obtain ⟨e, he, rfl⟩ := map_eq_ok_iff.mp h
    unfold Script.selectRows
    rw [he]
    exact Script.sends_sent .rows (List.mem_singleton_self e)
  | count =>
    have hvalue : (Script.value .select (q.count none)).Sends .select es :=
      Script.sends_value (single h)
    exact ⟨.number (q.count none), hvalue.bind fun v => trivial, Script.run_number _⟩
  | insertKey => exact ⟨_, Script.sends_value (single h), Script.run_value _ _⟩
  | bulkInsert table rows =>
    refine ⟨.bulkInsert db.config table rows, ?_, Script.run_bulkInsert table rows⟩
    obtain ⟨u, hcheck, h⟩ := bind_eq_ok_iff.mp h
    have hq : (Query.new table db.config).checkBulk rows = .ok u := hcheck
    unfold Script.bulkInsert
    dsimp only
    rw [hq]
    exact Script.sends_writeBatches_bind (mapM_eq_ok_iff.mp h)
      (Script.sends_executeAll (List.Subset.refl es))
  | _ => exact ⟨_, Script.sends_command (single h), Script.run_command _ _⟩

/-- A statement that shows its kind may be sent without one. -/
theorem send_of_ofSql (db : Database ω) (c : Channel) {e : Expression}
    {kind : StatementKind} (h : StatementKind.ofSql (e.render .atSign).sql = kind) :
    db.send c none e = db.send c (some kind) e := by
  subst h
  rfl

end Database

namespace Query

/-- **A statement shows the kind of what was asked for.** Let an action on a query insert nothing,
or let texts be bound, no fragments be given as SQL, and the names be silent, as well as each
operator together with what is written in front of it. Then every statement of the action is read as
one of the action's kind, in every style. That is the kind under which the method for the action
sends it, so a database that sends it without a kind does what it does when the method sends it. -/
theorem shows_kind {q : Query} {a : Action} {es : List Expression} (hs : a.Silent q)
    (h : q.perform a = .ok es) :
    (∀ e ∈ es, ∀ style, StatementKind.ofSql (e.render style).sql = a.kind) ∧
    ∀ {ω : Type} (db : Database ω),
      (∀ {α : Type} {m : Run ω α}, db.Method q a m →
        ∃ s : Script α, s.Sends a.kind es ∧ s.run db = m) ∧
      ∀ e ∈ es, ∀ c, db.send c none e = db.send c (some a.kind) e := by
  have hread : ∀ e ∈ es, ∀ style, StatementKind.ofSql (e.render style).sql = a.kind :=
    fun e he => ofSql_statement hs h he
  exact ⟨hread, fun db =>
    ⟨fun hm => hm.sends h, fun e he c => db.send_of_ofSql c (hread e he .atSign)⟩⟩

/-- Notes about conflicts, under an alias that nearly says what to do with them. -/
def conflictNotes : Query :=
  { Query.new ⟨"Notes", some "on conflicts"⟩ (.new .sqlServer) with
    columns := [.named "Text"]
    filters := [(.and, .compare (.column "on conflicts.Text") "LIKE"
      (.value (.text "% ON CONFLICT %")))] }

theorem shows_kind_conflictNotes : ∃ e,
    (Query.new ⟨"Archive", none⟩ (.new .sqlServer)).perform
        (.insertSelected conflictNotes ["Text"]) = .ok [e] ∧
      (e.render .atSign).sql = "INSERT INTO [Archive] ([Text]) SELECT [Text] " ++
        "FROM [Notes] [on conflicts] WHERE [on conflicts].[Text] LIKE @p1" ∧
      StatementKind.ofSql (e.render .atSign).sql = .insert := by
  have hs : Action.Silent (Query.new ⟨"Archive", none⟩ (.new .sqlServer))
      (.insertSelected conflictNotes ["Text"]) := by
    refine ⟨rfl, by decide, ?_, by decide⟩
    exact {
      binds := rfl
      table := ⟨by decide, by decide⟩
      columns := List.forall_mem_singleton.mpr
        ⟨by unfold Column.Silent; decide, fun _ ha => by cases ha⟩
      joins := fun _ hj => by cases hj
      filters := List.forall_mem_singleton.mpr (by unfold Condition.Silent Operand.Silent; decide)
      groupBy := fun _ hc => by cases hc
      having := fun _ hi => by cases hi
      orderBy := fun _ ho => by cases ho }
  exact ⟨_, rfl, by decide +kernel, (shows_kind hs rfl).1 _ List.mem_cons_self .atSign⟩

/-- Rows of a column whose name is quoted already, and goes on behind its closing quote. -/
def overlapping : Query :=
  { Query.new ⟨"U", none⟩ (.new .sqlServer) with
    filters := [(.and, .compare (.column "[a] ON") "CONFLICT =" (.value (.int 1)))] }

/-- **Names and operators that are silent by themselves may make an INSERT look like an upsert.** -/
theorem insert_shown_as_upsert : ∃ e,
    (Query.new ⟨"T", none⟩ (.new .sqlServer)).perform (.insertSelected overlapping ["c"]) =
        .ok [e] ∧
      overlapping.config.escapeStrings = false ∧
      (∀ s ∈ ["T", "c", "U", "[a] ON", "CONFLICT ="], Conflict.Silent s) ∧
      (e.render .atSign).sql =
        "INSERT INTO [T] ([c]) SELECT * FROM [U] WHERE [a] ON CONFLICT = 1" ∧
      StatementKind.ofSql (e.render .atSign).sql = .upsert ∧
      Action.kind (.insertSelected overlapping ["c"]) = .insert :=
  ⟨_, rfl, rfl, by decide +kernel, by decide +kernel, by decide +kernel, rfl⟩

end Query
end SqlWeave
