import SqlWeave.Proofs.Clauses.Keyed
import SqlWeave.Proofs.Mapping.RoundTrip
import SqlWeave.Proofs.Session.Cache
import SqlWeave.Proofs.Session.Script
import SqlWeave.Sample.Shelf

/-!
# Writing a record

A record is a row of its table: the columns with what they hold, and the keys of foreign members
behind them unless a column has their place. Changing the record sets the cells of the row that the
table's key and the engine do not own, inserting it writes those that the engine does not make, and
the row to change or to remove is found by the key. Which cells these are is decided by their names,
letter case ignored, so a column may be a key, be made by the engine and hold a foreign key at once.

Each operation sends one statement at most. Where there is no key it sends none, since the statement
would reach every row.

Results:
* `Entity.ofPairs_row`, `Entity.mem_row_of_owned`: a row holds values, foreign keys among them.
* `Entity.without_row`: what is left of a row is a list of cells.
* `Entity.sendsWhen_update`, `Entity.sendsWhen_delete`: the statements on the row of a record.
* `Entity.record_writes`: writing a record, on a database of either kind.
-/

namespace SqlWeave

open Text

/-! ## The cells of a record -/

namespace Row

/-- The names and values of the cells that hold values. -/
def pairs (r : Row) : List (String × Value) :=
  r.cells.filterMap fun cell => cell.plain?.map fun v => (cell.name, v)

theorem pairs_ofPairs (cells : List (String × Value)) : (ofPairs cells).pairs = cells := by
  unfold pairs ofPairs
  rw [List.filterMap_map]
  exact List.filterMap_some

end Row

namespace Entity

variable {α : Type} (e : Entity α) (a : α)

/-- The cells of a record without those under the name of a column of a kind. -/
def cellsBut (skip : MappedColumn α → Bool) : List (String × Value) :=
  (e.row a).pairs.filter fun cell =>
    !e.columns.any fun column => skip column && sameIgnoringCase column.name cell.1

/-- What is changed of a record. -/
def changes : List (String × Value) := e.cellsBut a fun column => column.isKey || column.isGenerated

/-- What is inserted of a record. -/
def insertions : List (String × Value) := e.cellsBut a (·.isGenerated)

/-- The columns of the key with their values. -/
def keys : List (String × Value) := e.keyColumns.map fun column => (column.name, column.read a)

/-- All cells of a record hold values. -/
theorem exists_row_eq : ∃ cells, e.row a = .ofPairs cells := by
  have hfold : ∀ (fs : List (ForeignMember α)) (cells : List (String × Value)),
      ∃ cells', fs.foldl (withForeignKey a) (.ofPairs cells) = .ofPairs cells' := by
    intro fs
    induction fs with
    | nil => exact fun cells => ⟨cells, rfl⟩
    | cons f fs ih =>
      intro cells
      rw [List.foldl_cons, withForeignKey]
      split
      · exact ih cells
      · have hpush : (Row.ofPairs cells).push ⟨f.sourceColumn, .value (f.keyOf a)⟩ =
            .ofPairs (cells ++ [(f.sourceColumn, f.keyOf a)]) := by
          unfold Row.ofPairs Row.push
          rw [List.map_append]
          rfl
        rw [hpush]
        exact ih _
  exact hfold _ _

theorem ofPairs_row : .ofPairs (e.row a).pairs = e.row a := by
  obtain ⟨cells, hcells⟩ := e.exists_row_eq a
  rw [hcells, Row.pairs_ofPairs]

/-- The cells that are kept of a record. -/
theorem without_row (skip : MappedColumn α → Bool) :
    e.without skip (e.row a) = .ofPairs (e.cellsBut a skip) := by
  have hskipped : ∀ name : String,
      Mapping.hasName ((e.columns.filter skip).map (·.name)) name =
        e.columns.any fun column => skip column && sameIgnoringCase column.name name := by
    intro name
    unfold Mapping.hasName
    rw [List.any_map, List.any_filter]
    rfl
  obtain ⟨cells, hcells⟩ := e.exists_row_eq a
  unfold cellsBut
  rw [hcells, Row.pairs_ofPairs]
  unfold without Row.ofPairs
  simp only [hskipped]
  rw [List.filter_map]
  rfl

/-- A name stays unused as long as no foreign key has it. -/
theorem lacks_foldl_withForeignKey {name : String} : ∀ (fs : List (ForeignMember α)) (r : Row),
    (∀ cell ∈ r.cells, sameIgnoringCase cell.name name = false) →
    (∀ f ∈ fs, sameIgnoringCase f.sourceColumn name = false) →
    ∀ cell ∈ (fs.foldl (withForeignKey a) r).cells, sameIgnoringCase cell.name name = false := by
  intro fs
  induction fs with
  | nil => exact fun r hr _ => hr
  | cons f fs ih =>
    intro r hr hf
    obtain ⟨hf, hfs⟩ := List.forall_mem_cons.mp hf
    refine ih (withForeignKey a r f) ?_ hfs
    unfold withForeignKey
    split
    · exact hr
    · exact List.forall_mem_append.mpr ⟨hr, List.forall_mem_singleton.mpr hf⟩

/-- The key of a foreign member is among the cells, unless its column is there before. -/
theorem mem_row_of_owned {f : ForeignMember α} {before after : List (ForeignMember α)}
    (ho : e.owned = before ++ f :: after)
    (hc : ∀ column ∈ e.columns, sameIgnoringCase column.name f.sourceColumn = false)
    (hb : ∀ g ∈ before, sameIgnoringCase g.sourceColumn f.sourceColumn = false) :
    (f.sourceColumn, f.keyOf a) ∈ (e.row a).pairs := by
  have hstart : ∀ cell ∈ (Row.ofPairs (e.columns.map fun c => (c.name, c.read a))).cells,
      sameIgnoringCase cell.name f.sourceColumn = false := by
    unfold Row.ofPairs
    rw [List.map_map]
    exact List.forall_mem_map.mpr hc
  have hlacks := lacks_foldl_withForeignKey a before _ hstart hb
  have hmem : (⟨f.sourceColumn, .value (f.keyOf a)⟩ : Cell) ∈ (e.row a).cells := by
    unfold row
    rw [ho, List.foldl_append, List.foldl_cons]
    obtain ⟨others, hothers⟩ := cells_foldl_withForeignKey a after
      (withForeignKey a (before.foldl (withForeignKey a)
        (Row.ofPairs (e.columns.map fun c => (c.name, c.read a)))) f)
    rw [hothers]
    refine List.mem_append_left others ?_
    unfold withForeignKey
    rw [if_neg]
    · exact List.mem_append_right _ (List.mem_singleton_self _)
    · unfold Row.cell?
      rw [List.find?_isSome]
      rintro ⟨cell, hcell, hname⟩
      rw [hlacks cell hcell] at hname
      cases hname
  exact List.mem_filterMap.mpr ⟨_, hmem, rfl⟩

end Entity

/-! ## Sending one statement -/

/-- A run sends one statement of a kind by one call and nothing else, if a condition holds, and
fails with nothing sent if not. -/
structure Database.SendsWhen {ω β : Type} (db : Database ω) (m : Run ω β) (holds : Prop)
    (c : Channel) (kind : StatementKind) (x : Expression) : Prop where
  sends : holds → ∃ next : Result c.Answer → Result β,
    m = (db.send c (some kind) x).resume fun r => .ofResult (next r)
  refuses : ¬ holds → ∃ err, m = .ofResult (.error err)

namespace Script

variable {ω β γ : Type} {c : Channel} {kind : StatementKind} {x : Expression} {holds : Prop}

/-- A script sends one statement of a kind by one call and nothing else, if a condition holds, and
fails with nothing sent if not. -/
structure SendsWhen (s : Script β) (holds : Prop) (c : Channel) (kind : StatementKind)
    (x : Expression) : Prop where
  sends : holds → ∃ next : Result c.Answer → Result β,
    s = .send c (some kind) x fun r => .done (next r)
  refuses : ¬ holds → ∃ err, s = .done (.error err)

/-- What a script sends is sent where it is run. -/
theorem SendsWhen.run {s : Script β} (h : s.SendsWhen holds c kind x) (db : Database ω) :
    db.SendsWhen (s.run db) holds c kind x where
  sends hp := (h.sends hp).imp fun _ hs => by rw [hs]; rfl
  refuses hp := (h.refuses hp).imp fun _ hs => by rw [hs]; rfl

/-- The answer may be made into something else. -/
theorem SendsWhen.bind {s : Script β} (h : s.SendsWhen holds c kind x) {f : β → Script γ}
    (hf : ∀ b, ∃ r, f b = .done r) : (s >>= f).SendsWhen holds c kind x where
  sends hp := by
    obtain ⟨next, rfl⟩ := h.sends hp
    choose g hg using hf
    refine ⟨fun r => next r >>= g, congrArg (Script.send c (some kind) x) (funext fun r => ?_)⟩
    dsimp only [resume]
    cases next r with
    | error err => rfl
    | ok b => exact hg b
  refuses hp := by
    obtain ⟨err, rfl⟩ := h.refuses hp
    exact ⟨err, rfl⟩

variable {statement : Result Expression}

theorem sendsWhen_command (h : OkWhen statement holds x) :
    (command kind statement).SendsWhen holds .execute kind x where
  sends hp := ⟨id, by rw [h.ok hp]; rfl⟩
  refuses hp := (h.error hp).imp fun _ he => by rw [he]; rfl

theorem sendsWhen_value (h : OkWhen statement holds x) :
    (value kind statement).SendsWhen holds .scalar kind x where
  sends hp := ⟨id, by rw [h.ok hp]; rfl⟩
  refuses hp := (h.error hp).imp fun _ he => by rw [he]; rfl

end Script

/-! ## Writing a record -/

theorem TableName.eq_of_aliasName {t : TableName} (h : t.aliasName = none) : t = ⟨t.name, none⟩ :=
  h ▸ rfl

namespace Entity

variable {α : Type} {c : Config} {e : Entity α}

/-- Without a key there is no query for a record, and nothing is sent. -/
theorem scripts_of_keyless (c : Config) (h : e.keyColumns = []) (a : α) :
    Script.updateRecord c e a = .done (.error (.validation (.noKeyColumn e.table))) ∧
    Script.deleteRecord c e a = .done (.error (.validation (.noKeyColumn e.table))) := by
  have hquery : Script.queryFor c e.toMapping a =
      .error (.validation (.noKeyColumn e.table)) := by
    unfold Script.queryFor Mapping.keyValues
    rw [h]
    rfl
  unfold Script.updateRecord Script.deleteRecord
  rw [hquery]
  exact ⟨rfl, rfl⟩

/-- The query for a record is that for the rows that hold its key. -/
theorem queryFor_keyed (c : Config) (ht : (TableName.parse e.table).aliasName = none)
    (h : e.keyColumns ≠ []) (a : α) :
    Script.queryFor c e.toMapping a =
      .ok (Query.keyed (TableName.parse e.table).name c (e.keys a)) := by
  have htable := TableName.eq_of_aliasName ht
  have hvalues : e.keyValues a = .ok (e.keys a) := by
    unfold Mapping.keyValues keys
    cases hk : e.keyColumns with
    | nil => exact absurd hk h
    | cons column columns => rfl
  unfold Script.queryFor
  rw [hvalues, htable]
  exact congrArg Except.ok (Query.foldl_filter (e.keys a) _)

theorem keys_ne_nil (h : e.keyColumns ≠ []) (a : α) : e.keys a ≠ [] :=
  fun hk => h (List.map_eq_nil_iff.mp hk)

/-- The UPDATE of a record. -/
theorem sendsWhen_update (c : Config) (ht : (TableName.parse e.table).aliasName = none)
    (h : e.keyColumns ≠ []) (a : α) :
    (Script.updateRecord c e a).SendsWhen
      (e.changes a ≠ [] ∧ (Binding.ofConfig c).WritesAll (e.changes a) ∧
        (Binding.ofConfig c).WritesTests (e.keys a)) .execute .update
      (Query.keyedUpdate (.ofConfig c) (TableName.parse e.table).name (e.changes a)
        (e.keys a)) := by
  have hscript : Script.updateRecord c e a = Script.command .update
      ((Query.keyed (TableName.parse e.table).name c (e.keys a)).update
        (Row.ofPairs (e.changes a)).cells) := by
    unfold Script.updateRecord updateRow
    rw [queryFor_keyed c ht h, without_row]
    rfl
  rw [hscript]
  exact Script.sendsWhen_command (Query.update_keyed (keys_ne_nil h a) _)

/-- The DELETE of a record. -/
theorem sendsWhen_delete (c : Config) (ht : (TableName.parse e.table).aliasName = none)
    (h : e.keyColumns ≠ []) (a : α) :
    (Script.deleteRecord c e a).SendsWhen ((Binding.ofConfig c).WritesTests (e.keys a))
      .execute .delete
      (Query.keyedDelete (.ofConfig c) (TableName.parse e.table).name (e.keys a)) := by
  have hscript : Script.deleteRecord c e a = Script.command .delete
      (Query.keyed (TableName.parse e.table).name c (e.keys a)).delete := by
    unfold Script.deleteRecord
    rw [queryFor_keyed c ht h]
    rfl
  rw [hscript]
  exact Script.sendsWhen_command (Query.delete_keyed (keys_ne_nil h a))

/-- The INSERT of a record without generated columns. -/
theorem sendsWhen_insert (c : Config) (ht : (TableName.parse e.table).aliasName = none)
    (h : e.columns.find? (·.isGenerated) = none) (a : α) :
    (Script.insertRecord c e a).SendsWhen
      (e.insertions a ≠ [] ∧ (Binding.ofConfig c).WritesAll (e.insertions a)) .execute .insert
      (.ofPieces (Query.insertPieces (.ofConfig c) (TableName.parse e.table).name
        (e.insertions a))) := by
  have htable := TableName.eq_of_aliasName ht
  unfold Script.insertRecord insertRow
  rw [h, without_row, htable]
  exact (Script.sendsWhen_command (Query.insert_new c _ _)).bind fun n => ⟨_, rfl⟩

/-- The INSERT of a record with a generated column. -/
theorem sendsWhen_insertKey (c : Config) (ht : (TableName.parse e.table).aliasName = none)
    {column : MappedColumn α} (h : e.columns.find? (·.isGenerated) = some column) (a : α) :
    (Script.insertRecord c e a).SendsWhen
      ((c.dialect = .firebird → Text.isBlankText column.name = false) ∧
        e.insertions a ≠ [] ∧ (Binding.ofConfig c).WritesAll (e.insertions a)) .scalar .insert
      (.ofPieces (Query.insertPieces (.ofConfig c) (TableName.parse e.table).name
        (e.insertions a) ++ Query.keyWords c.dialect column.name)) := by
  have htable := TableName.eq_of_aliasName ht
  unfold Script.insertRecord insertRow
  rw [h, without_row, htable]
  refine (Script.sendsWhen_value (Query.insertKey_new c _ _ _)).bind fun key => ?_
  split
  · exact ⟨_, rfl⟩
  · cases column.assign key a <;> exact ⟨_, rfl⟩

/-- What the operations on a record send, where they are run on a database. -/
structure WritesBy {ω : Type} (e : Entity α) (a : α) (db : Database ω)
    (run : {β : Type} → Operation β → Run ω β) : Prop where
  /-- Without a key, no statement is sent to change or to remove a record. -/
  keyless : e.keyColumns = [] →
    run (.updateRecord e a) = .ofResult (.error (.validation (.noKeyColumn e.table))) ∧
    run (.deleteRecord e a) = .ofResult (.error (.validation (.noKeyColumn e.table)))
  update : e.keyColumns ≠ [] → db.SendsWhen (run (.updateRecord e a))
    (e.changes a ≠ [] ∧ (Binding.ofConfig db.config).WritesAll (e.changes a) ∧
      (Binding.ofConfig db.config).WritesTests (e.keys a)) .execute .update
    (Query.keyedUpdate (.ofConfig db.config) (TableName.parse e.table).name (e.changes a)
      (e.keys a))
  delete : e.keyColumns ≠ [] → db.SendsWhen (run (.deleteRecord e a))
    ((Binding.ofConfig db.config).WritesTests (e.keys a)) .execute .delete
    (Query.keyedDelete (.ofConfig db.config) (TableName.parse e.table).name (e.keys a))
  insert : e.columns.find? (·.isGenerated) = none → db.SendsWhen (run (.insertRecord e a))
    (e.insertions a ≠ [] ∧ (Binding.ofConfig db.config).WritesAll (e.insertions a))
    .execute .insert
    (.ofPieces (Query.insertPieces (.ofConfig db.config) (TableName.parse e.table).name
      (e.insertions a)))
  /-- The value of the first column that the engine makes is asked for. -/
  insertKey : ∀ column, e.columns.find? (·.isGenerated) = some column →
    db.SendsWhen (run (.insertRecord e a))
      ((db.config.dialect = .firebird → Text.isBlankText column.name = false) ∧
        e.insertions a ≠ [] ∧ (Binding.ofConfig db.config).WritesAll (e.insertions a))
      .scalar .insert
      (.ofPieces (Query.insertPieces (.ofConfig db.config) (TableName.parse e.table).name
        (e.insertions a) ++ Query.keyWords db.config.dialect column.name))

/-- What is run as its script writes records. -/
theorem writesBy_of_script {ω : Type} (db : Database ω)
    {run : {β : Type} → Operation β → Run ω β} {ahead : Bool}
    (hrun : ∀ (β : Type) (o : Operation β), run o = (o.script db.config ahead).run db)
    (ht : (TableName.parse e.table).aliasName = none) (a : α) : e.WritesBy a db run where
  keyless hk := by
    obtain ⟨hupdate, hdelete⟩ := scripts_of_keyless db.config hk a
    rw [hrun, hrun]
    exact ⟨congrArg (Script.run db) hupdate, congrArg (Script.run db) hdelete⟩
  update hk := by
    rw [hrun]
    exact (sendsWhen_update db.config ht hk a).run db
  delete hk := by
    rw [hrun]
    exact (sendsWhen_delete db.config ht hk a).run db
  insert hk := by
    rw [hrun]
    exact (sendsWhen_insert db.config ht hk a).run db
  insertKey column hk := by
    rw [hrun]
    exact (sendsWhen_insertKey db.config ht hk a).run db

/-- A cell whose name no column has is kept, whatever columns are left out. -/
theorem mem_cellsBut {cell : String × Value} (hcell : cell ∈ (e.row a).pairs)
    (hc : ∀ column ∈ e.columns, sameIgnoringCase column.name cell.1 = false)
    (skip : MappedColumn α → Bool) : cell ∈ e.cellsBut a skip := by
  refine List.mem_filter.mpr ⟨hcell, ?_⟩
  rw [Bool.not_eq_true', List.any_eq_false]
  intro column hcolumn
  rw [hc column hcolumn, Bool.and_false]
  exact Bool.false_ne_true

/-- **Writing a record touches the row of its key and nothing else.** On a database of either kind,
changing and removing a record fail with nothing sent if the table has no key. Otherwise they send
one statement if its values can be written: it sets the cells of the record's row that neither a key
column nor one made by the engine has the name of, each to its own value, and it is for the rows for
which the test of every key column holds. Inserting the record writes the cells that no column made
by the engine has the name of. The row holds values only, and the key of a foreign member is among
what is changed and what is inserted, unless a column or a member before it has its name. -/
theorem record_writes {ω : Type} (e : Entity α)
    (ht : (TableName.parse e.table).aliasName = none) (a : α) :
    (∀ db : Database ω, e.WritesBy a db (Operation.run db)) ∧
    (∀ (db : CancellableDatabase ω) (t : CancelToken ω),
      e.WritesBy a (db.under t) (Operation.runCancellable db t)) ∧
    Row.ofPairs (e.row a).pairs = e.row a ∧
    ∀ (f : ForeignMember α) (before after : List (ForeignMember α)),
      e.owned = before ++ f :: after →
      (∀ column ∈ e.columns, sameIgnoringCase column.name f.sourceColumn = false) →
      (∀ g ∈ before, sameIgnoringCase g.sourceColumn f.sourceColumn = false) →
      (f.sourceColumn, f.keyOf a) ∈ e.changes a ∧ (f.sourceColumn, f.keyOf a) ∈ e.insertions a := by
  refine ⟨fun db => writesBy_of_script db (fun β o => o.run_eq db) ht a,
    fun db t => writesBy_of_script (db.under t) (fun β o => o.runCancellable_eq db t) ht a,
    e.ofPairs_row a, fun f before after ho hc hb => ?_⟩
  have hmem := e.mem_row_of_owned a ho hc hb
  exact ⟨mem_cellsBut hmem hc _, mem_cellsBut hmem hc _⟩

end Entity

namespace Sample

/-- A book that has an author and no editor. -/
def emma : Book := { id := 1, title := some "Emma", author := some { id := 7 } }

/-- The UPDATE of the book. -/
def emmaUpdate : Expression :=
  .ofPieces [.text "UPDATE \"Books\" SET \"Title\" = ", .bound (.text "Emma"),
    .text ", \"AuthorId\" = 7, \"EditorId\" = NULL WHERE \"Id\" = 1"]

/-- The book is found by its number, of which addresses have none. -/
theorem emma_written :
    (TableName.parse Book.entity.table).aliasName = none ∧
    (∃ next : Result Nat → Result Nat, Database.twoBooks.updateRecord Book.entity emma =
      (Database.twoBooks.send .execute (some .update) emmaUpdate).resume
        fun r => .ofResult (next r)) ∧
    (TableName.parse Address.mapping.table).aliasName = none ∧
    Database.twoBooks.deleteRecord { Address.mapping with } {} =
      .ofResult (.error (.validation (.noKeyColumn "Addresses"))) := by
  have hbook : (TableName.parse Book.entity.table).aliasName = none := by decide +kernel
  have haddress : (TableName.parse Address.mapping.table).aliasName = none := by decide +kernel
  have hwrites := (Entity.record_writes Book.entity hbook emma).1 Database.twoBooks
  have hkeyless := (Entity.record_writes { Address.mapping with } haddress {}).1 Database.twoBooks
  have hchanges : Book.entity.changes emma =
      [("Title", .text "Emma"), ("AuthorId", .int 7), ("EditorId", .null)] := rfl
  have hkeys : Book.entity.keys emma = [("Id", .int 1)] := rfl
  have hsent : (Book.entity.changes emma ≠ [] ∧
      (Binding.ofConfig (.new .sqlite)).WritesAll (Book.entity.changes emma) ∧
      (Binding.ofConfig (.new .sqlite)).WritesTests (Book.entity.keys emma)) := by
    rw [hchanges, hkeys]
    refine ⟨List.cons_ne_nil _ _, ?_, List.forall_mem_singleton.mpr fun _ => .inr rfl⟩
    simp only [Binding.WritesAll, List.forall_mem_cons]
    exact ⟨.inl rfl, .inr rfl, .inr rfl, fun _ h => by cases h⟩
  exact ⟨hbook, (hwrites.update (List.cons_ne_nil _ _)).sends hsent, haddress,
    (hkeyless.keyless rfl).2⟩

end Sample
end SqlWeave
