import SqlWeave.Proofs.Insert.Row
import SqlWeave.Proofs.Template.WellFormed

/-!
# What statements begin with

A statement begins with a word that stands at the front of its phrase. Checks stand before it, but
they are failures: if the phrase can be written, there are none. So each statement that changes rows
or tables begins with a word that the engine and the kind of the statement decide alone, whatever is
in the query, the rows and the options.

Results:
* `Phrase.Opens.begins`: a statement begins with what its phrase opens with.
* `Query.opens_selectPhrase`, `Query.opens_countPhrase`: the word of statements that read rows.
* `Query.opens_insertPhrase`, `Query.opens_batchPhrase`, `Query.opens_updatePhrase`,
  `Query.opens_deletePhrase`, `Query.opens_upsertPhrase`: the words of statements on rows.
* `Config.begins_createTable`, `Config.begins_createTableFrom`, `Config.begins_truncateTable`: those
  of statements on tables, among others.
-/

namespace SqlWeave

/-- A statement begins with a text, in every style. -/
def Expression.Begins (e : Expression) (s : String) : Prop :=
  ∀ style, ∃ rest, (e.render style).sql = s ++ rest

namespace Phrase

variable {b : Binding} {s : String} {p q c : Phrase}

/-- If the phrase can be written, its first piece is a text that begins with `s`. -/
def Opens (b : Binding) (s : String) (p : Phrase) : Prop :=
  ∀ ps, p.written b = .ok ps → ∃ t qs, ps = .text (s ++ t) :: qs

theorem opens_text (s t : String) (p : Phrase) : Opens b s (.text (s ++ t) :: p) := by
  intro ps h
  rw [written_text] at h
  obtain ⟨qs, -, rfl⟩ := map_eq_ok_iff.mp h
  exact ⟨t, qs, rfl⟩

theorem opens_word (s : String) (p : Phrase) : Opens b s (.text s :: p) := by
  have h := opens_text (b := b) s "" p
  rwa [String.append_empty] at h

theorem Opens.append (h : Opens b s p) (q : Phrase) : Opens b s (p ++ q) := by
  intro ps hps
  obtain ⟨ps, qs, hp, -, rfl⟩ := written_append_eq_ok_iff.mp hps
  obtain ⟨t, rest, rfl⟩ := h ps hp
  exact ⟨t, rest ++ qs, rfl⟩

/-- A phrase with a failure in it is never written. -/
theorem opens_of_failure_mem {e : Error} (h : .failure e ∈ p) : Opens b s p := by
  intro ps hps
  obtain ⟨p₁, p₂, rfl⟩ := List.append_of_mem h
  obtain ⟨-, qs, -, hq, -⟩ := written_append_eq_ok_iff.mp hps
  cases hq

/-! ### Checks -/

/-- What stands behind checks opens the phrase. -/
theorem IsCheck.opens (hc : IsCheck c) (h : Opens b s p) : Opens b s (c ++ p) := by
  cases c with
  | nil => exact h
  | cons part c =>
    obtain ⟨e, rfl⟩ := hc _ List.mem_cons_self
    exact opens_of_failure_mem List.mem_cons_self

theorem isCheck_checkTableName (name : String) : IsCheck (checkTableName name) := isCheck_failIf _ _

/-! ### Rendering -/

/-- A statement is what its pieces say, with marks in the places of values. -/
theorem exists_marks {ps : List Piece} (hps : p.written b = .ok ps) (style : Style) :
    ∃ marks, ((Expression.ofPieces ps).render style).sql = Expression.fillPieces ps marks := by
  have hflat : (Expression.ofPieces ps).isFlat :=
    isFlat_of_toExpression (toExpression_eq_ok_iff.mpr ⟨ps, hps, rfl⟩)
  have hleaves : (Expression.ofPieces ps).leaves = Piece.normal ps :=
    (Expression.leaves_of_isFlat hflat).trans (Expression.pieces_ofPieces ps)
  refine ⟨(List.range' 1 (Piece.params (Piece.normal ps)).length).map style.mark, ?_⟩
  unfold Expression.render
  rw [hleaves, Expression.renderFrom_eq, Expression.fillPieces_normal, String.empty_append]

/-- **A statement begins with what its phrase opens with.** -/
theorem Opens.begins (h : Opens b s p) {e : Expression} (he : p.toExpression b = .ok e) :
    e.Begins s := by
  intro style
  obtain ⟨ps, hps, rfl⟩ := toExpression_eq_ok_iff.mp he
  obtain ⟨marks, hsql⟩ := exists_marks hps style
  obtain ⟨t, qs, rfl⟩ := h ps hps
  exact ⟨_, hsql.trans (String.append_assoc ..)⟩

end Phrase

open Phrase

/-! ## Statements on rows -/

namespace Query

variable {b : Binding} (q : Query)

theorem opens_plainSelect : Opens b "SELECT " q.plainSelect :=
  ((opens_word _ _).append _).append _

theorem opens_selectPhrase : Opens b "SELECT " q.selectPhrase := by
  unfold selectPhrase
  cases q.dialect with
  | sqlServer =>
    unfold sqlServerSelect
    dsimp only
    split
    · exact (((opens_word _ _).append _).append _).append _
    · split
      · exact opens_of_failure_mem List.mem_cons_self
      · split
        · have hword := opens_text (b := b) "SELECT " "* FROM (SELECT ROW_NUMBER() OVER(ORDER BY "
            q.orderList
          exact ((((isCheck_failIf _ _).opens hword).append _).append _).append _
        · exact (q.opens_plainSelect.append _).append _
  | mysql => exact (q.opens_plainSelect.append _).append _
  | sqlite => exact (q.opens_plainSelect.append _).append _
  | firebird => exact (((opens_word _ _).append _).append _).append _

theorem opens_countPhrase (column : Option Column) :
    Opens b "SELECT " (q.countPhrase column) := by
  unfold countPhrase
  dsimp only
  split
  · exact (opens_word _ _).append _
  · split
    · exact (((opens_text "SELECT " "COUNT(*) FROM (SELECT " _).append _).append _).append _
    · exact (opens_text "SELECT " "COUNT(" _).append _

theorem isCheck_checkModification (m : Modification) (manyTables : Bool) :
    IsCheck (q.checkModification m manyTables) :=
  (q.isCheck_refuse _ _).append (isCheck_failIf _ _)

theorem opens_insertInto : Opens b "INSERT " q.insertInto := opens_text "INSERT " "INTO " _

theorem opens_insertRow (r : Row) : Opens b "INSERT " (q.insertRow r) := by
  unfold insertRow
  rw [List.append_assoc, List.append_assoc]
  exact (isCheck_checkCells _).opens (q.opens_insertInto.append _)

theorem opens_insertPhrase (r : Row) : Opens b "INSERT " (q.insertPhrase r) :=
  q.isCheck_checkInsert.opens (q.opens_insertRow r)

theorem opens_insertKeyPhrase (r : Row) (key : String) :
    Opens b "INSERT " (q.insertKeyPhrase r key) := by
  have h : Opens b "INSERT " (q.insertPhrase r) := q.opens_insertPhrase r
  unfold insertKeyPhrase
  split
  · exact h.append _
  · exact h.append _
  · exact h.append _
  · exact ((isCheck_failIf _ _).opens h).append _

theorem opens_insertSelectedPhrase (source : Query) (columns : List String) :
    Opens b "INSERT " (q.insertSelectedPhrase source columns) := by
  refine q.isCheck_checkInsert.opens ?_
  split
  · exact opens_of_failure_mem List.mem_cons_self
  · exact (q.opens_insertInto.append _).append _

/-- The word that the INSERT of a batch begins with. -/
def batchWord (q : Query) : String :=
  match q.dialect with
  | .firebird => "EXECUTE BLOCK"
  | _ => "INSERT"

theorem opens_valuesBatch (rows : List Row) : Opens b "INSERT " (q.valuesBatch rows) :=
  (q.opens_insertInto.append _).append _

theorem opens_blockBatch (rows : List Row) : Opens b "EXECUTE BLOCK " (q.blockBatch rows) :=
  (((isCheck_failIf _ _).opens (opens_word _ _)).append _).append _

theorem opens_batchPhrase (rows : List Row) :
    Opens b (q.batchWord ++ " ") (q.batchPhrase rows) := by
  unfold batchWord batchPhrase
  cases q.dialect with
  | firebird => exact q.opens_blockBatch rows
  | _ => exact q.opens_valuesBatch rows

theorem opens_updatePhrase (cells : List Cell) : Opens b "UPDATE " (q.updatePhrase cells) := by
  have hc : IsCheck (checkCells cells ++ q.checkModification .update (!q.joins.isEmpty)) :=
    (isCheck_checkCells _).append (q.isCheck_checkModification _ _)
  refine hc.opens ?_
  -- on every engine the word is the first part, whatever follows
  cases q.dialect with
  | sqlServer => exact ((opens_word _ _).append _).append _
  | mysql => exact ((((opens_word _ _).append _).append _).append _).append _
  | sqlite => exact ((opens_word _ _).append _).append _
  | firebird => exact (((opens_word _ _).append _).append _).append _

theorem opens_deleteFrom (targets : List String) : Opens b "DELETE " (q.deleteFrom targets) :=
  ((opens_word _ _).append _).append _

theorem opens_deletePhrase : Opens b "DELETE " q.deletePhrase := by
  have hfrom : ∀ p : Phrase, Opens b "DELETE " (.text "DELETE FROM " :: p) :=
    opens_text "DELETE " "FROM "
  refine (q.isCheck_checkModification _ _).opens ?_
  cases q.dialect with
  | sqlServer => exact ((opens_word _ _).append _).append _
  | mysql =>
    dsimp only
    split
    · exact q.opens_deleteFrom _
    · exact (((hfrom _).append _).append _).append _
  | sqlite => exact (hfrom _).append _
  | firebird => exact (((hfrom _).append _).append _).append _

theorem opens_deleteJoinedPhrase : Opens b "DELETE " q.deleteJoinedPhrase := by
  unfold deleteJoinedPhrase
  cases q.dialect with
  | sqlServer => exact opens_of_failure_mem List.mem_cons_self
  | firebird => exact opens_of_failure_mem List.mem_cons_self
  | sqlite => exact q.opens_deletePhrase
  | mysql =>
    dsimp only
    split
    · exact q.opens_deletePhrase
    · exact (q.isCheck_checkModification _ _).opens (q.opens_deleteFrom _)

/-- The word that an upsert begins with. -/
def upsertWord (q : Query) : String :=
  match q.dialect with
  | .sqlServer | .firebird => "MERGE"
  | .mysql | .sqlite => "INSERT"

theorem opens_mergeInto : Opens b "MERGE " q.mergeInto :=
  (opens_text "MERGE " "INTO " _).append _

theorem opens_upsertRowsPhrase (rows : List Row) (u : Upsert) (first : Row) :
    Opens b (q.upsertWord ++ " ") (q.upsertRowsPhrase rows u first) := by
  unfold upsertWord upsertRowsPhrase
  cases q.dialect with
  | sqlServer => exact ((((q.opens_mergeInto.append _).append _).append _).append _).append _
  | mysql => exact ((q.opens_insertInto.append _).append _).append _
  | sqlite => exact ((q.opens_insertRow first).append _).append _
  | firebird => exact ((q.opens_mergeInto.append _).append _).append _

theorem isCheck_upsert (u : Upsert) (rows : List Row) : IsCheck (u.check rows) := by
  cases rows with
  | nil => exact fun part h => ⟨_, List.mem_singleton.mp h⟩
  | cons first rest =>
    refine IsCheck.append ?_ ?_
    · exact ((isCheck_checkRows _).append (isCheck_failIf _ _)).append (isCheck_failIf _ _)
    · split
      · exact fun part h => ⟨_, List.mem_singleton.mp h⟩
      · exact isCheck_nil

theorem opens_upsertPhrase (rows : List Row) (u : Upsert) :
    Opens b (q.upsertWord ++ " ") (q.upsertPhrase rows u) := by
  cases rows with
  | nil =>
    -- without rows the checks fail
    refine opens_of_failure_mem (e := .validation .noUpsertRows) ?_
    unfold upsertPhrase
    simp [Upsert.check]
  | cons first rest =>
    refine ((IsCheck.append ?_ q.isCheck_checkInsert).append (isCheck_upsert u _)).opens
      (q.opens_upsertRowsPhrase _ u first)
    split
    · exact q.isCheck_refuse _ _
    · exact isCheck_nil

end Query

/-! ## Statements on tables -/

theorem Schema.opens_phrase {b : Binding} (s : Schema) (d : Dialect) :
    Opens b "CREATE " (s.phrase d) := by
  obtain ⟨t, ht⟩ : ∃ t, s.createWords d = "CREATE " ++ t := by
    unfold createWords
    split
    · cases d
      · exact ⟨"TABLE ", rfl⟩
      · exact ⟨"TEMPORARY TABLE ", rfl⟩
      · exact ⟨"TEMP TABLE ", rfl⟩
      · exact ⟨"GLOBAL TEMPORARY TABLE ", rfl⟩
    · exact ⟨"TABLE ", rfl⟩
  unfold phrase
  rw [ht, List.append_assoc _ _ (join _ _), List.append_assoc _ _ (List.flatMap _ _),
    List.append_assoc _ _ [_, _]]
  exact ((isCheck_checkTableName _).append (isCheck_failIf _ _)).opens (opens_text _ _ _)

namespace Config

variable {c : Config} {e : Expression}

theorem begins_createTable {s : Schema} (h : c.createTable s = .ok e) : e.Begins "CREATE " := by
  unfold createTable define at h
  exact (s.opens_phrase c.dialect).begins (toExpression_of_guarded h)

/-- The word that the making of a table from a query begins with. -/
def copyWord : Dialect → String
  | .sqlServer => "SELECT"
  | _ => "CREATE"

theorem begins_createTableFrom {name : String} {source : Query}
    (h : c.createTableFrom name source = .ok e) : e.Begins (copyWord c.dialect ++ " ") := by
  refine Opens.begins ((isCheck_checkTableName name).opens ?_) h
  unfold copyWord
  cases c.dialect with
  | firebird => exact opens_of_failure_mem List.mem_cons_self
  | sqlServer => exact ((opens_text "SELECT " "* INTO " _).append _).append _
  | mysql => exact (opens_text "CREATE " "TABLE " _).append _
  | sqlite => exact (opens_text "CREATE " "TABLE " _).append _

theorem begins_dropTable {name : String} (h : c.dropTable name = .ok e) : e.Begins "DROP " :=
  Opens.begins ((isCheck_checkTableName name).opens (opens_text "DROP " "TABLE " _)) h

/-- The word that the emptying of a table begins with. -/
def truncateWord : Dialect → String
  | .sqlServer | .mysql => "TRUNCATE"
  | .sqlite | .firebird => "DELETE"

theorem begins_truncateTable {name : String} (h : c.truncateTable name = .ok e) :
    e.Begins (truncateWord c.dialect ++ " ") := by
  refine Opens.begins ((isCheck_checkTableName name).opens ?_) h
  unfold truncateWord
  cases c.dialect with
  | sqlServer | mysql => exact opens_text "TRUNCATE " "TABLE " _
  | sqlite | firebird => exact opens_text "DELETE " "FROM " _

theorem begins_addConstraint {k : Constraint} (h : c.addConstraint k = .ok e) :
    e.Begins "ALTER " :=
  Opens.begins (((isCheck_failIf _ _).opens (opens_text "ALTER " "TABLE " _)).append _) h

theorem begins_dropConstraint {table name : String} (h : c.dropConstraint table name = .ok e) :
    e.Begins "ALTER " :=
  Opens.begins ((((isCheck_checkTableName table).append (isCheck_failIf _ _)).append
    (isCheck_failIf _ _)).opens (opens_text "ALTER " "TABLE " _)) h

theorem begins_createIndex {i : Index} (h : c.createIndex i = .ok e) : e.Begins "CREATE " := by
  obtain ⟨t, ht⟩ : ∃ t,
      (if i.unique then "CREATE UNIQUE INDEX " else "CREATE INDEX ") = "CREATE " ++ t := by
    split
    · exact ⟨"UNIQUE INDEX ", rfl⟩
    · exact ⟨"INDEX ", rfl⟩
  unfold createIndex at h
  rw [ht] at h
  exact Opens.begins (opens_text _ _ _) h

theorem begins_dropIndex {table name : String} (h : c.dropIndex table name = .ok e) :
    e.Begins "DROP " :=
  Opens.begins (((isCheck_failIf _ _).opens (opens_text "DROP " "INDEX " _)).append _) h

end Config
end SqlWeave
