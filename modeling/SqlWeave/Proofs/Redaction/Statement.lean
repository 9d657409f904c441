import SqlWeave.Proofs.Redaction.Outcome
import SqlWeave.Query.Modify
import SqlWeave.Query.Upsert

/-!
# Bound values have no influence on the text of statements

Two inputs of a statement are alike when they are equal but for the content of values that
statements bind: they are equal when redacted. Every writer of statements says redacted phrases of
redacted inputs, and redacted phrases are written alike, so alike inputs have statements of one
form, or fail with one error.

Two writers are left out: the blocks of Firebird and the sources of its MERGE declare each text with
its length.

Results:
* `selectPhrase_redact`, `countPhrase_redact`, `insertPhrase_redact`, `updatePhrase_redact`,
  `deletePhrase_redact`, `deleteJoinedPhrase_redact`, `upsertPhrase_redact`, `valuesBatch_redact`:
  what a statement says of redacted inputs.
* **`statements_alike`**: alike inputs have statements of one form, or one error.
-/

namespace SqlWeave

namespace Query

variable (q : Query)

/-! ## Clauses -/

theorem scope_redact : q.redact.scope = q.scope := by
  simp [scope, redact]

theorem dialect_redact : q.redact.dialect = q.dialect := rfl

theorem binding_redact : q.redact.binding = q.binding := rfl

theorem plainTable_redact : q.redact.plainTable = q.plainTable.redact := rfl

theorem tableReference_redact : q.redact.tableReference = q.tableReference := rfl

theorem distinctWord_redact : q.redact.distinctWord = q.distinctWord.redact := by
  unfold distinctWord
  rw [Phrase.redact_onlyIf]
  rfl

theorem selectList_redact : q.redact.selectList = q.selectList.redact := by
  have hc : ∀ c : Column, Column.spliced (c.redact.selected q.scope) =
      (Column.spliced (c.selected q.scope)).redact := fun c =>
    Column.spliced_redact (c.selected_redact q.scope)
  have hs : q.redact.columns = q.columns.map Column.redact := rfl
  unfold selectList
  rw [q.scope_redact, hs, List.isEmpty_map, List.map_map]
  split
  · rfl
  · rw [Phrase.redact_join, List.map_map]
    simp only [Function.comp_def, hc]

theorem joining_redact (j : Join) : q.redact.joining j.redact = (q.joining j).redact := by
  unfold joining
  rw [q.scope_redact]
  simp only [Join.redact, ConditionGroup.isEmpty_redact, ConditionGroup.phrase_redact,
    Phrase.redact_append, Phrase.redact_text, Phrase.redact_onlyIf, Phrase.redact_nil]
  rfl

theorem joinings_redact : q.redact.joinings = q.joinings.redact := by
  have h : ∀ js : List Join, (js.map Join.redact).flatMap q.redact.joining =
      Phrase.redact (js.flatMap q.joining) := fun js => by
    induction js with
    | nil => rfl
    | cons j js ih =>
      rw [List.map_cons, List.flatMap_cons, List.flatMap_cons, ih, joining_redact,
        Phrase.redact_append]
  exact h q.joins

theorem fromTables_redact : q.redact.fromTables = q.fromTables.redact := by
  unfold fromTables
  rw [q.joinings_redact, Phrase.redact_append]
  rfl

theorem filtering_redact : q.redact.filtering = q.filtering.redact := by
  have hf : q.redact.filters = q.filters.redact := rfl
  unfold filtering
  rw [q.scope_redact, hf, ConditionGroup.isEmpty_redact, ConditionGroup.phrase_redact,
    Phrase.redact_onlyIf]
  rfl

theorem groups_redact : q.redact.groups = q.groups.redact := by
  have hc : ∀ c : Column, Column.spliced (c.redact.bare q.scope) =
      (Column.spliced (c.bare q.scope)).redact := fun c =>
    Column.spliced_redact (c.bare_redact q.scope)
  have hg : q.redact.groupBy = q.groupBy.map Column.redact := rfl
  unfold groups
  rw [q.scope_redact, hg, List.isEmpty_map, List.map_map, Phrase.redact_onlyIf, Phrase.redact_text,
    Phrase.redact_join, List.map_map]
  simp only [Function.comp_def, hc]

theorem groupFiltering_redact : q.redact.groupFiltering = q.groupFiltering.redact := by
  have hh : q.redact.having = q.having.redact := rfl
  unfold groupFiltering
  rw [q.scope_redact, hh, ConditionGroup.isEmpty_redact, ConditionGroup.phrase_redact,
    Phrase.redact_onlyIf]
  rfl

theorem body_redact : q.redact.body = q.body.redact := by
  unfold body grouping
  rw [q.fromTables_redact, q.filtering_redact, q.groups_redact, q.groupFiltering_redact,
    Phrase.redact_append, Phrase.redact_append, Phrase.redact_append]

theorem orderList_redact : q.redact.orderList = q.orderList.redact := by
  have ho : ∀ o : SortKey, Column.spliced (o.redact.expression q.scope) =
      (Column.spliced (o.expression q.scope)).redact := fun o =>
    Column.spliced_redact (o.expression_redact q.scope)
  have hk : q.redact.orderBy = q.orderBy.map SortKey.redact := rfl
  unfold orderList
  rw [q.scope_redact, hk, List.map_map, Phrase.redact_join, List.map_map]
  simp only [Function.comp_def, ho]

theorem ordering_redact : q.redact.ordering = q.ordering.redact := by
  have hk : q.redact.orderBy = q.orderBy.map SortKey.redact := rfl
  unfold ordering
  rw [q.orderList_redact, hk, List.isEmpty_map, Phrase.redact_onlyIf]
  rfl

/-! ## Refusals -/

theorem refuse_redact (statement : String) (clauses : List (Bool × String)) :
    q.redact.refuse statement clauses = (q.refuse statement clauses).redact := by
  unfold refuse
  induction clauses with
  | nil => rfl
  | cons c clauses ih =>
    rw [List.flatMap_cons, List.flatMap_cons, ih, Phrase.redact_append, Phrase.redact_failIf]
    rfl

theorem checkCells_redact (cells : List Cell) :
    checkCells (cells.map Cell.redact) = (checkCells cells).redact := by
  unfold checkCells
  rw [List.isEmpty_map, Phrase.redact_failIf]

theorem selectOnlyClauses_redact : q.redact.selectOnlyClauses = q.selectOnlyClauses := by
  simp [selectOnlyClauses, redact, ConditionGroup.isEmpty_redact]

theorem refusedClauses_redact (m : Modification) (manyTables : Bool) :
    q.redact.refusedClauses m manyTables = q.refusedClauses m manyTables := by
  unfold refusedClauses
  rw [q.selectOnlyClauses_redact]
  simp [redact, dialect, ConditionGroup.isEmpty_redact]

theorem checkModification_redact (m : Modification) (manyTables : Bool) :
    q.redact.checkModification m manyTables = (q.checkModification m manyTables).redact := by
  have hf : q.redact.filters = q.filters.redact := rfl
  unfold checkModification checkSafe
  rw [q.refusedClauses_redact, q.refuse_redact, hf, ConditionGroup.isEmpty_redact,
    Phrase.redact_append, Phrase.redact_failIf]
  rfl

theorem checkInsert_redact : q.redact.checkInsert = q.checkInsert.redact := by
  unfold checkInsert
  rw [q.dialect_redact, q.selectOnlyClauses_redact, q.refuse_redact]
  cases q.dialect <;> rfl

/-! ## Selections -/

theorem numberedRows_redact (offset : Nat) :
    q.redact.numberedRows offset = (q.numberedRows offset).redact := by
  unfold numberedRows
  rw [q.orderList_redact, q.selectList_redact, q.body_redact]
  simp only [Phrase.redact_append, Phrase.redact_failIf, Phrase.redact_text, Phrase.redact_nil]
  rfl

theorem plainSelect_redact : q.redact.plainSelect = q.plainSelect.redact := by
  unfold plainSelect
  rw [q.distinctWord_redact, q.selectList_redact, q.body_redact]
  simp only [List.cons_append, Phrase.redact_text, Phrase.redact_append]

theorem sqlServerSelect_redact : q.redact.sqlServerSelect = q.sqlServerSelect.redact := by
  have hk : q.redact.orderBy = q.orderBy.map SortKey.redact := rfl
  unfold sqlServerSelect
  rw [q.plainSelect_redact, q.ordering_redact, q.distinctWord_redact, q.selectList_redact,
    q.body_redact, hk, List.isEmpty_map]
  have hf : q.redact.offset = q.offset := rfl
  rw [hf]
  cases q.offset with
  | none => simp only [Phrase.redact_text, Phrase.redact_append, List.cons_append]; rfl
  | some offset =>
    simp only [q.numberedRows_redact]
    by_cases ho : q.orderBy.isEmpty
    · simp only [ho, if_true]; rfl
    · by_cases hp : q.config.useOldPagination
      · have hp' : q.redact.config.useOldPagination = true := hp
        simp only [ho, hp, hp', if_true]; rfl
      · have hp' : ¬ q.redact.config.useOldPagination = true := hp
        simp only [ho, hp, hp']
        simp only [Bool.false_eq_true, if_false, Phrase.redact_append]
        rfl

/-- **A redacted query selects what the query selects**, up to the content of bound values. -/
theorem selectPhrase_redact : q.redact.selectPhrase = q.selectPhrase.redact := by
  unfold selectPhrase
  rw [q.dialect_redact, q.sqlServerSelect_redact, q.plainSelect_redact, q.ordering_redact,
    q.distinctWord_redact, q.selectList_redact, q.body_redact]
  cases q.dialect with
  | sqlServer => rfl
  | mysql => simp only [Phrase.redact_append]; rfl
  | sqlite => simp only [Phrase.redact_append]; rfl
  | firebird => simp only [List.cons_append, Phrase.redact_text, Phrase.redact_append]; rfl

theorem countPhrase_redact (column : Option Column) :
    q.redact.countPhrase (column.map Column.redact) = (q.countPhrase column).redact := by
  have hs : ∀ c : Column, Column.spliced (c.redact.selected q.scope) =
      (Column.spliced (c.selected q.scope)).redact := fun c =>
    Column.spliced_redact (c.selected_redact q.scope)
  have hb : ∀ c : Column, Column.spliced (c.redact.bare q.scope) =
      (Column.spliced (c.bare q.scope)).redact := fun c =>
    Column.spliced_redact (c.bare_redact q.scope)
  have hg : q.redact.groupBy = q.groupBy.map Column.redact := rfl
  have hd : q.redact.distinct = q.distinct := rfl
  have hf : ∀ f : Column → Bool, (∀ c : Column, f c.redact = f c) →
      (column.map Column.redact).filter f = (column.filter f).map Column.redact := fun f hf => by
    cases column with
    | none => rfl
    | some c => simp only [Option.map_some, Option.filter, hf]; split <;> rfl
  unfold countPhrase
  rw [q.scope_redact, q.distinctWord_redact, q.selectList_redact, q.body_redact, hg,
    List.isEmpty_map, hd, hf _ fun c => c.isAggregate_redact,
    hf (!·.isAll) fun c => congrArg Bool.not c.isAll_redact]
  cases column.filter Column.isAggregate with
  | some c =>
    simp only [Option.map_some, hs, List.cons_append, Phrase.redact_text, Phrase.redact_append]
  | none =>
    simp only [Option.map_none]
    split <;> cases column.filter (!·.isAll) <;>
      simp only [Option.map_some, Option.map_none, hs, hb, List.cons_append, List.nil_append,
        Phrase.redact_text, Phrase.redact_append, Phrase.redact_nil]

/-! ## Changes -/

theorem nameList_redact (d : Dialect) (names : List String) :
    (Phrase.nameList d names).redact = Phrase.nameList d names := by
  unfold Phrase.nameList
  simp only [List.cons_append, Phrase.redact_text, Phrase.redact_append, Phrase.redact_join,
    List.map_map, Function.comp_def, Phrase.redact_nil]

theorem cellValues_redact (cells : List Cell) :
    Phrase.cellValues (cells.map Cell.redact) = (Phrase.cellValues cells).redact := by
  unfold Phrase.cellValues
  simp only [List.cons_append, Phrase.redact_text, Phrase.redact_append, Phrase.redact_join,
    List.map_map, Function.comp_def, Phrase.redact_nil, Cell.redact, Phrase.ofParam_redact]

theorem assignments_redact (d : Dialect) (cells : List Cell) :
    Phrase.assignments d (cells.map Cell.redact) = (Phrase.assignments d cells).redact := by
  unfold Phrase.assignments
  simp only [Phrase.redact_text, Phrase.redact_join, List.map_map, Function.comp_def, Cell.redact,
    Phrase.ofParam_redact]

theorem insertRow_redact (r : Row) : q.redact.insertRow r.redact = (q.insertRow r).redact := by
  have hc : r.redact.cells = r.cells.map Cell.redact := rfl
  unfold insertRow
  rw [hc, checkCells_redact, r.names_redact, cellValues_redact]
  simp only [Phrase.redact_text, Phrase.redact_append, nameList_redact]
  rfl

theorem insertPhrase_redact (r : Row) :
    q.redact.insertPhrase r.redact = (q.insertPhrase r).redact := by
  unfold insertPhrase
  rw [q.checkInsert_redact, q.insertRow_redact, Phrase.redact_append]

theorem insertKeyPhrase_redact (r : Row) (key : String) :
    q.redact.insertKeyPhrase r.redact key = (q.insertKeyPhrase r key).redact := by
  unfold insertKeyPhrase
  rw [q.dialect_redact, q.insertPhrase_redact]
  cases q.dialect <;> simp only [Phrase.redact_append, Phrase.redact_failIf] <;> rfl

theorem updatePhrase_redact (cells : List Cell) :
    q.redact.updatePhrase (cells.map Cell.redact) = (q.updatePhrase cells).redact := by
  have hj : q.redact.joins.isEmpty = q.joins.isEmpty := List.isEmpty_map
  have hn : q.redact.needsTarget = q.needsTarget := by unfold needsTarget; rw [hj]; rfl
  have ht : q.redact.table = q.table := rfl
  unfold updatePhrase
  rw [hj, hn, ht, checkCells_redact, q.checkModification_redact, q.dialect_redact,
    assignments_redact, q.fromTables_redact, q.filtering_redact, q.joinings_redact,
    q.ordering_redact]
  simp only [Phrase.redact_append]
  congr 1
  cases q.dialect with
  | sqlServer => cases q.needsTarget <;> simp [Phrase.redact_append] <;> exact ⟨rfl, rfl⟩
  | mysql => simp [Phrase.redact_append]; rfl
  | sqlite => cases q.table.aliasName <;> simp [Phrase.redact_append] <;> rfl
  | firebird => simp [Phrase.redact_append]; rfl

theorem deleteFrom_redact (targets : List String) :
    q.redact.deleteFrom targets = (q.deleteFrom targets).redact := by
  unfold deleteFrom
  rw [q.fromTables_redact, q.filtering_redact, Phrase.redact_append, Phrase.redact_append]
  rfl

theorem deletePhrase_redact : q.redact.deletePhrase = q.deletePhrase.redact := by
  have hj : q.redact.joins.isEmpty = q.joins.isEmpty := List.isEmpty_map
  have hn : q.redact.needsTarget = q.needsTarget := by unfold needsTarget; rw [hj]; rfl
  unfold deletePhrase
  rw [hn, q.checkModification_redact, q.dialect_redact, q.deleteFrom_redact, q.fromTables_redact,
    q.filtering_redact, q.ordering_redact, q.tableReference_redact, q.plainTable_redact]
  simp only [Phrase.redact_append]
  congr 1
  cases q.dialect with
  | sqlServer => cases q.needsTarget <;> simp [Phrase.redact_append] <;> rfl
  | mysql => cases q.needsTarget <;> simp [Phrase.redact_append]; rfl
  | sqlite => exact (Phrase.redact_append (.text "DELETE FROM " :: q.plainTable) _).symm
  | firebird => simp [Phrase.redact_append]; exact ⟨rfl, rfl⟩

theorem deleteJoinedPhrase_redact :
    q.redact.deleteJoinedPhrase = q.deleteJoinedPhrase.redact := by
  have hj : q.redact.joins.isEmpty = q.joins.isEmpty := List.isEmpty_map
  have ht : (q.redact.joins.map fun j => j.table.reference q.redact.dialect) =
      q.joins.map fun j => j.table.reference q.dialect := List.map_map
  unfold deleteJoinedPhrase
  rw [hj, ht, q.deletePhrase_redact, q.checkModification_redact, q.deleteFrom_redact,
    q.dialect_redact, q.tableReference_redact]
  cases q.dialect with
  | sqlServer => rfl
  | firebird => rfl
  | sqlite => rfl
  | mysql => by_cases h : q.joins.isEmpty <;> simp [h]

/-! ## Many rows -/

theorem checkRows_redact (rows : List Row) :
    checkRows (rows.map Row.redact) = (checkRows rows).redact := by
  cases rows with
  | nil => rfl
  | cons first rest =>
    have hs : ((first :: rest).map Row.redact).all (·.sameShape first.redact) =
        (first :: rest).all (·.sameShape first) := by
      rw [List.all_map]
      congr 1
      funext r
      exact r.sameShape_redact first
    rw [List.map_cons] at hs ⊢
    rw [checkRows, checkRows, hs, Phrase.redact_append, Phrase.redact_failIf]
    exact congrArg (· ++ _) (checkCells_redact first.cells)

theorem valuesBatch_redact (rows : List Row) :
    q.redact.valuesBatch (rows.map Row.redact) = (q.valuesBatch rows).redact := by
  have hn : ((rows.map Row.redact).head?.map Row.names) = rows.head?.map Row.names := by
    cases rows with
    | nil => rfl
    | cons r rows => exact congrArg some r.names_redact
  have hc : ∀ r : Row, Phrase.cellValues r.redact.cells = (Phrase.cellValues r.cells).redact :=
    fun r => cellValues_redact r.cells
  unfold valuesBatch
  rw [hn, List.map_map, q.dialect_redact]
  simp only [Phrase.redact_append, Phrase.redact_text, Phrase.redact_join, nameList_redact,
    List.map_map, Function.comp_def, hc]
  rfl

theorem batches_redact (he : q.config.escapeStrings = false) (rows : List Row) :
    q.redact.batches (rows.map Row.redact) = (q.batches rows).map (·.map Row.redact) := by
  have hb : ∀ (l : BatchLimit) (weight : Row → Nat), (∀ r : Row, weight r.redact = weight r) →
      ∀ (rows batch : List Row) (bound : Nat),
        batchesFrom l weight (batch.map Row.redact) bound (rows.map Row.redact) =
          (batchesFrom l weight batch bound rows).map (·.map Row.redact) := by
    intro l weight hw rows
    induction rows with
    | nil =>
      intro batch bound
      cases batch with
      | nil => rfl
      | cons r batch => simp [batchesFrom]
    | cons r rows ih =>
      intro batch bound
      rw [List.map_cons]
      unfold batchesFrom
      rw [List.isEmpty_map, List.length_map, hw]
      split
      · rw [List.map_cons, List.map_reverse]
        exact congrArg _ (ih [r] (weight r))
      · exact ih (r :: batch) (bound + weight r)
  exact hb q.batchLimit q.binding.weight (Binding.weight_redact he) rows [] 0

/-! ## Upserts -/

theorem unknown?_redact (u : Upsert) (r : Row) : u.unknown? r.redact = u.unknown? r := by
  unfold Upsert.unknown?
  congr 1
  funext n
  rw [r.cell?_redact, Option.isNone_map]

theorem check_redact (u : Upsert) (rows : List Row) :
    u.check (rows.map Row.redact) = (u.check rows).redact := by
  cases rows with
  | nil => rfl
  | cons first rest =>
    have hr := checkRows_redact (first :: rest)
    rw [List.map_cons] at hr ⊢
    rw [Upsert.check, Upsert.check, hr, unknown?_redact]
    simp only [Phrase.redact_append, Phrase.redact_failIf]
    cases u.unknown? first <;> rfl

theorem mergeClauses_redact (u : Upsert) (d : Dialect) (names : List String) :
    (u.mergeClauses d names).redact = u.mergeClauses d names := by
  unfold Upsert.mergeClauses Upsert.equation
  simp only [List.cons_append, Phrase.redact_text, Phrase.redact_append, Phrase.redact_join,
    List.map_map, Function.comp_def, Phrase.redact_nil, nameList_redact]

/-- On engines other than Firebird, whose source of a MERGE has types with lengths. -/
theorem upsertRowsPhrase_redact (hd : q.dialect ≠ .firebird) (rows : List Row) (u : Upsert)
    (first : Row) :
    q.redact.upsertRowsPhrase (rows.map Row.redact) u first.redact =
      (q.upsertRowsPhrase rows u first).redact := by
  have hc : ∀ r : Row, Phrase.cellValues r.redact.cells = (Phrase.cellValues r.cells).redact :=
    fun r => cellValues_redact r.cells
  unfold upsertRowsPhrase
  rw [q.dialect_redact, q.insertRow_redact, first.names_redact, List.map_map]
  cases h : q.dialect with
  | firebird => exact absurd h hd
  | sqlServer =>
    simp only [Phrase.redact_append, Phrase.redact_text, Phrase.redact_nil, Phrase.redact_join,
      List.map_map, Function.comp_def, hc, nameList_redact, mergeClauses_redact]
    rfl
  | mysql =>
    simp only [Phrase.redact_append, Phrase.redact_text, Phrase.redact_nil, Phrase.redact_join,
      List.map_map, Function.comp_def, hc, nameList_redact]
    rfl
  | sqlite =>
    simp only [Phrase.redact_append, Phrase.redact_text, Phrase.redact_nil, Phrase.redact_join,
      List.map_map, Function.comp_def, nameList_redact]

theorem upsertPhrase_redact (hd : q.dialect ≠ .firebird) (rows : List Row) (u : Upsert) :
    q.redact.upsertPhrase (rows.map Row.redact) u = (q.upsertPhrase rows u).redact := by
  unfold upsertPhrase
  rw [q.dialect_redact, q.checkInsert_redact, check_redact, q.refuse_redact, List.length_map]
  simp only [Phrase.redact_append]
  congr 1
  · congr 2
    cases q.dialect <;> rfl
  · cases rows with
    | nil => rfl
    | cons first rest => exact q.upsertRowsPhrase_redact hd (first :: rest) u first

end Query

/-! ## Statements -/

open Expression (SameForm)

namespace Query

variable {q₁ q₂ : Query} (hq : q₁.redact = q₂.redact)
include hq

/-- Alike queries write what they say alike. -/
theorem alike_toExpression (he : q₁.config.escapeStrings = false) {p₁ p₂ : Phrase}
    (h : p₁.redact = p₂.redact) :
    Alike SameForm (p₁.toExpression q₁.binding) (p₂.toExpression q₂.binding) := by
  have hb : q₁.binding = q₂.binding := by rw [← q₁.binding_redact, hq, q₂.binding_redact]
  rw [← hb]
  exact Phrase.alike_of_redact_eq he h

variable {rows₁ rows₂ : List Row} (hr : rows₁.map Row.redact = rows₂.map Row.redact)
include hr

theorem checkBulk_eq (he : q₁.config.escapeStrings = false) :
    q₁.checkBulk rows₁ = q₂.checkBulk rows₂ := by
  have hp : (q₁.checkInsert ++ checkRows rows₁).redact =
      (q₂.checkInsert ++ checkRows rows₂).redact := by
    rw [Phrase.redact_append, Phrase.redact_append, ← q₁.checkInsert_redact,
      ← q₂.checkInsert_redact, ← checkRows_redact, ← checkRows_redact, hq, hr]
  have ha := alike_toExpression hq he hp
  unfold checkBulk
  generalize Phrase.toExpression (q₁.checkInsert ++ checkRows rows₁) q₁.binding = r at ha ⊢
  generalize Phrase.toExpression (q₂.checkInsert ++ checkRows rows₂) q₂.binding = r' at ha ⊢
  cases ha <;> rfl

/-- Alike rows are cut at the same places, so their batches say the same. -/
theorem map_batchPhrase_redact (hd : q₁.dialect ≠ .firebird)
    (he : q₁.config.escapeStrings = false) :
    ((q₁.batches rows₁).map q₁.batchPhrase).map Phrase.redact =
      ((q₂.batches rows₂).map q₂.batchPhrase).map Phrase.redact := by
  have hv : ∀ {q : Query}, q.dialect ≠ .firebird → ∀ rows : List Row,
      (q.batchPhrase rows).redact = q.redact.valuesBatch (rows.map Row.redact) :=
    fun {q} hd rows => by
      rw [q.valuesBatch_redact]
      unfold batchPhrase
      cases h : q.dialect with
      | firebird => exact absurd h hd
      | _ => rfl
  have hm : ∀ {q : Query}, q.dialect ≠ .firebird → q.config.escapeStrings = false →
      ∀ rows : List Row, ((q.batches rows).map q.batchPhrase).map Phrase.redact =
        (q.redact.batches (rows.map Row.redact)).map q.redact.valuesBatch :=
    fun {q} hd he rows => by
      rw [q.batches_redact he, List.map_map, List.map_map]
      exact List.map_congr_left fun batch _ => hv hd batch
  have hd₂ : q₂.dialect ≠ .firebird := by
    rw [← q₂.dialect_redact, ← hq]
    exact hd
  have he₂ : q₂.config.escapeStrings = false := by
    have hc : q₂.redact.config.escapeStrings = false := by
      rw [← hq]
      exact he
    exact hc
  rw [hm hd he, hm hd₂ he₂, hq, hr]

theorem bulkInsert_alike (hd : q₁.dialect ≠ .firebird) (he : q₁.config.escapeStrings = false) :
    Alike (List.Forall₂ SameForm) (q₁.bulkInsert rows₁) (q₂.bulkInsert rows₂) := by
  have hw : ∀ (q : Query) (rows : List Row), (q.bulkBatches rows).mapM (·.2) =
      ((q.batches rows).map q.batchPhrase).mapM (·.toExpression q.binding) := fun q rows => by
    unfold bulkBatches
    rw [List.mapM_map, List.mapM_map]
    rfl
  have hb : q₁.binding = q₂.binding := by rw [← q₁.binding_redact, hq, q₂.binding_redact]
  have ha := Phrase.alike_mapM he (map_batchPhrase_redact hq hr hd he)
  unfold bulkInsert
  rw [checkBulk_eq hq hr he, hw, hw, ← hb]
  cases q₂.checkBulk rows₂ with
  | error e => exact .error e
  | ok _ => exact ha

theorem upsert_alike (hd : q₁.dialect ≠ .firebird) (he : q₁.config.escapeStrings = false)
    (u : Upsert) : Alike SameForm (q₁.upsert rows₁ u) (q₂.upsert rows₂ u) := by
  have hd₂ : q₂.dialect ≠ .firebird := by
    rw [← q₂.dialect_redact, ← hq]
    exact hd
  refine alike_toExpression hq he ?_
  rw [← q₁.upsertPhrase_redact hd, ← q₂.upsertPhrase_redact hd₂, hq, hr]

end Query

/-- **The content of bound values has no influence on the text of a statement.** Two queries, with
columns and rows that differ in nothing but the content of texts, bytes, dates, times, identifiers
and documents, have statements with one template, one list of places and values of the same kinds,
or fail with one error; a bulk insert has as many statements. -/
theorem statements_alike {q₁ q₂ : Query} (hq : q₁.redact = q₂.redact)
    (he : q₁.config.escapeStrings = false) :
    Alike SameForm q₁.select q₂.select ∧
      (∀ c₁ c₂ : Option Column, c₁.map Column.redact = c₂.map Column.redact →
        Alike SameForm (q₁.count c₁) (q₂.count c₂)) ∧
      (∀ r₁ r₂ : Row, r₁.redact = r₂.redact →
        Alike SameForm (q₁.insert r₁) (q₂.insert r₂) ∧
        (∀ key : String, Alike SameForm (q₁.insertKey r₁ key) (q₂.insertKey r₂ key)) ∧
        Alike SameForm (q₁.update r₁.cells) (q₂.update r₂.cells)) ∧
      Alike SameForm q₁.delete q₂.delete ∧
      Alike SameForm q₁.deleteJoined q₂.deleteJoined ∧
      (q₁.dialect ≠ .firebird → ∀ rows₁ rows₂ : List Row,
        rows₁.map Row.redact = rows₂.map Row.redact →
        (∀ u : Upsert, Alike SameForm (q₁.upsert rows₁ u) (q₂.upsert rows₂ u)) ∧
        Alike (List.Forall₂ SameForm) (q₁.bulkInsert rows₁) (q₂.bulkInsert rows₂)) := by
  refine ⟨?_, ?_, ?_, ?_, ?_, ?_⟩
  · refine Query.alike_toExpression hq he ?_
    rw [← q₁.selectPhrase_redact, hq, q₂.selectPhrase_redact]
  · intro c₁ c₂ hc
    refine Query.alike_toExpression hq he ?_
    rw [← q₁.countPhrase_redact, hq, hc, q₂.countPhrase_redact]
  · intro r₁ r₂ hr
    have hc : r₁.cells.map Cell.redact = r₂.cells.map Cell.redact := congrArg Row.cells hr
    refine ⟨?_, fun key => ?_, ?_⟩ <;> refine Query.alike_toExpression hq he ?_
    · rw [← q₁.insertPhrase_redact, hq, hr, q₂.insertPhrase_redact]
    · rw [← q₁.insertKeyPhrase_redact, hq, hr, q₂.insertKeyPhrase_redact]
    · rw [← q₁.updatePhrase_redact, hq, hc, q₂.updatePhrase_redact]
  · refine Query.alike_toExpression hq he ?_
    rw [← q₁.deletePhrase_redact, hq, q₂.deletePhrase_redact]
  · refine Query.alike_toExpression hq he ?_
    rw [← q₁.deleteJoinedPhrase_redact, hq, q₂.deleteJoinedPhrase_redact]
  · intro hd rows₁ rows₂ hr
    exact ⟨Query.upsert_alike hq hr hd he, Query.bulkInsert_alike hq hr hd he⟩

/-- The row of a book. -/
def bookRow (title : String) : Row := .ofPairs [("title", .text title), ("copies", .int 2)]

/-- The books of a title. -/
def booksTitled (title : String) : Query :=
  (Query.new ⟨"books", none⟩ (.new .sqlite)).filter (.equals "title" (.text title))

theorem booksTitled_alike :
    Alike SameForm (booksTitled "Emma").select (booksTitled "Persuasion").select ∧
      Alike (List.Forall₂ SameForm)
        ((booksTitled "Emma").bulkInsert [bookRow "Emma", bookRow "Emma"])
        ((booksTitled "Persuasion").bulkInsert [bookRow "Emma", bookRow "Persuasion"]) := by
  have hq : (booksTitled "Emma").redact = (booksTitled "Persuasion").redact := rfl
  have h := statements_alike hq rfl
  refine ⟨h.1, ?_⟩
  exact (h.2.2.2.2.2 (by decide) [bookRow "Emma", bookRow "Emma"]
    [bookRow "Emma", bookRow "Persuasion"] rfl).2

end SqlWeave
