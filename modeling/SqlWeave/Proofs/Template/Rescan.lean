import SqlWeave.Proofs.Template.Composed
import SqlWeave.Proofs.Template.WellFormed

/-!
# Scanning a statement finds its parameters

The clauses and statements of a composed query are put together from items and the words between
them. No name, alias or value opens quotes that it does not close, so scanning the text of a
statement finds the places that were recorded when it was written, and no others.

Results:
* `clause_body`, `clause_ordering`: the clauses shared by all engines follow what is before them.
* `item_select`, `item_count`, `item_insert`, `item_block`, `item_update`, `item_delete`,
  `item_upsert`: the statements are items.
* `rescan_finds_slots`: scanning any of them finds exactly its parameters.
-/

namespace SqlWeave

open Template Number

/-- A row without fragments, whose names do not claim to be quoted. -/
def Row.Composed (d : Dialect) (r : Row) : Prop :=
  ∀ c ∈ r.cells, d.Unquoted c.name ∧ ∃ v, c.value = .value v

/-- A query without fragments, whose names do not claim to be quoted and whose operators have no
quotes and no question marks. -/
structure Query.Composed (q : Query) : Prop where
  table : q.table.Unquoted q.dialect
  columns : ∀ c ∈ q.columns, c.Composed q.config
  joins : ∀ j ∈ q.joins, j.table.Unquoted q.dialect ∧ j.on.Composed q.config
  filters : q.filters.Composed q.config
  groupBy : ∀ c ∈ q.groupBy, c.Composed q.config
  having : q.having.Composed q.config
  orderBy : ∀ o ∈ q.orderBy, o.column.Composed q.config

namespace Phrase

variable {b : Binding} {P : Place → Prop}

/-! ## Names and cells -/

theorem item_nameList {d : Dialect} {names : List String} (h : ∀ n ∈ names, d.Unquoted n) :
    Item b (nameList d names) := by
  refine item_enclosed (by decide) (by decide) (item_join_map (by decide) fun n hn => ?_)
  exact .word (d.word_quote (h n hn)) reads_nil

theorem item_cell {d : Dialect} {r : Row} (h : r.Composed d) {c : Cell} (hc : c ∈ r.cells) :
    Item b (ofParam c.value) := by
  obtain ⟨v, hv⟩ := (h c hc).2
  rw [hv]
  exact item_value v

theorem item_cellValues {d : Dialect} {r : Row} (h : r.Composed d) :
    Item b (cellValues r.cells)  :=
  item_enclosed (by decide) (by decide) (item_join_map (by decide) fun c hc => item_cell h hc)

theorem item_assignments {d : Dialect} {r : Row} (h : r.Composed d) :
    Item b (assignments d r.cells) :=
  item_join_map (by decide) fun c hc =>
    .word (d.word_quote (h c hc).1) <| .joint (by decide) (item_cell h hc)

end Phrase

theorem Row.unquoted_of_mem_names {d : Dialect} {r : Row} (h : r.Composed d) {n : String}
    (hn : n ∈ r.names) : d.Unquoted n := by
  obtain ⟨c, hc, rfl⟩ := List.mem_map.mp hn
  exact (h c hc).1

namespace Query

variable {q : Query} {b : Binding} {P : Place → Prop}

/-! ## Refusals -/

theorem reads_refuse (statement : String) (clauses : List (Bool × String)) :
    Phrase.Reads b P P (q.refuse statement clauses) :=
  Phrase.reads_flatMap fun _ _ => Phrase.reads_failIf _ _

theorem reads_checkInsert : Phrase.Reads b P P q.checkInsert := by
  unfold checkInsert
  split
  · exact reads_refuse _ _
  · exact Phrase.reads_nil

theorem reads_checkModification (m : Modification) (manyTables : Bool) :
    Phrase.Reads b P P (q.checkModification m manyTables) :=
  (reads_refuse _ _).append (Phrase.reads_failIf _ _)

theorem reads_checkRows (rows : List Row) : Phrase.Reads b P P (checkRows rows) := by
  cases rows with
  | nil => exact Phrase.reads_nil
  | cons r rows => exact (Phrase.reads_failIf _ _).append (Phrase.reads_failIf _ _)

/-! ## Clauses -/

section

variable (hq : q.Composed)
include hq

theorem item_spliced_bare {cs : List Column} (hc : ∀ c ∈ cs, c.Composed q.config) :
    Phrase.Item b (Phrase.join ", " (cs.map fun c => Column.spliced (c.bare q.scope))) :=
  Phrase.item_join_map (by decide) fun c hm =>
    Phrase.item_spliced fun _ he => Column.firm_bare (s := q.scope) hq.table (hc c hm) he

theorem item_selectList : Phrase.Item b q.selectList := by
  unfold selectList
  split
  · exact .neutral (by decide) Phrase.item_nil
  · exact Phrase.item_join_map (by decide) fun c hm => Phrase.item_spliced fun _ he =>
      Column.firm_selected (s := q.scope) hq.table (hq.columns c hm) he

theorem clause_joining {j : Join} (hj : j ∈ q.joins) : Phrase.Clause b (q.joining j) := by
  obtain ⟨ht, hon⟩ := hq.joins j hj
  refine .joint (by decide) <| .text j.kind.neutral_text <| .neutral (by decide) <|
    .word (TableName.word_declared ht) <| Phrase.reads_onlyIf _ ?_
  exact .joint (by decide) (ConditionGroup.item_phrase (s := q.scope) b hq.table hon)

theorem clause_joinings : Phrase.Clause b q.joinings :=
  Phrase.reads_flatMap fun _ hj => clause_joining hq hj

theorem clause_fromTables : Phrase.Clause b q.fromTables :=
  .joint (by decide) <| .word (TableName.word_declared hq.table) (clause_joinings hq)

theorem clause_filtering : Phrase.Clause b q.filtering :=
  Phrase.reads_onlyIf _ <|
    .joint (by decide) (ConditionGroup.item_phrase (s := q.scope) b hq.table hq.filters)

theorem clause_grouping : Phrase.Clause b q.grouping := by
  have hgroups : Phrase.Clause b q.groups := Phrase.reads_onlyIf _ <|
    .joint (by decide) (item_spliced_bare hq hq.groupBy)
  have hhaving : Phrase.Clause b q.groupFiltering := Phrase.reads_onlyIf _ <|
    .joint (by decide) (ConditionGroup.item_phrase (s := q.scope) b hq.table hq.having)
  exact hgroups.append hhaving

theorem clause_body : Phrase.Clause b q.body :=
  ((clause_fromTables hq).append (clause_filtering hq)).append (clause_grouping hq)

theorem item_orderList : Phrase.Item b q.orderList :=
  Phrase.item_join_map (by decide) fun o ho => Phrase.item_spliced fun _ he =>
    SortKey.firm_expression (s := q.scope) hq.table (hq.orderBy o ho) he

theorem clause_ordering : Phrase.Clause b q.ordering :=
  Phrase.reads_onlyIf _ <| .joint (by decide) (item_orderList hq)

end

theorem reads_distinctWord : Phrase.Reads b Outside Outside q.distinctWord :=
  Phrase.reads_onlyIf _ <| .neutral (by decide) Phrase.reads_nil

theorem clause_mysqlLimit : Phrase.Clause b q.mysqlLimit :=
  .tail (Window.tail_limitOffset (neutral_natText _) _ _) Phrase.reads_nil

theorem clause_sqliteLimit : Phrase.Clause b q.sqliteLimit :=
  .tail (Window.tail_limitOffset (neutral_of (by decide)) _ _) Phrase.reads_nil

theorem clause_firebirdRows : Phrase.Clause b q.firebirdRows :=
  .tail (Window.tail_rows _ _) Phrase.reads_nil

/-! ## Selecting and counting -/

section

variable (hq : q.Composed)
include hq

theorem item_plainSelect : Phrase.Item b q.plainSelect :=
  ((Phrase.Reads.neutral (by decide) reads_distinctWord).append
    (item_selectList hq)).append (clause_body hq)

theorem item_numberedRows (offset : Nat) : Phrase.Item b (q.numberedRows offset) := by
  have hnumber : Word (q.dialect.quotePart rowNumberColumn) := q.dialect.word_quotePart _
  have halias : Joint (") AS " ++ q.dialect.quotePart rowNumberColumn ++ ", ") :=
    ((joint_of (by decide)).append_word hnumber).append_joint (joint_of (by decide))
  have hend : Phrase.Clause b
      [.text ") ", .text (q.dialect.quotePart q.table.aliasOrName), .text " WHERE ",
        .text (q.dialect.quotePart rowNumberColumn),
        .text (Window.numbered offset q.limit).condition] :=
    .joint (by decide) <| .word (q.dialect.word_quotePart _) <|
      .joint (by decide) <| .word hnumber <| .text (Window.joint_condition _) Phrase.item_nil
  have hinner : Phrase.Item b (.text "SELECT * FROM (SELECT ROW_NUMBER() OVER(ORDER BY " ::
      q.orderList) := .neutral (by decide) (item_orderList hq)
  exact ((((Phrase.reads_failIf _ _).append hinner).append
    (.text halias (item_selectList hq))).append (clause_body hq)).append hend

theorem item_sqlServerSelect : Phrase.Item b q.sqlServerSelect := by
  have htop : Phrase.Item b (.text (Window.top q.limit) :: q.selectList) :=
    .text (Window.neutral_top _) (item_selectList hq)
  unfold sqlServerSelect
  split
  · exact (((Phrase.Reads.neutral (by decide) reads_distinctWord).append htop).append
      (clause_body hq)).append (clause_ordering hq)
  · split
    · exact Phrase.reads_failure _
    · split
      · exact item_numberedRows hq _
      · exact ((item_plainSelect hq).append (clause_ordering hq)).append
          (.text (Window.joint_offsetFetch _ _) Phrase.item_nil)

theorem item_select : Phrase.Item b q.selectPhrase := by
  unfold selectPhrase
  split
  · exact item_sqlServerSelect hq
  · exact ((item_plainSelect hq).append (clause_ordering hq)).append clause_mysqlLimit
  · exact ((item_plainSelect hq).append (clause_ordering hq)).append clause_sqliteLimit
  · have hpage : Phrase.Reads b Outside Outside
        (.text "SELECT " :: .text (Window.firstSkip q.limit q.offset) :: q.distinctWord) :=
      .neutral (by decide) (.text (Window.neutral_firstSkip _ _) reads_distinctWord)
    exact ((hpage.append (item_selectList hq)).append (clause_body hq)).append (clause_ordering hq)

theorem item_count {column : Option Column} (hc : ∀ c ∈ column, c.Composed q.config) :
    Phrase.Item b (q.countPhrase column) := by
  have hselected : ∀ c ∈ column, Phrase.Item b (Column.spliced (c.selected q.scope)) :=
    fun c hm => Phrase.item_spliced fun _ he =>
      Column.firm_selected (s := q.scope) hq.table (hc c hm) he
  have hbare : ∀ c ∈ column, Phrase.Item b (Column.spliced (c.bare q.scope)) :=
    fun c hm => Phrase.item_spliced fun _ he =>
      Column.firm_bare (s := q.scope) hq.table (hc c hm) he
  unfold countPhrase
  dsimp only
  split
  · rename_i c hf
    have hm : c ∈ column := (Option.mem_filter_iff.mp hf).1
    exact (Phrase.Reads.neutral (by decide) (hselected c hm)).append (clause_body hq)
  · split
    · refine (((Phrase.Reads.neutral (by decide) reads_distinctWord).append ?_).append
        (clause_body hq)).append (.joint (by decide) Phrase.item_nil)
      split
      · rename_i c hf
        exact hselected c (Option.mem_filter_iff.mp hf).1
      · exact item_selectList hq
    · refine (Phrase.Reads.neutral (by decide) ?_).append
        (.joint (by decide) (clause_body hq).of_settled)
      split
      · rename_i c hf
        exact hbare c (Option.mem_filter_iff.mp hf).1
      · exact .neutral (by decide) Phrase.item_nil

end

/-! ## Inserting -/

theorem reads_insertInto (ht : q.table.Unquoted q.dialect) :
    Phrase.Reads b Outside Outside q.insertInto :=
  (Phrase.Reads.neutral (by decide)
    (.word (TableName.word_plain ht) Phrase.reads_nil)).append
    (.joint (by decide) Phrase.reads_nil)

theorem item_insertRow (ht : q.table.Unquoted q.dialect) {r : Row} (hr : r.Composed q.dialect) :
    Phrase.Item b (q.insertRow r) :=
  (((Phrase.reads_failIf _ _).append (reads_insertInto ht)).append
    (Phrase.item_nameList fun _ => Row.unquoted_of_mem_names hr)).append
    (.joint (by decide) (Phrase.item_cellValues hr))

theorem item_insert (ht : q.table.Unquoted q.dialect) {r : Row} (hr : r.Composed q.dialect) :
    Phrase.Item b (q.insertPhrase r) := reads_checkInsert.append (item_insertRow ht hr)

theorem item_insertKey (ht : q.table.Unquoted q.dialect) {r : Row} (hr : r.Composed q.dialect)
    {key : String} (hk : q.dialect.Unquoted key) : Phrase.Item b (q.insertKeyPhrase r key) := by
  have hinsert : Phrase.Item b (q.insertPhrase r) := item_insert ht hr
  unfold insertKeyPhrase
  split
  · exact hinsert.append (.joint (by decide) Phrase.item_nil)
  · exact hinsert.append (.joint (by decide) Phrase.item_nil)
  · exact hinsert.append (.joint (by decide) Phrase.item_nil)
  · exact ((Phrase.reads_failIf _ _).append hinsert).append <|
      .joint (by decide) (.word (q.dialect.word_quote hk) Phrase.reads_nil)

theorem item_tuples {d : Dialect} {rows : List Row} (h : ∀ r ∈ rows, r.Composed d) :
    Phrase.Item b (Phrase.join ", " (rows.map fun r => Phrase.cellValues r.cells)) :=
  Phrase.item_join_map (by decide) fun r hr => Phrase.item_cellValues (h r hr)

theorem item_valuesBatch (ht : q.table.Unquoted q.dialect) {rows : List Row}
    (hr : ∀ r ∈ rows, r.Composed q.dialect) : Phrase.Item b (q.valuesBatch rows) := by
  have hnames : ∀ n ∈ (rows.head?.map Row.names).getD [], q.dialect.Unquoted n := by
    cases rows with
    | nil => exact fun n hn => by cases hn
    | cons r rows => exact fun n => Row.unquoted_of_mem_names (hr r List.mem_cons_self)
  exact ((reads_insertInto ht).append (Phrase.item_nameList hnames)).append
    (.joint (by decide) (item_tuples hr))

end Query

/-! ## Blocks -/

namespace Block

variable {q : Query} {b : Binding}

theorem item_declaration (values : List Value) : ∀ (n : Nat), ∀ p ∈ declarations n values,
    Phrase.Item b p := by
  induction values with
  | nil => exact fun n p hp => by cases hp
  | cons v values ih =>
    intro n p hp
    rcases List.mem_cons.mp hp with rfl | hp
    · have htext : Neutral ("p" ++ natText n ++ " " ++ v.firebirdType ++ " = ") :=
        ((((Neutral.append (neutral_of (by decide)) (neutral_natText n)).append
          (neutral_of (by decide))).append v.neutral_firebirdType)).append (neutral_of (by decide))
      exact .text htext (.bound Phrase.reads_nil)
    · exact ih (n + 1) p hp

theorem item_reference {cells : List Cell} (hc : ∀ c ∈ cells, ∃ v, c.value = .value v) :
    ∀ n : Nat, ∀ p ∈ references q.binding n cells, Phrase.Item b p := by
  induction cells with
  | nil => exact fun n p hp => by cases hp
  | cons c cells ih =>
    intro n p hp
    have hrest := ih fun x hx => hc x (List.mem_cons_of_mem _ hx)
    obtain ⟨v, hv⟩ := hc c List.mem_cons_self
    rw [references] at hp
    simp only [hv] at hp
    split at hp
    · rcases List.mem_cons.mp hp with rfl | hp
      · have hname : Neutral (":p" ++ natText n) :=
          Neutral.append (neutral_of (by decide)) (neutral_natText n)
        exact .text hname Phrase.item_nil
      · exact hrest (n + 1) p hp
    · rcases List.mem_cons.mp hp with rfl | hp
      · exact Phrase.item_value _
      · exact hrest n p hp

theorem reads_statements (ht : q.table.Unquoted q.dialect) {rows : List Row}
    (hr : ∀ r ∈ rows, r.Composed q.dialect) :
    ∀ n : Nat, Phrase.Reads b Outside Outside (statements q n rows) := by
  induction rows with
  | nil => exact fun _ => Phrase.reads_nil
  | cons r rows ih =>
    intro n
    have hrow := hr r List.mem_cons_self
    have hrest := ih (fun x hx => hr x (List.mem_cons_of_mem _ hx))
    exact (((Query.reads_insertInto ht).append
      (Phrase.item_nameList fun _ => Row.unquoted_of_mem_names hrow)).append
      (.joint (by decide) <| Phrase.item_join (by decide) <|
        item_reference (fun c hc => (hrow c hc).2) n)).append
      (.joint (by decide) (hrest _))

end Block

namespace Query

variable {q : Query} {b : Binding} {P : Place → Prop}

theorem item_block (ht : q.table.Unquoted q.dialect) {rows : List Row}
    (hr : ∀ r ∈ rows, r.Composed q.dialect) : Phrase.Item b (q.blockBatch rows) := by
  have hdeclared : ∀ values, Phrase.Reads b Outside Outside
      (.text "(" :: Phrase.join ", " (Block.declarations 1 values) ++ [.text ") "]) := fun values =>
    (Phrase.Reads.neutral (by decide) <| Phrase.item_join (by decide) <|
      Block.item_declaration values 1).append (.joint (by decide) Phrase.reads_nil)
  exact (((Phrase.reads_failIf _ _).append
    (.neutral (by decide) (Phrase.reads_onlyIf _ (hdeclared _)))).append
    (.neutral (by decide) (Block.reads_statements ht hr 1))).append
    (.neutral (by decide) Phrase.item_nil)

theorem item_batch (ht : q.table.Unquoted q.dialect) {rows : List Row}
    (hr : ∀ r ∈ rows, r.Composed q.dialect) : Phrase.Item b (q.batchPhrase rows) := by
  unfold batchPhrase
  split
  · exact item_block ht hr
  · exact item_valuesBatch ht hr

/-! ## Changing and removing -/

section

variable (hq : q.Composed)
include hq

theorem item_update {cells : List Cell} (hc : Row.Composed q.dialect ⟨cells⟩) :
    Phrase.Item b (q.updatePhrase cells) := by
  have hset : Phrase.Clause b (.text " SET " :: Phrase.assignments q.dialect cells) :=
    .joint (by decide) (Phrase.item_assignments hc)
  have hplain : Phrase.Item b q.plainTable := .word (TableName.word_plain hq.table) Phrase.reads_nil
  have hdeclared : Phrase.Item b [.text "UPDATE ", .text (q.table.declared q.dialect)] :=
    .neutral (by decide) (.word (TableName.word_declared hq.table) Phrase.reads_nil)
  unfold updatePhrase
  refine ((Phrase.reads_failIf _ _).append (reads_checkModification _ _)).append ?_
  split
  · have htop : Phrase.Reads b Outside Outside [.text "UPDATE ", .text (Window.top q.limit)] :=
      .neutral (by decide) (.text (Window.neutral_top _) Phrase.reads_nil)
    refine (htop.append ?_).append (clause_filtering hq)
    split
    · exact (Phrase.Reads.word (TableName.word_reference hq.table) hset).append
        (clause_fromTables hq)
    · exact hplain.append hset
  · exact ((((hdeclared.append (clause_joinings hq)).append hset).append
      (clause_filtering hq)).append (clause_ordering hq)).append clause_mysqlLimit
  · refine (((Phrase.Reads.neutral (by decide) hplain).append ?_).append hset).append
      (clause_filtering hq)
    split
    · exact .joint (by decide) (.word (q.dialect.word_quotePart _) Phrase.reads_nil)
    · exact Phrase.reads_nil
  · exact (((hdeclared.append hset).append (clause_filtering hq)).append
      (clause_ordering hq)).append clause_firebirdRows

theorem item_deleteFrom {targets : List String} (h : ∀ t ∈ targets, Word t) :
    Phrase.Item b (q.deleteFrom targets) := by
  have htargets : Phrase.Item b [.text "DELETE ", .text (", ".intercalate targets)] :=
    .neutral (by decide) (.word (word_intercalate (joint_of (by decide)) h) Phrase.reads_nil)
  exact (htargets.append (clause_fromTables hq)).append (clause_filtering hq)

theorem item_delete : Phrase.Item b q.deletePhrase := by
  have hplain : Phrase.Item b q.plainTable := .word (TableName.word_plain hq.table) Phrase.reads_nil
  have hreference := TableName.word_reference hq.table
  unfold deletePhrase
  refine (reads_checkModification _ _).append ?_
  split
  · have htop : Phrase.Reads b Outside Outside [.text "DELETE ", .text (Window.top q.limit)] :=
      .neutral (by decide) (.text (Window.neutral_top _) Phrase.reads_nil)
    refine (htop.append ?_).append (clause_filtering hq)
    split
    · exact .word hreference (clause_fromTables hq)
    · exact .neutral (by decide) hplain
  · split
    · refine item_deleteFrom hq fun t ht => ?_
      obtain rfl := List.mem_singleton.mp ht
      exact hreference
    · exact (((Phrase.Reads.neutral (by decide) hplain).append (clause_filtering hq)).append
        (clause_ordering hq)).append clause_mysqlLimit
  · exact (Phrase.Reads.neutral (by decide) hplain).append (clause_filtering hq)
  · have hdeclared : Phrase.Item b [.text "DELETE FROM ", .text (q.table.declared q.dialect)] :=
      .neutral (by decide) (.word (TableName.word_declared hq.table) Phrase.reads_nil)
    exact ((hdeclared.append (clause_filtering hq)).append (clause_ordering hq)).append
      clause_firebirdRows

theorem item_deleteJoined : Phrase.Item b q.deleteJoinedPhrase := by
  unfold deleteJoinedPhrase
  split
  · exact Phrase.reads_failure _
  · exact Phrase.reads_failure _
  · exact item_delete hq
  · split
    · exact item_delete hq
    · refine (reads_checkModification _ _).append (item_deleteFrom hq fun t ht => ?_)
      rcases List.mem_cons.mp ht with rfl | ht
      · exact TableName.word_reference hq.table
      · obtain ⟨j, hj, rfl⟩ := List.mem_map.mp ht
        exact TableName.word_reference (hq.joins j hj).1

end

end Query

/-! ## Inserting or changing -/

namespace Upsert

variable {b : Binding} {d : Dialect}

theorem word_qualified (table column : String) : Word (qualified d table column) := by
  unfold qualified
  rw [String.append_assoc]
  exact (d.word_quotePart table).append
    ((joint_of (by decide)).append_word (d.word_quotePart column))

theorem item_equation (left right column : String) :
    Phrase.Item b (equation d left right column) := by
  refine .word ?_ Phrase.reads_nil
  rw [String.append_assoc]
  exact (word_qualified left column).append
    ((joint_of (by decide)).append_word (word_qualified right column))

/-- A column and what it is set to, which is named after it. -/
theorem word_setting {between : String} (h : Joint between) (n : String) :
    Word (d.quotePart n ++ between ++ d.quotePart n) :=
  ((d.word_quotePart n).append_joint h).append_word (d.word_quotePart n)

theorem clause_mergeClauses (u : Upsert) {names : List String} (h : ∀ n ∈ names, d.Unquoted n) :
    Phrase.Clause b (u.mergeClauses d names) := by
  have hmatched : Phrase.Item b
      (Phrase.join " AND " (u.matched.map (equation d source target))) :=
    Phrase.item_join_map (by decide) fun n _ => item_equation source target n
  have hupdated : Phrase.Item b (Phrase.join ", " (u.updated.map (equation d target source))) :=
    Phrase.item_join_map (by decide) fun n _ => item_equation target source n
  have hvalues : Phrase.Item b
      (Phrase.join ", " (names.map fun n => [.text (qualified d source n)])) :=
    Phrase.item_join_map (by decide) fun n _ => .word (word_qualified source n) Phrase.reads_nil
  exact ((((Phrase.Reads.joint (by decide) hmatched).append (.joint (by decide) hupdated)).append
    (.joint (by decide) (Phrase.item_nameList h))).append
    (.joint (by decide) hvalues)).append (.joint (by decide) Phrase.item_nil)

theorem item_sourceRow {b' : Binding} {r : Row} (hr : r.Composed b'.dialect) :
    Phrase.Item b (sourceRow b' r) := by
  have hcell : ∀ c ∈ r.cells, Phrase.Item b (sourceCell b' c) := by
    intro c hc
    obtain ⟨hn, v, hv⟩ := hr c hc
    unfold sourceCell
    rw [hv]
    have hcast : Phrase.Item b [.text "CAST(", .value (b'.intercept v), .text " AS ",
        .text (b'.intercept v).firebirdType, .text ")"] :=
      .neutral (by decide) <| .value <| .joint (by decide) <|
        .text (Value.neutral_firebirdType _) <| .neutral (by decide) Phrase.item_nil
    exact hcast.append <| .joint (by decide) (.word (b'.dialect.word_quote hn) Phrase.reads_nil)
  exact (Phrase.Reads.neutral (by decide) <| Phrase.item_join_map (by decide) hcell).append
    (.joint (by decide) Phrase.item_nil)

theorem reads_check {P : Place → Prop} (u : Upsert) (rows : List Row) :
    Phrase.Reads b P P (u.check rows) := by
  cases rows with
  | nil => exact Phrase.reads_failure _
  | cons r rows =>
    refine (((Query.reads_checkRows _).append (Phrase.reads_failIf _ _)).append
      (Phrase.reads_failIf _ _)).append ?_
    split
    · exact Phrase.reads_failure _
    · exact Phrase.reads_nil

end Upsert

namespace Query

variable {q : Query} {b : Binding}

theorem item_mergeInto (ht : q.table.Unquoted q.dialect) : Phrase.Item b q.mergeInto :=
  (Phrase.Reads.neutral (by decide)
    (.word (TableName.word_plain ht) Phrase.reads_nil)).append
    (.joint (by decide) (.word (q.dialect.word_quotePart _) Phrase.reads_nil))

theorem item_upsertRows (ht : q.table.Unquoted q.dialect) {rows : List Row} {u : Upsert}
    {first : Row} (hr : ∀ r ∈ rows, r.Composed q.dialect) (hf : first.Composed q.dialect)
    (hu : ∀ n ∈ u.matched, q.dialect.Unquoted n) :
    Phrase.Item b (q.upsertRowsPhrase rows u first) := by
  have hnames : ∀ n ∈ first.names, q.dialect.Unquoted n := fun _ => Row.unquoted_of_mem_names hf
  have hsource : Word (q.dialect.quotePart Upsert.source) := q.dialect.word_quotePart _
  unfold upsertRowsPhrase
  dsimp only
  split
  · have has : Phrase.Reads b Settled Outside
        [.text ") AS ", .text (q.dialect.quotePart Upsert.source), .text " "] :=
      .joint (by decide) <| .word hsource <| .joint (by decide) Phrase.reads_nil
    exact (((((item_mergeInto ht).append (.joint (by decide) (item_tuples hr))).append has).append
      (Phrase.item_nameList hnames)).append (u.clause_mergeClauses hnames)).append
      (.joint (by decide) Phrase.item_nil)
  · exact (((reads_insertInto ht).append (Phrase.item_nameList hnames)).append
      (.joint (by decide) (item_tuples hr))).append
      (.joint (by decide) <| Phrase.item_join_map (by decide) fun n _ =>
        .word ((Upsert.word_setting (joint_of (by decide)) n).append (joint_of (by decide)).tail)
          Phrase.reads_nil)
  · exact ((item_insertRow ht hf).append (.joint (by decide) (Phrase.item_nameList hu))).append
      (.joint (by decide) <| Phrase.item_join_map (by decide) fun n _ =>
        .word (Upsert.word_setting (joint_of (by decide)) n) Phrase.reads_nil)
  · have hrows : Phrase.Item b
        (Phrase.join " UNION ALL " (rows.map (Upsert.sourceRow q.binding))) :=
      Phrase.item_join_map (by decide) fun r hm => Upsert.item_sourceRow (hr r hm)
    have hend : Phrase.Clause b [.text ") ", .text (q.dialect.quotePart Upsert.source)] :=
      .joint (by decide) (.word hsource Phrase.reads_nil)
    exact (((item_mergeInto ht).append (.joint (by decide) hrows)).append hend).append
      (u.clause_mergeClauses hnames)

theorem item_upsert (ht : q.table.Unquoted q.dialect) {rows : List Row} {u : Upsert}
    (hr : ∀ r ∈ rows, r.Composed q.dialect) (hu : ∀ n ∈ u.matched, q.dialect.Unquoted n) :
    Phrase.Item b (q.upsertPhrase rows u) := by
  unfold upsertPhrase
  refine ((Phrase.Reads.append (Q := Outside) ?_ reads_checkInsert).append
    (u.reads_check rows)).append ?_
  · split
    · exact reads_refuse _ _
    · exact Phrase.reads_nil
  · split
    · exact Phrase.item_nil
    · exact item_upsertRows ht hr (hr _ List.mem_cons_self) hu

/-! ## Scanning -/

/-- **Scanning a statement of a composed query finds exactly its parameters.** -/
theorem rescan_finds_slots {q : Query} (hq : q.Composed) :
    (∀ e, q.select = .ok e → placeholders e.template = e.slots) ∧
    (∀ column e, (∀ c ∈ column, c.Composed q.config) → q.count column = .ok e →
      placeholders e.template = e.slots) ∧
    (∀ r e, r.Composed q.dialect → q.insert r = .ok e → placeholders e.template = e.slots) ∧
    (∀ r key e, r.Composed q.dialect → q.dialect.Unquoted key → q.insertKey r key = .ok e →
      placeholders e.template = e.slots) ∧
    (∀ rows es, (∀ r ∈ rows, r.Composed q.dialect) → q.bulkInsert rows = .ok es →
      ∀ e ∈ es, placeholders e.template = e.slots) ∧
    (∀ cells e, Row.Composed q.dialect ⟨cells⟩ → q.update cells = .ok e →
      placeholders e.template = e.slots) ∧
    (∀ e, q.delete = .ok e → placeholders e.template = e.slots) ∧
    (∀ e, q.deleteJoined = .ok e → placeholders e.template = e.slots) ∧
    (∀ rows u e, (∀ r ∈ rows, r.Composed q.dialect) → (∀ n ∈ u.matched, q.dialect.Unquoted n) →
      q.upsert rows u = .ok e → placeholders e.template = e.slots) := by
  refine ⟨?_, ?_, ?_, ?_, ?_, ?_, ?_, ?_, ?_⟩
  · exact fun e h => Phrase.placeholders_of_item (item_select hq) h
  · exact fun column e hc h => Phrase.placeholders_of_item (item_count hq hc) h
  · exact fun r e hr h => Phrase.placeholders_of_item (item_insert hq.table hr) h
  · exact fun r key e hr hk h => Phrase.placeholders_of_item (item_insertKey hq.table hr hk) h
  · intro rows es hr h e he
    obtain ⟨batch, hb, h⟩ := exists_batch_of_mem_bulkInsert h he
    have hbatch : ∀ r ∈ batch, r ∈ rows := fun r hm => by
      rw [← flatten_batches q.batchLimit q.binding.weight rows]
      exact List.mem_flatten.mpr ⟨batch, hb, hm⟩
    exact Phrase.placeholders_of_item (item_batch hq.table fun r hm => hr r (hbatch r hm)) h
  · exact fun cells e hc h => Phrase.placeholders_of_item (item_update hq hc) h
  · exact fun e h => Phrase.placeholders_of_item (item_delete hq) h
  · exact fun e h => Phrase.placeholders_of_item (item_deleteJoined hq) h
  · exact fun rows u e hr hu h => Phrase.placeholders_of_item (item_upsert hq.table hr hu) h

/-- A query for a table whose names have quotes, brackets and question marks in them. -/
def oddNames : Query :=
  { config := .new .sqlServer
    table := ⟨"it's [a?]", some "o?"⟩
    columns := [.aliased "what?" "\"?"]
    filters := [(.and, .compare (.column "x'.y?") "<>" (.value (.text "why?")))] }

/-- `SELECT [what?] AS ["?] FROM [it's [a?]]] [o?] WHERE [x'].[y?] <> ?` -/
def oddSelection : Expression :=
  .ofPieces [.text "SELECT [what?] AS [\"?] FROM [it's [a?]]] [o?] WHERE [x'].[y?] <> ",
    .bound (.text "why?")]

theorem oddNames_rescan :
    oddNames.Composed ∧ oddNames.select = .ok oddSelection ∧
      placeholders oddSelection.template = oddSelection.slots ∧ oddSelection.slots = [65] := by
  have hq : oddNames.Composed := by
    refine ⟨⟨by decide, by decide⟩, ?_, ?_, ?_, ?_, ?_, ?_⟩
    · intro c hc
      obtain rfl := List.mem_singleton.mp hc
      exact (by decide : Dialect.sqlServer.Unquoted "what?")
    · exact fun j hj => by cases hj
    · intro i hi
      obtain rfl := List.mem_singleton.mp hi
      exact ⟨(by decide : Dialect.sqlServer.Unquoted "x'.y?"),
        List.all_eq_true.mp (by decide : "<>".toList.all isPlain = true), trivial⟩
    · exact fun c hc => by cases hc
    · exact fun i hi => by cases hi
    · exact fun o ho => by cases ho
  have h : oddNames.select = .ok oddSelection := rfl
  exact ⟨hq, h, (rescan_finds_slots hq).1 oddSelection h, rfl⟩

end Query
end SqlWeave
