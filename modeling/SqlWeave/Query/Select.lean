import SqlWeave.Query.Clause
import SqlWeave.Query.Window

/-!
# Selecting and counting rows

The SELECT of each engine with its way of writing a page, and the count of a query's rows. A query
that is distinct or gathers rows is counted from outside.

Results:
* `selectPhrase_mysql`, `selectPhrase_sqlite`: these engines put the page behind the order.
-/

namespace SqlWeave

namespace Query

/-- The column of row numbers. -/
def rowNumberColumn : String := "grammar_rownum"

/-- The page as rows numbered in the order of the query. -/
def numberedRows (q : Query) (offset : Nat) : Phrase :=
  let number := q.dialect.quotePart rowNumberColumn
  Phrase.failIf q.distinct (.notSupported .distinctWithRowNumber q.dialect.name) ++
    .text "SELECT * FROM (SELECT ROW_NUMBER() OVER(ORDER BY " :: q.orderList ++
    .text (") AS " ++ number ++ ", ") :: q.selectList ++ q.body ++
    [.text ") ", .text (q.dialect.quotePart q.table.aliasOrName), .text " WHERE ", .text number,
      .text (Window.numbered offset q.limit).condition]

/-- The selection of SQL Server. -/
def sqlServerSelect (q : Query) : Phrase :=
  match q.offset with
  | none =>
    .text "SELECT " :: q.distinctWord ++ .text (Window.top q.limit) :: q.selectList ++ q.body ++
      q.ordering
  | some offset =>
    if q.orderBy.isEmpty then [.failure (.validation .offsetWithoutOrder)]
    else if q.config.useOldPagination then q.numberedRows offset
    else q.plainSelect ++ q.ordering ++ [.text (Window.offsetFetch offset q.limit)]

/-- The page at the end of a statement of MySQL. -/
def mysqlLimit (q : Query) : Phrase :=
  [.text (Window.limitOffset Window.greatestLimit q.limit q.offset)]

/-- The page at the end of a statement of SQLite. -/
def sqliteLimit (q : Query) : Phrase := [.text (Window.limitOffset "-1" q.limit q.offset)]

/-- The page at the end of a statement of Firebird that changes rows. -/
def firebirdRows (q : Query) : Phrase := [.text (Window.rows q.limit q.offset)]

/-- The selection. -/
def selectPhrase (q : Query) : Phrase :=
  match q.dialect with
  | .sqlServer => q.sqlServerSelect
  | .mysql => q.plainSelect ++ q.ordering ++ q.mysqlLimit
  | .sqlite => q.plainSelect ++ q.ordering ++ q.sqliteLimit
  | .firebird =>
    .text "SELECT " :: .text (Window.firstSkip q.limit q.offset) :: q.distinctWord ++
      q.selectList ++ q.body ++ q.ordering

/-- The count of the query's rows, or of a column. A function that gathers rows is selected as it
is. -/
def countPhrase (q : Query) (column : Option Column) : Phrase :=
  let counted := column.filter (!·.isAll)
  match column.filter Column.isAggregate with
  | some c => .text "SELECT " :: Column.spliced (c.selected q.scope) ++ q.body
  | none =>
    if q.distinct || !q.groupBy.isEmpty then
      let list :=
        match counted with
        | some c => Column.spliced (c.selected q.scope)
        | none => q.selectList
      .text "SELECT COUNT(*) FROM (SELECT " :: q.distinctWord ++ list ++ q.body ++
        [.text ") count"]
    else
      let inner :=
        match counted with
        | some c => Column.spliced (c.bare q.scope)
        | none => [.text "*"]
      .text "SELECT COUNT(" :: inner ++ .text ")" :: q.body

/-- The SELECT statement. -/
def select (q : Query) : Result Expression := q.selectPhrase.toExpression q.binding

/-- The statement that counts rows. -/
def count (q : Query) (column : Option Column) : Result Expression :=
  (q.countPhrase column).toExpression q.binding

theorem selectPhrase_mysql {q : Query} (h : q.dialect = .mysql) :
    q.selectPhrase = q.plainSelect ++ q.ordering ++ q.mysqlLimit := by
  simp [selectPhrase, h]

theorem selectPhrase_sqlite {q : Query} (h : q.dialect = .sqlite) :
    q.selectPhrase = q.plainSelect ++ q.ordering ++ q.sqliteLimit := by
  simp [selectPhrase, h]

end Query
end SqlWeave
