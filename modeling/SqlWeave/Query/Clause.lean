import SqlWeave.Query.Basic
import SqlWeave.Row

/-!
# Clauses

The parts of statements that all engines share: the select list, FROM with its joins, WHERE,
grouping, order, and the names and values of rows.

Results:
* `ordering_of_nil`: without columns, no order is written.
-/

namespace SqlWeave

namespace Query

/-- The table without its alias. -/
def plainTable (q : Query) : Phrase := [.text (q.table.plain q.dialect)]

/-- The name by which clauses refer to the table. -/
def tableReference (q : Query) : String := q.table.reference q.dialect

/-- `DISTINCT` -/
def distinctWord (q : Query) : Phrase := Phrase.onlyIf q.distinct [.text "DISTINCT "]

/-- The select list. -/
def selectList (q : Query) : Phrase :=
  if q.columns.isEmpty then [.text "*"]
  else Phrase.join ", " (q.columns.map fun c => Column.spliced (c.selected q.scope))

/-- A joined table with its condition. -/
def joining (q : Query) (j : Join) : Phrase :=
  [.text " ", .text j.kind.text, .text " ", .text (j.table.declared q.dialect)] ++
    Phrase.onlyIf (j.kind ≠ .cross ∧ !j.on.isEmpty) (.text " ON " :: j.on.phrase q.scope)

/-- The joined tables. -/
def joinings (q : Query) : Phrase := q.joins.flatMap q.joining

/-- The table and the joined ones. -/
def fromTables (q : Query) : Phrase :=
  [.text " FROM ", .text (q.table.declared q.dialect)] ++ q.joinings

/-- The conditions on rows. -/
def filtering (q : Query) : Phrase :=
  Phrase.onlyIf (!q.filters.isEmpty) (.text " WHERE " :: q.filters.phrase q.scope)

/-- The columns that gather rows. -/
def groups (q : Query) : Phrase :=
  Phrase.onlyIf (!q.groupBy.isEmpty) <|
    .text " GROUP BY " ::
      Phrase.join ", " (q.groupBy.map fun c => Column.spliced (c.bare q.scope))

/-- The conditions on gathered rows. -/
def groupFiltering (q : Query) : Phrase :=
  Phrase.onlyIf (!q.having.isEmpty) (.text " HAVING " :: q.having.phrase q.scope)

/-- The columns that gather rows and the conditions on these. -/
def grouping (q : Query) : Phrase := q.groups ++ q.groupFiltering

/-- Everything between the select list and the order. -/
def body (q : Query) : Phrase := q.fromTables ++ q.filtering ++ q.grouping

/-- The columns that put rows in order. -/
def orderList (q : Query) : Phrase :=
  Phrase.join ", " (q.orderBy.map fun o => Column.spliced (o.expression q.scope))

/-- The order of rows. -/
def ordering (q : Query) : Phrase :=
  Phrase.onlyIf (!q.orderBy.isEmpty) (.text " ORDER BY " :: q.orderList)

/-- The selection without order and page. -/
def plainSelect (q : Query) : Phrase :=
  .text "SELECT " :: q.distinctWord ++ q.selectList ++ q.body

theorem ordering_of_nil {q : Query} (h : q.orderBy = []) : q.ordering = [] := by
  simp [ordering, Phrase.onlyIf, h]

end Query

namespace Phrase

/-- Quoted names in parentheses. -/
def nameList (d : Dialect) (names : List String) : Phrase :=
  .text "(" :: join ", " (names.map fun n => [.text (d.quote n)]) ++ [.text ")"]

/-- The contents of cells in parentheses. -/
def cellValues (cells : List Cell) : Phrase :=
  .text "(" :: join ", " (cells.map fun c => ofParam c.value) ++ [.text ")"]

/-- Columns set to the contents of cells. -/
def assignments (d : Dialect) (cells : List Cell) : Phrase :=
  join ", " (cells.map fun c => .text (d.quote c.name) :: .text " = " :: ofParam c.value)

end Phrase
end SqlWeave
