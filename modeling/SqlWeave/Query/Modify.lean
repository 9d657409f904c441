import SqlWeave.Query.Check
import SqlWeave.Query.Select

/-!
# Changing and removing rows

The UPDATE and DELETE of each engine. No clause of the query is dropped: one that the engine has no
words for is refused.

Results:
* `deleteJoined_sqlServer`, `deleteJoined_firebird`: these engines remove rows of one table only.
-/

namespace SqlWeave

namespace Query

/-- The query joins tables or gives its table an alias, so a statement must name what it changes. -/
def needsTarget (q : Query) : Bool := !q.joins.isEmpty || q.table.aliasName.isSome

/-- An UPDATE of the columns in cells. -/
def updatePhrase (q : Query) (cells : List Cell) : Phrase :=
  let set := .text " SET " :: Phrase.assignments q.dialect cells
  checkCells cells ++ q.checkModification .update (!q.joins.isEmpty) ++
    match q.dialect with
    | .sqlServer =>
      [.text "UPDATE ", .text (Window.top q.limit)] ++
        (if q.needsTarget then .text q.tableReference :: set ++ q.fromTables
         else q.plainTable ++ set) ++
        q.filtering
    | .mysql =>
      [.text "UPDATE ", .text (q.table.declared q.dialect)] ++ q.joinings ++ set ++ q.filtering ++
        q.ordering ++ q.mysqlLimit
    | .sqlite =>
      .text "UPDATE " :: q.plainTable ++
        (match q.table.aliasName with
         | some aliasName => [.text " AS ", .text (q.dialect.quotePart aliasName)]
         | none => []) ++
        set ++ q.filtering
    | .firebird =>
      [.text "UPDATE ", .text (q.table.declared q.dialect)] ++ set ++ q.filtering ++ q.ordering ++
        q.firebirdRows

/-- A DELETE that names the tables to remove rows from. -/
def deleteFrom (q : Query) (targets : List String) : Phrase :=
  [.text "DELETE ", .text (", ".intercalate targets)] ++ q.fromTables ++ q.filtering

/-- A DELETE. -/
def deletePhrase (q : Query) : Phrase :=
  q.checkModification .delete q.needsTarget ++
    match q.dialect with
    | .sqlServer =>
      [.text "DELETE ", .text (Window.top q.limit)] ++
        (if q.needsTarget then .text q.tableReference :: q.fromTables
         else .text "FROM " :: q.plainTable) ++
        q.filtering
    | .mysql =>
      if q.needsTarget then q.deleteFrom [q.tableReference]
      else .text "DELETE FROM " :: q.plainTable ++ q.filtering ++ q.ordering ++ q.mysqlLimit
    | .sqlite => .text "DELETE FROM " :: q.plainTable ++ q.filtering
    | .firebird =>
      [.text "DELETE FROM ", .text (q.table.declared q.dialect)] ++ q.filtering ++ q.ordering ++
        q.firebirdRows

/-- A DELETE from the table and the joined ones. -/
def deleteJoinedPhrase (q : Query) : Phrase :=
  match q.dialect with
  | .sqlServer | .firebird => [.failure (.notSupported .deleteIncludingJoins q.dialect.name)]
  | .sqlite => q.deletePhrase
  | .mysql =>
    if q.joins.isEmpty then q.deletePhrase
    else
      q.checkModification .delete true ++
        q.deleteFrom (q.tableReference :: q.joins.map fun j => j.table.reference q.dialect)

/-- The UPDATE statement. -/
def update (q : Query) (cells : List Cell) : Result Expression :=
  (q.updatePhrase cells).toExpression q.binding

/-- The DELETE statement. -/
def delete (q : Query) : Result Expression := q.deletePhrase.toExpression q.binding

/-- The DELETE statement that includes joined tables. -/
def deleteJoined (q : Query) : Result Expression := q.deleteJoinedPhrase.toExpression q.binding

theorem deleteJoined_sqlServer {q : Query} (h : q.dialect = .sqlServer) :
    q.deleteJoined = .error (.notSupported .deleteIncludingJoins "SqlServer") := by
  simp [deleteJoined, deleteJoinedPhrase, h, Phrase.toExpression, Draft.write, Binding.place,
    Dialect.name]

theorem deleteJoined_firebird {q : Query} (h : q.dialect = .firebird) :
    q.deleteJoined = .error (.notSupported .deleteIncludingJoins "Firebird") := by
  simp [deleteJoined, deleteJoinedPhrase, h, Phrase.toExpression, Draft.write, Binding.place,
    Dialect.name]

end Query
end SqlWeave
