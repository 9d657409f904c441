import SqlWeave.Query.Insert

/-!
# Inserting or changing rows

An upsert inserts rows, and changes those that are there already. Engines with MERGE read the rows
from a source of the same columns; MySQL and SQLite say what to do when a key is there.
-/

namespace SqlWeave

/-- The columns that tell whether a row is there, and those that are changed then. -/
structure Upsert where
  matched : List String
  updated : List String
  deriving DecidableEq, Repr, Inhabited

namespace Upsert

/-- The first column of the upsert that a row does not have. -/
def unknown? (u : Upsert) (r : Row) : Option String :=
  (u.matched ++ u.updated).find? fun n => (r.cell? n).isNone

/-- Everything that an upsert of rows is refused for. -/
def check (u : Upsert) : List Row → Phrase
  | [] => [.failure (.validation .noUpsertRows)]
  | first :: rest =>
    Query.checkRows (first :: rest) ++
      Phrase.failIf u.matched.isEmpty (.validation .noMatchColumns) ++
      Phrase.failIf u.updated.isEmpty (.validation .noUpdateColumns) ++
      match u.unknown? first with
      | some n => [.failure (.validation (.unknownUpsertColumn n))]
      | none => []

/-- The name of the table that a MERGE changes. -/
def target : String := "Target"

/-- The name of the rows that a MERGE reads. -/
def source : String := "Source"

/-- A column of a table of a MERGE. -/
def qualified (d : Dialect) (table column : String) : String :=
  d.quotePart table ++ "." ++ d.quotePart column

/-- Columns of two tables of a MERGE, one equal to the other. -/
def equation (d : Dialect) (left right column : String) : Phrase :=
  [.text (qualified d left column ++ " = " ++ qualified d right column)]

/-- What a MERGE does with rows that are there and with rows that are not. -/
def mergeClauses (u : Upsert) (d : Dialect) (names : List String) : Phrase :=
  .text " ON " :: Phrase.join " AND " (u.matched.map (equation d source target)) ++
    .text " WHEN MATCHED THEN UPDATE SET " ::
      Phrase.join ", " (u.updated.map (equation d target source)) ++
    .text " WHEN NOT MATCHED THEN INSERT " :: Phrase.nameList d names ++
    .text " VALUES (" ::
      Phrase.join ", " (names.map fun n => [.text (qualified d source n)]) ++ [.text ")"]

/-- A value of the source of a MERGE of Firebird, with its type and its name. -/
def sourceCell (b : Binding) (c : Cell) : Phrase :=
  (match c.value with
    | .value v =>
      let v := b.intercept v
      [.text "CAST(", .value v, .text " AS ", .text v.firebirdType, .text ")"]
    | .expression e => Phrase.ofExpression e) ++
    [.text " AS ", .text (b.dialect.quote c.name)]

/-- A row of the source of a MERGE of Firebird. -/
def sourceRow (b : Binding) (r : Row) : Phrase :=
  .text "SELECT " :: Phrase.join ", " (r.cells.map (sourceCell b)) ++
    [.text " FROM RDB$DATABASE"]

end Upsert

namespace Query

/-- The beginning of a MERGE. -/
def mergeInto (q : Query) : Phrase :=
  .text "MERGE INTO " :: q.plainTable ++ [.text " ", .text (q.dialect.quotePart Upsert.target)]

/-- The upsert of rows whose columns are those of the first. -/
def upsertRowsPhrase (q : Query) (rows : List Row) (u : Upsert) (first : Row) : Phrase :=
  let d := q.dialect
  let lists := Phrase.join ", " (rows.map fun r => Phrase.cellValues r.cells)
  match d with
  | .sqlServer =>
    q.mergeInto ++ .text " USING (VALUES " :: lists ++
      [.text ") AS ", .text (d.quotePart Upsert.source), .text " "] ++
      Phrase.nameList d first.names ++ u.mergeClauses d first.names ++ [.text ";"]
  | .mysql =>
    q.insertInto ++ Phrase.nameList d first.names ++ .text " VALUES " :: lists ++
      .text " ON DUPLICATE KEY UPDATE " ::
        Phrase.join ", " (u.updated.map fun n =>
          [.text (d.quotePart n ++ " = VALUES(" ++ d.quotePart n ++ ")")])
  | .sqlite =>
    q.insertRow first ++ .text " ON CONFLICT " :: Phrase.nameList d u.matched ++
      .text " DO UPDATE SET " ::
        Phrase.join ", " (u.updated.map fun n =>
          [.text (d.quotePart n ++ " = excluded." ++ d.quotePart n)])
  | .firebird =>
    q.mergeInto ++
      .text " USING (" :: Phrase.join " UNION ALL " (rows.map (Upsert.sourceRow q.binding)) ++
      [.text ") ", .text (d.quotePart Upsert.source)] ++ u.mergeClauses d first.names

/-- The upsert of rows. SQLite takes one row at a time. -/
def upsertPhrase (q : Query) (rows : List Row) (u : Upsert) : Phrase :=
  (match q.dialect with
    | .sqlite => q.refuse "INSERT" [(decide (1 < rows.length), "multi-row upsert")]
    | _ => []) ++
    q.checkInsert ++ u.check rows ++
    match rows with
    | [] => []
    | first :: _ => q.upsertRowsPhrase rows u first

/-- The statement that inserts or changes rows. -/
def upsert (q : Query) (rows : List Row) (u : Upsert) : Result Expression :=
  (q.upsertPhrase rows u).toExpression q.binding

end Query
end SqlWeave
