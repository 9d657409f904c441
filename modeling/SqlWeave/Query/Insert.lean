import SqlWeave.Query.Batch
import SqlWeave.Query.Check
import SqlWeave.Query.Select
import SqlWeave.Text.Blank

/-!
# Inserting rows

The INSERT of one row, of many rows in batches, of the rows of another query, and of a row whose
generated key is asked for. Firebird inserts a batch in an EXECUTE BLOCK, which declares every bound
value and refers to it by its number.
-/

namespace SqlWeave

open Number

namespace Query

/-- `INSERT INTO` with the table and a blank behind it. -/
def insertInto (q : Query) : Phrase := .text "INSERT INTO " :: q.plainTable ++ [.text " "]

/-- The INSERT of a row. -/
def insertRow (q : Query) (r : Row) : Phrase :=
  checkCells r.cells ++ q.insertInto ++ Phrase.nameList q.dialect r.names ++
    .text " VALUES " :: Phrase.cellValues r.cells

/-- The INSERT of a row, unless the query has clauses that refuse it. -/
def insertPhrase (q : Query) (r : Row) : Phrase := q.checkInsert ++ q.insertRow r

/-- The INSERT of a row, and the statement that answers its generated key. -/
def insertKeyPhrase (q : Query) (r : Row) (key : String) : Phrase :=
  match q.dialect with
  | .sqlServer => q.insertPhrase r ++ [.text "; SELECT SCOPE_IDENTITY();"]
  | .mysql => q.insertPhrase r ++ [.text "; SELECT LAST_INSERT_ID();"]
  | .sqlite => q.insertPhrase r ++ [.text "; SELECT last_insert_rowid();"]
  | .firebird =>
    Phrase.failIf (Text.isBlankText key) (.validation .noReturningKey) ++ q.insertPhrase r ++
      [.text " RETURNING ", .text (q.dialect.quote key)]

/-- The INSERT of the rows that another query selects. -/
def insertSelectedPhrase (q source : Query) (columns : List String) : Phrase :=
  q.checkInsert ++
    match source.select with
    | .error e => [.failure e]
    | .ok rows =>
      q.insertInto ++
        Phrase.onlyIf (!columns.isEmpty) (Phrase.nameList q.dialect columns ++ [.text " "]) ++
        Phrase.ofExpression rows

/-! ## Many rows -/

/-- Refuses rows that differ in their columns. -/
def checkRows : List Row → Phrase
  | [] => []
  | first :: rest =>
    checkCells first.cells ++
      Phrase.failIf (!(first :: rest).all fun r => r.sameShape first) (.validation .unequalRows)

/-- The INSERT of a batch as a list of values. -/
def valuesBatch (q : Query) (rows : List Row) : Phrase :=
  q.insertInto ++ Phrase.nameList q.dialect ((rows.head?.map Row.names).getD []) ++
    .text " VALUES " :: Phrase.join ", " (rows.map fun r => Phrase.cellValues r.cells)

end Query

/-- The type of Firebird for a value. -/
def Value.firebirdType : Value → String
  | .null => "CHAR(1)"
  | .bool _ => "BOOLEAN"
  | .int _ => "BIGINT"
  | .float _ => "DOUBLE PRECISION"
  | .decimal _ => "DECIMAL(18,4)"
  | .text s => "VARCHAR(" ++ natText (max s.toList.length 1) ++ ")"
  | .bytes _ => "BLOB"
  | .date _ => "DATE"
  | .time _ => "TIME"
  | .dateTime _ => "TIMESTAMP"
  | .uuid _ => "CHAR(36)"
  | .json _ => "BLOB SUB_TYPE TEXT"

namespace Block

/-- The values of cells that a binding binds, in their order. -/
def boundValues (b : Binding) (cells : List Cell) : List Value :=
  cells.filterMap fun c =>
    c.plain?.bind fun v =>
      let v := b.intercept v
      if b.binds v then some v else none

/-- A cell holds a fragment with values in it, which a block cannot declare. -/
def holdsBoundFragment (c : Cell) : Bool :=
  match c.value with
  | .value _ => false
  | .expression e => !e.values.isEmpty

/-- The declarations of values, numbered from `n` on. -/
def declarations (n : Nat) : List Value → List Phrase
  | [] => []
  | v :: rest =>
    [.text ("p" ++ natText n ++ " " ++ v.firebirdType ++ " = "), .bound v] ::
      declarations (n + 1) rest

/-- The contents of cells with bound values replaced by their numbers, from `n` on. -/
def references (b : Binding) (n : Nat) : List Cell → List Phrase
  | [] => []
  | c :: rest =>
    match c.value with
    | .expression e => Phrase.ofExpression e :: references b n rest
    | .value v =>
      let v := b.intercept v
      if b.binds v then [.text (":p" ++ natText n)] :: references b (n + 1) rest
      else [.value v] :: references b n rest

/-- The statements of a block, the bound values numbered from `n` on. -/
def statements (q : Query) (n : Nat) : List Row → Phrase
  | [] => []
  | r :: rest =>
    q.insertInto ++ Phrase.nameList q.dialect r.names ++
      .text " VALUES (" :: Phrase.join ", " (references q.binding n r.cells) ++
      .text "); " :: statements q (n + (boundValues q.binding r.cells).length) rest

end Block

namespace Query

/-- The INSERT of a batch as a block. -/
def blockBatch (q : Query) (rows : List Row) : Phrase :=
  let cells := rows.flatMap Row.cells
  let declared := Block.declarations 1 (Block.boundValues q.binding cells)
  Phrase.failIf (cells.any Block.holdsBoundFragment)
      (.notSupported .boundValuesInBlock q.dialect.name) ++
    .text "EXECUTE BLOCK " ::
      Phrase.onlyIf (!declared.isEmpty) (.text "(" :: Phrase.join ", " declared ++ [.text ") "]) ++
    .text "AS BEGIN " :: Block.statements q 1 rows ++ [.text "END"]

/-- The INSERT of a batch. -/
def batchPhrase (q : Query) (rows : List Row) : Phrase :=
  match q.dialect with
  | .firebird => q.blockBatch rows
  | _ => q.valuesBatch rows

/-- Everything that a bulk insert is refused for before it is cut into batches. -/
def checkBulk (q : Query) (rows : List Row) : Result Unit :=
  ((q.checkInsert ++ checkRows rows).toExpression q.binding).map fun _ => ()

/-- The batches of a bulk insert with the statement of each, or the reason why it has none. -/
def bulkBatches (q : Query) (rows : List Row) : List (List Row × Result Expression) :=
  (q.batches rows).map fun batch => (batch, (q.batchPhrase batch).toExpression q.binding)

/-! ## Statements -/

/-- The INSERT statement of a row. -/
def insert (q : Query) (r : Row) : Result Expression := (q.insertPhrase r).toExpression q.binding

/-- The INSERT statement of a row that answers the generated key. -/
def insertKey (q : Query) (r : Row) (key : String) : Result Expression :=
  (q.insertKeyPhrase r key).toExpression q.binding

/-- The INSERT statement of the rows that another query selects. -/
def insertSelected (q source : Query) (columns : List String) : Result Expression :=
  (q.insertSelectedPhrase source columns).toExpression q.binding

/-- The INSERT statements of many rows, one for each batch. -/
def bulkInsert (q : Query) (rows : List Row) : Result (List Expression) := do
  q.checkBulk rows
  (q.bulkBatches rows).mapM (·.2)

end Query
end SqlWeave
