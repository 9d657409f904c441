import SqlWeave.Query.Clause

/-!
# What a statement refuses

An engine refuses a statement whose clauses it has no words for, before anything is written, and a
statement that changes rows may be refused for want of a condition.
-/

namespace SqlWeave

/-- The statements that change rows. -/
inductive Modification where
  | update
  | delete
  deriving DecidableEq, Repr

/-- The keyword of a statement. -/
def Modification.text : Modification → String
  | update => "UPDATE"
  | delete => "DELETE"

namespace Query

/-- Refuses the clauses that are present, in the order given. -/
def refuse (q : Query) (statement : String) (clauses : List (Bool × String)) : Phrase :=
  clauses.flatMap fun (present, clause) =>
    Phrase.failIf present (.notSupported (.clause clause statement) q.dialect.name)

/-- Refuses a payload without cells. -/
def checkCells (cells : List Cell) : Phrase := Phrase.failIf cells.isEmpty (.validation .noCells)

/-- Refuses to change all rows where the options ask for a condition. -/
def checkSafe (q : Query) (m : Modification) : Phrase :=
  Phrase.failIf (q.config.onlySafeModifications && q.filters.isEmpty)
    (.validation (.unsafeModification m.text))

/-- The clauses that SQLite has for no statement but SELECT. -/
def selectOnlyClauses (q : Query) : List (Bool × String) :=
  [(!q.joins.isEmpty, "JOIN"), (q.limit.isSome, "LIMIT"), (q.offset.isSome, "OFFSET"),
    (!q.orderBy.isEmpty, "ORDER BY"), (!q.having.isEmpty, "HAVING")]

/-- The clauses refused on a statement that changes rows. `manyTables` is the form of MySQL that
names the tables to change. -/
def refusedClauses (q : Query) (m : Modification) (manyTables : Bool) : List (Bool × String) :=
  match q.dialect with
  | .sqlServer =>
    [(!q.orderBy.isEmpty, "ORDER BY"), (q.offset.isSome, "OFFSET"), (!q.having.isEmpty, "HAVING")]
  | .mysql =>
    [(!q.having.isEmpty, "HAVING"), (q.offset.isSome, "OFFSET"),
      (manyTables && q.limit.isSome, "LIMIT with JOIN"),
      (manyTables && !q.orderBy.isEmpty, "ORDER BY with JOIN")]
  | .sqlite =>
    q.selectOnlyClauses ++
      match m with
      | .update => []
      | .delete => [(q.table.aliasName.isSome, "table alias")]
  | .firebird =>
    [(!q.joins.isEmpty, "JOIN"), (!q.having.isEmpty, "HAVING"),
      (q.offset.isSome && q.limit.isNone, "OFFSET without LIMIT")]

/-- Everything that a statement that changes rows is refused for. -/
def checkModification (q : Query) (m : Modification) (manyTables : Bool) : Phrase :=
  q.refuse m.text (q.refusedClauses m manyTables) ++ q.checkSafe m

/-- Everything that an INSERT is refused for because of clauses. -/
def checkInsert (q : Query) : Phrase :=
  match q.dialect with
  | .sqlite => q.refuse "INSERT" q.selectOnlyClauses
  | _ => []

end Query
end SqlWeave
