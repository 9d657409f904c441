import SqlWeave.Member.Path
import SqlWeave.Query.Column
import SqlWeave.Query.Condition

/-!
# Queries

A query is what a statement is about, for no engine in particular: a table, columns, joined tables,
conditions, grouping, order and a page. Statements are written from it.

Results:
* `scope_joined`: columns are qualified exactly when a table is joined.
-/

namespace SqlWeave

/-- How a table is joined. -/
inductive JoinKind where
  | inner | left | right | full | cross
  deriving DecidableEq, Repr

/-- The keywords of a join. -/
def JoinKind.text : JoinKind → String
  | inner => "INNER JOIN"
  | left => "LEFT JOIN"
  | right => "RIGHT JOIN"
  | full => "FULL OUTER JOIN"
  | cross => "CROSS JOIN"

/-- A joined table. -/
structure Join where
  kind : JoinKind
  table : TableName
  on : ConditionGroup

/-- What a statement is about. -/
structure Query where
  config : Config
  table : TableName
  /-- The select list; no columns stand for all. -/
  columns : List Column := []
  distinct : Bool := false
  joins : List Join := []
  filters : ConditionGroup := []
  groupBy : List Column := []
  having : ConditionGroup := []
  orderBy : List SortKey := []
  limit : Option Nat := none
  offset : Option Nat := none

namespace Query

/-- The query for all rows of a table. -/
def new (table : TableName) (c : Config) : Query := { config := c, table := table }

/-- The engine that the query is for. -/
def dialect (q : Query) : Dialect := q.config.dialect

/-- What members see of the query. -/
def scope (q : Query) : Scope := ⟨q.config, q.table, !q.joins.isEmpty⟩

/-- How values of the query's statements are written. -/
def binding (q : Query) : Binding := .ofConfig q.config

/-- The select list stands for all columns. -/
def selectsAll (q : Query) : Bool := q.columns.all Column.isAll

/-- The query with the members of an expression as its select list. -/
def selectMembers (q : Query) (p : Path) : Result Query :=
  (p.process q.config .all).map fun ms => { q with columns := ms.map .member }

/-- The query with a condition more, which must hold too. -/
def filter (q : Query) (c : Condition) : Query := { q with filters := q.filters.add .and c }

/-- The query with a condition that may hold instead. -/
def orFilter (q : Query) (c : Condition) : Query := { q with filters := q.filters.add .or c }

/-- The query with a comparison of a member more. -/
def filterMember (q : Query) (p : Path) (op : String) (v : Value) : Result Query :=
  (p.single q.config .chains).map fun m => q.filter (.compare (.member m) op (.value v))

/-- The query with a joined table more. -/
def join (q : Query) (kind : JoinKind) (table : TableName) (on : Condition) : Query :=
  { q with joins := q.joins ++ [⟨kind, table, [(.and, on)]⟩] }

theorem scope_joined (q : Query) : q.scope.joined = true ↔ q.joins ≠ [] := by
  cases h : q.joins <;> simp [scope, h]

end Query
end SqlWeave
