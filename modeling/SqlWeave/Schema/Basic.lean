import SqlWeave.Error
import SqlWeave.Expression
import SqlWeave.Text.Blank

/-!
# Tables as they are declared

Columns, constraints and indexes of a table. Constraints and indexes are checked when they are made,
so one that no engine would take is never written; each has a name of its own or one made of the
table's and the columns' names.

Results:
* `columns_ne_nil`: a checked list of columns is not empty.
-/

namespace SqlWeave

open Text

/-- A column of a table. Its type is written as given. -/
structure ColumnDef where
  name : String
  sqlType : String
  nullable : Bool := true
  default : Option Param := none
  autoIncrement : Bool := false
  /-- Part of the primary key, unless the table declares one. -/
  primaryKey : Bool := false
  deriving Inhabited

namespace ColumnDef

/-- The column with numbers made by the engine. -/
def numbered (c : ColumnDef) : ColumnDef := { c with autoIncrement := true, nullable := false }

/-- The column as part of the primary key. -/
def asKey (c : ColumnDef) : ColumnDef := { c with primaryKey := true, nullable := false }

end ColumnDef

/-- What becomes of rows whose referenced row goes away or changes. -/
inductive ReferentialAction where
  | noAction | cascade | setNull | setDefault
  deriving DecidableEq, Repr

/-- The keywords of an action. -/
def ReferentialAction.text : ReferentialAction → String
  | noAction => "NO ACTION"
  | cascade => "CASCADE"
  | setNull => "SET NULL"
  | setDefault => "SET DEFAULT"

/-- What a constraint asks of rows. -/
inductive ConstraintKind where
  | primaryKey (columns : List String)
  | unique (columns : List String)
  | foreignKey (column refTable refColumn : String)
      (onDelete onUpdate : Option ReferentialAction)
  | check (predicate : String)
  deriving DecidableEq, Repr

/-- A constraint of a table. -/
structure Constraint where
  table : String
  name : String
  kind : ConstraintKind
  deriving DecidableEq, Repr

/-- An index of a table. -/
structure Index where
  table : String
  name : String
  columns : List String
  unique : Bool
  deriving DecidableEq, Repr

namespace Constraint

/-- The name of a table without blanks around it. -/
def checkedTable (table : String) : Result String :=
  let table := trim table
  if table.isEmpty then .error (.validation .constraintTable) else .ok table

/-- Names of columns, at least one and none of them blank. -/
def checkedColumns (columns : List String) : Result (List String) :=
  if columns.isEmpty then .error (.validation .constraintColumns)
  else if columns.any isBlankText then .error (.validation .constraintColumnName)
  else .ok columns

theorem columns_ne_nil {columns checked : List String} (h : checkedColumns columns = .ok checked) :
    checked ≠ [] := by
  unfold checkedColumns at h
  split at h
  · cases h
  · rename_i hc
    split at h
    · cases h
    · cases h
      simpa using hc

/-- The part of a table's name behind its last dot. -/
def lastPart (table : String) : String :=
  String.ofList (table.toList.reverse.takeWhile (· ≠ '.')).reverse

/-- A name made of the names of a table and of columns. -/
def madeName (mark table : String) (columns : List String) : String :=
  "_".intercalate (mark :: lastPart table :: columns)

/-- A primary key. -/
def primaryKey (table : String) (columns : List String) : Result Constraint := do
  let table ← checkedTable table
  let columns ← checkedColumns columns
  pure ⟨table, madeName "PK" table [], .primaryKey columns⟩

/-- Columns whose values together are different in every row. -/
def unique (table : String) (columns : List String) : Result Constraint := do
  let table ← checkedTable table
  let columns ← checkedColumns columns
  pure ⟨table, madeName "UC" table columns, .unique columns⟩

/-- A column that refers to a column of another table. -/
def foreignKey (table column refTable refColumn : String)
    (onDelete onUpdate : Option ReferentialAction) : Result Constraint := do
  let table ← checkedTable table
  let refTable ← checkedTable refTable
  let _ ← checkedColumns [column, refColumn]
  pure ⟨table, madeName "FK" table [column],
    .foreignKey column refTable refColumn onDelete onUpdate⟩

/-- A predicate that every row satisfies. -/
def check (table predicate : String) : Result Constraint := do
  let table ← checkedTable table
  if isBlankText predicate then throw (.validation .checkText)
  pure ⟨table, madeName "CK" table [], .check predicate⟩

/-- The constraint under another name. -/
def withName (c : Constraint) (name : String) : Constraint := { c with name := name }

/-- A primary key. -/
def isPrimaryKey (c : Constraint) : Bool :=
  match c.kind with
  | .primaryKey _ => true
  | _ => false

end Constraint

namespace Index

/-- An index of columns. -/
def new (table : String) (columns : List String) : Result Index := do
  let table ← Constraint.checkedTable table
  let columns ← Constraint.checkedColumns columns
  pure ⟨table, Constraint.madeName "IX" table columns, columns, false⟩

end Index

/-- A table to be made. -/
structure Schema where
  name : String
  columns : List ColumnDef
  constraints : List Constraint
  temporary : Bool := false

namespace Schema

/-- The declared primary key, or the one of the marked columns. -/
def primaryKey? (s : Schema) : Option Constraint :=
  match s.constraints.find? Constraint.isPrimaryKey with
  | some c => some c
  | none =>
    (Constraint.primaryKey s.name ((s.columns.filter (·.primaryKey)).map (·.name))).toOption

end Schema
end SqlWeave
