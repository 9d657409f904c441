import SqlWeave.Cursor
import SqlWeave.Text.Naming

/-!
# Mappings of record types

A mapping says how a record type is kept in a table: its columns with the way to read and to change
each, the constructors that take some columns, and the record that reading starts from otherwise.
Foreign members are kept in other tables; of a foreign type the mapping alone is needed, so types
may refer to each other.

Results:
* `column?_name`: the column found has the name that was asked for, letter case ignored.
-/

namespace SqlWeave

open Text

/-- A column of a record type. -/
structure MappedColumn (α : Type) where
  name : String
  /-- The member of the record, with the members it stands in. -/
  member : String
  /-- Part of the table's key. -/
  isKey : Bool
  /-- Made by the engine. -/
  isGenerated : Bool
  read : α → Value
  assign : Value → α → Result α

namespace MappedColumn

/-- A column for a member of a type that values have. -/
def typed {α β : Type} [ToValue β] [FromValue β] (name member : String)
    (get : α → β) (set : β → α → α) : MappedColumn α where
  name := name
  member := member
  isKey := false
  isGenerated := false
  read a := toValue (get a)
  assign v a :=
    match fromValue v with
    | .ok b => .ok (set b a)
    | .error m => .error (.decode name m.message)

/-- A column named after the member by a convention. -/
def named {α β : Type} [ToValue β] [FromValue β] (n : Naming) (member : String) (get : α → β)
    (set : β → α → α) : MappedColumn α := typed (n.apply member) member get set

/-- The column as part of the key. -/
def asKey {α : Type} (c : MappedColumn α) : MappedColumn α := { c with isKey := true }

/-- The column as part of the key, made by the engine. -/
def asIdentity {α : Type} (c : MappedColumn α) : MappedColumn α :=
  { c with isKey := true, isGenerated := true }

/-- The column of an inner record as a column of the outer one. -/
def lift {α β : Type} (c : MappedColumn β) (namePrefix member : String) (get : α → β)
    (set : β → α → α) : MappedColumn α where
  name := namePrefix ++ c.name
  member := member ++ "." ++ c.member
  isKey := false
  isGenerated := false
  read a := c.read (get a)
  assign v a := (c.assign v (get a)).map fun b => set b a

end MappedColumn

/-- A way to make a record of some columns. -/
structure Constructor (α : Type) where
  params : List String
  build : Row → Result α

/-- How a record type is kept in a table. -/
structure Mapping (α : Type) where
  typeName : String
  table : String
  columns : List (MappedColumn α)
  constructors : List (Constructor α) := []
  /-- The record that reading starts from where no constructor fits. -/
  default : Option α := none

namespace Mapping

variable {α : Type}

/-- The columns of the table's key. -/
def keyColumns (m : Mapping α) : List (MappedColumn α) := m.columns.filter (·.isKey)

/-- The name of the first column of the key. -/
def keyColumn? (m : Mapping α) : Option String := m.keyColumns.head?.map (·.name)

/-- The column of a name. -/
def column? (m : Mapping α) (name : String) : Option (MappedColumn α) :=
  m.columns.find? fun c => sameIgnoringCase c.name name

/-- The columns of an inner record as columns of the outer one. -/
def columnsWithin {β : Type} (m : Mapping α) (namePrefix member : String) (get : β → α)
    (set : α → β → β) : List (MappedColumn β) :=
  m.columns.map fun c => c.lift namePrefix member get set

/-- The values of the key's columns. -/
def keyValues (m : Mapping α) (a : α) : Result (List (String × Value)) :=
  match m.keyColumns with
  | [] => .error (.validation (.noKeyColumn m.table))
  | columns => .ok (columns.map fun c => (c.name, c.read a))

theorem column?_name {m : Mapping α} {name : String} {c : MappedColumn α}
    (h : m.column? name = some c) : sameIgnoringCase c.name name = true := by
  simpa using List.find?_some h

/-! ## Making records -/

/-- How records are made of rows with some columns. -/
inductive Plan (α : Type) where
  | constructor (c : Constructor α)
  | start (a : α)

namespace Plan

/-- The columns that making a record takes. -/
def consumed : Plan α → List String
  | constructor c => c.params
  | start _ => []

/-- A record of a row. -/
def make : Plan α → Row → Result α
  | constructor c, r => c.build r
  | start a, _ => .ok a

end Plan

/-- Some columns include a name. -/
def hasName (columns : List String) (name : String) : Bool :=
  columns.any fun c => sameIgnoringCase c name

/-- The constructor of most parameters; of several the first. -/
def largest : List (Constructor α) → Option (Constructor α)
  | [] => none
  | c :: rest =>
    match largest rest with
    | none => some c
    | some d => if c.params.length < d.params.length then some d else some c

/-- The constructor with most parameters that the columns have. -/
def constructor? (m : Mapping α) (columns : List String) : Option (Constructor α) :=
  largest (m.constructors.filter fun c => c.params.all (hasName columns))

/-- The way to make records of rows with some columns. -/
def plan (m : Mapping α) (columns : List String) : Result (Plan α) :=
  match m.constructor? columns, m.default with
  | some c, _ => .ok (.constructor c)
  | none, some a => .ok (.start a)
  | none, none => .error (.noSuitableConstructor m.typeName (", ".intercalate columns))

/-- A record of a row by a plan, or by the plan for the row's columns where there is none yet. -/
def create (m : Mapping α) (p : Option (Plan α)) (r : Row) : Option (Plan α) × Result α :=
  match p with
  | some p => (some p, p.make r)
  | none =>
    match m.plan r.names with
    | .ok p => (some p, p.make r)
    | .error e => (none, .error e)

end Mapping

/-! ## Foreign members -/

/-- How a foreign member is kept. -/
inductive ForeignKind where
  /-- A column of the owner holds the key of the one record. -/
  | belongsTo
  /-- A column of the other table holds the owner's key. -/
  | hasMany
  deriving DecidableEq, Repr, Inhabited

/-- A member that is loaded from another table. -/
structure ForeignMember (α : Type) where
  member : String
  kind : ForeignKind
  /-- The owner's column whose value finds the other rows. -/
  sourceColumn : String
  table : String
  /-- The column of the other table that is compared; empty where that table has no key. -/
  column : String
  /-- The key of the record that is attached. -/
  keyOf : α → Value
  attach : List Row → α → Result α

/-- A record type with its foreign members. -/
structure Entity (α : Type) extends Mapping α where
  foreign : List (ForeignMember α) := []

namespace Entity

variable {α : Type}

/-- The foreign members whose key is a column of the owner. -/
def owned (e : Entity α) : List (ForeignMember α) := e.foreign.filter (·.kind = .belongsTo)

/-- The names of all columns, those of foreign keys last. -/
def columnNames (e : Entity α) : List String :=
  e.columns.map (·.name) ++ e.owned.map (·.sourceColumn)

/-- The row with the key of a foreign member, unless there is such a column. -/
def withForeignKey (a : α) (r : Row) (f : ForeignMember α) : Row :=
  if (r.cell? f.sourceColumn).isSome then r
  else r.push ⟨f.sourceColumn, .value (f.keyOf a)⟩

/-- A record as a row. -/
def row (e : Entity α) (a : α) : Row :=
  e.owned.foldl (withForeignKey a) (Row.ofPairs (e.columns.map fun c => (c.name, c.read a)))

/-- The cells of a row in which no column of a kind is kept. -/
def without (e : Entity α) (skip : MappedColumn α → Bool) (r : Row) : Row :=
  let skipped := (e.columns.filter skip).map (·.name)
  ⟨r.cells.filter fun c => !Mapping.hasName skipped c.name⟩

/-- A record as a row that is inserted: without the columns made by the engine. -/
def insertRow (e : Entity α) (a : α) : Row := e.without (·.isGenerated) (e.row a)

/-- A record as a row that is changed: without key and made columns. -/
def updateRow (e : Entity α) (a : α) : Row :=
  e.without (fun c => c.isKey || c.isGenerated) (e.row a)

end Entity
end SqlWeave
