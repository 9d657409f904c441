import SqlWeave.Dialect
import SqlWeave.Text.Ascii

/-!
# Names of tables

A table has a name and perhaps an alias. `TableName.parse` reads `orders o` and `orders AS o`; any
other number of words is one name.
-/

namespace SqlWeave

open Text

/-- A table by its name, with the alias under which a statement refers to it. -/
structure TableName where
  name : String
  aliasName : Option String
  deriving DecidableEq, Repr, Inhabited

namespace TableName

/-- Reads a name with an optional alias. -/
def parse (raw : String) : TableName :=
  match words raw with
  | [name, word, aliasName] =>
    if sameIgnoringCase word "as" then ⟨name, some aliasName⟩ else ⟨trim raw, none⟩
  | [name, aliasName] => ⟨name, some aliasName⟩
  | _ => ⟨trim raw, none⟩

/-- The table under another alias. -/
def withAlias (t : TableName) (aliasName : String) : TableName :=
  { t with aliasName := some aliasName }

/-- The name by which other clauses refer to the table. -/
def aliasOrName (t : TableName) : String := t.aliasName.getD t.name

/-- The quoted name, without the alias. -/
def plain (t : TableName) (d : Dialect) : String := d.quote t.name

/-- The quoted name and the alias. -/
def declared (t : TableName) (d : Dialect) : String :=
  match t.aliasName with
  | some aliasName => d.quote t.name ++ " " ++ d.quotePart aliasName
  | none => d.quote t.name

/-- The quoted name by which other clauses refer to the table. -/
def reference (t : TableName) (d : Dialect) : String :=
  match t.aliasName with
  | some aliasName => d.quotePart aliasName
  | none => d.quote t.name

end TableName
end SqlWeave
