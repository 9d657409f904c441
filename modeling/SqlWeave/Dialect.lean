import SqlWeave.Text.Blank
import SqlWeave.Text.Quoted
import SqlWeave.Value.Basic

/-!
# The engines and their lexical rules

How each of the four engines quotes names and writes literals, and how much one statement may hold.

Results:
* `quotePart_star`: the star is never quoted.
* `literal_isSome_iff`: exactly the bytes and the floats that are no finite number have no literal.
-/

namespace SqlWeave

open Text

/-- An engine. -/
inductive Dialect where
  | sqlServer
  | mysql
  | sqlite
  | firebird
  deriving DecidableEq, Repr, Inhabited

namespace Dialect

/-- The engines in their usual order. -/
def all : List Dialect := [sqlServer, mysql, sqlite, firebird]

/-- The name of an engine. -/
def name : Dialect → String
  | sqlServer => "SqlServer"
  | mysql => "MySQL"
  | sqlite => "SQLite"
  | firebird => "Firebird"

/-- The characters before and after a quoted name. -/
def quotes : Dialect → Char × Char
  | sqlServer => ('[', ']')
  | mysql => ('\x60', '\x60')
  | sqlite | firebird => ('"', '"')

/-! ## Names -/

/-- One part of a name between quotes, its closing quotes doubled. A star stays as it is. -/
def quotePart (d : Dialect) (part : String) : String :=
  if part = "*" then part
  else String.ofList (delimited d.quotes.1 d.quotes.2 (· == d.quotes.2) part.toList)

/-- A name of parts joined by dots, each part without blanks around it and quoted. A name that
starts with an opening quote is quoted already. -/
def quote (d : Dialect) (ident : String) : String :=
  if ident.toList.head? = some d.quotes.1 then ident
  else
    ".".intercalate <|
      (ident.toList.splitOn '.').map fun part => d.quotePart (String.ofList (trimChars part))

theorem quotePart_star (d : Dialect) : d.quotePart "*" = "*" := rfl

/-! ## Literals -/

/-- A truth value. -/
def boolLiteral : Dialect → Bool → String
  | firebird, true => "TRUE"
  | firebird, false => "FALSE"
  | _, true => "1"
  | _, false => "0"

/-- The characters doubled inside a text literal. -/
def literalDoubles (d : Dialect) (c : Char) : Bool := c == '\'' || (c == '\\' && d == mysql)

/-- A text between apostrophes. -/
def stringLiteral (d : Dialect) (s : String) : String :=
  String.ofList (delimited '\'' '\'' d.literalDoubles s.toList)

/-- A value as text of a statement, if it has such a form. -/
def literal (d : Dialect) : Value → Option String
  | .null => some "NULL"
  | .bool b => some (d.boolLiteral b)
  | .text s => some (d.stringLiteral s)
  | .date x => some (d.stringLiteral x.text)
  | .time x => some (d.stringLiteral x.text)
  | .dateTime x => some (d.stringLiteral (x.text ' '))
  | .uuid u => some (d.stringLiteral u.text)
  | .json j => some (d.stringLiteral j.text)
  | .bytes _ => none
  | v => v.numericText

theorem literal_isSome_iff (d : Dialect) (v : Value) :
    (d.literal v).isSome ↔
      (∀ bs, v ≠ .bytes bs) ∧ (∀ x, v = .float x → x.isFinite = true) := by
  cases v <;> simp [literal, Value.numericText]

/-! ## Limits -/

/-- The number of values that one statement may bind. -/
def maxParameters : Dialect → Nat
  | sqlServer => 2099
  | mysql => 65535
  | sqlite => 999
  | firebird => 32767

/-- The number of rows that one statement may insert, if it is limited. -/
def maxBulkRows : Dialect → Option Nat
  | sqlServer => some 1000
  | mysql | sqlite => none
  | firebird => some 10000

end Dialect
end SqlWeave
