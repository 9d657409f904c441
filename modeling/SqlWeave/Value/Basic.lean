import SqlWeave.Calendar.Pattern
import SqlWeave.Json.Text
import SqlWeave.Number.Decimal
import SqlWeave.Text.Shown
import SqlWeave.Uuid

/-!
# Values

What a statement binds and a row holds, whatever the engine: twelve kinds of value, their equality,
and the text of the numeric ones.

`keyText` names a value by its kind and its debug text. It keys the rows that were loaded for a
foreign member.

Integers are read and written as they are, so they are unbounded here; the one operation that counts
them, in the position of a substring, keeps them within 64 bits.

Results:
* `isNumeric_of_numericText`: only numeric values have a numeric text.
* `kind_ne_of_temporal`: temporal values are not numeric.
-/

namespace SqlWeave

open Calendar Number

/-- A value that a statement binds or a row holds. -/
inductive Value where
  | null
  | bool (b : Bool)
  | int (n : Int)
  | float (x : Float)
  | decimal (d : Decimal)
  | text (s : String)
  | bytes (bs : List UInt8)
  | date (d : Date)
  | time (t : Time)
  | dateTime (dt : DateTime)
  | uuid (u : Uuid)
  | json (j : Json)
  deriving Inhabited

namespace Value

/-- Equality of values of one kind. Floats and decimals are compared as numbers, so a float that is
no number differs from itself and `1.5` equals `1.50`. -/
def beq : Value → Value → Bool
  | null, null => true
  | bool a, bool b => a == b
  | int a, int b => a == b
  | float a, float b => a == b
  | decimal a, decimal b => a.equal b
  | text a, text b => a == b
  | bytes a, bytes b => a == b
  | date a, date b => a == b
  | time a, time b => a == b
  | dateTime a, dateTime b => a == b
  | uuid a, uuid b => a == b
  | json a, json b => a == b
  | _, _ => false

instance : BEq Value := ⟨beq⟩

/-- The name of a value's kind. -/
def kind : Value → String
  | null => "null"
  | bool _ => "bool"
  | int _ => "int"
  | float _ => "float"
  | decimal _ => "decimal"
  | text _ => "text"
  | bytes _ => "bytes"
  | date _ => "date"
  | time _ => "time"
  | dateTime _ => "datetime"
  | uuid _ => "uuid"
  | json _ => "json"

/-- The missing value. -/
def isNull : Value → Bool
  | null => true
  | _ => false

/-- Whole numbers, floats and decimals, which statements hold as text and do not bind. -/
def isNumeric : Value → Bool
  | int _ | float _ | decimal _ => true
  | _ => false

/-- Dates, times and both. -/
def isTemporal : Value → Bool
  | date _ | time _ | dateTime _ => true
  | _ => false

/-- The text of a number; floats that are no finite number have none. -/
def numericText : Value → Option String
  | int n => some (intText n)
  | float x => if x.isFinite then some (Layout.plain.text x) else none
  | decimal d => some d.text
  | _ => none

theorem isNumeric_of_numericText {v : Value} {s : String} (h : v.numericText = some s) :
    v.isNumeric = true := by
  cases v <;> simp_all [numericText, isNumeric]

theorem kind_ne_of_temporal {v : Value} (h : v.isTemporal = true) : v.isNumeric = false := by
  cases v <;> simp_all [isTemporal, isNumeric]

/-! ## Keys -/

mutual

/-- A document as part of a key. -/
def jsonKey : Json → String
  | .null => "Null"
  | .bool b => "Bool(" ++ (if b then "true" else "false") ++ ")"
  | .int n => "Number(" ++ intText n ++ ")"
  | .float x => "Number(" ++ (Json.float x).text ++ ")"
  | .string s => "String(" ++ Text.shown s ++ ")"
  | .array items => "Array [" ++ itemsKey items ++ "]"
  | .object members => "Object \x7b" ++ membersKey members ++ "\x7d"

/-- The items of a list with commas between them. -/
def itemsKey : List Json → String
  | [] => ""
  | [a] => jsonKey a
  | a :: rest => jsonKey a ++ ", " ++ itemsKey rest

/-- The members of an object with commas between them. -/
def membersKey : List (String × Json) → String
  | [] => ""
  | [(k, a)] => Text.shown k ++ ": " ++ jsonKey a
  | (k, a) :: rest => Text.shown k ++ ": " ++ jsonKey a ++ ", " ++ membersKey rest

end

/-- A value written with the name of its kind. -/
def shown : Value → String
  | null => "Null"
  | bool b => "Bool(" ++ (if b then "true" else "false") ++ ")"
  | int n => "Int(" ++ intText n ++ ")"
  | float x => "Float(" ++ Layout.key.text x ++ ")"
  | decimal d => "Decimal(" ++ d.text ++ ")"
  | text s => "Text(" ++ Text.shown s ++ ")"
  | bytes bs => "Bytes([" ++ ", ".intercalate (bs.map fun b => natText b.toNat) ++ "])"
  | date d => "Date(" ++ d.text ++ ")"
  | time t => "Time(" ++ t.text ++ ")"
  | dateTime dt => "DateTime(" ++ dt.text 'T' ++ ")"
  | uuid u => "Uuid(" ++ u.text ++ ")"
  | json j => "Json(" ++ jsonKey j ++ ")"

/-- The text under which rows loaded for a key value are kept. -/
def keyText (v : Value) : String := v.kind ++ ":" ++ v.shown

end Value
end SqlWeave
