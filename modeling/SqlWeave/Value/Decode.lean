import SqlWeave.Calendar.Reading
import SqlWeave.Value.Basic

/-!
# Values as typed data

Reading a value as data of a type, and writing data of a type as a value. A value of another kind is
refused with the name of the type and the kind found; engines that lack a kind report truth values
as numbers, and dates, identifiers and documents as text, so those are read too.

Results:
* `IntRange.ofValue_iff`: a number is read in a range exactly when it lies in it.
-/

namespace SqlWeave

open Calendar Number

/-- The type asked for and the kind found. -/
structure Mismatch where
  expected : String
  got : String
  deriving DecidableEq, Repr

namespace Mismatch

/-- The wording of a mismatch. -/
def message (m : Mismatch) : String := "expected " ++ m.expected ++ ", got " ++ m.got

end Mismatch

namespace Value

/-- Refuses a value. -/
def mismatch {α : Type} (expected : String) (v : Value) : Except Mismatch α :=
  .error ⟨expected, v.kind⟩

/-- A result that may be missing, else a refusal. -/
def orMismatch {α : Type} (expected : String) (v : Value) : Option α → Except Mismatch α
  | some a => .ok a
  | none => mismatch expected v

/-- Truth values; numbers other than zero count as true. -/
def toBool : Value → Except Mismatch Bool
  | bool b => .ok b
  | int n => .ok (n != 0)
  | v => mismatch "bool" v

/-- Whole numbers; true counts as one. -/
def toInt : Value → Except Mismatch Int
  | int n => .ok n
  | bool b => .ok (if b then 1 else 0)
  | v => mismatch "int" v

/-- Floats, and numbers of the other kinds as the float near them. -/
def toFloat : Value → Except Mismatch Float
  | float x => .ok x
  | int n => .ok (floatOfInt n)
  | decimal d => .ok d.toFloat
  | v => mismatch "float" v

/-- Texts, identifiers and documents as text. -/
def toText : Value → Except Mismatch String
  | text s => .ok s
  | uuid u => .ok u.text
  | json j => .ok j.text
  | v => mismatch "text" v

/-- Bytes. -/
def toBytes : Value → Except Mismatch (List UInt8)
  | bytes bs => .ok bs
  | v => mismatch "bytes" v

/-- Dates with a time; a date alone is its midnight. -/
def toDateTime : Value → Except Mismatch DateTime
  | dateTime dt => .ok dt
  | date d => .ok ⟨d, Time.midnight⟩
  | text s => orMismatch "datetime" (text s) (dateTime? s)
  | v => mismatch "datetime" v

/-- Dates, and the date of a date with a time. -/
def toDate : Value → Except Mismatch Date
  | date d => .ok d
  | dateTime dt => .ok dt.date
  | text s => orMismatch "date" (text s) (date? s <|> (dateTime? s).map (·.date))
  | v => mismatch "date" v

/-- Times, and the time of a date with a time. -/
def toTime : Value → Except Mismatch Time
  | time t => .ok t
  | dateTime dt => .ok dt.time
  | text s => orMismatch "time" (text s) (time? s)
  | v => mismatch "time" v

/-- Identifiers, their text and their bytes. -/
def toUuid : Value → Except Mismatch Uuid
  | uuid u => .ok u
  | text s => orMismatch "uuid" (text s) (Uuid.parse? s)
  | bytes bs => orMismatch "uuid" (bytes bs) (Uuid.ofBytes? bs)
  | v => mismatch "uuid" v

/-- Documents and their text. -/
def toJson : Value → Except Mismatch Json
  | json j => .ok j
  | text s => orMismatch "json" (text s) (Json.parse? s)
  | v => mismatch "json" v

/-- Decimals, and other numbers as the decimal near them. -/
def toDecimal : Value → Except Mismatch Decimal
  | decimal d => .ok d
  | int n => orMismatch "decimal" (int n) (Decimal.ofInt? n)
  | float x => orMismatch "decimal" (float x) (Decimal.ofFloat? x)
  | text s => orMismatch "decimal" (text s) (Decimal.parse? s)
  | v => mismatch "decimal" v

end Value

/-! ## Ranges of whole numbers -/

/-- The whole numbers of a fixed-width type. -/
structure IntRange where
  name : String
  least : Int
  greatest : Int
  deriving DecidableEq, Repr

namespace IntRange

/-- The signed numbers of a width in bits. -/
def signed (name : String) (bits : Nat) : IntRange := ⟨name, -2 ^ (bits - 1), 2 ^ (bits - 1) - 1⟩

/-- The unsigned numbers of a width in bits. -/
def unsigned (name : String) (bits : Nat) : IntRange := ⟨name, 0, 2 ^ bits - 1⟩

/-- Signed numbers of 8 bits. -/
def i8 : IntRange := signed "i8" 8
/-- Signed numbers of 16 bits. -/
def i16 : IntRange := signed "i16" 16
/-- Signed numbers of 32 bits. -/
def i32 : IntRange := signed "i32" 32
/-- Unsigned numbers of 8 bits. -/
def u8 : IntRange := unsigned "u8" 8
/-- Unsigned numbers of 16 bits. -/
def u16 : IntRange := unsigned "u16" 16
/-- Unsigned numbers of 32 bits. -/
def u32 : IntRange := unsigned "u32" 32
/-- Unsigned numbers of 64 bits. -/
def u64 : IntRange := unsigned "u64" 64
/-- Unsigned numbers of a machine word. -/
def usize : IntRange := unsigned "usize" 64

/-- The number a value holds, if it lies in the range. -/
def ofValue (r : IntRange) (v : Value) : Except Mismatch Int :=
  v.toInt.bind fun n =>
    if r.least ≤ n ∧ n ≤ r.greatest then .ok n else .error ⟨r.name, "out-of-range int"⟩

theorem ofValue_iff (r : IntRange) (n m : Int) :
    r.ofValue (.int n) = .ok m ↔ m = n ∧ r.least ≤ n ∧ n ≤ r.greatest := by
  simp only [ofValue, Value.toInt, Except.bind]
  split
  · rename_i h
    exact ⟨fun e => ⟨(Except.ok.inj e).symm, h⟩, fun e => by rw [e.1]⟩
  · rename_i h
    exact ⟨fun e => (nomatch e), fun e => absurd e.2 h⟩

end IntRange

/-! ## Types of column data -/

/-- Data that can be written as a value. -/
class ToValue (α : Type) where
  toValue : α → Value

/-- Data that can be read from a value. -/
class FromValue (α : Type) where
  fromValue : Value → Except Mismatch α

export ToValue (toValue)
export FromValue (fromValue)

instance : ToValue Value := ⟨id⟩
instance : FromValue Value := ⟨.ok⟩
instance : ToValue Bool := ⟨.bool⟩
instance : FromValue Bool := ⟨Value.toBool⟩
instance : ToValue Int := ⟨.int⟩
instance : FromValue Int := ⟨Value.toInt⟩
instance : ToValue Int16 := ⟨fun n => .int n.toInt⟩
instance : FromValue Int16 := ⟨fun v => (IntRange.i16.ofValue v).map Int16.ofInt⟩
instance : ToValue Float := ⟨.float⟩
instance : FromValue Float := ⟨Value.toFloat⟩
instance : ToValue Float32 := ⟨fun x => .float x.toFloat⟩
instance : FromValue Float32 := ⟨fun v => v.toFloat.map Float.toFloat32⟩
instance : ToValue String := ⟨.text⟩
instance : FromValue String := ⟨Value.toText⟩
instance : ToValue (List UInt8) := ⟨.bytes⟩
instance : FromValue (List UInt8) := ⟨Value.toBytes⟩
instance : ToValue Date := ⟨.date⟩
instance : FromValue Date := ⟨Value.toDate⟩
instance : ToValue Time := ⟨.time⟩
instance : FromValue Time := ⟨Value.toTime⟩
instance : ToValue DateTime := ⟨.dateTime⟩
instance : FromValue DateTime := ⟨Value.toDateTime⟩
instance : ToValue Uuid := ⟨.uuid⟩
instance : FromValue Uuid := ⟨Value.toUuid⟩
instance : ToValue Json := ⟨.json⟩
instance : FromValue Json := ⟨Value.toJson⟩
instance : ToValue Decimal := ⟨.decimal⟩
instance : FromValue Decimal := ⟨Value.toDecimal⟩

/-- Missing data is the null value. -/
instance {α : Type} [ToValue α] : ToValue (Option α) := ⟨fun
  | some a => toValue a
  | none => .null⟩

/-- The null value is missing data. -/
instance {α : Type} [FromValue α] : FromValue (Option α) := ⟨fun
  | .null => .ok none
  | v => (fromValue v).map some⟩

end SqlWeave
