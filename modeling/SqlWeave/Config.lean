import SqlWeave.Dialect
import SqlWeave.Error
import SqlWeave.Text.Naming
import SqlWeave.Toml.Document

/-!
# Options of statement generation

The engine that statements are for and how they are written, as a record with defaults per engine
or read from a TOML document. Keys of the document that are not known are ignored.

`Config.intercept` writes dates and times as text for engines that keep them so. A program whose
pattern for them cannot be read breaks off where it would use the pattern (`Config.breaksOff`).
Where a table is declared this is part of what may come out. Of every other statement the text is
told as far as its patterns can be read: that it breaks off is not a property of the statement.

Results:
* `intercept_intercept`: text that was written once is not written again.
* `intercept_isNumeric`: intercepting changes no number.
-/

namespace SqlWeave

open Text Calendar

/-- Options of statement generation. -/
structure Config where
  dialect : Dialect
  /-- Texts are written as literals and not bound. -/
  escapeStrings : Bool
  /-- UPDATE and DELETE need a condition. -/
  onlySafeModifications : Bool
  /-- How member names become column names. -/
  naming : Naming
  /-- The pattern by which dates with a time are bound as text. -/
  dateFormat : Option String
  /-- Pages of SQL Server are numbered rows. -/
  useOldPagination : Bool
  /-- Foreign members are loaded with their owners. -/
  loadForeign : Bool
  /-- The number of rows in one bulk insert, instead of the engine's. -/
  bulkBatchRows : Option Nat
  deriving DecidableEq, Repr

namespace Config

/-- The pattern of dates with a time on engines without a type for them. -/
def textDateFormat : String := "%Y-%m-%d %H:%M:%S"

/-- The usual options for an engine. -/
def new (d : Dialect) : Config where
  dialect := d
  escapeStrings := false
  onlySafeModifications := false
  naming := .asIs
  dateFormat := if d = .sqlite then some textDateFormat else none
  useOldPagination := false
  loadForeign := false
  bulkBatchRows := none

/-- A number of rows for bulk inserts, at least one. -/
def withBulkBatchRows (c : Config) (rows : Nat) : Config :=
  { c with bulkBatchRows := some (max rows 1) }

/-- The number that stands for no limit. -/
def unlimitedRows : Nat := 2 ^ 64 - 1

/-- The number of rows that one bulk insert may hold, if it is limited. -/
def bulkRows (c : Config) : Option Nat :=
  match c.bulkBatchRows with
  | some n => if n < unlimitedRows then some n else none
  | none => c.dialect.maxBulkRows

/-- A value as it is bound: dates and times become text if there is a pattern for them. -/
def intercept (c : Config) (v : Value) : Value :=
  match c.dateFormat with
  | none => v
  | some pattern =>
    match v with
    | .dateTime dt => .text (Pattern.format pattern dt)
    | .date d => .text d.text
    | .time t => .text (String.ofList (Pattern.write Pattern.clock ⟨default, t⟩))
    | v => v

/-- The program breaks off at a value: it is a date with a time, and the pattern for these has a
field that no date with a time has. -/
def breaksOff (c : Config) (v : Value) : Bool :=
  match c.dateFormat, v with
  | some pattern, .dateTime _ => !Pattern.isReadable pattern
  | _, _ => false

theorem intercept_intercept (c : Config) (v : Value) :
    c.intercept (c.intercept v) = c.intercept v := by
  cases h : c.dateFormat <;> cases v <;> simp [intercept, h]

theorem intercept_isNumeric (c : Config) {v : Value} (hv : v.isNumeric = true) :
    c.intercept v = v := by
  cases h : c.dateFormat <;> cases v <;> simp_all [intercept, Value.isNumeric]

/-! ## Reading -/

/-- The engine of a name in a document. -/
def dialectOfName? : String → Option Dialect
  | "sql_server" => some .sqlServer
  | "mysql" => some .mysql
  | "sqlite" => some .sqlite
  | "firebird" => some .firebird
  | _ => none

/-- The convention of a name in a document. -/
def namingOfName? : String → Option Naming
  | "as_is" => some .asIs
  | "snake_case" => some .snake
  | "upper_camel_case" => some .upperCamel
  | "lower_camel_case" => some .lowerCamel
  | "shouty_snake_case" => some .shoutySnake
  | _ => none

/-- The name of a choice: a text, or the only key of a table with an empty table or array. -/
def choice? : Toml.Node → Option String
  | .string s => some s
  | .table _ [(name, .table _ [])] => some name
  | .table _ [(name, .array [])] => some name
  | _ => none

/-- A truth value. -/
def boolean? : Toml.Node → Option Bool
  | .boolean b => some b
  | _ => none

/-- A text. -/
def string? : Toml.Node → Option String
  | .string s => some s
  | _ => none

/-- A number of rows. -/
def count? : Toml.Node → Option Nat
  | .integer n => if 0 ≤ n then some n.toNat else none
  | _ => none

/-- The member under a key: its reading, or a default where it is absent. -/
def option {α : Type} (members : Toml.Members) (key : String) (absent : α)
    (read : Toml.Node → Option α) : Result α :=
  match members.lookup key with
  | none => .ok absent
  | some node =>
    match read node with
    | some a => .ok a
    | none => .error (.config ("invalid value of " ++ ticked key))

/-- The options of a document. -/
def ofMembers (members : Toml.Members) : Result Config := do
  let dialect ← option members "dialect" none fun n => (choice? n).bind fun s =>
    (dialectOfName? s).map some
  let escapeStrings ← option members "escape_strings" false boolean?
  let onlySafeModifications ← option members "only_safe_modifications" false boolean?
  let naming ← option members "nomenclature" .asIs fun n => (choice? n).bind namingOfName?
  let dateFormat ← option members "date_format" none fun n => (string? n).map some
  let useOldPagination ← option members "use_old_pagination" false boolean?
  let loadForeign ← option members "load_foreign" false boolean?
  let bulkBatchRows ← option members "bulk_batch_rows" none fun n => (count? n).map some
  match dialect with
  | none => .error (.config ("missing field " ++ ticked "dialect"))
  | some dialect =>
    pure { dialect, escapeStrings, onlySafeModifications, naming, dateFormat, useOldPagination,
           loadForeign, bulkBatchRows }

/-- Reads the options of a TOML document. -/
def ofToml (text : String) : Result Config :=
  match Toml.parse? text with
  | none => .error (.config "malformed document")
  | some members => ofMembers members

end Config
end SqlWeave
