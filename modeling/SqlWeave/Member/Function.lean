import SqlWeave.Member.Basic
import SqlWeave.Member.DatePattern
import SqlWeave.TableName

/-!
# Functions of texts and dates

The members of texts and dates that engines have functions for, by name, and how each engine writes
them around the fragment built so far. Tables tell the names that are known. What an engine has for
a name stands elsewhere, so a name in a table need not have been thought of by every engine; what an
engine has nothing for is refused as a member that nobody maps.

Each function is a template and what comes to its places, and it is for whoever writes them to have
as many of the one as of the other.
-/

namespace SqlWeave

/-! ## Names -/

/-- The methods of texts. -/
def textMethods : List String :=
  ["to_uppercase", "to_lowercase", "trim", "trim_start", "trim_end", "substring", "replace",
    "concat"]

/-- The properties of texts. -/
def textProperties : List String := ["len"]

/-- The properties of dates. The first three are roots of chains; nothing stands in front of
them. -/
def dateProperties : List String :=
  ["now", "utc_now", "today", "year", "month", "day", "hour", "minute", "second", "day_of_year",
    "day_of_week", "date", "time_of_day"]

/-- The methods of dates. -/
def dateMethods : List String :=
  ["to_string", "format", "add_days", "add_months", "add_years", "add_hours", "add_minutes",
    "add_seconds"]

/-- A method, or a property, of a type, with one of some names. -/
def Node.isAmong (n : Node) (type : MemberType → Bool) (method : Bool) (names : List String) :
    Bool :=
  n.isMethod == method && type n.declaring && names.contains n.name

/-! ## Arguments -/

/-- Refuses a member that an engine has nothing for. -/
def notAvailable {α : Type} (d : Dialect) (n : Node) : Result α :=
  .error (.notSupported (.member n.declaring.name n.name) d.name)

/-- Refuses a node that no translator accepts, or that has no place in the one that does. -/
def notMapped {α : Type} (n : Node) : Result α := .error (.notMapped n.declaring.name n.name)

/-- An argument by its position. -/
def argument (n : Node) (args : List Param) (i : Nat) : Result Param :=
  match args[i]? with
  | some a => .ok a
  | none => .error (.validation (.missingArgument n.declaring.name n.name (i + 1)))

/-- A position counted from zero as one counted from one. Numbers have 64 bits, and behind the
greatest the program breaks off. -/
def oneBased : Param → Result Param
  | .value (.int n) =>
    if n < 2 ^ 63 - 1 then .ok (.value (.int (n + 1))) else .error .brokenOff
  | p => .ok (.expression (.new "(? + 1)" [p]))

/-- An argument that must be a text, such as a pattern. -/
def textArgument (n : Node) (args : List Param) (i : Nat) : Result String := do
  match ← argument n args i with
  | .value (.text s) => pure s
  | _ => .error (.validation (.textArgument n.declaring.name n.name))

/-- Placeholders with a separator between them. -/
def holes (n : Nat) (separator : String) : String := separator.intercalate (List.replicate n "?")

/-- Parameters with a separator between them, however many there are, up to a parenthesis. -/
def series (opening separator : String) (params : List Param) : Expression :=
  .new (opening ++ holes params.length separator ++ ")") params

/-! ## Texts -/

namespace TextFunction

/-- The functions of texts of SQL Server, which removes given characters at both sides only. -/
def sqlServer (current : Expression) (n : Node) (args : List Param) : Result Expression :=
  let col := Param.expression current
  match n.name with
  | "to_uppercase" => .ok (.new "UPPER(?)" [col])
  | "to_lowercase" => .ok (.new "LOWER(?)" [col])
  | "trim" =>
    match args with
    | [] => .ok (.new "TRIM(?)" [col])
    | chars :: _ => .ok (.new "TRIM(? FROM ?)" [chars, col])
  | "trim_start" =>
    match args with
    | [] => .ok (.new "LTRIM(?)" [col])
    | _ => notAvailable .sqlServer n
  | "trim_end" =>
    match args with
    | [] => .ok (.new "RTRIM(?)" [col])
    | _ => notAvailable .sqlServer n
  | "substring" => do
    let start ← oneBased (← argument n args 0)
    match args[1]? with
    | some length => pure (.new "SUBSTRING(?,?,?)" [col, start, length])
    | none => pure (.new "SUBSTRING(?,?,LEN(?))" [col, start, col])
  | "replace" => do
    let old ← argument n args 0
    let new ← argument n args 1
    pure (.new "REPLACE(?,?,?)" [col, old, new])
  | "concat" =>
    match args with
    | [] => .ok (.new "?" [col])
    | args => .ok (series "CONCAT(" "," (col :: args))
  | "len" => .ok (.new "LEN(?)" [col])
  | _ => notMapped n

/-- Removing blanks, or given characters, on MySQL. -/
def mysqlTrim (function side : String) (col : Param) : List Param → Expression
  | [] => .new (function ++ "(?)") [col]
  | chars :: _ => .new ("TRIM(" ++ side ++ " ? FROM ?)") [chars, col]

/-- The functions of texts of MySQL. -/
def mysql (current : Expression) (n : Node) (args : List Param) : Result Expression :=
  let col := Param.expression current
  match n.name with
  | "to_uppercase" => .ok (.new "UPPER(?)" [col])
  | "to_lowercase" => .ok (.new "LOWER(?)" [col])
  | "trim" => .ok (mysqlTrim "TRIM" "BOTH" col args)
  | "trim_start" => .ok (mysqlTrim "LTRIM" "LEADING" col args)
  | "trim_end" => .ok (mysqlTrim "RTRIM" "TRAILING" col args)
  | "substring" => do
    let start ← oneBased (← argument n args 0)
    match args[1]? with
    | some length => pure (.new "SUBSTRING(?,?,?)" [col, start, length])
    | none => pure (.new "SUBSTRING(?,?)" [col, start])
  | "replace" => do
    let old ← argument n args 0
    let new ← argument n args 1
    pure (.new "REPLACE(?,?,?)" [col, old, new])
  | "concat" => .ok (series "CONCAT(" "," (col :: args))
  | "len" => .ok (.new "CHAR_LENGTH(?)" [col])
  | _ => notMapped n

/-- Removing blanks, or given characters, on SQLite. -/
def sqliteTrim (function : String) (col : Param) : List Param → Expression
  | [] => .new (function ++ "(?)") [col]
  | chars :: _ => .new (function ++ "(?, ?)") [col, chars]

/-- The functions of texts of SQLite. -/
def sqlite (current : Expression) (n : Node) (args : List Param) : Result Expression :=
  let col := Param.expression current
  match n.name with
  | "to_uppercase" => .ok (.new "UPPER(?)" [col])
  | "to_lowercase" => .ok (.new "LOWER(?)" [col])
  | "trim" => .ok (sqliteTrim "TRIM" col args)
  | "trim_start" => .ok (sqliteTrim "LTRIM" col args)
  | "trim_end" => .ok (sqliteTrim "RTRIM" col args)
  | "substring" => do
    let start ← oneBased (← argument n args 0)
    match args[1]? with
    | some length => pure (.new "SUBSTR(?,?,?)" [col, start, length])
    | none => pure (.new "SUBSTR(?,?)" [col, start])
  | "replace" => do
    let old ← argument n args 0
    let new ← argument n args 1
    pure (.new "REPLACE(?,?,?)" [col, old, new])
  | "concat" => .ok (series "(" " || " (col :: args))
  | "len" => .ok (.new "LENGTH(?)" [col])
  | _ => notMapped n

/-- Removing blanks, or given characters, at a side on Firebird. -/
def firebirdTrim (side : String) (col : Param) : List Param → Expression
  | [] => .new ("TRIM(" ++ side ++ " FROM ?)") [col]
  | chars :: _ => .new ("TRIM(" ++ side ++ " ? FROM ?)") [chars, col]

/-- The functions of texts of Firebird. -/
def firebird (current : Expression) (n : Node) (args : List Param) : Result Expression :=
  let col := Param.expression current
  match n.name with
  | "to_uppercase" => .ok (.new "UPPER(?)" [col])
  | "to_lowercase" => .ok (.new "LOWER(?)" [col])
  | "trim" =>
    match args with
    | [] => .ok (.new "TRIM(?)" [col])
    | args => .ok (firebirdTrim "BOTH" col args)
  | "trim_start" => .ok (firebirdTrim "LEADING" col args)
  | "trim_end" => .ok (firebirdTrim "TRAILING" col args)
  | "substring" => do
    let start ← oneBased (← argument n args 0)
    match args[1]? with
    | some length => pure (.new "SUBSTRING(? FROM ? FOR ?)" [col, start, length])
    | none => pure (.new "SUBSTRING(? FROM ?)" [col, start])
  | "replace" => do
    let old ← argument n args 0
    let new ← argument n args 1
    pure (.new "REPLACE(?,?,?)" [col, old, new])
  | "concat" => .ok (series "(" " || " (col :: args))
  | "len" => .ok (.new "CHAR_LENGTH(?)" [col])
  | _ => notMapped n

end TextFunction

/-! ## Parts of dates -/

namespace DateProperty

/-- The parts of dates of SQL Server. -/
def sqlServer (current : Expression) (n : Node) : Result Expression :=
  let part (name : String) := current.wrap ("DATEPART(" ++ name ++ ", ") ")"
  match n.name with
  | "now" => .ok (.raw "GETDATE()")
  | "utc_now" => .ok (.raw "GETUTCDATE()")
  | "today" => .ok (.raw "CAST(GETDATE() AS DATE)")
  | "year" => .ok (part "YEAR")
  | "month" => .ok (part "MONTH")
  | "day" => .ok (part "DAY")
  | "hour" => .ok (part "HOUR")
  | "minute" => .ok (part "MINUTE")
  | "second" => .ok (part "SECOND")
  | "day_of_year" => .ok (part "DAYOFYEAR")
  | "day_of_week" => .ok (current.wrap "(DATEPART(WEEKDAY, " ") - 1)")
  | "date" => .ok (current.wrap "CAST(" " AS DATE)")
  | "time_of_day" => .ok (current.wrap "CAST(" " AS TIME)")
  | _ => notMapped n

/-- The parts of dates of MySQL. -/
def mysql (current : Expression) (n : Node) : Result Expression :=
  let call (name : String) := current.wrap (name ++ "(") ")"
  match n.name with
  | "now" => .ok (.raw "NOW()")
  | "utc_now" => .ok (.raw "UTC_TIMESTAMP()")
  | "today" => .ok (.raw "CURDATE()")
  | "year" => .ok (call "YEAR")
  | "month" => .ok (call "MONTH")
  | "day" => .ok (call "DAY")
  | "hour" => .ok (call "HOUR")
  | "minute" => .ok (call "MINUTE")
  | "second" => .ok (call "SECOND")
  | "day_of_year" => .ok (call "DAYOFYEAR")
  | "day_of_week" => .ok (current.wrap "(DAYOFWEEK(" ") - 1)")
  | "date" => .ok (call "DATE")
  | "time_of_day" => .ok (call "TIME")
  | _ => notMapped n

/-- The parts of dates of SQLite. -/
def sqlite (current : Expression) (n : Node) : Result Expression :=
  let part (token : String) :=
    current.wrap ("CAST(STRFTIME('" ++ token ++ "', ") ") AS INTEGER)"
  match n.name with
  | "now" => .ok (.raw "DATETIME('now', 'localtime')")
  | "utc_now" => .ok (.raw "DATETIME('now')")
  | "today" => .ok (.raw "DATE('now', 'localtime')")
  | "year" => .ok (part "%Y")
  | "month" => .ok (part "%m")
  | "day" => .ok (part "%d")
  | "hour" => .ok (part "%H")
  | "minute" => .ok (part "%M")
  | "second" => .ok (part "%S")
  | "day_of_year" => .ok (part "%j")
  | "day_of_week" => .ok (part "%w")
  | "date" => .ok (current.wrap "DATE(" ")")
  | "time_of_day" => .ok (current.wrap "TIME(" ")")
  | _ => notMapped n

/-- The parts of dates of Firebird, whose days of the year count from zero. -/
def firebird (current : Expression) (n : Node) : Result Expression :=
  let extract (part : String) := current.wrap ("EXTRACT(" ++ part ++ " FROM ") ")"
  match n.name with
  | "now" => .ok (.raw "CURRENT_TIMESTAMP")
  | "utc_now" => notAvailable .firebird n
  | "today" => .ok (.raw "CURRENT_DATE")
  | "year" => .ok (extract "YEAR")
  | "month" => .ok (extract "MONTH")
  | "day" => .ok (extract "DAY")
  | "hour" => .ok (extract "HOUR")
  | "minute" => .ok (extract "MINUTE")
  | "second" => .ok (extract "SECOND")
  | "day_of_year" => .ok (current.wrap "(EXTRACT(YEARDAY FROM " ") + 1)")
  | "day_of_week" => .ok (extract "WEEKDAY")
  | "date" => .ok (current.wrap "CAST(" " AS DATE)")
  | "time_of_day" => .ok (current.wrap "CAST(" " AS TIME)")
  | _ => notMapped n

end DateProperty

/-! ## Methods of dates -/

namespace DateMethod

/-- The methods of dates of SQL Server, which takes patterns as they are. -/
def sqlServer (current : Expression) (n : Node) (args : List Param) : Result Expression :=
  let col := Param.expression current
  let add (unit : String) : Result Expression := do
    let count ← argument n args 0
    pure (.new ("DATEADD(" ++ unit ++ ", ?, ?)") [count, col])
  match n.name with
  | "to_string" | "format" =>
    match args with
    | [] => .ok (.new "CONVERT(VARCHAR(23), ?, 121)" [col])
    | pattern :: _ => .ok (.new "FORMAT(?, ?)" [col, pattern])
  | "add_days" => add "DAY"
  | "add_months" => add "MONTH"
  | "add_years" => add "YEAR"
  | "add_hours" => add "HOUR"
  | "add_minutes" => add "MINUTE"
  | "add_seconds" => add "SECOND"
  | _ => notMapped n

/-- The methods of dates of MySQL. -/
def mysql (current : Expression) (n : Node) (args : List Param) : Result Expression :=
  let col := Param.expression current
  let add (unit : String) : Result Expression := do
    let count ← argument n args 0
    pure (.new ("DATE_ADD(?, INTERVAL ? " ++ unit ++ ")") [col, count])
  match n.name with
  | "to_string" | "format" =>
    match args with
    | [] => .ok (.new "CAST(? AS CHAR)" [col])
    | args => do
      let pattern ← textArgument n args 0
      let pattern := DatePattern.translate pattern DatePattern.mysqlTokens
      pure (.new "DATE_FORMAT(?, ?)" [col, .value (.text pattern)])
  | "add_days" => add "DAY"
  | "add_months" => add "MONTH"
  | "add_years" => add "YEAR"
  | "add_hours" => add "HOUR"
  | "add_minutes" => add "MINUTE"
  | "add_seconds" => add "SECOND"
  | _ => notMapped n

/-- The methods of dates of SQLite. -/
def sqlite (current : Expression) (n : Node) (args : List Param) : Result Expression :=
  let col := Param.expression current
  let add (unit : String) : Result Expression := do
    let count ← argument n args 0
    pure (.new ("DATETIME(?, ? || ' " ++ unit ++ "')") [col, count])
  match n.name with
  | "to_string" | "format" =>
    match args with
    | [] => .ok (.new "STRFTIME('%Y-%m-%d %H:%M:%S', ?)" [col])
    | args => do
      let pattern ← textArgument n args 0
      let pattern := DatePattern.translate pattern DatePattern.sqliteTokens
      pure (.new "STRFTIME(?, ?)" [.value (.text pattern), col])
  | "add_days" => add "days"
  | "add_months" => add "months"
  | "add_years" => add "years"
  | "add_hours" => add "hours"
  | "add_minutes" => add "minutes"
  | "add_seconds" => add "seconds"
  | _ => notMapped n

/-- The methods of dates of Firebird, which has no patterns. -/
def firebird (current : Expression) (n : Node) (args : List Param) : Result Expression :=
  let col := Param.expression current
  let add (unit : String) : Result Expression := do
    let count ← argument n args 0
    pure (.new ("DATEADD(? " ++ unit ++ " TO ?)") [count, col])
  match n.name with
  | "to_string" | "format" =>
    match args with
    | [] => .ok (.new "CAST(? AS VARCHAR(24))" [col])
    | _ => notAvailable .firebird n
  | "add_days" => add "DAY"
  | "add_months" => add "MONTH"
  | "add_years" => add "YEAR"
  | "add_hours" => add "HOUR"
  | "add_minutes" => add "MINUTE"
  | "add_seconds" => add "SECOND"
  | _ => notMapped n

end DateMethod
end SqlWeave
