import SqlWeave.Number.Digits

/-!
# Why an operation fails

The causes of failure, each with the data that its wording shows.

* `Feature`: a statement shape that an engine does not have.
* `Fault`: input that no engine accepts.
* `Error`: these two, a member nobody translates, and failures of mapping, execution and
  configuration. `Error.message` is the wording. A program that breaks off has no wording of its
  own; the failure stands for its end.
-/

namespace SqlWeave

open Number

/-- A text between grave accents. -/
def ticked (s : String) : String := "\x60" ++ s ++ "\x60"

/-- A statement shape that some engine does not have. -/
inductive Feature where
  /-- A clause on a kind of statement. -/
  | clause (clause statement : String)
  | distinctWithRowNumber
  | deleteIncludingJoins
  | boundValuesInBlock
  | createFromQuery
  | addConstraint
  | dropConstraint
  /-- A member of a type. -/
  | member (typeName name : String)
  /-- Members behind the first one. -/
  | memberChain (root : String)
  | methodCall (name : String)
  deriving DecidableEq, Repr

namespace Feature

/-- The wording of a feature. -/
def message : Feature → String
  | clause c s => c ++ " on " ++ s
  | distinctWithRowNumber => "DISTINCT with ROW_NUMBER pagination"
  | deleteIncludingJoins => "DELETE including joined tables"
  | boundValuesInBlock => "bound expression values in EXECUTE BLOCK"
  | createFromQuery => "CREATE TABLE from a query"
  | addConstraint => "ALTER TABLE ADD CONSTRAINT"
  | dropConstraint => "ALTER TABLE DROP CONSTRAINT"
  | member t n => t ++ "." ++ n
  | memberChain r => "member chain on " ++ ticked r
  | methodCall n => "method call " ++ ticked n

end Feature

/-- Input that no engine accepts. -/
inductive Fault where
  | placeholderCount (template : String) (placeholders parameters : Nat)
  | noLiteral (kind : String)
  | noCells
  | unsafeModification (statement : String)
  | unequalRows
  | noUpsertRows
  | noMatchColumns
  | noUpdateColumns
  | unknownUpsertColumn (name : String)
  | offsetWithoutOrder
  | noReturningKey
  | objectWithoutColumn (member : String)
  | missingArgument (typeName member : String) (count : Nat)
  | textArgument (typeName member : String)
  | projectionDisabled
  | projectionEmpty
  | projectionFound
  | projectionNested
  | noMember
  | methodOnParameter (name : String)
  | noKeyColumn (table : String)
  | foreignWithoutKey (member table : String)
  | constraintTable
  | constraintColumns
  | constraintColumnName
  | checkText
  | tableName
  | noTableColumns (table : String)
  | constraintName
  | indexName
  | columnDefinition
  deriving DecidableEq, Repr

namespace Fault

/-- The wording of a fault. -/
def message : Fault → String
  | placeholderCount t n m =>
    "expression " ++ ticked t ++ " has " ++ natText n ++ " placeholders but " ++ natText m ++
      " parameters"
  | noLiteral k => k ++ " value cannot be written as a SQL literal"
  | noCells => "no columns to insert or update"
  | unsafeModification s => s ++ " without a WHERE clause is refused by only_safe_modifications"
  | unequalRows => "all rows must have the same columns in the same order"
  | noUpsertRows => "no rows to upsert"
  | noMatchColumns => "upsert needs at least one match column"
  | noUpdateColumns => "upsert needs at least one update column"
  | unknownUpsertColumn n => "upsert column " ++ ticked n ++ " is not part of the row"
  | offsetWithoutOrder => "an offset requires at least one ORDER BY column"
  | noReturningKey => "RETURNING needs a key column"
  | objectWithoutColumn m => "member " ++ ticked m ++ " is an object and has no column"
  | missingArgument t m n =>
    t ++ "." ++ m ++ " expects at least " ++ natText n ++ " argument(s)"
  | textArgument t m => t ++ "." ++ m ++ " expects a text constant"
  | projectionDisabled => "object projections are disabled for this expression"
  | projectionEmpty => "object projection has no members"
  | projectionFound => "expected a single member, found a projection"
  | projectionNested => "object projections cannot be nested inside a member chain"
  | noMember => "expression must access a member of the parameter"
  | methodOnParameter n => "method " ++ ticked n ++ " cannot be called on the parameter itself"
  | noKeyColumn t => "table " ++ t ++ " has no key column"
  | foreignWithoutKey m t =>
    "foreign member " ++ m ++ " targets table " ++ t ++ " without a key column"
  | constraintTable => "constraint table name cannot be empty"
  | constraintColumns => "constraint needs at least one column"
  | constraintColumnName => "constraint column names cannot be empty"
  | checkText => "check constraint expression cannot be empty"
  | tableName => "table name cannot be empty"
  | noTableColumns t => "table " ++ t ++ " has no columns"
  | constraintName => "constraint name cannot be empty"
  | indexName => "index name cannot be empty"
  | columnDefinition => "column name and type cannot be empty"

end Fault

/-- Why an operation fails. -/
inductive Error where
  /-- The engine, by name, does not have the statement shape. -/
  | notSupported (feature : Feature) (dialect : String)
  /-- No translator for a member. -/
  | notMapped (typeName member : String)
  | validation (fault : Fault)
  /-- No constructor of the type fits the columns of a row. -/
  | noSuitableConstructor (typeName columns : String)
  | decode (column message : String)
  /-- Reported by the executor. -/
  | execution (message : String)
  | config (message : String)
  | other (message : String)
  /-- The program breaks off and returns nothing. -/
  | brokenOff
  deriving DecidableEq, Repr

namespace Error

/-- The wording of a failure. -/
def message : Error → String
  | notSupported f d => f.message ++ " is not supported by " ++ d
  | notMapped t m => "type " ++ t ++ " not mapped with member " ++ m
  | validation f => "Validation error: " ++ f.message
  | noSuitableConstructor t c =>
    "No suitable constructor found for " ++ t ++ " (columns: " ++ c ++ ")"
  | decode c m => "Decode error on column '" ++ c ++ "': " ++ m
  | execution m => "Execution error: " ++ m
  | config m => "Config error: " ++ m
  | other m => m
  | brokenOff => "broken off"

end Error

/-- A result or the cause of failure. -/
abbrev Result (α : Type) := Except Error α

end SqlWeave
