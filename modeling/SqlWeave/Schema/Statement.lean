import SqlWeave.Query.Insert
import SqlWeave.Schema.Basic

/-!
# Making and changing tables

The statements that make, empty and remove tables, constraints and indexes. They bind nothing:
defaults of columns are literals. Only the question whether a table exists binds its name. The
making of a table breaks off at a default with a date that the pattern for dates cannot write.
-/

namespace SqlWeave

open Text

namespace Phrase

/-- Quoted names in parentheses, without blanks. -/
def columnList (d : Dialect) (names : List String) : Phrase :=
  [.text "(", .text (",".intercalate (names.map d.quote)), .text ")"]

/-- Refuses a blank name of a table. -/
def checkTableName (name : String) : Phrase := failIf (isBlankText name) (.validation .tableName)

end Phrase

namespace ColumnDef

/-- The words for numbers made by the engine. -/
def numberedWords : Dialect → String
  | .sqlServer => " IDENTITY(1,1)"
  | .mysql => " AUTO_INCREMENT"
  | .sqlite => " PRIMARY KEY AUTOINCREMENT"
  | .firebird => " GENERATED BY DEFAULT AS IDENTITY"

/-- The declaration of a column. -/
def phrase (d : Dialect) (c : ColumnDef) : Phrase :=
  Phrase.failIf (isBlankText c.name || isBlankText c.sqlType) (.validation .columnDefinition) ++
    [.text (d.quote c.name), .text " ", .text c.sqlType] ++
    Phrase.onlyIf c.autoIncrement [.text (numberedWords d)] ++
    (match c.default with
      | some p => .text " DEFAULT " :: Phrase.ofParam p
      | none => []) ++
    Phrase.onlyIf (!c.nullable) [.text " NOT NULL"]

end ColumnDef

namespace ConstraintKind

/-- An action that a foreign key asks for, behind its keyword. -/
def action (keyword : String) : Option ReferentialAction → Phrase
  | some a => [.text keyword, .text a.text]
  | none => []

/-- What a constraint asks of rows. -/
def phrase (d : Dialect) : ConstraintKind → Phrase
  | primaryKey columns => .text "PRIMARY KEY " :: Phrase.columnList d columns
  | unique columns => .text "UNIQUE " :: Phrase.columnList d columns
  | foreignKey column refTable refColumn onDelete onUpdate =>
    .text "FOREIGN KEY " :: Phrase.columnList d [column] ++
      [.text " REFERENCES ", .text (d.quote refTable), .text " "] ++
      Phrase.columnList d [refColumn] ++ action " ON DELETE " onDelete ++
      action " ON UPDATE " onUpdate
  | check predicate => [.text "CHECK (", .text predicate, .text ")"]

end ConstraintKind

namespace Constraint

/-- A constraint with its name. -/
def phrase (d : Dialect) (c : Constraint) : Phrase :=
  [.text "CONSTRAINT ", .text (d.quote c.name), .text " "] ++ c.kind.phrase d

end Constraint

namespace Schema

/-- The name under which a table is made. Temporary ones of SQL Server start with a mark. -/
def tableName (s : Schema) (d : Dialect) : String :=
  if s.temporary ∧ d = .sqlServer ∧ s.name.toList.head? ≠ some '#' then "#" ++ s.name else s.name

/-- The words that begin the statement. -/
def createWords (s : Schema) (d : Dialect) : String :=
  if s.temporary then
    match d with
    | .sqlServer => "CREATE TABLE "
    | .mysql => "CREATE TEMPORARY TABLE "
    | .sqlite => "CREATE TEMP TABLE "
    | .firebird => "CREATE GLOBAL TEMPORARY TABLE "
  else "CREATE TABLE "

/-- SQLite declares a numbered column as the primary key where it stands. -/
def keyInColumn (s : Schema) (d : Dialect) : Bool :=
  decide (d = .sqlite) && s.columns.any (·.autoIncrement)

/-- The constraints that stand behind the columns, the primary key first. -/
def tableConstraints (s : Schema) (d : Dialect) : List Constraint :=
  (if s.keyInColumn d then [] else s.primaryKey?.toList) ++
    s.constraints.filter (!·.isPrimaryKey)

/-- The statement that makes a table. -/
def phrase (s : Schema) (d : Dialect) : Phrase :=
  Phrase.checkTableName s.name ++
    Phrase.failIf s.columns.isEmpty (.validation (.noTableColumns s.name)) ++
    [.text (s.createWords d), .text (d.quote (s.tableName d)), .text " ("] ++
    Phrase.join ", " (s.columns.map (·.phrase d)) ++
    ((s.tableConstraints d).flatMap fun c => .text ", " :: c.phrase d) ++
    [.text ")", .text (if s.temporary ∧ d = .firebird then " ON COMMIT PRESERVE ROWS" else "")]

end Schema

namespace Config

/-- A phrase as a statement that binds nothing. -/
def define (c : Config) (p : Phrase) : Result Expression :=
  p.toExpression (Binding.ofConfig c).literally

/-- Makes a table. -/
def createTable (c : Config) (s : Schema) : Result Expression :=
  c.define ((s.phrase c.dialect).map c.guarded)

/-- Makes a table of the rows that a query selects. -/
def createTableFrom (c : Config) (name : String) (source : Query) : Result Expression :=
  let d := c.dialect
  let rows : Phrase := Phrase.ofResult (source.select.map Phrase.ofExpression)
  let p : Phrase :=
    Phrase.checkTableName name ++
      match d with
      | .firebird => [.failure (.notSupported .createFromQuery d.name)]
      | .sqlServer =>
        [.text "SELECT * INTO ", .text (d.quote name), .text " FROM ("] ++ rows ++
          [.text ") ", .text (d.quotePart "source")]
      | .mysql | .sqlite =>
        [.text "CREATE TABLE ", .text (d.quote name), .text " AS "] ++ rows
  p.toExpression (.ofConfig c)

/-- Removes a table. -/
def dropTable (c : Config) (name : String) : Result Expression :=
  c.define (Phrase.checkTableName name ++ [.text "DROP TABLE ", .text (c.dialect.quote name)])

/-- The question how many tables have a name, as an engine puts it around the name. -/
def tableCount (d : Dialect) (name : String) : Phrase :=
  match d with
  | .sqlServer =>
    if name.toList.head? = some '#' then
      [.text "SELECT CASE WHEN OBJECT_ID(", .bound (.text ("tempdb.." ++ name)),
        .text ") IS NULL THEN 0 ELSE 1 END"]
    else
      [.text "SELECT COUNT(*) FROM INFORMATION_SCHEMA.TABLES WHERE TABLE_NAME = ",
        .bound (.text name)]
  | .mysql =>
    [.text ("SELECT COUNT(*) FROM information_schema.tables " ++
        "WHERE table_schema = DATABASE() AND table_name = "), .bound (.text name)]
  | .sqlite =>
    [.text "SELECT COUNT(*) FROM sqlite_master WHERE type = 'table' AND name = ",
      .bound (.text name)]
  | .firebird =>
    [.text "SELECT COUNT(*) FROM RDB$RELATIONS WHERE RDB$RELATION_NAME = ", .bound (.text name)]

/-- Asks how many tables have a name. -/
def tableExists (c : Config) (name : String) : Result Expression :=
  (Phrase.checkTableName name ++ tableCount c.dialect name).toExpression (.ofDialect c.dialect)

/-- Removes all rows of a table. -/
def truncateTable (c : Config) (name : String) : Result Expression :=
  let words :=
    match c.dialect with
    | .sqlServer | .mysql => "TRUNCATE TABLE "
    | .sqlite | .firebird => "DELETE FROM "
  c.define (Phrase.checkTableName name ++ [.text words, .text (c.dialect.quote name)])

/-- Adds a constraint to its table. -/
def addConstraint (c : Config) (k : Constraint) : Result Expression :=
  let d := c.dialect
  c.define <|
    Phrase.failIf (d = .sqlite) (.notSupported .addConstraint d.name) ++
      [.text "ALTER TABLE ", .text (d.quote k.table), .text " ADD "] ++ k.phrase d

/-- Removes a constraint of a table. -/
def dropConstraint (c : Config) (table name : String) : Result Expression :=
  let d := c.dialect
  c.define <|
    Phrase.checkTableName table ++
      Phrase.failIf (d = .sqlite) (.notSupported .dropConstraint d.name) ++
      Phrase.failIf (isBlankText name) (.validation .constraintName) ++
      [.text "ALTER TABLE ", .text (d.quote table), .text " DROP CONSTRAINT ",
        .text (d.quote name)]

/-- Makes an index. -/
def createIndex (c : Config) (i : Index) : Result Expression :=
  let d := c.dialect
  c.define <|
    [.text (if i.unique then "CREATE UNIQUE INDEX " else "CREATE INDEX "), .text (d.quote i.name),
      .text " ON ", .text (d.quote i.table), .text " "] ++ Phrase.columnList d i.columns

/-- Removes an index; two engines ask for its table. -/
def dropIndex (c : Config) (table name : String) : Result Expression :=
  let d := c.dialect
  c.define <|
    Phrase.failIf (isBlankText name) (.validation .indexName) ++
      [.text "DROP INDEX ", .text (d.quote name)] ++
      match d with
      | .sqlServer | .mysql =>
        Phrase.checkTableName table ++ [.text " ON ", .text (d.quote table)]
      | .sqlite | .firebird => []

end Config
end SqlWeave
