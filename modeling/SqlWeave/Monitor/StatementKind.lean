import SqlWeave.Text.Ascii
import SqlWeave.Text.Blank

/-!
# Kinds of statements

What a statement does, read off its first word. Blanks and opening parentheses in front of it do not
count, nor does letter case, and the word must end where a letter, a digit or an underscore does
not go on. An INSERT that says what to do with a key that is there is an upsert.
-/

namespace SqlWeave

open Text

/-- What a statement does. -/
inductive StatementKind where
  | select
  | insert
  | update
  | delete
  /-- Rows are inserted, or changed if they are there. -/
  | upsert
  /-- Tables, constraints and indexes are made or removed. -/
  | ddl
  | other
  deriving DecidableEq, Repr, Inhabited

namespace StatementKind

/-- The name of a kind. -/
def name : StatementKind → String
  | select => "Select"
  | insert => "Insert"
  | update => "Update"
  | delete => "Delete"
  | upsert => "Upsert"
  | ddl => "Ddl"
  | other => "Other"

/-- A character that goes on with a word. -/
def inWord (c : Char) : Bool := c.isAlphanum || c == '_'

/-- The statement starts with a word of capitals, in either letter case. -/
def startsWith (word : List Char) (cs : List Char) : Bool :=
  (cs.take word.length).map Char.toUpper == word && !(cs.drop word.length).head?.any inWord

/-- A text occurs in another one. -/
def occurs (text : List Char) : List Char → Bool
  | [] => text.isEmpty
  | c :: rest => text.isPrefixOf (c :: rest) || occurs text rest

/-- An INSERT says what to do with a key that is there. -/
def handlesConflicts (cs : List Char) : Bool :=
  let cs := cs.map Char.toUpper
  occurs " ON DUPLICATE KEY UPDATE ".toList cs || occurs " ON CONFLICT ".toList cs

/-- The words that start a statement, and what it does. -/
def keywords : List (String × StatementKind) :=
  [("SELECT", select), ("INSERT", insert), ("UPDATE", update), ("DELETE", delete),
    ("MERGE", upsert), ("EXECUTE BLOCK", insert), ("CREATE", ddl), ("DROP", ddl), ("ALTER", ddl),
    ("TRUNCATE", ddl)]

/-- What a statement does. A block inserts rows. -/
def ofSql (sql : String) : StatementKind :=
  let cs := sql.toList.dropWhile fun c => isBlank c || c == '('
  match keywords.find? fun (word, _) => startsWith word.toList cs with
  | some (word, kind) =>
    if word = "INSERT" ∧ handlesConflicts cs then upsert else kind
  | none => other

end StatementKind
end SqlWeave
