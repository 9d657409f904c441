import SqlWeave.Toml.Quoted
import SqlWeave.Toml.Scalar

/-!
# TOML documents

A reader for TOML 1.1: lines of keys and values, headers of tables and of arrays of tables. A value
is a text, a scalar, an array, or a table between braces; arrays and such tables may stretch over
several lines and end with a comma.

Options are read from such documents by a reader made elsewhere. Assumed of it is the standard, as
far as it says which documents are refused and what the others hold; the wording of a refusal is
left out.
-/

namespace SqlWeave.Toml

open Calendar (expect)

/-! ## Lines -/

/-- The text after an optional comment, up to the end of the line or the text. -/
def skipComment : List Char → Option (List Char)
  | '#' :: rest =>
    let rest := rest.dropWhile isPlain
    if rest.isEmpty || (lineEnd? rest).isSome then some rest else none
  | cs => some cs

/-- The text after the end of a line; the end of the text ends a line too. -/
def endLine (cs : List Char) : Option (List Char) := do
  let cs ← skipComment (skipBlanks cs)
  if cs.isEmpty then pure [] else lineEnd? cs

/-- The text after blanks, comments and at most `fuel` ends of lines. -/
def skipLines : Nat → List Char → Option (List Char)
  | 0, cs => some cs
  | fuel + 1, cs => do
    let cs ← skipComment (skipBlanks cs)
    match lineEnd? cs with
    | some rest => skipLines fuel rest
    | none => pure cs

/-- The text after blanks, comments and ends of lines. -/
def skipSpace (cs : List Char) : Option (List Char) := skipLines (cs.length + 1) cs

/-! ## Values -/

mutual

/-- A value. -/
def takeValue : Nat → List Char → Option (Node × List Char)
  | 0, _ => none
  | fuel + 1, cs =>
    match cs with
    | [] => none
    | c :: rest =>
      if c = '[' then (takeItems fuel rest).map fun (items, rest) => (.array items, rest)
      else if c = '\x7b' then
        (takeMembers fuel rest []).map fun (ms, rest) => (.table .closed ms, rest)
      else if c = '"' ∨ c = '\'' then (takeString cs).map fun (s, rest) => (.string s, rest)
      else takeScalar cs

/-- The items of an array up to its closing bracket; a comma may stand behind the last one. -/
def takeItems : Nat → List Char → Option (List Node × List Char)
  | 0, _ => none
  | fuel + 1, cs => do
    match ← skipSpace cs with
    | ']' :: rest => pure ([], rest)
    | cs =>
      let (item, rest) ← takeValue fuel cs
      match ← skipSpace rest with
      | ']' :: rest => pure ([item], rest)
      | ',' :: rest =>
        let (items, rest) ← takeItems fuel rest
        pure (item :: items, rest)
      | _ => none

/-- The members of a table up to its closing brace; a comma may stand behind the last one. -/
def takeMembers : Nat → List Char → Members → Option (Members × List Char)
  | 0, _, _ => none
  | fuel + 1, cs, ms => do
    match ← skipSpace cs with
    | '\x7d' :: rest => pure (ms, rest)
    | cs =>
      let (key, rest) ← takeKey cs.length cs
      let (value, rest) ← takeValue fuel (skipBlanks (← expect '=' rest))
      let ms ← ms.insert? value key
      match ← skipSpace rest with
      | '\x7d' :: rest => pure (ms, rest)
      | ',' :: rest => takeMembers fuel rest ms
      | _ => none

end

/-! ## Documents -/

/-- The key of a header up to its closing bracket, as the path to its table and the name there. -/
def takeHeader (cs : List Char) : Option (List String × List String × String × List Char) := do
  let (key, rest) ← takeKey cs.length cs
  let name ← key.getLast?
  pure (key, key.dropLast, name, ← expect ']' rest)

/-- The lines of a document; `path` is the table that keys belong to. -/
def takeLinesOf : Nat → List String → Members → List Char → Option Members
  | 0, _, _, _ => none
  | fuel + 1, path, root, cs => do
    match ← skipSpace cs with
    | [] => pure root
    | '[' :: '[' :: rest =>
      let (key, parent, name, rest) ← takeHeader rest
      let root ← root.within? (Members.append? name) parent
      takeLinesOf fuel key root (← endLine (← expect ']' rest))
    | '[' :: rest =>
      let (key, parent, name, rest) ← takeHeader rest
      let root ← root.within? (Members.open? name) parent
      takeLinesOf fuel key root (← endLine rest)
    | cs =>
      let (key, rest) ← takeKey cs.length cs
      let rest ← expect '=' rest
      let (value, rest) ← takeValue (2 * rest.length + 2) (skipBlanks rest)
      let root ← root.within? (Members.insert? value key) path
      takeLinesOf fuel path root (← endLine rest)

/-- Reads a document into the members of its root table. Every line takes a character, so the
length of the text bounds their number. -/
def parse? (s : String) : Option Members := takeLinesOf (s.toList.length + 1) [] [] s.toList

end SqlWeave.Toml
