import SqlWeave.Row

/-!
# Results read line by line

A cursor is a list of column names and the lines not yet read. A line becomes a row when it has as
many values as there are columns; any other line is refused and counts as read.

Results:
* `length_next`: reading takes one line off.
* `length_readLines`: every line is read, failed, or left.
-/

namespace SqlWeave

open Number

/-- The lines of a result that are not yet read. A line that cannot be fetched is a failure. -/
structure Cursor where
  columns : List String
  lines : List (Result (List Value))
  deriving Inhabited

namespace Cursor

/-- The cursor over lines held in memory. -/
def ofLines (columns : List String) (lines : List (List Value)) : Cursor :=
  ⟨columns, lines.map .ok⟩

/-- The cursor over rows held in memory. The first row names the columns, and a cell that holds a
fragment has no value. -/
def ofRows (rows : List Row) : Cursor :=
  ofLines ((rows.head?.map Row.names).getD []) <|
    rows.map fun r => r.cells.map fun c => c.plain?.getD .null

/-- The number of lines not yet read. -/
def remaining (c : Cursor) : Nat := c.lines.length

/-- A line as a row under the names of the columns. -/
def rowOf (columns : List String) (line : Result (List Value)) : Result Row := do
  let values ← line
  if values.length = columns.length then pure (Row.ofValues columns values)
  else
    throw (.decode "row" ("expected " ++ natText columns.length ++ " values, got " ++
      natText values.length))

/-- The next line as a row, and the cursor behind it. -/
def next (c : Cursor) : Result (Option Row) × Cursor :=
  match c.lines with
  | [] => (.ok none, c)
  | line :: rest => ((rowOf c.columns line).map some, { c with lines := rest })

/-- The lines as rows. -/
def rows (c : Cursor) : List (Result Row) := c.lines.map (rowOf c.columns)

/-- The rows before the first line that is refused, its failure, and the cursor behind it. -/
def readLines (columns : List String) :
    List (Result (List Value)) → List Row × Option Error × List (Result (List Value))
  | [] => ([], none, [])
  | line :: rest =>
    match rowOf columns line with
    | .error e => ([], some e, rest)
    | .ok r =>
      let (rows, stop, left) := readLines columns rest
      (r :: rows, stop, left)

/-- All rows, if no line is refused. -/
def readAll (c : Cursor) : Result (List Row) :=
  match readLines c.columns c.lines with
  | (rows, none, _) => .ok rows
  | (_, some e, _) => .error e

theorem length_next {c : Cursor} {line : Result (List Value)} {rest : List (Result (List Value))}
    (h : c.lines = line :: rest) : c.next.2.remaining + 1 = c.remaining := by
  simp [next, h, remaining]

/-- The lines read are the rows before the failure, and the line that failed. -/
theorem length_readLines (columns : List String) (lines : List (Result (List Value))) :
    (readLines columns lines).1.length + (readLines columns lines).2.1.toList.length +
      (readLines columns lines).2.2.length = lines.length := by
  induction lines with
  | nil => rfl
  | cons line rest ih =>
    simp only [readLines]
    split
    · simp
      omega
    · generalize readLines columns rest = x at ih ⊢
      obtain ⟨rows, stop, left⟩ := x
      simp only [List.length_cons] at ih ⊢
      omega

end Cursor
end SqlWeave
