import SqlWeave.Expression
import SqlWeave.Text.Ascii
import SqlWeave.Value.Decode

/-!
# Rows

A row is a list of named cells, the payload of a statement or a line of a result. Columns are found
by name, letter case ignored, and the first cell of a name counts.

Results:
* `names_ofValues`: a row made of names and values has the first of the names.
-/

namespace SqlWeave

open Text Number

/-- A named value or fragment. -/
structure Cell where
  name : String
  value : Param
  deriving Inhabited

namespace Cell

/-- The value of a cell that holds no fragment. -/
def plain? (c : Cell) : Option Value :=
  match c.value with
  | .value v => some v
  | .expression _ => none

/-- Equality of names and contents. -/
def beq (a b : Cell) : Bool := a.name == b.name && a.value == b.value

instance : BEq Cell := ⟨beq⟩

end Cell

/-- A list of cells. -/
structure Row where
  cells : List Cell
  deriving Inhabited

namespace Row

instance : BEq Row := ⟨fun a b => a.cells == b.cells⟩

/-- The row of some names and values. -/
def ofPairs (cells : List (String × Value)) : Row := ⟨cells.map fun (n, v) => ⟨n, .value v⟩⟩

/-- The row of names and the values under them; what has no partner is left out. -/
def ofValues (names : List String) (values : List Value) : Row := ofPairs (names.zip values)

/-- The names of the cells. -/
def names (r : Row) : List String := r.cells.map (·.name)

/-- The first cell under a name. -/
def cell? (r : Row) (name : String) : Option Cell :=
  r.cells.find? fun c => sameIgnoringCase c.name name

/-- The value under a name. -/
def value? (r : Row) (name : String) : Option Value := (r.cell? name).bind Cell.plain?

/-- The data under a name, as a reading of values finds it. -/
def getBy {α : Type} (read : Value → Except Mismatch α) (r : Row) (name : String) : Result α :=
  match r.value? name with
  | none => .error (.decode name "column not found")
  | some v =>
    match read v with
    | .ok a => .ok a
    | .error m => .error (.decode name m.message)

/-- The data of a type under a name. -/
def get {α : Type} [FromValue α] (r : Row) (name : String) : Result α := r.getBy fromValue name

/-- The cells under some names, in the order of the names. -/
def select (r : Row) (names : List String) : Row := ⟨names.filterMap r.cell?⟩

/-- The row with a cell more. -/
def push (r : Row) (c : Cell) : Row := ⟨r.cells ++ [c]⟩

/-- Two lists of cells have the same names in the same order. -/
def sameNames : List Cell → List Cell → Bool
  | [], [] => true
  | a :: as, b :: bs => sameIgnoringCase a.name b.name && sameNames as bs
  | _, _ => false

/-- Two rows have the same names in the same order. -/
def sameShape (a b : Row) : Bool := sameNames a.cells b.cells

theorem names_ofValues (names : List String) (values : List Value) :
    (ofValues names values).names = names.take values.length := by
  induction names generalizing values with
  | nil => simp [ofValues, ofPairs, Row.names]
  | cons n rest ih =>
    cases values with
    | nil => simp [ofValues, ofPairs, Row.names]
    | cons v vs =>
      have h := ih vs
      simp only [ofValues, ofPairs, Row.names] at h ⊢
      simp [h]

end Row
end SqlWeave
