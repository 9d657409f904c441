import SqlWeave.Mapping.Basic
import SqlWeave.Run

/-!
# Reading records

Rows become records by a layout, which is found from the first row and kept for the others: the way
records are made, where each column stands, and where the keys of foreign members stand. Foreign
members are left pending, and attached when their rows are loaded.

Results:
* `read_layout`: a row that is read leaves a layout behind, and a layout stays.
-/

namespace SqlWeave

open Text Number

namespace Mapping

variable {α : Type}

/-- The place of the first column of a name. -/
def position? (columns : List String) (name : String) : Option Nat :=
  columns.findIdx? fun c => sameIgnoringCase c name

/-- Where a row holds what records are made of. -/
structure Layout (α : Type) where
  /-- The names of the row that the layout was found from. -/
  columns : List String
  plan : Plan α
  /-- The columns to assign, and where each stands. -/
  natives : List (Nat × MappedColumn α)

/-- The layout of rows with some columns. -/
def layout (m : Mapping α) (columns : List String) : Result (Layout α) := do
  let plan ← m.plan columns
  let assigned := m.columns.filter fun c => !hasName plan.consumed c.name
  pure ⟨columns, plan,
    assigned.filterMap fun c => (position? columns c.name).map fun i => (i, c)⟩

/-- The value at a place of a row; fragments and missing cells have none. -/
def valueAt (r : Row) (i : Nat) : Value := ((r.cells[i]?).bind Cell.plain?).getD .null

/-- A record of a row that has the layout's width. -/
def readBy (l : Layout α) (r : Row) : Result α := do
  let a ← l.plan.make r
  l.natives.foldlM (fun a (i, c) => c.assign (valueAt r i) a) a

/-- The layout for a row: the one kept, if the width is right, or the row's own. -/
def layoutFor (m : Mapping α) (kept : Option (Layout α)) (r : Row) : Result (Layout α) :=
  match kept with
  | none => m.layout r.names
  | some l =>
    if r.cells.length = l.columns.length then .ok l
    else
      .error (.decode "row" ("expected " ++ natText l.columns.length ++ " columns, got " ++
        natText r.cells.length))

/-- A record of a row, and the layout kept for the next one. -/
def read (m : Mapping α) (kept : Option (Layout α)) (r : Row) : Option (Layout α) × Result α :=
  match m.layoutFor kept r with
  | .error e => (kept, .error e)
  | .ok l => (some l, readBy l r)

/-- Records of rows by one layout. -/
def readAllFrom (m : Mapping α) (kept : Option (Layout α)) : List Row → Result (List α)
  | [] => .ok []
  | r :: rest =>
    match m.read kept r with
    | (kept, .ok a) => (m.readAllFrom kept rest).map (a :: ·)
    | (_, .error e) => .error e

/-- Records of rows. -/
def readAll (m : Mapping α) (rows : List Row) : Result (List α) := m.readAllFrom none rows

theorem read_layout {m : Mapping α} {l : Layout α} (r : Row) :
    (m.read (some l) r).1 = some l := by
  simp only [read, layoutFor]
  by_cases h : r.cells.length = l.columns.length <;> simp [h]

end Mapping

namespace ForeignMember

variable {α β : Type}

/-- A record of another type, whose key a column of the owner holds. -/
def belongsTo (member column : String) (target : Mapping β) (get : α → Option β)
    (set : Option β → α → α) : ForeignMember α where
  member := member
  kind := .belongsTo
  sourceColumn := column
  table := target.table
  column := target.keyColumn?.getD ""
  keyOf a :=
    match get a, target.keyColumns with
    | some b, c :: _ => c.read b
    | _, _ => .null
  attach rows a :=
    match rows with
    | [] => .ok (set none a)
    | r :: _ => ((target.read none r).2).map fun b => set (some b) a

/-- The records of another type with the owner's key in a column. -/
def hasMany (member keyColumn childColumn : String) (target : Mapping β)
    (set : List β → α → α) : ForeignMember α where
  member := member
  kind := .hasMany
  sourceColumn := keyColumn
  table := target.table
  column := childColumn
  keyOf _ := .null
  attach rows a := (target.readAll rows).map fun bs => set bs a

end ForeignMember

/-- A foreign member that is not yet loaded. -/
structure Pending where
  /-- The place of the owner among the records read. -/
  owner : Nat
  /-- The place of the member among the foreign members. -/
  member : Nat
  key : Value

/-- The rows that a foreign member asks for. -/
structure ForeignRequest where
  table : String
  column : String
  key : Value
  kind : ForeignKind

/-- A source of foreign rows. -/
abbrev ForeignSource (ω : Type) := ForeignRequest → Run ω (List Row)

namespace Entity

variable {α : Type}

/-- The foreign members of a record whose columns are among a row's, with the keys that are
there. -/
def pendingOf (e : Entity α) (columns : List String) (owner : Nat) (r : Row) : List Pending :=
  (e.foreign.zipIdx.filterMap fun (f, i) =>
    (Mapping.position? columns f.sourceColumn).map fun place =>
      ⟨owner, i, Mapping.valueAt r place⟩).filter fun p => !p.key.isNull

/-- A record of a row with its pending members, and the layout kept for the next row. -/
def read (e : Entity α) (kept : Option (Mapping.Layout α)) (owner : Nat) (r : Row) :
    Option (Mapping.Layout α) × Result (α × List Pending) :=
  let (kept, a) := e.toMapping.read kept r
  let columns := (kept.map (·.columns)).getD []
  (kept, a.map fun a => (a, e.pendingOf columns owner r))

/-- The request of a pending member. -/
def request (f : ForeignMember α) (key : Value) : Result ForeignRequest :=
  if f.column.isEmpty then .error (.validation (.foreignWithoutKey f.member f.table))
  else .ok ⟨f.table, f.column, key, f.kind⟩

/-- Loads a pending member and attaches it to its owner; what has no owner is skipped. -/
def resolveOne {ω : Type} (e : Entity α) (load : ForeignSource ω) (p : Pending)
    (records : List α) : Run ω (List α) :=
  match e.foreign[p.member]?, records[p.owner]? with
  | some f, some a => do
    let rows ← load (← request f p.key)
    let a ← f.attach rows a
    pure (records.set p.owner a)
  | _, _ => pure records

/-- Loads pending members in their order, up to the first failure. What was attached stays. -/
def resolve {ω : Type} (e : Entity α) (load : ForeignSource ω) :
    List Pending → List α → ω → (List α × Result Unit) × ω
  | [], records, w => ((records, .ok ()), w)
  | p :: rest, records, w =>
    match e.resolveOne load p records w with
    | (.ok records, w) => e.resolve load rest records w
    | (.error err, w) => ((records, .error err), w)

/-- The records with all their pending members attached. -/
def attachAll {ω : Type} (e : Entity α) (load : ForeignSource ω) (pending : List Pending)
    (records : List α) : Run ω (List α) := fun w =>
  match e.resolve load pending records w with
  | ((records, .ok ()), w) => (.ok records, w)
  | ((_, .error err), w) => (.error err, w)

/-- Records of rows with all their pending members, the first of them numbered `owner`. -/
def readRows (e : Entity α) (kept : Option (Mapping.Layout α)) (owner : Nat) :
    List (Result Row) → Result (List α × List Pending)
  | [] => .ok ([], [])
  | .error err :: _ => .error err
  | .ok r :: rest =>
    match e.read kept owner r with
    | (_, .error err) => .error err
    | (kept, .ok (a, pending)) =>
      (e.readRows kept (owner + 1) rest).map fun (records, more) => (a :: records, pending ++ more)

/-- The records of a result with their foreign members loaded, where there is a source of rows. -/
def readAll {ω : Type} (e : Entity α) (load : Option (ForeignSource ω)) (c : Cursor) :
    Run ω (List α) := do
  let (records, pending) ← e.readRows none 0 c.rows
  match load with
  | none => pure records
  | some load => e.attachAll load pending records

end Entity
end SqlWeave
