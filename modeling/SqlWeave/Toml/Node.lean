/-!
# Trees of TOML documents

A document is a tree of `Node`s. A table remembers how it came about, because only a table that
stands implicitly in the path of another may still be opened, and only a table made by dotted keys
may take more of them. Giving a key twice, opening a table twice and reaching into a value are
refused.

Results:
* `lookup_put`: a node is found where it was put.
* `lookup_of_open?`: an opened table stands under its name.
-/

namespace SqlWeave.Toml

/-- How a table came about. -/
inductive Origin where
  /-- In the path of a table header. -/
  | implicit
  /-- By its own header. -/
  | header
  /-- By a dotted key. -/
  | dotted
  /-- Between braces; nothing can be added. -/
  | closed
  deriving DecidableEq, Repr

/-- A node of a document. -/
inductive Node where
  | string (s : String)
  | integer (n : Int)
  | float (x : Float)
  | boolean (b : Bool)
  /-- A date, a time or both. -/
  | moment
  | array (items : List Node)
  | table (origin : Origin) (members : List (String × Node))
  /-- The tables of an array of tables, the last one first. -/
  | tables (elements : List (List (String × Node)))

/-- The members of a table, in the order of the document. -/
abbrev Members := List (String × Node)

namespace Members

/-- The members with the node under a name replaced, or added at the end. -/
def put (name : String) (node : Node) : Members → Members
  | [] => [(name, node)]
  | (k, v) :: rest => if k = name then (name, node) :: rest else (k, v) :: put name node rest

theorem lookup_put (name : String) (node : Node) (ms : Members) :
    (put name node ms).lookup name = some node := by
  induction ms with
  | nil => simp [put]
  | cons m rest ih =>
    obtain ⟨k, v⟩ := m
    by_cases h : k = name
    · simp [put, h]
    · have h' : (name == k) = false := by simpa using fun e => h e.symm
      simp [put, h, List.lookup_cons, h', ih]

/-- Adds a value under a key; tables in the path are those of dotted keys. -/
def insert? (value : Node) : List String → Members → Option Members
  | [], _ => none
  | [name], ms => if (ms.lookup name).isSome then none else some (put name value ms)
  | name :: path, ms =>
    match ms.lookup name with
    | none => (insert? value path []).map fun inner => put name (.table .dotted inner) ms
    | some (.table .dotted inner) =>
      (insert? value path inner).map fun inner => put name (.table .dotted inner) ms
    | some _ => none

/-- Changes the members of the table at a path, opening tables on the way. An array of tables
stands for its last table. -/
def within? (change : Members → Option Members) : List String → Members → Option Members
  | [], ms => change ms
  | name :: path, ms =>
    match ms.lookup name with
    | none => (within? change path []).map fun inner => put name (.table .implicit inner) ms
    | some (.table origin inner) =>
      if origin = .closed then none
      else (within? change path inner).map fun inner => put name (.table origin inner) ms
    | some (.tables (inner :: others)) =>
      (within? change path inner).map fun inner => put name (.tables (inner :: others)) ms
    | some _ => none

/-- Opens the table of a header. -/
def open? (name : String) (ms : Members) : Option Members :=
  match ms.lookup name with
  | none => some (put name (.table .header []) ms)
  | some (.table .implicit inner) => some (put name (.table .header inner) ms)
  | some _ => none

theorem lookup_of_open? {name : String} {ms opened : Members} (h : open? name ms = some opened) :
    ∃ inner, opened.lookup name = some (.table .header inner) := by
  unfold open? at h
  split at h
  · injection h with h
    exact ⟨[], h ▸ lookup_put ..⟩
  · injection h with h
    exact ⟨_, h ▸ lookup_put ..⟩
  · contradiction

/-- Opens the next table of an array of tables. -/
def append? (name : String) (ms : Members) : Option Members :=
  match ms.lookup name with
  | none => some (put name (.tables [[]]) ms)
  | some (.tables elements) => some (put name (.tables ([] :: elements)) ms)
  | some _ => none

end Members
end SqlWeave.Toml
