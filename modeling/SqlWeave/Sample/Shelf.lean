import SqlWeave.Sample.Shop

/-!
# Shelves, places and figures

Sample record types that each show a side of mappings: two foreign members of one type, a foreign
type without a key, columns named by a convention, a key of several columns, and constructors.
-/

namespace SqlWeave.Sample

/-- Who writes books. -/
structure Author where
  id : Int := 0
  name : String := ""
  deriving DecidableEq, Repr, Inhabited

/-- Authors by a number. -/
def Author.mapping : Mapping Author where
  typeName := "Author"
  table := "Authors"
  columns := [.asIdentity (.typed "Id" "Id" (·.id) fun v a => { a with id := v }),
    .typed "Name" "Name" (·.name) (fun v a => { a with name := v })]
  default := some {}

/-- A book, which may have no title. -/
structure Book where
  id : Int := 0
  title : Option String := none
  author : Option Author := none
  editor : Option Author := none
  deriving DecidableEq, Repr, Inhabited

/-- Books with their author and their editor. -/
def Book.entity : Entity Book where
  typeName := "Book"
  table := "Books"
  columns := [.asKey (.typed "Id" "Id" (·.id) fun v a => { a with id := v }),
    .typed "Title" "Title" (·.title) (fun v a => { a with title := v })]
  default := some {}
  foreign := [.belongsTo "Author" "AuthorId" Author.mapping (·.author)
      fun v a => { a with author := v },
    .belongsTo "Editor" "EditorId" Author.mapping (·.editor) fun v a => { a with editor := v }]

/-- Somebody with an address, which has no key. -/
structure Person where
  id : Int := 0
  home : Option Address := none
  deriving DecidableEq, Repr, Inhabited

/-- People with their address. -/
def Person.entity : Entity Person where
  typeName := "Person"
  table := "People"
  columns := [.asKey (.typed "Id" "Id" (·.id) fun v a => { a with id := v })]
  default := some {}
  foreign := [.belongsTo "Home" "HomeId" Address.mapping (·.home) fun v a => { a with home := v }]

/-! ## Names by a convention -/

/-- Where a site is. -/
structure Location where
  streetName : String := ""
  deriving DecidableEq, Repr, Inhabited

/-- Locations in small letters. -/
def Location.mapping : Mapping Location where
  typeName := "Location"
  table := "locations"
  columns := [.named .snake "StreetName" (·.streetName) (fun v a => { a with streetName := v })]
  default := some {}

/-- A site. -/
structure Site where
  siteId : Int := 0
  firstName : String := ""
  legacy : Bool := false
  location : Location := {}
  deriving DecidableEq, Repr, Inhabited

/-- Sites in small letters, but for a column with a name of its own. -/
def Site.mapping : Mapping Site where
  typeName := "Site"
  table := "sites"
  columns :=
    [.asKey (.named .snake "SiteId" (·.siteId) fun v a => { a with siteId := v }),
      .named .snake "FirstName" (·.firstName) (fun v a => { a with firstName := v }),
      .typed "LEGACY" "IsLegacy" (·.legacy) (fun v a => { a with legacy := v })] ++
    Location.mapping.columnsWithin "location_" "Location" (·.location)
      (fun v a => { a with location := v })
  default := some {}

/-! ## Keys and constructors -/

/-- Who takes which course. -/
structure Enrollment where
  student : Int := 0
  course : String := ""
  seq : Int := 0
  grade : Option Int16 := none
  deriving DecidableEq, Repr, Inhabited

/-- Enrollments by student and course, numbered by the engine. -/
def Enrollment.mapping : Mapping Enrollment where
  typeName := "Enrollment"
  table := "dbo.Enrollments"
  columns := [.asKey (.typed "Student" "Student" (·.student) fun v a => { a with student := v }),
    .asKey (.typed "Course" "Course" (·.course) fun v a => { a with course := v }),
    .asIdentity (.typed "Seq" "Seq" (·.seq) fun v a => { a with seq := v }),
    .typed "Grade" "Grade" (·.grade) (fun v a => { a with grade := v })]
  default := some {}

/-- A point with a label. -/
structure Point where
  x : Int := 0
  y : Int := 0
  label : String := ""
  deriving DecidableEq, Repr, Inhabited

/-- Points are made of their coordinates only. -/
def Point.mapping : Mapping Point where
  typeName := "Point"
  table := "Points"
  columns := [.typed "X" "X" (·.x) (fun v a => { a with x := v }),
    .typed "Y" "Y" (·.y) (fun v a => { a with y := v }),
    .typed "Label" "Label" (·.label) (fun v a => { a with label := v })]
  constructors := [⟨["X", "Y"], fun r => do pure ⟨← r.get "X", ← r.get "Y", ""⟩⟩]

/-- Three numbers, and the way they were made. -/
structure Shape where
  a : Int := 0
  b : Int := 0
  c : Int := 0
  madeBy : String := ""
  deriving DecidableEq, Repr, Inhabited

/-- Shapes are made in several ways. -/
def Shape.mapping : Mapping Shape where
  typeName := "Shape"
  table := "Shapes"
  columns := [.typed "A" "A" (·.a) (fun v s => { s with a := v }),
    .typed "B" "B" (·.b) (fun v s => { s with b := v }),
    .typed "C" "C" (·.c) (fun v s => { s with c := v })]
  constructors :=
    [⟨["A"], fun r => do pure { a := ← r.get "A", madeBy := "A" }⟩,
      ⟨["A", "B"], fun r => do pure { a := ← r.get "A", b := ← r.get "B", madeBy := "AB" }⟩,
      ⟨["B", "C"], fun r => do pure { b := ← r.get "B", c := ← r.get "C", madeBy := "BC" }⟩]
  default := some ⟨-1, -1, -1, "default"⟩

end SqlWeave.Sample
