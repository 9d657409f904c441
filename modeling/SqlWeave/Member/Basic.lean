import SqlWeave.Config
import SqlWeave.Expression

/-!
# Member chains

A member chain is a column, or a static member such as the current time, with operations applied to
it one after another: `x.Name`, then `.substring(0, 3)`, then `.to_uppercase()`. Each node knows the
type of what it is applied to and the type of its result.

A member of object type has no column; the first property behind it names one (`promote`).

Results:
* `promote_length`: promoting uses up a node of the chain.
-/

namespace SqlWeave

/-- The type of a member. -/
inductive MemberType where
  | string
  | dateTime
  | date
  | time
  | number
  | bool
  /-- An object, whose members are columns. -/
  | entity (name : String)
  deriving DecidableEq, Repr, Inhabited

namespace MemberType

/-- The name of a type. -/
def name : MemberType → String
  | string => "String"
  | dateTime => "DateTime"
  | date => "Date"
  | time => "Time"
  | number => "Number"
  | bool => "Bool"
  | entity n => n

/-- Objects have no column of their own. -/
def isEntity : MemberType → Bool
  | entity _ => true
  | _ => false

/-- Types with a date share the functions of dates. -/
def isDate : MemberType → Bool
  | dateTime | date => true
  | _ => false

end MemberType

/-- A property of a type. -/
structure Property where
  declaring : MemberType
  name : String
  returns : MemberType
  deriving DecidableEq, Repr, Inhabited

mutual

/-- A column or static member and the operations applied to it. -/
structure Member where
  root : Property
  /-- The column of the root; empty for static members. -/
  column : String
  isStatic : Bool
  children : List Node
  /-- The name of the result column. -/
  aliasName : Option String
  /-- The names of the objects that the root was reached through. -/
  owners : String

/-- An operation of a chain. -/
inductive Node where
  | property (p : Property)
  | method (declaring : MemberType) (name : String) (args : List Arg) (returns : MemberType)

/-- An argument of a method. -/
inductive Arg where
  | value (v : Value)
  | member (m : Member)
  | expression (e : Expression)

end

instance : Inhabited Member := ⟨⟨default, "", false, [], none, ""⟩⟩
instance : Inhabited Node := ⟨.property default⟩

namespace Node

/-- The name of the member that a node reads or calls. -/
def name : Node → String
  | property p => p.name
  | method _ n _ _ => n

/-- The type that a node is applied to. -/
def declaring : Node → MemberType
  | property p => p.declaring
  | method d _ _ _ => d

/-- The type of a node's result. -/
def returns : Node → MemberType
  | property p => p.returns
  | method _ _ _ r => r

/-- The node calls a method. -/
def isMethod : Node → Bool
  | property _ => false
  | method .. => true

/-- The arguments of a node. -/
def args : Node → List Arg
  | property _ => []
  | method _ _ as _ => as

end Node

namespace Member

/-- The type in which the parameter's properties are declared. -/
def parameterType : MemberType := .entity "Param"

/-- The member of a plain column. -/
def ofColumn (name : String) (returns : MemberType) : Member where
  root := ⟨parameterType, name, returns⟩
  column := name
  isStatic := false
  children := []
  aliasName := none
  owners := ""

/-- The type of the chain's result. -/
def returns (m : Member) : MemberType :=
  match m.children.getLast? with
  | some n => n.returns
  | none => m.root.returns

/-- The chain with an operation more. -/
def extend (m : Member) (n : Node) : Member := { m with children := m.children ++ [n] }

/-- The column that a property of an object is kept in. -/
def innerColumn (c : Config) (owners name : String) : String := c.naming.apply (owners ++ name)

/-- The chain of a member of object type with the first property behind it as its root. -/
def promote? (c : Config) (m : Member) : Option Member :=
  if m.root.returns.isEntity then
    match m.children with
    | .property p :: rest =>
      let owners := m.owners ++ m.root.name
      some { root := p, column := innerColumn c owners p.name, isStatic := false,
             children := rest, aliasName := m.aliasName, owners := owners }
    | _ => none
  else none

theorem promote_length {c : Config} {m m' : Member} (h : m.promote? c = some m') :
    m'.children.length + 1 = m.children.length := by
  unfold promote? at h
  split at h
  · split at h
    · rename_i hc
      cases h
      simp [hc]
    · cases h
  · cases h

end Member
end SqlWeave
