import SqlWeave.Member.Basic

/-!
# Member expressions

What a query says about the members of a record: `x.Name.substring(0, 3)`, the current time, or a
projection of several members. `Path.single` resolves an expression to one chain and `Path.process`
a projection to one chain per field; values that arguments capture are read then.

Which shapes are accepted is chosen by `Shapes`.
-/

namespace SqlWeave

mutual

/-- A member expression over the parameter. -/
inductive Path where
  | parameter
  /-- A static member of a type. -/
  | static (declaring : MemberType) (name : String) (returns : MemberType)
  | property (target : Path) (name : String) (returns : MemberType)
  | method (target : Path) (name : String) (args : List PathArg) (returns : MemberType)
  /-- Several members, each under a name. -/
  | projection (fields : List (String × Path))

/-- An argument as an expression has it. -/
inductive PathArg where
  | constant (v : Value)
  /-- A variable, read when the expression is resolved. -/
  | captured (read : Unit → Value)
  | member (p : Path)
  | expression (e : Expression)

end

/-- The shapes of expressions that are accepted. -/
structure Shapes where
  projections : Bool
  /-- Operations behind the first member. -/
  subMembers : Bool
  methods : Bool
  deriving DecidableEq, Repr

namespace Shapes

/-- First members alone. -/
def none : Shapes := ⟨false, false, false⟩

/-- Chains with methods, and no projections. -/
def chains : Shapes := ⟨false, true, true⟩

/-- Every shape. -/
def all : Shapes := ⟨true, true, true⟩

end Shapes

namespace Path

/-- The type of an expression's result. -/
def returns? : Path → Option MemberType
  | static _ _ r | property _ _ r | method _ _ _ r => some r
  | parameter | projection _ => Option.none

/-- The name of the outermost member. -/
def name? : Path → Option String
  | static _ n _ | property _ n _ | method _ n _ _ => some n
  | parameter | projection _ => Option.none

/-- A method that returns the type of its target. -/
def call (target : Path) (name : String) (args : List PathArg) : Path :=
  .method target name args (target.returns?.getD .string)

/-- The parameter itself. -/
def isParameter : Path → Bool
  | parameter => true
  | _ => false

/-- A projection. -/
def isProjection : Path → Bool
  | projection _ => true
  | _ => false

/-- The chain of a property of the parameter. -/
def rootMember (c : Config) (name : String) (returns : MemberType) : Member where
  root := ⟨Member.parameterType, name, returns⟩
  column := c.naming.apply name
  isStatic := false
  children := []
  aliasName := Option.none
  owners := ""

/-- The chain of a static member. -/
def staticMember (declaring : MemberType) (name : String) (returns : MemberType) : Member where
  root := ⟨declaring, name, returns⟩
  column := ""
  isStatic := true
  children := []
  aliasName := Option.none
  owners := ""

/-- Refuses an operation behind the root where chains are not accepted. -/
def checkSubMembers (c : Config) (s : Shapes) (m : Member) : Result Unit :=
  if s.subMembers then .ok ()
  else .error (.notSupported (.memberChain m.root.name) c.dialect.name)

/-- Refuses a method where methods are not accepted. -/
def checkMethods (c : Config) (s : Shapes) (name : String) : Result Unit :=
  if s.methods then .ok () else .error (.notSupported (.methodCall name) c.dialect.name)

mutual

/-- Resolves an expression to its chain, from the root outwards. -/
def chain (c : Config) (s : Shapes) : Path → Result Member
  | parameter => .error (.validation .noMember)
  | projection _ => .error (.validation .projectionNested)
  | static d n r => .ok (staticMember d n r)
  | property target n r =>
    if target.isParameter then .ok (rootMember c n r)
    else do
      let m ← chain c s target
      checkSubMembers c s m
      pure (m.extend (.property ⟨m.returns, n, r⟩))
  | method target n args r =>
    if target.isParameter then .error (.validation (.methodOnParameter n))
    else do
      let m ← chain c s target
      checkSubMembers c s m
      checkMethods c s n
      let as ← argsOf c s args
      pure (m.extend (.method m.returns n as r))

/-- Resolves an argument. -/
def argOf (c : Config) (s : Shapes) : PathArg → Result Arg
  | .constant v => .ok (.value v)
  | .captured read => .ok (.value (read ()))
  | .member p =>
    if p.isProjection then .error (.validation .projectionFound)
    else (chain c s p).map .member
  | .expression e => .ok (.expression e)

/-- Resolves arguments in their order. -/
def argsOf (c : Config) (s : Shapes) : List PathArg → Result (List Arg)
  | [] => .ok []
  | a :: rest => do
    let a ← argOf c s a
    let rest ← argsOf c s rest
    pure (a :: rest)

end

/-- Resolves an expression that must be one member. -/
def single (c : Config) (s : Shapes) (p : Path) : Result Member :=
  if p.isProjection then .error (.validation .projectionFound) else chain c s p

/-- The chain of a projected field. It is named after the field unless its column is already. -/
def projected (c : Config) (s : Shapes) (field : String × Path) : Result Member := do
  let m ← chain c s field.2
  pure <|
    if m.root.name = field.1 ∧ m.children.isEmpty then m else { m with aliasName := some field.1 }

/-- Resolves an expression, a projection to a chain per field. -/
def process (c : Config) (s : Shapes) : Path → Result (List Member)
  | projection fields =>
    if !s.projections then .error (.validation .projectionDisabled)
    else if fields.isEmpty then .error (.validation .projectionEmpty)
    else fields.mapM (projected c s)
  | p => (chain c s p).map ([·])

end Path
end SqlWeave
