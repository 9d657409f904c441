import SqlWeave.Member.Function

/-!
# Translators of members

A registry is a list of translators. For each node of a chain the first translator that accepts it
writes the node around the fragment built so far, so `x.Name.substring(0, 3).to_uppercase()` becomes
`UPPER(SUBSTRING([Name],1,3))`. Arguments are compiled before the node is translated.

Results:
* `find?_append_of_isSome`: a translator added last changes no node that was accepted before.
* `accepts_of_find?`: the translator found accepts the node.
-/

namespace SqlWeave

/-- What a statement lets its members see of it. -/
structure Scope where
  config : Config
  table : TableName
  /-- Other tables are joined, so columns are written with their table. -/
  joined : Bool

namespace Scope

/-- The engine of a statement. -/
def dialect (s : Scope) : Dialect := s.config.dialect

end Scope

/-- A translator of some nodes. A static member starts from the fragment without text. -/
structure Translator where
  accepts : Node → Bool
  translate : Scope → Expression → Node → List Param → Result Expression

namespace Translator

/-- The functions of texts on an engine. What is written depends on the name of the node alone. -/
def texts (d : Dialect) : Translator where
  accepts n :=
    n.isAmong (· = .string) true textMethods || n.isAmong (· = .string) false textProperties
  translate _ current n args :=
    match d with
    | .sqlServer => TextFunction.sqlServer current n args
    | .mysql => TextFunction.mysql current n args
    | .sqlite => TextFunction.sqlite current n args
    | .firebird => TextFunction.firebird current n args

/-- The parts of dates on an engine. -/
def dateProperties (d : Dialect) : Translator where
  accepts n := n.isAmong MemberType.isDate false SqlWeave.dateProperties
  translate _ current n _ :=
    match d with
    | .sqlServer => DateProperty.sqlServer current n
    | .mysql => DateProperty.mysql current n
    | .sqlite => DateProperty.sqlite current n
    | .firebird => DateProperty.firebird current n

/-- The methods of dates on an engine. -/
def dateMethods (d : Dialect) : Translator where
  accepts n := n.isAmong MemberType.isDate true SqlWeave.dateMethods
  translate _ current n args :=
    match d with
    | .sqlServer => DateMethod.sqlServer current n args
    | .mysql => DateMethod.mysql current n args
    | .sqlite => DateMethod.sqlite current n args
    | .firebird => DateMethod.firebird current n args

end Translator

/-- Translators in the order in which they are asked. -/
abbrev Registry := List Translator

namespace Registry

/-- The translators of an engine. -/
def ofDialect (d : Dialect) : Registry :=
  [Translator.texts d, Translator.dateProperties d, Translator.dateMethods d]

/-- The registry with a translator that is asked last. -/
def add (r : Registry) (t : Translator) : Registry := r ++ [t]

/-- The registry with a translator that is asked first. -/
def addFirst (r : Registry) (t : Translator) : Registry := t :: r

/-- The first translator that accepts a node. -/
def find? (r : Registry) (n : Node) : Option Translator := List.find? (fun t => t.accepts n) r

theorem accepts_of_find? {r : Registry} {n : Node} {t : Translator} (h : r.find? n = some t) :
    t.accepts n = true := by
  simpa using List.find?_some h

theorem find?_append_of_isSome {r : Registry} {n : Node} {t u : Translator}
    (h : r.find? n = some u) : (r.add t).find? n = some u := by
  unfold find? at h
  simp [find?, add, List.find?_append, h]

/-- The quoted column of a root, with the name of its table where tables are joined. -/
def rootColumn (s : Scope) (qualified : Bool) (column : String) : Expression :=
  .raw (s.dialect.quote (if qualified then s.table.aliasOrName ++ "." ++ column else column))

/-- Translates a node by the first translator that accepts it; then its arguments count. -/
def apply (r : Registry) (s : Scope) (current : Expression) (n : Node)
    (args : Result (List Param)) : Result Expression :=
  match find? r n with
  | none => notMapped n
  | some t => args.bind (t.translate s current n)

mutual

/-- Compiles a member. -/
def member (r : Registry) (s : Scope) (qualified : Bool) : Member → Result Expression
  | ⟨root, column, isStatic, children, _, owners⟩ =>
    if isStatic then do
      let start ← apply r s .empty (.property root) (.ok [])
      nodes r s qualified start children
    else chain r s qualified root column owners children

/-- Compiles the chain behind a column. An object has none; the property behind it names one. -/
def chain (r : Registry) (s : Scope) (qualified : Bool) (root : Property) (column owners : String) :
    List Node → Result Expression
  | [] =>
    if root.returns.isEntity then .error (.validation (.objectWithoutColumn root.name))
    else .ok (rootColumn s qualified column)
  | n :: rest =>
    if root.returns.isEntity then
      match n with
      | .property p =>
        let owners := owners ++ root.name
        chain r s qualified p (Member.innerColumn s.config owners p.name) owners rest
      | .method .. => .error (.validation (.objectWithoutColumn root.name))
    else do
      let first ← node r s qualified (rootColumn s qualified column) n
      nodes r s qualified first rest

/-- Compiles the operations of a chain around the fragment built so far. -/
def nodes (r : Registry) (s : Scope) (qualified : Bool) (current : Expression) :
    List Node → Result Expression
  | [] => .ok current
  | n :: rest => do
    let next ← node r s qualified current n
    nodes r s qualified next rest

/-- Compiles an operation around the fragment built so far. -/
def node (r : Registry) (s : Scope) (qualified : Bool) (current : Expression) :
    Node → Result Expression
  | .property p => apply r s current (.property p) (.ok [])
  | .method d n as t => apply r s current (.method d n as t) (arguments r s qualified as)

/-- Compiles arguments in their order. -/
def arguments (r : Registry) (s : Scope) (qualified : Bool) : List Arg → Result (List Param)
  | [] => .ok []
  | a :: rest => do
    let p ← arg r s qualified a
    let ps ← arguments r s qualified rest
    pure (p :: ps)

/-- Compiles an argument. -/
def arg (r : Registry) (s : Scope) (qualified : Bool) : Arg → Result Param
  | .value v => .ok (.value v)
  | .member m => (member r s qualified m).map .expression
  | .expression e => .ok (.expression e)

end

end Registry

namespace Member

/-- The member as the engine of a statement writes it. -/
def compile (m : Member) (s : Scope) : Result Expression :=
  (Registry.ofDialect s.dialect).member s s.joined m

end Member
end SqlWeave
