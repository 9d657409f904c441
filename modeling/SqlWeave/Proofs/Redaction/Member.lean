import SqlWeave.Proofs.Redaction.Fragment
import SqlWeave.Member.Registry

/-!
# Redacted members

A redacted member has redacted values among the arguments of its operations. A translator is
*blind* when it accepts and writes operations without regard to the content of values; the
translators of the engines are, the patterns of dates included, which are translated but bound.

Results:
* `isBlind_ofDialect`: the translators of the engines are blind.
* `compile_redact`: a redacted member compiles to the redacted fragment, or fails alike.
-/

namespace SqlWeave

/-! ## Members -/

mutual

/-- A member with the values of its arguments redacted. -/
def Member.redact : Member → Member
  | ⟨root, column, isStatic, children, aliasName, owners⟩ =>
    ⟨root, column, isStatic, Node.redactAll children, aliasName, owners⟩

/-- Operations with the values of their arguments redacted. -/
def Node.redactAll : List Node → List Node
  | [] => []
  | n :: rest => Node.redact n :: Node.redactAll rest

/-- An operation with the values of its arguments redacted. -/
def Node.redact : Node → Node
  | .property p => .property p
  | .method d name args r => .method d name (Arg.redactAll args) r

/-- Arguments with their values redacted. -/
def Arg.redactAll : List Arg → List Arg
  | [] => []
  | a :: rest => Arg.redact a :: Arg.redactAll rest

/-- An argument with its values redacted. -/
def Arg.redact : Arg → Arg
  | .value v => .value v.redact
  | .member m => .member (Member.redact m)
  | .expression e => .expression e.redact

end

namespace Node

theorem name_redact (n : Node) : n.redact.name = n.name := by cases n <;> rfl

theorem declaring_redact (n : Node) : n.redact.declaring = n.declaring := by cases n <;> rfl

theorem isMethod_redact (n : Node) : n.redact.isMethod = n.isMethod := by cases n <;> rfl

end Node

theorem notAvailable_redact {α : Type} (d : Dialect) (n : Node) :
    (notAvailable d n.redact : Result α) = notAvailable d n := by
  unfold notAvailable
  rw [n.name_redact, n.declaring_redact]

/-! ## Arguments -/

theorem argument_redact (n : Node) (args : List Param) (i : Nat) :
    argument n.redact (args.map Param.redact) i = (argument n args i).map Param.redact := by
  unfold argument
  rw [List.getElem?_map, n.name_redact, n.declaring_redact]
  cases args[i]? <;> rfl

theorem oneBased_redact (p : Param) : oneBased p.redact = (oneBased p).map Param.redact := by
  have h : ∀ p : Param, Param.expression (.new "(? + 1)" [p.redact]) =
      (Param.expression (.new "(? + 1)" [p])).redact := fun p => by
    rw [Param.redact, Expression.redact_new]
    rfl
  cases p with
  | expression e => exact congrArg Except.ok (h (.expression e))
  | value v =>
    cases v with
    | int n =>
      change oneBased (.value (.int n)) = _
      simp only [oneBased]
      split <;> rfl
    | _ => exact congrArg Except.ok (h (.value _))

/-- A text stays a text, whatever it says. -/
theorem textArgument_redact (n : Node) (args : List Param) (i : Nat) :
    textArgument n.redact (args.map Param.redact) i = (textArgument n args i).map fun _ => "" := by
  unfold textArgument
  rw [argument_redact, n.name_redact, n.declaring_redact]
  cases argument n args i with
  | error e => rfl
  | ok p => rcases p with v | e <;> [cases v; skip] <;> rfl

/-! ## The functions of the engines -/

section

variable {n : Node} {args : List Param}

theorem notMapped_redact {α : Type} (n : Node) :
    (notMapped n.redact : Result α) = notMapped n := by
  unfold notMapped
  rw [n.name_redact, n.declaring_redact]

/-- What is made of an argument is redacted with it. -/
theorem bind_argument_redact {i : Nat} {f g : Param → Result Expression}
    (hf : ∀ a, g a.redact = (f a).map Expression.redact) :
    (argument n.redact (args.map Param.redact) i >>= g) =
      (argument n args i >>= f).map Expression.redact :=
  bind_eq_map_bind (argument_redact n args i) hf

/-- What is made of a position counted from one is redacted with it. -/
theorem bind_oneBased_redact {i : Nat} {f g : Param → Result Expression}
    (hf : ∀ a, g a.redact = (f a).map Expression.redact) :
    (argument n.redact (args.map Param.redact) i >>= fun a => oneBased a >>= g) =
      (argument n args i >>= fun a => oneBased a >>= f).map Expression.redact :=
  bind_argument_redact fun a => bind_eq_map_bind (oneBased_redact a) hf

/-- A pattern is a text whatever it says. -/
theorem bind_textArgument_redact {f g : String → Result Expression}
    (hf : ∀ s, g "" = (f s).map Expression.redact) :
    (textArgument n.redact (args.map Param.redact) 0 >>= g) =
      (textArgument n args 0 >>= f).map Expression.redact :=
  bind_eq_map_bind (textArgument_redact n args 0) hf

theorem series_redact (opening separator : String) (params : List Param) :
    series opening separator (params.map Param.redact) =
      (series opening separator params).redact := by
  unfold series
  rw [List.length_map, Expression.redact_new]

end

namespace TextFunction

variable (current : Expression) (n : Node) (args : List Param)

theorem sqlServer_redact : sqlServer current.redact n.redact (args.map Param.redact) =
    (sqlServer current n args).map Expression.redact := by
  unfold sqlServer
  rw [n.name_redact]
  split
  case h_6 =>
    rw [List.getElem?_map]
    exact bind_oneBased_redact fun start => by cases args[1]? <;> rfl
  case h_7 => exact bind_argument_redact fun old => bind_argument_redact fun new => rfl
  case h_8 =>
    cases args with
    | nil => rfl
    | cons a rest =>
      exact congrArg Except.ok (series_redact "CONCAT(" "," (.expression current :: a :: rest))
  all_goals
    first
    | rfl
    | exact notMapped_redact n
    | (cases args <;> first | rfl | exact notAvailable_redact .sqlServer n)

theorem mysql_redact : mysql current.redact n.redact (args.map Param.redact) =
    (mysql current n args).map Expression.redact := by
  unfold mysql
  rw [n.name_redact]
  split
  case h_6 =>
    rw [List.getElem?_map]
    exact bind_oneBased_redact fun start => by cases args[1]? <;> rfl
  case h_7 => exact bind_argument_redact fun old => bind_argument_redact fun new => rfl
  case h_8 => exact congrArg Except.ok (series_redact "CONCAT(" "," (.expression current :: args))
  all_goals first | rfl | exact notMapped_redact n | (cases args <;> rfl)

theorem sqlite_redact : sqlite current.redact n.redact (args.map Param.redact) =
    (sqlite current n args).map Expression.redact := by
  unfold sqlite
  rw [n.name_redact]
  split
  case h_6 =>
    rw [List.getElem?_map]
    exact bind_oneBased_redact fun start => by cases args[1]? <;> rfl
  case h_7 => exact bind_argument_redact fun old => bind_argument_redact fun new => rfl
  case h_8 => exact congrArg Except.ok (series_redact "(" " || " (.expression current :: args))
  all_goals first | rfl | exact notMapped_redact n | (cases args <;> rfl)

theorem firebird_redact : firebird current.redact n.redact (args.map Param.redact) =
    (firebird current n args).map Expression.redact := by
  unfold firebird
  rw [n.name_redact]
  split
  case h_6 =>
    rw [List.getElem?_map]
    exact bind_oneBased_redact fun start => by cases args[1]? <;> rfl
  case h_7 => exact bind_argument_redact fun old => bind_argument_redact fun new => rfl
  case h_8 => exact congrArg Except.ok (series_redact "(" " || " (.expression current :: args))
  all_goals first | rfl | exact notMapped_redact n | (cases args <;> rfl)

end TextFunction

namespace DateProperty

variable (current : Expression) (n : Node)

theorem sqlServer_redact :
    sqlServer current.redact n.redact = (sqlServer current n).map Expression.redact := by
  unfold sqlServer
  rw [n.name_redact]
  split <;> first | rfl | exact notMapped_redact n

theorem mysql_redact :
    mysql current.redact n.redact = (mysql current n).map Expression.redact := by
  unfold mysql
  rw [n.name_redact]
  split <;> first | rfl | exact notMapped_redact n

theorem sqlite_redact :
    sqlite current.redact n.redact = (sqlite current n).map Expression.redact := by
  unfold sqlite
  rw [n.name_redact]
  split <;> first | rfl | exact notMapped_redact n

theorem firebird_redact :
    firebird current.redact n.redact = (firebird current n).map Expression.redact := by
  unfold firebird
  rw [n.name_redact]
  split <;> first | rfl | exact notMapped_redact n | exact notAvailable_redact .firebird n

end DateProperty

namespace DateMethod

variable (current : Expression) (n : Node) (args : List Param)

theorem sqlServer_redact : sqlServer current.redact n.redact (args.map Param.redact) =
    (sqlServer current n args).map Expression.redact := by
  unfold sqlServer
  rw [n.name_redact]
  split
  case h_1 | h_2 =>
    cases args with
    | nil => rfl
    | cons pattern rest => rfl
  all_goals first | exact notMapped_redact n | exact bind_argument_redact fun count => rfl

theorem mysql_redact : mysql current.redact n.redact (args.map Param.redact) =
    (mysql current n args).map Expression.redact := by
  unfold mysql
  rw [n.name_redact]
  split
  case h_1 | h_2 =>
    cases args with
    | nil => rfl
    | cons pattern rest => exact bind_textArgument_redact fun s => rfl
  all_goals first | exact notMapped_redact n | exact bind_argument_redact fun count => rfl

theorem sqlite_redact : sqlite current.redact n.redact (args.map Param.redact) =
    (sqlite current n args).map Expression.redact := by
  unfold sqlite
  rw [n.name_redact]
  split
  case h_1 | h_2 =>
    cases args with
    | nil => rfl
    | cons pattern rest => exact bind_textArgument_redact fun s => rfl
  all_goals first | exact notMapped_redact n | exact bind_argument_redact fun count => rfl

theorem firebird_redact : firebird current.redact n.redact (args.map Param.redact) =
    (firebird current n args).map Expression.redact := by
  unfold firebird
  rw [n.name_redact]
  split
  case h_1 | h_2 =>
    cases args with
    | nil => rfl
    | cons pattern rest => exact notAvailable_redact .firebird n
  all_goals first | exact notMapped_redact n | exact bind_argument_redact fun count => rfl

end DateMethod

/-! ## Translators -/

namespace Translator

/-- A translator that reads no content of a value: it accepts a redacted operation like the
operation, and writes redacted fragments around redacted ones. -/
structure IsBlind (t : Translator) : Prop where
  accepts : ∀ n : Node, t.accepts n.redact = t.accepts n
  translate : ∀ (s : Scope) (current : Expression) (n : Node) (args : List Param),
    t.translate s current.redact n.redact (args.map Param.redact) =
      (t.translate s current n args).map Expression.redact

theorem isAmong_redact (n : Node) (type : MemberType → Bool) (method : Bool)
    (names : List String) : n.redact.isAmong type method names = n.isAmong type method names := by
  unfold Node.isAmong
  rw [n.isMethod_redact, n.declaring_redact, n.name_redact]

theorem isBlind_texts (d : Dialect) : (texts d).IsBlind where
  accepts n := by simp only [texts, isAmong_redact]
  translate s current n args := by
    cases d with
    | sqlServer => exact TextFunction.sqlServer_redact current n args
    | mysql => exact TextFunction.mysql_redact current n args
    | sqlite => exact TextFunction.sqlite_redact current n args
    | firebird => exact TextFunction.firebird_redact current n args

theorem isBlind_dateProperties (d : Dialect) : (dateProperties d).IsBlind where
  accepts n := isAmong_redact n _ _ _
  translate s current n args := by
    cases d with
    | sqlServer => exact DateProperty.sqlServer_redact current n
    | mysql => exact DateProperty.mysql_redact current n
    | sqlite => exact DateProperty.sqlite_redact current n
    | firebird => exact DateProperty.firebird_redact current n

theorem isBlind_dateMethods (d : Dialect) : (dateMethods d).IsBlind where
  accepts n := isAmong_redact n _ _ _
  translate s current n args := by
    cases d with
    | sqlServer => exact DateMethod.sqlServer_redact current n args
    | mysql => exact DateMethod.mysql_redact current n args
    | sqlite => exact DateMethod.sqlite_redact current n args
    | firebird => exact DateMethod.firebird_redact current n args

end Translator

namespace Registry

/-- Every translator of the registry is blind. -/
def IsBlind (r : Registry) : Prop := ∀ t ∈ r, t.IsBlind

theorem isBlind_ofDialect (d : Dialect) : (ofDialect d).IsBlind := by
  intro t ht
  simp only [ofDialect, List.mem_cons, List.not_mem_nil, or_false] at ht
  rcases ht with rfl | rfl | rfl
  · exact Translator.isBlind_texts d
  · exact Translator.isBlind_dateProperties d
  · exact Translator.isBlind_dateMethods d

variable {r : Registry}

/-- A redacted operation finds the translator of the operation. -/
theorem find?_redact (hr : r.IsBlind) (n : Node) : r.find? n.redact = r.find? n := by
  unfold find?
  induction r with
  | nil => rfl
  | cons t r ih =>
    rw [List.find?_cons, List.find?_cons, (hr t List.mem_cons_self).accepts,
      ih fun u hu => hr u (List.mem_cons_of_mem _ hu)]

theorem apply_redact (hr : r.IsBlind) (s : Scope) (current : Expression) (n : Node)
    (args : Result (List Param)) :
    r.apply s current.redact n.redact (args.map (·.map Param.redact)) =
      (r.apply s current n args).map Expression.redact := by
  unfold apply
  rw [find?_redact hr]
  cases h : r.find? n with
  | none => exact notMapped_redact n
  | some t =>
    cases args with
    | error e => rfl
    | ok args => exact (hr t (List.mem_of_find?_eq_some h)).translate s current n args

theorem rootColumn_redact (s : Scope) (qualified : Bool) (column : String) :
    (rootColumn s qualified column).redact = rootColumn s qualified column :=
  Expression.redact_raw _

variable (s : Scope) (qualified : Bool)

-- one case for each constructor of members, operations and arguments; the fragment built so far
-- is redacted with the operations that are left
mutual

theorem member_redact (hr : r.IsBlind) : ∀ m : Member,
    r.member s qualified m.redact = (r.member s qualified m).map Expression.redact
  | ⟨root, column, true, children, _, _⟩ => by
    unfold Member.redact member
    exact bind_eq_map_bind (apply_redact hr s .empty (.property root) (.ok []))
      fun start => nodes_redact hr start children
  | ⟨root, column, false, children, _, owners⟩ => by
    unfold Member.redact member
    exact chain_redact hr root column owners children

theorem chain_redact (hr : r.IsBlind) (root : Property) (column owners : String) :
    ∀ ns : List Node,
    r.chain s qualified root column owners (Node.redactAll ns) =
      (r.chain s qualified root column owners ns).map Expression.redact
  | [] => by
    unfold Node.redactAll chain
    split
    · rfl
    · exact congrArg Except.ok (rootColumn_redact s qualified column).symm
  | .property p :: rest => by
    have hn := node_redact hr (rootColumn s qualified column) (.property p)
    rw [rootColumn_redact] at hn
    unfold Node.redactAll Node.redact chain
    split
    · exact chain_redact hr p _ _ rest
    · exact bind_eq_map_bind hn fun first => nodes_redact hr first rest
  | .method d name args t :: rest => by
    have hn := node_redact hr (rootColumn s qualified column) (.method d name args t)
    rw [rootColumn_redact] at hn
    unfold Node.redactAll Node.redact chain
    split
    · rfl
    · exact bind_eq_map_bind hn fun first => nodes_redact hr first rest

theorem nodes_redact (hr : r.IsBlind) (current : Expression) : ∀ ns : List Node,
    r.nodes s qualified current.redact (Node.redactAll ns) =
      (r.nodes s qualified current ns).map Expression.redact
  | [] => rfl
  | n :: rest => by
    unfold Node.redactAll nodes
    exact bind_eq_map_bind (node_redact hr current n) fun next => nodes_redact hr next rest

theorem node_redact (hr : r.IsBlind) (current : Expression) : ∀ n : Node,
    r.node s qualified current.redact n.redact =
      (r.node s qualified current n).map Expression.redact
  | .property p => apply_redact hr s current (.property p) (.ok [])
  | .method d name args t => by
    unfold Node.redact node
    rw [arguments_redact hr args]
    exact apply_redact hr s current (.method d name args t) _

theorem arguments_redact (hr : r.IsBlind) : ∀ as : List Arg,
    r.arguments s qualified (Arg.redactAll as) =
      (r.arguments s qualified as).map (·.map Param.redact)
  | [] => rfl
  | a :: rest => by
    unfold Arg.redactAll arguments
    exact bind_eq_map_bind (arg_redact hr a) fun p =>
      bind_eq_map_bind (arguments_redact hr rest) fun ps => rfl

theorem arg_redact (hr : r.IsBlind) : ∀ a : Arg,
    r.arg s qualified a.redact = (r.arg s qualified a).map Param.redact
  | .value v => rfl
  | .expression e => rfl
  | .member m => by
    unfold Arg.redact arg
    rw [member_redact hr m]
    cases r.member s qualified m <;> rfl

end

end Registry

namespace Member

theorem aliasName_redact (m : Member) : m.redact.aliasName = m.aliasName := by
  cases m
  rfl

/-- **A redacted member compiles to the redacted fragment**, or fails with the same error. -/
theorem compile_redact (m : Member) (s : Scope) :
    m.redact.compile s = (m.compile s).map Expression.redact :=
  Registry.member_redact s s.joined (Registry.isBlind_ofDialect s.dialect) m

end Member
end SqlWeave
