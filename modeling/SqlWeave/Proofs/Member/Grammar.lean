import Mathlib.Data.List.Chain
import SqlWeave.Member.Path
import SqlWeave.Proofs.Writing

/-!
# The grammar of members

An expression names one member if the path to its root runs through properties and methods down to
a static member or a property of the parameter, and if the shapes that are accepted allow for its
length, for its methods and, by the same rules, for the members among its arguments. This is said of
the whole path (`Path.IsMember`), while resolving goes along it node by node.

A resolved member has all of the expression: its root and its operations are the nodes of the path
in their order, each declared in the type that the one before it returns, and put together again
they are the expression, only that a captured variable is now the value that it had.

Results:
* `chain_property_eq_ok_iff`, `chain_method_eq_ok_iff`: all that resolving a node can do.
* `isMember_iff_of_nodes`: a path with a node more is a member's exactly if the path is and the
  shapes allow for the node.
* `chain_ok_iff`: resolving succeeds exactly on the members of the grammar.
* `toPath_of_chain`: a resolved member is put together to the expression.
* **`single_iff_isMember`**: the grammar is accepted and nothing is lost.
-/

namespace SqlWeave

namespace Path

/-! ## The grammar -/

/-- The nodes of an expression, from its root outwards. The parameter is none. -/
def nodes : Path → List Path
  | parameter => []
  | static d n r => [static d n r]
  | property target n r => target.nodes ++ [property target n r]
  | method target n as r => target.nodes ++ [method target n as r]
  | projection fields => [projection fields]

/-- A call of a method. -/
def isMethod : Path → Bool
  | method .. => true
  | _ => false

/-- The arguments of a call. -/
def args : Path → List PathArg
  | method _ _ as _ => as
  | _ => []

/-- A node that a chain can start from. -/
inductive Starts : Path → Prop
  | static (d : MemberType) (n : String) (r : MemberType) : Starts (static d n r)
  | property (n : String) (r : MemberType) : Starts (property parameter n r)

/-- **The grammar.** The path starts from a static member or a property of the parameter and goes
through no projection; it is longer than one node only where chains are accepted, and has methods
behind its root only where these are; and each member among the arguments of its methods is in the
grammar too. -/
inductive IsMember (s : Shapes) : Path → Prop
  | of {p root : Path} {rest : List Path} (path : p.nodes = root :: rest) (start : root.Starts)
      (plain : ∀ n ∈ p.nodes, n.isProjection = false)
      (chains : rest = [] ∨ s.subMembers = true)
      (methods : (∀ n ∈ rest, n.isMethod = false) ∨ s.methods = true)
      (arguments : ∀ n ∈ p.nodes, ∀ a : Path, .member a ∈ n.args → IsMember s a) : IsMember s p

variable {c : Config} {s : Shapes} {p x target : Path} {m : Member} {n : String} {r : MemberType}
  {as : List PathArg}

theorem eq_parameter_of_isParameter (h : p.isParameter = true) : p = parameter := by
  cases p <;> first | rfl | cases h

theorem nodes_ne_nil (h : p.isParameter = false) : p.nodes ≠ [] := by
  cases p <;> simp_all [nodes, isParameter]

theorem not_isMember_parameter : ¬ IsMember s parameter := fun h => by
  cases h with
  | of path => cases path

theorem not_isMember_projection (fields : List (String × Path)) :
    ¬ IsMember s (projection fields) := fun h => by
  cases h with
  | of path start =>
    cases path
    cases start

/-- A path of one node without methods is in the grammar of any shapes. -/
theorem IsMember.of_starts (h : p.Starts) (hp : p.nodes = [p]) (ha : p.args = [])
    (hplain : p.isProjection = false) : IsMember s p := by
  refine .of hp h ?_ (.inl rfl) (.inl fun n hn => by cases hn) ?_
  · rw [hp]
    exact List.forall_mem_singleton.mpr hplain
  · rw [hp]
    refine List.forall_mem_singleton.mpr fun a h => ?_
    rw [ha] at h
    cases h

theorem isMember_static (d : MemberType) (n : String) (r : MemberType) :
    IsMember s (static d n r) := .of_starts (.static d n r) rfl rfl rfl

theorem isMember_root (n : String) (r : MemberType) : IsMember s (property parameter n r) :=
  .of_starts (.property n r) rfl rfl rfl

/-- **A path with a node more** is in the grammar exactly if the path is, chains are accepted, and
the shapes allow for the node and its arguments. -/
theorem isMember_iff_of_nodes (hp : p.nodes = target.nodes ++ [x])
    (ht : target.isParameter = false) (hx : x.isProjection = false) :
    IsMember s p ↔ IsMember s target ∧ s.subMembers = true ∧
      (x.isMethod = true → s.methods = true) ∧ ∀ a : Path, .member a ∈ x.args → IsMember s a := by
  obtain ⟨root, rest, hr⟩ := List.exists_cons_of_ne_nil (nodes_ne_nil ht)
  rw [hr, List.cons_append] at hp
  have hmem : ∀ {P : Path → Prop}, (∀ n ∈ p.nodes, P n) ↔ (∀ n ∈ target.nodes, P n) ∧ P x := by
    intro P
    rw [hp, hr, ← List.cons_append, List.forall_mem_append, List.forall_mem_singleton]
  constructor
  · rintro ⟨path, start, plain, chains, methods, arguments⟩
    rw [hp] at path
    obtain ⟨rfl, rfl⟩ := List.cons.inj path
    refine ⟨.of hr start (hmem.mp plain).1 ?_ ?_ (hmem.mp arguments).1, ?_, ?_,
      (hmem.mp arguments).2⟩
    · exact .inr (chains.resolve_left (by simp))
    · exact methods.imp_left fun h => (List.forall_mem_append.mp h).1
    · exact chains.resolve_left (by simp)
    · intro hmethod
      refine methods.resolve_left fun h => ?_
      rw [(List.forall_mem_append.mp h).2 x List.mem_cons_self] at hmethod
      cases hmethod
  · rintro ⟨⟨path, start, plain, chains, methods, arguments⟩, hchains, hmethod, harguments⟩
    rw [hr] at path
    obtain ⟨rfl, rfl⟩ := List.cons.inj path
    refine .of hp start (hmem.mpr ⟨plain, hx⟩) (.inr hchains) ?_ (hmem.mpr ⟨arguments, harguments⟩)
    cases hk : x.isMethod with
    | true => exact .inr (hmethod hk)
    | false =>
      exact methods.imp_left fun h =>
        List.forall_mem_append.mpr ⟨h, List.forall_mem_singleton.mpr hk⟩

/-! ## Resolving one node -/

theorem checkSubMembers_eq_ok_iff : checkSubMembers c s m = .ok () ↔ s.subMembers = true := by
  unfold checkSubMembers
  split <;> simp_all

theorem checkMethods_eq_ok_iff : checkMethods c s n = .ok () ↔ s.methods = true := by
  unfold checkMethods
  split <;> simp_all

/-- **All that resolving a property can do.** -/
theorem chain_property_eq_ok_iff : (property target n r).chain c s = .ok m ↔
    (target = parameter ∧ m = rootMember c n r) ∨
      (target.isParameter = false ∧ s.subMembers = true ∧
        ∃ t, target.chain c s = .ok t ∧ m = t.extend (.property ⟨t.returns, n, r⟩)) := by
  rw [chain]
  cases hp : target.isParameter with
  | true =>
    obtain rfl := eq_parameter_of_isParameter hp
    rw [if_pos rfl]
    constructor
    · intro h
      cases h
      exact .inl ⟨rfl, rfl⟩
    · rintro (⟨-, rfl⟩ | ⟨h, -⟩)
      · rfl
      · cases h
  | false =>
    rw [if_neg Bool.false_ne_true, bind_eq_ok_iff]
    constructor
    · rintro ⟨t, ht, h⟩
      obtain ⟨_, hs, h⟩ := bind_eq_ok_iff.mp h
      cases h
      exact .inr ⟨rfl, checkSubMembers_eq_ok_iff.mp hs, t, ht, rfl⟩
    · rintro (⟨rfl, -⟩ | ⟨-, hs, t, ht, rfl⟩)
      · cases hp
      · exact ⟨t, ht, bind_eq_ok_iff.mpr ⟨(), checkSubMembers_eq_ok_iff.mpr hs, rfl⟩⟩

/-- **All that resolving a method can do.** -/
theorem chain_method_eq_ok_iff : (method target n as r).chain c s = .ok m ↔
    target.isParameter = false ∧ s.subMembers = true ∧ s.methods = true ∧
      ∃ t bs, target.chain c s = .ok t ∧ argsOf c s as = .ok bs ∧
        m = t.extend (.method t.returns n bs r) := by
  rw [chain]
  cases hp : target.isParameter with
  | true => exact iff_of_false (fun h => by cases h) fun h => by cases h.1
  | false =>
    rw [if_neg Bool.false_ne_true, bind_eq_ok_iff]
    constructor
    · rintro ⟨t, ht, h⟩
      obtain ⟨_, hs, h⟩ := bind_eq_ok_iff.mp h
      obtain ⟨_, hm, h⟩ := bind_eq_ok_iff.mp h
      obtain ⟨bs, hb, h⟩ := bind_eq_ok_iff.mp h
      cases h
      exact ⟨rfl, checkSubMembers_eq_ok_iff.mp hs, checkMethods_eq_ok_iff.mp hm, t, bs, ht, hb,
        rfl⟩
    · rintro ⟨-, hs, hm, t, bs, ht, hb, rfl⟩
      refine ⟨t, ht, bind_eq_ok_iff.mpr ⟨(), checkSubMembers_eq_ok_iff.mpr hs, ?_⟩⟩
      refine bind_eq_ok_iff.mpr ⟨(), checkMethods_eq_ok_iff.mpr hm, ?_⟩
      exact bind_eq_ok_iff.mpr ⟨bs, hb, rfl⟩

/-- A projection is not resolved inside a chain either. -/
theorem isProjection_of_chain (h : p.chain c s = .ok m) : p.isProjection = false := by
  cases p with
  | projection fields => cases h
  | _ => rfl

theorem argsOf_cons_eq_ok_iff {a : PathArg} {bs : List Arg} : argsOf c s (a :: as) = .ok bs ↔
    ∃ b rest, argOf c s a = .ok b ∧ argsOf c s as = .ok rest ∧ bs = b :: rest := by
  rw [argsOf, bind_eq_ok_iff]
  refine exists_congr fun b => ?_
  rw [bind_eq_ok_iff]
  constructor
  · rintro ⟨hb, rest, hr, h⟩
    cases h
    exact ⟨rest, hb, hr, rfl⟩
  · rintro ⟨rest, hb, hr, rfl⟩
    exact ⟨hb, rest, hr, rfl⟩

theorem argOf_member_eq_ok_iff {b : Arg} : argOf c s (.member p) = .ok b ↔
    ∃ m, p.chain c s = .ok m ∧ b = .member m := by
  rw [argOf]
  cases hp : p.isProjection with
  | false => rw [if_neg Bool.false_ne_true, map_eq_ok_iff]
  | true =>
    refine iff_of_false (fun h => by cases h) ?_
    rintro ⟨m, hm, -⟩
    exact Bool.false_ne_true ((isProjection_of_chain hm).symm.trans hp)

theorem single_eq_ok_iff : p.single c s = .ok m ↔ p.chain c s = .ok m := by
  unfold single
  cases hp : p.isProjection with
  | false => rw [if_neg Bool.false_ne_true]
  | true =>
    refine iff_of_false (fun h => by cases h) fun hm => ?_
    exact Bool.false_ne_true ((isProjection_of_chain hm).symm.trans hp)

/-! ## What is resolved -/

-- one case for each constructor: both sides need the same of a node more
mutual

/-- **Resolving succeeds exactly on the members of the grammar.** -/
theorem chain_ok_iff : ∀ p : Path, (∃ m, p.chain c s = .ok m) ↔ p.IsMember s
  | parameter => iff_of_false (fun ⟨_, h⟩ => by cases h) not_isMember_parameter
  | projection fields => iff_of_false (fun ⟨_, h⟩ => by cases h) (not_isMember_projection fields)
  | static d n r => iff_of_true ⟨_, rfl⟩ (isMember_static d n r)
  | property target n r => by
    cases hp : target.isParameter with
    | true =>
      obtain rfl := eq_parameter_of_isParameter hp
      exact iff_of_true ⟨_, chain_property_eq_ok_iff.mpr (.inl ⟨rfl, rfl⟩)⟩ (isMember_root n r)
    | false =>
      rw [isMember_iff_of_nodes rfl hp rfl, ← chain_ok_iff target]
      constructor
      · rintro ⟨m, h⟩
        rcases chain_property_eq_ok_iff.mp h with ⟨rfl, -⟩ | ⟨-, hs, t, ht, rfl⟩
        · cases hp
        · exact ⟨⟨t, ht⟩, hs, fun h => (by cases h), fun a h => by cases h⟩
      · rintro ⟨⟨t, ht⟩, hs, -⟩
        exact ⟨_, chain_property_eq_ok_iff.mpr (.inr ⟨hp, hs, t, ht, rfl⟩)⟩
  | method target n as r => by
    cases hp : target.isParameter with
    | true =>
      obtain rfl := eq_parameter_of_isParameter hp
      refine iff_of_false (fun ⟨m, h⟩ => ?_) fun h => ?_
      · cases (chain_method_eq_ok_iff.mp h).1
      · cases h with
        | of path start =>
          cases path
          cases start
    | false =>
      rw [isMember_iff_of_nodes rfl hp rfl, ← chain_ok_iff target]
      constructor
      · rintro ⟨m, h⟩
        obtain ⟨-, hs, hm, t, bs, ht, hb, rfl⟩ := chain_method_eq_ok_iff.mp h
        exact ⟨⟨t, ht⟩, hs, fun _ => hm, (argsOf_ok_iff as).mp ⟨bs, hb⟩⟩
      · rintro ⟨⟨t, ht⟩, hs, hm, ha⟩
        obtain ⟨bs, hb⟩ := (argsOf_ok_iff as).mpr ha
        exact ⟨_, chain_method_eq_ok_iff.mpr ⟨hp, hs, hm rfl, t, bs, ht, hb, rfl⟩⟩

theorem argsOf_ok_iff : ∀ as : List PathArg,
    (∃ bs, argsOf c s as = .ok bs) ↔ ∀ a : Path, .member a ∈ as → a.IsMember s
  | [] => iff_of_true ⟨_, rfl⟩ fun _ h => by cases h
  | a :: as => by
    have ha := argOf_ok_iff a
    have has := argsOf_ok_iff as
    constructor
    · rintro ⟨bs, h⟩ p hp
      obtain ⟨b, rest, hb, hr, rfl⟩ := argsOf_cons_eq_ok_iff.mp h
      rcases List.mem_cons.mp hp with rfl | hp
      · exact ha.mp ⟨b, hb⟩ p rfl
      · exact has.mp ⟨rest, hr⟩ p hp
    · intro h
      obtain ⟨b, hb⟩ := ha.mpr fun p hp => h p (hp ▸ List.mem_cons_self)
      obtain ⟨rest, hr⟩ := has.mpr fun p hp => h p (List.mem_cons_of_mem _ hp)
      exact ⟨_, argsOf_cons_eq_ok_iff.mpr ⟨b, rest, hb, hr, rfl⟩⟩

theorem argOf_ok_iff : ∀ a : PathArg,
    (∃ b, argOf c s a = .ok b) ↔ ∀ p : Path, a = .member p → p.IsMember s
  | .constant v => iff_of_true ⟨_, rfl⟩ fun _ h => by cases h
  | .captured read => iff_of_true ⟨_, rfl⟩ fun _ h => by cases h
  | .expression e => iff_of_true ⟨_, rfl⟩ fun _ h => by cases h
  | .member p => by
    have hp := chain_ok_iff p
    constructor
    · rintro ⟨b, h⟩ q hq
      obtain ⟨m, hm, -⟩ := argOf_member_eq_ok_iff.mp h
      cases hq
      exact hp.mp ⟨m, hm⟩
    · intro h
      obtain ⟨m, hm⟩ := hp.mpr (h p rfl)
      exact ⟨_, argOf_member_eq_ok_iff.mpr ⟨m, hm, rfl⟩⟩

end

end Path

/-! ## Putting together -/

mutual

/-- The expression of a member: its root, with its operations applied one after another. -/
def Member.toPath : Member → Path
  | ⟨root, _, isStatic, children, _, _⟩ =>
    Node.appliedAll (if isStatic then .static root.declaring root.name root.returns
      else .property .parameter root.name root.returns) children

/-- An expression with operations applied to it. -/
def Node.appliedAll (p : Path) : List Node → Path
  | [] => p
  | n :: rest => Node.appliedAll (Node.applied p n) rest

/-- An expression with an operation applied to it. -/
def Node.applied (p : Path) : Node → Path
  | .property q => .property p q.name q.returns
  | .method _ name as r => .method p name (Arg.toPathAll as) r

/-- Arguments as expressions have them. -/
def Arg.toPathAll : List Arg → List PathArg
  | [] => []
  | a :: rest => Arg.toPath a :: Arg.toPathAll rest

/-- An argument as an expression has it; values are constants. -/
def Arg.toPath : Arg → PathArg
  | .value v => .constant v
  | .member m => .member (Member.toPath m)
  | .expression e => .expression e

end

mutual

/-- The expression with constants in place of captured variables, as they are when it is read. -/
def Path.snapshot : Path → Path
  | .parameter => .parameter
  | .static d n r => .static d n r
  | .property target n r => .property (Path.snapshot target) n r
  | .method target n as r => .method (Path.snapshot target) n (PathArg.snapshotAll as) r
  | .projection fields => .projection (Path.snapshotFields fields)

/-- Fields with constants in place of captured variables. -/
def Path.snapshotFields : List (String × Path) → List (String × Path)
  | [] => []
  | (name, p) :: rest => (name, Path.snapshot p) :: Path.snapshotFields rest

/-- Arguments with constants in place of captured variables. -/
def PathArg.snapshotAll : List PathArg → List PathArg
  | [] => []
  | a :: rest => PathArg.snapshot a :: PathArg.snapshotAll rest

/-- An argument with a constant in place of a captured variable. -/
def PathArg.snapshot : PathArg → PathArg
  | .constant v => .constant v
  | .captured read => .constant (read ())
  | .member p => .member (Path.snapshot p)
  | .expression e => .expression e

end

theorem Node.appliedAll_append (p : Path) (ns : List Node) (n : Node) :
    Node.appliedAll p (ns ++ [n]) = Node.applied (Node.appliedAll p ns) n := by
  induction ns generalizing p with
  | nil => rfl
  | cons k ns ih => exact ih _

theorem Member.toPath_extend (m : Member) (n : Node) :
    (m.extend n).toPath = Node.applied m.toPath n := by
  obtain ⟨root, column, isStatic, children, aliasName, owners⟩ := m
  exact Node.appliedAll_append _ children n

namespace Path

variable {c : Config} {s : Shapes}

mutual

/-- **A resolved member is put together to the expression.** -/
theorem toPath_of_chain : ∀ {p : Path} {m : Member}, p.chain c s = .ok m → m.toPath = p.snapshot
  | parameter, m, h => by cases h
  | projection fields, m, h => by cases h
  | static d n r, m, h => by
    cases h
    rfl
  | property target n r, m, h => by
    rcases chain_property_eq_ok_iff.mp h with ⟨rfl, rfl⟩ | ⟨-, -, t, ht, rfl⟩
    · rfl
    · rw [Member.toPath_extend, toPath_of_chain ht]
      rfl
  | method target n as r, m, h => by
    obtain ⟨-, -, -, t, bs, ht, hb, rfl⟩ := chain_method_eq_ok_iff.mp h
    rw [Member.toPath_extend, toPath_of_chain ht, Node.applied, toPathAll_of_argsOf hb]
    rfl

theorem toPathAll_of_argsOf : ∀ {as : List PathArg} {bs : List Arg},
    argsOf c s as = .ok bs → Arg.toPathAll bs = PathArg.snapshotAll as
  | [], bs, h => by
    cases h
    rfl
  | a :: as, bs, h => by
    obtain ⟨b, rest, hb, hr, rfl⟩ := argsOf_cons_eq_ok_iff.mp h
    rw [Arg.toPathAll, toPath_of_argOf hb, toPathAll_of_argsOf hr]
    rfl

theorem toPath_of_argOf : ∀ {a : PathArg} {b : Arg},
    argOf c s a = .ok b → b.toPath = a.snapshot
  | .constant v, b, h => by
    cases h
    rfl
  | .captured read, b, h => by
    cases h
    rfl
  | .expression e, b, h => by
    cases h
    rfl
  | .member p, b, h => by
    obtain ⟨m, hm, rfl⟩ := argOf_member_eq_ok_iff.mp h
    rw [Arg.toPath, toPath_of_chain hm]
    rfl

end

/-! ## The nodes of a chain -/

/-- A node of an expression as an operation: of one name, kind and type, and with its arguments. -/
structure Becomes (x : Path) (n : Node) : Prop where
  name : x.name? = some n.name
  returns : x.returns? = some n.returns
  kind : x.isMethod = n.isMethod
  args : Arg.toPathAll n.args = PathArg.snapshotAll x.args

/-- The operations are the nodes behind the root, in their order, and each is declared in the type
that the node before it returns. -/
structure Follows (p : Path) (m : Member) : Prop where
  children : List.Forall₂ Becomes p.nodes.tail m.children
  declared : (Node.property m.root :: m.children).IsChain fun a b => b.declaring = a.returns

theorem Follows.extend {p target x : Path} {m : Member} {n : Node} (h : Follows target m)
    (hp : p.nodes = target.nodes ++ [x]) (ht : target.isParameter = false) (hx : Becomes x n)
    (hd : n.declaring = m.returns) : Follows p (m.extend n) := by
  constructor
  · rw [hp, List.tail_append_of_ne_nil (nodes_ne_nil ht)]
    exact List.rel_append h.children (.cons hx .nil)
  · change ((Node.property m.root :: m.children) ++ [n]).IsChain _
    rw [List.isChain_append]
    refine ⟨h.declared, List.isChain_singleton n, fun a ha b hb => ?_⟩
    obtain rfl := Option.some.inj hb
    rw [hd, Member.returns]
    -- what the chain returns is what its last node returns
    cases hl : m.children.getLast? with
    | none =>
      rw [List.getLast?_eq_none_iff.mp hl] at ha
      obtain rfl := Option.some.inj ha
      rfl
    | some k =>
      rw [List.getLast?_cons, hl] at ha
      obtain rfl := Option.some.inj ha
      rfl

/-- **A chain follows its expression.** -/
theorem follows_of_chain : ∀ {p : Path} {m : Member}, p.chain c s = .ok m → Follows p m
  | parameter, m, h => by cases h
  | projection fields, m, h => by cases h
  | static d n r, m, h => by
    cases h
    exact ⟨.nil, List.isChain_singleton _⟩
  | property target n r, m, h => by
    rcases chain_property_eq_ok_iff.mp h with ⟨rfl, rfl⟩ | ⟨hp, -, t, ht, rfl⟩
    · exact ⟨.nil, List.isChain_singleton _⟩
    · exact (follows_of_chain ht).extend rfl hp ⟨rfl, rfl, rfl, rfl⟩ rfl
  | method target n as r, m, h => by
    obtain ⟨hp, -, -, t, bs, ht, hb, rfl⟩ := chain_method_eq_ok_iff.mp h
    exact (follows_of_chain ht).extend rfl hp ⟨rfl, rfl, rfl, toPathAll_of_argsOf hb⟩ rfl

/-- Resolving an expression gives its chain no alias. -/
theorem aliasName_of_chain : ∀ {p : Path} {m : Member}, p.chain c s = .ok m →
    m.aliasName = none
  | parameter, m, h => by cases h
  | projection fields, m, h => by cases h
  | static d n r, m, h => by
    cases h
    rfl
  | property target n r, m, h => by
    rcases chain_property_eq_ok_iff.mp h with ⟨rfl, rfl⟩ | ⟨-, -, t, ht, rfl⟩
    · rfl
    · have ht : t.aliasName = none := aliasName_of_chain ht
      exact ht
  | method target n as r, m, h => by
    obtain ⟨-, -, -, t, bs, ht, -, rfl⟩ := chain_method_eq_ok_iff.mp h
    have ht : t.aliasName = none := aliasName_of_chain ht
    exact ht

/-- A chain without operations is a static member or a property of the parameter. -/
theorem first_of_chain {p : Path} {m : Member} (h : p.chain c s = .ok m)
    (hc : m.children = []) :
    (∃ d n r, p = static d n r ∧ m = staticMember d n r) ∨
      ∃ n r, p = property parameter n r ∧ m = rootMember c n r := by
  cases p with
  | parameter => cases h
  | projection fields => cases h
  | static d n r =>
    cases h
    exact .inl ⟨d, n, r, rfl, rfl⟩
  | property target n r =>
    rcases chain_property_eq_ok_iff.mp h with ⟨rfl, rfl⟩ | ⟨-, -, t, -, rfl⟩
    · exact .inr ⟨n, r, rfl, rfl⟩
    · exact absurd hc (by simp [Member.extend])
  | method target n as r =>
    obtain ⟨-, -, -, t, bs, -, -, rfl⟩ := chain_method_eq_ok_iff.mp h
    exact absurd hc (by simp [Member.extend])

/-- **The grammar is accepted and nothing is lost.** Whatever the options and the accepted shapes,
an expression resolves to one member exactly if it is in the grammar. The operations of the member
are then the nodes behind the root in their order, each declared in the type that the node before it
returns, and the member put together is the expression with captured variables read. -/
theorem single_iff_isMember (c : Config) (s : Shapes) (p : Path) :
    ((∃ m, p.single c s = .ok m) ↔ p.IsMember s) ∧
      ∀ m, p.single c s = .ok m →
        List.Forall₂ Becomes p.nodes.tail m.children ∧
        (Node.property m.root :: m.children).IsChain (fun a b => b.declaring = a.returns) ∧
        m.toPath = p.snapshot := by
  constructor
  · rw [← chain_ok_iff (c := c)]
    exact exists_congr fun m => single_eq_ok_iff
  · intro m h
    have hm := single_eq_ok_iff.mp h
    exact ⟨(follows_of_chain hm).children, (follows_of_chain hm).declared, toPath_of_chain hm⟩

/-- The length of a name without what its code has from a place on; a variable holds the place. -/
def uncodedLength : Path :=
  .property (.method (.property .parameter "Name" .string) "replace"
    [.member (.method (.property .parameter "Code" .string) "substring"
      [.captured fun _ => .int 2] .string), .constant (.text "")] .string) "len" .number

theorem uncodedLength_resolved : ∃ m, uncodedLength.single (.new .mysql) .chains = .ok m ∧
    uncodedLength.IsMember .chains ∧
    List.Forall₂ Becomes uncodedLength.nodes.tail m.children ∧
    m.children.map Node.name = ["replace", "len"] ∧
    (Node.property m.root :: m.children).IsChain (fun a b => b.declaring = a.returns) ∧
    m.toPath = .property (.method (.property .parameter "Name" .string) "replace"
      [.member (.method (.property .parameter "Code" .string) "substring"
        [.constant (.int 2)] .string), .constant (.text "")] .string) "len" .number := by
  obtain ⟨accepted, kept⟩ := single_iff_isMember (.new .mysql) .chains uncodedLength
  obtain ⟨nodes, declared, path⟩ := kept _ rfl
  exact ⟨_, rfl, accepted.mp ⟨_, rfl⟩, nodes, rfl, declared, path⟩

end Path
end SqlWeave
