import SqlWeave.Proofs.Member.Answer
import SqlWeave.Proofs.Member.Dispatch

/-!
# Members that nobody maps

Compiling a member is a course of steps. An object is replaced by the property behind it; then, for
a static root and each operation in turn, a translator is found, the arguments are compiled from
left to right, and the node is written. `Member.trace` lists the steps up to the first that fails,
and a member fails with the error of that step.

The translators of an engine accept no node in common and have a translation for every node that
they accept, which may be refused for other reasons. So what is reported as not mapped is a node
that none of them accepts.

Results:
* `accounts_member`: a member fails with the error of the first step that fails.
* `countP_accepts_le_one`: at most one translator of an engine accepts a node.
* `mapped_translate`: none of them reports a node that it accepts as not mapped.
* **`notMapped_iff`**: not mapped is reported exactly when no translator is found.
-/

namespace SqlWeave

/-- The error of a result, if it is none. -/
def failure? {α : Type} : Result α → Option Error
  | .ok _ => none
  | .error e => some e

namespace Registry

/-! ## Steps -/

/-- A step of compiling a member. -/
inductive Step where
  /-- An object gives way to the property behind it. -/
  | promote (root : Property) (behind : List Node)
  /-- A translator is found for a node. -/
  | find (n : Node)
  /-- The translator of a node writes it around the fragment built so far. -/
  | translate (current : Expression) (n : Node) (args : List Param)

/-- The error with which a step fails, if it does. -/
def Step.failure? (r : Registry) (s : Scope) : Step → Option Error
  | promote _ (.property _ :: _) => none
  | promote root _ => some (.validation (.objectWithoutColumn root.name))
  | find n => if r.any (·.accepts n) then none else some (.notMapped n.declaring.name n.name)
  | translate current n args =>
    (r.find? n).bind fun t => SqlWeave.failure? (t.translate s current n args)

/-- The steps that follow a result; none follow an error. -/
def afterwards {α : Type} (x : Result α) (steps : α → List Step) : List Step :=
  match x with
  | .ok a => steps a
  | .error _ => []

/-- The steps of a node, among them those of its arguments. -/
def nodeSteps (r : Registry) (current : Expression) (n : Node) (argSteps : List Step)
    (args : Result (List Param)) : List Step :=
  .find n :: if r.any (·.accepts n) then
      argSteps ++ afterwards args fun ps => [.translate current n ps]
    else []

end Registry

section

open Registry (Step afterwards nodeSteps)

variable (r : Registry) (s : Scope) (q : Bool)

mutual

/-- The steps of compiling a member, in their order, up to the first that fails. -/
def Member.trace : Member → List Step
  | ⟨root, column, isStatic, children, _, owners⟩ =>
    if isStatic then
      nodeSteps r .empty (.property root) [] (.ok []) ++
        afterwards (r.apply s .empty (.property root) (.ok [])) fun start =>
          Node.traceAll start children
    else Node.traceBehind root column owners children

/-- The steps behind a property of the parameter: objects give way first. -/
def Node.traceBehind (root : Property) (column owners : String) : List Node → List Step
  | [] => if root.returns.isEntity then [.promote root []] else []
  | n :: rest =>
    if root.returns.isEntity then
      .promote root (n :: rest) ::
        match n with
        | .property p =>
          let owners := owners ++ root.name
          Node.traceBehind p (Member.innerColumn s.config owners p.name) owners rest
        | .method .. => []
    else
      Node.trace (Registry.rootColumn s q column) n ++
        afterwards (r.node s q (Registry.rootColumn s q column) n) fun first =>
          Node.traceAll first rest

/-- The steps of operations, one after another. -/
def Node.traceAll (current : Expression) : List Node → List Step
  | [] => []
  | n :: rest =>
    Node.trace current n ++ afterwards (r.node s q current n) fun next => Node.traceAll next rest

/-- The steps of an operation. -/
def Node.trace (current : Expression) : Node → List Step
  | .property p => nodeSteps r current (.property p) [] (.ok [])
  | .method d n as t =>
    nodeSteps r current (.method d n as t) (Arg.traceAll as) (r.arguments s q as)

/-- The steps of arguments, from left to right. -/
def Arg.traceAll : List Arg → List Step
  | [] => []
  | a :: rest => Arg.trace a ++ afterwards (r.arg s q a) fun _ => Arg.traceAll rest

/-- The steps of an argument. -/
def Arg.trace : Arg → List Step
  | .value _ => []
  | .member m => Member.trace m
  | .expression _ => []

end

end

namespace Registry

variable {r : Registry} {s : Scope} {q : Bool}

/-! ## The first step that fails -/

/-- A step is the first of a list to fail. -/
def FirstFails (r : Registry) (s : Scope) (steps : List Step) (k : Step) : Prop :=
  ∃ before behind, steps = before ++ k :: behind ∧ (∀ j ∈ before, j.failure? r s = none) ∧
    k.failure? r s ≠ none

/-- Steps account for a result: it is the error of the first that fails, if one does. -/
def Accounts (r : Registry) (s : Scope) {α : Type} (steps : List Step) (x : Result α) : Prop :=
  steps.findSome? (Step.failure? r s) = failure? x

namespace Accounts

variable {α β : Type} {steps : List Step} {x : Result α}

theorem ok (a : α) : Accounts r s [] (.ok a : Result α) := rfl

theorem bind {f : α → List Step} {g : α → Result β} (h : Accounts r s steps x)
    (k : ∀ a, Accounts r s (f a) (g a)) : Accounts r s (steps ++ afterwards x f) (x >>= g) := by
  unfold Accounts at h ⊢
  rw [List.findSome?_append, h]
  cases x with
  | error e => rfl
  | ok a => exact k a

theorem map (h : Accounts r s steps x) (f : α → β) : Accounts r s steps (x.map f) := by
  cases x <;> exact h

theorem bind_pure (h : Accounts r s steps x) (f : α → β) :
    Accounts r s steps (x >>= fun a => pure (f a)) := by
  cases x <;> exact h

/-- A result is an error exactly if it is the error of the first step that fails. -/
theorem eq_error_iff (h : Accounts r s steps x) {e : Error} :
    x = .error e ↔ ∃ k, FirstFails r s steps k ∧ k.failure? r s = some e := by
  have hx : x = .error e ↔ failure? x = some e := by
    cases x <;> simp [failure?]
  rw [hx, ← h, List.findSome?_eq_some_iff]
  constructor
  · rintro ⟨before, k, behind, hs, hk, hb⟩
    exact ⟨k, ⟨before, behind, hs, hb, hk ▸ Option.some_ne_none e⟩, hk⟩
  · rintro ⟨k, ⟨before, behind, hs, hb, -⟩, hk⟩
    exact ⟨before, k, behind, hs, hk, hb⟩

end Accounts

theorem find?_eq_none_iff {n : Node} : r.find? n = none ↔ r.any (·.accepts n) = false := by
  unfold find?
  rw [List.find?_eq_none, List.any_eq_false]

/-- The steps of a node account for what it becomes if those of its arguments do for these. -/
theorem accounts_apply {current : Expression} {n : Node} {argSteps : List Step}
    {args : Result (List Param)} (h : Accounts r s argSteps args) :
    Accounts r s (nodeSteps r current n argSteps args) (r.apply s current n args) := by
  unfold Accounts nodeSteps apply
  cases hf : r.find? n with
  | none =>
    have ha := find?_eq_none_iff.mp hf
    rw [ha]
    simp [Step.failure?, ha, notMapped, failure?]
  | some t =>
    have ha : r.any (·.accepts n) = true := by
      rw [← Bool.not_eq_false, ← find?_eq_none_iff, hf]
      exact Option.some_ne_none t
    rw [if_pos ha, List.findSome?_cons_of_isNone (by simp [Step.failure?, ha])]
    refine h.bind fun ps => ?_
    simp [Accounts, Step.failure?, hf]

-- one case for each constructor, in the order in which steps are taken
mutual

/-- **A member fails with the error of the first step that fails.** -/
theorem accounts_member : ∀ m : Member, Accounts r s (m.trace r s q) (r.member s q m)
  | ⟨root, column, true, children, _, owners⟩ => by
    unfold Member.trace member
    rw [if_pos rfl, if_pos rfl]
    exact (accounts_apply (.ok [])).bind fun start => accounts_nodes start children
  | ⟨root, column, false, children, _, owners⟩ => by
    unfold Member.trace member
    rw [if_neg Bool.false_ne_true, if_neg Bool.false_ne_true]
    exact accounts_chain root column owners children

theorem accounts_chain (root : Property) (column owners : String) : ∀ ns : List Node,
    Accounts r s (Node.traceBehind r s q root column owners ns)
      (r.chain s q root column owners ns)
  | [] => by
    unfold Node.traceBehind chain
    split <;> rfl
  | .property p :: rest => by
    unfold Node.traceBehind chain
    split
    · exact accounts_chain p _ _ rest
    · exact (accounts_node _ (.property p)).bind fun first => accounts_nodes first rest
  | .method d n as t :: rest => by
    unfold Node.traceBehind chain
    split
    · rfl
    · exact (accounts_node _ (.method d n as t)).bind fun first => accounts_nodes first rest

theorem accounts_nodes (current : Expression) : ∀ ns : List Node,
    Accounts r s (Node.traceAll r s q current ns) (r.nodes s q current ns)
  | [] => rfl
  | n :: rest => by
    unfold Node.traceAll nodes
    exact (accounts_node current n).bind fun next => accounts_nodes next rest

theorem accounts_node (current : Expression) : ∀ n : Node,
    Accounts r s (n.trace r s q current) (r.node s q current n)
  | .property p => by
    unfold Node.trace node
    exact accounts_apply (.ok [])
  | .method d n as t => by
    unfold Node.trace node
    exact accounts_apply (accounts_arguments as)

theorem accounts_arguments : ∀ as : List Arg,
    Accounts r s (Arg.traceAll r s q as) (r.arguments s q as)
  | [] => rfl
  | a :: rest => by
    unfold Arg.traceAll arguments
    exact (accounts_arg a).bind fun p => (accounts_arguments rest).bind_pure (p :: ·)

theorem accounts_arg : ∀ a : Arg, Accounts r s (a.trace r s q) (r.arg s q a)
  | .value v => rfl
  | .expression e => rfl
  | .member m => by
    unfold Arg.trace arg
    exact (accounts_member m).map Param.expression

end

/-! ## The translators of an engine -/

/-- **At most one translator of an engine accepts a node**: one is for texts, and of those for dates
one is for properties and one for methods. -/
theorem countP_accepts_le_one (d : Dialect) (n : Node) :
    (ofDialect d).countP (fun t => t.accepts n) ≤ 1 := by
  have htexts : (Translator.texts d).accepts n = true → n.declaring = .string :=
    fun h => (Topic.accepts_iff (k := .texts).mp h).1
  have hproperties : (Translator.dateProperties d).accepts n = true →
      n.declaring.isDate = true ∧ n.isMethod = false := fun h =>
    have h := Topic.accepts_iff (k := .dateProperties).mp h
    ⟨h.1, h.2.1⟩
  have hmethods : (Translator.dateMethods d).accepts n = true →
      n.declaring.isDate = true ∧ n.isMethod = true := fun h =>
    have h := Topic.accepts_iff (k := .dateMethods).mp h
    ⟨h.1, h.2.1⟩
  unfold ofDialect
  rw [List.countP_cons, List.countP_cons, List.countP_cons, List.countP_nil]
  cases ht : (Translator.texts d).accepts n <;>
    cases hp : (Translator.dateProperties d).accepts n <;>
    cases hm : (Translator.dateMethods d).accepts n <;> simp_all [MemberType.isDate]

end Registry

/-- A result is not reported as not mapped. -/
def Mapped {α : Type} (x : Result α) : Prop := ∀ t n : String, x ≠ .error (.notMapped t n)

/-- **No translator of an engine reports a node that it accepts as not mapped**, whatever the
fragment and the arguments are: each name in the tables has an arm on each engine. -/
theorem mapped_translate {d : Dialect} {n : Node} {args : List Param} {current : Expression}
    {t : Translator} {s : Scope} (ht : t ∈ Registry.ofDialect d) (hn : t.accepts n = true) :
    Mapped (t.translate s current n args) := by
  obtain ⟨k, rfl⟩ := Topic.exists_of_mem ht
  intro type name hx
  have hanswer := k.answer d s current n args
  rw [hx] at hanswer
  cases hanswer with
  | refused he => exact he type name rfl
  | unknown hname => exact hname (Topic.mem_names_of_accepts hn)

namespace Registry

variable {d : Dialect} {s : Scope} {t name : String}

/-- Only the search for a translator fails because there is none. -/
theorem Step.failure?_eq_notMapped_iff {k : Step} :
    k.failure? (ofDialect d) s = some (.notMapped t name) ↔
      ∃ n, k = .find n ∧ k.failure? (ofDialect d) s ≠ none ∧ n.declaring.name = t ∧
        n.name = name := by
  cases k with
  | promote root behind =>
    unfold failure?
    split <;> simp_all
  | find n =>
    unfold failure?
    split <;> simp_all
  | translate current n args =>
    simp only [reduceCtorEq, false_and, exists_false, iff_false]
    unfold failure?
    intro h
    obtain ⟨u, hu, h⟩ := Option.bind_eq_some_iff.mp h
    have hm : Mapped (u.translate s current n args) :=
      mapped_translate (List.mem_of_find?_eq_some hu) (accepts_of_find? hu)
    cases hx : u.translate s current n args with
    | ok e => rw [hx] at h; cases h
    | error e =>
      rw [hx] at h
      cases h
      exact hm t name hx

/-- **Not mapped is reported exactly when no translator is found.** At most one translator of an
engine accepts a node, and none reports a node that it accepts as not mapped. A member is reported
as not mapped, under the names of a type and a member, exactly if the first step of compiling it
that fails is finding a translator for a node of these names. -/
theorem notMapped_iff (d : Dialect) :
    (∀ n : Node, (ofDialect d).countP (fun t => t.accepts n) ≤ 1) ∧
      (∀ t ∈ ofDialect d, ∀ n : Node, t.accepts n = true →
        ∀ (s : Scope) (current : Expression) (args : List Param) (type name : String),
          t.translate s current n args ≠ .error (.notMapped type name)) ∧
      ∀ (s : Scope) (q : Bool) (m : Member) (type name : String),
        (ofDialect d).member s q m = .error (.notMapped type name) ↔
          ∃ n, FirstFails (ofDialect d) s (m.trace (ofDialect d) s q) (.find n) ∧
            n.declaring.name = type ∧ n.name = name := by
  refine ⟨countP_accepts_le_one d, fun t ht n ha s current args => mapped_translate ht ha,
    fun s q m type name => ?_⟩
  rw [(accounts_member m).eq_error_iff]
  constructor
  · rintro ⟨k, hk, hf⟩
    obtain ⟨n, rfl, -, ht, hn⟩ := Step.failure?_eq_notMapped_iff.mp hf
    exact ⟨n, hk, ht, hn⟩
  · rintro ⟨n, hk, ht, hn⟩
    obtain ⟨before, behind, hs, hb, hf⟩ := hk
    exact ⟨.find n, ⟨before, behind, hs, hb, hf⟩,
      Step.failure?_eq_notMapped_iff.mpr ⟨n, rfl, hf, ht, hn⟩⟩

/-- The name of an owner with a code behind it, after a call that no engine has on the code. -/
def paddedCode : Member where
  root := ⟨Member.parameterType, "Owner", .entity "Person"⟩
  column := "Owner"
  isStatic := false
  children := [.property ⟨.entity "Person", "Name", .string⟩,
    .method .string "concat"
      [.value (.text "-"),
        .member ((Member.ofColumn "Code" .string).extend (.method .string "pad_left" [] .string))]
      .string,
    .method .string "replace" [] .string]
  aliasName := none
  owners := ""

theorem paddedCode_stops :
    (∀ (s : Scope) (current : Expression) (args : List Param) (type name : String),
      (Translator.texts .mysql).translate s current (.method .string "replace" [] .string) args ≠
        .error (.notMapped type name)) ∧
      (ofDialect .mysql).member ⟨.new .mysql, ⟨"T", none⟩, false⟩ false paddedCode =
        .error (.notMapped "String" "pad_left") ∧
      ∃ n, FirstFails (ofDialect .mysql) ⟨.new .mysql, ⟨"T", none⟩, false⟩
          (paddedCode.trace (ofDialect .mysql) ⟨.new .mysql, ⟨"T", none⟩, false⟩ false) (.find n) ∧
        n.declaring.name = "String" ∧ n.name = "pad_left" := by
  obtain ⟨-, mapped, missing⟩ := notMapped_iff .mysql
  exact ⟨mapped _ List.mem_cons_self _ rfl, rfl, (missing _ _ _ _ _).mp rfl⟩

end Registry
end SqlWeave
