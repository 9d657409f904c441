import SqlWeave.Member.Registry

/-!
# Who is asked about a node

To compile a member, a registry is asked for the translator of one node after another. What is asked
next depends on what the translators found so far have written, and on nothing else of the registry.
So a member is an *inquiry*: a tree of nodes with a branch for every translator that may be found. A
registry compiles a member by running the inquiry, and registries that find the same translators for
the nodes they are asked about compile alike.

A translator registered last is found only where there was none before. One registered first is
found wherever it accepts a node, so it changes nothing for members none of whose nodes it accepts.

Results:
* `Registry.member_eq`: compiling a member is running its inquiry.
* `Inquiry.run_congr`: only the translators of the nodes asked about count.
* `Inquiry.run_of_missing`: a node without a translator is the failure.
* `Member.within_inquiry`: nothing is asked about but the nodes of the member.
* `Registry.find?_eq_some_iff`: the first translator that accepts a node wins.
* **`Registry.registering_conservative`**: what registering a translator leaves as it was.
-/

namespace SqlWeave

/-! ## Inquiries -/

/-- What is asked of a registry: nodes, with a branch for every translator. -/
inductive Inquiry (α : Type) where
  | done (result : Result α)
  | ask (n : Node) (next : Translator → Inquiry α)

namespace Inquiry

variable {α β : Type} {r r' : Registry}

/-- Goes on with the result of an inquiry; a failure ends both. -/
def bind : Inquiry α → (α → Inquiry β) → Inquiry β
  | done (.ok a), f => f a
  | done (.error e), _ => done (.error e)
  | ask n next, f => ask n fun t => (next t).bind f

/-- The result of an inquiry on a registry. A node without a translator is refused. -/
def run (r : Registry) : Inquiry α → Result α
  | done result => result
  | ask n next =>
    match r.find? n with
    | none => notMapped n
    | some t => (next t).run r

/-- The nodes that a registry is asked about, in order. A node without a translator is the last. -/
def asked (r : Registry) : Inquiry α → List Node
  | done _ => []
  | ask n next =>
    n :: match r.find? n with
      | none => []
      | some t => (next t).asked r

/-- Every node that may be asked about has a property. -/
def Within (P : Node → Prop) : Inquiry α → Prop
  | done _ => True
  | ask n next => P n ∧ ∀ t, (next t).Within P

section

variable {n : Node} {next : Translator → Inquiry α} {t : Translator}

theorem run_of_find? (h : r.find? n = some t) : (ask n next).run r = (next t).run r := by
  rw [run, h]

theorem run_of_none (h : r.find? n = none) : (ask n next).run r = notMapped n := by
  rw [run, h]

theorem asked_of_find? (h : r.find? n = some t) :
    (ask n next).asked r = n :: (next t).asked r := by
  rw [asked, h]

theorem asked_of_none (h : r.find? n = none) : (ask n next).asked r = [n] := by
  rw [asked, h]

end

theorem run_bind (x : Inquiry α) (f : α → Inquiry β) :
    (x.bind f).run r = x.run r >>= fun a => (f a).run r := by
  induction x with
  | done result => cases result <;> rfl
  | ask n next ih =>
    rw [bind]
    cases h : r.find? n with
    | none =>
      rw [run_of_none h, run_of_none h]
      rfl
    | some t =>
      rw [run_of_find? h, run_of_find? h]
      exact ih t

/-- **Only the translators of the nodes asked about count.** -/
theorem run_congr {x : Inquiry α} (h : ∀ n ∈ x.asked r, r'.find? n = r.find? n) :
    x.run r' = x.run r := by
  induction x with
  | done result => rfl
  | ask n next ih =>
    cases hn : r.find? n with
    | none =>
      rw [asked_of_none hn] at h
      rw [run_of_none hn, run_of_none ((h n List.mem_cons_self).trans hn)]
    | some t =>
      rw [asked_of_find? hn] at h
      rw [run_of_find? hn, run_of_find? ((h n List.mem_cons_self).trans hn)]
      exact ih t fun k hk => h k (List.mem_cons_of_mem _ hk)

/-- **A node without a translator is the failure.** -/
theorem run_of_missing {x : Inquiry α} {n : Node} (h : n ∈ x.asked r) (hn : r.find? n = none) :
    x.run r = notMapped n := by
  induction x with
  | done result => cases h
  | ask k next ih =>
    cases hk : r.find? k with
    | none =>
      rw [asked_of_none hk] at h
      rw [run_of_none hk, List.mem_singleton.mp h]
    | some t =>
      rw [asked_of_find? hk] at h
      rw [run_of_find? hk]
      rcases List.mem_cons.mp h with rfl | h
      · rw [hn] at hk
        cases hk
      · exact ih t h

namespace Within

variable {P Q : Node → Prop}

theorem mono {x : Inquiry α} (hx : x.Within P) (h : ∀ n, P n → Q n) : x.Within Q := by
  induction x with
  | done result => trivial
  | ask n next ih => exact ⟨h n hx.1, fun t => ih t (hx.2 t)⟩

theorem bind {x : Inquiry α} {f : α → Inquiry β} (hx : x.Within P) (hf : ∀ a, (f a).Within P) :
    (x.bind f).Within P := by
  induction x with
  | done result =>
    cases result with
    | error e => trivial
    | ok a => exact hf a
  | ask n next ih => exact ⟨hx.1, fun t => ih t (hx.2 t)⟩

theorem of_asked {x : Inquiry α} (hx : x.Within P) : ∀ n ∈ x.asked r, P n := by
  induction x with
  | done result => exact fun _ h => by cases h
  | ask n next ih =>
    cases hn : r.find? n with
    | none =>
      rw [asked_of_none hn]
      exact List.forall_mem_singleton.mpr hx.1
    | some t =>
      rw [asked_of_find? hn]
      exact List.forall_mem_cons.mpr ⟨hx.1, ih t (hx.2 t)⟩

end Within

/-- Asks for the translator of a node; then its arguments count. -/
def translate (s : Scope) (current : Expression) (n : Node) (args : Inquiry (List Param)) :
    Inquiry Expression :=
  ask n fun t => args.bind fun ps => done (t.translate s current n ps)

theorem run_translate (s : Scope) (current : Expression) (n : Node)
    (args : Inquiry (List Param)) :
    (translate s current n args).run r = r.apply s current n (args.run r) := by
  unfold translate Registry.apply
  cases h : r.find? n with
  | none => rw [run_of_none h]
  | some t =>
    rw [run_of_find? h]
    exact run_bind args _

theorem within_translate {n : Node} {ns : List Node} {args : Inquiry (List Param)}
    (ha : args.Within (· ∈ ns)) (s : Scope) (current : Expression) :
    (translate s current n args).Within (· ∈ n :: ns) :=
  ⟨List.mem_cons_self, fun _ => (ha.mono fun _ => List.mem_cons_of_mem n).bind fun _ => trivial⟩

theorem within_done {P : Node → Prop} (result : Result α) : (done result).Within P := trivial

end Inquiry

/-! ## The inquiry of a member -/

mutual

/-- What compiling a member asks of a registry. -/
def Member.inquiry (s : Scope) (qualified : Bool) : Member → Inquiry Expression
  | ⟨root, column, isStatic, children, _, owners⟩ =>
    if isStatic then
      (Inquiry.translate s .empty (.property root) (.done (.ok []))).bind fun start =>
        Node.inquiryAll s qualified start children
    else Node.inquiryBehind s qualified root column owners children

/-- What the chain behind a column asks. The properties of objects name columns and are not asked
about. -/
def Node.inquiryBehind (s : Scope) (qualified : Bool) (root : Property) (column owners : String) :
    List Node → Inquiry Expression
  | [] =>
    if root.returns.isEntity then .done (.error (.validation (.objectWithoutColumn root.name)))
    else .done (.ok (Registry.rootColumn s qualified column))
  | n :: rest =>
    if root.returns.isEntity then
      match n with
      | .property p =>
        let owners := owners ++ root.name
        Node.inquiryBehind s qualified p (Member.innerColumn s.config owners p.name) owners rest
      | .method .. => .done (.error (.validation (.objectWithoutColumn root.name)))
    else
      (Node.inquiry s qualified (Registry.rootColumn s qualified column) n).bind fun first =>
        Node.inquiryAll s qualified first rest

/-- What operations ask, one after another. -/
def Node.inquiryAll (s : Scope) (qualified : Bool) (current : Expression) :
    List Node → Inquiry Expression
  | [] => .done (.ok current)
  | n :: rest =>
    (Node.inquiry s qualified current n).bind fun next => Node.inquiryAll s qualified next rest

/-- What an operation asks: first about itself, then about its arguments. -/
def Node.inquiry (s : Scope) (qualified : Bool) (current : Expression) : Node → Inquiry Expression
  | .property p => .translate s current (.property p) (.done (.ok []))
  | .method d n as t => .translate s current (.method d n as t) (Arg.inquiryAll s qualified as)

/-- What arguments ask, one after another. -/
def Arg.inquiryAll (s : Scope) (qualified : Bool) : List Arg → Inquiry (List Param)
  | [] => .done (.ok [])
  | a :: rest =>
    (Arg.inquiry s qualified a).bind fun p =>
      (Arg.inquiryAll s qualified rest).bind fun ps => .done (.ok (p :: ps))

/-- What an argument asks. -/
def Arg.inquiry (s : Scope) (qualified : Bool) : Arg → Inquiry Param
  | .value v => .done (.ok (.value v))
  | .member m => (Member.inquiry s qualified m).bind fun e => .done (.ok (.expression e))
  | .expression e => .done (.ok (.expression e))

end

namespace Registry

variable {r : Registry} {s : Scope} {q : Bool}

-- one case for each constructor; the fragment built so far goes through as it is
mutual

/-- **Compiling a member is running its inquiry.** -/
theorem member_eq : ∀ m : Member, r.member s q m = (m.inquiry s q).run r
  | ⟨root, column, true, children, _, owners⟩ => by
    unfold member Member.inquiry
    rw [if_pos rfl, if_pos rfl, Inquiry.run_bind, Inquiry.run_translate]
    exact bind_congr fun start => nodes_eq start children
  | ⟨root, column, false, children, _, owners⟩ => by
    unfold member Member.inquiry
    rw [if_neg Bool.false_ne_true, if_neg Bool.false_ne_true]
    exact chain_eq root column owners children

theorem chain_eq (root : Property) (column owners : String) : ∀ ns : List Node,
    r.chain s q root column owners ns = (Node.inquiryBehind s q root column owners ns).run r
  | [] => by
    unfold chain Node.inquiryBehind
    split <;> rfl
  | .property p :: rest => by
    unfold chain Node.inquiryBehind
    split
    · exact chain_eq p _ _ rest
    · rw [Inquiry.run_bind, ← node_eq _ (.property p)]
      exact bind_congr fun first => nodes_eq first rest
  | .method d n as t :: rest => by
    unfold chain Node.inquiryBehind
    split
    · rfl
    · rw [Inquiry.run_bind, ← node_eq _ (.method d n as t)]
      exact bind_congr fun first => nodes_eq first rest

theorem nodes_eq (current : Expression) : ∀ ns : List Node,
    r.nodes s q current ns = (Node.inquiryAll s q current ns).run r
  | [] => rfl
  | n :: rest => by
    unfold nodes Node.inquiryAll
    rw [Inquiry.run_bind, ← node_eq current n]
    exact bind_congr fun next => nodes_eq next rest

theorem node_eq (current : Expression) : ∀ n : Node,
    r.node s q current n = (n.inquiry s q current).run r
  | .property p => (Inquiry.run_translate s current (.property p) (.done (.ok []))).symm
  | .method d n as t => by
    unfold node Node.inquiry
    rw [Inquiry.run_translate, arguments_eq as]

theorem arguments_eq : ∀ as : List Arg, r.arguments s q as = (Arg.inquiryAll s q as).run r
  | [] => rfl
  | a :: rest => by
    unfold arguments Arg.inquiryAll
    rw [Inquiry.run_bind, ← arg_eq a]
    refine bind_congr fun p => ?_
    rw [Inquiry.run_bind, ← arguments_eq rest]
    rfl

theorem arg_eq : ∀ a : Arg, r.arg s q a = (a.inquiry s q).run r
  | .value v => rfl
  | .expression e => rfl
  | .member m => by
    unfold arg Arg.inquiry
    rw [Inquiry.run_bind, ← member_eq m]
    cases r.member s q m <;> rfl

end

end Registry

/-! ## The nodes of a member -/

mutual

/-- The nodes of a member that need a translator: a static root, and the operations behind the
column with those of their arguments. -/
def Member.steps : Member → List Node
  | ⟨root, _, isStatic, children, _, _⟩ =>
    if isStatic then .property root :: Node.stepsAll children else Node.stepsBehind root children

/-- The nodes behind a property of the parameter; those that name the column of an object are no
operations. -/
def Node.stepsBehind (root : Property) : List Node → List Node
  | [] => []
  | n :: rest =>
    if root.returns.isEntity then
      match n with
      | .property p => Node.stepsBehind p rest
      | .method .. => []
    else Node.steps n ++ Node.stepsAll rest

/-- The nodes of operations. -/
def Node.stepsAll : List Node → List Node
  | [] => []
  | n :: rest => Node.steps n ++ Node.stepsAll rest

/-- An operation and the nodes of its arguments. -/
def Node.steps : Node → List Node
  | .property p => [.property p]
  | .method d n as t => .method d n as t :: Arg.stepsAll as

/-- The nodes of arguments. -/
def Arg.stepsAll : List Arg → List Node
  | [] => []
  | a :: rest => Arg.steps a ++ Arg.stepsAll rest

/-- The nodes of an argument. -/
def Arg.steps : Arg → List Node
  | .value _ => []
  | .member m => Member.steps m
  | .expression _ => []

end

section

open Inquiry (within_translate within_done)

variable (s : Scope) (q : Bool)

/-- An inquiry and another one behind it ask about the nodes of both. -/
theorem Inquiry.Within.bind_append {α β : Type} {ns ms : List Node} {x : Inquiry α}
    {f : α → Inquiry β} (hx : x.Within (· ∈ ns)) (hf : ∀ a, (f a).Within (· ∈ ms)) :
    (x.bind f).Within (· ∈ ns ++ ms) :=
  (hx.mono fun _ => List.mem_append_left ms).bind fun a =>
    (hf a).mono fun _ => List.mem_append_right ns

mutual

/-- **Nothing is asked about but the nodes of the member.** -/
theorem Member.within_inquiry : ∀ m : Member, (m.inquiry s q).Within (· ∈ m.steps)
  | ⟨root, column, true, children, _, owners⟩ => by
    unfold Member.inquiry Member.steps
    rw [if_pos rfl, if_pos rfl, ← List.singleton_append]
    exact (within_translate (within_done (.ok [])) s .empty).bind_append fun start =>
      Node.within_inquiryAll start children
  | ⟨root, column, false, children, _, owners⟩ => by
    unfold Member.inquiry Member.steps
    rw [if_neg Bool.false_ne_true, if_neg Bool.false_ne_true]
    exact Node.within_inquiryBehind root column owners children

theorem Node.within_inquiryBehind (root : Property) (column owners : String) :
    ∀ ns : List Node,
      (Node.inquiryBehind s q root column owners ns).Within (· ∈ Node.stepsBehind root ns)
  | [] => by
    unfold Node.inquiryBehind
    split <;> trivial
  | .property p :: rest => by
    unfold Node.inquiryBehind Node.stepsBehind
    split
    · exact Node.within_inquiryBehind p _ _ rest
    · exact (Node.within_inquiry _ (.property p)).bind_append fun first =>
        Node.within_inquiryAll first rest
  | .method d n as t :: rest => by
    unfold Node.inquiryBehind Node.stepsBehind
    split
    · trivial
    · exact (Node.within_inquiry _ (.method d n as t)).bind_append fun first =>
        Node.within_inquiryAll first rest

theorem Node.within_inquiryAll (current : Expression) : ∀ ns : List Node,
    (Node.inquiryAll s q current ns).Within (· ∈ Node.stepsAll ns)
  | [] => trivial
  | n :: rest => by
    unfold Node.inquiryAll Node.stepsAll
    exact (Node.within_inquiry current n).bind_append fun next =>
      Node.within_inquiryAll next rest

theorem Node.within_inquiry (current : Expression) : ∀ n : Node,
    (n.inquiry s q current).Within (· ∈ n.steps)
  | .property p => within_translate (within_done (.ok [])) s current
  | .method d n as t => by
    unfold Node.inquiry Node.steps
    exact within_translate (Arg.within_inquiryAll as) s current

theorem Arg.within_inquiryAll : ∀ as : List Arg,
    (Arg.inquiryAll s q as).Within (· ∈ Arg.stepsAll as)
  | [] => trivial
  | a :: rest => by
    unfold Arg.inquiryAll Arg.stepsAll
    exact (Arg.within_inquiry a).bind_append fun p =>
      (Arg.within_inquiryAll rest).bind fun ps => trivial

theorem Arg.within_inquiry : ∀ a : Arg, (a.inquiry s q).Within (· ∈ a.steps)
  | .value _ => trivial
  | .expression _ => trivial
  | .member m => (Member.within_inquiry m).bind fun _ => trivial

end

end

/-! ## Registering translators -/

/-- A call by which a translator is registered. -/
inductive Registration where
  /-- The translator is asked last. -/
  | last (t : Translator)
  /-- The translator is asked first. -/
  | first (t : Translator)

namespace Registration

/-- The translators registered last, in their order. -/
def lasts (changes : List Registration) : List Translator :=
  changes.filterMap fun
    | last t => some t
    | first _ => none

/-- The translators registered first, in the order of the calls. -/
def firsts (changes : List Registration) : List Translator :=
  changes.filterMap fun
    | first t => some t
    | last _ => none

end Registration

namespace Registry

open Registration (firsts lasts)

variable {r r' : Registry} {t : Translator} {n : Node} {s : Scope} {q : Bool} {m : Member}

/-- The registry after a call. -/
def change (r : Registry) : Registration → Registry
  | .last t => r.add t
  | .first t => r.addFirst t

/-- The registry after calls one after another. -/
def registered (r : Registry) (changes : List Registration) : Registry := changes.foldl change r

/-- **The order after any calls.** What was registered first stands in front, the latest foremost,
and what was registered last stands behind, the latest hindmost. -/
theorem registered_eq (r : Registry) (changes : List Registration) :
    r.registered changes = (firsts changes).reverse ++ r ++ lasts changes := by
  induction changes generalizing r with
  | nil => exact (List.append_nil r).symm
  | cons c changes ih =>
    unfold registered at ih ⊢
    rw [List.foldl_cons, ih]
    cases c with
    | last t => simp [change, add, firsts, lasts]
    | first t => simp [change, addFirst, firsts, lasts]

/-- The translator is the first one that accepts the node. -/
def Wins (r : Registry) (n : Node) (t : Translator) : Prop :=
  ∃ before behind, r = before ++ t :: behind ∧ t.accepts n = true ∧
    ∀ u ∈ before, u.accepts n = false

/-- **The first translator that accepts a node wins.** -/
theorem find?_eq_some_iff : r.find? n = some t ↔ r.Wins n t := by
  unfold find? Wins
  rw [List.find?_eq_some_iff_append]
  constructor
  · rintro ⟨ht, before, behind, hr, hu⟩
    exact ⟨before, behind, hr, ht, fun u h => by simpa using hu u h⟩
  · rintro ⟨before, behind, hr, ht, hu⟩
    exact ⟨ht, before, behind, hr, fun u h => by simpa using hu u h⟩

/-- Registries in which the same translator wins find the same. -/
theorem find?_congr (h : ∀ t, r'.Wins n t ↔ r.Wins n t) : r'.find? n = r.find? n :=
  Option.ext fun t => find?_eq_some_iff.trans ((h t).trans find?_eq_some_iff.symm)

theorem find?_add (h : r.find? n = none → t.accepts n = false) :
    (r.add t).find? n = r.find? n := by
  cases hn : r.find? n with
  | some u => exact find?_append_of_isSome hn
  | none =>
    unfold find? at hn
    simp [find?, add, List.find?_append, hn, h hn]

theorem find?_addFirst (h : t.accepts n = false) : (r.addFirst t).find? n = r.find? n := by
  unfold find? addFirst
  rw [List.find?_cons_of_neg (by simp [h])]

/-- Compiling a member stops at a node because no translator accepts it. -/
def StopsAt (r : Registry) (s : Scope) (q : Bool) (m : Member) (n : Node) : Prop :=
  n ∈ (m.inquiry s q).asked r ∧ r.find? n = none

theorem member_of_stopsAt (h : r.StopsAt s q m n) :
    r.member s q m = notMapped n := by
  rw [member_eq]
  exact Inquiry.run_of_missing h.1 h.2

/-- Registries that find the same translators for the nodes asked about compile alike. -/
theorem member_congr (h : ∀ n ∈ (m.inquiry s q).asked r, r'.find? n = r.find? n) :
    r'.member s q m = r.member s q m := by
  rw [member_eq, member_eq]
  exact Inquiry.run_congr h

/-- A translator registered last is asked only where compiling would stop. -/
theorem member_add (h : ∀ n, r.StopsAt s q m n → t.accepts n = false) :
    (r.add t).member s q m = r.member s q m :=
  member_congr fun n hn => find?_add fun hm => h n ⟨hn, hm⟩

/-- A translator registered first counts only for the nodes that it accepts. -/
theorem member_addFirst (h : ∀ n ∈ m.steps, t.accepts n = false) :
    (r.addFirst t).member s q m = r.member s q m :=
  member_congr fun n hn => find?_addFirst (h n ((m.within_inquiry s q).of_asked n hn))

/-- **Registering a translator is conservative.** One registered last changes the result of a
member only if compiling stopped, with this failure, at a node that it accepts; one registered first
only if it accepts a node of the member. After any calls, the first translator in the order that
they leave wins for each node, and who wins for the nodes of a member decides on its result. -/
theorem registering_conservative (r : Registry) (s : Scope) (q : Bool) (m : Member) :
    (∀ n, r.StopsAt s q m n → r.member s q m = notMapped n) ∧
      (∀ t, (∀ n, r.StopsAt s q m n → t.accepts n = false) →
        (r.add t).member s q m = r.member s q m) ∧
      (∀ t, (∀ n ∈ m.steps, t.accepts n = false) →
        (r.addFirst t).member s q m = r.member s q m) ∧
      ∀ changes : List Registration,
        r.registered changes = (firsts changes).reverse ++ r ++ lasts changes ∧
        (∀ n t, (r.registered changes).find? n = some t ↔ (r.registered changes).Wins n t) ∧
        ∀ r' : Registry, (∀ n ∈ m.steps, ∀ t, r'.Wins n t ↔ (r.registered changes).Wins n t) →
          r'.member s q m = (r.registered changes).member s q m := by
  refine ⟨fun n => member_of_stopsAt, fun t => member_add, fun t => member_addFirst,
    fun changes => ⟨r.registered_eq changes, fun n t => find?_eq_some_iff, fun r' h => ?_⟩⟩
  exact member_congr fun n hn => find?_congr (h n ((m.within_inquiry s q).of_asked n hn))

end Registry
end SqlWeave
