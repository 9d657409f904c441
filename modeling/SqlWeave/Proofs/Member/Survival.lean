import Mathlib.Data.List.Infix
import SqlWeave.Proofs.Mapping.Path
import SqlWeave.Proofs.Member.Answer
import SqlWeave.Proofs.Member.Dispatch

/-!
# What survives in a chain

An operation of a chain is written around the fragment built so far, with its arguments beside it,
so the text and the values of both stand in what it writes. Operations behind it are written around
that, and so on: the column that a chain starts from, and what each operation takes of its
arguments, survive to its end.

The current time is the exception. Its properties are meant as roots of chains. Behind a column they
are accepted as well, and what they write has nothing of the column in it.

Results:
* `Registry.member_followedBy`: a chain with operations more is the chain with these around it.
* `survives_translate`: a translator keeps the fragment built so far and what it takes of arguments.
* `apply_tellsTime`: the current time is written as if nothing stood before it.
* **`Registry.chain_survives`**: what survives in a chain, and what does not.
-/

namespace SqlWeave

/-! ## Fragments in fragments -/

namespace Expression

/-- A fragment survives in another one: its text stands there as it is, and its values, one behind
the other. -/
structure Survives (e e' : Expression) : Prop where
  text : ∃ before behind, e'.text = before ++ e.text ++ behind
  values : e.values <:+: e'.values

namespace Survives

variable {e e' e'' : Expression}

theorem of_leaves (h : e.leaves <:+: e'.leaves) : e.Survives e' := by
  obtain ⟨before, behind, h⟩ := h
  constructor
  · refine ⟨String.join (before.map Piece.template), String.join (behind.map Piece.template), ?_⟩
    rw [Expression.text, ← h, List.map_append, List.map_append, String.join_append,
      String.join_append]
    rfl
  · refine ⟨Piece.values before, Piece.values behind, ?_⟩
    rw [Expression.values, Expression.values, ← h, Piece.values_append, Piece.values_append]

theorem refl (e : Expression) : e.Survives e := of_leaves List.infix_rfl

theorem trans (h : e.Survives e') (h' : e'.Survives e'') : e.Survives e'' := by
  obtain ⟨before, behind, ht⟩ := h.text
  obtain ⟨before', behind', ht'⟩ := h'.text
  refine ⟨⟨before' ++ before, behind ++ behind', ?_⟩, h.values.trans h'.values⟩
  rw [ht', ht]
  simp only [String.append_assoc]

end Survives

end Expression

/-- What stands at a place as a fragment of its own. -/
def Param.fragment : Param → Expression
  | value v => .ofPieces [.bound v]
  | expression e => e

theorem Param.leaves_fragment (a : Param) : a.fragment.leaves = a.piece.leaves := by
  cases a with
  | expression e => rfl
  | value v =>
    rw [fragment, Expression.leaves_eq, Expression.pieces_ofPieces]
    rfl

namespace Piece

theorem leaves_infix_of_mem {p : Piece} {ps : List Piece} (h : p ∈ ps) :
    p.leaves <:+: leavesAll ps := by
  obtain ⟨before, behind, rfl⟩ := List.append_of_mem h
  refine ⟨leavesAll before, leavesAll behind, ?_⟩
  rw [leavesAll_append, leavesAll, List.append_assoc]

/-- Joining text leaves everything else as it is. -/
theorem mem_normal {p : Piece} {ps : List Piece} (hp : ∀ s, p ≠ .text s) (h : p ∈ ps) :
    p ∈ normal ps := by
  induction ps with
  | nil => exact h
  | cons q ps ih =>
    rw [normal_cons]
    cases q with
    | bound v => exact List.mem_cons.mpr ((List.mem_cons.mp h).imp_right ih)
    | nested inner => exact List.mem_cons.mpr ((List.mem_cons.mp h).imp_right ih)
    | text s =>
      have hn := ih ((List.mem_cons.mp h).resolve_left (hp s))
      generalize normal ps = l at hn ⊢
      by_cases hs : s = ""
      · simpa [cons, hs] using hn
      · rcases l with - | ⟨(t | v | inner), l⟩ <;> simp_all [cons]

end Piece

section

variable {a : Param}

theorem Param.piece_ne_text (s : String) : a.piece ≠ .text s := by
  cases a <;> exact fun h => by cases h

theorem survives_ofPieces {ps : List Piece} (h : a.piece ∈ ps) :
    a.fragment.Survives (.ofPieces ps) := by
  refine .of_leaves ?_
  rw [a.leaves_fragment, Expression.leaves_eq, Expression.pieces_ofPieces]
  exact Piece.leaves_infix_of_mem (Piece.mem_normal a.piece_ne_text h)

theorem survives_wrap (e : Expression) (before after : String) :
    e.Survives (e.wrap before after) := by
  rw [Expression.wrap_eq]
  exact survives_ofPieces (a := .expression e) (List.mem_cons_of_mem _ List.mem_cons_self)

end

/-! ## Translators -/

section

variable {d : Dialect} {n : Node} {args : List Param} {current e : Expression}

/-- The current time is a property and has no arguments. -/
theorem Node.args_of_tellsTime (n : Node) (h : n.tellsTime = true) : n.args = [] := by
  cases n with
  | property p => rfl
  | method declaring name as returns => simp [tellsTime, isAmong, isMethod] at h

/-- **A translator of an engine keeps the fragment built so far**, except for the current time, and
what the node takes of its arguments. -/
theorem survives_translate {t : Translator} {s : Scope} (ht : t ∈ Registry.ofDialect d)
    (hn : t.accepts n = true) (h : t.translate s current n args = .ok e) :
    (n.tellsTime = false → current.Survives e) ∧ ∀ a ∈ n.taken d args, a.fragment.Survives e := by
  obtain ⟨k, rfl⟩ := Topic.exists_of_mem ht
  have hanswer := k.answer d s current n args
  rw [Topic.taken_of_accepts hn]
  rw [h] at hanswer
  cases hanswer with
  | clock _ hk htime =>
    subst hk
    obtain ⟨hdate, hm, -⟩ := Topic.accepts_iff.mp hn
    have hcurrent : n.tellsTime = true := by simp [Node.tellsTime, Node.isAmong, hdate, hm, htime]
    exact ⟨fun hfalse => (by simp [hcurrent] at hfalse), fun a ha => by cases ha⟩
  | framed _ hk =>
    subst hk
    exact ⟨fun _ => survives_wrap current _ _, fun a ha => by cases ha⟩
  | @filled template params hs hp =>
    have hall : ∀ a ∈ params, a.fragment.Survives (.new template params) := by
      intro a ha
      rw [new_of_mem_templates hs]
      refine survives_ofPieces (Piece.mem_weave ha ?_)
      rw [(cut_of_mem_templates hs).2]
      exact Nat.lt_succ_self _
    exact ⟨fun _ => hall (.expression current) ((hp _).mpr (.inl rfl)),
      fun a ha => hall a ((hp a).mpr (.inr ha))⟩
  | @series opening separator hs htaken =>
    have hall : ∀ a ∈ Param.expression current :: args,
        a.fragment.Survives (series opening separator (.expression current :: args)) := by
      intro a ha
      rw [series_eq hs]
      exact survives_ofPieces <| List.mem_cons_of_mem _ <| List.mem_append_left _ <|
        mem_intersperse (List.mem_map_of_mem ha)
    rw [htaken]
    exact ⟨fun _ => hall _ List.mem_cons_self, fun a ha => hall a (List.mem_cons_of_mem _ ha)⟩
  | itself hk hname hargs =>
    subst hk hargs
    rw [new_question]
    refine ⟨fun _ => survives_ofPieces (a := .expression current) List.mem_cons_self, ?_⟩
    simp [Topic.taken, hname, TextFunction.taken]

/-- What the translator of the current time writes. -/
theorem translate_tellsTime {t : Translator} {s : Scope} (ht : t ∈ Registry.ofDialect d)
    (hn : t.accepts n = true) (hcurrent : n.tellsTime = true) :
    t.translate s current n args = t.translate s .empty n args ∧
      ∀ e, t.translate s current n args = .ok e → e.values = [] := by
  simp only [Node.tellsTime, Node.isAmong, Bool.and_eq_true, beq_iff_eq, currentTimes,
    List.contains_eq_mem, decide_eq_true_eq, List.mem_cons, List.not_mem_nil, or_false] at hcurrent
  obtain ⟨⟨hm, hdate⟩, htime⟩ := hcurrent
  obtain ⟨k, rfl⟩ := Topic.exists_of_mem ht
  have haccepts := Topic.accepts_iff.mp hn
  cases k with
  | texts => simp [haccepts.1, MemberType.isDate] at hdate
  | dateMethods => simp [hm] at haccepts
  | dateProperties =>
    -- what is written for a form of the current time does not mention the fragment
    rcases htime with hname | hname | hname <;> cases d <;>
      simp only [Topic.translator, Translator.dateProperties, DateProperty.sqlServer,
        DateProperty.mysql, DateProperty.sqlite, DateProperty.firebird, hname] <;>
      refine ⟨trivial, fun e h => ?_⟩ <;> cases h <;> rfl

end

namespace Registry

/-! ## Chains -/

section

variable {r : Registry} {s : Scope} {q : Bool}

theorem node_eq_apply (current : Expression) (n : Node) :
    r.node s q current n = r.apply s current n (r.arguments s q n.args) := by
  cases n with
  | property p => rw [node, Node.args, arguments]
  | method declaring name as returns => rw [node, Node.args]

theorem apply_eq_ok_iff {current e : Expression} {n : Node} {args : Result (List Param)} :
    r.apply s current n args = .ok e ↔
      ∃ t ps, r.find? n = some t ∧ args = .ok ps ∧ t.translate s current n ps = .ok e := by
  unfold apply
  cases r.find? n with
  | none => simp [notMapped]
  | some t =>
    constructor
    · intro h
      obtain ⟨ps, ha, h⟩ := bind_eq_ok_iff.mp h
      exact ⟨t, ps, rfl, ha, h⟩
    · rintro ⟨t', ps, ht, ha, h⟩
      cases ht
      exact bind_eq_ok_iff.mpr ⟨ps, ha, h⟩

theorem nodes_append (current : Expression) (ns ms : List Node) :
    r.nodes s q current (ns ++ ms) =
      r.nodes s q current ns >>= fun e => r.nodes s q e ms := by
  induction ns generalizing current with
  | nil => rfl
  | cons n ns ih =>
    rw [List.cons_append, nodes, nodes]
    cases r.node s q current n with
    | error e => rfl
    | ok next => exact ih next

theorem nodes_singleton (current : Expression) (n : Node) :
    r.nodes s q current [n] = r.node s q current n := by
  rw [nodes]
  cases r.node s q current n <;> rfl

/-- Behind a column the nodes are operations. -/
theorem chain_of_not_isEntity {root : Property} (he : root.returns.isEntity = false)
    (column owners : String) (ns : List Node) :
    r.chain s q root column owners ns = r.nodes s q (rootColumn s q column) ns := by
  cases ns with
  | nil => rw [chain, if_neg (by simp [he]), nodes]
  | cons n rest =>
    unfold chain
    rw [if_neg (by simp [he]), nodes]

/-- Objects that compile have come to their column, and what follows is written around that. -/
theorem chain_append {ns : List Node} (ms : List Node) {root : Property} {column owners : String}
    {e : Expression} (h : r.chain s q root column owners ns = .ok e) :
    r.chain s q root column owners (ns ++ ms) = r.nodes s q e ms := by
  induction ns generalizing root column owners with
  | nil =>
    cases he : root.returns.isEntity with
    | true =>
      rw [chain, if_pos he] at h
      cases h
    | false =>
      rw [chain_of_not_isEntity he] at h ⊢
      cases h
      rfl
  | cons n ns ih =>
    cases he : root.returns.isEntity with
    | true =>
      cases n with
      | method declaring name as returns =>
        rw [chain, if_pos he] at h
        cases h
      | property p =>
        rw [chain, if_pos he] at h
        rw [List.cons_append, chain, if_pos he]
        exact ih h
    | false =>
      rw [chain_of_not_isEntity he] at h ⊢
      rw [nodes_append, h]
      rfl

/-- **A chain with operations more is the chain with these around it**, if it compiles by itself. -/
theorem member_followedBy {m : Member} (ns : List Node) {e : Expression}
    (h : r.member s q m = .ok e) : r.member s q (m.followedBy ns) = r.nodes s q e ns := by
  obtain ⟨root, column, isStatic, children, aliasName, owners⟩ := m
  cases isStatic with
  | true =>
    rw [member, if_pos rfl] at h
    obtain ⟨start, hs, h⟩ := bind_eq_ok_iff.mp h
    rw [Member.followedBy, member, if_pos rfl, hs]
    change r.nodes s q start (children ++ ns) = _
    rw [nodes_append, h]
    rfl
  | false =>
    rw [member, if_neg Bool.false_ne_true] at h
    rw [Member.followedBy, member, if_neg Bool.false_ne_true]
    exact chain_append ns h

/-- Among the objects that a chain passes and their properties is the one that names its column. -/
theorem exists_rootColumn {ns : List Node} {root : Property} {column owners : String}
    {e : Expression} (h : r.chain s q root column owners ns = .ok e) :
    ∃ k name, r.chain s q root column owners (ns.take k) = .ok (rootColumn s q name) := by
  induction ns generalizing root column owners with
  | nil =>
    cases he : root.returns.isEntity with
    | true =>
      rw [chain, if_pos he] at h
      cases h
    | false => exact ⟨0, column, chain_of_not_isEntity he column owners []⟩
  | cons n ns ih =>
    cases he : root.returns.isEntity with
    | true =>
      cases n with
      | method declaring name as returns =>
        rw [chain, if_pos he] at h
        cases h
      | property p =>
        rw [chain, if_pos he] at h
        obtain ⟨k, name, hk⟩ := ih h
        refine ⟨k + 1, name, ?_⟩
        rw [List.take_succ_cons, chain, if_pos he]
        exact hk
    | false => exact ⟨0, column, chain_of_not_isEntity he column owners []⟩

end

variable {d : Dialect} {s : Scope} {q : Bool}

/-- An operation keeps the fragment built so far, except for the current time, and what it takes of
its arguments. -/
theorem survives_node {current e : Expression} {n : Node}
    (h : (ofDialect d).node s q current n = .ok e) :
    (n.tellsTime = false → current.Survives e) ∧
      ∃ ps, (ofDialect d).arguments s q n.args = .ok ps ∧
        ∀ a ∈ n.taken d ps, a.fragment.Survives e := by
  rw [node_eq_apply] at h
  obtain ⟨t, ps, ht, ha, h⟩ := apply_eq_ok_iff.mp h
  have hk := survives_translate (List.mem_of_find?_eq_some ht) (accepts_of_find? ht) h
  exact ⟨hk.1, ps, ha, hk.2⟩

/-- **Operations keep the fragment that they are written around**, except for the current time. -/
theorem survives_nodes {current e : Expression} {ns : List Node}
    (hn : ∀ n ∈ ns, n.tellsTime = false) (h : (ofDialect d).nodes s q current ns = .ok e) :
    current.Survives e := by
  induction ns generalizing current with
  | nil =>
    cases h
    exact .refl _
  | cons n ns ih =>
    obtain ⟨next, hnext, h⟩ := bind_eq_ok_iff.mp h
    obtain ⟨hfirst, hrest⟩ := List.forall_mem_cons.mp hn
    exact ((survives_node hnext).1 hfirst).trans (ih hrest h)

/-- The current time is written as if nothing stood before it, and binds no values. -/
theorem apply_tellsTime {n : Node} (hn : n.tellsTime = true) (current : Expression)
    (args : Result (List Param)) :
    (ofDialect d).apply s current n args = (ofDialect d).apply s .empty n args ∧
      ∀ e, (ofDialect d).apply s current n args = .ok e → e.values = [] := by
  constructor
  · unfold apply
    cases ht : (ofDialect d).find? n with
    | none => rfl
    | some t =>
      refine bind_congr (x := args) fun ps => ?_
      exact (translate_tellsTime (List.mem_of_find?_eq_some ht) (accepts_of_find? ht) hn).1
  · intro e h
    obtain ⟨t, ps, ht, -, h⟩ := apply_eq_ok_iff.mp h
    exact (translate_tellsTime (List.mem_of_find?_eq_some ht) (accepts_of_find? ht) hn).2 e h

/-- **What survives in a chain.** If a chain compiles, then with an operation more, or with any
number of them, its text stands in the result as it is, and its values, one behind the other; so do
the column that it starts from and what each operation takes of its arguments. All of this is so
unless an operation reads the current time: that one is written as it is as the root of a chain, and
nothing before it survives. -/
theorem chain_survives (d : Dialect) (s : Scope) (q : Bool) (m : Member) {e : Expression}
    (hm : (ofDialect d).member s q m = .ok e) :
    (∀ n e', (ofDialect d).member s q (m.extend n) = .ok e' → n.tellsTime = false →
        e.Survives e') ∧
      (∀ n, n.tellsTime = true →
        (ofDialect d).member s q (m.extend n) = (ofDialect d).apply s .empty n (.ok []) ∧
        ∀ e', (ofDialect d).member s q (m.extend n) = .ok e' → e'.values = []) ∧
      (∀ ns e', (ofDialect d).member s q (m.followedBy ns) = .ok e' →
        (∀ n ∈ ns, n.tellsTime = false) → e.Survives e') ∧
      (∀ n ns e', (ofDialect d).member s q ((m.extend n).followedBy ns) = .ok e' →
        (∀ k ∈ ns, k.tellsTime = false) →
        ∃ ps, (ofDialect d).arguments s q n.args = .ok ps ∧
          ∀ a ∈ n.taken d ps, a.fragment.Survives e') ∧
      (m.isStatic = false → ∃ k column,
        (ofDialect d).member s q { m with children := m.children.take k } =
          .ok (rootColumn s q column) ∧
        ((∀ n ∈ m.children.drop k, n.tellsTime = false) → (rootColumn s q column).Survives e)) := by
  have hextend : ∀ n, (ofDialect d).member s q (m.extend n) = (ofDialect d).nodes s q e [n] :=
    fun n => member_followedBy [n] hm
  refine ⟨fun n e' h hn => ?_, fun n hn => ?_, fun ns e' h hn => ?_, fun n ns e' h hn => ?_,
    fun hs => ?_⟩
  · rw [hextend] at h
    exact survives_nodes (List.forall_mem_singleton.mpr hn) h
  · have happly : (ofDialect d).member s q (m.extend n) = (ofDialect d).apply s e n (.ok []) := by
      rw [hextend, nodes_singleton, node_eq_apply, n.args_of_tellsTime hn, arguments]
    rw [happly]
    exact apply_tellsTime hn e (.ok [])
  · rw [member_followedBy ns hm] at h
    exact survives_nodes hn h
  · have hsplit : (m.extend n).followedBy ns = m.followedBy (n :: ns) := by
      simp [Member.followedBy, Member.extend]
    rw [hsplit, member_followedBy _ hm] at h
    obtain ⟨next, hnext, h⟩ := bind_eq_ok_iff.mp h
    obtain ⟨-, ps, hps, ha⟩ := survives_node hnext
    exact ⟨ps, hps, fun a hmem => (ha a hmem).trans (survives_nodes hn h)⟩
  · obtain ⟨root, column, isStatic, children, aliasName, owners⟩ := m
    cases hs
    have hchain : (ofDialect d).chain s q root column owners children = .ok e := by
      rw [← hm, member, if_neg Bool.false_ne_true]
    obtain ⟨k, name, hk⟩ := exists_rootColumn hchain
    refine ⟨k, name, by rw [member, if_neg Bool.false_ne_true]; exact hk, fun hn => ?_⟩
    have h := chain_append (children.drop k) hk
    rw [List.take_append_drop, hchain] at h
    exact survives_nodes hn h.symm

/-- The first letters of a name. -/
def initials : Member :=
  (Member.ofColumn "Name" .string).extend
    (.method .string "substring" [.value (.int 0), .value (.int 2)] .string)

/-- A code is written behind a text. -/
def withCode : Node := .method .string "concat" [.member (Member.ofColumn "Code" .string)] .string

theorem initials_survive : ∃ e e',
    (ofDialect .sqlServer).member ⟨.new .sqlServer, ⟨"T", none⟩, false⟩ false initials = .ok e ∧
      (ofDialect .sqlServer).member ⟨.new .sqlServer, ⟨"T", none⟩, false⟩ false
        (initials.extend withCode) = .ok e' ∧
      e.text = "SUBSTRING([Name],?,?)" ∧ e'.text = "CONCAT(SUBSTRING([Name],?,?),[Code])" ∧
      withCode.tellsTime = false ∧ e.Survives e' ∧ (Expression.raw "[Code]").Survives e' := by
  obtain ⟨kept, -, -, arguments, -⟩ :=
    chain_survives .sqlServer ⟨.new .sqlServer, ⟨"T", none⟩, false⟩ false initials rfl
  obtain ⟨ps, hps, hcode⟩ := arguments withCode [] _ rfl fun _ h => by cases h
  cases hps
  exact ⟨_, _, rfl, rfl, by decide, by decide, rfl, kept withCode _ rfl rfl,
    hcode _ List.mem_cons_self⟩

/-- **The current time drops the chain before it**: of a column in front of it nothing is left. -/
theorem now_drops : ¬ ∀ (d : Dialect) (s : Scope) (q : Bool) (m : Member) (n : Node)
    (e e' : Expression), (ofDialect d).member s q m = .ok e →
      (ofDialect d).member s q (m.extend n) = .ok e' → e.Survives e' := by
  intro h
  have survives := h .sqlServer ⟨.new .sqlServer, ⟨"T", none⟩, false⟩ false
    (Member.ofColumn "Created" .dateTime) (.property ⟨.dateTime, "now", .dateTime⟩) _ _ rfl rfl
  obtain ⟨before, behind, ht⟩ := survives.text
  have htext : "GETDATE()" = before ++ "[Created]" ++ behind := ht
  have hmem : '[' ∈ "GETDATE()".toList := by
    rw [htext]
    simp
  revert hmem
  decide

end Registry
end SqlWeave
