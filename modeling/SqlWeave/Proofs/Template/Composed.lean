import SqlWeave.Proofs.Template.Member
import SqlWeave.Proofs.Template.Written
import SqlWeave.Query.Clause

/-!
# What a statement is composed of

A query is *composed* if nothing in it was written by hand: no fragment is given as SQL, operators
have no quotes and no question marks, and no name claims to be quoted already. Names, values,
aliases and patterns may hold any characters. Everything composed is sound, member chains with
their arguments, columns, operands and conditions alike.

Results:
* `firm_compile`: a composed member compiles to a firm fragment.
* `firm_bare`, `firm_selected`, `SortKey.firm_expression`: composed columns are firm.
* `Condition.item_phrase`, `ConditionGroup.item_phrase`: composed conditions are items.
-/

namespace SqlWeave

open Template

/-! ## Members -/

/-- The name of the column that a chain starts from: that of its root, or of the first property
behind it that is no object. -/
def Node.startColumn (c : Config) (root : Property) (column owners : String) : List Node → String
  | .property p :: rest =>
    if root.returns.isEntity then
      startColumn c p (Member.innerColumn c (owners ++ root.name) p.name) (owners ++ root.name) rest
    else column
  | _ => column

mutual

/-- A member whose column does not claim to be quoted and whose arguments are composed. -/
def Member.Composed (c : Config) : Member → Prop
  | ⟨root, column, isStatic, children, _, owners⟩ =>
    (isStatic = false → c.dialect.Unquoted (Node.startColumn c root column owners children)) ∧
      Node.AllComposed c children

/-- Operations whose arguments are composed. -/
def Node.AllComposed (c : Config) : List Node → Prop
  | [] => True
  | n :: rest => Node.Composed c n ∧ Node.AllComposed c rest

/-- An operation whose arguments are composed. -/
def Node.Composed (c : Config) : Node → Prop
  | .property _ => True
  | .method _ _ args _ => Arg.AllComposed c args

/-- Arguments that are composed. -/
def Arg.AllComposed (c : Config) : List Arg → Prop
  | [] => True
  | a :: rest => Arg.Composed c a ∧ Arg.AllComposed c rest

/-- An argument that is a value or a composed member. -/
def Arg.Composed (c : Config) : Arg → Prop
  | .value _ => True
  | .member m => Member.Composed c m
  | .expression _ => False

end

namespace Registry

variable {s : Scope}

theorem firm_apply {current e : Expression} {n : Node} {args : Result (List Param)}
    (hc : Firm current) (ha : ∀ ps, args = .ok ps → ∀ x ∈ ps, x.Of Firm)
    (h : (ofDialect s.dialect).apply s current n args = .ok e) : Firm e := by
  unfold apply at h
  cases hf : (ofDialect s.dialect).find? n with
  | none =>
    rw [hf] at h
    cases h
  | some t =>
    rw [hf] at h
    obtain ⟨ps, hps, h⟩ := bind_eq_ok_iff.mp h
    exact firm_of_flow <| flows_translate (fun _ => firm_of_flow) (List.mem_of_find?_eq_some hf) hc
      (ha ps hps) h

theorem firm_raw {text : String} (h : Word text) : Firm (Expression.raw text) := by
  rw [Expression.raw_eq]
  exact firm_of_flow (Expression.flow_ofPieces (.word h .refl))

/-- A name behind the name of a table claims what the table's name claims. -/
theorem unquoted_qualified {d : Dialect} {table column : String} (h : d.Unquoted table) :
    d.Unquoted (table ++ "." ++ column) := by
  unfold Dialect.Unquoted at h ⊢
  rw [String.append_assoc, String.toList_append]
  cases ht : table.toList with
  | nil => cases d <;> simp [Dialect.quotes]
  | cons c cs =>
    rw [ht] at h
    exact h

theorem firm_rootColumn {qualified : Bool} {column : String} (ht : s.table.Unquoted s.dialect)
    (hc : s.dialect.Unquoted column) : Firm (rootColumn s qualified column) := by
  unfold rootColumn
  refine firm_raw (s.dialect.word_quote ?_)
  split
  · exact unquoted_qualified (TableName.unquoted_aliasOrName ht)
  · exact hc

-- one case for each constructor of members, operations and arguments; the fragment built so far is
-- firm at every step
mutual

theorem firm_member {qualified : Bool} (ht : s.table.Unquoted s.dialect) :
    ∀ {m : Member} {e : Expression}, m.Composed s.config →
      (ofDialect s.dialect).member s qualified m = .ok e → Firm e
  | ⟨root, column, true, children, _, owners⟩, e, hm, h => by
    unfold Member.Composed at hm
    unfold member at h
    obtain ⟨start, hs, h⟩ := bind_eq_ok_iff.mp h
    have hstart : Firm start :=
      firm_apply (firm_of_flow (.nil settled_of_outside)) (fun ps hps => by cases hps; simp) hs
    exact firm_nodes ht hstart hm.2 h
  | ⟨root, column, false, children, _, owners⟩, e, hm, h => by
    unfold Member.Composed at hm
    unfold member at h
    exact firm_chain ht (hm.1 rfl) hm.2 h

theorem firm_chain {qualified : Bool} (ht : s.table.Unquoted s.dialect) {root : Property}
    {column owners : String} : ∀ {ns : List Node} {e : Expression},
      s.dialect.Unquoted (Node.startColumn s.config root column owners ns) →
      Node.AllComposed s.config ns →
      (ofDialect s.dialect).chain s qualified root column owners ns = .ok e → Firm e
  | [], e, hc, _, h => by
    unfold chain at h
    split at h
    · cases h
    · cases h
      exact firm_rootColumn ht hc
  | .property p :: rest, e, hc, hn, h => by
    unfold Node.AllComposed at hn
    unfold chain at h
    unfold Node.startColumn at hc
    split at h
    · rename_i hr
      rw [if_pos hr] at hc
      exact firm_chain ht hc hn.2 h
    · rename_i hr
      rw [if_neg hr] at hc
      obtain ⟨first, hf, h⟩ := bind_eq_ok_iff.mp h
      exact firm_nodes ht (firm_node ht (firm_rootColumn ht hc) hn.1 hf) hn.2 h
  | .method d name args t :: rest, e, hc, hn, h => by
    unfold Node.AllComposed at hn
    unfold chain at h
    split at h
    · cases h
    · obtain ⟨first, hf, h⟩ := bind_eq_ok_iff.mp h
      exact firm_nodes ht (firm_node ht (firm_rootColumn ht hc) hn.1 hf) hn.2 h

theorem firm_nodes {qualified : Bool} (ht : s.table.Unquoted s.dialect) {current : Expression}
    (hc : Firm current) : ∀ {ns : List Node} {e : Expression},
      Node.AllComposed s.config ns →
      (ofDialect s.dialect).nodes s qualified current ns = .ok e → Firm e
  | [], e, _, h => by
    cases h
    exact hc
  | n :: rest, e, hn, h => by
    unfold Node.AllComposed at hn
    unfold nodes at h
    obtain ⟨next, hx, h⟩ := bind_eq_ok_iff.mp h
    exact firm_nodes ht (firm_node ht hc hn.1 hx) hn.2 h

theorem firm_node {qualified : Bool} (ht : s.table.Unquoted s.dialect) {current : Expression}
    (hc : Firm current) : ∀ {n : Node} {e : Expression}, n.Composed s.config →
      (ofDialect s.dialect).node s qualified current n = .ok e → Firm e
  | .property p, e, _, h => firm_apply hc (fun ps hps => by cases hps; simp) h
  | .method d name args t, e, hn, h => by
    unfold Node.Composed at hn
    unfold node at h
    exact firm_apply hc (fun ps hps => of_arguments ht hn hps) h

theorem of_arguments {qualified : Bool} (ht : s.table.Unquoted s.dialect) :
    ∀ {as : List Arg} {ps : List Param}, Arg.AllComposed s.config as →
      (ofDialect s.dialect).arguments s qualified as = .ok ps → ∀ x ∈ ps, x.Of Firm
  | [], ps, _, h => by
    cases h
    exact fun x hx => by cases hx
  | a :: rest, ps, ha, h => by
    unfold Arg.AllComposed at ha
    unfold arguments at h
    obtain ⟨p, hp, h⟩ := bind_eq_ok_iff.mp h
    obtain ⟨qs, hqs, h⟩ := bind_eq_ok_iff.mp h
    cases h
    exact List.forall_mem_cons.mpr ⟨of_arg ht ha.1 hp, of_arguments ht ha.2 hqs⟩

theorem of_arg {qualified : Bool} (ht : s.table.Unquoted s.dialect) :
    ∀ {a : Arg} {p : Param}, a.Composed s.config →
      (ofDialect s.dialect).arg s qualified a = .ok p → p.Of Firm
  | .value v, p, _, h => by
    cases h
    exact trivial
  | .expression e, p, ha, _ => by
    unfold Arg.Composed at ha
    exact ha.elim
  | .member m, p, ha, h => by
    unfold Arg.Composed at ha
    unfold arg at h
    obtain ⟨e, he, rfl⟩ := map_eq_ok_iff.mp h
    exact firm_member ht ha he

end

end Registry

variable {s : Scope} {b : Binding}

/-- **A composed member compiles to a firm fragment.** -/
theorem firm_compile {m : Member} {e : Expression} (ht : s.table.Unquoted s.dialect)
    (hm : m.Composed s.config) (h : m.compile s = .ok e) : Firm e :=
  Registry.firm_member ht hm h

/-! ## Columns -/

namespace Column

mutual

/-- A column that is no fragment, whose names do not claim to be quoted. -/
def Composed (c : Config) : Column → Prop
  | all => True
  | named n => c.dialect.Unquoted n
  | aliased n _ => c.dialect.Unquoted n
  | raw _ _ => False
  | member m => m.Composed c
  | aggregate _ args _ _ => AllComposed c args

/-- Columns that are composed. -/
def AllComposed (c : Config) : List Column → Prop
  | [] => True
  | x :: rest => Composed c x ∧ AllComposed c rest

end

theorem neutral_star : Neutral "*" := neutral_of (by decide)

theorem flow_join {W : Expression → Prop} {separator : String} (hs : Joint separator) :
    ∀ {parts : List Expression}, (∀ e ∈ parts, W e) →
      Piece.Flow W Outside Settled (Expression.join parts separator).pieces := by
  intro parts hp
  rw [Expression.join_eq]
  refine Expression.flow_ofPieces ?_
  cases parts with
  | nil => exact .nil settled_of_outside
  | cons e parts =>
    have hw : ∀ x ∈ (e :: parts).map Param.expression, x.Of W := by
      intro x hx
      obtain ⟨f, hf, rfl⟩ := List.mem_map.mp hx
      exact hp f hf
    have h := Piece.Flow.params hs .refl hw
    rwa [List.append_nil] at h

theorem neutral_opening (f : Aggregate) (distinct : Bool) :
    Neutral (f.name ++ if distinct then "(DISTINCT " else "(") := by
  refine Neutral.append ?_ ?_
  · cases f <;> exact neutral_of (by decide)
  · cases distinct <;> exact neutral_of (by decide)

theorem firm_applied {f : Aggregate} {distinct : Bool} {args : List Expression}
    (h : ∀ e ∈ args, Firm e) : Firm (applied f distinct args) := by
  have hinner : Firm (if args.isEmpty then Expression.raw "*" else .join args ", ") := by
    split
    · exact Registry.firm_raw neutral_star.word
    · exact firm_of_flow (flow_join (joint_of (by decide)) h)
  exact firm_of_flow <|
    Expression.flow_wrap hinner (neutral_opening f distinct) (joint_of (by decide)).tail

mutual

theorem firm_bare (ht : s.table.Unquoted s.dialect) :
    ∀ {c : Column} {e : Expression}, c.Composed s.config → c.bare s = .ok e → Firm e
  | all, e, _, h => by
    cases h
    exact Registry.firm_raw neutral_star.word
  | named n, e, hc, h => by
    unfold Composed at hc
    cases h
    exact Registry.firm_raw (s.dialect.word_quote hc)
  | aliased n _, e, hc, h => by
    unfold Composed at hc
    cases h
    exact Registry.firm_raw (s.dialect.word_quote hc)
  | raw _ _, e, hc, _ => by
    unfold Composed at hc
    exact hc.elim
  | member m, e, hc, h => by
    unfold Composed at hc
    exact firm_compile ht hc h
  | aggregate f args distinct _, e, hc, h => by
    unfold Composed at hc
    unfold bare at h
    obtain ⟨es, hes, rfl⟩ := map_eq_ok_iff.mp h
    exact firm_applied (firm_bareAll ht hc hes)

theorem firm_bareAll (ht : s.table.Unquoted s.dialect) :
    ∀ {cs : List Column} {es : List Expression}, AllComposed s.config cs →
      bareAll s cs = .ok es → ∀ e ∈ es, Firm e
  | [], es, _, h => by
    cases h
    exact fun e he => by cases he
  | c :: rest, es, hc, h => by
    unfold AllComposed at hc
    unfold bareAll at h
    obtain ⟨e, he, h⟩ := bind_eq_ok_iff.mp h
    obtain ⟨es', hes, h⟩ := bind_eq_ok_iff.mp h
    cases h
    intro x hx
    rcases List.mem_cons.mp hx with rfl | hx
    · exact firm_bare ht hc.1 he
    · exact firm_bareAll ht hc.2 hes x hx

end

theorem firm_selected (ht : s.table.Unquoted s.dialect) {c : Column} {e : Expression}
    (hc : c.Composed s.config) (h : c.selected s = .ok e) : Firm e := by
  obtain ⟨inner, hi, rfl⟩ := map_eq_ok_iff.mp h
  have hf := firm_bare ht hc hi
  split
  · exact firm_of_flow <| Expression.flow_wrap hf neutral_empty <|
      (joint_of (by decide)).append_word (s.dialect.word_quotePart _)
  · exact hf

end Column

theorem SortKey.firm_expression (ht : s.table.Unquoted s.dialect) {o : SortKey} {e : Expression}
    (hc : o.column.Composed s.config) (h : o.expression s = .ok e) : Firm e := by
  obtain ⟨inner, hi, rfl⟩ := map_eq_ok_iff.mp h
  have hword : Joint (if o.descending then " DESC" else " ASC") := by
    split <;> exact joint_of (by decide)
  exact firm_of_flow (Expression.flow_wrap (Column.firm_bare ht hc hi) neutral_empty hword.tail)

/-! ## Conditions -/

/-- An operand that is no fragment, whose name does not claim to be quoted. -/
def Operand.Composed (c : Config) : Operand → Prop
  | column name => c.dialect.Unquoted name
  | value _ => True
  | expression _ => False
  | member m => m.Composed c

theorem Operand.item_phrase (ht : s.table.Unquoted s.dialect) {o : Operand}
    (h : o.Composed s.config) : Phrase.Item b (o.phrase s) := by
  cases o with
  | column name => exact .word (s.dialect.word_quote h) Phrase.reads_nil
  | value v => exact Phrase.item_value v
  | expression e => exact h.elim
  | member m => exact Phrase.item_spliced fun e he => firm_compile ht h he

namespace Condition

mutual

/-- A condition without fragments whose operators have no quotes and no question marks. -/
def Composed (c : Config) : Condition → Prop
  | and items => AllComposed c items
  | or items => AllComposed c items
  | not inner => Composed c inner
  | compare left op right =>
    left.Composed c ∧ (∀ x ∈ op.toList, isPlain x = true) ∧ right.Composed c
  | nullCheck operand _ => operand.Composed c
  | inList operand _ _ => operand.Composed c
  | inExpression _ _ _ => False
  | between operand _ _ _ => operand.Composed c
  | expression _ => False
  | always => True
  | never => True

/-- Conditions that are composed. -/
def AllComposed (c : Config) : List Condition → Prop
  | [] => True
  | x :: rest => Composed c x ∧ AllComposed c rest

end

theorem joint_nullTest (isNull : Bool) : Joint (nullTest isNull) := by
  cases isNull <;> exact joint_of (by decide)

theorem joint_operator (negated : Bool) {op : String} (h : Neutral op) :
    Joint (operator negated op) := by
  refine Joint.append ?_ h
  cases negated <;> exact joint_of (by decide)

theorem item_enclosed {parens : Bool} {p : Phrase} (h : Phrase.Item b p) :
    Phrase.Item b (enclosed parens p) := by
  unfold enclosed
  split
  · exact Phrase.item_enclosed (by decide) (by decide) h
  · exact h

variable (b)

mutual

/-- **A composed condition is an item.** -/
theorem item_phrase (ht : s.table.Unquoted s.dialect) :
    ∀ {c : Condition}, c.Composed s.config → Phrase.Item b (c.phrase s)
  | and items, h => by
    unfold Composed at h
    exact Phrase.item_join (by decide) (item_operands ht h)
  | or items, h => by
    unfold Composed at h
    exact Phrase.item_join (by decide) (item_operands ht h)
  | not inner, h => by
    unfold Composed at h
    unfold phrase
    split
    · exact Phrase.item_nil
    · exact Phrase.item_enclosed (by decide) (by decide) (item_phrase ht h)
  | compare left op right, h => by
    unfold Composed at h
    obtain ⟨hl, ho, hr⟩ := h
    have hleft := Operand.item_phrase (b := b) ht hl
    unfold phrase
    split
    · exact hleft.append (.text (joint_nullTest _) Phrase.item_nil)
    · have hop : Phrase.Reads b Template.Settled Outside [.text " ", .text op, .text " "] :=
        .joint (by decide) <| .text (neutral_of_plain ho) <| .neutral (by decide) Phrase.reads_nil
      exact (hleft.append hop).append (Operand.item_phrase ht hr)
  | nullCheck operand isNull, h => by
    unfold Composed at h
    unfold phrase
    exact (Operand.item_phrase ht h).append (.text (joint_nullTest isNull) Phrase.item_nil)
  | inList operand values negated, h => by
    unfold Composed at h
    unfold phrase
    split
    · cases negated <;> exact .neutral (by decide) Phrase.item_nil
    · have hop : Joint (operator negated "IN (") := joint_operator negated (neutral_of (by decide))
      have hend : Phrase.Clause b [.text ")"] := .joint (by decide) Phrase.item_nil
      exact ((Operand.item_phrase ht h).append
        (.text hop (Phrase.item_ofValues values))).append hend
  | inExpression _ _ _, h => by
    unfold Composed at h
    exact h.elim
  | between operand low high negated, h => by
    unfold Composed at h
    unfold phrase
    have hop : Joint (operator negated "BETWEEN ") :=
      joint_operator negated (neutral_of (by decide))
    exact (Operand.item_phrase ht h).append <| .text hop <| .value <|
      .joint (by decide) (Phrase.item_value high)
  | expression _, h => by
    unfold Composed at h
    exact h.elim
  | always, _ => .neutral (by decide) Phrase.item_nil
  | never, _ => .neutral (by decide) Phrase.item_nil

theorem item_operands (ht : s.table.Unquoted s.dialect) :
    ∀ {items : List Condition}, AllComposed s.config items →
      ∀ p ∈ operands s items, Phrase.Item b p
  | [], _, p, hp => by cases hp
  | c :: rest, h, p, hp => by
    unfold AllComposed at h
    unfold operands at hp
    split at hp
    · exact item_operands ht h.2 p hp
    · rcases List.mem_cons.mp hp with rfl | hp
      · exact item_enclosed (item_phrase ht h.1)
      · exact item_operands ht h.2 p hp

end

end Condition

namespace ConditionGroup

/-- A group of composed conditions. -/
def Composed (c : Config) (g : ConditionGroup) : Prop := ∀ i ∈ g, i.2.Composed c

theorem joint_connective (w : Connective) : Joint w.text := by
  cases w <;> exact joint_of (by decide)

/-- **A composed group is an item.** -/
theorem item_phrase (b : Binding) (ht : s.table.Unquoted s.dialect) {g : ConditionGroup}
    (h : g.Composed s.config) : Phrase.Item b (g.phrase s) := by
  have hitem : ∀ i ∈ g.filter (!·.2.isEmpty),
      Phrase.Item b (Condition.enclosed i.2.needsParens (i.2.phrase s)) := fun i hi =>
    Condition.item_enclosed (Condition.item_phrase b ht (h i (List.mem_of_mem_filter hi)))
  unfold phrase
  cases hg : g.filter (!·.2.isEmpty) with
  | nil => exact Phrase.item_nil
  | cons i rest =>
    rw [hg] at hitem
    have hrest : Phrase.Clause b (rest.flatMap (item s)) := Phrase.reads_flatMap fun j hj =>
      .text (joint_connective j.1) (hitem j (List.mem_cons_of_mem _ hj))
    exact (hitem i List.mem_cons_self).append hrest

end ConditionGroup
end SqlWeave
