import SqlWeave.Proofs.Redaction.Member
import SqlWeave.Query.Basic
import SqlWeave.Row

/-!
# Redacted queries

A redacted query keeps its tables, names, operators, limits and options, and has redacted values in
its columns, conditions and orders. What a redacted part of a query says is the redacted phrase of
the part, because nothing that decides about the words of a condition reads the content of a value:
the test for the missing value, an empty list, a fragment without text, the count of the conditions
that a list writes.

Results:
* `Column.bare_redact`, `Column.selected_redact`: columns.
* `Condition.phrase_redact`, `ConditionGroup.phrase_redact`: conditions.
-/

namespace SqlWeave

/-! ## Phrases -/

/-- A part of a statement with its value redacted. -/
def Part.redact : Part → Part
  | .value v => .value v.redact
  | .bound v => .bound v.redact
  | part => part

namespace Phrase

/-- A phrase with its values redacted. -/
def redact (p : Phrase) : Phrase := p.map Part.redact

@[simp] theorem redact_nil : redact [] = [] := rfl

@[simp] theorem redact_text (s : String) (p : Phrase) :
    redact (.text s :: p) = .text s :: p.redact := rfl

@[simp] theorem redact_value (v : Value) (p : Phrase) :
    redact (.value v :: p) = .value v.redact :: p.redact := rfl

@[simp] theorem redact_failure (e : Error) (p : Phrase) :
    redact (.failure e :: p) = .failure e :: p.redact := rfl

@[simp] theorem redact_append (p q : Phrase) : redact (p ++ q) = p.redact ++ q.redact :=
  List.map_append

@[simp] theorem redact_join (separator : String) (phrases : List Phrase) :
    (join separator phrases).redact = join separator (phrases.map redact) := by
  unfold join redact
  rw [List.map_flatten, map_intersperse]
  rfl

@[simp] theorem redact_failIf (bad : Bool) (e : Error) : (failIf bad e).redact = failIf bad e := by
  cases bad <;> rfl

@[simp] theorem redact_onlyIf (holds : Bool) (p : Phrase) :
    (onlyIf holds p).redact = onlyIf holds p.redact := by
  cases holds <;> rfl

theorem ofLeaf_redact (p : Piece) : ofLeaf p.redact = (ofLeaf p).redact := by cases p <;> rfl

theorem ofExpression_redact (e : Expression) : ofExpression e.redact = (ofExpression e).redact := by
  unfold ofExpression
  rw [e.leaves_redact]
  induction e.leaves with
  | nil => rfl
  | cons p ps ih =>
    rw [List.map_cons, List.flatMap_cons, List.flatMap_cons, ih, ofLeaf_redact, redact_append]

theorem ofParam_redact (p : Param) : ofParam p.redact = (ofParam p).redact := by
  cases p with
  | value v => rfl
  | expression e => exact ofExpression_redact e

theorem ofValues_redact (values : List Value) :
    ofValues (values.map Value.redact) = (ofValues values).redact := by
  unfold ofValues
  rw [redact_join, List.map_map, List.map_map]
  rfl

/-- A fragment found alike is written alike. -/
theorem ofResult_redact {r r' : Result Expression} (h : r' = r.map Expression.redact) :
    ofResult (r'.map ofExpression) = (ofResult (r.map ofExpression)).redact := by
  subst h
  cases r with
  | error e => rfl
  | ok e => exact ofExpression_redact e

end Phrase

/-! ## Columns -/

namespace Column

mutual

/-- A column with its values redacted. -/
def redact : Column → Column
  | raw e aliasName => raw e.redact aliasName
  | member m => member m.redact
  | aggregate f args distinct aliasName => aggregate f (redactAll args) distinct aliasName
  | c => c

/-- Columns with their values redacted. -/
def redactAll : List Column → List Column
  | [] => []
  | c :: rest => redact c :: redactAll rest

end

theorem isAll_redact (c : Column) : c.redact.isAll = c.isAll := by
  cases c <;> simp [redact, isAll]

theorem isAggregate_redact (c : Column) : c.redact.isAggregate = c.isAggregate := by
  cases c <;> simp [redact, isAggregate]

theorem aliasName?_redact (c : Column) : c.redact.aliasName? = c.aliasName? := by
  cases c <;> simp [redact, aliasName?, Member.aliasName_redact]

theorem applied_redact (f : Aggregate) (distinct : Bool) (args : List Expression) :
    applied f distinct (args.map Expression.redact) = (applied f distinct args).redact := by
  unfold applied
  rw [Expression.redact_wrap, List.isEmpty_map]
  by_cases h : args.isEmpty
  · simp [h, Expression.redact_raw]
  · simp [h, Expression.redact_join]

mutual

theorem bare_redact (s : Scope) : ∀ c : Column,
    c.redact.bare s = (c.bare s).map Expression.redact
  | all => by unfold redact bare; rw [Except.map, Expression.redact_raw]
  | named n => by unfold redact bare; rw [Except.map, Expression.redact_raw]
  | aliased n a => by unfold redact bare; rw [Except.map, Expression.redact_raw]
  | raw e a => by unfold redact bare; rfl
  | member m => by unfold redact bare; exact m.compile_redact s
  | aggregate f args distinct a => by
    unfold redact bare
    rw [bareAll_redact s args]
    cases bareAll s args with
    | error e => rfl
    | ok es => exact congrArg Except.ok (applied_redact f distinct es)

theorem bareAll_redact (s : Scope) : ∀ cs : List Column,
    bareAll s (redactAll cs) = (bareAll s cs).map (·.map Expression.redact)
  | [] => rfl
  | c :: rest => by
    unfold redactAll bareAll
    exact bind_eq_map_bind (bare_redact s c) fun e =>
      bind_eq_map_bind (bareAll_redact s rest) fun es => rfl

end

theorem selected_redact (s : Scope) (c : Column) :
    c.redact.selected s = (c.selected s).map Expression.redact := by
  unfold selected
  rw [bare_redact, aliasName?_redact]
  cases bare s c with
  | error e => rfl
  | ok e =>
    cases c.aliasName? with
    | none => rfl
    | some a => exact congrArg Except.ok (e.redact_wrap "" _).symm

theorem spliced_redact {r r' : Result Expression} (h : r' = r.map Expression.redact) :
    spliced r' = (spliced r).redact := Phrase.ofResult_redact h

end Column

namespace SortKey

/-- A column of an order with its values redacted. -/
def redact (o : SortKey) : SortKey := { o with column := o.column.redact }

theorem expression_redact (s : Scope) (o : SortKey) :
    o.redact.expression s = (o.expression s).map Expression.redact := by
  unfold expression redact
  rw [Column.bare_redact]
  cases o.column.bare s with
  | error e => rfl
  | ok e => exact congrArg Except.ok (e.redact_wrap "" _).symm

end SortKey

/-! ## Conditions -/

namespace Operand

/-- An operand with its values redacted. -/
def redact : Operand → Operand
  | column name => column name
  | value v => value v.redact
  | expression e => expression e.redact
  | member m => member m.redact

theorem isNull_redact (o : Operand) : o.redact.isNull = o.isNull := by
  cases o with
  | value v => exact v.isNull_redact
  | _ => rfl

theorem phrase_redact (s : Scope) (o : Operand) : o.redact.phrase s = (o.phrase s).redact := by
  cases o with
  | column name => rfl
  | value v => rfl
  | expression e => exact Phrase.ofExpression_redact e
  | member m => exact Phrase.ofResult_redact (m.compile_redact s)

end Operand

namespace Condition

mutual

/-- A condition with its values redacted. -/
def redact : Condition → Condition
  | and items => and (redactAll items)
  | or items => or (redactAll items)
  | not inner => not (redact inner)
  | compare left op right => compare left.redact op right.redact
  | nullCheck operand isNull => nullCheck operand.redact isNull
  | inList operand values negated => inList operand.redact (values.map Value.redact) negated
  | inExpression operand e negated => inExpression operand.redact e.redact negated
  | between operand low high negated => between operand.redact low.redact high.redact negated
  | expression e => expression e.redact
  | always => always
  | never => never

/-- Conditions with their values redacted. -/
def redactAll : List Condition → List Condition
  | [] => []
  | c :: rest => redact c :: redactAll rest

end

mutual

theorem isEmpty_redact : ∀ c : Condition, c.redact.isEmpty = c.isEmpty
  | and items => by unfold redact isEmpty; exact allEmpty_redact items
  | or items => by unfold redact isEmpty; exact allEmpty_redact items
  | not inner => by unfold redact isEmpty; exact isEmpty_redact inner
  | expression e => by unfold redact isEmpty; exact e.isEmpty_redact
  | compare .. | nullCheck .. | inList .. | inExpression .. | between .. | always | never => by
    unfold redact isEmpty; rfl

theorem allEmpty_redact : ∀ items : List Condition, allEmpty (redactAll items) = allEmpty items
  | [] => rfl
  | c :: rest => by
    unfold redactAll allEmpty
    rw [isEmpty_redact c, allEmpty_redact rest]

end

theorem length_written_redact (items : List Condition) :
    (written (redactAll items)).length = (written items).length := by
  unfold written
  induction items with
  | nil => rfl
  | cons c rest ih =>
    rw [redactAll, List.filter_cons, List.filter_cons, isEmpty_redact]
    split <;> simp [ih]

theorem needsParens_redact (c : Condition) : c.redact.needsParens = c.needsParens := by
  cases c <;> simp [redact, needsParens, length_written_redact]

theorem enclosed_redact (parens : Bool) (p : Phrase) :
    enclosed parens p.redact = (enclosed parens p).redact := by
  cases parens <;> simp [enclosed]

mutual

/-- **A redacted condition says the redacted phrase.** -/
theorem phrase_redact (s : Scope) : ∀ c : Condition, c.redact.phrase s = (c.phrase s).redact
  | and items => by
    unfold redact phrase
    rw [operands_redact s items, Phrase.redact_join]
  | or items => by
    unfold redact phrase
    rw [operands_redact s items, Phrase.redact_join]
  | not inner => by
    unfold redact phrase
    rw [isEmpty_redact inner, phrase_redact s inner]
    split <;> simp
  | compare left op right => by
    unfold redact phrase
    rw [right.isNull_redact, left.phrase_redact, right.phrase_redact]
    split <;> simp
  | nullCheck operand isNull => by
    unfold redact phrase
    rw [operand.phrase_redact, Phrase.redact_append]
    rfl
  | inList operand values negated => by
    unfold redact phrase
    rw [List.isEmpty_map, operand.phrase_redact, Phrase.ofValues_redact]
    split <;> simp
  | inExpression operand e negated => by
    unfold redact phrase
    rw [operand.phrase_redact, Phrase.ofExpression_redact]
    simp
  | between operand low high negated => by
    unfold redact phrase
    rw [operand.phrase_redact]
    simp
  | expression e => by
    unfold redact phrase
    exact Phrase.ofExpression_redact e
  | always => by unfold redact phrase; rfl
  | never => by unfold redact phrase; rfl

theorem operands_redact (s : Scope) : ∀ items : List Condition,
    operands s (redactAll items) = (operands s items).map Phrase.redact
  | [] => rfl
  | c :: rest => by
    unfold redactAll operands
    rw [isEmpty_redact, needsParens_redact, phrase_redact s c, operands_redact s rest,
      enclosed_redact]
    split <;> simp

end

end Condition

namespace ConditionGroup

/-- A group with the values of its conditions redacted. -/
def redact (g : ConditionGroup) : ConditionGroup := g.map fun i => (i.1, i.2.redact)

theorem isEmpty_redact (g : ConditionGroup) : g.redact.isEmpty = g.isEmpty := by
  unfold isEmpty redact
  rw [List.all_map]
  congr 1
  funext i
  exact i.2.isEmpty_redact

theorem phrase_redact (s : Scope) (g : ConditionGroup) :
    g.redact.phrase s = (g.phrase s).redact := by
  have hi : ∀ i : Connective × Condition, item s (i.1, i.2.redact) = (item s i).redact := by
    intro i
    unfold item
    rw [i.2.needsParens_redact, i.2.phrase_redact, Condition.enclosed_redact, Phrase.redact_text]
  have h : (g.redact.filter (!·.2.isEmpty)).flatMap (item s) =
      Phrase.redact ((g.filter (!·.2.isEmpty)).flatMap (item s)) := by
    unfold redact
    induction g with
    | nil => rfl
    | cons i g ih =>
      rw [List.map_cons, List.filter_cons, List.filter_cons, i.2.isEmpty_redact]
      split
      · rw [List.flatMap_cons, List.flatMap_cons, ih, hi, Phrase.redact_append]
      · exact ih
  unfold phrase
  rw [h]
  exact List.map_drop.symm

end ConditionGroup

/-! ## Queries and rows -/

/-- A joined table with the values of its condition redacted. -/
def Join.redact (j : Join) : Join := { j with on := j.on.redact }

/-- A query with its values redacted: two queries are alike when redacted iff they differ in
nothing but the content of values that statements bind. -/
def Query.redact (q : Query) : Query :=
  { q with
    columns := q.columns.map Column.redact
    joins := q.joins.map Join.redact
    filters := q.filters.redact
    groupBy := q.groupBy.map Column.redact
    having := q.having.redact
    orderBy := q.orderBy.map SortKey.redact }

/-- A cell with its values redacted. -/
def Cell.redact (c : Cell) : Cell := ⟨c.name, c.value.redact⟩

/-- A row with its values redacted. -/
def Row.redact (r : Row) : Row := ⟨r.cells.map Cell.redact⟩

namespace Row

theorem names_redact (r : Row) : r.redact.names = r.names := by
  unfold names redact
  rw [List.map_map]
  rfl

theorem cell?_redact (r : Row) (name : String) :
    r.redact.cell? name = (r.cell? name).map Cell.redact := by
  unfold cell? redact
  rw [List.find?_map]
  rfl

theorem sameShape_redact (a b : Row) : a.redact.sameShape b.redact = a.sameShape b := by
  have h : ∀ as bs : List Cell,
      sameNames (as.map Cell.redact) (bs.map Cell.redact) = sameNames as bs := by
    intro as
    induction as with
    | nil => intro bs; cases bs <;> rfl
    | cons a as ih =>
      intro bs
      cases bs with
      | nil => rfl
      | cons b bs => exact congrArg _ (ih bs)
  exact h a.cells b.cells

end Row
end SqlWeave
