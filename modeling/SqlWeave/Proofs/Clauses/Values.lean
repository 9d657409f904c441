import SqlWeave.Proofs.Clauses.Modification
import SqlWeave.Proofs.Clauses.Selection
import SqlWeave.Proofs.Template.Opening

/-!
# Values are bound in the order of the clauses

Values are bound by their position, so a statement must have the values of its clauses, each as often
and in the order as the clauses are read. A clause has the values that it has when it is written
alone: nothing that is written before it counts.

What a phrase adds around its clauses is text, which has no values, so a phrase collects the clauses
of its parts (`Phrase.Collects.append`), and each statement is gone through once.

Results:
* `Phrase.Collects.append`, `Phrase.collects_join`: phrases after another collect their clauses.
* `collects_joinings`: joins collect their conditions, those of cross joins left out.
* `collects_select`, `collects_update`, `collects_delete`, `collects_deleteJoined`: what each
  statement collects.
* `statement_collects`: every statement has exactly the values of its clauses, in their order.
-/

namespace SqlWeave

/-! ## Clauses of a phrase -/

/-- The values of a fragment are those that clauses have, each written alone, one after another. -/
def Expression.Collects (e : Expression) (b : Binding) (clauses : List Phrase) : Prop :=
  ∃ alone, List.Forall₂ (fun c x => Phrase.toExpression c b = .ok x) clauses alone ∧
    e.values = alone.flatMap Expression.values

theorem Expression.Collects.congr {b : Binding} {clauses : List Phrase} {e e' : Expression}
    (h : e.Collects b clauses) (hv : e'.values = e.values) : e'.Collects b clauses := by
  obtain ⟨alone, ha, he⟩ := h
  exact ⟨alone, ha, hv.trans he⟩

namespace Phrase

variable {b : Binding} {p q c : Phrase} {cs ds : List Phrase}

/-- A phrase that can be written has the values of clauses. -/
def Collects (b : Binding) (p : Phrase) (clauses : List Phrase) : Prop :=
  ∀ e, p.toExpression b = .ok e → e.Collects b clauses

theorem collects_nil : Collects b [] [] := by
  rintro e ⟨⟩
  exact ⟨[], .nil, rfl⟩

/-- A phrase is a clause of itself. -/
theorem collects_self (p : Phrase) : Collects b p [p] :=
  fun e h => ⟨[e], .cons h .nil, (List.append_nil _).symm⟩

/-- **Phrases after another collect the clauses of both.** -/
theorem Collects.append (hp : Collects b p cs) (hq : Collects b q ds) :
    Collects b (p ++ q) (cs ++ ds) := by
  intro e h
  obtain ⟨xs, hw, rfl⟩ := toExpression_eq_ok_iff.mp h
  obtain ⟨ps, qs, hps, hqs, rfl⟩ := written_append_eq_ok_iff.mp hw
  obtain ⟨us, hus, hpv⟩ := hp _ (toExpression_eq_ok_iff.mpr ⟨ps, hps, rfl⟩)
  obtain ⟨vs, hvs, hqv⟩ := hq _ (toExpression_eq_ok_iff.mpr ⟨qs, hqs, rfl⟩)
  rw [values_of_written hps] at hpv
  rw [values_of_written hqs] at hqv
  refine ⟨us ++ vs, List.rel_append hus hvs, ?_⟩
  rw [values_of_written hw, Piece.values_append, List.flatMap_append, hpv, hqv]

/-- Text has no values. -/
theorem Collects.text_cons (s : String) (h : Collects b p cs) : Collects b (.text s :: p) cs := by
  have ht : Collects b [.text s] [] := by
    intro e he
    obtain ⟨xs, hw, rfl⟩ := toExpression_eq_ok_iff.mp he
    cases hw
    exact ⟨[], .nil, values_of_written (b := b) (p := [.text s]) rfl⟩
  exact ht.append h

/-- Words in front have no values. -/
theorem Collects.words_append (hp : Collects b p []) (hq : Collects b q ds) :
    Collects b (p ++ q) ds := hp.append hq

/-- Words at the end have no values. -/
theorem Collects.append_words (hp : Collects b p cs) (hq : Collects b q []) :
    Collects b (p ++ q) cs := by
  have h := hp.append hq
  rwa [List.append_nil] at h

/-- A clause without words may be counted too. -/
theorem Collects.absent (h : Collects b p cs) (hc : c = []) : Collects b p (cs ++ [c]) := by
  subst hc
  have h := h.append (collects_self (b := b) [])
  rwa [List.append_nil] at h

theorem IsCheck.collects (h : IsCheck p) : Collects b p [] := by
  intro e he
  obtain ⟨xs, hw, -⟩ := toExpression_eq_ok_iff.mp he
  obtain rfl := h.eq_nil hw
  exact collects_nil e he

/-- A clause behind its keyword, or nothing where it has no words. -/
theorem collects_onlyIf {holds : Bool} (s : String) (h : holds = false → c = []) :
    Collects b (onlyIf holds (.text s :: c)) [c] := by
  cases holds with
  | false =>
    rw [h rfl]
    exact collects_self []
  | true => exact (collects_self c).text_cons s

/-- Clauses with separators between them. -/
theorem collects_join {α : Type} {f g : α → Phrase} (separator : String)
    (h : ∀ x, Collects b (f x) [g x]) : ∀ xs : List α,
    Collects b (join separator (xs.map f)) (xs.map g)
  | [] => collects_nil
  | [x] => by
    rw [List.map_singleton, join_singleton]
    exact h x
  | x :: y :: xs => by
    have ih := collects_join separator h (y :: xs)
    unfold join at ih ⊢
    rw [List.map_cons, List.map_cons, List.intersperse_cons_cons, List.flatten_cons,
      List.flatten_cons]
    exact (h x).append (ih.text_cons separator)

end Phrase

namespace Query

open Phrase (Collects collects_self collects_nil collects_onlyIf collects_join)

variable {q : Query} {e : Expression}

/-! ## The clauses of a query -/

/-- The conditions of the joins in order, without those of cross joins, which have no words. -/
def joinConditions (q : Query) : List Phrase :=
  (q.joins.filter (·.kind ≠ .cross)).map fun j => j.on.phrase q.scope

/-- The columns that gather rows, with commas between them. -/
def groupList (q : Query) : Phrase :=
  Phrase.join ", " (q.groupBy.map fun c => Column.spliced (c.bare q.scope))

/-- The contents of cells. -/
def contents (cells : List Cell) : List Phrase := cells.map fun c => Phrase.ofParam c.value

/-- The clauses between the select list and the order. -/
def bodyClauses (q : Query) : List Phrase :=
  q.joinConditions ++
    [q.filters.phrase q.scope, q.groupList, q.having.phrase q.scope]

/-- The clauses of a selection. Where rows are numbered, the order stands in front. -/
def selectClauses (q : Query) : List Phrase :=
  if q.numbersRows then q.orderList :: q.selectList :: q.bodyClauses
  else q.selectList :: q.bodyClauses ++ [q.orderList]

/-- The clauses of an UPDATE. MySQL joins the tables before it sets columns. -/
def updateClauses (q : Query) (cells : List Cell) : List Phrase :=
  (if q.dialect = .mysql then q.joinConditions ++ contents cells
    else contents cells ++ q.joinConditions) ++ [q.filters.phrase q.scope] ++ [q.orderList]

/-- The clauses of a DELETE. -/
def deleteClauses (q : Query) : List Phrase :=
  q.joinConditions ++ [q.filters.phrase q.scope] ++ [q.orderList]

theorem joinConditions_of_nil (h : q.joins = []) : q.joinConditions = [] := by
  unfold joinConditions
  rw [h]
  rfl

theorem joinConditions_of_single (h : ¬ q.needsTarget = true) : q.joinConditions = [] :=
  joinConditions_of_nil (joins_of_needsTarget_eq_false (Bool.eq_false_iff.mpr h))

theorem updateClauses_mysql (hd : q.dialect = .mysql) (cells : List Cell) :
    q.updateClauses cells =
      q.joinConditions ++ contents cells ++ [q.filters.phrase q.scope] ++ [q.orderList] := by
  rw [updateClauses, if_pos hd]

theorem updateClauses_of_ne (hd : q.dialect ≠ .mysql) (cells : List Cell) :
    q.updateClauses cells =
      contents cells ++ q.joinConditions ++ [q.filters.phrase q.scope] ++ [q.orderList] := by
  rw [updateClauses, if_neg hd]

theorem orderList_of_nil (h : q.orderBy = []) : q.orderList = [] := by
  unfold orderList
  rw [h]
  rfl

/-! ## What the parts of a statement collect -/

variable {b : Binding}

/-- The words of a join have no values; its condition has, unless it is a cross join. -/
theorem collects_joining (q : Query) (j : Join) :
    Collects b (q.joining j) (([j].filter (·.kind ≠ .cross)).map fun j => j.on.phrase q.scope) := by
  have hwords : Collects b [.text " ", .text j.kind.text, .text " ",
      .text (j.table.declared q.dialect)] [] := by
    iterate 4 refine Collects.text_cons _ ?_
    exact collects_nil
  refine hwords.words_append ?_
  by_cases hc : j.kind = .cross
  · simpa [hc, Phrase.onlyIf] using collects_nil
  · have hon : Collects b (Phrase.onlyIf (!j.on.isEmpty) (.text " ON " :: j.on.phrase q.scope))
        [j.on.phrase q.scope] :=
      collects_onlyIf _ fun h => ConditionGroup.phrase_of_isEmpty _ (by simpa using h)
    simpa [hc] using hon

theorem collects_joinings (q : Query) : Collects b q.joinings q.joinConditions := by
  unfold joinings joinConditions
  induction q.joins with
  | nil => exact collects_nil
  | cons j joins ih =>
    rw [List.flatMap_cons, ← List.singleton_append (l := joins), List.filter_append,
      List.map_append]
    exact (q.collects_joining j).append ih

theorem collects_fromTables (q : Query) : Collects b q.fromTables q.joinConditions :=
  (q.collects_joinings.text_cons _).text_cons _

theorem collects_filtering (q : Query) : Collects b q.filtering [q.filters.phrase q.scope] :=
  collects_onlyIf _ fun h => ConditionGroup.phrase_of_isEmpty _ (by simpa using h)

theorem collects_ordering (q : Query) : Collects b q.ordering [q.orderList] :=
  collects_onlyIf _ fun h => orderList_of_nil (by simpa using h)

theorem collects_grouping (q : Query) :
    Collects b q.grouping [q.groupList, q.having.phrase q.scope] := by
  have hgroups : Collects b q.groups [q.groupList] :=
    collects_onlyIf _ fun h => by
      have hg : q.groupBy = [] := by simpa using h
      rw [hg]
      rfl
  have hhaving : Collects b q.groupFiltering [q.having.phrase q.scope] :=
    collects_onlyIf _ fun h => ConditionGroup.phrase_of_isEmpty _ (by simpa using h)
  exact hgroups.append hhaving

theorem collects_body (q : Query) : Collects b q.body q.bodyClauses := by
  have h := (q.collects_fromTables (b := b)).append (q.collects_filtering.append q.collects_grouping)
  rwa [← List.append_assoc] at h

theorem collects_plainSelect (q : Query) :
    Collects b q.plainSelect (q.selectList :: q.bodyClauses) := by
  have hdistinct : Collects b q.distinctWord [] := by
    unfold distinctWord
    cases q.distinct with
    | false => exact collects_nil
    | true => exact collects_nil.text_cons _
  exact ((hdistinct.text_cons _).append (collects_self q.selectList)).append q.collects_body

/-- Columns that are set have the contents of the cells. -/
theorem collects_set (d : Dialect) (cells : List Cell) :
    Collects b (.text " SET " :: Phrase.assignments d cells) (contents cells) :=
  (collects_join ", " (fun c => ((collects_self (Phrase.ofParam c.value)).text_cons _).text_cons _)
    cells).text_cons _

/-! ## What the statements collect -/

theorem collects_numberedRows (q : Query) (offset : Nat) :
    Collects b (q.numberedRows offset) (q.orderList :: q.selectList :: q.bodyClauses) := by
  have hpage : Collects b [.text ") ", .text (q.dialect.quotePart q.table.aliasOrName),
      .text " WHERE ", .text (q.dialect.quotePart rowNumberColumn),
      .text (Window.numbered offset q.limit).condition] [] := by
    iterate 5 refine Collects.text_cons _ ?_
    exact collects_nil
  have hcheck : Collects b (Phrase.failIf q.distinct
      (.notSupported .distinctWithRowNumber q.dialect.name)) [] :=
    (Phrase.isCheck_failIf _ _).collects
  have horder := hcheck.words_append ((collects_self q.orderList).text_cons
    "SELECT * FROM (SELECT ROW_NUMBER() OVER(ORDER BY ")
  have hlist := horder.append ((collects_self q.selectList).text_cons
    (") AS " ++ q.dialect.quotePart rowNumberColumn ++ ", "))
  exact (hlist.append q.collects_body).append_words hpage

/-- **A selection has the values of its clauses**, those of the order first where rows are
numbered. -/
theorem collects_select (h : q.select = .ok e) : e.Collects q.binding q.selectClauses := by
  unfold selectClauses
  cases q.selectForm with
  | inserted hn hi =>
    rw [hn]
    obtain ⟨e', he', -, hv⟩ := hi.toExpression h
    exact (q.collects_plainSelect.append q.collects_ordering e' he').congr hv
  | numbered hn _ offset _ hp =>
    rw [hn]
    refine q.collects_numberedRows offset e ?_
    rw [← hp]
    exact h
  | refused _ _ hf =>
    unfold select at h
    rw [hf] at h
    cases h

/-- What a statement without an order ends with. -/
theorem collects_unordered {p : Phrase} {cs : List Phrase} (ho : q.orderBy = [])
    (h : Collects b p cs) :
    Collects b (p ++ q.filtering) (cs ++ [q.filters.phrase q.scope] ++ [q.orderList]) :=
  (h.append q.collects_filtering).absent (orderList_of_nil ho)

/-- What a statement with an order and a page ends with. -/
theorem collects_ordered {p : Phrase} {cs : List Phrase} (page : String) (h : Collects b p cs) :
    Collects b (p ++ q.filtering ++ q.ordering ++ [.text page])
      (cs ++ [q.filters.phrase q.scope] ++ [q.orderList]) :=
  ((h.append q.collects_filtering).append q.collects_ordering).append_words
    (collects_nil.text_cons page)

/-- **An UPDATE has the values of its clauses.** -/
theorem collects_update {cells : List Cell} (h : q.update cells = .ok e) :
    e.Collects q.binding (q.updateClauses cells) := by
  obtain ⟨xs, hw⟩ := written_check_update h
  have hu := unrefused_of_written hw
  have hcheck := (isCheck_checkCells cells).append
    (q.isCheck_checkModification .update (!q.joins.isEmpty))
  refine hcheck.collects.words_append ?_ e h
  have hset := fun d => collects_set (b := q.binding) d cells
  cases hd : q.dialect with
  | sqlServer =>
    obtain ⟨ho, -, -⟩ := hu.sqlServer hd
    rw [updateClauses_of_ne (by simp [hd])]
    refine collects_unordered ho (Collects.text_cons _ (Collects.text_cons _ ?_))
    by_cases ht : q.needsTarget = true
    · rw [if_pos ht]
      exact ((hset .sqlServer).text_cons _).append q.collects_fromTables
    · rw [if_neg ht, joinConditions_of_single ht, List.append_nil]
      exact (hset .sqlServer).text_cons _
  | mysql =>
    rw [updateClauses_mysql hd]
    refine collects_ordered _ ?_
    exact ((q.collects_joinings.text_cons _).text_cons _).append (hset .mysql)
  | sqlite =>
    obtain ⟨hj, -, -, ho, -⟩ := hu.sqlite hd
    rw [updateClauses_of_ne (by simp [hd]), joinConditions_of_nil hj, List.append_nil]
    refine collects_unordered ho (Collects.words_append ?_ (hset .sqlite))
    refine Collects.text_cons _ (Collects.text_cons _ ?_)
    cases q.table.aliasName with
    | none => exact collects_nil
    | some a => exact (collects_nil.text_cons _).text_cons _
  | firebird =>
    obtain ⟨hj, -, -⟩ := hu.firebird hd
    rw [updateClauses_of_ne (by simp [hd]), joinConditions_of_nil hj, List.append_nil]
    exact collects_ordered _ (((hset .firebird).text_cons _).text_cons _)

/-- A DELETE that names its tables has no order. -/
theorem collects_deleteFrom (ho : q.orderBy = []) (targets : List String) :
    Collects b (q.deleteFrom targets) q.deleteClauses :=
  collects_unordered ho ((q.collects_fromTables.text_cons _).text_cons _)

/-- **A DELETE has the values of its clauses.** -/
theorem collects_delete (h : q.delete = .ok e) : e.Collects q.binding q.deleteClauses := by
  obtain ⟨xs, hw⟩ := written_check_delete h
  have hu := unrefused_of_written hw
  refine (q.isCheck_checkModification .delete q.needsTarget).collects.words_append ?_ e h
  -- a table alone joins no others
  have htable : ∀ s t : String, Collects q.binding [.text s, .text t] [] := fun s t =>
    (collects_nil.text_cons t).text_cons s
  cases hd : q.dialect with
  | sqlServer =>
    obtain ⟨ho, -, -⟩ := hu.sqlServer hd
    refine collects_unordered ho (Collects.text_cons _ (Collects.text_cons _ ?_))
    by_cases ht : q.needsTarget = true
    · rw [if_pos ht]
      exact q.collects_fromTables.text_cons _
    · rw [if_neg ht, joinConditions_of_single ht]
      exact htable _ _
  | mysql =>
    by_cases ht : q.needsTarget = true
    · obtain ⟨-, -, -, ho⟩ := hu.mysql hd
      simp only [if_pos ht]
      exact collects_deleteFrom (ho ht) _
    · simp only [if_neg ht]
      rw [deleteClauses, joinConditions_of_single ht]
      exact collects_ordered _ (htable _ _)
  | sqlite =>
    obtain ⟨hj, -, -, ho, -⟩ := hu.sqlite hd
    rw [deleteClauses, joinConditions_of_nil hj]
    exact collects_unordered ho (htable _ _)
  | firebird =>
    obtain ⟨hj, -, -⟩ := hu.firebird hd
    rw [deleteClauses, joinConditions_of_nil hj]
    exact collects_ordered _ (htable _ _)

theorem collects_deleteJoined (h : q.deleteJoined = .ok e) :
    e.Collects q.binding q.deleteClauses := by
  rcases deleteJoined_cases h with h | ⟨hd, ⟨xs, hw⟩, targets, h⟩
  · exact collects_delete h
  · obtain ⟨-, -, -, ho⟩ := (unrefused_of_written hw).mysql hd
    have hcheck := q.isCheck_checkModification .delete true
    exact hcheck.collects.words_append (collects_deleteFrom (ho rfl) targets) e h

/-- **A statement has exactly the values of its clauses, in their order.** For every engine and
query, the values of a selection that is built are those that the select list, the conditions of the
joins, the conditions on rows, the columns that gather rows, the conditions on these and the order
have, each written alone; where rows are numbered, the order comes first and only there. An UPDATE
has the values of its cells, of the joins, which MySQL puts in front of the cells, of the conditions
and of the order, and a DELETE those of the joins, the conditions and the order. The condition of a
cross join is not written. -/
theorem statement_collects (q : Query) (e : Expression) :
    (q.select = .ok e → e.Collects q.binding q.selectClauses) ∧
    (∀ cells, q.update cells = .ok e → e.Collects q.binding (q.updateClauses cells)) ∧
    (q.delete = .ok e ∨ q.deleteJoined = .ok e → e.Collects q.binding q.deleteClauses) :=
  ⟨collects_select, fun _ => collects_update,
    fun h => h.elim collects_delete collects_deleteJoined⟩

/-- The third and fourth invoice of a customer, by the distance of their amounts from one that is
given. Rows are numbered. -/
def nearInvoices : Query :=
  { Query.new ⟨"invoices", some "i"⟩ { Config.new .sqlServer with useOldPagination := true } with
    joins := [⟨.inner, ⟨"customers", some "c"⟩, [(.and, .equals "c.name" (.text "Ada"))]⟩]
    filters := [(.and, .equals "i.state" (.text "open"))]
    orderBy := [⟨.raw (.ofPieces [.text "i.amount - ", .bound (.text "99")]) none, false⟩]
    limit := some 2
    offset := some 2 }

/-- The selection of them. -/
def nearSelection : Expression :=
  .ofPieces [.text "SELECT * FROM (SELECT ROW_NUMBER() OVER(ORDER BY i.amount - ",
    .bound (.text "99"), .text " ASC) AS [grammar_rownum], * FROM [invoices] [i]",
    .text " INNER JOIN [customers] [c] ON [c].[name] = ", .bound (.text "Ada"),
    .text " WHERE [i].[state] = ", .bound (.text "open"),
    .text ") [i] WHERE [grammar_rownum] BETWEEN 3 AND 4"]

theorem nearSelection_collects : nearInvoices.select = .ok nearSelection ∧
    nearSelection.Collects nearInvoices.binding nearInvoices.selectClauses := by
  have h : nearInvoices.select = .ok nearSelection := Phrase.toExpression_of_normal rfl rfl
  exact ⟨h, (statement_collects nearInvoices nearSelection).1 h⟩

/-- A cross join with a condition, which is not written. -/
def crossed : Query :=
  { Query.new ⟨"T", none⟩ (.new .sqlServer) with
    joins := [⟨.cross, ⟨"U", none⟩, [(.and, .equals "x" (.text "t"))]⟩] }

/-- The condition of a cross join has a value that the statement has not. -/
theorem crossed_select_lacks : ∃ e, crossed.select = .ok e ∧
    ¬ e.Collects crossed.binding (crossed.selectList ::
      crossed.joins.map (fun j => j.on.phrase crossed.scope) ++
      [crossed.filters.phrase crossed.scope, crossed.groupList,
        crossed.having.phrase crossed.scope, crossed.orderList]) := by
  refine ⟨.ofPieces [.text "SELECT * FROM [T] CROSS JOIN [U]"],
    Phrase.toExpression_of_normal rfl rfl, ?_⟩
  rintro ⟨alone, ha, hv⟩
  obtain ⟨list, _, -, hrest, rfl⟩ := List.forall₂_cons_left_iff.mp ha
  obtain ⟨condition, rest, hcondition, -, rfl⟩ := List.forall₂_cons_left_iff.mp hrest
  have hvalue : Value.text "t" ∈ condition.values := by
    cases hcondition
    exact List.mem_singleton_self _
  have hnone : Value.text "t" ∈ (list :: condition :: rest).flatMap Expression.values :=
    List.mem_flatMap_of_mem (List.mem_cons_of_mem list List.mem_cons_self) hvalue
  rw [← hv] at hnone
  cases hnone

end Query
end SqlWeave
