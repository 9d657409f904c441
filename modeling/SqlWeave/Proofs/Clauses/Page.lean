import SqlWeave.Proofs.Clauses.Modification
import SqlWeave.Proofs.Clauses.Selection
import SqlWeave.Proofs.Clauses.Window
import SqlWeave.Proofs.Template.Opening

/-!
# All pages are the same rows

A statement for a page is the statement for all rows with the words for the page at one place, or
numbers the rows of it and states a condition on the numbers. The words of each engine hold the rows
behind the offset, as many as the limit allows, so the same rows are selected in every way that an
engine knows.

Results:
* `states_selectPage`, `states_changePage`: the words for a page hold its rows.
* `select_pages`, `update_pages`, `delete_pages`: where the words stand in a statement.
* `statement_pages`: every statement is that of all rows with the words for its page.
-/

namespace SqlWeave

namespace Query

open Phrase (Inserts)

variable {q : Query} {e : Expression}

/-! ## Selections -/

/-- **The words for the page of a selection hold its rows**, for every engine. -/
theorem states_selectPage (q : Query) : Window.States q.selectPage q.limit q.offset := by
  unfold selectPage
  cases q.dialect with
  | sqlServer =>
    cases q.offset with
    | none => exact Window.states_top q.limit
    | some k =>
      by_cases hold : q.config.useOldPagination = true
      · simp only [if_pos hold]
        exact Window.states_condition k q.limit
      · simp only [if_neg hold]
        exact Window.states_offsetFetch k q.limit
  | mysql => exact Window.states_limitOffset_greatest q.limit q.offset
  | sqlite => exact Window.states_limitOffset_negative q.limit q.offset
  | firebird => exact Window.states_firstSkip q.limit q.offset

/-- A selection numbers the rows of another one, in the order of these, and the words for the page
are a condition on the numbers. -/
def NumbersRowsOf (q : Query) (whole e : Expression) : Prop :=
  let number := q.dialect.quotePart rowNumberColumn
  ∃ rows order : List Piece,
    whole = .ofPieces (.text "SELECT " :: rows ++ .text " ORDER BY " :: order) ∧
    e = .ofPieces (.text "SELECT * FROM (SELECT ROW_NUMBER() OVER(ORDER BY " :: order ++
      .text (") AS " ++ number ++ ", ") :: rows ++ [.text ") ",
        .text (q.dialect.quotePart q.table.aliasOrName), .text " WHERE ", .text number,
        .text q.selectPage])

/-- An ordered selection of all rows, piece by piece. -/
theorem unpaged_select_of_written {list body order : List Piece} (hdistinct : q.distinct = false)
    (ho : q.orderBy ≠ []) (hlist : q.selectList.written q.binding = .ok list)
    (hbody : q.body.written q.binding = .ok body)
    (horder : q.orderList.written q.binding = .ok order) :
    q.unpaged.select =
      .ok (.ofPieces (.text "SELECT " :: (list ++ body) ++ .text " ORDER BY " :: order)) := by
  have hselect : q.plainSelect = .text "SELECT " :: (q.selectList ++ q.body) := by
    simp [plainSelect, distinctWord, hdistinct, Phrase.onlyIf]
  have hordering : q.ordering = .text " ORDER BY " :: q.orderList := by
    simp [ordering, ho, Phrase.onlyIf]
  have hrows := Phrase.written_append_eq_ok_iff.mpr ⟨list, body, hlist, hbody, rfl⟩
  rw [select_unpaged, hselect, hordering]
  refine Phrase.toExpression_eq_ok_iff.mpr ⟨_, Phrase.written_append_eq_ok_iff.mpr
    ⟨.text "SELECT " :: (list ++ body), .text " ORDER BY " :: order, ?_, ?_, rfl⟩, rfl⟩
  · rw [Phrase.written_text, hrows]
    rfl
  · rw [Phrase.written_text, horder]
    rfl

theorem numbersRowsOf (ho : q.orderBy ≠ []) {offset : Nat} (hk : q.offset = some offset)
    (hn : q.numbersRows = true) (h : (q.numberedRows offset).toExpression q.binding = .ok e) :
    ∃ whole, q.unpaged.select = .ok whole ∧ q.NumbersRowsOf whole e := by
  have hpage : q.selectPage = (Window.numbered offset q.limit).condition := by
    simp only [numbersRows, Bool.and_eq_true, decide_eq_true_eq] at hn
    obtain ⟨⟨hd, -⟩, hold⟩ := hn
    simp [selectPage, hd, hk, hold]
  obtain ⟨xs, hw, rfl⟩ := Phrase.toExpression_eq_ok_iff.mp h
  unfold numberedRows at hw
  obtain ⟨us, tail, hu, htail, rfl⟩ := Phrase.written_append_eq_ok_iff.mp hw
  obtain ⟨vs, body, hv, hbody, rfl⟩ := Phrase.written_append_eq_ok_iff.mp hu
  obtain ⟨ws, list, hlast, hlist, rfl⟩ := Phrase.written_append_eq_ok_iff.mp hv
  obtain ⟨check, order, hcheck, horder, rfl⟩ := Phrase.written_append_eq_ok_iff.mp hlast
  rw [Phrase.written_text, map_eq_ok_iff] at hlist horder
  obtain ⟨list, hlist, rfl⟩ := hlist
  obtain ⟨order, horder, rfl⟩ := horder
  have hdistinct := Phrase.eq_false_of_written_failIf hcheck
  rw [hdistinct] at hcheck
  cases hcheck
  cases htail
  exact ⟨_, unpaged_select_of_written hdistinct ho hlist hbody horder, list ++ body, order, rfl,
    by simp [hpage]⟩

/-- **A selection is that of all rows with the words for the page at one place**, or numbers the
rows of it. -/
theorem select_pages (h : q.select = .ok e) : ∃ whole, q.unpaged.select = .ok whole ∧
    if q.numbersRows then q.NumbersRowsOf whole e else whole.Inserts q.selectPage e := by
  cases q.selectForm with
  | inserted hn hi =>
    obtain ⟨whole, hwhole, hi, -⟩ := hi.toExpression h
    refine ⟨whole, q.select_unpaged.trans hwhole, ?_⟩
    rwa [if_neg (by simp [hn])]
  | numbered hn ho offset hk hp =>
    unfold select at h
    rw [hp] at h
    obtain ⟨whole, hwhole, hw⟩ := numbersRowsOf ho hk hn h
    refine ⟨whole, hwhole, ?_⟩
    rwa [if_pos hn]
  | refused _ _ hf =>
    unfold select at h
    rw [hf] at h
    cases h

/-! ## Statements that change rows -/

/-- The words of an engine for the page of a statement that changes rows. -/
def changePage (q : Query) : String :=
  match q.dialect with
  | .sqlServer => Window.top q.limit
  | .mysql => Window.limitOffset Window.greatestLimit q.limit q.offset
  | .sqlite => ""
  | .firebird => Window.rows q.limit q.offset

/-- **The words for the page hold its rows**, where the engine does not refuse the page. -/
theorem states_changePage {m : Modification} {manyTables : Bool} (h : q.Unrefused m manyTables) :
    Window.States q.changePage q.limit q.offset := by
  unfold changePage
  cases hd : q.dialect with
  | sqlServer =>
    obtain ⟨-, hk, -⟩ := h.sqlServer hd
    rw [hk]
    exact Window.states_top q.limit
  | mysql => exact Window.states_limitOffset_greatest q.limit q.offset
  | sqlite =>
    obtain ⟨-, hl, hk, -, -⟩ := h.sqlite hd
    rw [hl, hk]
    exact Window.states_top none
  | firebird =>
    obtain ⟨-, -, hk⟩ := h.firebird hd
    exact Window.states_rows hk

/-- What is not refused on a page is not refused on all rows. -/
theorem unrefused_unpaged {m : Modification} {manyTables : Bool} (h : q.Unrefused m manyTables) :
    q.unpaged.Unrefused m manyTables := by
  have hdialect : q.unpaged.dialect = q.dialect := rfl
  unfold Unrefused refusedClauses selectOnlyClauses at h ⊢
  rw [hdialect]
  cases hd : q.dialect <;> simp_all [unpaged]

theorem checkModification_eq_nil {m : Modification} {manyTables : Bool}
    (h : q.Unrefused m manyTables) (hs : q.checkSafe m = []) :
    q.checkModification m manyTables = [] := by
  unfold checkModification refuse
  rw [hs, List.append_nil, List.flatMap_eq_nil_iff]
  rintro ⟨present, clause⟩ hc
  obtain rfl : present = false := h _ hc
  rfl

/-- A statement that is not refused on a page is not refused on all rows, and has no checks left. -/
theorem checks_of_written {m : Modification} {manyTables : Bool} {xs : List Piece}
    (h : (q.checkModification m manyTables).written q.binding = .ok xs) :
    q.checkModification m manyTables = [] ∧ q.unpaged.checkModification m manyTables = [] := by
  have hnil := (q.isCheck_checkModification m manyTables).eq_nil h
  have hu := unrefused_of_written h
  refine ⟨hnil, checkModification_eq_nil (unrefused_unpaged hu) ?_⟩
  exact (List.append_eq_nil_iff.mp hnil).2

/-- The words for the page stand at one place of an UPDATE. -/
theorem inserts_update {cells : List Cell} (hc : checkCells cells = [])
    (hm : q.checkModification .update (!q.joins.isEmpty) = [])
    (hm' : q.unpaged.checkModification .update (!q.joins.isEmpty) = []) :
    Inserts q.changePage (q.unpaged.updatePhrase cells) (q.updatePhrase cells) := by
  have hdialect : q.unpaged.dialect = q.dialect := rfl
  have hjoins : q.unpaged.joins = q.joins := rfl
  unfold updatePhrase changePage
  rw [hjoins, hdialect, hc, hm, hm']
  cases hd : q.dialect with
  | sqlServer => exact Phrase.inserts_instead [.text "UPDATE "] _ _
  | mysql => exact Phrase.inserts_instead _ _ []
  | sqlite => exact Phrase.inserts_nothing _
  | firebird => exact Phrase.inserts_instead _ _ []

theorem inserts_delete (hm : q.checkModification .delete q.needsTarget = [])
    (hm' : q.unpaged.checkModification .delete q.needsTarget = [])
    (hu : q.Unrefused .delete q.needsTarget) :
    Inserts q.changePage q.unpaged.deletePhrase q.deletePhrase := by
  have hdialect : q.unpaged.dialect = q.dialect := rfl
  have htarget : q.unpaged.needsTarget = q.needsTarget := rfl
  unfold deletePhrase changePage
  rw [htarget, hdialect, hm, hm']
  cases hd : q.dialect with
  | sqlServer => exact Phrase.inserts_instead [.text "DELETE "] _ _
  | mysql =>
    by_cases ht : q.needsTarget = true
    · obtain ⟨-, hk, hl, -⟩ := hu.mysql hd
      simp only [if_pos ht]
      rw [hl ht, hk]
      exact Phrase.inserts_nothing _
    · simp only [if_neg ht]
      exact Phrase.inserts_instead _ _ []
  | sqlite => exact Phrase.inserts_nothing _
  | firebird => exact Phrase.inserts_instead _ _ []

/-- An UPDATE is that of all rows with the words for the page at one place, which hold its rows. -/
theorem update_pages {cells : List Cell} (h : q.update cells = .ok e) :
    ∃ whole, q.unpaged.update cells = .ok whole ∧ whole.Inserts q.changePage e ∧
      Window.States q.changePage q.limit q.offset := by
  obtain ⟨xs, hw, -⟩ := Phrase.toExpression_eq_ok_iff.mp h
  obtain ⟨us, vs, hu, -, -⟩ := Phrase.written_append_eq_ok_iff.mp hw
  obtain ⟨cs, ws, hc, hm, -⟩ := Phrase.written_append_eq_ok_iff.mp hu
  obtain ⟨hnil, hnil'⟩ := checks_of_written hm
  have hi := inserts_update ((isCheck_checkCells cells).eq_nil hc) hnil hnil'
  obtain ⟨whole, hwhole, hi, -⟩ := hi.toExpression h
  exact ⟨whole, hwhole, hi, states_changePage (unrefused_of_written hm)⟩

/-- A DELETE is that of all rows with the words for the page at one place, which hold its rows. -/
theorem delete_pages (h : q.delete = .ok e) :
    ∃ whole, q.unpaged.delete = .ok whole ∧ whole.Inserts q.changePage e ∧
      Window.States q.changePage q.limit q.offset := by
  obtain ⟨xs, hm⟩ := written_check_delete h
  obtain ⟨hnil, hnil'⟩ := checks_of_written hm
  have hu := unrefused_of_written hm
  obtain ⟨whole, hwhole, hi, -⟩ := (inserts_delete hnil hnil' hu).toExpression h
  exact ⟨whole, hwhole, hi, states_changePage hu⟩

/-- **All pages are the same rows.** Whatever words an engine has for a page, they are put at one
place of the selection of all rows, or are a condition on the numbers of its rows, and what is read
back from them are the rows behind the offset, as many as the limit allows. So two queries with one
limit and one offset, for two engines or for two ways of SQL Server, select the same rows. An UPDATE
and a DELETE have the words for their page at one place too. -/
theorem statement_pages (q : Query) (e : Expression) :
    (q.select = .ok e → ∃ whole, q.unpaged.select = .ok whole ∧
      if q.numbersRows then q.NumbersRowsOf whole e else whole.Inserts q.selectPage e) ∧
    Window.States q.selectPage q.limit q.offset ∧
    (∀ q' : Query, q'.limit = q.limit → q'.offset = q.offset →
      ∃ w w', Window.read? q.selectPage = some w ∧ Window.read? q'.selectPage = some w' ∧
        ∀ r, r < greatestRow → (w.holds r ↔ w'.holds r)) ∧
    (∀ cells, q.update cells = .ok e → ∃ whole, q.unpaged.update cells = .ok whole ∧
      whole.Inserts q.changePage e ∧ Window.States q.changePage q.limit q.offset) ∧
    (q.delete = .ok e → ∃ whole, q.unpaged.delete = .ok whole ∧
      whole.Inserts q.changePage e ∧ Window.States q.changePage q.limit q.offset) := by
  refine ⟨select_pages, states_selectPage q, fun q' hl hk => ?_, fun _ => update_pages,
    delete_pages⟩
  obtain ⟨w, hw, hrows⟩ := states_selectPage q
  obtain ⟨w', hw', hrows'⟩ := states_selectPage q'
  rw [hl, hk] at hrows'
  exact ⟨w, w', hw, hw', fun r hr => (hrows r hr).trans (hrows' r hr).symm⟩

/-- The third page of ten customers in the order of their names, with numbered rows. -/
def thirdPage : Query :=
  { Query.new ⟨"customers", none⟩ { Config.new .sqlServer with useOldPagination := true } with
    orderBy := [⟨.named "name", false⟩]
    limit := some 10
    offset := some 20 }

/-- The selection of it. -/
def thirdSelection : Expression :=
  .ofPieces [.text "SELECT * FROM (SELECT ROW_NUMBER() OVER(ORDER BY [name] ASC) AS ",
    .text "[grammar_rownum], * FROM [customers]) [customers] ",
    .text "WHERE [grammar_rownum] BETWEEN 21 AND 30"]

theorem thirdPage_numbers : thirdPage.select = .ok thirdSelection ∧
    (∃ whole, thirdPage.unpaged.select = .ok whole ∧
      if thirdPage.numbersRows then thirdPage.NumbersRowsOf whole thirdSelection
      else whole.Inserts thirdPage.selectPage thirdSelection) ∧
    Window.States " BETWEEN 21 AND 30" (some 10) (some 20) := by
  have h : thirdPage.select = .ok thirdSelection := Phrase.toExpression_of_normal rfl rfl
  have hpages := statement_pages thirdPage thirdSelection
  exact ⟨h, hpages.1 h, hpages.2.1⟩

end Query
end SqlWeave
