import SqlWeave.Proofs.Redaction.Outcome
import SqlWeave.Proofs.Template.Views
import SqlWeave.Query.Select

/-!
# Selections, their pages and their count

Without a page every engine writes one selection: the select list, the body and the order. For a
page an engine puts words of its own at one place of this selection, except that SQL Server may
number the rows in an inner selection instead.

The count of a query that is distinct or gathers rows puts the selection without order and page
between two texts. So both statements fail alike, and the values and places of the count are those
of the selection, as far behind as the text in front is long.

Results:
* `selectForm`: a selection has the words of its page at one place, or numbers its rows.
* `select_unpaged`: a selection without a page, for any engine.
* `Phrase.alike_enclose`: a phrase between two texts becomes its fragment between them.
* `count_encloses_select`: the count of gathered rows is the selection between two texts.
-/

namespace SqlWeave

/-! ## A text more -/

namespace Expression

/-- A fragment is another one with a text more at one place. -/
def Inserts (s : String) (e e' : Expression) : Prop :=
  ∃ us vs : List Piece, e = .ofPieces (us ++ vs) ∧ e' = .ofPieces (us ++ .text s :: vs)

end Expression

namespace Phrase

variable {b : Binding} {s : String} {p p' : Phrase}

/-- Phrases written alike become one fragment, or fail alike. -/
theorem Same.toExpression (h : Same p p') (b : Binding) :
    p.toExpression b = p'.toExpression b := by
  unfold Phrase.toExpression
  rw [h]

/-- Empty text may be left out between phrases. -/
theorem same_append_text_empty (p q : Phrase) : Same (p ++ .text "" :: q) (p ++ q) :=
  (Same.refl p).append (same_text_empty q)

/-- A phrase is written as another one with a text more at one place. -/
def Inserts (s : String) (p p' : Phrase) : Prop :=
  ∃ us vs : Phrase, Same p (us ++ vs) ∧ Same p' (us ++ .text s :: vs)

theorem inserts_between (us : Phrase) (s : String) (vs : Phrase) :
    Inserts s (us ++ vs) (us ++ .text s :: vs) := ⟨us, vs, .refl _, .refl _⟩

/-- A text in the place of an empty one. -/
theorem inserts_instead (us : Phrase) (s : String) (vs : Phrase) :
    Inserts s (us ++ .text "" :: vs) (us ++ .text s :: vs) :=
  ⟨us, vs, same_append_text_empty us vs, .refl _⟩

theorem inserts_nothing (p : Phrase) : Inserts "" p p := ⟨[], p, .refl p, fun _ => rfl⟩

/-- Text put at the end. -/
theorem inserts_append (s : String) (p : Phrase) : Inserts s p (p ++ [.text s]) := by
  have h := inserts_between p s []
  rwa [List.append_nil] at h

/-- A text more is nothing more where it is empty. -/
theorem Inserts.same (h : Inserts "" p p') : Same p' p := by
  obtain ⟨us, vs, hp, hp'⟩ := h
  exact fun d => (hp' d).trans ((same_append_text_empty us vs d).trans (hp d).symm)

/-- A text more in a phrase is a text more in its fragment, and no value more. -/
theorem Inserts.toExpression (h : Inserts s p p') {e' : Expression}
    (he : p'.toExpression b = .ok e') :
    ∃ e, p.toExpression b = .ok e ∧ e.Inserts s e' ∧ e'.values = e.values := by
  obtain ⟨us, vs, hp, hp'⟩ := h
  rw [hp'.toExpression] at he
  obtain ⟨xs, hw, rfl⟩ := toExpression_eq_ok_iff.mp he
  obtain ⟨ys, zs, hy, hz, rfl⟩ := written_append_eq_ok_iff.mp hw
  rw [written_text, map_eq_ok_iff] at hz
  obtain ⟨zs, hz, rfl⟩ := hz
  have hyz : (us ++ vs).written b = .ok (ys ++ zs) :=
    written_append_eq_ok_iff.mpr ⟨ys, zs, hy, hz, rfl⟩
  refine ⟨.ofPieces (ys ++ zs), ?_, ⟨ys, zs, rfl, rfl⟩, ?_⟩
  · rw [hp.toExpression]
    exact toExpression_eq_ok_iff.mpr ⟨_, hyz, rfl⟩
  · rw [values_of_written hw, values_of_written hyz, Piece.values_append, Piece.values_append,
      Piece.values_text]

end Phrase

/-! ## A fragment between two texts -/

namespace Expression

/-- A fragment is another one between two texts. -/
structure Enclosed (before after : String) (inner outer : Expression) : Prop where
  template : outer.template = before ++ inner.template ++ after
  values : outer.values = inner.values
  slots : outer.slots = inner.slots.map (before.utf8ByteSize + ·)

theorem slots_enclosed (before after : String) (ps : List Piece) :
    (ofPieces (.text before :: ps ++ [.text after])).slots =
      (ofPieces ps).slots.map (before.utf8ByteSize + ·) := by
  change Piece.slotsFrom 0 _ = (Piece.slotsFrom 0 _).map _
  rw [Piece.slotsFrom_eq, Piece.slotsFrom_eq, List.flatMap_append,
    List.flatMap_cons, List.flatMap_singleton, Piece.symbols, Piece.symbols,
    Template.holesFrom_append, Template.holesFrom_append, Template.holesFrom_chars,
    Template.holesFrom_chars, List.nil_append, List.append_nil, Template.width_chars,
    Nat.zero_add, Template.holesFrom_eq_map]

theorem template_enclosed (before after : String) (ps : List Piece) :
    (ofPieces (.text before :: ps ++ [.text after])).template =
      before ++ (ofPieces ps).template ++ after := by
  rw [template_ofPieces, template_ofPieces, List.map_append, List.map_cons, String.join_append,
    String.join_cons, List.map_singleton, String.join_cons, String.join_nil, String.append_empty]
  rfl

end Expression

/-- **A phrase between two texts becomes its fragment between them**, or fails as it does. -/
theorem Phrase.alike_enclose (b : Binding) (before after : String) (p : Phrase) :
    Alike (Expression.Enclosed before after) (p.toExpression b)
      ((.text before :: p ++ [.text after] : Phrase).toExpression b) := by
  have houter : (.text before :: p ++ [.text after] : Phrase).written b =
      (p.written b).map fun ps => .text before :: ps ++ [.text after] := by
    rw [written_append, written_text]
    cases p.written b <;> rfl
  rw [toExpression_eq, toExpression_eq, houter]
  cases hp : p.written b with
  | error e => exact .error e
  | ok ps =>
    rw [hp] at houter
    refine .ok ⟨Expression.template_enclosed before after ps, ?_,
      Expression.slots_enclosed before after ps⟩
    have hvalues : Piece.values (.text before :: ps ++ [.text after]) = Piece.values ps := by
      rw [Piece.values_append, Piece.values_text]
      exact List.append_nil _
    rw [values_of_written houter, values_of_written hp, hvalues]

namespace Query

/-! ## The page of a selection -/

/-- The query for all rows, not for a page of them. -/
def unpaged (q : Query) : Query := { q with limit := none, offset := none }

/-- The query without its order. -/
def unordered (q : Query) : Query := { q with orderBy := [] }

/-- The page is a condition on numbers given to the rows. -/
def numbersRows (q : Query) : Bool :=
  q.dialect = .sqlServer && q.offset.isSome && q.config.useOldPagination

/-- The words of an engine for the page of a selection. -/
def selectPage (q : Query) : String :=
  match q.dialect with
  | .sqlServer =>
    match q.offset with
    | none => Window.top q.limit
    | some offset =>
      if q.config.useOldPagination then (Window.numbered offset q.limit).condition
      else Window.offsetFetch offset q.limit
  | .mysql => Window.limitOffset Window.greatestLimit q.limit q.offset
  | .sqlite => Window.limitOffset "-1" q.limit q.offset
  | .firebird => Window.firstSkip q.limit q.offset

/-- How a selection is written. -/
inductive SelectForm (q : Query) : Prop
  /-- The words of the page stand at one place of the selection of all rows. -/
  | inserted (unnumbered : q.numbersRows = false)
      (page : Phrase.Inserts q.selectPage (q.plainSelect ++ q.ordering) q.selectPhrase)
  /-- The rows are numbered in their order, and the page is a condition on the numbers. -/
  | numbered (numbers : q.numbersRows = true) (ordered : q.orderBy ≠ []) (offset : Nat)
      (page : q.offset = some offset) (phrase : q.selectPhrase = q.numberedRows offset)
  /-- An offset needs an order. -/
  | refused (offset : Nat) (page : q.offset = some offset)
      (failure : q.selectPhrase = [.failure (.validation .offsetWithoutOrder)])

/-- **A selection has the words of its page at one place, or numbers its rows, or is refused.** -/
theorem selectForm (q : Query) : q.SelectForm := by
  cases hd : q.dialect with
  | sqlServer =>
    cases hk : q.offset with
    | none =>
      refine .inserted (by simp [numbersRows, hk]) ?_
      simpa [plainSelect, selectPhrase, selectPage, sqlServerSelect, hd, hk] using
        Phrase.inserts_between (.text "SELECT " :: q.distinctWord) (Window.top q.limit)
          (q.selectList ++ q.body ++ q.ordering)
    | some offset =>
      by_cases ho : q.orderBy = []
      · exact .refused offset hk (by simp [selectPhrase, sqlServerSelect, hd, hk, ho])
      · by_cases hold : q.config.useOldPagination = true
        · refine .numbered (by simp [numbersRows, hd, hk, hold]) ho offset hk ?_
          simp [selectPhrase, sqlServerSelect, hd, hk, ho, hold]
        · refine .inserted (by simp [numbersRows, hold]) ?_
          simpa [selectPhrase, selectPage, sqlServerSelect, hd, hk, ho, hold] using
            Phrase.inserts_append _ (q.plainSelect ++ q.ordering)
  | mysql =>
    refine .inserted (by simp [numbersRows, hd]) ?_
    rw [selectPhrase_mysql hd, selectPage, hd]
    exact Phrase.inserts_append _ _
  | sqlite =>
    refine .inserted (by simp [numbersRows, hd]) ?_
    rw [selectPhrase_sqlite hd, selectPage, hd]
    exact Phrase.inserts_append _ _
  | firebird =>
    refine .inserted (by simp [numbersRows, hd]) ?_
    simpa [plainSelect, selectPhrase, selectPage, hd] using
      Phrase.inserts_between [.text "SELECT "] (Window.firstSkip q.limit q.offset)
        (q.distinctWord ++ q.selectList ++ q.body ++ q.ordering)

/-- No page has no words. -/
theorem selectPage_unpaged (q : Query) : q.unpaged.selectPage = "" := by
  have hdialect : q.unpaged.dialect = q.dialect := rfl
  unfold selectPage
  rw [hdialect]
  cases q.dialect <;> rfl

/-- **Without a page every engine writes one selection.** -/
theorem select_unpaged (q : Query) :
    q.unpaged.select = (q.plainSelect ++ q.ordering).toExpression q.binding := by
  cases q.unpaged.selectForm with
  | inserted _ h =>
    rw [selectPage_unpaged] at h
    exact h.same.toExpression q.binding
  | numbered _ _ offset h => cases h
  | refused offset h => cases h

/-! ## Counting -/

/-- The count of gathered rows, its first text cut behind the parenthesis. -/
theorem countPhrase_gathered {q : Query} (h : q.distinct = true ∨ q.groupBy ≠ []) :
    Phrase.Same (q.countPhrase none)
      (.text "SELECT COUNT(*) FROM (" :: q.plainSelect ++ [.text ") count"]) := by
  have hg : (q.distinct || !q.groupBy.isEmpty) = true := by simpa using h
  unfold countPhrase
  simp only [Option.filter_none, hg, if_pos]
  exact Phrase.same_text_text "SELECT COUNT(*) FROM (" "SELECT "
    (q.distinctWord ++ q.selectList ++ q.body ++ [.text ") count"])

/-- **Counting wraps the selection it counts.** For every engine, the count of a query that is
distinct or gathers rows fails exactly if the selection of the query without order and page does, and
with its error; otherwise it has the text of that selection in parentheses, its values in their order,
and its places behind the text in front. -/
theorem count_encloses_select (q : Query) (h : q.distinct = true ∨ q.groupBy ≠ []) :
    Alike (Expression.Enclosed "SELECT COUNT(*) FROM (" ") count") q.unordered.unpaged.select
      (q.count none) := by
  have hs : q.unordered.unpaged.select = q.plainSelect.toExpression q.binding := by
    rw [select_unpaged, ordering_of_nil rfl, List.append_nil]
    rfl
  unfold count
  rw [hs, (countPhrase_gathered h).toExpression]
  exact Phrase.alike_enclose _ _ _ _

/-- The first ten cities of customers who have left. -/
def leftCities : Query :=
  { Query.new ⟨"customers", none⟩ (.new .sqlServer) with
    columns := [.named "city"]
    distinct := true
    filters := [(.and, .equals "state" (.text "left"))]
    orderBy := [⟨.named "city", false⟩]
    limit := some 10 }

theorem leftCities_counted :
    leftCities.count none = .ok (.ofPieces [.text "SELECT COUNT(*) FROM (SELECT DISTINCT [city]",
      .text " FROM [customers] WHERE [state] = ", .bound (.text "left"), .text ") count"]) ∧
    Alike (Expression.Enclosed "SELECT COUNT(*) FROM (" ") count")
      leftCities.unordered.unpaged.select (leftCities.count none) :=
  ⟨rfl, count_encloses_select leftCities (.inl rfl)⟩

end Query
end SqlWeave
