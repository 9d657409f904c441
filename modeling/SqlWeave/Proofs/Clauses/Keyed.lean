import SqlWeave.Proofs.Clauses.Guard
import SqlWeave.Proofs.Clauses.Selection
import SqlWeave.Proofs.Insert.Row
import SqlWeave.Proofs.Logic.Condition

/-!
# Statements on the rows of one table

The rows of one table are found by what some of their columns hold. The UPDATE and the DELETE of
such rows, and the INSERT of a row, are given piece by piece: the engines differ in the words around
the values only where a query has more to say than that.

A phrase is taken apart into what each of its parts becomes. That it can be written is a condition
on its values, which goes along with the pieces.

Results:
* `Phrase.Becomes.append`, `Phrase.becomes_join`: what a phrase becomes, from its parts.
* `Query.becomes_tests`: the conditions on columns are their tests, joined by AND.
* `Query.update_keyed`, `Query.delete_keyed`: the statements on rows that are found by a key.
* `Query.insert_new`, `Query.insertKey_new`: those that insert a row.
-/

namespace SqlWeave

/-- Items with a separator between them. -/
def Piece.listed (separator : String) (items : List (List Piece)) : List Piece :=
  (items.intersperse [.text separator]).flatten

/-- A result is the given one if a condition holds, and a failure if not. -/
structure OkWhen {α : Type} (r : Result α) (holds : Prop) (a : α) : Prop where
  ok : holds → r = .ok a
  error : ¬ holds → ∃ err, r = .error err

/-! ## Values -/

namespace Binding

variable (b : Binding)

/-- The value can be written: it is bound, or it has a literal. -/
def Writes (v : Value) : Prop :=
  b.binds (b.intercept v) = true ∨ (b.dialect.literal (b.intercept v)).isSome = true

/-- A value as it stands in a statement. -/
def piece (v : Value) : Piece :=
  if b.binds (b.intercept v) then .bound (b.intercept v)
  else .text ((b.dialect.literal (b.intercept v)).getD "")

variable {b}

theorem place_of_writes {v : Value} (h : b.Writes v) : b.place (.value v) = .ok (b.piece v) := by
  rw [place_value]
  unfold piece
  by_cases hb : b.binds (b.intercept v) = true
  · rw [if_pos hb, if_pos hb]
  · obtain ⟨s, hs⟩ := Option.isSome_iff_exists.mp (h.resolve_left hb)
    rw [if_neg hb, if_neg hb, literal, hs]
    rfl

theorem place_of_not_writes {v : Value} (h : ¬ b.Writes v) :
    ∃ err, b.place (.value v) = .error err := by
  obtain ⟨hb, hs⟩ := not_or.mp h
  rw [place_value, if_neg hb, literal, Option.not_isSome_iff_eq_none.mp hs]
  exact ⟨_, rfl⟩

end Binding

/-! ## What the parts of a phrase become -/

namespace Phrase

/-- A phrase becomes the pieces, up to how text is cut, if a condition holds, and cannot be written
if not. -/
structure Becomes (b : Binding) (p : Phrase) (holds : Prop) (ps : List Piece) : Prop where
  written : holds → ∃ qs, p.written b = .ok qs ∧ Expression.ofPieces qs = .ofPieces ps
  refused : ¬ holds → ∃ err, p.written b = .error err

variable {b : Binding} {p q : Phrase} {P Q : Prop} {ps qs : List Piece}

theorem becomes_nil : Becomes b [] True [] := ⟨fun _ => ⟨[], rfl, rfl⟩, fun h => absurd trivial h⟩

theorem becomes_value (v : Value) : Becomes b [.value v] (b.Writes v) [b.piece v] where
  written h := ⟨[b.piece v], by rw [written_singleton, Binding.place_of_writes h]; rfl, rfl⟩
  refused h := by
    obtain ⟨err, herr⟩ := Binding.place_of_not_writes h
    exact ⟨err, by rw [written_singleton, herr]; rfl⟩

theorem becomes_failIf (bad : Bool) (e : Error) : Becomes b (failIf bad e) (bad = false) [] := by
  cases bad with
  | false => exact ⟨fun _ => ⟨[], rfl, rfl⟩, fun h => absurd rfl h⟩
  | true => exact ⟨fun h => (by cases h), fun _ => ⟨e, rfl⟩⟩

namespace Becomes

/-- Phrases one after another become their pieces one after another. -/
theorem append (h : Becomes b p P ps) (k : Becomes b q Q qs) :
    Becomes b (p ++ q) (P ∧ Q) (ps ++ qs) where
  written := by
    rintro ⟨hP, hQ⟩
    obtain ⟨xs, hx, hxs⟩ := h.written hP
    obtain ⟨ys, hy, hys⟩ := k.written hQ
    exact ⟨xs ++ ys, written_append_eq_ok_iff.mpr ⟨xs, ys, hx, hy, rfl⟩,
      Expression.ofPieces_append hxs hys⟩
  refused hn := by
    by_cases hP : P
    · obtain ⟨xs, hx, -⟩ := h.written hP
      obtain ⟨err, herr⟩ := k.refused fun hQ => hn ⟨hP, hQ⟩
      exact ⟨err, by rw [written_append, hx, herr]; rfl⟩
    · obtain ⟨err, herr⟩ := h.refused hP
      exact ⟨err, by rw [written_append, herr]; rfl⟩

/-- The condition and the cuts of the text may be put in other words. -/
theorem congr (h : Becomes b p P ps) (hP : P ↔ Q)
    (hps : Expression.ofPieces ps = .ofPieces qs) : Becomes b p Q qs where
  written hQ := (h.written (hP.mpr hQ)).imp fun _ hx => ⟨hx.1, hx.2.trans hps⟩
  refused hQ := h.refused fun hP' => hQ (hP.mp hP')

theorem text_cons (s : String) (h : Becomes b p P ps) :
    Becomes b (.text s :: p) P (.text s :: ps) := by
  have hs : Becomes b [.text s] True [.text s] :=
    ⟨fun _ => ⟨_, rfl, rfl⟩, fun h => absurd trivial h⟩
  exact (hs.append h).congr (iff_of_eq (true_and P)) rfl

theorem append_text (h : Becomes b p P ps) (s : String) :
    Becomes b (p ++ [.text s]) P (ps ++ [.text s]) :=
  (h.append (becomes_nil.text_cons s)).congr (iff_of_eq (and_true P)) rfl

/-- The statement of a phrase is that of the pieces of a phrase that is written alike. -/
theorem toExpression (h : Becomes b p P ps) (hq : Same q p) :
    OkWhen (q.toExpression b) P (.ofPieces ps) where
  ok hP := by
    obtain ⟨xs, hx, hxs⟩ := h.written hP
    rw [hq.toExpression]
    exact toExpression_eq_ok_iff.mpr ⟨xs, hx, hxs.symm⟩
  error hP := by
    obtain ⟨err, herr⟩ := h.refused hP
    exact ⟨err, by rw [hq.toExpression, toExpression_eq, herr]; rfl⟩

end Becomes

/-- **Phrases with a separator between them become their pieces with the separator between them.**
All of them must be written. -/
theorem becomes_join {β : Type} {f : β → Phrase} {P : β → Prop} {items : β → List Piece}
    (separator : String) (h : ∀ x, Becomes b (f x) (P x) (items x)) : ∀ xs : List β,
    Becomes b (join separator (xs.map f)) (∀ x ∈ xs, P x) (Piece.listed separator (xs.map items))
  | [] => becomes_nil.congr (iff_of_true trivial fun _ hx => by cases hx) rfl
  | [x] => by
    rw [List.map_singleton, join_singleton]
    refine (h x).congr List.forall_mem_singleton.symm (congrArg _ ?_)
    exact (List.append_nil (items x)).symm
  | x :: y :: xs => by
    have ih := becomes_join separator h (y :: xs)
    exact ((h x).append (ih.text_cons separator)).congr List.forall_mem_cons.symm rfl

end Phrase

/-! ## Cells and tests -/

namespace Binding

variable (b : Binding)

/-- A column and its value. -/
def equation (cell : String × Value) : List Piece :=
  [.text (b.dialect.quote cell.1), .text " = ", b.piece cell.2]

/-- The test that a column has a value, be it the missing one. -/
def test (cell : String × Value) : List Piece :=
  if cell.2.isNull then [.text (b.dialect.quote cell.1), .text " IS NULL"] else b.equation cell

/-- All values of cells can be written. -/
def WritesAll (cells : List (String × Value)) : Prop := ∀ cell ∈ cells, b.Writes cell.2

/-- All values that tests compare can be written. -/
def WritesTests (cells : List (String × Value)) : Prop :=
  ∀ cell ∈ cells, cell.2.isNull = false → b.Writes cell.2

end Binding

namespace Query

open Phrase (Becomes becomes_join becomes_nil becomes_value)

variable {b : Binding} {c : Config} {table : String} {keys : List (String × Value)}

/-- Cells that are set become equations. -/
theorem becomes_assignments (cells : List (String × Value)) :
    Becomes b (Phrase.assignments b.dialect (Row.ofPairs cells).cells) (b.WritesAll cells)
      (Piece.listed ", " (cells.map b.equation)) := by
  have hcell : ∀ cell : String × Value,
      Becomes b [.text (b.dialect.quote cell.1), .text " = ", .value cell.2] (b.Writes cell.2)
        (b.equation cell) := fun cell => ((becomes_value cell.2).text_cons _).text_cons _
  have hall := becomes_join ", " hcell cells
  unfold Phrase.assignments Row.ofPairs
  rw [List.map_map]
  exact hall

/-- A comparison with a value becomes a test. -/
theorem becomes_equals {s : Scope} (hs : s.dialect = b.dialect) (cell : String × Value) :
    Becomes b ((Condition.equals cell.1 cell.2).phrase s) (cell.2.isNull = false → b.Writes cell.2)
      (b.test cell) := by
  obtain ⟨name, v⟩ := cell
  unfold Binding.test Condition.equals Condition.phrase
  cases hv : v.isNull with
  | true =>
    have hnull : (Operand.value v).isNull = true := hv
    rw [if_pos ⟨hnull, .inl rfl⟩, if_pos rfl, ← hs]
    exact ((becomes_nil.text_cons " IS NULL").text_cons _).congr
      (iff_of_true trivial fun h => by cases h) rfl
  | false =>
    have hnull : ¬ (Operand.value v).isNull = true := Bool.eq_false_iff.mp hv
    rw [if_neg fun h => hnull h.1, if_neg Bool.false_ne_true, Binding.equation, ← hs]
    refine (((((becomes_value v).text_cons " ").text_cons "=").text_cons " ").text_cons _).congr
      ⟨fun h _ => h, fun h => h rfl⟩ (Expression.ofPieces_cons _ ?_)
    rw [Expression.ofPieces_text_text, Expression.ofPieces_text_text]
    rfl

/-- Conditions that must all hold are joined by AND. -/
theorem phrase_tests (s : Scope) (keys : List (String × Value)) :
    ConditionGroup.phrase s (keys.map fun k => (.and, .equals k.1 k.2)) =
      Phrase.join " AND " (keys.map fun k => (Condition.equals k.1 k.2).phrase s) := by
  refine Eq.trans ?_ (Condition.join_eq_joinedPhrases .and _).symm
  unfold ConditionGroup.phrase Condition.joinedPhrases
  have hall : ∀ i ∈ keys.map fun k => ((.and, .equals k.1 k.2) : Connective × Condition),
      (!i.2.isEmpty) = true := List.forall_mem_map.mpr fun _ _ => rfl
  rw [List.filter_eq_self.mpr hall, List.flatMap_map, List.map_map, List.flatMap_map]
  rfl

/-- **The conditions on columns become their tests, joined by AND.** -/
theorem becomes_tests {s : Scope} (hs : s.dialect = b.dialect) (keys : List (String × Value)) :
    Becomes b (ConditionGroup.phrase s (keys.map fun k => (.and, .equals k.1 k.2)))
      (b.WritesTests keys) (Piece.listed " AND " (keys.map b.test)) := by
  rw [phrase_tests]
  exact becomes_join " AND " (becomes_equals hs) keys

/-! ## Changing and removing rows -/

/-- The query for the rows of a table that hold some values. -/
def keyed (table : String) (c : Config) (keys : List (String × Value)) : Query :=
  { new ⟨table, none⟩ c with filters := keys.map fun k => (.and, .equals k.1 k.2) }

/-- Filtering by one column after another is filtering by all. -/
theorem foldl_filter (keys : List (String × Value)) : ∀ q : Query,
    keys.foldl (fun q (name, v) => q.filter (.equals name v)) q =
      { q with filters := q.filters ++ keys.map fun k => (.and, .equals k.1 k.2) } := by
  induction keys with
  | nil =>
    intro q
    rw [List.map_nil, List.append_nil]
    rfl
  | cons k keys ih =>
    intro q
    rw [List.foldl_cons, ih, List.map_cons, List.append_cons]
    rfl

theorem isEmpty_filters_keyed (h : keys ≠ []) : (keyed table c keys).filters.isEmpty = false := by
  obtain ⟨k, rest, rfl⟩ := List.exists_cons_of_ne_nil h
  rfl

theorem filtering_keyed (h : keys ≠ []) : (keyed table c keys).filtering =
    .text " WHERE " :: (keyed table c keys).filters.phrase (keyed table c keys).scope := by
  unfold filtering
  rw [isEmpty_filters_keyed h]
  rfl

/-- Rows of one table with some values are refused nothing. -/
theorem checkModification_keyed (h : keys ≠ []) (m : Modification) :
    (keyed table c keys).checkModification m false = [] := by
  unfold checkModification
  rw [checkSafe_of_filters (isEmpty_filters_keyed h), List.append_nil]
  unfold refuse refusedClauses
  cases (keyed table c keys).dialect <;> cases m <;> rfl

/-- The words and tests behind the table. -/
def whereTests (b : Binding) (keys : List (String × Value)) : List Piece :=
  .text " WHERE " :: Piece.listed " AND " (keys.map b.test)

/-- The UPDATE that sets cells where the tests hold. -/
def keyedUpdate (b : Binding) (table : String) (cells keys : List (String × Value)) : Expression :=
  .ofPieces (.text "UPDATE " :: .text (b.dialect.quote table) :: .text " SET " ::
    Piece.listed ", " (cells.map b.equation) ++ whereTests b keys)

/-- The DELETE of the rows for which the tests hold. -/
def keyedDelete (b : Binding) (table : String) (keys : List (String × Value)) : Expression :=
  .ofPieces (.text "DELETE FROM " :: .text (b.dialect.quote table) :: whereTests b keys)

theorem becomes_filtering (c : Config) (table : String) (h : keys ≠ []) :
    Becomes (.ofConfig c) (keyed table c keys).filtering ((Binding.ofConfig c).WritesTests keys)
      (whereTests (.ofConfig c) keys) := by
  rw [filtering_keyed h]
  exact (becomes_tests rfl keys).text_cons " WHERE "

/-- An order and a page that are not asked for are not written. -/
theorem same_ended (p : Phrase) : Phrase.Same (p ++ [] ++ [.text ""]) p := by
  have h := Phrase.same_append_text_empty p []
  rwa [List.append_nil] at h ⊢

/-- The UPDATE in the words that all engines share. -/
theorem updatePhrase_keyed (h : keys ≠ []) (cells : List Cell) :
    Phrase.Same ((keyed table c keys).updatePhrase cells)
      (checkCells cells ++ .text "UPDATE " :: .text (c.dialect.quote table) :: .text " SET " ::
        (Phrase.assignments c.dialect cells ++ (keyed table c keys).filtering)) := by
  have hjoins : (!(keyed table c keys).joins.isEmpty) = false := rfl
  have hdialect : (keyed table c keys).dialect = c.dialect := rfl
  have hplain : (keyed table c keys).plainTable = [.text (c.dialect.quote table)] := rfl
  have hdeclared : (keyed table c keys).table.declared c.dialect = c.dialect.quote table := rfl
  unfold updatePhrase
  rw [hjoins, checkModification_keyed h, List.append_nil, hdialect, hplain, hdeclared]
  refine (Phrase.Same.refl (checkCells cells)).append ?_
  generalize c.dialect.quote table = name
  generalize Phrase.assignments c.dialect cells = sets
  generalize (keyed table c keys).filtering = tests
  cases c.dialect with
  | sqlServer => exact Phrase.same_append_text_empty [.text "UPDATE "] _
  | mysql => exact same_ended _
  | sqlite => exact .refl _
  | firebird => exact same_ended _

/-- The DELETE in the words that all engines share. -/
theorem deletePhrase_keyed (h : keys ≠ []) :
    Phrase.Same (keyed table c keys).deletePhrase
      (.text "DELETE FROM " :: .text (c.dialect.quote table) ::
        (keyed table c keys).filtering) := by
  have htarget : (keyed table c keys).needsTarget = false := rfl
  have hdialect : (keyed table c keys).dialect = c.dialect := rfl
  have hplain : (keyed table c keys).plainTable = [.text (c.dialect.quote table)] := rfl
  have hdeclared : (keyed table c keys).table.declared c.dialect = c.dialect.quote table := rfl
  unfold deletePhrase
  rw [htarget, checkModification_keyed h, List.nil_append, hdialect, hplain, hdeclared]
  generalize c.dialect.quote table = name
  generalize (keyed table c keys).filtering = tests
  cases c.dialect with
  | sqlServer =>
    have hwords : Phrase.Same [.text "DELETE ", .text "", .text "FROM "] [.text "DELETE FROM "] :=
      fun d => (Phrase.same_text_text "DELETE " "FROM " [] d).symm
    exact hwords.append (.refl _)
  | mysql => exact same_ended _
  | sqlite => exact .refl _
  | firebird => exact same_ended _

variable {cells : List (String × Value)}

theorem becomes_checkCells (cells : List (String × Value)) :
    Becomes b (checkCells (Row.ofPairs cells).cells) (cells ≠ []) [] := by
  refine (Phrase.becomes_failIf _ _).congr ?_ rfl
  cases cells with
  | nil => exact iff_of_false Bool.true_eq_false.mp fun h => h rfl
  | cons cell cells => exact iff_of_true rfl (List.cons_ne_nil _ _)

/-- **The UPDATE of the rows that hold some values.** -/
theorem update_keyed (h : keys ≠ []) (cells : List (String × Value)) :
    OkWhen ((keyed table c keys).update (Row.ofPairs cells).cells)
      (cells ≠ [] ∧ (Binding.ofConfig c).WritesAll cells ∧ (Binding.ofConfig c).WritesTests keys)
      (keyedUpdate (.ofConfig c) table cells keys) := by
  have hrest := (becomes_assignments (b := .ofConfig c) cells).append (becomes_filtering c table h)
  have hall := (becomes_checkCells cells).append
    (((hrest.text_cons " SET ").text_cons (c.dialect.quote table)).text_cons "UPDATE ")
  exact hall.toExpression (updatePhrase_keyed h _)

/-- **The DELETE of the rows that hold some values.** -/
theorem delete_keyed (h : keys ≠ []) :
    OkWhen (keyed table c keys).delete ((Binding.ofConfig c).WritesTests keys)
      (keyedDelete (.ofConfig c) table keys) := by
  have hall := ((becomes_filtering c table h).text_cons (c.dialect.quote table)).text_cons
    "DELETE FROM "
  exact hall.toExpression (deletePhrase_keyed h)

/-! ## Inserting a row -/

/-- The INSERT of cells: the names of their columns, and their values. -/
def insertPieces (b : Binding) (table : String) (cells : List (String × Value)) : List Piece :=
  .text "INSERT INTO " :: .text (b.dialect.quote table) :: .text " " ::
    (tuplePieces (cells.map fun cell => [.text (b.dialect.quote cell.1)]) ++ .text " VALUES " ::
      tuplePieces (cells.map fun cell => [b.piece cell.2]))

/-- How an INSERT ends that answers the value of a generated column. -/
def keyWords (d : Dialect) (key : String) : List Piece :=
  match d with
  | .sqlServer => [.text "; SELECT SCOPE_IDENTITY();"]
  | .mysql => [.text "; SELECT LAST_INSERT_ID();"]
  | .sqlite => [.text "; SELECT last_insert_rowid();"]
  | .firebird => [.text " RETURNING ", .text (d.quote key)]

theorem becomes_tuple {β : Type} {f : β → Phrase} {P : β → Prop} {items : β → List Piece}
    (h : ∀ x, Becomes b (f x) (P x) (items x)) (xs : List β) :
    Becomes b (.text "(" :: Phrase.join ", " (xs.map f) ++ [.text ")"]) (∀ x ∈ xs, P x)
      (tuplePieces (xs.map items)) :=
  ((becomes_join ", " h xs).append_text ")").text_cons "("

/-- The names of a row are written as they are. -/
theorem becomes_nameList (b : Binding) (cells : List (String × Value)) :
    Becomes b (Phrase.nameList b.dialect (Row.ofPairs cells).names) True
      (tuplePieces (cells.map fun cell => [.text (b.dialect.quote cell.1)])) := by
  have hnames := becomes_tuple (b := b)
    (fun cell : String × Value => becomes_nil.text_cons (b.dialect.quote cell.1)) cells
  unfold Phrase.nameList Row.names Row.ofPairs
  rw [List.map_map, List.map_map]
  exact hnames.congr (iff_of_true (fun _ _ => trivial) trivial) rfl

theorem becomes_cellValues (b : Binding) (cells : List (String × Value)) :
    Becomes b (Phrase.cellValues (Row.ofPairs cells).cells) (b.WritesAll cells)
      (tuplePieces (cells.map fun cell => [b.piece cell.2])) := by
  unfold Phrase.cellValues Row.ofPairs
  rw [List.map_map]
  exact becomes_tuple (fun cell : String × Value => becomes_value cell.2) cells

/-- The INSERT of a row has its columns and their values. -/
theorem becomes_insertPhrase (c : Config) (table : String) (cells : List (String × Value)) :
    Becomes (.ofConfig c) ((new ⟨table, none⟩ c).insertPhrase (.ofPairs cells))
      (cells ≠ [] ∧ (Binding.ofConfig c).WritesAll cells)
      (insertPieces (.ofConfig c) table cells) := by
  have hchecks : (new ⟨table, none⟩ c).checkInsert = [] := by
    unfold checkInsert
    cases (new ⟨table, none⟩ c).dialect <;> rfl
  have hinto : Becomes (.ofConfig c) (new ⟨table, none⟩ c).insertInto True
      [.text "INSERT INTO ", .text (c.dialect.quote table), .text " "] :=
    ((becomes_nil.text_cons " ").text_cons _).text_cons _
  have hnames := becomes_nameList (.ofConfig c) cells
  have hvalues := becomes_cellValues (.ofConfig c) cells
  have hrow := ((becomes_checkCells cells).append hinto).append hnames
  unfold insertPhrase insertRow
  rw [hchecks, List.nil_append]
  refine (hrow.append (hvalues.text_cons " VALUES ")).congr ?_ rfl
  rw [and_true, and_true]

/-- **The INSERT of a row.** -/
theorem insert_new (c : Config) (table : String) (cells : List (String × Value)) :
    OkWhen ((new ⟨table, none⟩ c).insert (.ofPairs cells))
      (cells ≠ [] ∧ (Binding.ofConfig c).WritesAll cells)
      (.ofPieces (insertPieces (.ofConfig c) table cells)) :=
  (becomes_insertPhrase c table cells).toExpression (.refl _)

/-- **The INSERT of a row that answers the value of a generated column.** -/
theorem insertKey_new (c : Config) (table : String) (cells : List (String × Value)) (key : String) :
    OkWhen ((new ⟨table, none⟩ c).insertKey (.ofPairs cells) key)
      ((c.dialect = .firebird → Text.isBlankText key = false) ∧
        cells ≠ [] ∧ (Binding.ofConfig c).WritesAll cells)
      (.ofPieces (insertPieces (.ofConfig c) table cells ++ keyWords c.dialect key)) := by
  have hrow := becomes_insertPhrase c table cells
  refine Becomes.toExpression ?_ (.refl _)
  have hdialect : (new ⟨table, none⟩ c).dialect = c.dialect := rfl
  unfold insertKeyPhrase
  rw [hdialect]
  cases c.dialect with
  | firebird =>
    have hkey := Phrase.becomes_failIf (b := .ofConfig c) (Text.isBlankText key)
      (.validation .noReturningKey)
    have hwords := (becomes_nil (b := .ofConfig c)).text_cons (Dialect.firebird.quote key)
    refine ((hkey.append hrow).append (hwords.text_cons " RETURNING ")).congr ?_ rfl
    rw [and_true, forall_prop_of_true rfl]
  | _ => exact (hrow.append_text _).congr (by simp) rfl

end Query
end SqlWeave
