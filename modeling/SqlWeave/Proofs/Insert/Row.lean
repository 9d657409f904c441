import SqlWeave.Proofs.Writing
import SqlWeave.Query.Insert

/-!
# The INSERT of a row

The INSERT of a row is a head, which is text, and a tuple of one item for each cell. The values that
the statement binds are those of its items, and a row binds as many as its weight predicts.

Results:
* `insert_eq`: the statement of a row is the head and the tuple of its items.
* `values_insert`, `length_values_items`: it binds the values of the items, as many as the weight of
  the row predicts.
* `isCheck_checkInsert`, `isCheck_checkRows`: what refuses an INSERT are failures alone.
* `cells_of_checkBulk`: the rows of a bulk insert that is not refused have cells.
-/

namespace SqlWeave

/-- Items in parentheses, with commas between them. -/
def tuplePieces (items : List (List Piece)) : List Piece :=
  .text "(" :: ((items.intersperse [.text ", "]).flatten ++ [.text ")"])

theorem values_flatten_intersperse (separator : String) : ∀ items : List (List Piece),
    Piece.values (items.intersperse [.text separator]).flatten = items.flatMap Piece.values
  | [] => rfl
  | [item] => by
    rw [List.intersperse_singleton, List.flatten_singleton, List.flatMap_singleton]
  | item :: item' :: items => by
    rw [List.intersperse_cons_cons, List.flatten_cons, List.flatten_cons, Piece.values_append,
      Piece.values_append, values_flatten_intersperse separator (item' :: items),
      List.flatMap_cons]
    rfl

theorem values_tuplePieces (items : List (List Piece)) :
    Piece.values (tuplePieces items) = items.flatMap Piece.values := by
  change Piece.values ((items.intersperse [.text ", "]).flatten ++ [.text ")"]) = _
  rw [Piece.values_append, values_flatten_intersperse]
  exact List.append_nil _

theorem values_texts (p : Phrase) : Piece.values p.texts = [] := by
  unfold Phrase.texts
  induction p with
  | nil => rfl
  | cons part p ih => cases part <;> exact ih

namespace Binding

variable (b : Binding)

/-- The pieces of the content of a cell. -/
def item (c : Cell) : Result (List Piece) := (Phrase.ofParam c.value).written b

theorem written_cellValues (cells : List Cell) :
    (Phrase.cellValues cells).written b = (cells.mapM b.item).map tuplePieces := by
  have hj : (Phrase.join ", " (cells.map fun c => Phrase.ofParam c.value)).written b =
      (cells.mapM b.item).map fun items => (items.intersperse [.text ", "]).flatten := by
    rw [Phrase.written_join, List.mapM_map]
    rfl
  unfold Phrase.cellValues
  rw [List.cons_append, Phrase.written_text, Phrase.written_append, hj]
  cases cells.mapM b.item with
  | error e => rfl
  | ok items => rfl

/-- A value that is written as it is predicted. -/
theorem place_value (v : Value) :
    b.place (.value v) =
      if b.binds (b.intercept v) then .ok (.bound (b.intercept v))
      else (b.literal (b.intercept v)).map .text := rfl

theorem length_values_place {v : Value} {x : Piece} (h : b.place (.value v) = .ok x) :
    (Piece.values [x]).length = if b.binds (b.intercept v) then 1 else 0 := by
  rw [place_value] at h
  by_cases hb : b.binds (b.intercept v) = true
  · rw [if_pos hb] at h ⊢
    cases h
    rfl
  · rw [if_neg hb] at h ⊢
    cases hl : b.literal (b.intercept v) with
    | error e => rw [hl] at h; cases h
    | ok s => rw [hl] at h; cases h; rfl

/-- **A cell binds as many values as its weight predicts.** -/
theorem length_values_item {c : Cell} {ps : List Piece} (h : b.item c = .ok ps) :
    (Piece.values ps).length = b.weightOfParam c.value := by
  unfold item at h
  cases hc : c.value with
  | value v =>
    rw [hc, Phrase.ofParam, Phrase.written_singleton] at h
    cases hx : b.place (.value v) with
    | error e => rw [hx] at h; cases h
    | ok x =>
      rw [hx] at h
      cases h
      exact b.length_values_place hx
  | expression e =>
    rw [hc] at h
    change Phrase.written b (e.leaves.flatMap Phrase.ofLeaf) = .ok ps at h
    change _ = (Piece.values e.leaves).countP fun v => b.binds (b.intercept v)
    generalize e.leaves = ls at h
    induction ls generalizing ps with
    | nil => cases h; rfl
    | cons l ls ih =>
      rw [List.flatMap_cons, Phrase.written_append_eq_ok_iff] at h
      obtain ⟨xs, ys, hx, hy, rfl⟩ := h
      rw [Piece.values_append, List.length_append, ih hy]
      cases l with
      | text s => cases hx; exact Nat.zero_add _
      | nested inner => cases hx; exact Nat.zero_add _
      | bound v =>
        rw [Phrase.ofLeaf, Phrase.written_singleton] at hx
        cases hv : b.place (.value v) with
        | error e => rw [hv] at hx; cases hx
        | ok x =>
          rw [hv] at hx
          cases hx
          rw [Piece.values, List.countP_cons, Nat.add_comm]
          exact congrArg _ (b.length_values_place hv)

/-- The items of cells bind as many values as the weights of the cells predict. -/
theorem length_values_items {cells : List Cell} {items : List (List Piece)}
    (h : cells.mapM b.item = .ok items) :
    (items.flatMap Piece.values).length = (cells.map fun c => b.weightOfParam c.value).sum := by
  have hf := mapM_eq_ok_iff.mp h
  clear h
  induction hf with
  | nil => rfl
  | cons hx _ ih =>
    rw [List.flatMap_cons, List.length_append, List.map_cons, List.sum_cons, ih,
      b.length_values_item hx]

end Binding

namespace Query

variable (q : Query)

/-- The text before the values of an INSERT. -/
def insertHead (names : List String) : Phrase :=
  q.insertInto ++ Phrase.nameList q.dialect names ++ [.text " VALUES "]

theorem text_of_mem_nameList {d : Dialect} {names : List String} :
    ∀ part ∈ Phrase.nameList d names, ∃ s, part = .text s := by
  have hj : ∀ part ∈ Phrase.join ", " (names.map fun n => [.text (d.quote n)]),
      ∃ s, part = .text s := by
    unfold Phrase.join
    induction names with
    | nil => intro part h; cases h
    | cons n names ih =>
      cases names with
      | nil => intro part h; exact ⟨_, List.mem_singleton.mp h⟩
      | cons m names =>
        intro part h
        rw [List.map_cons, List.map_cons, List.intersperse_cons_cons, List.flatten_cons,
          List.flatten_cons] at h
        rcases List.mem_append.mp h with h | h
        · exact ⟨_, List.mem_singleton.mp h⟩
        · rcases List.mem_append.mp h with h | h
          · exact ⟨_, List.mem_singleton.mp h⟩
          · exact ih part h
  intro part h
  unfold Phrase.nameList at h
  rw [List.cons_append, List.mem_cons, List.mem_append, List.mem_singleton] at h
  rcases h with h | h | h
  · exact ⟨_, h⟩
  · exact hj part h
  · exact ⟨_, h⟩

theorem text_of_mem_insertHead (names : List String) :
    ∀ part ∈ q.insertHead names, ∃ s, part = .text s := by
  intro part h
  unfold insertHead insertInto plainTable at h
  rw [List.mem_append, List.mem_append] at h
  rcases h with (h | h) | h
  · simp only [List.cons_append, List.mem_cons, List.nil_append, List.not_mem_nil, or_false] at h
    rcases h with h | h | h <;> exact ⟨_, h⟩
  · exact text_of_mem_nameList part h
  · exact ⟨_, List.mem_singleton.mp h⟩

/-- The INSERT of a row is a head and the tuple of its items. -/
theorem written_insertRow {r : Row} (hc : r.cells ≠ []) :
    (q.insertRow r).written q.binding =
      (r.cells.mapM q.binding.item).map fun items =>
        (q.insertHead r.names).texts ++ tuplePieces items := by
  have hp : q.insertRow r = q.insertHead r.names ++ Phrase.cellValues r.cells := by
    have hn : checkCells r.cells = [] := by simp [checkCells, Phrase.failIf, hc]
    unfold insertRow insertHead
    rw [hn]
    simp only [List.nil_append, List.append_assoc, List.singleton_append]
  rw [hp, Phrase.written_append, Phrase.written_of_text (q.text_of_mem_insertHead r.names),
    Binding.written_cellValues]
  cases r.cells.mapM q.binding.item <;> rfl

/-- **The statement of a row is the head and the tuple of the items of its cells.** -/
theorem insert_eq (hi : q.checkInsert = []) {r : Row} (hc : r.cells ≠ []) :
    q.insert r = (r.cells.mapM q.binding.item).map fun items =>
      .ofPieces ((q.insertHead r.names).texts ++ tuplePieces items) := by
  unfold insert insertPhrase
  rw [hi, List.nil_append, Phrase.toExpression_eq, q.written_insertRow hc]
  cases r.cells.mapM q.binding.item <;> rfl

theorem values_insert {r : Row} (hc : r.cells ≠ []) {items : List (List Piece)}
    (h : r.cells.mapM q.binding.item = .ok items) :
    (Expression.ofPieces ((q.insertHead r.names).texts ++ tuplePieces items)).values =
      items.flatMap Piece.values := by
  have hw : (q.insertRow r).written q.binding =
      .ok ((q.insertHead r.names).texts ++ tuplePieces items) := by
    rw [q.written_insertRow hc, h]
    rfl
  rw [Phrase.values_of_written hw, Piece.values_append, values_texts, values_tuplePieces]
  rfl

/-! ## Checks -/

theorem isCheck_checkCells (cells : List Cell) : Phrase.IsCheck (checkCells cells) :=
  Phrase.isCheck_failIf _ _

theorem isCheck_refuse (statement : String) (clauses : List (Bool × String)) :
    Phrase.IsCheck (q.refuse statement clauses) := by
  intro part h
  obtain ⟨clause, -, hpart⟩ := List.mem_flatMap.mp h
  exact Phrase.isCheck_failIf _ _ part hpart

theorem isCheck_checkInsert : Phrase.IsCheck q.checkInsert := by
  unfold checkInsert
  split
  · exact q.isCheck_refuse _ _
  · exact Phrase.isCheck_nil

theorem isCheck_checkRows (rows : List Row) : Phrase.IsCheck (checkRows rows) := by
  cases rows with
  | nil => exact Phrase.isCheck_nil
  | cons first rest => exact (isCheck_checkCells _).append (Phrase.isCheck_failIf _ _)

end Query

theorem length_eq_of_sameNames {as : List Cell} : ∀ {bs : List Cell},
    Row.sameNames as bs = true → as.length = bs.length := by
  induction as with
  | nil =>
    intro bs h
    cases bs with
    | nil => rfl
    | cons b bs => cases h
  | cons a as ih =>
    intro bs h
    cases bs with
    | nil => cases h
    | cons b bs =>
      rw [Row.sameNames, Bool.and_eq_true] at h
      rw [List.length_cons, List.length_cons, ih h.2]

namespace Query

variable {q : Query}

/-- Rows that pass the checks of a bulk insert have cells, all as many. -/
theorem cells_of_checkBulk {rows : List Row} (h : q.checkBulk rows = .ok ()) :
    q.checkInsert = [] ∧ (∀ r ∈ rows, r.cells ≠ []) ∧
      ∀ r ∈ rows, ∀ s ∈ rows, r.cells.length = s.cells.length := by
  unfold checkBulk at h
  rw [map_eq_ok_iff] at h
  obtain ⟨e, he, -⟩ := h
  rw [Phrase.toExpression_eq_ok_iff] at he
  obtain ⟨ps, hps, -⟩ := he
  rw [Phrase.written_append_eq_ok_iff] at hps
  obtain ⟨xs, ys, hx, hy, -⟩ := hps
  refine ⟨q.isCheck_checkInsert.eq_nil hx, ?_⟩
  cases rows with
  | nil => exact ⟨fun _ h => (by cases h), fun _ h => (by cases h)⟩
  | cons first rest =>
    unfold checkRows at hy
    rw [Phrase.written_append_eq_ok_iff] at hy
    obtain ⟨us, vs, hu, hv, -⟩ := hy
    have hc := Phrase.eq_false_of_written_failIf hu
    have hs := Phrase.eq_false_of_written_failIf hv
    rw [Bool.not_eq_false', List.all_eq_true] at hs
    have hl : ∀ r ∈ first :: rest, r.cells.length = first.cells.length := fun r hr =>
      length_eq_of_sameNames (hs r hr)
    refine ⟨fun r hr hn => ?_, fun r hr s hs => (hl r hr).trans (hl s hs).symm⟩
    have hz := hl r hr
    rw [hn, List.length_nil] at hz
    rw [List.isEmpty_eq_false_iff] at hc
    exact hc (List.length_eq_zero_iff.mp hz.symm)

end Query
end SqlWeave
