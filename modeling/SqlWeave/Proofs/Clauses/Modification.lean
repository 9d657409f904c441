import SqlWeave.Proofs.Template.Views
import SqlWeave.Proofs.Writing
import SqlWeave.Query.Modify

/-!
# No clause is dropped

A statement that changes rows reaches more rows than were meant if a clause of the query is left
out. Each engine writes some of the clauses and refuses the others, so a statement that is built has
every clause of its query: the conditions, the joined tables with theirs, the order, and the page.

A statement is read as its phrase: a clause of the phrase is a clause of the statement
(`Expression.contains_of_infix`), and for each engine and statement the phrase has the clauses that
are not refused (`Query.Says`).

Results:
* `written_check_update`, `written_check_delete`, `deleteJoined_cases`: what is built has passed its
  checks.
* `says_update`, `says_delete`, `says_deleteFrom`: what the phrases say of what is not refused.
* `modification_keepsClauses`: every statement that changes rows keeps every clause of its query.
-/

namespace SqlWeave

open Number

/-! ## Parts of a statement -/

namespace Expression

/-- The pieces stand in the fragment one after another. -/
def Contains (e : Expression) (ps : List Piece) : Prop :=
  ∃ before after : List Piece, e = .ofPieces (before ++ ps ++ after)

variable {e : Expression} {ps qs : List Piece}

/-- The text of the pieces stands in the text of the fragment. -/
theorem Contains.template (h : e.Contains ps) :
    ∃ before after : String, e.template = before ++ (ofPieces ps).template ++ after := by
  obtain ⟨before, after, rfl⟩ := h
  refine ⟨(ofPieces before).template, (ofPieces after).template, ?_⟩
  simp only [template_ofPieces, List.map_append, String.join_append]

/-- Pieces may be cut and joined. -/
theorem Contains.congr (h : e.Contains ps) (hq : ofPieces ps = ofPieces qs) : e.Contains qs := by
  obtain ⟨before, after, rfl⟩ := h
  exact ⟨before, after, ofPieces_append (ofPieces_append rfl hq) rfl⟩

/-- The pieces of a fragment make the fragment. -/
theorem ofPieces_pieces_ofPieces (ps : List Piece) :
    ofPieces (ofPieces ps).pieces = ofPieces ps := by
  rw [pieces_ofPieces, ofPieces_normal]

/-- The pieces of fragments with a separator between them make the pieces they were made of. -/
theorem ofPieces_intersperse (separator : String) : ∀ items : List (List Piece),
    ofPieces ((items.map (pieces ∘ ofPieces)).intersperse [.text separator]).flatten =
      ofPieces (items.intersperse [.text separator]).flatten
  | [] => rfl
  | [item] => by
    rw [List.map_singleton, List.intersperse_singleton, List.intersperse_singleton,
      List.flatten_singleton, List.flatten_singleton]
    exact ofPieces_pieces_ofPieces item
  | item :: next :: items => by
    rw [List.map_cons, List.map_cons, List.intersperse_cons_cons, List.intersperse_cons_cons]
    have ih := ofPieces_intersperse separator (next :: items)
    rw [List.map_cons] at ih
    simp only [List.flatten_cons]
    exact ofPieces_append (ofPieces_pieces_ofPieces item) (ofPieces_append rfl ih)

/-- **A part of a phrase is a part of the statement.** -/
theorem contains_of_infix {b : Binding} {part p : Phrase} (hi : part <:+: p)
    (h : p.toExpression b = .ok e) : ∃ ps, part.written b = .ok ps ∧ e.Contains ps := by
  obtain ⟨before, after, rfl⟩ := hi
  obtain ⟨xs, hw, rfl⟩ := Phrase.toExpression_eq_ok_iff.mp h
  obtain ⟨ls, rs, hl, -, rfl⟩ := Phrase.written_append_eq_ok_iff.mp hw
  obtain ⟨us, ps, -, hp, rfl⟩ := Phrase.written_append_eq_ok_iff.mp hl
  exact ⟨ps, hp, us, rs, rfl⟩

end Expression

namespace Query

variable {q : Query} {e : Expression}

/-! ## What it is to keep a clause -/

/-- How a join starts: its keywords, and the table with its alias. -/
def joinHead (q : Query) (j : Join) : Piece :=
  .text (" " ++ j.kind.text ++ " " ++ j.table.declared q.dialect)

/-- The pieces of a join: its table and, unless it is a cross join or has no condition, the
condition as it is written alone. -/
def IsJoin (q : Query) (j : Join) (ps : List Piece) : Prop :=
  if j.kind = .cross ∨ j.on.isEmpty = true then ps = [q.joinHead j]
  else ∃ c, (j.on.phrase q.scope).toExpression q.binding = .ok c ∧
    ps = q.joinHead j :: .text " ON " :: c.pieces

/-- A key of the order as it is written alone. -/
def IsKey (q : Query) (o : SortKey) (k : Expression) : Prop :=
  (Column.spliced (o.expression q.scope)).toExpression q.binding = .ok k

/-- The numbers of the first and the last row of a page, as Firebird writes them. -/
def rowRange (limit offset : Nat) : String :=
  " ROWS " ++ natText (min (offset + 1) greatestRow) ++ " TO " ++
    natText (min (offset + limit) greatestRow)

/-- The words of an engine for a limit. -/
def limitWords (q : Query) (limit : Nat) : String :=
  match q.dialect, q.offset with
  | .sqlServer, _ => "TOP (" ++ natText limit ++ ") "
  | .firebird, some offset => rowRange limit offset
  | .firebird, none => " ROWS " ++ natText limit
  | _, _ => " LIMIT " ++ natText limit

/-- A statement keeps the clauses of a query. -/
structure KeepsClauses (q : Query) (e : Expression) : Prop where
  /-- The query has no condition on gathered rows. -/
  having : q.having.isEmpty = true
  /-- The joins stand one after another, in their order. -/
  joins : ∃ parts, List.Forall₂ q.IsJoin q.joins parts ∧ e.Contains parts.flatten
  /-- The conditions stand as they are written alone. -/
  filters : q.filters.isEmpty = false → ∃ c,
    (q.filters.phrase q.scope).toExpression q.binding = .ok c ∧
      e.Contains (.text " WHERE " :: c.pieces)
  /-- The keys of the order stand one after another, all of them. -/
  order : q.orderBy ≠ [] → ∃ keys, List.Forall₂ q.IsKey q.orderBy keys ∧
    e.Contains (.text " ORDER BY " ::
      ((keys.map Expression.pieces).intersperse [.text ", "]).flatten)
  /-- The limit stands in the words of the engine. -/
  limit : ∀ n, q.limit = some n → e.Contains [.text (q.limitWords n)]
  /-- An offset is one of Firebird, has a limit, and stands with it as the numbers of rows. -/
  offset : ∀ k, q.offset = some k → q.dialect = .firebird ∧ ∃ n, q.limit = some n ∧
    e.Contains [.text (rowRange n k)]

/-! ## Clauses of a phrase -/

/-- A phrase has the clauses of a query. -/
structure Says (q : Query) (p : Phrase) : Prop where
  having : q.having.isEmpty = true
  joins : q.joinings <:+: p
  filters : q.filtering <:+: p
  order : q.ordering <:+: p
  limit : ∀ n, q.limit = some n → [.text (q.limitWords n)] <:+: p
  offset : q.offset.isSome = true → q.dialect = .firebird ∧ q.limit.isSome = true

/-- What is said is said with words in front of it too. -/
theorem Says.append {p : Phrase} (h : q.Says p) (before : Phrase) : q.Says (before ++ p) where
  having := h.having
  joins := List.infix_append_of_infix_right h.joins
  filters := List.infix_append_of_infix_right h.filters
  order := List.infix_append_of_infix_right h.order
  limit n hn := List.infix_append_of_infix_right (h.limit n hn)
  offset := h.offset

/-! ## Clauses as they are written -/

/-- The words of a join may be written one by one. -/
theorem ofPieces_joinHead (q : Query) (j : Join) (rest : List Piece) :
    Expression.ofPieces (.text " " :: .text j.kind.text :: .text " " ::
      .text (j.table.declared q.dialect) :: rest) = .ofPieces (q.joinHead j :: rest) := by
  unfold joinHead
  simp only [← Expression.ofPieces_text_text]

/-- A join is written as its table and its condition. -/
theorem isJoin_of_written {j : Join} {xs : List Piece}
    (h : (q.joining j).written q.binding = .ok xs) :
    ∃ ps, q.IsJoin j ps ∧ Expression.ofPieces xs = .ofPieces ps := by
  unfold joining at h
  obtain ⟨hs, cs, hh, hc, rfl⟩ := Phrase.written_append_eq_ok_iff.mp h
  cases hh
  by_cases hj : j.kind = .cross ∨ j.on.isEmpty = true
  · have hoff : decide (j.kind ≠ .cross ∧ (!j.on.isEmpty) = true) = false := by
      rcases hj with hj | hj <;> simp [hj]
    rw [hoff] at hc
    cases hc
    refine ⟨[q.joinHead j], ?_, ofPieces_joinHead q j []⟩
    rw [IsJoin, if_pos hj]
  · have hon : decide (j.kind ≠ .cross ∧ (!j.on.isEmpty) = true) = true := by
      simpa [not_or] using hj
    rw [hon, Phrase.onlyIf, if_pos rfl, Phrase.written_text, map_eq_ok_iff] at hc
    obtain ⟨ps, hp, rfl⟩ := hc
    refine ⟨q.joinHead j :: .text " ON " :: (Expression.ofPieces ps).pieces, ?_, ?_⟩
    · rw [IsJoin, if_neg hj]
      exact ⟨.ofPieces ps, Phrase.toExpression_eq_ok_iff.mpr ⟨ps, hp, rfl⟩, rfl⟩
    · refine (ofPieces_joinHead q j (.text " ON " :: ps)).trans ?_
      exact Expression.ofPieces_cons _ (Expression.ofPieces_cons _
        (Expression.ofPieces_pieces_ofPieces ps).symm)

theorem joins_of_written : ∀ {joins : List Join} {xs : List Piece},
    Phrase.written q.binding (joins.flatMap q.joining) = .ok xs →
    ∃ parts, List.Forall₂ q.IsJoin joins parts ∧
      Expression.ofPieces xs = .ofPieces parts.flatten
  | [], xs, h => by
    cases h
    exact ⟨[], .nil, rfl⟩
  | j :: joins, xs, h => by
    rw [List.flatMap_cons] at h
    obtain ⟨ys, zs, hy, hz, rfl⟩ := Phrase.written_append_eq_ok_iff.mp h
    obtain ⟨part, hpart, hye⟩ := isJoin_of_written hy
    obtain ⟨parts, hparts, hze⟩ := joins_of_written hz
    exact ⟨part :: parts, .cons hpart hparts, Expression.ofPieces_append hye hze⟩

/-- The order is written as its keys with commas between them. -/
theorem keys_of_written {xs : List Piece} (h : q.orderList.written q.binding = .ok xs) :
    ∃ keys, List.Forall₂ q.IsKey q.orderBy keys ∧
      Expression.ofPieces xs =
        .ofPieces ((keys.map Expression.pieces).intersperse [.text ", "]).flatten := by
  unfold orderList at h
  rw [Phrase.written_join, map_eq_ok_iff, List.mapM_map] at h
  obtain ⟨items, hm, rfl⟩ := h
  refine ⟨items.map .ofPieces, ?_, ?_⟩
  · rw [List.forall₂_map_right_iff]
    refine (mapM_eq_ok_iff.mp hm).imp fun o item ho => ?_
    exact Phrase.toExpression_eq_ok_iff.mpr ⟨item, ho, rfl⟩
  · rw [List.map_map]
    exact (Expression.ofPieces_intersperse ", " items).symm

/-- **What a phrase says, its statement keeps.** -/
theorem Says.keepsClauses {p : Phrase} (hs : q.Says p) (h : p.toExpression q.binding = .ok e) :
    q.KeepsClauses e where
  having := hs.having
  joins := by
    obtain ⟨xs, hw, hc⟩ := Expression.contains_of_infix hs.joins h
    obtain ⟨parts, hparts, hxs⟩ := joins_of_written hw
    exact ⟨parts, hparts, hc.congr hxs⟩
  filters hf := by
    obtain ⟨xs, hw, hc⟩ := Expression.contains_of_infix hs.filters h
    rw [filtering, hf, Phrase.onlyIf, Bool.not_false, if_pos rfl, Phrase.written_text,
      map_eq_ok_iff] at hw
    obtain ⟨ps, hp, rfl⟩ := hw
    refine ⟨.ofPieces ps, Phrase.toExpression_eq_ok_iff.mpr ⟨ps, hp, rfl⟩, hc.congr ?_⟩
    exact Expression.ofPieces_cons _ (Expression.ofPieces_pieces_ofPieces ps).symm
  order ho := by
    obtain ⟨xs, hw, hc⟩ := Expression.contains_of_infix hs.order h
    have hne : (!q.orderBy.isEmpty) = true := by simpa using ho
    rw [ordering, hne, Phrase.onlyIf, if_pos rfl, Phrase.written_text, map_eq_ok_iff] at hw
    obtain ⟨ps, hp, rfl⟩ := hw
    obtain ⟨keys, hkeys, hps⟩ := keys_of_written hp
    exact ⟨keys, hkeys, hc.congr (Expression.ofPieces_cons _ hps)⟩
  limit n hn := by
    obtain ⟨xs, hw, hc⟩ := Expression.contains_of_infix (hs.limit n hn) h
    cases hw
    exact hc
  offset k hk := by
    obtain ⟨hd, hl⟩ := hs.offset (by rw [hk]; rfl)
    obtain ⟨n, hn⟩ := Option.isSome_iff_exists.mp hl
    obtain ⟨xs, hw, hc⟩ := Expression.contains_of_infix (hs.limit n hn) h
    cases hw
    have hr : q.limitWords n = rowRange n k := by
      unfold limitWords
      rw [hd, hk]
    exact ⟨hd, n, hn, hr ▸ hc⟩

/-! ## What each engine says and refuses -/

/-- No clause that the engine refuses for a statement is present. -/
def Unrefused (q : Query) (m : Modification) (manyTables : Bool) : Prop :=
  ∀ clause ∈ q.refusedClauses m manyTables, clause.1 = false

theorem unrefused_of_written {m : Modification} {manyTables : Bool} {xs : List Piece}
    (h : (q.checkModification m manyTables).written q.binding = .ok xs) :
    q.Unrefused m manyTables := by
  obtain ⟨ps, -, hp, -, -⟩ := Phrase.written_append_eq_ok_iff.mp h
  unfold Unrefused
  unfold refuse at hp
  generalize q.refusedClauses m manyTables = clauses at hp
  induction clauses generalizing ps with
  | nil => exact fun _ hc => by cases hc
  | cons clause clauses ih =>
    rw [List.flatMap_cons] at hp
    obtain ⟨us, vs, hu, hv, -⟩ := Phrase.written_append_eq_ok_iff.mp hp
    exact List.forall_mem_cons.mpr ⟨Phrase.eq_false_of_written_failIf hu, ih vs hv⟩

namespace Unrefused

variable {m : Modification} {manyTables : Bool}

theorem sqlServer (hd : q.dialect = .sqlServer) (h : q.Unrefused m manyTables) :
    q.orderBy = [] ∧ q.offset = none ∧ q.having.isEmpty = true := by
  simpa [Unrefused, refusedClauses, hd] using h

theorem mysql (hd : q.dialect = .mysql) (h : q.Unrefused m manyTables) :
    q.having.isEmpty = true ∧ q.offset = none ∧
      (manyTables = true → q.limit = none) ∧ (manyTables = true → q.orderBy = []) := by
  simpa [Unrefused, refusedClauses, hd] using h

theorem sqlite (hd : q.dialect = .sqlite) (h : q.Unrefused m manyTables) :
    q.joins = [] ∧ q.limit = none ∧ q.offset = none ∧ q.orderBy = [] ∧
      q.having.isEmpty = true := by
  have hs : ∀ clause ∈ q.selectOnlyClauses, clause.1 = false := fun clause hc => by
    refine h clause ?_
    unfold refusedClauses
    rw [hd]
    exact List.mem_append_left _ hc
  simpa [selectOnlyClauses] using hs

theorem firebird (hd : q.dialect = .firebird) (h : q.Unrefused m manyTables) :
    q.joins = [] ∧ q.having.isEmpty = true ∧ (q.offset.isSome = true → q.limit.isSome = true) := by
  simpa [Unrefused, refusedClauses, hd, Option.isSome_iff_ne_none] using h

end Unrefused

theorem joinings_of_nil (h : q.joins = []) : q.joinings = [] := by
  unfold joinings
  rw [h]
  rfl

/-- The joins follow the table. -/
theorem joinings_infix_fromTables : q.joinings <:+: q.fromTables := List.infix_append_right

/-- SQL Server refuses an order and an offset: a phrase says all if it has the joins, the
conditions and the number of rows. -/
theorem says_sqlServer {m : Modification} {manyTables : Bool} (hd : q.dialect = .sqlServer)
    (hu : q.Unrefused m manyTables) {p : Phrase} (hj : q.joinings <:+: p)
    (hf : q.filtering <:+: p) (hl : [.text (Window.top q.limit)] <:+: p) : q.Says p := by
  obtain ⟨ho, hoff, hh⟩ := hu.sqlServer hd
  refine ⟨hh, hj, hf, ?_, fun n hn => ?_, fun hk => ?_⟩
  · rw [ordering_of_nil ho]
    exact List.nil_infix
  · rw [hn] at hl
    unfold limitWords
    rw [hd]
    exact hl
  · rw [hoff] at hk
    cases hk

/-- MySQL refuses an offset. -/
theorem says_mysql {m : Modification} {manyTables : Bool} (hd : q.dialect = .mysql)
    (hu : q.Unrefused m manyTables) {p : Phrase} (hj : q.joinings <:+: p)
    (hf : q.filtering <:+: p) (ho : q.ordering <:+: p)
    (hl : q.limit.isSome = true → q.mysqlLimit <:+: p) : q.Says p := by
  obtain ⟨hh, hoff, -, -⟩ := hu.mysql hd
  refine ⟨hh, hj, hf, ho, fun n hn => ?_, fun hk => ?_⟩
  · have h := hl (by rw [hn]; rfl)
    unfold mysqlLimit at h
    rw [hn, hoff] at h
    unfold limitWords
    rw [hd]
    exact h
  · rw [hoff] at hk
    cases hk

/-- SQLite refuses everything but conditions. -/
theorem says_sqlite {m : Modification} {manyTables : Bool} (hd : q.dialect = .sqlite)
    (hu : q.Unrefused m manyTables) {p : Phrase} (hf : q.filtering <:+: p) : q.Says p := by
  obtain ⟨hj, hl, hoff, ho, hh⟩ := hu.sqlite hd
  refine ⟨hh, ?_, hf, ?_, fun n hn => ?_, fun hk => ?_⟩
  · rw [joinings_of_nil hj]
    exact List.nil_infix
  · rw [ordering_of_nil ho]
    exact List.nil_infix
  · rw [hl] at hn
    cases hn
  · rw [hoff] at hk
    cases hk

/-- Firebird refuses joins, and an offset that has no limit. -/
theorem says_firebird {m : Modification} {manyTables : Bool} (hd : q.dialect = .firebird)
    (hu : q.Unrefused m manyTables) {p : Phrase} (hf : q.filtering <:+: p)
    (ho : q.ordering <:+: p) (hl : q.firebirdRows <:+: p) : q.Says p := by
  obtain ⟨hj, hh, hoff⟩ := hu.firebird hd
  refine ⟨hh, ?_, hf, ho, fun n hn => ?_, fun hk => ⟨hd, hoff hk⟩⟩
  · rw [joinings_of_nil hj]
    exact List.nil_infix
  · unfold firebirdRows at hl
    rw [hn] at hl
    unfold limitWords
    rw [hd]
    cases hk : q.offset with
    | none =>
      rw [hk] at hl
      exact hl
    | some k =>
      rw [hk] at hl
      exact hl

/-- A query that names its table only has no joins. -/
theorem joins_of_needsTarget_eq_false (h : q.needsTarget = false) : q.joins = [] := by
  unfold needsTarget at h
  simp_all

/-! ## Checks that have passed -/

open List (infix_append_of_infix_left infix_append_of_infix_right infix_append_left
  infix_append_right)

/-- An UPDATE that is built has passed its checks. -/
theorem written_check_update {cells : List Cell} (h : q.update cells = .ok e) :
    ∃ xs, (q.checkModification .update (!q.joins.isEmpty)).written q.binding = .ok xs := by
  obtain ⟨xs, hw, -⟩ :=
    Expression.contains_of_infix (infix_append_of_infix_left infix_append_right) h
  exact ⟨xs, hw⟩

/-- A DELETE that is built has passed its checks. -/
theorem written_check_delete (h : q.delete = .ok e) :
    ∃ xs, (q.checkModification .delete q.needsTarget).written q.binding = .ok xs := by
  obtain ⟨xs, hw, -⟩ := Phrase.toExpression_eq_ok_iff.mp h
  obtain ⟨us, vs, hu, -, -⟩ := Phrase.written_append_eq_ok_iff.mp hw
  exact ⟨us, hu⟩

/-- A DELETE from joined tables that is built is a DELETE, or one of MySQL that names its tables and
has passed its checks. -/
theorem deleteJoined_cases (h : q.deleteJoined = .ok e) :
    q.delete = .ok e ∨ q.dialect = .mysql ∧
      (∃ xs, (q.checkModification .delete true).written q.binding = .ok xs) ∧
      ∃ targets, (q.checkModification .delete true ++ q.deleteFrom targets).toExpression
        q.binding = .ok e := by
  cases hd : q.dialect with
  | sqlServer => rw [deleteJoined_sqlServer hd] at h; cases h
  | firebird => rw [deleteJoined_firebird hd] at h; cases h
  | sqlite =>
    unfold deleteJoined deleteJoinedPhrase at h
    rw [hd] at h
    exact .inl h
  | mysql =>
    unfold deleteJoined deleteJoinedPhrase at h
    rw [hd] at h
    by_cases hj : q.joins.isEmpty = true
    · simp only [if_pos hj] at h
      exact .inl h
    · simp only [if_neg hj] at h
      obtain ⟨xs, hw, -⟩ := Phrase.toExpression_eq_ok_iff.mp h
      obtain ⟨us, vs, hu, -, -⟩ := Phrase.written_append_eq_ok_iff.mp hw
      exact .inr ⟨rfl, ⟨us, hu⟩, _, h⟩

/-! ## The statements -/

theorem says_update (hu : q.Unrefused .update (!q.joins.isEmpty)) (cells : List Cell) :
    q.Says (q.updatePhrase cells) := by
  unfold updatePhrase
  refine Says.append ?_ _
  cases hd : q.dialect with
  | sqlServer =>
    refine says_sqlServer hd hu ?_ infix_append_right ?_
    · refine infix_append_of_infix_left (infix_append_of_infix_right ?_)
      by_cases ht : q.needsTarget = true
      · rw [if_pos ht]
        exact infix_append_of_infix_right joinings_infix_fromTables
      · rw [joinings_of_nil (joins_of_needsTarget_eq_false (Bool.eq_false_iff.mpr ht))]
        exact List.nil_infix
    · exact infix_append_of_infix_left (infix_append_of_infix_left ⟨[.text "UPDATE "], [], rfl⟩)
  | mysql =>
    refine says_mysql hd hu ?_ ?_ ?_ fun _ => infix_append_right
    · iterate 4 refine infix_append_of_infix_left ?_
      exact infix_append_right
    · iterate 2 refine infix_append_of_infix_left ?_
      exact infix_append_right
    · exact infix_append_of_infix_left infix_append_right
  | sqlite => exact says_sqlite hd hu infix_append_right
  | firebird =>
    refine says_firebird hd hu ?_ ?_ infix_append_right
    · iterate 2 refine infix_append_of_infix_left ?_
      exact infix_append_right
    · exact infix_append_of_infix_left infix_append_right

/-- A statement of MySQL that names its tables has no page and no order. -/
theorem says_deleteFrom (hd : q.dialect = .mysql) {m : Modification} (hu : q.Unrefused m true)
    (targets : List String) : q.Says (q.deleteFrom targets) := by
  obtain ⟨-, -, hl, ho⟩ := hu.mysql hd
  unfold deleteFrom
  refine says_mysql hd hu ?_ infix_append_right ?_ fun h => ?_
  · exact infix_append_of_infix_left (infix_append_of_infix_right joinings_infix_fromTables)
  · rw [ordering_of_nil (ho rfl)]
    exact List.nil_infix
  · rw [hl rfl] at h
    cases h

theorem says_delete (hu : q.Unrefused .delete q.needsTarget) : q.Says q.deletePhrase := by
  unfold deletePhrase
  refine Says.append ?_ _
  cases hd : q.dialect with
  | sqlServer =>
    refine says_sqlServer hd hu ?_ infix_append_right ?_
    · refine infix_append_of_infix_left (infix_append_of_infix_right ?_)
      by_cases ht : q.needsTarget = true
      · rw [if_pos ht]
        exact List.infix_cons joinings_infix_fromTables
      · rw [joinings_of_nil (joins_of_needsTarget_eq_false (Bool.eq_false_iff.mpr ht))]
        exact List.nil_infix
    · exact infix_append_of_infix_left (infix_append_of_infix_left ⟨[.text "DELETE "], [], rfl⟩)
  | mysql =>
    by_cases ht : q.needsTarget = true
    · rw [ht] at hu
      simp only [if_pos ht]
      exact says_deleteFrom hd hu _
    · have hj := joins_of_needsTarget_eq_false (Bool.eq_false_iff.mpr ht)
      simp only [if_neg ht]
      refine says_mysql hd hu ?_ ?_ ?_ fun _ => infix_append_right
      · rw [joinings_of_nil hj]
        exact List.nil_infix
      · iterate 2 refine infix_append_of_infix_left ?_
        exact infix_append_right
      · exact infix_append_of_infix_left infix_append_right
  | sqlite => exact says_sqlite hd hu infix_append_right
  | firebird =>
    refine says_firebird hd hu ?_ ?_ infix_append_right
    · iterate 2 refine infix_append_of_infix_left ?_
      exact infix_append_right
    · exact infix_append_of_infix_left infix_append_right

theorem keepsClauses_update {cells : List Cell} (h : q.update cells = .ok e) :
    q.KeepsClauses e := by
  obtain ⟨xs, hw⟩ := written_check_update h
  exact (says_update (unrefused_of_written hw) cells).keepsClauses h

theorem keepsClauses_delete (h : q.delete = .ok e) : q.KeepsClauses e := by
  obtain ⟨xs, hw⟩ := written_check_delete h
  exact (says_delete (unrefused_of_written hw)).keepsClauses h

theorem keepsClauses_deleteJoined (h : q.deleteJoined = .ok e) : q.KeepsClauses e := by
  rcases deleteJoined_cases h with h | ⟨hd, ⟨xs, hw⟩, targets, h⟩
  · exact keepsClauses_delete h
  · exact ((says_deleteFrom hd (unrefused_of_written hw) targets).append _).keepsClauses h

/-- **No statement that changes rows drops a clause of its query.** Whenever an UPDATE, a DELETE or
a DELETE from joined tables is built, for any engine, it has every condition, join, key of the order
and bound of the page that the query has. -/
theorem modification_keepsClauses {cells : List Cell}
    (h : q.update cells = .ok e ∨ q.delete = .ok e ∨ q.deleteJoined = .ok e) :
    q.KeepsClauses e := by
  rcases h with h | h | h
  · exact keepsClauses_update h
  · exact keepsClauses_delete h
  · exact keepsClauses_deleteJoined h

/-- The first ten invoices of customers in a city. -/
def cityInvoices : Query :=
  { Query.new ⟨"invoices", none⟩ (.new .sqlServer) with
    joins := [⟨.inner, ⟨"customers", some "c"⟩, [(.and, .columns "customer" "=" "c.id")]⟩]
    filters := [(.and, .equals "city" (.text "Bern"))]
    limit := some 10 }

/-- The UPDATE that marks them as due. -/
def dueInvoices : Expression :=
  .ofPieces [.text "UPDATE TOP (10) [invoices] SET [due] = 1 FROM [invoices] ",
    .text "INNER JOIN [customers] [c] ON [customer] = [c].[id] WHERE [city] = ",
    .bound (.text "Bern")]

theorem cityInvoices_keepsClauses :
    cityInvoices.update [⟨"due", .value (.bool true)⟩] = .ok dueInvoices ∧
      cityInvoices.KeepsClauses dueInvoices := by
  have h : cityInvoices.update [⟨"due", .value (.bool true)⟩] = .ok dueInvoices :=
    Phrase.toExpression_of_normal rfl rfl
  exact ⟨h, modification_keepsClauses (.inl h)⟩

end Query
end SqlWeave
