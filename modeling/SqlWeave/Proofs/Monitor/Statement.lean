import SqlWeave.Proofs.Insert.Row
import SqlWeave.Proofs.Monitor.Quiet
import SqlWeave.Proofs.Redaction.Outcome
import SqlWeave.Proofs.Template.Views

/-!
# Statements that are silent about conflicts

Where the texts of a query or a row are bound and its names are silent, all that it writes is quiet:
its tables, columns and conditions, the words of its page, its rows. The statement is its phrase
with marks in the places of the values, and what is put in a place makes no difference to a
listener, so nothing is heard of conflicts in the statement either.

Results:
* `Query.hushed_selectPhrase`: the selection of a silent query is hushed.
* `Expression.listen_render`: marks are heard as the question marks that they stand for.
* `Phrase.Hushed.handlesConflicts`: a statement whose phrase is hushed does not handle conflicts.
* `Query.hushed_insertPhrase`, `Query.hushed_insertSelectedPhrase`, `Query.hushed_valuesBatch`: the
  INSERTs of silent rows and of the rows of silent queries are hushed.
-/

namespace SqlWeave

open Conflict Number

/-! ## Names of tables and rows -/

/-- A table whose name and alias are silent. -/
structure TableName.Silent (t : TableName) : Prop where
  name : Conflict.Silent t.name
  aliasName : ∀ a ∈ t.aliasName, Conflict.Silent a

namespace TableName

variable {t : TableName}

theorem Silent.calm_aliasOrName (h : t.Silent) : Calm t.aliasOrName := by
  unfold aliasOrName
  cases ha : t.aliasName with
  | none => exact h.name.calm
  | some a => exact (h.aliasName a ha).calm

theorem Silent.quiet_declared (h : t.Silent) (d : Dialect) : Quiet (t.declared d) := by
  have hname := d.quiet_quote h.name.calm
  unfold declared
  split
  · next a ha =>
    have halias := d.quiet_quotePart (h.aliasName a ha).calm.clear
    exact (hname.append (quiet_of (by decide))).append halias
  · exact hname

end TableName

/-- A row without fragments, whose names are silent. -/
def Row.Silent (r : Row) : Prop := ∀ c ∈ r.cells, Conflict.Silent c.name ∧ ∃ v, c.value = .value v

/-- A query that binds texts, has no fragments and whose names and operators are silent. -/
structure Query.Silent (q : Query) : Prop where
  binds : q.config.escapeStrings = false
  table : q.table.Silent
  columns : ∀ c ∈ q.columns, c.Silent q.config ∧ ∀ a ∈ c.aliasName?, Conflict.Silent a
  joins : ∀ j ∈ q.joins, j.table.Silent ∧ j.on.Silent q.binding q.scope
  filters : q.filters.Silent q.binding q.scope
  groupBy : ∀ c ∈ q.groupBy, c.Silent q.config
  having : q.having.Silent q.binding q.scope
  orderBy : ∀ o ∈ q.orderBy, o.column.Silent q.config

/-! ## Pages -/

namespace Window

theorem quiet_condition (w : Window) : Quiet w.condition := by
  cases w with
  | between first last =>
    exact ((Quiet.append (quiet_of (by decide)) (quiet_natText first)).append
      (quiet_of (by decide))).append (quiet_natText last)
  | above row => exact Quiet.append (quiet_of (by decide)) (quiet_natText row)
  | skipTake skip take => exact Quiet.append (quiet_of (by decide)) (quiet_natText skip)

theorem quiet_offsetFetch (offset : Nat) (limit : Option Nat) :
    Quiet (offsetFetch offset limit) := by
  refine ((Quiet.append (quiet_of (by decide)) (quiet_natText offset)).append
    (quiet_of (by decide))).append ?_
  cases limit with
  | none => exact quiet_empty
  | some n =>
    exact (Quiet.append (quiet_of (by decide)) (quiet_natText n)).append (quiet_of (by decide))

theorem quiet_limitOffset {unlimited : String} (h : Quiet unlimited) (limit offset : Option Nat) :
    Quiet (limitOffset unlimited limit offset) := by
  have hlimit : Quiet " LIMIT " := quiet_of (by decide)
  have hoffset : Quiet " OFFSET " := quiet_of (by decide)
  cases limit with
  | none =>
    cases offset with
    | none => exact quiet_empty
    | some m => exact ((hlimit.append h).append hoffset).append (quiet_natText m)
  | some n =>
    cases offset with
    | none => exact hlimit.append (quiet_natText n)
    | some m =>
      exact ((hlimit.append (quiet_natText n)).append hoffset).append (quiet_natText m)

theorem quiet_firstSkip (limit offset : Option Nat) : Quiet (firstSkip limit offset) := by
  have hblank : Quiet " " := quiet_of (by decide)
  unfold firstSkip
  refine Quiet.append ?_ ?_
  · cases limit with
    | none => exact quiet_empty
    | some n => exact (Quiet.append (quiet_of (by decide)) (quiet_natText n)).append hblank
  · cases offset with
    | none => exact quiet_empty
    | some n => exact (Quiet.append (quiet_of (by decide)) (quiet_natText n)).append hblank

theorem quiet_top (limit : Option Nat) : Quiet (top limit) := by
  cases limit with
  | none => exact quiet_empty
  | some n =>
    exact (Quiet.append (quiet_of (by decide)) (quiet_natText n)).append (quiet_of (by decide))

end Window

/-! ## Selecting -/

namespace Query

open Phrase (Hushed hushed_of_quiet hushed_text hushed_join_map hushed_onlyIf hushed_failIf)

variable {q : Query} {b : Binding}

theorem Silent.bindsAll (hq : q.Silent) : q.binding.BindsAll := ⟨rfl, hq.binds⟩

theorem hushed_distinctWord : Hushed b q.distinctWord :=
  hushed_onlyIf _ (hushed_text (quiet_of (by decide)))

section

variable (hq : q.Silent)
include hq

theorem hushed_selectList : Hushed q.binding q.selectList := by
  unfold selectList
  split
  · exact hushed_text (quiet_of (by decide))
  · exact hushed_join_map (quiet_of (by decide)) fun c hc => Column.hushed_spliced fun _ he =>
      Column.quiet_selected (s := q.scope) hq.bindsAll hq.table.calm_aliasOrName
        (hq.columns c hc).1 (hq.columns c hc).2 he

theorem hushed_group {g : ConditionGroup} (hg : g.Silent q.binding q.scope) :
    Hushed q.binding (g.phrase q.scope) :=
  ConditionGroup.hushed_phrase hq.bindsAll hq.table.calm_aliasOrName hg

theorem hushed_joining {j : Join} (hj : j ∈ q.joins) : Hushed q.binding (q.joining j) := by
  obtain ⟨ht, hon⟩ := hq.joins j hj
  have hkind : Quiet j.kind.text := by cases j.kind <;> exact quiet_of (by decide)
  have hblank : Quiet " " := quiet_of (by decide)
  refine .text hblank <| .text hkind <| .text hblank <| .text (ht.quiet_declared _) ?_
  exact hushed_onlyIf _ (.text (quiet_of (by decide)) (hushed_group hq hon))

theorem hushed_fromTables : Hushed q.binding q.fromTables :=
  .text (quiet_of (by decide)) <| .text (hq.table.quiet_declared _) <|
    Phrase.hushed_flatMap fun _ hj => hushed_joining hq hj

theorem hushed_filtering : Hushed q.binding q.filtering :=
  hushed_onlyIf _ (.text (quiet_of (by decide)) (hushed_group hq hq.filters))

theorem hushed_grouping : Hushed q.binding q.grouping := by
  have hgroups : Hushed q.binding q.groups := hushed_onlyIf _ <| .text (quiet_of (by decide)) <|
    hushed_join_map (quiet_of (by decide)) fun c hc => Column.hushed_spliced fun _ he =>
      Column.quiet_bare (s := q.scope) hq.bindsAll hq.table.calm_aliasOrName (hq.groupBy c hc) he
  have hhaving : Hushed q.binding q.groupFiltering :=
    hushed_onlyIf _ (.text (quiet_of (by decide)) (hushed_group hq hq.having))
  exact hgroups.append hhaving

theorem hushed_body : Hushed q.binding q.body :=
  ((hushed_fromTables hq).append (hushed_filtering hq)).append (hushed_grouping hq)

theorem hushed_orderList : Hushed q.binding q.orderList :=
  hushed_join_map (quiet_of (by decide)) fun o ho => Column.hushed_spliced fun _ he =>
    SortKey.quiet_expression (s := q.scope) hq.bindsAll hq.table.calm_aliasOrName
      (hq.orderBy o ho) he

theorem hushed_ordering : Hushed q.binding q.ordering :=
  hushed_onlyIf _ (.text (quiet_of (by decide)) (hushed_orderList hq))

theorem hushed_plainSelect : Hushed q.binding q.plainSelect :=
  ((Hushed.text (quiet_of (by decide)) hushed_distinctWord).append
    (hushed_selectList hq)).append (hushed_body hq)

theorem hushed_numberedRows (offset : Nat) : Hushed q.binding (q.numberedRows offset) := by
  have hnumber : Quiet (q.dialect.quotePart rowNumberColumn) :=
    q.dialect.quiet_quotePart (calm_of (by decide)).clear
  have halias : Quiet (") AS " ++ q.dialect.quotePart rowNumberColumn ++ ", ") :=
    (Quiet.append (quiet_of (by decide)) hnumber).append (quiet_of (by decide))
  have hinner : Hushed q.binding (.text "SELECT * FROM (SELECT ROW_NUMBER() OVER(ORDER BY " ::
      q.orderList) := .text (quiet_of (by decide)) (hushed_orderList hq)
  have hend : Hushed q.binding
      [.text ") ", .text (q.dialect.quotePart q.table.aliasOrName), .text " WHERE ",
        .text (q.dialect.quotePart rowNumberColumn),
        .text (Window.numbered offset q.limit).condition] :=
    .text (quiet_of (by decide)) <|
      .text (q.dialect.quiet_quotePart hq.table.calm_aliasOrName.clear) <|
      .text (quiet_of (by decide)) <| .text hnumber <| hushed_text (Window.quiet_condition _)
  exact ((((hushed_failIf _ _).append hinner).append
    (.text halias (hushed_selectList hq))).append (hushed_body hq)).append hend

theorem hushed_sqlServerSelect : Hushed q.binding q.sqlServerSelect := by
  have htop : Hushed q.binding (.text (Window.top q.limit) :: q.selectList) :=
    .text (Window.quiet_top _) (hushed_selectList hq)
  unfold sqlServerSelect
  split
  · exact (((Hushed.text (quiet_of (by decide)) hushed_distinctWord).append htop).append
      (hushed_body hq)).append (hushed_ordering hq)
  · split
    · exact hushed_of_quiet quiet_empty
    · split
      · exact hushed_numberedRows hq _
      · exact ((hushed_plainSelect hq).append (hushed_ordering hq)).append
          (hushed_text (Window.quiet_offsetFetch _ _))

/-- **The selection of a silent query is hushed.** -/
theorem hushed_selectPhrase : Hushed q.binding q.selectPhrase := by
  have hplain := (hushed_plainSelect hq).append (hushed_ordering hq)
  unfold selectPhrase
  split
  · exact hushed_sqlServerSelect hq
  · exact hplain.append (hushed_text (Window.quiet_limitOffset (quiet_natText _) _ _))
  · exact hplain.append (hushed_text (Window.quiet_limitOffset (quiet_of (by decide)) _ _))
  · have hpage : Hushed q.binding
        (.text "SELECT " :: .text (Window.firstSkip q.limit q.offset) :: q.distinctWord) :=
      .text (quiet_of (by decide)) (.text (Window.quiet_firstSkip _ _) hushed_distinctWord)
    exact ((hpage.append (hushed_selectList hq)).append (hushed_body hq)).append
      (hushed_ordering hq)

end

end Query

/-! ## What is heard of a statement -/

section

variable {b : Binding} {e : Expression} {p : Phrase} {K : List (List Char)}

theorem Style.mute_mark (style : Style) (n : Nat) : Mute (style.mark n) := by
  have hn : Mute (natText n) :=
    mute_of_isFigure (natText_ne_empty n) fun _ => isFigure_of_mem_natText
  cases style with
  | question => exact mute_of (by decide)
  | atSign => exact Mute.append (mute_of (by decide)) hn
  | colon => exact Mute.append (mute_of (by decide)) hn

/-- **What is put at the places of a fragment makes no difference** to a listener if nothing is
awaited behind it. -/
theorem Expression.listen_fillPieces : ∀ {ps : List Piece} {texts : List String}
    {K : List (List Char)}, (∀ t ∈ texts, Mute t) → K ⊆ rests →
      listen K (fillPieces ps texts).toList =
        listen K (String.join (ps.map Piece.template)).toList
  | [], _, K, _, _ => rfl
  | p :: ps, texts, K, ht, hK => by
    have hmark : Mute "?" := mute_of (by decide)
    -- behind a place both go on with nothing awaited
    have hplace : ∀ {x : String} {texts : List String}, Mute x → (∀ t ∈ texts, Mute t) →
        listen K (x ++ fillPieces ps texts).toList =
          listen K ("?" ++ String.join (ps.map Piece.template)).toList := by
      intro x texts hx ht
      rw [String.toList_append, String.toList_append, listen_append, listen_append,
        hx.listen hK, hmark.listen hK, Option.bind_some, Option.bind_some]
      exact listen_fillPieces ht (List.nil_subset _)
    have htail : ∀ {t : String} {texts : List String}, (∀ u ∈ t :: texts, Mute u) →
        Mute t ∧ ∀ u ∈ texts, Mute u := List.forall_mem_cons.mp
    rw [List.map_cons, String.join_cons]
    cases p with
    | text s =>
      have htemplate : (Piece.text s).template = s := rfl
      rw [fillPieces, htemplate, String.toList_append, String.toList_append, listen_append,
        listen_append]
      cases hs : listen K s.toList with
      | none => rfl
      | some L => exact listen_fillPieces ht (listen_subset hK hs)
    | bound v =>
      cases texts with
      | nil => exact hplace hmark ht
      | cons t texts => exact hplace (htail ht).1 (htail ht).2
    | nested inner =>
      cases texts with
      | nil => exact hplace hmark ht
      | cons t texts => exact hplace (htail ht).1 (htail ht).2

/-- **Marks are heard as the question marks that they stand for.** -/
theorem Expression.listen_render (e : Expression) (style : Style) :
    listen [] (e.render style).sql.toList = listen [] e.text.toList := by
  unfold render
  rw [renderFrom_eq, String.empty_append]
  refine listen_fillPieces (fun t ht => ?_) (List.nil_subset _)
  obtain ⟨n, -, rfl⟩ := List.mem_map.mp ht
  exact style.mute_mark n

/-- Leaves are written with a mute text for each value. -/
theorem Phrase.exists_texts (hb : b.BindsAll) {ps : List Piece}
    (hf : ∀ p ∈ ps, ∀ inner, p ≠ .nested inner) (hw : Writable b (ps.flatMap ofLeaf)) :
    ∃ texts, (∀ t ∈ texts, Mute t) ∧
      said b (ps.flatMap ofLeaf) = Expression.fillPieces ps texts := by
  induction ps with
  | nil => exact ⟨[], fun _ h => (by cases h), rfl⟩
  | cons p ps ih =>
    obtain ⟨hp, hps⟩ := List.forall_mem_cons.mp hf
    rw [List.flatMap_cons] at hw ⊢
    obtain ⟨hwp, hwps⟩ := writable_append_iff.mp hw
    obtain ⟨texts, ht, hsaid⟩ := ih hps hwps
    rw [said_append, hsaid]
    cases p with
    | text s => exact ⟨texts, ht, by simp [ofLeaf, Expression.fillPieces]⟩
    | bound v =>
      exact ⟨said b [.value v] :: texts,
        List.forall_mem_cons.mpr ⟨mute_said_value hb hwp, ht⟩, rfl⟩
    | nested inner => exact absurd rfl (hp inner)

/-- A fragment with a quiet text is hushed. -/
theorem Phrase.hushed_ofExpression (hb : b.BindsAll) (h : Quiet e.text) :
    Hushed b (ofExpression e) := by
  intro hw
  obtain ⟨texts, ht, hsaid⟩ := exists_texts hb e.ne_nested_of_mem_leaves hw
  obtain ⟨L, hL, hsub⟩ := h
  refine ⟨L, ?_, hsub⟩
  rw [ofExpression, hsaid, Expression.listen_fillPieces ht loose_subset]
  exact hL

/-- The text of a statement is what its phrase says. -/
theorem Phrase.text_eq_said (he : p.toExpression b = .ok e) : e.text = said b p := by
  rw [← template_eq_said he]
  obtain ⟨ps, hps, rfl⟩ := toExpression_eq_ok_iff.mp he
  exact Expression.text_ofPieces_of_flat fun _ => ne_nested_of_mem_written hps

theorem Phrase.writable_of_toExpression (he : p.toExpression b = .ok e) : Writable b p := by
  unfold toExpression at he
  split at he
  · next hw => exact writable_of_write hw
  · cases he

theorem Phrase.Hushed.quiet_text (h : Hushed b p) (he : p.toExpression b = .ok e) :
    Quiet e.text := by
  rw [text_eq_said he]
  exact h (writable_of_toExpression he)

/-- **A statement is heard as what its phrase says.** -/
theorem Phrase.handlesConflicts_iff (he : p.toExpression b = .ok e) (style : Style) :
    StatementKind.handlesConflicts (e.render style).sql.toList = true ↔
      listen [] (said b p).toList = none := by
  rw [Conflict.handlesConflicts_iff, e.listen_render, text_eq_said he]

/-- A hushed phrase does not say what to do with a key that is there. -/
theorem Phrase.Hushed.handlesConflicts (h : Hushed b p) (he : p.toExpression b = .ok e)
    (style : Style) : StatementKind.handlesConflicts (e.render style).sql.toList = false := by
  obtain ⟨L, hL, -⟩ := h.quiet_text he
  obtain ⟨M, hM, -⟩ := listen_mono (List.nil_subset _) hL
  rw [← Bool.not_eq_true, handlesConflicts_iff he, ← text_eq_said he, hM]
  exact Option.some_ne_none M

/-- A phrase with the words for conflicts in it does. -/
theorem Phrase.handlesConflicts_of_mem {w : String} (hm : .text w ∈ p)
    (hw : w.toList.map Char.toUpper ∈ words) (he : p.toExpression b = .ok e) (style : Style) :
    StatementKind.handlesConflicts (e.render style).sql.toList = true := by
  obtain ⟨us, vs, rfl⟩ := List.append_of_mem hm
  rw [handlesConflicts_iff he, listen_eq_none_iff List.not_mem_nil]
  refine .inr ⟨_, hw, (said b us).toList.map Char.toUpper, (said b vs).toList.map Char.toUpper, ?_⟩
  rw [said_append, said_text_cons, String.toList_append, String.toList_append, List.map_append,
    List.map_append, List.append_assoc]

end

namespace Query

open Phrase (Hushed hushed_of_quiet hushed_text hushed_join_map hushed_onlyIf hushed_failIf)

variable {q : Query} {b : Binding}

/-! ## Inserting -/

theorem hushed_nameList {d : Dialect} {names : List String}
    (h : ∀ n ∈ names, Conflict.Silent n) : Hushed b (Phrase.nameList d names) :=
  (Hushed.text (quiet_of (by decide)) (hushed_join_map (quiet_of (by decide)) fun n hn =>
    hushed_text (d.quiet_quote (h n hn).calm))).append (hushed_text (quiet_of (by decide)))

theorem hushed_cellValues (hb : b.BindsAll) {r : Row} (h : r.Silent) :
    Hushed b (Phrase.cellValues r.cells) := by
  have hcell : ∀ c ∈ r.cells, Hushed b (Phrase.ofParam c.value) := by
    intro c hc
    obtain ⟨v, hv⟩ := (h c hc).2
    rw [hv]
    exact Phrase.hushed_value hb v
  exact (Hushed.text (quiet_of (by decide)) (hushed_join_map (quiet_of (by decide)) hcell)).append
    (hushed_text (quiet_of (by decide)))

theorem silent_of_mem_names {r : Row} (h : r.Silent) : ∀ n ∈ r.names, Conflict.Silent n := by
  intro n hn
  obtain ⟨c, hc, rfl⟩ := List.mem_map.mp hn
  exact (h c hc).1

theorem hushed_check {c : Phrase} (h : Phrase.IsCheck c) : Hushed b c := by
  cases c with
  | nil => exact Phrase.hushed_nil
  | cons part c =>
    -- a check that is there cannot be written
    intro hw
    obtain ⟨e, rfl⟩ := h part List.mem_cons_self
    obtain ⟨x, hx⟩ := hw _ List.mem_cons_self
    cases hx

theorem hushed_insertInto (ht : Conflict.Silent q.table.name) : Hushed b q.insertInto :=
  (Hushed.text (quiet_of (by decide)) (hushed_text (q.dialect.quiet_quote ht.calm))).append
    (hushed_text (quiet_of (by decide)))

section

variable (hb : b.BindsAll) (ht : Conflict.Silent q.table.name)
include hb ht

theorem hushed_insertPhrase {r : Row} (hr : r.Silent) : Hushed b (q.insertPhrase r) := by
  have hrow : Hushed b (q.insertRow r) :=
    (((hushed_check (isCheck_checkCells _)).append (hushed_insertInto ht)).append
      (hushed_nameList (silent_of_mem_names hr))).append
      (.text (quiet_of (by decide)) (hushed_cellValues hb hr))
  exact (hushed_check q.isCheck_checkInsert).append hrow

theorem hushed_insertKeyPhrase {r : Row} (hr : r.Silent) {key : String}
    (hk : Conflict.Silent key) : Hushed b (q.insertKeyPhrase r key) := by
  have hinsert := hushed_insertPhrase hb ht hr
  unfold insertKeyPhrase
  split
  · exact hinsert.append (hushed_text (quiet_of (by decide)))
  · exact hinsert.append (hushed_text (quiet_of (by decide)))
  · exact hinsert.append (hushed_text (quiet_of (by decide)))
  · exact ((hushed_failIf _ _).append hinsert).append
      (.text (quiet_of (by decide)) (hushed_text (q.dialect.quiet_quote hk.calm)))

theorem hushed_valuesBatch {rows : List Row} (hr : ∀ r ∈ rows, r.Silent) :
    Hushed b (q.valuesBatch rows) := by
  have hnames : ∀ n ∈ (rows.head?.map Row.names).getD [], Conflict.Silent n := by
    cases rows with
    | nil => exact fun n hn => by cases hn
    | cons r rows => exact silent_of_mem_names (hr r List.mem_cons_self)
  exact ((hushed_insertInto ht).append (hushed_nameList hnames)).append
    (.text (quiet_of (by decide)) (hushed_join_map (quiet_of (by decide)) fun r hm =>
      hushed_cellValues hb (hr r hm)))

end

/-- The rows of another query are written as they are. -/
theorem hushed_insertSelectedPhrase (hb : b.BindsAll) (ht : Conflict.Silent q.table.name)
    {source : Query} (hs : source.Silent) {columns : List String}
    (hc : ∀ n ∈ columns, Conflict.Silent n) :
    Hushed b (q.insertSelectedPhrase source columns) := by
  refine (hushed_check q.isCheck_checkInsert).append ?_
  cases hrows : source.select with
  | error e => exact hushed_of_quiet quiet_empty
  | ok rows =>
    have hblank : Hushed b [.text " "] := hushed_text (quiet_of (by decide))
    have hnames : Hushed b (Phrase.nameList q.dialect columns ++ [.text " "]) :=
      (hushed_nameList hc).append hblank
    exact ((hushed_insertInto ht).append (hushed_onlyIf _ hnames)).append
      (Phrase.hushed_ofExpression hb ((hushed_selectPhrase hs).quiet_text hrows))

end Query
end SqlWeave
