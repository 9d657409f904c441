import SqlWeave.Proofs.Escaping.InPlace

/-!
# Statements with texts bound and in place

Values are bound by force in two places only, the declarations of a block and the question whether a
table exists. All other statements say the same with texts bound and in place, and force nothing, so
the one with texts in place is the other with their literals put in.

Results:
* `unforced_select`, `unforced_count`, `unforced_insert`, `unforced_update`, `unforced_delete`,
  `unforced_upsert`: these statements force no value to be bound.
* `statements_inlined`: they succeed together, and the one is the other with its texts in place.
-/

namespace SqlWeave

namespace Phrase

variable {p q : Phrase}

/-! ## Phrases that force nothing -/

@[simp]
theorem unforced_nil : Unforced [] := fun _ hm => by cases hm

@[simp]
theorem unforced_cons {part : Part} :
    Unforced (part :: p) ↔ (∀ v, part ≠ .bound v) ∧ Unforced p := List.forall_mem_cons

@[simp]
theorem unforced_append : Unforced (p ++ q) ↔ Unforced p ∧ Unforced q := List.forall_mem_append

@[simp]
theorem unforced_failIf (bad : Bool) (e : Error) : Unforced (failIf bad e) := by
  cases bad <;> simp [failIf]

theorem unforced_onlyIf (holds : Bool) (h : Unforced p) : Unforced (onlyIf holds p) := by
  cases holds with
  | true => exact h
  | false => exact unforced_nil

theorem unforced_flatMap {α : Type} {f : α → Phrase} {xs : List α} (h : ∀ x ∈ xs, Unforced (f x)) :
    Unforced (xs.flatMap f) := by
  intro part hm
  obtain ⟨x, hx, hp⟩ := List.mem_flatMap.mp hm
  exact h x hx part hp

theorem unforced_join {separator : String} : ∀ {phrases : List Phrase},
    (∀ p ∈ phrases, Unforced p) → Unforced (join separator phrases)
  | [], _ => unforced_nil
  | [p], h => by
    rw [join_singleton]
    exact h p List.mem_cons_self
  | p :: q :: phrases, h => by
    have ih : Unforced (join separator (q :: phrases)) :=
      unforced_join fun x hx => h x (List.mem_cons_of_mem _ hx)
    have hrest : Unforced (.text separator :: join separator (q :: phrases)) := by simp [ih]
    exact unforced_append.mpr ⟨h p List.mem_cons_self, hrest⟩

theorem unforced_join_map {α : Type} {separator : String} {f : α → Phrase} {xs : List α}
    (h : ∀ x ∈ xs, Unforced (f x)) : Unforced (join separator (xs.map f)) := by
  refine unforced_join fun p hp => ?_
  obtain ⟨x, hx, rfl⟩ := List.mem_map.mp hp
  exact h x hx

@[simp]
theorem unforced_ofExpression (e : Expression) : Unforced (ofExpression e) :=
  unforced_flatMap fun p _ => by cases p <;> simp [ofLeaf]

@[simp]
theorem unforced_ofParam (a : Param) : Unforced (ofParam a) := by
  cases a with
  | value v => simp [ofParam]
  | expression e => exact unforced_ofExpression e

@[simp]
theorem unforced_ofValues (values : List Value) : Unforced (ofValues values) :=
  unforced_join_map fun v _ => by simp

@[simp]
theorem unforced_ofResult_map (r : Result Expression) :
    Unforced (ofResult (r.map ofExpression)) := by
  cases r with
  | error e => simp [ofResult, Except.map]
  | ok e => exact unforced_ofExpression e

@[simp]
theorem unforced_spliced (r : Result Expression) : Unforced (Column.spliced r) :=
  unforced_ofResult_map r

@[simp]
theorem unforced_nameList (d : Dialect) (names : List String) : Unforced (nameList d names) := by
  have h : Unforced (join ", " (names.map fun n => [.text (d.quote n)])) :=
    unforced_join_map fun n _ => by simp
  simp [nameList, h]

@[simp]
theorem unforced_cellValues (cells : List Cell) : Unforced (cellValues cells) := by
  have h : Unforced (join ", " (cells.map fun c => ofParam c.value)) :=
    unforced_join_map fun c _ => unforced_ofParam c.value
  simp [cellValues, h]

@[simp]
theorem unforced_assignments (d : Dialect) (cells : List Cell) : Unforced (assignments d cells) :=
  unforced_join_map fun c _ => by simp

end Phrase

/-! ## Conditions -/

@[simp]
theorem Operand.unforced_phrase (s : Scope) (o : Operand) : (o.phrase s).Unforced := by
  cases o <;> simp [phrase]

namespace Condition

theorem unforced_enclosed {parens : Bool} {p : Phrase} (h : p.Unforced) :
    (enclosed parens p).Unforced := by
  unfold enclosed
  split <;> simp [h]

mutual

theorem unforced_phrase (s : Scope) : ∀ c : Condition, (c.phrase s).Unforced
  | and items => Phrase.unforced_join (unforced_operands s items)
  | or items => Phrase.unforced_join (unforced_operands s items)
  | not inner => by
    have ih := unforced_phrase s inner
    unfold phrase
    split <;> simp [ih]
  | compare left op right => by
    unfold phrase
    split <;> simp
  | nullCheck operand isNull => by simp [phrase]
  | inList operand values negated => by
    unfold phrase
    split <;> simp
  | inExpression operand e negated => by simp [phrase]
  | between operand low high negated => by simp [phrase]
  | expression e => by simp [phrase]
  | always => by simp [phrase]
  | never => by simp [phrase]

theorem unforced_operands (s : Scope) : ∀ items : List Condition,
    ∀ p ∈ operands s items, p.Unforced
  | [], p, hp => by cases hp
  | c :: rest, p, hp => by
    unfold operands at hp
    split at hp
    · exact unforced_operands s rest p hp
    · rcases List.mem_cons.mp hp with rfl | hp
      · exact unforced_enclosed (unforced_phrase s c)
      · exact unforced_operands s rest p hp

end

end Condition

@[simp]
theorem ConditionGroup.unforced_phrase (s : Scope) (g : ConditionGroup) :
    (g.phrase s).Unforced := by
  intro part hm
  have hall : Phrase.Unforced ((g.filter (!·.2.isEmpty)).flatMap (item s)) :=
    Phrase.unforced_flatMap fun i _ => by
      have h : (Condition.enclosed i.2.needsParens (i.2.phrase s)).Unforced :=
        Condition.unforced_enclosed (i.2.unforced_phrase s)
      simp [item, h]
  exact hall part (List.mem_of_mem_drop hm)

/-! ## Clauses -/

namespace Query

open Phrase

variable (q : Query)

@[simp]
theorem unforced_refuse (statement : String) (clauses : List (Bool × String)) :
    (q.refuse statement clauses).Unforced := unforced_flatMap fun _ _ => by simp

@[simp]
theorem unforced_checkCells (cells : List Cell) : (checkCells cells).Unforced := by
  simp [checkCells]

@[simp]
theorem unforced_checkModification (m : Modification) (manyTables : Bool) :
    (q.checkModification m manyTables).Unforced := by simp [checkModification, checkSafe]

@[simp]
theorem unforced_checkInsert : q.checkInsert.Unforced := by
  unfold checkInsert
  split <;> simp

@[simp]
theorem unforced_distinctWord : q.distinctWord.Unforced := unforced_onlyIf _ (by simp)

@[simp]
theorem unforced_selectList : q.selectList.Unforced := by
  unfold selectList
  split
  · simp
  · exact unforced_join_map fun _ _ => unforced_spliced _

@[simp]
theorem unforced_joinings : q.joinings.Unforced :=
  unforced_flatMap fun j _ => by
    have h : ∀ holds, (onlyIf holds (.text " ON " :: j.on.phrase q.scope)).Unforced :=
      fun holds => unforced_onlyIf holds (by simp)
    simp [joining, h]

@[simp]
theorem unforced_fromTables : q.fromTables.Unforced := by simp [fromTables]

@[simp]
theorem unforced_filtering : q.filtering.Unforced := unforced_onlyIf _ (by simp)

@[simp]
theorem unforced_body : q.body.Unforced := by
  have hg : q.groups.Unforced := unforced_onlyIf _ <| by
    have h : (Phrase.join ", " (q.groupBy.map fun c => Column.spliced (c.bare q.scope))).Unforced :=
      unforced_join_map fun _ _ => unforced_spliced _
    simp [h]
  have hh : q.groupFiltering.Unforced := unforced_onlyIf _ (by simp)
  simp [body, grouping, hg, hh]

@[simp]
theorem unforced_orderList : q.orderList.Unforced := unforced_join_map fun _ _ => unforced_spliced _

@[simp]
theorem unforced_ordering : q.ordering.Unforced := unforced_onlyIf _ (by simp)

/-! ## Statements -/

theorem unforced_select : q.selectPhrase.Unforced := by
  unfold selectPhrase
  split
  · unfold sqlServerSelect
    split
    · simp
    · split
      · simp
      · split <;> simp [numberedRows, plainSelect]
  · simp [plainSelect, mysqlLimit]
  · simp [plainSelect, sqliteLimit]
  · simp

theorem unforced_count (column : Option Column) : (q.countPhrase column).Unforced := by
  unfold countPhrase
  dsimp only
  split
  · simp
  · split
    · split <;> simp
    · split <;> simp

@[simp]
theorem unforced_plainTable : q.plainTable.Unforced := by simp [plainTable]

@[simp]
theorem unforced_insertInto : q.insertInto.Unforced := by simp [insertInto]

@[simp]
theorem unforced_insert (r : Row) : (q.insertPhrase r).Unforced := by
  simp [insertPhrase, insertRow]

theorem unforced_insertKey (r : Row) (key : String) : (q.insertKeyPhrase r key).Unforced := by
  unfold insertKeyPhrase
  split <;> simp

theorem unforced_update (cells : List Cell) : (q.updatePhrase cells).Unforced := by
  unfold updatePhrase
  dsimp only
  split
  · split <;> simp
  · simp [mysqlLimit]
  · split <;> simp
  · simp [firebirdRows]

theorem unforced_delete : q.deletePhrase.Unforced := by
  unfold deletePhrase
  split
  · split <;> simp
  · split <;> simp [deleteFrom, mysqlLimit]
  · simp
  · simp [firebirdRows]

theorem unforced_deleteJoined : q.deleteJoinedPhrase.Unforced := by
  unfold deleteJoinedPhrase
  split
  · simp
  · simp
  · exact q.unforced_delete
  · split
    · exact q.unforced_delete
    · simp [deleteFrom]

end Query

namespace Upsert

open Phrase

@[simp]
theorem unforced_check (u : Upsert) (rows : List Row) : (u.check rows).Unforced := by
  cases rows with
  | nil => simp [check]
  | cons r rows =>
    rw [check, unforced_append]
    refine ⟨by simp [Query.checkRows], ?_⟩
    split <;> simp

@[simp]
theorem unforced_mergeClauses (u : Upsert) (d : Dialect) (names : List String) :
    (u.mergeClauses d names).Unforced := by
  have hequations : ∀ (separator left right : String) (columns : List String),
      (Phrase.join separator (columns.map (equation d left right))).Unforced :=
    fun _ _ _ _ => unforced_join_map fun n _ => by simp [equation]
  have hvalues : (Phrase.join ", " (names.map fun n => [.text (qualified d source n)])).Unforced :=
    unforced_join_map fun n _ => by simp
  simp [mergeClauses, hequations, hvalues]

@[simp]
theorem unforced_sourceRow (b : Binding) (r : Row) : (sourceRow b r).Unforced := by
  have hcells : (Phrase.join ", " (r.cells.map (sourceCell b))).Unforced :=
    unforced_join_map fun c _ => by
      unfold sourceCell
      split <;> simp
  simp [sourceRow, hcells]

end Upsert

namespace Query

open Phrase

variable (q : Query)

@[simp]
theorem unforced_upsertRows (rows : List Row) (u : Upsert) (first : Row) :
    (q.upsertRowsPhrase rows u first).Unforced := by
  have htuples : (Phrase.join ", " (rows.map fun r => cellValues r.cells)).Unforced :=
    unforced_join_map fun r _ => unforced_cellValues r.cells
  have hsources : (Phrase.join " UNION ALL " (rows.map (Upsert.sourceRow q.binding))).Unforced :=
    unforced_join_map fun r _ => Upsert.unforced_sourceRow _ r
  have hsettings : ∀ f : String → String,
      (Phrase.join ", " (u.updated.map fun n => [.text (f n)])).Unforced :=
    fun _ => unforced_join_map fun n _ => by simp
  unfold upsertRowsPhrase
  dsimp only
  split
  · simp [mergeInto, htuples]
  · simp [htuples, hsettings]
  · simp [insertRow, hsettings]
  · simp [mergeInto, hsources]

theorem unforced_upsert (rows : List Row) (u : Upsert) : (q.upsertPhrase rows u).Unforced := by
  unfold upsertPhrase
  split <;> split <;> simp

/-! ## Both modes -/

/-- A statement that says the same in both modes and forces nothing to be bound. -/
theorem inlined_of_phrase {p : Phrase} (h : p.Unforced) :
    Alike (Inlined q.dialect) (p.toExpression (q.escaping false).binding)
      (p.toExpression (q.escaping true).binding) := alike_escaping (c := q.config) h

end Query

/-- **Writing texts in place and binding them gives one statement.** With the option and without it,
a statement fails with one error or succeeds; and then the statement with texts in place is the
other with every place of a text replaced by the literal of the text, the other places and values
being kept in their order. -/
theorem statements_inlined (q : Query) :
    Alike (Inlined q.dialect) (q.escaping false).select (q.escaping true).select ∧
      (∀ column, Alike (Inlined q.dialect) ((q.escaping false).count column)
        ((q.escaping true).count column)) ∧
      (∀ r, Alike (Inlined q.dialect) ((q.escaping false).insert r) ((q.escaping true).insert r)) ∧
      (∀ r key, Alike (Inlined q.dialect) ((q.escaping false).insertKey r key)
        ((q.escaping true).insertKey r key)) ∧
      (∀ cells, Alike (Inlined q.dialect) ((q.escaping false).update cells)
        ((q.escaping true).update cells)) ∧
      Alike (Inlined q.dialect) (q.escaping false).delete (q.escaping true).delete ∧
      Alike (Inlined q.dialect) (q.escaping false).deleteJoined (q.escaping true).deleteJoined ∧
      (∀ rows u, Alike (Inlined q.dialect) ((q.escaping false).upsert rows u)
        ((q.escaping true).upsert rows u)) := by
  refine ⟨?_, fun column => ?_, fun r => ?_, fun r key => ?_, fun cells => ?_, ?_, ?_,
    fun rows u => ?_⟩
  · unfold Query.select
    rw [q.selectPhrase_escaping, q.selectPhrase_escaping]
    exact q.inlined_of_phrase q.unforced_select
  · unfold Query.count
    rw [q.countPhrase_escaping, q.countPhrase_escaping]
    exact q.inlined_of_phrase (q.unforced_count column)
  · unfold Query.insert
    rw [q.insertPhrase_escaping, q.insertPhrase_escaping]
    exact q.inlined_of_phrase (q.unforced_insert r)
  · unfold Query.insertKey
    rw [q.insertKeyPhrase_escaping, q.insertKeyPhrase_escaping]
    exact q.inlined_of_phrase (q.unforced_insertKey r key)
  · unfold Query.update
    rw [q.updatePhrase_escaping, q.updatePhrase_escaping]
    exact q.inlined_of_phrase (q.unforced_update cells)
  · unfold Query.delete
    rw [q.deletePhrase_escaping, q.deletePhrase_escaping]
    exact q.inlined_of_phrase q.unforced_delete
  · unfold Query.deleteJoined
    rw [q.deleteJoinedPhrase_escaping, q.deleteJoinedPhrase_escaping]
    exact q.inlined_of_phrase q.unforced_deleteJoined
  · unfold Query.upsert
    rw [q.upsertPhrase_escaping, q.upsertPhrase_escaping]
    exact q.inlined_of_phrase (q.unforced_upsert rows u)

end SqlWeave
