import SqlWeave.Query.Modify
import SqlWeave.Query.Upsert

/-!
# Options that a statement does not speak of

Whether texts are bound or written in place is an option of the binding, and whether rows may be
changed without a condition is one that is looked at before a statement is written. Members, columns
and conditions look at neither, and so what a statement says is the same phrase under these options
and without them, as long as the guard refuses neither or both.

Results:
* `compile_inMode`: members compile alike.
* `bare_inMode`, `selected_inMode`, `Condition.phrase_inMode`: so do columns and conditions.
* `selectPhrase_inMode` and those behind it: the statements say the same.
* `selectPhrase_escaping` and those behind it: in particular, however texts are written.
-/

namespace SqlWeave

/-- Options by which texts are written in place, or bound. -/
def Config.escaping (c : Config) (on : Bool) : Config := { c with escapeStrings := on }

/-- A query with texts written in place, or bound. -/
def Query.escaping (q : Query) (on : Bool) : Query := { q with config := q.config.escaping on }

/-- Options by which texts are written in place, or bound, and by which changes of rows need a
condition, or do not. -/
def Config.inMode (c : Config) (inPlace guarded : Bool) : Config :=
  { c with escapeStrings := inPlace, onlySafeModifications := guarded }

/-- What members see of a statement under these options. -/
def Scope.inMode (s : Scope) (inPlace guarded : Bool) : Scope :=
  { s with config := s.config.inMode inPlace guarded }

/-- A query under these options. -/
def Query.inMode (q : Query) (inPlace guarded : Bool) : Query :=
  { q with config := q.config.inMode inPlace guarded }

variable {s : Scope} {inPlace guarded : Bool}

/-! ## Members -/

theorem bind_eq_bind {α β : Type} {x x' : Result α} {k k' : α → Result β} (hx : x = x')
    (hk : ∀ a, k a = k' a) : (x >>= k) = (x' >>= k') := by
  rw [hx, funext hk]

namespace Registry

/-- The translators of an engine do not look at the statement. -/
theorem translate_inMode {d : Dialect} {t : Translator} (ht : t ∈ ofDialect d) :
    t.translate (s.inMode inPlace guarded) = t.translate s := by
  rcases List.mem_cons.mp ht with rfl | ht
  · rfl
  · rcases List.mem_cons.mp ht with rfl | ht
    · rfl
    · obtain rfl := List.mem_singleton.mp ht
      rfl

theorem apply_inMode {d : Dialect} (current : Expression) (n : Node)
    (args : Result (List Param)) :
    (ofDialect d).apply (s.inMode inPlace guarded) current n args =
      (ofDialect d).apply s current n args := by
  unfold apply
  cases hf : (ofDialect d).find? n with
  | none => rfl
  | some t =>
    have ht : t.translate (s.inMode inPlace guarded) = t.translate s :=
      translate_inMode (List.mem_of_find?_eq_some hf)
    dsimp only
    rw [ht]

variable {d : Dialect} {qualified : Bool}

mutual

theorem member_inMode : ∀ m : Member,
    (ofDialect d).member (s.inMode inPlace guarded) qualified m = (ofDialect d).member s qualified m
  | ⟨root, column, true, children, _, owners⟩ => by
    unfold member
    exact bind_eq_bind (apply_inMode .empty (.property root) (.ok []))
      fun start => nodes_inMode start children
  | ⟨root, column, false, children, _, owners⟩ => by
    unfold member
    exact chain_inMode root column owners children

theorem chain_inMode (root : Property) (column owners : String) : ∀ ns : List Node,
    (ofDialect d).chain (s.inMode inPlace guarded) qualified root column owners ns =
      (ofDialect d).chain s qualified root column owners ns
  | [] => by
    unfold chain
    rfl
  | .property p :: rest => by
    unfold chain
    split
    · exact chain_inMode p _ _ rest
    · exact bind_eq_bind (node_inMode _ (.property p)) fun first => nodes_inMode first rest
  | .method e name args t :: rest => by
    unfold chain
    split
    · rfl
    · exact bind_eq_bind (node_inMode _ (.method e name args t)) fun first =>
        nodes_inMode first rest

theorem nodes_inMode (current : Expression) : ∀ ns : List Node,
    (ofDialect d).nodes (s.inMode inPlace guarded) qualified current ns =
      (ofDialect d).nodes s qualified current ns
  | [] => rfl
  | n :: rest => by
    unfold nodes
    exact bind_eq_bind (node_inMode current n) fun next => nodes_inMode next rest

theorem node_inMode (current : Expression) : ∀ n : Node,
    (ofDialect d).node (s.inMode inPlace guarded) qualified current n =
      (ofDialect d).node s qualified current n
  | .property p => apply_inMode current (.property p) (.ok [])
  | .method e name args t => by
    unfold node
    rw [arguments_inMode args]
    exact apply_inMode current (.method e name args t) _

theorem arguments_inMode : ∀ as : List Arg,
    (ofDialect d).arguments (s.inMode inPlace guarded) qualified as =
      (ofDialect d).arguments s qualified as
  | [] => rfl
  | a :: rest => by
    unfold arguments
    exact bind_eq_bind (arg_inMode a) fun p => by rw [arguments_inMode rest]

theorem arg_inMode : ∀ a : Arg,
    (ofDialect d).arg (s.inMode inPlace guarded) qualified a = (ofDialect d).arg s qualified a
  | .value v => rfl
  | .expression e => rfl
  | .member m => by
    unfold arg
    rw [member_inMode m]

end

end Registry

/-- **Members compile alike.** -/
theorem Member.compile_inMode (m : Member) : m.compile (s.inMode inPlace guarded) = m.compile s :=
  Registry.member_inMode m

/-! ## Columns and conditions -/

namespace Column

mutual

theorem bare_inMode : ∀ c : Column, c.bare (s.inMode inPlace guarded) = c.bare s
  | all => rfl
  | named n => rfl
  | aliased n _ => rfl
  | raw e _ => rfl
  | member m => m.compile_inMode
  | aggregate f args distinct _ => by
    unfold bare
    rw [bareAll_inMode args]

theorem bareAll_inMode : ∀ cs : List Column, bareAll (s.inMode inPlace guarded) cs = bareAll s cs
  | [] => rfl
  | c :: rest => by
    unfold bareAll
    rw [bare_inMode c, bareAll_inMode rest]

end

theorem selected_inMode (c : Column) : c.selected (s.inMode inPlace guarded) = c.selected s := by
  unfold selected
  rw [bare_inMode]
  rfl

end Column

theorem SortKey.expression_inMode (o : SortKey) :
    o.expression (s.inMode inPlace guarded) = o.expression s := by
  unfold expression
  rw [o.column.bare_inMode]

theorem Operand.phrase_inMode (o : Operand) : o.phrase (s.inMode inPlace guarded) = o.phrase s := by
  cases o with
  | column name => rfl
  | value v => rfl
  | expression e => rfl
  | member m =>
    exact congrArg (fun r => Phrase.ofResult (r.map Phrase.ofExpression)) m.compile_inMode

namespace Condition

mutual

theorem phrase_inMode : ∀ c : Condition, c.phrase (s.inMode inPlace guarded) = c.phrase s
  | and items => by
    unfold phrase
    rw [operands_inMode items]
  | or items => by
    unfold phrase
    rw [operands_inMode items]
  | not inner => by
    unfold phrase
    rw [phrase_inMode inner]
  | compare left op right => by
    unfold phrase
    rw [left.phrase_inMode, right.phrase_inMode]
  | nullCheck operand isNull => by
    unfold phrase
    rw [operand.phrase_inMode]
  | inList operand values negated => by
    unfold phrase
    rw [operand.phrase_inMode]
  | inExpression operand e negated => by
    unfold phrase
    rw [operand.phrase_inMode]
  | between operand low high negated => by
    unfold phrase
    rw [operand.phrase_inMode]
  | expression e => rfl
  | always => rfl
  | never => rfl

theorem operands_inMode : ∀ items : List Condition,
    operands (s.inMode inPlace guarded) items = operands s items
  | [] => rfl
  | c :: rest => by
    unfold operands
    rw [phrase_inMode c, operands_inMode rest]

end

end Condition

theorem ConditionGroup.phrase_inMode (g : ConditionGroup) :
    g.phrase (s.inMode inPlace guarded) = g.phrase s := by
  have hitem : item (s.inMode inPlace guarded) = item s := by
    funext i
    unfold item
    rw [i.2.phrase_inMode]
  unfold phrase
  rw [hitem]

/-! ## Statements -/

namespace Query

variable (q : Query)

theorem scope_inMode : (q.inMode inPlace guarded).scope = q.scope.inMode inPlace guarded := rfl

theorem selectList_inMode : (q.inMode inPlace guarded).selectList = q.selectList := by
  unfold selectList
  simp only [scope_inMode, Column.selected_inMode]
  rfl

theorem joinings_inMode : (q.inMode inPlace guarded).joinings = q.joinings := by
  have hj : (q.inMode inPlace guarded).joining = q.joining := by
    funext j
    unfold joining
    rw [scope_inMode, j.on.phrase_inMode]
    rfl
  unfold joinings
  rw [hj]
  rfl

theorem fromTables_inMode : (q.inMode inPlace guarded).fromTables = q.fromTables := by
  unfold fromTables
  rw [joinings_inMode]
  rfl

theorem filtering_inMode : (q.inMode inPlace guarded).filtering = q.filtering := by
  unfold filtering
  rw [scope_inMode, ConditionGroup.phrase_inMode]
  rfl

theorem grouping_inMode : (q.inMode inPlace guarded).grouping = q.grouping := by
  unfold grouping groups groupFiltering
  rw [scope_inMode, ConditionGroup.phrase_inMode]
  simp only [Column.bare_inMode]
  rfl

theorem body_inMode : (q.inMode inPlace guarded).body = q.body := by
  unfold body
  rw [fromTables_inMode, filtering_inMode, grouping_inMode]

theorem orderList_inMode : (q.inMode inPlace guarded).orderList = q.orderList := by
  unfold orderList
  simp only [scope_inMode, SortKey.expression_inMode]
  rfl

theorem ordering_inMode : (q.inMode inPlace guarded).ordering = q.ordering := by
  unfold ordering
  rw [orderList_inMode]
  rfl

theorem plainSelect_inMode : (q.inMode inPlace guarded).plainSelect = q.plainSelect := by
  unfold plainSelect
  rw [selectList_inMode, body_inMode]
  rfl

theorem sqlServerSelect_inMode :
    (q.inMode inPlace guarded).sqlServerSelect = q.sqlServerSelect := by
  unfold sqlServerSelect numberedRows
  rw [selectList_inMode, body_inMode, ordering_inMode, orderList_inMode,
    plainSelect_inMode]
  rfl

theorem selectPhrase_inMode : (q.inMode inPlace guarded).selectPhrase = q.selectPhrase := by
  unfold selectPhrase
  rw [sqlServerSelect_inMode, plainSelect_inMode, ordering_inMode, selectList_inMode,
    body_inMode]
  rfl

theorem countPhrase_inMode (column : Option Column) :
    (q.inMode inPlace guarded).countPhrase column = q.countPhrase column := by
  unfold countPhrase
  simp only [scope_inMode, Column.selected_inMode, Column.bare_inMode, selectList_inMode,
    body_inMode]
  rfl

theorem insertPhrase_inMode (r : Row) :
    (q.inMode inPlace guarded).insertPhrase r = q.insertPhrase r := rfl

theorem insertKeyPhrase_inMode (r : Row) (key : String) :
    (q.inMode inPlace guarded).insertKeyPhrase r key = q.insertKeyPhrase r key := rfl

theorem checkModification_inMode {m : Modification}
    (h : (q.inMode inPlace guarded).checkSafe m = q.checkSafe m) (manyTables : Bool) :
    (q.inMode inPlace guarded).checkModification m manyTables =
      q.checkModification m manyTables := by
  unfold checkModification
  rw [h]
  rfl

theorem updatePhrase_inMode
    (h : (q.inMode inPlace guarded).checkSafe .update = q.checkSafe .update) (cells : List Cell) :
    (q.inMode inPlace guarded).updatePhrase cells = q.updatePhrase cells := by
  unfold updatePhrase
  rw [fromTables_inMode, joinings_inMode, filtering_inMode, ordering_inMode,
    q.checkModification_inMode h]
  rfl

theorem deletePhrase_inMode
    (h : (q.inMode inPlace guarded).checkSafe .delete = q.checkSafe .delete) :
    (q.inMode inPlace guarded).deletePhrase = q.deletePhrase := by
  unfold deletePhrase deleteFrom
  rw [fromTables_inMode, filtering_inMode, ordering_inMode, q.checkModification_inMode h]
  rfl

theorem deleteJoinedPhrase_inMode
    (h : (q.inMode inPlace guarded).checkSafe .delete = q.checkSafe .delete) :
    (q.inMode inPlace guarded).deleteJoinedPhrase = q.deleteJoinedPhrase := by
  unfold deleteJoinedPhrase deleteFrom
  rw [q.deletePhrase_inMode h, fromTables_inMode, filtering_inMode, q.checkModification_inMode h]
  rfl

/-- A source of Firebird names the types of values as they are bound. -/
theorem upsertPhrase_inMode (rows : List Row) (u : Upsert) :
    (q.inMode inPlace guarded).upsertPhrase rows u = q.upsertPhrase rows u := rfl

/-! ## Texts in place -/

variable {on : Bool}

theorem selectPhrase_escaping : (q.escaping on).selectPhrase = q.selectPhrase :=
  q.selectPhrase_inMode

theorem countPhrase_escaping (column : Option Column) :
    (q.escaping on).countPhrase column = q.countPhrase column := q.countPhrase_inMode column

theorem insertPhrase_escaping (r : Row) : (q.escaping on).insertPhrase r = q.insertPhrase r :=
  q.insertPhrase_inMode r

theorem insertKeyPhrase_escaping (r : Row) (key : String) :
    (q.escaping on).insertKeyPhrase r key = q.insertKeyPhrase r key :=
  q.insertKeyPhrase_inMode r key

theorem updatePhrase_escaping (cells : List Cell) :
    (q.escaping on).updatePhrase cells = q.updatePhrase cells := by
  have h : (q.inMode on q.config.onlySafeModifications).checkSafe .update = q.checkSafe .update :=
    rfl
  exact q.updatePhrase_inMode h cells

theorem deletePhrase_escaping : (q.escaping on).deletePhrase = q.deletePhrase :=
  q.deletePhrase_inMode rfl

theorem deleteJoinedPhrase_escaping :
    (q.escaping on).deleteJoinedPhrase = q.deleteJoinedPhrase := q.deleteJoinedPhrase_inMode rfl

theorem upsertPhrase_escaping (rows : List Row) (u : Upsert) :
    (q.escaping on).upsertPhrase rows u = q.upsertPhrase rows u := q.upsertPhrase_inMode rows u

end Query
end SqlWeave
