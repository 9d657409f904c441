import SqlWeave.Proofs.Schema.Items

/-!
# The primary keys that a declared table has

A declaration of a table is read for the primary keys that it declares, and they are compared with
the primary key that the table was given.

Types of columns, defaults that are fragments, predicates of checks and names that claim to be
quoted are written as given, and could say anything. `Schema.Regular` is what the rest needs of
them: each is complete by itself and no type or default says that its column is a key.

SQLite takes numbers only for a primary key, so a numbered column is one there whether the table has
a primary key or not, and no other key is written.

Results:
* `ColumnDef.itemKeys_text`, `Constraint.itemKeys_text`: the keys that an item declares.
* `Schema.declaredKeys_text`: the keys that a declaration is read to have.
* **`Config.createTable_keys`**: they are the primary key of the table, or the numbered column.
-/

namespace SqlWeave

open Text Template

/-! ## Columns -/

/-- What is written of a column as given is complete by itself: its name, its type, and a default
that is a fragment. The type and the default say nothing of keys. -/
structure ColumnDef.Regular (c : Config) (column : ColumnDef) : Prop where
  name : c.dialect.Complete column.name
  sqlType : IsKeyless column.sqlType
  default : ∀ e, column.default = some (.expression e) → IsKeyless ((Param.expression e).spelled c)

namespace ColumnDef

variable {c : Config} {column : ColumnDef}

/-- A default that is a value is one word. -/
theorem isKeyless_spelled (v : Value) : IsKeyless ((Param.value v).spelled c) := by
  change IsKeyless (c.spelled v)
  unfold Config.spelled
  cases hl : c.dialect.literal (c.intercept v) with
  | none =>
    have hempty : IsKeyless "" := by decide
    exact hempty
  | some s =>
    have hwords := wordsOf_isField (Dialect.isField_literal hl fun _ => isBlank_of_isSimple)
      (Dialect.literal_ne_empty hl)
    refine ⟨Dialect.isField_literal hl fun ch hch => ?_, ?_⟩
    · unfold isComma
      refine decide_eq_false ?_
      rintro rfl
      cases hch
    · unfold itemKeys
      rw [Option.getD_some, hwords, Option.map_some, keysIn_singleton]

theorem Regular.isKeyless_default (h : column.Regular c) {p : Param}
    (hp : column.default = some p) : IsKeyless (p.spelled c) := by
  cases p with
  | value v => exact isKeyless_spelled v
  | expression e => exact h.default e hp

/-- The words for numbers made by the engine. -/
def numberedWordList : Dialect → List String
  | .sqlServer => ["IDENTITY(1,1)"]
  | .mysql => ["AUTO_INCREMENT"]
  | .sqlite => ["PRIMARY", "KEY", "AUTOINCREMENT"]
  | .firebird => ["GENERATED", "BY", "DEFAULT", "AS", "IDENTITY"]

theorem follows_numberedWords (d : Dialect) : Follows (numberedWords d) (numberedWordList d) := by
  cases d with
  | sqlServer => exact @follows_blank "IDENTITY(1,1)" _ (by decide) (by decide)
  | mysql => exact @follows_blank "AUTO_INCREMENT" _ (by decide) (by decide)
  | sqlite => exact @follows_blank "PRIMARY KEY AUTOINCREMENT" _ (by decide) (by decide)
  | firebird => exact @follows_blank "GENERATED BY DEFAULT AS IDENTITY" _ (by decide) (by decide)

/-- The keys that a column declares where it stands. -/
def inlineKeys (d : Dialect) (column : ColumnDef) : List (List String) :=
  if column.autoIncrement ∧ d = .sqlite then [[d.quote column.name]] else []

/-- Behind the type of a column only the words of SQLite for numbers declare a key. -/
theorem keysIn_numberedWordList (d : Dialect) (name : String) {ws : List String} (h : Quiet ws) :
    keysIn name (numberedWordList d ++ ws) = if d = .sqlite then [[name]] else [] := by
  cases d with
  | sqlServer => exact ((quiet_of rfl rfl).append h).keys name
  | mysql => exact ((quiet_of rfl rfl).append h).keys name
  | firebird => exact ((quiet_of rfl rfl).append h).keys name
  | sqlite =>
    have hkey : keysIn name (["KEY", "AUTOINCREMENT"] ++ ws) = [] :=
      (keysIn_append (keysIn_eq_nil (by decide)) h.head).trans (h.keys name)
    have hlist : listed? "AUTOINCREMENT" = none := by decide
    change
      ((listed? "AUTOINCREMENT").getD [name]) :: keysIn name (["KEY", "AUTOINCREMENT"] ++ ws) = _
    rw [hkey, hlist]
    rfl

/-- A default and the refusal of missing values say nothing of keys. -/
theorem Regular.exists_quiet (h : column.Regular c) : ∃ ws, Quiet ws ∧
    Follows (defaultText c column.default ++ (if column.nullable then "" else " NOT NULL")) ws := by
  have hnull : ∃ ws, Quiet ws ∧ Follows (if column.nullable then "" else " NOT NULL") ws := by
    cases column.nullable with
    | true => exact ⟨[], quiet_nil, follows_empty⟩
    | false =>
      exact ⟨["NOT", "NULL"], quiet_of rfl rfl, @follows_blank "NOT NULL" _ (by decide) (by decide)⟩
  obtain ⟨ns, hns, hn⟩ := hnull
  cases hp : column.default with
  | none => exact ⟨ns, hns, follows_empty.append hn⟩
  | some p =>
    have hp := h.isKeyless_default hp
    obtain ⟨ds, hds, hkeys⟩ := hp.words
    have hd : Follows (" DEFAULT" ++ (" " ++ p.spelled c)) (["DEFAULT"] ++ ds) :=
      (@follows_blank "DEFAULT" _ (by decide) (by decide)).append (follows_blank hp.1 hds)
    rw [← String.append_assoc] at hd
    refine ⟨(["DEFAULT"] ++ ds) ++ ns, Quiet.append ⟨fun column => ?_, ?_⟩ hns, hd.append hn⟩
    · exact (keysIn_cons_of_ne rfl).trans (hkeys column)
    · rintro w ⟨⟩
      rfl

/-- What stands behind the type of a column declares its key if anything does. -/
theorem exists_numbered (column : ColumnDef) (d : Dialect) {ws : List String} (h : Quiet ws) :
    ∃ ns, Follows (if column.autoIncrement then numberedWords d else "") ns ∧
      (∀ w ∈ (ns ++ ws).head?, sameIgnoringCase w "KEY" = false) ∧
      keysIn (d.quote column.name) (ns ++ ws) = column.inlineKeys d := by
  unfold inlineKeys
  cases column.autoIncrement with
  | false => exact ⟨[], follows_empty, h.head, h.keys _⟩
  | true =>
    refine ⟨numberedWordList d, follows_numberedWords d, fun w hw => ?_, ?_⟩
    · cases d <;> cases hw <;> decide
    · rw [keysIn_numberedWordList d _ h]
      simp

/-- **The keys that a column declares**: it is the key if SQLite makes its numbers. -/
theorem itemKeys_text (h : column.Regular c) : IsField isComma (column.text c) ∧
    itemKeys (column.text c) = some (column.inlineKeys c.dialect) := by
  obtain ⟨ts, hts, htkeys⟩ := h.sqlType.words
  obtain ⟨ws, hws, hrest⟩ := h.exists_quiet
  obtain ⟨ns, hns, hhead, hkeys⟩ := column.exists_numbered c.dialect hws
  have htail := (follows_blank h.sqlType.1 hts).append (hns.append hrest)
  have htext : column.text c = c.dialect.quote column.name ++ ((" " ++ column.sqlType) ++
      ((if column.autoIncrement then numberedWords c.dialect else "") ++
        (defaultText c column.default ++ (if column.nullable then "" else " NOT NULL")))) := by
    unfold text
    simp only [String.append_assoc]
  refine ⟨htext ▸ htail.item (Dialect.isItem_quote h.name), ?_⟩
  unfold itemKeys
  rw [htext, htail.words (Dialect.wordsOf_quote h.name), Option.map_some, List.singleton_append,
    List.headD_cons, keysIn_cons_of_ne (c.dialect.quote_ne_primary column.name),
    keysIn_append (htkeys _) hhead, hkeys]

end ColumnDef

/-! ## Constraints -/

/-- The names in what a constraint asks of rows. -/
def ConstraintKind.identifiers : ConstraintKind → List String
  | primaryKey columns | unique columns => columns
  | foreignKey column refTable refColumn _ _ => [column, refTable, refColumn]
  | check _ => []

/-- What is written of a constraint as given is complete by itself: its names, and the predicate of
a check. -/
structure Constraint.Regular (d : Dialect) (k : Constraint) : Prop where
  name : d.Complete k.name
  identifiers : ∀ name ∈ k.kind.identifiers, d.Complete name
  check : ∀ predicate, k.kind = .check predicate → IsField (fun _ => false) predicate

/-- The columns of a primary key. -/
def Constraint.keyColumns (k : Constraint) : List String :=
  match k.kind with
  | .primaryKey columns => columns
  | _ => []

/-- The keys that a constraint declares. -/
def Constraint.keys (d : Dialect) (k : Constraint) : List (List String) :=
  if k.isPrimaryKey then [k.keyColumns.map d.quote] else []

namespace Constraint

variable {d : Dialect} {k : Constraint}

theorem exists_follows_action (keyword : String) (ks : List String) (hi : IsField isComma keyword)
    (hk : wordsOf keyword = some ks) (hprimary : ∀ w ∈ ks, sameIgnoringCase w "PRIMARY" = false)
    (a : Option ReferentialAction) :
    ∃ ws, Follows (ConstraintKind.actionText (" " ++ keyword ++ " ") a) ws ∧
      ∀ w ∈ ws, sameIgnoringCase w "PRIMARY" = false := by
  cases a with
  | none => exact ⟨[], follows_empty, fun _ h => by cases h⟩
  | some a =>
    obtain ⟨as, ha, has⟩ : ∃ as, Follows (" " ++ a.text) as ∧
        ∀ w ∈ as, sameIgnoringCase w "PRIMARY" = false := by
      cases a with
      | noAction => exact ⟨["NO", "ACTION"], follows_blank (by decide) (by decide), by decide⟩
      | cascade => exact ⟨["CASCADE"], follows_blank (by decide) (by decide), by decide⟩
      | setNull => exact ⟨["SET", "NULL"], follows_blank (by decide) (by decide), by decide⟩
      | setDefault => exact ⟨["SET", "DEFAULT"], follows_blank (by decide) (by decide), by decide⟩
    have h := ha.behind keyword ks hi hk
    rw [← String.append_assoc, ← String.append_assoc] at h
    exact ⟨ks ++ as, h, List.forall_mem_append.mpr ⟨hprimary, has⟩⟩

/-- A reference to another table has no word that a key begins with. -/
theorem exists_follows_foreignKey {column refTable refColumn : String} (hcolumn : d.Complete column)
    (htable : d.Complete refTable) (href : d.Complete refColumn)
    (onDelete onUpdate : Option ReferentialAction) :
    ∃ ws, Follows
        (" " ++ (ConstraintKind.foreignKey column refTable refColumn onDelete onUpdate).text d) ws ∧
      ∀ w ∈ ws, sameIgnoringCase w "PRIMARY" = false := by
  obtain ⟨ds, hd, hdp⟩ := exists_follows_action "ON DELETE" ["ON", "DELETE"] (by decide)
    (by decide) (by decide) onDelete
  obtain ⟨us, hu, hup⟩ := exists_follows_action "ON UPDATE" ["ON", "UPDATE"] (by decide)
    (by decide) (by decide) onUpdate
  have hforeign := (Dialect.follows_names (List.forall_mem_singleton.mpr hcolumn)).behind
    "FOREIGN KEY" ["FOREIGN", "KEY"] (by decide) (by decide)
  have hreferences := (Dialect.follows_quote htable).behind "REFERENCES" ["REFERENCES"]
    (by decide) (by decide)
  have hrefColumns := Dialect.follows_names (List.forall_mem_singleton.mpr href)
  have hall := (((hforeign.append hreferences).append hrefColumns).append hd).append hu
  refine ⟨["FOREIGN", "KEY"] ++ [ConstraintKind.names d [column]] ++
    (["REFERENCES"] ++ [d.quote refTable]) ++ [ConstraintKind.names d [refColumn]] ++ ds ++ us,
    ?_, ?_⟩
  · have hf : "FOREIGN KEY " = "FOREIGN KEY" ++ " " := rfl
    have hr : " REFERENCES " = " " ++ ("REFERENCES" ++ " ") := rfl
    have hod : " ON DELETE " = " " ++ "ON DELETE" ++ " " := rfl
    have hou : " ON UPDATE " = " " ++ "ON UPDATE" ++ " " := rfl
    rw [ConstraintKind.text_foreignKey, hf, hr, hod, hou]
    simpa only [String.append_assoc] using hall
  · have hnone : ∀ w ∈ ([] : List String), sameIgnoringCase w "PRIMARY" = false :=
      fun _ h => by cases h
    simp only [List.forall_mem_append, List.forall_mem_cons]
    exact ⟨⟨⟨⟨⟨⟨by decide, by decide, hnone⟩, Dialect.names_ne_primary _, hnone⟩,
      ⟨by decide, hnone⟩, d.quote_ne_primary _, hnone⟩, Dialect.names_ne_primary _, hnone⟩,
      hdp⟩, hup⟩

/-- What a constraint asks of rows, behind its name. -/
theorem exists_follows_kind (h : k.Regular d) : ∃ ws, Follows (" " ++ k.kind.text d) ws ∧
    ∀ column, keysIn column ws = k.keys d := by
  obtain ⟨table, name, kind⟩ := k
  cases kind with
  | primaryKey columns =>
    have hnames : ∀ column ∈ columns, d.Complete column := h.identifiers
    have hlist := (Dialect.follows_names hnames).behind "PRIMARY KEY" ["PRIMARY", "KEY"] (by decide)
      (by decide)
    refine ⟨["PRIMARY", "KEY", ConstraintKind.names d columns], hlist, fun column => ?_⟩
    have hrest : keysIn column ["KEY", ConstraintKind.names d columns] = [] :=
      (keysIn_cons_of_ne (by decide)).trans (keysIn_singleton _)
    change ((listed? (ConstraintKind.names d columns)).getD [column]) ::
      keysIn column ["KEY", ConstraintKind.names d columns] = _
    rw [hrest, Dialect.listed?_names hnames]
    rfl
  | unique columns =>
    have hnames : ∀ column ∈ columns, d.Complete column := h.identifiers
    exact ⟨["UNIQUE", ConstraintKind.names d columns],
      (Dialect.follows_names hnames).behind "UNIQUE" ["UNIQUE"] (by decide) (by decide),
      fun column => (keysIn_cons_of_ne (by decide)).trans (keysIn_singleton _)⟩
  | check predicate =>
    have henclosed : IsField isBreak ("(" ++ predicate ++ ")") :=
      isField_enclosed (by decide) (h.check predicate rfl).closed
    have hlist := (follows_word henclosed (by simp)).behind "CHECK" ["CHECK"] (by decide)
      (by decide)
    rw [← @String.append_assoc ("CHECK" ++ " "), ← @String.append_assoc ("CHECK" ++ " ")] at hlist
    exact ⟨_, hlist, fun column => (keysIn_cons_of_ne (by decide)).trans (keysIn_singleton _)⟩
  | foreignKey column refTable refColumn onDelete onUpdate =>
    have hnames : ∀ name ∈ [column, refTable, refColumn], d.Complete name := h.identifiers
    simp only [List.forall_mem_cons] at hnames
    obtain ⟨ws, hws, hnone⟩ :=
      exists_follows_foreignKey hnames.1 hnames.2.1 hnames.2.2.1 onDelete onUpdate
    exact ⟨ws, hws, fun column => keysIn_eq_nil hnone⟩

/-- **The keys that a constraint declares.** -/
theorem itemKeys_text (h : k.Regular d) :
    IsField isComma (k.text d) ∧ itemKeys (k.text d) = some (k.keys d) := by
  obtain ⟨ws, hws, hkeys⟩ := exists_follows_kind h
  have htail := (Dialect.follows_quote h.name).append hws
  have hitem : IsField isComma "CONSTRAINT" := by decide
  have hwords : wordsOf "CONSTRAINT" = some ["CONSTRAINT"] := by decide
  have htext : k.text d = "CONSTRAINT" ++ (" " ++ d.quote k.name ++ (" " ++ k.kind.text d)) := by
    have hc : "CONSTRAINT " = "CONSTRAINT" ++ " " := rfl
    unfold text
    rw [hc]
    simp only [String.append_assoc]
  refine ⟨htext ▸ htail.item hitem, ?_⟩
  unfold itemKeys
  rw [htext, htail.words hwords, Option.map_some, List.singleton_append, List.headD_cons,
    keysIn_cons_of_ne (by decide), List.singleton_append,
    keysIn_cons_of_ne (d.quote_ne_primary k.name), hkeys]

end Constraint

/-! ## Tables -/

/-- What is written of a table as given is complete by itself: its name, and what its columns and
constraints are made of. -/
structure Schema.Regular (c : Config) (s : Schema) : Prop where
  name : c.dialect.Complete s.name
  columns : ∀ column ∈ s.columns, column.Regular c
  constraints : ∀ k ∈ s.constraints, k.Regular c.dialect

namespace Schema

variable {c : Config} {s : Schema}

theorem Regular.complete_tableName (h : s.Regular c) :
    c.dialect.Complete (s.tableName c.dialect) := by
  unfold tableName
  split
  · rename_i hmark
    refine .inl ?_
    have hs : "#".toList = ['#'] := by decide
    unfold Dialect.Unquoted
    rw [hmark.2.1, String.toList_append, hs, List.cons_append, List.head?_cons]
    decide
  · exact h.name

/-- The primary key of a table is one of its constraints or made of its marked columns. -/
theorem Regular.primaryKey (h : s.Regular c) {k : Constraint} (hk : s.primaryKey? = some k) :
    k.Regular c.dialect ∧ k.isPrimaryKey = true := by
  unfold primaryKey? at hk
  split at hk
  · rename_i hfind
    cases hk
    exact ⟨h.constraints k (List.mem_of_find?_eq_some hfind), List.find?_some hfind⟩
  · have hmade : Constraint.primaryKey s.name ((s.columns.filter (·.primaryKey)).map (·.name)) =
        .ok k := by
      cases hp : Constraint.primaryKey s.name ((s.columns.filter (·.primaryKey)).map (·.name)) with
      | error e => rw [hp] at hk; cases hk
      | ok k' => rw [hp] at hk; cases hk; rfl
    unfold Constraint.primaryKey at hmade
    obtain ⟨table, -, hmade⟩ := bind_eq_ok_iff.mp hmade
    obtain ⟨columns, hcolumns, hmade⟩ := bind_eq_ok_iff.mp hmade
    cases hmade
    have hnames : columns = (s.columns.filter (·.primaryKey)).map (·.name) := by
      unfold Constraint.checkedColumns at hcolumns
      split_ifs at hcolumns
      exact (Except.ok.inj hcolumns).symm
    refine ⟨⟨.inl ?_, fun name hn => ?_, fun _ hp => by cases hp⟩, rfl⟩
    · -- the name that is made starts with a letter
      have hp : "PK".toList = ['P', 'K'] := by decide
      unfold Dialect.Unquoted Constraint.madeName
      rw [String.intercalate_cons_cons, String.toList_append, String.toList_append, hp,
        List.append_assoc, List.cons_append, List.head?_cons]
      cases c.dialect <;> decide
    · subst hnames
      obtain ⟨column, hcolumn, rfl⟩ := List.mem_map.mp hn
      exact (h.columns column (List.mem_filter.mp hcolumn).1).name

/-- The keys that a table is declared with. -/
def declared (d : Dialect) (s : Schema) : List (List String) :=
  s.columns.flatMap (·.inlineKeys d) ++
    if s.keyInColumn d then [] else s.primaryKey?.toList.map fun k => k.keyColumns.map d.quote

theorem createWords_eq (s : Schema) (d : Dialect) :
    ∃ lead ws, s.createWords d = lead ++ " " ∧ wordsOf lead = some ws ∧
      ws.findSome? enclosed? = none := by
  unfold createWords
  split
  · cases d with
    | sqlServer => exact ⟨"CREATE TABLE", ["CREATE", "TABLE"], rfl, by decide, by decide⟩
    | mysql =>
      exact ⟨"CREATE TEMPORARY TABLE", ["CREATE", "TEMPORARY", "TABLE"], rfl, by decide, by decide⟩
    | sqlite => exact ⟨"CREATE TEMP TABLE", ["CREATE", "TEMP", "TABLE"], rfl, by decide, by decide⟩
    | firebird =>
      exact ⟨"CREATE GLOBAL TEMPORARY TABLE", ["CREATE", "GLOBAL", "TEMPORARY", "TABLE"], rfl,
        by decide, by decide⟩
  · exact ⟨"CREATE TABLE", ["CREATE", "TABLE"], rfl, by decide, by decide⟩

theorem exists_follows_endWords (s : Schema) (d : Dialect) : ∃ ws, Follows (s.endWords d) ws := by
  unfold endWords
  split
  · exact ⟨["ON", "COMMIT", "PRESERVE", "ROWS"],
      @follows_blank "ON COMMIT PRESERVE ROWS" _ (by decide) (by decide)⟩
  · exact ⟨[], follows_empty⟩

/-- Of the constraints behind the columns only the primary key declares one. -/
theorem Regular.flatMap_keys (h : s.Regular c) :
    (s.tableConstraints c.dialect).flatMap (·.keys c.dialect) =
      if s.keyInColumn c.dialect then []
      else s.primaryKey?.toList.map fun k => k.keyColumns.map c.dialect.quote := by
  have hother : (s.constraints.filter (!·.isPrimaryKey)).flatMap (·.keys c.dialect) = [] := by
    rw [List.flatMap_eq_nil_iff]
    intro k hk
    have hk := (List.mem_filter.mp hk).2
    rw [Bool.not_eq_true'] at hk
    rw [Constraint.keys, hk]
    rfl
  unfold tableConstraints
  rw [List.flatMap_append, hother, List.append_nil]
  split
  · rfl
  · cases hk : s.primaryKey? with
    | none => rfl
    | some k =>
      rw [Option.toList_some, List.flatMap_singleton, List.map_singleton, Constraint.keys,
        if_pos (h.primaryKey hk).2]

/-- **The keys that the items of a table declare.** -/
theorem Regular.mapM_itemKeys (h : s.Regular c) :
    (∀ x ∈ s.items c, IsField isComma x ∧ itemKeys x = some ((itemKeys x).getD [])) ∧
      ((s.items c).mapM itemKeys).map List.flatten = some (s.declared c.dialect) := by
  have hcolumns : ∀ column ∈ s.columns, IsField isComma (column.text c) ∧
      itemKeys (column.text c) = some (column.inlineKeys c.dialect) :=
    fun column hcolumn => ColumnDef.itemKeys_text (h.columns column hcolumn)
  have hregular : ∀ k ∈ s.tableConstraints c.dialect, k.Regular c.dialect := by
    intro k hk
    unfold tableConstraints at hk
    rcases List.mem_append.mp hk with hk | hk
    · split at hk
      · cases hk
      · exact (h.primaryKey (Option.mem_toList.mp hk)).1
    · exact h.constraints k (List.mem_filter.mp hk).1
  have hconstraints : ∀ k ∈ s.tableConstraints c.dialect, IsField isComma (k.text c.dialect) ∧
      itemKeys (k.text c.dialect) = some (k.keys c.dialect) :=
    fun k hk => Constraint.itemKeys_text (hregular k hk)
  rw [items_eq]
  constructor
  · rw [List.forall_mem_append, List.forall_mem_map, List.forall_mem_map]
    refine ⟨fun column hm => ?_, fun k hm => ?_⟩
    · have hitem := hcolumns column hm
      exact ⟨hitem.1, by rw [hitem.2, Option.getD_some]⟩
    · have hitem := hconstraints k hm
      exact ⟨hitem.1, by rw [hitem.2, Option.getD_some]⟩
  · rw [List.mapM_append, mapM_map_eq_some fun x hx => (hcolumns x hx).2,
      mapM_map_eq_some fun x hx => (hconstraints x hx).2]
    change some ((s.columns.map (·.inlineKeys c.dialect) ++
      (s.tableConstraints c.dialect).map (·.keys c.dialect)).flatten) = _
    rw [List.flatten_append, ← List.flatMap_def, ← List.flatMap_def, h.flatMap_keys]
    rfl

/-- **The keys that a declaration is read to have.** -/
theorem declaredKeys_text (h : s.Regular c) (hc : s.columns ≠ []) :
    declaredKeys (s.createWords c.dialect ++ c.dialect.quote (s.tableName c.dialect) ++ " (" ++
      ", ".intercalate (s.items c) ++ ")" ++ s.endWords c.dialect) =
      some (s.declared c.dialect) := by
  obtain ⟨hitems, hkeys⟩ := h.mapM_itemKeys
  have hne : s.items c ≠ [] := by
    rw [items_eq]
    simp [hc]
  obtain ⟨lead, ws, hlead, hws, hopen⟩ := s.createWords_eq c.dialect
  obtain ⟨es, hes⟩ := s.exists_follows_endWords c.dialect
  obtain ⟨keys, hmap, hflat⟩ := Option.map_eq_some_iff.mp hkeys
  obtain ⟨fs, hfs, hfk⟩ := Option.bind_eq_some_iff.mp ((bind_fields_items hne hitems).trans hmap)
  -- the words of the statement: what it starts with, the name, the body and what it ends with
  have hbody : IsField isBreak ("(" ++ ", ".intercalate (s.items c) ++ ")") :=
    isField_enclosed (by decide) (closed_of_fields hfs)
  have hgroup := follows_word hbody (by simp)
  have hwords := (((Dialect.follows_quote h.complete_tableName).append hgroup).append hes).words hws
  have htext : s.createWords c.dialect ++ c.dialect.quote (s.tableName c.dialect) ++ " (" ++
      ", ".intercalate (s.items c) ++ ")" ++ s.endWords c.dialect =
      lead ++ (" " ++ c.dialect.quote (s.tableName c.dialect) ++
        (" " ++ ("(" ++ ", ".intercalate (s.items c) ++ ")")) ++ s.endWords c.dialect) := by
    have hopen : " (" = " " ++ "(" := rfl
    rw [hlead, hopen]
    simp only [String.append_assoc]
  have hfind : (ws ++ ([c.dialect.quote (s.tableName c.dialect)] ++
      ["(" ++ ", ".intercalate (s.items c) ++ ")"] ++ es)).findSome? enclosed? =
      some (", ".intercalate (s.items c)) := by
    rw [List.findSome?_append, hopen, Option.none_or, List.append_assoc, List.singleton_append,
      List.findSome?_cons, Dialect.enclosed?_quote, List.singleton_append, List.findSome?_cons,
      enclosed?_enclosed]
  unfold declaredKeys
  rw [htext, hwords, Option.bind_eq_bind, Option.bind_some, hfind, Option.bind_eq_bind,
    Option.bind_some, hfs, Option.bind_eq_bind, Option.bind_some, hfk, Option.bind_some, hflat]
  rfl

/-- Columns declare keys where they stand only on SQLite, each numbered column its own. -/
theorem flatMap_inlineKeys (d : Dialect) (s : Schema) : s.columns.flatMap (·.inlineKeys d) =
    if d = .sqlite then (s.columns.filter (·.autoIncrement)).map fun column => [d.quote column.name]
    else [] := by
  unfold ColumnDef.inlineKeys
  by_cases hd : d = .sqlite
  · rw [if_pos hd]
    induction s.columns with
    | nil => rfl
    | cons column columns ih =>
      rw [List.flatMap_cons, ih]
      cases ha : column.autoIncrement <;> simp [ha, hd]
  · rw [if_neg hd, List.flatMap_eq_nil_iff]
    exact fun column _ => if_neg fun h => hd h.2

end Schema

namespace Config

/-- **A table is declared with its primary key and no other**, or with none if it has none, unless
SQLite makes numbers for a column. Where SQLite makes them for one column and the table has no
primary key but that column, the table is declared with a primary key over that column and no other,
even if it has none. -/
theorem createTable_keys (c : Config) (s : Schema) {e : Expression} (h : c.createTable s = .ok e)
    (hs : s.Regular c) :
    ((c.dialect = .sqlite → ∀ column ∈ s.columns, column.autoIncrement = false) →
      declaredKeys e.template =
        some (s.primaryKey?.toList.map fun k => k.keyColumns.map c.dialect.quote)) ∧
    (c.dialect = .sqlite → ∀ column, s.columns.filter (·.autoIncrement) = [column] →
      (∀ k, s.primaryKey? = some k → k.keyColumns = [column.name] →
        declaredKeys e.template = some [k.keyColumns.map c.dialect.quote]) ∧
      (s.primaryKey? = none → declaredKeys e.template = some [[c.dialect.quote column.name]])) := by
  have hread : declaredKeys e.template = some (s.declared c.dialect) := by
    rw [template_createTable h]
    exact Schema.declaredKeys_text hs ((exists_createTable_iff c s).mp ⟨e, h⟩).1.columns_ne_nil
  rw [hread, Schema.declared, s.flatMap_inlineKeys]
  constructor
  · intro hplain
    have hin : s.keyInColumn c.dialect = false := by
      simpa [Schema.keyInColumn] using hplain
    rw [hin, if_neg Bool.false_ne_true]
    by_cases hd : c.dialect = .sqlite
    · have hnone : s.columns.filter (·.autoIncrement) = [] :=
        List.filter_eq_nil_iff.mpr fun column hm => by
          rw [hplain hd column hm]
          exact Bool.false_ne_true
      rw [hnone, List.map_nil, ite_self, List.nil_append]
    · rw [if_neg hd, List.nil_append]
  · intro hd column hone
    have hin : s.keyInColumn c.dialect = true := by
      have hm : column ∈ s.columns.filter (·.autoIncrement) := by
        rw [hone]
        exact List.mem_singleton_self _
      have hany := List.any_eq_true.mpr ⟨column, List.mem_filter.mp hm⟩
      simpa [Schema.keyInColumn, hd] using hany
    rw [hin, if_pos rfl, if_pos hd, hone, List.append_nil, List.map_singleton]
    refine ⟨fun k _ hk => ?_, fun _ => rfl⟩
    rw [hk, List.map_singleton]

/-- Lines of orders, with a key of two columns, a reference and a check. -/
def orderLines : Schema where
  name := "shop.Lines"
  columns := [{ name := "Order", sqlType := "INTEGER", nullable := false, primaryKey := true },
    { name := "Line", sqlType := "INTEGER", autoIncrement := true, primaryKey := true },
    { name := "Price", sqlType := "DECIMAL(10, 2)",
      default := some (.expression (.new "COALESCE(?, ?)" [.value .null, .value (.int 1)])) },
    { name := "Note", sqlType := "VARCHAR(50)", default := some (.value (.text ", PRIMARY KEY")) }]
  constraints := [⟨"Lines", "FK_Lines", .foreignKey "Order" "Orders" "Id" (some .setNull) none⟩,
    ⟨"Lines", "CK_Lines", .check "Price IN (1, 2) OR Note = 'PRIMARY KEY'"⟩]

/-- Orders with numbers made by the engine, and no primary key. -/
def numberedOrders : Schema where
  name := "Orders"
  columns := [{ name := "Id", sqlType := "INTEGER", autoIncrement := true, nullable := false },
    { name := "Total", sqlType := "REAL" }]
  constraints := []

theorem orderLines_regular : orderLines.Regular (.new .firebird) where
  name := .inl (by decide)
  columns := by
    have hexpr : IsKeyless ((Param.expression (.new "COALESCE(?, ?)"
        [.value .null, .value (.int 1)])).spelled (.new .firebird)) := by decide +kernel
    refine List.forall_mem_cons.mpr ⟨?_, List.forall_mem_cons.mpr ⟨?_, List.forall_mem_cons.mpr
      ⟨?_, List.forall_mem_singleton.mpr ?_⟩⟩⟩
    · exact ⟨.inl (by decide), by decide, fun _ h => by cases h⟩
    · exact ⟨.inl (by decide), by decide, fun _ h => by cases h⟩
    · exact ⟨.inl (by decide), by decide, fun _ h => by cases h; exact hexpr⟩
    · exact ⟨.inl (by decide), by decide, fun _ h => by cases h⟩
  constraints := by
    refine List.forall_mem_cons.mpr ⟨?_, List.forall_mem_singleton.mpr ?_⟩
    · refine ⟨.inl (by decide), fun name hn => .inl ?_, fun _ h => by cases h⟩
      have hall : ∀ name ∈ ["Order", "Orders", "Id"], Dialect.Unquoted .firebird name := by decide
      exact hall name hn
    · exact ⟨.inl (by decide), fun _ h => (by cases h), fun _ h => by cases h; decide⟩

theorem numberedOrders_regular : numberedOrders.Regular (.new .sqlite) where
  name := .inl (by decide)
  columns := by
    refine List.forall_mem_cons.mpr ⟨?_, List.forall_mem_singleton.mpr ?_⟩
    · exact ⟨.inl (by decide), by decide, fun _ h => by cases h⟩
    · exact ⟨.inl (by decide), by decide, fun _ h => by cases h⟩
  constraints _ h := by cases h

theorem orders_keyed :
    (∃ e, (Config.new .firebird).createTable orderLines = .ok e ∧
      orderLines.Regular (.new .firebird) ∧
      declaredKeys e.template = some [["\"Order\"", "\"Line\""]]) ∧
    ∃ e, (Config.new .sqlite).createTable numberedOrders = .ok e ∧
      numberedOrders.Regular (.new .sqlite) ∧ numberedOrders.primaryKey? = none ∧
      declaredKeys e.template = some [["\"Id\""]] := by
  obtain ⟨e, he⟩ : ∃ e, (Config.new .firebird).createTable orderLines = .ok e := ⟨_, rfl⟩
  obtain ⟨e', he'⟩ : ∃ e, (Config.new .sqlite).createTable numberedOrders = .ok e := ⟨_, rfl⟩
  have hnone : numberedOrders.primaryKey? = none := by decide
  have hlines := (createTable_keys _ _ he orderLines_regular).1 fun h => by cases h
  have horders := (createTable_keys _ _ he' numberedOrders_regular).2 rfl
    { name := "Id", sqlType := "INTEGER", autoIncrement := true, nullable := false } rfl
  refine ⟨⟨e, he, orderLines_regular, hlines.trans (by decide)⟩,
    ⟨e', he', numberedOrders_regular, hnone, (horders.2 hnone).trans (by decide)⟩⟩

/-- Orders whose type of numbers says that they are the key. -/
def typedOrders : Schema where
  name := "Orders"
  columns := [{ name := "Id", sqlType := "INTEGER PRIMARY KEY" },
    { name := "Total", sqlType := "REAL" }]
  constraints := []

/-- Tables without a primary key are declared with one: SQLite takes numbers for nothing else, and
what a type says is written as given. -/
theorem keyless_declared_with_key :
    (numberedOrders.primaryKey? = none ∧
      ∃ e, (Config.new .sqlite).createTable numberedOrders = .ok e ∧
        e.template = "CREATE TABLE \"Orders\" " ++
          "(\"Id\" INTEGER PRIMARY KEY AUTOINCREMENT NOT NULL, \"Total\" REAL)" ∧
        declaredKeys e.template = some [["\"Id\""]]) ∧
    typedOrders.primaryKey? = none ∧
      ∃ e, (Config.new .firebird).createTable typedOrders = .ok e ∧
        e.template = "CREATE TABLE \"Orders\" (\"Id\" INTEGER PRIMARY KEY, \"Total\" REAL)" ∧
        declaredKeys e.template = some [["\"Id\""]] :=
  ⟨⟨by decide, _, rfl, by decide +kernel, by decide +kernel⟩, by decide, _, rfl, by decide +kernel,
    by decide +kernel⟩

end Config
end SqlWeave
