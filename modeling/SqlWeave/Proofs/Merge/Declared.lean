import SqlWeave.Proofs.Insert.Batches
import SqlWeave.Proofs.Merge.Names
import SqlWeave.Proofs.Said
import SqlWeave.Query.Upsert

/-!
# The columns of a MERGE and those of its source

A MERGE reads rows from a source, which declares the names of its columns, and refers to them when
it compares, changes and inserts. The declaration quotes the names part by part and the references
quote them as a whole; and the columns to compare and to change are looked up without regard to
letter case but written as they were given.

The text of a statement is read off its phrase part by part (`Phrase.said`), so that the statement
of an upsert is a MERGE with known clauses (`Query.merge`), whose declared names and references
are lists.

Results:
* `said_upsertPhrase`: an upsert of SQL Server or Firebird says its MERGE.
* `merge_resolves_iff`: every reference is a declared name exactly if the names of the row are
  simple and the columns to compare and to change are spelled as the source spells them.
-/

namespace SqlWeave

open Text

/-! ## What a phrase says -/

/-- Items in parentheses. -/
def listed (items : List String) : String := "(" ++ ", ".intercalate items ++ ")"

namespace Phrase

variable {b : Binding}

@[simp]
theorem said_nameList (d : Dialect) (names : List String) :
    said b (nameList d names) = listed (names.map d.quote) := by
  have hn : (said b ∘ fun n => [.text (d.quote n)]) = d.quote := by
    funext n
    simp
  simp [nameList, listed, hn, String.append_assoc]

end Phrase

/-! ## MERGE statements -/

/-- The rows that a MERGE reads. -/
inductive MergeSource where
  /-- Lists of values, and the names of their columns. -/
  | values (rows : List (List String)) (columns : List String)
  /-- Selections of values, each under a name of its own. -/
  | selections (rows : List (List (String × String)))

namespace MergeSource

/-- The names of columns that stand in the source. -/
def declared : MergeSource → List String
  | values _ columns => columns
  | selections rows => rows.flatMap (List.map Prod.snd)

/-- The names that an engine gives the columns of the source: a union has those of its first
selection. -/
def heading : MergeSource → List String
  | values _ columns => columns
  | selections rows => (rows.head?.getD []).map Prod.snd

/-- The clause that brings the rows in under a name. -/
def text (name : String) : MergeSource → String
  | values rows columns =>
    " USING (VALUES " ++ ", ".intercalate (rows.map listed) ++ ") AS " ++ name ++ " " ++
      listed columns
  | selections rows =>
    " USING (" ++ " UNION ALL ".intercalate (rows.map fun r =>
        "SELECT " ++ ", ".intercalate (r.map fun (value, column) => value ++ " AS " ++ column) ++
          " FROM RDB$DATABASE") ++
      ") " ++ name

-- The two equations are stated because the ones made of a definition by cases that joins this many
-- literals are slow to come by.
theorem text_values (name : String) (rows : List (List String)) (columns : List String) :
    (values rows columns).text name =
      " USING (VALUES " ++ ", ".intercalate (rows.map listed) ++ ") AS " ++ name ++ " " ++
        listed columns := rfl

theorem text_selections (name : String) (rows : List (List (String × String))) :
    (selections rows).text name =
      " USING (" ++ " UNION ALL ".intercalate (rows.map fun r =>
          "SELECT " ++ ", ".intercalate (r.map fun c => c.1 ++ " AS " ++ c.2) ++
            " FROM RDB$DATABASE") ++ ") " ++ name := rfl

end MergeSource

/-- A MERGE statement by its clauses. -/
structure Merge where
  table : String
  /-- The name of the table that is changed. -/
  target : String
  /-- The name of the rows that are read. -/
  source : String
  rows : MergeSource
  /-- The columns that are compared. -/
  on : List String
  /-- The columns that are changed. -/
  set : List String
  /-- The columns that a new row is given. -/
  inserted : List String
  /-- The columns that a new row is made of. -/
  values : List String
  ending : String

namespace Merge

/-- What is done with rows that are there and with rows that are not. -/
def clauses (m : Merge) : String :=
  " ON " ++ " AND ".intercalate (m.on.map fun c =>
      m.source ++ "." ++ c ++ " = " ++ (m.target ++ "." ++ c)) ++
    " WHEN MATCHED THEN UPDATE SET " ++ ", ".intercalate (m.set.map fun c =>
      m.target ++ "." ++ c ++ " = " ++ (m.source ++ "." ++ c)) ++
    " WHEN NOT MATCHED THEN INSERT " ++ listed m.inserted ++
    " VALUES (" ++ ", ".intercalate (m.values.map fun c => m.source ++ "." ++ c) ++ ")"

/-- The statement. -/
def text (m : Merge) : String :=
  "MERGE INTO " ++ m.table ++ " " ++ m.target ++ m.rows.text m.source ++ m.clauses ++ m.ending

/-- The names behind the name of the source. -/
def references (m : Merge) : List String := m.on ++ m.set ++ m.values

/-- Every column that is referred to stands in the source. -/
def Resolves (m : Merge) : Prop := ∀ c ∈ m.references, c ∈ m.rows.declared

/-- Every column that is referred to is one that the engine knows the source by. -/
def ResolvesInHeading (m : Merge) : Prop := ∀ c ∈ m.references, c ∈ m.rows.heading

instance (m : Merge) : Decidable m.Resolves := inferInstanceAs (Decidable (∀ _ ∈ _, _))

end Merge

/-! ## The MERGE of an upsert -/

namespace Upsert

/-- A value of the source of Firebird with its type. -/
def sourceValue (b : Binding) (c : Cell) : Phrase :=
  match c.value with
  | .value v =>
    let v := b.intercept v
    [.text "CAST(", .value v, .text " AS ", .text v.firebirdType, .text ")"]
  | .expression e => Phrase.ofExpression e

theorem sourceCell_eq (b : Binding) (c : Cell) :
    sourceCell b c = sourceValue b c ++ [.text " AS ", .text (b.dialect.quote c.name)] := rfl

end Upsert

namespace Query

variable (q : Query)

/-- The rows that the MERGE of some rows reads. -/
def mergeSource (rows : List Row) : MergeSource :=
  match q.dialect with
  | .firebird => .selections (rows.map fun r => r.cells.map fun c =>
      (Phrase.said q.binding (Upsert.sourceValue q.binding c), q.dialect.quote c.name))
  | _ => .values (rows.map fun r => r.cells.map fun c =>
      Phrase.said q.binding (Phrase.ofParam c.value)) ((columnsOf rows).map q.dialect.quote)

/-- The MERGE of an upsert. -/
def merge (rows : List Row) (u : Upsert) : Merge where
  table := q.table.plain q.dialect
  target := q.dialect.quotePart Upsert.target
  source := q.dialect.quotePart Upsert.source
  rows := q.mergeSource rows
  on := u.matched.map q.dialect.quotePart
  set := u.updated.map q.dialect.quotePart
  inserted := (columnsOf rows).map q.dialect.quote
  values := (columnsOf rows).map q.dialect.quotePart
  ending := if q.dialect = .sqlServer then ";" else ""

/-! ## What an upsert says -/

variable {q}

theorem said_mergeInto :
    Phrase.said q.binding q.mergeInto =
      "MERGE INTO " ++ q.table.plain q.dialect ++ " " ++ q.dialect.quotePart Upsert.target := by
  simp [mergeInto, plainTable, String.append_assoc]

theorem said_mergeClauses (rows : List Row) (u : Upsert) :
    Phrase.said q.binding (u.mergeClauses q.dialect (columnsOf rows)) =
      (q.merge rows u).clauses := by
  have he : ∀ left right, Phrase.said q.binding ∘ Upsert.equation q.dialect left right =
      (fun c => q.dialect.quotePart left ++ "." ++ c ++ " = " ++
        (q.dialect.quotePart right ++ "." ++ c)) ∘ q.dialect.quotePart := by
    intro left right
    funext n
    simp [Upsert.equation, Upsert.qualified]
  have hq : (Phrase.said q.binding ∘ fun n =>
      [.text (Upsert.qualified q.dialect Upsert.source n)]) =
      (fun c => q.dialect.quotePart Upsert.source ++ "." ++ c) ∘ q.dialect.quotePart := by
    funext n
    simp [Upsert.qualified]
  simp [Upsert.mergeClauses, Merge.clauses, merge, he, hq, String.append_assoc]

theorem said_cellValues (cells : List Cell) :
    Phrase.said q.binding (Phrase.cellValues cells) =
      listed (cells.map fun c => Phrase.said q.binding (Phrase.ofParam c.value)) := by
  have hc : (Phrase.said q.binding ∘ fun c : Cell => Phrase.ofParam c.value) =
      fun c => Phrase.said q.binding (Phrase.ofParam c.value) := rfl
  simp [Phrase.cellValues, listed, hc, String.append_assoc]

theorem said_sourceRow (r : Row) :
    Phrase.said q.binding (Upsert.sourceRow q.binding r) =
      "SELECT " ++ ", ".intercalate (r.cells.map fun c =>
        Phrase.said q.binding (Upsert.sourceValue q.binding c) ++ " AS " ++
          q.dialect.quote c.name) ++ " FROM RDB$DATABASE" := by
  have hc : Phrase.said q.binding ∘ Upsert.sourceCell q.binding = fun c =>
      Phrase.said q.binding (Upsert.sourceValue q.binding c) ++ " AS " ++
        q.dialect.quote c.name := by
    funext c
    rw [Function.comp, Upsert.sourceCell_eq]
    simp [String.append_assoc]
    rfl
  simp [Upsert.sourceRow, hc, String.append_assoc]

theorem text_mergeSource_sqlServer (hd : q.dialect = .sqlServer) (rows : List Row) (name : String) :
    (q.mergeSource rows).text name =
      " USING (VALUES " ++ ", ".intercalate (rows.map fun r =>
        Phrase.said q.binding (Phrase.cellValues r.cells)) ++ ") AS " ++ name ++ " " ++
        listed ((columnsOf rows).map q.dialect.quote) := by
  have hs : q.mergeSource rows = .values (rows.map fun r => r.cells.map fun c =>
      Phrase.said q.binding (Phrase.ofParam c.value)) ((columnsOf rows).map q.dialect.quote) := by
    unfold mergeSource
    split
    · rename_i hf
      rw [hd] at hf
      cases hf
    · rfl
  have hl : (fun r : Row => Phrase.said q.binding (Phrase.cellValues r.cells)) =
      listed ∘ fun r => r.cells.map fun c => Phrase.said q.binding (Phrase.ofParam c.value) :=
    funext fun r => said_cellValues r.cells
  rw [hs, MergeSource.text_values, List.map_map, hl]

theorem text_mergeSource_firebird (hd : q.dialect = .firebird) (rows : List Row) (name : String) :
    (q.mergeSource rows).text name =
      " USING (" ++ " UNION ALL ".intercalate (rows.map fun r =>
        Phrase.said q.binding (Upsert.sourceRow q.binding r)) ++ ") " ++ name := by
  have hs : q.mergeSource rows = .selections (rows.map fun r => r.cells.map fun c =>
      (Phrase.said q.binding (Upsert.sourceValue q.binding c), q.dialect.quote c.name)) := by
    unfold mergeSource
    rw [hd]
  have hr : (fun r : Row => Phrase.said q.binding (Upsert.sourceRow q.binding r)) =
      (fun r => "SELECT " ++ ", ".intercalate (r.map fun c => c.1 ++ " AS " ++ c.2) ++
        " FROM RDB$DATABASE") ∘ fun r : Row => r.cells.map fun c =>
          (Phrase.said q.binding (Upsert.sourceValue q.binding c), q.dialect.quote c.name) := by
    funext r
    rw [said_sourceRow, Function.comp, List.map_map]
    rfl
  rw [hs, MergeSource.text_selections, List.map_map, hr]

/-- What is checked leaves no text. -/
theorem said_check (u : Upsert) (rows : List Row) : Phrase.said q.binding (u.check rows) = "" := by
  cases rows with
  | nil => simp [Upsert.check]
  | cons first rest => cases h : u.unknown? first <;> simp [Upsert.check, checkRows, checkCells, h]

/-- **An upsert of an engine with MERGE says its MERGE.** -/
theorem said_upsertPhrase (hd : q.dialect = .sqlServer ∨ q.dialect = .firebird) {rows : List Row}
    (hr : rows ≠ []) (u : Upsert) :
    Phrase.said q.binding (q.upsertPhrase rows u) = (q.merge rows u).text := by
  obtain ⟨first, rest, rfl⟩ := List.exists_cons_of_ne_nil hr
  have hclauses : Phrase.said q.binding (u.mergeClauses q.dialect first.names) =
      (q.merge (first :: rest) u).clauses := said_mergeClauses (first :: rest) u
  have htext : (q.merge (first :: rest) u).text =
      Phrase.said q.binding q.mergeInto ++
        (q.mergeSource (first :: rest)).text (q.dialect.quotePart Upsert.source) ++
        (q.merge (first :: rest) u).clauses ++ if q.dialect = .sqlServer then ";" else "" := by
    rw [said_mergeInto]
    rfl
  have hchecked : Phrase.said q.binding (q.upsertPhrase (first :: rest) u) =
      Phrase.said q.binding (q.upsertRowsPhrase (first :: rest) u first) := by
    unfold upsertPhrase checkInsert
    rcases hd with hd | hd <;> rw [hd] <;> simp [said_check]
  rw [hchecked, htext, ← hclauses]
  unfold upsertRowsPhrase
  rcases hd with hd | hd
  · rw [text_mergeSource_sqlServer hd, hd]
    simp [columnsOf, Function.comp_def, String.append_assoc]
  · rw [text_mergeSource_firebird hd, hd]
    simp [Function.comp_def, String.append_assoc]

/-! ## What an upsert is accepted for -/

/-- The names of columns that stand in the source of a MERGE. -/
def declaring (q : Query) (rows : List Row) : List String :=
  match q.dialect with
  | .firebird => rows.flatMap Row.names
  | _ => columnsOf rows

theorem declared_mergeSource (rows : List Row) :
    (q.mergeSource rows).declared = (q.declaring rows).map q.dialect.quote := by
  have hr : ∀ r : Row, (r.cells.map fun c =>
      (Phrase.said q.binding (Upsert.sourceValue q.binding c), q.dialect.quote c.name)).map
        Prod.snd = r.names.map q.dialect.quote := by
    intro r
    rw [Row.names, List.map_map, List.map_map]
    rfl
  unfold mergeSource declaring
  split
  · rw [MergeSource.declared, List.flatMap_map, List.map_flatMap]
    exact List.flatMap_congr fun r _ => hr r
  · rfl

theorem heading_mergeSource (rows : List Row) :
    (q.mergeSource rows).heading = (columnsOf rows).map q.dialect.quote := by
  unfold mergeSource
  split
  · cases rows with
    | nil => rfl
    | cons first rest =>
      rw [MergeSource.heading, columnsOf, List.map_cons, List.head?_cons, List.head?_cons,
        Option.getD_some, Option.map_some, Option.getD_some, Row.names, List.map_map, List.map_map]
      rfl
  · rfl

/-- Rows of one shape have one another's names, but for letter case. -/
theorem exists_of_sameNames : ∀ {as bs : List Cell}, Row.sameNames as bs = true →
    ∀ m ∈ as.map Cell.name, ∃ n ∈ bs.map Cell.name, sameIgnoringCase m n = true
  | [], _, _, m, hm => absurd hm List.not_mem_nil
  | _ :: _, [], h, _, _ => by cases h
  | a :: as, b :: bs, h, m, hm => by
    rw [Row.sameNames, Bool.and_eq_true] at h
    rcases List.mem_cons.mp hm with rfl | hm
    · exact ⟨b.name, List.mem_cons_self, h.1⟩
    · obtain ⟨n, hn, hmn⟩ := exists_of_sameNames h.2 m hm
      exact ⟨n, List.mem_cons_of_mem _ hn, hmn⟩

/-- What is not missing from a row is there, but for letter case. -/
theorem exists_of_unknown_eq_none {u : Upsert} {r : Row} (h : u.unknown? r = none) :
    ∀ n ∈ u.matched ++ u.updated, ∃ m ∈ r.names, sameIgnoringCase m n = true := by
  intro n hn
  have hf := List.find?_eq_none.mp h n hn
  cases hc : r.cell? n with
  | none =>
    rw [hc] at hf
    exact absurd rfl hf
  | some c =>
    have hn := List.find?_some hc
    exact ⟨c.name, List.mem_map_of_mem (List.mem_of_find?_eq_some hc), hn⟩

/-- An upsert is accepted for rows of one shape that have the columns to compare and to change. -/
theorem accepted_of_upsert {rows : List Row} {u : Upsert} {e : Expression}
    (h : q.upsert rows u = .ok e) :
    rows ≠ [] ∧
      (∀ r ∈ rows, ∀ m ∈ r.names, ∃ n ∈ columnsOf rows, sameIgnoringCase m n = true) ∧
      ∀ n ∈ u.matched ++ u.updated, ∃ m ∈ columnsOf rows, sameIgnoringCase m n = true := by
  obtain ⟨ps, hps, -⟩ := Phrase.toExpression_eq_ok_iff.mp h
  unfold upsertPhrase at hps
  obtain ⟨_, _, hps, -, -⟩ := Phrase.written_append_eq_ok_iff.mp hps
  obtain ⟨_, _, -, hcheck, -⟩ := Phrase.written_append_eq_ok_iff.mp hps
  cases rows with
  | nil => cases hcheck
  | cons first rest =>
    unfold Upsert.check checkRows at hcheck
    obtain ⟨_, _, hcheck, hu, -⟩ := Phrase.written_append_eq_ok_iff.mp hcheck
    obtain ⟨_, _, hcheck, -, -⟩ := Phrase.written_append_eq_ok_iff.mp hcheck
    obtain ⟨_, _, hcheck, -, -⟩ := Phrase.written_append_eq_ok_iff.mp hcheck
    obtain ⟨_, _, -, hshape, -⟩ := Phrase.written_append_eq_ok_iff.mp hcheck
    have hs := Phrase.eq_false_of_written_failIf hshape
    rw [Bool.not_eq_false', List.all_eq_true] at hs
    have hk : u.unknown? first = none := by
      cases hk : u.unknown? first with
      | none => rfl
      | some n =>
        rw [hk] at hu
        cases hu
    exact ⟨List.cons_ne_nil _ _, fun r hr => exists_of_sameNames (hs r hr),
      exists_of_unknown_eq_none hk⟩

/-! ## References and declarations -/

/-- What the names in the statement of an upsert come to. -/
structure MergesBy (q : Query) (rows : List Row) (u : Upsert) (e : Expression) : Prop where
  /-- The statement is the MERGE. -/
  template : e.template = (q.merge rows u).text
  /-- Letter case apart, the columns to compare and to change are those of the rows. -/
  known : ∀ n ∈ u.matched ++ u.updated, ∃ m ∈ columnsOf rows, sameIgnoringCase m n = true
  /-- When every reference is a name that stands in the source. -/
  resolves : (q.merge rows u).Resolves ↔
    (∀ n ∈ columnsOf rows, q.dialect.Simple n) ∧
      ∀ n ∈ u.matched ++ u.updated, n ∈ q.declaring rows
  /-- When every reference is a name that the engine knows the source by. -/
  resolvesInHeading : (q.merge rows u).ResolvesInHeading ↔
    (∀ n ∈ columnsOf rows, q.dialect.Simple n) ∧ ∀ n ∈ u.matched ++ u.updated, n ∈ columnsOf rows

theorem references_merge (rows : List Row) (u : Upsert) :
    (q.merge rows u).references =
      (u.matched ++ u.updated ++ columnsOf rows).map q.dialect.quotePart := by
  rw [List.map_append, List.map_append]
  rfl

theorem mem_declaring_of_columnsOf {rows : List Row} {n : String} (hn : n ∈ columnsOf rows) :
    n ∈ q.declaring rows := by
  unfold declaring
  split
  · cases rows with
    | nil => cases hn
    | cons first rest => exact List.mem_flatMap.mpr ⟨first, List.mem_cons_self, hn⟩
  · exact hn

theorem exists_of_mem_declaring {rows : List Row}
    (hs : ∀ r ∈ rows, ∀ m ∈ r.names, ∃ n ∈ columnsOf rows, sameIgnoringCase m n = true)
    {m : String} (hm : m ∈ q.declaring rows) :
    ∃ n ∈ columnsOf rows, sameIgnoringCase m n = true := by
  unfold declaring at hm
  split at hm
  · obtain ⟨r, hr, hm⟩ := List.mem_flatMap.mp hm
    exact hs r hr m hm
  · exact ⟨m, hm, sameIgnoringCase_refl m⟩

end Query

/-- **The columns that a MERGE refers to are those that its source declares, spelled alike,
exactly if** the names of the row are simple and the columns to compare and to change are spelled
as the source spells them. The check of an upsert compares them without regard to letter case. -/
theorem merge_resolves_iff {q : Query} (hd : q.dialect = .sqlServer ∨ q.dialect = .firebird)
    {rows : List Row} {u : Upsert} {e : Expression} (h : q.upsert rows u = .ok e) :
    q.MergesBy rows u e := by
  obtain ⟨hr, hs, hk⟩ := Query.accepted_of_upsert h
  have hrefs : ∀ declared : List String, (∀ c ∈ (q.merge rows u).references, c ∈ declared) ↔
      ∀ n ∈ u.matched ++ u.updated ++ Query.columnsOf rows, q.dialect.quotePart n ∈ declared := by
    intro declared
    rw [Query.references_merge, List.forall_mem_map]
  refine ⟨?_, hk, ?_, ?_⟩
  · rw [Phrase.template_eq_said h, Query.said_upsertPhrase hd hr]
  · refine (hrefs _).trans ?_
    change (∀ n ∈ _, _ ∈ (q.mergeSource rows).declared) ↔ _
    rw [Query.declared_mergeSource]
    exact Dialect.declared_iff (fun n => Query.mem_declaring_of_columnsOf) fun m =>
      Query.exists_of_mem_declaring hs
  · refine (hrefs _).trans ?_
    change (∀ n ∈ _, _ ∈ (q.mergeSource rows).heading) ↔ _
    rw [Query.heading_mergeSource]
    exact Dialect.declared_iff (fun n hn => hn) fun m hm => ⟨m, hm, sameIgnoringCase_refl m⟩

/-- Some table. -/
def anyTable (d : Dialect) : Query := .new ⟨"T", none⟩ (.new d)

/-- A row of one column. -/
def rowUnder (name : String) : Row := .ofPairs [(name, .int 1)]

/-- The upsert that goes by one column and changes it. -/
def upsertUnder (name : String) : Upsert := ⟨[name], [name]⟩

theorem anyTable_resolves :
    (∃ e, (anyTable .firebird).upsert [rowUnder "Id"] (upsertUnder "Id") = .ok e ∧
      (anyTable .firebird).MergesBy [rowUnder "Id"] (upsertUnder "Id") e) ∧
    ((anyTable .firebird).merge [rowUnder "Id"] (upsertUnder "Id")).Resolves := by
  have h : (anyTable .firebird).upsert [rowUnder "Id"] (upsertUnder "Id") = .ok _ := rfl
  have hm := merge_resolves_iff (.inr rfl) h
  refine ⟨⟨_, h, hm⟩, hm.resolves.mpr ⟨?_, ?_⟩⟩ <;> decide

/-- **A blank in front of a name is enough to tell the references from the declaration.** -/
theorem padded_not_resolves :
    ∃ e, (anyTable .sqlServer).upsert [rowUnder " Id"] (upsertUnder " Id") = .ok e ∧
      e.template = ((anyTable .sqlServer).merge [rowUnder " Id"] (upsertUnder " Id")).text ∧
      ((anyTable .sqlServer).merge [rowUnder " Id"] (upsertUnder " Id")).rows.declared = ["[Id]"] ∧
      ((anyTable .sqlServer).merge [rowUnder " Id"] (upsertUnder " Id")).references =
        ["[ Id]", "[ Id]", "[ Id]"] ∧
      ¬ ((anyTable .sqlServer).merge [rowUnder " Id"] (upsertUnder " Id")).Resolves := by
  have h : (anyTable .sqlServer).upsert [rowUnder " Id"] (upsertUnder " Id") = .ok _ := rfl
  refine ⟨_, h, ?_, by decide, by decide, by decide⟩
  exact (Phrase.template_eq_said h).trans
    (Query.said_upsertPhrase (.inl rfl) (List.cons_ne_nil _ _) _)

end SqlWeave
