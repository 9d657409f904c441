import SqlWeave.Proofs.Member.Grammar
import SqlWeave.Proofs.Member.Survival
import SqlWeave.Proofs.Quoting.Name
import SqlWeave.Proofs.Said
import SqlWeave.Query.Select

/-!
# Names of projected fields

Each field of a projection is an item of the select list. It comes out under a name if the item ends
with that name as its alias, or is a reference to a column of that name, perhaps qualified.

The alias is left out where a field is the first member alone and has its name. That a reference to
a column of this name is written then is not certain: a static member is no column, the convention
for names may change the name of a column, and a name with dots is cut at them.

Results:
* `refers_quote_iff`: a column is referred to by the last part of its name.
* `Query.template_select`: the items of the select list stand in a selection one behind the other.
* `Column.not_titles_static`: a static member is no reference, whatever engine writes it.
* `Column.titles_iff_keepsName`: when a field comes out under its name.
* **`Query.selectMembers_titles_iff`**: which fields of a projection come out under their names.
-/

namespace SqlWeave

/-! ## References and aliases -/

namespace Dialect

variable {d : Dialect} {item name column : String}

/-- The item is a reference to the column of a name: the name in quotes, perhaps behind qualifiers.
The star is never quoted, so it is the name of no column. -/
def Refers (d : Dialect) (item name : String) : Prop :=
  name ≠ "*" ∧ ∃ qualifiers : List String,
    item = ".".intercalate ((qualifiers ++ [name]).map d.quotePart)

/-- The item of a select list comes out under a name: it ends with the name as its alias, or is a
reference to the column of that name. -/
def Titles (d : Dialect) (item name : String) : Prop :=
  (∃ before, item = before ++ (" AS " ++ d.quotePart name)) ∨ d.Refers item name

/-- **A column is referred to by the last part of its name.** -/
theorem refers_quote_iff (h : d.Unquoted column) :
    d.Refers (d.quote column) name ↔ name ≠ "*" ∧ (parts column).getLast? = some name := by
  refine and_congr_right fun _ => ?_
  rw [quote_eq_intercalate h]
  constructor
  · rintro ⟨qualifiers, hq⟩
    -- both sides are read back as the parts that they were written from
    have hread : d.readParts ((".".intercalate ((parts column).map d.quotePart)).toList ++ []) =
        d.readParts ((".".intercalate ((qualifiers ++ [name]).map d.quotePart)).toList ++ []) := by
      rw [hq]
    rw [readParts_intercalate (by simp) (by simp) (parts_ne_nil column),
      readParts_intercalate (by simp) (by simp) (by simp)] at hread
    rw [(Prod.mk.inj (Option.some.inj hread)).1]
    exact List.getLast?_concat
  · intro hl
    obtain ⟨qualifiers, hq⟩ := List.getLast?_eq_some_iff.mp hl
    exact ⟨qualifiers, by rw [hq]⟩

/-- A quoted part ends with a closing quote or is the star. -/
theorem getLast?_quotePart (d : Dialect) (name : String) :
    ∃ c, (d.quotePart name).toList.getLast? = some c ∧ (c = d.quotes.2 ∨ c = '*') := by
  by_cases h : name = "*"
  · subst h
    exact ⟨'*', by rw [toList_quotePart_star]; rfl, .inr rfl⟩
  · refine ⟨d.quotes.2, ?_, .inl rfl⟩
    rw [toList_quotePart h, ← List.cons_append]
    exact List.getLast?_concat

/-- The text ends with a character that is no closing quote and no star. -/
def EndsPlain (d : Dialect) (item : String) : Prop :=
  (item.toList.getLast?.any fun c => c != d.quotes.2 && c != '*') = true

instance (d : Dialect) (item : String) : Decidable (d.EndsPlain item) :=
  inferInstanceAs (Decidable (_ = true))

theorem EndsPlain.append {after : String} (h : d.EndsPlain after) (before : String) :
    d.EndsPlain (before ++ after) := by
  unfold EndsPlain at h ⊢
  cases hl : after.toList.getLast? with
  | none => simp [hl] at h
  | some c => rwa [String.toList_append, List.getLast?_append, hl, Option.some_or, ← hl]

theorem not_endsPlain_append (before : String) : ¬ d.EndsPlain (before ++ d.quotePart name) := by
  obtain ⟨c, hc, hq⟩ := d.getLast?_quotePart name
  unfold EndsPlain
  rw [String.toList_append, List.getLast?_append, hc]
  rcases hq with rfl | rfl <;> simp

theorem intercalate_concat (separator s : String) (ss : List String) :
    ∃ before, separator.intercalate (ss ++ [s]) = before ++ s := by
  by_cases h : ss = []
  · exact ⟨"", by rw [h, List.nil_append, String.intercalate_singleton, String.empty_append]⟩
  · exact ⟨separator.intercalate ss ++ separator, by
      rw [String.intercalate_append_of_ne_nil h (List.cons_ne_nil _ _),
        String.intercalate_singleton]⟩

/-- What comes out under a name ends with a quoted name. -/
theorem Titles.not_endsPlain (h : d.Titles item name) : ¬ d.EndsPlain item := by
  rcases h with ⟨before, rfl⟩ | ⟨-, qualifiers, rfl⟩
  · rw [← String.append_assoc]
    exact not_endsPlain_append _
  · obtain ⟨before, hb⟩ := intercalate_concat "." (d.quotePart name) (qualifiers.map d.quotePart)
    rw [List.map_append, List.map_singleton, hb]
    exact not_endsPlain_append before

end Dialect

/-! ## What fragments say -/

namespace Phrase

variable {b : Binding}

/-- Joining text does not change what pieces say. -/
theorem said_leaves_cons (p : Piece) (ps : List Piece) :
    said b ((Piece.leavesAll (Piece.cons p ps)).flatMap ofLeaf) =
      said b (p.leaves.flatMap ofLeaf) ++ said b ((Piece.leavesAll ps).flatMap ofLeaf) := by
  have hsplit : ∀ q : Piece, said b ((Piece.leavesAll (q :: ps)).flatMap ofLeaf) =
      said b (q.leaves.flatMap ofLeaf) ++ said b ((Piece.leavesAll ps).flatMap ofLeaf) := by
    intro q
    rw [Piece.leavesAll, List.flatMap_append, said_append]
  cases p with
  | bound v => exact hsplit _
  | nested inner => exact hsplit _
  | text s =>
    by_cases hs : s = ""
    · subst hs
      exact String.empty_append.symm
    · rcases ps with - | ⟨(t | v | inner), ps⟩
      · simp [Piece.cons, hs, Piece.leavesAll, Piece.leaves, ofLeaf]
      · simp [Piece.cons, hs, Piece.leavesAll, Piece.leaves, ofLeaf, String.append_assoc]
      · simpa [Piece.cons, hs] using hsplit _
      · simpa [Piece.cons, hs] using hsplit _

/-- A fragment says what its pieces say. -/
theorem said_ofExpression_ofPieces (ps : List Piece) :
    said b (ofExpression (.ofPieces ps)) = said b ((Piece.leavesAll ps).flatMap ofLeaf) := by
  rw [ofExpression, Expression.leaves_eq, Expression.pieces_ofPieces]
  induction ps with
  | nil => rfl
  | cons p ps ih =>
    rw [Piece.leavesAll, List.flatMap_append, said_append, ← ih, Piece.normal_cons,
      said_leaves_cons]

theorem said_ofExpression_raw (s : String) : said b (ofExpression (.raw s)) = s := by
  rw [Expression.raw_eq, said_ofExpression_ofPieces]
  simp [Piece.leavesAll, Piece.leaves, ofLeaf]

theorem said_ofExpression_wrap (e : Expression) (before after : String) :
    said b (ofExpression (e.wrap before after)) = before ++ said b (ofExpression e) ++ after := by
  rw [Expression.wrap_eq, said_ofExpression_ofPieces]
  simp [Piece.leavesAll, Piece.leaves, ofLeaf, ofExpression, String.append_assoc]

end Phrase

/-! ## The select list -/

namespace Query

open Phrase (said)

variable {q : Query} {e : Expression}

/-- What each column of the select list says. -/
def selectItems (q : Query) : List String :=
  q.columns.map fun c => said q.binding (Column.spliced (c.selected q.scope))

/-- In a phrase the select list and the body stand behind SELECT and other words. -/
def ListedIn (q : Query) (p : Phrase) : Prop :=
  ∃ us vs, p = us ++ q.selectList ++ q.body ++ vs ∧ ∀ b, ∃ before, said b us = "SELECT " ++ before

theorem listedIn_words (q : Query) (words vs : Phrase) :
    q.ListedIn (.text "SELECT " :: words ++ q.selectList ++ q.body ++ vs) :=
  ⟨.text "SELECT " :: words, vs, rfl, fun b => ⟨said b words, Phrase.said_text_cons _ _⟩⟩

/-- Where rows are numbered, the number of the row is written in front of the select list. -/
theorem listedIn_numberedRows (q : Query) (offset : Nat) : q.ListedIn (q.numberedRows offset) := by
  refine ⟨Phrase.failIf q.distinct (.notSupported .distinctWithRowNumber q.dialect.name) ++
    .text "SELECT * FROM (SELECT ROW_NUMBER() OVER(ORDER BY " :: q.orderList ++
      [.text (") AS " ++ q.dialect.quotePart rowNumberColumn ++ ", ")],
    [.text ") ", .text (q.dialect.quotePart q.table.aliasOrName), .text " WHERE ",
      .text (q.dialect.quotePart rowNumberColumn),
      .text (Window.numbered offset q.limit).condition], ?_, fun b => ?_⟩
  · simp [numberedRows]
  · have hfirst : "SELECT * FROM (SELECT ROW_NUMBER() OVER(ORDER BY " =
        "SELECT " ++ "* FROM (SELECT ROW_NUMBER() OVER(ORDER BY " := by decide
    rw [Phrase.said_append, Phrase.said_append, Phrase.said_failIf, String.empty_append,
      Phrase.said_text_cons, hfirst, String.append_assoc, String.append_assoc]
    exact ⟨_, rfl⟩

/-- **Where the select list stands in a selection**: behind SELECT and the words of the page, or the
number of the row, and in front of the body. -/
theorem listedIn_selectPhrase (q : Query) :
    q.selectPhrase = [.failure (.validation .offsetWithoutOrder)] ∨ q.ListedIn q.selectPhrase := by
  have hplain : ∀ vs : Phrase, q.selectPhrase = q.plainSelect ++ vs → q.ListedIn q.selectPhrase :=
    fun vs h => h ▸ q.listedIn_words q.distinctWord vs
  cases hd : q.dialect with
  | mysql => exact .inr (hplain (q.ordering ++ q.mysqlLimit) (by simp [selectPhrase, hd]))
  | sqlite => exact .inr (hplain (q.ordering ++ q.sqliteLimit) (by simp [selectPhrase, hd]))
  | firebird =>
    have h :=
      q.listedIn_words (.text (Window.firstSkip q.limit q.offset) :: q.distinctWord) q.ordering
    exact .inr (by simpa [selectPhrase, hd] using h)
  | sqlServer =>
    cases hk : q.offset with
    | none =>
      have h := q.listedIn_words (q.distinctWord ++ [.text (Window.top q.limit)]) q.ordering
      exact .inr (by simpa [selectPhrase, sqlServerSelect, hd, hk] using h)
    | some offset =>
      by_cases ho : q.orderBy = []
      · exact .inl (by simp [selectPhrase, sqlServerSelect, hd, hk, ho])
      · cases hold : q.config.useOldPagination with
        | false =>
          exact .inr (hplain (q.ordering ++ [.text (Window.offsetFetch offset q.limit)])
            (by simp [selectPhrase, sqlServerSelect, hd, hk, ho, hold]))
        | true =>
          have h := q.listedIn_numberedRows offset
          exact .inr (by simpa [selectPhrase, sqlServerSelect, hd, hk, ho, hold] using h)

/-- The select list of a selection that is written can be written. -/
theorem listedIn_of_select (h : q.select = .ok e) : q.ListedIn q.selectPhrase := by
  refine q.listedIn_selectPhrase.resolve_left fun hp => ?_
  unfold select at h
  rw [hp] at h
  cases h

/-- Every column of a selection that can be written can be written. -/
theorem exists_selected (h : q.select = .ok e) :
    ∀ c ∈ q.columns, ∃ x, c.selected q.scope = .ok x := by
  intro c hc
  obtain ⟨us, vs, hp, -⟩ := listedIn_of_select h
  obtain ⟨ps, hw, -⟩ := Phrase.toExpression_eq_ok_iff.mp h
  rw [hp, List.append_assoc, List.append_assoc] at hw
  obtain ⟨-, rest, -, hw, -⟩ := Phrase.written_append_eq_ok_iff.mp hw
  obtain ⟨list, -, hw, -⟩ := Phrase.written_append_eq_ok_iff.mp hw
  unfold selectList at hw
  rw [if_neg (by simpa using List.ne_nil_of_mem hc), Phrase.written_join] at hw
  obtain ⟨items, hw, -⟩ := map_eq_ok_iff.mp hw
  cases hx : c.selected q.scope with
  | ok x => exact ⟨x, rfl⟩
  | error failure =>
    have hmem : [.failure failure] ∈ q.columns.map fun c => Column.spliced (c.selected q.scope) :=
      List.mem_map.mpr ⟨c, hc, by rw [hx]; rfl⟩
    obtain ⟨item, hitem⟩ := exists_of_mapM_of_mem hw hmem
    cases hitem

/-- **The items of the select list stand in a selection one behind the other**, between SELECT and
FROM. -/
theorem template_select (hc : q.columns ≠ []) (h : q.select = .ok e) :
    ∃ before behind, e.template =
      "SELECT " ++ before ++ ", ".intercalate q.selectItems ++ " FROM " ++ behind := by
  obtain ⟨us, vs, hp, hus⟩ := listedIn_of_select h
  obtain ⟨before, hbefore⟩ := hus q.binding
  have hlist : said q.binding q.selectList = ", ".intercalate q.selectItems := by
    unfold selectList selectItems
    rw [if_neg (by simpa using hc), Phrase.said_join, List.map_map]
    rfl
  have hbody : ∃ behind, said q.binding q.body = " FROM " ++ behind := by
    unfold body fromTables
    simp only [List.cons_append, Phrase.said_text_cons]
    exact ⟨_, rfl⟩
  obtain ⟨behind, hbehind⟩ := hbody
  refine ⟨before, behind ++ said q.binding vs, ?_⟩
  rw [Phrase.template_eq_said h, hp, Phrase.said_append, Phrase.said_append, Phrase.said_append,
    hbefore, hlist, hbehind]
  simp only [String.append_assoc]

end Query

/-! ## Static members -/

/-- A fragment ends with no closing quote and no star, however its values are written. -/
def Expression.EndsPlain (d : Dialect) (e : Expression) : Prop :=
  ∀ b, d.EndsPlain (Phrase.said b (Phrase.ofExpression e))

section

variable {d : Dialect} {n : Node} {e : Expression}

theorem Expression.endsPlain_wrap {after : String} (h : d.EndsPlain after) (e : Expression)
    (before : String) : (e.wrap before after).EndsPlain d := by
  intro b
  rw [Phrase.said_ofExpression_wrap]
  exact h.append _

/-- A fragment ends as its last text does. -/
theorem Expression.endsPlain_ofPieces {s : String} (h : d.EndsPlain s) (ps : List Piece) :
    (ofPieces (ps ++ [.text s])).EndsPlain d := by
  intro b
  have hs : Phrase.said b ((Piece.leavesAll [.text s]).flatMap Phrase.ofLeaf) = s := by
    simp [Piece.leavesAll, Piece.leaves, Phrase.ofLeaf]
  rw [Phrase.said_ofExpression_ofPieces, Piece.leavesAll_append, List.flatMap_append,
    Phrase.said_append, hs]
  exact h.append _

/-- The characters end with one that closes no quotes and is no star. -/
def endsPlain (cs : List Char) : Bool :=
  cs.getLast?.any fun c => !Template.isClosing c && c != '*'

theorem endsPlain_of_checks {s : String} (h : Template.checks endsPlain s = true) :
    d.EndsPlain s := by
  obtain ⟨c, hc, hplain⟩ := (Option.any_eq_true _ _).mp (Template.of_checks h)
  obtain ⟨hclosing, hstar⟩ := Bool.and_eq_true_iff.mp hplain
  unfold Dialect.EndsPlain
  rw [hc, Option.any_some, hstar, Bool.and_true, bne_iff_ne]
  rintro rfl
  cases d <;> cases hclosing

theorem endsPlain_of_mem_clocks {s : String} (hs : s ∈ clocks) : d.EndsPlain s := by
  have h : ∀ s ∈ clocks, Template.checks endsPlain s = true := by decide +kernel
  exact endsPlain_of_checks (h s hs)

theorem endsPlain_of_mem_frames {before after : String} (hs : (before, after) ∈ frames) :
    d.EndsPlain after := by
  have h : ∀ f ∈ frames, Template.checks endsPlain f.2 = true := by decide +kernel
  exact endsPlain_of_checks (h _ hs)

/-- A template that is filled ends with a text of its own. -/
theorem endsPlain_of_mem_templates {template : String} {params : List Param}
    (hs : (template, params.length) ∈ templates) :
    (Expression.new template params).EndsPlain d := by
  have hends : ∀ t ∈ templates, Template.checks (fun cs =>
      ((Template.cut [] (Template.scan none cs)).getLast?.bind List.getLast?) == some ')')
        t.1 = true := by
    decide +kernel
  have hlast := Template.of_checks (hends _ hs)
  obtain ⟨cs, hcs, hlast⟩ := Option.bind_eq_some_iff.mp (beq_iff_eq.mp hlast)
  obtain ⟨ps, hps⟩ := Piece.weave_eq_append (cut_of_mem_templates hs).2 hcs
  rw [new_of_mem_templates hs, hps]
  refine Expression.endsPlain_ofPieces ?_ ps
  unfold Dialect.EndsPlain
  rw [String.toList_ofList, hlast]
  cases d <;> decide

/-- **A static member is no reference and has no alias**, whatever engine writes it: it ends with a
parenthesis or a word. -/
theorem Registry.endsPlain_static {s : Scope} {root : Property}
    (h : (ofDialect d).apply s .empty (.property root) (.ok []) = .ok e) : e.EndsPlain d := by
  obtain ⟨t, ps, ht, hps, h⟩ := apply_eq_ok_iff.mp h
  cases hps
  have hn := accepts_of_find? ht
  obtain ⟨k, rfl⟩ := Topic.exists_of_mem (List.mem_of_find?_eq_some ht)
  have hanswer := k.answer d s .empty (.property root) []
  rw [h] at hanswer
  cases hanswer with
  | clock hs =>
    intro b
    rw [Phrase.said_ofExpression_raw]
    exact endsPlain_of_mem_clocks hs
  | framed hs => exact Expression.endsPlain_wrap (endsPlain_of_mem_frames hs) .empty _
  | filled hs => exact endsPlain_of_mem_templates hs
  | series hs =>
    rw [series_eq hs, ← List.cons_append]
    exact Expression.endsPlain_ofPieces (by cases d <;> decide) _
  | itself hk hname =>
    -- only a method has this name
    subst hk
    obtain ⟨-, ⟨hm, -⟩ | ⟨-, hl⟩⟩ := Topic.accepts_iff.mp hn
    · cases hm
    · rw [hname] at hl
      exact absurd hl (by decide)

end

/-! ## Fields -/

/-- The text of a column, with the name of its table in front where tables are joined. -/
def Scope.columnText (s : Scope) (column : String) : String :=
  if s.joined then s.table.aliasOrName ++ "." ++ column else column

/-- The last part of a plain name is the name, whatever table stands in front. -/
theorem Scope.getLast?_parts_columnText (s : Scope) {name : String} (h : s.dialect.Simple name) :
    (Dialect.parts (s.columnText name)).getLast? = some name := by
  have hname : Dialect.parts name = [name] := by
    unfold Dialect.parts
    rw [List.splitOn_eq_singleton h.undotted, List.map_singleton, h.trimmed, String.ofList_toList]
  unfold columnText
  split
  · have hdot : ".".toList = ['.'] := by decide
    unfold Dialect.parts at hname ⊢
    rw [String.toList_append, String.toList_append, hdot, List.append_assoc, List.singleton_append,
      List.splitOn_append_cons_self, List.map_append, hname]
    exact List.getLast?_concat
  · rw [hname]
    rfl

namespace Path

/-- A field comes out under a name: one that is a first member alone and has that name must be a
column that is written as one of that name. -/
def KeepsName (s : Scope) (name : String) : Path → Prop
  | static _ n _ => n ≠ name
  | property parameter n _ =>
    n = name → s.dialect.Titles (s.dialect.quote (s.columnText (s.config.naming.apply n))) name
  | _ => True

/-- Where names are kept, plain names are kept. -/
theorem keepsName_of_simple {s : Scope} {n : String} (hs : s.config.naming = .asIs)
    (hn : s.dialect.Simple n) (hstar : n ≠ "*") (hu : s.dialect.Unquoted (s.columnText n))
    (r : MemberType) : (property parameter n r).KeepsName s n := by
  intro _
  rw [hs, Text.Naming.asIs_apply]
  exact .inr ((Dialect.refers_quote_iff hu).mpr ⟨hstar, s.getLast?_parts_columnText hn⟩)

end Path

namespace Column

variable {s : Scope} {b : Binding} {m : Member} {e x : Expression} {name : String}

/-- A column under an alias comes out under it. -/
theorem titles_of_aliasName (hm : m.aliasName = some name)
    (hx : (member m).selected s = .ok x) :
    s.dialect.Titles (Phrase.said b (Phrase.ofExpression x)) name := by
  unfold selected at hx
  obtain ⟨e, -, rfl⟩ := map_eq_ok_iff.mp hx
  have halias : (member m).aliasName? = some name := hm
  rw [halias]
  refine .inl ⟨Phrase.said b (Phrase.ofExpression e), ?_⟩
  exact Phrase.said_ofExpression_wrap e "" _ |>.trans (by rw [String.empty_append])

/-- A column without an alias is written as it is. -/
theorem compile_of_aliasName (hm : m.aliasName = none) (hx : (member m).selected s = .ok x) :
    m.compile s = .ok x := by
  unfold selected at hx
  obtain ⟨e, he, rfl⟩ := map_eq_ok_iff.mp hx
  have halias : (member m).aliasName? = none := hm
  rw [halias]
  exact he

/-- A static member is written without an alias under no name. -/
theorem not_titles_static {d : MemberType} {n : String} {r : MemberType}
    (hx : (Path.staticMember d n r).compile s = .ok x) :
    ¬ s.dialect.Titles (Phrase.said b (Phrase.ofExpression x)) name := by
  intro ht
  have happly : (Registry.ofDialect s.dialect).apply s .empty (.property ⟨d, n, r⟩) (.ok []) =
      .ok x := by
    unfold Member.compile Path.staticMember at hx
    rw [Registry.member, if_pos rfl] at hx
    obtain ⟨start, hs, hx⟩ := bind_eq_ok_iff.mp hx
    rw [hs]
    exact hx
  exact ht.not_endsPlain (Registry.endsPlain_static happly b)

/-- A property of the parameter is written as its column. -/
theorem said_rootMember {n : String} {r : MemberType}
    (hx : (Path.rootMember s.config n r).compile s = .ok x) :
    Phrase.said b (Phrase.ofExpression x) =
      s.dialect.quote (s.columnText (s.config.naming.apply n)) := by
  unfold Member.compile Path.rootMember at hx
  rw [Registry.member, if_neg Bool.false_ne_true, Registry.chain] at hx
  split at hx
  · cases hx
  · cases hx
    exact Phrase.said_ofExpression_raw _

/-- **A field comes out under its name exactly if it keeps it.** -/
theorem titles_iff_keepsName {shapes : Shapes} {field : String × Path}
    (hm : Path.projected s.config shapes field = .ok m) (hx : (member m).selected s = .ok x) :
    s.dialect.Titles (Phrase.said b (Phrase.ofExpression x)) field.1 ↔
      field.2.KeepsName s field.1 := by
  obtain ⟨name, p⟩ := field
  obtain ⟨start, hstart, hm⟩ := bind_eq_ok_iff.mp hm
  cases hm
  split at hx
  case isTrue hroot =>
    have hcompile := compile_of_aliasName (Path.aliasName_of_chain hstart) hx
    rcases Path.first_of_chain hstart (by simpa using hroot.2) with
      ⟨d, n, r, rfl, rfl⟩ | ⟨n, r, rfl, rfl⟩
    · exact iff_of_false (not_titles_static hcompile) (absurd hroot.1)
    · rw [said_rootMember hcompile]
      exact ⟨fun h _ => h, fun h => h hroot.1⟩
  case isFalse hroot =>
    refine iff_of_true (titles_of_aliasName rfl hx) ?_
    cases p with
    | static d n r =>
      cases hstart
      exact fun hn => hroot ⟨hn, rfl⟩
    | property target n r =>
      cases target with
      | parameter =>
        cases hstart
        exact fun hn => absurd ⟨hn, rfl⟩ hroot
      | _ => trivial
    | _ => trivial

end Column

namespace Query

/-- A projection that is accepted has fields, and each is resolved. -/
theorem mapM_of_process {c : Config} {fields : List (String × Path)} {ms : List Member}
    (h : (Path.projection fields).process c .all = .ok ms) :
    fields ≠ [] ∧ List.Forall₂ (fun f m => Path.projected c .all f = .ok m) fields ms := by
  rw [Path.process, if_neg (by decide)] at h
  split at h
  · cases h
  · rename_i hfields
    exact ⟨by simpa using hfields, mapM_eq_ok_iff.mp h⟩

theorem titles_of_forall₂ {s : Scope} {b : Binding} {fields : List (String × Path)}
    {ms : List Member}
    (h : List.Forall₂ (fun f m => Path.projected s.config .all f = .ok m) fields ms)
    (hx : ∀ m ∈ ms, ∃ x, (Column.member m).selected s = .ok x) :
    List.Forall₂ (fun field m => s.dialect.Titles
      (Phrase.said b (Column.spliced ((Column.member m).selected s))) field.1 ↔
        field.2.KeepsName s field.1) fields ms := by
  induction h with
  | nil => exact .nil
  | cons hm _ ih =>
    obtain ⟨⟨x, hfirst⟩, hrest⟩ := List.forall_mem_cons.mp hx
    refine .cons ?_ (ih hrest)
    rw [hfirst]
    exact Column.titles_iff_keepsName hm hfirst

/-- **Which fields of a projection come out under their names.** Where a query of a projection is
written, the items of its select list stand between SELECT and FROM, one for each field, and an item
comes out under the name of its field exactly if the field keeps it: it is not a static member of
that name, and if it is the property of that name, its column is written as one of that name. A
column is referred to by the last part of its name, so without a convention for names plain names
are kept. -/
theorem selectMembers_titles_iff {q q' : Query} {fields : List (String × Path)} {e : Expression}
    (hq : q.selectMembers (.projection fields) = .ok q') (he : q'.select = .ok e) :
    (∃ before behind, e.template =
      "SELECT " ++ before ++ ", ".intercalate q'.selectItems ++ " FROM " ++ behind) ∧
    List.Forall₂ (fun field item => q.dialect.Titles item field.1 ↔
      field.2.KeepsName q.scope field.1) fields q'.selectItems ∧
    (∀ column name, q.dialect.Unquoted column → (q.dialect.Refers (q.dialect.quote column) name ↔
      name ≠ "*" ∧ (Dialect.parts column).getLast? = some name)) ∧
    (q.config.naming = .asIs → ∀ n r, q.dialect.Simple n → n ≠ "*" →
      q.dialect.Unquoted (q.scope.columnText n) →
      (Path.property .parameter n r).KeepsName q.scope n) := by
  obtain ⟨ms, hms, rfl⟩ := map_eq_ok_iff.mp hq
  obtain ⟨hfields, hms⟩ := mapM_of_process hms
  have hcolumns : (ms.map Column.member) ≠ [] := by
    have hlength := hms.length_eq
    rintro hnil
    rw [List.map_eq_nil_iff.mp hnil] at hlength
    exact hfields (List.length_eq_zero_iff.mp hlength)
  refine ⟨template_select hcolumns he, ?_, fun column name hu => Dialect.refers_quote_iff hu,
    fun hs n r hn hstar hu => Path.keepsName_of_simple (s := q.scope) hs hn hstar hu r⟩
  unfold selectItems
  rw [List.map_map, List.forall₂_map_right_iff]
  exact titles_of_forall₂ hms fun m hm => exists_selected he _ (List.mem_map_of_mem hm)

/-- Customers by their name, as it is and in capitals, and the time of asking. -/
def namedCustomers : List (String × Path) :=
  [("Name", .property .parameter "Name" .string),
    ("Upper", .method (.property .parameter "Name" .string) "to_uppercase" [] .string),
    ("At", .static .dateTime "now" .dateTime)]

theorem namedCustomers_titled : ∃ q' e,
    (Query.new ⟨"Customers", none⟩ (.new .sqlServer)).selectMembers (.projection namedCustomers) =
        .ok q' ∧ q'.select = .ok e ∧
      e.template = "SELECT [Name], UPPER([Name]) AS [Upper], GETDATE() AS [At] FROM [Customers]" ∧
      List.Forall₂ (fun field item => Dialect.sqlServer.Titles item field.1) namedCustomers
        q'.selectItems := by
  refine ⟨_, _, rfl, rfl, by decide +kernel, ?_⟩
  obtain ⟨-, titles, -, plain⟩ := @selectMembers_titles_iff
    (Query.new ⟨"Customers", none⟩ (.new .sqlServer)) _ namedCustomers _ rfl rfl
  have name := plain rfl "Name" .string (by decide) (by decide) (by decide)
  have clock : "now" ≠ "At" := by decide
  obtain _ | ⟨first, _ | ⟨second, _ | ⟨third, last⟩⟩⟩ := titles
  cases last
  exact .cons (first.mpr name) (.cons (second.mpr trivial) (.cons (third.mpr clock) .nil))

/-- **A static member comes out under no name** where the field has its name. -/
theorem now_untitled : ∃ q' e,
    (Query.new ⟨"T", none⟩ (.new .sqlServer)).selectMembers
        (.projection [("now", .static .dateTime "now" .dateTime)]) = .ok q' ∧
      q'.select = .ok e ∧ e.template = "SELECT GETDATE() FROM [T]" ∧
      q'.selectItems = ["GETDATE()"] ∧ ¬ Dialect.sqlServer.Titles "GETDATE()" "now" :=
  ⟨_, _, rfl, rfl, by decide +kernel, by decide +kernel, fun h => h.not_endsPlain (by decide)⟩

end Query
end SqlWeave
