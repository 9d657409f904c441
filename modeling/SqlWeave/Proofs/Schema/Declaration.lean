import SqlWeave.Proofs.Redaction.Outcome
import SqlWeave.Proofs.Said
import SqlWeave.Proofs.Template.Views
import SqlWeave.Schema.Statement

/-!
# What a declared table says

The statement that makes a table binds nothing: the values in the defaults of its columns are
written as literals, however deep they stand in a default. It is refused for a blank name, without
columns, and for a value without a literal. Where it is refused for nothing, it is written unless a
default holds a date with a time whose pattern cannot be read: then the program breaks off. What is
written is every column in its order, the primary key unless a column declares it, and every other
constraint in its order.

Results:
* `Piece.mem_values_leaves_iff`: the values of a piece are those that stand in it at any depth.
* `Phrase.params_of_literally`: a statement that binds nothing has no parameters.
* `Schema.forall_mem_phrase_iff`: what holds of every part of a declaration.
* `Schema.writable_phrase_iff`: what a table must have to be declared.
* `Schema.said_phrase`: the text of the declaration.
* **`Config.createTable_declares`**: when a table is declared, and as what.
-/

namespace SqlWeave

open Text

/-! ## Values within defaults -/

/-- The value stands in the piece, directly or in a fragment within it. -/
inductive Piece.Holds (v : Value) : Piece → Prop
  | bound : Holds v (.bound v)
  | nested {p : Piece} {inner : Expression} (mem : p ∈ inner.pieces) (holds : Holds v p) :
    Holds v (.nested inner)

/-- The value is the parameter or stands in the fragment that it is. -/
def Param.Holds (v : Value) (p : Param) : Prop := p.piece.Holds v

namespace Piece

variable {v : Value}

theorem mem_values_leavesAll_iff {ps : List Piece} :
    v ∈ values (leavesAll ps) ↔ ∃ p ∈ ps, v ∈ values p.leaves := by
  induction ps with
  | nil => simp [leavesAll, values]
  | cons p ps ih =>
    rw [leavesAll, values_append, List.mem_append, ih, List.exists_mem_cons_iff]

theorem mem_values_of_holds {p : Piece} (h : p.Holds v) : v ∈ values p.leaves := by
  induction h with
  | bound => exact List.mem_singleton.mpr rfl
  | @nested p inner mem _ ih =>
    rw [leaves, inner.leaves_eq]
    exact mem_values_leavesAll_iff.mpr ⟨p, mem, ih⟩

theorem holds_nested_of_mem_values (e : Expression) :
    v ∈ values (nested e).leaves → Holds v (.nested e) := by
  induction e using Expression.forall_of_params with
  | _ e ih =>
    intro h
    rw [leaves, e.leaves_eq] at h
    obtain ⟨p, hp, hv⟩ := mem_values_leavesAll_iff.mp h
    refine .nested hp ?_
    cases p with
    | text s => cases hv
    | bound w =>
      obtain rfl := List.mem_singleton.mp hv
      exact .bound
    | nested f => exact ih f (Expression.mem_params_of_nested_mem_pieces hp) hv

/-- **The values among the leaves of a piece are those that stand in it at any depth.** -/
theorem mem_values_leaves_iff (p : Piece) : v ∈ values p.leaves ↔ p.Holds v := by
  refine ⟨fun h => ?_, mem_values_of_holds⟩
  cases p with
  | text s => cases h
  | bound w =>
    obtain rfl := List.mem_singleton.mp h
    exact .bound
  | nested e => exact holds_nested_of_mem_values e h

end Piece

/-! ## Literals -/

namespace Config

/-- The value has a literal when it is intercepted: it is not bytes, and no float that is infinite
or not a number. -/
structure Spells (c : Config) (v : Value) : Prop where
  not_bytes : ∀ bs, c.intercept v ≠ .bytes bs
  finite : ∀ x, c.intercept v = .float x → x.isFinite = true

theorem spells_iff {c : Config} {v : Value} :
    c.Spells v ↔ (c.dialect.literal (c.intercept v)).isSome :=
  ⟨fun h => (Dialect.literal_isSome_iff _ _).mpr ⟨h.not_bytes, h.finite⟩,
    fun h => ((Dialect.literal_isSome_iff _ _).mp h).elim .mk⟩

/-- The literal of a value when it is intercepted. -/
def spelled (c : Config) (v : Value) : String := (c.dialect.literal (c.intercept v)).getD ""

end Config

/-- The text of a piece, a value being its literal. -/
def Piece.spelled (c : Config) : Piece → String
  | .bound v => c.spelled v
  | p => p.template

/-- The text of a parameter with the literals of its values in their places. -/
def Param.spelled (c : Config) (p : Param) : String := String.join (p.leaves.map (Piece.spelled c))

/-! ## Statements that bind nothing -/

namespace Binding

/-- The binding of statements that define something. -/
abbrev defining (c : Config) : Binding := (ofConfig c).literally

variable {c : Config}

theorem place_literally (v : Value) : (defining c).place (.value v) =
    ((defining c).literal (c.intercept v)).map .text := by
  refine if_neg (Bool.not_eq_true _ ▸ ?_)
  simp [binds, literally]

theorem exists_place_value_iff (v : Value) :
    (∃ x, (defining c).place (.value v) = .ok x) ↔ c.Spells v := by
  rw [place_literally, Config.spells_iff]
  unfold literal
  change _ ↔ ((defining c).dialect.literal (c.intercept v)).isSome
  cases (defining c).dialect.literal (c.intercept v) with
  | none => simp [Except.map]
  | some s => simp [Except.map]

/-- No part becomes a place for a value. -/
theorem place_literally_text {part : Part} {x : Piece} (h : (defining c).place part = .ok x) :
    ∃ s, x = .text s := by
  cases part with
  | text s => exact ⟨s, (Except.ok.inj h).symm⟩
  | failure e => cases h
  | value v =>
    rw [place_literally] at h
    obtain ⟨s, -, rfl⟩ := map_eq_ok_iff.mp h
    exact ⟨s, rfl⟩
  | bound v =>
    obtain ⟨s, -, rfl⟩ := map_eq_ok_iff.mp h
    exact ⟨s, rfl⟩

end Binding

namespace Phrase

variable {b : Binding} {c : Config}

theorem exists_toExpression_iff {p : Phrase} : (∃ e, p.toExpression b = .ok e) ↔ Writable b p := by
  constructor
  · rintro ⟨e, he⟩
    obtain ⟨ps, hps, -⟩ := toExpression_eq_ok_iff.mp he
    exact fun part hpart => exists_of_mapM_of_mem hps hpart
  · intro h
    suffices hps : ∃ ps, p.written b = .ok ps from
      hps.elim fun ps hps => ⟨.ofPieces ps, toExpression_eq_ok_iff.mpr ⟨ps, hps, rfl⟩⟩
    induction p with
    | nil => exact ⟨[], rfl⟩
    | cons part p ih =>
      obtain ⟨⟨x, hx⟩, hp⟩ := List.forall_mem_cons.mp h
      obtain ⟨ps, hps⟩ := ih hp
      exact ⟨x :: ps, by rw [written_cons, hx, hps]; rfl⟩

/-- **A statement that binds nothing has no parameters.** -/
theorem params_of_literally {p : Phrase} {e : Expression}
    (h : p.toExpression (.defining c) = .ok e) : e.params = [] := by
  obtain ⟨ps, hps, rfl⟩ := toExpression_eq_ok_iff.mp h
  change Piece.params ps = []
  have htext : ∀ x ∈ ps, ∃ s, x = .text s := fun x hx =>
    (exists_of_mem_mapM hps hx).elim fun _ hpart => Binding.place_literally_text hpart.2
  clear hps h
  induction ps with
  | nil => rfl
  | cons x ps ih =>
    obtain ⟨⟨s, rfl⟩, hps⟩ := List.forall_mem_cons.mp htext
    exact ih hps

/-! ### What holds of every part -/

section Parts

variable {P : Part → Prop}

theorem forall_mem_failIf_iff {bad : Bool} {e : Error} :
    (∀ part ∈ failIf bad e, P part) ↔ (bad = true → P (.failure e)) := by
  cases bad with
  | false => exact iff_of_true (fun _ h => by cases h) (fun h => by cases h)
  | true => exact List.forall_mem_singleton.trans ⟨fun h _ => h, fun h => h rfl⟩

theorem forall_mem_join_iff {separator : String} (hs : P (.text separator)) :
    ∀ {phrases : List Phrase},
      (∀ part ∈ join separator phrases, P part) ↔ ∀ p ∈ phrases, ∀ part ∈ p, P part
  | [] => iff_of_true (fun _ h => by cases h) (fun _ h => by cases h)
  | [p] => by rw [join_singleton, List.forall_mem_singleton]
  | p :: q :: phrases => by
    have ih := @forall_mem_join_iff separator hs (q :: phrases)
    unfold join at ih ⊢
    rw [List.intersperse_cons_cons, List.flatten_cons, List.flatten_cons, List.forall_mem_append,
      List.forall_mem_append, ih, List.forall_mem_cons (a := p), List.forall_mem_singleton,
      and_iff_right hs]

theorem forall_mem_onlyIf_text (ht : ∀ s, P (.text s)) {holds : Bool} {s : String} :
    ∀ part ∈ onlyIf holds [.text s], P part := by
  cases holds with
  | false => exact fun _ h => by cases h
  | true => exact List.forall_mem_singleton.mpr (ht s)

end Parts

/-! ### What can be written -/

theorem writable_leaves_iff (ps : List Piece) :
    Writable (.defining c) (ps.flatMap ofLeaf) ↔ ∀ v ∈ Piece.values ps, c.Spells v := by
  induction ps with
  | nil => exact iff_of_true (fun _ h => by cases h) fun _ h => by cases h
  | cons p ps ih =>
    rw [List.flatMap_cons, writable_append_iff, ih]
    cases p with
    | text s => exact and_iff_right (List.forall_mem_singleton.mpr ⟨_, rfl⟩)
    | nested inner => exact and_iff_right fun _ h => by cases h
    | bound v =>
      rw [Piece.values, List.forall_mem_cons]
      exact and_congr_left' (List.forall_mem_singleton.trans (Binding.exists_place_value_iff v))

/-- **A default is written iff every value in it, at any depth, has a literal.** -/
theorem writable_ofParam_iff (p : Param) :
    Writable (.defining c) (ofParam p) ↔ ∀ v, p.Holds v → c.Spells v := by
  cases p with
  | value v =>
    have hholds : ∀ w, Param.Holds w (.value v) ↔ w = v := fun w =>
      (Piece.mem_values_leaves_iff _).symm.trans List.mem_singleton
    simp only [hholds, forall_eq]
    exact List.forall_mem_singleton.trans (Binding.exists_place_value_iff v)
  | expression e =>
    refine (writable_leaves_iff e.leaves).trans (forall_congr' fun v => ?_)
    exact imp_congr_left (Piece.mem_values_leaves_iff (.nested e))

/-! ### What is guarded -/

/-- The program breaks off at no part of the phrase. -/
def Unbroken (c : Config) (p : Phrase) : Prop := ∀ part ∈ p, c.guarded part = part

theorem guarded_value_iff (v : Value) :
    c.guarded (.value v) = .value v ↔ c.breaksOff v = false := by
  have hg : c.guarded (.value v) = if c.breaksOff v then .failure .brokenOff else .value v := rfl
  cases h : c.breaksOff v with
  | false => exact iff_of_true (hg.trans (by rw [h]; rfl)) rfl
  | true => exact iff_of_false (fun heq => by rw [hg, h] at heq; cases heq) (fun h => by cases h)

/-- The program breaks off at none of a default's parts iff it does at none of its values. -/
theorem unbroken_ofParam_iff (p : Param) :
    Unbroken c (ofParam p) ↔ ∀ v, p.Holds v → c.breaksOff v = false := by
  have hleaves : ∀ ps : List Piece, Unbroken c (ps.flatMap ofLeaf) ↔
      ∀ v ∈ Piece.values ps, c.breaksOff v = false := by
    intro ps
    induction ps with
    | nil => exact iff_of_true (fun _ h => by cases h) fun _ h => by cases h
    | cons p ps ih =>
      rw [List.flatMap_cons, Unbroken, List.forall_mem_append]
      refine (and_congr_right' ih).trans ?_
      cases p with
      | text s => exact and_iff_right (List.forall_mem_singleton.mpr rfl)
      | nested inner => exact and_iff_right fun _ h => by cases h
      | bound v =>
        rw [Piece.values, List.forall_mem_cons]
        exact and_congr_left' (List.forall_mem_singleton.trans (guarded_value_iff v))
  cases p with
  | value v =>
    have hholds : ∀ w, Param.Holds w (.value v) ↔ w = v := fun w =>
      (Piece.mem_values_leaves_iff _).symm.trans List.mem_singleton
    simp only [hholds, forall_eq]
    exact List.forall_mem_singleton.trans (guarded_value_iff v)
  | expression e =>
    refine (hleaves e.leaves).trans (forall_congr' fun v => ?_)
    exact imp_congr_left (Piece.mem_values_leaves_iff (.nested e))

/-- **A guarded phrase is written iff it can be written and breaks off at nothing.** -/
theorem writable_map_guarded_iff {p : Phrase} :
    Writable b (p.map c.guarded) ↔ Writable b p ∧ Unbroken c p := by
  unfold Writable Unbroken
  rw [List.forall_mem_map, ← forall₂_and]
  refine forall₂_congr fun part _ => ?_
  constructor
  · rintro ⟨x, hx⟩
    rcases guarded_eq_or c part with hg | hg
    · exact ⟨⟨x, hg ▸ hx⟩, hg⟩
    · rw [hg] at hx
      cases hx
  · rintro ⟨h, hg⟩
    rwa [hg]

/-- A phrase that can be written, and that breaks off somewhere, breaks off. -/
theorem toExpression_map_guarded {p : Phrase} (hw : Writable b p) (hb : ¬ Unbroken c p) :
    toExpression (p.map c.guarded) b = .error .brokenOff := by
  rw [toExpression_eq]
  suffices h : written b (p.map c.guarded) = .error .brokenOff by
    rw [h]
    rfl
  induction p with
  | nil => exact absurd (fun _ h => by cases h) hb
  | cons part p ih =>
    obtain ⟨⟨x, hx⟩, hw⟩ := List.forall_mem_cons.mp hw
    rw [List.map_cons, written_cons]
    rcases guarded_eq_or c part with hg | hg
    · have hrest : ¬ Unbroken c p := fun h => hb (List.forall_mem_cons.mpr ⟨hg, h⟩)
      rw [hg, hx, ih hw hrest]
      rfl
    · rw [hg]
      rfl

/-! ### What is said -/

theorem partSaid_value (v : Value) : partSaid (.defining c) (.value v) = c.spelled v := by
  unfold partSaid Config.spelled
  rw [Binding.place_literally, Binding.literal]
  have hd : (Binding.defining c).dialect = c.dialect := rfl
  rw [hd]
  cases c.dialect.literal (c.intercept v) <;> rfl

theorem said_leaves {ps : List Piece} (h : ∀ p ∈ ps, ∀ inner, p ≠ .nested inner) :
    said (.defining c) (ps.flatMap ofLeaf) = String.join (ps.map (Piece.spelled c)) := by
  induction ps with
  | nil => rfl
  | cons p ps ih =>
    obtain ⟨hp, hps⟩ := List.forall_mem_cons.mp h
    rw [List.flatMap_cons, said_append, ih hps, List.map_cons, String.join_cons]
    cases p with
    | text s => exact congrArg (· ++ _) ((said_text_cons s []).trans String.append_empty)
    | bound v =>
      exact congrArg (· ++ _)
        ((said_cons _ []).trans (String.append_empty.trans (partSaid_value v)))
    | nested inner => exact absurd rfl (hp inner)

theorem said_ofParam (p : Param) : said (.defining c) (ofParam p) = p.spelled c := by
  cases p with
  | value v =>
    have hflat : ∀ p ∈ [Piece.bound v], ∀ inner, p ≠ .nested inner := fun p hp inner hi => by
      obtain rfl := List.mem_singleton.mp hp
      cases hi
    exact said_leaves (c := c) hflat
  | expression e =>
    rw [Param.spelled, Param.leaves]
    exact said_leaves e.ne_nested_of_mem_leaves

theorem said_onlyIf_text (holds : Bool) (s : String) :
    said b (onlyIf holds [.text s]) = if holds then s else "" := by
  cases holds with
  | false => rfl
  | true => exact (said_text_cons s []).trans String.append_empty

theorem said_columnList (d : Dialect) (names : List String) :
    said b (columnList d names) = "(" ++ ",".intercalate (names.map d.quote) ++ ")" := by
  simp [columnList, String.append_assoc]

end Phrase

/-! ## Columns -/

/-- The column can be declared: its name and type are not blank, and every value in its default has
a literal. -/
structure ColumnDef.Declarable (c : Config) (column : ColumnDef) : Prop where
  name : isBlankText column.name = false
  sqlType : isBlankText column.sqlType = false
  default : ∀ p, column.default = some p → ∀ v, p.Holds v → c.Spells v

namespace ColumnDef

variable {c : Config}

/-- A default behind its keyword. -/
def defaultText (c : Config) : Option Param → String
  | some p => " DEFAULT " ++ p.spelled c
  | none => ""

/-- A column as it is declared. -/
def text (c : Config) (column : ColumnDef) : String :=
  c.dialect.quote column.name ++ " " ++ column.sqlType ++
    (if column.autoIncrement then numberedWords c.dialect else "") ++
    defaultText c column.default ++ (if column.nullable then "" else " NOT NULL")

/-- **What holds of every part of a column**: of its text, of the failure for a blank name or type,
and of the parts of its default. -/
theorem forall_mem_phrase_iff {P : Part → Prop} (ht : ∀ s, P (.text s)) (d : Dialect)
    (column : ColumnDef) :
    (∀ part ∈ column.phrase d, P part) ↔
      ((isBlankText column.name || isBlankText column.sqlType) = true →
        P (.failure (.validation .columnDefinition))) ∧
      ∀ p, column.default = some p → ∀ part ∈ Phrase.ofParam p, P part := by
  have hwords : ∀ holds s, ∀ part ∈ Phrase.onlyIf holds [.text s], P part :=
    fun _ _ => Phrase.forall_mem_onlyIf_text ht
  have hname : ∀ part ∈ ([.text (d.quote column.name), .text " ", .text column.sqlType] : Phrase),
      P part := by
    simp [ht]
  unfold phrase
  simp only [List.forall_mem_append, Phrase.forall_mem_failIf_iff]
  constructor
  · rintro ⟨⟨⟨⟨hfail, -⟩, -⟩, hdefault⟩, -⟩
    refine ⟨hfail, fun p hp => ?_⟩
    rw [hp] at hdefault
    exact (List.forall_mem_cons.mp hdefault).2
  · rintro ⟨hfail, hdefault⟩
    refine ⟨⟨⟨⟨hfail, hname⟩, hwords _ _⟩, ?_⟩, hwords _ _⟩
    cases hp : column.default with
    | none => exact fun _ h => by cases h
    | some p => exact List.forall_mem_cons.mpr ⟨ht _, hdefault p hp⟩

theorem writable_phrase_iff (column : ColumnDef) :
    Phrase.Writable (.defining c) (column.phrase c.dialect) ↔ column.Declarable c := by
  refine (forall_mem_phrase_iff (fun s => ⟨.text s, rfl⟩) c.dialect column).trans ?_
  have hfail (e : Error) : ¬ ∃ x, (Binding.defining c).place (.failure e) = .ok x := by
    rintro ⟨x, hx⟩
    cases hx
  have hdefault := fun p => Phrase.writable_ofParam_iff (c := c) p
  unfold Phrase.Writable at hdefault
  simp only [hdefault, hfail, imp_false, Bool.not_eq_true, Bool.or_eq_false_iff]
  exact ⟨fun ⟨⟨hn, ht⟩, hd⟩ => ⟨hn, ht, hd⟩, fun h => ⟨⟨h.name, h.sqlType⟩, h.default⟩⟩

theorem said_phrase (column : ColumnDef) :
    Phrase.said (.defining c) (column.phrase c.dialect) = column.text c := by
  have hnull : (if (!column.nullable) = true then " NOT NULL" else "") =
      if column.nullable then "" else " NOT NULL" := by
    cases column.nullable <;> rfl
  unfold phrase text
  cases column.default with
  | none =>
    simp only [Phrase.said_append, Phrase.said_failIf, Phrase.said_text_cons, Phrase.said_nil,
      Phrase.said_onlyIf_text, hnull, defaultText, String.append_empty, String.empty_append,
      String.append_assoc]
  | some p =>
    simp only [Phrase.said_append, Phrase.said_failIf, Phrase.said_text_cons, Phrase.said_nil,
      Phrase.said_onlyIf_text, Phrase.said_ofParam, hnull, defaultText, String.append_empty,
      String.empty_append, String.append_assoc]

end ColumnDef

/-! ## Constraints -/

namespace ConstraintKind

variable {d : Dialect}

/-- Quoted names in parentheses. -/
def names (d : Dialect) (columns : List String) : String :=
  "(" ++ ",".intercalate (columns.map d.quote) ++ ")"

/-- An action behind its keyword. -/
def actionText (keyword : String) : Option ReferentialAction → String
  | some a => keyword ++ a.text
  | none => ""

/-- What a constraint asks of rows, as it is declared. -/
def text (d : Dialect) : ConstraintKind → String
  | primaryKey columns => "PRIMARY KEY " ++ names d columns
  | unique columns => "UNIQUE " ++ names d columns
  | foreignKey column refTable refColumn onDelete onUpdate =>
    "FOREIGN KEY " ++ names d [column] ++ " REFERENCES " ++ d.quote refTable ++ " " ++
      names d [refColumn] ++ actionText " ON DELETE " onDelete ++ actionText " ON UPDATE " onUpdate
  | check predicate => "CHECK (" ++ predicate ++ ")"

theorem said_action (b : Binding) (keyword : String) (a : Option ReferentialAction) :
    Phrase.said b (action keyword a) = actionText keyword a := by
  cases a with
  | none => rfl
  | some a =>
    rw [action, Phrase.said_text_cons, Phrase.said_text_cons, Phrase.said_nil, String.append_empty,
      actionText]

theorem text_foreignKey (column refTable refColumn : String)
    (onDelete onUpdate : Option ReferentialAction) :
    text d (foreignKey column refTable refColumn onDelete onUpdate) =
      "FOREIGN KEY " ++ names d [column] ++ " REFERENCES " ++ d.quote refTable ++ " " ++
        names d [refColumn] ++ actionText " ON DELETE " onDelete ++
        actionText " ON UPDATE " onUpdate := rfl

theorem text_check (predicate : String) :
    text d (check predicate) = "CHECK (" ++ predicate ++ ")" := rfl

theorem said_phrase (b : Binding) (k : ConstraintKind) :
    Phrase.said b (k.phrase d) = k.text d := by
  cases k with
  | primaryKey columns => exact congrArg ("PRIMARY KEY " ++ ·) (Phrase.said_columnList d columns)
  | unique columns => exact congrArg ("UNIQUE " ++ ·) (Phrase.said_columnList d columns)
  | foreignKey column refTable refColumn onDelete onUpdate =>
    rw [text_foreignKey, phrase, names, names]
    simp only [Phrase.said_append, Phrase.said_text_cons, Phrase.said_nil, Phrase.said_columnList,
      said_action, String.append_empty, String.append_assoc]
  | check predicate =>
    rw [text_check, phrase, Phrase.said_text_cons, Phrase.said_text_cons, Phrase.said_text_cons,
      Phrase.said_nil, String.append_empty, String.append_assoc]

theorem forall_mem_phrase {P : Part → Prop} (ht : ∀ s, P (.text s)) (k : ConstraintKind) :
    ∀ part ∈ k.phrase d, P part := by
  have haction : ∀ keyword a, ∀ part ∈ action keyword a, P part := by
    intro keyword a
    cases a <;> simp [action, ht]
  have hlist (names : List String) : ∀ part ∈ Phrase.columnList d names, P part := by
    simp [Phrase.columnList, ht]
  cases k with
  | primaryKey columns => exact List.forall_mem_cons.mpr ⟨ht _, hlist _⟩
  | unique columns => exact List.forall_mem_cons.mpr ⟨ht _, hlist _⟩
  | foreignKey column refTable refColumn onDelete onUpdate =>
    unfold phrase
    simp only [List.forall_mem_append]
    exact ⟨⟨⟨⟨List.forall_mem_cons.mpr ⟨ht _, hlist _⟩, by simp [ht]⟩, hlist _⟩, haction _ _⟩,
      haction _ _⟩
  | check predicate =>
    unfold phrase
    simp [ht]

end ConstraintKind

namespace Constraint

variable {d : Dialect}

/-- A constraint with its name, as it is declared. -/
def text (d : Dialect) (k : Constraint) : String :=
  "CONSTRAINT " ++ d.quote k.name ++ " " ++ k.kind.text d

theorem said_phrase (b : Binding) (k : Constraint) : Phrase.said b (k.phrase d) = k.text d := by
  simp [phrase, text, ConstraintKind.said_phrase, String.append_assoc]

theorem forall_mem_phrase {P : Part → Prop} (ht : ∀ s, P (.text s)) (k : Constraint) :
    ∀ part ∈ k.phrase d, P part := by
  have hkind := k.kind.forall_mem_phrase (d := d) ht
  unfold phrase
  rw [List.forall_mem_append]
  exact ⟨by simp [ht], hkind⟩

end Constraint

/-! ## Tables -/

/-- The table can be declared: its name is not blank, it has columns, and each can be declared. -/
structure Schema.Declarable (c : Config) (s : Schema) : Prop where
  name : isBlankText s.name = false
  columns_ne_nil : s.columns ≠ []
  columns : ∀ column ∈ s.columns, column.Declarable c

/-- The program breaks off at no value in a default: none is a date with a time, or the pattern for
these can be read. -/
def Schema.Unbroken (c : Config) (s : Schema) : Prop :=
  ∀ column ∈ s.columns, ∀ p, column.default = some p → ∀ v, p.Holds v → c.breaksOff v = false

namespace Schema

variable {c : Config}

/-- What stands between the parentheses of a table: its columns, the primary key unless a column
declares it, and every other constraint. -/
def items (c : Config) (s : Schema) : List String :=
  s.columns.map (·.text c) ++
    (if s.keyInColumn c.dialect then [] else (s.primaryKey?.map (·.text c.dialect)).toList) ++
    (s.constraints.filter (!·.isPrimaryKey)).map (·.text c.dialect)

/-- The words that end the statement. -/
def endWords (s : Schema) (d : Dialect) : String :=
  if s.temporary ∧ d = .firebird then " ON COMMIT PRESERVE ROWS" else ""

theorem items_eq (s : Schema) :
    s.items c =
      s.columns.map (·.text c) ++ (s.tableConstraints c.dialect).map (·.text c.dialect) := by
  unfold items tableConstraints
  rw [List.map_append, ← List.append_assoc]
  split
  · rfl
  · rw [Option.toList_map]

/-- **What holds of every part of a declaration**: of its text, of the failures for a blank name and
for want of columns, and of the parts of each column. -/
theorem forall_mem_phrase_iff {P : Part → Prop} (ht : ∀ s, P (.text s)) (d : Dialect)
    (s : Schema) :
    (∀ part ∈ s.phrase d, P part) ↔
      (isBlankText s.name = true → P (.failure (.validation .tableName))) ∧
      (s.columns.isEmpty = true → P (.failure (.validation (.noTableColumns s.name)))) ∧
      ∀ column ∈ s.columns, ∀ part ∈ column.phrase d, P part := by
  have hcolumns : (∀ part ∈ Phrase.join ", " (s.columns.map (·.phrase d)), P part) ↔
      ∀ column ∈ s.columns, ∀ part ∈ column.phrase d, P part := by
    rw [Phrase.forall_mem_join_iff (ht _), List.forall_mem_map]
  have hconstraints : ∀ part ∈ (s.tableConstraints d).flatMap fun k => .text ", " :: k.phrase d,
      P part := by
    intro part hpart
    obtain ⟨k, -, hk⟩ := List.mem_flatMap.mp hpart
    exact List.forall_mem_cons.mpr ⟨ht _, k.forall_mem_phrase ht⟩ part hk
  have hwords : ∀ part ∈ ([.text (s.createWords d), .text (d.quote (s.tableName d)),
      .text " ("] : Phrase), P part := by
    simp [ht]
  have hend : ∀ part ∈ ([.text ")", .text (if s.temporary ∧ d = .firebird then
      " ON COMMIT PRESERVE ROWS" else "")] : Phrase), P part := by
    simp [ht]
  unfold phrase Phrase.checkTableName
  simp only [List.forall_mem_append, Phrase.forall_mem_failIf_iff, hcolumns]
  exact ⟨fun ⟨⟨⟨⟨⟨hn, hc⟩, _⟩, h⟩, _⟩, _⟩ => ⟨hn, hc, h⟩,
    fun ⟨hn, hc, h⟩ => ⟨⟨⟨⟨⟨hn, hc⟩, hwords⟩, h⟩, hconstraints⟩, hend⟩⟩

/-- **What a table must have to be declared.** -/
theorem writable_phrase_iff (s : Schema) :
    Phrase.Writable (.defining c) (s.phrase c.dialect) ↔ s.Declarable c := by
  refine (forall_mem_phrase_iff (fun t => ⟨.text t, rfl⟩) c.dialect s).trans ?_
  have hfail (e : Error) : ¬ ∃ x, (Binding.defining c).place (.failure e) = .ok x := by
    rintro ⟨x, hx⟩
    cases hx
  have hcolumns := fun column => ColumnDef.writable_phrase_iff (c := c) column
  unfold Phrase.Writable at hcolumns
  simp only [hcolumns, hfail, imp_false, Bool.not_eq_true, List.isEmpty_eq_false_iff]
  exact ⟨fun ⟨hn, hc, h⟩ => ⟨hn, hc, h⟩, fun h => ⟨h.name, h.columns_ne_nil, h.columns⟩⟩

/-- The program breaks off at no part of a declaration iff it does at no value in a default. -/
theorem unbroken_phrase_iff (s : Schema) :
    Phrase.Unbroken c (s.phrase c.dialect) ↔ s.Unbroken c := by
  have hcolumn (column : ColumnDef) : (∀ part ∈ column.phrase c.dialect, c.guarded part = part) ↔
      ∀ p, column.default = some p → ∀ v, p.Holds v → c.breaksOff v = false := by
    refine (column.forall_mem_phrase_iff (fun _ => rfl) c.dialect).trans ?_
    refine (and_iff_right fun _ => rfl).trans (forall₂_congr fun p _ => ?_)
    exact Phrase.unbroken_ofParam_iff p
  refine (forall_mem_phrase_iff (fun _ => rfl) c.dialect s).trans ?_
  simp only [hcolumn]
  exact ⟨fun ⟨_, _, h⟩ => h, fun h => ⟨fun _ => rfl, fun _ => rfl, h⟩⟩

/-- **The text of the declaration.** -/
theorem said_phrase (s : Schema) (hc : s.columns ≠ []) :
    Phrase.said (.defining c) (s.phrase c.dialect) =
      s.createWords c.dialect ++ c.dialect.quote (s.tableName c.dialect) ++ " (" ++
        ", ".intercalate (s.items c) ++ ")" ++ s.endWords c.dialect := by
  have hcolumns : (s.columns.map (·.phrase c.dialect)).map (Phrase.said (.defining c)) =
      s.columns.map (·.text c) := by
    rw [List.map_map]
    exact List.map_congr_left fun column _ => column.said_phrase
  -- what stands behind the first item stands behind a comma
  have hbehind : ∀ (ks : List Constraint) (items : List String), items ≠ [] →
      ", ".intercalate items ++ Phrase.said (.defining c)
        (ks.flatMap fun k => .text ", " :: k.phrase c.dialect) =
        ", ".intercalate (items ++ ks.map (·.text c.dialect)) := by
    intro ks
    induction ks with
    | nil => intro items _; simp
    | cons k ks ih =>
      intro items hi
      have h := ih (items ++ [k.text c.dialect]) (by simp)
      rw [String.intercalate_append_of_ne_nil hi (by simp), String.intercalate_singleton] at h
      rw [List.flatMap_cons, Phrase.said_append, Phrase.said_text_cons, Constraint.said_phrase,
        List.map_cons, List.append_cons, ← h]
      simp only [String.append_assoc]
  unfold phrase Phrase.checkTableName endWords
  simp only [Phrase.said_append, Phrase.said_failIf, Phrase.said_text_cons, Phrase.said_nil,
    Phrase.said_join, hcolumns, String.append_empty, String.empty_append, items_eq]
  rw [← hbehind _ _ (by simpa using hc)]
  simp only [String.append_assoc]

end Schema

namespace Config

theorem exists_createTable_iff (c : Config) (s : Schema) :
    (∃ e, c.createTable s = .ok e) ↔ s.Declarable c ∧ s.Unbroken c := by
  refine Phrase.exists_toExpression_iff.trans (Phrase.writable_map_guarded_iff.trans ?_)
  rw [s.writable_phrase_iff, s.unbroken_phrase_iff]

theorem template_createTable {c : Config} {s : Schema} {e : Expression}
    (h : c.createTable s = .ok e) :
    e.template = s.createWords c.dialect ++ c.dialect.quote (s.tableName c.dialect) ++ " (" ++
      ", ".intercalate (s.items c) ++ ")" ++ s.endWords c.dialect := by
  rw [Phrase.template_eq_said (Phrase.toExpression_of_guarded h)]
  exact s.said_phrase ((exists_createTable_iff c s).mp ⟨e, h⟩).1.columns_ne_nil

/-- **A table is declared unless its name is blank, it has no columns, the name or type of a column
is blank, a value in a default has no literal, or a default holds a date with a time whose pattern
cannot be read.** In the last case nothing is refused: the program breaks off. The declaration has
no parameters: it lists every column once in order, and behind them the constraints. -/
theorem createTable_declares (c : Config) (s : Schema) :
    ((∃ e, c.createTable s = .ok e) ↔ s.Declarable c ∧ s.Unbroken c) ∧
      (s.Declarable c → ¬ s.Unbroken c → c.createTable s = .error .brokenOff) ∧
      ∀ e, c.createTable s = .ok e → e.params = [] ∧
        e.template = s.createWords c.dialect ++ c.dialect.quote (s.tableName c.dialect) ++ " (" ++
          ", ".intercalate (s.items c) ++ ")" ++ s.endWords c.dialect := by
  refine ⟨exists_createTable_iff c s, fun hd hu => ?_, fun _ he =>
    ⟨Phrase.params_of_literally he, template_createTable he⟩⟩
  exact Phrase.toExpression_map_guarded (s.writable_phrase_iff.mpr hd)
    (mt s.unbroken_phrase_iff.mp hu)

/-- Notes that carry the day they were made, given as a value within a function within a default. -/
def datedNotes : Schema where
  name := "Notes"
  columns := [{ name := "Id", sqlType := "INTEGER", autoIncrement := true, nullable := false },
    { name := "Text", sqlType := "VARCHAR(200)", default := some (.value (.text "it's")) },
    { name := "Made", sqlType := "TEXT", nullable := false,
      default := some (.expression (.new "COALESCE(?, ?)" [.value .null,
        .expression (.new "DATE(?)" [.value (.date ⟨2024, 2, 29, by decide⟩)])])) }]
  constraints := []

theorem datedNotes_declared : datedNotes.Declarable (.new .sqlite) ∧
    datedNotes.Unbroken (.new .sqlite) ∧
    ∃ e, (Config.new .sqlite).createTable datedNotes = .ok e ∧ e.params = [] ∧
      e.template = "CREATE TABLE \"Notes\" (\"Id\" INTEGER PRIMARY KEY AUTOINCREMENT NOT NULL, " ++
        "\"Text\" VARCHAR(200) DEFAULT 'it''s', " ++
        "\"Made\" TEXT DEFAULT COALESCE(NULL, DATE('2024-02-29')) NOT NULL)" := by
  obtain ⟨hiff, -, hdeclared⟩ := createTable_declares (.new .sqlite) datedNotes
  obtain ⟨e, he⟩ : ∃ e, (Config.new .sqlite).createTable datedNotes = .ok e := ⟨_, rfl⟩
  obtain ⟨hparams, htext⟩ := hdeclared e he
  obtain ⟨hdeclarable, hunbroken⟩ := hiff.mp ⟨e, he⟩
  exact ⟨hdeclarable, hunbroken, e, he, hparams, htext.trans (by decide +kernel)⟩

/-- A table whose one column is a moment, the first of the calendar unless another is given. -/
def moments : Schema where
  name := "T"
  columns := [{ name := "At", sqlType := "DATETIME", default := some (.value (.dateTime default)) }]
  constraints := []

/-- Nothing about the table is to be refused, and it is not declared, where the pattern for dates
has a field `Q`. -/
theorem moments_not_declared :
    moments.Declarable { Config.new .sqlite with dateFormat := some "%Q" } ∧
      ¬ ∃ e, { Config.new .sqlite with dateFormat := some "%Q" }.createTable moments = .ok e := by
  refine ⟨⟨by decide, by decide, fun column hm => ?_⟩, fun ⟨e, he⟩ => by cases he⟩
  obtain rfl := List.mem_singleton.mp hm
  refine ⟨by decide, by decide, ?_⟩
  rintro p ⟨⟩ v ⟨⟩
  exact ⟨fun bs h => (by cases h), fun x h => (by cases h)⟩

end Config
end SqlWeave
