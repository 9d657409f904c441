import SqlWeave.Proofs.Clauses.Selection
import SqlWeave.Proofs.Drafting.Nested
import SqlWeave.Proofs.Escaping.Statement
import SqlWeave.Proofs.Insert.Row
import SqlWeave.Proofs.Merge.Declared

/-!
# Taking a statement again

A statement that was written under some options may be taken into another one under the same
options: the rows of an INSERT are selected by a statement of their own, and so are those of a new
table. Each of its values is intercepted a second time then, and might be written in place where it
was bound. It never is: intercepting twice is intercepting once, and what was bound is bound again
(`Binding.Keeps`).

A draft keeps this step by step. Whatever is asked of it, and even if it refuses some of that half
way, it holds pieces that are written again as they are.

Results:
* `keeps_of_place`: what is written for a part is written again as it is.
* `exists_run`: a draft holds pieces that are written again as they are.
* `toExpression_again`: a fragment of such pieces is taken unchanged.
* `taken_again_unchanged`: drafts, and the statements that take the rows of others.
-/

namespace SqlWeave

/-! ## Pieces that are kept -/

/-- The piece is written again as it is. -/
def Binding.Keeps (b : Binding) (x : Piece) : Prop :=
  Phrase.written b (Phrase.ofLeaf x) = .ok [x]

/-- What is intercepted is not changed by intercepting it once more. -/
def Binding.Stable (b : Binding) : Prop := ∀ v, b.intercept (b.intercept v) = b.intercept v

theorem Binding.stable_ofConfig (c : Config) : (Binding.ofConfig c).Stable := c.intercept_intercept

section

variable {b : Binding} {x : Piece} {ps : List Piece} {p : Phrase}

theorem Binding.keeps_text (s : String) : b.Keeps (.text s) := rfl

theorem Binding.keeps_bound {v : Value} (hi : b.intercept v = v) (hb : b.binds v = true) :
    b.Keeps (.bound v) := by
  unfold Keeps
  rw [Phrase.ofLeaf, Phrase.written_singleton, place, hi, if_pos hb]
  rfl

/-- **What is written for a part is written again as it is**, unless the part was bound by force. -/
theorem Binding.keeps_of_place (hb : b.Stable) {part : Part} (hf : ∀ v, part ≠ .bound v)
    (h : b.place part = .ok x) : b.Keeps x := by
  cases part with
  | text s =>
    cases h
    exact keeps_text s
  | bound v => exact absurd rfl (hf v)
  | failure e => cases h
  | value v =>
    simp only [place] at h
    split at h
    · rename_i hv
      cases h
      exact keeps_bound (hb v) hv
    · obtain ⟨s, -, rfl⟩ := map_eq_ok_iff.mp h
      exact keeps_text s

namespace Phrase

theorem written_of_keeps (h : ∀ x ∈ ps, b.Keeps x) : written b (ps.flatMap ofLeaf) = .ok ps := by
  induction ps with
  | nil => rfl
  | cons x ps ih =>
    obtain ⟨hx, hps⟩ := List.forall_mem_cons.mp h
    rw [List.flatMap_cons, written_append, hx, ih hps]
    rfl

theorem keeps_of_written (hb : b.Stable) (hp : p.Unforced) (h : p.written b = .ok ps) :
    ∀ x ∈ ps, b.Keeps x := by
  intro x hx
  obtain ⟨part, hm, hw⟩ := exists_of_mem_written h hx
  exact b.keeps_of_place hb (hp part hm) hw

/-- **A fragment of pieces that are kept is taken unchanged.** -/
theorem toExpression_again (h : ∀ x ∈ ps, b.Keeps x) :
    (ofExpression (.ofPieces ps)).toExpression b = .ok (.ofPieces ps) := by
  have hflat : ∀ x ∈ ps, ∀ inner, x ≠ .nested inner := by
    rintro x hx inner rfl
    cases h _ hx
  have hleaves : (Expression.ofPieces ps).leaves = Piece.normal ps :=
    Expression.leaves_ofPieces_of_flat hflat
  have hsame : Same (ofExpression (.ofPieces ps)) (ps.flatMap ofLeaf) := by
    rw [ofExpression, hleaves]
    exact same_normal ps
  rw [hsame.toExpression]
  exact toExpression_eq_ok_iff.mpr ⟨ps, written_of_keeps h, rfl⟩

/-- A statement without values bound by force is taken unchanged. -/
theorem toExpression_ofExpression (hb : b.Stable) (hp : p.Unforced) {e : Expression}
    (h : p.toExpression b = .ok e) : (ofExpression e).toExpression b = .ok e := by
  obtain ⟨ps, hw, rfl⟩ := toExpression_eq_ok_iff.mp h
  exact toExpression_again (keeps_of_written hb hp hw)

end Phrase

end

/-! ## Drafts -/

namespace Draft

/-- What is asked of a draft to build a statement. -/
inductive Call where
  | text (s : String)
  /-- A name, quoted. -/
  | name (s : String)
  | value (v : Value)
  /-- Values with commas between them. -/
  | values (vs : List Value)
  | fragment (e : Expression)

/-- What a call has the draft write. -/
def Call.phrase (d : Dialect) : Call → Phrase
  | text s => [.text s]
  | name s => [.text (d.quote s)]
  | value v => [.value v]
  | values vs => .ofValues vs
  | fragment e => .ofExpression e

/-- The draft after calls; what a call wrote before it failed stays. -/
def calls (d : Draft) (cs : List Call) : Draft :=
  d.run (cs.map fun c => .write (c.phrase d.binding.dialect))

theorem Call.unforced_phrase (d : Dialect) (c : Call) : (c.phrase d).Unforced := by
  cases c with
  | text s => simp [phrase]
  | name s => simp [phrase]
  | value v => simp [phrase]
  | values vs => exact Phrase.unforced_ofValues vs
  | fragment e => exact Phrase.unforced_ofExpression e

/-- A phrase adds pieces that are kept, also where it fails half way. -/
theorem exists_write {p : Phrase} (hp : p.Unforced) : ∀ {d : Draft}, d.binding.Stable →
    ∃ ps : List Piece, (d.write p).1 = ps.foldl push d ∧ ∀ x ∈ ps, d.binding.Keeps x := by
  induction p with
  | nil => exact fun _ => ⟨[], rfl, fun _ hx => by cases hx⟩
  | cons part p ih =>
    obtain ⟨hpart, hp⟩ := List.forall_mem_cons.mp hp
    intro d hd
    unfold write
    cases hx : d.binding.place part with
    | error e => exact ⟨[], rfl, fun _ hx => by cases hx⟩
    | ok x =>
      obtain ⟨ps, hw, hk⟩ := ih hp (d := d.push x) (d.push_binding x ▸ hd)
      rw [d.push_binding] at hk
      exact ⟨x :: ps, hw, List.forall_mem_cons.mpr ⟨d.binding.keeps_of_place hd hpart hx, hk⟩⟩

/-- **Whatever phrases a draft takes, it grows by pieces that are written again as they are.** -/
theorem exists_run {phrases : List Phrase} (hp : ∀ p ∈ phrases, p.Unforced) :
    ∀ {d : Draft}, d.binding.Stable → ∃ ps : List Piece,
      d.run (phrases.map .write) = ps.foldl push d ∧ ∀ x ∈ ps, d.binding.Keeps x := by
  induction phrases with
  | nil => exact fun _ => ⟨[], rfl, fun _ hx => by cases hx⟩
  | cons p phrases ih =>
    obtain ⟨hp, hps⟩ := List.forall_mem_cons.mp hp
    intro d hd
    obtain ⟨ps, hw, hk⟩ := exists_write hp hd
    have hb := binding_foldl_push ps d
    obtain ⟨qs, hr, hk'⟩ := ih hps (d := ps.foldl push d) (hb.symm ▸ hd)
    rw [hb] at hk'
    refine ⟨ps ++ qs, ?_, List.forall_mem_append.mpr ⟨hk, hk'⟩⟩
    rw [List.foldl_append, ← hr, ← hw]
    rfl

/-- A fragment that calls have built is taken unchanged by a draft of the same kind. -/
theorem toExpression_calls {b : Binding} (hb : b.Stable) (cs : List Call) :
    (Phrase.ofExpression (Draft.calls { binding := b } cs).toExpression).toExpression b =
      .ok (Draft.calls { binding := b } cs).toExpression := by
  have hp : ∀ p ∈ cs.map (Call.phrase b.dialect), p.Unforced := by
    intro p hp
    obtain ⟨c, -, rfl⟩ := List.mem_map.mp hp
    exact c.unforced_phrase _
  obtain ⟨ps, hr, hk⟩ := exists_run hp (d := { binding := b }) hb
  rw [List.map_map] at hr
  have hcalls : Draft.calls { binding := b } cs = ps.foldl push { binding := b } := hr
  rw [hcalls, toExpression_foldl_push]
  exact Phrase.toExpression_again hk

end Draft

/-! ## Words in front of a fragment -/

namespace Phrase

variable {b : Binding} {s t : String} {p q : Phrase}

/-- The phrase is written as one text. -/
def IsText (s : String) (p : Phrase) : Prop := Same p [.text s]

theorem isText_nil : IsText "" [] := fun _ => rfl

theorem isText_text (s : String) : IsText s [.text s] := .refl _

theorem IsText.append (hp : IsText s p) (hq : IsText t q) : IsText (s ++ t) (p ++ q) :=
  fun d => (Same.append hp hq d).trans (same_text_text s t [] d).symm

theorem isText_onlyIf (holds : Bool) (h : IsText s p) :
    IsText (if holds then s else "") (onlyIf holds p) := by
  cases holds with
  | true => exact h
  | false => exact isText_nil

theorem isText_join (separator : String) : ∀ texts : List String,
    IsText (separator.intercalate texts) (join separator (texts.map fun s => [.text s]))
  | [] => isText_nil
  | [s] => by
    rw [String.intercalate_singleton]
    exact isText_text s
  | s :: t :: texts => by
    rw [String.intercalate_cons_cons]
    exact ((isText_text s).append (isText_text separator)).append
      (isText_join separator (t :: texts))

theorem isText_nameList (d : Dialect) (names : List String) :
    IsText (listed (names.map d.quote)) (nameList d names) := by
  have hn : names.map (fun n => [Part.text (d.quote n)]) =
      (names.map d.quote).map fun s => [.text s] := by
    rw [List.map_map]
    rfl
  unfold nameList listed
  rw [hn]
  exact ((isText_text "(").append (isText_join ", " _)).append (isText_text ")")

/-- Checks come first, and the rest is written if they pass. -/
theorem IsCheck.toExpression_append (hp : IsCheck p) (q : Phrase) :
    (p ++ q).toExpression b = (p.toExpression b).bind fun _ => q.toExpression b := by
  rw [toExpression_eq, toExpression_eq, toExpression_eq, written_append]
  cases hw : p.written b with
  | error e => rfl
  | ok ps =>
    obtain rfl := hp.eq_nil hw
    cases hw
    cases q.written b <;> rfl

/-- A statement that is taken unchanged stands between the texts around it, and one that fails
fails again. -/
theorem alike_between (hp : IsText s p) (hq : IsText t q) {r : Result Expression}
    (hr : ∀ e, r = .ok e → (ofExpression e).toExpression b = .ok e) :
    Alike (Expression.Enclosed s t) r
      ((p ++ ofResult (r.map ofExpression) ++ q).toExpression b) := by
  have hsame : ∀ inner : Phrase, Same (p ++ inner ++ q) (.text s :: inner ++ [.text t]) :=
    fun inner => (Same.append hp (.refl inner)).append hq
  rw [(hsame _).toExpression]
  cases r with
  | error e => exact .error e
  | ok e =>
    have h := alike_enclose b s t (ofExpression e)
    rwa [hr e rfl] at h

end Phrase

theorem Alike.bind_left {α β : Type} {R : β → β → Prop} {r r' : Result β} (x : Result α)
    (h : Alike R r r') : Alike R (x.bind fun _ => r) (x.bind fun _ => r') := by
  cases x with
  | error e => exact .error e
  | ok a => exact h

/-! ## Statements that take the rows of others -/

namespace Query

/-- The words in front of the rows that are inserted. -/
def intoWords (q : Query) (columns : List String) : String :=
  "INSERT INTO " ++ q.table.plain q.dialect ++ " " ++
    if columns.isEmpty then "" else listed (columns.map q.dialect.quote) ++ " "

theorem isText_intoWords (q : Query) (columns : List String) :
    Phrase.IsText (q.intoWords columns) (q.insertInto ++
      Phrase.onlyIf (!columns.isEmpty) (Phrase.nameList q.dialect columns ++ [.text " "])) := by
  have hcolumns := Phrase.isText_onlyIf (!columns.isEmpty)
    ((Phrase.isText_nameList q.dialect columns).append (Phrase.isText_text " "))
  have hinto : Phrase.IsText ("INSERT INTO " ++ q.table.plain q.dialect ++ " ") q.insertInto :=
    ((Phrase.isText_text "INSERT INTO ").append (Phrase.isText_text _)).append
      (Phrase.isText_text " ")
  have h := hinto.append hcolumns
  unfold intoWords
  cases columns with
  | nil => exact h
  | cons n columns => exact h

/-- A selection is taken unchanged under its own options. -/
theorem select_again {q : Query} {e : Expression} (h : q.select = .ok e) :
    (Phrase.ofExpression e).toExpression q.binding = .ok e :=
  Phrase.toExpression_ofExpression (Binding.stable_ofConfig q.config) q.unforced_select h

/-- The rows that are inserted are the selection as it is, behind the words of the INSERT. -/
theorem alike_insertSelected {q source : Query} (columns : List String)
    (h : source.config = q.config) :
    Alike (Expression.Enclosed (q.intoWords columns) "")
      ((q.checkInsert.toExpression q.binding).bind fun _ => source.select)
      (q.insertSelected source columns) := by
  have hb : source.binding = q.binding := congrArg Binding.ofConfig h
  unfold insertSelected insertSelectedPhrase
  rw [q.isCheck_checkInsert.toExpression_append]
  refine Alike.bind_left _ ?_
  have hrows : ∀ e, source.select = .ok e →
      (Phrase.ofExpression e).toExpression q.binding = .ok e := fun _ he => hb ▸ select_again he
  have h := Phrase.alike_between (q.isText_intoWords columns) Phrase.isText_nil hrows
  cases hs : source.select with
  | error e => exact .error e
  | ok rows =>
    rw [hs, List.append_nil] at h
    exact h

end Query

namespace Config

/-- The words in front of the rows that a new table is made of. -/
def copyBefore (d : Dialect) (name : String) : String :=
  match d with
  | .sqlServer => "SELECT * INTO " ++ d.quote name ++ " FROM ("
  | _ => "CREATE TABLE " ++ d.quote name ++ " AS "

/-- The words behind the rows that a new table is made of. -/
def copyAfter (d : Dialect) : String :=
  match d with
  | .sqlServer => ") " ++ d.quotePart "source"
  | _ => ""

/-- What a new table made of rows is refused for. -/
def copyCheck (d : Dialect) (name : String) : Phrase :=
  Phrase.checkTableName name ++
    Phrase.failIf (d = .firebird) (.notSupported .createFromQuery d.name)

/-- The rows of a new table are the selection as it is, between the words of the statement. -/
theorem alike_createTableFrom {c : Config} {source : Query} (name : String)
    (h : source.config = c) :
    Alike (Expression.Enclosed (copyBefore c.dialect name) (copyAfter c.dialect))
      (((copyCheck c.dialect name).toExpression (.ofConfig c)).bind fun _ => source.select)
      (c.createTableFrom name source) := by
  subst h
  have hname : Phrase.IsCheck (Phrase.checkTableName name) := Phrase.isCheck_failIf _ _
  unfold createTableFrom copyCheck
  dsimp only
  rw [hname.toExpression_append, hname.toExpression_append]
  cases (Phrase.checkTableName name).toExpression (.ofConfig source.config) with
  | error e => exact .error e
  | ok _ =>
    have hwords : ∀ before name after : String, Phrase.IsText (before ++ name ++ after)
        [.text before, .text name, .text after] := fun before name after =>
      ((Phrase.isText_text before).append (Phrase.isText_text name)).append
        (Phrase.isText_text after)
    have hrows : ∀ e, source.select = .ok e →
        (Phrase.ofExpression e).toExpression (.ofConfig source.config) = .ok e :=
      fun _ => Query.select_again
    have hcreated : ∀ d : Dialect, Alike
        (Expression.Enclosed ("CREATE TABLE " ++ d.quote name ++ " AS ") "") source.select
        (([.text "CREATE TABLE ", .text (d.quote name), .text " AS "] ++
          Phrase.ofResult (source.select.map Phrase.ofExpression) : Phrase).toExpression
            (.ofConfig source.config)) := by
      intro d
      have h := Phrase.alike_between (hwords "CREATE TABLE " (d.quote name) " AS ")
        Phrase.isText_nil hrows
      rwa [List.append_nil] at h
    cases source.config.dialect with
    | firebird => exact .error _
    | sqlServer =>
      exact Phrase.alike_between (hwords _ _ _)
        ((Phrase.isText_text _).append (Phrase.isText_text _)) hrows
    | mysql => exact hcreated .mysql
    | sqlite => exact hcreated .sqlite

end Config

/-- **A statement is taken unchanged into another one under the same options.** Whatever calls a
draft has been built by, a fresh draft takes its fragment and holds it again. So an INSERT of
selected rows has the selection as it is behind its own words, and a table made of selected rows
between its own, with the same text, values and places; and both fail as the selection does, after
their own checks. -/
theorem taken_again_unchanged (c : Config) :
    (∀ cs : List Draft.Call,
      let e := (Draft.calls { binding := .ofConfig c } cs).toExpression
      (Phrase.ofExpression e).toExpression (.ofConfig c) = .ok e) ∧
    (∀ (q source : Query) (columns : List String), q.config = c → source.config = c →
      Alike (Expression.Enclosed (q.intoWords columns) "")
        ((q.checkInsert.toExpression (.ofConfig c)).bind fun _ => source.select)
        (q.insertSelected source columns)) ∧
    ∀ (name : String) (source : Query), source.config = c →
      Alike (Expression.Enclosed (Config.copyBefore c.dialect name) (Config.copyAfter c.dialect))
        (((Config.copyCheck c.dialect name).toExpression (.ofConfig c)).bind fun _ => source.select)
        (c.createTableFrom name source) := by
  refine ⟨Draft.toExpression_calls (Binding.stable_ofConfig c), ?_, ?_⟩
  · rintro q source columns rfl h
    exact Query.alike_insertSelected columns h
  · intro name source h
    exact Config.alike_createTableFrom name h

/-- Dates are written as text, which is bound: what is taken again has been intercepted before. -/
def datedConfig : Config := { Config.new .sqlServer with dateFormat := some "%Y-%m-%d" }

/-- The drafts of a day. -/
def datedDrafts : Query :=
  { Query.new ⟨"Drafts", some "d"⟩ datedConfig with
    filters := [(.and, .equals "Day" (.date default))] }

theorem taken_again_unchanged_dated :
    let q : Query := .new ⟨"Notes", none⟩ datedConfig
    let e := (Draft.calls { binding := .ofConfig datedConfig }
      [.text "WHERE Day = ", .value (.date default)]).toExpression
    (q.config = datedConfig ∧ datedDrafts.config = datedConfig) ∧
      (Phrase.ofExpression e).toExpression (.ofConfig datedConfig) = .ok e ∧
      Alike (Expression.Enclosed (q.intoWords ["Id", "Title"]) "")
        ((q.checkInsert.toExpression (.ofConfig datedConfig)).bind fun _ => datedDrafts.select)
        (q.insertSelected datedDrafts ["Id", "Title"]) ∧
      Alike (Expression.Enclosed (Config.copyBefore .sqlServer "Copy") (Config.copyAfter .sqlServer))
        (((Config.copyCheck .sqlServer "Copy").toExpression (.ofConfig datedConfig)).bind fun _ =>
          datedDrafts.select)
        (datedConfig.createTableFrom "Copy" datedDrafts) := by
  intro q e
  exact ⟨⟨rfl, rfl⟩, (taken_again_unchanged datedConfig).1 _,
    (taken_again_unchanged datedConfig).2.1 q datedDrafts ["Id", "Title"] rfl rfl,
    (taken_again_unchanged datedConfig).2.2 "Copy" datedDrafts rfl⟩

end SqlWeave
