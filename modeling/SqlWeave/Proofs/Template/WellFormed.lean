import SqlWeave.Proofs.Redaction.Outcome
import SqlWeave.Proofs.Template.Flow
import SqlWeave.Proofs.Template.Views
import SqlWeave.Query.Modify
import SqlWeave.Query.Upsert
import SqlWeave.Schema.Statement

/-!
# Fragments are well formed

A fragment is well formed if its places increase, a question mark stands at each of them, there are
as many as parameters, and so on in every fragment nested in it. Nothing keeps a fragment from being
made otherwise: a template may be given more parameters than it has places. So here it is shown what
each way of making a fragment needs of its parameters. A template has the places that scanning
finds, joined fragments a place for each of them, a draft those it had reached when it took a value.

Results:
* `wellFormed_new_iff`: a template is well formed iff it is given as many parameters as it has
  placeholders, and these are.
* `wellFormed_ofPieces`: a fragment of pieces is if what stands among them is.
* `is_join`: the places of joined fragments.
* `is_push_text`, `is_push_bound`: what a draft adds to its text, places and parameters.
* `plain_take`, `plain_run`: a draft holds no fragments, whatever is asked of it.
* `wellFormed_of_isStatement`: statements are well formed, and flat.
-/

namespace SqlWeave

open Template

namespace Piece

/-- The places behind pieces are counted on. -/
theorem slotsFrom_append (us vs : List Piece) : ∀ n : Nat, slotsFrom n (us ++ vs) =
    slotsFrom n us ++ slotsFrom (n + (String.join (us.map template)).utf8ByteSize) vs := by
  induction us with
  | nil => exact fun _ => rfl
  | cons u us ih =>
    intro n
    rw [List.map_cons, String.join_cons, String.utf8ByteSize_append, ← Nat.add_assoc,
      List.cons_append]
    cases u with
    | text s => exact ih _
    | bound v => exact congrArg (n :: ·) (ih (n + 1))
    | nested inner => exact congrArg (n :: ·) (ih (n + 1))

/-- Parameters with a separator between them have their places a separator apart. -/
theorem slotsFrom_intersperse (separator : String) (args : List Param) : ∀ n : Nat,
    slotsFrom n ((args.map Param.piece).intersperse (.text separator)) =
      List.range' n args.length (separator.utf8ByteSize + 1) := by
  have hplace : ∀ (a : Param) (n : Nat) (ps : List Piece),
      slotsFrom n (a.piece :: ps) = n :: slotsFrom (n + 1) ps := by
    intro a n ps
    cases a <;> rfl
  induction args with
  | nil => exact fun _ => rfl
  | cons a args ih =>
    intro n
    cases args with
    | nil => exact hplace a n []
    | cons b args =>
      have hn : n + 1 + separator.utf8ByteSize = n + (separator.utf8ByteSize + 1) := by omega
      rw [List.map_cons, List.map_cons, List.intersperse_cons_cons, hplace, slotsFrom, hn,
        List.length_cons, List.range'_succ, ← ih]
      rfl

end Piece

namespace Expression

/-! ## Text, places and parameters -/

/-- A fragment has a text, places and parameters. -/
structure Is (e : Expression) (template : String) (slots : List Nat) (params : List Param) :
    Prop where
  template : e.template = template
  slots : e.slots = slots
  params : e.params = params

theorem Is.eq {e : Expression} {template : String} {slots : List Nat} {params : List Param}
    (h : e.Is template slots params) : e = ⟨template, slots, params⟩ :=
  ext h.template h.slots h.params

/-- A template that is taken has as many placeholders as parameters. -/
theorem of_ofTemplate {template : String} {args : List Param} {e : Expression}
    (h : ofTemplate? template args = .ok e) :
    (placeholders template).length = args.length ∧ e = new template args := by
  unfold ofTemplate? at h
  dsimp only at h
  split at h
  · rename_i hl
    cases h
    exact ⟨hl, rfl⟩
  · cases h

/-- **Joined fragments have a place for each of them**, a separator apart. -/
theorem is_join (parts : List Expression) (separator : String) :
    (join parts separator).Is (separator.intercalate (parts.map fun _ => "?"))
      (List.range' 0 parts.length (separator.utf8ByteSize + 1)) (parts.map .expression) := by
  rw [join_eq]
  refine ⟨?_, ?_, Piece.params_intersperse separator _⟩
  · rw [template_ofPieces, Piece.template_intersperse, List.length_map, List.map_const']
  · exact (Piece.slotsFrom_intersperse separator _ 0).trans (by rw [List.length_map])

/-! ## Well-formed fragments -/

/-- A fragment and all fragments nested in it are well placed. -/
inductive WellFormed : Expression → Prop
  | intro {e : Expression} (here : e.Placed)
      (inner : ∀ f, .expression f ∈ e.params → WellFormed f) : WellFormed e

theorem WellFormed.placed {e : Expression} (h : e.WellFormed) : e.Placed := by
  cases h
  assumption

/-- A fragment is well formed iff it is well placed and its parameters are well formed. -/
theorem wellFormed_iff {e : Expression} :
    e.WellFormed ↔ e.Placed ∧ ∀ a ∈ e.params, a.Of WellFormed := by
  constructor
  · rintro ⟨here, inner⟩
    refine ⟨here, fun a ha => ?_⟩
    cases a with
    | value v => trivial
    | expression f => exact inner f ha
  · exact fun ⟨here, inner⟩ => .intro here fun f hf => inner _ hf

/-- **A template is well formed iff it is given as many parameters as it has placeholders**, and
these are. -/
theorem wellFormed_new_iff {template : String} {params : List Param} :
    (new template params).WellFormed ↔
      (placeholders template).length = params.length ∧ ∀ a ∈ params, a.Of WellFormed := by
  rw [wellFormed_iff]
  exact and_congr_left fun _ => ⟨fun h => h.length, placed_new⟩

-- a parameter too few
example : ¬ (new "[Id] = ?" []).WellFormed := fun h => by
  have hl := (wellFormed_new_iff.mp h).1
  revert hl
  decide

theorem wellFormed_ofPieces {ps : List Piece} (h : ∀ a ∈ Piece.params ps, a.Of WellFormed) :
    (ofPieces ps).WellFormed := wellFormed_iff.mpr ⟨placed_ofPieces ps, h⟩

/-- Text in which nothing is a placeholder is well formed. -/
theorem wellFormed_raw (s : String) : (raw s).WellFormed := by
  rw [raw_eq]
  exact wellFormed_ofPieces fun a ha => by cases ha

theorem placed_wrap (e : Expression) (before after : String) : (e.wrap before after).Placed := by
  rw [wrap_eq]
  exact placed_ofPieces _

theorem wellFormed_wrap {e : Expression} (h : e.WellFormed) (before after : String) :
    (e.wrap before after).WellFormed :=
  wellFormed_iff.mpr ⟨placed_wrap e before after, List.forall_mem_singleton.mpr h⟩

theorem wellFormed_join {parts : List Expression} (h : ∀ e ∈ parts, e.WellFormed)
    (separator : String) : (join parts separator).WellFormed := by
  have hp : (join parts separator).params = parts.map .expression :=
    (is_join parts separator).params
  rw [wellFormed_iff, hp, List.forall_mem_map]
  exact ⟨placed_ofPieces _, h⟩

/-- What has been put together flat is well formed, whatever it was put together from. -/
theorem wellFormed_of_isFlat {e : Expression} (h : e.Placed) (hf : e.isFlat) : e.WellFormed :=
  .intro h fun f hm => absurd rfl (hf _ hm f)

theorem wellFormed_flatten (e : Expression) : e.flatten.WellFormed :=
  wellFormed_of_isFlat (placed_ofPieces e.leaves) e.isFlat_flatten

end Expression

/-! ## Drafts -/

namespace Draft

/-- What may be asked of a draft. -/
inductive Request where
  | write (p : Phrase)
  | clear
  /-- Values are written otherwise from now on. -/
  | rebind (b : Binding)

/-- The draft after a request; what a phrase wrote before it failed stays. -/
def take (d : Draft) : Request → Draft
  | .write p => (d.write p).1
  | .clear => d.clear
  | .rebind b => { d with binding := b }

/-- The draft after requests, one after another. -/
def run (d : Draft) (requests : List Request) : Draft := requests.foldl take d

/-- A draft in which no fragment is nested. -/
def Plain (d : Draft) : Prop := ∀ p ∈ d.reversed, ∀ inner, p ≠ .nested inner

theorem isFlat_of_plain {d : Draft} (h : d.Plain) : d.toExpression.isFlat :=
  Expression.isFlat_ofPieces fun p hp => h p (List.mem_reverse.mp hp)

theorem wellFormed_of_plain {d : Draft} (h : d.Plain) : d.toExpression.WellFormed :=
  Expression.wellFormed_of_isFlat (Expression.placed_ofPieces _) (isFlat_of_plain h)

theorem plain_push {d : Draft} (h : d.Plain) {p : Piece} (hp : ∀ inner, p ≠ .nested inner) :
    (d.push p).Plain := by
  intro q hq inner hi
  subst hi
  cases p with
  | nested inner => exact hp inner rfl
  | bound v =>
    rcases List.mem_cons.mp hq with hq | hq
    · cases hq
    · exact h _ hq inner rfl
  | text s =>
    obtain ⟨b, r⟩ := d
    by_cases hs : s = ""
    · subst hs
      exact h _ hq inner rfl
    · rcases r with - | ⟨(t | v | inner'), r⟩
      · simp [push, hs] at hq
      · refine h _ (List.mem_cons_of_mem _ ?_) inner rfl
        simpa [push, hs] using hq
      · refine h _ ?_ inner rfl
        simpa [push, hs] using hq
      · refine h _ ?_ inner rfl
        simpa [push, hs] using hq

theorem plain_write {d : Draft} (h : d.Plain) (p : Phrase) : (d.write p).1.Plain := by
  induction p generalizing d with
  | nil => exact h
  | cons part rest ih =>
    unfold write
    cases hp : d.binding.place part with
    | error e => exact h
    | ok piece =>
      refine ih (plain_push h fun inner hi => ?_)
      rw [hi] at hp
      exact d.binding.place_ne_nested part inner hp

/-- No request nests a fragment in a draft. -/
theorem plain_take {d : Draft} (h : d.Plain) (r : Request) : (d.take r).Plain := by
  cases r with
  | write p => exact plain_write h p
  | clear => exact fun p hp => by cases hp
  | rebind b => exact h

theorem plain_run {d : Draft} (h : d.Plain) (requests : List Request) : (d.run requests).Plain := by
  induction requests generalizing d with
  | nil => exact h
  | cons r requests ih => exact ih (plain_take h r)

/-- What is pushed stands behind the pieces of a draft. -/
theorem toExpression_push (d : Draft) (p : Piece) :
    (d.push p).toExpression = .ofPieces (d.reversed.reverse ++ [p]) := by
  obtain ⟨b, r⟩ := d
  cases p with
  | bound v => exact congrArg Expression.ofPieces List.reverse_cons
  | nested inner => exact congrArg Expression.ofPieces List.reverse_cons
  | text s =>
    by_cases hs : s = ""
    · subst hs
      have h : Expression.ofPieces (r.reverse ++ [.text ""]) = .ofPieces (r.reverse ++ []) :=
        Expression.ofPieces_append rfl (Expression.ofPieces_eq_iff.mpr rfl)
      rw [h, List.append_nil]
      rfl
    · rcases r with - | ⟨(t | v | inner), r⟩
      · simp [push, hs, toExpression]
      · -- the two texts are one
        have h := Expression.ofPieces_append (rfl : Expression.ofPieces r.reverse = _)
          (Expression.ofPieces_text_text t s [])
        simpa [push, hs, toExpression] using h.symm
      · simp [push, hs, toExpression]
      · simp [push, hs, toExpression]

theorem slots_append (d : Draft) (p : Piece) :
    (Expression.ofPieces (d.reversed.reverse ++ [p])).slots =
      d.toExpression.slots ++ Piece.slotsFrom d.text.utf8ByteSize [p] := by
  refine (Piece.slotsFrom_append _ [p] 0).trans ?_
  rw [Nat.zero_add]
  rfl

theorem template_append (d : Draft) (p : Piece) :
    (Expression.ofPieces (d.reversed.reverse ++ [p])).template = d.text ++ p.template := by
  rw [Expression.template_ofPieces, List.map_append, String.join_append, List.map_singleton,
    String.join_cons, String.join_nil, String.append_empty]
  rfl

/-- A draft that takes text has it behind its own, and the places stay. -/
theorem is_push_text (d : Draft) (s : String) :
    (d.push (.text s)).toExpression.Is (d.text ++ s) d.toExpression.slots
      d.toExpression.params := by
  rw [toExpression_push]
  refine ⟨d.template_append _, ?_, ?_⟩
  · rw [slots_append]
    exact List.append_nil _
  · exact (Piece.params_append _ _).trans (List.append_nil _)

/-- A draft that binds a value has its place behind the text written so far. -/
theorem is_push_bound (d : Draft) (v : Value) :
    (d.push (.bound v)).toExpression.Is (d.text ++ "?")
      (d.toExpression.slots ++ [d.text.utf8ByteSize]) (d.toExpression.params ++ [.value v]) := by
  rw [toExpression_push]
  exact ⟨d.template_append _, d.slots_append _, Piece.params_append _ _⟩

end Draft

/-! ## Statements -/

/-- The statements that queries and options write. -/
inductive IsStatement : Expression → Prop
  | select {q : Query} {e : Expression} (h : q.select = .ok e) : IsStatement e
  | count {q : Query} {column : Option Column} {e : Expression} (h : q.count column = .ok e) :
      IsStatement e
  | insert {q : Query} {r : Row} {e : Expression} (h : q.insert r = .ok e) : IsStatement e
  | insertKey {q : Query} {r : Row} {key : String} {e : Expression}
      (h : q.insertKey r key = .ok e) : IsStatement e
  | insertSelected {q source : Query} {columns : List String} {e : Expression}
      (h : q.insertSelected source columns = .ok e) : IsStatement e
  | bulkInsert {q : Query} {rows : List Row} {es : List Expression} {e : Expression}
      (h : q.bulkInsert rows = .ok es) (he : e ∈ es) : IsStatement e
  | update {q : Query} {cells : List Cell} {e : Expression} (h : q.update cells = .ok e) :
      IsStatement e
  | delete {q : Query} {e : Expression} (h : q.delete = .ok e) : IsStatement e
  | deleteJoined {q : Query} {e : Expression} (h : q.deleteJoined = .ok e) : IsStatement e
  | upsert {q : Query} {rows : List Row} {u : Upsert} {e : Expression}
      (h : q.upsert rows u = .ok e) : IsStatement e
  | createTable {c : Config} {s : Schema} {e : Expression} (h : c.createTable s = .ok e) :
      IsStatement e
  | createTableFrom {c : Config} {name : String} {source : Query} {e : Expression}
      (h : c.createTableFrom name source = .ok e) : IsStatement e
  | dropTable {c : Config} {name : String} {e : Expression} (h : c.dropTable name = .ok e) :
      IsStatement e
  | tableExists {c : Config} {name : String} {e : Expression} (h : c.tableExists name = .ok e) :
      IsStatement e
  | truncateTable {c : Config} {name : String} {e : Expression}
      (h : c.truncateTable name = .ok e) : IsStatement e
  | addConstraint {c : Config} {k : Constraint} {e : Expression} (h : c.addConstraint k = .ok e) :
      IsStatement e
  | dropConstraint {c : Config} {table name : String} {e : Expression}
      (h : c.dropConstraint table name = .ok e) : IsStatement e
  | createIndex {c : Config} {i : Index} {e : Expression} (h : c.createIndex i = .ok e) :
      IsStatement e
  | dropIndex {c : Config} {table name : String} {e : Expression}
      (h : c.dropIndex table name = .ok e) : IsStatement e

/-- The statements of a bulk insert are those of its batches. -/
theorem exists_batch_of_mem_bulkInsert {q : Query} {rows : List Row} {es : List Expression}
    {e : Expression} (h : q.bulkInsert rows = .ok es) (he : e ∈ es) :
    ∃ batch ∈ q.batches rows, (q.batchPhrase batch).toExpression q.binding = .ok e := by
  obtain ⟨-, -, h⟩ := bind_eq_ok_iff.mp h
  obtain ⟨b, hb, hbe⟩ := exists_of_mem_mapM h he
  obtain ⟨batch, hm, rfl⟩ := List.mem_map.mp hb
  exact ⟨batch, hm, hbe⟩

/-- A statement is what its phrase becomes. -/
theorem exists_phrase_of_isStatement {e : Expression} (h : IsStatement e) :
    ∃ (p : Phrase) (b : Binding), p.toExpression b = .ok e := by
  cases h with
  | bulkInsert h he =>
    obtain ⟨batch, -, hb⟩ := exists_batch_of_mem_bulkInsert h he
    exact ⟨_, _, hb⟩
  | createIndex h =>
    unfold Config.createIndex Config.define at h
    exact ⟨_, _, h⟩
  | _ h => exact ⟨_, _, h⟩

/-- No fragment stands in a statement. -/
theorem isFlat_of_isStatement {e : Expression} (h : IsStatement e) : e.isFlat := by
  obtain ⟨p, b, hp⟩ := exists_phrase_of_isStatement h
  exact Phrase.isFlat_of_toExpression hp

/-- **Statements are well formed**, whatever fragments they were given. -/
theorem wellFormed_of_isStatement {e : Expression} (h : IsStatement e) : e.WellFormed := by
  obtain ⟨p, b, hp⟩ := exists_phrase_of_isStatement h
  obtain ⟨ps, -, rfl⟩ := Phrase.toExpression_eq_ok_iff.mp hp
  exact Expression.wellFormed_of_isFlat (Expression.placed_ofPieces ps) (isFlat_of_isStatement h)

end SqlWeave
