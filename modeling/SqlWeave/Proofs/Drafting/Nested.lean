import SqlWeave.Proofs.Said
import SqlWeave.Proofs.Template.WellFormed

/-!
# Nested fragments in a draft

A draft takes a fragment piece by piece and goes into the fragments nested in it, so a value that
cannot be written may stop it at any depth. What it has written by then is the same as if the
fragment had been flat from the start: going into nested fragments takes the leaves in their order,
whatever is done with them (`Expression.visit_eq`), and text that flattening joins is joined by the
draft as well (`Phrase.same_normal`).

Results:
* `Expression.visit_eq`: going into nested fragments is going through the leaves.
* `splice_eq_write`: going into nested fragments is writing the leaves.
* `splice_flatten`: a fragment and its flat form leave a draft in the same state, with one outcome.
* `grown_of_words`: what is written is the flat template with a word at each place.
* `nested_spliced_as_flat`: all of it, for success and for failure.
-/

namespace SqlWeave

open Template

/-! ## Going through a fragment -/

section

variable {σ : Type} (text : σ → String → σ) (value : σ → Value → σ × Option Error)

namespace Piece

/-- What is done with text and, one after another, at the places among pieces, up to the first
failure. -/
def follow : List Piece → List (σ → σ × Option Error) → σ → σ × Option Error
  | [], _, x => (x, none)
  | .text s :: ps, places, x => follow ps places (text x s)
  | _ :: ps, [], x => follow ps [] x
  | _ :: ps, place :: places, x =>
    match place x with
    | (x', none) => follow ps places x'
    | (x', some e) => (x', some e)

end Piece

mutual

/-- What is done with a fragment, going into the fragments at its places. -/
def Expression.visit : Expression → σ → σ × Option Error
  | ⟨template, slots, params⟩ =>
    Piece.follow text (Expression.pieces ⟨template, slots, params⟩) (Param.visitAll params)

/-- What is done with each parameter. -/
def Param.visitAll : List Param → List (σ → σ × Option Error)
  | [] => []
  | a :: rest => Param.visit a :: Param.visitAll rest

/-- What is done with a parameter. -/
def Param.visit : Param → σ → σ × Option Error
  | .value v => fun x => value x v
  | .expression e => Expression.visit e

end

namespace Piece

/-- What is done with leaves, one after another. -/
def visit : List Piece → σ → σ × Option Error
  | [], x => (x, none)
  | .text s :: ps, x => visit ps (text x s)
  | .bound v :: ps, x =>
    match value x v with
    | (x', none) => visit ps x'
    | (x', some e) => (x', some e)
  | .nested _ :: ps, x => visit ps x

theorem visit_append (ps qs : List Piece) : ∀ x : σ, visit text value (ps ++ qs) x =
    match visit text value ps x with
    | (x', none) => visit text value qs x'
    | (x', some e) => (x', some e) := by
  induction ps with
  | nil => exact fun _ => rfl
  | cons p ps ih =>
    intro x
    cases p with
    | text s => exact ih _
    | nested inner => exact ih _
    | bound v =>
      rw [List.cons_append, visit, visit]
      rcases value x v with ⟨x', - | e⟩
      · exact ih x'
      · rfl

/-- **Going through filled symbols is going through what they are filled with.** -/
theorem follow_fill (xs : List Symbol) : ∀ (read : List Char) (args : List Param) (x : σ),
    follow text (fill read xs (args.map fun a => [a.piece]))
        (args.map fun a => visit text value a.piece.leaves) x =
      visit text value (fill read xs (args.map fun a => a.piece.leaves)) x := by
  -- the text read so far is gone through first, on both sides
  have hflush : ∀ (read : List Char) (ps qs : List Piece) (places : List (σ → σ × Option Error)),
      (∀ x, follow text ps places x = visit text value qs x) →
        ∀ x, follow text (flush read ps) places x = visit text value (flush read qs) x := by
    intro read ps qs places h x
    cases read with
    | nil => exact h x
    | cons c cs => exact h _
  induction xs with
  | nil => exact fun read args => hflush read [] [] _ fun _ => rfl
  | cons y xs ih =>
    intro read args
    cases y with
    | char c => exact ih _ args
    | hole =>
      cases args with
      | nil => exact ih _ []
      | cons a args =>
        refine hflush read _ _ _ fun x => ?_
        have hplace : ∀ (ps : List Piece) (place : σ → σ × Option Error)
            (places : List (σ → σ × Option Error)),
            follow text (a.piece :: ps) (place :: places) x =
              match place x with
              | (x', none) => follow text ps places x'
              | (x', some e) => (x', some e) := by
          intro ps place places
          cases a <;> rfl
        rw [List.singleton_append, List.map_cons, hplace, visit_append]
        rcases visit text value a.piece.leaves x with ⟨x', - | e⟩
        · exact ih [] args x'
        · rfl

end Piece

-- one case for each constructor of fragments and parameters
mutual

/-- **Going into nested fragments is going through the leaves.** -/
theorem Expression.visit_eq : ∀ e : Expression,
    e.visit text value = Piece.visit text value e.leaves
  | ⟨template, slots, params⟩ => by
    funext x
    rw [Expression.visit, Param.visitAll_eq params, Expression.leaves, Param.leavesAll_eq]
    exact Piece.follow_fill text value _ [] params x

theorem Param.visitAll_eq : ∀ args : List Param,
    Param.visitAll text value args = args.map fun a => Piece.visit text value a.piece.leaves
  | [] => rfl
  | a :: args => by rw [Param.visitAll, Param.visit_eq a, Param.visitAll_eq args, List.map_cons]

theorem Param.visit_eq : ∀ a : Param,
    a.visit text value = Piece.visit text value a.piece.leaves
  | .value v => by
    funext x
    rw [Param.visit, Param.piece, Piece.leaves, Piece.visit]
    dsimp only
    rcases value x v with ⟨x', - | e⟩ <;> rfl
  | .expression e => by
    rw [Param.visit]
    exact Expression.visit_eq e

end

end

/-! ## Taking a fragment -/

namespace Draft

/-- The draft takes a fragment, going into what is nested in it. -/
def splice (d : Draft) (e : Expression) : Draft × Option Error :=
  e.visit (fun d s => d.push (.text s)) (fun d v => d.write [.value v]) d

/-- **Going into nested fragments is writing the leaves.** -/
theorem splice_eq_write (d : Draft) (e : Expression) :
    d.splice e = d.write (Phrase.ofExpression e) := by
  unfold splice Phrase.ofExpression
  rw [Expression.visit_eq]
  induction e.leaves generalizing d with
  | nil => rfl
  | cons p ps ih =>
    rw [List.flatMap_cons, write_append]
    cases p with
    | text s => exact ih _
    | nested inner => exact ih _
    | bound v =>
      rw [Piece.visit, Phrase.ofLeaf]
      rcases d.write [.value v] with ⟨d', - | e⟩
      · exact ih d'
      · rfl

end Draft

/-! ## Joined text -/

namespace Phrase

theorem same_cons (p : Piece) (ps : List Piece) :
    Same ((Piece.cons p ps).flatMap ofLeaf) ((p :: ps).flatMap ofLeaf) := by
  cases p with
  | bound v => exact .refl _
  | nested inner => exact .refl _
  | text s =>
    by_cases hs : s = ""
    · subst hs
      exact fun d => (same_text_empty (ps.flatMap ofLeaf) d).symm
    · rcases ps with - | ⟨(t | v | inner), ps⟩
      · simpa [Piece.cons, hs] using Same.refl _
      · simpa [Piece.cons, hs, ofLeaf] using same_text_text s t (ps.flatMap ofLeaf)
      · simpa [Piece.cons, hs] using Same.refl _
      · simpa [Piece.cons, hs] using Same.refl _

/-- Text may be joined before it is written. -/
theorem same_normal (ps : List Piece) :
    Same ((Piece.normal ps).flatMap ofLeaf) (ps.flatMap ofLeaf) := by
  induction ps with
  | nil => exact .refl _
  | cons p ps ih => exact fun d => (same_cons p _ d).trans ((Same.refl (ofLeaf p)).append ih d)

end Phrase

/-- **A fragment and its flat form leave a draft in the same state**, with the same outcome. -/
theorem Draft.splice_flatten (d : Draft) (e : Expression) : d.splice e.flatten = d.splice e := by
  rw [splice_eq_write, splice_eq_write]
  have hleaves : e.flatten.leaves = Piece.normal e.leaves :=
    Expression.leaves_ofPieces_of_flat e.ne_nested_of_mem_leaves
  unfold Phrase.ofExpression
  rw [hleaves]
  exact Phrase.same_normal e.leaves d

/-! ## What a draft grows by -/

/-- What is written for a value: a question mark where it is bound, and otherwise the literal of
what it is intercepted as. -/
def Binding.word (b : Binding) (v : Value) : Result String :=
  if b.binds (b.intercept v) then .ok "?" else b.literal (b.intercept v)

/-- The words of values, one for each. -/
abbrev Binding.Words (b : Binding) : List Value → List String → Prop :=
  List.Forall₂ fun v w => b.word v = .ok w

theorem Binding.place_of_word {b : Binding} {v : Value} {w : String} (h : b.word v = .ok w) :
    ∃ x, b.place (.value v) = .ok x ∧ x.template = w ∧
      Piece.values [x] = [b.intercept v].filter b.binds := by
  unfold word at h
  cases hb : b.binds (b.intercept v) with
  | true =>
    rw [hb] at h
    cases h
    exact ⟨.bound (b.intercept v), by simp [place, hb], rfl, by simp [hb, Piece.values]⟩
  | false =>
    rw [hb] at h
    have hl : b.literal (b.intercept v) = .ok w := h
    exact ⟨.text w, by simp [place, hb, hl, Except.map], rfl, by simp [hb, Piece.values]⟩

theorem Binding.place_of_word_error {b : Binding} {v : Value} {e : Error}
    (h : b.word v = .error e) : b.place (.value v) = .error e := by
  unfold word at h
  cases hb : b.binds (b.intercept v) with
  | true => rw [hb] at h; cases h
  | false =>
    rw [hb] at h
    have hl : b.literal (b.intercept v) = .error e := h
    simp [place, hb, hl, Except.map]

namespace Draft

/-- A draft has grown by a template with a word at each of its places. -/
structure Grown (d : Draft) (template : String) (slots : List Nat) (vs : List Value) (d' : Draft) :
    Prop where
  binding : d'.binding = d.binding
  /-- Each place is kept, or replaced by the literal of its value. -/
  text : ∃ words, d.binding.Words vs words ∧ d'.text = d.text ++ replaceAt template slots words
  /-- The values of the places that are kept are bound, as they are intercepted. -/
  values : d'.toExpression.values =
    d.toExpression.values ++ (vs.map d.binding.intercept).filter d.binding.binds

/-- A draft has grown by a flat fragment up to the first value that cannot be written. -/
def StoppedIn (d : Draft) (e : Expression) (failure : Error) (d' : Draft) : Prop :=
  ∃ before after places later written v unwritten,
    e.template = before ++ "?" ++ after ∧ e.slots = places ++ before.utf8ByteSize :: later ∧
      e.values = written ++ v :: unwritten ∧ places.length = written.length ∧
      d.binding.word v = .error failure ∧ d.Grown before places written d'

theorem values_push (d : Draft) (x : Piece) :
    (d.push x).toExpression.values = d.toExpression.values ++ Piece.values x.leaves := by
  rw [toExpression_push, Expression.values_ofPieces, Piece.leavesAll_append, Piece.values_append,
    toExpression, Expression.values_ofPieces, Piece.leavesAll, Piece.leavesAll, List.append_nil]

theorem values_foldl_push {ps : List Piece} (h : ∀ p ∈ ps, ∀ inner, p ≠ .nested inner) :
    ∀ d : Draft, (ps.foldl push d).toExpression.values =
      d.toExpression.values ++ Piece.values ps := by
  induction ps with
  | nil => exact fun d => (List.append_nil _).symm
  | cons p ps ih =>
    intro d
    obtain ⟨hp, hps⟩ := List.forall_mem_cons.mp h
    have hv : Piece.values (p :: ps) = Piece.values p.leaves ++ Piece.values ps := by
      cases p with
      | text s => rfl
      | bound v => rfl
      | nested inner => exact absurd rfl (hp inner)
    rw [List.foldl_cons, ih hps, values_push, hv, List.append_assoc]

theorem binding_foldl_push (ps : List Piece) (d : Draft) :
    (ps.foldl push d).binding = d.binding := by
  induction ps generalizing d with
  | nil => rfl
  | cons p ps ih => rw [List.foldl_cons, ih, push_binding]

end Draft

section

variable {b : Binding} {ps : List Piece}

/-- Leaves whose values have words are written with these at their places. -/
theorem Phrase.written_of_words (hf : ∀ p ∈ ps, ∀ inner, p ≠ .nested inner) {words : List String}
    (h : b.Words (Piece.values ps) words) :
    ∃ xs, Phrase.written b (ps.flatMap Phrase.ofLeaf) = .ok xs ∧
      String.join (xs.map Piece.template) = Expression.fillPieces ps words ∧
      Piece.values xs = ((Piece.values ps).map b.intercept).filter b.binds := by
  induction ps generalizing words with
  | nil => exact ⟨[], rfl, rfl, rfl⟩
  | cons p ps ih =>
    obtain ⟨hp, hps⟩ := List.forall_mem_cons.mp hf
    cases p with
    | nested inner => exact absurd rfl (hp inner)
    | text s =>
      obtain ⟨xs, hw, ht, hv⟩ := ih hps h
      refine ⟨.text s :: xs, ?_, ?_, hv⟩
      · rw [List.flatMap_cons, Phrase.ofLeaf, List.singleton_append, Phrase.written_text, hw]
        rfl
      · rw [List.map_cons, String.join_cons, ht]
        rfl
    | bound v =>
      cases h with
      | cons hv hvs =>
        obtain ⟨xs, hw, ht, hxs⟩ := ih hps hvs
        obtain ⟨x, hx, htx, hvx⟩ := b.place_of_word hv
        refine ⟨x :: xs, ?_, ?_, ?_⟩
        · rw [List.flatMap_cons, Phrase.ofLeaf, List.singleton_append, Phrase.written_cons, hx, hw]
          rfl
        · rw [List.map_cons, String.join_cons, ht, htx]
          rfl
        · have hcons : Piece.values (x :: xs) = Piece.values [x] ++ Piece.values xs :=
            Piece.values_append [x] xs
          rw [hcons, hvx, hxs, ← List.filter_append]
          rfl

/-- Either all values of leaves have words, or there is a first one that has none. -/
theorem Binding.words_or_first (b : Binding) (hf : ∀ p ∈ ps, ∀ inner, p ≠ .nested inner) :
    (∃ words, b.Words (Piece.values ps) words) ∨
      ∃ us v vs words e, ps = us ++ .bound v :: vs ∧ b.Words (Piece.values us) words ∧
        b.word v = .error e := by
  induction ps with
  | nil => exact .inl ⟨[], .nil⟩
  | cons p ps ih =>
    obtain ⟨hp, hps⟩ := List.forall_mem_cons.mp hf
    cases p with
    | nested inner => exact absurd rfl (hp inner)
    | text s =>
      rcases ih hps with ⟨words, h⟩ | ⟨us, v, vs, words, e, rfl, hw, he⟩
      · exact .inl ⟨words, h⟩
      · exact .inr ⟨.text s :: us, v, vs, words, e, rfl, hw, he⟩
    | bound v =>
      cases hv : b.word v with
      | error e => exact .inr ⟨[], v, ps, [], e, rfl, .nil, hv⟩
      | ok w =>
        rcases ih hps with ⟨words, h⟩ | ⟨us, u, vs, words, e, rfl, hw, he⟩
        · exact .inl ⟨w :: words, .cons hv h⟩
        · exact .inr ⟨.bound v :: us, u, vs, w :: words, e, rfl, .cons hv hw, he⟩

end

namespace Draft

open Piece (slotsFrom)

variable {d : Draft} {ps : List Piece}

/-- Leaves have as many parameters as values. -/
theorem length_params_of_flat (hf : ∀ p ∈ ps, ∀ inner, p ≠ .nested inner) :
    (Piece.params ps).length = (Piece.values ps).length := by
  rw [Piece.params_of_flat hf, List.length_map]

/-- **What is written of leaves is their template with a word at each place.** -/
theorem grown_of_words (hf : ∀ p ∈ ps, ∀ inner, p ≠ .nested inner) {words : List String}
    (h : d.binding.Words (Piece.values ps) words) :
    ∃ d', d.write (ps.flatMap Phrase.ofLeaf) = (d', none) ∧
      d.Grown (Expression.ofPieces ps).template (Expression.ofPieces ps).slots
        (Piece.values ps) d' := by
  obtain ⟨xs, hw, ht, hv⟩ := Phrase.written_of_words hf h
  have hd := Phrase.write_of_written hw
  refine ⟨_, hd, d.binding_foldl_push xs, ⟨words, h, ?_⟩, ?_⟩
  · have hl : words.length = (Piece.params ps).length := by
      rw [length_params_of_flat hf, h.length_eq]
    rw [Phrase.text_write hd, Phrase.said_of_written hw, ht,
      Expression.replaceAt_ofPieces ps hl]
  · rw [values_foldl_push fun _ => Phrase.ne_nested_of_mem_written hw, hv]

/-- A draft that takes leaves grows by all of them, or stops at the first value without a word. -/
theorem grown_or_stopped (hf : ∀ p ∈ ps, ∀ inner, p ≠ .nested inner) :
    (∃ d', d.write (ps.flatMap Phrase.ofLeaf) = (d', none) ∧
        d.Grown (Expression.ofPieces ps).template (Expression.ofPieces ps).slots
          (Piece.values ps) d') ∨
      ∃ d' e, d.write (ps.flatMap Phrase.ofLeaf) = (d', some e) ∧
        ∃ us v vs, ps = us ++ .bound v :: vs ∧ d.binding.word v = .error e ∧
          d.Grown (Expression.ofPieces us).template (Expression.ofPieces us).slots
            (Piece.values us) d' := by
  rcases d.binding.words_or_first hf with ⟨words, h⟩ | ⟨us, v, vs, words, e, rfl, hw, he⟩
  · exact .inl (grown_of_words hf h)
  · obtain ⟨d', hd, hg⟩ := grown_of_words (List.forall_mem_append.mp hf).1 hw
    refine .inr ⟨d', e, ?_, us, v, vs, rfl, he, hg⟩
    have hp : d'.binding.place (.value v) = .error e := by
      rw [hg.binding]
      exact d.binding.place_of_word_error he
    rw [List.flatMap_append, write_append, hd, List.flatMap_cons]
    simp only [Phrase.ofLeaf, List.singleton_append, write, hp]

/-- A draft that has grown by the leaves in front of a value without a word has stopped in the flat
fragment. -/
theorem stoppedIn_flatten {e : Expression} {us vs : List Piece} {v : Value} {failure : Error}
    {d' : Draft} (hl : e.leaves = us ++ .bound v :: vs) (hv : d.binding.word v = .error failure)
    (hg : d.Grown (Expression.ofPieces us).template (Expression.ofPieces us).slots
      (Piece.values us) d') :
    d.StoppedIn e.flatten failure d' := by
  have hflat : ∀ p ∈ e.leaves, ∀ inner, p ≠ .nested inner := e.ne_nested_of_mem_leaves
  rw [hl] at hflat
  refine ⟨(Expression.ofPieces us).template, (Expression.ofPieces vs).template,
    (Expression.ofPieces us).slots,
    slotsFrom ((Expression.ofPieces us).template.utf8ByteSize + 1) vs,
    Piece.values us, v, Piece.values vs, ?_, ?_, ?_, ?_, hv, hg⟩
  · rw [Expression.flatten, Expression.template_ofPieces, hl, List.map_append, List.map_cons,
      String.join_append, String.join_cons, ← String.append_assoc]
    rfl
  · rw [Expression.flatten, hl]
    refine (Piece.slotsFrom_append us _ 0).trans ?_
    rw [Nat.zero_add]
    rfl
  · rw [e.values_flatten, Expression.values, hl, Piece.values_append]
    rfl
  · rw [(Expression.placed_ofPieces us).length]
    exact length_params_of_flat (List.forall_mem_append.mp hflat).1

end Draft

/-- **A draft cannot tell a nested fragment from its flat form.** Whatever the draft holds and
however it writes values, both end in one state and with one outcome. Where all goes well the draft
has grown by the flat template, each place kept or replaced by the literal of its value; where a
value cannot be written, by the part of it in front of the first such value. -/
theorem nested_spliced_as_flat (d : Draft) (e : Expression) :
    d.write (.ofExpression e) = d.splice e ∧ d.splice e.flatten = d.splice e ∧
      ((∃ d', d.splice e = (d', none) ∧
          d.Grown e.flatten.template e.flatten.slots e.values d') ∨
        ∃ d' failure, d.splice e = (d', some failure) ∧ d.StoppedIn e.flatten failure d') := by
  refine ⟨(d.splice_eq_write e).symm, d.splice_flatten e, ?_⟩
  rw [d.splice_eq_write]
  rcases d.grown_or_stopped e.ne_nested_of_mem_leaves with
    ⟨d', hd, hg⟩ | ⟨d', failure, hd, us, v, vs, hl, h⟩
  · exact .inl ⟨d', hd, hg⟩
  · exact .inr ⟨d', failure, hd, Draft.stoppedIn_flatten hl h.1 h.2⟩

end SqlWeave
