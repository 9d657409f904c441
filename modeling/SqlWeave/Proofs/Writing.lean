import Mathlib.Data.List.Forall2
import SqlWeave.Phrase
import SqlWeave.Proofs.Pieces

/-!
# What a phrase becomes

A draft takes the parts of a phrase one by one and joins text to the text before it. The fragment
it ends with is read off the parts at once: each part becomes a piece (`Phrase.written`), and the
fragment is that of the pieces (`toExpression_eq`). Statements about phrases are proved on the
pieces, where two phrases after another are two lists after another.

Results:
* `toExpression_eq`: a phrase is written iff each of its parts is, and as their pieces.
* `written_join`, `written_append`: the pieces of a phrase made of phrases.
* `values_of_written`: the values of a statement are those of its pieces.
* `toExpression_of_guarded`: what is written when guarded is written without a guard.
-/

namespace SqlWeave

theorem mem_intersperse {α : Type} {a separator : α} :
    ∀ {xs : List α}, a ∈ xs → a ∈ xs.intersperse separator
  | [_], h => h
  | x :: y :: xs, h => by
    rw [List.intersperse_cons_cons]
    rcases List.mem_cons.mp h with rfl | h
    · exact List.mem_cons_self
    · exact List.mem_cons_of_mem _ (List.mem_cons_of_mem _ (mem_intersperse h))

/-- Steps that commute with a change of their results commute one after another. -/
theorem bind_eq_map_bind {α α' β β' : Type} {f : α → α'} {g : β → β'} {x : Result α}
    {x' : Result α'} {k : α → Result β} {k' : α' → Result β'} (hx : x' = x.map f)
    (hk : ∀ a, k' (f a) = (k a).map g) : (x' >>= k') = (x >>= k).map g := by
  subst hx
  cases x with
  | error e => rfl
  | ok a => exact hk a

theorem map_eq_ok_iff {α β : Type} {f : α → β} {r : Result α} {b : β} :
    r.map f = .ok b ↔ ∃ a, r = .ok a ∧ b = f a := by
  cases r with
  | error e => exact ⟨fun h => (by cases h), fun ⟨_, h, _⟩ => (by cases h)⟩
  | ok a =>
    constructor
    · intro h
      cases h
      exact ⟨a, rfl, rfl⟩
    · rintro ⟨a', h, rfl⟩
      cases h
      rfl

theorem bind_eq_ok_iff {α β : Type} {r : Result α} {f : α → Result β} {b : β} :
    (r >>= f) = .ok b ↔ ∃ a, r = .ok a ∧ f a = .ok b := by
  cases r with
  | error e => exact ⟨fun h => (by cases h), fun ⟨_, h, _⟩ => (by cases h)⟩
  | ok a =>
    constructor
    · exact fun h => ⟨a, rfl, h⟩
    · rintro ⟨a', h, hf⟩
      cases h
      exact hf

/-- A list is gone through without failure iff every step gives the result at its place. -/
theorem mapM_eq_ok_iff {α β : Type} {f : α → Result β} : ∀ {xs : List α} {ys : List β},
    xs.mapM f = .ok ys ↔ List.Forall₂ (fun x y => f x = .ok y) xs ys
  | [], ys => by
    rw [List.mapM_nil, List.forall₂_nil_left_iff]
    exact ⟨fun h => (Except.ok.inj h).symm, fun h => congrArg Except.ok h.symm⟩
  | x :: xs, ys => by
    rw [List.mapM_cons]
    cases hx : f x with
    | error e =>
      refine ⟨fun h => (by cases h), fun h => ?_⟩
      cases h with
      | cons hy _ => rw [hx] at hy; cases hy
    | ok y =>
      cases hxs : xs.mapM f with
      | error e =>
        refine ⟨fun h => (by cases h), fun h => ?_⟩
        cases h with
        | cons _ hys => rw [mapM_eq_ok_iff.mpr hys] at hxs; cases hxs
      | ok zs =>
        constructor
        · intro h
          cases h
          exact .cons hx (mapM_eq_ok_iff.mp hxs)
        · intro h
          cases h with
          | cons hy hys =>
            have hz := (mapM_eq_ok_iff.mpr hys).symm.trans hxs
            rw [hx] at hy
            cases hy
            cases hz
            rfl

/-- What was found going through a list was found at one of its elements. -/
theorem exists_of_mem_mapM {α β : Type} {f : α → Result β} {xs : List α} {ys : List β}
    (h : xs.mapM f = .ok ys) {y : β} (hy : y ∈ ys) : ∃ x ∈ xs, f x = .ok y := by
  have hf := mapM_eq_ok_iff.mp h
  clear h
  induction hf with
  | nil => cases hy
  | cons hx _ ih =>
    rcases List.mem_cons.mp hy with rfl | hy
    · exact ⟨_, List.mem_cons_self, hx⟩
    · obtain ⟨x, hmem, hx⟩ := ih hy
      exact ⟨x, List.mem_cons_of_mem _ hmem, hx⟩

/-- Where a list is gone through without failure, each of its elements is. -/
theorem exists_of_mapM_of_mem {α β : Type} {f : α → Result β} {xs : List α} {ys : List β}
    (h : xs.mapM f = .ok ys) {x : α} (hx : x ∈ xs) : ∃ y, f x = .ok y := by
  have hf := mapM_eq_ok_iff.mp h
  clear h
  induction hf with
  | nil => cases hx
  | cons hy _ ih =>
    rcases List.mem_cons.mp hx with rfl | hx
    · exact ⟨_, hy⟩
    · exact ih hx

/-! ## The pieces of a phrase -/

/-- No part becomes a fragment. -/
theorem Binding.place_ne_nested (b : Binding) (part : Part) (inner : Expression) :
    b.place part ≠ .ok (.nested inner) := by
  have hl : ∀ v : Value, (b.literal v).map Piece.text ≠ .ok (.nested inner) := fun v => by
    cases b.literal v <;> exact fun h => by cases h
  cases part with
  | text s => exact fun h => by cases h
  | failure e => exact fun h => by cases h
  | value v =>
    simp only [place]
    split
    · exact fun h => by cases h
    · exact hl _
  | bound v =>
    simp only [place]
    split
    · exact hl _
    · exact fun h => by cases h

namespace Draft

/-- The pieces of a draft, last first, in front of pieces to come. -/
def glue : List Piece → List Piece → List Piece
  | .text t :: rest, .text u :: ps => rest.reverse ++ .text (t ++ u) :: ps
  | reversed, ps => reversed.reverse ++ ps

theorem glue_nil_right (reversed : List Piece) : glue reversed [] = reversed.reverse := by
  unfold glue
  split <;> simp_all

theorem glue_nil_left (ps : List Piece) : glue [] ps = ps := by
  unfold glue
  split <;> simp_all

/-- A piece is pushed behind the draft or put in front of the rest, with one outcome. -/
theorem glue_push (d : Draft) (p : Piece) (ps : List Piece) :
    glue (d.push p).reversed ps = glue d.reversed (Piece.cons p ps) := by
  obtain ⟨b, r⟩ := d
  cases p with
  | bound v => cases r with
    | nil => simp [push, Piece.cons, glue]
    | cons q r => cases q <;> simp [push, Piece.cons, glue]
  | nested inner => cases r with
    | nil => simp [push, Piece.cons, glue]
    | cons q r => cases q <;> simp [push, Piece.cons, glue]
  | text s =>
    by_cases hs : s = ""
    · subst hs
      simp [push, Piece.cons]
    · rcases r with - | ⟨(t | v | inner), r⟩ <;> rcases ps with - | ⟨(u | w | inner'), ps⟩ <;>
        simp [push, Piece.cons, glue, hs, String.append_assoc]

theorem glue_foldl_push (ps : List Piece) :
    ∀ d : Draft, glue (ps.foldl push d).reversed [] = glue d.reversed (Piece.normal ps) := by
  induction ps with
  | nil => exact fun _ => rfl
  | cons p ps ih =>
    intro d
    rw [List.foldl_cons, ih, glue_push]
    rfl

/-- Pieces pushed one by one are the fragment of the pieces. -/
theorem toExpression_foldl_push (b : Binding) (ps : List Piece) :
    (ps.foldl push { binding := b }).toExpression = .ofPieces ps := by
  have h := glue_foldl_push ps { binding := b }
  rw [glue_nil_right, glue_nil_left] at h
  unfold toExpression
  rw [h, Expression.ofPieces_normal]

/-- Text written in two steps is text written in one. -/
theorem push_text_text (d : Draft) (s t : String) :
    (d.push (.text s)).push (.text t) = d.push (.text (s ++ t)) := by
  obtain ⟨b, r⟩ := d
  by_cases hs : s = ""
  · subst hs
    simp [push]
  · by_cases ht : t = ""
    · subst ht
      rcases r with - | ⟨(u | v | inner), r⟩ <;> simp [push]
    · rcases r with - | ⟨(u | v | inner), r⟩ <;> simp [push, hs, ht, String.append_assoc]

end Draft

namespace Phrase

/-- The pieces that the parts of a phrase become, if each of them can be written. -/
def written (b : Binding) (p : Phrase) : Result (List Piece) := p.mapM b.place

variable {b : Binding}

theorem written_cons (part : Part) (p : Phrase) :
    written b (part :: p) = (b.place part).bind fun x => (written b p).map (x :: ·) := by
  unfold written
  rw [List.mapM_cons]
  rfl

theorem written_text (s : String) (p : Phrase) :
    written b (.text s :: p) = (written b p).map (.text s :: ·) := written_cons _ _

theorem written_singleton (part : Part) : written b [part] = (b.place part).map ([·]) := by
  rw [written_cons]
  cases b.place part <;> rfl

theorem written_append (p q : Phrase) :
    written b (p ++ q) = (written b p).bind fun ps => (written b q).map (ps ++ ·) := by
  unfold written
  rw [List.mapM_append]
  rfl

/-- Every piece of a phrase is one of its parts as it was written. -/
theorem exists_of_mem_written {p : Phrase} {ps : List Piece} (h : p.written b = .ok ps)
    {x : Piece} (hx : x ∈ ps) : ∃ part ∈ p, b.place part = .ok x := exists_of_mem_mapM h hx

/-- Nothing is nested among the pieces of a phrase. -/
theorem ne_nested_of_mem_written {p : Phrase} {ps : List Piece} (h : p.written b = .ok ps)
    {x : Piece} (hx : x ∈ ps) (inner : Expression) : x ≠ .nested inner := by
  rintro rfl
  obtain ⟨part, -, hp⟩ := exists_of_mem_written h hx
  exact b.place_ne_nested part inner hp

/-- A draft takes a phrase that can be written piece by piece. -/
theorem write_of_written {p : Phrase} {ps : List Piece} {d : Draft}
    (h : p.written d.binding = .ok ps) : d.write p = (ps.foldl Draft.push d, none) := by
  induction p generalizing d ps with
  | nil =>
    cases h
    rfl
  | cons part p ih =>
    rw [written_cons] at h
    unfold Draft.write
    cases hp : d.binding.place part with
    | error e => rw [hp] at h; cases h
    | ok x =>
      rw [hp] at h
      obtain ⟨xs, hx, rfl⟩ := map_eq_ok_iff.mp h
      exact ih (d.push_binding x ▸ hx)

/-- A draft stops where a phrase cannot be written. -/
theorem write_of_failure {p : Phrase} {e : Error} {d : Draft}
    (h : p.written d.binding = .error e) : (d.write p).2 = some e := by
  induction p generalizing d with
  | nil => cases h
  | cons part p ih =>
    rw [written_cons] at h
    unfold Draft.write
    cases hp : d.binding.place part with
    | error e' =>
      rw [hp] at h
      cases h
      rfl
    | ok x =>
      rw [hp] at h
      refine ih ?_
      rw [d.push_binding]
      cases hw : written d.binding p with
      | error e' => rw [hw] at h; cases h; rfl
      | ok xs => rw [hw] at h; cases h

/-- **A phrase is written exactly if each of its parts is.** The fragment is that of their
pieces, and the first part that cannot be written is the failure. -/
theorem toExpression_eq (p : Phrase) : p.toExpression b = (p.written b).map .ofPieces := by
  unfold toExpression
  cases h : p.written b with
  | ok ps =>
    have hw := write_of_written (d := { binding := b }) h
    rw [hw]
    exact congrArg Except.ok (Draft.toExpression_foldl_push b ps)
  | error e =>
    have hw := write_of_failure (d := { binding := b }) h
    generalize Draft.write { binding := b } p = r at hw
    obtain ⟨d, e'⟩ := r
    cases hw
    rfl

/-- The pieces of phrases with a separator between them. -/
theorem written_join (separator : String) (phrases : List Phrase) :
    written b (join separator phrases) =
      (phrases.mapM (written b)).map fun items =>
        (items.intersperse [.text separator]).flatten := by
  unfold join
  induction phrases with
  | nil => rfl
  | cons p phrases ih =>
    rw [List.mapM_cons]
    cases phrases with
    | nil =>
      rw [List.mapM_nil, List.intersperse_singleton, List.flatten_singleton]
      cases written b p with
      | error e => rfl
      | ok ps => exact congrArg Except.ok (List.append_nil ps).symm
    | cons q phrases =>
      rw [List.intersperse_cons_cons, List.flatten_cons, List.flatten_cons, written_append,
        List.singleton_append, written_text, ih]
      cases written b p with
      | error e => rfl
      | ok ps =>
        cases hq : List.mapM (written b) (q :: phrases) with
        | error e => rfl
        | ok items =>
          have hl := (mapM_eq_ok_iff.mp hq).length_eq
          cases items with
          | nil => cases hl
          | cons item items => rfl

/-- The pieces of text. -/
def texts (p : Phrase) : List Piece :=
  p.filterMap fun
    | .text s => some (.text s)
    | _ => none

/-- Text is written as it is. -/
theorem written_of_text {p : Phrase} (h : ∀ part ∈ p, ∃ s, part = .text s) :
    written b p = .ok p.texts := by
  induction p with
  | nil => rfl
  | cons part p ih =>
    obtain ⟨s, rfl⟩ := h part List.mem_cons_self
    rw [written_text, ih fun x hx => h x (List.mem_cons_of_mem _ hx)]
    rfl

/-- A phrase of failures alone. -/
def IsCheck (p : Phrase) : Prop := ∀ part ∈ p, ∃ e, part = .failure e

theorem isCheck_nil : IsCheck [] := fun _ h => by cases h

theorem isCheck_failIf (bad : Bool) (e : Error) : IsCheck (failIf bad e) := by
  cases bad with
  | false => exact isCheck_nil
  | true => exact fun part h => ⟨e, List.mem_singleton.mp h⟩

theorem IsCheck.append {p q : Phrase} (hp : IsCheck p) (hq : IsCheck q) : IsCheck (p ++ q) :=
  List.forall_mem_append.mpr ⟨hp, hq⟩

/-- Checks are written only if there are none. -/
theorem IsCheck.eq_nil {p : Phrase} (h : IsCheck p) {ps : List Piece} (hw : written b p = .ok ps) :
    p = [] := by
  cases p with
  | nil => rfl
  | cons part p =>
    obtain ⟨e, rfl⟩ := h part List.mem_cons_self
    cases hw

theorem eq_false_of_written_failIf {bad : Bool} {e : Error} {ps : List Piece}
    (h : (failIf bad e).written b = .ok ps) : bad = false := by
  cases bad with
  | false => rfl
  | true => cases h

/-- Two phrases are written if each of them is. -/
theorem written_append_eq_ok_iff {p q : Phrase} {xs : List Piece} :
    written b (p ++ q) = .ok xs ↔
      ∃ ps qs, written b p = .ok ps ∧ written b q = .ok qs ∧ xs = ps ++ qs := by
  rw [written_append]
  cases written b p with
  | error e => exact ⟨fun h => (by cases h), fun ⟨_, _, h, _⟩ => (by cases h)⟩
  | ok ps =>
    cases written b q with
    | error e => exact ⟨fun h => (by cases h), fun ⟨_, _, _, h, _⟩ => (by cases h)⟩
    | ok qs =>
      constructor
      · intro h
        cases h
        exact ⟨ps, qs, rfl, rfl, rfl⟩
      · rintro ⟨ps', qs', hp, hq, rfl⟩
        cases hp
        cases hq
        rfl

theorem toExpression_eq_ok_iff {p : Phrase} {e : Expression} :
    p.toExpression b = .ok e ↔ ∃ ps, p.written b = .ok ps ∧ e = .ofPieces ps := by
  rw [toExpression_eq, map_eq_ok_iff]

/-- A phrase is the fragment of any pieces that are joined to those it is written as. -/
theorem toExpression_of_normal {p : Phrase} {ps qs : List Piece} (h : p.written b = .ok ps)
    (hn : Piece.normal ps = Piece.normal qs) : p.toExpression b = .ok (.ofPieces qs) :=
  toExpression_eq_ok_iff.mpr ⟨ps, h, (Expression.ofPieces_eq_iff.mpr hn).symm⟩

/-- **The values of a statement are those of its pieces.** -/
theorem values_of_written {p : Phrase} {ps : List Piece} (h : p.written b = .ok ps) :
    (Expression.ofPieces ps).values = Piece.values ps := by
  rw [Expression.values_ofPieces, Piece.leavesAll_of_flat fun _ => ne_nested_of_mem_written h]

/-! ## Guarded phrases -/

/-- A part that is guarded is itself or the failure of a program that breaks off. -/
theorem guarded_eq_or (c : Config) (part : Part) :
    c.guarded part = part ∨ c.guarded part = .failure .brokenOff := by
  cases part with
  | text s => exact .inl rfl
  | failure e => exact .inl rfl
  | value v => exact (ite_eq_or_eq _ _ _).symm
  | bound v => exact (ite_eq_or_eq _ _ _).symm

/-- What is written when guarded is written without a guard. -/
theorem toExpression_of_guarded {c : Config} {p : Phrase} {e : Expression}
    (h : toExpression (p.map c.guarded) b = .ok e) : p.toExpression b = .ok e := by
  obtain ⟨ps, hps, rfl⟩ := toExpression_eq_ok_iff.mp h
  have hself : ∀ part ∈ p, c.guarded part = part := by
    intro part hpart
    obtain ⟨x, hx⟩ := exists_of_mapM_of_mem hps (List.mem_map_of_mem hpart)
    rcases guarded_eq_or c part with hg | hg
    · exact hg
    · rw [hg] at hx
      cases hx
  rwa [List.map_congr_left hself, List.map_id'] at h

/-! ## Phrases that say the same -/

/-- Two phrases are written alike wherever they stand. -/
def Same (p q : Phrase) : Prop := ∀ d : Draft, d.write p = d.write q

theorem Same.refl (p : Phrase) : Same p p := fun _ => rfl

theorem Same.append {p p' q q' : Phrase} (h : Same p p') (k : Same q q') :
    Same (p ++ q) (p' ++ q') := by
  intro d
  rw [Draft.write_append, Draft.write_append, h d]
  rcases d.write p' with ⟨d', - | e⟩
  · exact k d'
  · rfl

/-- Text may be cut. -/
theorem same_text_text (s t : String) (p : Phrase) :
    Same (.text (s ++ t) :: p) (.text s :: .text t :: p) := by
  intro d
  simp only [Draft.write, Binding.place, Draft.push_text_text]

/-- Empty text may be left out. -/
theorem same_text_empty (p : Phrase) : Same (.text "" :: p) p := by
  intro d
  rfl

end Phrase
end SqlWeave
