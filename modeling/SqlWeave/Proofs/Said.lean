import SqlWeave.Proofs.Writing

/-!
# What a phrase says

The text of a draft grows by what each part of a phrase leaves, so the text of a statement can be
read off its phrase part by part (`Phrase.said`). Values always leave text: a bound value its mark,
and a value in place its literal, which is never empty. So a phrase leaves no text exactly if it is
made of empty texts.

Results:
* `text_write`: a draft that takes a phrase grows by what the phrase says.
* `template_eq_said`: the text of a statement is what its phrase says.
* `said_eq_empty_iff`: a phrase that can be written says nothing iff it is `Blank`.
-/

namespace SqlWeave

/-! ## Literals have text -/

namespace Number

theorem natText_ne_empty (n : Nat) : natText n ≠ "" :=
  mt String.ofList_eq_empty_iff.mp Nat.toDigits_ne_nil

theorem intText_ne_empty (n : Int) : intText n ≠ "" := by
  cases n with
  | ofNat n => exact natText_ne_empty n
  | negSucc n =>
    intro h
    have hd : "-" = "" := (String.append_eq_empty_iff.mp h).1
    exact absurd hd (by decide)

theorem Decimal.text_ne_empty (d : Decimal) : d.text ≠ "" := by
  intro h
  rw [Decimal.text, String.ofList_eq_empty_iff] at h
  simp only [List.append_eq_nil_iff] at h
  -- one digit at least stands before the point
  have hl := length_padded (d.scale + 1) d.mantissa
  have ht := List.take_eq_nil_iff.mp h.1.2
  rcases ht with hw | hn
  · omega
  · rw [hn] at hl
    simp at hl

theorem Decimals.positional_ne_nil (d : Decimals) (keepsFraction : Bool) :
    d.positional keepsFraction ≠ [] := by
  unfold positional
  split
  · exact List.cons_ne_nil _ _
  · simp only
    split
    · simp [Nat.toDigits_ne_nil]
    · simp

theorem Decimals.scientific_ne_nil (d : Decimals) (signsExponent : Bool) :
    d.scientific signsExponent ≠ [] := by
  simp [scientific]

theorem Layout.text_ne_empty (l : Layout) (x : Float) : l.text x ≠ "" := by
  rw [Layout.text, Ne, String.ofList_eq_empty_iff]
  split
  · decide
  · simp
  · simp
  · intro h
    have hw := (List.append_eq_nil_iff.mp h).2
    unfold write at hw
    split at hw
    · exact Decimals.positional_ne_nil _ _ hw
    · exact Decimals.scientific_ne_nil _ _ hw

end Number

namespace Dialect

open Number

theorem stringLiteral_ne_empty (d : Dialect) (s : String) : d.stringLiteral s ≠ "" :=
  mt String.ofList_eq_empty_iff.mp (List.cons_ne_nil _ _)

/-- **No literal is empty.** -/
theorem literal_ne_empty {d : Dialect} {v : Value} {s : String} (h : d.literal v = some s) :
    s ≠ "" := by
  have hn : ∀ v : Value, v.numericText = some s → s ≠ "" := by
    intro v hv
    cases v with
    | int n => cases hv; exact intText_ne_empty n
    | float x =>
      simp only [Value.numericText, Option.ite_none_right_eq_some] at hv
      obtain ⟨-, hv⟩ := hv
      cases hv
      exact Layout.text_ne_empty _ x
    | decimal x => cases hv; exact x.text_ne_empty
    | _ => cases hv
  have ht : ∀ t, some (d.stringLiteral t) = some s → s ≠ "" := by
    intro t ht
    rw [← Option.some.inj ht]
    exact d.stringLiteral_ne_empty t
  cases v with
  | null => cases h; decide
  | bool b => cases h; cases d <;> cases b <;> decide
  | text t => exact ht _ h
  | date x => exact ht _ h
  | time x => exact ht _ h
  | dateTime x => exact ht _ h
  | uuid x => exact ht _ h
  | json x => exact ht _ h
  | bytes bs => cases h
  | int n => exact hn (.int n) h
  | float x => exact hn (.float x) h
  | decimal x => exact hn (.decimal x) h

end Dialect

/-! ## What is said -/

theorem Piece.template_bound_ne_empty (v : Value) : (bound v).template ≠ "" := by
  have h : (bound v).template = "?" := rfl
  rw [h]
  decide

theorem Draft.text_push (d : Draft) (x : Piece) : (d.push x).text = d.text ++ x.template := by
  obtain ⟨b, r⟩ := d
  have hcons : ∀ y : Piece, ∀ r : List Piece,
      Draft.text ⟨b, y :: r⟩ = Draft.text ⟨b, r⟩ ++ y.template := by
    intro y r
    change String.join ((y :: r).reverse.map Piece.template) =
      String.join (r.reverse.map Piece.template) ++ y.template
    rw [List.reverse_cons, List.map_append, String.join_append, List.map_singleton,
      String.join_cons, String.join_nil, String.append_empty]
  cases x with
  | bound v => exact hcons _ r
  | nested inner => exact hcons _ r
  | text s =>
    by_cases hs : s = ""
    · subst hs
      exact String.append_empty.symm
    · rcases r with - | ⟨(t | v | inner), r⟩
      · simpa [push, hs] using hcons (.text s) []
      · -- the text joins the one before it
        simp [push, hs, hcons, Piece.template, String.append_assoc]
      · simpa [push, hs] using hcons (.text s) _
      · simpa [push, hs] using hcons (.text s) _

namespace Phrase

variable {b : Binding}

/-- The text that a part leaves, which is none if it cannot be written. -/
def partSaid (b : Binding) (part : Part) : String :=
  match b.place part with
  | .ok x => x.template
  | .error _ => ""

/-- The text that a phrase leaves, part by part. -/
def said (b : Binding) (p : Phrase) : String := String.join (p.map (partSaid b))

@[simp]
theorem said_nil : said b [] = "" := rfl

@[simp]
theorem said_append (p q : Phrase) : said b (p ++ q) = said b p ++ said b q := by
  unfold said
  rw [List.map_append, String.join_append]

theorem said_cons (part : Part) (p : Phrase) : said b (part :: p) = partSaid b part ++ said b p := by
  unfold said
  rw [List.map_cons, String.join_cons]

@[simp]
theorem said_text_cons (s : String) (p : Phrase) : said b (.text s :: p) = s ++ said b p :=
  said_cons _ p

/-- What is refused leaves no text. -/
@[simp]
theorem said_failure_cons (e : Error) (p : Phrase) : said b (.failure e :: p) = said b p := by
  rw [said_cons]
  exact String.empty_append

@[simp]
theorem said_failIf (bad : Bool) (e : Error) : said b (failIf bad e) = "" := by
  cases bad <;> simp [failIf]

@[simp]
theorem said_join (separator : String) : ∀ phrases : List Phrase,
    said b (join separator phrases) = separator.intercalate (phrases.map (said b))
  | [] => rfl
  | [p] => by rw [join_singleton, List.map_singleton, String.intercalate_singleton]
  | p :: q :: phrases => by
    have ih := said_join separator (q :: phrases)
    unfold join at ih ⊢
    rw [List.intersperse_cons_cons, List.flatten_cons, List.flatten_cons, said_append, said_append,
      ih, said_text_cons, said_nil, String.append_empty, List.map_cons (a := p), List.map_cons,
      String.intercalate_cons_cons, String.append_assoc]

/-- **A draft that takes a phrase grows by what the phrase says.** -/
theorem text_write {p : Phrase} {d d' : Draft} (h : d.write p = (d', none)) :
    d'.text = d.text ++ said d.binding p := by
  induction p generalizing d with
  | nil =>
    cases h
    exact String.append_empty.symm
  | cons part p ih =>
    unfold Draft.write at h
    rw [said_cons, partSaid]
    cases hp : d.binding.place part with
    | error e => rw [hp] at h; cases h
    | ok x =>
      rw [hp] at h
      rw [ih h, Draft.text_push, Draft.push_binding, String.append_assoc]

/-- **The text of a statement is what its phrase says.** -/
theorem template_eq_said {p : Phrase} {e : Expression} (h : p.toExpression b = .ok e) :
    e.template = said b p := by
  unfold toExpression at h
  cases hw : Draft.write { binding := b } p with
  | mk d failed =>
    rw [hw] at h
    cases failed with
    | some e' => cases h
    | none =>
      cases h
      exact (text_write hw).trans String.empty_append

/-- A phrase that can be written says the text of its pieces. -/
theorem said_of_written {p : Phrase} {ps : List Piece} (h : p.written b = .ok ps) :
    said b p = String.join (ps.map Piece.template) := by
  induction p generalizing ps with
  | nil =>
    cases h
    rfl
  | cons part p ih =>
    rw [written_cons] at h
    obtain ⟨x, hx, hr⟩ := bind_eq_ok_iff.mp h
    obtain ⟨xs, hxs, rfl⟩ := map_eq_ok_iff.mp hr
    rw [said_cons, partSaid, hx, ih hxs, List.map_cons, String.join_cons]

/-! ## Phrases that say nothing -/

/-- Every part of the phrase is empty text. -/
def Blank (p : Phrase) : Prop := ∀ part ∈ p, part = .text ""

theorem blank_nil : Blank [] := fun _ h => by cases h

theorem blank_cons_iff {part : Part} {p : Phrase} :
    Blank (part :: p) ↔ part = .text "" ∧ Blank p := List.forall_mem_cons

theorem blank_append_iff {p q : Phrase} : Blank (p ++ q) ↔ Blank p ∧ Blank q :=
  List.forall_mem_append

/-- A part that can be written leaves text unless it is empty text. -/
theorem partSaid_eq_empty_iff {part : Part} {x : Piece} (h : b.place part = .ok x) :
    partSaid b part = "" ↔ part = .text "" := by
  have hl : ∀ v : Value, (b.literal v).map Piece.text = .ok x → x.template ≠ "" := by
    intro v hv
    obtain ⟨s, hs, rfl⟩ := map_eq_ok_iff.mp hv
    unfold Binding.literal at hs
    split at hs
    · rename_i hd
      cases hs
      exact Dialect.literal_ne_empty hd
    · cases hs
  unfold partSaid
  rw [h]
  cases part with
  | text s =>
    cases h
    exact ⟨fun h => congrArg Part.text h, fun h => Part.text.inj h⟩
  | failure e => cases h
  | value v =>
    refine iff_of_false ?_ (by simp)
    simp only [Binding.place] at h
    split at h
    · cases h; exact Piece.template_bound_ne_empty _
    · exact hl _ h
  | bound v =>
    refine iff_of_false ?_ (by simp)
    simp only [Binding.place] at h
    split at h
    · exact hl _ h
    · cases h; exact Piece.template_bound_ne_empty _

/-- Every part of the phrase can be written. -/
def Writable (b : Binding) (p : Phrase) : Prop := ∀ part ∈ p, ∃ x, b.place part = .ok x

theorem writable_append_iff {p q : Phrase} :
    Writable b (p ++ q) ↔ Writable b p ∧ Writable b q := List.forall_mem_append

/-- What a draft takes can be written. -/
theorem writable_of_write {p : Phrase} {d d' : Draft} (h : d.write p = (d', none)) :
    Writable d.binding p := by
  induction p generalizing d with
  | nil => exact fun _ h => by cases h
  | cons part p ih =>
    unfold Draft.write at h
    cases hp : d.binding.place part with
    | error e => rw [hp] at h; cases h
    | ok x =>
      rw [hp] at h
      have ih := ih h
      rw [Draft.push_binding] at ih
      exact List.forall_mem_cons.mpr ⟨⟨x, hp⟩, ih⟩

/-- **A phrase that can be written says nothing exactly if it is blank.** -/
theorem said_eq_empty_iff {p : Phrase} (h : Writable b p) : said b p = "" ↔ p.Blank := by
  induction p with
  | nil => exact iff_of_true rfl blank_nil
  | cons part p ih =>
    obtain ⟨⟨x, hx⟩, hp⟩ := List.forall_mem_cons.mp h
    rw [said_cons, String.append_eq_empty_iff, partSaid_eq_empty_iff hx, ih hp, blank_cons_iff]

end Phrase
end SqlWeave
