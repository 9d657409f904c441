import SqlWeave.Proofs.Said
import SqlWeave.Proofs.Template.Views
import SqlWeave.Proofs.Template.Word

/-!
# Hyphens and comments

Two hyphens side by side outside of quotes begin a comment, and what stands behind them on their
line is lost. Numbers are written in place, a negative one with a hyphen in front. So a template
without comments may get one: where a hyphen stands right before the place of a negative number.

`Template.Reader` reads a text one character at a time and looks for such hyphens. A number takes a
reader where the question mark takes it that stands for the number in the template, so the text that
is written and the template are read side by side.

Results:
* `comments_iff`: the reader finds what `Template.Commented` says.
* `after_intText`, `comments_intText`: how a number is read.
* **`commented_iff`**: a fragment whose values are whole numbers is written with a comment exactly if
  its template has one or a hyphen stands before a negative number.
-/

namespace SqlWeave

open Number

/-! ## Comments -/

/-- A list is cut at its head or behind it. -/
theorem exists_cut_cons {α : Type} {P : List α → α → Prop} {x : α} {xs : List α} :
    (∃ before a after, x :: xs = before ++ a :: after ∧ P before a) ↔
      P [] x ∨ ∃ before a after, xs = before ++ a :: after ∧ P (x :: before) a := by
  constructor
  · rintro ⟨before, a, after, h, ha⟩
    cases before with
    | nil =>
      cases h
      exact .inl ha
    | cons y before =>
      cases h
      exact .inr ⟨before, a, after, rfl, ha⟩
  · rintro (h | ⟨before, a, after, rfl, ha⟩)
    · exact ⟨[], x, xs, rfl, h⟩
    · exact ⟨x :: before, a, after, rfl, ha⟩

namespace Template

/-- The characters end with a hyphen outside of quotes. -/
def Trails (cs : List Char) : Prop := cs.getLast? = some '-' ∧ Place.after .outside cs = .outside

/-- Two hyphens stand side by side outside of quotes. -/
def Commented (s : String) : Prop :=
  ∃ before after, s.toList = before ++ '-' :: after ∧ Trails before

/-- Where a reader stands, and whether right behind a hyphen outside of quotes. -/
structure Reader where
  place : Place := .outside
  dashed : Bool := false

namespace Reader

/-- The reader behind a character. -/
def next (r : Reader) (c : Char) : Reader :=
  ⟨r.place.next c, decide (c = '-' ∧ r.place.next c = .outside)⟩

/-- The reader behind a text. -/
def after (r : Reader) (cs : List Char) : Reader := cs.foldl next r

/-- The reader comes upon a comment. -/
def comments (r : Reader) : List Char → Bool
  | [] => false
  | c :: cs => (r.dashed && c = '-') || (r.next c).comments cs

theorem after_append (r : Reader) (cs ds : List Char) :
    r.after (cs ++ ds) = (r.after cs).after ds := List.foldl_append

theorem comments_append (r : Reader) (cs ds : List Char) :
    r.comments (cs ++ ds) = (r.comments cs || (r.after cs).comments ds) := by
  induction cs generalizing r with
  | nil => rfl
  | cons c cs ih =>
    rw [List.cons_append, comments, comments, ih, Bool.or_assoc]
    rfl

theorem place_after (r : Reader) (cs : List Char) : (r.after cs).place = r.place.after cs := by
  induction cs generalizing r with
  | nil => rfl
  | cons c cs ih => exact ih (r.next c)

/-- The reader remembers the hyphen at the end of what was read. -/
theorem dashed_after_iff (cs : List Char) :
    (after {} cs).dashed = true ↔ Trails cs := by
  unfold Trails
  rcases List.eq_nil_or_concat' cs with rfl | ⟨cs, c, rfl⟩
  · simp [after]
  · have hp := place_after {} cs
    rw [after_append, Place.after_append, List.getLast?_concat, ← hp]
    simp [after, next, Place.after]

theorem comments_iff_exists (r : Reader) (cs : List Char) :
    r.comments cs = true ↔
      ∃ before c after, cs = before ++ c :: after ∧ (r.after before).dashed = true ∧ c = '-' := by
  induction cs generalizing r with
  | nil => simp [comments]
  | cons c cs ih =>
    rw [exists_cut_cons, comments, Bool.or_eq_true, ih, Bool.and_eq_true, decide_eq_true_iff]
    rfl

end Reader

/-- **A reader finds the comments of a text.** -/
theorem comments_iff (s : String) : Reader.comments {} s.toList = true ↔ Commented s := by
  rw [Reader.comments_iff_exists]
  constructor
  · rintro ⟨before, c, after, h, hd, rfl⟩
    exact ⟨before, after, h, (Reader.dashed_after_iff before).mp hd⟩
  · rintro ⟨before, after, h, hd⟩
    exact ⟨before, _, after, h, (Reader.dashed_after_iff before).mpr hd, rfl⟩

instance (s : String) : Decidable (Commented s) := decidable_of_iff _ (comments_iff s)

/-! ## Digits -/

/-- A character that neither opens nor closes quotes. -/
def isInert (c : Char) : Bool := (closing? c).isNone && !isClosing c

theorem isInert_of_isDigit {c : Char} (h : c.isDigit = true) : isInert c = true := by
  have hne : ∀ x : Char, x.isDigit = false → ¬ c = x := by
    rintro x hx rfl
    rw [hx] at h
    cases h
  simp [isInert, isClosing, closing?, hne '\'' rfl, hne '"' rfl, hne '\x60' rfl, hne '[' rfl,
    hne ']' rfl]

namespace Place

/-- A place that a reader comes to: its quotes are closed by a character that closes quotes. -/
def Reached : Place → Prop
  | outside => True
  | inside q | behind q => isClosing q = true

/-- The place once it is known that quotes are not closed twice. -/
def rest : Place → Place
  | behind _ => outside
  | p => p

theorem reached_within (c : Char) : (within (closing? c)).Reached := by
  unfold closing?
  split
  · rename_i h
    rcases h with rfl | rfl | rfl <;> rfl
  · split <;> trivial

theorem Reached.next {p : Place} (h : p.Reached) (c : Char) : (p.next c).Reached := by
  cases p with
  | outside => exact reached_within c
  | inside q =>
    by_cases hc : c = q
    · rw [Place.next, if_pos hc]
      exact h
    · rw [Place.next, if_neg hc]
      exact h
  | behind q =>
    by_cases hc : c = q
    · rw [Place.next, if_pos hc]
      exact h
    · rw [Place.next, if_neg hc]
      exact reached_within c

theorem Reached.after {p : Place} (h : p.Reached) (cs : List Char) : (p.after cs).Reached := by
  induction cs generalizing p with
  | nil => exact h
  | cons c cs ih => exact ih (h.next c)

theorem Reached.rest {p : Place} (h : p.Reached) : p.rest.Reached := by
  cases p with
  | behind q => trivial
  | outside | inside q => exact h

theorem rest_rest (p : Place) : p.rest.rest = p.rest := by cases p <;> rfl

theorem next_of_isInert {p : Place} (h : p.Reached) {c : Char} (hc : isInert c = true) :
    p.next c = p.rest := by
  rw [isInert, Bool.and_eq_true, Option.isNone_iff_eq_none, Bool.not_eq_true'] at hc
  have hne : ∀ q, isClosing q = true → c ≠ q := by
    rintro q hq rfl
    rw [hc.2] at hq
    cases hq
  cases p with
  | outside => rw [Place.next, hc.1]; rfl
  | inside q => exact if_neg (hne q h)
  | behind q => rw [Place.next, if_neg (hne q h), hc.1]; rfl

end Place

/-- Some characters, none of which opens or closes quotes or is a hyphen. -/
structure Mute (cs : List Char) : Prop where
  nonempty : cs ≠ []
  inert : ∀ c ∈ cs, isInert c = true
  no_hyphen : ∀ c ∈ cs, c ≠ '-'

theorem mute_mark : Mute ['?'] where
  nonempty := List.cons_ne_nil _ _
  inert := by simp [isInert, isClosing, closing?]
  no_hyphen := by simp

theorem mute_toDigits (n : Nat) : Mute (Nat.toDigits 10 n) where
  nonempty := Nat.toDigits_ne_nil
  inert c hc := isInert_of_isDigit (Nat.isDigit_of_mem_toDigits (by omega) (by omega) hc)
  no_hyphen c hc := by
    rintro rfl
    have hd := Nat.isDigit_of_mem_toDigits (by omega) (by omega) hc
    cases hd

namespace Reader

variable {r : Reader}

theorem after_of_mute {cs : List Char} (h : Mute cs) (hr : r.place.Reached) :
    r.after cs = ⟨r.place.rest, false⟩ := by
  obtain ⟨hn, hi, hh⟩ := h
  induction cs generalizing r with
  | nil => exact absurd rfl hn
  | cons c cs ih =>
    obtain ⟨hc, hi⟩ := List.forall_mem_cons.mp hi
    obtain ⟨hd, hh⟩ := List.forall_mem_cons.mp hh
    have hx : r.next c = ⟨r.place.rest, false⟩ := by
      rw [next, Place.next_of_isInert hr hc]
      simp [hd]
    rw [after, List.foldl_cons, hx]
    cases cs with
    | nil => rfl
    | cons d cs =>
      have h := ih (r := ⟨r.place.rest, false⟩) hr.rest (List.cons_ne_nil _ _) hi hh
      rw [Place.rest_rest] at h
      exact h

theorem comments_of_mute {cs : List Char} (h : Mute cs) : r.comments cs = false := by
  have hh := h.no_hyphen
  clear h
  induction cs generalizing r with
  | nil => rfl
  | cons c cs ih =>
    obtain ⟨hd, hh⟩ := List.forall_mem_cons.mp hh
    rw [comments, ih hh]
    simp [hd]

/-- The characters of a number: a hyphen if it is negative, and digits. -/
theorem exists_toList_intText (n : Int) : ∃ ds, Mute ds ∧
    (intText n).toList = if n < 0 then '-' :: ds else ds := by
  cases n with
  | ofNat n =>
    refine ⟨_, mute_toDigits n, ?_⟩
    rw [if_neg (by simp), intText, natText, String.toList_ofList]
  | negSucc n =>
    refine ⟨_, mute_toDigits (n + 1), ?_⟩
    rw [if_pos (Int.negSucc_lt_zero n), intText, natText, String.toList_append]
    simp

/-- **A number takes a reader where its question mark does.** -/
theorem after_intText (n : Int) (hr : r.place.Reached) :
    r.after (intText n).toList = r.after ['?'] := by
  obtain ⟨ds, hds, h⟩ := exists_toList_intText n
  rw [after_of_mute mute_mark hr, h]
  split
  · have hx : (r.next '-').place = r.place.rest := Place.next_of_isInert hr (by decide)
    have ha := after_of_mute hds (r := r.next '-') (hx ▸ hr.rest)
    rw [hx, Place.rest_rest] at ha
    exact ha
  · exact after_of_mute hds hr

/-- **A number begins a comment exactly if it is negative and stands right behind a hyphen.** -/
theorem comments_intText (n : Int) :
    r.comments (intText n).toList = (r.dashed && decide (n < 0)) := by
  obtain ⟨ds, hds, h⟩ := exists_toList_intText n
  rw [h]
  split
  · rename_i hn
    rw [comments, comments_of_mute hds]
    simp [hn]
  · rename_i hn
    rw [comments_of_mute hds]
    simp [hn]

end Reader
end Template

/-! ## Fragments -/

/-- The piece is a negative number. -/
def Piece.Negative (p : Piece) : Prop := ∃ n : Int, p = .bound (.int n) ∧ n < 0

/-- A hyphen outside of quotes stands right before the place of a negative number. -/
def Expression.Clashes (e : Expression) : Prop :=
  ∃ before p after, e.leaves = before ++ p :: after ∧
    Template.Trails (before.flatMap fun x => x.template.toList) ∧ p.Negative

namespace Piece

/-- A leaf with its number in place. -/
def numbered : Piece → Piece
  | bound (.int n) => text (intText n)
  | p => p

/-- The piece is text or a whole number. -/
def Plain : Piece → Prop
  | text _ | bound (.int _) => True
  | _ => False

theorem toList_template_bound (v : Value) : (bound v).template.toList = ['?'] := by
  simp [template]

open Template in
/-- The numbers in the text of leaves begin comments exactly behind hyphens. -/
theorem comments_numbered {ps : List Piece} (hps : ∀ p ∈ ps, p.Plain) :
    ∀ {r : Reader}, r.place.Reached →
      (r.comments (ps.flatMap fun x => x.numbered.template.toList) = true ↔
        r.comments (ps.flatMap fun x => x.template.toList) = true ∨
        ∃ before p after, ps = before ++ p :: after ∧
          (r.after (before.flatMap fun x => x.template.toList)).dashed = true ∧ p.Negative) := by
  induction ps with
  | nil => simp
  | cons p ps ih =>
    intro r hr
    obtain ⟨hp, hps⟩ := List.forall_mem_cons.mp hps
    have hr' : (r.after p.template.toList).place.Reached := by
      rw [Reader.place_after]
      exact hr.after _
    -- both readers stand at one place behind the leaf
    have ha : r.after p.numbered.template.toList = r.after p.template.toList := by
      cases p with
      | text s => rfl
      | nested inner => cases hp
      | bound v =>
        cases v with
        | int n =>
          rw [toList_template_bound]
          exact Reader.after_intText n hr
        | _ => cases hp
    have hc : r.comments p.numbered.template.toList = true ↔
        r.comments p.template.toList = true ∨ r.dashed = true ∧ p.Negative := by
      cases p with
      | text s => simp [numbered, Negative]
      | nested inner => cases hp
      | bound v =>
        cases v with
        | int n =>
          have hm : r.comments (bound (.int n)).template.toList = false := by
            rw [toList_template_bound]
            exact Reader.comments_of_mute mute_mark
          have hn : r.comments (bound (.int n)).numbered.template.toList =
              (r.dashed && decide (n < 0)) := Reader.comments_intText n
          rw [hm, hn]
          simp [Negative]
        | _ => cases hp
    rw [exists_cut_cons, List.flatMap_cons, List.flatMap_cons, Reader.comments_append,
      Reader.comments_append, Bool.or_eq_true, Bool.or_eq_true, ha, hc, ih hps hr']
    simp only [List.flatMap_cons, Reader.after_append, List.flatMap_nil]
    exact or_or_or_comm

theorem mem_values_of_bound_mem {v : Value} {ps : List Piece} (h : bound v ∈ ps) :
    v ∈ values ps := by
  induction ps with
  | nil => cases h
  | cons p ps ih =>
    rcases List.mem_cons.mp h with rfl | hm
    · exact List.mem_cons_self
    · cases p with
      | bound w => exact List.mem_cons_of_mem _ (ih hm)
      | text s => exact ih hm
      | nested inner => exact ih hm

end Piece

theorem Expression.plain_of_mem_leaves {e : Expression} (h : ∀ v ∈ e.values, ∃ n, v = .int n) :
    ∀ p ∈ e.leaves, p.Plain := by
  intro p hp
  cases p with
  | text s => trivial
  | nested inner => exact absurd rfl (e.ne_nested_of_mem_leaves _ hp inner)
  | bound v =>
    obtain ⟨n, rfl⟩ := h v (Piece.mem_values_of_bound_mem hp)
    trivial

section

variable {b : Binding} (hb : ∀ n, b.intercept (.int n) = .int n)

include hb

/-- A whole number stands in place, whether other values are bound or not. -/
theorem Binding.place_int (n : Int) : b.place (.value (.int n)) = .ok (.text (intText n)) := by
  have hn : b.binds (.int n) = false := rfl
  rw [place, hb, hn]
  rfl

/-- Leaves that are text and whole numbers can be written. -/
theorem Phrase.written_leaves {ps : List Piece} (hps : ∀ p ∈ ps, p.Plain) :
    written b (ps.flatMap ofLeaf) = .ok (ps.map Piece.numbered) := by
  induction ps with
  | nil => rfl
  | cons p ps ih =>
    obtain ⟨hp, hr⟩ := List.forall_mem_cons.mp hps
    rw [List.flatMap_cons, List.map_cons]
    cases p with
    | nested inner => cases hp
    | text s =>
      rw [ofLeaf, List.singleton_append, written_text, ih hr]
      rfl
    | bound v =>
      cases v with
      | int n =>
        rw [ofLeaf, List.singleton_append, written_cons, Binding.place_int hb, ih hr]
        rfl
      | _ => cases hp

end

open Template in
/-- **Numbers begin comments behind hyphens and nowhere else.** A fragment whose values are whole
numbers is always written. What is written has two hyphens side by side outside of quotes exactly if
the template has, or if a hyphen outside of quotes stands right before a negative number. -/
theorem commented_iff (c : Config) (inPlace : Bool) {e : Expression}
    (h : ∀ v ∈ e.values, ∃ n, v = .int n) :
    ∃ d, Draft.write { binding := { Binding.ofConfig c with inPlace := inPlace } }
        (.ofExpression e) = (d, none) ∧
      (Commented d.text ↔ Commented e.text ∨ e.Clashes) := by
  have hp := e.plain_of_mem_leaves h
  have hb : ∀ n, { Binding.ofConfig c with inPlace := inPlace }.intercept (.int n) = .int n :=
    fun n => c.intercept_isNumeric rfl
  have hw := Phrase.written_leaves hb hp
  have hd := Phrase.write_of_written
    (d := { binding := { Binding.ofConfig c with inPlace := inPlace } }) hw
  refine ⟨_, hd, ?_⟩
  have ht := Phrase.text_write hd
  rw [Phrase.said_of_written hw] at ht
  have hr := Piece.comments_numbered hp (r := {}) trivial
  rw [← comments_iff, ← comments_iff, ht, Expression.text, String.toList_append,
    String.toList_join, String.toList_join, List.map_map, List.flatMap_map, List.flatMap_map]
  simp only [Reader.dashed_after_iff] at hr
  exact hr

/-- `[A] -?` with the number -1 -/
def lessMinusOne : Expression := .new "[A] -?" [.value (.int (-1))]

theorem commented_iff_lessMinusOne :
    (∀ v ∈ lessMinusOne.values, ∃ n, v = .int n) ∧
      ∃ d, Draft.write { binding := { Binding.ofConfig (.new .mysql) with inPlace := true } }
          (.ofExpression lessMinusOne) = (d, none) ∧
        (Template.Commented d.text ↔
          Template.Commented lessMinusOne.text ∨ lessMinusOne.Clashes) := by
  have h : ∀ v ∈ lessMinusOne.values, ∃ n, v = .int n := by
    intro v hv
    exact ⟨-1, List.mem_singleton.mp hv⟩
  exact ⟨h, commented_iff (.new .mysql) true h⟩

/-- Minus one begins a comment behind a hyphen: the template has none, and what stands behind the
number is lost. -/
theorem lessMinusOne_commented :
    Expression.ofTemplate? "[A] -?" [.value (.int (-1))] = .ok lessMinusOne ∧
      ¬ Template.Commented lessMinusOne.text ∧
      ∃ d, Draft.write { binding := .ofConfig (.new .sqlServer) } (.ofExpression lessMinusOne) =
          (d, none) ∧
        d.text = "[A] --1" ∧ Template.Commented d.text := by
  refine ⟨by rfl, by decide, _, rfl, by decide, by decide⟩

end SqlWeave
