import SqlWeave.Proofs.Logic.Meaning
import SqlWeave.Proofs.Said
import SqlWeave.Proofs.Template.Views
import SqlWeave.Query.Clause

/-!
# Conditions that are written as nothing

A clause is left out where its conditions are empty, and so are the word that joins a condition and
the `NOT` in front of it. Whether a condition is empty is asked of its outer fragment, which counts
a place as text. A place for a fragment without text is therefore written, as nothing: the condition
is *hollow*. Among several conditions a hollow one leaves a word without an operand; alone it makes
the whole list hollow.

Results:
* `blank_iff`: a condition has no text iff it is empty or hollow.
* **`writes_nothing_iff`**: a draft that takes a condition stays as it is exactly if the condition
  is empty, unless it is hollow; and clauses, words and `NOT` stand around nothing exactly where
  a condition is hollow.
-/

namespace SqlWeave

namespace Condition

/-! ## Hollow conditions -/

mutual

/-- The condition counts as written and has no text: a fragment with places for fragments without
text, or a list in which such a condition alone counts as written. -/
def hollow : Condition → Bool
  | and items => soleHollow items
  | or items => soleHollow items
  | expression e => !e.isEmpty && e.text = ""
  | _ => false

/-- One condition of a list counts as written, and it is hollow. -/
def soleHollow : List Condition → Bool
  | [] => false
  | c :: rest => if c.isEmpty then soleHollow rest else hollow c && allEmpty rest

end

theorem soleHollow_iff {items : List Condition} :
    soleHollow items = true ↔ ∃ c, written items = [c] ∧ c.hollow = true := by
  unfold written
  induction items with
  | nil => exact iff_of_false (by simp [soleHollow]) (by simp)
  | cons c rest ih =>
    rw [soleHollow, List.filter_cons]
    cases he : c.isEmpty with
    | true => simpa using ih
    | false =>
      have hw : (!false) = true := rfl
      rw [if_neg (by simp), if_pos hw, Bool.and_eq_true, allEmpty_eq]
      constructor
      · rintro ⟨hc, hr⟩
        refine ⟨c, ?_, hc⟩
        rw [List.cons.injEq, List.filter_eq_nil_iff]
        exact ⟨rfl, fun a ha => by simp [List.all_eq_true.mp hr a ha]⟩
      · rintro ⟨a, ha, hc⟩
        obtain ⟨rfl, hr⟩ := List.cons.inj ha
        rw [List.filter_eq_nil_iff] at hr
        exact ⟨hc, List.all_eq_true.mpr fun a ha => by simpa using hr a ha⟩

theorem hollow_list (word : Connective) (items : List Condition) :
    (list word items).hollow = soleHollow items := by
  cases word <;> exact hollow.eq_def _

/-- What is hollow counts as written. -/
theorem isEmpty_of_hollow (c : Condition) : c.hollow = true → c.isEmpty = false := by
  induction c using forall_of_tree with
  | leaf c h =>
    intro hc
    cases c with
    | expression e =>
      unfold hollow at hc
      rw [Bool.and_eq_true, Bool.not_eq_true'] at hc
      exact hc.1
    | and | or | not => cases h
    | compare | nullCheck | inList | inExpression | between | always | never => cases hc
  | list word items ih =>
    intro hc
    rw [hollow_list, soleHollow_iff] at hc
    obtain ⟨c, hw, -⟩ := hc
    obtain ⟨hm, he⟩ := List.mem_filter.mp (hw ▸ List.mem_singleton_self c : c ∈ written items)
    rw [isEmpty_list, List.all_eq_false]
    exact ⟨c, hm, by simpa using he⟩
  | not c _ => exact fun h => by cases h

/-! ## Blank phrases -/

theorem blank_leaves_iff {ps : List Piece} (hn : ∀ p ∈ ps, ∀ inner, p ≠ .nested inner) :
    Phrase.Blank (ps.flatMap Phrase.ofLeaf) ↔ String.join (ps.map Piece.template) = "" := by
  induction ps with
  | nil => exact iff_of_true Phrase.blank_nil rfl
  | cons p ps ih =>
    obtain ⟨hp, hps⟩ := List.forall_mem_cons.mp hn
    rw [List.flatMap_cons, Phrase.blank_append_iff, List.map_cons, String.join_cons,
      String.append_eq_empty_iff]
    refine and_congr ?_ (ih hps)
    cases p with
    | text s =>
      rw [Phrase.ofLeaf, Phrase.blank_cons_iff]
      exact ⟨fun h => Part.text.inj h.1, fun h => ⟨congrArg Part.text h, Phrase.blank_nil⟩⟩
    | bound v =>
      refine iff_of_false (fun h => ?_) (Piece.template_bound_ne_empty v)
      cases (Phrase.blank_cons_iff.mp h).1
    | nested inner => exact absurd rfl (hp inner)

/-- A fragment in a statement is blank exactly if no text is left of it. -/
theorem blank_ofExpression_iff (e : Expression) :
    (Phrase.ofExpression e).Blank ↔ e.text = "" := blank_leaves_iff e.ne_nested_of_mem_leaves

theorem blank_enclosed_iff {parens : Bool} {p : Phrase} :
    (enclosed parens p).Blank ↔ parens = false ∧ p.Blank := by
  cases parens with
  | false => simp [enclosed]
  | true =>
    refine iff_of_false ?_ (by simp)
    intro h
    exact absurd (Part.text.inj (Phrase.blank_cons_iff.mp h).1) (by decide)

theorem blank_joinedPhrases_iff {ps : List (Connective × Phrase)} :
    (joinedPhrases ps).Blank ↔ ps = [] ∨ ∃ word p, ps = [(word, p)] ∧ p.Blank := by
  unfold joinedPhrases
  rcases ps with - | ⟨⟨word, p⟩, - | ⟨⟨word', q⟩, ps⟩⟩
  · simp [Phrase.blank_nil]
  · simp
  · refine iff_of_false ?_ (by simp)
    intro h
    simp only [List.flatMap_cons, List.cons_append, List.drop_succ_cons, List.drop_zero] at h
    have hw := (Phrase.blank_cons_iff.mp (Phrase.blank_append_iff.mp h).2).1
    exact absurd (Part.text.inj hw) (by cases word' <;> decide)

theorem not_blank_of_mem {p : Phrase} {t : String} (h : .text t ∈ p) (ht : t ≠ "") : ¬ p.Blank :=
  fun hb => ht (Part.text.inj (hb _ h))

/-- A leaf that is no fragment has text. -/
theorem blank_iff_of_isLeaf (s : Scope) {c : Condition} (h : c.isLeaf = true) :
    (c.phrase s).Blank ↔ c.isEmpty = true ∨ c.hollow = true := by
  have hnull : ∀ isNull, nullTest isNull ≠ "" := by decide
  have hop : ∀ negated op, operator negated op ≠ "" := fun negated op he => by
    have := (String.append_eq_empty_iff.mp he).1
    cases negated <;> exact absurd this (by decide)
  cases c with
  | and | or | not => cases h
  | expression e =>
    rw [phrase, blank_ofExpression_iff, isEmpty, hollow, Bool.and_eq_true, Bool.not_eq_true',
      decide_eq_true_eq]
    constructor
    · intro ht
      cases he : e.isEmpty with
      | true => exact .inl rfl
      | false => exact .inr ⟨rfl, ht⟩
    · rintro (he | ⟨-, ht⟩)
      · exact of_decide_eq_true (isEmpty_leaf_textless (c := expression e) rfl he)
      · exact ht
  | compare left op right =>
    refine iff_of_false ?_ (by simp [isEmpty, hollow])
    rw [phrase]
    split
    · exact not_blank_of_mem (List.mem_append_right _ List.mem_cons_self) (hnull _)
    · exact not_blank_of_mem (t := " ") (by simp) (by decide)
  | nullCheck operand isNull =>
    refine iff_of_false ?_ (by simp [isEmpty, hollow])
    exact not_blank_of_mem (List.mem_append_right _ List.mem_cons_self) (hnull isNull)
  | inList operand values negated =>
    refine iff_of_false ?_ (by simp [isEmpty, hollow])
    rw [phrase]
    split
    · exact not_blank_of_mem List.mem_cons_self (by cases negated <;> decide)
    · exact not_blank_of_mem (t := operator negated "IN (") (by simp) (hop _ _)
  | inExpression operand e negated =>
    refine iff_of_false ?_ (by simp [isEmpty, hollow])
    exact not_blank_of_mem (t := operator negated "IN (") (by simp [phrase]) (hop _ _)
  | between operand low high negated =>
    refine iff_of_false ?_ (by simp [isEmpty, hollow])
    exact not_blank_of_mem (t := operator negated "BETWEEN ") (by simp [phrase]) (hop _ _)
  | always => exact iff_of_false (not_blank_of_mem List.mem_cons_self (by decide)) (by decide)
  | never => exact iff_of_false (not_blank_of_mem List.mem_cons_self (by decide)) (by decide)

/-- A hollow condition stands without parentheses: of its own conditions one at most counts as
written. -/
theorem needsParens_of_hollow (c : Condition) : c.hollow = true → c.needsParens = false := by
  induction c using forall_of_tree with
  | leaf c h => exact fun _ => needsParens_leaf h
  | list word items _ =>
    intro h
    rw [hollow_list, soleHollow_iff] at h
    obtain ⟨c, hw, -⟩ := h
    rw [needsParens_list, hw]
    rfl
  | not c _ => exact fun _ => rfl

end Condition

/-! ## From conditions to groups -/

namespace ConditionGroup

/-- One condition of the group counts as written, and it is hollow. -/
def hollow (g : ConditionGroup) : Bool := Condition.soleHollow (g.map Prod.snd)

variable {g : ConditionGroup}

theorem hollow_iff : g.hollow = true ↔ ∃ i, g.written = [i] ∧ i.2.hollow = true := by
  have hw : Condition.written (g.map Prod.snd) = g.written.map Prod.snd := List.filter_map
  rw [hollow, Condition.soleHollow_iff, hw]
  constructor
  · rintro ⟨c, hc, hh⟩
    obtain ⟨i, hi, rfl⟩ := List.map_eq_singleton_iff.mp hc
    exact ⟨i, hi, hh⟩
  · rintro ⟨i, hi, hh⟩
    exact ⟨i.2, by rw [hi]; rfl, hh⟩

theorem isEmpty_iff : g.isEmpty = true ↔ g.written = [] := by
  unfold isEmpty written
  rw [List.filter_eq_nil_iff, List.all_eq_true]
  simp

theorem isEmpty_of_hollow (h : g.hollow = true) : g.isEmpty = false := by
  obtain ⟨i, hi, -⟩ := hollow_iff.mp h
  rw [Bool.eq_false_iff, Ne, isEmpty_iff, hi]
  exact List.cons_ne_nil _ _

/-- Words stand between operands with text, so nothing but one hollow condition makes a group
hollow. -/
theorem blank_iff_of_conditions (s : Scope)
    (hb : ∀ i ∈ g, (i.2.phrase s).Blank ↔ i.2.isEmpty = true ∨ i.2.hollow = true) :
    (g.phrase s).Blank ↔ g.isEmpty = true ∨ g.hollow = true := by
  have hw : ∀ i ∈ g.written, (i.2.phrase s).Blank ↔ i.2.hollow = true := by
    intro i hi
    obtain ⟨hm, he⟩ := List.mem_filter.mp hi
    have hn : ¬ i.2.isEmpty = true := by simpa using he
    rw [hb i hm, or_iff_right hn]
  rw [phrase_eq_joinedPhrases, Condition.blank_joinedPhrases_iff, List.map_eq_nil_iff, isEmpty_iff,
    hollow_iff]
  refine or_congr_right ?_
  constructor
  · rintro ⟨word, p, hg, hp⟩
    obtain ⟨i, hi, he⟩ := List.map_eq_singleton_iff.mp hg
    obtain ⟨rfl, rfl⟩ := Prod.mk.inj he
    exact ⟨i, hi, (hw i (hi ▸ List.mem_singleton_self i)).mp
      (Condition.blank_enclosed_iff.mp hp).2⟩
  · rintro ⟨i, hi, hh⟩
    have hp := (hw i (hi ▸ List.mem_singleton_self i)).mpr hh
    exact ⟨i.1, _, by rw [hi]; rfl,
      Condition.blank_enclosed_iff.mpr ⟨i.2.needsParens_of_hollow hh, hp⟩⟩

end ConditionGroup

namespace Condition

section

variable (word : Connective) (items : List Condition)

/-- A list is written like the group that joins its conditions by its word. -/
theorem phrase_grouped (s : Scope) :
    (list word items).phrase s = (grouped word items).phrase s := by
  have ho : ∀ items : List Condition, (operands s items).map (fun p => (word, p)) =
      (grouped word items).written.map
        fun i => (i.1, enclosed i.2.needsParens (i.2.phrase s)) := by
    intro items
    unfold grouped ConditionGroup.written
    induction items with
    | nil => rfl
    | cons c rest ih =>
      rw [operands, List.map_cons, List.filter_cons]
      cases c.isEmpty with
      | true => exact ih
      | false => exact congrArg (_ :: ·) ih
  have hp : (list word items).phrase s = Phrase.join word.text (operands s items) := by
    cases word <;> exact phrase.eq_def s _
  rw [hp, join_eq_joinedPhrases, ho, ConditionGroup.phrase_eq_joinedPhrases]

theorem isEmpty_grouped : (list word items).isEmpty = (grouped word items).isEmpty := by
  rw [isEmpty_list, ConditionGroup.isEmpty, grouped, List.all_map]
  rfl

theorem hollow_grouped : (list word items).hollow = (grouped word items).hollow := by
  rw [hollow_list, ConditionGroup.hollow, grouped, List.map_map]
  exact congrArg soleHollow (List.map_id _).symm

end

/-- **A condition has no text exactly if it is empty or hollow.** -/
theorem blank_iff (s : Scope) (c : Condition) :
    (c.phrase s).Blank ↔ c.isEmpty = true ∨ c.hollow = true := by
  induction c using forall_of_tree with
  | leaf c h => exact blank_iff_of_isLeaf s h
  | list word items ih =>
    rw [phrase_grouped, isEmpty_grouped, hollow_grouped]
    refine ConditionGroup.blank_iff_of_conditions s fun i hi => ?_
    obtain ⟨c, hc, rfl⟩ := List.mem_map.mp hi
    exact ih c hc
  | not c _ =>
    cases he : c.isEmpty with
    | true =>
      refine iff_of_true ?_ (.inl ?_)
      · rw [phrase, if_pos he]
        exact Phrase.blank_nil
      · rw [isEmpty_not, he]
    | false =>
      refine iff_of_false ?_ (by simp [isEmpty_not, he, hollow])
      rw [phrase, if_neg (by simp [he])]
      exact not_blank_of_mem List.mem_cons_self (by decide)

/-- What is written for a condition among others: its text, in parentheses where they are needed. -/
def operandSaid (b : Binding) (s : Scope) (c : Condition) : String :=
  (enclosed c.needsParens (c.phrase s)).said b

end Condition

/-- **A group has no text exactly if it is empty or hollow.** -/
theorem ConditionGroup.blank_iff (s : Scope) (g : ConditionGroup) :
    (g.phrase s).Blank ↔ g.isEmpty = true ∨ g.hollow = true :=
  blank_iff_of_conditions s fun i _ => i.2.blank_iff s

/-! ## What a draft takes -/

section

variable {b : Binding} {d d' : Draft} {p : Phrase}

/-- Unless something is hollow, nothing but what is empty leaves a draft as it is. -/
theorem unchanged_iff {empty hollow : Bool} (h : d.write p = (d', none))
    (hb : p.Blank ↔ empty = true ∨ hollow = true) (hh : hollow = true → empty = false) :
    (d'.text = d.text ↔ empty = true) ↔ hollow = false := by
  have hs := Phrase.said_eq_empty_iff (Phrase.writable_of_write h)
  rw [Phrase.text_write h, String.append_eq_left_iff, hs, hb]
  cases hollow with
  | false => simp
  | true => simp [hh rfl]

/-- A word that opens a clause is all of it exactly if it is written and what it opens is blank. -/
theorem said_onlyIf_eq_iff {holds : Bool} {word : String} (hne : word ≠ "")
    (h : (Phrase.onlyIf holds (.text word :: p)).Writable b) :
    (Phrase.onlyIf holds (.text word :: p)).said b = word ↔ holds = true ∧ p.Blank := by
  cases holds with
  | false => exact iff_of_false (fun he => hne he.symm) (by simp)
  | true =>
    have hp : p.Writable b := (List.forall_mem_cons.mp h).2
    have hs : (Phrase.onlyIf true (.text word :: p)).said b = word ++ p.said b :=
      Phrase.said_text_cons word p
    rw [hs, String.append_eq_left_iff, Phrase.said_eq_empty_iff hp]
    simp

end

/-- Texts, each behind its word, the first word left out. -/
def joinedTexts : List (Connective × String) → String
  | [] => ""
  | u :: rest => u.2 ++ String.join (rest.map fun v => v.1.text ++ v.2)

theorem said_joinedPhrases (b : Binding) (ps : List (Connective × Phrase)) :
    (Condition.joinedPhrases ps).said b = joinedTexts (ps.map fun p => (p.1, p.2.said b)) := by
  unfold Condition.joinedPhrases
  have hf : ∀ ps : List (Connective × Phrase),
      Phrase.said b (ps.flatMap fun p => .text p.1.text :: p.2) =
        String.join (ps.map fun p => p.1.text ++ p.2.said b) := by
    intro ps
    induction ps with
    | nil => rfl
    | cons p ps ih =>
      rw [List.flatMap_cons, Phrase.said_append, Phrase.said_text_cons, ih, List.map_cons,
        String.join_cons]
  cases ps with
  | nil => rfl
  | cons p ps =>
    rw [List.flatMap_cons, List.cons_append, List.drop_succ_cons, List.drop_zero,
      Phrase.said_append, hf, List.map_cons, joinedTexts, List.map_map]
    rfl

/-- The operands of a group can be written if the group can. -/
theorem ConditionGroup.writable_operand {s : Scope} {b : Binding} {g : ConditionGroup}
    (h : (g.phrase s).Writable b) {i : Connective × Condition} (hi : i ∈ g.written) :
    (Condition.enclosed i.2.needsParens (i.2.phrase s)).Writable b := by
  obtain ⟨before, behind, hg⟩ := List.append_of_mem hi
  rw [phrase_eq_joinedPhrases, hg] at h
  unfold Condition.joinedPhrases at h
  cases before with
  | nil =>
    simp only [List.nil_append, List.map_cons, List.flatMap_cons, List.cons_append,
      List.drop_succ_cons, List.drop_zero] at h
    exact (Phrase.writable_append_iff.mp h).1
  | cons j before =>
    simp only [List.cons_append, List.map_cons, List.map_append, List.flatMap_cons,
      List.flatMap_append, List.drop_succ_cons, List.drop_zero] at h
    have hb := (Phrase.writable_append_iff.mp (Phrase.writable_append_iff.mp h).2).2
    exact (List.forall_mem_cons.mp (Phrase.writable_append_iff.mp hb).1).2

namespace Condition

/-- A condition that is written among others has no text exactly if it is hollow. -/
theorem operandSaid_eq_empty_iff {s : Scope} {b : Binding} {c : Condition}
    (he : c.isEmpty = false) (h : (enclosed c.needsParens (c.phrase s)).Writable b) :
    c.operandSaid b s = "" ↔ c.hollow = true := by
  rw [operandSaid, Phrase.said_eq_empty_iff h, blank_enclosed_iff, c.blank_iff]
  constructor
  · rintro ⟨-, hc | hc⟩
    · rw [he] at hc
      cases hc
    · exact hc
  · exact fun hc => ⟨c.needsParens_of_hollow hc, .inr hc⟩

/-- `NOT` stands in front of nothing exactly if the condition behind it is hollow. -/
theorem not_alone_iff {s : Scope} {c : Condition} {d d' : Draft}
    (h : d.write (c.not.phrase s) = (d', none)) :
    d'.text = d.text ++ "NOT ()" ↔ c.hollow = true := by
  have hw := Phrase.writable_of_write h
  rw [Phrase.text_write h, String.append_right_inj]
  rw [phrase] at hw ⊢
  cases he : c.isEmpty with
  | true =>
    rw [if_pos rfl]
    refine iff_of_false (fun hn => ?_) (fun hc => ?_)
    · have hne : "" ≠ "NOT ()" := by decide
      exact absurd hn hne
    · rw [c.isEmpty_of_hollow hc] at he
      cases he
  | false =>
    rw [he, if_neg (by simp)] at hw
    have hc : (c.phrase s).Writable d.binding :=
      (Phrase.writable_append_iff.mp (List.forall_mem_cons.mp hw).2).1
    have hn : "NOT ()" = "NOT (" ++ ")" := by decide
    have hs : Phrase.said d.binding [.text ")"] = ")" := Phrase.said_text_cons ")" []
    rw [if_neg (by simp), List.cons_append, Phrase.said_text_cons, Phrase.said_append, hs, hn,
      String.append_right_inj, String.append_eq_right_iff, Phrase.said_eq_empty_iff hc,
      c.blank_iff, he]
    simp

end Condition

/-- A group counts as written and is blank exactly if it is hollow. -/
theorem ConditionGroup.written_blank_iff (s : Scope) (g : ConditionGroup) :
    ((!g.isEmpty) = true ∧ (g.phrase s).Blank) ↔ g.hollow = true := by
  rw [g.blank_iff]
  constructor
  · rintro ⟨he, hg | hg⟩
    · rw [hg] at he
      cases he
    · exact hg
  · intro hg
    exact ⟨by rw [isEmpty_of_hollow hg]; rfl, .inr hg⟩

/-- **What a draft takes leaves it as it is exactly if it is empty, unless it is hollow.** A hollow
condition or group is the one thing that counts as written and leaves no text. So a word among the
conditions of a group stands beside nothing, a clause opens without content and `NOT` stands in
front of nothing, exactly where a condition is hollow. -/
theorem writes_nothing_iff (s : Scope) (q : Query) (d d' : Draft) :
    (∀ c : Condition,
      (d.write (c.phrase s) = (d', none) →
        ((d'.text = d.text ↔ c.isEmpty = true) ↔ c.hollow = false)) ∧
      (d.write (c.not.phrase s) = (d', none) →
        (d'.text = d.text ++ "NOT ()" ↔ c.hollow = true))) ∧
    (∀ g : ConditionGroup, d.write (g.phrase s) = (d', none) →
      ((d'.text = d.text ↔ g.isEmpty = true) ↔ g.hollow = false) ∧
      d'.text = d.text ++
        joinedTexts (g.written.map fun i => (i.1, i.2.operandSaid d.binding s)) ∧
      ∀ i ∈ g.written, (i.2.operandSaid d.binding s = "" ↔ i.2.hollow = true)) ∧
    (∀ word items,
      (Condition.list word items).phrase s = (Condition.grouped word items).phrase s) ∧
    (d.write q.filtering = (d', none) →
      (d'.text = d.text ++ " WHERE " ↔ q.filters.hollow = true)) ∧
    (d.write q.groupFiltering = (d', none) →
      (d'.text = d.text ++ " HAVING " ↔ q.having.hollow = true)) ∧
    ∀ j : Join, d.write (q.joining j) = (d', none) →
      (d'.text =
          d.text ++ (" " ++ j.kind.text ++ " " ++ j.table.declared q.dialect ++ " ON ") ↔
        j.kind ≠ .cross ∧ j.on.hollow = true) := by
  refine ⟨fun c => ⟨fun h => ?_, Condition.not_alone_iff⟩, fun g h => ⟨?_, ?_, fun i hi => ?_⟩,
    fun word items => Condition.phrase_grouped word items s, fun h => ?_, fun h => ?_,
    fun j h => ?_⟩
  · exact unchanged_iff h (c.blank_iff s) c.isEmpty_of_hollow
  · exact unchanged_iff h (g.blank_iff s) ConditionGroup.isEmpty_of_hollow
  · rw [Phrase.text_write h, ConditionGroup.phrase_eq_joinedPhrases, said_joinedPhrases,
      List.map_map]
    rfl
  · have he : i.2.isEmpty = false := by simpa using (List.mem_filter.mp hi).2
    have hw := ConditionGroup.writable_operand (Phrase.writable_of_write h) hi
    exact Condition.operandSaid_eq_empty_iff he hw
  · have hs := said_onlyIf_eq_iff (by decide) (Phrase.writable_of_write h)
    rw [Phrase.text_write h, String.append_right_inj, Query.filtering, hs,
      ConditionGroup.written_blank_iff]
  · have hs := said_onlyIf_eq_iff (by decide) (Phrase.writable_of_write h)
    rw [Phrase.text_write h, String.append_right_inj, Query.groupFiltering, hs,
      ConditionGroup.written_blank_iff]
  · have hw := (Phrase.writable_append_iff.mp (Phrase.writable_of_write h)).2
    have hs := said_onlyIf_eq_iff (by decide) hw
    have hj : Phrase.said d.binding [.text " ", .text j.kind.text, .text " ",
        .text (j.table.declared q.dialect)] =
          " " ++ j.kind.text ++ " " ++ j.table.declared q.dialect := by
      simp [String.append_assoc]
    rw [Phrase.text_write h, Query.joining, Phrase.said_append, hj, String.append_right_inj,
      String.append_right_inj, hs, decide_eq_true_eq, and_assoc, ConditionGroup.written_blank_iff]

/-- A place for a fragment without text counts as written, and a draft that takes it stays as it
is. -/
theorem hole_writes_nothing :
    ¬ ∀ (s : Scope) (c : Condition) (d d' : Draft), d.write (c.phrase s) = (d', none) →
      (d'.text = d.text ↔ c.isEmpty = true) := by
  intro h
  have hc := h ⟨.new .sqlServer, ⟨"T", none⟩, false⟩ (.expression (.join [.raw ""] ""))
    { binding := .ofDialect .sqlServer } { binding := .ofDialect .sqlServer } rfl
  exact absurd (hc.mp rfl) (by decide)

end SqlWeave
