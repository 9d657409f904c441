import SqlWeave.Proofs.Logic.Reading
import SqlWeave.Proofs.Writing

/-!
# The tokens and the truth of a condition

A condition is written as a text of truth values whose atoms are its leaves: `tokens` lists the
words, atoms and parentheses, and a phrase of the condition says just them (`phrase_same`). The
`truth` of a condition leaves out what has no text, and is what the tokens should be read as.

A fragment with a place for another fragment may have no text and still count as written, for
`isEmpty` looks at places. Among other conditions, or behind `NOT`, the word of such a leaf is left
without an operand; a condition is `readable` if that happens nowhere.

Results:
* `phrase_same`: the tokens of a condition are what it writes.
* `forall_of_tree`: induction over leaves, lists and negations.
* `truth_eq_none`, `readable_of_isEmpty`: what has no text has no truth, and what is left out is
  readable.
-/

namespace SqlWeave

open Logic

/-- A token in a statement. -/
def Logic.Token.phrase (s : Scope) : Token Condition → Phrase
  | .atom c => c.phrase s
  | .and => [.text Connective.and.text]
  | .or => [.text Connective.or.text]
  | .not => [.text "NOT "]
  | .opening => [.text "("]
  | .closing => [.text ")"]

/-- Tokens in a statement. -/
def Logic.spelled (s : Scope) (ts : List (Token Condition)) : Phrase := ts.flatMap (·.phrase s)

namespace Condition

/-! ## Tokens and truth -/

mutual

/-- The condition has no text, whether or not it counts as written. -/
def textless : Condition → Bool
  | and items => allTextless items
  | or items => allTextless items
  | not inner => textless inner
  | expression e => e.text = ""
  | _ => false

/-- No condition of a list has text. -/
def allTextless : List Condition → Bool
  | [] => true
  | c :: rest => textless c && allTextless rest

end

/-- Tokens in parentheses where they are needed. -/
def enclosedTokens (parens : Bool) (ts : List (Token Condition)) : List (Token Condition) :=
  if parens then .opening :: ts ++ [.closing] else ts

mutual

/-- The tokens that a condition writes. -/
def tokens : Condition → List (Token Condition)
  | and items => joined (units .and items)
  | or items => joined (units .or items)
  | not inner => if inner.isEmpty then [] else .not :: .opening :: tokens inner ++ [.closing]
  | c => if c.textless then [] else [.atom c]

/-- The conditions of a list that count as written, each with the word that joins it. -/
def units (word : Connective) : List Condition → List (Connective × List (Token Condition))
  | [] => []
  | c :: rest =>
    if c.isEmpty then units word rest
    else (word, enclosedTokens c.needsParens (tokens c)) :: units word rest

end

mutual

/-- The truth of a condition whose leaves have a truth, if anything is left of the condition where
what has no text is left out. -/
def truth (v : Condition → Bool) : Condition → Option Bool
  | and items =>
    match truths v items with
    | [] => none
    | bs => some (bs.all id)
  | or items =>
    match truths v items with
    | [] => none
    | bs => some (bs.any id)
  | not inner => (truth v inner).map (!·)
  | c => if c.textless then none else some (v c)

/-- The truths of the conditions of a list. -/
def truths (v : Condition → Bool) : List Condition → List Bool
  | [] => []
  | c :: rest => (truth v c).toList ++ truths v rest

end

mutual

/-- No word that the condition writes lacks an operand: where conditions are joined, and behind
`NOT`, what counts as written has text. -/
def readable : Condition → Bool
  | and items => allReadable items && ((written items).length ≤ 1 || !(written items).any textless)
  | or items => allReadable items && ((written items).length ≤ 1 || !(written items).any textless)
  | not inner => inner.isEmpty || (readable inner && !inner.textless)
  | _ => true

/-- The conditions of a list are readable. -/
def allReadable : List Condition → Bool
  | [] => true
  | c :: rest => readable c && allReadable rest

end

/-! ## The tokens are what is written -/

theorem text_leaf_empty {e : Expression} (h : e.text = "") :
    Phrase.Same (Phrase.ofExpression e) [] := by
  unfold Expression.text at h
  unfold Phrase.ofExpression
  generalize e.leaves = ps at h
  induction ps with
  | nil => exact Phrase.Same.refl []
  | cons p ps ih =>
    rw [List.map_cons, String.join_cons, String.append_eq_empty_iff] at h
    cases p with
    | text s =>
      obtain ⟨rfl, h⟩ := h
      exact fun d => (Phrase.same_text_empty _ d).trans (ih h d)
    | bound v => exact absurd h.1 (by simp [Piece.template])
    | nested inner => exact absurd h.1 (by simp [Piece.template])

theorem enclosed_same (s : Scope) (parens : Bool) {p : Phrase} {ts : List (Token Condition)}
    (h : Phrase.Same p (spelled s ts)) :
    Phrase.Same (enclosed parens p) (spelled s (enclosedTokens parens ts)) := by
  cases parens with
  | false => exact h
  | true =>
    unfold spelled enclosedTokens
    rw [if_pos rfl, List.cons_append, List.flatMap_cons, List.flatMap_append]
    exact (Phrase.Same.refl [.text "("]).append (h.append (Phrase.Same.refl _))

/-- Phrases, each behind its word, the first word left out. -/
def joinedPhrases (ps : List (Connective × Phrase)) : Phrase :=
  (ps.flatMap fun p => .text p.1.text :: p.2).drop 1

theorem join_eq_joinedPhrases (word : Connective) (ps : List Phrase) :
    Phrase.join word.text ps = joinedPhrases (ps.map fun p => (word, p)) := by
  unfold Phrase.join joinedPhrases
  rcases ps with - | ⟨p, ps⟩
  · rfl
  · rw [List.map_cons, List.flatMap_cons]
    change _ = p ++ _
    induction ps generalizing p with
    | nil => rfl
    | cons q ps ih =>
      rw [List.intersperse_cons_cons, List.flatten_cons, List.flatten_cons, ih]
      rfl

/-- A phrase and the tokens that it says, behind one word. -/
def UnitSame (s : Scope) (p : Connective × Phrase) (u : Connective × List (Token Condition)) :
    Prop :=
  p.1 = u.1 ∧ Phrase.Same p.2 (spelled s u.2)

theorem following_same (s : Scope) {ps : List (Connective × Phrase)}
    {us : List (Connective × List (Token Condition))} (h : List.Forall₂ (UnitSame s) ps us) :
    Phrase.Same (ps.flatMap fun p => .text p.1.text :: p.2) (spelled s (following us)) := by
  induction h with
  | nil => exact Phrase.Same.refl []
  | @cons p u ps us hp _ ih =>
    obtain ⟨w, p⟩ := p
    obtain ⟨w', ts⟩ := u
    obtain ⟨rfl, hp⟩ := hp
    have hs : spelled s (following ((w, ts) :: us)) =
        [.text w.text] ++ (spelled s ts ++ spelled s (following us)) := by
      unfold spelled following
      rw [List.flatMap_cons, List.cons_append, List.flatMap_cons, List.flatMap_append]
      cases w <;> rfl
    rw [hs]
    exact (Phrase.Same.refl [.text w.text]).append (hp.append ih)

theorem joinedPhrases_same (s : Scope) {ps : List (Connective × Phrase)}
    {us : List (Connective × List (Token Condition))} (h : List.Forall₂ (UnitSame s) ps us) :
    Phrase.Same (joinedPhrases ps) (spelled s (joined us)) := by
  cases h with
  | nil => exact Phrase.Same.refl []
  | @cons p u ps us hp h =>
    have hs : spelled s (joined (u :: us)) = spelled s u.2 ++ spelled s (following us) :=
      List.flatMap_append
    rw [hs]
    exact hp.2.append (following_same s h)

mutual

/-- **The tokens of a condition are what it writes.** -/
theorem phrase_same (s : Scope) : ∀ c : Condition, Phrase.Same (c.phrase s) (spelled s c.tokens)
  | and items => by
    unfold phrase tokens
    have hj := join_eq_joinedPhrases .and (operands s items)
    rw [show " AND " = Connective.and.text from rfl, hj]
    exact joinedPhrases_same s (operands_same s .and items)
  | or items => by
    unfold phrase tokens
    have hj := join_eq_joinedPhrases .or (operands s items)
    rw [show " OR " = Connective.or.text from rfl, hj]
    exact joinedPhrases_same s (operands_same s .or items)
  | not inner => by
    unfold phrase tokens
    split
    · exact Phrase.Same.refl []
    · have hi := (phrase_same s inner).append (Phrase.Same.refl [.text ")"])
      have hs : spelled s (.not :: .opening :: inner.tokens ++ [.closing]) =
          [.text "NOT ", .text "("] ++ (spelled s inner.tokens ++ [.text ")"]) := by
        unfold spelled
        simp [Token.phrase]
      rw [hs]
      exact fun d => (Phrase.same_text_text "NOT " "(" _ d).trans
        ((Phrase.Same.refl [.text "NOT ", .text "("]).append hi d)
  | expression e => by
    unfold tokens textless
    by_cases h : e.text = ""
    · simpa [h, spelled, phrase] using text_leaf_empty h
    · simpa [h, spelled, Token.phrase] using Phrase.Same.refl _
  | compare .. | nullCheck .. | inList .. | inExpression .. | between .. | always | never => by
    unfold tokens textless
    simpa [spelled, Token.phrase] using Phrase.Same.refl _

theorem operands_same (s : Scope) (word : Connective) : ∀ items : List Condition,
    List.Forall₂ (UnitSame s) ((operands s items).map fun p => (word, p)) (units word items)
  | [] => by
    unfold operands units
    exact .nil
  | c :: rest => by
    unfold operands units
    split
    · exact operands_same s word rest
    · exact .cons ⟨rfl, enclosed_same s _ (phrase_same s c)⟩ (operands_same s word rest)

end

/-! ## Leaves, lists and negations -/

/-- A condition that holds no condition. -/
def isLeaf : Condition → Bool
  | and _ | or _ | not _ => false
  | _ => true

/-- The conditions of a list joined by a word. -/
def list : Connective → List Condition → Condition
  | .and => and
  | .or => or

mutual

/-- What leaves have, and lists and negations have if their conditions do, all conditions have. -/
theorem forall_of_tree {P : Condition → Prop} (leaf : ∀ c : Condition, c.isLeaf = true → P c)
    (list : ∀ (word : Connective) (items : List Condition), (∀ c ∈ items, P c) →
      P (list word items))
    (not : ∀ c : Condition, P c → P (not c)) : ∀ c : Condition, P c
  | and items => list .and items (forall_mem_of_tree leaf list not items)
  | or items => list .or items (forall_mem_of_tree leaf list not items)
  | .not inner => not inner (forall_of_tree leaf list not inner)
  | compare .. | nullCheck .. | inList .. | inExpression .. | between .. | expression _
  | always | never => leaf _ rfl

theorem forall_mem_of_tree {P : Condition → Prop} (leaf : ∀ c : Condition, c.isLeaf = true → P c)
    (list : ∀ (word : Connective) (items : List Condition), (∀ c ∈ items, P c) →
      P (list word items))
    (not : ∀ c : Condition, P c → P (not c)) : ∀ items : List Condition, ∀ c ∈ items, P c
  | [] => fun _ h => by cases h
  | c :: rest => List.forall_mem_cons.mpr
    ⟨forall_of_tree leaf list not c, forall_mem_of_tree leaf list not rest⟩

end

theorem allEmpty_eq (items : List Condition) : allEmpty items = items.all isEmpty := by
  induction items with
  | nil => rfl
  | cons c rest ih => rw [allEmpty, ih, List.all_cons]

theorem allTextless_eq (items : List Condition) : allTextless items = items.all textless := by
  induction items with
  | nil => rfl
  | cons c rest ih => rw [allTextless, ih, List.all_cons]

theorem allReadable_eq (items : List Condition) : allReadable items = items.all readable := by
  induction items with
  | nil => rfl
  | cons c rest ih => rw [allReadable, ih, List.all_cons]

theorem truths_eq (v : Condition → Bool) (items : List Condition) :
    truths v items = items.filterMap (truth v) := by
  induction items with
  | nil => rfl
  | cons c rest ih =>
    rw [truths, ih, List.filterMap_cons]
    cases truth v c <;> rfl

theorem units_eq (word : Connective) (items : List Condition) :
    units word items =
      (written items).map fun c => (word, enclosedTokens c.needsParens c.tokens) := by
  unfold written
  induction items with
  | nil => rfl
  | cons c rest ih =>
    rw [units, ih, List.filter_cons]
    cases c.isEmpty <;> rfl

variable (word : Connective) (items : List Condition)

theorem isEmpty_list : (list word items).isEmpty = items.all isEmpty := by
  cases word <;> exact allEmpty_eq items

theorem needsParens_list :
    (list word items).needsParens = decide (1 < (written items).length) := by
  cases word <;> rfl

theorem textless_list : (list word items).textless = items.all textless := by
  cases word <;> exact allTextless_eq items

theorem readable_list : (list word items).readable = (items.all readable &&
    ((written items).length ≤ 1 || !(written items).any textless)) := by
  rw [← allReadable_eq]
  cases word <;> rfl

theorem tokens_list : (list word items).tokens =
    joined ((written items).map fun c => (word, enclosedTokens c.needsParens c.tokens)) := by
  rw [← units_eq]
  cases word <;> rfl

theorem truth_list (v : Condition → Bool) : truth v (list word items) =
    joinedTruth ((items.filterMap (truth v)).map fun b => (word, b)) := by
  rw [← truths_eq]
  cases word with
  | and =>
    unfold list truth
    cases truths v items with
    | nil => rfl
    | cons b bs => exact congrArg some (truthFrom_and b bs).symm
  | or =>
    unfold list truth
    cases truths v items with
    | nil => rfl
    | cons b bs => exact congrArg some (truthFrom_or b bs).symm

omit word items

variable {c : Condition} (h : c.isLeaf = true)
include h

theorem needsParens_leaf : c.needsParens = false := by
  cases c <;> first | rfl | cases h

theorem readable_leaf : c.readable = true := by
  cases c <;> first | (unfold readable; rfl) | cases h

theorem tokens_leaf : c.tokens = if c.textless then [] else [.atom c] := by
  cases c <;> first | (unfold tokens; rfl) | cases h

theorem truth_leaf (v : Condition → Bool) :
    truth v c = if c.textless then none else some (v c) := by
  cases c <;> first | (unfold truth; rfl) | cases h

theorem isEmpty_leaf_textless (he : c.isEmpty = true) : c.textless = true := by
  cases c with
  | expression e =>
    have ht : e.text = "" := Expression.text_of_isEmpty he
    simp [textless, ht]
  | and | or | not => cases h
  | compare | nullCheck | inList | inExpression | between | always | never => cases he

omit h

/-- What counts as left out has no text. -/
theorem textless_of_isEmpty (c : Condition) : c.isEmpty = true → c.textless = true := by
  induction c using forall_of_tree with
  | leaf c h => exact isEmpty_leaf_textless h
  | list word items ih =>
    intro h
    rw [isEmpty_list] at h
    rw [textless_list, List.all_eq_true]
    exact fun c hc => ih c hc (List.all_eq_true.mp h c hc)
  | not c ih => exact ih

/-- What has text counts as written. -/
theorem isEmpty_of_hasText (c : Condition) (h : c.textless = false) : c.isEmpty = false := by
  cases he : c.isEmpty with
  | false => rfl
  | true => rw [c.textless_of_isEmpty he] at h; cases h

/-- What counts as left out is readable. -/
theorem readable_of_isEmpty (c : Condition) : c.isEmpty = true → c.readable = true := by
  induction c using forall_of_tree with
  | leaf c h => exact fun _ => readable_leaf h
  | list word items ih =>
    intro h
    rw [isEmpty_list, List.all_eq_true] at h
    have hw : written items = [] := List.filter_eq_nil_iff.mpr fun c hc => by simp [h c hc]
    rw [readable_list, hw, Bool.and_eq_true, List.all_eq_true]
    exact ⟨fun c hc => ih c hc (h c hc), rfl⟩
  | not c ih =>
    intro h
    unfold readable
    rw [Bool.or_eq_true]
    exact .inl h

/-- What has no text has no truth. -/
theorem truth_eq_none (v : Condition → Bool) (c : Condition) :
    c.textless = true → truth v c = none := by
  induction c using forall_of_tree with
  | leaf c h =>
    intro ht
    rw [truth_leaf h, if_pos ht]
  | list word items ih =>
    intro h
    rw [textless_list, List.all_eq_true] at h
    have hn : items.filterMap (truth v) = [] :=
      List.filterMap_eq_nil_iff.mpr fun c hc => ih c hc (h c hc)
    rw [truth_list, hn]
    rfl
  | not c ih =>
    intro h
    unfold truth
    rw [ih h]
    rfl

end Condition
end SqlWeave
