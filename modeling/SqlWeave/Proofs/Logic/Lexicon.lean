import SqlWeave.Proofs.Logic.Beside
import SqlWeave.Proofs.Logic.Meaning
import SqlWeave.Proofs.Said

/-!
# Conditions read word by word

To a condition the fragment of a leaf is one text. To an engine it may be several words: a predicate
such as `a = 1 OR b = 2` has an `OR`, and what stands beside the fragment stands beside its words. A
lexicon says which predicate the text of each leaf is, so that a statement can be read word by word.

A leaf stays one operand where its words are read as a product, and everywhere but beside `AND`. So
a condition says its truth word by word if the operands beside each `AND` are products.

Results:
* `Lexicon.text_cut_eq`: the words of the tokens are the text that is written.
* `Lexicon.tellsGroup_of_apart`: groups whose operands beside `AND` are products say their truth
  word by word.
-/

namespace SqlWeave

open Logic Text

variable {α β : Type}

/-! ## Predicates -/

namespace Logic.Token

/-- The word that a token is; an atom is none. -/
def keyword : Token α → Option String
  | atom _ => none
  | and => some "AND"
  | or => some "OR"
  | not => some "NOT"
  | opening => some "("
  | closing => some ")"

/-- A text spells a token: an atom is any text, and a word may have letters of either case and blanks
around it. -/
def Spelled (t : Token α) (text : String) : Prop :=
  ∀ word ∈ t.keyword, sameIgnoringCase (trim text) word = true

/-- A token with other atoms. -/
def map (f : α → β) : Token α → Token β
  | atom a => atom (f a)
  | and => and
  | or => or
  | not => not
  | opening => opening
  | closing => closing

end Logic.Token

/-- A formula with other atoms. -/
def Logic.Formula.map (f : α → β) : Formula α → Formula β
  | atom a => atom (f a)
  | and g h => and (g.map f) (h.map f)
  | or g h => or (g.map f) (h.map f)
  | not g => not (g.map f)

theorem Logic.Formula.eval_map (f : α → β) (v : β → Bool) (φ : Formula α) :
    (φ.map f).eval v = φ.eval (v ∘ f) := by
  induction φ with
  | atom a => rfl
  | and g h ihg ihh => rw [map, eval, eval, ihg, ihh]
  | or g h ihg ihh => rw [map, eval, eval, ihg, ihh]
  | not g ih => rw [map, eval, eval, ih]

theorem Logic.Reads.map (f : α → β) {l : Level} {ts : List (Token α)} {φ : Formula α}
    (h : Reads l ts φ) : Reads l (ts.map (Token.map f)) (φ.map f) := by
  induction h with
  | atom a => exact .atom (f a)
  | not _ ih => exact .not ih
  | enclosed _ ih => simpa [Token.map] using Reads.enclosed ih
  | product _ ih => exact .product ih
  | and _ _ ih ih' => simpa [Token.map, Formula.map] using Reads.and ih ih'
  | sum _ ih => exact .sum ih
  | or _ _ ih ih' => simpa [Token.map, Formula.map] using Reads.or ih ih'

/-- The truth of a text is that of its atoms. -/
theorem Logic.Reads.eval_congr {l : Level} {ts : List (Token α)} {φ : Formula α} (h : Reads l ts φ)
    {v w : α → Bool} (hvw : ∀ a, .atom a ∈ ts → v a = w a) : φ.eval v = φ.eval w := by
  induction h with
  | atom a => exact hvw a (List.mem_singleton.mpr rfl)
  | not _ ih => rw [Formula.eval, Formula.eval, ih fun a ha => hvw a (by simp [ha])]
  | enclosed _ ih => exact ih fun a ha => hvw a (by simp [ha])
  | product _ ih | sum _ ih => exact ih hvw
  | and _ _ ih ih' | or _ _ ih ih' =>
    rw [Formula.eval, Formula.eval, ih fun a ha => hvw a (by simp [ha]),
      ih' fun a ha => hvw a (by simp [ha])]

/-- A text that is a complete predicate: cut into the words and the atoms that it is made of, and
read as a formula. -/
structure Predicate (α : Type) where
  cut : List (String × Token α)
  formula : Formula α
  spelled : ∀ w ∈ cut, w.2.Spelled w.1
  reads : Reads .sum (cut.map Prod.snd) formula

namespace Predicate

/-- The text of a predicate. -/
def text (p : Predicate α) : String := String.join (p.cut.map Prod.fst)

/-- The tokens of a predicate. -/
def tokens (p : Predicate α) : List (Token α) := p.cut.map Prod.snd

/-- The predicate as a condition. -/
def condition (p : Predicate α) : Condition := .expression (.raw p.text)

/-- A text taken as one atom. -/
def atom (text : String) (a : α) : Predicate α where
  cut := [(text, .atom a)]
  formula := .atom a
  spelled := by
    intro w hw
    obtain rfl := List.mem_singleton.mp hw
    exact fun word h => by cases h
  reads := .sum (.product (.atom a))

theorem text_atom (text : String) (a : α) : (atom text a).text = text := by
  unfold Predicate.text atom
  rw [List.map_singleton, String.join_cons, String.join_nil, String.append_empty]

/-- A predicate with other atoms. -/
def map (f : α → β) (p : Predicate α) : Predicate β where
  cut := p.cut.map (Prod.map id (Token.map f))
  formula := p.formula.map f
  spelled := by
    rw [List.forall_mem_map]
    intro w hw word hk
    refine p.spelled w hw word ?_
    obtain ⟨text, t⟩ := w
    cases t <;> exact hk
  reads := by
    have h := p.reads.map f
    rwa [List.map_map] at h ⊢

theorem text_map (f : α → β) (p : Predicate α) : (p.map f).text = p.text := by
  unfold text map
  rw [List.map_map]
  rfl

theorem tokens_map (f : α → β) (p : Predicate α) :
    (p.map f).tokens = p.tokens.map (Token.map f) := by
  unfold tokens map
  rw [List.map_map, List.map_map]
  rfl

/-- A word has text. -/
theorem text_ne_empty_of_mem {p : Predicate α} {t : Token α} (h : t ∈ p.tokens)
    (hk : t.keyword ≠ none) : p.text ≠ "" := by
  intro he
  obtain ⟨w, hw, rfl⟩ := List.mem_map.mp h
  obtain ⟨before, behind, hc⟩ := List.append_of_mem hw
  rw [text, hc, List.map_append, List.map_cons, String.join_append, String.join_cons,
    String.append_eq_empty_iff, String.append_eq_empty_iff] at he
  obtain ⟨word, hword⟩ := Option.ne_none_iff_exists'.mp hk
  have hs := p.spelled w hw word hword
  rw [he.2.1] at hs
  obtain ⟨text, t⟩ := w
  cases t with
  | atom a => exact hk rfl
  | and | or | not | opening | closing =>
    cases hword
    exact absurd hs (by decide)

end Predicate

/-! ## Lexicons -/

/-- What the text of each leaf is. -/
structure Lexicon (α : Type) (s : Scope) (b : Binding) where
  entry : Condition → Predicate α
  text_entry : ∀ c, (entry c).text = (c.phrase s).said b

namespace Lexicon

variable {s : Scope} {b : Binding} (L : Lexicon α s b)

/-- The words of a token: those of the predicate that a leaf is, and the token itself. -/
def lexeme : Token Condition → List (String × Token α)
  | .atom c => (L.entry c).cut
  | .and => [(Connective.and.text, .and)]
  | .or => [(Connective.or.text, .or)]
  | .not => [("NOT ", .not)]
  | .opening => [("(", .opening)]
  | .closing => [(")", .closing)]

/-- Tokens cut into words. -/
def cut (ts : List (Token Condition)) : List (String × Token α) := ts.flatMap L.lexeme

/-- The tokens as an engine reads them. -/
def tokens (ts : List (Token Condition)) : List (Token α) := (L.cut ts).map Prod.snd

/-- The truth of a leaf, where the truth of the atoms is given. -/
def truth (v : α → Bool) (c : Condition) : Bool := (L.entry c).formula.eval v

theorem spelled_cut (ts : List (Token Condition)) : ∀ w ∈ L.cut ts, w.2.Spelled w.1 := by
  unfold cut
  rw [List.forall_mem_flatMap]
  intro t _ w hw
  cases t with
  | atom c => exact (L.entry c).spelled w hw
  | and | or | not | opening | closing =>
    obtain rfl := List.mem_singleton.mp hw
    intro word hk
    cases hk
    dsimp only
    decide

/-- **The words of the tokens are the text that is written.** -/
theorem text_cut_eq (ts : List (Token Condition)) :
    String.join ((L.cut ts).map Prod.fst) = (spelled s ts).said b := by
  unfold cut spelled
  induction ts with
  | nil => rfl
  | cons t ts ih =>
    rw [List.flatMap_cons, List.flatMap_cons, List.map_append, String.join_append, ih,
      Phrase.said_append]
    refine congrArg (· ++ _) ?_
    cases t with
    | atom c => exact L.text_entry c
    | and | or | not | opening | closing => rfl

theorem tokens_append (ts us : List (Token Condition)) :
    L.tokens (ts ++ us) = L.tokens ts ++ L.tokens us := by
  unfold tokens cut
  rw [List.flatMap_append, List.map_append]

theorem tokens_cons (t : Token Condition) (ts : List (Token Condition)) :
    L.tokens (t :: ts) = (L.lexeme t).map Prod.snd ++ L.tokens ts := by
  unfold tokens cut
  rw [List.flatMap_cons, List.map_append]

theorem tokens_enclosed (ts : List (Token Condition)) :
    L.tokens (.opening :: ts ++ [.closing]) = .opening :: L.tokens ts ++ [.closing] := by
  rw [tokens_append, tokens_cons]
  rfl

theorem tokens_joined (us : List (Connective × List (Token Condition))) :
    L.tokens (joined us) = joined (us.map fun u => (u.1, L.tokens u.2)) := by
  have hf : ∀ us : List (Connective × List (Token Condition)),
      L.tokens (following us) = following (us.map fun u => (u.1, L.tokens u.2)) := by
    intro us
    induction us with
    | nil => rfl
    | cons u us ih =>
      unfold following at ih ⊢
      rw [List.flatMap_cons, tokens_append, ih, List.map_cons, List.flatMap_cons, tokens_cons]
      obtain ⟨word, ts⟩ := u
      cases word <;> rfl
  cases us with
  | nil => rfl
  | cons u us =>
    rw [joined, tokens_append, hf]
    rfl

/-! ## Conditions read word by word -/

/-- The tokens of a condition among others. -/
def operand (c : Condition) : List (Token α) :=
  L.tokens (Condition.enclosedTokens c.needsParens c.tokens)

/-- The written conditions of a group may stand beside each other: those beside `AND` are read as
products. -/
def Apart (g : ConditionGroup) : Prop :=
  g.written.IsChain fun i j => j.1 = .and → IsProduct (L.operand i.2) ∧ IsProduct (L.operand j.2)

mutual

/-- In every list of the condition, what stands beside `AND` is read as a product. -/
def Isolated : Condition → Prop
  | .and items => AllIsolated items ∧ L.Apart (Condition.grouped .and items)
  | .or items => AllIsolated items
  | .not inner => Isolated inner
  | _ => True

/-- The conditions of a list are isolated. -/
def AllIsolated : List Condition → Prop
  | [] => True
  | c :: rest => Isolated c ∧ AllIsolated rest

end

theorem allIsolated_iff (items : List Condition) :
    L.AllIsolated items ↔ ∀ c ∈ items, L.Isolated c := by
  induction items with
  | nil => simp [AllIsolated]
  | cons c rest ih => rw [AllIsolated, ih, List.forall_mem_cons]

theorem isolated_of_isLeaf {c : Condition} (h : c.isLeaf = true) : L.Isolated c := by
  cases c with
  | and | or | not => cases h
  | _ => exact trivial

/-- What `OR` joins may stand beside each other. -/
theorem apart_or (items : List Condition) : L.Apart (Condition.grouped .or items) := by
  unfold Apart
  rw [Condition.written_grouped, List.isChain_map]
  induction Condition.written items with
  | nil => exact List.isChain_nil
  | cons c rest ih =>
    cases rest with
    | nil => exact List.isChain_singleton _
    | cons d rest => exact List.isChain_cons_cons.mpr ⟨fun h => (by cases h), ih⟩

theorem isolated_list (word : Connective) (items : List Condition) :
    L.Isolated (Condition.list word items) ↔
      (∀ c ∈ items, L.Isolated c) ∧ L.Apart (Condition.grouped word items) := by
  rw [← allIsolated_iff]
  cases word with
  | and => exact Iff.rfl
  | or => exact (and_iff_left (L.apart_or items)).symm

/-- Read word by word, the text of a condition says its truth. -/
def Tells (c : Condition) : Prop := Says (L.tokens c.tokens) fun v => c.truth (L.truth v)

/-- Read word by word, the text of a group says its truth. -/
def TellsGroup (g : ConditionGroup) : Prop :=
  Says (L.tokens g.tokens) fun v => g.truth (L.truth v)

/-- A condition that is read word by word has its truth, alone and among others. -/
structure Reading (c : Condition) (φ : Formula α) : Prop where
  operand : Reads .sum (L.operand c) φ
  alone : Reads .sum (L.tokens c.tokens) φ
  truth : ∀ v, c.truth (L.truth v) = some (φ.eval v)

/-- Isolated conditions with text can be read. -/
def Readable (c : Condition) : Prop :=
  c.readable = true → c.textless = false → L.Isolated c → ∃ φ, L.Reading c φ

section

variable {L}

/-- **A group is read word by word** if its conditions are and products alone stand beside `AND`. -/
theorem reads_group {g : ConditionGroup} (hs : ∀ i ∈ g.written, ∃ φ, L.Reading i.2 φ)
    (ht : g.textless = false) (ha : L.Apart g) :
    ∃ φ, Reads .sum (L.tokens g.tokens) φ ∧ ∀ v, g.truth (L.truth v) = some (φ.eval v) := by
  obtain ⟨fs, hf, hv⟩ := ConditionGroup.exists_formulas (w := L.truth) fun i hi => by
    obtain ⟨φ, hφ⟩ := hs i hi
    exact ⟨φ, hφ.operand, hφ.truth⟩
  have hu : List.Forall₂ SumReads (g.written.map fun i => (i.1, L.operand i.2)) fs :=
    List.forall₂_map_left_iff.mpr hf
  have hc : (g.written.map fun i => (i.1, L.operand i.2)).IsChain Logic.Apart := by
    rw [List.isChain_map]
    exact ha
  obtain ⟨j, hj, -⟩ := ConditionGroup.exists_written ht
  have hn : (g.written.map fun i => (i.1, L.operand i.2)) ≠ [] :=
    List.ne_nil_of_mem (List.mem_map_of_mem hj)
  obtain ⟨χ, hχ, hj⟩ := reads_joined_of_apart hu hc hn
  refine ⟨χ, ?_, fun v => ?_⟩
  · rw [ConditionGroup.tokens, tokens_joined, List.map_map]
    exact hχ
  · rw [ConditionGroup.truth, hv]
    exact hj v

/-- The written conditions of an isolated group can be read. -/
theorem exists_readings {g : ConditionGroup} (hs : ∀ i ∈ g, L.Readable i.2)
    (hr : g.readable = true) (ht : g.textless = false) (hi : ∀ i ∈ g, L.Isolated i.2) :
    ∀ i ∈ g.written, ∃ φ, L.Reading i.2 φ := by
  intro i hw
  have hm := (List.mem_filter.mp hw).1
  exact hs i hm (ConditionGroup.forall_readable hr i hm)
    (ConditionGroup.textless_of_mem_written hr ht i hw) (hi i hm)

/-- A leaf with text is read as the tokens of its entry, alone and among others. -/
theorem operand_leaf {c : Condition} (h : c.isLeaf = true) (ht : c.textless = false) :
    L.operand c = (L.entry c).tokens ∧ L.tokens c.tokens = (L.entry c).tokens := by
  have htk : L.tokens c.tokens = (L.entry c).tokens := by
    rw [Condition.tokens_leaf h, ht, if_neg (by simp), tokens_cons]
    exact List.append_nil _
  refine ⟨?_, htk⟩
  rw [operand, Condition.needsParens_leaf h]
  exact htk

theorem readable_leaf {c : Condition} (h : c.isLeaf = true) : L.Readable c := by
  intro _ ht _
  obtain ⟨ho, htk⟩ := L.operand_leaf h ht
  refine ⟨(L.entry c).formula, ho ▸ (L.entry c).reads, htk ▸ (L.entry c).reads, fun v => ?_⟩
  rw [Condition.truth_leaf h, ht]
  rfl

/-- A condition in parentheses is read like the condition, and where it needs none it has none. -/
theorem reads_operand {c : Condition} {φ : Formula α} (h : Reads .sum (L.tokens c.tokens) φ) :
    Reads .sum (L.operand c) φ := by
  unfold operand Condition.enclosedTokens
  split
  · rw [tokens_enclosed]
    exact .sum (.product (.enclosed h))
  · exact h

theorem readable_list (word : Connective) {items : List Condition}
    (hs : ∀ c ∈ items, L.Readable c) : L.Readable (Condition.list word items) := by
  intro hr ht hi
  rw [Condition.readable_grouped] at hr
  rw [Condition.textless_grouped] at ht
  rw [isolated_list] at hi
  have hg := exists_readings ((Condition.forall_mem_grouped word items).mpr hs) hr ht
    ((Condition.forall_mem_grouped word items).mpr hi.1)
  obtain ⟨φ, hφ, hv⟩ := reads_group hg ht hi.2
  have ha : Reads .sum (L.tokens (Condition.list word items).tokens) φ := by
    rw [Condition.tokens_grouped]
    exact hφ
  refine ⟨φ, reads_operand ha, ha, fun v => ?_⟩
  rw [Condition.truth_grouped]
  exact hv v

theorem readable_not {c : Condition} (h : L.Readable c) : L.Readable c.not := by
  intro hr ht hi
  have htc : c.textless = false := ht
  have he := c.isEmpty_of_hasText htc
  rw [Condition.readable, he, Bool.false_or, Bool.and_eq_true] at hr
  obtain ⟨φ, hφ⟩ := h hr.1 htc hi
  have htk : L.tokens c.not.tokens = .not :: (.opening :: L.tokens c.tokens ++ [.closing]) := by
    rw [Condition.tokens, if_neg (by simp [he]), List.cons_append, tokens_cons, ← List.cons_append,
      tokens_enclosed]
    rfl
  have ha : Reads .sum (L.tokens c.not.tokens) (.not φ) := by
    rw [htk]
    exact .sum (.product (.not (.enclosed hφ.alone)))
  refine ⟨.not φ, reads_operand ha, ha, fun v => ?_⟩
  rw [Condition.truth, hφ.truth]
  rfl

/-- **Isolated conditions are read word by word.** -/
theorem readable (c : Condition) : L.Readable c := by
  induction c using Condition.forall_of_tree with
  | leaf c h => exact readable_leaf h
  | list word items ih => exact readable_list word ih
  | not c ih => exact readable_not ih

/-- **A group whose operands beside `AND` are products says its truth word by word.** -/
theorem tellsGroup_of_apart {g : ConditionGroup} (hr : g.readable = true)
    (hi : ∀ i ∈ g, L.Isolated i.2) (ha : L.Apart g) : L.TellsGroup g := by
  cases ht : g.textless with
  | true =>
    have hs : ∀ i ∈ g, i.2.Settled := fun i _ => i.2.settled
    refine .inl ⟨?_, fun v => ConditionGroup.truth_of_textless _ ht⟩
    rw [(ConditionGroup.tokens_of_textless hs hr ht).1]
    rfl
  | false =>
    exact .inr (reads_group (exists_readings (fun i _ => readable i.2) hr ht hi) ht ha)

theorem tells_list_iff (word : Connective) (items : List Condition) :
    L.Tells (Condition.list word items) ↔ L.TellsGroup (Condition.grouped word items) := by
  unfold Tells TellsGroup
  simp only [Condition.tokens_grouped, Condition.truth_grouped]

/-- Products stand beside anything. -/
theorem apart_of_products {g : ConditionGroup}
    (h : ∀ i ∈ g.written, IsProduct (L.operand i.2)) : L.Apart g :=
  (List.pairwise_of_forall_mem_list fun i hi j hj _ => ⟨h i hi, h j hj⟩).isChain

end

end Lexicon
end SqlWeave
