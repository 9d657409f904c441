import SqlWeave.Proofs.Logic.Lexicon
import SqlWeave.Query.Clause

/-!
# A predicate among conditions

A predicate is written as it is, without parentheses around it. It has one place among the
conditions that it is joined to if the words that join them leave it whole. `OR` does. `AND` tears a
predicate with an `OR` outside of parentheses: what is left of the `OR` goes with the condition in
front and what is right of it with the condition behind, and neither with both.

Results:
* `Predicate.exists_reads_torn`: what such a predicate between two operands of `AND` is read as.
* `Predicate.factor_of_absent`: conditions without the predicate are operands of `AND`.
* **`predicate_whole_iff`**: between two operands of `AND` a predicate stays one exactly if it is a
  product or never holds.
-/

namespace SqlWeave

open Logic

variable {α : Type}

namespace Lexicon

variable {s : Scope} {b : Binding} (L : Lexicon α s b)

/-- A condition with text that is read word by word. -/
structure Term (c : Condition) : Prop where
  hasText : c.textless = false
  reading : ∃ φ, L.Reading c φ

/-- A condition that stays one operand beside `AND`. -/
structure Factor (c : Condition) : Prop extends L.Term c where
  product : IsProduct (L.operand c)

variable {L}

theorem Factor.exists_reads {c : Condition} (h : L.Factor c) :
    ∃ f, Reads .product (L.operand c) f ∧ ∀ v, c.truth (L.truth v) = some (f.eval v) := by
  obtain ⟨f, hf⟩ := h.reading
  exact ⟨f, h.product.reads hf.operand, hf.truth⟩

/-- A leaf with text is a term. -/
theorem term_leaf {c : Condition} (h : c.isLeaf = true) (ht : c.textless = false) : L.Term c :=
  ⟨ht, readable_leaf h (Condition.readable_leaf h) ht (L.isolated_of_isLeaf h)⟩

/-- Conditions with text are all written. -/
theorem written_of_hasText (word : Connective) {items : List Condition}
    (h : ∀ c ∈ items, c.textless = false) :
    (Condition.grouped word items).written = Condition.grouped word items := by
  refine List.filter_eq_self.mpr fun i hi => ?_
  obtain ⟨c, hc, rfl⟩ := List.mem_map.mp hi
  rw [c.isEmpty_of_hasText (h c hc)]
  rfl

/-- Three conditions joined by `AND`, word by word. -/
theorem tokens_between {c₁ c c₂ : Condition} (h₁ : c₁.textless = false) (h : c.textless = false)
    (h₂ : c₂.textless = false) :
    L.tokens (Condition.grouped .and [c₁, c, c₂]).tokens =
      L.operand c₁ ++ .and :: L.operand c ++ .and :: L.operand c₂ := by
  have ha : ∀ x ∈ [c₁, c, c₂], x.textless = false := by simp [h₁, h, h₂]
  have hw := written_of_hasText .and ha
  rw [ConditionGroup.tokens, hw, tokens_joined]
  simp [Condition.grouped, joined, following, ConditionGroup.unit, operand, Token.ofConnective]

theorem truth_between {v : α → Bool} {c₁ c c₂ : Condition} {t₁ t t₂ : Bool}
    (h₁ : c₁.truth (L.truth v) = some t₁) (h : c.truth (L.truth v) = some t)
    (h₂ : c₂.truth (L.truth v) = some t₂) :
    (Condition.grouped .and [c₁, c, c₂]).truth (L.truth v) = some (t₁ && t && t₂) := by
  simp [ConditionGroup.truth, Condition.grouped, h₁, h, h₂, joinedTruth, truthFrom]

end Lexicon

/-! ## One predicate among others -/

namespace Predicate

variable {s : Scope} {b : Binding}

/-- The lexicon that knows one predicate: the text of any other condition is an atom of its own. -/
def lexicon (p : Predicate α) (s : Scope) (b : Binding) : Lexicon (Condition ⊕ α) s b where
  entry c :=
    if (c.phrase s).said b = p.text then p.map .inr else atom ((c.phrase s).said b) (.inl c)
  text_entry c := by
    split
    · rename_i h
      rw [text_map, h]
    · exact text_atom _ _

variable {p : Predicate α}

theorem leaves_raw (t : String) :
    (Expression.raw t).leaves = if t = "" then [] else [.text t] := by
  by_cases h : t = ""
  · subst h
    rfl
  · rw [if_neg h, Expression.raw_eq, Expression.leaves_eq, Expression.pieces_ofPieces]
    simp [Piece.normal, Piece.cons, h, Piece.leavesAll, Piece.leaves]

theorem said_raw (t : String) : ((Condition.expression (.raw t)).phrase s).said b = t := by
  rw [Condition.phrase, Phrase.ofExpression, leaves_raw]
  split
  · rename_i h
    exact h.symm
  · exact (Phrase.said_text_cons t []).trans String.append_empty

theorem textless_raw (t : String) :
    (Condition.expression (.raw t)).textless = decide (t = "") := by
  rw [Condition.textless, Expression.text, leaves_raw]
  split
  · rename_i h
    rw [h]
    rfl
  · rw [List.map_singleton, String.join_cons, String.join_nil, String.append_empty]
    rfl

theorem isEmpty_raw (t : String) :
    (Condition.expression (.raw t)).isEmpty = decide (t = "") := by
  by_cases h : t = "" <;> simp [Condition.isEmpty, Expression.isEmpty, Expression.raw, h]

theorem text_ne_empty_of_written (h : (!p.condition.isEmpty) = true) : p.text ≠ "" := by
  rw [condition, isEmpty_raw] at h
  simpa using h

theorem entry_condition : (p.lexicon s b).entry p.condition = p.map .inr := by
  have h : (p.condition.phrase s).said b = p.text := said_raw p.text
  simp only [lexicon, if_pos h]

theorem entry_of_ne {c : Condition} (h : (c.phrase s).said b ≠ p.text) :
    (p.lexicon s b).entry c = atom ((c.phrase s).said b) (.inl c) := if_neg h

theorem truth_of_ne {c : Condition} (h : (c.phrase s).said b ≠ p.text) (v : Condition ⊕ α → Bool) :
    (p.lexicon s b).truth v c = v (.inl c) := by
  rw [Lexicon.truth, entry_of_ne h]
  rfl

theorem hasText_condition (h : p.text ≠ "") : p.condition.textless = false := by
  rw [condition, textless_raw, decide_eq_false h]

/-- Where it has text, a predicate is read as its own tokens. -/
theorem operand_condition (h : p.text ≠ "") :
    (p.lexicon s b).operand p.condition = p.tokens.map (Token.map .inr) := by
  rw [((p.lexicon s b).operand_leaf rfl (hasText_condition h)).1, entry_condition, tokens_map]

theorem truth_condition (h : p.text ≠ "") (v : Condition ⊕ α → Bool) :
    p.condition.truth ((p.lexicon s b).truth v) = some (p.formula.eval (v ∘ .inr)) := by
  rw [Condition.truth_leaf rfl, hasText_condition h, Lexicon.truth, entry_condition]
  exact congrArg some (p.formula.eval_map _ v)

/-- A predicate that is no product has an `OR` between a sum and a product. -/
theorem product_or_split (p : Predicate α) : IsProduct p.tokens ∨
    ∃ ls rs l r, p.tokens = ls ++ .or :: rs ∧ p.formula = .or l r ∧
      Reads .sum ls l ∧ Reads .product rs r :=
  p.reads.product_or_split.imp_left fun h => ⟨_, h⟩

theorem text_ne_empty_of_split {ls rs : List (Token α)} (h : p.tokens = ls ++ .or :: rs) :
    p.text ≠ "" := text_ne_empty_of_mem (t := .or) (by simp [h]) (by simp [Token.keyword])

/-- **A predicate with an `OR` outside of parentheses is torn between two operands of `AND`.** -/
theorem exists_reads_torn {ls rs : List (Token α)} {l r : Formula α}
    (hts : p.tokens = ls ++ .or :: rs) (hl : Reads .sum ls l) (hr : Reads .product rs r)
    {c₁ c₂ : Condition} {f g : Formula (Condition ⊕ α)}
    (h₁ : (p.lexicon s b).Term c₁) (hf : Reads .product ((p.lexicon s b).operand c₁) f)
    (h₂ : (p.lexicon s b).Term c₂) (hg : Reads .product ((p.lexicon s b).operand c₂) g) :
    ∃ χ, Reads .sum
        ((p.lexicon s b).tokens (Condition.grouped .and [c₁, p.condition, c₂]).tokens) χ ∧
      ∀ v, (f.eval v = true →
          χ.eval v = (l.eval (v ∘ .inr) || (r.eval (v ∘ .inr) && g.eval v))) ∧
        ((r.eval (v ∘ .inr) && g.eval v) = true → χ.eval v = true) ∧
        (χ.eval v = true → l.eval (v ∘ .inr) = true ∨ r.eval (v ∘ .inr) = true) := by
  have hn : p.text ≠ "" := text_ne_empty_of_split hts
  obtain ⟨χ, hχ, hv⟩ := exists_reads_between hf (hl.map .inr) (hr.map .inr) hg
  refine ⟨χ, ?_, fun v => ?_⟩
  · rw [Lexicon.tokens_between h₁.hasText (hasText_condition hn) h₂.hasText, operand_condition hn, hts,
      List.map_append]
    exact hχ
  · have h := hv v
    rw [Formula.eval_map, Formula.eval_map] at h
    exact h

/-- **A list tells its truth** if the conditions beside a predicate are terms and, where the list is
joined by `AND`, everything in it is a product. A predicate without text is left out. -/
theorem tells_beside (word : Connective) {c₁ c₂ : Condition} (h₁ : (p.lexicon s b).Term c₁)
    (h₂ : (p.lexicon s b).Term c₂)
    (ha : (p.lexicon s b).Apart (Condition.grouped word [c₁, p.condition, c₂])) :
    (p.lexicon s b).Tells (Condition.list word [c₁, p.condition, c₂]) := by
  refine (Lexicon.tells_list_iff word _).mpr (.inr (Lexicon.reads_group ?_ ?_ ha))
  · rw [Condition.written_grouped, List.forall_mem_map]
    intro c hc
    obtain ⟨hm, he⟩ := List.mem_filter.mp hc
    simp only [List.mem_cons, List.not_mem_nil, or_false] at hm
    rcases hm with rfl | rfl | rfl
    · exact h₁.reading
    · exact (Lexicon.term_leaf rfl (hasText_condition (text_ne_empty_of_written he))).reading
    · exact h₂.reading
  · simp [ConditionGroup.textless, Condition.grouped, h₁.hasText]

/-- A product stays one operand of `AND`. -/
theorem tells_of_product (hp : IsProduct p.tokens) {c₁ c₂ : Condition}
    (h₁ : (p.lexicon s b).Factor c₁) (h₂ : (p.lexicon s b).Factor c₂) :
    (p.lexicon s b).Tells (.and [c₁, p.condition, c₂]) := by
  refine tells_beside .and h₁.toTerm h₂.toTerm (Lexicon.apart_of_products ?_)
  rw [Condition.written_grouped, List.forall_mem_map]
  intro c hc
  obtain ⟨hm, he⟩ := List.mem_filter.mp hc
  simp only [List.mem_cons, List.not_mem_nil, or_false] at hm
  rcases hm with rfl | rfl | rfl
  · exact h₁.product
  · obtain ⟨f, hf⟩ := hp
    rw [operand_condition (text_ne_empty_of_written he)]
    exact ⟨_, hf.map Sum.inr⟩
  · exact h₂.product

/-- A predicate that never holds leaves nothing of what `AND` joins to it. -/
theorem tells_of_never (hp : ∀ v, p.formula.eval v = false) {c₁ c₂ : Condition}
    (h₁ : (p.lexicon s b).Factor c₁) (h₂ : (p.lexicon s b).Factor c₂) :
    (p.lexicon s b).Tells (.and [c₁, p.condition, c₂]) := by
  rcases p.product_or_split with hprod | ⟨ls, rs, l, r, hts, hφ, hl, hr⟩
  · exact tells_of_product hprod h₁ h₂
  · obtain ⟨f, hf, hfv⟩ := h₁.exists_reads
    obtain ⟨g, hg, hgv⟩ := h₂.exists_reads
    obtain ⟨χ, hχ, hv⟩ := exists_reads_torn hts hl hr h₁.toTerm hf h₂.toTerm hg
    refine (Lexicon.tells_list_iff .and _).mpr (.inr ⟨χ, hχ, fun v => ?_⟩)
    have hfalse : χ.eval v = false := by
      refine Bool.eq_false_iff.mpr fun hc => ?_
      have hor := (hv v).2.2 hc
      have hnever := hp (v ∘ .inr)
      rw [hφ, Formula.eval, Bool.or_eq_false_iff] at hnever
      simp [hnever.1, hnever.2] at hor
    have htr := Lexicon.truth_between (hfv v)
      (truth_condition (text_ne_empty_of_split hts) v) (hgv v)
    rw [hp, Bool.and_false, Bool.false_and, ← hfalse] at htr
    exact htr

/-- **A predicate with an `OR` outside of parentheses does not stay one operand** where one neighbour
holds, the other fails, and so much of the predicate holds as goes with the one that does. -/
theorem not_tells_of_split {ls rs : List (Token α)} {l r : Formula α}
    (hts : p.tokens = ls ++ .or :: rs) (hl : Reads .sum ls l) (hr : Reads .product rs r)
    {c₁ c₂ : Condition} (h₁ : (p.lexicon s b).Factor c₁) (h₂ : (p.lexicon s b).Factor c₂)
    {v : Condition ⊕ α → Bool} {t₁ t₂ : Bool}
    (ht₁ : c₁.truth ((p.lexicon s b).truth v) = some t₁)
    (ht₂ : c₂.truth ((p.lexicon s b).truth v) = some t₂)
    (h : t₁ = true ∧ t₂ = false ∧ l.eval (v ∘ .inr) = true ∨
      t₁ = false ∧ t₂ = true ∧ r.eval (v ∘ .inr) = true) :
    ¬ (p.lexicon s b).Tells (.and [c₁, p.condition, c₂]) := by
  intro ht
  obtain ⟨f, hf, hfv⟩ := h₁.exists_reads
  obtain ⟨g, hg, hgv⟩ := h₂.exists_reads
  obtain ⟨χ, hχ, hv⟩ := exists_reads_torn hts hl hr h₁.toTerm hf h₂.toTerm hg
  have hχv := ((Lexicon.tells_list_iff .and _).mp ht).eq_eval hχ v
  have hc := Lexicon.truth_between ht₁ (truth_condition (text_ne_empty_of_split hts) v) ht₂
  -- the list fails, for one of its conditions does, and yet its text holds
  have hfalse : χ.eval v = false := by
    rcases h with ⟨rfl, rfl, -⟩ | ⟨rfl, rfl, -⟩
    · rw [Bool.and_false] at hc
      exact Option.some.inj (hχv.symm.trans hc)
    · rw [Bool.false_and, Bool.false_and] at hc
      exact Option.some.inj (hχv.symm.trans hc)
  have hf₁ : t₁ = f.eval v := Option.some.inj (ht₁.symm.trans (hfv v))
  have hg₂ : t₂ = g.eval v := Option.some.inj (ht₂.symm.trans (hgv v))
  have htrue : χ.eval v = true := by
    rcases h with ⟨h1, -, hl⟩ | ⟨-, h2, hr⟩
    · rw [(hv v).1 (hf₁.symm.trans h1), hl, Bool.true_or]
    · exact (hv v).2.1 (by rw [hr, ← hg₂, h2]; rfl)
  rw [hfalse] at htrue
  cases htrue

/-- No atom of a text is the predicate. -/
def Absent (p : Predicate α) (s : Scope) (b : Binding) (ts : List (Token Condition)) : Prop :=
  ∀ a, .atom a ∈ ts → (a.phrase s).said b ≠ p.text

/-- A text without the predicate is read as it is. -/
theorem tokens_of_absent {ts : List (Token Condition)} (h : p.Absent s b ts) :
    (p.lexicon s b).tokens ts = ts.map (Token.map .inl) := by
  induction ts with
  | nil => rfl
  | cons t ts ih =>
    rw [Lexicon.tokens_cons, ih fun a ha => h a (List.mem_cons_of_mem _ ha), List.map_cons]
    cases t with
    | atom a =>
      rw [Lexicon.lexeme, entry_of_ne (h a List.mem_cons_self)]
      rfl
    | and | or | not | opening | closing => rfl

/-- **A condition without the predicate is an operand of `AND`.** -/
theorem factor_of_absent {c : Condition} (hr : c.readable = true) (ht : c.textless = false)
    (h : p.Absent s b c.tokens) : (p.lexicon s b).Factor c := by
  obtain ⟨φ, hf, hs, hv⟩ := c.settled.reads hr ht
  have hto : (p.lexicon s b).operand c =
      (Condition.enclosedTokens c.needsParens c.tokens).map (Token.map .inl) := by
    refine tokens_of_absent fun a ha => h a ?_
    unfold Condition.enclosedTokens at ha
    split at ha
    · simpa using ha
    · exact ha
  have hp : Reads .product ((p.lexicon s b).operand c) (φ.map .inl) :=
    hto ▸ .product (hf.map Sum.inl)
  have ha : Reads .sum ((p.lexicon s b).tokens c.tokens) (φ.map .inl) :=
    tokens_of_absent h ▸ hs.map Sum.inl
  refine ⟨⟨ht, _, .sum hp, ha, fun v => ?_⟩, _, hp⟩
  rw [hv, Formula.eval_map]
  exact congrArg some (hs.eval_congr fun a ha => truth_of_ne (h a ha) v)

/-- A leaf with any other text is an operand of `AND`, and an atom. -/
theorem factor_leaf {c : Condition} (h : c.isLeaf = true) (ht : c.textless = false)
    (hne : (c.phrase s).said b ≠ p.text) :
    (p.lexicon s b).Factor c ∧
      ∀ v, c.truth ((p.lexicon s b).truth v) = some (v (.inl c)) := by
  refine ⟨factor_of_absent (Condition.readable_leaf h) ht fun a ha => ?_, fun v => ?_⟩
  · rw [Condition.tokens_leaf h, ht, if_neg (by simp), List.mem_singleton] at ha
    cases ha
    exact hne
  · rw [Condition.truth_leaf h, ht, truth_of_ne hne]
    rfl

/-- A predicate that is no product and holds somewhere does not stay one operand everywhere. -/
theorem exists_not_tells (hp : ¬ IsProduct p.tokens) {v₀ : α → Bool}
    (hv₀ : p.formula.eval v₀ = true) :
    ∃ c₁ c₂, (p.lexicon s b).Factor c₁ ∧ (p.lexicon s b).Factor c₂ ∧
      ¬ (p.lexicon s b).Tells (.and [c₁, p.condition, c₂]) := by
  obtain ⟨ls, rs, l, r, hts, hφ, hl, hr⟩ := p.product_or_split.resolve_left hp
  have hlen : ∀ x : Char, p.text.push x ≠ p.text := fun x h => by
    have := congrArg String.length h
    simp at this
  -- two texts that are not that of the predicate, and not each other
  have hf : ∀ x : Char, (p.lexicon s b).Factor (.expression (.raw (p.text.push x))) ∧
      ∀ v, (Condition.expression (.raw (p.text.push x))).truth ((p.lexicon s b).truth v) =
        some (v (.inl (.expression (.raw (p.text.push x))))) := fun x =>
    factor_leaf rfl (by simp [textless_raw]) (by rw [said_raw]; exact hlen x)
  obtain ⟨h₁, ht₁⟩ := hf '1'
  obtain ⟨h₂, ht₂⟩ := hf '2'
  have hne : p.text.push '1' ≠ p.text.push '2' := by simp
  have holds : ∀ t u : String, Sum.elim (fun c => decide ((Condition.phrase s c).said b = u)) v₀
      (.inl (.expression (.raw t))) = decide (t = u) := fun t u => by
    rw [Sum.elim_inl, said_raw]
  refine ⟨_, _, h₁, h₂, ?_⟩
  rw [hφ, Formula.eval, Bool.or_eq_true] at hv₀
  rcases hv₀ with hv₀ | hv₀
  · refine not_tells_of_split hts hl hr h₁ h₂ (ht₁ (Sum.elim
      (fun c => decide ((c.phrase s).said b = p.text.push '1')) v₀)) (ht₂ _) (.inl ⟨?_, ?_, hv₀⟩)
    · rw [holds, decide_eq_true rfl]
    · rw [holds, decide_eq_false hne.symm]
  · refine not_tells_of_split hts hl hr h₁ h₂ (ht₁ (Sum.elim
      (fun c => decide ((c.phrase s).said b = p.text.push '2')) v₀)) (ht₂ _) (.inr ⟨?_, ?_, hv₀⟩)
    · rw [holds, decide_eq_false hne]
    · rw [holds, decide_eq_true rfl]

/-- **Between operands of `AND` a predicate stays one exactly if it is a product or never holds.** -/
theorem tells_and_iff :
    (∀ c₁ c₂, (p.lexicon s b).Factor c₁ → (p.lexicon s b).Factor c₂ →
      (p.lexicon s b).Tells (.and [c₁, p.condition, c₂])) ↔
    IsProduct p.tokens ∨ ∀ v, p.formula.eval v = false := by
  constructor
  · intro h
    by_contra hn
    obtain ⟨hp, hv⟩ := not_or.mp hn
    obtain ⟨v₀, hv₀⟩ := not_forall.mp hv
    obtain ⟨c₁, c₂, h₁, h₂, hnot⟩ := exists_not_tells hp (by simpa using hv₀)
    exact hnot (h c₁ c₂ h₁ h₂)
  · rintro (hp | hv) c₁ c₂ h₁ h₂
    · exact tells_of_product hp h₁ h₂
    · exact tells_of_never hv h₁ h₂

end Predicate

/-- The lexicon of a query that knows one predicate. -/
abbrev Query.lexicon (q : Query) (p : Predicate α) : Lexicon (Condition ⊕ α) q.scope q.binding :=
  p.lexicon q.scope q.binding

/-- **A predicate stays one operand exactly if it has no `OR` outside of parentheses, or never
holds.** The words of a group are the text that is written, and where products alone stand beside
`AND` they say the truth of the group. Any readable condition without the predicate is an operand of
`AND`. Between two of these, in the filter of a query or in a list, a predicate has its place if it
is a product; any other is torn, unless it is false at any rate. `OR` keeps every predicate whole. -/
theorem predicate_whole_iff (q : Query) :
    (∀ (L : Lexicon α q.scope q.binding) (g : ConditionGroup),
      (∀ w ∈ L.cut g.tokens, w.2.Spelled w.1) ∧
      (∀ ps d', Draft.write ⟨q.binding, ps⟩ (g.phrase q.scope) = (d', none) →
        d'.text = Draft.text ⟨q.binding, ps⟩ ++ String.join ((L.cut g.tokens).map Prod.fst)) ∧
      (g.readable = true → (∀ i ∈ g, L.Isolated i.2) → L.Apart g → L.TellsGroup g)) ∧
    ∀ p : Predicate α,
      (∀ c, c.readable = true → c.textless = false → p.Absent q.scope q.binding c.tokens →
        (q.lexicon p).Factor c) ∧
      ((∀ c₁ c₂, (q.lexicon p).Factor c₁ → (q.lexicon p).Factor c₂ →
          (q.lexicon p).TellsGroup
            (((({ q with filters := [] } : Query).filter c₁).filter p.condition).filter c₂).filters) ↔
        IsProduct p.tokens ∨ ∀ v, p.formula.eval v = false) ∧
      ((∀ c₁ c₂, (q.lexicon p).Factor c₁ → (q.lexicon p).Factor c₂ →
          (q.lexicon p).Tells (.and [c₁, p.condition, c₂])) ↔
        IsProduct p.tokens ∨ ∀ v, p.formula.eval v = false) ∧
      ∀ c₁ c₂, (q.lexicon p).Term c₁ → (q.lexicon p).Term c₂ →
        (q.lexicon p).Tells (.or [c₁, p.condition, c₂]) := by
  refine ⟨fun L g => ⟨L.spelled_cut g.tokens, fun ps d' h => ?_, Lexicon.tellsGroup_of_apart⟩,
    fun p => ?_⟩
  · rw [g.phrase_same] at h
    rw [Phrase.text_write h, L.text_cut_eq]
  · refine ⟨fun _ => Predicate.factor_of_absent, ?_, Predicate.tells_and_iff, fun c₁ c₂ h₁ h₂ => ?_⟩
    · rw [← Predicate.tells_and_iff (s := q.scope) (b := q.binding)]
      exact forall₄_congr fun c₁ c₂ _ _ =>
        (Lexicon.tells_list_iff .and [c₁, p.condition, c₂]).symm
    · exact Predicate.tells_beside .or h₁ h₂ (Lexicon.apart_or _ _)

/-! ## A loose `OR` -/

/-- `[A] = 1 OR [B] = 2` -/
def looseOr : Predicate Bool where
  cut := [("[A] = 1", .atom false), (" OR ", .or), ("[B] = 2", .atom true)]
  formula := .or (.atom false) (.atom true)
  spelled := by
    intro w hw
    simp only [List.mem_cons, List.not_mem_nil, or_false] at hw
    rcases hw with rfl | rfl | rfl
    · exact fun word h => by cases h
    · intro word h
      cases h
      decide
    · exact fun word h => by cases h
  reads := Reads.or (.sum (.product (.atom false))) (.product (.atom true))

/-- The rows of a tenant that the predicate holds for. -/
def tenantRows : Query :=
  (((Query.new ⟨"T", none⟩ (.new .sqlServer)).filter (.equals "Tenant" (.int 1))).filter
    looseOr.condition).filter (.equals "C" (.int 3))

/-- Filtered by a tenant, by `[A] = 1 OR [B] = 2` and by a third condition, the rows are not those
for which all three hold: the text has the predicate without parentheses. -/
theorem tenantRows_torn :
    tenantRows.filtering.said tenantRows.binding =
      " WHERE [Tenant] = 1 AND [A] = 1 OR [B] = 2 AND [C] = 3" ∧
    ¬ (tenantRows.lexicon looseOr).TellsGroup tenantRows.filters := by
  constructor
  · decide
  · intro h
    obtain ⟨h₁, ht₁⟩ := Predicate.factor_leaf (p := looseOr) (s := tenantRows.scope)
      (b := tenantRows.binding) (c := .equals "Tenant" (.int 1)) rfl rfl (by decide)
    obtain ⟨h₂, ht₂⟩ := Predicate.factor_leaf (p := looseOr) (s := tenantRows.scope)
      (b := tenantRows.binding) (c := .equals "C" (.int 3)) rfl rfl (by decide)
    have hts : looseOr.tokens = [.atom false] ++ .or :: [.atom true] := rfl
    have hl : Reads .sum [.atom false] (Formula.atom false) := .sum (.product (.atom false))
    have hr : Reads .product [.atom true] (Formula.atom true) := .product (.atom true)
    -- the third condition holds and so does the second half of the predicate, for another tenant
    refine Predicate.not_tells_of_split hts hl hr h₁ h₂
      (ht₁ (Sum.elim
        (fun c => decide ((c.phrase tenantRows.scope).said tenantRows.binding = "[C] = 3"))
        fun _ => true))
      (ht₂ _) (.inr ⟨by decide, by decide, rfl⟩) ?_
    exact (Lexicon.tells_list_iff .and [_, _, _]).mpr h

end SqlWeave
