import SqlWeave.Proofs.Logic.Condition

/-!
# What the text of a condition means

The text of a condition is read with `NOT` before `AND` before `OR`. It has the truth of the
condition exactly if the condition is readable, and the same holds for groups, whose conditions are
joined by words of their own. The proof goes from the conditions of a group to the group: operands
that are read as factors make a sum of products, and one operand that cannot be read leaves the
whole text without a reading.

Results:
* `Settled`: a condition is read, blank or stuck; all conditions are settled (`settled`).
* **`says_iff_readable`**: a text says the truth of its condition, or of its group, iff it is
  readable.
-/

namespace SqlWeave

open Logic

namespace ConditionGroup

/-- The conditions of a group that count as written. -/
def written (g : ConditionGroup) : ConditionGroup := g.filter (!·.2.isEmpty)

/-- A condition of a group as an operand behind its word. -/
def unit (i : Connective × Condition) : Connective × List (Token Condition) :=
  (i.1, Condition.enclosedTokens i.2.needsParens i.2.tokens)

/-- The tokens that a group writes. -/
def tokens (g : ConditionGroup) : List (Token Condition) := joined (g.written.map unit)

/-- The truth of a group: the conditions that have one, joined by their words. -/
def truth (v : Condition → Bool) (g : ConditionGroup) : Option Bool :=
  joinedTruth (g.filterMap fun i => (i.2.truth v).map fun b => (i.1, b))

/-- The group has no text. -/
def textless (g : ConditionGroup) : Bool := g.all (·.2.textless)

/-- No word that the group writes lacks an operand. -/
def readable (g : ConditionGroup) : Bool :=
  g.all (·.2.readable) && (g.written.length ≤ 1 || !g.written.any (·.2.textless))

theorem phrase_eq_joinedPhrases (s : Scope) (g : ConditionGroup) :
    g.phrase s = Condition.joinedPhrases
      (g.written.map fun i => (i.1, Condition.enclosed i.2.needsParens (i.2.phrase s))) := by
  unfold phrase Condition.joinedPhrases written
  rw [List.flatMap_map]
  rfl

/-- **The tokens of a group are what it writes.** -/
theorem phrase_same (s : Scope) (g : ConditionGroup) :
    Phrase.Same (g.phrase s) (spelled s g.tokens) := by
  rw [phrase_eq_joinedPhrases]
  refine Condition.joinedPhrases_same s ?_
  rw [List.forall₂_map_left_iff, List.forall₂_map_right_iff, List.forall₂_same]
  exact fun i _ => ⟨rfl, Condition.enclosed_same s _ (i.2.phrase_same s)⟩

end ConditionGroup

namespace Condition

/-- What is known of the text of a condition. -/
structure Settled (c : Condition) : Prop where
  /-- A readable condition with text has its truth, alone and among others. -/
  reads : c.readable = true → c.textless = false →
    ∃ φ, Reads .factor (enclosedTokens c.needsParens c.tokens) φ ∧ Reads .sum c.tokens φ ∧
      ∀ v, truth v c = some (φ.eval v)
  /-- A readable condition without text writes no word. -/
  blank : c.readable = true → c.textless = true → c.tokens = [] ∧ c.needsParens = false
  /-- A condition that is not readable has no reading. -/
  stuck : c.readable = false → IsStuck c.tokens ∧ c.tokens ≠ []

theorem Settled.isStuck_enclosed {c : Condition} (h : c.Settled) (hr : c.readable = false) :
    IsStuck (enclosedTokens c.needsParens c.tokens) := by
  unfold enclosedTokens
  split
  · exact (h.stuck hr).1.enclosed
  · exact (h.stuck hr).1

end Condition

/-! ## From conditions to groups -/

namespace ConditionGroup

variable {g : ConditionGroup} (hs : ∀ i ∈ g, i.2.Settled)

theorem forall_readable (hr : g.readable = true) : ∀ i ∈ g, i.2.readable = true := by
  unfold readable at hr
  rw [Bool.and_eq_true, List.all_eq_true] at hr
  exact hr.1

/-- What has text in a group is written. -/
theorem exists_written (ht : g.textless = false) : ∃ j ∈ g.written, j.2.textless = false := by
  obtain ⟨j, hj, hjt⟩ : ∃ j ∈ g, j.2.textless = false := by
    simpa [textless] using ht
  refine ⟨j, List.mem_filter.mpr ⟨hj, ?_⟩, hjt⟩
  rw [j.2.isEmpty_of_hasText hjt]
  rfl

theorem textless_of_mem_written (hr : g.readable = true) (ht : g.textless = false) :
    ∀ i ∈ g.written, i.2.textless = false := by
  intro i hi
  unfold readable at hr
  rw [Bool.and_eq_true, Bool.or_eq_true, decide_eq_true_eq] at hr
  rcases hr.2 with hl | ha
  · -- the one condition that is written is the one that has text
    obtain ⟨j, hj, hjt⟩ := exists_written ht
    have hw : g.written = [j] := by
      cases h : g.written with
      | nil => rw [h] at hj; cases hj
      | cons k rest =>
        rw [h] at hl hj
        cases rest with
        | nil => rw [List.mem_singleton.mp hj]
        | cons _ _ => simp at hl
    rw [hw] at hi
    rw [List.mem_singleton.mp hi]
    exact hjt
  · have hn := ha
    simp only [Bool.not_eq_true', List.any_eq_false] at hn
    simpa using hn i hi

/-- Where each written condition has a formula of its truth, the truths of the group are those of
the formulas. -/
theorem exists_formulas {β : Type} {P : Connective × Condition → Formula β → Prop}
    {w : (β → Bool) → Condition → Bool}
    (h : ∀ i ∈ g.written, ∃ φ, P i φ ∧ ∀ v, i.2.truth (w v) = some (φ.eval v)) :
    ∃ fs : List (Connective × Formula β),
      List.Forall₂ (fun i f => i.1 = f.1 ∧ P i f.2) g.written fs ∧
      ∀ v, (g.filterMap fun i => (i.2.truth (w v)).map fun b => (i.1, b)) =
        fs.map fun f => (f.1, f.2.eval v) := by
  unfold written at h ⊢
  induction g with
  | nil => exact ⟨[], .nil, fun v => rfl⟩
  | cons i g ih =>
    rw [List.filter_cons] at h ⊢
    cases he : i.2.isEmpty with
    | true =>
      rw [he] at h
      obtain ⟨fs, hf, hv⟩ := ih h
      refine ⟨fs, hf, fun v => ?_⟩
      rw [List.filterMap_cons, i.2.truth_eq_none (w v) (i.2.textless_of_isEmpty he), ← hv]
      rfl
    | false =>
      rw [he] at h
      obtain ⟨⟨φ, hφ, ht⟩, hr⟩ := List.forall_mem_cons.mp h
      obtain ⟨fs, hf, hv⟩ := ih hr
      refine ⟨(i.1, φ) :: fs, .cons ⟨rfl, hφ⟩ hf, fun v => ?_⟩
      rw [List.filterMap_cons, ht, List.map_cons, ← hv]
      rfl

include hs in
theorem reads_of_readable (hr : g.readable = true) (ht : g.textless = false) :
    ∃ φ, Reads .sum g.tokens φ ∧ (g.written.length ≤ 1 → Reads .factor g.tokens φ) ∧
      ∀ v, g.truth v = some (φ.eval v) := by
  have hw := textless_of_mem_written hr ht
  have ha := forall_readable hr
  obtain ⟨fs, hf, hv⟩ := exists_formulas (w := fun v => v) fun i hi => by
    have hm := (List.mem_filter.mp hi).1
    obtain ⟨φ, hφ, -, hv⟩ := (hs i hm).reads (ha i hm) (hw i hi)
    exact ⟨φ, hφ, hv⟩
  replace hf : List.Forall₂ UnitReads (g.written.map unit) fs :=
    List.forall₂_map_left_iff.mpr hf
  unfold tokens truth
  cases h : g.written with
  | nil =>
    obtain ⟨j, hj, -⟩ := exists_written ht
    rw [h] at hj
    cases hj
  | cons i rest =>
    rw [h] at hf
    cases rest with
    | nil =>
      cases hf with
      | @cons _ f _ fs hu hf =>
        cases hf
        have hj : joined [unit i] = (unit i).2 := List.append_nil _
        rw [List.map_singleton, hj]
        refine ⟨f.2, .sum (.product hu.2), fun _ => hu.2, fun v => ?_⟩
        rw [hv v]
        rfl
    | cons j rest =>
      obtain ⟨χ, hχ, ht⟩ := reads_joined hf (by simp)
      refine ⟨χ, hχ, fun hl => absurd hl (by simp), fun v => ?_⟩
      rw [hv v]
      exact ht v

include hs in
theorem tokens_of_textless (hr : g.readable = true) (ht : g.textless = true) :
    g.tokens = [] ∧ g.written.length ≤ 1 := by
  unfold readable at hr
  unfold textless at ht
  rw [Bool.and_eq_true, Bool.or_eq_true, decide_eq_true_eq, List.all_eq_true] at hr
  rw [List.all_eq_true] at ht
  have hm : ∀ i ∈ g.written, i ∈ g := fun i hi => (List.mem_filter.mp hi).1
  have hl : g.written.length ≤ 1 := by
    rcases hr.2 with hl | ha
    · exact hl
    · cases h : g.written with
      | nil => exact Nat.zero_le 1
      | cons i rest =>
        rw [h] at ha
        simp [ht i (hm i (h ▸ List.mem_cons_self))] at ha
  refine ⟨?_, hl⟩
  unfold tokens
  cases h : g.written with
  | nil => rfl
  | cons i rest =>
    have hi := hm i (h ▸ List.mem_cons_self)
    obtain ⟨htk, hp⟩ := (hs i hi).blank (hr.1 i hi) (ht i hi)
    have hrest : rest = [] := by
      rw [h] at hl
      cases rest with
      | nil => rfl
      | cons _ _ => simp at hl
    subst hrest
    rw [List.map_singleton, unit, hp, htk]
    rfl

/-- An operand that is not readable, or has no text, is stuck. -/
theorem isStuck_unit {i : Connective × Condition} (h : i.2.Settled)
    (hb : i.2.readable = false ∨ i.2.textless = true) : IsStuck (unit i).2 := by
  cases hr : i.2.readable with
  | false => exact h.isStuck_enclosed hr
  | true =>
    have ht : i.2.textless = true := hb.resolve_left (by simp [hr])
    obtain ⟨htk, hp⟩ := h.blank hr ht
    rw [unit, hp, htk]
    exact isStuck_nil

theorem reads_or_isStuck_unit {i : Connective × Condition} (h : i.2.Settled) :
    (∃ φ, Reads .factor (unit i).2 φ) ∨ IsStuck (unit i).2 := by
  by_cases hb : i.2.readable = true ∧ i.2.textless = false
  · obtain ⟨φ, hφ, -, -⟩ := h.reads hb.1 hb.2
    exact .inl ⟨φ, hφ⟩
  · refine .inr (isStuck_unit h ?_)
    cases hr : i.2.readable with
    | false => exact .inl rfl
    | true =>
      refine .inr ?_
      by_contra ht
      exact hb ⟨hr, by simpa using ht⟩

/-- In a group that is not readable a written condition is not, or one of several has no text. -/
theorem exists_written_unread (hr : g.readable = false) :
    (∃ i ∈ g.written, i.2.readable = false) ∨
      (1 < g.written.length ∧ ∃ i ∈ g.written, i.2.textless = true) := by
  by_cases ha : ∀ i ∈ g, i.2.readable = true
  · have haa : g.all (·.2.readable) = true := List.all_eq_true.mpr ha
    unfold readable at hr
    rw [haa, Bool.true_and, Bool.or_eq_false_iff, decide_eq_false_iff_not, Nat.not_le,
      Bool.not_eq_false', List.any_eq_true] at hr
    exact .inr hr
  · simp only [not_forall, Bool.not_eq_true] at ha
    obtain ⟨i, hi, hir⟩ := ha
    -- what is left out is readable, so this one is written
    refine .inl ⟨i, List.mem_filter.mpr ⟨hi, ?_⟩, hir⟩
    cases he : i.2.isEmpty with
    | false => rfl
    | true => rw [i.2.readable_of_isEmpty he] at hir; cases hir

theorem tokens_ne_nil {i : Connective × Condition} (hi : i ∈ g.written)
    (hn : i.2.tokens ≠ [] ∨ 1 < g.written.length) : g.tokens ≠ [] := by
  unfold tokens
  cases h : g.written with
  | nil => rw [h] at hi; cases hi
  | cons j rest =>
    cases rest with
    | cons k rest => simp [joined, following]
    | nil =>
      rw [h] at hi hn
      have ht : i.2.tokens ≠ [] := hn.resolve_right (by simp)
      obtain rfl := List.mem_singleton.mp hi
      have hj : joined [unit i] = (unit i).2 := List.append_nil _
      rw [List.map_singleton, hj, unit, Condition.enclosedTokens]
      split
      · simp
      · exact ht

include hs in
/-- One operand that cannot be read leaves the group without a reading. -/
theorem isStuck_of_not_readable (hr : g.readable = false) :
    IsStuck g.tokens ∧ g.tokens ≠ [] := by
  have hm : ∀ i ∈ g.written, i.2.Settled := fun i hi => hs i (List.mem_filter.mp hi).1
  have hu : ∀ u ∈ g.written.map unit, (∃ φ, Reads .factor u.2 φ) ∨ IsStuck u.2 := fun u h => by
    obtain ⟨i, hi, rfl⟩ := List.mem_map.mp h
    exact reads_or_isStuck_unit (hm i hi)
  rcases exists_written_unread hr with ⟨i, hi, hir⟩ | ⟨hl, i, hi, hit⟩
  · exact ⟨isStuck_joined hu ⟨unit i, List.mem_map_of_mem hi, isStuck_unit (hm i hi) (.inl hir)⟩,
      tokens_ne_nil hi (.inl ((hm i hi).stuck hir).2)⟩
  · exact ⟨isStuck_joined hu ⟨unit i, List.mem_map_of_mem hi, isStuck_unit (hm i hi) (.inr hit)⟩,
      tokens_ne_nil hi (.inr hl)⟩

end ConditionGroup

/-! ## All conditions -/

namespace Condition

theorem settled_leaf {c : Condition} (h : c.isLeaf = true) : c.Settled where
  reads := by
    intro _ ht
    rw [needsParens_leaf h, tokens_leaf h, ht]
    refine ⟨.atom c, .atom c, .sum (.product (.atom c)), fun v => ?_⟩
    rw [truth_leaf h, ht]
    rfl
  blank := by
    intro _ ht
    rw [tokens_leaf h, ht]
    exact ⟨rfl, needsParens_leaf h⟩
  stuck := by
    intro hr
    rw [readable_leaf h] at hr
    cases hr

/-- A list as a group whose words are all the same. -/
def grouped (word : Connective) (items : List Condition) : ConditionGroup :=
  items.map fun c => (word, c)

section

variable (word : Connective) (items : List Condition)

theorem written_grouped :
    (grouped word items).written = (written items).map fun c => (word, c) := List.filter_map

theorem tokens_grouped : (list word items).tokens = (grouped word items).tokens := by
  rw [tokens_list, ConditionGroup.tokens, written_grouped, List.map_map]
  rfl

theorem truth_grouped (v : Condition → Bool) :
    truth v (list word items) = (grouped word items).truth v := by
  rw [truth_list, ConditionGroup.truth, grouped, List.filterMap_map, List.map_filterMap]
  rfl

theorem textless_grouped : (list word items).textless = (grouped word items).textless := by
  rw [textless_list, ConditionGroup.textless, grouped, List.all_map]
  rfl

theorem readable_grouped : (list word items).readable = (grouped word items).readable := by
  rw [readable_list, ConditionGroup.readable, written_grouped, List.length_map, List.any_map,
    grouped, List.all_map]
  rfl

theorem needsParens_grouped :
    (list word items).needsParens = decide (1 < (grouped word items).written.length) := by
  rw [needsParens_list, written_grouped, List.length_map]

theorem forall_mem_grouped {P : Condition → Prop} :
    (∀ i ∈ grouped word items, P i.2) ↔ ∀ c ∈ items, P c := List.forall_mem_map

end

theorem settled_list (word : Connective) {items : List Condition}
    (hs : ∀ c ∈ items, c.Settled) : (list word items).Settled := by
  have hg := (forall_mem_grouped word items).mpr hs
  have htl := textless_grouped word items
  have hrd := readable_grouped word items
  refine ⟨fun hr ht => ?_, fun hr ht => ?_, fun hr => ?_⟩
  · obtain ⟨φ, hφ, hf, hv⟩ :=
      ConditionGroup.reads_of_readable hg (hrd.symm.trans hr) (htl.symm.trans ht)
    rw [tokens_grouped, needsParens_grouped]
    refine ⟨φ, ?_, hφ, fun v => (truth_grouped word items v).trans (hv v)⟩
    unfold enclosedTokens
    split
    · exact .enclosed hφ
    · rename_i h
      exact hf (by simpa using h)
  · obtain ⟨ht, hle⟩ :=
      ConditionGroup.tokens_of_textless hg (hrd.symm.trans hr) (htl.symm.trans ht)
    rw [tokens_grouped, needsParens_grouped]
    exact ⟨ht, by simpa using hle⟩
  · rw [tokens_grouped]
    exact ConditionGroup.isStuck_of_not_readable hg (hrd.symm.trans hr)

theorem settled_not {c : Condition} (h : c.Settled) : (not c).Settled := by
  have hp : (not c).needsParens = false := rfl
  cases he : c.isEmpty with
  | true =>
    have htk : (not c).tokens = [] := by
      unfold tokens
      rw [if_pos he]
    have ht : (not c).textless = true := by
      unfold textless
      exact c.textless_of_isEmpty he
    have hr : (not c).readable = true := readable_of_isEmpty _ (by unfold isEmpty; exact he)
    refine ⟨fun _ h => ?_, fun _ _ => ⟨htk, hp⟩, fun h => ?_⟩
    · rw [ht] at h; cases h
    · rw [hr] at h; cases h
  | false =>
    have htk : (not c).tokens = .not :: (.opening :: c.tokens ++ [.closing]) := by
      rw [tokens, he]
      rfl
    have ht : (not c).textless = c.textless := by rw [textless]
    have hr : (not c).readable = (c.readable && !c.textless) := by
      rw [readable, he]
      rfl
    refine ⟨fun hr' ht' => ?_, fun hr' ht' => ?_, fun hr' => ?_⟩
    · rw [hr, Bool.and_eq_true] at hr'
      obtain ⟨φ, -, hφ, hv⟩ := h.reads hr'.1 (ht ▸ ht')
      have hf : Reads .factor (not c).tokens (.not φ) := htk ▸ .not (.enclosed hφ)
      refine ⟨.not φ, ?_, .sum (.product hf), fun v => ?_⟩
      · rw [hp]
        exact hf
      · rw [truth, hv]
        rfl
    · rw [hr, ← ht, ht'] at hr'
      simp at hr'
    · rw [htk]
      refine ⟨IsStuck.not (IsStuck.enclosed ?_), by simp⟩
      cases hc : c.readable with
      | false => exact (h.stuck hc).1
      | true =>
        rw [hr, hc, Bool.true_and, Bool.not_eq_false'] at hr'
        rw [(h.blank hc hr').1]
        exact isStuck_nil

/-- **Every condition is read, blank or stuck.** -/
theorem settled (c : Condition) : c.Settled := by
  induction c using forall_of_tree with
  | leaf c h => exact settled_leaf h
  | list word items ih => exact settled_list word ih
  | not c ih => exact settled_not ih

theorem says_iff (c : Condition) : Says c.tokens (truth · c) ↔ c.readable = true := by
  cases hr : c.readable with
  | false =>
    obtain ⟨hs, hn⟩ := c.settled.stuck hr
    exact iff_of_false (not_says_of_isStuck hs hn _) (by simp)
  | true =>
    refine iff_of_true ?_ rfl
    cases ht : c.textless with
    | true => exact .inl ⟨(c.settled.blank hr ht).1, fun v => truth_eq_none v c ht⟩
    | false =>
      obtain ⟨φ, -, hφ, hv⟩ := c.settled.reads hr ht
      exact .inr ⟨φ, hφ, hv⟩

end Condition

/-- A group without text has no truth. -/
theorem ConditionGroup.truth_of_textless (v : Condition → Bool) {g : ConditionGroup}
    (ht : g.textless = true) : g.truth v = none := by
  have hn : (g.filterMap fun i => (i.2.truth v).map fun b => (i.1, b)) = [] := by
    rw [List.filterMap_eq_nil_iff]
    intro i hi
    rw [Condition.truth_eq_none v i.2 (List.all_eq_true.mp ht i hi)]
    rfl
  exact congrArg joinedTruth hn

theorem ConditionGroup.says_iff (g : ConditionGroup) :
    Says g.tokens (g.truth ·) ↔ g.readable = true := by
  have hs : ∀ i ∈ g, i.2.Settled := fun i _ => i.2.settled
  cases hr : g.readable with
  | false =>
    obtain ⟨hs, hn⟩ := isStuck_of_not_readable hs hr
    exact iff_of_false (not_says_of_isStuck hs hn _) (by simp)
  | true =>
    refine iff_of_true ?_ rfl
    cases ht : g.textless with
    | true =>
      exact .inl ⟨(tokens_of_textless hs hr ht).1, fun v => truth_of_textless v ht⟩
    | false =>
      obtain ⟨φ, hφ, -, hv⟩ := reads_of_readable hs hr ht
      exact .inr ⟨φ, hφ, hv⟩

/-- **A text means what its condition means, exactly if the condition is readable.** What a
condition or a group writes are its tokens, and these, read with `NOT` before `AND` before `OR`,
have the truth of what has text in it for every truth of the leaves. -/
theorem says_iff_readable (s : Scope) (c : Condition) (g : ConditionGroup) :
    (Phrase.Same (c.phrase s) (spelled s c.tokens) ∧
      (Says c.tokens (Condition.truth · c) ↔ c.readable = true)) ∧
    (Phrase.Same (g.phrase s) (spelled s g.tokens) ∧
      (Says g.tokens (g.truth ·) ↔ g.readable = true)) :=
  ⟨⟨c.phrase_same s, c.says_iff⟩, ⟨g.phrase_same s, g.says_iff⟩⟩

/-- A fragment that is a place for a fragment without text, joined to a condition that always
holds, leaves `AND` without an operand. -/
theorem not_says_hole :
    ¬ Says (Condition.and [.expression (.join [.raw ""] ""), .always]).tokens
      (Condition.truth · (.and [.expression (.join [.raw ""] ""), .always])) := by
  rw [Condition.says_iff]
  decide

end SqlWeave
