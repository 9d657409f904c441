import Mathlib.Data.List.Infix
import SqlWeave.Member.DatePattern

/-!
# Spans taken by tokens

A token takes the span of its first occurrence, unless a token before it in the table has some of
it. So the spans stand one behind the other however the tokens are ordered, and what is written
between two of them is the pattern as it was.

Results:
* `find?_eq_some_iff`: the place found is that of the first occurrence.
* `ordered_spans`: spans have places and are apart, each behind the one before.
* `mem_spans_concat`: which spans a table with one more token takes.
* `replace_skip`, `replace_span`: what is written up to a span, and of one.
-/

namespace SqlWeave.DatePattern

/-! ## First occurrences -/

/-- **The place found is that of the first occurrence.** -/
theorem find?_eq_some_iff {token cs : List Char} {p : Nat} :
    find? token cs = some p ↔ token <+: cs.drop p ∧ ∀ q < p, ¬ token <+: cs.drop q := by
  induction cs generalizing p with
  | nil =>
    simp only [find?, List.isEmpty_iff, List.drop_nil, List.prefix_nil]
    split
    · rename_i ht
      subst ht
      simp only [Option.some.injEq, not_true_eq_false, imp_false, true_and]
      exact ⟨fun h q hq => absurd (h ▸ hq) (Nat.not_lt_zero q),
        fun h => (Nat.eq_zero_of_not_pos (h 0)).symm⟩
    · rename_i ht
      simp [ht]
  | cons c rest ih =>
    unfold find?
    split
    · rename_i ht
      rw [List.isPrefixOf_iff_prefix] at ht
      constructor
      · rintro ⟨⟩
        exact ⟨ht, fun _ hq => absurd hq (Nat.not_lt_zero _)⟩
      · rintro ⟨-, hq⟩
        rcases Nat.eq_zero_or_pos p with rfl | hp
        · rfl
        · exact absurd ht (hq 0 hp)
    · rename_i ht
      rw [List.isPrefixOf_iff_prefix] at ht
      cases p with
      | zero => simpa using fun h => absurd h ht
      | succ p =>
        rw [Option.map_eq_some_iff]
        constructor
        · rintro ⟨p, hp, ⟨⟩⟩
          obtain ⟨hat, hbefore⟩ := ih.mp hp
          refine ⟨hat, fun q hq => ?_⟩
          cases q with
          | zero => exact ht
          | succ q => exact hbefore q (Nat.lt_of_succ_lt_succ hq)
        · rintro ⟨hat, hbefore⟩
          exact ⟨p, ih.mpr ⟨hat, fun q hq => hbefore (q + 1) (Nat.succ_lt_succ hq)⟩, rfl⟩

/-- The span of a token at a place. -/
def Token.spanAt (t : Token) (p : Nat) : Span :=
  ⟨p, p + t.token.toList.length, t.replacement.toList⟩

/-! ## Spans one behind the other -/

/-- Spans with places, each of them behind the one before. -/
structure Ordered (spans : List Span) : Prop where
  nonempty : ∀ c ∈ spans, c.start < c.stop
  apart : spans.Pairwise fun c d => c.stop ≤ d.start

theorem overlaps_eq_false_iff {c d : Span} :
    c.overlaps d = false ↔ d.stop ≤ c.start ∨ c.stop ≤ d.start := by
  simp only [Span.overlaps, Bool.and_eq_false_iff, decide_eq_false_iff_not, Nat.not_lt]

theorem insertSpan_perm (c : Span) (spans : List Span) :
    (insertSpan c spans).Perm (c :: spans) := by
  induction spans with
  | nil => exact .refl _
  | cons d rest ih =>
    unfold insertSpan
    split
    · exact (ih.cons d).trans (.swap c d rest)
    · exact .refl _

/-- A span that is apart from all others finds its place among them. -/
theorem ordered_insertSpan {c : Span} {spans : List Span} (h : Ordered spans)
    (hc : c.start < c.stop) (ha : ∀ d ∈ spans, c.overlaps d = false) :
    Ordered (insertSpan c spans) := by
  induction spans with
  | nil => exact ⟨List.forall_mem_singleton.mpr hc, List.pairwise_singleton _ _⟩
  | cons d rest ih =>
    obtain ⟨hdne, hrne⟩ := List.forall_mem_cons.mp h.nonempty
    obtain ⟨hd, hr⟩ := List.pairwise_cons.mp h.apart
    obtain ⟨had, har⟩ := List.forall_mem_cons.mp ha
    rw [overlaps_eq_false_iff] at had
    unfold insertSpan
    split
    · rename_i hle
      have hrest := ih ⟨hrne, hr⟩ har
      refine ⟨List.forall_mem_cons.mpr ⟨hdne, hrest.nonempty⟩,
        List.pairwise_cons.mpr ⟨fun x hx => ?_, hrest.apart⟩⟩
      rcases List.mem_cons.mp ((insertSpan_perm c rest).mem_iff.mp hx) with rfl | hx
      · omega
      · exact hd x hx
    · rename_i hlt
      refine ⟨List.forall_mem_cons.mpr ⟨hc, h.nonempty⟩,
        List.pairwise_cons.mpr ⟨List.forall_mem_cons.mpr ⟨by omega, fun x hx => ?_⟩, h.apart⟩⟩
      have := hd x hx
      omega

/-! ## The spans of a table -/

variable {pattern : List Char} {tokens : List Token} {t : Token}

theorem spans_concat (pattern : List Char) (tokens : List Token) (t : Token) :
    spans pattern (tokens ++ [t]) = takeToken pattern (spans pattern tokens) t := by
  unfold spans
  rw [List.foldl_append, List.foldl_cons, List.foldl_nil]

theorem takeToken_of_find? {taken : List Span} {p : Nat}
    (h : find? t.token.toList pattern = some p) :
    takeToken pattern taken t =
      if taken.any (t.spanAt p).overlaps then taken else insertSpan (t.spanAt p) taken := by
  unfold takeToken
  rw [h]
  rfl

theorem any_overlaps_iff {c : Span} {spans : List Span} :
    ¬ spans.any c.overlaps = true ↔ ∀ d ∈ spans, c.overlaps d = false := by
  simp

/-- **Which spans a table with one more token takes**: those that it took before, and that of the
token's first occurrence unless it overlaps one of them. -/
theorem mem_spans_concat {c : Span} :
    c ∈ spans pattern (tokens ++ [t]) ↔ c ∈ spans pattern tokens ∨
      ∃ p, find? t.token.toList pattern = some p ∧ c = t.spanAt p ∧
        ∀ d ∈ spans pattern tokens, c.overlaps d = false := by
  rw [spans_concat]
  cases hp : find? t.token.toList pattern with
  | none => simp [takeToken, hp]
  | some p =>
    rw [takeToken_of_find? hp]
    simp only [Option.some.injEq]
    split
    · rename_i hany
      constructor
      · exact .inl
      · rintro (hc | ⟨p, rfl, rfl, hall⟩)
        · exact hc
        · exact absurd hany (any_overlaps_iff.mpr hall)
    · rename_i hnone
      rw [(insertSpan_perm _ _).mem_iff, List.mem_cons]
      constructor
      · rintro (rfl | hc)
        · exact .inr ⟨p, rfl, rfl, any_overlaps_iff.mp hnone⟩
        · exact .inl hc
      · rintro (hc | ⟨p, rfl, rfl, -⟩)
        · exact .inr hc
        · exact .inl rfl

/-- **The spans of a table stand one behind the other**, if no token is empty. -/
theorem ordered_spans (hne : ∀ t ∈ tokens, t.token.toList ≠ []) :
    Ordered (spans pattern tokens) := by
  induction tokens using List.reverseRecOn with
  | nil => exact ⟨fun _ h => (by cases h), .nil⟩
  | append_singleton tokens t ih =>
    have ih := ih fun u hu => hne u (List.mem_append_left _ hu)
    have ht := List.length_pos_iff.mpr (hne t (List.mem_append_right _ List.mem_cons_self))
    rw [spans_concat]
    cases hp : find? t.token.toList pattern with
    | none => simpa [takeToken, hp] using ih
    | some p =>
      rw [takeToken_of_find? hp]
      split
      · exact ih
      · rename_i hnone
        exact ordered_insertSpan ih (Nat.lt_add_of_pos_right ht) (any_overlaps_iff.mp hnone)

/-! ## Writing between spans -/

/-- Up to the next span the pattern is written as it was. -/
theorem replace_skip {spans : List Span} {p k : Nat}
    (h : ∀ c ∈ spans, p + k ≤ c.start) :
    replace pattern p spans = (pattern.drop p).take k ++ replace pattern (p + k) spans := by
  cases spans with
  | nil =>
    rw [replace, replace, ← List.drop_drop, List.take_append_drop]
  | cons c rest =>
    have hc := h c List.mem_cons_self
    have hsplit : c.start - p = k + (c.start - (p + k)) := by omega
    rw [replace, replace, List.drop_take, List.drop_take, hsplit, List.take_add, ← List.drop_drop]
    simp only [List.append_assoc]

/-- A span is replaced. -/
theorem replace_span (c : Span) (spans : List Span) :
    replace pattern c.start (c :: spans) = c.replacement ++ replace pattern c.stop spans := by
  rw [replace, List.drop_eq_nil_of_le (List.length_take_le _ _), List.nil_append]

/-- The spans from a span on are it and those behind it. -/
theorem filter_start_eq_cons {spans : List Span} (h : Ordered spans) : ∀ c ∈ spans,
    (spans.filter fun d => c.start ≤ d.start) = c :: spans.filter fun d => c.stop ≤ d.start := by
  induction spans with
  | nil => exact fun _ hc => by cases hc
  | cons d rest ih =>
    obtain ⟨hdne, hrne⟩ := List.forall_mem_cons.mp h.nonempty
    obtain ⟨hd, hr⟩ := List.pairwise_cons.mp h.apart
    refine List.forall_mem_cons.mpr ⟨?_, fun c hc => ?_⟩
    · have hstart : ∀ x ∈ rest, decide (d.start ≤ x.start) = decide (d.stop ≤ x.start) := by
        intro x hx
        have := hd x hx
        simp only [decide_eq_decide]
        omega
      rw [List.filter_cons_of_pos (by simp), List.filter_cons_of_neg (by simpa using hdne),
        List.filter_congr hstart]
    · have hdc := hd c hc
      have hcne := hrne c hc
      rw [List.filter_cons_of_neg (by simp; omega), List.filter_cons_of_neg (by simp; omega)]
      exact ih ⟨hrne, hr⟩ c hc

end SqlWeave.DatePattern
