import Mathlib.Data.List.MinMax
import SqlWeave.Proofs.DatePattern.Spans

/-!
# Patterns read from left to right

A pattern can be read from left to right, with the longest token taken that stands at a place, and
otherwise one character. Tokens are runs of one letter, so a token that stands inside another one
stands at its beginning too, and a first occurrence is never behind the beginning of another token.

A token translates its first occurrence, unless a longer token is there. So of the tokens taken from
left to right one is translated exactly if it is not the beginning of a token taken before it: only
the first of several alike, and none behind a longer one of its letter. In `dddd, d` the day of the
month stays as it is.

Results:
* `IsRun.prefix_of_inside`: a run that stands inside another one stands at its beginning.
* `mem_spans_iff`: the spans taken are the first occurrences where no longer token stands.
* `replace_eq_write`: a token taken is replaced unless it is the beginning of one taken before.
* `write_eq_flatMap_iff`: when all tokens taken are replaced.
* **`translate_eq_scanned_iff`**: which patterns are translated as they are read.
-/

namespace SqlWeave.DatePattern

/-! ## Reading -/

/-- The longest token of a table at the beginning of a text. -/
def longest? (tokens : List Token) (text : List Char) : Option Token :=
  (tokens.filter fun t => t.token.toList.isPrefixOf text).argmax fun t => t.token.toList.length

/-- A part of a pattern: a token that is taken, or another character. -/
inductive Part where
  | token (t : Token)
  | other (c : Char)

namespace Part

/-- The part as an engine has it. -/
def replaced : Part → List Char
  | token t => t.replacement.toList
  | other c => [c]

/-- The token that is taken. -/
def token? : Part → Option Token
  | token t => some t
  | other _ => none

end Part

/-- The parts of a pattern from left to right: at each place the longest token, or one character. -/
def scan (tokens : List Token) : List Char → List Part
  | [] => []
  | c :: rest =>
    match longest? tokens (c :: rest) with
    | some t => .token t :: scan tokens (rest.drop (t.token.toList.length - 1))
    | none => .other c :: scan tokens rest
termination_by cs => cs.length

/-- The tokens taken from left to right. -/
def taken (tokens : List Token) (pattern : String) : List Token :=
  (scan tokens pattern.toList).filterMap Part.token?

/-- The pattern with every token replaced that is taken from left to right. -/
def scanned (tokens : List Token) (pattern : String) : String :=
  String.ofList ((scan tokens pattern.toList).flatMap Part.replaced)

section Longest

variable {tokens : List Token} {text : List Char} {t u : Token}

theorem longest?_eq_none_iff : longest? tokens text = none ↔
    ∀ u ∈ tokens, ¬ u.token.toList <+: text := by
  unfold longest?
  rw [List.argmax_eq_none, List.filter_eq_nil_iff]
  simp only [List.isPrefixOf_iff_prefix]

theorem mem_of_longest? (h : longest? tokens text = some t) :
    t ∈ tokens ∧ t.token.toList <+: text := by
  simpa using List.argmax_mem (Option.mem_def.mpr h)

/-- The longest token is as long as any that stands there. -/
theorem length_le_of_longest? (h : longest? tokens text = some t) (hu : u ∈ tokens)
    (hp : u.token.toList <+: text) : u.token.toList.length ≤ t.token.toList.length :=
  List.le_of_mem_argmax (f := fun t : Token => t.token.toList.length)
    (List.mem_filter.mpr ⟨hu, List.isPrefixOf_iff_prefix.mpr hp⟩) (Option.mem_def.mpr h)

end Longest

/-! ## Runs -/

/-- A text of one letter, written once or more. -/
def IsRun (cs : List Char) : Prop := ∃ c n, cs = List.replicate (n + 1) c

namespace IsRun

variable {u t rest pattern : List Char} {j p q : Nat}

instance (cs : List Char) : Decidable (IsRun cs) :=
  decidable_of_iff (cs ≠ [] ∧ cs = List.replicate cs.length (cs.headD ' ')) <| by
    constructor
    · rintro ⟨hne, hcs⟩
      obtain ⟨n, hn⟩ := Nat.exists_eq_succ_of_ne_zero (List.length_pos_iff.mpr hne).ne'
      exact ⟨cs.headD ' ', n, hcs.trans (by rw [hn])⟩
    · rintro ⟨c, n, rfl⟩
      rw [List.length_replicate]
      exact ⟨List.cons_ne_nil _ _, rfl⟩

theorem ne_nil (h : IsRun t) : t ≠ [] := by
  obtain ⟨c, n, rfl⟩ := h
  exact List.cons_ne_nil _ _

/-- **A run that stands inside another one stands at its beginning.** -/
theorem prefix_of_inside (hu : IsRun u) (ht : IsRun t) (hr : t <+: rest) (hj : j < t.length)
    (h : u <+: rest.drop j) : u <+: rest := by
  obtain ⟨a, n, rfl⟩ := ht
  obtain ⟨b, m, rfl⟩ := hu
  obtain ⟨behind, rfl⟩ := hr
  rw [List.length_replicate] at hj
  have hsplit : List.replicate (n + 1) a = List.replicate j a ++ List.replicate (n + 1 - j) a := by
    rw [← List.replicate_add, Nat.add_sub_cancel' hj.le]
  rw [hsplit, List.append_assoc, List.drop_left' List.length_replicate] at h
  -- both runs have the letter that the inner one starts with
  have hab : b = a := by
    obtain ⟨k, hk⟩ := Nat.exists_eq_succ_of_ne_zero (Nat.sub_ne_zero_of_lt hj)
    rw [hk, List.replicate_succ, List.replicate_succ, List.cons_append] at h
    exact (List.cons_prefix_cons.mp h).1
  subst hab
  have hlong : List.replicate (m + 1) b <+: List.replicate j b ++ List.replicate (m + 1) b := by
    rw [← List.replicate_add, Nat.add_comm j, List.replicate_add (m + 1)]
    exact List.prefix_append _ _
  rw [hsplit, List.append_assoc]
  exact hlong.trans (List.prefix_append_right_inj _ |>.mpr h)

/-- First occurrences of runs that have a place in common start at the same place. -/
theorem start_eq_of_overlap (hu : IsRun u) (ht : IsRun t) (hp : find? u pattern = some p)
    (hq : find? t pattern = some q) (hqp : q ≤ p) (ho : p < q + t.length) : p = q := by
  obtain ⟨hup, hufirst⟩ := find?_eq_some_iff.mp hp
  obtain ⟨htq, -⟩ := find?_eq_some_iff.mp hq
  by_contra hne
  refine hufirst q (by omega) (hu.prefix_of_inside ht htq (j := p - q) (by omega) ?_)
  rwa [List.drop_drop, Nat.add_sub_cancel' hqp]

end IsRun

/-! ## Tables of runs -/

/-- Tokens are runs, and none of them is the beginning of one behind it: longer ones come first. -/
structure Graded (tokens : List Token) : Prop where
  run : ∀ t ∈ tokens, IsRun t.token.toList
  longFirst : tokens.Pairwise fun t u => ¬ t.token.toList <+: u.token.toList

section Graded

variable {tokens : List Token} {pattern : List Char} {t u : Token} {p : Nat}

theorem Graded.ne_nil (h : Graded tokens) : ∀ t ∈ tokens, t.token.toList ≠ [] :=
  fun t ht => (h.run t ht).ne_nil

/-- Of two runs at one place the shorter is the beginning of the longer. -/
theorem prefix_of_length_le (hu : u.token.toList <+: pattern.drop p)
    (ht : t.token.toList <+: pattern.drop p)
    (hl : u.token.toList.length ≤ t.token.toList.length) : u.token.toList <+: t.token.toList :=
  List.prefix_of_prefix_length_le hu ht hl

/-- What a longer token that stands at the first occurrence of a token begins with does not occur
before either. -/
theorem find?_of_prefix (hp : find? u.token.toList pattern = some p)
    (ht : t.token.toList <+: pattern.drop p) (hu : u.token.toList <+: t.token.toList) :
    find? t.token.toList pattern = some p := by
  obtain ⟨-, hfirst⟩ := find?_eq_some_iff.mp hp
  exact find?_eq_some_iff.mpr ⟨ht, fun q hq h => hfirst q hq (hu.trans h)⟩

/-- A token takes its first occurrence if no longer token stands there. -/
def Takes (tokens : List Token) (pattern : List Char) (t : Token) (p : Nat) : Prop :=
  t ∈ tokens ∧ find? t.token.toList pattern = some p ∧
    ∀ u ∈ tokens, u.token.toList <+: pattern.drop p →
      u.token.toList.length ≤ t.token.toList.length

/-- A token that is longest at its first occurrence among all takes it among those before it. -/
theorem takes_concat_iff (h : Graded (tokens ++ [t])) {v : Token} (hv : v ∈ tokens) :
    Takes (tokens ++ [t]) pattern v p ↔ Takes tokens pattern v p := by
  have hgraded := (List.pairwise_append.mp h.longFirst).2.2
  constructor
  · rintro ⟨-, hp, hlongest⟩
    exact ⟨hv, hp, fun u hu => hlongest u (List.mem_append_left _ hu)⟩
  · rintro ⟨-, hp, hlongest⟩
    refine ⟨List.mem_append_left _ hv, hp, fun u hu hup => ?_⟩
    rcases List.mem_append.mp hu with hu | hu
    · exact hlongest u hu hup
    · rw [List.mem_singleton] at hu
      subst hu
      by_contra hl
      exact hgraded v hv u List.mem_cons_self
        (prefix_of_length_le (find?_eq_some_iff.mp hp).1 hup (Nat.le_of_not_le hl))

/-- Runs whose first occurrences overlap stand at one place. -/
theorem start_eq_of_overlaps {q : Nat} (ht : IsRun t.token.toList) (hu : IsRun u.token.toList)
    (hp : find? t.token.toList pattern = some p) (hq : find? u.token.toList pattern = some q)
    (ho : (t.spanAt p).overlaps (u.spanAt q) ≠ false) : p = q := by
  rw [Ne, overlaps_eq_false_iff] at ho
  simp only [Token.spanAt] at ho
  rcases Nat.le_total q p with hle | hle
  · exact ht.start_eq_of_overlap hu hp hq hle (by omega)
  · exact (hu.start_eq_of_overlap ht hq hp hle (by omega)).symm

/-- Where a token is found first, the longest one takes the place if it is as long. -/
theorem exists_takes (hp : find? t.token.toList pattern = some p) (hu : u ∈ tokens)
    (hup : u.token.toList <+: pattern.drop p)
    (hl : t.token.toList.length ≤ u.token.toList.length) : ∃ w, Takes tokens pattern w p := by
  cases hw : longest? tokens (pattern.drop p) with
  | none => exact absurd hup (longest?_eq_none_iff.mp hw u hu)
  | some w =>
    obtain ⟨hwm, hwp⟩ := mem_of_longest? hw
    have hlong := hl.trans (length_le_of_longest? hw hu hup)
    have hpre := prefix_of_length_le (find?_eq_some_iff.mp hp).1 hwp hlong
    exact ⟨w, hwm, find?_of_prefix hp hwp hpre, fun v hv hvp => length_le_of_longest? hw hv hvp⟩

/-- The last token takes its first occurrence exactly if no token before it has some of it. -/
theorem takes_last_iff (h : Graded (tokens ++ [t])) (hp : find? t.token.toList pattern = some p) :
    Takes (tokens ++ [t]) pattern t p ↔
      ∀ u q, Takes tokens pattern u q → (t.spanAt p).overlaps (u.spanAt q) = false := by
  have hgraded : ∀ u ∈ tokens, ¬ u.token.toList <+: t.token.toList := fun u hu =>
    (List.pairwise_append.mp h.longFirst).2.2 u hu t List.mem_cons_self
  have hmem : t ∈ tokens ++ [t] := List.mem_append_right _ List.mem_cons_self
  have hat := (find?_eq_some_iff.mp hp).1
  constructor
  · rintro ⟨-, -, hlongest⟩ u q ⟨hu, hq, -⟩
    by_contra ho
    have hu' := List.mem_append_left [t] hu
    obtain rfl : p = q := start_eq_of_overlaps (h.run t hmem) (h.run u hu') hp hq ho
    have hup := (find?_eq_some_iff.mp hq).1
    exact hgraded u hu (prefix_of_length_le hup hat (hlongest u hu' hup))
  · intro hapart
    refine ⟨hmem, hp, fun u hu hup => ?_⟩
    by_contra hl
    have hu : u ∈ tokens := by
      refine (List.mem_append.mp hu).resolve_right fun heq => hl ?_
      rw [List.mem_singleton.mp heq]
    obtain ⟨w, hw⟩ := exists_takes hp hu hup (Nat.le_of_not_le hl)
    have ho := overlaps_eq_false_iff.mp (hapart w p hw)
    have ht := List.length_pos_iff.mpr (h.ne_nil t hmem)
    have hwne := List.length_pos_iff.mpr (h.ne_nil w (List.mem_append_left _ hw.1))
    simp only [Token.spanAt] at ho
    omega

/-- **The spans taken are the first occurrences at which no longer token stands.** -/
theorem mem_spans_iff (h : Graded tokens) {c : Span} :
    c ∈ spans pattern tokens ↔ ∃ t p, Takes tokens pattern t p ∧ c = t.spanAt p := by
  induction tokens using List.reverseRecOn generalizing c with
  | nil => exact iff_of_false (by intro hc; cases hc) (by rintro ⟨t, p, ⟨ht, -⟩, -⟩; cases ht)
  | append_singleton tokens t ih =>
    have ih := @ih ⟨fun u hu => h.run u (List.mem_append_left _ hu),
      (List.pairwise_append.mp h.longFirst).1⟩
    rw [mem_spans_concat, ih]
    constructor
    · rintro (⟨u, p, hu, rfl⟩ | ⟨p, hp, rfl, hapart⟩)
      · exact ⟨u, p, (takes_concat_iff h hu.1).mpr hu, rfl⟩
      · exact ⟨t, p, (takes_last_iff h hp).mpr fun u q hu => hapart _ (ih.mpr ⟨u, q, hu, rfl⟩), rfl⟩
    · rintro ⟨u, p, hu, rfl⟩
      rcases List.mem_append.mp hu.1 with hm | hm
      · exact .inl ⟨u, p, (takes_concat_iff h hm).mp hu, rfl⟩
      · rw [List.mem_singleton] at hm
        subst hm
        refine .inr ⟨p, hu.2.1, rfl, fun d hd => ?_⟩
        obtain ⟨v, q, hv, rfl⟩ := ih.mp hd
        exact (takes_last_iff h hu.2.1).mp hu v q hv

/-! ## What is written -/

/-- The parts of a pattern behind some tokens taken before: a token is replaced unless it is the
beginning of one of those. -/
def write (before : List Token) : List Part → List Char
  | [] => []
  | .other c :: rest => c :: write before rest
  | .token t :: rest =>
    (if before.any fun u => t.token.toList.isPrefixOf u.token.toList then t.token.toList
      else t.replacement.toList) ++ write (t :: before) rest

/-- Of the tokens of a table those occur before a place that some tokens begin with. -/
def Seen (tokens : List Token) (pattern : List Char) (place : Nat) (before : List Token) : Prop :=
  ∀ t ∈ tokens, (∃ q < place, t.token.toList <+: pattern.drop q) ↔
    ∃ u ∈ before, t.token.toList <+: u.token.toList

variable {before : List Token} {place : Nat}

/-- Where no token stands, none is seen. -/
theorem Seen.other (h : Seen tokens pattern place before)
    (hn : ∀ u ∈ tokens, ¬ u.token.toList <+: pattern.drop place) :
    Seen tokens pattern (place + 1) before := by
  intro u hu
  rw [← h u hu]
  constructor
  · rintro ⟨q, hq, hp⟩
    refine ⟨q, Nat.lt_of_le_of_ne (Nat.le_of_lt_succ hq) ?_, hp⟩
    rintro rfl
    exact hn u hu hp
  · rintro ⟨q, hq, hp⟩
    exact ⟨q, Nat.lt_succ_of_lt hq, hp⟩

/-- **Within the longest token at a place those tokens are seen that it begins with.** -/
theorem Seen.token (h : Seen tokens pattern place before) (hg : Graded tokens)
    (ht : longest? tokens (pattern.drop place) = some t) :
    Seen tokens pattern (place + t.token.toList.length) (t :: before) := by
  obtain ⟨hm, hat⟩ := mem_of_longest? ht
  have hpos := List.length_pos_iff.mpr (hg.ne_nil t hm)
  intro u hu
  rw [List.exists_mem_cons_iff, ← h u hu]
  constructor
  · rintro ⟨q, hq, hp⟩
    by_cases hlt : q < place
    · exact .inr ⟨q, hlt, hp⟩
    · have hup : u.token.toList <+: pattern.drop place := by
        refine (hg.run u hu).prefix_of_inside (hg.run t hm) hat (j := q - place) (by omega) ?_
        rwa [List.drop_drop, Nat.add_sub_cancel' (by omega)]
      exact .inl (prefix_of_length_le hup hat (length_le_of_longest? ht hu hup))
  · rintro (hp | ⟨q, hq, hp⟩)
    · exact ⟨place, by omega, hp.trans hat⟩
    · exact ⟨q, by omega, hp⟩

/-- No span starts behind the beginning of a token that is taken. -/
theorem start_not_inside (hg : Graded tokens)
    (ht : longest? tokens (pattern.drop place) = some t) :
    ∀ c ∈ spans pattern tokens, c.start ≤ place ∨ place + t.token.toList.length ≤ c.start := by
  intro c hc
  obtain ⟨u, p, ⟨hu, hp, -⟩, rfl⟩ := (mem_spans_iff hg).mp hc
  obtain ⟨hup, hfirst⟩ := find?_eq_some_iff.mp hp
  obtain ⟨hm, hat⟩ := mem_of_longest? ht
  by_contra hinside
  simp only [Token.spanAt] at hinside
  refine hfirst place (by omega)
    ((hg.run u hu).prefix_of_inside (hg.run t hm) hat (j := p - place) (by omega) ?_)
  rwa [List.drop_drop, Nat.add_sub_cancel' (by omega)]

/-- The spans from a place on are those from a later place on if none starts between. -/
theorem filter_start_congr {spans : List Span} {k : Nat}
    (h : ∀ c ∈ spans, place ≤ c.start → place + k ≤ c.start) :
    (spans.filter fun c => place ≤ c.start) = spans.filter fun c => place + k ≤ c.start := by
  refine List.filter_congr fun c hc => ?_
  have := h c hc
  simp only [decide_eq_decide]
  omega

/-- Characters up to which no span starts are written as they are. -/
theorem replace_filter_skip {spans : List Span} {k : Nat}
    (h : ∀ c ∈ spans, place ≤ c.start → place + k ≤ c.start) :
    replace pattern place (spans.filter fun c => place ≤ c.start) =
      (pattern.drop place).take k ++
        replace pattern (place + k) (spans.filter fun c => place + k ≤ c.start) := by
  rw [filter_start_congr h]
  exact replace_skip fun c hc => by simpa using (List.mem_filter.mp hc).2

/-- No span starts behind the end of the pattern. -/
theorem filter_start_eq_nil (hg : Graded tokens) (hend : pattern.drop place = []) :
    ((spans pattern tokens).filter fun c => place ≤ c.start) = [] := by
  refine List.filter_eq_nil_iff.mpr fun c hc hle => ?_
  obtain ⟨t, p, ⟨ht, hp, -⟩, rfl⟩ := (mem_spans_iff hg).mp hc
  have hle : place ≤ p := of_decide_eq_true hle
  have hpre := (find?_eq_some_iff.mp hp).1
  rw [← Nat.add_sub_cancel' hle, ← List.drop_drop, hend, List.drop_nil, List.prefix_nil] at hpre
  exact hg.ne_nil t ht hpre

/-- The longest token at a place is written as it is if it occurs before: a span that starts here
would be that of a token which begins so. -/
theorem replace_seen (hg : Graded tokens) (ht : longest? tokens (pattern.drop place) = some t)
    (hseen : ∃ q < place, t.token.toList <+: pattern.drop q) :
    replace pattern place ((spans pattern tokens).filter fun c => place ≤ c.start) =
      t.token.toList ++ replace pattern (place + t.token.toList.length)
        ((spans pattern tokens).filter fun c => place + t.token.toList.length ≤ c.start) := by
  obtain ⟨-, hat⟩ := mem_of_longest? ht
  obtain ⟨q, hq, hpq⟩ := hseen
  have hskip : ∀ c ∈ spans pattern tokens, place ≤ c.start →
      place + t.token.toList.length ≤ c.start := by
    intro c hc hle
    refine (start_not_inside hg ht c hc).resolve_left fun hge => ?_
    obtain ⟨u, p, ⟨hu, hp, -⟩, rfl⟩ := (mem_spans_iff hg).mp hc
    obtain rfl : p = place := Nat.le_antisymm hge hle
    obtain ⟨hup, hfirst⟩ := find?_eq_some_iff.mp hp
    have hut := prefix_of_length_le hup hat (length_le_of_longest? ht hu hup)
    exact hfirst q hq (hut.trans hpq)
  rw [replace_filter_skip hskip, ← List.prefix_iff_eq_take.mp hat]

/-- The longest token at a place is replaced if it does not occur before. -/
theorem replace_first (hg : Graded tokens) (ht : longest? tokens (pattern.drop place) = some t)
    (hfirst : ∀ q < place, ¬ t.token.toList <+: pattern.drop q) :
    replace pattern place ((spans pattern tokens).filter fun c => place ≤ c.start) =
      t.replacement.toList ++ replace pattern (place + t.token.toList.length)
        ((spans pattern tokens).filter fun c => place + t.token.toList.length ≤ c.start) := by
  obtain ⟨hm, hat⟩ := mem_of_longest? ht
  have hspan : t.spanAt place ∈ spans pattern tokens :=
    (mem_spans_iff hg).mpr ⟨t, place, ⟨hm, find?_eq_some_iff.mpr ⟨hat, hfirst⟩, fun u hu hup =>
      length_le_of_longest? ht hu hup⟩, rfl⟩
  have hfilter := filter_start_eq_cons (ordered_spans hg.ne_nil) _ hspan
  exact (congrArg (replace pattern place) hfilter).trans (replace_span (t.spanAt place) _)

/-- Where no token stands the character is written. -/
theorem replace_other (hg : Graded tokens) (ht : longest? tokens (pattern.drop place) = none) :
    replace pattern place ((spans pattern tokens).filter fun c => place ≤ c.start) =
      (pattern.drop place).take 1 ++ replace pattern (place + 1)
        ((spans pattern tokens).filter fun c => place + 1 ≤ c.start) := by
  refine replace_filter_skip fun c hc hle => Nat.lt_of_le_of_ne hle ?_
  rintro rfl
  obtain ⟨u, p, ⟨hu, hp, -⟩, rfl⟩ := (mem_spans_iff hg).mp hc
  exact longest?_eq_none_iff.mp ht u hu (find?_eq_some_iff.mp hp).1

/-- **A token taken is replaced unless it is the beginning of one taken before.** -/
theorem replace_eq_write (hg : Graded tokens) (rest : List Char) (hr : pattern.drop place = rest)
    (hs : Seen tokens pattern place before) :
    replace pattern place ((spans pattern tokens).filter fun c => place ≤ c.start) =
      write before (scan tokens rest) := by
  induction rest using scan.induct tokens generalizing place before with
  | case1 => rw [filter_start_eq_nil hg hr, replace, hr, scan, write]
  | case2 c rest t ht ih =>
    obtain ⟨k, hk⟩ := Nat.exists_eq_succ_of_ne_zero
      (List.length_pos_iff.mpr (hg.ne_nil t (mem_of_longest? ht).1)).ne'
    have hbehind : pattern.drop (place + t.token.toList.length) =
        rest.drop (t.token.toList.length - 1) := by
      rw [← List.drop_drop, hr, hk, List.drop_succ_cons, Nat.succ_sub_one]
    rw [scan, ht]
    rw [← hr] at ht
    have hseen : (before.any fun u => t.token.toList.isPrefixOf u.token.toList) = true ↔
        ∃ q < place, t.token.toList <+: pattern.drop q := by
      rw [hs t (mem_of_longest? ht).1]
      simp
    dsimp only
    rw [write, ← ih hbehind (hs.token hg ht)]
    split
    · rename_i hb
      exact replace_seen hg ht (hseen.mp hb)
    · rename_i hb
      exact replace_first hg ht fun q hq hp => hb (hseen.mpr ⟨q, hq, hp⟩)
  | case3 c rest ht ih =>
    have hbehind : pattern.drop (place + 1) = rest := by
      rw [← List.drop_drop, hr, List.drop_succ_cons, List.drop_zero]
    rw [scan, ht]
    rw [← hr] at ht
    rw [replace_other hg ht, ih hbehind (hs.other (longest?_eq_none_iff.mp ht)), hr]
    rfl

/-- **What is written of a pattern.** -/
theorem translate_eq_write (hg : Graded tokens) (pattern : String) :
    translate pattern tokens = String.ofList (write [] (scan tokens pattern.toList)) := by
  have hall : ((spans pattern.toList tokens).filter fun c => decide (0 ≤ c.start)) =
      spans pattern.toList tokens := List.filter_eq_self.mpr fun c _ => by simp
  have hs : Seen tokens pattern.toList 0 [] := fun t _ => by simp
  rw [translate, ← replace_eq_write hg pattern.toList (List.drop_zero ..) hs, hall]

end Graded

/-! ## The two tables -/

/-- A token is told from what an engine has for it by the first character. -/
def Marked (tokens : List Token) : Prop :=
  ∀ t ∈ tokens, t.token.toList.head? ≠ some '%' ∧ t.replacement.toList.head? = some '%'

section Marked

variable {tokens : List Token} {t : Token}

theorem Marked.append_ne (h : Marked tokens) (ht : t ∈ tokens) (hne : t.token.toList ≠ [])
    (xs ys : List Char) : t.token.toList ++ xs ≠ t.replacement.toList ++ ys := by
  intro he
  obtain ⟨htoken, hreplacement⟩ := h t ht
  obtain ⟨d, ds, hd⟩ := List.exists_cons_of_ne_nil hne
  have hhead := congrArg List.head? he
  rw [List.head?_append, List.head?_append, hreplacement, hd] at hhead
  rw [hd] at htoken
  exact htoken hhead

/-- **When all tokens taken are replaced**: none is the beginning of one taken before. -/
theorem write_eq_flatMap_iff (hm : Marked tokens) (hg : Graded tokens) (parts : List Part)
    (hp : ∀ t ∈ parts.filterMap Part.token?, t ∈ tokens) (before : List Token) :
    write before parts = parts.flatMap Part.replaced ↔
      (∀ u ∈ before, ∀ t ∈ parts.filterMap Part.token?, ¬ t.token.toList <+: u.token.toList) ∧
        (parts.filterMap Part.token?).Pairwise fun u t => ¬ t.token.toList <+: u.token.toList := by
  induction parts generalizing before with
  | nil => simp [write]
  | cons part parts ih =>
    cases part with
    | other c =>
      rw [write, List.flatMap_cons, Part.replaced, List.singleton_append, List.cons_inj_right]
      exact ih hp before
    | token t =>
      have htaken : (Part.token t :: parts).filterMap Part.token? =
          t :: parts.filterMap Part.token? := rfl
      rw [htaken] at hp ⊢
      obtain ⟨ht, hp⟩ := List.forall_mem_cons.mp hp
      rw [write, List.flatMap_cons, Part.replaced]
      by_cases hb : (before.any fun u => t.token.toList.isPrefixOf u.token.toList) = true
      · rw [if_pos hb]
        refine iff_of_false (hm.append_ne ht (hg.ne_nil t ht) _ _) fun h => ?_
        obtain ⟨u, hu, htu⟩ := List.any_eq_true.mp hb
        exact h.1 u hu t List.mem_cons_self (List.isPrefixOf_iff_prefix.mp htu)
      · rw [if_neg hb, List.append_cancel_left_eq, ih hp (t :: before), List.pairwise_cons,
          List.forall_mem_cons]
        have hb : ∀ u ∈ before, ¬ t.token.toList <+: u.token.toList := fun u hu htu =>
          hb (List.any_eq_true.mpr ⟨u, hu, List.isPrefixOf_iff_prefix.mpr htu⟩)
        constructor
        · rintro ⟨⟨hfirst, hrest⟩, hpair⟩
          exact ⟨fun u hu => List.forall_mem_cons.mpr ⟨hb u hu, hrest u hu⟩, hfirst, hpair⟩
        · rintro ⟨hall, hfirst, hpair⟩
          exact ⟨⟨hfirst, fun u hu => (List.forall_mem_cons.mp (hall u hu)).2⟩, hpair⟩

/-- Tokens taken are of the table. -/
theorem mem_of_mem_scan (rest : List Char) :
    ∀ t ∈ (scan tokens rest).filterMap Part.token?, t ∈ tokens := by
  induction rest using scan.induct tokens with
  | case1 =>
    rw [scan]
    exact fun _ h => by cases h
  | case2 c rest t ht ih =>
    rw [scan, ht]
    exact List.forall_mem_cons.mpr ⟨(mem_of_longest? ht).1, ih⟩
  | case3 c rest ht ih =>
    rw [scan, ht]
    exact ih

/-- A pattern is translated as it is read exactly if no token taken is the beginning of one taken
before. -/
theorem translate_eq_scanned (hm : Marked tokens) (hg : Graded tokens) (pattern : String) :
    translate pattern tokens = scanned tokens pattern ↔
      (taken tokens pattern).Pairwise fun u t => ¬ t.token.toList <+: u.token.toList := by
  rw [translate_eq_write hg, scanned, taken, String.ofList_inj,
    write_eq_flatMap_iff hm hg _ (mem_of_mem_scan _)]
  exact and_iff_right fun _ h => by cases h

end Marked

theorem graded_mysqlTokens : Graded mysqlTokens := ⟨by decide +kernel, by decide +kernel⟩

theorem graded_sqliteTokens : Graded sqliteTokens := ⟨by decide +kernel, by decide +kernel⟩

theorem marked_mysqlTokens : Marked mysqlTokens := by
  unfold Marked
  decide +kernel

theorem marked_sqliteTokens : Marked sqliteTokens := by
  unfold Marked
  decide +kernel

/-- No two tokens of SQLite have a letter in common. -/
theorem eq_of_prefix_sqliteTokens :
    ∀ t ∈ sqliteTokens, ∀ u ∈ sqliteTokens, t.token.toList <+: u.token.toList → t = u := by
  decide +kernel

/-- **Which patterns are translated as they are read**, from left to right with the longest token
at each place. With the tokens of SQLite it is those in which no token is taken twice. MySQL has
tokens that begin with others: there it is those in which no token taken is the beginning of one
taken before, which is more than that none is taken twice. In any pattern the tokens taken are
replaced, with either table, except for those that are the beginning of one taken before. -/
theorem translate_eq_scanned_iff (pattern : String) :
    (translate pattern sqliteTokens = scanned sqliteTokens pattern ↔
      (taken sqliteTokens pattern).Nodup) ∧
    (translate pattern mysqlTokens = scanned mysqlTokens pattern ↔
      (taken mysqlTokens pattern).Pairwise fun u t => ¬ t.token.toList <+: u.token.toList) ∧
    translate pattern sqliteTokens =
      String.ofList (write [] (scan sqliteTokens pattern.toList)) ∧
    translate pattern mysqlTokens =
      String.ofList (write [] (scan mysqlTokens pattern.toList)) := by
  refine ⟨?_, translate_eq_scanned marked_mysqlTokens graded_mysqlTokens pattern,
    translate_eq_write graded_sqliteTokens pattern, translate_eq_write graded_mysqlTokens pattern⟩
  rw [translate_eq_scanned marked_sqliteTokens graded_sqliteTokens]
  have hmem : ∀ t ∈ taken sqliteTokens pattern, t ∈ sqliteTokens :=
    mem_of_mem_scan pattern.toList
  refine List.Pairwise.iff_of_mem fun hu ht => not_congr ⟨fun h => ?_, fun h => ?_⟩
  · exact (eq_of_prefix_sqliteTokens _ (hmem _ ht) _ (hmem _ hu) h).symm
  · rw [h]

/-- **The day of the month behind the day of the week stays as it is** on MySQL, though no token is
taken twice. -/
theorem weekday_hides_day :
    (taken mysqlTokens "dddd, d MMMM yyyy").Nodup ∧
      scanned mysqlTokens "dddd, d MMMM yyyy" = "%W, %e %M %Y" ∧
      translate "dddd, d MMMM yyyy" mysqlTokens = "%W, d %M %Y" := by
  decide +kernel

end SqlWeave.DatePattern
