import Mathlib.Data.Nat.Find
import Mathlib.Data.String.Basic
import SqlWeave.Proofs.DatePattern.Spans

/-!
# A pattern is cut once

A translation is one substitution on the pattern. The entries of a table have disjoint intervals of
it, counted in bytes. An entry's interval is where its token occurs first, and it has none only if
the token does not occur or if that interval meets the interval of an entry before it. From left to
right the intervals are cut out and the replacements written in their place; what stands between
them is kept, and what is written is not looked at again.

`slice?` takes the part of a text between two places and fails where they are out of order, out of
range or inside of a character. So that `cut?` has a result says that no slice is taken so.

Results:
* `offset_lt_iff`: a place is before another one in bytes as it is in characters.
* `first_of_find?`, `not_occurs_of_find?`: a token is found where it occurs first.
* `Chosen.skip`, `Chosen.take`: what one more entry does to the intervals of a table.
* `slice?_offset`: a slice between two places in order.
* `exists_chosen`: the spans of a table are those of its intervals.
* `cut?_eq_replace`: cutting at intervals is replacing spans.
* **`translate_cuts_once`**: a translation cuts the pattern once, at disjoint intervals.
-/

namespace SqlWeave.DatePattern

/-! ## Occurrences -/

/-- A token stands in a text behind so many bytes. -/
def Occurs (token s : String) (n : Nat) : Prop :=
  ∃ before after, s = before ++ token ++ after ∧ before.utf8ByteSize = n

/-- It stands there, and nowhere before. -/
structure First (token s : String) (n : Nat) : Prop where
  occurs : Occurs token s n
  least : ∀ m < n, ¬ Occurs token s m

/-! ## Intervals -/

/-- An interval of a pattern: the number of a table's entry, the entry, and where its token
starts. -/
structure Interval where
  entry : Nat
  token : Token
  start : Nat
  deriving DecidableEq, Repr

namespace Interval

/-- The place behind the token. -/
def stop (c : Interval) : Nat := c.start + c.token.token.utf8ByteSize

/-- Two intervals have a byte in common. -/
def Meets (c d : Interval) : Prop := c.start < d.stop ∧ d.start < c.stop

end Interval

/-- The intervals that the entries of a table have in a pattern. -/
structure Chosen (s : String) (tokens : List Token) (intervals : List Interval) : Prop where
  entry : ∀ c ∈ intervals, tokens[c.entry]? = some c.token
  distinct : (intervals.map Interval.entry).Nodup
  first : ∀ c ∈ intervals, First c.token.token s c.start
  /-- Why an entry has none. -/
  without : ∀ k t, tokens[k]? = some t → (∀ c ∈ intervals, c.entry ≠ k) →
    (∀ n, ¬ Occurs t.token s n) ∨
    ∃ n, First t.token s n ∧ ∃ c ∈ intervals, c.entry < k ∧ (⟨k, t, n⟩ : Interval).Meets c

/-- The part of a text from a place up to another one. -/
def slice? (s : String) (i j : Nat) : Option String :=
  if i ≤ j ∧ (⟨i⟩ : String.Pos.Raw).IsValid s ∧ (⟨j⟩ : String.Pos.Raw).IsValid s then
    some (String.Pos.Raw.extract s ⟨i⟩ ⟨j⟩)
  else none

/-- A text from a place on, the intervals cut out and the replacements in their place. -/
def cut? (s : String) (last : Nat) : List Interval → Option String
  | [] => slice? s last s.utf8ByteSize
  | c :: rest => do
    let kept ← slice? s last c.start
    let behind ← cut? s c.stop rest
    return kept ++ c.token.replacement ++ behind

/-! ## Bytes before a character -/

/-- The number of bytes before a character. -/
def offset (s : String) (p : Nat) : Nat := (String.ofList (s.toList.take p)).utf8ByteSize

variable {s : String} {tokens : List Token} {t : Token} {p q n : Nat}

theorem offset_zero (s : String) : offset s 0 = 0 := rfl

theorem offset_length (s : String) : offset s s.toList.length = s.utf8ByteSize := by
  rw [offset, List.take_length, String.ofList_toList]

/-- The bytes of some characters are those of the first of them and of the others. -/
theorem offset_add (s : String) (p k : Nat) :
    offset s (p + k) =
      offset s p + (String.ofList ((s.toList.drop p).take k)).utf8ByteSize := by
  rw [offset, List.take_add, String.ofList_append, String.utf8ByteSize_append, offset]

theorem offset_mono (h : p ≤ q) : offset s p ≤ offset s q := by
  obtain ⟨k, rfl⟩ := Nat.exists_eq_add_of_le h
  rw [offset_add]
  exact Nat.le_add_right _ _

theorem offset_strict (h : p < q) (hq : q ≤ s.toList.length) : offset s p < offset s q := by
  obtain ⟨k, rfl⟩ := Nat.exists_eq_add_of_lt h
  rw [Nat.add_assoc, offset_add]
  refine Nat.lt_add_of_pos_right (Nat.pos_of_ne_zero fun hz => ?_)
  rw [String.utf8ByteSize_eq_zero_iff, String.ofList_eq_empty_iff] at hz
  have := congrArg List.length hz
  rw [List.length_take, List.length_drop, List.length_nil] at this
  omega

/-- **A place is before another one in bytes as it is in characters.** -/
theorem offset_lt_iff (hq : q ≤ s.toList.length) : offset s p < offset s q ↔ p < q := by
  constructor
  · intro h
    by_contra hle
    exact absurd (offset_mono (s := s) (Nat.le_of_not_lt hle)) (Nat.not_le.mpr h)
  · exact fun h => offset_strict h hq

/-! ## Found where it occurs first -/

/-- A token stands behind the bytes of the characters before it. -/
theorem occurs_iff {token : String} : Occurs token s n ↔
    ∃ p ≤ s.toList.length, offset s p = n ∧ token.toList <+: s.toList.drop p := by
  constructor
  · rintro ⟨before, after, rfl, rfl⟩
    refine ⟨before.toList.length, ?_, ?_, after.toList, ?_⟩
    · simp
    · rw [offset, String.toList_append, String.toList_append, List.append_assoc, List.take_left,
        String.ofList_toList]
    · rw [String.toList_append, String.toList_append, List.append_assoc, List.drop_left]
  · rintro ⟨p, -, rfl, after, hat⟩
    refine ⟨.ofList (s.toList.take p), .ofList after, String.toList_inj.mp ?_, rfl⟩
    simp only [String.toList_append, String.toList_ofList]
    rw [List.append_assoc, hat, List.take_append_drop]

/-- **A token that is found occurs first where it is found.** -/
theorem first_of_find? {token : String} (h : find? token.toList s.toList = some p) :
    First token s (offset s p) ∧ p ≤ s.toList.length := by
  obtain ⟨hat, hfirst⟩ := find?_eq_some_iff.mp h
  have hp : p ≤ s.toList.length := by
    by_contra hlong
    -- behind the end only an empty token stands, which stands at the end too
    rw [List.drop_eq_nil_of_le (by omega), List.prefix_nil] at hat
    exact hfirst _ (Nat.lt_of_not_le hlong) (hat ▸ List.nil_prefix)
  refine ⟨⟨occurs_iff.mpr ⟨p, hp, rfl, hat⟩, fun m hm hoccurs => ?_⟩, hp⟩
  obtain ⟨q, -, rfl, hq⟩ := occurs_iff.mp hoccurs
  exact hfirst q ((offset_lt_iff hp).mp hm) hq

/-- A token that is not found does not occur. -/
theorem not_occurs_of_find? {token : String} (h : find? token.toList s.toList = none) :
    ∀ n, ¬ Occurs token s n := by
  classical
  intro n hoccurs
  obtain ⟨p, -, -, hp⟩ := occurs_iff.mp hoccurs
  have hex : ∃ p, token.toList <+: s.toList.drop p := ⟨p, hp⟩
  have hfound : find? token.toList s.toList = some (Nat.find hex) :=
    find?_eq_some_iff.mpr ⟨Nat.find_spec hex, fun q hq => Nat.find_min hex hq⟩
  rw [h] at hfound
  cases hfound

/-! ## A table with one more entry -/

namespace Chosen

variable {intervals : List Interval}

theorem nil (s : String) : Chosen s [] [] where
  entry _ h := by cases h
  distinct := List.nodup_nil
  first _ h := by cases h
  without k t h := by cases h

theorem entry_lt (h : Chosen s tokens intervals) : ∀ c ∈ intervals, c.entry < tokens.length :=
  fun c hc => (List.getElem?_eq_some_iff.mp (h.entry c hc)).1

/-- The entries before the last are those they were. -/
theorem entry_concat (h : Chosen s tokens intervals) (t : Token) :
    ∀ c ∈ intervals, (tokens ++ [t])[c.entry]? = some c.token := fun c hc => by
  rw [List.getElem?_append_left (h.entry_lt c hc), h.entry c hc]

/-- **The last entry has no interval**, as its token does not occur or would meet one. -/
theorem skip (h : Chosen s tokens intervals)
    (ht : (∀ n, ¬ Occurs t.token s n) ∨
      ∃ n, First t.token s n ∧ ∃ c ∈ intervals, (⟨tokens.length, t, n⟩ : Interval).Meets c) :
    Chosen s (tokens ++ [t]) intervals where
  entry := h.entry_concat t
  distinct := h.distinct
  first := h.first
  without k u hu hk := by
    rcases Nat.lt_or_ge k tokens.length with hlt | hge
    · rw [List.getElem?_append_left hlt] at hu
      exact h.without k u hu hk
    · obtain ⟨rfl, rfl⟩ : k = tokens.length ∧ u = t := by
        rw [List.getElem?_append_right hge, List.getElem?_singleton] at hu
        split at hu
        · exact ⟨by omega, (Option.some.inj hu).symm⟩
        · cases hu
      refine ht.imp_right ?_
      rintro ⟨n, hfirst, c, hc, hmeets⟩
      exact ⟨n, hfirst, c, hc, h.entry_lt c hc, hmeets⟩

/-- **The last entry has the interval where its token occurs first.** -/
theorem take {more : List Interval} (h : Chosen s tokens intervals) (ht : First t.token s n)
    (hmore : more.Perm (⟨tokens.length, t, n⟩ :: intervals)) :
    Chosen s (tokens ++ [t]) more where
  entry c hc := by
    rcases List.mem_cons.mp (hmore.mem_iff.mp hc) with rfl | hc
    · exact List.getElem?_concat_length
    · exact h.entry_concat t c hc
  distinct := by
    refine (hmore.map _).nodup_iff.mpr (List.nodup_cons.mpr ⟨fun hmem => ?_, h.distinct⟩)
    obtain ⟨c, hc, heq⟩ := List.mem_map.mp hmem
    exact absurd heq (Nat.ne_of_lt (h.entry_lt c hc))
  first c hc := by
    rcases List.mem_cons.mp (hmore.mem_iff.mp hc) with rfl | hc
    · exact ht
    · exact h.first c hc
  without k u hu hk := by
    have hk := fun c hc => hk c (hmore.mem_iff.mpr hc)
    obtain ⟨hlast, hk⟩ := List.forall_mem_cons.mp hk
    have hlt : k < tokens.length := by
      have hle := (List.getElem?_eq_some_iff.mp hu).1
      rw [List.length_append, List.length_singleton] at hle
      exact Nat.lt_of_le_of_ne (Nat.le_of_lt_succ hle) (Ne.symm hlast)
    rw [List.getElem?_append_left hlt] at hu
    refine (h.without k u hu hk).imp_right ?_
    rintro ⟨n, hfirst, c, hc, hmeets⟩
    exact ⟨n, hfirst, c, hmore.mem_iff.mpr (List.mem_cons_of_mem _ hc), hmeets⟩

end Chosen

/-! ## Intervals and spans -/

/-- An entry of a table and a place of a pattern where its token stands. -/
structure Placed (s : String) where
  entry : Nat
  token : Token
  place : Nat
  inside : place ≤ s.toList.length
  stands : token.token.toList <+: s.toList.drop place

namespace Placed

/-- The characters of the token. -/
def span (x : Placed s) : Span := x.token.spanAt x.place

/-- The bytes of the token. -/
def interval (x : Placed s) : Interval := ⟨x.entry, x.token, offset s x.place⟩

theorem stop_le (x : Placed s) : x.span.stop ≤ s.toList.length := by
  have hlength := x.stands.length_le
  rw [List.length_drop] at hlength
  exact Nat.add_le_of_le_sub' x.inside hlength

theorem stop_interval (x : Placed s) : x.interval.stop = offset s x.span.stop := by
  simp only [span, Token.spanAt, interval, Interval.stop]
  rw [offset_add, ← List.prefix_iff_eq_take.mp x.stands, String.ofList_toList]

/-- Intervals meet as spans overlap. -/
theorem meets_iff {x y : Placed s} :
    x.interval.Meets y.interval ↔ x.span.overlaps y.span = true := by
  simp only [Span.overlaps, Bool.and_eq_true, decide_eq_true_eq]
  rw [Interval.Meets, stop_interval, stop_interval]
  exact and_congr (offset_lt_iff y.stop_le) (offset_lt_iff x.stop_le)

end Placed

/-- What has spans is put in order as they are. -/
theorem exists_map_insertSpan {α : Type} (f : α → Span) (x : α) (xs : List α) :
    ∃ ys : List α, ys.Perm (x :: xs) ∧ ys.map f = insertSpan (f x) (xs.map f) := by
  induction xs with
  | nil => exact ⟨[x], .refl _, rfl⟩
  | cons y xs ih =>
    rw [List.map_cons, insertSpan]
    split
    · obtain ⟨ys, hperm, hys⟩ := ih
      exact ⟨y :: ys, (hperm.cons y).trans (.swap x y xs), by rw [List.map_cons, hys]⟩
    · exact ⟨x :: y :: xs, .refl _, rfl⟩

/-- **The spans of a table are those of its intervals.** -/
theorem exists_chosen (s : String) (tokens : List Token) : ∃ placed : List (Placed s),
    placed.map Placed.span = spans s.toList tokens ∧
      Chosen s tokens (placed.map Placed.interval) := by
  induction tokens using List.reverseRecOn with
  | nil => exact ⟨[], rfl, .nil s⟩
  | append_singleton tokens t ih =>
    obtain ⟨placed, hspans, hchosen⟩ := ih
    rw [spans_concat]
    cases hp : find? t.token.toList s.toList with
    | none =>
      refine ⟨placed, ?_, hchosen.skip (.inl (not_occurs_of_find? hp))⟩
      rw [takeToken, hp, hspans]
    | some p =>
      obtain ⟨hfirst, hinside⟩ := first_of_find? hp
      let x : Placed s := ⟨tokens.length, t, p, hinside, (find?_eq_some_iff.mp hp).1⟩
      rw [takeToken_of_find? hp, ← hspans]
      split
      · rename_i hany
        obtain ⟨d, hd, hoverlaps⟩ := List.any_eq_true.mp hany
        obtain ⟨y, hy, rfl⟩ := List.mem_map.mp hd
        have hmeets : x.interval.Meets y.interval := Placed.meets_iff.mpr hoverlaps
        exact ⟨placed, rfl,
          hchosen.skip (.inr ⟨_, hfirst, _, List.mem_map_of_mem hy, hmeets⟩)⟩
      · obtain ⟨ys, hperm, hys⟩ := exists_map_insertSpan Placed.span x placed
        exact ⟨ys, hys, hchosen.take hfirst (hperm.map Placed.interval)⟩

/-! ## Cutting -/

/-- **Between two places in order there is a slice.** -/
theorem slice?_offset (s : String) (h : p ≤ q) :
    slice? s (offset s p) (offset s q) = some (.ofList ((s.toList.take q).drop p)) := by
  have hvalid : ∀ k, (⟨offset s k⟩ : String.Pos.Raw).IsValid s := fun k =>
    String.Pos.Raw.isValid_iff_exists_take_toList.mpr ⟨k, rfl⟩
  rw [slice?, if_pos ⟨offset_mono h, hvalid p, hvalid q⟩]
  obtain ⟨k, rfl⟩ := Nat.exists_eq_add_of_le h
  have hextract := String.extract_of_valid (s.toList.take p) ((s.toList.drop p).take k)
    ((s.toList.drop p).drop k)
  rw [List.append_assoc, List.take_append_drop, List.take_append_drop, String.ofList_toList,
    ← String.utf8ByteSize_ofList, ← String.utf8ByteSize_ofList] at hextract
  rw [offset_add, offset, hextract, List.drop_take, Nat.add_sub_cancel_left]

/-- **Cutting at the intervals is replacing the spans.** -/
theorem cut?_eq_replace {placed : List (Placed s)} (hp : p ≤ s.toList.length)
    (h : placed.Pairwise fun x y => x.span.stop ≤ y.span.start)
    (hfrom : ∀ x ∈ placed, p ≤ x.place) :
    cut? s (offset s p) (placed.map Placed.interval) =
      some (.ofList (replace s.toList p (placed.map Placed.span))) := by
  induction placed generalizing p with
  | nil =>
    rw [List.map_nil, List.map_nil, cut?, replace, ← offset_length, slice?_offset s hp,
      List.take_length]
  | cons x placed ih =>
    obtain ⟨hx, hrest⟩ := List.pairwise_cons.mp h
    rw [List.map_cons, List.map_cons, cut?, replace, Placed.stop_interval, ih x.stop_le hrest hx]
    have hslice : slice? s (offset s p) x.interval.start = _ :=
      slice?_offset s (hfrom x List.mem_cons_self)
    rw [hslice, String.ofList_append, String.ofList_append]
    simp [Placed.interval, Placed.span, Token.spanAt]

/-- **A translation cuts the pattern once.** There are disjoint intervals of the pattern, one behind
the other, each of an entry of its own and where that entry's token occurs first. An entry has none
only if its token does not occur or if its first occurrence meets the interval of an entry before
it. The translation is the pattern with the replacements in place of the intervals, and the slices
between them are in order, in range and not inside of a character. -/
theorem translate_cuts_once (s : String) (tokens : List Token) (h : ∀ t ∈ tokens, t.token ≠ "") :
    ∃ intervals, Chosen s tokens intervals ∧
      intervals.Pairwise (fun c d => c.stop ≤ d.start) ∧
      cut? s 0 intervals = some (translate s tokens) := by
  obtain ⟨placed, hspans, hchosen⟩ := exists_chosen s tokens
  have hordered : Ordered (spans s.toList tokens) := ordered_spans fun t ht hnil =>
    h t ht (String.toList_eq_nil_iff.mp hnil)
  have hapart : placed.Pairwise fun x y => x.span.stop ≤ y.span.start :=
    List.pairwise_map.mp (hspans ▸ hordered.apart)
  refine ⟨_, hchosen, List.pairwise_map.mpr (hapart.imp fun hxy => ?_), ?_⟩
  · rw [Placed.stop_interval]
    exact offset_mono hxy
  · have hcut := cut?_eq_replace (p := 0) (Nat.zero_le _) hapart fun x _ => Nat.zero_le _
    rwa [offset_zero, hspans] at hcut

/-- A token that occurs again is kept where it does. -/
theorem repeated_day_cut_once : (∀ t ∈ mysqlTokens, t.token ≠ "") ∧
    ∃ intervals, Chosen "dd-dd" mysqlTokens intervals ∧
      intervals.Pairwise (fun c d => c.stop ≤ d.start) ∧
      cut? "dd-dd" 0 intervals = some "%d-dd" := by
  have hne : ∀ t ∈ mysqlTokens, t.token ≠ "" := by decide +kernel
  have htranslate : translate "dd-dd" mysqlTokens = "%d-dd" := by decide +kernel
  exact ⟨hne, htranslate ▸ translate_cuts_once "dd-dd" mysqlTokens hne⟩

/-- An empty token would stand before one that starts at the same place, but behind it in order: the
slice between the two goes back. -/
example : cut? "yy" 0 [⟨0, ⟨"yy", "%y"⟩, 0⟩, ⟨1, ⟨"", "-"⟩, 0⟩] = none := by decide +kernel

end SqlWeave.DatePattern
