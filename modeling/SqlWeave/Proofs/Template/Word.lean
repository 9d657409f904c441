import SqlWeave.Proofs.Template.Place
import SqlWeave.Query.Insert
import SqlWeave.Query.Upsert

/-!
# Names, literals and numbers are words

What a statement holds besides its own words: quoted names, literals and numbers. A name or a text
between quotes closes them wherever it stands outside of others, whatever characters are in it,
because the closing character is doubled inside. Numbers have no quotes at all.

Results:
* `reads_delimited`: a delimited text whose closing character is doubled ends right behind it.
* `word_quote`: a quoted name is one, unless it claims to be quoted already.
* `word_literal`: a literal is one.
-/

namespace SqlWeave

open Template Text Number

/-! ## Delimited text -/

namespace Template

/-- A doubled text leaves a reader inside the quotes that it is doubled for. -/
theorem read_doubled {q : Char} {twice : Char → Bool} (hq : twice q = true) (cs : List Char) :
    read (.inside q) (doubled twice cs) = (doubled twice cs).map .char ∧
      Place.after (.inside q) (doubled twice cs) = .inside q := by
  induction cs with
  | nil => exact ⟨rfl, rfl⟩
  | cons c cs ih =>
    obtain ⟨hr, ha⟩ := ih
    by_cases hc : c = q
    · -- the closing character, and once more
      subst hc
      have hd : doubled twice (c :: cs) = c :: c :: doubled twice cs := by simp [doubled, hq]
      have h₁ : Place.next (.inside c) c = .behind c := if_pos rfl
      have h₂ : Place.next (.behind c) c = .inside c := if_pos rfl
      have hm : Place.marks (.behind c) c = false := by simp [Place.marks]
      rw [hd]
      refine ⟨?_, ?_⟩
      · rw [read, read, h₁, h₂, hr, hm]
        rfl
      · rw [Place.after, List.foldl_cons, List.foldl_cons, h₁, h₂]
        exact ha
    · have hn : Place.next (.inside q) c = .inside q := if_neg hc
      have hm : Place.marks (.inside q) c = false := rfl
      by_cases ht : twice c = true
      · have hd : doubled twice (c :: cs) = c :: c :: doubled twice cs := by simp [doubled, ht]
        rw [hd]
        refine ⟨?_, ?_⟩
        · rw [read, read, hn, hn, hr, hm]
          rfl
        · rw [Place.after, List.foldl_cons, List.foldl_cons, hn, hn]
          exact ha
      · have hd : doubled twice (c :: cs) = c :: doubled twice cs := by simp [doubled, ht]
        rw [hd]
        refine ⟨?_, ?_⟩
        · rw [read, hn, hr, hm]
          rfl
        · rw [Place.after, List.foldl_cons, hn]
          exact ha

/-- **A delimited text whose closing character is doubled inside is read as characters**, and leaves
the reader right behind its closing character. -/
theorem reads_delimited {opening q : Char} {twice : Char → Bool} (ho : closing? opening = some q)
    (hq : twice q = true) (cs : List Char) :
    Reads Outside (· = .behind q) (chars (String.ofList (delimited opening q twice cs))) := by
  have hopen : ¬ opening = '?' := by
    rintro rfl
    cases ho
  rintro p rfl
  unfold chars
  rw [toChar_char, String.toList_ofList]
  obtain ⟨hr, ha⟩ := read_doubled hq cs
  have hn : Place.next .outside opening = .inside q := by
    rw [Place.next, ho]
    rfl
  have hm : Place.marks .outside opening = false := by simp [Place.marks, hopen]
  have hnq : Place.next (.inside q) q = .behind q := if_pos rfl
  refine ⟨?_, ?_⟩
  · rw [delimited, read, hn, hm, read_append, hr, ha]
    simp [read, Place.marks]
  · rw [delimited, Place.after, List.foldl_cons, hn, List.foldl_append]
    unfold Place.after at ha
    rw [ha]
    exact hnq

/-- A delimited text whose closing character is doubled inside is a word. -/
theorem word_delimited {opening q : Char} {twice : Char → Bool} (ho : closing? opening = some q)
    (hq : twice q = true) (cs : List Char) :
    Word (String.ofList (delimited opening q twice cs)) := by
  have hclosing : isClosing q = true := by
    unfold closing? at ho
    split at ho
    · rename_i h
      cases ho
      rcases h with rfl | rfl | rfl <;> rfl
    · split at ho
      · cases ho
        rfl
      · cases ho
  exact (reads_delimited ho hq cs).mono (fun _ h => h) fun p hp => Or.inr ⟨q, hclosing, hp⟩

/-- Texts with a joint between them end where the last of them may. -/
theorem reads_intercalate {Q : Place → Prop} (hQ : ∀ p, Q p → Settled p) {separator : String}
    (hs : Joint separator) : ∀ {words : List String}, words ≠ [] →
    (∀ w ∈ words, Reads Outside Q (chars w)) →
    Reads Outside Q (chars (separator.intercalate words))
  | [w], _, hw => by
    rw [String.intercalate_singleton]
    exact hw w List.mem_cons_self
  | w :: v :: words, _, hw => by
    have ih : Reads Outside Q (chars (separator.intercalate (v :: words))) :=
      reads_intercalate hQ hs (List.cons_ne_nil v words) fun x hx =>
        hw x (List.mem_cons_of_mem _ hx)
    rw [String.intercalate_cons_cons, String.append_assoc, chars_append, chars_append]
    exact ((hw w List.mem_cons_self).mono (fun _ h => h) hQ).append (Reads.append hs ih)

/-- Words with a joint between them are a word. -/
theorem word_intercalate {separator : String} (hs : Joint separator) {words : List String}
    (hw : ∀ w ∈ words, Word w) : Word (separator.intercalate words) := by
  by_cases h : words = []
  · subst h
    exact neutral_empty.word
  · exact reads_intercalate (fun _ h => h) hs h hw

end Template

/-! ## Names and literals -/

namespace Dialect

variable (d : Dialect)

/-- A name that does not claim to be quoted already. -/
def Unquoted (name : String) : Prop := name.toList.head? ≠ some d.quotes.1

instance (name : String) : Decidable (d.Unquoted name) := inferInstanceAs (Decidable (_ ≠ _))

theorem word_quotePart (part : String) : Word (d.quotePart part) := by
  unfold quotePart
  split
  · rename_i h
    subst h
    exact (neutral_of (by decide)).word
  · exact word_delimited (by cases d <;> rfl) (by simp) part.toList

/-- **A quoted name is a word**, unless it claims to be quoted already. -/
theorem word_quote {name : String} (h : d.Unquoted name) : Word (d.quote name) := by
  unfold quote
  rw [if_neg h]
  refine word_intercalate (joint_of (by decide)) fun w hw => ?_
  obtain ⟨part, -, rfl⟩ := List.mem_map.mp hw
  exact d.word_quotePart _

theorem word_stringLiteral (s : String) : Word (d.stringLiteral s) :=
  word_delimited rfl (by simp [literalDoubles]) s.toList

end Dialect

/-! ## Numbers -/

namespace Template

/-- A letter, a digit, a point or a hyphen. -/
def isSimple (c : Char) : Bool := c.isAlphanum || c = '.' || c = '-'

/-- A digit, a point or a hyphen. -/
def isFigure (c : Char) : Bool := c.isDigit || c = '.' || c = '-'

theorem isSimple_of_isFigure {c : Char} (h : isFigure c = true) : isSimple c = true := by
  simp only [isFigure, Bool.or_eq_true] at h
  rcases h with (h | h) | h <;> simp [isSimple, Char.isAlphanum, h]

theorem isPlain_of_isSimple {c : Char} (h : isSimple c = true) : isPlain c = true := by
  have hne : ∀ x : Char, isSimple x = false → ¬ c = x := by
    rintro x hx rfl
    rw [hx] at h
    cases h
  simp [isPlain, closing?, hne '\'' rfl, hne '"' rfl, hne '\x60' rfl, hne '[' rfl, hne '?' rfl]

/-- Simple characters leave a reader outside of quotes outside. -/
theorem neutral_of_simple {s : String} (h : ∀ c ∈ s.toList, isSimple c = true) : Neutral s :=
  neutral_of_plain fun c hc => isPlain_of_isSimple (h c hc)

end Template

namespace Number

theorem isFigure_of_mem_toDigits {n : Nat} {c : Char} (h : c ∈ Nat.toDigits 10 n) :
    isFigure c = true :=
  by simp [isFigure, Nat.isDigit_of_mem_toDigits (by omega) (by omega) h]

theorem isFigure_of_mem_padded {width n : Nat} {c : Char} (h : c ∈ padded width n) :
    isFigure c = true := by
  rcases List.mem_append.mp h with h | h
  · obtain rfl := List.eq_of_mem_replicate h
    rfl
  · exact isFigure_of_mem_toDigits h

theorem isFigure_of_mem_natText {n : Nat} {c : Char} (h : c ∈ (natText n).toList) :
    isFigure c = true := by
  rw [natText, String.toList_ofList] at h
  exact isFigure_of_mem_toDigits h

theorem neutral_natText (n : Nat) : Neutral (natText n) :=
  neutral_of_simple fun _ h => isSimple_of_isFigure (isFigure_of_mem_natText h)

theorem isFigure_of_mem_intText {n : Int} {c : Char} (h : c ∈ (intText n).toList) :
    isFigure c = true := by
  cases n with
  | ofNat n => exact isFigure_of_mem_natText h
  | negSucc n =>
    rw [intText, String.toList_append] at h
    rcases List.mem_append.mp h with h | h
    · obtain rfl := List.mem_singleton.mp h
      rfl
    · exact isFigure_of_mem_natText h

theorem isFigure_of_mem_decimalText {d : Decimal} {c : Char} (h : c ∈ d.text.toList) :
    isFigure c = true := by
  have hds : ∀ c ∈ padded (d.scale + 1) d.mantissa, isFigure c = true :=
    fun c => isFigure_of_mem_padded
  rw [Decimal.text, String.toList_ofList] at h
  rcases List.mem_append.mp h with h | h
  · rcases List.mem_append.mp h with h | h
    · split at h
      · obtain rfl := List.mem_singleton.mp h
        rfl
      · cases h
    · exact hds c (List.mem_of_mem_take h)
  · split at h
    · cases h
    · rcases List.mem_cons.mp h with rfl | h
      · rfl
      · exact hds c (List.mem_of_mem_drop h)

theorem isFigure_of_mem_positional {d : Decimals} {c : Char} (h : c ∈ d.positional false) :
    isFigure c = true := by
  unfold Decimals.positional at h
  have hzero : ∀ n, c ∈ List.replicate n '0' → isFigure c = true := fun n hc => by
    obtain rfl := List.eq_of_mem_replicate hc
    rfl
  split at h
  · rcases List.mem_cons.mp h with rfl | h
    · rfl
    rcases List.mem_cons.mp h with rfl | h
    · rfl
    rcases List.mem_append.mp h with h | h
    · exact hzero _ h
    · exact isFigure_of_mem_toDigits h
  · simp only at h
    split at h
    · rw [if_neg (by simp), List.append_nil] at h
      rcases List.mem_append.mp h with h | h
      · exact isFigure_of_mem_toDigits h
      · exact hzero _ h
    · rcases List.mem_append.mp h with h | h
      · exact isFigure_of_mem_toDigits (List.mem_of_mem_take h)
      rcases List.mem_cons.mp h with rfl | h
      · rfl
      · exact isFigure_of_mem_toDigits (List.mem_of_mem_drop h)

/-- The text of a float is a number, or one of the words for those that are none. -/
theorem floatText_cases (x : Float) : (∀ c ∈ (Layout.plain.text x).toList, isFigure c = true) ∨
    Layout.plain.text x ∈ ["NaN", "inf", "-inf"] := by
  have hsign : ∀ (negative : Bool) (cs : List Char), (∀ c ∈ cs, isFigure c = true) →
      ∀ c ∈ (if negative then ['-'] else []) ++ cs, isFigure c = true := by
    intro negative cs hcs c hc
    rcases List.mem_append.mp hc with hc | hc
    · split at hc
      · obtain rfl := List.mem_singleton.mp hc
        rfl
      · cases hc
    · exact hcs c hc
  rw [Layout.text, String.toList_ofList]
  split
  · exact .inr List.mem_cons_self
  · next negative _ => cases negative <;> exact .inr (by decide)
  · exact .inl (hsign _ _ (List.all_eq_true.mp (by decide : ['0'].all isFigure = true)))
  · exact .inl (hsign _ _ fun c hc => isFigure_of_mem_positional hc)

theorem isSimple_of_mem_floatText {x : Float} {c : Char} (h : c ∈ (Layout.plain.text x).toList) :
    isSimple c = true := by
  rcases floatText_cases x with hx | hx
  · exact isSimple_of_isFigure (hx c h)
  · have hwords : ∀ w ∈ ["NaN", "inf", "-inf"], w.toList.all isSimple = true := by decide
    exact List.all_eq_true.mp (hwords _ hx) c h

end Number

namespace Dialect

/-- A literal is a text between apostrophes or has only simple characters. -/
theorem literal_cases {d : Dialect} {v : Value} {s : String} (h : d.literal v = some s) :
    (∃ t, s = d.stringLiteral t) ∨ ∀ c ∈ s.toList, isSimple c = true := by
  have hnumber : ∀ v : Value, v.numericText = some s → ∀ c ∈ s.toList, isSimple c = true := by
    intro v hv c hc
    cases v with
    | int n =>
      cases hv
      exact isSimple_of_isFigure (isFigure_of_mem_intText hc)
    | float x =>
      simp only [Value.numericText, Option.ite_none_right_eq_some] at hv
      obtain ⟨-, hv⟩ := hv
      cases hv
      exact isSimple_of_mem_floatText hc
    | decimal x =>
      cases hv
      exact isSimple_of_isFigure (isFigure_of_mem_decimalText hc)
    | _ => cases hv
  cases v with
  | null =>
    cases h
    exact .inr (List.all_eq_true.mp (by decide))
  | bool b =>
    cases h
    refine .inr (List.all_eq_true.mp ?_)
    cases d <;> cases b <;> decide
  | text t => exact .inl ⟨t, (Option.some.inj h).symm⟩
  | date x => exact .inl ⟨x.text, (Option.some.inj h).symm⟩
  | time x => exact .inl ⟨x.text, (Option.some.inj h).symm⟩
  | dateTime x => exact .inl ⟨x.text ' ', (Option.some.inj h).symm⟩
  | uuid x => exact .inl ⟨x.text, (Option.some.inj h).symm⟩
  | json x => exact .inl ⟨x.text, (Option.some.inj h).symm⟩
  | bytes bs => cases h
  | int n => exact .inr (hnumber (.int n) h)
  | float x => exact .inr (hnumber (.float x) h)
  | decimal x => exact .inr (hnumber (.decimal x) h)

/-- **A literal is a word.** -/
theorem word_literal {d : Dialect} {v : Value} {s : String} (h : d.literal v = some s) :
    Word s := by
  rcases literal_cases h with ⟨t, rfl⟩ | hs
  · exact d.word_stringLiteral t
  · exact (neutral_of_simple hs).word

end Dialect

/-! ## Tables, pages and types -/

namespace TableName

/-- A table none of whose names claims to be quoted already. -/
structure Unquoted (d : Dialect) (t : TableName) : Prop where
  name : d.Unquoted t.name
  aliasName : ∀ a ∈ t.aliasName, d.Unquoted a

variable {d : Dialect} {t : TableName}

theorem word_plain (h : t.Unquoted d) : Word (t.plain d) := d.word_quote h.name

theorem word_declared (h : t.Unquoted d) : Word (t.declared d) := by
  have hn := d.word_quote h.name
  unfold declared
  split
  · rw [String.append_assoc]
    exact hn.append ((joint_of (by decide)).append_word (d.word_quotePart _))
  · exact hn

theorem word_reference (h : t.Unquoted d) : Word (t.reference d) := by
  unfold reference
  split
  · exact d.word_quotePart _
  · exact d.word_quote h.name

/-- The name that stands in front of a column. -/
theorem unquoted_aliasOrName (h : t.Unquoted d) : d.Unquoted t.aliasOrName := by
  unfold aliasOrName
  cases ha : t.aliasName with
  | none => exact h.name
  | some a => exact h.aliasName a ha

end TableName

namespace Window

theorem joint_condition (w : Window) : Joint w.condition := by
  cases w with
  | between first last =>
    exact (((joint_of (by decide)).append (neutral_natText first)).append
      (neutral_of (by decide))).append (neutral_natText last)
  | above row => exact (joint_of (by decide)).append (neutral_natText row)
  | skipTake skip take => exact (joint_of (by decide)).append (neutral_natText skip)

theorem joint_offsetFetch (offset : Nat) (limit : Option Nat) :
    Joint (offsetFetch offset limit) := by
  refine (((joint_of (by decide)).append (neutral_natText offset)).append
    (neutral_of (by decide))).append ?_
  cases limit with
  | none => exact neutral_empty
  | some n =>
    exact (Neutral.append (neutral_of (by decide)) (neutral_natText n)).append
      (neutral_of (by decide))

theorem tail_limitOffset {unlimited : String} (h : Neutral unlimited) (limit offset : Option Nat) :
    Tail (limitOffset unlimited limit offset) := by
  have hlimit : Joint " LIMIT " := joint_of (by decide)
  have hoffset : Neutral " OFFSET " := neutral_of (by decide)
  cases limit with
  | none =>
    cases offset with
    | none => exact tail_empty
    | some m => exact (((hlimit.append h).append hoffset).append (neutral_natText m)).tail
  | some n =>
    cases offset with
    | none => exact (hlimit.append (neutral_natText n)).tail
    | some m =>
      exact (((hlimit.append (neutral_natText n)).append hoffset).append (neutral_natText m)).tail

theorem tail_rows (limit offset : Option Nat) : Tail (rows limit offset) := by
  have hrows : Joint " ROWS " := joint_of (by decide)
  cases limit with
  | none => exact tail_empty
  | some n =>
    cases offset with
    | none => exact (hrows.append (neutral_natText n)).tail
    | some m =>
      exact (((hrows.append (neutral_natText _)).append (neutral_of (by decide))).append
        (neutral_natText _)).tail

theorem neutral_firstSkip (limit offset : Option Nat) : Neutral (firstSkip limit offset) := by
  have hblank : Neutral " " := neutral_of (by decide)
  unfold firstSkip
  refine Neutral.append ?_ ?_
  · cases limit with
    | none => exact neutral_empty
    | some n => exact (Neutral.append (neutral_of (by decide)) (neutral_natText n)).append hblank
  · cases offset with
    | none => exact neutral_empty
    | some n => exact (Neutral.append (neutral_of (by decide)) (neutral_natText n)).append hblank

theorem neutral_top (limit : Option Nat) : Neutral (top limit) := by
  cases limit with
  | none => exact neutral_empty
  | some n =>
    exact (Neutral.append (neutral_of (by decide)) (neutral_natText n)).append
      (neutral_of (by decide))

end Window

theorem Value.neutral_firebirdType (v : Value) : Neutral v.firebirdType := by
  cases v with
  | text s =>
    exact (Neutral.append (neutral_of (by decide)) (neutral_natText _)).append
      (neutral_of (by decide))
  | _ => exact neutral_of (by decide)

theorem JoinKind.neutral_text (k : JoinKind) : Neutral k.text := by
  cases k <;> exact neutral_of (by decide)

end SqlWeave
