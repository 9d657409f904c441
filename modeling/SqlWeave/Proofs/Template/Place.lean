import SqlWeave.Template

/-!
# Reading a template one character at a time

`Template.scan` looks two characters ahead to tell a closing quote from one that is written twice.
The same reading needs no look ahead if the reader remembers where it stands: outside of quotes,
inside them, or right behind a character that closes them unless it comes once more.

Where a reader stands decides whether two texts may be put side by side. `Reads P Q xs` says that
symbols are read as they are meant from every place that `P` accepts, and that the reader then
stands at a place that `Q` accepts; what is read in turn is composed by `Reads.append`. The places
that matter are two: `outside`, and `Settled`, where quotes may just have been closed.

Results:
* `read_eq_scan`: reading one character at a time is scanning.
* `read_behind`: a text is read right behind closed quotes as outside of them, unless a bracket
  meets a bracket.
* `symbols_of_reads`: symbols that are read as they are meant are those of their text.
* `neutral_of`, `joint_of`: the texts that may stand between others, found by reading them once.
-/

namespace SqlWeave.Template

/-- Where a reader stands between two characters of a text. -/
inductive Place where
  | outside
  /-- Inside quotes that a character closes. -/
  | inside (closing : Char)
  /-- Right behind a character that closes quotes, unless it comes once more. -/
  | behind (closing : Char)
  deriving DecidableEq, Repr

namespace Place

/-- The place in quotes of a closing character, if there are any. -/
def within : Option Char → Place
  | none => outside
  | some q => inside q

/-- The place behind a character. -/
def next : Place → Char → Place
  | outside, c => within (closing? c)
  | inside q, c => if c = q then behind q else inside q
  | behind q, c => if c = q then inside q else within (closing? c)

/-- The character is a placeholder at the place. -/
def marks : Place → Char → Bool
  | outside, c => c = '?'
  | inside _, _ => false
  | behind q, c => c ≠ q && c = '?'

/-- The place behind a text. -/
def after (p : Place) (cs : List Char) : Place := cs.foldl next p

theorem after_append (p : Place) (cs ds : List Char) :
    p.after (cs ++ ds) = (p.after cs).after ds := List.foldl_append

end Place

/-- The symbols of a text, read one character at a time. -/
def read (p : Place) : List Char → List Symbol
  | [] => []
  | c :: cs => (if p.marks c then .hole else .char c) :: read (p.next c) cs

theorem read_append (p : Place) (cs ds : List Char) :
    read p (cs ++ ds) = read p cs ++ read (p.after cs) ds := by
  induction cs generalizing p with
  | nil => rfl
  | cons c cs ih => exact congrArg _ (ih _)

/-- **Reading one character at a time is scanning.** -/
theorem read_eq_scan (quotes : Option Char) (cs : List Char) :
    read (.within quotes) cs = scan quotes cs := by
  fun_induction scan quotes cs with
  | case1 quotes => cases quotes <;> rfl
  | case2 c rest ih =>
    have hn : Place.next (.within none) c = .within (closing? c) := rfl
    rw [read, hn, ih]
    simp [Place.within, Place.marks]
  | case3 q => simp [read, Place.within, Place.marks]
  | case4 q c h ih => simp [read, Place.within, Place.marks, scan]
  | case5 q rest ih =>
    -- the closing character twice: the reader is inside again
    simp [read, Place.within, Place.marks, Place.next, ← ih]
  | case6 q d rest hd ih =>
    -- the quotes are closed, and the next character is read outside of them
    simp [read, Place.within, Place.marks, Place.next, hd, ← ih]
  | case7 q c d rest h ih => simp [read, Place.within, Place.marks, Place.next, h, ← ih]

theorem symbols_eq_read (s : String) : symbols s = read .outside s.toList :=
  (read_eq_scan none s.toList).symm

/-! ## What is read as it is meant -/

/-- The characters that close quotes. -/
def isClosing (c : Char) : Bool := c = '\'' || c = '"' || c = '\x60' || c = ']'

/-- Outside of quotes. -/
def Outside (p : Place) : Prop := p = .outside

/-- Outside of quotes, perhaps right behind closed ones. -/
def Settled (p : Place) : Prop := p = .outside ∨ ∃ q, isClosing q = true ∧ p = .behind q

/-- Right behind closed quotes a character is read as outside of them, except for a bracket behind a
bracket. -/
theorem next_behind {q c : Char} (hq : isClosing q = true) (h : ¬ (q = ']' ∧ c = ']')) :
    (Place.behind q).next c = Place.next .outside c ∧
      (Place.behind q).marks c = Place.marks .outside c := by
  by_cases hc : c = q
  · subst hc
    have hbracket : c ≠ ']' := fun hc => h ⟨hc, hc⟩
    have hopens : c = '\'' ∨ c = '"' ∨ c = '\x60' := by
      simpa [isClosing, hbracket, or_assoc] using hq
    -- the character opens the quotes that it closes
    have hn : Place.next .outside c = .inside c := by rw [Place.next, closing?, if_pos hopens]; rfl
    refine ⟨(if_pos rfl).trans hn.symm, ?_⟩
    rcases hopens with rfl | rfl | rfl <;> rfl
  · exact ⟨if_neg hc, by simp [Place.marks, hc]⟩

/-- **A text is read right behind closed quotes as outside of them**, unless a bracket meets a
bracket. -/
theorem read_behind {q c : Char} (hq : isClosing q = true) (h : ¬ (q = ']' ∧ c = ']'))
    (cs : List Char) :
    read (.behind q) (c :: cs) = read .outside (c :: cs) ∧
      Place.after (.behind q) (c :: cs) = Place.after .outside (c :: cs) := by
  obtain ⟨hn, hm⟩ := next_behind hq h
  refine ⟨?_, ?_⟩
  · rw [read, read, hn, hm]
  · rw [Place.after, Place.after, List.foldl_cons, List.foldl_cons, hn]

/-- From the places that `P` accepts, symbols are read as they are meant, up to a place that `Q`
accepts. -/
def Reads (P Q : Place → Prop) (xs : List Symbol) : Prop :=
  ∀ p, P p → read p (xs.map Symbol.toChar) = xs ∧ Q (p.after (xs.map Symbol.toChar))

section

variable {P P' Q Q' R : Place → Prop} {xs ys : List Symbol}

theorem reads_nil : Reads P P [] := fun _ hp => ⟨rfl, hp⟩

theorem Reads.append (hx : Reads P Q xs) (hy : Reads Q R ys) : Reads P R (xs ++ ys) := by
  intro p hp
  obtain ⟨hrx, hqx⟩ := hx p hp
  obtain ⟨hry, hqy⟩ := hy _ hqx
  rw [List.map_append, read_append, Place.after_append, hrx, hry]
  exact ⟨rfl, hqy⟩

theorem Reads.mono (h : Reads P Q xs) (hP : ∀ p, P' p → P p) (hQ : ∀ p, Q p → Q' p) :
    Reads P' Q' xs := fun p hp => ⟨(h p (hP p hp)).1, hQ _ (h p (hP p hp)).2⟩

theorem settled_of_outside (p : Place) (h : Outside p) : Settled p := Or.inl h

/-- What may stand behind closed quotes may stand outside of them. -/
theorem Reads.of_settled (h : Reads Settled Q xs) : Reads Outside Q xs :=
  h.mono settled_of_outside fun _ h => h

/-- What ends outside of quotes ends settled. -/
theorem Reads.settled (h : Reads P Outside xs) : Reads P Settled xs :=
  h.mono (fun _ h => h) settled_of_outside

/-- **Symbols that are read as they are meant are those of their text.** -/
theorem symbols_of_reads (h : Reads Outside Q xs) :
    symbols (String.ofList (xs.map Symbol.toChar)) = xs := by
  rw [symbols_eq_read, String.toList_ofList]
  exact (h .outside rfl).1

/-- No closing character is a question mark, so a placeholder may follow closed quotes. -/
theorem reads_hole : Reads Settled Outside [.hole] := by
  rintro p (rfl | ⟨q, hq, rfl⟩)
  · exact ⟨rfl, rfl⟩
  · have hne : ¬ '?' = q := by
      rintro rfl
      exact absurd hq (by decide)
    have hm : (Place.behind q).marks '?' = true := by simp [Place.marks, hne]
    have hn : (Place.behind q).next '?' = .outside := (if_neg hne).trans rfl
    refine ⟨?_, hn⟩
    rw [List.map_singleton, Symbol.toChar, read, hm, hn]
    rfl

end

/-! ## Texts -/

/-- The characters of a text, none of them a placeholder. -/
def chars (s : String) : List Symbol := s.toList.map .char

theorem map_toChar_chars (s : String) : (chars s).map Symbol.toChar = s.toList := by
  unfold chars
  rw [List.map_map]
  exact List.map_id _

theorem chars_append (s t : String) : chars (s ++ t) = chars s ++ chars t := by
  unfold chars
  rw [String.toList_append, List.map_append]

theorem toChar_char (cs : List Char) : (cs.map Symbol.char).map Symbol.toChar = cs := by
  rw [List.map_map]
  exact List.map_id _

/-- A text that leaves a reader outside of quotes outside. -/
def Neutral (s : String) : Prop := Reads Outside Outside (chars s)

/-- A text that takes a reader outside of quotes, even from right behind closed ones. -/
def Joint (s : String) : Prop := Reads Settled Outside (chars s)

/-- A text that may stand outside of quotes and may end with closed ones. -/
def Word (s : String) : Prop := Reads Outside Settled (chars s)

/-- A text that may follow a word and be followed like one. -/
def Tail (s : String) : Prop := Reads Settled Settled (chars s)

theorem Neutral.word {s : String} (h : Neutral s) : Word s := h.settled

theorem Joint.tail {s : String} (h : Joint s) : Tail s := h.settled

theorem Tail.word {s : String} (h : Tail s) : Word s := h.of_settled

theorem tail_empty : Tail "" := reads_nil

theorem Word.append {s t : String} (hs : Word s) (ht : Tail t) : Word (s ++ t) := by
  unfold Word
  rw [chars_append]
  exact Reads.append hs ht

theorem Neutral.append_word {s t : String} (hs : Neutral s) (ht : Word t) : Word (s ++ t) := by
  unfold Word
  rw [chars_append]
  exact Reads.append hs ht

theorem Joint.append_word {s t : String} (hs : Joint s) (ht : Word t) : Tail (s ++ t) := by
  unfold Tail
  rw [chars_append]
  exact Reads.append hs ht

theorem Word.append_joint {s t : String} (hs : Word s) (ht : Joint t) : Neutral (s ++ t) := by
  unfold Neutral
  rw [chars_append]
  exact Reads.append hs ht

theorem Tail.append_joint {s t : String} (hs : Tail s) (ht : Joint t) : Joint (s ++ t) := by
  unfold Joint
  rw [chars_append]
  exact Reads.append hs ht

theorem Joint.neutral {s : String} (h : Joint s) : Neutral s := h.of_settled

theorem neutral_empty : Neutral "" := reads_nil

theorem Neutral.append {s t : String} (hs : Neutral s) (ht : Neutral t) : Neutral (s ++ t) := by
  unfold Neutral
  rw [chars_append]
  exact Reads.append hs ht

theorem Joint.append {s t : String} (hs : Joint s) (ht : Neutral t) : Joint (s ++ t) := by
  unfold Joint
  rw [chars_append]
  exact Reads.append hs ht

/-- The characters are read outside of quotes from beginning to end, none as a placeholder. -/
def isNeutral (cs : List Char) : Bool :=
  (read .outside cs).all (· ≠ .hole) && decide (Place.after .outside cs = .outside)

/-- The characters are neutral, and the first of them closes no quotes. -/
def isJoint : List Char → Bool
  | [] => false
  | c :: cs => !isClosing c && isNeutral (c :: cs)

theorem read_eq_map_char {p : Place} {cs : List Char} (h : Symbol.hole ∉ read p cs) :
    read p cs = cs.map .char := by
  induction cs generalizing p with
  | nil => rfl
  | cons c cs ih =>
    rw [read, List.mem_cons, not_or] at h
    rw [read, List.map_cons, ih h.2]
    by_cases hm : p.marks c = true
    · rw [if_pos hm] at h
      exact absurd rfl h.1
    · rw [if_neg hm]

theorem reads_of_isNeutral {cs : List Char} (h : isNeutral cs = true) :
    Reads Outside Outside (cs.map .char) := by
  simp only [isNeutral, Bool.and_eq_true, List.all_eq_true, decide_eq_true_eq] at h
  rintro p rfl
  rw [toChar_char]
  exact ⟨read_eq_map_char fun hm => h.1 _ hm rfl, h.2⟩

/-- A character that closes no quotes is read behind closed quotes as outside of them. -/
theorem reads_settled_of_head {Q : Place → Prop} {c : Char} {xs : List Symbol}
    (hc : isClosing c = false) (h : Reads Outside Q (.char c :: xs)) :
    Reads Settled Q (.char c :: xs) := by
  rintro p (rfl | ⟨q, hq, rfl⟩)
  · exact h _ rfl
  · have hne : ¬ (q = ']' ∧ c = ']') := by
      rintro ⟨-, rfl⟩
      cases hc
    obtain ⟨hr, ha⟩ := read_behind hq hne (xs.map Symbol.toChar)
    rw [List.map_cons, Symbol.toChar, hr, ha]
    exact h .outside rfl

theorem reads_of_isJoint {cs : List Char} (h : isJoint cs = true) :
    Reads Settled Outside (cs.map .char) := by
  cases cs with
  | nil => cases h
  | cons c cs =>
    simp only [isJoint, Bool.and_eq_true, Bool.not_eq_true'] at h
    exact reads_settled_of_head h.1 (reads_of_isNeutral h.2)

theorem neutral_of {cs : List Char} (h : isNeutral cs = true) : Neutral (String.ofList cs) := by
  unfold Neutral chars
  rw [String.toList_ofList]
  exact reads_of_isNeutral h

theorem joint_of {cs : List Char} (h : isJoint cs = true) : Joint (String.ofList cs) := by
  unfold Joint chars
  rw [String.toList_ofList]
  exact reads_of_isJoint h

/-! ## Plain characters -/

/-- A character that neither opens quotes nor is a question mark. -/
def isPlain (c : Char) : Bool := (closing? c).isNone && c ≠ '?'

theorem isNeutral_of_plain {cs : List Char} (h : ∀ c ∈ cs, isPlain c = true) :
    isNeutral cs = true := by
  have hr : read .outside cs = cs.map .char ∧ Place.after .outside cs = .outside := by
    induction cs with
    | nil => exact ⟨rfl, rfl⟩
    | cons c cs ih =>
      obtain ⟨hrs, has⟩ := ih fun d hd => h d (List.mem_cons_of_mem _ hd)
      have hc := h c List.mem_cons_self
      simp only [isPlain, Bool.and_eq_true, Option.isNone_iff_eq_none, decide_eq_true_eq] at hc
      have hn : Place.next .outside c = .outside := by rw [Place.next, hc.1]; rfl
      refine ⟨?_, ?_⟩
      · rw [read, hn, hrs, List.map_cons]
        simp [Place.marks, hc.2]
      · rw [Place.after, List.foldl_cons, hn]
        exact has
  rw [isNeutral, hr.1, hr.2]
  simp

/-- Plain characters leave a reader outside of quotes outside. -/
theorem neutral_of_plain {s : String} (h : ∀ c ∈ s.toList, isPlain c = true) : Neutral s :=
  reads_of_isNeutral (isNeutral_of_plain h)

end SqlWeave.Template
