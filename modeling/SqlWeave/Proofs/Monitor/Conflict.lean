import Mathlib.Data.List.Infix
import SqlWeave.Dialect
import SqlWeave.Monitor.StatementKind
import SqlWeave.Proofs.Writing

/-!
# Listening for the words of a conflict

An INSERT is an upsert if somewhere in its text it says what to do with a key that is there. These
words are looked for in the whole text, names included, so an INSERT is told from an upsert only if
nothing that it is put together from spells them, alone or with its neighbours.

A listener goes through a text character by character and keeps what would have to follow for some
of the words to be complete (`listen`). It starts with what it awaits from the text in front, so a
text can be judged by itself: it is *quiet* if a listener who does not wait for a last blank hears
no words in it, and does not wait for a last blank behind it. Quiet texts may stand one behind the
other. Most characters begin no word and stand in none; at one of these, a *barrier*, a listener
starts anew.

Results:
* `listen_eq_none_iff`, `handlesConflicts_iff`: a listener hears the words where they stand.
* `listen_append`, `listen_mono`: texts one behind the other; who awaits less hears less.
* `Quiet.append`, `quiet_join`: quiet texts may be put one behind the other.
* `quiet_quote`: a quoted name is quiet if the name, between blanks, has none of the words in it.
-/

namespace SqlWeave

namespace Conflict

/-! ## Listening -/

/-- The words that say what to do with a key that is there. -/
def words : List (List Char) :=
  [[' ', 'O', 'N', ' ', 'D', 'U', 'P', 'L', 'I', 'C', 'A', 'T', 'E', ' ', 'K', 'E', 'Y', ' ', 'U',
      'P', 'D', 'A', 'T', 'E', ' '],
    [' ', 'O', 'N', ' ', 'C', 'O', 'N', 'F', 'L', 'I', 'C', 'T', ' ']]

/-- What is left of a word behind a character, in either letter case. -/
def behind (c : Char) : List Char → Option (List Char)
  | [] => none
  | x :: rest => if x = c.toUpper then some rest else none

/-- What a listener awaits behind a character. Words may begin anywhere. -/
def step (K : List (List Char)) (c : Char) : List (List Char) := (words ++ K).filterMap (behind c)

/-- What a listener who awaits `K` awaits behind a text, unless words are complete in it. -/
def listen (K : List (List Char)) : List Char → Option (List (List Char))
  | [] => some K
  | c :: cs => if [] ∈ step K c then none else listen (step K c) cs

variable {K L : List (List Char)} {c : Char} {r cs ds : List Char}

theorem mem_step_iff : r ∈ step K c ↔ c.toUpper :: r ∈ words ++ K := by
  unfold step
  rw [List.mem_filterMap]
  constructor
  · rintro ⟨x, hx, hr⟩
    cases x with
    | nil => cases hr
    | cons y x =>
      obtain ⟨rfl, hxr⟩ := Option.ite_none_right_eq_some.mp hr
      cases hxr
      exact hx
  · intro h
    exact ⟨_, h, if_pos rfl⟩

theorem words_eq : words = [" ON DUPLICATE KEY UPDATE ".toList, " ON CONFLICT ".toList] := by
  decide

theorem nil_notMem_words : [] ∉ words := by decide

/-- A text that is awaited at the front of another one is awaited behind its first character. -/
theorem exists_step_iff (h : [] ∉ words ++ K) :
    (∃ r ∈ step K c, r <+: cs) ↔ ∃ r ∈ words ++ K, r <+: c.toUpper :: cs := by
  constructor
  · rintro ⟨r, hr, hp⟩
    exact ⟨_, mem_step_iff.mp hr, List.cons_prefix_cons.mpr ⟨rfl, hp⟩⟩
  · rintro ⟨r, hr, hp⟩
    cases r with
    | nil => exact absurd hr h
    | cons x r =>
      obtain ⟨rfl, hrest⟩ := List.cons_prefix_cons.mp hp
      exact ⟨r, mem_step_iff.mpr hr, hrest⟩

/-- **A listener hears what stands in the text**: something awaited at its front, or words anywhere
in it. -/
theorem listen_eq_none_iff (h : [] ∉ K) : listen K cs = none ↔
    (∃ r ∈ K, r <+: cs.map Char.toUpper) ∨ ∃ w ∈ words, w <:+: cs.map Char.toUpper := by
  induction cs generalizing K with
  | nil =>
    refine iff_of_false (by simp [listen]) ?_
    rintro (⟨r, hr, hp⟩ | ⟨w, hw, hi⟩)
    · exact h (List.prefix_nil.mp hp ▸ hr)
    · exact nil_notMem_words (List.infix_nil.mp hi ▸ hw)
  | cons c cs ih =>
    have hnil : [] ∉ words ++ K := fun hm =>
      (List.mem_append.mp hm).elim nil_notMem_words h
    -- what is awaited or begins here, or stands behind this character
    have hcons : ((∃ r ∈ K, r <+: (c :: cs).map Char.toUpper) ∨
        ∃ w ∈ words, w <:+: (c :: cs).map Char.toUpper) ↔
        (∃ r ∈ step K c, r <+: cs.map Char.toUpper) ∨ ∃ w ∈ words, w <:+: cs.map Char.toUpper := by
      rw [exists_step_iff hnil, List.map_cons]
      simp only [List.infix_cons_iff, List.mem_append, or_and_right, and_or_left, exists_or]
      exact or_left_comm.trans or_assoc.symm
    rw [hcons]
    unfold listen
    split
    · next hc => exact iff_of_true rfl (.inl ⟨[], hc, List.nil_prefix⟩)
    · next hc => exact ih hc

theorem listen_append (K : List (List Char)) (cs ds : List Char) :
    listen K (cs ++ ds) = (listen K cs).bind fun L => listen L ds := by
  induction cs generalizing K with
  | nil => rfl
  | cons c cs ih =>
    simp only [List.cons_append, listen]
    split
    · rfl
    · exact ih _

/-- Who awaits less hears less. -/
theorem listen_mono {K' L' : List (List Char)} (hK : K ⊆ K') (h : listen K' cs = some L') :
    ∃ L, listen K cs = some L ∧ L ⊆ L' := by
  induction cs generalizing K K' with
  | nil =>
    cases h
    exact ⟨K, rfl, hK⟩
  | cons c cs ih =>
    have hstep : step K c ⊆ step K' c := fun r hr => by
      rw [mem_step_iff] at hr ⊢
      exact List.append_subset.mpr ⟨List.subset_append_left _ _, fun _ hx =>
        List.mem_append_right _ (hK hx)⟩ hr
    unfold listen at h ⊢
    split at h
    · cases h
    · next hc =>
      rw [if_neg fun hm => hc (hstep hm)]
      exact ih hstep h

/-! ## The words of a statement -/

theorem occurs_iff {text : List Char} : StatementKind.occurs text cs = true ↔ text <:+: cs := by
  induction cs with
  | nil => simp [StatementKind.occurs]
  | cons c cs ih => simp [StatementKind.occurs, ih, List.infix_cons_iff]

/-- **A statement handles conflicts if a listener hears the words in it.** -/
theorem handlesConflicts_iff : StatementKind.handlesConflicts cs = true ↔ listen [] cs = none := by
  rw [listen_eq_none_iff List.not_mem_nil]
  simp [StatementKind.handlesConflicts, occurs_iff, words_eq]

theorem handlesConflicts_eq_false_iff :
    StatementKind.handlesConflicts cs = false ↔ ∃ L, listen [] cs = some L := by
  rw [← Option.ne_none_iff_exists', ne_eq, ← handlesConflicts_iff, Bool.not_eq_true]

/-- The text, between blanks, has none of the words in it. -/
def Silent (s : String) : Prop := StatementKind.handlesConflicts (" " ++ s ++ " ").toList = false

instance (s : String) : Decidable (Silent s) := inferInstanceAs (Decidable (_ = _))

/-! ## What may be awaited -/

/-- Everything that a listener may ever await: the words without some of their first characters. -/
def rests : List (List Char) :=
  (words.flatMap fun w => w.tails.tail).filter (!·.isEmpty)

/-- What a listener awaits who does not wait for a last blank. -/
def loose : List (List Char) := rests.filter (· ≠ [' '])

theorem loose_subset : loose ⊆ rests := List.filter_subset_self _

theorem tail_mem_of_mem_rests : ∀ r ∈ words ++ rests, r.tail ∈ [] :: rests := by decide

theorem tail_mem_of_blank :
    ∀ r ∈ words ++ rests, r.head? = some ' ' → r.tail ∈ [] :: loose := by decide

theorem step_subset (h : K ⊆ rests) : step K c ⊆ [] :: rests := by
  intro r hr
  refine tail_mem_of_mem_rests (c.toUpper :: r) ?_
  rcases List.mem_append.mp (mem_step_iff.mp hr) with hw | hK
  · exact List.mem_append_left _ hw
  · exact List.mem_append_right _ (h hK)

/-- Behind a blank, no listener waits for a last blank. -/
theorem step_blank_subset (h : K ⊆ rests) : step K ' ' ⊆ [] :: loose := by
  intro r hr
  refine tail_mem_of_blank ((' ').toUpper :: r) ?_ rfl
  rcases List.mem_append.mp (mem_step_iff.mp hr) with hw | hK
  · exact List.mem_append_left _ hw
  · exact List.mem_append_right _ (h hK)

theorem listen_cons_eq_some_iff : listen K (c :: cs) = some L ↔
    [] ∉ step K c ∧ listen (step K c) cs = some L := by
  rw [listen]
  split
  · next h => simp [h]
  · next h => simp [h]

theorem listen_subset (hK : K ⊆ rests) (h : listen K cs = some L) : L ⊆ rests := by
  induction cs generalizing K with
  | nil =>
    cases h
    exact hK
  | cons c cs ih =>
    obtain ⟨hc, h⟩ := listen_cons_eq_some_iff.mp h
    refine ih (fun r hr => ?_) h
    exact (List.mem_cons.mp (step_subset hK hr)).resolve_left fun hr' => hc (hr' ▸ hr)

/-- Behind a text and a blank, no listener waits for a last blank. -/
theorem listen_blank_subset (hK : K ⊆ rests) (h : listen K (cs ++ [' ']) = some L) :
    L ⊆ loose := by
  rw [listen_append] at h
  obtain ⟨M, hM, h⟩ := Option.bind_eq_some_iff.mp h
  obtain ⟨hc, h⟩ := listen_cons_eq_some_iff.mp h
  cases h
  intro r hr
  refine (List.mem_cons.mp (step_blank_subset (listen_subset hK hM) hr)).resolve_left ?_
  rintro rfl
  exact hc hr

/-! ## Barriers -/

/-- A character that is in none of the words. -/
def isBarrier (c : Char) : Bool := !words.flatten.contains c.toUpper

theorem head_mem_words :
    ((words ++ rests).all fun r => r.head?.all words.flatten.contains) = true := by decide

/-- **At a barrier a listener starts anew.** -/
theorem step_of_isBarrier (hK : K ⊆ rests) (hc : isBarrier c = true) : step K c = [] := by
  rw [List.eq_nil_iff_forall_not_mem]
  intro r hr
  have hmem : c.toUpper :: r ∈ words ++ rests := by
    rcases List.mem_append.mp (mem_step_iff.mp hr) with hw | hm
    · exact List.mem_append_left _ hw
    · exact List.mem_append_right _ (hK hm)
  have hhead : words.flatten.contains c.toUpper = true :=
    List.all_eq_true.mp head_mem_words _ hmem
  rw [isBarrier, hhead] at hc
  cases hc

theorem isBarrier_of_isDigit (h : c.isDigit = true) : isBarrier c = true := by
  have hupper : c.toUpper = c := by
    simp only [Char.isDigit, ge_iff_le, Bool.and_eq_true, decide_eq_true_eq] at h
    unfold Char.toUpper
    rw [dif_neg]
    rintro ⟨hlow, -⟩
    exact absurd (UInt32.le_trans hlow h.2) (by decide)
  have hwords : (words.flatten.all fun x => !x.isDigit) = true := by decide
  rw [isBarrier, hupper, Bool.not_eq_true', ← Bool.not_eq_true, List.contains_iff_mem]
  intro hm
  have hnot := List.all_eq_true.mp hwords c hm
  rw [h] at hnot
  cases hnot

theorem listen_cons_of_isBarrier (hK : K ⊆ rests) (hc : isBarrier c = true) (cs : List Char) :
    listen K (c :: cs) = listen [] cs := by
  rw [listen, step_of_isBarrier hK hc, if_neg List.not_mem_nil]

/-- Barriers are heard once or twice alike. -/
theorem listen_doubled {twice : Char → Bool} (ht : ∀ c, twice c = true → isBarrier c = true)
    (hK : K ⊆ rests) : listen K (Text.doubled twice cs) = listen K cs := by
  induction cs generalizing K with
  | nil => rfl
  | cons c cs ih =>
    by_cases hc : twice c = true
    · have hd : Text.doubled twice (c :: cs) = c :: c :: Text.doubled twice cs := by
        simp [Text.doubled, hc]
      have hb := ht c hc
      rw [hd, listen_cons_of_isBarrier hK hb, listen_cons_of_isBarrier (List.nil_subset _) hb,
        listen_cons_of_isBarrier hK hb, ih (List.nil_subset _)]
    · have hd : Text.doubled twice (c :: cs) = c :: Text.doubled twice cs := by
        simp [Text.doubled, hc]
      rw [hd, listen, listen]
      split
      · rfl
      · next hn =>
        refine ih fun r hr => ?_
        exact (List.mem_cons.mp (step_subset hK hr)).resolve_left fun hr' => hn (hr' ▸ hr)

/-! ## Quiet texts -/

/-- A listener who does not wait for a last blank hears no words in the text, and does not wait for
a last blank behind it. -/
def Quiet (s : String) : Prop := ∃ L, listen loose s.toList = some L ∧ L ⊆ loose

/-- A listener who waits for nothing hears no words in the text. -/
def Clear (s : String) : Prop := ∃ L, listen [] s.toList = some L

/-- He does not wait for a last blank behind it either. -/
def Calm (s : String) : Prop := ∃ L, listen [] s.toList = some L ∧ L ⊆ loose

/-- Whatever a listener awaits, behind the text nothing is awaited. -/
def Mute (s : String) : Prop := listen rests s.toList = some []

/-- There is a barrier in the text. -/
def Parted (s : String) : Prop := ∃ c ∈ s.toList, isBarrier c = true

variable {s t : String}

/-- A listener who awaits `K` hears no words, and does not wait for a last blank behind the text. -/
def hearsNone (K : List (List Char)) (cs : List Char) : Bool :=
  (listen K cs).any fun L => L.all loose.contains

theorem hearsNone_iff : hearsNone K cs = true ↔ ∃ L, listen K cs = some L ∧ L ⊆ loose := by
  simp [hearsNone, Option.any_eq_true, List.subset_def]

/-- A quiet text, given letter by letter. -/
theorem quiet_of (h : hearsNone loose cs = true) : Quiet (.ofList cs) := by
  unfold Quiet
  rw [String.toList_ofList]
  exact hearsNone_iff.mp h

theorem calm_of (h : hearsNone [] cs = true) : Calm (.ofList cs) := by
  unfold Calm
  rw [String.toList_ofList]
  exact hearsNone_iff.mp h

theorem Calm.clear (h : Calm s) : Clear s := h.imp fun _ => And.left

theorem mute_of (h : listen rests cs = some []) : Mute (.ofList cs) := by
  unfold Mute
  rwa [String.toList_ofList]

theorem parted_of (h : cs.any isBarrier = true) : Parted (.ofList cs) := by
  unfold Parted
  rw [String.toList_ofList]
  exact List.any_eq_true.mp h

theorem Quiet.append (hs : Quiet s) (ht : Quiet t) : Quiet (s ++ t) := by
  obtain ⟨L, hL, hsub⟩ := hs
  obtain ⟨M', hM', hsub'⟩ := ht
  obtain ⟨M, hM, hle⟩ := listen_mono hsub hM'
  refine ⟨M, ?_, List.Subset.trans hle hsub'⟩
  rw [String.toList_append, listen_append, hL]
  exact hM

theorem quiet_empty : Quiet "" := quiet_of (by decide)

/-- **Quiet texts may be put one behind the other.** -/
theorem quiet_join : ∀ {ss : List String}, (∀ s ∈ ss, Quiet s) → Quiet (String.join ss)
  | [], _ => quiet_empty
  | s :: ss, h => by
    rw [String.join_cons]
    exact (h s List.mem_cons_self).append (quiet_join fun t ht => h t (List.mem_cons_of_mem _ ht))

theorem quiet_intercalate {separator : String} (hs : Quiet separator) :
    ∀ {ss : List String}, (∀ s ∈ ss, Quiet s) → Quiet (separator.intercalate ss)
  | [], _ => quiet_empty
  | [s], h => by
    rw [String.intercalate_singleton]
    exact h s List.mem_cons_self
  | s :: t :: ss, h => by
    have ih : Quiet (separator.intercalate (t :: ss)) :=
      quiet_intercalate hs fun x hx => h x (List.mem_cons_of_mem _ hx)
    rw [String.intercalate_cons_cons]
    exact ((h s List.mem_cons_self).append hs).append ih

theorem Mute.listen (h : Mute s) (hK : K ⊆ rests) : listen K s.toList = some [] := by
  obtain ⟨L, hL, hsub⟩ := listen_mono hK h
  rw [hL, List.subset_nil.mp hsub]

theorem Mute.append (hs : Mute s) (ht : Mute t) : Mute (s ++ t) := by
  unfold Mute
  rw [String.toList_append, listen_append, hs, Option.bind_some]
  exact ht.listen (List.nil_subset _)

theorem Mute.quiet (h : Mute s) : Quiet s := ⟨[], h.listen loose_subset, List.nil_subset _⟩

theorem mute_of_isBarrier (hne : s ≠ "") (h : ∀ c ∈ s.toList, isBarrier c = true) : Mute s := by
  have hall : ∀ cs : List Char, (∀ c ∈ cs, isBarrier c = true) →
      Conflict.listen [] cs = some [] := by
    intro cs hcs
    induction cs with
    | nil => rfl
    | cons c cs ih =>
      rw [listen_cons_of_isBarrier (List.nil_subset _) (hcs c List.mem_cons_self)]
      exact ih fun x hx => hcs x (List.mem_cons_of_mem _ hx)
  unfold Mute
  cases hs : s.toList with
  | nil => exact absurd (String.toList_eq_nil_iff.mp hs) hne
  | cons c cs =>
    rw [hs] at h
    rw [listen_cons_of_isBarrier (fun _ hr => hr) (h c List.mem_cons_self)]
    exact hall cs fun x hx => h x (List.mem_cons_of_mem _ hx)

theorem Parted.append_left (h : Parted s) (t : String) : Parted (s ++ t) := by
  obtain ⟨c, hc, hb⟩ := h
  exact ⟨c, by rw [String.toList_append]; exact List.mem_append_left _ hc, hb⟩

theorem Parted.append_right (h : Parted t) (s : String) : Parted (s ++ t) := by
  obtain ⟨c, hc, hb⟩ := h
  exact ⟨c, by rw [String.toList_append]; exact List.mem_append_right _ hc, hb⟩

/-- Behind a quiet text with a barrier, nothing is awaited that was awaited in front of it. -/
theorem listen_of_parted (hq : Quiet s) (hp : Parted s) :
    listen loose s.toList = listen [] s.toList := by
  obtain ⟨c, hc, hb⟩ := hp
  obtain ⟨cs, ds, hs⟩ := List.append_of_mem hc
  obtain ⟨L, hL, -⟩ := hq
  rw [hs, listen_append] at hL
  obtain ⟨M, hM, -⟩ := Option.bind_eq_some_iff.mp hL
  obtain ⟨M', hM', hle⟩ := listen_mono (List.nil_subset _) hM
  have hrests : M ⊆ rests := listen_subset loose_subset hM
  rw [hs, listen_append, listen_append, hM, hM', Option.bind_some, Option.bind_some,
    listen_cons_of_isBarrier hrests hb, listen_cons_of_isBarrier (List.Subset.trans hle hrests) hb]

/-! ## Names -/

theorem infix_trimChars (cs : List Char) : Text.trimChars cs <:+: cs := by
  have hstart : Text.trimStart cs <:+: cs := (List.dropWhile_suffix _).isInfix
  refine List.IsInfix.trans ?_ hstart
  rw [← List.reverse_infix, Text.trimChars, List.reverse_reverse]
  exact (List.dropWhile_suffix _).isInfix

theorem infix_of_mem_splitOn {x : Char} (h : ds ∈ cs.splitOn x) : ds <:+: cs := by
  have hjoin : [x].intercalate (cs.splitOn x) = cs := List.intercalate_splitOn x
  rw [← hjoin]
  exact List.infix_of_mem_flatten (mem_intersperse h)

/-- What stands in a clear text is clear. -/
theorem Clear.of_infix (h : Clear s) (hi : t.toList <:+: s.toList) : Clear t := by
  obtain ⟨L, hL⟩ := h
  obtain ⟨before, behind, hs⟩ := hi
  rw [← hs, List.append_assoc, listen_append] at hL
  obtain ⟨M, -, hL⟩ := Option.bind_eq_some_iff.mp hL
  rw [listen_append] at hL
  obtain ⟨N, hN, -⟩ := Option.bind_eq_some_iff.mp hL
  obtain ⟨N', hN', -⟩ := listen_mono (List.nil_subset M) hN
  exact ⟨N', hN'⟩

/-- What is silent between blanks is so without the blank in front of it. -/
theorem Silent.listen_blank (h : Silent s) :
    ∃ L, listen [] (s.toList ++ [' ']) = some L ∧ L ⊆ loose := by
  obtain ⟨L, hL⟩ := handlesConflicts_eq_false_iff.mp h
  have htext : (" " ++ s ++ " ").toList = ' ' :: (s.toList ++ [' ']) := by
    rw [String.toList_append, String.toList_append]
    rfl
  rw [htext] at hL
  obtain ⟨M, hM, -⟩ := listen_mono (List.nil_subset _) (listen_cons_eq_some_iff.mp hL).2
  exact ⟨M, hM, listen_blank_subset (List.nil_subset _) hM⟩

/-- **A text that is silent between blanks is calm**: a last blank that is awaited behind it would
be heard. -/
theorem Silent.calm (h : Silent s) : Calm s := by
  obtain ⟨M, hM, -⟩ := h.listen_blank
  rw [listen_append] at hM
  obtain ⟨N, hN, hM⟩ := Option.bind_eq_some_iff.mp hM
  refine ⟨N, hN, fun r hr => List.mem_filter.mpr ⟨listen_subset (List.nil_subset _) hN hr, ?_⟩⟩
  rw [decide_eq_true_eq]
  rintro rfl
  exact (listen_cons_eq_some_iff.mp hM).1 (mem_step_iff.mpr (List.mem_append_right _ hr))

/-- **An operator between blanks is quiet behind its operand** if the two are silent together and
nothing that was awaited in front of the operand counts behind it. -/
theorem Silent.quiet_operator {operand op : String} (h : Silent (operand ++ " " ++ op))
    (ho : listen loose operand.toList = listen [] operand.toList) :
    Quiet (operand ++ (" " ++ op ++ " ")) := by
  obtain ⟨L, hL, hsub⟩ := h.listen_blank
  have htext : (operand ++ " " ++ op).toList ++ [' '] =
      operand.toList ++ (" " ++ op ++ " ").toList := by
    simp only [String.toList_append, List.append_assoc]
    rfl
  rw [htext, listen_append] at hL
  refine ⟨L, ?_, hsub⟩
  rw [String.toList_append, listen_append, ho, hL]

/-- Calm texts on both sides of a dot. -/
theorem Calm.dotted (hs : Calm s) (ht : Calm t) : Calm (s ++ "." ++ t) := by
  obtain ⟨L, hL, hsub⟩ := hs
  obtain ⟨M, hM, hsub'⟩ := ht
  have htext : (s ++ "." ++ t).toList = s.toList ++ '.' :: t.toList := by
    rw [String.toList_append, String.toList_append, List.append_assoc]
    rfl
  refine ⟨M, ?_, hsub'⟩
  rw [htext, listen_append, hL, Option.bind_some,
    listen_cons_of_isBarrier (List.Subset.trans hsub loose_subset) (by decide)]
  exact hM

end Conflict

open Conflict

namespace Dialect

variable (d : Dialect) {name part : String}

theorem isBarrier_quotes : isBarrier d.quotes.1 = true ∧ isBarrier d.quotes.2 = true := by
  cases d <;> decide

/-- **A part of a name between quotes is quiet if it is clear**: its quotes are barriers. -/
theorem quiet_quotePart (h : Clear part) : Quiet (d.quotePart part) := by
  obtain ⟨L, hL⟩ := h
  unfold quotePart
  split
  · next hp =>
    subst hp
    exact quiet_of (by decide)
  · have hclosing : ∀ c, (c == d.quotes.2) = true → isBarrier c = true := by
      intro c hc
      rw [beq_iff_eq.mp hc]
      exact d.isBarrier_quotes.2
    refine ⟨[], ?_, List.nil_subset _⟩
    rw [String.toList_ofList, Text.delimited,
      listen_cons_of_isBarrier loose_subset d.isBarrier_quotes.1, listen_append,
      listen_doubled hclosing (List.nil_subset _), hL, Option.bind_some,
      listen_cons_of_isBarrier (listen_subset (List.nil_subset _) hL) d.isBarrier_quotes.2]
    rfl

/-- **A quoted name is quiet if the name is calm**, whether it is cut at its dots or quoted
already. -/
theorem quiet_quote (h : Calm name) : Quiet (d.quote name) := by
  unfold quote
  split
  · next hq =>
    obtain ⟨L, hL, hsub⟩ := h
    -- the quote at the front is a barrier, so nothing that was awaited counts
    obtain ⟨cs, hcs⟩ := List.head?_eq_some_iff.mp hq
    refine ⟨L, ?_, hsub⟩
    rw [hcs] at hL ⊢
    rw [listen_cons_of_isBarrier (List.nil_subset _) d.isBarrier_quotes.1] at hL
    rwa [listen_cons_of_isBarrier loose_subset d.isBarrier_quotes.1]
  · refine quiet_intercalate (quiet_of (by decide)) fun w hw => ?_
    obtain ⟨part, hpart, rfl⟩ := List.mem_map.mp hw
    have hinfix : (String.ofList (Text.trimChars part)).toList <:+: name.toList := by
      rw [String.toList_ofList]
      exact (infix_trimChars part).trans (infix_of_mem_splitOn hpart)
    exact d.quiet_quotePart (h.clear.of_infix hinfix)

theorem parted_quotePart (part : String) : Parted (d.quotePart part) := by
  unfold quotePart
  split
  · next hp =>
    subst hp
    exact parted_of (by decide)
  · exact ⟨d.quotes.1, by rw [String.toList_ofList]; exact List.mem_cons_self,
      d.isBarrier_quotes.1⟩

theorem parted_quote (name : String) : Parted (d.quote name) := by
  unfold quote
  split
  · next hq => exact ⟨d.quotes.1, List.mem_of_mem_head? hq, d.isBarrier_quotes.1⟩
  · cases hs : name.toList.splitOn '.' with
    | nil => exact absurd hs (List.splitOn_ne_nil '.' _)
    | cons part parts =>
      rw [List.map_cons]
      cases parts.map fun part => d.quotePart (String.ofList (Text.trimChars part)) with
      | nil =>
        rw [String.intercalate_singleton]
        exact d.parted_quotePart _
      | cons w ws =>
        rw [String.intercalate_cons_cons]
        exact ((d.parted_quotePart _).append_left _).append_left _

end Dialect

end SqlWeave
