import SqlWeave.Proofs.Said
import SqlWeave.Query.Window
import SqlWeave.Text.Blank

/-!
# The words for a page, read back

The engines have many ways to write a page: a count of rows to leave out and one to take, the numbers
of the first and the last row, a condition on row numbers. Here the words are read back as the engine
understands them (`Window.read?`), and the rows of the page are counted from the limit and the offset
alone (`Window.OnPage`). Whatever words are written, they hold the rows of the page.

Numbers that would not fit a machine word stop at its greatest one, and MySQL takes that many rows
where there is no limit, so the row of the greatest number is left out.

Results:
* `Text.words_eq`: the words of a text made of words.
* `read?_condition` and its like: the page that is read back from each way of writing one.
* `states_condition`, `states_offsetFetch`, `states_limitOffset_greatest`, `states_rows` and their
  like: each way holds the rows of the page.
-/

namespace SqlWeave

/-! ## Reading words and numbers -/

namespace Number

theorem readDigits_eq_ofDigitChars {cs : List Char} (h : ∀ c ∈ cs, c.isDigit = true) (n : Nat) :
    readDigits n cs = some (Nat.ofDigitChars 10 cs n) := by
  induction cs generalizing n with
  | nil => rfl
  | cons c cs ih =>
    rw [readDigits, digit?, if_pos (h c List.mem_cons_self), Nat.ofDigitChars_cons]
    exact ih (fun x hx => h x (List.mem_cons_of_mem _ hx)) _

theorem isDigit_of_mem_natText {n : Nat} {c : Char} (h : c ∈ (natText n).toList) :
    c.isDigit = true := by
  rw [natText, String.toList_ofList] at h
  exact Nat.isDigit_of_mem_toDigits (by omega) (by omega) h

/-- A number is read back from its digits. -/
theorem readDigits_natText (n : Nat) : readDigits 0 (natText n).toList = some n := by
  rw [readDigits_eq_ofDigitChars fun _ => isDigit_of_mem_natText, natText, String.toList_ofList,
    Nat.ofDigitChars_ten_toDigits]

end Number

namespace Text

/-- A text is one word. -/
def isWord (w : String) : Bool := !w.isEmpty && w.toList.all fun c => !isBlank c

theorem isWord_iff {w : String} : isWord w = true ↔ w ≠ "" ∧ ∀ c ∈ w.toList, isBlank c = false := by
  simp [isWord]

theorem isBlank_of_isDigit {c : Char} (h : c.isDigit = true) : isBlank c = false := by
  have hd : 48 ≤ c.toNat ∧ c.toNat ≤ 57 := by simpa [Char.isDigit_iff_toNat] using h
  simp only [isBlank, Bool.or_eq_false_iff, Bool.and_eq_false_iff, decide_eq_false_iff_not,
    beq_eq_false_iff_ne]
  omega

theorem isWord_natText (n : Nat) : isWord (Number.natText n) = true :=
  isWord_iff.mpr ⟨Number.natText_ne_empty n,
    fun _ hc => isBlank_of_isDigit (Number.isDigit_of_mem_natText hc)⟩

/-- Words with a blank in front of each. -/
def spaced (ws : List String) : List Char := ws.flatMap fun w => ' ' :: w.toList

theorem wordsFrom_append_blank (cs : List Char) :
    ∀ word, wordsFrom word (cs ++ [' ']) = wordsFrom word cs := by
  induction cs with
  | nil =>
    intro word
    cases word <;> rfl
  | cons c cs ih =>
    intro word
    rw [List.cons_append, wordsFrom, wordsFrom, ih, ih]

/-- Reading goes on behind characters that are not blank. -/
theorem wordsFrom_append {cs : List Char} (h : ∀ c ∈ cs, isBlank c = false) (rest : List Char) :
    ∀ word, wordsFrom word (cs ++ rest) = wordsFrom (cs.reverse ++ word) rest := by
  induction cs with
  | nil => exact fun _ => rfl
  | cons c cs ih =>
    intro word
    have hc : ¬ isBlank c = true := by simp [h c List.mem_cons_self]
    rw [List.cons_append, wordsFrom, if_neg hc, ih fun x hx => h x (List.mem_cons_of_mem _ hx),
      List.reverse_cons, List.append_assoc]
    rfl

/-- Spaced words are read behind the word that is being read. -/
theorem wordsFrom_spaced {ws : List String} (h : ∀ w ∈ ws, isWord w = true) : ∀ word : List Char,
    wordsFrom word (spaced ws) =
      (if word.isEmpty then [] else [word.reverse]) ++ ws.map String.toList := by
  induction ws with
  | nil =>
    intro word
    cases word <;> rfl
  | cons w ws ih =>
    intro word
    obtain ⟨hne, hw⟩ := isWord_iff.mp (h w List.mem_cons_self)
    have hread : (w.toList.reverse ++ []).isEmpty = false := by simpa using hne
    have hrest : wordsFrom [] (w.toList ++ spaced ws) = w.toList :: ws.map String.toList := by
      rw [wordsFrom_append hw, ih (fun x hx => h x (List.mem_cons_of_mem _ hx)), hread]
      simp
    have hblank : isBlank ' ' = true := rfl
    rw [spaced, List.flatMap_cons, List.cons_append, wordsFrom, if_pos hblank, ← spaced, hrest]
    cases word <;> rfl

/-- **Spaced words are the words**, also with the blank behind each of them. -/
theorem words_eq {s : String} {ws : List String} (h : ∀ w ∈ ws, isWord w = true)
    (hs : s.toList = spaced ws ∨ ' ' :: s.toList = spaced ws ++ [' ']) : words s = ws := by
  have hwords : wordsFrom [] s.toList = ws.map String.toList := by
    rcases hs with hs | hs
    · rw [hs]
      exact wordsFrom_spaced h []
    · calc wordsFrom [] s.toList
        _ = wordsFrom [] (' ' :: s.toList) := rfl
        _ = wordsFrom [] (spaced ws) := by rw [hs, wordsFrom_append_blank]
        _ = ws.map String.toList := wordsFrom_spaced h []
  unfold words
  rw [hwords, List.map_map]
  simp

end Text

/-! ## Reading a page -/

namespace Window

open Number Text

/-- A word of a page. -/
inductive Word where
  | keyword (s : String)
  | number (n : Nat)
  /-- A number in parentheses. -/
  | enclosed (n : Nat)
  deriving DecidableEq, Repr

namespace Word

/-- The text of a word. -/
def text : Word → String
  | keyword s => s
  | number n => natText n
  | enclosed n => "(" ++ natText n ++ ")"

/-- The number that digits state, one digit at least. -/
def number? (cs : List Char) : Option Nat := if cs.isEmpty then none else readDigits 0 cs

/-- The number between parentheses. -/
def enclosed? (cs : List Char) : Option Nat :=
  if cs.head? = some '(' ∧ cs.getLast? = some ')' then number? (cs.drop 1).dropLast else none

/-- The word that a text is. -/
def ofText (s : String) : Word :=
  match number? s.toList, enclosed? s.toList with
  | some n, _ => number n
  | none, some n => enclosed n
  | none, none => keyword s

/-- The word is read back from its text. -/
def isLegible : Word → Bool
  | keyword s => isWord s && ofText s = keyword s
  | _ => true

theorem number?_natText (n : Nat) : number? (natText n).toList = some n := by
  have hne : (natText n).toList.isEmpty = false := by simpa using natText_ne_empty n
  rw [number?, hne]
  exact readDigits_natText n

theorem ofText_text {w : Word} (h : w.isLegible = true) : ofText w.text = w := by
  cases w with
  | keyword s => exact of_decide_eq_true (Bool.and_eq_true_iff.mp h).2
  | number n =>
    unfold ofText text
    rw [number?_natText]
  | enclosed n =>
    have hl : (text (.enclosed n)).toList = '(' :: ((natText n).toList ++ [')']) := by simp [text]
    have hopen : number? ('(' :: ((natText n).toList ++ [')'])) = none := rfl
    have hinside : enclosed? ('(' :: ((natText n).toList ++ [')'])) = some n := by
      have hlast : ('(' :: ((natText n).toList ++ [')'])).getLast? = some ')' := by
        rw [← List.cons_append, List.getLast?_concat]
      rw [enclosed?, if_pos ⟨rfl, hlast⟩, List.drop_one, List.tail_cons, List.dropLast_concat]
      exact number?_natText n
    unfold ofText
    rw [hl, hopen, hinside]

theorem isWord_text {w : Word} (h : w.isLegible = true) : isWord w.text = true := by
  cases w with
  | keyword s => exact (Bool.and_eq_true_iff.mp h).1
  | number n => exact isWord_natText n
  | enclosed n =>
    obtain ⟨-, hn⟩ := isWord_iff.mp (isWord_natText n)
    refine isWord_iff.mpr ⟨by simp [text], fun c hc => ?_⟩
    have hc : c = '(' ∨ c ∈ (natText n).toList ∨ c = ')' := by simpa [text] using hc
    rcases hc with rfl | hc | rfl
    · rfl
    · exact hn c hc
    · rfl

end Word

/-- The page that words state. Without words, all rows are meant. -/
def ofWords? : List Word → Option Window
  | [] => some (skipTake 0 none)
  | [.keyword ">", .number k] => some (above k)
  | [.keyword "BETWEEN", .number a, .keyword "AND", .number b] => some (between a b)
  | [.keyword "OFFSET", .number k, .keyword "ROWS"] => some (skipTake k none)
  | [.keyword "OFFSET", .number k, .keyword "ROWS", .keyword "FETCH", .keyword "NEXT", .number n,
      .keyword "ROWS", .keyword "ONLY"] => some (skipTake k (some n))
  | [.keyword "LIMIT", .number n] => some (skipTake 0 (some n))
  | [.keyword "LIMIT", .number n, .keyword "OFFSET", .number k] => some (skipTake k (some n))
  -- a negative limit is none
  | [.keyword "LIMIT", .keyword "-1", .keyword "OFFSET", .number k] => some (skipTake k none)
  | [.keyword "ROWS", .number n] => some (between 1 n)
  | [.keyword "ROWS", .number a, .keyword "TO", .number b] => some (between a b)
  | [.keyword "FIRST", .number n] => some (skipTake 0 (some n))
  | [.keyword "FIRST", .number n, .keyword "SKIP", .number k] => some (skipTake k (some n))
  | [.keyword "SKIP", .number k] => some (skipTake k none)
  | [.keyword "TOP", .enclosed n] => some (skipTake 0 (some n))
  | _ => none

/-- The page that a text states. -/
def read? (s : String) : Option Window := ofWords? ((words s).map .ofText)

/-- A text is read as the words that it is made of. -/
theorem read?_eq {s : String} (ws : List Word) (h : ws.all Word.isLegible = true)
    (hs : s.toList = spaced (ws.map Word.text) ∨
      ' ' :: s.toList = spaced (ws.map Word.text) ++ [' ']) : read? s = ofWords? ws := by
  have hlegible := List.all_eq_true.mp h
  have hwords : ∀ t ∈ ws.map Word.text, isWord t = true := by
    intro t ht
    obtain ⟨w, hw, rfl⟩ := List.mem_map.mp ht
    exact Word.isWord_text (hlegible w hw)
  have hback : (ws.map Word.text).map Word.ofText = ws := by
    rw [List.map_map]
    exact (List.map_congr_left fun w hw => Word.ofText_text (hlegible w hw)).trans (List.map_id ws)
  rw [read?, words_eq hwords hs, hback]

theorem read?_condition (offset : Nat) (limit : Option Nat) :
    read? (numbered offset limit).condition = some (numbered offset limit) := by
  cases limit with
  | none =>
    exact read?_eq [.keyword ">", .number offset] rfl
      (.inl (by simp [numbered, condition, spaced, Word.text]))
  | some l =>
    exact read?_eq [.keyword "BETWEEN", .number _, .keyword "AND", .number _] rfl
      (.inl (by simp [numbered, condition, spaced, Word.text]))

theorem read?_offsetFetch (offset : Nat) (limit : Option Nat) :
    read? (offsetFetch offset limit) = some (skipTake offset limit) := by
  cases limit with
  | none =>
    exact read?_eq [.keyword "OFFSET", .number offset, .keyword "ROWS"] rfl
      (.inl (by simp [offsetFetch, spaced, Word.text]))
  | some l =>
    exact read?_eq [.keyword "OFFSET", .number offset, .keyword "ROWS", .keyword "FETCH",
      .keyword "NEXT", .number l, .keyword "ROWS", .keyword "ONLY"] rfl
      (.inl (by simp [offsetFetch, spaced, Word.text]))

/-- A limit and an offset, read back; `u` is the limit where there is only an offset. -/
theorem read?_limitOffset {u : Word} {take : Option Nat} (hu : u.isLegible = true)
    (ht : ∀ k, ofWords? [.keyword "LIMIT", u, .keyword "OFFSET", .number k] =
      some (skipTake k take)) (limit offset : Option Nat) :
    read? (limitOffset u.text limit offset) =
      some (skipTake (offset.getD 0) (if limit.isNone ∧ offset.isSome then take else limit)) := by
  cases limit with
  | none =>
    cases offset with
    | none => exact read?_eq [] rfl (.inl rfl)
    | some k =>
      refine (read?_eq [.keyword "LIMIT", u, .keyword "OFFSET", .number k] ?_
        (.inl (by simp [limitOffset, spaced, Word.text]))).trans (ht k)
      rw [List.all_cons, List.all_cons, hu]
      rfl
  | some l =>
    cases offset with
    | none =>
      exact read?_eq [.keyword "LIMIT", .number l] rfl
        (.inl (by simp [limitOffset, spaced, Word.text]))
    | some k =>
      exact read?_eq [.keyword "LIMIT", .number l, .keyword "OFFSET", .number k] rfl
        (.inl (by simp [limitOffset, spaced, Word.text]))

theorem read?_rows (limit : Nat) (offset : Option Nat) :
    read? (rows (some limit) offset) =
      some (offset.elim (between 1 limit) fun k => numbered k (some limit)) := by
  cases offset with
  | none =>
    exact read?_eq [.keyword "ROWS", .number limit] rfl (.inl (by simp [rows, spaced, Word.text]))
  | some k =>
    exact read?_eq [.keyword "ROWS", .number _, .keyword "TO", .number _] rfl
      (.inl (by simp [rows, numbered, spaced, Word.text]))

theorem read?_firstSkip (limit offset : Option Nat) :
    read? (firstSkip limit offset) = some (skipTake (offset.getD 0) limit) := by
  cases limit with
  | none =>
    cases offset with
    | none => exact read?_eq [] rfl (.inl rfl)
    | some k =>
      exact read?_eq [.keyword "SKIP", .number k] rfl
        (.inr (by simp [firstSkip, spaced, Word.text]))
  | some l =>
    cases offset with
    | none =>
      exact read?_eq [.keyword "FIRST", .number l] rfl
        (.inr (by simp [firstSkip, spaced, Word.text]))
    | some k =>
      exact read?_eq [.keyword "FIRST", .number l, .keyword "SKIP", .number k] rfl
        (.inr (by simp [firstSkip, spaced, Word.text]))

theorem read?_top (limit : Option Nat) : read? (top limit) = some (skipTake 0 limit) := by
  cases limit with
  | none => exact read?_eq [] rfl (.inl rfl)
  | some l =>
    exact read?_eq [.keyword "TOP", .enclosed l] rfl (.inr (by simp [top, spaced, Word.text]))

/-! ## The rows of a page -/

/-- The row of a number is on the page: it is behind the offset, by no more than the limit. -/
def OnPage (limit offset : Option Nat) (r : Nat) : Prop :=
  offset.getD 0 < r ∧ ∀ l, limit = some l → r ≤ offset.getD 0 + l

/-- A text states the page of a limit and an offset: what is read back from it holds the rows of the
page. -/
def States (s : String) (limit offset : Option Nat) : Prop :=
  ∃ w, read? s = some w ∧ ∀ r, r < greatestRow → (w.holds r ↔ OnPage limit offset r)

theorem holds_skipTake_iff (skip : Nat) (take : Option Nat) (r : Nat) :
    (skipTake skip take).holds r ↔ OnPage take (some skip) r := by
  cases take <;> simp [holds, OnPage]

variable {limit offset : Option Nat}

/-- Rows left out and rows taken are the page itself. -/
theorem states_of_skipTake {s : String} (h : read? s = some (skipTake (offset.getD 0) limit)) :
    States s limit offset :=
  ⟨_, h, fun r _ => holds_skipTake_iff (offset.getD 0) limit r⟩

/-- Numbers of rows stop at the greatest one, which is left out. -/
theorem states_of_numbered {s : String} {k : Nat} (h : read? s = some (numbered k limit)) :
    States s limit (some k) :=
  ⟨_, h, fun r hr => (holds_numbered k limit hr).trans (holds_skipTake_iff k limit r)⟩

theorem states_condition (k : Nat) (limit : Option Nat) :
    States (numbered k limit).condition limit (some k) :=
  states_of_numbered (read?_condition k limit)

/-- A page behind the greatest number states that number alone. -/
example : (numbered greatestRow (some 10)).condition =
    " BETWEEN 18446744073709551615 AND 18446744073709551615" := rfl

theorem states_offsetFetch (k : Nat) (limit : Option Nat) :
    States (offsetFetch k limit) limit (some k) :=
  states_of_skipTake (read?_offsetFetch k limit)

theorem states_firstSkip (limit offset : Option Nat) :
    States (firstSkip limit offset) limit offset :=
  states_of_skipTake (read?_firstSkip limit offset)

theorem states_top (limit : Option Nat) : States (top limit) limit none :=
  states_of_skipTake (read?_top limit)

/-- A limit of all rows that have a number is none. -/
theorem states_limitOffset_greatest (limit offset : Option Nat) :
    States (limitOffset greatestLimit limit offset) limit offset := by
  refine ⟨_, read?_limitOffset (u := .number greatestRow) rfl (fun _ => rfl) limit offset,
    fun r hr => ?_⟩
  rw [holds_skipTake_iff]
  cases limit with
  | some l => rfl
  | none =>
    cases offset with
    | none => rfl
    | some k =>
      simp [OnPage]
      omega

theorem states_limitOffset_negative (limit offset : Option Nat) :
    States (limitOffset "-1" limit offset) limit offset := by
  refine states_of_skipTake ((read?_limitOffset (u := .keyword "-1") rfl (fun _ => rfl) limit
    offset).trans ?_)
  cases limit <;> cases offset <;> rfl

/-- An offset without a limit cannot be said. -/
theorem states_rows (h : offset.isSome = true → limit.isSome = true) :
    States (rows limit offset) limit offset := by
  cases limit with
  | none =>
    cases offset with
    | none => exact states_of_skipTake (read?_eq [] rfl (.inl rfl))
    | some k => cases h rfl
  | some l =>
    cases offset with
    | none =>
      refine ⟨_, read?_rows l none, fun r _ => ?_⟩
      simp [holds, OnPage]
      omega
    | some k => exact states_of_numbered (read?_rows l (some k))

end Window
end SqlWeave
