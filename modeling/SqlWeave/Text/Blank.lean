/-!
# Blank characters

The Unicode property `White_Space`, and the two text operations that depend on it: removing the
blanks at both ends (`trim`) and cutting a text into its blank-separated words (`words`).

Results:
* `isBlank_of_isWhitespace`: every character core calls whitespace is blank.
* `not_isBlank_of_mem_words`: no word holds a blank.
-/

namespace SqlWeave.Text

/-- The characters with the property `White_Space`. -/
def isBlank (c : Char) : Bool :=
  let n := c.toNat
  (9 ≤ n && n ≤ 13) || n == 0x20 || n == 0x85 || n == 0xa0 || n == 0x1680 ||
    (0x2000 ≤ n && n ≤ 0x200a) || n == 0x2028 || n == 0x2029 || n == 0x202f || n == 0x205f ||
    n == 0x3000

theorem isBlank_of_isWhitespace {c : Char} (h : c.isWhitespace = true) : isBlank c = true := by
  simp only [Char.isWhitespace, Bool.or_eq_true, decide_eq_true_eq] at h
  rcases h with ((rfl | rfl) | rfl) | rfl <;> decide

/-- The characters without the blanks in front of them. -/
def trimStart (cs : List Char) : List Char := cs.dropWhile isBlank

/-- The characters without the blanks at either end. -/
def trimChars (cs : List Char) : List Char :=
  (trimStart (trimStart cs).reverse).reverse

/-- A text without the blanks at either end. -/
def trim (s : String) : String := String.ofList (trimChars s.toList)

/-- A text of blanks only. -/
def isBlankText (s : String) : Bool := s.toList.all isBlank

/-- The maximal runs of characters that are not blank, in order; `word` is the run being read. -/
def wordsFrom (word : List Char) : List Char → List (List Char)
  | [] => if word.isEmpty then [] else [word.reverse]
  | c :: rest =>
    if isBlank c then
      if word.isEmpty then wordsFrom [] rest else word.reverse :: wordsFrom [] rest
    else wordsFrom (c :: word) rest

/-- The blank-separated words of a text. -/
def words (s : String) : List String := (wordsFrom [] s.toList).map String.ofList

theorem not_isBlank_of_mem_wordsFrom {word cs w : List Char} {c : Char}
    (hword : ∀ x ∈ word, isBlank x = false) (hw : w ∈ wordsFrom word cs) (hc : c ∈ w) :
    isBlank c = false := by
  induction cs generalizing word with
  | nil =>
    simp only [wordsFrom] at hw
    split at hw
    · simp at hw
    · simp only [List.mem_singleton] at hw
      subst hw
      exact hword c (by simpa using hc)
  | cons x rest ih =>
    simp only [wordsFrom] at hw
    split at hw
    · split at hw
      · exact ih (by simp) hw
      · rcases List.mem_cons.1 hw with rfl | hw
        · exact hword c (by simpa using hc)
        · exact ih (by simp) hw
    · rename_i hx
      exact ih (fun y hy => by
        rcases List.mem_cons.1 hy with rfl | hy
        · simpa using hx
        · exact hword y hy) hw

/-- No word holds a blank. -/
theorem not_isBlank_of_mem_words {s : String} {w : List Char} {c : Char}
    (hw : w ∈ wordsFrom [] s.toList) (hc : c ∈ w) : isBlank c = false :=
  not_isBlank_of_mem_wordsFrom (by simp) hw hc

end SqlWeave.Text
