import SqlWeave.Text.Letters

/-!
# Naming conventions

A name is cut into words, and a convention writes the words again with its own letter case and
separator. A word ends at every character that is neither letter nor number, before a capital that
follows a small letter, and before the last capital of a row of capitals when a small letter
follows it (`XMLHttp` is `XML`, `Http`). Numbers belong to the word they follow.

The conventions are common ones and made elsewhere. Assumed of them are these cuts, and that a
convention changes a name in nothing but its cuts, its letter case and its separator.

Results:
* `asIs_apply`: the convention `asIs` changes nothing.
* `cut_flatten`: cutting a run of word characters loses and adds nothing.
-/

namespace SqlWeave.Text

open Letters

/-- How the words of a name are written. -/
inductive Naming where
  /-- The name itself. -/
  | asIs
  /-- `some_name` -/
  | snake
  /-- `SomeName` -/
  | upperCamel
  /-- `someName` -/
  | lowerCamel
  /-- `SOME_NAME` -/
  | shoutySnake
  deriving DecidableEq, Repr, Inhabited

namespace Naming

/-- The case of the letters read last in the current word. -/
inductive Case where
  | none
  | small
  | capital
  deriving DecidableEq, Repr

/-- The case after a character; a character without case keeps it. -/
def Case.next (m : Case) (c : Char) : Case :=
  if isLower c then .small else if isUpper c then .capital else m

/-- Cuts a run of word characters. `word` holds the characters of the current word, last first. -/
def cut (word : List Char) (m : Case) : List Char → List (List Char)
  | [] => []
  | [c] => [(c :: word).reverse]
  | c :: d :: rest =>
    if m.next c = .small ∧ isUpper d then
      (c :: word).reverse :: cut [] .none (d :: rest)
    else if m = .capital ∧ isUpper c ∧ isLower d then
      word.reverse :: cut [c] .none (d :: rest)
    else cut (c :: word) (m.next c) (d :: rest)

/-- The runs of word characters of a name. -/
def runs (s : String) : List (List Char) :=
  (s.toList.splitOnP fun c => !isWordChar c).filter (!·.isEmpty)

/-- The words of a name. -/
def wordsOf (s : String) : List (List Char) := (runs s).flatMap (cut [] .none)

/-- A word in small letters; a capital sigma at its end takes the final form. -/
def small : List Char → List Char
  | [] => []
  | [c] => if c.toNat = 0x3a3 then [Char.ofNat 0x3c2] else lower c
  | c :: rest => lower c ++ small rest

/-- A word in capitals. -/
def capitals (w : List Char) : List Char := w.flatMap upper

/-- A word with its first character a capital and the others small. -/
def capitalized : List Char → List Char
  | [] => []
  | c :: rest => upper c ++ small rest

/-- The name written in the convention. -/
def apply (n : Naming) (name : String) : String :=
  match n with
  | asIs => name
  | snake => String.ofList (['_'].intercalate ((wordsOf name).map small))
  | shoutySnake => String.ofList (['_'].intercalate ((wordsOf name).map capitals))
  | upperCamel => String.ofList ((wordsOf name).flatMap capitalized)
  | lowerCamel =>
    match wordsOf name with
    | [] => ""
    | first :: rest => String.ofList (small first ++ rest.flatMap capitalized)

theorem asIs_apply (name : String) : asIs.apply name = name := rfl

/-- Cutting loses and adds no character. -/
theorem cut_flatten (word : List Char) (m : Case) (c : Char) (cs : List Char) :
    (cut word m (c :: cs)).flatten = word.reverse ++ (c :: cs) := by
  induction cs generalizing word m c with
  | nil => simp [cut]
  | cons d rest ih =>
    simp only [cut]
    split
    · simp [ih]
    · split
      · simp [ih]
      · simp [ih]

end Naming
end SqlWeave.Text
