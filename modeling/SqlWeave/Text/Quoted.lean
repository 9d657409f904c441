/-!
# Delimited text

A delimited text stands between an opening and a closing character. Inside, some characters are
written twice so that a reader can tell them from the closing one.

Results:
* `doubled_append`: doubling works character by character.
* `doubled_of_forall`: a text without such characters is written as it is.
* `count_doubled`: a doubled character stands twice as often as before, any other as often.
-/

namespace SqlWeave.Text

/-- Every character of `cs` that `twice` accepts written twice. -/
def doubled (twice : Char → Bool) : List Char → List Char
  | [] => []
  | c :: rest => if twice c then c :: c :: doubled twice rest else c :: doubled twice rest

/-- A text between delimiters, with the characters `twice` accepts doubled. -/
def delimited (opening closing : Char) (twice : Char → Bool) (cs : List Char) : List Char :=
  opening :: (doubled twice cs ++ [closing])

theorem doubled_append (twice : Char → Bool) (cs ds : List Char) :
    doubled twice (cs ++ ds) = doubled twice cs ++ doubled twice ds := by
  induction cs with
  | nil => rfl
  | cons c rest ih => by_cases h : twice c <;> simp [doubled, h, ih]

theorem doubled_of_forall {twice : Char → Bool} {cs : List Char}
    (h : ∀ c ∈ cs, twice c = false) : doubled twice cs = cs := by
  induction cs with
  | nil => rfl
  | cons c rest ih =>
    simp only [List.mem_cons, forall_eq_or_imp] at h
    simp [doubled, h.1, ih h.2]

theorem count_doubled (twice : Char → Bool) (x : Char) (cs : List Char) :
    (doubled twice cs).count x = (if twice x then 2 else 1) * cs.count x := by
  induction cs with
  | nil => simp [doubled]
  | cons c rest ih => by_cases h : twice c <;> by_cases hx : c = x <;> grind [doubled]

end SqlWeave.Text
