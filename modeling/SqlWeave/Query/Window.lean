import SqlWeave.Number.Digits

/-!
# Pages of rows

A page leaves out a number of rows and holds at most another number. Engines state it as a count to
skip and a count to take, or as the numbers of the first and the last row; numbers that would not
fit a machine word stop at its greatest one.

`Window.holds` says which rows a page holds, the first row being number one.

Results:
* `holds_numbered`: a page stated by its first and last row holds the rows behind the offset, as
  many as the limit allows.
-/

namespace SqlWeave

open Number

/-- The greatest number of a row. -/
def greatestRow : Nat := 2 ^ 64 - 1

/-- A page as an engine states it. -/
inductive Window where
  /-- A count of rows left out and a count of rows taken, if it is limited. -/
  | skipTake (skip : Nat) (take : Option Nat)
  /-- The numbers of the first and the last row. -/
  | between (first last : Nat)
  /-- The number of the row before the first. -/
  | above (row : Nat)
  deriving DecidableEq, Repr

namespace Window

/-- The page holds the row of a number. -/
def holds : Window → Nat → Prop
  | skipTake skip none, r => skip < r
  | skipTake skip (some take), r => skip < r ∧ r ≤ skip + take
  | between first last, r => first ≤ r ∧ r ≤ last
  | above row, r => row < r

instance (w : Window) (r : Nat) : Decidable (w.holds r) :=
  match w with
  | skipTake _ none => inferInstanceAs (Decidable (_ < _))
  | skipTake _ (some _) => inferInstanceAs (Decidable (_ ∧ _))
  | between _ _ => inferInstanceAs (Decidable (_ ∧ _))
  | above _ => inferInstanceAs (Decidable (_ < _))

/-- A page by the numbers of its rows. -/
def numbered (offset : Nat) : Option Nat → Window
  | none => above offset
  | some limit => between (min (offset + 1) greatestRow) (min (offset + limit) greatestRow)

theorem holds_numbered (offset : Nat) (limit : Option Nat) {r : Nat} (h : r < greatestRow) :
    (numbered offset limit).holds r ↔ (skipTake offset limit).holds r := by
  cases limit with
  | none => rfl
  | some l =>
    simp only [numbered, holds]
    omega

/-! ## Wordings -/

/-- A condition on row numbers. -/
def condition : Window → String
  | between first last => " BETWEEN " ++ natText first ++ " AND " ++ natText last
  | above row => " > " ++ natText row
  | skipTake skip _ => " > " ++ natText skip

/-- `OFFSET … ROWS FETCH NEXT … ROWS ONLY` -/
def offsetFetch (offset : Nat) (limit : Option Nat) : String :=
  " OFFSET " ++ natText offset ++ " ROWS" ++
    match limit with
    | some n => " FETCH NEXT " ++ natText n ++ " ROWS ONLY"
    | none => ""

/-- `LIMIT … OFFSET …`; `unlimited` is the limit where there is only an offset. -/
def limitOffset (unlimited : String) : Option Nat → Option Nat → String
  | some limit, some offset => " LIMIT " ++ natText limit ++ " OFFSET " ++ natText offset
  | some limit, none => " LIMIT " ++ natText limit
  | none, some offset => " LIMIT " ++ unlimited ++ " OFFSET " ++ natText offset
  | none, none => ""

/-- The greatest limit, where an offset needs one. -/
def greatestLimit : String := natText greatestRow

/-- `ROWS … TO …`, for statements that change rows. -/
def rows : Option Nat → Option Nat → String
  | some limit, some offset =>
    match numbered offset (some limit) with
    | between first last => " ROWS " ++ natText first ++ " TO " ++ natText last
    | _ => ""
  | some limit, none => " ROWS " ++ natText limit
  | none, _ => ""

/-- `FIRST … SKIP …` -/
def firstSkip (limit offset : Option Nat) : String :=
  (match limit with
    | some n => "FIRST " ++ natText n ++ " "
    | none => "") ++
  match offset with
    | some n => "SKIP " ++ natText n ++ " "
    | none => ""

/-- `TOP (…)` -/
def top : Option Nat → String
  | some n => "TOP (" ++ natText n ++ ") "
  | none => ""

end Window
end SqlWeave
