import SqlWeave.Calendar.Date

/-!
# Writing dates and times by a pattern

A pattern is text in which `%` introduces a field of the date or the time: `%Y-%m-%d` writes
`2024-02-29`. Between the mark and the letter of a numeric field stands at most one sign that
replaces its padding: `-` for none, `_` for blanks, `0` for zeros.

Assumed of the calendar that writes patterns: its fields are those of `Pattern.letter` and the
fractions of a second, and a pattern with any other field, with a sign in front of a field that is
not one number, with a field of an offset from universal time, or with a mark at its end is not
written at all. Such a pattern is not readable (`Pattern.isReadable`); its other fields are written
here all the same.
-/

namespace SqlWeave.Calendar

/-- How a numeric field is filled up to its width. -/
inductive Padding where
  | none
  | zero
  | blank
  deriving DecidableEq, Repr

/-- The numeric fields. -/
inductive Field where
  | year | century | yearOfCentury
  | isoYear | isoYearOfCentury | isoWeek
  | quarter | month | day | dayOfYear
  | sundayWeek | mondayWeek | weekdayFromSunday | weekdayFromMonday
  | hour | hour12 | minute | second | nanosecond | timestamp
  deriving DecidableEq, Repr

/-- A piece of a pattern. -/
inductive Item where
  | literal (c : Char)
  | number (field : Field) (padding : Padding)
  | shortMonth | longMonth | shortWeekday | longWeekday
  | lowerHalf | upperHalf
  /-- The fraction of the second; nothing for a full second, else 3, 6 or 9 digits. -/
  | fraction
  /-- The fraction of the second with a fixed number of digits, with or without the point. -/
  | fixedFraction (digits : Nat) (point : Bool)
  /-- A field that no date with a time has. -/
  | unknown
  deriving DecidableEq, Repr

namespace Item

/-- The names of the months. -/
def monthNames : List String :=
  ["January", "February", "March", "April", "May", "June", "July", "August", "September",
    "October", "November", "December"]

/-- The names of the days of the week. -/
def weekdayNames : List String :=
  ["Monday", "Tuesday", "Wednesday", "Thursday", "Friday", "Saturday", "Sunday"]

/-- A one- or two-digit number; the tens of a larger one are one character. -/
def two (n : Nat) : Padding → List Char
  | .none => (if n / 10 = 0 then [] else [Char.ofNat (48 + n / 10)]) ++ [Char.ofNat (48 + n % 10)]
  | .zero => [Char.ofNat (48 + n / 10), Char.ofNat (48 + n % 10)]
  | .blank => [if n / 10 = 0 then ' ' else Char.ofNat (48 + n / 10), Char.ofNat (48 + n % 10)]

/-- A natural number filled up to a width. -/
def wide (width n : Nat) : Padding → List Char
  | .none => Nat.toDigits 10 n
  | .zero => Number.filled '0' width n
  | .blank => Number.filled ' ' width n

/-- A year has four digits, and a sign when they are not enough or it is below zero. -/
def year (y : Int) (p : Padding) : List Char :=
  if 0 ≤ y ∧ y < 10000 then wide 4 y.toNat p
  else
    let sign := if y < 0 then '-' else '+'
    match p with
    | .blank =>
      let ds := sign :: Nat.toDigits 10 y.natAbs
      List.replicate (5 - ds.length) ' ' ++ ds
    | p => sign :: wide 4 y.natAbs p

/-- A numeric field of a date and time. -/
def numberText (dt : DateTime) (p : Padding) : Field → List Char
  | .year => year dt.date.year p
  | .century => two ((dt.date.year / 100) % 256).toNat p
  | .yearOfCentury => two (dt.date.year % 100).toNat p
  | .isoYear => year dt.date.isoWeek.1 p
  | .isoYearOfCentury => two (dt.date.isoWeek.1 % 100).toNat p
  | .isoWeek => two dt.date.isoWeek.2 p
  | .quarter => Nat.toDigits 10 ((dt.date.month - 1) / 3 + 1)
  | .month => two dt.date.month p
  | .day => two dt.date.day p
  | .dayOfYear => wide 3 dt.date.dayOfYear p
  | .sundayWeek => two ((dt.date.dayOfYear + 6 - (dt.date.weekday + 1) % 7) / 7) p
  | .mondayWeek => two ((dt.date.dayOfYear + 6 - dt.date.weekday) / 7) p
  | .weekdayFromSunday => Nat.toDigits 10 ((dt.date.weekday + 1) % 7)
  | .weekdayFromMonday => Nat.toDigits 10 (dt.date.weekday + 1)
  | .hour => two dt.time.hour p
  | .hour12 => two dt.time.hour12.1 p
  | .minute => two dt.time.minute p
  | .second => two dt.time.shownSecond p
  | .nanosecond => wide 9 dt.time.subsecond p
  | .timestamp => (Number.intText dt.timestamp).toList

/-- The fraction of a second in the fewest groups of three digits that hold it. -/
def fractionText (nanos : Nat) : List Char :=
  if nanos = 0 then []
  else if nanos % 1000000 = 0 then '.' :: Number.padded 3 (nanos / 1000000)
  else if nanos % 1000 = 0 then '.' :: Number.padded 6 (nanos / 1000)
  else '.' :: Number.padded 9 nanos

/-- The text of one piece. -/
def text (dt : DateTime) : Item → List Char
  | literal c => [c]
  | number f p => numberText dt p f
  | shortMonth => ((monthNames.getD (dt.date.month - 1) "").toList).take 3
  | longMonth => (monthNames.getD (dt.date.month - 1) "").toList
  | shortWeekday => ((weekdayNames.getD dt.date.weekday "").toList).take 3
  | longWeekday => (weekdayNames.getD dt.date.weekday "").toList
  | lowerHalf => if dt.time.hour12.2 then ['p', 'm'] else ['a', 'm']
  | upperHalf => if dt.time.hour12.2 then ['P', 'M'] else ['A', 'M']
  | fraction => fractionText dt.time.subsecond
  | fixedFraction digits point =>
    (if point then ['.'] else []) ++
      Number.padded digits (dt.time.subsecond / 10 ^ (9 - digits))
  | unknown => []

end Item

/-! ## Patterns -/

namespace Pattern

open Item

/-- A numeric field padded with zeros. -/
def num (f : Field) : Item := number f .zero

/-- The pieces of `%H:%M:%S`. -/
def clock : List Item := [num .hour, literal ':', num .minute, literal ':', num .second]

/-- The pieces of `%Y-%m-%d`. -/
def day : List Item := [num .year, literal '-', num .month, literal '-', num .day]

/-- The pieces that one letter after the mark stands for. -/
def letter : Char → Option (List Item)
  | 'A' => some [longWeekday]
  | 'B' => some [longMonth]
  | 'C' => some [num .century]
  | 'D' | 'x' => some [num .month, literal '/', num .day, literal '/', num .yearOfCentury]
  | 'F' => some day
  | 'G' => some [num .isoYear]
  | 'H' => some [num .hour]
  | 'I' => some [num .hour12]
  | 'M' => some [num .minute]
  | 'P' => some [lowerHalf]
  | 'R' => some [num .hour, literal ':', num .minute]
  | 'S' => some [num .second]
  | 'T' | 'X' => some clock
  | 'U' => some [num .sundayWeek]
  | 'V' => some [num .isoWeek]
  | 'W' => some [num .mondayWeek]
  | 'Y' => some [num .year]
  | 'a' => some [shortWeekday]
  | 'b' | 'h' => some [shortMonth]
  | 'c' => some <|
    [shortWeekday, literal ' ', shortMonth, literal ' ', number .day .blank, literal ' '] ++
      clock ++ [literal ' ', num .year]
  | 'd' => some [num .day]
  | 'e' => some [number .day .blank]
  | 'f' => some [num .nanosecond]
  | 'g' => some [num .isoYearOfCentury]
  | 'j' => some [num .dayOfYear]
  | 'k' => some [number .hour .blank]
  | 'l' => some [number .hour12 .blank]
  | 'm' => some [num .month]
  | 'n' => some [literal '\n']
  | 'p' => some [upperHalf]
  | 'q' => some [number .quarter .none]
  | 'r' => some <|
    [num .hour12, literal ':', num .minute, literal ':', num .second, literal ' ', upperHalf]
  | 's' => some [number .timestamp .none]
  | 't' => some [literal '\t']
  | 'u' => some [number .weekdayFromMonday .none]
  | 'v' => some [number .day .blank, literal '-', shortMonth, literal '-', num .year]
  | 'w' => some [number .weekdayFromSunday .none]
  | 'y' => some [num .yearOfCentury]
  | '%' => some [literal '%']
  | _ => none

/-- A single numeric piece with another padding. -/
def repad (p : Padding) : Option (List Item) → List Item
  | some [number f _] => [number f p]
  | _ => [unknown]

/-- The pieces of a pattern. -/
def items : List Char → List Item
  | '%' :: '.' :: 'f' :: rest => fraction :: items rest
  | '%' :: '.' :: '3' :: 'f' :: rest => fixedFraction 3 true :: items rest
  | '%' :: '.' :: '6' :: 'f' :: rest => fixedFraction 6 true :: items rest
  | '%' :: '.' :: '9' :: 'f' :: rest => fixedFraction 9 true :: items rest
  | '%' :: '3' :: 'f' :: rest => fixedFraction 3 false :: items rest
  | '%' :: '6' :: 'f' :: rest => fixedFraction 6 false :: items rest
  | '%' :: '9' :: 'f' :: rest => fixedFraction 9 false :: items rest
  | '%' :: '-' :: c :: rest => repad .none (letter c) ++ items rest
  | '%' :: '_' :: c :: rest => repad .blank (letter c) ++ items rest
  | '%' :: '0' :: c :: rest => repad .zero (letter c) ++ items rest
  | '%' :: c :: rest => (letter c).getD [unknown] ++ items rest
  | ['%'] => [unknown]
  | c :: rest => literal c :: items rest
  | [] => []

/-- A date with a time has every field of the pattern. -/
def isReadable (pattern : String) : Bool := !(items pattern.toList).contains unknown

/-- A date and time written by the pieces of a pattern. -/
def write (items : List Item) (dt : DateTime) : List Char := items.flatMap (Item.text dt)

/-- A date and time written by a pattern. -/
def format (pattern : String) (dt : DateTime) : String :=
  String.ofList (write (items pattern.toList) dt)

end Pattern

/-! ## The usual forms -/

/-- `2024-02-29` -/
def Date.text (d : Date) : String :=
  String.ofList (Pattern.write Pattern.day ⟨d, Time.midnight⟩)

/-- `03:04:05`, with the fraction of the second if there is one. -/
def Time.text (t : Time) : String :=
  String.ofList (Pattern.write (Pattern.clock ++ [.fraction]) ⟨default, t⟩)

/-- A date and a time with a separator between them. -/
def DateTime.text (dt : DateTime) (separator : Char) : String :=
  dt.date.text ++ String.ofList [separator] ++ dt.time.text

end SqlWeave.Calendar
