import SqlWeave.Calendar.Reading
import SqlWeave.Number.FloatText
import SqlWeave.Toml.Node

/-!
# Numbers, truth values and moments of TOML documents

Whole numbers in four bases and decimal fractions, with single underscores between digits; dates,
times of day and both with an optional offset. Whole numbers have 64 bits, with or without a sign.
-/

namespace SqlWeave.Toml

open Number Calendar

/-! ## Numbers -/

/-- Digits with single underscores between them, without the underscores. -/
def digits? (isDigit : Char → Bool) : List Char → Option (List Char)
  | [] => none
  | [c] => if isDigit c then some [c] else none
  | c :: d :: rest =>
    if isDigit c then
      (if d = '_' then digits? isDigit rest else digits? isDigit (d :: rest)).map (c :: ·)
    else none

/-- The number, if 64 bits hold it. -/
def integer? (n : Int) : Option Node :=
  if -2 ^ 63 ≤ n ∧ n < 2 ^ 64 then some (.integer n) else none

/-- A whole number of digits in a base behind its mark. -/
def based? (base : Nat) (cs : List Char) : Option Node := do
  let value? (c : Char) : Option Nat := (hexDigit? c).filter (· < base)
  let ds ← digits? (fun c => (value? c).isSome) cs
  integer? (ds.foldl (fun n c => base * n + (value? c).getD 0) 0)

/-- Digits of a whole part: no zero in front of another digit. -/
def wholeDigits? (cs : List Char) : Option (List Char) :=
  (digits? Char.isDigit cs).filter fun ds => ds.length = 1 || ds.head? != some '0'

/-- The exponent behind its mark; none stands for zero. -/
def exponent? : List Char → Option Int
  | [] => some 0
  | _ :: '-' :: ds => (digits? Char.isDigit ds).bind fun ds => readExponent ('-' :: ds)
  | _ :: '+' :: ds => (digits? Char.isDigit ds).bind readExponent
  | _ :: ds => (digits? Char.isDigit ds).bind readExponent

/-- A number in base ten, without its sign. -/
def decimal? (negative : Bool) (cs : List Char) : Option Node :=
  let isMark (c : Char) : Bool := c == 'e' || c == 'E'
  let (mantissa, exponent) := cs.span (!isMark ·)
  let (whole, fraction) := mantissa.span (· != '.')
  if exponent.isEmpty && fraction.isEmpty then do
    let n ← readDigits 0 (← wholeDigits? whole)
    integer? (if negative then -(n : Int) else n)
  else do
    let ws ← wholeDigits? whole
    let fs ← if fraction.isEmpty then some [] else digits? Char.isDigit (fraction.drop 1)
    let e ← exponent? exponent
    let n ← readDigits 0 (ws ++ fs)
    pure (.float (nearestDecimal negative n (e - fs.length)))

/-- A number in base ten or a name of one, without its sign. -/
def unsigned? (negative : Bool) (cs : List Char) : Option Node :=
  if cs = "inf".toList then some (.float (nearest negative (2 ^ 2000) 1))
  else if cs = "nan".toList then some (.float (Float.ofBits 0x7ff8000000000000))
  else decimal? negative cs

/-- A number with or without a sign; only one without a sign has another base. -/
def number? : List Char → Option Node
  | '0' :: 'x' :: ds => based? 16 ds
  | '0' :: 'o' :: ds => based? 8 ds
  | '0' :: 'b' :: ds => based? 2 ds
  | '-' :: rest => unsigned? true rest
  | '+' :: rest => unsigned? false rest
  | cs => unsigned? false cs

/-! ## Moments -/

/-- Seconds and their fraction behind a colon; they may be missing. -/
def takeSeconds : List Char → Option (Nat × Nat × List Char)
  | ':' :: cs => do
    let (second, cs) ← takeNumber 2 2 cs
    let (nano, cs) ← takeFraction cs
    pure (second, nano, cs)
  | cs => some (0, 0, cs)

/-- A time of day at the front of a text. -/
def takeClock (cs : List Char) : Option (List Char) := do
  let (hour, cs) ← takeNumber 2 2 cs
  let cs ← expect ':' cs
  let (minute, cs) ← takeNumber 2 2 cs
  let (second, nano, cs) ← takeSeconds cs
  let _ ← Time.ofClock? hour minute second nano
  pure cs

/-- A date at the front of a text. -/
def takeDay (cs : List Char) : Option (List Char) := do
  let (year, cs) ← takeNumber 4 4 cs
  let cs ← expect '-' cs
  let (month, cs) ← takeNumber 2 2 cs
  let cs ← expect '-' cs
  let (day, cs) ← takeNumber 2 2 cs
  let _ ← Date.ofParts? year month day
  pure cs

/-- What follows a date: nothing, or a time of day with an optional offset. -/
def takeRest : List Char → Option (List Char)
  | [] => some []
  | c :: cs =>
    if c = 'T' ∨ c = 't' ∨ c = ' ' then do
      let cs ← takeClock cs
      if cs.isEmpty then pure [] else (takeOffset cs).map (·.2)
    else none

/-- A date, a time of day, or both with an optional offset. -/
def moment? (cs : List Char) : Option Node :=
  match (takeDay cs).bind takeRest <|> takeClock cs with
  | some [] => some .moment
  | _ => none

/-! ## Scalars -/

/-- A character of a number, a truth value or a moment. -/
def inScalar (c : Char) : Bool :=
  c.isAlphanum || c == '+' || c == '-' || c == '_' || c == '.' || c == ':'

/-- The characters of a scalar at the front of a text. A blank may stand between a date and its
time. -/
def spanScalar (cs : List Char) : List Char × List Char :=
  let (word, rest) := cs.span inScalar
  match rest with
  | ' ' :: d :: rest' =>
    if word.length = 10 ∧ (word.drop 4).head? = some '-' ∧ d.isDigit then
      let (clock, rest'') := (d :: rest').span inScalar
      (word ++ ' ' :: clock, rest'')
    else (word, rest)
  | _ => (word, rest)

/-- A truth value, a number or a moment. -/
def scalar? (word : List Char) : Option Node :=
  if word = "true".toList then some (.boolean true)
  else if word = "false".toList then some (.boolean false)
  else number? word <|> moment? word

/-- A scalar at the front of a text. -/
def takeScalar (cs : List Char) : Option (Node × List Char) :=
  let (word, rest) := spanScalar cs
  (scalar? word).map fun n => (n, rest)

end SqlWeave.Toml
