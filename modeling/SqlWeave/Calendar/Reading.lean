import SqlWeave.Calendar.Date
import SqlWeave.Text.Blank

/-!
# Reading dates and times

Three readers for the forms `2024-02-29`, `03:04:05.678` and both with a separator. Numbers may
have fewer digits than usual and blanks in front of them; a year without a sign has at most four
digits, one with a sign any number. Second sixty is a leap second. Digits of a fraction beyond the
ninth are dropped, and nothing may follow.

`instant?` reads the strict form with an offset from universal time.

This grammar is what is assumed of the calendar that texts are read by.
-/

namespace SqlWeave.Calendar

open Number Text

/-- At most `width` digits at the front, at least `least`, as a number with what follows them. -/
def takeNumber (least width : Nat) (cs : List Char) : Option (Nat × List Char) :=
  let ds := (cs.take width).takeWhile Char.isDigit
  if ds.length < least then none
  else (readDigits 0 ds).map fun n => (n, cs.drop ds.length)

/-- A number of one to `width` digits behind any blanks. -/
def looseNumber (width : Nat) (cs : List Char) : Option (Nat × List Char) :=
  takeNumber 1 width (trimStart cs)

/-- A year behind any blanks: up to four digits, or a sign and any number of them. -/
def looseYear (cs : List Char) : Option (Int × List Char) :=
  match trimStart cs with
  | '-' :: rest => (takeNumber 1 rest.length rest).map fun (n, rest) => (-(n : Int), rest)
  | '+' :: rest => (takeNumber 1 rest.length rest).map fun (n, rest) => ((n : Int), rest)
  | cs => (takeNumber 1 4 cs).map fun (n, rest) => ((n : Int), rest)

/-- What follows a given character. -/
def expect (c : Char) : List Char → Option (List Char)
  | [] => none
  | d :: rest => if d = c then some rest else none

/-- A fraction of a second in nanoseconds, if a point introduces one. -/
def takeFraction : List Char → Option (Nat × List Char)
  | '.' :: rest =>
    let ds := (rest.take 9).takeWhile Char.isDigit
    if ds.isEmpty then none
    else (readDigits 0 ds).map fun n =>
      (n * 10 ^ (9 - ds.length), rest.dropWhile Char.isDigit)
  | cs => some (0, cs)

/-- A time of day with second sixty for a leap second. -/
def Time.ofClock? (hour minute second nano : Nat) : Option Time :=
  if second = 60 then Time.ofParts? hour minute 59 (nanosPerSecond + nano)
  else Time.ofParts? hour minute second nano

/-- A date at the front of a text. -/
def takeDate (cs : List Char) : Option (Date × List Char) := do
  let (year, cs) ← looseYear cs
  let cs ← expect '-' cs
  let (month, cs) ← looseNumber 2 cs
  let cs ← expect '-' cs
  let (day, cs) ← looseNumber 2 cs
  let date ← Date.ofParts? year month day
  pure (date, cs)

/-- A time of day at the front of a text. -/
def takeTime (cs : List Char) : Option (Time × List Char) := do
  let (hour, cs) ← looseNumber 2 cs
  let cs ← expect ':' cs
  let (minute, cs) ← looseNumber 2 cs
  let cs ← expect ':' cs
  let (second, cs) ← looseNumber 2 cs
  let (nano, cs) ← takeFraction cs
  let time ← Time.ofClock? hour minute second nano
  pure (time, cs)

/-- The value, if nothing follows it. -/
def complete {α : Type} : Option (α × List Char) → Option α
  | some (a, []) => some a
  | _ => none

/-- Reads a date. -/
def date? (s : String) : Option Date := complete (takeDate s.toList)

/-- Reads a time of day. -/
def time? (s : String) : Option Time := complete (takeTime s.toList)

/-- Reads a date and a time; `separate` removes what stands between them. -/
def dateTimeWith? (separate : List Char → Option (List Char)) (s : String) : Option DateTime :=
  complete do
    let (date, cs) ← takeDate s.toList
    let cs ← separate cs
    let (time, cs) ← takeTime cs
    pure (⟨date, time⟩, cs)

/-- Reads a date and a time with blanks, or the letter `T`, between them. -/
def dateTime? (s : String) : Option DateTime :=
  dateTimeWith? (fun cs => some (trimStart cs)) s <|> dateTimeWith? (expect 'T') s

/-! ## Instants -/

/-- An offset from universal time in seconds: `Z`, or a sign, hours and minutes. -/
def takeOffset : List Char → Option (Int × List Char)
  | [] => none
  | c :: rest =>
    if c = 'Z' ∨ c = 'z' then some (0, rest)
    else if c = '+' ∨ c = '-' ∨ c.toNat = 0x2212 then do
      let (hours, rest) ← takeNumber 2 2 rest
      let rest ← expect ':' rest
      let (minutes, rest) ← takeNumber 2 2 rest
      if 24 ≤ hours ∨ 60 ≤ minutes then none
      else
        let seconds : Int := (hours * 3600 + minutes * 60 : Nat)
        pure (if c = '+' then seconds else -seconds, rest)
    else none

/-- Reads an instant with its offset, as universal time. -/
def instant? (s : String) : Option DateTime := do
  let (year, cs) ← takeNumber 4 4 s.toList
  let cs ← expect '-' cs
  let (month, cs) ← takeNumber 2 2 cs
  let cs ← expect '-' cs
  let (day, cs) ← takeNumber 2 2 cs
  let date ← Date.ofParts? year month day
  let cs ← expect 'T' cs <|> expect 't' cs <|> expect ' ' cs
  let (hour, cs) ← takeNumber 2 2 cs
  let cs ← expect ':' cs
  let (minute, cs) ← takeNumber 2 2 cs
  let cs ← expect ':' cs
  let (second, cs) ← takeNumber 2 2 cs
  let (nano, cs) ← takeFraction cs
  let time ← Time.ofClock? hour minute second nano
  let offset ← complete (takeOffset cs)
  DateTime.earlier? ⟨date, time⟩ offset

end SqlWeave.Calendar
