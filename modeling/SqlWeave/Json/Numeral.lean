import SqlWeave.Json.Basic
import SqlWeave.Number.FloatText

/-!
# Numbers in documents

A number is an optional minus, a whole part without leading zeros, an optional fraction and an
optional exponent. One that has neither fraction nor exponent and that 64 bits hold is whole; any
other is a float.

The digits of a float are gathered in a word of 64 bits. Digits that it cannot hold only move the
point, and the word is scaled with floats, so a number of many digits may miss the nearest float by
its last bit.
-/

namespace SqlWeave.Json

open Number

/-- Gathers digits behind those that gave `n` as long as 64 bits hold the number, and counts
them. -/
def gather (n : Nat) : List Char → Nat × Nat
  | [] => (n, 0)
  | c :: rest =>
    let m := 10 * n + (c.toNat - 48)
    if m < 2 ^ 64 then
      let (k, count) := gather m rest
      (k, count + 1)
    else (n, 0)

/-- The number `x · 10 ^ e`, computed with floats in at most `fuel` steps; none above their
range. -/
def scale? : Nat → Float → Int → Option Float
  | 0, x, _ => some x
  | fuel + 1, x, e =>
    if e.natAbs ≤ 308 then
      let power := floatOfInt (10 ^ e.natAbs)
      let y := if 0 ≤ e then x * power else x / power
      if y.isInf then none else some y
    else if x == 0 then some x
    else if 0 ≤ e then none
    else scale? fuel (x / floatOfInt (10 ^ 308)) (e + 308)

/-- The parts of a number's text. -/
structure Numeral where
  negative : Bool
  whole : List Char
  /-- The digits behind a point, if there is one. -/
  fraction : Option (List Char)
  /-- The sign and digits behind an exponent's mark, if there is one. -/
  exponent : Option (List Char)

namespace Numeral

/-- The sign and digits of an exponent at the front of a text. -/
def takeExponent (cs : List Char) : List Char × List Char :=
  let (sign, ds) : List Char × List Char := match cs with
    | '+' :: ds => (['+'], ds)
    | '-' :: ds => (['-'], ds)
    | ds => ([], ds)
  let (ds, rest) := spanDigits ds
  (sign ++ ds, rest)

/-- The parts of the number at the front of a text. -/
def take (cs : List Char) : Numeral × List Char :=
  let (negative, cs) : Bool × List Char := match cs with
    | '-' :: rest => (true, rest)
    | _ => (false, cs)
  let (whole, rest) := spanDigits cs
  let (fraction, rest) : Option (List Char) × List Char := match rest with
    | '.' :: rest => (spanDigits rest).map some id
    | _ => (none, rest)
  let (exponent, rest) : Option (List Char) × List Char := match rest with
    | 'e' :: rest | 'E' :: rest => (takeExponent rest).map some id
    | _ => (none, rest)
  (⟨negative, whole, fraction, exponent⟩, rest)

/-- A whole part of at least one digit, a zero alone, and digits behind a point. -/
def wellFormed (t : Numeral) : Bool :=
  !t.whole.isEmpty && (t.whole.length == 1 || t.whole.head? != some '0') &&
    t.fraction.all (!·.isEmpty)

/-- The float that the parts stand for; none above the range of floats. -/
def float? (t : Numeral) : Option Float := do
  let (n, kept) := gather 0 t.whole
  let (n, places) := gather n (t.fraction.getD [])
  let e ← t.exponent.elim (some 0) readExponent
  let x ← scale? 3 (floatOfInt n) (((t.whole.length - kept : Nat) : Int) - places + e)
  pure (if t.negative then -x else x)

/-- The whole number that the parts stand for, if 64 bits hold it; zero has no sign. -/
def int? (t : Numeral) : Option Int := do
  let n ← readDigits 0 t.whole
  if t.fraction.isSome || t.exponent.isSome then none
  else if t.negative then if n ≠ 0 ∧ n ≤ 2 ^ 63 then pure (-(n : Int)) else none
  else if n < 2 ^ 64 then pure n
  else none

/-- The document of a number. -/
def json? (t : Numeral) : Option Json :=
  if t.wellFormed then (t.int?.map int) <|> (t.float?.map float) else none

end Numeral

/-- A number at the front of a text. -/
def takeNumber (cs : List Char) : Option (Json × List Char) :=
  let (t, rest) := Numeral.take cs
  t.json?.map fun j => (j, rest)

end SqlWeave.Json
