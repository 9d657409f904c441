import SqlWeave.Number.Binary64
import SqlWeave.Number.Digits
import SqlWeave.Text.Ascii

/-!
# Reading floats

The grammar of a float's text: an optional sign, then `inf`, `infinity` or `nan` in any letter case,
or digits with at most one point among or beside them and an optional exponent. The value is the
nearest float.
-/

namespace SqlWeave.Number

/-- The digits at the front of a text and what follows them. -/
def spanDigits (cs : List Char) : List Char × List Char := cs.span Char.isDigit

/-- An exponent: an optional sign and at least one digit, up to the end. -/
def readExponent (cs : List Char) : Option Int :=
  let (negative, ds) : Bool × List Char := match cs with
    | '-' :: rest => (true, rest)
    | '+' :: rest => (false, rest)
    | _ => (false, cs)
  if ds.isEmpty then none
  else (readDigits 0 ds).map fun n => if negative then -(n : Int) else n

/-- An unsigned decimal number as its digits and the power of ten that scales them. -/
def readUnsigned (cs : List Char) : Option (Nat × Int) :=
  let (whole, rest) := spanDigits cs
  let (fraction, rest) : List Char × List Char := match rest with
    | '.' :: rest => spanDigits rest
    | _ => ([], rest)
  if whole.isEmpty && fraction.isEmpty then none
  else
    let exponent : Option Int := match rest with
      | [] => some 0
      | c :: rest => if c = 'e' ∨ c = 'E' then readExponent rest else none
    exponent.bind fun e =>
      (readDigits 0 (whole ++ fraction)).map fun n => (n, e - fraction.length)

/-- The float that a text denotes. -/
def readFloat (s : String) : Option Float :=
  let (negative, cs) : Bool × List Char := match s.toList with
    | '-' :: rest => (true, rest)
    | '+' :: rest => (false, rest)
    | cs => (false, cs)
  let word := Text.asciiUpper (String.ofList cs)
  if word == "INF" || word == "INFINITY" then some (nearest negative (2 ^ 2000) 1)
  else if word == "NAN" then some (Float.ofBits 0x7ff8000000000000)
  else (readUnsigned cs).map fun (n, e) => nearestDecimal negative n e

end SqlWeave.Number
