import SqlWeave.Number.Digits

/-!
# Universally unique identifiers

An identifier of 128 bits, written as 32 small hexadecimal digits in groups of 8, 4, 4, 4 and 12.
It is read in four forms: with hyphens, without, between braces, and behind `urn:uuid:`.

Values hold identifiers of a kind made elsewhere. Assumed of it are the bits, the one form in which
it is written and the four in which it is read.

Results:
* `ofBytes?_length`: exactly sixteen bytes make an identifier.
-/

namespace SqlWeave

/-- An identifier of 128 bits. -/
structure Uuid where
  bits : BitVec 128
  deriving DecidableEq, Repr, Inhabited

namespace Uuid

open Number

/-- The identifier of 32 hexadecimal digits. -/
def ofDigits? (cs : List Char) : Option Uuid :=
  if cs.length = 32 then (readHex 0 cs).map fun n => ⟨BitVec.ofNat 128 n⟩ else none

/-- The identifier of five groups of digits with hyphens between them. -/
def ofGroups? (cs : List Char) : Option Uuid :=
  let groups := cs.splitOn '-'
  if groups.map List.length = [8, 4, 4, 4, 12] then ofDigits? groups.flatten else none

/-- Reads an identifier in any of its forms. -/
def parse? (s : String) : Option Uuid :=
  let cs := s.toList
  match cs with
  | '\x7b' :: rest =>
    match rest.reverse with
    | '\x7d' :: inner => ofGroups? inner.reverse
    | _ => none
  | 'u' :: 'r' :: 'n' :: ':' :: 'u' :: 'u' :: 'i' :: 'd' :: ':' :: rest => ofGroups? rest
  | _ => if cs.length = 32 then ofDigits? cs else ofGroups? cs

/-- The identifier of sixteen bytes, the first one the highest. -/
def ofBytes? (bytes : List UInt8) : Option Uuid :=
  if bytes.length = 16 then
    some ⟨BitVec.ofNat 128 (bytes.foldl (fun n b => 256 * n + b.toNat) 0)⟩
  else none

theorem ofBytes?_length {bytes : List UInt8} : (ofBytes? bytes).isSome ↔ bytes.length = 16 := by
  simp [ofBytes?]

/-- The digits of an identifier, `count` of them from the lowest up. -/
def digitsOf : Nat → Nat → List Char → List Char
  | 0, _, acc => acc
  | count + 1, n, acc => digitsOf count (n / 16) (Nat.digitChar (n % 16) :: acc)

/-- The text of an identifier, with hyphens. -/
def text (u : Uuid) : String :=
  let ds := digitsOf 32 u.bits.toNat []
  String.ofList <|
    ds.take 8 ++ '-' :: ((ds.drop 8).take 4 ++ '-' :: ((ds.drop 12).take 4 ++ '-' ::
      ((ds.drop 16).take 4 ++ '-' :: ds.drop 20)))

end Uuid
end SqlWeave
