import SqlWeave.Json.Numeral
import SqlWeave.Number.Shortest

/-!
# The text of documents

Documents are written without blanks. Reading accepts blanks between the parts, numbers in full
JSON notation and every escape; it refuses numbers out of range, halves of a surrogate pair, more
than 127 levels of nesting, and anything after the document. This much is assumed of the notation
that values are given in; the standard leaves the ranges and the nesting open.

Results:
* `escaped_of_alphanum`: letters and digits stand for themselves.
-/

namespace SqlWeave.Json

open Number

/-! ## Writing -/

/-- One character of a text in a document. -/
def escaped (c : Char) : List Char :=
  if c = '"' then ['\\', '"']
  else if c = '\\' then ['\\', '\\']
  else if c = '\x08' then ['\\', 'b']
  else if c = '\x0c' then ['\\', 'f']
  else if c = '\n' then ['\\', 'n']
  else if c = '\r' then ['\\', 'r']
  else if c = '\t' then ['\\', 't']
  else if c.toNat < 0x20 then
    ['\\', 'u', '0', '0', Nat.digitChar (c.toNat / 16), Nat.digitChar (c.toNat % 16)]
  else [c]

/-- A text between double quotes. -/
def quoted (s : String) : String := String.ofList ('"' :: (s.toList.flatMap escaped ++ ['"']))

theorem escaped_of_alphanum {c : Char} (h : c.isAlphanum = true) : escaped c = [c] := by
  have ne : ∀ d : Char, d.isAlphanum = false → c ≠ d := fun d hd e => by simp [e, hd] at h
  have hn : ¬ c.toNat < 0x20 := by
    intro hlt
    have hv : c.toNat = c.val.toNat := rfl
    unfold Char.isAlphanum Char.isAlpha Char.isUpper Char.isLower Char.isDigit at h
    simp only [Bool.or_eq_true, Bool.and_eq_true, decide_eq_true_eq, UInt32.le_iff_toNat_le,
      ge_iff_le] at h
    revert h
    simp
    omega
  simp [escaped, hn, ne '"' (by decide), ne '\\' (by decide), ne '\x08' (by decide),
    ne '\x0c' (by decide), ne '\n' (by decide), ne '\r' (by decide), ne '\t' (by decide)]

mutual

/-- The text of a document. Floats that are no numbers become null. -/
def text : Json → String
  | null => "null"
  | bool b => if b then "true" else "false"
  | int n => intText n
  | float x => if x.isNaN || x.isInf then "null" else Layout.document.text x
  | string s => quoted s
  | array items => "[" ++ itemsText items ++ "]"
  | object members => "\x7b" ++ membersText members ++ "\x7d"

/-- The items of a list with commas between them. -/
def itemsText : List Json → String
  | [] => ""
  | [a] => text a
  | a :: rest => text a ++ "," ++ itemsText rest

/-- The members of an object with commas between them. -/
def membersText : List (String × Json) → String
  | [] => ""
  | [(k, a)] => quoted k ++ ":" ++ text a
  | (k, a) :: rest => quoted k ++ ":" ++ text a ++ "," ++ membersText rest

end

/-! ## Reading -/

/-- The text after blanks. -/
def skipBlanks (cs : List Char) : List Char :=
  cs.dropWhile fun c => c == ' ' || c == '\n' || c == '\t' || c == '\r'

/-- A code unit of four hexadecimal digits. -/
def unit? (a b c d : Char) : Option Nat := readHex 0 [a, b, c, d]

/-- The character behind a backslash. -/
def simpleEscape? : Char → Option Char
  | '"' => some '"'
  | '\\' => some '\\'
  | '/' => some '/'
  | 'b' => some '\x08'
  | 'f' => some '\x0c'
  | 'n' => some '\n'
  | 'r' => some '\r'
  | 't' => some '\t'
  | _ => none

/-- The rest of a text up to its closing quote, and what follows it. `read` holds the characters
before, last first. -/
def takeText (read : List Char) : List Char → Option (String × List Char)
  | '"' :: rest => some (String.ofList read.reverse, rest)
  | '\\' :: 'u' :: a :: b :: c :: d :: '\\' :: 'u' :: e :: f :: g :: h :: rest => do
    let high ← unit? a b c d
    let low ← unit? e f g h
    if 0xd800 ≤ high ∧ high < 0xdc00 then
      if 0xdc00 ≤ low ∧ low < 0xe000 then
        takeText (Char.ofNat (0x10000 + (high - 0xd800) * 0x400 + (low - 0xdc00)) :: read) rest
      else none
    else if 0xdc00 ≤ high ∧ high < 0xe000 then none
    else takeText (Char.ofNat high :: read) ('\\' :: 'u' :: e :: f :: g :: h :: rest)
  | '\\' :: 'u' :: a :: b :: c :: d :: rest => do
    let n ← unit? a b c d
    if 0xd800 ≤ n ∧ n < 0xe000 then none else takeText (Char.ofNat n :: read) rest
  | '\\' :: c :: rest => do takeText ((← simpleEscape? c) :: read) rest
  | c :: rest => if c.toNat < 0x20 then none else takeText (c :: read) rest
  | [] => none

mutual

/-- A document at the front of a text, with at most `depth` levels of nesting. -/
def takeValue : Nat → Nat → List Char → Option (Json × List Char)
  | 0, _, _ => none
  | fuel + 1, depth, cs =>
    match skipBlanks cs with
    | 'n' :: 'u' :: 'l' :: 'l' :: rest => some (null, rest)
    | 't' :: 'r' :: 'u' :: 'e' :: rest => some (bool true, rest)
    | 'f' :: 'a' :: 'l' :: 's' :: 'e' :: rest => some (bool false, rest)
    | '"' :: rest => (takeText [] rest).map fun (s, rest) => (string s, rest)
    | '[' :: rest =>
      match depth, skipBlanks rest with
      | 0, _ => none
      | _, ']' :: rest => some (array [], rest)
      | depth + 1, rest =>
        (takeItems fuel depth rest []).map fun (items, rest) => (array items, rest)
    | '\x7b' :: rest =>
      match depth, skipBlanks rest with
      | 0, _ => none
      | _, '\x7d' :: rest => some (object [], rest)
      | depth + 1, rest =>
        (takeMembers fuel depth rest []).map fun (members, rest) => (ofMembers members, rest)
    | c :: rest => if c.isDigit ∨ c = '-' then takeNumber (c :: rest) else none
    | [] => none

/-- The items of a list up to its closing bracket. -/
def takeItems : Nat → Nat → List Char → List Json → Option (List Json × List Char)
  | 0, _, _, _ => none
  | fuel + 1, depth, cs, acc => do
    let (item, rest) ← takeValue fuel depth cs
    match skipBlanks rest with
    | ',' :: rest => takeItems fuel depth rest (item :: acc)
    | ']' :: rest => some ((item :: acc).reverse, rest)
    | _ => none

/-- The members of an object up to its closing brace. -/
def takeMembers :
    Nat → Nat → List Char → List (String × Json) → Option (List (String × Json) × List Char)
  | 0, _, _, _ => none
  | fuel + 1, depth, cs, acc =>
    match skipBlanks cs with
    | '"' :: rest => do
      let (key, rest) ← takeText [] rest
      match skipBlanks rest with
      | ':' :: rest =>
        let (value, rest) ← takeValue fuel depth rest
        match skipBlanks rest with
        | ',' :: rest => takeMembers fuel depth rest ((key, value) :: acc)
        | '\x7d' :: rest => some (((key, value) :: acc).reverse, rest)
        | _ => none
      | _ => none
    | _ => none

end

/-- Reads a document. Every step takes a character, so the length of the text bounds them. -/
def parse? (s : String) : Option Json :=
  let cs := s.toList
  match takeValue (2 * cs.length + 2) 127 cs with
  | some (value, rest) => if (skipBlanks rest).isEmpty then some value else none
  | none => none

end SqlWeave.Json
