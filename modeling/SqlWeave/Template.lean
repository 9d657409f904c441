/-!
# Placeholders in statement text

A question mark is a placeholder unless it stands between quotes: apostrophes, double quotes, grave
accents or square brackets. Inside quotes the closing character written twice stands for itself, and
quotes that are never closed hide everything to the end.

`symbols` tells the placeholders of a text from its other characters, and `placeholders` lists
where they stand, counted in bytes. `symbolsAt` goes the other way: it takes the places as given.

Results:
* `text_symbols`: writing the symbols gives the text back.
-/

namespace SqlWeave.Template

/-- A character of a template. -/
inductive Symbol where
  | char (c : Char)
  | hole
  deriving DecidableEq, Repr

/-- The character as it is written. -/
def Symbol.toChar : Symbol → Char
  | char c => c
  | hole => '?'

/-- The character that closes what a character opens. -/
def closing? (c : Char) : Option Char :=
  if c = '\'' ∨ c = '"' ∨ c = '\x60' then some c
  else if c = '[' then some ']'
  else none

/-- The symbols of a text; `inside` is the closing character of the quotes it starts in. -/
def scan : Option Char → List Char → List Symbol
  | _, [] => []
  | none, c :: rest => (if c = '?' then .hole else .char c) :: scan (closing? c) rest
  | some q, [c] => if c = q then [.char c] else .char c :: scan (some q) []
  | some q, c :: d :: rest =>
    if c = q then
      if d = q then .char c :: .char d :: scan (some q) rest
      else .char c :: scan none (d :: rest)
    else .char c :: scan (some q) (d :: rest)

/-- The symbols of a text. -/
def symbols (s : String) : List Symbol := scan none s.toList

/-- The places of the placeholders in bytes, the first symbol standing at `offset`. -/
def holesFrom (offset : Nat) : List Symbol → List Nat
  | [] => []
  | .hole :: rest => offset :: holesFrom (offset + 1) rest
  | .char c :: rest => holesFrom (offset + c.utf8Size) rest

/-- The places of the placeholders of a text in bytes. -/
def placeholders (s : String) : List Nat := holesFrom 0 (symbols s)

/-- Characters with holes at some places, counted in bytes, whatever stands there. The first
character stands at `offset`. -/
def symbolsAt (offset : Nat) : List Char → List Nat → List Symbol
  | [], _ => []
  | c :: cs, [] => .char c :: symbolsAt (offset + c.utf8Size) cs []
  | c :: cs, i :: places =>
    if i = offset then .hole :: symbolsAt (offset + c.utf8Size) cs places
    else .char c :: symbolsAt (offset + c.utf8Size) cs (i :: places)

/-- Scanning keeps every character. -/
theorem map_toChar_scan (inside : Option Char) (cs : List Char) :
    (scan inside cs).map Symbol.toChar = cs := by
  fun_induction scan inside cs with
  | case2 c rest ih =>
    by_cases h : c = '?' <;> simp_all [Symbol.toChar]
  | _ => simp_all [Symbol.toChar]

theorem text_symbols (s : String) : String.ofList ((symbols s).map Symbol.toChar) = s := by
  simp [symbols, map_toChar_scan]

end SqlWeave.Template
