import SqlWeave.Text.Visible

/-!
# Text as a reader sees it

A text between double quotes in which every character can be told from every other: the double
quote, the backslash and the usual control characters have an escape of two characters, and any
other character without a shape of its own is written as its code point.

Result: `shownChar_of_alphanum`, letters and digits stay.
-/

namespace SqlWeave.Text

/-- One character of a shown text. -/
def shownChar (c : Char) : List Char :=
  if c = '"' then ['\\', '"']
  else if c = '\\' then ['\\', '\\']
  else if c = '\n' then ['\\', 'n']
  else if c = '\r' then ['\\', 'r']
  else if c = '\t' then ['\\', 't']
  else if c = '\x00' then ['\\', '0']
  else if isVisible c then [c]
  else '\\' :: 'u' :: '\x7b' :: (Nat.toDigits 16 c.toNat ++ ['\x7d'])

/-- A text between double quotes with its hidden characters written out. -/
def shown (s : String) : String :=
  String.ofList ('"' :: (s.toList.flatMap shownChar ++ ['"']))

theorem shownChar_of_alphanum {c : Char} (h : c.isAlphanum = true) : shownChar c = [c] := by
  have hv := isVisible_of_letter h
  have ne : ∀ d : Char, d.isAlphanum = false → c ≠ d := fun d hd e => by simp [e, hd] at h
  simp [shownChar, hv, ne '"' (by decide), ne '\\' (by decide), ne '\n' (by decide),
    ne '\r' (by decide), ne '\t' (by decide), ne '\x00' (by decide)]

end SqlWeave.Text
