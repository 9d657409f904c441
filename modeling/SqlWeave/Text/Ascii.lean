/-!
# Text without regard to ASCII letter case

Column names and keywords are compared letter by letter, an ASCII letter counting as equal to its
other case and every other character only to itself.

Results: `sameIgnoringCase_refl`, `sameIgnoringCase_comm`, `sameIgnoringCase_trans`.
-/

namespace SqlWeave.Text

/-- Every ASCII lower-case letter replaced by its capital; other characters stay. -/
def asciiUpper (s : String) : String := String.ofList (s.toList.map Char.toUpper)

/-- Two texts that differ at most in the case of ASCII letters. -/
def sameIgnoringCase (s t : String) : Bool := s.toList.map Char.toLower == t.toList.map Char.toLower

theorem sameIgnoringCase_iff {s t : String} :
    sameIgnoringCase s t = true ↔ s.toList.map Char.toLower = t.toList.map Char.toLower := by
  simp [sameIgnoringCase]

theorem sameIgnoringCase_refl (s : String) : sameIgnoringCase s s = true :=
  sameIgnoringCase_iff.2 rfl

theorem sameIgnoringCase_comm (s t : String) : sameIgnoringCase s t = sameIgnoringCase t s := by
  simp [sameIgnoringCase, Bool.beq_comm]

theorem sameIgnoringCase_trans {s t u : String} (h₁ : sameIgnoringCase s t = true)
    (h₂ : sameIgnoringCase t u = true) : sameIgnoringCase s u = true :=
  sameIgnoringCase_iff.2 ((sameIgnoringCase_iff.1 h₁).trans (sameIgnoringCase_iff.1 h₂))

end SqlWeave.Text
