import SqlWeave.Dialect

/-!
# Text literals end where they should

A reader of an engine meets an opening apostrophe and looks for the one that closes. An apostrophe
that comes twice stands for one and does not close; for MySQL a backslash besides takes the next
character as it is, be it an apostrophe. What a literal is made of is no business of the reader: it
gets the characters of the whole statement, so a text that closes its literal too early, or keeps it
open, goes on as SQL.

Results:
* `readDelimited_doubled`: a reader goes past doubled characters and gathers them once.
* `readDelimited_delimited_iff`: it ends at the closing character unless another one follows.
* `stringLiteral_inescapable`: no text escapes from its literal, whatever stands behind that.
-/

namespace SqlWeave

namespace Text

/-! ## Reading delimited text -/

/-- Reads a delimited text from behind its opening character to the closing one: the text and what
follows it. The closing character twice stands for one, and a character that `escapes` accepts makes
the next one stand for itself. A text that is never closed is none. -/
def readDelimited (closing : Char) (escapes : Char → Bool) :
    List Char → Option (List Char × List Char)
  | [] => none
  | [c] => if c = closing then some ([], []) else none
  | c :: d :: rest =>
    if c = closing then
      if d = closing then (readDelimited closing escapes rest).map (Prod.map (c :: ·) id)
      else some ([], d :: rest)
    else if escapes c then (readDelimited closing escapes rest).map (Prod.map (d :: ·) id)
    else (readDelimited closing escapes (d :: rest)).map (Prod.map (c :: ·) id)

section

variable {q c : Char} {escapes twice : Char → Bool} {cs rest : List Char}

theorem readDelimited_closing (h : rest.head? ≠ some q) :
    readDelimited q escapes (q :: rest) = some ([], rest) := by
  cases rest with
  | nil => simp [readDelimited]
  | cons d rest =>
    have hd : d ≠ q := fun hd => h (congrArg some hd)
    simp [readDelimited, hd]

theorem readDelimited_twice (rest : List Char) : readDelimited q escapes (q :: q :: rest) =
    (readDelimited q escapes rest).map (Prod.map (q :: ·) id) := by
  simp [readDelimited]

theorem readDelimited_escaped (hc : c ≠ q) (he : escapes c = true) (d : Char) (rest : List Char) :
    readDelimited q escapes (c :: d :: rest) =
      (readDelimited q escapes rest).map (Prod.map (d :: ·) id) := by
  simp [readDelimited, hc, he]

theorem readDelimited_plain (hc : c ≠ q) (he : escapes c = false) (rest : List Char) :
    readDelimited q escapes (c :: rest) =
      (readDelimited q escapes rest).map (Prod.map (c :: ·) id) := by
  cases rest <;> simp [readDelimited, hc, he]

/-- **A reader goes past doubled characters and gathers each of them once**, if those are doubled
that would end the text or change the next character. -/
theorem readDelimited_doubled (h : ∀ c, twice c = (c == q || escapes c)) (cs rest : List Char) :
    readDelimited q escapes (doubled twice cs ++ rest) =
      (readDelimited q escapes rest).map (Prod.map (cs ++ ·) id) := by
  induction cs with
  | nil => exact Option.map_id'.symm
  | cons c cs ih =>
    have hmap : ((readDelimited q escapes rest).map (Prod.map (cs ++ ·) id)).map
        (Prod.map (c :: ·) id) =
          (readDelimited q escapes rest).map (Prod.map (c :: cs ++ ·) id) := by
      rw [Option.map_map, Prod.map_comp_map]
      rfl
    by_cases hc : c = q
    · -- the closing character is doubled, so it closes nothing
      subst hc
      have hd : doubled twice (c :: cs) = c :: c :: doubled twice cs := by simp [doubled, h]
      rw [hd, List.cons_append, List.cons_append, readDelimited_twice, ih, hmap]
    · by_cases he : escapes c = true
      · -- an escape is doubled, so it stands for itself
        have hd : doubled twice (c :: cs) = c :: c :: doubled twice cs := by simp [doubled, h, he]
        rw [hd, List.cons_append, List.cons_append, readDelimited_escaped hc he, ih, hmap]
      · have he : escapes c = false := Bool.eq_false_iff.mpr he
        have hd : doubled twice (c :: cs) = c :: doubled twice cs := by
          simp [doubled, h, hc, he]
        rw [hd, List.cons_append, readDelimited_plain hc he, ih, hmap]

/-- **A delimited text is read back exactly if its closing character does not come once more**: then
it ends there, and otherwise it would go on. -/
theorem readDelimited_delimited_iff (h : ∀ c, twice c = (c == q || escapes c))
    (cs rest : List Char) :
    readDelimited q escapes (doubled twice cs ++ q :: rest) = some (cs, rest) ↔
      rest.head? ≠ some q := by
  rw [readDelimited_doubled h]
  constructor
  · intro hr hq
    obtain ⟨more, rfl⟩ := List.head?_eq_some_iff.mp hq
    rw [readDelimited_twice, Option.map_map] at hr
    obtain ⟨⟨text, after⟩, -, he⟩ := Option.map_eq_some_iff.mp hr
    -- the text read is longer than the one written
    have hl := congrArg (fun p : List Char × List Char => p.1.length) he
    simp at hl
  · intro hq
    rw [readDelimited_closing hq]
    simp

end

end Text

/-! ## Literals -/

namespace Dialect

open Text

/-- The characters that make the next one stand for itself inside a text literal. -/
def escapes (d : Dialect) (c : Char) : Bool := c == '\\' && d == mysql

/-- Reads a text literal at the beginning of a text: the text that it stands for, and what follows
it. -/
def readLiteral (d : Dialect) (sql : String) : Option (String × String) :=
  match sql.toList with
  | '\'' :: cs =>
    (readDelimited '\'' d.escapes cs).map (Prod.map String.ofList String.ofList)
  | _ => none

theorem toList_stringLiteral_append (d : Dialect) (s t : String) :
    (d.stringLiteral s ++ t).toList =
      '\'' :: (doubled d.literalDoubles s.toList ++ '\'' :: t.toList) := by
  unfold stringLiteral delimited
  rw [String.toList_append, String.toList_ofList, List.cons_append, List.append_assoc]
  rfl

theorem readLiteral_stringLiteral_iff (d : Dialect) (s t : String) :
    d.readLiteral (d.stringLiteral s ++ t) = some (s, t) ↔ t.toList.head? ≠ some '\'' := by
  have hd : ∀ c, d.literalDoubles c = (c == '\'' || d.escapes c) := fun _ => rfl
  have hp : ∀ p : List Char × List Char,
      Prod.map String.ofList String.ofList p = (s, t) ↔ p = (s.toList, t.toList) := by
    rintro ⟨cs, rest⟩
    rw [Prod.map_apply, Prod.mk.injEq, Prod.mk.injEq, ← String.toList_inj, ← String.toList_inj,
      String.toList_ofList, String.toList_ofList]
  rw [← readDelimited_delimited_iff hd s.toList, readLiteral, toList_stringLiteral_append]
  simp only [Option.map_eq_some_iff, hp, exists_eq_right]

example : mysql.readLiteral (mysql.stringLiteral "it's \\" ++ " OR ''=''") =
    some ("it's \\", " OR ''=''") := by decide

/-- **No text escapes from its literal.** A reader of the engine that starts at a literal, with
anything behind it but an apostrophe, ends where the literal ends and finds the text that was
written; with an apostrophe behind it, it does not. So a literal stands for one text only. -/
theorem stringLiteral_inescapable (d : Dialect) :
    (∀ s t : String, d.readLiteral (d.stringLiteral s ++ t) = some (s, t) ↔
      t.toList.head? ≠ some '\'') ∧ Function.Injective d.stringLiteral := by
  refine ⟨d.readLiteral_stringLiteral_iff, fun s s' h => ?_⟩
  have hread : ∀ u : String, d.readLiteral (d.stringLiteral u ++ "") = some (u, "") := fun u =>
    (d.readLiteral_stringLiteral_iff u "").mpr (by simp)
  have hs := hread s
  rw [h, hread s'] at hs
  exact (congrArg Prod.fst (Option.some.inj hs)).symm

end Dialect
end SqlWeave
