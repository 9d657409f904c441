import SqlWeave.Proofs.Merge.Names
import SqlWeave.Proofs.Quoting.Literal
import SqlWeave.Proofs.Template.Fragment

/-!
# Quoted names are read back

A reader of an engine takes a name part by part: a star, or a text between quotes in which the
closing quote twice stands for one, and after a dot the next part. It is told neither how many parts
there are nor what is in them; dots, blanks, question marks and the quotes of other engines inside a
part are characters like any other. A reader of placeholders, which knows nothing of names, goes
past the same characters.

Results:
* `readPart_quotePart`: a part quoted as a whole is read back.
* `readName_quote`: so is a name, part by part.
* `symbols_quote_append`: no placeholder is in a quoted name, and what follows is read outside.
* `quotedName_delimited`: both readers stop where the name does.
-/

namespace SqlWeave

open Text Template

/-- What follows a delimited text is shorter than what was read. -/
theorem Text.length_readDelimited_lt (q : Char) (escapes : Char → Bool) (cs : List Char) :
    ∀ p ∈ readDelimited q escapes cs, p.2.length < cs.length := by
  have hstep : ∀ {f : List Char → List Char} {xs ys : List Char}, xs.length ≤ ys.length →
      (∀ p ∈ readDelimited q escapes xs, p.2.length < xs.length) →
      ∀ p ∈ (readDelimited q escapes xs).map (Prod.map f id), p.2.length < ys.length := by
    intro f xs ys hl ih p hp
    obtain ⟨r, hr, rfl⟩ := Option.map_eq_some_iff.mp hp
    exact Nat.lt_of_lt_of_le (ih r hr) hl
  fun_induction readDelimited q escapes cs with
  | case1 | case2 | case3 | case5 => simp
  | case4 _ ih | case6 _ _ _ _ _ ih | case7 _ _ _ _ _ ih =>
    exact hstep (by simp only [List.length_cons]; omega) ih

namespace Dialect

/-! ## Reading names -/

/-- Reads a part of a name, a star or a text between quotes: the part and what follows it. -/
def readPart (d : Dialect) : List Char → Option (List Char × List Char)
  | [] => none
  | c :: cs =>
    if c = '*' then some (['*'], cs)
    else if c = d.quotes.1 then readDelimited d.quotes.2 (fun _ => false) cs
    else none

theorem length_readPart_lt {d : Dialect} {cs part rest : List Char}
    (h : d.readPart cs = some (part, rest)) : rest.length < cs.length := by
  unfold readPart at h
  split at h
  · cases h
  · split at h
    · cases h
      exact Nat.lt_succ_self _
    · split at h
      · exact Nat.lt_succ_of_lt (length_readDelimited_lt _ _ _ _ h)
      · cases h

/-- Reads the parts of a name, those behind the first behind a dot each: the parts and what follows
the last of them. -/
def readParts (d : Dialect) (cs : List Char) : Option (List String × List Char) :=
  match _h : d.readPart cs with
  | none => none
  | some (part, '.' :: rest) => (d.readParts rest).map (Prod.map (String.ofList part :: ·) id)
  | some (part, rest) => some ([String.ofList part], rest)
termination_by cs.length
decreasing_by exact Nat.lt_of_succ_lt (length_readPart_lt _h)

/-- Reads a name at the beginning of a text: its parts, and what follows it. -/
def readName (d : Dialect) (sql : String) : Option (List String × String) :=
  (d.readParts sql.toList).map (Prod.map id String.ofList)

/-- The parts of a name: what its dots cut it into, without the blanks around each. -/
def parts (name : String) : List String :=
  (name.toList.splitOn '.').map fun part => String.ofList (trimChars part)

variable {d : Dialect} {cs rest : List Char} {name t : String}

theorem readParts_dot {part : List Char} (h : d.readPart cs = some (part, '.' :: rest)) :
    d.readParts cs = (d.readParts rest).map (Prod.map (String.ofList part :: ·) id) := by
  rw [readParts]
  split <;> simp_all

theorem readParts_last {part : List Char} (h : d.readPart cs = some (part, rest))
    (hr : rest.head? ≠ some '.') : d.readParts cs = some ([String.ofList part], rest) := by
  rw [readParts]
  split
  · simp_all
  · rename_i hp
    obtain ⟨-, rfl⟩ := Prod.mk.inj (Option.some.inj (hp.symm.trans h))
    exact absurd rfl hr
  · simp_all

theorem opening_ne_star (d : Dialect) : d.quotes.1 ≠ '*' := by cases d <;> decide

/-- **A part quoted as a whole is read back**, unless another closing quote follows it. -/
theorem readPart_quotePart (n : String) (hr : rest.head? ≠ some d.quotes.2) :
    d.readPart ((d.quotePart n).toList ++ rest) = some (n.toList, rest) := by
  by_cases hn : n = "*"
  · subst hn
    have hs : "*".toList = ['*'] := by decide
    rw [toList_quotePart_star, List.cons_append, List.nil_append, readPart, if_pos rfl, hs]
  · have hd : ∀ c, (c == d.quotes.2) = (c == d.quotes.2 || false) := fun c => (Bool.or_false _).symm
    rw [toList_quotePart hn, List.cons_append, List.append_assoc, readPart,
      if_neg d.opening_ne_star, if_pos rfl]
    exact (readDelimited_delimited_iff hd n.toList rest).mpr hr

/-- Quoted parts with dots between them are read back. -/
theorem readParts_intercalate (hq : rest.head? ≠ some d.quotes.2) (hd : rest.head? ≠ some '.') :
    ∀ {names : List String}, names ≠ [] →
      d.readParts ((".".intercalate (names.map d.quotePart)).toList ++ rest) = some (names, rest)
  | [n], _ => by
    rw [List.map_singleton, String.intercalate_singleton,
      readParts_last (readPart_quotePart n hq) hd, String.ofList_toList]
  | n :: m :: names, _ => by
    have ih := readParts_intercalate hq hd (List.cons_ne_nil m names)
    -- behind the first part comes a dot, which closes no quotes
    have hdot : '.' ≠ d.quotes.2 := by cases d <;> decide
    have hs : ".".toList = ['.'] := by decide
    rw [List.map_cons, List.map_cons, String.intercalate_cons_cons, String.toList_append,
      String.toList_append, List.append_assoc, List.append_assoc, ← List.map_cons, hs,
      List.cons_append, List.nil_append,
      readParts_dot (readPart_quotePart n fun h => hdot (Option.some.inj h)), ih,
      String.ofList_toList]
    rfl

theorem parts_ne_nil (name : String) : parts name ≠ [] := by
  unfold parts
  rw [ne_eq, List.map_eq_nil_iff]
  exact List.splitOn_ne_nil '.' _

/-- A name is written as its parts, each quoted as a whole. -/
theorem quote_eq_intercalate (h : d.Unquoted name) :
    d.quote name = ".".intercalate ((parts name).map d.quotePart) := by
  unfold quote parts
  rw [if_neg h, List.map_map]
  rfl

/-- **A quoted name is read back part by part**, unless what follows would go on with it. -/
theorem readName_quote (h : d.Unquoted name) (hq : t.toList.head? ≠ some d.quotes.2)
    (hd : t.toList.head? ≠ some '.') : d.readName (d.quote name ++ t) = some (parts name, t) := by
  rw [readName, String.toList_append, quote_eq_intercalate h,
    readParts_intercalate hq hd (parts_ne_nil name), Option.map_some, Prod.map_apply,
    String.ofList_toList]
  rfl

/-! ## Placeholders -/

/-- Where a reader stands behind a quoted name: outside of quotes, and perhaps right behind a
closing quote of the engine. -/
def Behind (d : Dialect) (p : Place) : Prop := p = .outside ∨ p = .behind d.quotes.2

theorem settled_of_behind (p : Place) (h : d.Behind p) : Settled p :=
  h.imp_right fun h => ⟨d.quotes.2, by cases d <;> rfl, h⟩

theorem reads_quotePart (n : String) : Reads Outside d.Behind (chars (d.quotePart n)) := by
  unfold quotePart
  split
  · rename_i hn
    subst hn
    have hstar : Neutral "*" := neutral_of (by decide)
    exact hstar.mono (fun _ h => h) fun _ => Or.inl
  · exact (reads_delimited (by cases d <;> rfl) (by simp) n.toList).mono (fun _ h => h)
      fun _ => Or.inr

theorem reads_quote (h : d.Unquoted name) : Reads Outside d.Behind (chars (d.quote name)) := by
  rw [quote_eq_intercalate h]
  refine reads_intercalate settled_of_behind (joint_of (by decide)) ?_ fun w hw => ?_
  · rw [ne_eq, List.map_eq_nil_iff]
    exact parts_ne_nil name
  · obtain ⟨n, -, rfl⟩ := List.mem_map.mp hw
    exact reads_quotePart n

/-- Behind a name a text is read as outside of quotes, unless it starts with a closing quote. -/
theorem read_of_behind {p : Place} (h : d.Behind p) (hq : cs.head? ≠ some d.quotes.2) :
    Template.read p cs = Template.read .outside cs := by
  rcases h with rfl | rfl
  · rfl
  · cases cs with
    | nil => rfl
    | cons c cs =>
      have hc : ¬ (d.quotes.2 = ']' ∧ c = ']') := fun hc => hq (by rw [hc.1, hc.2]; rfl)
      exact (read_behind (by cases d <;> rfl) hc cs).1

/-- **No placeholder is in a quoted name, and what follows it is read outside of quotes.** -/
theorem symbols_quote_append (h : d.Unquoted name) (hq : t.toList.head? ≠ some d.quotes.2) :
    symbols (d.quote name ++ t) = chars (d.quote name) ++ symbols t := by
  obtain ⟨hr, hb⟩ := reads_quote h .outside rfl
  rw [map_toChar_chars] at hr hb
  rw [symbols_eq_read, symbols_eq_read, String.toList_append, read_append, hr, read_of_behind hb hq]

/-- **A quoted name ends where it is written to end.** A reader of names finds its parts and goes on
behind it, and a reader of placeholders finds none in it and goes on behind it outside of quotes,
whatever characters the name has, if it does not claim to be quoted already and if neither a closing
quote nor a dot follows. -/
theorem quotedName_delimited (d : Dialect) {name t : String} (h : d.Unquoted name)
    (hq : t.toList.head? ≠ some d.quotes.2) (hd : t.toList.head? ≠ some '.') :
    d.readName (d.quote name ++ t) = some (parts name, t) ∧
      symbols (d.quote name ++ t) = chars (d.quote name) ++ symbols t ∧
      placeholders (d.quote name ++ t) =
        (placeholders t).map ((d.quote name).utf8ByteSize + ·) := by
  have hs := symbols_quote_append h hq
  refine ⟨readName_quote h hq hd, hs, ?_⟩
  rw [placeholders, hs, holesFrom_append, holesFrom_chars, List.nil_append, width_chars,
    Nat.zero_add]
  exact holesFrom_eq_map _ _

/-- A name with a dot, blanks, a star, a question mark and quotes of several engines. -/
theorem crowdedName_delimited :
    sqlServer.Unquoted "dbo . a]b?[c'.*" ∧ " = ?".toList.head? ≠ some sqlServer.quotes.2 ∧
      " = ?".toList.head? ≠ some '.' ∧
      sqlServer.quote "dbo . a]b?[c'.*" = "[dbo].[a]]b?[c'].*" ∧
      sqlServer.readName "[dbo].[a]]b?[c'].* = ?" = some (["dbo", "a]b?[c'", "*"], " = ?") ∧
      placeholders "[dbo].[a]]b?[c'].* = ?" = [21] := by
  have hq : sqlServer.quote "dbo . a]b?[c'.*" = "[dbo].[a]]b?[c'].*" := by decide
  have hu : sqlServer.Unquoted "dbo . a]b?[c'.*" := by decide
  have hclose : " = ?".toList.head? ≠ some sqlServer.quotes.2 := by decide
  have hdot : " = ?".toList.head? ≠ some '.' := by decide
  obtain ⟨hr, -, hp⟩ := quotedName_delimited sqlServer hu hclose hdot
  rw [hq] at hr hp
  exact ⟨hu, hclose, hdot, hq, hr.trans (by decide), hp.trans (by decide)⟩

end Dialect
end SqlWeave
