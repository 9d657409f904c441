import SqlWeave.Proofs.Template.Comment

/-!
# Fields of a statement

An engine takes a statement apart at its blanks and commas, but not at those between quotes or
parentheses. `fields` does the same: it reads the text one character at a time, remembers where it
stands and how many parentheses are open, and cuts the text at the separators that it meets outside
of all of them. A text that closes a parenthesis it has not opened, or that ends within quotes or
parentheses, cannot be taken apart. Comments are not known to the reader.

What is between quotes or in parentheses is one field whatever characters it has, so the fields of a
text made of names, literals and lists in parentheses are the parts that it was made of.

Results:
* `Spot.read_deeper`: within parentheses no character is a separator.
* `fields_append`, `wordsOf_append`: the fields of texts with a separator between them.
* `isField_quote`, `isField_literal`: a quoted name and a literal are one field.
* `isField_enclosed`: so is what stands in parentheses.
-/

namespace SqlWeave

open Text Template

namespace Template

/-! ## Reading -/

/-- Where a reader of fields stands: at a place, within so many parentheses. -/
structure Spot where
  place : Place := .outside
  depth : Nat := 0
  deriving DecidableEq

namespace Spot

/-- The spot behind a character. A parenthesis that was not opened cannot be closed. -/
def next? (s : Spot) (c : Char) : Option Spot :=
  if s.place.next c = .outside ∧ c = '(' then some ⟨.outside, s.depth + 1⟩
  else if s.place.next c = .outside ∧ c = ')' then
    if s.depth = 0 then none else some ⟨.outside, s.depth - 1⟩
  else some ⟨s.place.next c, s.depth⟩

/-- The characters of a text, those marked that the reader stands behind outside of quotes and
parentheses, and the spot behind the text. -/
def read (s : Spot) : List Char → Option (List (Char × Bool) × Spot)
  | [] => some ([], s)
  | c :: cs => do
    let t ← s.next? c
    let (xs, u) ← read t cs
    some ((c, decide (t = {})) :: xs, u)

/-- The reader stands outside of parentheses, and outside of quotes or right behind them. -/
def rests (s : Spot) : Bool :=
  match s with
  | ⟨.inside _, _⟩ => false
  | ⟨_, n⟩ => n == 0

variable {s t u : Spot} {c : Char} {cs ds : List Char} {xs ys : List (Char × Bool)}

theorem read_cons_eq_some_iff : s.read (c :: cs) = some (xs, u) ↔
    ∃ t ys, s.next? c = some t ∧ t.read cs = some (ys, u) ∧ xs = (c, decide (t = {})) :: ys := by
  rw [read]
  constructor
  · intro h
    obtain ⟨t, ht, h⟩ := Option.bind_eq_some_iff.mp h
    obtain ⟨⟨ys, v⟩, hr, h⟩ := Option.bind_eq_some_iff.mp h
    cases h
    exact ⟨t, ys, ht, hr, rfl⟩
  · rintro ⟨t, ys, ht, hr, rfl⟩
    rw [ht, Option.bind_eq_bind, Option.bind_some, hr]
    rfl

theorem read_append (h : s.read cs = some (xs, t)) (k : t.read ds = some (ys, u)) :
    s.read (cs ++ ds) = some (xs ++ ys, u) := by
  induction cs generalizing s xs with
  | nil =>
    cases h
    exact k
  | cons c cs ih =>
    obtain ⟨v, zs, hv, hr, rfl⟩ := read_cons_eq_some_iff.mp h
    exact read_cons_eq_some_iff.mpr ⟨v, zs ++ ys, hv, ih hr, rfl⟩

theorem map_fst_read (h : s.read cs = some (xs, t)) : xs.map Prod.fst = cs := by
  induction cs generalizing s xs with
  | nil =>
    cases h
    rfl
  | cons c cs ih =>
    obtain ⟨v, zs, -, hr, rfl⟩ := read_cons_eq_some_iff.mp h
    rw [List.map_cons, ih hr]

theorem place_next? (h : s.next? c = some t) : t.place = s.place.next c := by
  unfold next? at h
  split_ifs at h with ho hp hd <;> cases h
  · exact ho.1.symm
  · exact hp.1.symm
  · rfl

theorem reached_of_read (h : s.read cs = some (xs, t)) (hs : s.place.Reached) :
    t.place.Reached := by
  induction cs generalizing s xs with
  | nil =>
    cases h
    exact hs
  | cons c cs ih =>
    obtain ⟨v, zs, hv, hr, rfl⟩ := read_cons_eq_some_iff.mp h
    exact ih hr (place_next? hv ▸ hs.next c)

/-- The spot within so many parentheses more. -/
def within (s : Spot) (n : Nat) : Spot := { s with depth := s.depth + n }

theorem next?_within (n : Nat) (h : s.next? c = some t) :
    (s.within n).next? c = some (t.within n) := by
  unfold next? at h ⊢
  have hplace : (s.within n).place = s.place := rfl
  have hdepth : (s.within n).depth = s.depth + n := rfl
  rw [hplace, hdepth]
  split_ifs at h with ho hp hd <;> cases h
  · rw [if_pos ho]
    exact congrArg (fun m => some (Spot.mk .outside m)) (Nat.add_right_comm _ _ _)
  · have hne : ¬ s.depth + n = 0 := fun h => hd (Nat.eq_zero_of_add_eq_zero_right h)
    rw [if_neg ho, if_pos hp, if_neg hne]
    exact congrArg (fun m => some (Spot.mk .outside m))
      (Nat.sub_add_comm (Nat.pos_of_ne_zero hd))
  · rw [if_neg ho, if_neg hp]
    rfl

/-- **Within parentheses no character is a separator**, and a reader comes out of a text as deep as
it came in. -/
theorem read_deeper (n : Nat) (h : s.read cs = some (xs, t)) :
    (s.within (n + 1)).read cs = some (xs.map fun x => (x.1, false), t.within (n + 1)) := by
  induction cs generalizing s xs with
  | nil =>
    cases h
    rfl
  | cons c cs ih =>
    obtain ⟨v, zs, hv, hr, rfl⟩ := read_cons_eq_some_iff.mp h
    refine read_cons_eq_some_iff.mpr ⟨_, _, next?_within (n + 1) hv, ih hr, ?_⟩
    simp [within]

/-- A character that is no quote is read right behind closed quotes as outside of them. -/
theorem next?_of_isInert (hs : s.rests = true) (hr : s.place.Reached) (hc : isInert c = true) :
    s.next? c = next? {} c := by
  obtain ⟨p, n⟩ := s
  have hp : p.rest = .outside := by
    cases p with
    | inside q => cases hs
    | outside | behind q => rfl
  have hn : n = 0 := by
    cases p with
    | inside q => cases hs
    | outside | behind q => exact beq_iff_eq.mp hs
  have hnext : ∀ q : Place, q.Reached → q.rest = .outside → q.next c = .outside :=
    fun q hq hrest => (Place.next_of_isInert hq hc).trans hrest
  unfold next?
  rw [hnext p hr hp, hnext .outside trivial rfl, hn]

/-- A character that is neither quote nor parenthesis leaves a reader outside of both. -/
theorem next?_outside (hc : isInert c = true) (ho : c ≠ '(') (hp : c ≠ ')') :
    next? {} c = some {} := by
  have hn : Place.next .outside c = .outside := Place.next_of_isInert (p := .outside) trivial hc
  unfold next?
  simp [hn, ho, hp]

end Spot

/-! ## Fields -/

variable {sep : Char → Bool} {x y w : String} {c : Char}

/-- The fields of a text between separators outside of quotes and parentheses. -/
def fields (sep : Char → Bool) (text : String) : Option (List String) :=
  match Spot.read {} text.toList with
  | some (xs, t) =>
    if t.rests then
      some ((xs.splitOnP fun x => x.2 && sep x.1).map fun f => String.ofList (f.map Prod.fst))
    else none
  | none => none

/-- The text is one field. -/
def IsField (sep : Char → Bool) (text : String) : Prop := fields sep text = some [text]

instance (sep : Char → Bool) (text : String) : Decidable (IsField sep text) :=
  inferInstanceAs (Decidable (_ = _))

/-- A reader goes through the text and stands outside of quotes and parentheses behind it. -/
def Closed (text : String) : Prop :=
  ∃ xs t, Spot.read {} text.toList = some (xs, t) ∧ t.rests = true

theorem fields_eq_some_iff {fs : List String} : fields sep x = some fs ↔
    ∃ xs t, Spot.read {} x.toList = some (xs, t) ∧ t.rests = true ∧
      fs = (xs.splitOnP fun x => x.2 && sep x.1).map fun f => String.ofList (f.map Prod.fst) := by
  unfold fields
  cases h : Spot.read {} x.toList with
  | none => simp
  | some r =>
    obtain ⟨xs, t⟩ := r
    by_cases ht : t.rests = true
    · simp only [ht, if_true, Option.some.injEq]
      exact ⟨fun h => ⟨xs, t, rfl, ht, h.symm⟩, fun ⟨_, _, h, _, hf⟩ => by cases h; exact hf.symm⟩
    · simp only [if_neg ht]
      exact ⟨fun h => (by cases h), fun ⟨_, _, h, hu, _⟩ => by cases h; exact absurd hu ht⟩

theorem closed_of_fields {fs : List String} (h : fields sep x = some fs) : Closed x := by
  obtain ⟨xs, t, hr, ht, -⟩ := fields_eq_some_iff.mp h
  exact ⟨xs, t, hr, ht⟩

/-- **A text is one field exactly if a reader goes through it and meets no separator.** -/
theorem isField_iff : IsField sep x ↔
    ∃ xs t, Spot.read {} x.toList = some (xs, t) ∧ t.rests = true ∧
      ∀ y ∈ xs, (y.2 && sep y.1) = false := by
  unfold IsField
  rw [fields_eq_some_iff]
  constructor
  · rintro ⟨xs, t, hr, ht, hf⟩
    refine ⟨xs, t, hr, ht, fun y hy => ?_⟩
    by_contra hsep
    obtain ⟨as, bs, rfl⟩ := List.append_of_mem hy
    rw [List.splitOnP_append_cons as bs (Bool.not_eq_false _ ▸ hsep)] at hf
    have hl := congrArg List.length hf
    have ha := List.length_pos_iff.mpr (List.splitOnP_ne_nil (fun x => x.2 && sep x.1) as)
    have hb := List.length_pos_iff.mpr (List.splitOnP_ne_nil (fun x => x.2 && sep x.1) bs)
    simp only [List.length_map, List.length_append, List.length_singleton] at hl
    omega
  · rintro ⟨xs, t, hr, ht, hsep⟩
    refine ⟨xs, t, hr, ht, ?_⟩
    rw [List.splitOnP_eq_singleton hsep, List.map_singleton, Spot.map_fst_read hr,
      String.ofList_toList]

theorem IsField.closed (h : IsField sep x) : Closed x := closed_of_fields h

theorem IsField.mono {bar : Char → Bool} (h : IsField bar x)
    (hsep : ∀ c, sep c = true → bar c = true) : IsField sep x := by
  obtain ⟨xs, t, hr, ht, hbar⟩ := isField_iff.mp h
  refine isField_iff.mpr ⟨xs, t, hr, ht, fun y hy => ?_⟩
  have hy := hbar y hy
  cases hm : y.2 with
  | false => rfl
  | true =>
    rw [hm, Bool.true_and] at hy
    rw [Bool.true_and, ← Bool.not_eq_true]
    exact fun hs => by rw [hsep _ hs] at hy; cases hy

/-- The text of one character that is neither a quote nor a parenthesis. -/
structure IsMark (w : String) (c : Char) : Prop where
  toList : w.toList = [c]
  inert : isInert c = true
  ne_opening : c ≠ '('
  ne_closing : c ≠ ')'

theorem isMark_blank : IsMark " " ' ' := ⟨rfl, rfl, by decide, by decide⟩

theorem isMark_comma : IsMark "," ',' := ⟨rfl, rfl, by decide, by decide⟩

theorem isMark_dot : IsMark "." '.' := ⟨rfl, rfl, by decide, by decide⟩

/-- A reader goes from a closed text through a mark and into the next text. -/
theorem read_append_cons {xs ys : List (Char × Bool)} {t u : Spot} (hw : IsMark w c)
    (hx : Spot.read {} x.toList = some (xs, t)) (ht : t.rests = true)
    (hy : Spot.read {} y.toList = some (ys, u)) :
    Spot.read {} (x ++ w ++ y).toList = some (xs ++ (c, true) :: ys, u) := by
  rw [String.toList_append, String.toList_append, hw.toList, List.append_assoc]
  refine Spot.read_append hx (Spot.read_cons_eq_some_iff.mpr ⟨{}, ys, ?_, hy, rfl⟩)
  rw [Spot.next?_of_isInert ht (Spot.reached_of_read hx trivial) hw.inert,
    Spot.next?_outside hw.inert hw.ne_opening hw.ne_closing]

/-- **The fields of two texts with a separator between them.** -/
theorem fields_append {fs gs : List String} (hw : IsMark w c) (hsep : sep c = true)
    (hx : fields sep x = some fs) (hy : fields sep y = some gs) :
    fields sep (x ++ w ++ y) = some (fs ++ gs) := by
  obtain ⟨xs, t, hrx, ht, rfl⟩ := fields_eq_some_iff.mp hx
  obtain ⟨ys, u, hry, hu, rfl⟩ := fields_eq_some_iff.mp hy
  refine fields_eq_some_iff.mpr ⟨_, u, read_append_cons hw hrx ht hry, hu, ?_⟩
  rw [List.splitOnP_append_cons xs ys (by simpa using hsep), List.map_append]

/-- Two fields with a character between them that is no separator are one field. -/
theorem IsField.append (hw : IsMark w c) (hsep : sep c = false) (hx : IsField sep x)
    (hy : IsField sep y) : IsField sep (x ++ w ++ y) := by
  obtain ⟨xs, t, hrx, ht, hxs⟩ := isField_iff.mp hx
  obtain ⟨ys, u, hry, hu, hys⟩ := isField_iff.mp hy
  refine isField_iff.mpr ⟨_, u, read_append_cons hw hrx ht hry, hu, ?_⟩
  rw [List.forall_mem_append, List.forall_mem_cons]
  exact ⟨hxs, by simpa using hsep, hys⟩

/-- Fields with characters between them that are no separators are one field. -/
theorem isField_intercalate (hw : IsMark w c) (hsep : sep c = false) :
    ∀ {xs : List String}, xs ≠ [] → (∀ x ∈ xs, IsField sep x) → IsField sep (w.intercalate xs)
  | [x], _, hx => by
    rw [String.intercalate_singleton]
    exact hx x List.mem_cons_self
  | x :: y :: xs, _, hx => by
    obtain ⟨hx, hxs⟩ := List.forall_mem_cons.mp hx
    rw [String.intercalate_cons_cons]
    exact hx.append hw hsep (isField_intercalate hw hsep (List.cons_ne_nil y xs) hxs)

/-- Fields with separators between them are the fields of the text. -/
theorem fields_intercalate (hw : IsMark w c) (hsep : sep c = true) :
    ∀ {xs : List String}, xs ≠ [] → (∀ x ∈ xs, IsField sep x) →
      fields sep (w.intercalate xs) = some xs
  | [x], _, hx => by
    rw [String.intercalate_singleton]
    exact hx x List.mem_cons_self
  | x :: y :: xs, _, hx => by
    obtain ⟨hx, hxs⟩ := List.forall_mem_cons.mp hx
    rw [String.intercalate_cons_cons]
    exact fields_append hw hsep hx (fields_intercalate hw hsep (List.cons_ne_nil y xs) hxs)

/-! ## What is one field -/

/-- Characters that are neither quotes, parentheses nor separators are one field. -/
theorem isField_of_inert
    (h : ∀ c ∈ x.toList, isInert c = true ∧ c ≠ '(' ∧ c ≠ ')' ∧ sep c = false) : IsField sep x := by
  suffices hread : ∃ xs, Spot.read {} x.toList = some (xs, {}) ∧ ∀ y ∈ xs, sep y.1 = false by
    obtain ⟨xs, hr, hsep⟩ := hread
    exact isField_iff.mpr ⟨xs, {}, hr, rfl, fun y hy => by rw [hsep y hy, Bool.and_false]⟩
  generalize x.toList = cs at h
  induction cs with
  | nil => exact ⟨[], rfl, fun _ h => by cases h⟩
  | cons c cs ih =>
    obtain ⟨⟨hc, ho, hp, hsep⟩, hcs⟩ := List.forall_mem_cons.mp h
    obtain ⟨xs, hr, hxs⟩ := ih hcs
    exact ⟨_, Spot.read_cons_eq_some_iff.mpr ⟨{}, xs, Spot.next?_outside hc ho hp, hr, rfl⟩,
      List.forall_mem_cons.mpr ⟨hsep, hxs⟩⟩

/-- **What stands in parentheses is one field.** -/
theorem isField_enclosed (hp : sep ')' = false) (h : Closed x) :
    IsField sep ("(" ++ x ++ ")") := by
  obtain ⟨xs, t, hr, ht⟩ := h
  have hdeep := Spot.read_deeper 0 hr
  have hplace : t.place.Reached := Spot.reached_of_read hr trivial
  have hclose : (t.within 1).next? ')' = some {} := by
    obtain ⟨p, n⟩ := t
    cases p with
    | inside q => cases ht
    | outside =>
      have hn : n = 0 := beq_iff_eq.mp ht
      subst hn
      rfl
    | behind q =>
      have hn : n = 0 := beq_iff_eq.mp ht
      subst hn
      have hnext : Place.next (.behind q) ')' = .outside := Place.next_of_isInert hplace rfl
      unfold Spot.next? Spot.within
      simp [hnext]
  have hopen : Spot.next? {} '(' = some (Spot.within {} 1) := rfl
  have hlast : (t.within 1).read [')'] = some ([(')', true)], {}) :=
    Spot.read_cons_eq_some_iff.mpr ⟨{}, [], hclose, rfl, rfl⟩
  rw [isField_iff]
  refine ⟨('(', false) :: (xs.map (fun x => (x.1, false)) ++ [(')', true)]), {}, ?_, rfl, ?_⟩
  · rw [String.toList_append, String.toList_append]
    exact Spot.read_cons_eq_some_iff.mpr ⟨_, _, hopen, Spot.read_append hdeep hlast, rfl⟩
  · rw [List.forall_mem_cons, List.forall_mem_append, List.forall_mem_singleton,
      List.forall_mem_map]
    exact ⟨rfl, fun _ _ => rfl, by simpa using hp⟩

/-- Characters between quotes are no separators. -/
theorem read_doubled_inside {q : Char} {twice : Char → Bool} (hq : twice q = true) (n : Nat)
    (cs : List Char) : Spot.read ⟨.inside q, n⟩ (doubled twice cs) =
      some ((doubled twice cs).map (·, false), ⟨.inside q, n⟩) := by
  have hstay : ∀ {p r : Place} {c : Char}, p.next c = r → r ≠ .outside →
      Spot.next? ⟨p, n⟩ c = some ⟨r, n⟩ := by
    intro p r c hr ho
    unfold Spot.next?
    rw [hr, if_neg fun h => ho h.1, if_neg fun h => ho h.1]
  have hmark : ∀ {r : Place}, r ≠ .outside → decide ((⟨r, n⟩ : Spot) = {}) = false :=
    fun hr => decide_eq_false fun h => hr (congrArg Spot.place h)
  -- a character is read, and the rest from the place behind it
  have hcons : ∀ {p r : Place} {c : Char} {ds : List Char}, p.next c = r → r ≠ .outside →
      Spot.read ⟨r, n⟩ ds = some (ds.map (·, false), ⟨.inside q, n⟩) →
      Spot.read ⟨p, n⟩ (c :: ds) = some ((c :: ds).map (·, false), ⟨.inside q, n⟩) := by
    intro p r c ds hr ho hds
    refine Spot.read_cons_eq_some_iff.mpr ⟨_, _, hstay hr ho, hds, ?_⟩
    rw [hmark ho]
    rfl
  induction cs with
  | nil => rfl
  | cons c cs ih =>
    by_cases hc : c = q
    · subst hc
      have hd : doubled twice (c :: cs) = c :: c :: doubled twice cs := by simp [doubled, hq]
      rw [hd]
      exact hcons (if_pos rfl) (by simp) (hcons (if_pos rfl) (by simp) ih)
    · have hn : Place.next (.inside q) c = .inside q := if_neg hc
      by_cases ht : twice c = true
      · have hd : doubled twice (c :: cs) = c :: c :: doubled twice cs := by simp [doubled, ht]
        rw [hd]
        exact hcons hn (by simp) (hcons hn (by simp) ih)
      · have hd : doubled twice (c :: cs) = c :: doubled twice cs := by simp [doubled, ht]
        rw [hd]
        exact hcons hn (by simp) ih

/-- A delimited text whose closing character is doubled inside is one field. -/
theorem isField_delimited {opening q : Char} {twice : Char → Bool} (ho : closing? opening = some q)
    (hq : twice q = true) (cs : List Char) :
    IsField sep (String.ofList (delimited opening q twice cs)) := by
  have hopen : Spot.next? {} opening = some ⟨.inside q, 0⟩ := by
    have hn : Place.next .outside opening = .inside q := by rw [Place.next, ho]; rfl
    unfold Spot.next?
    simp [hn]
  have hclose : Spot.read ⟨.inside q, 0⟩ [q] = some ([(q, false)], ⟨.behind q, 0⟩) := by
    have hn : Place.next (.inside q) q = .behind q := if_pos rfl
    refine Spot.read_cons_eq_some_iff.mpr ⟨⟨.behind q, 0⟩, [], ?_, rfl, rfl⟩
    unfold Spot.next?
    simp [hn]
  refine isField_iff.mpr ⟨(opening, false) :: ((doubled twice cs).map (·, false) ++ [(q, false)]),
    ⟨.behind q, 0⟩, ?_, rfl, ?_⟩
  · rw [String.toList_ofList, delimited]
    exact Spot.read_cons_eq_some_iff.mpr
      ⟨_, _, hopen, Spot.read_append (read_doubled_inside hq 0 cs) hclose, rfl⟩
  · rw [List.forall_mem_cons, List.forall_mem_append, List.forall_mem_singleton,
      List.forall_mem_map]
    exact ⟨rfl, fun _ _ => rfl, rfl⟩

end Template

/-! ## Names and literals -/

theorem Template.isBlank_of_isSimple {c : Char} (h : isSimple c = true) : isBlank c = false := by
  have hc : 45 ≤ c.toNat ∧ c.toNat ≤ 122 := by
    have hv : c.toNat = c.val.toNat := rfl
    unfold isSimple at h
    simp only [Bool.or_eq_true, decide_eq_true_eq] at h
    rcases h with (h | rfl) | rfl
    · unfold Char.isAlphanum Char.isAlpha Char.isUpper Char.isLower Char.isDigit at h
      simp only [Bool.or_eq_true, decide_eq_true_eq, ge_iff_le, UInt32.le_iff_toNat_le] at h
      simp at h
      omega
    · decide
    · decide
  simp only [isBlank, Bool.or_eq_false_iff, Bool.and_eq_false_iff, decide_eq_false_iff_not,
    beq_eq_false_iff_ne]
  omega

namespace Dialect

variable {d : Dialect} {sep : Char → Bool}

/-- **A quoted name is one field**, unless it claims to be quoted already. -/
theorem isField_quote {name : String} (h : d.Unquoted name) (hstar : sep '*' = false)
    (hdot : sep '.' = false) : IsField sep (d.quote name) := by
  have hpart : ∀ part, IsField sep (d.quotePart part) := by
    intro part
    unfold quotePart
    split
    · rename_i hp
      subst hp
      exact isField_of_inert (by simpa [isInert, isClosing, closing?] using hstar)
    · exact isField_delimited (by cases d <;> rfl) (by simp) part.toList
  unfold quote
  rw [if_neg h]
  refine isField_intercalate isMark_dot hdot ?_ ?_
  · rw [ne_eq, List.map_eq_nil_iff]
    exact List.splitOn_ne_nil '.' _
  · intro w hw
    obtain ⟨part, -, rfl⟩ := List.mem_map.mp hw
    exact hpart _

/-- **A literal is one field** where letters, digits, points and hyphens are no separators. -/
theorem isField_literal {v : Value} {s : String} (h : d.literal v = some s)
    (hsep : ∀ c, isSimple c = true → sep c = false) : IsField sep s := by
  rcases literal_cases h with ⟨t, rfl⟩ | hs
  · exact isField_delimited rfl (by simp [literalDoubles]) t.toList
  · refine isField_of_inert fun c hc => ?_
    have hne : ∀ x : Char, isSimple x = false → c ≠ x := by
      rintro x hx rfl
      rw [hs c hc] at hx
      cases hx
    refine ⟨?_, hne '(' rfl, hne ')' rfl, hsep c (hs c hc)⟩
    simp [isInert, isClosing, closing?, hne '\'' rfl, hne '"' rfl, hne '\x60' rfl, hne '[' rfl,
      hne ']' rfl]

end Dialect

/-! ## Words -/

namespace Template

/-- The words of a text: its fields between blanks. -/
def wordsOf (text : String) : Option (List String) :=
  (fields isBlank text).map (·.filter (· ≠ ""))

variable {x y : String}

/-- **The words of two texts with a blank between them.** -/
theorem wordsOf_append {xs ys : List String} (hx : wordsOf x = some xs) (hy : wordsOf y = some ys) :
    wordsOf (x ++ " " ++ y) = some (xs ++ ys) := by
  obtain ⟨fs, hf, rfl⟩ := Option.map_eq_some_iff.mp hx
  obtain ⟨gs, hg, rfl⟩ := Option.map_eq_some_iff.mp hy
  unfold wordsOf
  rw [fields_append isMark_blank rfl hf hg, Option.map_some, List.filter_append]

theorem wordsOf_isField (h : IsField isBlank x) (hne : x ≠ "") : wordsOf x = some [x] := by
  unfold wordsOf
  rw [h, Option.map_some, List.filter_singleton]
  simp [hne]

end Template
end SqlWeave
