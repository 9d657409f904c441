import SqlWeave.Mapping.Reading
import SqlWeave.Sample.Shelf

/-!
# Layouts that are kept

A layout is found from the names of a row and kept for the rows that follow, of which only the width
is looked at then. Letter case has no part in a layout, so a row whose names differ from those that
the layout was found from in letter case alone is read as by its own layout. A layout is kept once
it is found, whatever becomes of the record; it is not found exactly where no constructor fits. A
row of another width is refused and leaves the layout as it is.

Results:
* `Row.sameShape_iff`: rows have the same shape if their names are the same in small letters.
* `Mapping.layout_congr`: the layout depends on the names in small letters.
* `Entity.read_of_kept`: a row is read by a kept layout as by its own, and the layout stays.
* `Entity.isSome_of_read`: where reading does not fail for want of a constructor, a layout is kept.
* **`Entity.layout_transparent`**: rows are read one after another as each by itself.
-/

namespace SqlWeave

open Text Number

/-! ## Names in small letters -/

namespace Row

/-- Names in small letters. -/
def folded (names : List String) : List (List Char) := names.map fun n => n.toList.map Char.toLower

theorem length_folded (names : List String) : (folded names).length = names.length :=
  List.length_map _

/-- **Rows have the same shape if their names are the same in small letters.** -/
theorem sameShape_iff {r s : Row} : r.sameShape s = true ↔ folded r.names = folded s.names := by
  obtain ⟨as⟩ := r
  obtain ⟨bs⟩ := s
  change sameNames as bs = true ↔ folded (as.map _) = folded (bs.map _)
  induction as generalizing bs with
  | nil => cases bs <;> simp [sameNames, folded]
  | cons a as ih =>
    cases bs with
    | nil => simp [sameNames, folded]
    | cons b bs =>
      rw [sameNames, Bool.and_eq_true, sameIgnoringCase_iff, ih]
      simp only [folded, List.map_cons, List.cons.injEq]

end Row

open Row (folded)

namespace Mapping

variable {α : Type} {m : Mapping α} {ns ns' : List String} {p : Plan α} {l : Layout α}

/-! ## What depends on the names of a row -/

theorem hasName_congr (h : folded ns = folded ns') (n : String) : hasName ns n = hasName ns' n := by
  have hf : ∀ names, hasName names n = (folded names).any (· == n.toList.map Char.toLower) := by
    intro names
    unfold hasName folded
    rw [List.any_map]
    rfl
  rw [hf, hf, h]

theorem position?_congr (h : folded ns = folded ns') (n : String) :
    position? ns n = position? ns' n := by
  have hf : ∀ names, position? names n =
      (folded names).findIdx? (· == n.toList.map Char.toLower) := by
    intro names
    unfold position? folded
    rw [List.findIdx?_map]
    rfl
  rw [hf, hf, h]

theorem constructor?_congr (h : folded ns = folded ns') :
    m.constructor? ns = m.constructor? ns' := by
  unfold constructor?
  rw [funext (hasName_congr h)]

/-- Where no constructor fits there is no plan; that is the only failure. -/
theorem plan_cases (m : Mapping α) (ns : List String) :
    (∃ p, m.plan ns = .ok p) ∨
      m.plan ns = .error (.noSuitableConstructor m.typeName (", ".intercalate ns)) := by
  unfold plan
  cases m.constructor? ns with
  | some c => exact .inl ⟨_, rfl⟩
  | none =>
    cases m.default with
    | some a => exact .inl ⟨_, rfl⟩
    | none => exact .inr rfl

theorem plan_congr (h : folded ns = folded ns') (hp : m.plan ns = .ok p) : m.plan ns' = .ok p := by
  unfold plan at hp ⊢
  rw [← constructor?_congr h]
  cases hc : m.constructor? ns with
  | some c => simpa only [hc] using hp
  | none =>
    rw [hc] at hp
    cases hd : m.default with
    | some a => simpa only [hd] using hp
    | none =>
      rw [hd] at hp
      cases hp

theorem layout_of_plan (hp : m.plan ns = .ok p) : m.layout ns = .ok ⟨ns, p,
    (m.columns.filter fun c => !hasName p.consumed c.name).filterMap fun c =>
      (position? ns c.name).map fun i => (i, c)⟩ := by
  unfold layout
  rw [hp]
  rfl

theorem layout_of_plan_error {x : Error} (hp : m.plan ns = .error x) : m.layout ns = .error x := by
  unfold layout
  rw [hp]
  rfl

/-- A layout has the names that it was found from. -/
theorem columns_of_layout (hl : m.layout ns = .ok l) : l.columns = ns := by
  rcases m.plan_cases ns with ⟨p, hp⟩ | hp
  · rw [layout_of_plan hp] at hl
    cases hl
    rfl
  · rw [layout_of_plan_error hp] at hl
    cases hl

/-- **The layout depends on the names in small letters**, but for the names that it keeps. -/
theorem layout_congr (h : folded ns = folded ns') (hl : m.layout ns = .ok l) :
    m.layout ns' = .ok { l with columns := ns' } := by
  rcases m.plan_cases ns with ⟨p, hp⟩ | hp
  · rw [layout_of_plan hp] at hl
    cases hl
    rw [layout_of_plan (plan_congr h hp)]
    simp only [position?_congr h]
  · rw [layout_of_plan_error hp] at hl
    cases hl

/-- The layout kept, if there is one, was found from names that are the same in small letters. -/
def KeptFor (m : Mapping α) (names : List String) (kept : Option (Layout α)) : Prop :=
  ∀ l ∈ kept, ∃ ns, folded ns = folded names ∧ m.layout ns = .ok l

theorem keptFor_none (m : Mapping α) (names : List String) : m.KeptFor names none :=
  fun _ h => by cases h

theorem KeptFor.congr {kept : Option (Layout α)} (h : m.KeptFor ns kept)
    (hn : folded ns = folded ns') : m.KeptFor ns' kept := fun l hl => by
  obtain ⟨names, hnames, hlayout⟩ := h l hl
  exact ⟨names, hnames.trans hn, hlayout⟩

/-- A layout that is kept has the width of the rows. -/
theorem KeptFor.length_columns {r : Row} (h : m.KeptFor r.names (some l)) :
    l.columns.length = r.cells.length := by
  obtain ⟨ns, hns, hl⟩ := h l rfl
  have hlength := congrArg List.length hns
  rw [Row.length_folded, Row.length_folded] at hlength
  rw [columns_of_layout hl, hlength, Row.names, List.length_map]

end Mapping

/-! ## One row -/

namespace Entity

variable {α : Type} {e : Entity α} {kept : Option (Mapping.Layout α)} {l : Mapping.Layout α}
  {r : Row}

theorem pendingOf_congr {ns ns' : List String} (h : folded ns = folded ns') (owner : Nat)
    (r : Row) :
    e.pendingOf ns owner r = e.pendingOf ns' owner r := by
  unfold pendingOf
  simp only [Mapping.position?_congr h]

theorem read_of_layoutFor (h : e.layoutFor kept r = .ok l) (owner : Nat) :
    e.read kept owner r = (some l, (Mapping.readBy l r).map fun a =>
      (a, e.pendingOf l.columns owner r)) := by
  unfold read Mapping.read
  rw [h]
  rfl

theorem read_of_layoutFor_error {x : Error} (h : e.layoutFor kept r = .error x) (owner : Nat) :
    e.read kept owner r = (kept, .error x) := by
  unfold read Mapping.read
  rw [h]
  rfl

/-- **A row is read by a kept layout as by its own**, and the layout that is kept then is as good
for rows of its shape. -/
theorem read_of_kept (h : e.KeptFor r.names kept) (owner : Nat) :
    (e.read kept owner r).2 = (e.read none owner r).2 ∧
      e.KeptFor r.names (e.read kept owner r).1 := by
  cases kept with
  | none =>
    refine ⟨rfl, ?_⟩
    cases hl : e.layoutFor none r with
    | error x =>
      rw [read_of_layoutFor_error hl]
      exact Mapping.keptFor_none _ _
    | ok l =>
      rw [read_of_layoutFor hl]
      rintro _ ⟨⟩
      exact ⟨r.names, rfl, hl⟩
  | some l =>
    obtain ⟨ns, hns, hl⟩ := h l rfl
    have hkept : e.layoutFor (some l) r = .ok l := if_pos h.length_columns.symm
    have hown : e.layoutFor none r = .ok { l with columns := r.names } :=
      Mapping.layout_congr hns hl
    rw [read_of_layoutFor hkept, read_of_layoutFor hown]
    refine ⟨?_, h⟩
    rw [Mapping.columns_of_layout hl, pendingOf_congr hns]
    rfl

/-- **Where reading does not fail for want of a constructor, a layout is kept.** -/
theorem isSome_of_read {owner : Nat}
    (h : ∀ t cs, (e.read kept owner r).2 ≠ .error (.noSuitableConstructor t cs)) :
    (e.read kept owner r).1.isSome = true := by
  cases hl : e.layoutFor kept r with
  | ok l =>
    rw [read_of_layoutFor hl]
    rfl
  | error x =>
    rw [read_of_layoutFor_error hl] at h ⊢
    cases kept with
    | some l => rfl
    | none =>
      exfalso
      rcases e.plan_cases r.names with ⟨p, hp⟩ | hp
      · have hok := Mapping.layout_of_plan hp
        rw [show e.layoutFor none r = e.layout r.names from rfl, hok] at hl
        cases hl
      · have herror := Mapping.layout_of_plan_error hp
        rw [show e.layoutFor none r = e.layout r.names from rfl, herror] at hl
        cases hl
        exact h _ _ rfl

/-- A layout that is kept stays. -/
theorem isSome_read (h : kept.isSome = true) (owner : Nat) (r : Row) :
    (e.read kept owner r).1.isSome = true := by
  obtain ⟨l, rfl⟩ := Option.isSome_iff_exists.mp h
  exact Option.isSome_iff_exists.mpr ⟨l, Mapping.read_layout r⟩

/-- A row of another width is refused, and the layout stays. -/
theorem read_of_width (h : r.cells.length ≠ l.columns.length) (owner : Nat) :
    e.read (some l) owner r =
      (some l, .error (.decode "row" ("expected " ++ natText l.columns.length ++
        " columns, got " ++ natText r.cells.length))) := by
  have hwidth : e.layoutFor (some l) r = .error (.decode "row" ("expected " ++
      natText l.columns.length ++ " columns, got " ++ natText r.cells.length)) := if_neg h
  exact read_of_layoutFor_error hwidth owner

/-! ## Rows one after another -/

/-- What is read of rows one after another, each with the layout that is kept then. -/
def readEach (e : Entity α) (kept : Option (Mapping.Layout α)) :
    List Row → List (Result (α × List Pending))
  | [] => []
  | r :: rest => (e.read kept 0 r).2 :: e.readEach (e.read kept 0 r).1 rest

/-- The layout kept behind some rows. -/
def keptAfter (e : Entity α) (kept : Option (Mapping.Layout α)) (rows : List Row) :
    Option (Mapping.Layout α) := rows.foldl (fun kept r => (e.read kept 0 r).1) kept

theorem readEach_append (kept : Option (Mapping.Layout α)) (rows more : List Row) :
    e.readEach kept (rows ++ more) =
      e.readEach kept rows ++ e.readEach (e.keptAfter kept rows) more := by
  induction rows generalizing kept with
  | nil => rfl
  | cons r rest ih => exact congrArg (_ :: ·) (ih _)

/-- Rows of one shape are read as each by itself, and the layout kept behind them is good for rows
of that shape. -/
theorem readEach_of_kept {names : List String} {rows : List Row}
    (hr : ∀ r ∈ rows, folded r.names = folded names) (h : e.KeptFor names kept) :
    e.readEach kept rows = rows.map (fun r => (e.read none 0 r).2) ∧
      e.KeptFor names (e.keptAfter kept rows) := by
  induction rows generalizing kept with
  | nil => exact ⟨rfl, h⟩
  | cons r rest ih =>
    obtain ⟨hfirst, hrest⟩ := List.forall_mem_cons.mp hr
    obtain ⟨hread, hkept⟩ := read_of_kept (h.congr hfirst.symm) 0
    obtain ⟨hreads, hlast⟩ := ih hrest (hkept.congr hfirst)
    refine ⟨?_, hlast⟩
    rw [readEach, List.map_cons, hread, hreads]

theorem isSome_keptAfter (h : kept.isSome = true) (rows : List Row) :
    (e.keptAfter kept rows).isSome = true := by
  induction rows generalizing kept with
  | nil => exact h
  | cons r rest ih => exact ih (isSome_read h 0 r)

/-- Behind a row that did not fail for want of a constructor a layout is kept. -/
theorem isSome_of_readEach {rows : List Row}
    (h : ∃ x ∈ e.readEach kept rows, ∀ t cs, x ≠ .error (.noSuitableConstructor t cs)) :
    (e.keptAfter kept rows).isSome = true := by
  induction rows generalizing kept with
  | nil =>
    obtain ⟨x, hx, -⟩ := h
    cases hx
  | cons r rest ih =>
    obtain ⟨x, hmem, hx⟩ := h
    rcases List.mem_cons.mp hmem with rfl | hmem
    · exact isSome_keptAfter (isSome_of_read hx) rest
    · exact ih ⟨x, hmem, hx⟩

/-- **Rows are read one after another as each by itself.** Let rows have the shape of a first one:
as many columns, with names that are equal but for letter case. Reading them with the layout that is
kept gives for each the record and its pending members, or the failure, that reading it without one
gives. Behind a row that did not fail for want of a constructor, a row of another width is refused
with the two widths, and whatever rows come next are read as if it had not been there. -/
theorem layout_transparent (e : Entity α) (first : Row) (rows : List Row)
    (h : ∀ r ∈ rows, r.sameShape first = true) :
    e.readEach none rows = rows.map (fun r => (e.read none 0 r).2) ∧
      ((∃ x ∈ e.readEach none rows, ∀ t cs, x ≠ .error (.noSuitableConstructor t cs)) →
        ∀ odd : Row, odd.cells.length ≠ first.cells.length → ∀ next : List Row, ∃ readings,
          e.readEach none (rows ++ next) = e.readEach none rows ++ readings ∧
          e.readEach none (rows ++ odd :: next) = e.readEach none rows ++
            .error (.decode "row" ("expected " ++ natText first.cells.length ++
              " columns, got " ++ natText odd.cells.length)) :: readings) := by
  have hr : ∀ r ∈ rows, folded r.names = folded first.names :=
    fun r hr => Row.sameShape_iff.mp (h r hr)
  obtain ⟨hreads, hkept⟩ := readEach_of_kept hr (Mapping.keptFor_none e.toMapping first.names)
  refine ⟨hreads, fun hx odd hodd next => ⟨_, readEach_append none rows next, ?_⟩⟩
  obtain ⟨l, hl⟩ := Option.isSome_iff_exists.mp (isSome_of_readEach hx)
  rw [hl] at hkept
  rw [← hkept.length_columns] at hodd ⊢
  rw [readEach_append, hl, readEach, read_of_width hodd]

end Entity

namespace Sample.Book

/-- A book whose title is a number. -/
def misprint : Row := .ofPairs [("Id", .int 1), ("Title", .int 5), ("AuthorId", .null)]

/-- A book with names in other letters. -/
def faust : Row := .ofPairs [("ID", .int 2), ("title", .text "Faust"), ("authorid", .int 7)]

/-- A book without a title. -/
def nameless : Row := .ofPairs [("Id", .int 3)]

/-- Behind a book that cannot be read, the next is read, with its author pending; a row of another
width is refused, and the book read again. -/
theorem read_misprint_faust :
    entity.readEach none [misprint, faust] =
        [.error (.decode "Title" "expected text, got int"),
          .ok (⟨2, some "Faust", none, none⟩, [⟨0, 0, .int 7⟩])] ∧
      ∃ readings, entity.readEach none [misprint, faust, faust] =
          entity.readEach none [misprint, faust] ++ readings ∧
        entity.readEach none [misprint, faust, nameless, faust] =
          entity.readEach none [misprint, faust] ++
            .error (.decode "row" "expected 3 columns, got 1") :: readings := by
  have hshape : ∀ r ∈ [misprint, faust], r.sameShape misprint = true := by decide +kernel
  obtain ⟨hreads, hodd⟩ := entity.layout_transparent misprint [misprint, faust] hshape
  have hfirst : entity.readEach none [misprint, faust] =
      [.error (.decode "Title" "expected text, got int"),
        .ok (⟨2, some "Faust", none, none⟩, [⟨0, 0, .int 7⟩])] := hreads.trans rfl
  refine ⟨hfirst, hodd ⟨_, hfirst ▸ List.mem_cons_self, fun _ _ h => ?_⟩ nameless (by decide)
    [faust]⟩
  cases h

end Sample.Book
end SqlWeave
