import Mathlib.Data.List.Forall2
import SqlWeave.Cursor

/-!
# Rows held in memory are read back

A cursor over rows has the names of the first one, and of each row what its cells hold. What the
cells of a later row are called is not kept; how many there are is all that decides whether its line
becomes a row again. Names and values are paired only behind that test, so none is left out.

`Reads` takes rows off by `next` until there are no more or one is refused, and says what is left.
`readLines` goes through the lines by itself, and comes to the same.

Results:
* `Row.eq_of_contents`: a row is its names and what it holds.
* `Row.renamed_ofValues`: the line of a row becomes the row under other names.
* `Cursor.reads_iff`: going through the lines is taking rows off one by one.
* `Cursor.reads_append`: lines of the right width in front become rows in front.
* **`Cursor.readAll_ofRows`**: rows are read back up to the first of another width.
-/

namespace SqlWeave

open Number

/-! ## Rows under other names -/

namespace Row

/-- What the cells hold. -/
def contents (r : Row) : List Param := r.cells.map (·.value)

/-- No cell holds a fragment. -/
def Plain (r : Row) : Prop := ∀ c ∈ r.cells, ∃ v, c.value = .value v

/-- The values of the cells, with null for a fragment. -/
def line (r : Row) : List Value := r.cells.map fun c => c.plain?.getD .null

theorem plain_ofPairs (cells : List (String × Value)) : (ofPairs cells).Plain := by
  intro c hc
  obtain ⟨cell, -, rfl⟩ := List.mem_map.mp hc
  exact ⟨cell.2, rfl⟩

/-- A row has as many cells as there are names. -/
def Fits (names : List String) (r : Row) : Prop := r.cells.length = names.length

instance (names : List String) (r : Row) : Decidable (Fits names r) :=
  inferInstanceAs (Decidable (_ = _))

/-- A row has some names and holds what another row does. -/
structure Renamed (names : List String) (r s : Row) : Prop where
  names : s.names = names
  contents : s.contents = r.contents

/-- The names of the first row. -/
def header : List Row → List String
  | [] => []
  | first :: _ => first.names

variable {r s : Row} {names : List String}

/-- **A row is its names and what it holds.** -/
theorem eq_of_contents (hn : s.names = r.names) (hc : s.contents = r.contents) : s = r := by
  have hpairs : s.cells.map (fun c => (c.name, c.value)) =
      r.cells.map (fun c => (c.name, c.value)) := by
    rw [← List.zip_map', ← List.zip_map']
    exact congrArg₂ List.zip hn hc
  have hinj : Function.Injective fun c : Cell => (c.name, c.value) := by
    rintro ⟨n, p⟩ ⟨n', p'⟩ h
    cases h
    rfl
  exact congrArg Row.mk (List.map_injective_iff.mpr hinj hpairs)

/-- Rows under the names that they have are themselves. -/
theorem eq_of_renamed {rows read : List Row} (h : List.Forall₂ (Renamed names) rows read)
    (hn : ∀ r ∈ rows, r.names = names) : read = rows := by
  induction h with
  | nil => rfl
  | cons hr _ ih =>
    obtain ⟨hfirst, hrest⟩ := List.forall_mem_cons.mp hn
    rw [eq_of_contents (hr.names.trans hfirst.symm) hr.contents, ih hrest]

theorem fits_of_names (h : r.names = names) : Fits names r := by
  rw [← h]
  exact (List.length_map _).symm

theorem length_line (r : Row) : r.line.length = r.cells.length := List.length_map _

/-- A row without fragments holds the values of its line. -/
theorem contents_eq_line (h : r.Plain) : r.contents = r.line.map .value := by
  unfold contents line
  rw [List.map_map]
  refine List.map_congr_left fun c hc => ?_
  obtain ⟨v, hv⟩ := h c hc
  simp only [Function.comp_apply, Cell.plain?, hv, Option.getD_some]

theorem contents_ofValues {values : List Value} (h : values.length = names.length) :
    (ofValues names values).contents = values.map .value := by
  have hsnd : (names.zip values).map Prod.snd = values := List.map_snd_zip (Nat.le_of_eq h)
  unfold ofValues ofPairs contents
  rw [List.map_map]
  conv_rhs => rw [← hsnd, List.map_map]
  rfl

/-- **The line of a row becomes the row under other names**, if there are as many as it has
cells. -/
theorem renamed_ofValues (hp : r.Plain) (hf : Fits names r) :
    Renamed names r (ofValues names r.line) where
  names := by rw [names_ofValues, length_line, hf, List.take_length]
  contents := by rw [contents_ofValues ((length_line r).trans hf), contents_eq_line hp]

end Row

namespace Cursor

/-! ## One row after another -/

/-- Rows are taken off a cursor one by one until there are no more or a line is refused: the rows,
the failure if there was one, and the cursor that is left. -/
inductive Reads : Cursor → List Row → Option Error → Cursor → Prop
  | finished {c c' : Cursor} (h : c.next = (.ok none, c')) : Reads c [] none c'
  | refused {c c' : Cursor} {e : Error} (h : c.next = (.error e, c')) : Reads c [] (some e) c'
  | row {c c' c'' : Cursor} {r : Row} {rows : List Row} {stop : Option Error}
      (h : c.next = (.ok (some r), c')) (rest : Reads c' rows stop c'') :
      Reads c (r :: rows) stop c''

variable {c c' : Cursor} {rows : List Row} {stop : Option Error} {columns : List String}

theorem columns_next (c : Cursor) : c.next.2.columns = c.columns := by
  obtain ⟨columns, _ | ⟨line, rest⟩⟩ := c <;> rfl

/-- Going through the lines begins with taking the next row. -/
theorem readLines_eq_next (c : Cursor) : readLines c.columns c.lines =
    match c.next with
    | (.ok none, c') => ([], none, c'.lines)
    | (.error e, c') => ([], some e, c'.lines)
    | (.ok (some r), c') =>
      let (rows, stop, left) := readLines c'.columns c'.lines
      (r :: rows, stop, left) := by
  obtain ⟨columns, _ | ⟨line, rest⟩⟩ := c
  · rfl
  · simp only [next, readLines]
    cases rowOf columns line <;> rfl

theorem Reads.readLines_eq (h : Reads c rows stop c') :
    c'.columns = c.columns ∧ readLines c.columns c.lines = (rows, stop, c'.lines) := by
  induction h with
  | @finished c _ h | @refused c _ _ h =>
    have hcolumns := c.columns_next
    rw [readLines_eq_next, h]
    rw [h] at hcolumns
    exact ⟨hcolumns, rfl⟩
  | @row c _ _ _ _ _ h _ ih =>
    have hcolumns := c.columns_next
    rw [readLines_eq_next, h]
    rw [h] at hcolumns
    refine ⟨ih.1.trans hcolumns, ?_⟩
    simp only [ih.2]

/-- Taking rows off comes to an end, since each takes a line. -/
theorem reads_readLines (columns : List String) (lines : List (Result (List Value))) :
    Reads ⟨columns, lines⟩ (readLines columns lines).1 (readLines columns lines).2.1
      ⟨columns, (readLines columns lines).2.2⟩ := by
  induction lines with
  | nil => exact .finished rfl
  | cons line rest ih =>
    have hnext : next ⟨columns, line :: rest⟩ = ((rowOf columns line).map some, ⟨columns, rest⟩) :=
      rfl
    rw [readLines]
    cases hrow : rowOf columns line with
    | error e => exact .refused (hnext.trans (by rw [hrow]; rfl))
    | ok r => exact .row (hnext.trans (by rw [hrow]; rfl)) ih

/-- **Going through the lines is taking rows off one by one.** -/
theorem reads_iff : Reads c rows stop c' ↔
    c'.columns = c.columns ∧ readLines c.columns c.lines = (rows, stop, c'.lines) := by
  refine ⟨Reads.readLines_eq, fun ⟨hcolumns, hlines⟩ => ?_⟩
  have h := reads_readLines c.columns c.lines
  rw [hlines, ← hcolumns] at h
  obtain ⟨columns, lines⟩ := c
  cases hcolumns
  exact h

theorem readAll_of_reads (h : Reads c rows none c') : c.readAll = .ok rows := by
  rw [readAll, (reads_iff.mp h).2]

theorem readAll_of_refused {e : Error} (h : Reads c rows (some e) c') : c.readAll = .error e := by
  rw [readAll, (reads_iff.mp h).2]

/-! ## Lines of the right width -/

/-- The failure of a line with so many values. -/
def misfit (columns : List String) (n : Nat) : Error :=
  .decode "row" ("expected " ++ natText columns.length ++ " values, got " ++ natText n)

theorem next_of_width {values : List Value} (h : values.length = columns.length)
    (rest : List (List Value)) :
    (ofLines columns (values :: rest)).next =
      (.ok (some (Row.ofValues columns values)), ofLines columns rest) := by
  have hrow : rowOf columns (.ok values) = .ok (Row.ofValues columns values) := if_pos h
  change ((rowOf columns (.ok values)).map some, _) = _
  rw [hrow]
  rfl

theorem next_of_misfit {values : List Value} (h : values.length ≠ columns.length)
    (rest : List (List Value)) :
    (ofLines columns (values :: rest)).next =
      (.error (misfit columns values.length), ofLines columns rest) := by
  have hrow : rowOf columns (.ok values) = .error (misfit columns values.length) := if_neg h
  change ((rowOf columns (.ok values)).map some, _) = _
  rw [hrow]
  rfl

/-- **Lines of the right width in front become rows in front.** -/
theorem reads_append {lines more : List (List Value)}
    (hwidth : ∀ values ∈ lines, values.length = columns.length)
    (h : Reads (ofLines columns more) rows stop c') :
    Reads (ofLines columns (lines ++ more)) (lines.map (Row.ofValues columns) ++ rows) stop c' := by
  induction lines with
  | nil => exact h
  | cons values rest ih =>
    obtain ⟨hfirst, hrest⟩ := List.forall_mem_cons.mp hwidth
    exact .row (next_of_width hfirst _) (ih hrest)

/-! ## Rows held in memory -/

theorem ofRows_eq (rows : List Row) :
    ofRows rows = ofLines (Row.header rows) (rows.map Row.line) := by
  cases rows <;> rfl

/-- Rows that have as many cells as there are columns become rows under the names of these, whatever
comes behind them. -/
theorem reads_of_fits {more : List (List Value)} {read : List Row}
    (hplain : ∀ r ∈ rows, r.Plain) (hfits : ∀ r ∈ rows, Row.Fits columns r)
    (h : Reads (ofLines columns more) read stop c') :
    ∃ renamed, List.Forall₂ (Row.Renamed columns) rows renamed ∧
      Reads (ofLines columns (rows.map Row.line ++ more)) (renamed ++ read) stop c' := by
  have hwidth : ∀ values ∈ rows.map Row.line, values.length = columns.length :=
    List.forall_mem_map.mpr fun r hr => (Row.length_line r).trans (hfits r hr)
  refine ⟨_, ?_, reads_append hwidth h⟩
  rw [List.map_map, List.forall₂_map_right_iff, List.forall₂_same]
  exact fun r hr => Row.renamed_ofValues (hplain r hr) (hfits r hr)

theorem reads_all (hplain : ∀ r ∈ rows, r.Plain) (hfits : ∀ r ∈ rows, Row.Fits columns r) :
    ∃ read, List.Forall₂ (Row.Renamed columns) rows read ∧
      Reads (ofLines columns (rows.map Row.line)) read none (ofLines columns []) := by
  have hend : Reads (ofLines columns []) [] none (ofLines columns []) := .finished rfl
  obtain ⟨read, hread, hreads⟩ := reads_of_fits hplain hfits hend
  rw [List.append_nil, List.append_nil] at hreads
  exact ⟨read, hread, hreads⟩

/-- Where rows differ from the columns in width, there is a first one that does. -/
theorem exists_first_odd (h : ¬ ∀ r ∈ rows, Row.Fits columns r) :
    ∃ before odd after, rows = before ++ odd :: after ∧ (∀ r ∈ before, Row.Fits columns r) ∧
      ¬ Row.Fits columns odd := by
  cases hfind : rows.find? (fun r => !decide (Row.Fits columns r)) with
  | none =>
    refine absurd (fun r hr => ?_) h
    simpa using List.find?_eq_none.mp hfind r hr
  | some odd =>
    obtain ⟨hodd, before, after, hrows, hbefore⟩ := List.find?_eq_some_iff_append.mp hfind
    exact ⟨before, odd, after, hrows, by simpa using hbefore, by simpa using hodd⟩

/-- The first row of another width is refused, and those behind it are left. -/
theorem reads_up_to_odd (hplain : ∀ r ∈ rows, r.Plain) (h : ¬ ∀ r ∈ rows, Row.Fits columns r) :
    ∃ before odd after read, rows = before ++ odd :: after ∧
      (∀ r ∈ before, Row.Fits columns r) ∧ ¬ Row.Fits columns odd ∧
      List.Forall₂ (Row.Renamed columns) before read ∧
      Reads (ofLines columns (rows.map Row.line)) read (some (misfit columns odd.cells.length))
        (ofLines columns (after.map Row.line)) := by
  obtain ⟨before, odd, after, rfl, hfits, hodd⟩ := exists_first_odd h
  have hstop : Reads (ofLines columns (odd.line :: after.map Row.line)) []
      (some (misfit columns odd.line.length)) (ofLines columns (after.map Row.line)) :=
    .refused (next_of_misfit (fun h => hodd ((Row.length_line odd).symm.trans h)) _)
  obtain ⟨read, hread, hreads⟩ :=
    reads_of_fits (fun r hr => hplain r (List.mem_append_left _ hr)) hfits hstop
  rw [List.append_nil, Row.length_line] at hreads
  refine ⟨before, odd, after, read, rfl, hfits, hodd, hread, ?_⟩
  rw [List.map_append, List.map_cons]
  exact hreads

/-- **Rows are read back up to the first of another width.** Let no cell hold a fragment. If all
rows have the names of the first, in its order, the rows themselves are read. All are read exactly
if each has as many cells as the first; what is read is then those rows, in their order, under the
names of the first, and nothing is left. Otherwise one row is the first of another width. Reading
fails there with the two widths; the rows before it have been read, and those behind it are left. -/
theorem readAll_ofRows (rows : List Row) (hplain : ∀ r ∈ rows, r.Plain) :
    ((∀ r ∈ rows, r.names = Row.header rows) → (ofRows rows).readAll = .ok rows) ∧
      ((∃ read, (ofRows rows).readAll = .ok read) ↔ ∀ r ∈ rows, Row.Fits (Row.header rows) r) ∧
      (∀ read, (ofRows rows).readAll = .ok read →
        List.Forall₂ (Row.Renamed (Row.header rows)) rows read ∧
          Reads (ofRows rows) read none (ofLines (Row.header rows) [])) ∧
      ((¬ ∀ r ∈ rows, Row.Fits (Row.header rows) r) → ∃ before odd after read,
        rows = before ++ odd :: after ∧ (∀ r ∈ before, Row.Fits (Row.header rows) r) ∧
          ¬ Row.Fits (Row.header rows) odd ∧
          (ofRows rows).readAll = .error (misfit (Row.header rows) odd.cells.length) ∧
          List.Forall₂ (Row.Renamed (Row.header rows)) before read ∧
          Reads (ofRows rows) read (some (misfit (Row.header rows) odd.cells.length))
            (ofLines (Row.header rows) (after.map Row.line))) := by
  rw [ofRows_eq]
  generalize Row.header rows = names
  have hfits_of_read {read : List Row}
      (h : (ofLines names (rows.map Row.line)).readAll = .ok read) :
      ∀ r ∈ rows, Row.Fits names r := by
    by_contra hnot
    obtain ⟨_, _, _, _, -, -, -, -, hreads⟩ := reads_up_to_odd hplain hnot
    cases (readAll_of_refused hreads).symm.trans h
  refine ⟨fun hnames => ?_, ⟨fun ⟨_, h⟩ => hfits_of_read h, fun hfits => ?_⟩, fun read h => ?_,
    fun hnot => ?_⟩
  · obtain ⟨read, hread, hreads⟩ :=
      reads_all hplain fun r hr => Row.fits_of_names (hnames r hr)
    rw [readAll_of_reads hreads, Row.eq_of_renamed hread hnames]
  · obtain ⟨read, -, hreads⟩ := reads_all hplain hfits
    exact ⟨read, readAll_of_reads hreads⟩
  · obtain ⟨read', hread, hreads⟩ := reads_all hplain (hfits_of_read h)
    cases (readAll_of_reads hreads).symm.trans h
    exact ⟨hread, hreads⟩
  · obtain ⟨before, odd, after, read, hrows, hfits, hodd, hread, hreads⟩ :=
      reads_up_to_odd hplain hnot
    exact ⟨before, odd, after, read, hrows, hfits, hodd, readAll_of_refused hreads, hread, hreads⟩

end Cursor

namespace Sample

open Cursor (ofRows ofLines Reads)

/-- Two rows of one header. -/
def level : List Row :=
  [.ofPairs [("A", .int 1), ("B", .text "x")], .ofPairs [("A", .int 2), ("B", .text "y")]]

/-- Rows of which the second has names of its own and the third lacks a cell. -/
def ragged : List Row :=
  [.ofPairs [("A", .int 1), ("B", .text "x")], .ofPairs [("b", .null), ("a", .int 2)],
    .ofPairs [("A", .int 3)], .ofPairs [("A", .int 4), ("B", .text "y")]]

/-- Two rows are read before the third is refused, and the fourth is left. -/
theorem readAll_level_ragged :
    (∀ r ∈ level, r.Plain) ∧ (ofRows level).readAll = .ok level ∧ (∀ r ∈ ragged, r.Plain) ∧
      (ofRows ragged).readAll = .error (.decode "row" "expected 2 values, got 1") ∧
      ∃ read, List.Forall₂ (Row.Renamed ["A", "B"]) (ragged.take 2) read ∧
        Reads (ofRows ragged) read (some (.decode "row" "expected 2 values, got 1"))
          (ofLines ["A", "B"] [[.int 4, .text "y"]]) := by
  have hlevel : ∀ r ∈ level, r.Plain := by
    simp only [level, List.forall_mem_cons, Row.plain_ofPairs, true_and]
    exact List.forall_mem_nil _
  have hragged : ∀ r ∈ ragged, r.Plain := by
    simp only [ragged, List.forall_mem_cons, Row.plain_ofPairs, true_and]
    exact List.forall_mem_nil _
  refine ⟨hlevel, (Cursor.readAll_ofRows level hlevel).1 (by decide), hragged, ?_⟩
  obtain ⟨before, odd, after, read, hrows, hfits, hodd, herror, hread, hreads⟩ :=
    (Cursor.readAll_ofRows ragged hragged).2.2.2 (by decide)
  -- The two rows in front have two cells and the third has one, so no other row is the first.
  obtain _ | ⟨first, _ | ⟨second, _ | ⟨third, rest⟩⟩⟩ := before
  · cases hrows
    exact absurd rfl hodd
  · cases hrows
    exact absurd rfl hodd
  · cases hrows
    exact ⟨herror, read, hread, hreads⟩
  · have hthird : some (Row.ofPairs [("A", .int 3)]) = some third := congrArg (·[2]?) hrows
    cases hthird
    exact absurd (hfits _ (by simp)) (by decide : ¬ Row.Fits ["A", "B"] (.ofPairs [("A", .int 3)]))

end Sample
end SqlWeave
