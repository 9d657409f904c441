import SqlWeave.Mapping.Reading
import SqlWeave.Proofs.Mapping.Members
import SqlWeave.Sample.Shop

/-!
# A record is read back from its row

A record is written column by column, and the keys of foreign members behind the columns unless a
column holds them already. It is read by name: each column is looked for in the row and assigned to
a record that starts out fixed. The two meet in the names. If no two columns share one, the first
cell under the name of a column is the column's own (`value?_row`), so what is assigned is what was
written.

Results:
* `exists_foldlM_assign`: columns that are apart can all be assigned, and then hold what they were
  given.
* `pendingOf_eq`: the members left pending are read off the row by name.
* `read_row`: a record of lawful members is read back from its row.
-/

namespace SqlWeave

open Text

/-! ## Cells by name and by place -/

namespace Row

/-- The key that stands under a name, if there is one. -/
def key? (r : Row) (name : String) : Option Value := (r.value? name).filter fun v => !v.isNull

/-- The first cell of a name stands at the first place of the name. -/
theorem cell?_eq_bind_position? (r : Row) (name : String) :
    r.cell? name = (Mapping.position? r.names name).bind fun i => r.cells[i]? := by
  unfold cell? Mapping.position? names
  rw [List.findIdx?_map, List.find?_eq_bind_findIdx?_getElem?]
  rfl

theorem valueAt_position {r : Row} {name : String} {i : Nat}
    (h : Mapping.position? r.names name = some i) :
    Mapping.valueAt r i = (r.value? name).getD .null := by
  unfold Mapping.valueAt value?
  rw [cell?_eq_bind_position?, h]
  rfl

end Row

namespace MappedColumn

variable {α : Type}

/-- The cell of a column. -/
def cell (a : α) (c : MappedColumn α) : Cell := ⟨c.name, .value (c.read a)⟩

/-- Among columns of different names, each is found by its name. -/
theorem find?_cell {columns : List (MappedColumn α)}
    (hn : columns.Pairwise fun c d => sameIgnoringCase c.name d.name = false) (a : α)
    (others : List Cell) : ∀ c ∈ columns,
      (columns.map (cell a) ++ others).find? (fun x => sameIgnoringCase x.name c.name) =
        some (c.cell a) := by
  induction columns with
  | nil => exact fun _ hc => by cases hc
  | cons d rest ih =>
    obtain ⟨hd, hrest⟩ := List.pairwise_cons.mp hn
    refine List.forall_mem_cons.mpr ⟨?_, fun c hc => ?_⟩
    · exact List.find?_cons_of_pos (sameIgnoringCase_refl d.name)
    · have hne : ¬ sameIgnoringCase (cell a d).name c.name = true :=
        Bool.eq_false_iff.mp (hd c hc)
      rw [List.map_cons, List.cons_append, List.find?_cons_of_neg (by exact hne)]
      exact ih hrest c hc

/-! ## Assigning columns one after another -/

/-- **Columns that are apart hold what they were given last.** Assigning to each what is read of a
record succeeds, and afterwards each has it; a column that none of them changes is as before. -/
theorem exists_foldlM_assign {columns : List (MappedColumn α)}
    (hp : columns.Pairwise Apart) (hr : ∀ c ∈ columns, c.RoundTrips) (a b : α) :
    ∃ b', columns.foldlM (fun b c => c.assign (c.read a) b) b = .ok b' ∧
      (∀ c ∈ columns, c.read b' = c.read a) ∧
      ∀ d : MappedColumn α, (∀ c ∈ columns, c.Spares d) → d.read b' = d.read b := by
  induction columns generalizing b with
  | nil => exact ⟨b, rfl, fun _ hc => (by cases hc), fun _ _ => rfl⟩
  | cons c rest ih =>
    obtain ⟨hc, hrest⟩ := List.pairwise_cons.mp hp
    obtain ⟨hrc, hrr⟩ := List.forall_mem_cons.mp hr
    obtain ⟨b₁, hassign, hread⟩ := hrc a b
    obtain ⟨b', hfold, hall, hkept⟩ := ih hrest hrr b₁
    refine ⟨b', ?_, ?_, fun d hd => ?_⟩
    · rw [List.foldlM_cons, hassign]
      exact hfold
    · have hb' : c.read b' = c.read b₁ := hkept c fun d hd => (hc d hd).2
      exact List.forall_mem_cons.mpr ⟨hb'.trans hread, hall⟩
    · obtain ⟨hdc, hdr⟩ := List.forall_mem_cons.mp hd
      exact (hkept d hdr).trans (hdc _ b b₁ hassign)

end MappedColumn

namespace Mapping

variable {α : Type}

/-- Columns found by name in a row are assigned what stands there. -/
theorem foldlM_natives {r : Row} {a : α} : ∀ {columns : List (MappedColumn α)},
    (∀ c ∈ columns, r.value? c.name = some (c.read a)) → ∀ b : α,
    ((columns.filterMap fun c => (position? r.names c.name).map fun i => (i, c)).foldlM
        (fun b (i, c) => c.assign (valueAt r i) b) b : Result α) =
      columns.foldlM (fun b c => c.assign (c.read a) b) b
  | [], _, _ => rfl
  | c :: rest, h, b => by
    obtain ⟨hc, hrest⟩ := List.forall_mem_cons.mp h
    cases hi : position? r.names c.name with
    | none =>
      unfold Row.value? at hc
      rw [Row.cell?_eq_bind_position?, hi] at hc
      cases hc
    | some i =>
      have hv : valueAt r i = c.read a := by rw [Row.valueAt_position hi, hc]; rfl
      rw [List.filterMap_cons, hi]
      change ((c.assign (valueAt r i) b >>= fun b' => _) : Result α) = _
      rw [List.foldlM_cons, hv]
      exact congrArg (c.assign (c.read a) b >>= ·) (funext fun b' => foldlM_natives hrest b')

end Mapping

namespace Entity

variable {α : Type} {e : Entity α}

/-- The foreign members whose columns hold a key in a row, in their order, each with its key. -/
def keysIn (e : Entity α) (owner : Nat) (r : Row) : List Pending :=
  e.foreign.zipIdx.filterMap fun (f, i) => (r.key? f.sourceColumn).map fun key => ⟨owner, i, key⟩

/-- **The members left pending are those whose columns hold a key.** -/
theorem pendingOf_eq (e : Entity α) (owner : Nat) (r : Row) :
    e.pendingOf r.names owner r = e.keysIn owner r := by
  unfold pendingOf keysIn
  rw [List.filter_filterMap]
  congr 1
  funext ⟨f, i⟩
  unfold Row.key?
  dsimp only
  cases hp : Mapping.position? r.names f.sourceColumn with
  | none =>
    have hv : r.value? f.sourceColumn = none := by
      unfold Row.value?
      rw [Row.cell?_eq_bind_position?, hp]
      rfl
    rw [hv]
    rfl
  | some place =>
    rw [Option.map_some, Row.valueAt_position hp]
    cases r.value? f.sourceColumn with
    | none => rfl
    | some v => cases hn : v.isNull <;> simp [Option.filter, hn]

/-- Foreign keys stand behind the cells of a row. -/
theorem cells_foldl_withForeignKey (a : α) : ∀ (fs : List (ForeignMember α)) (r : Row),
    ∃ others, (fs.foldl (withForeignKey a) r).cells = r.cells ++ others := by
  intro fs
  induction fs with
  | nil => exact fun r => ⟨[], (List.append_nil _).symm⟩
  | cons f fs ih =>
    intro r
    rw [List.foldl_cons]
    obtain ⟨others, ho⟩ := ih (withForeignKey a r f)
    rw [ho]
    unfold withForeignKey
    split
    · exact ⟨others, rfl⟩
    · exact ⟨_ :: others, List.append_assoc _ _ _⟩

/-- A row starts with the cells of the columns. -/
theorem cells_row (e : Entity α) (a : α) :
    ∃ others, (e.row a).cells = e.columns.map (MappedColumn.cell a) ++ others := by
  obtain ⟨others, ho⟩ := cells_foldl_withForeignKey a e.owned
    (Row.ofPairs (e.columns.map fun c => (c.name, c.read a)))
  refine ⟨others, ho.trans ?_⟩
  unfold Row.ofPairs
  rw [List.map_map]
  rfl

/-- **Under the name of a column stands what the column has.** -/
theorem value?_row (hn : e.columns.Pairwise fun c d => sameIgnoringCase c.name d.name = false)
    (a : α) : ∀ c ∈ e.columns, (e.row a).value? c.name = some (c.read a) := by
  intro c hc
  obtain ⟨others, ho⟩ := e.cells_row a
  unfold Row.value? Row.cell?
  rw [ho, MappedColumn.find?_cell hn a others c hc]
  rfl

/-- The layout of a row where records start out as a fixed one: every column is assigned. -/
def layoutOf (e : Entity α) (start : α) (r : Row) : Mapping.Layout α where
  columns := r.names
  plan := .start start
  natives := e.columns.filterMap fun c =>
    (Mapping.position? r.names c.name).map fun i => (i, c)

theorem layout_eq (hc : e.constructors = []) {start : α} (hs : e.default = some start) (r : Row) :
    e.toMapping.layout r.names = .ok (e.layoutOf start r) := by
  have hplan : e.toMapping.plan r.names = .ok (.start start) := by
    unfold Mapping.plan Mapping.constructor?
    rw [hc, hs]
    rfl
  have hall : (e.columns.filter fun c =>
      !Mapping.hasName (Mapping.Plan.start start).consumed c.name) = e.columns :=
    List.filter_eq_self.mpr fun _ _ => rfl
  unfold Mapping.layout layoutOf
  rw [hplan]
  change Except.ok (Mapping.Layout.mk _ _ (List.filterMap _ (e.columns.filter _))) = _
  rw [hall]

/-- **A record is read back from its row.** Let the mapping of a record type list lawful members
under names that differ by more than letter case, and start from a fixed record. Then the row of any
record is read as a record that agrees with it in every column, those of inner records included, and
leaves pending each foreign member whose column holds a key, in the order of the members. -/
theorem read_row (members : Members α) (hm : e.columns = members.columns) (hl : members.Lawful)
    (hn : e.columns.Pairwise fun c d => sameIgnoringCase c.name d.name = false)
    (hc : e.constructors = []) {start : α} (hs : e.default = some start) (a : α) (owner : Nat) :
    ∃ layout a', e.read none owner (e.row a) =
        (some layout, .ok (a', e.keysIn owner (e.row a))) ∧
      ∀ c ∈ e.columns, c.read a' = c.read a := by
  have hp : e.columns.Pairwise MappedColumn.Apart := hm ▸ members.pairwise_apart_columns hl
  have hr : ∀ c ∈ e.columns, c.RoundTrips := hm ▸ members.roundTrips_of_mem_columns hl
  obtain ⟨a', hfold, hread, -⟩ := MappedColumn.exists_foldlM_assign hp hr a start
  refine ⟨e.layoutOf start (e.row a), a', ?_, hread⟩
  have hby : Mapping.readBy (e.layoutOf start (e.row a)) (e.row a) = .ok a' :=
    (Mapping.foldlM_natives (value?_row hn a) start).trans hfold
  unfold Entity.read Mapping.read Mapping.layoutFor
  rw [layout_eq hc hs]
  simp only [hby]
  exact congrArg (fun ps => (some (e.layoutOf start (e.row a)), Except.ok (a', ps)))
    (e.pendingOf_eq owner (e.row a))

end Entity

namespace Sample

/-- The members of an address. -/
def Address.members : Members Address :=
  .column "City" "City" false false (·.city) (fun v a => { a with city := v }) <|
    .column "Zip" "Zip" false false (·.zip) (fun v a => { a with zip := v }) .nil

/-- The members of a customer, with those of the address inside. -/
def Customer.members : Members Customer :=
  .column "Id" "Id" true true (·.id) (fun v a => { a with id := v }) <|
    .column "Name" "Name" false false (·.name) (fun v a => { a with name := v }) <|
      .nested "Address" "Address" (·.address) (fun v a => { a with address := v })
        Address.members .nil

theorem Address.lawful_members : Address.members.Lawful := by
  refine ⟨fun _ _ => rfl, fun _ => rfl, ?_, fun _ _ => rfl, fun _ => rfl, ?_, trivial⟩
  · exact List.forall_mem_singleton.mpr ⟨fun _ _ => rfl, fun _ _ => rfl⟩
  · exact fun _ h => by cases h

theorem Customer.lawful_members : Customer.members.Lawful := by
  refine ⟨fun _ _ => rfl, fun _ => rfl, ?_, fun _ _ => rfl, fun _ => rfl, ?_, fun _ _ => rfl,
    Address.lawful_members, ?_, trivial⟩
  · exact List.forall_mem_cons.mpr ⟨⟨fun _ _ => rfl, fun _ _ => rfl⟩,
      List.forall_mem_singleton.mpr ⟨fun _ _ => rfl, fun _ _ => rfl⟩⟩
  · exact List.forall_mem_singleton.mpr ⟨fun _ _ => rfl, fun _ _ => rfl⟩
  · exact fun _ h => by cases h

/-- A customer with an address. -/
def Customer.anna : Customer := ⟨7, "Anna", ⟨"Bern", "3000"⟩, []⟩

theorem Customer.read_row_anna : ∃ layout a',
    Customer.entity.read none 0 (Customer.entity.row Customer.anna) =
        (some layout, .ok (a', [⟨0, 0, .int 7⟩])) ∧
      ∀ c ∈ Customer.entity.columns, c.read a' = c.read Customer.anna :=
  Entity.read_row Customer.members rfl Customer.lawful_members (by decide +kernel) rfl rfl
    Customer.anna 0

end Sample
end SqlWeave
