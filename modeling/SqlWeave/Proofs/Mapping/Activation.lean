import SqlWeave.Proofs.Mapping.Layout

/-!
# How records are made

The record of a row is made by a constructor whose parameters are all among the row's columns, the
one with most parameters and of several the first; where none fits, reading starts from the default.
Then the columns that the row has and the constructor did not take are set, each once, in the order
in which the mapping lists them, with the value of the first cell of their name, until one of them
fails.

Results:
* `Mapping.best_of_constructor?`: the constructor that is chosen is the best.
* `Mapping.course_foldlM`: setting columns one after another is what the loop of reading does.
* **`Entity.read_activates`**: how the record of a row that is read first is made.
-/

namespace SqlWeave

open Text Number

/-- The value of the first cell of a name; a fragment has none. -/
def Row.valueOrNull (r : Row) (name : String) : Value := (r.value? name).getD .null

/-- Some columns include all parameters of a constructor. -/
def Constructor.Fits {α : Type} (c : Constructor α) (columns : List String) : Prop :=
  ∀ p ∈ c.params, ∃ n ∈ columns, sameIgnoringCase n p = true

namespace Mapping

variable {α : Type} {m : Mapping α} {ns : List String} {c d : Constructor α} {i : Nat} {r : Row}
  {a : α} {x y : Result α} {e : Error}

theorem hasName_iff {n : String} :
    hasName ns n = true ↔ ∃ k ∈ ns, sameIgnoringCase k n = true := List.any_eq_true

theorem fits_iff : c.Fits ns ↔ c.params.all (hasName ns) = true := by
  simp only [Constructor.Fits, List.all_eq_true, hasName_iff]

/-! ## The best constructor -/

/-- The constructor at a place is the best for some columns: it fits, none that fits has more
parameters, and those that have as many stand behind it. -/
structure Best (m : Mapping α) (columns : List String) (i : Nat) (c : Constructor α) : Prop where
  registered : m.constructors[i]? = some c
  fits : c.Fits columns
  most (j : Nat) (d : Constructor α) : m.constructors[j]? = some d → d.Fits columns →
    d.params.length ≤ c.params.length
  first (j : Nat) (d : Constructor α) : m.constructors[j]? = some d → d.Fits columns →
    d.params.length = c.params.length → i ≤ j

/-- There is one best constructor at most. -/
theorem Best.unique {j : Nat} (hc : m.Best ns i c) (hd : m.Best ns j d) : i = j ∧ c = d := by
  have hcd := hd.most i c hc.registered hc.fits
  have hdc := hc.most j d hd.registered hd.fits
  have hij := hc.first j d hd.registered hd.fits (by omega)
  have hji := hd.first i c hc.registered hc.fits (by omega)
  obtain rfl : i = j := by omega
  exact ⟨rfl, Option.some.inj (hc.registered.symm.trans hd.registered)⟩

theorem largest_eq_none_iff {cs : List (Constructor α)} : largest cs = none ↔ cs = [] := by
  cases cs with
  | nil => exact ⟨fun _ => rfl, fun _ => rfl⟩
  | cons c rest =>
    refine ⟨fun h => ?_, fun h => nomatch h⟩
    unfold largest at h
    split at h
    · cases h
    · split at h <;> cases h

theorem largest_cons {cs : List (Constructor α)} (h : largest cs = some d) :
    largest (c :: cs) = if c.params.length < d.params.length then some d else some c := by
  rw [largest, h]

/-- The largest of the constructors that pass a test has more parameters than those before it that
pass, and as many at least as those behind it. -/
theorem exists_of_largest {cs : List (Constructor α)} {p : Constructor α → Bool}
    (h : largest (cs.filter p) = some c) :
    p c = true ∧ ∃ before after, cs = before ++ c :: after ∧
      (∀ d ∈ before, p d = true → d.params.length < c.params.length) ∧
      ∀ d ∈ after, p d = true → d.params.length ≤ c.params.length := by
  induction cs generalizing c with
  | nil => cases h
  | cons d rest ih =>
    by_cases hd : p d = true
    · rw [List.filter_cons_of_pos hd] at h
      cases hl : largest (rest.filter p) with
      | none =>
        rw [largest_eq_none_iff] at hl
        rw [hl] at h
        cases h
        rw [List.filter_eq_nil_iff] at hl
        exact ⟨hd, [], rest, rfl, by simp, fun k hk hp => absurd hp (hl k hk)⟩
      | some k =>
        obtain ⟨hk, before, after, rfl, hbefore, hafter⟩ := ih hl
        rw [largest_cons hl] at h
        by_cases hless : d.params.length < k.params.length
        · rw [if_pos hless] at h
          cases h
          exact ⟨hk, d :: before, after, rfl,
            List.forall_mem_cons.mpr ⟨fun _ => hless, hbefore⟩, hafter⟩
        · rw [if_neg hless] at h
          cases h
          refine ⟨hd, [], before ++ k :: after, rfl, by simp, fun j hj hp => ?_⟩
          rcases List.mem_append.mp hj with hj | hj
          · have := hbefore j hj hp
            omega
          · rcases List.mem_cons.mp hj with rfl | hj
            · omega
            · have := hafter j hj hp
              omega
    · rw [List.filter_cons_of_neg hd] at h
      obtain ⟨hc, before, after, rfl, hbefore, hafter⟩ := ih h
      exact ⟨hc, d :: before, after, rfl,
        List.forall_mem_cons.mpr ⟨fun hp => absurd hp hd, hbefore⟩, hafter⟩

/-- **The constructor that is chosen is the best.** -/
theorem best_of_constructor? (h : m.constructor? ns = some c) : ∃ i, m.Best ns i c := by
  obtain ⟨hc, before, after, hcs, hbefore, hafter⟩ := exists_of_largest h
  have hat (j : Nat) (d : Constructor α) (hd : m.constructors[j]? = some d) :
      (j < before.length ∧ d ∈ before) ∨ (before.length ≤ j ∧ (d = c ∨ d ∈ after)) := by
    rw [hcs] at hd
    rcases Nat.lt_or_ge j before.length with hj | hj
    · rw [List.getElem?_append_left hj] at hd
      exact .inl ⟨hj, List.mem_of_getElem? hd⟩
    · rw [List.getElem?_append_right hj] at hd
      exact .inr ⟨hj, List.mem_cons.mp (List.mem_of_getElem? hd)⟩
  refine ⟨before.length, ?_, fits_iff.mpr hc, fun j d hd hfits => ?_, fun j d hd hfits hlen => ?_⟩
  · rw [hcs, List.getElem?_append_right (Nat.le_refl _), Nat.sub_self]
    rfl
  · rcases hat j d hd with ⟨-, hmem⟩ | ⟨-, rfl | hmem⟩
    · exact Nat.le_of_lt (hbefore d hmem (fits_iff.mp hfits))
    · exact Nat.le_refl _
    · exact hafter d hmem (fits_iff.mp hfits)
  · rcases hat j d hd with ⟨-, hmem⟩ | ⟨hj, -⟩
    · have := hbefore d hmem (fits_iff.mp hfits)
      omega
    · exact hj

theorem constructor?_eq_none_iff :
    m.constructor? ns = none ↔ ∀ c ∈ m.constructors, ¬ c.Fits ns := by
  unfold constructor?
  rw [largest_eq_none_iff, List.filter_eq_nil_iff]
  simp only [fits_iff]

/-! ## Setting the other columns -/

/-- The columns of a mapping that are among the columns of a row and that making the record did not
take. -/
def settersBut (m : Mapping α) (taken columns : List String) : List (MappedColumn α) :=
  m.columns.filter fun c => hasName columns c.name && !hasName taken c.name

/-- What comes of a record when columns are set one after another with the values of a row: from the
first failure on no column is set. -/
inductive Course (r : Row) : List (MappedColumn α) → Result α → Result α → Prop
  | failed (columns : List (MappedColumn α)) (e : Error) : Course r columns (.error e) (.error e)
  | done (a : α) : Course r [] (.ok a) (.ok a)
  | set {c : MappedColumn α} {rest : List (MappedColumn α)} {a : α} {x : Result α}
      (h : Course r rest (c.assign (r.valueOrNull c.name) a) x) : Course r (c :: rest) (.ok a) x

/-- The value at the place of a name is that of the first cell of the name. -/
theorem valueAt_position {n : String} (h : position? r.names n = some i) :
    valueAt r i = r.valueOrNull n := by
  have hcell : r.cells[i]? = r.cell? n := by
    have hidx : r.cells.findIdx? (fun c => sameIgnoringCase c.name n) = some i := by
      rw [← h, position?, Row.names, List.findIdx?_map]
      rfl
    obtain ⟨hi, hn, hbefore⟩ := List.findIdx?_eq_some_iff_getElem.mp hidx
    rw [List.getElem?_eq_getElem hi, Row.cell?, eq_comm, List.find?_eq_some_iff_getElem]
    exact ⟨hn, i, hi, rfl, fun j hj => by simpa using hbefore j hj⟩
  rw [valueAt, hcell]
  rfl

/-- A name has a place where it is among the columns. -/
theorem hasName_iff_position? {n : String} :
    hasName ns n = true ↔ ∃ i, position? ns n = some i := by
  rw [← Option.isSome_iff_exists, position?, List.findIdx?_isSome]
  rfl

/-- **Setting columns one after another** is what the loop of reading does at their places. -/
theorem course_foldlM (columns : List (MappedColumn α)) (r : Row) (a : α) :
    Course r (columns.filter fun c => hasName r.names c.name) (.ok a)
      ((columns.filterMap fun c => (position? r.names c.name).map fun i => (i, c)).foldlM
        (fun a (i, c) => c.assign (valueAt r i) a) a) := by
  induction columns generalizing a with
  | nil => exact .done a
  | cons c rest ih =>
    cases hi : position? r.names c.name with
    | none =>
      have hc : ¬ hasName r.names c.name = true := fun h => by
        obtain ⟨i, h⟩ := hasName_iff_position?.mp h
        cases hi.symm.trans h
      rw [List.filter_cons_of_neg (p := fun c : MappedColumn α => hasName r.names c.name) hc,
        List.filterMap_cons_none (by rw [hi]; rfl)]
      exact ih a
    | some i =>
      rw [List.filter_cons_of_pos (p := fun c : MappedColumn α => hasName r.names c.name)
          (hasName_iff_position?.mpr ⟨i, hi⟩),
        List.filterMap_cons_some (b := (i, c)) (by rw [hi]; rfl), List.foldlM_cons]
      refine .set ?_
      simp only [valueAt_position hi]
      cases c.assign (r.valueOrNull c.name) a with
      | error x => exact .failed _ _
      | ok b => exact ih b

end Mapping

/-! ## A row that is read first -/

namespace Entity

variable {α : Type} {e : Entity α} {r : Row}

/-- The record of a row that is read first is made in some way, with some columns taken, and the
other columns are set in it; with it come the foreign members of the row. -/
def Activates (e : Entity α) (r : Row) (taken : List String) (made : Result α) : Prop :=
  ∀ owner, ∃ x, Mapping.Course r (e.settersBut taken r.names) made x ∧
    (e.read none owner r).2 = x.map fun a => (a, e.pendingOf r.names owner r)

theorem activates_of_plan {p : Mapping.Plan α} (h : e.plan r.names = .ok p) :
    e.Activates r p.consumed (p.make r) := by
  intro owner
  have hl : e.layoutFor none r = .ok _ := Mapping.layout_of_plan h
  rw [read_of_layoutFor hl]
  refine ⟨_, ?_, rfl⟩
  unfold Mapping.readBy
  cases hp : p.make r with
  | error x => exact .failed _ _
  | ok a =>
    have hset := Mapping.course_foldlM
      (e.columns.filter fun c => !Mapping.hasName p.consumed c.name) r a
    rw [List.filter_filter] at hset
    exact hset

/-- **How the record of a row that is read first is made.** Where the columns of the row include all
parameters of some constructor, the best of those makes it: the one with most parameters, and of
several the first. Where no constructor fits, reading starts from the default, or fails with the
columns of the row if there is none. Then the columns that the row has and that are no parameters of
the constructor are set in the order of the mapping, each with the value of its first cell, up to
the first that fails. -/
theorem read_activates (e : Entity α) (r : Row) :
    ((∃ c ∈ e.constructors, c.Fits r.names) →
      ∃ i c, e.Best r.names i c ∧ e.Activates r c.params (c.build r)) ∧
    ((∀ c ∈ e.constructors, ¬ c.Fits r.names) →
      (∀ a, e.default = some a → e.Activates r [] (.ok a)) ∧
      (e.default = none → ∀ owner, (e.read none owner r).2 =
        .error (.noSuitableConstructor e.typeName (", ".intercalate r.names)))) := by
  constructor
  · rintro ⟨d, hd, hfits⟩
    cases hc : e.constructor? r.names with
    | none => exact absurd hfits (Mapping.constructor?_eq_none_iff.mp hc d hd)
    | some c =>
      obtain ⟨i, hbest⟩ := Mapping.best_of_constructor? hc
      refine ⟨i, c, hbest, activates_of_plan (p := .constructor c) ?_⟩
      unfold Mapping.plan
      rw [hc]
  · intro hnone
    have hc := Mapping.constructor?_eq_none_iff.mpr hnone
    constructor
    · intro a ha
      refine activates_of_plan (p := .start a) ?_
      unfold Mapping.plan
      rw [hc, ha]
    · intro hd owner
      have hp : e.plan r.names =
          .error (.noSuitableConstructor e.typeName (", ".intercalate r.names)) := by
        unfold Mapping.plan
        rw [hc, hd]
      have hl : e.layoutFor none r = .error _ := Mapping.layout_of_plan_error hp
      rw [read_of_layoutFor_error hl]

end Entity

namespace Sample.Shape

/-- Shapes without foreign members. -/
def entity : Entity Shape where
  toMapping := mapping

/-- Three numbers in an order of their own. -/
def numbers : Row := .ofPairs [("c", .int 3), ("a", .int 1), ("b", .int 2)]

/-- A point without its second coordinate. -/
def onAxis : Row := .ofPairs [("X", .int 1), ("Label", .text "a")]

/-- Of the two constructors with two columns the first makes the shape, and the third column is set;
a shape without columns starts from the default, and a point without a coordinate is not made. -/
theorem read_numbers :
    entity.Activates numbers ["A", "B"] (.ok { a := 1, b := 2, madeBy := "AB" }) ∧
      (entity.read none 0 numbers).2 = .ok (⟨1, 2, 3, "AB"⟩, []) ∧
      entity.Activates ⟨[]⟩ [] (.ok ⟨-1, -1, -1, "default"⟩) ∧
      (Entity.read { toMapping := Point.mapping } none 0 onAxis).2 =
        .error (.noSuitableConstructor "Point" "X, Label") := by
  refine ⟨?_, rfl, ?_, ?_⟩
  · have hchosen : entity.constructor? numbers.names = entity.constructors[1]? := rfl
    obtain ⟨i, hbest⟩ := Mapping.best_of_constructor? hchosen
    obtain ⟨j, c, hc, h⟩ := (entity.read_activates numbers).1
      ⟨_, List.mem_of_getElem? hbest.registered, hbest.fits⟩
    obtain ⟨-, rfl⟩ := hbest.unique hc
    exact h
  · have hnone : entity.constructor? (Row.mk []).names = none := rfl
    exact ((entity.read_activates ⟨[]⟩).2 (Mapping.constructor?_eq_none_iff.mp hnone)).1 _ rfl
  · have hnone : Point.mapping.constructor? onAxis.names = none := rfl
    exact ((Entity.read_activates { toMapping := Point.mapping } onAxis).2
      (Mapping.constructor?_eq_none_iff.mp hnone)).2 rfl 0

end Sample.Shape
end SqlWeave
