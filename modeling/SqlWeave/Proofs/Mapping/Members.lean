import SqlWeave.Mapping.Basic

/-!
# Members of a record type

A mapping lists the members of a record type one after another: a column for a member whose type
values have, or an inner record, whose columns become columns of the outer one. `Members` is such a
list, and its columns are those of the mapping.

The members are lawful if what is assigned to a member is read there and nowhere else, and if every
type is read back from its values. That is said of the members as they are listed, so of an inner
record as a whole and of its own members for themselves; it follows for all columns, however deep
they stand.

Results:
* `roundTrips_of_mem_columns`: what is read in a column can be assigned and is read again.
* `pairwise_apart_columns`: assigning a column leaves all others as they are.
-/

namespace SqlWeave

/-! ## Ways into a record -/

/-- The way to read a part of a record and to change it. -/
structure Accessor (α : Type) where
  {β : Type}
  get : α → β
  set : β → α → α

namespace Accessor

variable {α : Type}

/-- What is assigned is read. -/
def ReadsBack (x : Accessor α) : Prop := ∀ b a, x.get (x.set b a) = b

/-- Assigning one part leaves another as it is. -/
def Spares (x y : Accessor α) : Prop := ∀ b a, y.get (x.set b a) = y.get a

/-- Neither part changes with the other. -/
def Apart (x y : Accessor α) : Prop := x.Spares y ∧ y.Spares x

end Accessor

/-! ## Columns that keep what they are given -/

namespace MappedColumn

variable {α β : Type} {c d : MappedColumn α}

/-- What is read of a record can be assigned to any record, and is read there then. -/
def RoundTrips (c : MappedColumn α) : Prop :=
  ∀ a b, ∃ b', c.assign (c.read a) b = .ok b' ∧ c.read b' = c.read a

/-- Assigning one column leaves another as it is. -/
def Spares (c d : MappedColumn α) : Prop :=
  ∀ v a a', c.assign v a = .ok a' → d.read a' = d.read a

/-- Neither column changes with the other. -/
def Apart (c d : MappedColumn α) : Prop := c.Spares d ∧ d.Spares c

/-- The assignments of a typed column are those of its member. -/
theorem assign_typed [ToValue β] [FromValue β] {name : String} (member : String) (get : α → β)
    {set : β → α → α} {v : Value} {a a' : α}
    (h : (typed name member get set).assign v a = .ok a') : ∃ b, a' = set b a := by
  unfold typed at h
  cases hv : (fromValue v : Except Mismatch β) with
  | error m => simp only [hv] at h; cases h
  | ok b =>
    simp only [hv] at h
    cases h
    exact ⟨b, rfl⟩

/-- The assignments of a column of an inner record are those of the inner record. -/
theorem assign_lift {c : MappedColumn β} {namePrefix member : String} {get : α → β}
    {set : β → α → α} {v : Value} {a a' : α}
    (h : (c.lift namePrefix member get set).assign v a = .ok a') :
    ∃ b, c.assign v (get a) = .ok b ∧ a' = set b a := by
  unfold lift at h
  cases hv : c.assign v (get a) with
  | error e => simp only [hv] at h; cases h
  | ok b =>
    simp only [hv] at h
    cases h
    exact ⟨b, rfl, rfl⟩

end MappedColumn

/-! ## Lists of members -/

/-- The members of a record type in the order of its mapping. -/
inductive Members : Type → Type 1 where
  | nil {α : Type} : Members α
  /-- A member whose type values have. -/
  | column {α β : Type} [ToValue β] [FromValue β] (name member : String)
      (isKey isGenerated : Bool) (get : α → β) (set : β → α → α) (rest : Members α) : Members α
  /-- An inner record with its own members. -/
  | nested {α β : Type} (namePrefix member : String) (get : α → β) (set : β → α → α)
      (inner : Members β) (rest : Members α) : Members α

namespace Members

variable {α : Type}

/-- The columns of the members. -/
def columns : {α : Type} → Members α → List (MappedColumn α)
  | _, nil => []
  | _, column name member isKey isGenerated get set rest =>
    { MappedColumn.typed name member get set with isKey, isGenerated } :: rest.columns
  | _, nested namePrefix member get set inner rest =>
    inner.columns.map (·.lift namePrefix member get set) ++ rest.columns

/-- The ways into the members themselves. -/
def accessors : {α : Type} → Members α → List (Accessor α)
  | _, nil => []
  | _, column _ _ _ _ get set rest => ⟨get, set⟩ :: rest.accessors
  | _, nested _ _ get set _ rest => ⟨get, set⟩ :: rest.accessors

/-- Every member keeps what it is assigned and is changed with no other, every type of a column is
read back from its values, and the members of inner records are lawful too. -/
def Lawful : {α : Type} → Members α → Prop
  | _, nil => True
  | _, @column _ β _ _ _ _ _ _ get set rest =>
    (Accessor.mk get set).ReadsBack ∧ (∀ b : β, fromValue (toValue b) = Except.ok b) ∧
      (∀ y ∈ rest.accessors, (Accessor.mk get set).Apart y) ∧ rest.Lawful
  | _, nested _ _ get set inner rest =>
    (Accessor.mk get set).ReadsBack ∧ inner.Lawful ∧
      (∀ y ∈ rest.accessors, (Accessor.mk get set).Apart y) ∧ rest.Lawful

/-- Records that agree in all members agree in all columns. -/
theorem read_eq_of_accessors {a a' : α} (ms : Members α)
    (h : ∀ y ∈ ms.accessors, y.get a' = y.get a) : ∀ c ∈ ms.columns, c.read a' = c.read a := by
  induction ms with
  | nil => exact fun _ hc => by cases hc
  | column name member isKey isGenerated get set rest ih =>
    obtain ⟨hget, hrest⟩ := List.forall_mem_cons.mp h
    exact List.forall_mem_cons.mpr ⟨congrArg toValue hget, ih hrest⟩
  | nested namePrefix member get set inner rest _ ih =>
    obtain ⟨hget, hrest⟩ := List.forall_mem_cons.mp h
    refine List.forall_mem_append.mpr ⟨fun c hc => ?_, ih hrest⟩
    obtain ⟨d, -, rfl⟩ := List.mem_map.mp hc
    exact congrArg d.read hget

/-- What is changed with no member is changed with no column. -/
theorem get_eq_of_assign {γ : Type} {get' : α → γ} (ms : Members α)
    (h : ∀ y ∈ ms.accessors, ∀ b a, get' (y.set b a) = get' a) :
    ∀ c ∈ ms.columns, ∀ v a a', c.assign v a = .ok a' → get' a' = get' a := by
  induction ms with
  | nil => exact fun _ hc => by cases hc
  | column name member isKey isGenerated get set rest ih =>
    obtain ⟨hset, hrest⟩ := List.forall_mem_cons.mp h
    refine List.forall_mem_cons.mpr ⟨fun v a a' ha => ?_, ih hrest⟩
    obtain ⟨b, rfl⟩ := MappedColumn.assign_typed member get ha
    exact hset b a
  | nested namePrefix member get set inner rest _ ih =>
    obtain ⟨hset, hrest⟩ := List.forall_mem_cons.mp h
    refine List.forall_mem_append.mpr ⟨fun c hc v a a' ha => ?_, ih hrest⟩
    obtain ⟨d, -, rfl⟩ := List.mem_map.mp hc
    obtain ⟨b, -, rfl⟩ := MappedColumn.assign_lift ha
    exact hset b a

/-- **Lawful columns take what is read of them.** -/
theorem roundTrips_of_mem_columns {ms : Members α} (h : ms.Lawful) :
    ∀ c ∈ ms.columns, c.RoundTrips := by
  induction ms with
  | nil => exact fun _ hc => by cases hc
  | column name member isKey isGenerated get set rest ih =>
    obtain ⟨hback, htype, -, hrest⟩ := h
    refine List.forall_mem_cons.mpr ⟨fun a b => ⟨set (get a) b, ?_, ?_⟩, ih hrest⟩
    · simp only [MappedColumn.typed, htype]
    · exact congrArg toValue (hback (get a) b)
  | nested namePrefix member get set inner rest ihInner ih =>
    obtain ⟨hback, hinner, -, hrest⟩ := h
    refine List.forall_mem_append.mpr ⟨fun c hc a b => ?_, ih hrest⟩
    obtain ⟨d, hd, rfl⟩ := List.mem_map.mp hc
    obtain ⟨b', hb, hr⟩ := ihInner hinner d hd (get a) (get b)
    refine ⟨set b' b, ?_, ?_⟩
    · simp only [MappedColumn.lift, hb]
      rfl
    · exact (congrArg d.read (hback b' b)).trans hr

/-- Columns of an inner record that are apart are apart in the outer one. -/
theorem apart_lift {β : Type} {c d : MappedColumn β} {namePrefix member : String} {get : α → β}
    {set : β → α → α} (hback : (Accessor.mk get set).ReadsBack) (h : c.Apart d) :
    (c.lift namePrefix member get set).Apart (d.lift namePrefix member get set) := by
  have hs : ∀ {c d : MappedColumn β}, c.Spares d →
      (c.lift namePrefix member get set).Spares (d.lift namePrefix member get set) := by
    intro c d h v a a' ha
    obtain ⟨b, hb, rfl⟩ := MappedColumn.assign_lift ha
    exact (congrArg d.read (hback b a)).trans (h v (get a) b hb)
  exact ⟨hs h.1, hs h.2⟩

/-- **Assigning a lawful column leaves all others as they are.** -/
theorem pairwise_apart_columns {ms : Members α} (h : ms.Lawful) :
    ms.columns.Pairwise MappedColumn.Apart := by
  induction ms with
  | nil => exact .nil
  | column name member isKey isGenerated get set rest ih =>
    obtain ⟨-, -, hapart, hrest⟩ := h
    refine List.pairwise_cons.mpr ⟨fun d hd => ⟨fun v a a' ha => ?_, fun v a a' ha => ?_⟩, ih hrest⟩
    · obtain ⟨b, rfl⟩ := MappedColumn.assign_typed member get ha
      exact rest.read_eq_of_accessors (fun y hy => (hapart y hy).1 b a) d hd
    · exact congrArg toValue
        (rest.get_eq_of_assign (fun y hy => (hapart y hy).2) d hd v a a' ha)
  | nested namePrefix member get set inner rest ihInner ih =>
    obtain ⟨hback, hinner, hapart, hrest⟩ := h
    refine List.pairwise_append.mpr ⟨?_, ih hrest, fun c hc d hd => ?_⟩
    · exact List.pairwise_map.mpr ((ihInner hinner).imp (apart_lift hback))
    · obtain ⟨c, -, rfl⟩ := List.mem_map.mp hc
      refine ⟨fun v a a' ha => ?_, fun v a a' ha => ?_⟩
      · obtain ⟨b, -, rfl⟩ := MappedColumn.assign_lift ha
        exact rest.read_eq_of_accessors (fun y hy => (hapart y hy).1 b a) d hd
      · exact congrArg c.read
          (rest.get_eq_of_assign (fun y hy => (hapart y hy).2) d hd v a a' ha)

end Members
end SqlWeave
