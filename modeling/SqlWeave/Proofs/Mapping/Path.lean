import Mathlib.Data.List.Forall2
import SqlWeave.Member.Path
import SqlWeave.Member.Registry
import SqlWeave.Proofs.Mapping.RoundTrip

/-!
# Paths to columns

A query names a column by the members that lead to it, from the record of the table through inner
records: `x.Address.City`. A mapping names it when it flattens the inner record, with a prefix for
each record that the column stands in. The query goes from the outside in and collects the names of
the objects that it passes (`promote?`); the mapping goes from the inside out and puts each prefix
before the names that it has already. Where prefixes are the names of the members, both come to all
names of the path, one behind the other.

Results:
* `Registry.member_promote?`: a member compiles to what it is promoted to.
* `ColumnPath.single_path`: a path resolves to the chain of its properties.
* `ColumnPath.member_extended`: any chain through objects starts from the column whose name is the
  convention's for all names of the path.
* `Members.forall₂_columns`: a mapping lists its columns under the paths that lead to them.
* `Mapping.column_compiled`: the query and the mapping name the same column.
-/

namespace SqlWeave

namespace Member

/-- The chain with some operations more. -/
def followedBy (m : Member) (ns : List Node) : Member := { m with children := m.children ++ ns }

@[simp] theorem followedBy_nil (m : Member) : m.followedBy [] = m := by
  cases m
  simp [followedBy]

end Member

/-! ## Promoting -/

theorem Member.promote?_property {c : Config} {m : Member} {t : String} {p : Property}
    {rest : List Node} (ht : m.root.returns = .entity t) (hc : m.children = .property p :: rest) :
    m.promote? c = some
      { root := p, column := innerColumn c (m.owners ++ m.root.name) p.name, isStatic := false,
        children := rest, aliasName := m.aliasName, owners := m.owners ++ m.root.name } := by
  unfold promote?
  rw [hc, ht]
  rfl

namespace Registry

variable {r : Registry} {s : Scope} {q : Bool}

/-- A member that is no object starts from its column. -/
theorem member_of_not_isEntity {m : Member} (hs : m.isStatic = false)
    (he : m.root.returns.isEntity = false) :
    r.member s q m = r.nodes s q (rootColumn s q m.column) m.children := by
  obtain ⟨root, column, isStatic, children, aliasName, owners⟩ := m
  cases hs
  rw [member, if_neg Bool.false_ne_true]
  cases children with
  | nil =>
    unfold chain nodes
    rw [if_neg (by simp [he])]
  | cons n rest =>
    unfold chain
    rw [if_neg (by simp [he]), nodes]

/-- **A member compiles to what it is promoted to.** -/
theorem member_promote? {m m' : Member} (hs : m.isStatic = false)
    (h : m.promote? s.config = some m') : r.member s q m = r.member s q m' := by
  obtain ⟨root, column, isStatic, children, aliasName, owners⟩ := m
  cases hs
  unfold Member.promote? at h
  split at h
  case isFalse => cases h
  case isTrue he =>
    cases children with
    | nil => cases h
    | cons n rest =>
      cases n with
      | method d name args t => cases h
      | property p =>
        cases h
        rw [member, member, if_neg Bool.false_ne_true, if_neg Bool.false_ne_true]
        conv => lhs; unfold chain
        rw [if_pos he]

end Registry

/-! ## Paths -/

theorem Path.chain_property {c : Config} {shapes : Shapes} {p : Path} {m : Member}
    (hp : p.isParameter = false) (hs : shapes.subMembers = true) (h : p.chain c shapes = .ok m)
    (n : String) (t : MemberType) :
    (Path.property p n t).chain c shapes = .ok (m.extend (.property ⟨m.returns, n, t⟩)) := by
  unfold Path.chain
  rw [if_neg (by simp [hp]), h]
  simp only [Path.checkSubMembers, hs, if_true]
  rfl

/-- A path through objects to a column. -/
structure ColumnPath where
  /-- The objects that are passed, each a member and the name of its type. -/
  objects : List (String × String)
  name : String
  type : MemberType
  isColumn : type.isEntity = false

namespace ColumnPath

/-- The names of all members of a path. -/
def names (w : ColumnPath) : List String := w.objects.map Prod.fst ++ [w.name]

/-- The expression of a path. -/
def path (w : ColumnPath) : Path :=
  .property (w.objects.foldl (fun p o => .property p o.1 (.entity o.2)) .parameter) w.name w.type

/-- The properties behind an object of a type, each declared in the type before it. -/
def behind (w : ColumnPath) (declaring : MemberType) : List (String × String) → List Node
  | [] => [.property ⟨declaring, w.name, w.type⟩]
  | o :: rest => .property ⟨declaring, o.1, .entity o.2⟩ :: w.behind (.entity o.2) rest

/-- The chain that a path resolves to. -/
def member (w : ColumnPath) (c : Config) : Member :=
  match w.objects with
  | [] => Path.rootMember c w.name w.type
  | o :: rest => (Path.rootMember c o.1 (.entity o.2)).followedBy (w.behind (.entity o.2) rest)

/-! ### Resolving -/

section Resolving

variable {c : Config} {shapes : Shapes}

theorem chain_behind (w : ColumnPath) (hs : shapes.subMembers = true) :
    ∀ (objects : List (String × String)) (p : Path) (m : Member), p.isParameter = false →
      p.chain c shapes = .ok m →
      (Path.property (objects.foldl (fun p o => .property p o.1 (.entity o.2)) p) w.name
        w.type).chain c shapes = .ok (m.followedBy (w.behind m.returns objects))
  | [], p, m, hp, h => Path.chain_property hp hs h w.name w.type
  | o :: rest, p, m, hp, h => by
    have hnext := Path.chain_property hp hs h o.1 (.entity o.2)
    rw [List.foldl_cons, chain_behind w hs rest _ _ rfl hnext]
    have hreturns : (m.extend (.property ⟨m.returns, o.1, .entity o.2⟩)).returns = .entity o.2 := by
      unfold Member.extend Member.returns
      simp [Node.returns]
    rw [hreturns, behind]
    simp only [Member.followedBy, Member.extend, List.append_assoc, List.singleton_append]

/-- **A path resolves to the chain of its properties.** A path through no object needs no chains. -/
theorem single_path (w : ColumnPath) (c : Config) (hs : w.objects ≠ [] → shapes.subMembers = true) :
    w.path.single c shapes = .ok (w.member c) := by
  obtain ⟨objects, name, type, hc⟩ := w
  have hsingle : ∀ p : Path, p.isProjection = false → p.single c shapes = p.chain c shapes :=
    fun p hp => by rw [Path.single, if_neg (by simp [hp])]
  rw [hsingle _ rfl]
  cases objects with
  | nil =>
    unfold path Path.chain
    rfl
  | cons o rest =>
    have hroot : (Path.property .parameter o.1 (.entity o.2)).chain c shapes =
        .ok (Path.rootMember c o.1 (.entity o.2)) := by
      unfold Path.chain
      rfl
    exact chain_behind ⟨o :: rest, name, type, hc⟩ (hs (List.cons_ne_nil _ _)) rest _ _ rfl hroot

end Resolving

/-! ### Compiling -/

/-- Behind an object, the names that are passed are collected behind those of its owners. -/
theorem member_behind (w : ColumnPath) (r : Registry) (s : Scope) (q : Bool) (rest : List Node) :
    ∀ (objects : List (String × String)) (m : Member) (t : String), m.isStatic = false →
      m.root.returns = .entity t → m.children = w.behind (.entity t) objects ++ rest →
      r.member s q m = r.nodes s q (Registry.rootColumn s q (s.config.naming.apply
        (m.owners ++ m.root.name ++ String.join (objects.map Prod.fst ++ [w.name])))) rest
  | [], m, t, hm, ht, hc => by
    rw [Registry.member_promote? hm (Member.promote?_property ht hc),
      Registry.member_of_not_isEntity rfl w.isColumn]
    simp [Member.innerColumn]
  | o :: objects, m, t, hm, ht, hc => by
    rw [Registry.member_promote? hm (Member.promote?_property ht hc),
      member_behind w r s q rest objects _ o.2 rfl rfl rfl]
    simp [String.append_assoc]

/-- **A chain through objects starts from the column of all names of its path.** Any operations may
follow. -/
theorem member_extended (w : ColumnPath) (r : Registry) (s : Scope) (q : Bool) (rest : List Node) :
    r.member s q ((w.member s.config).followedBy rest) =
      r.nodes s q (Registry.rootColumn s q (s.config.naming.apply (String.join w.names))) rest := by
  obtain ⟨objects, name, type, hc⟩ := w
  cases objects with
  | nil =>
    rw [Registry.member_of_not_isEntity rfl hc]
    simp [member, names, Path.rootMember, Member.followedBy]
  | cons o objects =>
    rw [member_behind ⟨o :: objects, name, type, hc⟩ r s q rest objects _ o.2 rfl rfl rfl]
    simp [member, names, Path.rootMember, Member.followedBy]

end ColumnPath

/-! ## Mappings -/

namespace Members

/-- Columns are named after their members, and the columns of an inner record have the name of its
member in front. -/
def OwnNames : {α : Type} → Members α → Prop
  | _, nil => True
  | _, column name member _ _ _ _ rest => name = member ∧ rest.OwnNames
  | _, nested namePrefix member _ _ inner rest =>
    namePrefix = member ∧ inner.OwnNames ∧ rest.OwnNames

/-- The path to each column: the members of the inner records that it stands in, and its own. -/
def paths : {α : Type} → Members α → List (List String)
  | _, nil => []
  | _, column _ member _ _ _ _ rest => [member] :: rest.paths
  | _, nested _ member _ _ inner rest => inner.paths.map (member :: ·) ++ rest.paths

variable {α : Type}

theorem ne_nil_of_mem_paths (ms : Members α) : ∀ path ∈ ms.paths, path ≠ [] := by
  induction ms with
  | nil => exact fun _ h => by cases h
  | column name member isKey isGenerated get set rest ih =>
    exact List.forall_mem_cons.mpr ⟨List.cons_ne_nil _ _, ih⟩
  | nested namePrefix member get set inner rest _ ih =>
    refine List.forall_mem_append.mpr ⟨fun path h => ?_, ih⟩
    obtain ⟨path, -, rfl⟩ := List.mem_map.mp h
    exact List.cons_ne_nil _ _

/-- A column stands under a path: its member is the path with dots, and its name is the names of the
path one behind the other. -/
def Under (path : List String) (c : MappedColumn α) : Prop :=
  c.member = ".".intercalate path ∧ c.name = String.join path

theorem Under.lift {β : Type} {path : List String} {c : MappedColumn β} (h : Under path c)
    (hp : path ≠ []) (member : String) (get : α → β) (set : β → α → α) :
    Under (member :: path) (c.lift member member get set) := by
  obtain ⟨first, rest, rfl⟩ := List.exists_cons_of_ne_nil hp
  refine ⟨?_, ?_⟩
  · rw [String.intercalate_cons_cons, ← h.1]
    rfl
  · rw [String.join_cons, ← h.2]
    rfl

/-- **A mapping lists its columns under the paths that lead to them.** -/
theorem forall₂_columns {ms : Members α} (h : ms.OwnNames) :
    List.Forall₂ Under ms.paths ms.columns := by
  induction ms with
  | nil => exact .nil
  | column name member isKey isGenerated get set rest ih =>
    obtain ⟨rfl, hrest⟩ := h
    exact .cons ⟨by simp [MappedColumn.typed], by simp [MappedColumn.typed]⟩ (ih hrest)
  | nested namePrefix member get set inner rest ihInner ih =>
    obtain ⟨rfl, hinner, hrest⟩ := h
    refine List.rel_append ?_ (ih hrest)
    rw [List.forall₂_map_left_iff, List.forall₂_map_right_iff]
    have hpaths := (List.forall₂_and_left _ _).mpr ⟨inner.ne_nil_of_mem_paths, ihInner hinner⟩
    exact hpaths.imp fun path c hc => hc.2.lift hc.1 namePrefix get set

/-- Paths of names without dots are read off their texts. -/
theorem intercalate_dot_injective {p q : List String} (hp : p ≠ []) (hq : q ≠ [])
    (hpd : ∀ name ∈ p, '.' ∉ name.toList) (hqd : ∀ name ∈ q, '.' ∉ name.toList)
    (h : ".".intercalate p = ".".intercalate q) : p = q := by
  have hs : ∀ {r : List String}, r ≠ [] → (∀ name ∈ r, '.' ∉ name.toList) →
      (".".intercalate r).toList.splitOn '.' = r.map String.toList := by
    intro r hr hrd
    rw [String.toList_intercalate]
    exact List.splitOn_intercalate '.' (List.forall_mem_map.mpr hrd) (by simpa using hr)
  have hmap : p.map String.toList = q.map String.toList := by rw [← hs hp hpd, h, hs hq hqd]
  exact List.map_injective_iff.mpr (fun _ _ => String.toList_injective) hmap

/-- No two names are listed under one path: where the names of members have no dots, columns of the
same member have the same name. -/
theorem name_eq_of_member_eq {ms : Members α} (h : ms.OwnNames)
    (hd : ∀ path ∈ ms.paths, ∀ name ∈ path, '.' ∉ name.toList) {c d : MappedColumn α}
    (hc : c ∈ ms.columns) (hd' : d ∈ ms.columns) (hm : c.member = d.member) : c.name = d.name := by
  have hpath : ∀ c ∈ ms.columns, ∃ path ∈ ms.paths, Under path c := by
    intro c hc
    obtain ⟨hlength, hget⟩ := List.forall₂_iff_get.mp (forall₂_columns h)
    obtain ⟨i, hi, rfl⟩ := List.mem_iff_getElem.mp hc
    exact ⟨_, List.getElem_mem (hlength ▸ hi), hget i (hlength ▸ hi) hi⟩
  obtain ⟨p, hp, hpc⟩ := hpath c hc
  obtain ⟨q, hq, hqd⟩ := hpath d hd'
  have hpq : p = q := intercalate_dot_injective (ms.ne_nil_of_mem_paths p hp)
    (ms.ne_nil_of_mem_paths q hq) (hd p hp) (hd q hq) (by rw [← hpc.1, hm, hqd.1])
  rw [hpc.2, hqd.2, hpq]

end Members

namespace Mapping

/-- **The query and the mapping name the same column.** Let a mapping list members under their own
names, with inner records to any depth. Its columns belong one by one to the paths through inner
records: each has the path with dots for its member, and a chain along the path compiles to its
quoted name, on every engine and with any translators. No other name is listed for that member if
members have no dots in their names. In general the chain along a path through any objects starts
from the column whose name is the convention's for all names of the path, with or without a table in
front and whatever operations follow. -/
theorem column_compiled {α : Type} (m : Mapping α) (members : Members α)
    (hm : m.columns = members.columns) (hn : members.OwnNames) :
    List.Forall₂ (fun path c => c.member = ".".intercalate path ∧
        ∀ (w : ColumnPath) (s : Scope) (r : Registry), w.names = path → s.config.naming = .asIs →
          w.path.single s.config .chains = .ok (w.member s.config) ∧
          r.member s false (w.member s.config) = .ok (.raw (s.dialect.quote c.name)))
      members.paths m.columns ∧
    ((∀ path ∈ members.paths, ∀ name ∈ path, '.' ∉ name.toList) →
      ∀ c ∈ m.columns, ∀ d ∈ m.columns, c.member = d.member → c.name = d.name) ∧
    ∀ (w : ColumnPath) (s : Scope) (shapes : Shapes) (r : Registry) (q : Bool) (rest : List Node),
      (w.objects ≠ [] → shapes.subMembers = true) →
      w.path.single s.config shapes = .ok (w.member s.config) ∧
      r.member s q ((w.member s.config).followedBy rest) =
        r.nodes s q (Registry.rootColumn s q (s.config.naming.apply (String.join w.names)))
          rest := by
  rw [hm]
  refine ⟨(Members.forall₂_columns hn).imp fun path c hunder => ⟨hunder.1, fun w s r hw hs => ?_⟩,
    fun hd c hc d hd' he => Members.name_eq_of_member_eq hn hd hc hd' he,
    fun w s shapes r q rest hs => ⟨w.single_path s.config hs, w.member_extended r s q rest⟩⟩
  have h := w.member_extended r s false []
  rw [Member.followedBy_nil, hw, ← hunder.2, hs, Text.Naming.asIs_apply] at h
  refine ⟨w.single_path s.config fun _ => rfl, h.trans ?_⟩
  rw [Registry.nodes]
  rfl

end Mapping

namespace Sample

/-- The path to the city of a customer. -/
def Customer.cityPath : ColumnPath := ⟨[("Address", "Address")], "City", .string, rfl⟩

/-- What a query of customers for an engine lets its members see. -/
def Customer.scope (d : Dialect) (n : Text.Naming) : Scope :=
  ⟨{ Config.new d with naming := n }, ⟨"Customers", none⟩, false⟩

theorem Customer.cityPath_compiled :
    Customer.members.OwnNames ∧ Customer.cityPath.names = ["Address", "City"] ∧
      (Customer.scope .sqlServer .asIs).config.naming = .asIs ∧
      (Customer.mapping.columns[2]).member = "Address.City" ∧
      (Registry.ofDialect .sqlServer).member (Customer.scope .sqlServer .asIs) false
          (Customer.cityPath.member (Customer.scope .sqlServer .asIs).config) =
        .ok (.raw "[AddressCity]") ∧
      (Customer.cityPath.objects ≠ [] → Shapes.all.subMembers = true) ∧
      (Registry.ofDialect .mysql).member (Customer.scope .mysql .snake) true
          (Customer.cityPath.member (Customer.scope .mysql .snake).config) =
        .ok (.raw "`Customers`.`address_city`") := by
  have own : Customer.members.OwnNames := ⟨rfl, rfl, rfl, ⟨rfl, rfl, trivial⟩, trivial⟩
  obtain ⟨columns, -, general⟩ := Customer.mapping.column_compiled Customer.members rfl own
  have city := (List.Forall₂.get columns (i := 2) (by decide) (by decide)).2
    Customer.cityPath (Customer.scope .sqlServer .asIs) (.ofDialect .sqlServer) rfl rfl
  have quoted := (general Customer.cityPath (Customer.scope .mysql .snake) .all (.ofDialect .mysql)
    true [] fun _ => rfl).2
  have hcity : Dialect.sqlServer.quote "AddressCity" = "[AddressCity]" := by decide +kernel
  have hname : Registry.rootColumn (Customer.scope .mysql .snake) true
      (Text.Naming.snake.apply (String.join Customer.cityPath.names)) =
        .raw "`Customers`.`address_city`" :=
    congrArg Expression.raw (by decide +kernel)
  refine ⟨own, rfl, rfl, rfl, city.2.trans ?_, fun _ => rfl, ?_⟩
  · exact congrArg (fun n => Except.ok (Expression.raw n)) hcity
  · rw [Member.followedBy_nil] at quoted
    refine quoted.trans ?_
    rw [Registry.nodes]
    exact congrArg Except.ok hname

end Sample
end SqlWeave
