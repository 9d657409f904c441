import SqlWeave.Proofs.Mapping.Path
import SqlWeave.Proofs.Merge.Names
import SqlWeave.Proofs.Template.WellFormed
import SqlWeave.Query.Select

/-!
# Qualified columns

Where tables are joined, the column that a member starts from is written with the name of the
query's table in front. FROM quotes an alias as a whole; in front of a column it is joined with the
column by a dot, and both are quoted as one name with parts. The two agree where the alias is one
part and is not changed by that. A name without an alias is quoted part by part in both places, but
if it claims to be quoted already, then so does the name with the column behind it, which is not
quoted any more.

Results:
* `Dialect.quote_qualified`: behind a qualifier a simple name is quoted as a part of its own.
* `Registry.member_of_startsFrom`: a member is its column with the operations behind it.
* `Registry.startsFrom_of_member`: every member that compiles starts from a column.
* `TableName.quote_qualified_iff`: when a column is qualified by the table's reference.
* **`Query.rootColumn_qualified_iff`**: when the column of a member is, in a query with joins.
-/

namespace SqlWeave

open Text

/-! ## Names with qualifiers -/

namespace Dialect

variable {d : Dialect} {qualifier column : String}

/-- A qualifier is what a qualified name starts with. -/
theorem unquoted_qualified (column : String) :
    d.Unquoted (qualifier ++ "." ++ column) ↔ d.Unquoted qualifier := by
  have hdot : ".".toList = ['.'] := by decide
  have hopen : '.' ≠ d.quotes.1 := by cases d <;> decide
  unfold Unquoted
  rw [String.append_assoc, String.toList_append, String.toList_append, hdot]
  cases qualifier.toList with
  | nil => simpa using hopen
  | cons c cs => simp

/-- **Behind a qualifier a simple name is quoted as a part of its own.** -/
theorem quote_qualified (hq : d.Unquoted qualifier) (hc : d.Simple column) :
    d.quote (qualifier ++ "." ++ column) = d.quote qualifier ++ "." ++ d.quotePart column := by
  have hdot : ".".toList = ['.'] := by decide
  have hsplit : (qualifier ++ "." ++ column).toList.splitOn '.' =
      qualifier.toList.splitOn '.' ++ [column.toList] := by
    rw [String.append_assoc, String.toList_append, String.toList_append, hdot, List.cons_append,
      List.nil_append, List.splitOn_append_cons_self, List.splitOn_eq_singleton hc.undotted]
  unfold quote
  rw [if_neg ((unquoted_qualified column).mpr hq), if_neg hq, hsplit, List.map_append,
    List.map_singleton, hc.trimmed, String.ofList_toList,
    String.intercalate_append_of_ne_nil (by simp [List.splitOn_ne_nil]) (List.cons_ne_nil _ _),
    String.intercalate_singleton]

/-- What claims to be quoted already is not quoted with a name behind it either. -/
theorem quote_of_claimed (hq : ¬ d.Unquoted qualifier) :
    d.quote (qualifier ++ "." ++ column) = qualifier ++ "." ++ column :=
  if_pos (not_not.mp (mt (unquoted_qualified column).mp hq))

end Dialect

/-! ## Columns behind their table -/

namespace TableName

variable {d : Dialect} {t : TableName} {column : String}

/-- A table whose name may stand in front of a column: an alias of one part that quoting leaves as
it is, or a name that does not claim to be quoted. The star is never quoted. -/
def Qualifies (d : Dialect) (t : TableName) (column : String) : Prop :=
  match t.aliasName with
  | some aliasName => d.Simple aliasName
  | none => d.Unquoted t.name ∨ column = "*"

/-- FROM introduces the name by which other clauses refer to the table. -/
theorem exists_declared (t : TableName) (d : Dialect) :
    ∃ before, t.declared d = before ++ t.reference d := by
  unfold declared reference
  cases t.aliasName with
  | none => exact ⟨"", String.empty_append.symm⟩
  | some aliasName => exact ⟨_, rfl⟩

/-- A column behind an alias stands behind the quoted alias exactly if the alias is simple. -/
theorem quote_alias_iff {aliasName : String} (hc : d.Simple column) :
    d.quote (aliasName ++ "." ++ column) =
        d.quotePart aliasName ++ "." ++ d.quotePart column ↔ d.Simple aliasName := by
  constructor
  · intro h
    by_cases hq : d.Unquoted aliasName
    · rw [Dialect.quote_qualified hq hc, String.append_left_inj, String.append_left_inj] at h
      obtain ⟨hdot, htrim⟩ := Dialect.trimmed_of_quote_eq hq h
      refine ⟨hq, hdot, ?_⟩
      rw [← String.toList_ofList (l := trimChars aliasName.toList)]
      exact congrArg String.toList htrim
    · -- what is left as it is is shorter than what is quoted
      exfalso
      have hstar : aliasName ≠ "*" := fun hs => hq (hs ▸ d.simple_star.unquoted)
      have hlength := congrArg (fun s : String => s.toList.length) h
      have halias := Dialect.length_lt_quotePart (d := d) hstar
      have hcolumn : column.toList.length ≤ (d.quotePart column).toList.length := by
        by_cases hs : column = "*"
        · rw [hs, Dialect.quotePart_star]
        · exact (Dialect.length_lt_quotePart hs).le
      rw [Dialect.quote_of_claimed hq] at hlength
      simp only [String.toList_append, List.length_append] at hlength
      omega
  · intro h
    rw [Dialect.quote_qualified h.unquoted hc, Dialect.quote_of_simple h]

/-- A column behind a name stands behind the quoted name exactly if the name does not claim to be
quoted already, or the column needs no quotes. -/
theorem quote_name_iff {name : String} (hc : d.Simple column) :
    d.quote (name ++ "." ++ column) = d.quote name ++ "." ++ d.quotePart column ↔
      d.Unquoted name ∨ column = "*" := by
  by_cases hq : d.Unquoted name
  · exact iff_of_true (Dialect.quote_qualified hq hc) (.inl hq)
  · have hname : d.quote name = name := if_pos (not_not.mp hq)
    rw [Dialect.quote_of_claimed hq, hname, String.append_right_inj]
    constructor
    · intro h
      by_contra hn
      have hlength := Dialect.length_lt_quotePart (d := d) fun hs => hn (.inr hs)
      rw [← h] at hlength
      exact Nat.lt_irrefl _ hlength
    · intro h
      rw [h.resolve_left hq, Dialect.quotePart_star]

/-- **When a column is qualified by the table's reference.** -/
theorem quote_qualified_iff (hc : d.Simple column) :
    d.quote (t.aliasOrName ++ "." ++ column) = t.reference d ++ "." ++ d.quote column ↔
      t.Qualifies d column := by
  obtain ⟨name, aliasName⟩ := t
  rw [Dialect.quote_of_simple hc]
  cases aliasName with
  | none => exact quote_name_iff hc
  | some aliasName => exact quote_alias_iff hc

end TableName

/-! ## Root columns -/

theorem MemberType.exists_of_isEntity {t : MemberType} (h : t.isEntity = true) :
    ∃ name, t = .entity name := by
  cases t with
  | entity name => exact ⟨name, rfl⟩
  | string | dateTime | date | time | number | bool => cases h

/-- A member starts from a column and goes on with operations. The column is its own, or behind
objects that of the first property that is no object. -/
inductive Member.StartsFrom (c : Config) : Member → String → List Node → Prop
  | column {m : Member} (notStatic : m.isStatic = false)
      (plain : m.root.returns.isEntity = false) : StartsFrom c m m.column m.children
  | object {m inner : Member} {column : String} {operations : List Node}
      (notStatic : m.isStatic = false) (promoted : m.promote? c = some inner)
      (behind : StartsFrom c inner column operations) : StartsFrom c m column operations

namespace Registry

variable {r : Registry} {s : Scope} {q : Bool} {m : Member} {column : String} {rest : List Node}

/-- **A member is its column with the operations behind it.** -/
theorem member_of_startsFrom (h : m.StartsFrom s.config column rest) :
    r.member s q m = r.nodes s q (rootColumn s q column) rest := by
  induction h with
  | column hs he => exact member_of_not_isEntity hs he
  | object hs hp _ ih => exact (member_promote? hs hp).trans ih

/-- **Every member that compiles starts from a column**, if it is not static. -/
theorem startsFrom_of_member {root : Property} {name owners : String} {children : List Node}
    {aliasName : Option String} {e : Expression}
    (h : r.member s q ⟨root, name, false, children, aliasName, owners⟩ = .ok e) :
    ∃ column rest, Member.StartsFrom s.config ⟨root, name, false, children, aliasName, owners⟩
      column rest := by
  induction children generalizing root name owners with
  | nil =>
    cases he : root.returns.isEntity with
    | false => exact ⟨_, _, .column rfl he⟩
    | true =>
      rw [member, if_neg Bool.false_ne_true, chain, if_pos he] at h
      cases h
  | cons n children ih =>
    cases he : root.returns.isEntity with
    | false => exact ⟨_, _, .column rfl he⟩
    | true =>
      cases n with
      | method declaring name as returns =>
        rw [member, if_neg Bool.false_ne_true, chain, if_pos he] at h
        cases h
      | property p =>
        obtain ⟨t, ht⟩ := MemberType.exists_of_isEntity he
        have hp := Member.promote?_property (c := s.config)
          (m := ⟨root, name, false, .property p :: children, aliasName, owners⟩) ht rfl
        rw [member_promote? rfl hp] at h
        obtain ⟨column, rest, hstart⟩ := ih h
        exact ⟨column, rest, .object rfl hp hstart⟩

end Registry

namespace Query

/-- **When the column of a member is qualified by the reference of the query's table.** In a query
with joins, let a member start from a simple column: one part, without blanks around it, that does
not claim to be quoted. The member is that column with its operations around it, whatever the
translators. It is written as the quoted name that FROM introduces for the table, a dot and the
quoted column, exactly if the table has a simple alias, or no alias and a name that does not claim
to be quoted already (the star needs no quotes). Every member that is not static and compiles starts
from a column. -/
theorem rootColumn_qualified_iff (q : Query) (hj : q.joins ≠ []) (m : Member)
    (hs : m.isStatic = false) :
    (∃ before, q.table.declared q.dialect = before ++ q.table.reference q.dialect) ∧
      (∀ (r : Registry) (e : Expression), r.member q.scope q.scope.joined m = .ok e →
        ∃ column rest, m.StartsFrom q.config column rest) ∧
      ∀ column rest, m.StartsFrom q.config column rest → q.dialect.Simple column →
        (∀ r : Registry, r.member q.scope q.scope.joined m =
          r.nodes q.scope q.scope.joined (Registry.rootColumn q.scope q.scope.joined column) rest) ∧
        (Registry.rootColumn q.scope q.scope.joined column =
            .raw (q.table.reference q.dialect ++ "." ++ q.dialect.quote column) ↔
          q.table.Qualifies q.dialect column) := by
  refine ⟨q.table.exists_declared q.dialect, fun r e h => ?_, fun column rest h hc =>
    ⟨fun r => Registry.member_of_startsFrom h, ?_⟩⟩
  · obtain ⟨root, name, isStatic, children, aliasName, owners⟩ := m
    cases hs
    exact Registry.startsFrom_of_member (s := q.scope) h
  · have hraw : ∀ s t : String, Expression.raw s = .raw t ↔ s = t := fun s t =>
      ⟨fun h => congrArg Expression.template h, congrArg Expression.raw⟩
    rw [(scope_joined q).mpr hj, Registry.rootColumn, if_pos rfl, hraw]
    exact TableName.quote_qualified_iff hc

/-- Customers under an alias, with their orders. -/
def customersWithOrders (d : Dialect) (aliasName : String) : Query :=
  (new ⟨"Customers", some aliasName⟩ (.new d)).join .inner ⟨"Orders", none⟩
    (.columns "Customers.Id" "=" "CustomerId")

/-- The city of a customer, in capitals. -/
def capitalCity (c : Config) : Member :=
  (Sample.Customer.cityPath.member c).followedBy [.method .string "to_uppercase" [] .string]

theorem capitalCity_qualified :
    (customersWithOrders .mysql "c d").joins ≠ [] ∧ (capitalCity (.new .mysql)).isStatic = false ∧
      (capitalCity (.new .mysql)).StartsFrom (.new .mysql) "AddressCity"
        [.method .string "to_uppercase" [] .string] ∧
      Dialect.mysql.Simple "AddressCity" ∧
      Registry.rootColumn (customersWithOrders .mysql "c d").scope
          (customersWithOrders .mysql "c d").scope.joined "AddressCity" =
        .raw "`c d`.`AddressCity`" ∧
      ((capitalCity (.new .mysql)).compile (customersWithOrders .mysql "c d").scope).map
          Expression.text = .ok "UPPER(`c d`.`AddressCity`)" := by
  have joined : (customersWithOrders .mysql "c d").joins ≠ [] := List.cons_ne_nil _ _
  have simple : Dialect.mysql.Simple "AddressCity" := by decide +kernel
  have aliasSimple : Dialect.mysql.Simple "c d" := by decide +kernel
  have start : (capitalCity (.new .mysql)).StartsFrom (.new .mysql) "AddressCity"
      [.method .string "to_uppercase" [] .string] := .object rfl rfl (.column rfl rfl)
  obtain ⟨-, -, qualified⟩ := rootColumn_qualified_iff (customersWithOrders .mysql "c d") joined
    (capitalCity (.new .mysql)) rfl
  obtain ⟨member, column⟩ := qualified _ _ start simple
  have quoted : Dialect.mysql.quotePart "c d" ++ "." ++ Dialect.mysql.quote "AddressCity" =
      "`c d`.`AddressCity`" := by decide +kernel
  have root := (column.mpr aliasSimple).trans (congrArg Expression.raw quoted)
  refine ⟨joined, rfl, start, simple, root, ?_⟩
  rw [Member.compile, member, root]
  rfl

/-- **A column is not found under an alias with a dot**: FROM quotes the alias as a whole, and the
column is written behind its two parts. -/
theorem dottedAlias_misqualified : ∃ e,
    { (new ⟨"T", some "a.b"⟩ (.new .sqlServer)).join .cross ⟨"U", none⟩ .always with
        columns := [.member (Path.rootMember (.new .sqlServer) "Name" .string)] }.select = .ok e ∧
      e.template = "SELECT [a].[b].[Name] FROM [T] [a.b] CROSS JOIN [U]" ∧
      (TableName.mk "T" (some "a.b")).reference .sqlServer = "[a.b]" ∧
      Dialect.sqlServer.Simple "Name" ∧
      ¬ (TableName.mk "T" (some "a.b")).Qualifies .sqlServer "Name" ∧
      Registry.rootColumn ⟨.new .sqlServer, ⟨"T", some "a.b"⟩, true⟩ true "Name" ≠
        .raw ("[a.b]" ++ "." ++ Dialect.sqlServer.quote "Name") := by
  refine ⟨_, rfl, by decide +kernel, by decide +kernel, by decide +kernel,
    fun h => absurd h.undotted (by decide), fun h => ?_⟩
  have templates := congrArg Expression.template h
  revert templates
  decide +kernel

end Query
end SqlWeave
