import SqlWeave.Member.Registry
import SqlWeave.Phrase

/-!
# Columns of a statement

What the select list, GROUP BY and ORDER BY hold: all columns, a name, a fragment, a member chain,
or a function of other columns. An alias is written in the select list only.
-/

namespace SqlWeave

/-- The functions of columns. -/
inductive Aggregate where
  | count | sum | avg | min | max
  /-- The first value that is not missing; it does not gather rows. -/
  | coalesce
  deriving DecidableEq, Repr

namespace Aggregate

/-- The name of a function. -/
def name : Aggregate → String
  | count => "COUNT"
  | sum => "SUM"
  | avg => "AVG"
  | min => "MIN"
  | max => "MAX"
  | coalesce => "COALESCE"

/-- The function gathers rows. -/
def gathers (f : Aggregate) : Bool := f ≠ coalesce

end Aggregate

/-- A column of a statement. -/
inductive Column where
  /-- `*` -/
  | all
  | named (name : String)
  | aliased (name aliasName : String)
  | raw (e : Expression) (aliasName : Option String)
  | member (m : Member)
  | aggregate (f : Aggregate) (args : List Column) (distinct : Bool) (aliasName : Option String)
  deriving Inhabited

namespace Column

/-- The column of a name; the star stands for all columns. -/
def ofName (name : String) : Column := if name = "*" then all else named name

/-- The column under an alias. -/
def withAlias (c : Column) (aliasName : String) : Column :=
  match c with
  | all => all
  | named n | aliased n _ => aliased n aliasName
  | raw e _ => raw e (some aliasName)
  | member m => member { m with aliasName := some aliasName }
  | aggregate f args distinct _ => aggregate f args distinct (some aliasName)

/-- All columns. -/
def isAll : Column → Bool
  | all => true
  | _ => false

/-- A function that gathers rows. -/
def isAggregate : Column → Bool
  | aggregate f _ _ _ => f.gathers
  | _ => false

/-- The alias, if there is one. -/
def aliasName? : Column → Option String
  | all | named _ => none
  | aliased _ a => some a
  | raw _ a | aggregate _ _ _ a => a
  | member m => m.aliasName

/-- A function of fragments. -/
def applied (f : Aggregate) (distinct : Bool) (args : List Expression) : Expression :=
  let inner : Expression := if args.isEmpty then .raw "*" else .join args ", "
  inner.wrap (f.name ++ if distinct then "(DISTINCT " else "(") ")"

mutual

/-- A column as a fragment, without its alias. -/
def bare (s : Scope) : Column → Result Expression
  | all => .ok (.raw "*")
  | named n => .ok (.raw (s.dialect.quote n))
  | aliased n _ => .ok (.raw (s.dialect.quote n))
  | raw e _ => .ok e
  | member m => m.compile s
  | aggregate f args distinct _ => (bareAll s args).map (applied f distinct)

/-- Columns as fragments, without their aliases. -/
def bareAll (s : Scope) : List Column → Result (List Expression)
  | [] => .ok []
  | c :: rest => do
    let e ← bare s c
    let es ← bareAll s rest
    pure (e :: es)

end

/-- A column as a fragment of the select list. -/
def selected (s : Scope) (c : Column) : Result Expression :=
  (bare s c).map fun e =>
    match c.aliasName? with
    | some a => e.wrap "" (" AS " ++ s.dialect.quotePart a)
    | none => e

/-- A fragment in a statement. -/
def spliced (e : Result Expression) : Phrase := Phrase.ofResult (e.map Phrase.ofExpression)

end Column

/-- A column by which rows are put in order. -/
structure SortKey where
  column : Column
  descending : Bool
  deriving Inhabited

namespace SortKey

/-- A column and its direction, which is always written. -/
def expression (s : Scope) (o : SortKey) : Result Expression :=
  (o.column.bare s).map fun e => e.wrap "" (if o.descending then " DESC" else " ASC")

end SortKey
end SqlWeave
