import SqlWeave.Member.Registry
import SqlWeave.Phrase

/-!
# Conditions

Trees of comparisons, as WHERE, HAVING and ON hold them. A comparison with the missing value is
written as a test for it, a list without values as a constant, and a node without text is left out
together with the word that would join it. A list of more than one condition stands in parentheses
inside another.

Results:
* `isEmpty_not`: a negation is empty exactly when its condition is.
-/

namespace SqlWeave

/-- A side of a comparison. -/
inductive Operand where
  | column (name : String)
  | value (v : Value)
  | expression (e : Expression)
  | member (m : Member)
  deriving Inhabited

namespace Operand

/-- The missing value. -/
def isNull : Operand → Bool
  | value v => v.isNull
  | _ => false

/-- An operand in a statement. -/
def phrase (s : Scope) : Operand → Phrase
  | column name => [.text (s.dialect.quote name)]
  | value v => [.value v]
  | expression e => Phrase.ofExpression e
  | member m => Phrase.ofResult ((m.compile s).map Phrase.ofExpression)

end Operand

/-- A condition. -/
inductive Condition where
  | and (items : List Condition)
  | or (items : List Condition)
  | not (inner : Condition)
  | compare (left : Operand) (op : String) (right : Operand)
  | nullCheck (operand : Operand) (isNull : Bool)
  | inList (operand : Operand) (values : List Value) (negated : Bool)
  | inExpression (operand : Operand) (e : Expression) (negated : Bool)
  | between (operand : Operand) (low high : Value) (negated : Bool)
  /-- A predicate as it is. -/
  | expression (e : Expression)
  | always
  | never
  deriving Inhabited

namespace Condition

/-- A value is in a list; in none if the list has no values. -/
def isIn (operand : Operand) (values : List Value) : Condition :=
  if values.isEmpty then never else inList operand values false

/-- A value is not in a list. -/
def isNotIn (operand : Operand) (values : List Value) : Condition :=
  if values.isEmpty then always else inList operand values true

/-- A column compared with another one. -/
def columns (left op right : String) : Condition := compare (.column left) op (.column right)

/-- A column has a value. -/
def equals (column : String) (v : Value) : Condition := compare (.column column) "=" (.value v)

mutual

/-- The condition writes no text. -/
def isEmpty : Condition → Bool
  | and items => allEmpty items
  | or items => allEmpty items
  | not inner => isEmpty inner
  | expression e => e.isEmpty
  | _ => false

/-- No condition of a list writes text. -/
def allEmpty : List Condition → Bool
  | [] => true
  | c :: rest => isEmpty c && allEmpty rest

end

/-- The conditions of a list that write text. -/
def written (items : List Condition) : List Condition := items.filter (!·.isEmpty)

/-- A list of more than one condition, which needs parentheses among others. -/
def needsParens : Condition → Bool
  | and items | or items => 1 < (written items).length
  | _ => false

/-- A phrase in parentheses where they are needed. -/
def enclosed (parens : Bool) (p : Phrase) : Phrase :=
  if parens then .text "(" :: p ++ [.text ")"] else p

/-- The test for the missing value. -/
def nullTest (isNull : Bool) : String := if isNull then " IS NULL" else " IS NOT NULL"

/-- An operator, or its negation. -/
def operator (negated : Bool) (op : String) : String := (if negated then " NOT " else " ") ++ op

mutual

/-- A condition in a statement. -/
def phrase (s : Scope) : Condition → Phrase
  | and items => Phrase.join " AND " (operands s items)
  | or items => Phrase.join " OR " (operands s items)
  | not inner =>
    if inner.isEmpty then [] else .text "NOT (" :: phrase s inner ++ [.text ")"]
  | compare left op right =>
    if right.isNull ∧ (op = "=" ∨ op = "!=" ∨ op = "<>") then
      left.phrase s ++ [.text (nullTest (op = "="))]
    else left.phrase s ++ [.text " ", .text op, .text " "] ++ right.phrase s
  | nullCheck operand isNull => operand.phrase s ++ [.text (nullTest isNull)]
  | inList operand values negated =>
    if values.isEmpty then [.text (if negated then "1=1" else "1=0")]
    else
      operand.phrase s ++ .text (operator negated "IN (") :: Phrase.ofValues values ++ [.text ")"]
  | inExpression operand e negated =>
    operand.phrase s ++ .text (operator negated "IN (") :: Phrase.ofExpression e ++ [.text ")"]
  | between operand low high negated =>
    operand.phrase s ++
      [.text (operator negated "BETWEEN "), .value low, .text " AND ", .value high]
  | expression e => Phrase.ofExpression e
  | always => [.text "1=1"]
  | never => [.text "1=0"]

/-- The conditions of a list that write text, as operands of the word that joins them. -/
def operands (s : Scope) : List Condition → List Phrase
  | [] => []
  | c :: rest =>
    if c.isEmpty then operands s rest
    else enclosed c.needsParens (phrase s c) :: operands s rest

end

theorem isEmpty_not (c : Condition) : (Condition.not c).isEmpty = c.isEmpty := by
  simp [isEmpty]

end Condition

/-! ## Groups -/

/-- The word that joins a condition to the ones before it. -/
inductive Connective where
  | and
  | or
  deriving DecidableEq, Repr

/-- The word itself, between blanks. -/
def Connective.text : Connective → String
  | and => " AND "
  | or => " OR "

/-- Conditions, each joined to the ones before it by a word of its own. -/
abbrev ConditionGroup := List (Connective × Condition)

namespace ConditionGroup

/-- No condition of the group writes text. -/
def isEmpty (g : ConditionGroup) : Bool := g.all (·.2.isEmpty)

/-- A condition and the word in front of it. -/
def item (s : Scope) (i : Connective × Condition) : Phrase :=
  .text i.1.text :: Condition.enclosed i.2.needsParens (i.2.phrase s)

/-- A group in a statement; its first word is left out. -/
def phrase (s : Scope) (g : ConditionGroup) : Phrase :=
  ((g.filter (!·.2.isEmpty)).flatMap (item s)).drop 1

/-- The group with a condition more. -/
def add (g : ConditionGroup) (word : Connective) (c : Condition) : ConditionGroup :=
  g ++ [(word, c)]

theorem phrase_of_isEmpty (s : Scope) {g : ConditionGroup} (h : g.isEmpty = true) :
    phrase s g = [] := by
  have : g.filter (!·.2.isEmpty) = [] := by
    rw [List.filter_eq_nil_iff]
    intro i hi
    have := List.all_eq_true.1 h i hi
    simpa using this
  simp [phrase, this]

end ConditionGroup
end SqlWeave
