import SqlWeave.Config
import SqlWeave.Expression

/-!
# Phrases, and how they become fragments

What a statement says is a *phrase*: a list of parts, each text or a value, in reading order. How a
value is written, in place or bound, is a *binding*: it follows from the options alone. A draft
takes phrases one after another; the first part that cannot be written, or that stands for a
failure, ends the phrase, and the parts before it stay.

* A value that is missing, a truth value or a number is written in place.
* Any other value is bound, unless the binding writes all values, or all texts, in place.

Results:
* `write_append`: two phrases after another are one phrase.
* `push_binding`: writing keeps the binding.
-/

namespace SqlWeave

/-- A part of a statement that is to be written. -/
inductive Part where
  | text (s : String)
  /-- A value, in place or bound as the binding decides. -/
  | value (v : Value)
  /-- A value bound even where it could stand in place. -/
  | bound (v : Value)
  /-- The statement cannot be written. -/
  | failure (e : Error)
  deriving Inhabited

/-- What a statement says. -/
abbrev Phrase := List Part

namespace Phrase

/-- Phrases with a separator between them. -/
def join (separator : String) (phrases : List Phrase) : Phrase :=
  (phrases.intersperse [.text separator]).flatten

/-- Values with commas between them. -/
def ofValues (values : List Value) : Phrase := join ", " (values.map fun v => [.value v])

/-- The part that a leaf of a fragment is. -/
def ofLeaf : Piece → Phrase
  | .text s => [.text s]
  | .bound v => [.value v]
  | .nested _ => []

/-- A fragment, whose values are written as the binding decides. -/
def ofExpression (e : Expression) : Phrase := e.leaves.flatMap ofLeaf

/-- A parameter. -/
def ofParam : Param → Phrase
  | .value v => [.value v]
  | .expression e => ofExpression e

/-- A phrase, or the failure to find it. -/
def ofResult : Result Phrase → Phrase
  | .ok p => p
  | .error e => [.failure e]

/-- The failure under a condition. -/
def failIf (bad : Bool) (e : Error) : Phrase := if bad then [.failure e] else []

/-- The phrase under a condition. -/
def onlyIf (holds : Bool) (p : Phrase) : Phrase := if holds then p else []

theorem join_nil (separator : String) : join separator [] = [] := rfl

theorem join_singleton (separator : String) (p : Phrase) : join separator [p] = p := by
  simp [join]

end Phrase

/-- A part as options have it written, or the failure where the program breaks off at its value. -/
def Config.guarded (c : Config) : Part → Part
  | .value v => if c.breaksOff v then .failure .brokenOff else .value v
  | .bound v => if c.breaksOff v then .failure .brokenOff else .bound v
  | part => part

/-- How values are written. -/
structure Binding where
  dialect : Dialect
  /-- What becomes of a value before it is written. -/
  intercept : Value → Value
  /-- Every value is written in place. -/
  inPlace : Bool
  /-- Texts are written in place. -/
  textInPlace : Bool

namespace Binding

/-- The binding of an engine without options. -/
def ofDialect (d : Dialect) : Binding := ⟨d, id, false, false⟩

/-- The binding that follows options. -/
def ofConfig (c : Config) : Binding := ⟨c.dialect, c.intercept, false, c.escapeStrings⟩

/-- The binding of statements that take no values. -/
def literally (b : Binding) : Binding := { b with inPlace := true }

/-- A value as text of the statement. -/
def literal (b : Binding) (v : Value) : Result String :=
  match b.dialect.literal v with
  | some s => .ok s
  | none => .error (.validation (.noLiteral v.kind))

/-- Missing values, truth values and numbers. -/
def isPlain : Value → Bool
  | .null | .bool _ => true
  | v => v.isNumeric

/-- A text. -/
def isText : Value → Bool
  | .text _ => true
  | _ => false

/-- Whether a value, intercepted before, is bound. -/
def binds (b : Binding) (v : Value) : Bool :=
  !isPlain v && !(b.inPlace || (b.textInPlace && isText v))

/-- A part as a piece of the fragment. -/
def place (b : Binding) : Part → Result Piece
  | .text s => .ok (.text s)
  | .value v =>
    let v := b.intercept v
    if b.binds v then .ok (.bound v) else (b.literal v).map .text
  | .bound v =>
    let v := b.intercept v
    if b.inPlace then (b.literal v).map .text else .ok (.bound v)
  | .failure e => .error e

end Binding

/-! ## Drafts -/

/-- A fragment under construction: the pieces written so far, the last one first. -/
structure Draft where
  binding : Binding
  reversed : List Piece := []

namespace Draft

/-- The draft with a piece more; text joins the text before it and empty text is left out. -/
def push (d : Draft) : Piece → Draft
  | .text s =>
    if s.isEmpty then d
    else
      match d.reversed with
      | .text t :: rest => { d with reversed := .text (t ++ s) :: rest }
      | ps => { d with reversed := .text s :: ps }
  | p => { d with reversed := p :: d.reversed }

/-- The draft with the parts of a phrase up to the first that fails, and its failure. -/
def write (d : Draft) : Phrase → Draft × Option Error
  | [] => (d, none)
  | part :: rest =>
    match d.binding.place part with
    | .ok piece => (d.push piece).write rest
    | .error e => (d, some e)

/-- The draft without its pieces. -/
def clear (d : Draft) : Draft := { d with reversed := [] }

/-- The fragment written. -/
def toExpression (d : Draft) : Expression := .ofPieces d.reversed.reverse

/-- The text written, with question marks for the bound values. -/
def text (d : Draft) : String := d.toExpression.template

/-- Nothing was written. -/
def isEmpty (d : Draft) : Bool := d.reversed.isEmpty

theorem push_binding (d : Draft) (p : Piece) : (d.push p).binding = d.binding := by
  cases p <;> simp only [push]
  split
  · rfl
  · split <;> rfl

theorem write_append (d : Draft) (p q : Phrase) :
    d.write (p ++ q) =
      match d.write p with
      | (d', none) => d'.write q
      | (d', some e) => (d', some e) := by
  induction p generalizing d with
  | nil => rfl
  | cons part rest ih =>
    simp only [List.cons_append, write]
    split
    · exact ih _
    · rfl

end Draft

namespace Phrase

/-- The fragment that a phrase becomes under a binding. -/
def toExpression (p : Phrase) (b : Binding) : Result Expression :=
  match Draft.write { binding := b } p with
  | (d, none) => .ok d.toExpression
  | (_, some e) => .error e

end Phrase
end SqlWeave
