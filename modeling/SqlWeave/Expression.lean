import SqlWeave.Error
import SqlWeave.Template
import SqlWeave.Value.Basic

/-!
# Fragments of statements

A fragment is a template with values and other fragments at its places. Its template, its places
and what stands at them are kept apart, and nothing but the way it was made lets them fit together.
Where they do not, a place without a parameter is a question mark and a parameter without a place is
left out.

`Expression.pieces` reads a fragment from left to right, and `Expression.leaves` splices the inner
fragments in place. Every view is read off the leaves: the text with question marks, the bound
values, the flat fragment, and the statement with its values numbered.

Results:
* `params_render`: every style binds the values of the fragment, in their order.
-/

namespace SqlWeave

open Number
open Template (Symbol)

mutual

/-- A fragment of a statement: its text with a character for each place, the places in bytes of the
text, and what stands at them. -/
structure Expression where
  template : String
  slots : List Nat
  params : List Param

/-- What stands at a place of a fragment: a value or another fragment. -/
inductive Param where
  | value (v : Value)
  | expression (e : Expression)

end

instance : Inhabited Expression := ⟨⟨"", [], []⟩⟩

instance : Inhabited Param := ⟨.expression default⟩

/-! ## Equality -/

mutual

/-- Equality of fragments. -/
def Expression.beq : Expression → Expression → Bool
  | ⟨t, slots, ps⟩, ⟨t', slots', ps'⟩ => t == t' && slots == slots' && Param.beqAll ps ps'

/-- Equality of lists of parameters. -/
def Param.beqAll : List Param → List Param → Bool
  | [], [] => true
  | p :: ps, q :: qs => Param.beq p q && Param.beqAll ps qs
  | _, _ => false

/-- Equality of parameters. -/
def Param.beq : Param → Param → Bool
  | .value v, .value w => v == w
  | .expression e, .expression f => Expression.beq e f
  | _, _ => false

end

instance : BEq Expression := ⟨Expression.beq⟩

instance : BEq Param := ⟨Param.beq⟩

/-! ## Pieces -/

/-- A piece of a fragment: text, or what stands at a place. -/
inductive Piece where
  | text (s : String)
  | bound (v : Value)
  | nested (e : Expression)
  deriving Inhabited

/-- The piece that a parameter is. -/
def Param.piece : Param → Piece
  | value v => .bound v
  | expression e => .nested e

namespace Piece

/-- Text in front of pieces, unless it is empty; the last character read comes first. -/
def flush (read : List Char) (ps : List Piece) : List Piece :=
  if read.isEmpty then ps else text (String.ofList read.reverse) :: ps

/-- Symbols with their holes filled in order. `read` holds the text since the last hole, last
character first. A hole for which nothing is left is a question mark. -/
def fill (read : List Char) : List Symbol → List (List Piece) → List Piece
  | [], _ => flush read []
  | .char c :: rest, fillings => fill (c :: read) rest fillings
  | .hole :: rest, [] => fill ('?' :: read) rest []
  | .hole :: rest, f :: fillings => flush read (f ++ fill [] rest fillings)

/-- The text of a piece; a question mark stands for what is not text. -/
def template : Piece → String
  | text s => s
  | _ => "?"

/-- The places of a list of pieces in bytes, the first piece standing at `offset`. -/
def slotsFrom (offset : Nat) : List Piece → List Nat
  | [] => []
  | text s :: rest => slotsFrom (offset + s.utf8ByteSize) rest
  | _ :: rest => offset :: slotsFrom (offset + 1) rest

/-- What stands at the places among pieces. -/
def params (ps : List Piece) : List Param :=
  ps.filterMap fun
    | text _ => none
    | bound v => some (.value v)
    | nested e => some (.expression e)

/-- The bound values among pieces. -/
def values : List Piece → List Value
  | [] => []
  | bound v :: rest => v :: values rest
  | _ :: rest => values rest

end Piece

/-- How the places of bound values are written. -/
inductive Style where
  /-- `?` -/
  | question
  /-- `@p1`, `@p2`, … -/
  | atSign
  /-- `:p1`, `:p2`, … -/
  | colon
  deriving DecidableEq, Repr

/-- The place of the value with a number. -/
def Style.mark (style : Style) (n : Nat) : String :=
  match style with
  | question => "?"
  | atSign => "@p" ++ natText n
  | colon => ":p" ++ natText n

/-- The text of a statement and the values bound to it. -/
structure Statement where
  sql : String
  params : List Value
  deriving Inhabited

namespace Expression

/-! ## Building -/

/-- A template with its placeholders filled. It is for the caller to give as many parameters as
there are placeholders. -/
def new (template : String) (params : List Param) : Expression :=
  ⟨template, Template.placeholders template, params⟩

/-- A template with its placeholders filled, as many as there are parameters. -/
def ofTemplate? (template : String) (params : List Param) : Result Expression :=
  let slots := Template.placeholders template
  if slots.length = params.length then .ok ⟨template, slots, params⟩
  else .error (.validation (.placeholderCount template slots.length params.length))

/-- The fragment without text. -/
def empty : Expression := ⟨"", [], []⟩

/-- Text in which nothing is a placeholder. -/
def raw (s : String) : Expression := ⟨s, [], []⟩

/-- The fragment of pieces one behind the other. -/
def ofPieces (ps : List Piece) : Expression :=
  ⟨String.join (ps.map Piece.template), Piece.slotsFrom 0 ps, Piece.params ps⟩

/-- Fragments with a separator between them. -/
def join (parts : List Expression) (separator : String) : Expression :=
  ofPieces ((parts.map Piece.nested).intersperse (.text separator))

/-- A fragment between two texts. -/
def wrap (e : Expression) (before after : String) : Expression :=
  ⟨before ++ "?" ++ after, [before.utf8ByteSize], [.expression e]⟩

/-! ## Views -/

/-- The characters of the template, and a hole at each place. -/
def symbols (e : Expression) : List Symbol := Template.symbolsAt 0 e.template.toList e.slots

/-- The pieces from left to right. -/
def pieces (e : Expression) : List Piece :=
  Piece.fill [] e.symbols (e.params.map fun p => [p.piece])

end Expression

mutual

/-- The pieces with every inner fragment spliced in. -/
def Expression.leaves : Expression → List Piece
  | ⟨template, slots, params⟩ =>
    Piece.fill [] (Template.symbolsAt 0 template.toList slots) (Param.leavesAll params)

/-- The pieces that each parameter leaves. -/
def Param.leavesAll : List Param → List (List Piece)
  | [] => []
  | p :: rest => Param.leaves p :: Param.leavesAll rest

/-- The pieces that a parameter leaves. -/
def Param.leaves : Param → List Piece
  | .value v => [.bound v]
  | .expression e => Expression.leaves e

end

namespace Expression

/-- The text with every inner fragment spliced in. -/
def text (e : Expression) : String := String.join (e.leaves.map Piece.template)

/-- The template is empty. -/
def isEmpty (e : Expression) : Bool := e.template.isEmpty

/-- The bound values in their order. -/
def values (e : Expression) : List Value := Piece.values e.leaves

/-- The fragment with every inner fragment spliced in. -/
def flatten (e : Expression) : Expression := ofPieces e.leaves

/-- The text of leaves, the bound values numbered from `n` on. -/
def renderFrom (style : Style) (n : Nat) : List Piece → String → String
  | [], acc => acc
  | .text s :: rest, acc => renderFrom style n rest (acc ++ s)
  | _ :: rest, acc => renderFrom style (n + 1) rest (acc ++ style.mark n)

/-- The statement with its values numbered from one. -/
def render (e : Expression) (style : Style) : Statement :=
  ⟨renderFrom style 1 e.leaves "", e.values⟩

theorem params_render (e : Expression) (style : Style) : (e.render style).params = e.values := rfl

end Expression
end SqlWeave
