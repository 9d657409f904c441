import SqlWeave.Proofs.Escaping.Phrase
import SqlWeave.Proofs.Template.WellFormed

/-!
# Texts written in place

A phrase is written in two ways: with its texts bound, or with its texts as literals. The second
fragment is the first with every bound text turned into its literal, as long as the phrase forces no
value to be bound. What that does to the template, the places and the parameters is read off these
three alone.

Results:
* `place_escaping`, `written_escaping`: a part, and a phrase, is written as its literals.
* `inlined_ofPieces`: the template, the places and the parameters of pieces with texts in place.
* `alike_escaping`: the fragment is the one that binds, with its texts in place.
-/

namespace SqlWeave

open Template

/-! ## Fragments with texts in place -/

/-- A piece with its text in place. -/
def Piece.inPlace (d : Dialect) : Piece → Piece
  | .bound (.text s) => .text (d.stringLiteral s)
  | p => p

/-- A text among parameters. -/
def Param.isText : Param → Bool
  | value (.text _) => true
  | _ => false

/-- What stands in the template for a parameter: the literal of a text, or a question mark. -/
def Param.inPlace (d : Dialect) : Param → String
  | value (.text s) => d.stringLiteral s
  | _ => "?"

/-- The places left when texts are in place. `grown` is the number of bytes that the template has
grown by so far. -/
def movedSlots (d : Dialect) (grown : Nat) : List Nat → List Param → List Nat
  | _ :: slots, .value (.text s) :: params =>
    movedSlots d (grown + ((d.stringLiteral s).utf8ByteSize - 1)) slots params
  | i :: slots, _ :: params => (i + grown) :: movedSlots d grown slots params
  | _, _ => []

/-- The second fragment is the first with the literals of its texts in the template and the other
parameters at their places. -/
structure Inlined (d : Dialect) (e e' : Expression) : Prop where
  template : e'.template = replaceAt e.template e.slots (e.params.map (Param.inPlace d))
  slots : e'.slots = movedSlots d 0 e.slots e.params
  params : e'.params = e.params.filter (!·.isText)

namespace Expression

variable {d : Dialect}

theorem template_inPlace (ps : List Piece) :
    (ofPieces (ps.map (Piece.inPlace d))).template =
      replaceAt (ofPieces ps).template (ofPieces ps).slots
        ((Piece.params ps).map (Param.inPlace d)) := by
  rw [replaceAt_ofPieces ps (List.length_map _), template_ofPieces]
  induction ps with
  | nil => rfl
  | cons p ps ih =>
    rw [List.map_cons, List.map_cons, String.join_cons, ih]
    cases p with
    | text s => rfl
    | nested inner => rfl
    | bound v => cases v <;> rfl

theorem utf8ByteSize_stringLiteral_pos (s : String) : 0 < (d.stringLiteral s).utf8ByteSize := by
  have h : (d.stringLiteral s).toList ≠ [] := by
    rw [Dialect.stringLiteral, String.toList_ofList]
    exact List.cons_ne_nil _ _
  rw [← width_chars]
  unfold chars
  cases hc : (d.stringLiteral s).toList with
  | nil => exact absurd hc h
  | cons c cs =>
    have := c.utf8Size_pos
    simp only [width, List.map_cons, List.sum_cons, Symbol.toChar]
    omega

open Piece (slotsFrom)

theorem slotsFrom_inPlace (ps : List Piece) : ∀ n grown : Nat,
    slotsFrom (n + grown) (ps.map (Piece.inPlace d)) =
      movedSlots d grown (slotsFrom n ps) (Piece.params ps) := by
  induction ps with
  | nil => exact fun _ _ => rfl
  | cons p ps ih =>
    intro n grown
    have hkept : ∀ a : Param, a.isText = false → movedSlots d grown (n :: slotsFrom (n + 1) ps)
        (a :: Piece.params ps) = (n + grown) ::
          slotsFrom (n + grown + 1) (ps.map (Piece.inPlace d)) := by
      intro a ha
      have hn : n + grown + 1 = n + 1 + grown := by omega
      rw [hn, ih]
      cases a with
      | expression e => rfl
      | value v =>
        cases v with
        | text s => cases ha
        | _ => rfl
    cases p with
    | text s =>
      have hn : n + grown + s.utf8ByteSize = n + s.utf8ByteSize + grown := by omega
      rw [List.map_cons, Piece.inPlace, slotsFrom, slotsFrom, hn, ih]
      · rfl
      · exact fun s h => by cases h
    | nested inner => exact (hkept (.expression inner) rfl).symm
    | bound v =>
      cases v with
      | text s =>
        have hpos := utf8ByteSize_stringLiteral_pos (d := d) s
        have hn : n + grown + (d.stringLiteral s).utf8ByteSize =
            n + 1 + (grown + ((d.stringLiteral s).utf8ByteSize - 1)) := by omega
        rw [List.map_cons, Piece.inPlace, slotsFrom, hn, ih]
        rfl
      | _ => exact (hkept (.value _) rfl).symm

theorem params_inPlace (ps : List Piece) :
    Piece.params (ps.map (Piece.inPlace d)) = (Piece.params ps).filter (!·.isText) := by
  induction ps with
  | nil => rfl
  | cons p ps ih =>
    cases p with
    | text s => exact ih
    | nested inner => exact congrArg (Param.expression inner :: ·) ih
    | bound v =>
      cases v with
      | text s => exact ih
      | _ => exact congrArg (Param.value _ :: ·) ih

/-- **Pieces with their texts in place**, by their template, places and parameters. -/
theorem inlined_ofPieces (ps : List Piece) :
    Inlined d (ofPieces ps) (ofPieces (ps.map (Piece.inPlace d))) where
  template := template_inPlace ps
  slots := slotsFrom_inPlace ps 0 0
  params := params_inPlace ps

-- the literal of `it's` is six bytes longer than the question mark it stands for
example : movedSlots .mysql 0 [4, 9, 12] [.value (.int 1), .value (.text "it's"), .value .null] =
    [4, 18] := by decide

end Expression

/-! ## Writing phrases -/

namespace Binding

/-- A part that is not bound by force is written with its text in place. -/
theorem place_escaping {c : Config} {part : Part} (h : ∀ v, part ≠ .bound v) :
    (ofConfig (c.escaping true)).place part =
      ((ofConfig (c.escaping false)).place part).map (Piece.inPlace c.dialect) := by
  cases part with
  | text s => rfl
  | failure e => rfl
  | bound v => exact absurd rfl (h v)
  | value v =>
    have hbinds : ∀ (on : Bool) (w : Value), (ofConfig (c.escaping on)).binds w =
        (!isPlain w && !(on && isText w)) := fun _ _ => rfl
    have hliteral : ∀ w : Value,
        ((ofConfig (c.escaping true)).literal w).map Piece.text =
          (((ofConfig (c.escaping false)).literal w).map Piece.text).map
            (Piece.inPlace c.dialect) := by
      intro w
      have hl : (ofConfig (c.escaping true)).literal w =
          (ofConfig (c.escaping false)).literal w := rfl
      rw [hl]
      cases (ofConfig (c.escaping false)).literal w <;> rfl
    change (if (ofConfig (c.escaping true)).binds (c.intercept v) then
        .ok (.bound (c.intercept v))
      else ((ofConfig (c.escaping true)).literal (c.intercept v)).map Piece.text) =
      (if (ofConfig (c.escaping false)).binds (c.intercept v) then
        .ok (.bound (c.intercept v))
      else ((ofConfig (c.escaping false)).literal (c.intercept v)).map Piece.text).map _
    generalize c.intercept v = w
    rw [hbinds, hbinds]
    cases hp : isPlain w with
    | true => exact hliteral w
    | false => cases w <;> rfl

end Binding

namespace Phrase

/-- No value is bound by force. -/
def Unforced (p : Phrase) : Prop := ∀ part ∈ p, ∀ v, part ≠ .bound v

variable {c : Config} {p : Phrase}

theorem written_escaping (h : p.Unforced) :
    p.written (.ofConfig (c.escaping true)) =
      (p.written (.ofConfig (c.escaping false))).map (·.map (Piece.inPlace c.dialect)) := by
  induction p with
  | nil => rfl
  | cons part p ih =>
    rw [written_cons, written_cons, Binding.place_escaping (h part List.mem_cons_self),
      ih fun x hx => h x (List.mem_cons_of_mem _ hx)]
    cases (Binding.ofConfig (c.escaping false)).place part with
    | error e => rfl
    | ok x => cases written (.ofConfig (c.escaping false)) p <;> rfl

/-- **The fragment with texts in place is the one that binds them, with the literals of its texts in
place of these**, or both fail with one error. -/
theorem alike_escaping (h : p.Unforced) :
    Alike (Inlined c.dialect) (p.toExpression (.ofConfig (c.escaping false)))
      (p.toExpression (.ofConfig (c.escaping true))) := by
  rw [toExpression_eq, toExpression_eq, written_escaping h]
  cases p.written (.ofConfig (c.escaping false)) with
  | error e => exact .error e
  | ok ps => exact .ok (Expression.inlined_ofPieces ps)

end Phrase
end SqlWeave
