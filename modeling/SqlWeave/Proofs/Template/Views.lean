import SqlWeave.Proofs.Redaction.Fragment
import SqlWeave.Proofs.Template.Fragment

/-!
# The views of a fragment agree

What a fragment says can be read off it in several ways: its text, its values, the flat fragment,
and the statement with its values numbered. Each of them splices the inner fragments. Here the
splicing is checked against the template with its places and parameters alone: the text of a
parameter stands at its place, and the numbers stand where the flat template has its places.

Results:
* `views_agree`: all views of a fragment say the same.
-/

namespace SqlWeave

namespace Param

/-- The text that a parameter leaves at its place. -/
def text : Param → String
  | value _ => "?"
  | expression e => e.text

/-- The values of a parameter. -/
def values : Param → List Value
  | value v => [v]
  | expression e => e.values

end Param

namespace Piece

/-- What comes out of filling is text or was filled in. -/
theorem mem_fill {xs : List Template.Symbol} {read : List Char} {fillings : List (List Piece)}
    {p : Piece} (h : p ∈ fill read xs fillings) : (∃ s, p = .text s) ∨ ∃ f ∈ fillings, p ∈ f := by
  have hflush : ∀ (read : List Char) (ps : List Piece),
      p ∈ flush read ps → (∃ s, p = .text s) ∨ p ∈ ps := by
    intro read ps hm
    cases read with
    | nil => exact .inr hm
    | cons c cs => exact (List.mem_cons.mp hm).imp_left fun hp => ⟨_, hp⟩
  induction xs generalizing read fillings with
  | nil => exact .inl ((hflush read [] h).resolve_right List.not_mem_nil)
  | cons x xs ih =>
    cases x with
    | char c => exact ih h
    | hole =>
      cases fillings with
      | nil => exact ih h
      | cons f fillings =>
        rcases hflush read _ h with hs | h
        · exact .inl hs
        · rcases List.mem_append.mp h with h | h
          · exact .inr ⟨f, List.mem_cons_self, h⟩
          · exact (ih h).imp_right fun ⟨g, hg, hp⟩ => ⟨g, List.mem_cons_of_mem _ hg, hp⟩

end Piece

mutual

/-- Nothing is nested among leaves. -/
theorem Expression.ne_nested_of_mem_leaves : ∀ e : Expression, ∀ p ∈ e.leaves, ∀ inner,
    p ≠ .nested inner
  | ⟨template, slots, params⟩ => by
    intro p h inner
    rw [Expression.leaves] at h
    rcases Piece.mem_fill h with ⟨s, rfl⟩ | ⟨f, hf, hp⟩
    · exact fun h => by cases h
    · exact Param.ne_nested_of_mem_leavesAll params f hf p hp inner

theorem Param.ne_nested_of_mem_leavesAll : ∀ ps : List Param, ∀ f ∈ Param.leavesAll ps, ∀ p ∈ f,
    ∀ inner, p ≠ .nested inner
  | [] => fun _ h => by cases h
  | a :: ps => List.forall_mem_cons.mpr
      ⟨Param.ne_nested_of_mem_leaves a, Param.ne_nested_of_mem_leavesAll ps⟩

theorem Param.ne_nested_of_mem_leaves : ∀ a : Param, ∀ p ∈ a.leaves, ∀ inner, p ≠ .nested inner
  | .value v => List.forall_mem_singleton.mpr fun _ h => by cases h
  | .expression e => by
    rw [Param.leaves]
    exact Expression.ne_nested_of_mem_leaves e

end

namespace Piece

/-- Among pieces without a nested one, the parameters are the values. -/
theorem params_of_flat {ps : List Piece} (h : ∀ p ∈ ps, ∀ inner, p ≠ .nested inner) :
    params ps = (values ps).map .value := by
  induction ps with
  | nil => rfl
  | cons p ps ih =>
    have hps := ih fun q hq => h q (List.mem_cons_of_mem _ hq)
    cases p with
    | text s => exact hps
    | bound v => exact congrArg (Param.value v :: ·) hps
    | nested inner => exact absurd rfl (h _ List.mem_cons_self inner)

end Piece

namespace Expression

/-! ## Flat fragments -/

theorem isFlat_ofPieces {ps : List Piece} (h : ∀ p ∈ ps, ∀ inner, p ≠ .nested inner) :
    (ofPieces ps).isFlat := by
  intro a ha inner hi
  have hp : (ofPieces ps).params = (Piece.values ps).map .value := Piece.params_of_flat h
  rw [hp] at ha
  obtain ⟨v, -, rfl⟩ := List.mem_map.mp ha
  cases hi

theorem isFlat_flatten (e : Expression) : e.flatten.isFlat :=
  isFlat_ofPieces e.ne_nested_of_mem_leaves

theorem leaves_of_isFlat {e : Expression} (h : e.isFlat) : e.leaves = e.pieces := by
  rw [leaves_eq]
  refine Piece.leavesAll_of_flat fun p hp inner hi => ?_
  subst hi
  exact h _ (mem_params_of_nested_mem_pieces hp) inner rfl

/-- The leaves of pieces without a nested one are the pieces, joined. -/
theorem leaves_ofPieces_of_flat {ps : List Piece} (h : ∀ p ∈ ps, ∀ inner, p ≠ .nested inner) :
    (ofPieces ps).leaves = Piece.normal ps := by
  rw [leaves_of_isFlat (isFlat_ofPieces h), pieces_ofPieces]

/-- The parameters of a flat fragment are its values. -/
theorem params_of_isFlat {e : Expression} (he : e.Placed) (h : e.isFlat) :
    e.params = e.values.map .value := by
  have hflat : ∀ p ∈ e.pieces, ∀ inner, p ≠ .nested inner := fun p hp inner hi =>
    h _ (mem_params_of_nested_mem_pieces (hi ▸ hp)) inner rfl
  have hp : e.params = Piece.params e.pieces := congrArg params he.eq_ofPieces
  rw [hp, Piece.params_of_flat hflat, values, leaves_of_isFlat h]

theorem values_flatten (e : Expression) : e.flatten.values = e.values := by
  rw [flatten, values_ofPieces, Piece.leavesAll_of_flat e.ne_nested_of_mem_leaves, values]

theorem params_flatten (e : Expression) : e.flatten.params = e.values.map .value :=
  Piece.params_of_flat e.ne_nested_of_mem_leaves

/-- What is flat already is not changed. -/
theorem flatten_flatten (e : Expression) : e.flatten.flatten = e.flatten := by
  have hl : e.flatten.leaves = Piece.normal e.leaves :=
    leaves_ofPieces_of_flat e.ne_nested_of_mem_leaves
  rw [flatten, hl, ofPieces_normal, flatten]

/-! ## Text -/

theorem template_ofPieces (ps : List Piece) :
    (ofPieces ps).template = String.join (ps.map Piece.template) := rfl

/-- Where nothing is nested, the template is the text. -/
theorem text_ofPieces_of_flat {ps : List Piece} (h : ∀ p ∈ ps, ∀ inner, p ≠ .nested inner) :
    (ofPieces ps).text = (ofPieces ps).template := by
  rw [text, leaves_ofPieces_of_flat h, ← template_ofPieces, ofPieces_normal]

theorem template_flatten (e : Expression) : e.flatten.template = e.text := rfl

/-- The text of pieces has the text of every parameter at its place. -/
theorem join_leavesAll (ps : List Piece) :
    String.join ((Piece.leavesAll ps).map Piece.template) =
      fillPieces ps ((Piece.params ps).map Param.text) := by
  induction ps with
  | nil => rfl
  | cons p ps ih =>
    rw [Piece.leavesAll, List.map_append, String.join_append, ih]
    cases p with
    | text s => exact congrArg (· ++ _) String.empty_append
    | bound v => rfl
    | nested inner => rfl

theorem Placed.text_eq {e : Expression} (he : e.Placed) :
    e.text = fillPieces e.pieces (e.params.map Param.text) := by
  have hp : e.params = Piece.params e.pieces := congrArg params he.eq_ofPieces
  rw [text, leaves_eq, join_leavesAll, hp]

theorem values_leavesAll (ps : List Piece) :
    Piece.values (Piece.leavesAll ps) = (Piece.params ps).flatMap Param.values := by
  induction ps with
  | nil => rfl
  | cons p ps ih =>
    rw [Piece.leavesAll, Piece.values_append, ih]
    cases p with
    | text s => rfl
    | bound v => rfl
    | nested inner => rfl

theorem Placed.values_eq {e : Expression} (he : e.Placed) :
    e.values = e.params.flatMap Param.values := by
  have hp : e.params = Piece.params e.pieces := congrArg params he.eq_ofPieces
  rw [Expression.values_eq, values_leavesAll, hp]

/-! ## Numbered values -/

theorem renderFrom_eq (style : Style) (ps : List Piece) : ∀ (n : Nat) (acc : String),
    renderFrom style n ps acc =
      acc ++ fillPieces ps ((List.range' n (Piece.params ps).length).map style.mark) := by
  induction ps with
  | nil => exact fun _ acc => (String.append_empty (s := acc)).symm
  | cons p ps ih =>
    intro n acc
    -- what is no text takes the next number
    have hplace : renderFrom style (n + 1) ps (acc ++ style.mark n) =
        acc ++ (style.mark n ++
          fillPieces ps ((List.range' (n + 1) (Piece.params ps).length).map style.mark)) := by
      rw [ih, String.append_assoc]
    cases p with
    | text s =>
      rw [renderFrom, ih, String.append_assoc]
      rfl
    | bound v => exact hplace
    | nested inner => exact hplace

/-- The numbers of a statement stand at the places of the flat template. -/
theorem sql_render (e : Expression) (style : Style) :
    (e.render style).sql =
      Template.replaceAt e.flatten.template e.flatten.slots
        ((List.range' 1 e.values.length).map style.mark) := by
  have hn : (Piece.params e.leaves).length = e.values.length := by
    rw [Piece.params_of_flat e.ne_nested_of_mem_leaves, List.length_map, values]
  have hl : ((List.range' 1 e.values.length).map style.mark).length =
      (Piece.params e.leaves).length := by
    rw [hn, List.length_map, List.length_range']
  rw [flatten, replaceAt_ofPieces e.leaves hl]
  change renderFrom style 1 e.leaves "" = fillPieces e.leaves _
  rw [renderFrom_eq, hn, String.empty_append]

theorem sql_render_question (e : Expression) : (e.render .question).sql = e.text := by
  have h : ∀ (ps : List Piece) (n : Nat) (acc : String), renderFrom .question n ps acc =
      acc ++ String.join (ps.map Piece.template) := by
    intro ps
    induction ps with
    | nil => exact fun _ acc => (String.append_empty (s := acc)).symm
    | cons p ps ih =>
      intro n acc
      rw [List.map_cons, String.join_cons, ← String.append_assoc]
      cases p with
      | text s => exact ih n (acc ++ s)
      | bound v => exact ih (n + 1) (acc ++ "?")
      | nested inner => exact ih (n + 1) (acc ++ "?")
  exact (h e.leaves 1 "").trans String.empty_append

theorem render_flatten (e : Expression) (style : Style) :
    e.flatten.render style = e.render style := by
  have hsql : (e.flatten.render style).sql = (e.render style).sql := by
    rw [sql_render, sql_render, flatten_flatten, values_flatten]
  have hparams : (e.flatten.render style).params = (e.render style).params := e.values_flatten
  generalize e.flatten.render style = a at hsql hparams
  generalize e.render style = b at hsql hparams
  obtain ⟨sa, pa⟩ := a
  obtain ⟨sb, pb⟩ := b
  cases hsql
  cases hparams
  rfl

/-! ## All views -/

/-- The views of a fragment as its template, places and parameters determine them. -/
structure Views (e : Expression) : Prop where
  /-- Each parameter's text stands at its place. -/
  text : e.text = Template.replaceAt e.template e.slots (e.params.map Param.text)
  /-- The values are those of the parameters, in the order of their places. -/
  values : e.values = e.params.flatMap Param.values
  template_flatten : e.flatten.template = e.text
  params_flatten : e.flatten.params = e.values.map .value
  /-- As many places as values, in increasing order. -/
  length_slots : e.flatten.slots.length = e.values.length
  pairwise_slots : e.flatten.slots.Pairwise (· < ·)
  flatten_flatten : e.flatten.flatten = e.flatten
  params_render : ∀ style, (e.render style).params = e.values
  render_question : (e.render .question).sql = e.text
  render_atSign : (e.render .atSign).sql =
    Template.replaceAt e.flatten.template e.flatten.slots
      ((List.range' 1 e.values.length).map fun k => "@p" ++ Number.natText k)
  render_colon : (e.render .colon).sql =
    Template.replaceAt e.flatten.template e.flatten.slots
      ((List.range' 1 e.values.length).map fun k => ":p" ++ Number.natText k)
  render_flatten : ∀ style, e.flatten.render style = e.render style

/-- **All views of a well-placed fragment agree**, whatever is nested in it. -/
theorem views_agree (e : Expression) (h : e.Placed) : e.Views where
  text := by
    rw [h.replaceAt (List.length_map _)]
    exact h.text_eq
  values := h.values_eq
  template_flatten := e.template_flatten
  params_flatten := e.params_flatten
  length_slots := by
    rw [flatten, (placed_ofPieces _).length, ← List.length_map (f := Param.value), ← params_flatten]
    rfl
  pairwise_slots := (placed_ofPieces e.leaves).increasing
  flatten_flatten := e.flatten_flatten
  params_render := e.params_render
  render_question := e.sql_render_question
  render_atSign := e.sql_render .atSign
  render_colon := e.sql_render .colon
  render_flatten := e.render_flatten

/-- The first letters of a name, compared with a text that has a question mark of its own. -/
def initials : Expression :=
  .new "? = ?" [.expression (.new "SUBSTRING(?,?,?)" [.expression (.raw "[Name?]"),
    .value (.int 1), .value (.int 3)]), .value (.text "Who?")]

theorem views_initials : initials.Placed ∧ initials.Views :=
  have h : initials.Placed := placed_new rfl
  ⟨h, views_agree initials h⟩

end Expression
end SqlWeave
