import SqlWeave.Proofs.Writing

/-!
# Redacted values and fragments

A redacted value keeps its kind and loses its content; missing values, truth values and numbers
stand in the text of a statement and stay as they are. A redacted fragment has the text of the
fragment and redacted values at its places.

Redaction commutes with everything that builds fragments, so it may be pushed from a statement
down to the values that a query holds.

Results:
* `redact_ofPieces`, `redact_join`, `redact_wrap`, `redact_new`: fragments are built alike.
* `sameForm_of_redact_eq`: fragments alike when redacted have one text, one list of places and
  values of the same kinds.
-/

namespace SqlWeave

namespace Value

/-- A value without its content. What stands in the text of a statement is kept. -/
def redact : Value → Value
  | text _ => text ""
  | bytes _ => bytes []
  | date _ => date default
  | time _ => time default
  | dateTime _ => dateTime default
  | uuid _ => uuid default
  | json _ => json .null
  | v => v

theorem kind_redact (v : Value) : v.redact.kind = v.kind := by cases v <;> rfl

theorem isNull_redact (v : Value) : v.redact.isNull = v.isNull := by cases v <;> rfl

theorem redact_redact (v : Value) : v.redact.redact = v.redact := by cases v <;> rfl

theorem redact_of_isPlain {v : Value} (h : Binding.isPlain v = true) : v.redact = v := by
  cases v <;> simp_all [redact, Binding.isPlain, isNumeric]

end Value

mutual

/-- A fragment with its values redacted. -/
def Expression.redact : Expression → Expression
  | ⟨template, slots, params⟩ => ⟨template, slots, Param.redactAll params⟩

/-- Parameters with their values redacted. -/
def Param.redactAll : List Param → List Param
  | [] => []
  | p :: rest => Param.redact p :: Param.redactAll rest

/-- A parameter with its values redacted. -/
def Param.redact : Param → Param
  | .value v => .value v.redact
  | .expression e => .expression (Expression.redact e)

end

theorem Param.redactAll_eq_map (ps : List Param) : redactAll ps = ps.map redact := by
  induction ps with
  | nil => rfl
  | cons p ps ih => rw [redactAll, ih, List.map_cons]

/-- A piece with its values redacted. -/
def Piece.redact : Piece → Piece
  | text s => text s
  | bound v => bound v.redact
  | nested e => nested e.redact

namespace Piece

theorem template_redact (p : Piece) : p.redact.template = p.template := by cases p <;> rfl

theorem slotsFrom_redact (n : Nat) (ps : List Piece) :
    slotsFrom n (ps.map redact) = slotsFrom n ps := by
  induction ps generalizing n with
  | nil => rfl
  | cons p ps ih => cases p <;> simp [redact, slotsFrom, ih]

theorem params_redact (ps : List Piece) :
    params (ps.map redact) = (params ps).map Param.redact := by
  induction ps with
  | nil => rfl
  | cons p ps ih =>
    rw [List.map_cons, params_cons, ih, params_cons p, List.map_append]
    cases p <;> simp [redact, params, Param.redact]

theorem values_redact (ps : List Piece) :
    values (ps.map redact) = (values ps).map Value.redact := by
  induction ps with
  | nil => rfl
  | cons p ps ih => cases p <;> simp [redact, values, ih]

theorem fill_redact (xs : List Template.Symbol) (read : List Char) (fillings : List (List Piece)) :
    (fill read xs fillings).map redact = fill read xs (fillings.map (·.map redact)) := by
  have h := flatMap_fill (f := fun p => [p.redact]) (fun _ => rfl) xs read fillings
  simpa only [← List.map_eq_flatMap] using h

end Piece

namespace Expression

theorem template_redact (e : Expression) : e.redact.template = e.template := by
  cases e
  rw [redact]

theorem slots_redact (e : Expression) : e.redact.slots = e.slots := by
  cases e
  rw [redact]

theorem params_redact (e : Expression) : e.redact.params = e.params.map Param.redact := by
  cases e
  rw [redact, Param.redactAll_eq_map]

theorem redact_new (template : String) (params : List Param) :
    (new template params).redact = new template (params.map Param.redact) := by
  rw [new, redact, Param.redactAll_eq_map, new]

theorem redact_ofPieces (ps : List Piece) :
    (ofPieces ps).redact = ofPieces (ps.map Piece.redact) := by
  rw [ofPieces, redact, Param.redactAll_eq_map, ofPieces, List.map_map, Piece.slotsFrom_redact,
    Piece.params_redact]
  simp only [Function.comp_def, Piece.template_redact]

theorem redact_raw (s : String) : (raw s).redact = raw s := by
  rw [raw, redact, Param.redactAll]

theorem redact_wrap (e : Expression) (before after : String) :
    (e.wrap before after).redact = e.redact.wrap before after := by
  rw [wrap_eq, wrap_eq, redact_ofPieces]
  rfl

theorem redact_join (parts : List Expression) (separator : String) :
    (join parts separator).redact = join (parts.map redact) separator := by
  unfold join
  rw [redact_ofPieces, map_intersperse, List.map_map, List.map_map]
  rfl

theorem isEmpty_redact (e : Expression) : e.redact.isEmpty = e.isEmpty := by
  unfold isEmpty
  rw [template_redact]

end Expression

mutual

theorem Expression.leaves_redact : ∀ e : Expression, e.redact.leaves = e.leaves.map Piece.redact
  | ⟨template, slots, params⟩ => by
    rw [Expression.redact, Expression.leaves, Expression.leaves, Piece.fill_redact,
      Param.leavesAll_redact params]

theorem Param.leavesAll_redact : ∀ ps : List Param,
    Param.leavesAll (Param.redactAll ps) = (Param.leavesAll ps).map (·.map Piece.redact)
  | [] => rfl
  | p :: rest => by
    rw [Param.redactAll, Param.leavesAll, Param.leavesAll, List.map_cons, Param.leaves_redact p,
      Param.leavesAll_redact rest]

theorem Param.leaves_redact : ∀ p : Param, p.redact.leaves = p.leaves.map Piece.redact
  | .value v => rfl
  | .expression e => by
    rw [Param.redact, Param.leaves, Param.leaves]
    exact Expression.leaves_redact e

end

namespace Expression

/-- The values of a redacted fragment are those of the fragment, redacted. -/
theorem values_redact (e : Expression) : e.redact.values = e.values.map Value.redact := by
  rw [values, leaves_redact, Piece.values_redact, values]

/-! ## Fragments of one form -/

/-- No parameter is a fragment. -/
def isFlat (e : Expression) : Prop := ∀ p ∈ e.params, ∀ inner, p ≠ .expression inner

/-- **Two statements differ in the content of their bound values only**: one text, one list of
places, and at each place two values of one kind. -/
structure SameForm (a b : Expression) : Prop where
  template : a.template = b.template
  slots : a.slots = b.slots
  params : List.Forall₂ (fun p r => ∃ v w, p = .value v ∧ r = .value w ∧ v.kind = w.kind)
    a.params b.params

theorem params_of_redact_eq : ∀ {ps qs : List Param}, (∀ p ∈ ps, ∀ inner, p ≠ .expression inner) →
    ps.map Param.redact = qs.map Param.redact →
    List.Forall₂ (fun p r => ∃ v w, p = .value v ∧ r = .value w ∧ v.kind = w.kind) ps qs
  | [], [], _, _ => .nil
  | p :: ps, q :: qs, hf, h => by
    obtain ⟨hp, hps⟩ := List.cons_eq_cons.mp h
    obtain ⟨hflat, hrest⟩ := List.forall_mem_cons.mp hf
    refine .cons ?_ (params_of_redact_eq hrest hps)
    cases p with
    | expression e => exact absurd rfl (hflat e)
    | value v =>
      cases q with
      | expression e => simp [Param.redact] at hp
      | value w =>
        have hv : v.redact = w.redact := by simpa [Param.redact] using hp
        have hk : v.kind = w.kind := by rw [← v.kind_redact, hv, w.kind_redact]
        exact ⟨v, w, rfl, rfl, hk⟩

theorem sameForm_of_redact_eq {a b : Expression} (ha : a.isFlat) (h : a.redact = b.redact) :
    SameForm a b := by
  have hp := congrArg params h
  rw [params_redact, params_redact] at hp
  refine ⟨?_, ?_, params_of_redact_eq ha hp⟩
  · rw [← template_redact a, h, template_redact]
  · rw [← slots_redact a, h, slots_redact]

end Expression
end SqlWeave
