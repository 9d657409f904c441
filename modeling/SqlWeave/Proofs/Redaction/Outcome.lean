import SqlWeave.Proofs.Redaction.Query
import SqlWeave.Query.Batch

/-!
# Redacted phrases and what becomes of them

A redacted phrase is written like the phrase as long as texts are bound: which values stand in the
text depends on their kinds, and those that do are kept by redaction. Two runs end alike if both
fail with one error, or both succeed with related results.

Results:
* `toExpression_redact`: a redacted phrase becomes the redacted fragment.
* `alike_of_redact_eq`: phrases alike when redacted have fragments of one form, or one error.
* `weight_redact`: a redacted row binds as many values as the row.
-/

namespace SqlWeave

/-! ## Writing redacted phrases -/

theorem isPlain_redact (v : Value) : Binding.isPlain v.redact = Binding.isPlain v := by
  cases v <;> rfl

namespace Config

theorem isPlain_intercept (c : Config) (v : Value) :
    Binding.isPlain (c.intercept v) = Binding.isPlain v := by
  unfold intercept
  cases c.dateFormat with
  | none => rfl
  | some pattern => cases v <;> rfl

/-- What becomes of a value depends on its kind, up to the content. -/
theorem redact_intercept (c : Config) (v : Value) :
    (c.intercept v.redact).redact = (c.intercept v).redact := by
  unfold intercept
  cases c.dateFormat with
  | none => exact v.redact_redact
  | some pattern => cases v <;> rfl

end Config

namespace Binding

variable {c : Config} (he : c.escapeStrings = false)
include he

theorem binds_ofConfig (v : Value) : (ofConfig c).binds v = !isPlain v := by
  simp [binds, ofConfig, he]

theorem place_redact (part : Part) :
    ((ofConfig c).place part.redact).map Piece.redact =
      ((ofConfig c).place part).map Piece.redact := by
  cases part with
  | text s => rfl
  | failure e => rfl
  | bound v =>
    exact congrArg (fun v => Except.ok (Piece.bound v)) (c.redact_intercept v)
  | value v =>
    cases hv : isPlain v with
    | true => rw [Part.redact, Value.redact_of_isPlain hv]
    | false =>
      have hb : ∀ w, isPlain w = false → (ofConfig c).place (.value w) =
          .ok (.bound (c.intercept w)) := fun w hw => by
        have : (ofConfig c).binds (c.intercept w) = true := by
          rw [binds_ofConfig he, c.isPlain_intercept, hw]
          rfl
        exact if_pos this
      rw [Part.redact, hb v hv, hb v.redact ((isPlain_redact v).trans hv)]
      exact congrArg (fun v => Except.ok (Piece.bound v)) (c.redact_intercept v)

theorem weightOfParam_redact (p : Param) :
    (ofConfig c).weightOfParam p.redact = (ofConfig c).weightOfParam p := by
  have hb : ∀ v : Value, (ofConfig c).binds ((ofConfig c).intercept v.redact) =
      (ofConfig c).binds ((ofConfig c).intercept v) := fun v => by
    rw [binds_ofConfig he, binds_ofConfig he]
    exact congrArg _ (((c.isPlain_intercept _).trans (isPlain_redact v)).trans
      (c.isPlain_intercept v).symm)
  cases p with
  | value v => simp only [Param.redact, weightOfParam, hb]
  | expression e =>
    simp only [Param.redact, weightOfParam, e.values_redact, List.countP_map, Function.comp_def, hb]

theorem weight_redact (r : Row) : (ofConfig c).weight r.redact = (ofConfig c).weight r := by
  unfold weight Row.redact
  rw [List.map_map]
  congr 2
  funext cell
  exact weightOfParam_redact he cell.value

end Binding

namespace Phrase

variable {c : Config}

/-- Lists found alike are alike behind pieces that are alike. -/
theorem map_cons_congr {x x' : Piece} {r r' : Result (List Piece)} (hx : x'.redact = x.redact)
    (hr : r'.map (·.map Piece.redact) = r.map (·.map Piece.redact)) :
    (r'.map (x' :: ·)).map (·.map Piece.redact) = (r.map (x :: ·)).map (·.map Piece.redact) := by
  have h : ∀ (y : Piece) (r : Result (List Piece)),
      (r.map (y :: ·)).map (·.map Piece.redact) =
        (r.map (·.map Piece.redact)).map (y.redact :: ·) := fun y r => by cases r <;> rfl
  rw [h, h, hx, hr]

theorem written_redact (he : c.escapeStrings = false) (p : Phrase) :
    (p.redact.written (.ofConfig c)).map (·.map Piece.redact) =
      (p.written (.ofConfig c)).map (·.map Piece.redact) := by
  induction p with
  | nil => rfl
  | cons part p ih =>
    have hp := Binding.place_redact he part
    rw [redact, List.map_cons, written_cons, written_cons]
    cases h : (Binding.ofConfig c).place part with
    | error e =>
      rw [h] at hp
      cases h' : (Binding.ofConfig c).place part.redact with
      | error e' => rw [h'] at hp; cases hp; rfl
      | ok x => rw [h'] at hp; cases hp
    | ok x =>
      rw [h] at hp
      cases h' : (Binding.ofConfig c).place part.redact with
      | error e' => rw [h'] at hp; cases hp
      | ok x' =>
        rw [h'] at hp
        have hx : x'.redact = x.redact := Except.ok.inj hp
        refine map_cons_congr hx ?_
        exact ih

/-- **A redacted phrase becomes the redacted fragment**, or fails with the same error. -/
theorem toExpression_redact (he : c.escapeStrings = false) (p : Phrase) :
    (p.redact.toExpression (.ofConfig c)).map Expression.redact =
      (p.toExpression (.ofConfig c)).map Expression.redact := by
  have hr : ∀ r : Result (List Piece), (r.map Expression.ofPieces).map Expression.redact =
      (r.map (·.map Piece.redact)).map .ofPieces := fun r => by
    cases r with
    | error e => rfl
    | ok ps => exact congrArg Except.ok (Expression.redact_ofPieces ps)
  rw [toExpression_eq, toExpression_eq, hr, hr, written_redact he]

/-- No fragment stands in a statement. -/
theorem isFlat_of_toExpression {b : Binding} {p : Phrase} {e : Expression}
    (h : p.toExpression b = .ok e) : e.isFlat := by
  obtain ⟨ps, hps, rfl⟩ := toExpression_eq_ok_iff.mp h
  intro a ha inner hi
  obtain ⟨x, hx, hxa⟩ := List.mem_filterMap.mp ha
  cases x with
  | text s => cases hxa
  | bound v =>
    cases hxa
    cases hi
  | nested e => exact ne_nested_of_mem_written hps hx e rfl

end Phrase

/-! ## Outcomes -/

/-- Two runs end alike: with one error, or with related results. -/
inductive Alike {α : Type} (R : α → α → Prop) : Result α → Result α → Prop
  | error (e : Error) : Alike R (.error e) (.error e)
  | ok {a b : α} (h : R a b) : Alike R (.ok a) (.ok b)

namespace Phrase

variable {c : Config}

/-- **Phrases alike when redacted have fragments of one form**, or one error. -/
theorem alike_of_redact_eq (he : c.escapeStrings = false) {p q : Phrase}
    (h : p.redact = q.redact) :
    Alike Expression.SameForm (p.toExpression (.ofConfig c)) (q.toExpression (.ofConfig c)) := by
  have hr : (p.toExpression (.ofConfig c)).map Expression.redact =
      (q.toExpression (.ofConfig c)).map Expression.redact := by
    rw [← toExpression_redact he p, h, toExpression_redact he q]
  cases hp : p.toExpression (.ofConfig c) with
  | error e =>
    rw [hp] at hr
    cases hq : q.toExpression (.ofConfig c) with
    | error e' => rw [hq] at hr; cases hr; exact .error e
    | ok b => rw [hq] at hr; cases hr
  | ok a =>
    rw [hp] at hr
    cases hq : q.toExpression (.ofConfig c) with
    | error e' => rw [hq] at hr; cases hr
    | ok b =>
      rw [hq] at hr
      exact .ok (Expression.sameForm_of_redact_eq (isFlat_of_toExpression hp) (Except.ok.inj hr))

/-- Phrases written one after another end alike if they are alike when redacted. -/
theorem alike_mapM (he : c.escapeStrings = false) : ∀ {ps qs : List Phrase},
    ps.map redact = qs.map redact →
    Alike (List.Forall₂ Expression.SameForm) (ps.mapM (·.toExpression (.ofConfig c)))
      (qs.mapM (·.toExpression (.ofConfig c)))
  | [], [], _ => .ok .nil
  | p :: ps, q :: qs, h => by
    obtain ⟨hp, hps⟩ := List.cons_eq_cons.mp h
    rw [List.mapM_cons, List.mapM_cons]
    have ha := alike_of_redact_eq he hp
    have has := alike_mapM he hps
    generalize p.toExpression (.ofConfig c) = r, q.toExpression (.ofConfig c) = r' at ha
    generalize ps.mapM (·.toExpression (.ofConfig c)) = rs,
      qs.mapM (·.toExpression (.ofConfig c)) = rs' at has
    cases ha with
    | error e => exact .error e
    | ok ha =>
      cases has with
      | error e => exact .error e
      | ok has => exact .ok (.cons ha has)

end Phrase
end SqlWeave
