import SqlWeave.Proofs.Member.Answer

/-!
# The text that members write

The translators of the engines put the fragment built so far and the arguments between texts of
their own. Each of these texts closes the quotes it opens and may follow closed ones, so what a
translator writes is sound whatever the fragment, the arguments and the node are.

Results:
* `flows_new`: a template is sound if its texts are, whatever it is filled with.
* `flows_translate`: what a translator of an engine writes is sound.
-/

namespace SqlWeave

open Template

/-- A fragment whose own text closes its quotes, whatever comes to its places. -/
abbrev Expression.Flows (W : Expression → Prop) (e : Expression) : Prop :=
  Piece.Flow W Outside Settled e.pieces

variable {W : Expression → Prop}

/-- **A template is sound if its texts are**, whatever it is filled with. -/
theorem flows_new {template : String} {params : List Param}
    (hl : (placeholders template).length = params.length)
    (hs : Piece.isSound (cut [] (symbols template)) = true) (ha : ∀ a ∈ params, a.Of W) :
    (Expression.new template params).Flows W := by
  rw [Expression.new_eq_weave hl]
  exact Expression.flow_ofPieces (.weave hs ha)

theorem of_oneBased {a start : Param} (hW : ∀ e : Expression, e.Flows W → W e) (ha : a.Of W)
    (h : oneBased a = .ok start) : start.Of W := by
  unfold oneBased at h
  split at h
  · split at h <;> cases h
    trivial
  · cases h
    exact hW _ (flows_new rfl (by decide) (List.forall_mem_singleton.mpr ha))

theorem of_pattern {a : Param} (d : Dialect) (ha : a.Of W) : (a.pattern d).Of W := by
  unfold Param.pattern
  split
  · cases d <;> trivial
  · exact ha

/-- The texts between which a fragment is put close their quotes. -/
theorem neutral_of_mem_frames {before after : String} (hs : (before, after) ∈ frames) :
    Neutral before ∧ Joint after := by
  have h : ∀ f ∈ frames, checks isNeutral f.1 = true ∧ checks isJoint f.2 = true := by
    decide +kernel
  obtain ⟨hb, ha⟩ := h _ hs
  refine ⟨?_, ?_⟩
  · rw [← String.ofList_toList (s := before)]
    exact neutral_of (of_checks hb)
  · rw [← String.ofList_toList (s := after)]
    exact joint_of (of_checks ha)

theorem neutral_of_mem_clocks {s : String} (hs : s ∈ clocks) : Neutral s := by
  have h : ∀ s ∈ clocks, checks isNeutral s = true := by decide +kernel
  rw [← String.ofList_toList (s := s)]
  exact neutral_of (of_checks (h s hs))

/-- **What a translator of an engine writes is sound**, whatever it is given. -/
theorem flows_translate {d : Dialect} {t : Translator} {s : Scope} {current e : Expression}
    {n : Node} {args : List Param} (hW : ∀ e : Expression, e.Flows W → W e)
    (ht : t ∈ Registry.ofDialect d) (hc : W current) (ha : ∀ x ∈ args, x.Of W)
    (h : t.translate s current n args = .ok e) : e.Flows W := by
  obtain ⟨k, rfl⟩ := Topic.exists_of_mem ht
  have hcol : (Param.expression current).Of W := hc
  have hanswer := k.answer d s current n args
  rw [h] at hanswer
  cases hanswer with
  | clock hs =>
    rw [Expression.raw_eq]
    exact Expression.flow_ofPieces (.text (neutral_of_mem_clocks hs) (.nil settled_of_outside))
  | framed hs =>
    obtain ⟨hb, hj⟩ := neutral_of_mem_frames hs
    exact Expression.flow_wrap hc hb hj.tail
  | filled hs hp =>
    refine flows_new (length_placeholders_of_mem hs) (cut_of_mem_templates hs).1 fun a hm => ?_
    rcases (hp a).mp hm with rfl | hm
    · exact hcol
    · exact Topic.forall_mem_taken ha (fun _ _ => of_oneBased hW) (fun _ => of_pattern d) k _ a hm
  | series hs =>
    rw [series_eq hs]
    exact Expression.flow_ofPieces (flow_series hs (List.forall_mem_cons.mpr ⟨hcol, ha⟩))
  | itself =>
    rw [new_question]
    exact Expression.flow_ofPieces (.param hcol .refl)

end SqlWeave
