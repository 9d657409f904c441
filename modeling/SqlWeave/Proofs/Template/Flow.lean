import SqlWeave.Proofs.Template.Fragment

/-!
# Pieces whose text closes its quotes

What stands at the places of a fragment is spliced in later: a question mark, a literal, or another
fragment. A fragment is sound if its own text is right whatever comes there. `Flow W P Q ps` says
so: the text among the pieces is read as it is meant from every place that `P` accepts up to one
that `Q` accepts, each of the other pieces stands outside of quotes, and what follows it may follow
closed quotes. `W` is what is known of the fragments nested in it.

Results:
* `Flow.append`, `Flow.normal`: pieces that flow may be put one after another, and joined.
* `Flow.reads`: whatever is put at the places, the whole is read as it is meant.
* `placeholders_of_flow`: scanning the template of a fragment finds its places.
-/

namespace SqlWeave

open Template

namespace Piece

/-- Pieces that lead from a place that `P` accepts to one that `Q` accepts. -/
inductive Flow (W : Expression → Prop) : (Place → Prop) → (Place → Prop) → List Piece → Prop
  | nil {P Q : Place → Prop} (h : ∀ p, P p → Q p) : Flow W P Q []
  | text {P Q R : Place → Prop} {s : String} {ps : List Piece} (h : Reads P Q (chars s))
      (rest : Flow W Q R ps) : Flow W P R (.text s :: ps)
  | bound {P R : Place → Prop} {v : Value} {ps : List Piece} (h : ∀ p, P p → Outside p)
      (rest : Flow W Settled R ps) : Flow W P R (.bound v :: ps)
  | nested {P R : Place → Prop} {inner : Expression} {ps : List Piece} (h : ∀ p, P p → Outside p)
      (hw : W inner) (rest : Flow W Settled R ps) : Flow W P R (.nested inner :: ps)

end Piece

/-- A property of the fragment that a parameter is, if it is one. -/
def Param.Of (W : Expression → Prop) : Param → Prop
  | value _ => True
  | expression e => W e

namespace Piece

variable {W : Expression → Prop} {P P' Q Q' R : Place → Prop} {ps qs : List Piece}

/-! ## Putting pieces together -/

theorem Flow.mono (h : Flow W P Q ps) (hP : ∀ p, P' p → P p) (hQ : ∀ p, Q p → Q' p) :
    Flow W P' Q' ps := by
  induction h generalizing P' with
  | nil h => exact .nil fun p hp => hQ p (h p (hP p hp))
  | text h _ ih => exact .text (h.mono hP fun _ hp => hp) (ih (fun _ hp => hp) hQ)
  | bound h _ ih => exact .bound (fun p hp => h p (hP p hp)) (ih (fun _ hp => hp) hQ)
  | nested h hw _ ih => exact .nested (fun p hp => h p (hP p hp)) hw (ih (fun _ hp => hp) hQ)

theorem Flow.of_settled (h : Flow W Settled Q ps) : Flow W Outside Q ps :=
  h.mono settled_of_outside fun _ hp => hp

theorem Flow.settled (h : Flow W P Outside ps) : Flow W P Settled ps :=
  h.mono (fun _ hp => hp) settled_of_outside

theorem Flow.append (h : Flow W P Q ps) (k : Flow W Q R qs) : Flow W P R (ps ++ qs) := by
  induction h with
  | nil h => exact k.mono h fun _ hp => hp
  | text h _ ih => exact .text h (ih k)
  | bound h _ ih => exact .bound h (ih k)
  | nested h hw _ ih => exact .nested h hw (ih k)

theorem Flow.refl : Flow W P P [] := .nil fun _ hp => hp

/-- A text outside of quotes, given letter by letter. -/
theorem Flow.neutral {cs : List Char} (hs : isNeutral cs = true) (h : Flow W Outside R ps) :
    Flow W Outside R (.text (.ofList cs) :: ps) := .text (neutral_of hs) h

/-- A text that may end with closed quotes. -/
theorem Flow.word {s : String} (hs : Word s) (h : Flow W Settled R ps) :
    Flow W Outside R (.text s :: ps) := .text hs h

/-- A text, given letter by letter, that may follow what is put at a place. -/
theorem Flow.joint {cs : List Char} (hs : isJoint cs = true) (h : Flow W Outside R ps) :
    Flow W Settled R (.text (.ofList cs) :: ps) := .text (joint_of hs) h

/-- A parameter at its place. -/
theorem Flow.param {a : Param} (ha : a.Of W) (h : Flow W Settled R ps) :
    Flow W Outside R (a.piece :: ps) := by
  cases a with
  | value v => exact .bound (fun _ hp => hp) h
  | expression e => exact .nested (fun _ hp => hp) ha h

/-- Parameters with a separator between them, and what follows. -/
theorem Flow.params {s : String} (hs : Joint s) (h : Flow W Settled R ps) :
    ∀ {a : Param} {args : List Param}, (∀ x ∈ a :: args, x.Of W) →
      Flow W Outside R (((a :: args).map Param.piece).intersperse (.text s) ++ ps)
  | a, [], ha => .param (ha a List.mem_cons_self) h
  | a, _ :: _, ha =>
    .param (ha a List.mem_cons_self) <|
      .text hs (Flow.params hs h fun x hx => ha x (List.mem_cons_of_mem _ hx))

/-- Texts that flow if anything is woven in: the first outside of quotes, each other one behind
what comes to a place. -/
def isSound : List (List Char) → Bool
  | [] => false
  | cs :: texts => isNeutral cs && texts.all isJoint

/-- Texts that may follow what comes to a place, with more woven in. -/
theorem Flow.weave_joints {texts : List (List Char)} (hs : texts.all isJoint = true) :
    ∀ {args : List Param}, (∀ a ∈ args, a.Of W) → Flow W Settled Settled (weave texts args) := by
  induction texts with
  | nil => exact fun _ => .refl
  | cons cs texts ih =>
    intro args ha
    obtain ⟨hcs, htexts⟩ := Bool.and_eq_true_iff.mp hs
    cases args with
    | nil => exact .joint hcs (.nil settled_of_outside)
    | cons a args =>
      obtain ⟨ha, hargs⟩ := List.forall_mem_cons.mp ha
      exact .joint hcs (.param ha (ih htexts hargs))

/-- **Sound texts flow, whatever is woven in.** -/
theorem Flow.weave {texts : List (List Char)} (hs : isSound texts = true) {args : List Param}
    (ha : ∀ a ∈ args, a.Of W) : Flow W Outside Settled (weave texts args) := by
  cases texts with
  | nil => cases hs
  | cons cs texts =>
    obtain ⟨hcs, htexts⟩ := Bool.and_eq_true_iff.mp hs
    cases args with
    | nil => exact .neutral hcs (.nil settled_of_outside)
    | cons a args =>
      obtain ⟨ha, hargs⟩ := List.forall_mem_cons.mp ha
      exact .neutral hcs (.param ha (Flow.weave_joints htexts hargs))

/-! ## Joined text -/

theorem Flow.cons_text {s : String} (hs : Reads P Q (chars s)) (h : Flow W Q R ps) :
    Flow W P R (cons (.text s) ps) := by
  by_cases he : s = ""
  · subst he
    have hp : ∀ p, P p → Q p := fun p hp => (hs p hp).2
    simpa [cons] using h.mono hp fun _ hr => hr
  · cases h with
    | @text _ Q' _ t ps ht hrest =>
      have hst : Reads P Q' (chars (s ++ t)) := by
        rw [chars_append]
        exact hs.append ht
      simpa [cons, he] using Flow.text hst hrest
    | nil h => simpa [cons, he] using Flow.text hs (.nil h)
    | bound h hrest => simpa [cons, he] using Flow.text hs (.bound h hrest)
    | nested h hw hrest => simpa [cons, he] using Flow.text hs (.nested h hw hrest)

/-- Joining text keeps the flow. -/
theorem Flow.normal (h : Flow W P Q ps) : Flow W P Q (normal ps) := by
  induction h with
  | nil h => exact .nil h
  | text h _ ih => exact Flow.cons_text h ih
  | bound h _ ih => exact .bound h ih
  | nested h hw _ ih => exact .nested h hw ih

/-! ## Reading -/

/-- **Whatever is put at the places, the whole is read as it is meant**, as long as each of it is
read as it is meant outside of quotes. -/
theorem Flow.reads {g : Piece → List Symbol} (h : Flow W P Q ps)
    (ht : ∀ s, g (.text s) = chars s) (hb : ∀ v, Reads Outside Settled (g (.bound v)))
    (hn : ∀ inner, W inner → Reads Outside Settled (g (.nested inner))) :
    Reads P Q (ps.flatMap g) := by
  induction h with
  | nil h => exact reads_nil.mono (fun _ hp => hp) h
  | text h _ ih =>
    rw [List.flatMap_cons, ht]
    exact h.append ih
  | bound h _ ih =>
    rw [List.flatMap_cons]
    exact ((hb _).append ih).mono h fun _ hp => hp
  | nested h hw _ ih =>
    rw [List.flatMap_cons]
    exact ((hn _ hw).append ih).mono h fun _ hp => hp

end Piece

namespace Expression

variable {W : Expression → Prop} {Q : Place → Prop}

theorem flow_ofPieces {ps : List Piece} (h : Piece.Flow W Outside Q ps) :
    Piece.Flow W Outside Q (ofPieces ps).pieces := by
  rw [pieces_ofPieces]
  exact h.normal

theorem flow_wrap {e : Expression} {before after : String} (he : W e)
    (hb : Neutral before) (ha : Tail after) :
    Piece.Flow W Outside Settled (e.wrap before after).pieces := by
  rw [wrap_eq]
  exact flow_ofPieces <| .text hb <| .nested (fun _ hp => hp) he <| .text ha .refl

/-- **Scanning the template of a fragment finds its places.** -/
theorem placeholders_of_flow {ps : List Piece} (h : Piece.Flow W Outside Q ps) :
    placeholders (ofPieces ps).template = (ofPieces ps).slots := by
  have hole : Reads Outside Settled [.hole] := reads_hole.of_settled.settled
  exact placeholders_of_reads (h.reads (fun _ => rfl) (fun _ => hole) fun _ _ => hole)

/-- A template that flows around its parameters is the fragment of its pieces. -/
theorem new_eq_of_flow {ps : List Piece} (h : Piece.Flow W Outside Q ps) :
    new (ofPieces ps).template (Piece.params ps) = ofPieces ps :=
  ext rfl (placeholders_of_flow h) rfl

end Expression
end SqlWeave
