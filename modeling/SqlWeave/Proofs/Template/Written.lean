import SqlWeave.Proofs.Template.Flow
import SqlWeave.Proofs.Template.Word

/-!
# Phrases that close their quotes

The text of a statement is that of the pieces its phrase becomes. `Phrase.Reads b P Q p` says that
these, if the phrase can be written, are read as they are meant from every place that `P` accepts up
to one that `Q` accepts. Two kinds of phrases make up a statement: an *item*, such as a name, a
value or a condition, which stands outside of quotes and may end with closed ones, and a *clause*,
which follows an item and may be followed like one.

A fragment that is sound at every depth (`Firm`) is an item, whether its values are bound or written
in place.

Results:
* `item_part`: a value is an item, however it is written.
* `item_join`: items with a joint between them are one.
* `item_ofExpression`: a firm fragment is an item.
-/

namespace SqlWeave

open Template

namespace Phrase

/-- What the phrase becomes is read as it is meant, from places that `P` accepts to places that `Q`
accepts. -/
def Reads (b : Binding) (P Q : Place → Prop) (p : Phrase) : Prop :=
  ∀ ps, p.written b = .ok ps → Template.Reads P Q (ps.flatMap Piece.symbols)

/-- A phrase that may stand outside of quotes and may end with closed ones. -/
abbrev Item (b : Binding) (p : Phrase) : Prop := Reads b Outside Settled p

/-- A phrase that may follow an item and be followed like one. -/
abbrev Clause (b : Binding) (p : Phrase) : Prop := Reads b Settled Settled p

variable {b : Binding} {P P' Q Q' R : Place → Prop} {p q : Phrase} {s : String}

/-! ## Putting phrases together -/

theorem Reads.mono (h : Reads b P Q p) (hP : ∀ x, P' x → P x) (hQ : ∀ x, Q x → Q' x) :
    Reads b P' Q' p := fun ps hps => (h ps hps).mono hP hQ

theorem Reads.settled (h : Reads b P Outside p) : Reads b P Settled p :=
  h.mono (fun _ hp => hp) settled_of_outside

theorem Reads.of_settled (h : Reads b Settled Q p) : Reads b Outside Q p :=
  h.mono settled_of_outside fun _ hp => hp

theorem reads_nil : Reads b P P [] := by
  intro ps h
  cases h
  exact Template.reads_nil

theorem item_nil : Item b [] := reads_nil.settled

theorem Reads.append (hp : Reads b P Q p) (hq : Reads b Q R q) : Reads b P R (p ++ q) := by
  intro xs h
  obtain ⟨ps, qs, hps, hqs, rfl⟩ := written_append_eq_ok_iff.mp h
  rw [List.flatMap_append]
  exact (hp ps hps).append (hq qs hqs)

theorem Reads.text (hs : Template.Reads P Q (chars s)) (hp : Reads b Q R p) :
    Reads b P R (.text s :: p) := by
  intro xs h
  rw [written_text] at h
  obtain ⟨ps, hps, rfl⟩ := map_eq_ok_iff.mp h
  rw [List.flatMap_cons]
  exact hs.append (hp ps hps)

/-- A text outside of quotes, given letter by letter, in front of a phrase. -/
theorem Reads.neutral {cs : List Char} (hs : isNeutral cs = true) (hp : Reads b Outside R p) :
    Reads b Outside R (.text (.ofList cs) :: p) := .text (neutral_of hs) hp

/-- A text behind an item, given letter by letter. -/
theorem Reads.joint {cs : List Char} (hs : isJoint cs = true) (hp : Reads b Outside R p) :
    Reads b Settled R (.text (.ofList cs) :: p) := .text (joint_of hs) hp

/-- A name or a literal in front of a clause. -/
theorem Reads.word (hs : Word s) (hp : Reads b Settled R p) : Reads b Outside R (.text s :: p) :=
  .text hs hp

/-- A text behind an item and in front of a clause. -/
theorem Reads.tail (hs : Tail s) (hp : Reads b Settled R p) : Reads b Settled R (.text s :: p) :=
  .text hs hp

/-- A phrase that fails is never written. -/
theorem reads_failure (e : Error) : Reads b P Q (.failure e :: p) := by
  intro ps h
  cases h

theorem reads_failIf (bad : Bool) (e : Error) : Reads b P P (failIf bad e) := by
  cases bad with
  | true => exact reads_failure e
  | false => exact reads_nil

theorem reads_onlyIf (holds : Bool) (h : Reads b P P p) : Reads b P P (onlyIf holds p) := by
  cases holds with
  | true => exact h
  | false => exact reads_nil

/-- Phrases of one kind, one after another. -/
theorem reads_flatMap {α : Type} {f : α → Phrase} : ∀ {xs : List α},
    (∀ x ∈ xs, Reads b P P (f x)) → Reads b P P (xs.flatMap f)
  | [], _ => reads_nil
  | x :: xs, h => by
    rw [List.flatMap_cons]
    exact (h x List.mem_cons_self).append
      (reads_flatMap fun y hy => h y (List.mem_cons_of_mem _ hy))

/-- **Items with a joint between them are an item.** -/
theorem item_join {cs : List Char} {phrases : List Phrase} (hs : isJoint cs = true)
    (hp : ∀ p ∈ phrases, Item b p) : Item b (join (.ofList cs) phrases) := by
  induction phrases with
  | nil => exact item_nil
  | cons p phrases ih =>
    have hrest := ih fun x hx => hp x (List.mem_cons_of_mem _ hx)
    have hhead := hp p List.mem_cons_self
    cases phrases with
    | nil =>
      rw [join_singleton]
      exact hhead
    | cons q phrases => exact hhead.append (.joint hs hrest)

/-- Items made of the elements of a list, with a joint between them. -/
theorem item_join_map {α : Type} {f : α → Phrase} {cs : List Char} {xs : List α}
    (hs : isJoint cs = true) (hx : ∀ x ∈ xs, Item b (f x)) :
    Item b (join (.ofList cs) (xs.map f)) := by
  refine item_join hs fun p hp => ?_
  obtain ⟨x, hm, rfl⟩ := List.mem_map.mp hp
  exact hx x hm

/-- A text around an item. -/
theorem item_enclosed {cs ds : List Char} (hs : isNeutral cs = true) (ht : isJoint ds = true)
    (hp : Item b p) : Item b (.text (.ofList cs) :: p ++ [.text (.ofList ds)]) :=
  (Reads.neutral hs hp).append (.joint ht item_nil)

/-! ## Values -/

/-- What a value becomes is an item. -/
theorem reads_place {part : Part} {x : Piece} (hp : b.place part = .ok x)
    (ht : ∀ s, part ≠ .text s) : Template.Reads Outside Settled x.symbols := by
  have hole : Template.Reads Outside Settled [.hole] := reads_hole.of_settled.settled
  have hliteral : ∀ v : Value, (b.literal v).map Piece.text = .ok x →
      Template.Reads Outside Settled x.symbols := by
    intro v h
    obtain ⟨s, hs, rfl⟩ := map_eq_ok_iff.mp h
    unfold Binding.literal at hs
    cases hl : b.dialect.literal v with
    | none => rw [hl] at hs; cases hs
    | some t =>
      rw [hl] at hs
      cases hs
      exact Dialect.word_literal hl
  cases part with
  | text s => exact absurd rfl (ht s)
  | failure e => cases hp
  | value v =>
    simp only [Binding.place] at hp
    split at hp
    · cases hp
      exact hole
    · exact hliteral _ hp
  | bound v =>
    simp only [Binding.place] at hp
    split at hp
    · exact hliteral _ hp
    · cases hp
      exact hole

theorem item_part {part : Part} (ht : ∀ s, part ≠ .text s) : Item b [part] := by
  intro xs h
  rw [written_singleton] at h
  obtain ⟨x, hx, rfl⟩ := map_eq_ok_iff.mp h
  rw [List.flatMap_singleton]
  exact reads_place hx ht

/-- A value in front of a clause, bound or written in place. -/
theorem Reads.value {v : Value} (hp : Reads b Settled R p) : Reads b Outside R (.value v :: p) :=
  (item_part fun s h => by cases h).append hp

/-- A bound value in front of a clause. -/
theorem Reads.bound {v : Value} (hp : Reads b Settled R p) : Reads b Outside R (.bound v :: p) :=
  (item_part fun s h => by cases h).append hp

theorem item_value (v : Value) : Item b [.value v] := .value reads_nil

theorem item_ofValues (values : List Value) : Item b (ofValues values) :=
  item_join_map (by decide) fun v _ => item_value v

end Phrase

/-! ## Fragments -/

/-- A fragment that is sound at every depth. -/
inductive Firm : Expression → Prop
  | intro {e : Expression} (flow : Piece.Flow (fun _ => True) Outside Settled e.pieces)
      (inner : ∀ f, .nested f ∈ e.pieces → Firm f) : Firm e

namespace Piece

variable {W : Expression → Prop} {P Q : Place → Prop} {ps : List Piece}

theorem Flow.forget (h : Flow W P Q ps) : Flow (fun _ => True) P Q ps := by
  induction h with
  | nil h => exact .nil h
  | text h _ ih => exact .text h ih
  | bound h _ ih => exact .bound h ih
  | nested h _ _ ih => exact .nested h trivial ih

theorem Flow.of_nested_mem (h : Flow W P Q ps) {inner : Expression} (hi : .nested inner ∈ ps) :
    W inner := by
  induction h with
  | nil h => cases hi
  | text h _ ih => exact ih (by simpa using hi)
  | bound h _ ih => exact ih (by simpa using hi)
  | nested h hw _ ih =>
    rcases List.mem_cons.mp hi with hi | hi
    · cases hi
      exact hw
    · exact ih hi

end Piece

/-- Sound pieces around firm fragments are firm. -/
theorem firm_of_flow {e : Expression} (h : Piece.Flow Firm Outside Settled e.pieces) : Firm e :=
  .intro h.forget fun _ hi => h.of_nested_mem hi

namespace Phrase

variable {b : Binding}

/-- The leaves of pieces, each as its own phrase. -/
theorem flatMap_ofLeaf_leavesAll (ps : List Piece) :
    (Piece.leavesAll ps).flatMap ofLeaf = ps.flatMap fun p => p.leaves.flatMap ofLeaf := by
  induction ps with
  | nil => rfl
  | cons p ps ih => rw [Piece.leavesAll, List.flatMap_append, ih, List.flatMap_cons]

/-- Sound pieces are an item if each of those at their places is. -/
theorem reads_of_flow {P Q : Place → Prop} {W : Expression → Prop} {ps : List Piece}
    (h : Piece.Flow W P Q ps) (hi : ∀ inner, .nested inner ∈ ps → Item b (ofExpression inner)) :
    Reads b P Q (ps.flatMap fun p => p.leaves.flatMap ofLeaf) := by
  induction h with
  | nil h => exact reads_nil.mono (fun _ hp => hp) h
  | text h _ ih =>
    exact .text h (ih fun inner hm => hi inner (List.mem_cons_of_mem _ hm))
  | bound h _ ih =>
    exact (Reads.value (ih fun inner hm => hi inner (List.mem_cons_of_mem _ hm))).mono h
      fun _ hq => hq
  | @nested _ _ inner ps h _ _ ih =>
    have hhead : Item b (ofExpression inner) := hi inner List.mem_cons_self
    exact (hhead.append (ih fun inner hm => hi inner (List.mem_cons_of_mem _ hm))).mono h
      fun _ hq => hq

/-- **A firm fragment is an item.** -/
theorem item_ofExpression {e : Expression} (h : Firm e) : Item b (ofExpression e) := by
  induction h with
  | @intro e flow _ ih =>
    rw [ofExpression, e.leaves_eq, flatMap_ofLeaf_leavesAll]
    exact reads_of_flow flow ih

theorem item_ofResult {r : Result Phrase} (h : ∀ p, r = .ok p → Item b p) :
    Item b (ofResult r) := by
  cases r with
  | error e => exact reads_failure e
  | ok p => exact h p rfl

/-- A fragment that is found, or the failure to find it. -/
theorem item_spliced {r : Result Expression} (h : ∀ e, r = .ok e → Firm e) :
    Item b (ofResult (r.map ofExpression)) := by
  refine item_ofResult fun p hp => ?_
  obtain ⟨e, he, rfl⟩ := map_eq_ok_iff.mp hp
  exact item_ofExpression (h e he)

/-- Scanning a statement finds its places. -/
theorem placeholders_of_item {p : Phrase} {e : Expression} (hp : Item b p)
    (h : p.toExpression b = .ok e) : placeholders e.template = e.slots := by
  obtain ⟨ps, hps, rfl⟩ := toExpression_eq_ok_iff.mp h
  exact Expression.placeholders_of_reads (hp ps hps)

end Phrase
end SqlWeave
