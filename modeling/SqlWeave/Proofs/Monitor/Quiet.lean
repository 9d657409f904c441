import SqlWeave.Proofs.Clauses.Projection
import SqlWeave.Proofs.Monitor.Conflict
import SqlWeave.Proofs.Template.Composed

/-!
# What is quiet in a statement

What a statement is put together from besides its own words: values, members with the functions of
the engines around them, columns and conditions. If texts are bound, a value leaves a question mark,
a number or one of a few words. If the names are silent, all of it is quiet, whatever the engine.

Operators are written as they are given, between two blanks. The operand in front of an operator
stands next to it, so the two have to be silent together.

Results:
* `Binding.mute_place`: nothing is awaited behind a value.
* `Registry.hushed_apply`: what a translator of an engine writes is quiet and has a barrier.
* `hushed_compile`: so is a member whose names are silent.
* `Column.quiet_bare`, `Column.quiet_selected`: columns whose names are silent are quiet.
* `Condition.hushed_phrase`, `ConditionGroup.hushed_phrase`: so are conditions.
-/

namespace SqlWeave

open Conflict Number

/-! ## Values -/

/-- All values are bound that are no missing values, truth values or numbers. -/
structure Binding.BindsAll (b : Binding) : Prop where
  inPlace : b.inPlace = false
  textInPlace : b.textInPlace = false

theorem Conflict.isBarrier_of_isFigure {c : Char} (h : Template.isFigure c = true) :
    isBarrier c = true := by
  simp only [Template.isFigure, Bool.or_eq_true, decide_eq_true_eq] at h
  rcases h with (h | rfl) | rfl
  · exact isBarrier_of_isDigit h
  · decide
  · decide

theorem Conflict.mute_of_isFigure {s : String} (hne : s ≠ "")
    (h : ∀ c ∈ s.toList, Template.isFigure c = true) : Mute s :=
  mute_of_isBarrier hne fun c hc => isBarrier_of_isFigure (h c hc)

theorem Conflict.quiet_natText (n : Nat) : Quiet (natText n) :=
  (mute_of_isFigure (natText_ne_empty n) fun _ => isFigure_of_mem_natText).quiet

theorem Dialect.mute_literal {d : Dialect} {v : Value} {s : String}
    (hv : Binding.isPlain v = true) (h : d.literal v = some s) : Mute s := by
  have hne : s ≠ "" := literal_ne_empty h
  cases v with
  | null =>
    cases h
    exact mute_of (by decide)
  | bool b =>
    cases h
    cases d <;> cases b <;> exact mute_of (by decide)
  | int n =>
    cases h
    exact mute_of_isFigure hne fun _ => isFigure_of_mem_intText
  | decimal x =>
    cases h
    exact mute_of_isFigure hne fun _ => isFigure_of_mem_decimalText
  | float x =>
    obtain ⟨-, h⟩ := Option.ite_none_right_eq_some.mp h
    cases h
    have hwords : ∀ w ∈ ["NaN", "inf", "-inf"], Mute w := by
      simp only [List.forall_mem_cons, List.not_mem_nil, IsEmpty.forall_iff, implies_true, and_true]
      exact ⟨mute_of (by decide), mute_of (by decide), mute_of (by decide)⟩
    exact (floatText_cases x).elim (mute_of_isFigure hne) (hwords _)
  | _ => cases hv

variable {b : Binding}

/-- **Behind a value nothing is awaited**, bound or in place. -/
theorem Binding.mute_place (hb : b.BindsAll) {v : Value} {x : Piece}
    (h : b.place (.value v) = .ok x) : Mute x.template := by
  simp only [place] at h
  split at h
  · cases h
    exact (mute_of (by decide) : Mute "?")
  · next hbinds =>
    obtain ⟨s, hs, rfl⟩ := map_eq_ok_iff.mp h
    have hplain : isPlain (b.intercept v) = true := by
      simpa [binds, hb.inPlace, hb.textInPlace] using hbinds
    unfold literal at hs
    split at hs
    · next hl =>
      cases hs
      exact Dialect.mute_literal hplain hl
    · cases hs

namespace Phrase

/-- If the phrase can be written, what it says is quiet. -/
def Hushed (b : Binding) (p : Phrase) : Prop := Writable b p → Quiet (said b p)

variable {p q : Phrase} {s : String}

theorem mute_said_value (hb : b.BindsAll) {v : Value} (hw : Writable b [.value v]) :
    Mute (said b [.value v]) := by
  obtain ⟨x, hx⟩ := hw _ List.mem_cons_self
  rw [said_cons, said_nil, String.append_empty, partSaid, hx]
  exact Binding.mute_place hb hx

/-- A value that cannot be written leaves no text. -/
theorem quiet_said_value (hb : b.BindsAll) (v : Value) : Quiet (said b [.value v]) := by
  rw [said_cons, said_nil, String.append_empty, partSaid]
  split
  · next hx => exact (Binding.mute_place hb hx).quiet
  · exact quiet_empty

theorem hushed_of_quiet (h : Quiet (said b p)) : Hushed b p := fun _ => h

theorem hushed_nil : Hushed b [] := fun _ => quiet_empty

theorem Hushed.append (hp : Hushed b p) (hq : Hushed b q) : Hushed b (p ++ q) := by
  intro hw
  obtain ⟨hwp, hwq⟩ := writable_append_iff.mp hw
  rw [said_append]
  exact (hp hwp).append (hq hwq)

theorem Hushed.text (hs : Quiet s) (hp : Hushed b p) : Hushed b (.text s :: p) := by
  intro hw
  rw [said_text_cons]
  exact hs.append (hp fun part hm => hw part (List.mem_cons_of_mem _ hm))

theorem hushed_text (hs : Quiet s) : Hushed b [.text s] := .text hs hushed_nil

theorem hushed_flatMap {α : Type} {f : α → Phrase} {xs : List α} (h : ∀ x ∈ xs, Hushed b (f x)) :
    Hushed b (xs.flatMap f) := by
  induction xs with
  | nil => exact hushed_nil
  | cons x xs ih =>
    rw [List.flatMap_cons]
    exact (h x List.mem_cons_self).append (ih fun y hy => h y (List.mem_cons_of_mem _ hy))

theorem hushed_join {separator : String} (hs : Quiet separator) :
    ∀ {phrases : List Phrase}, (∀ p ∈ phrases, Hushed b p) → Hushed b (join separator phrases)
  | [], _ => hushed_nil
  | [p], h => by
    rw [join_singleton]
    exact h p List.mem_cons_self
  | p :: q :: phrases, h => by
    have ih : Hushed b (join separator (q :: phrases)) :=
      hushed_join hs fun x hx => h x (List.mem_cons_of_mem _ hx)
    exact (h p List.mem_cons_self).append (.text hs ih)

theorem hushed_join_map {α : Type} {separator : String} (hs : Quiet separator) {f : α → Phrase}
    {xs : List α} (h : ∀ x ∈ xs, Hushed b (f x)) : Hushed b (join separator (xs.map f)) := by
  refine hushed_join hs fun p hp => ?_
  obtain ⟨x, hx, rfl⟩ := List.mem_map.mp hp
  exact h x hx

theorem hushed_onlyIf (holds : Bool) (h : Hushed b p) : Hushed b (onlyIf holds p) := by
  cases holds with
  | true => exact h
  | false => exact hushed_nil

theorem hushed_failIf (bad : Bool) (e : Error) : Hushed b (failIf bad e) :=
  hushed_of_quiet (by rw [said_failIf]; exact quiet_empty)

theorem hushed_value (hb : b.BindsAll) (v : Value) : Hushed b [.value v] :=
  hushed_of_quiet (quiet_said_value hb v)

theorem hushed_ofValues (hb : b.BindsAll) (values : List Value) : Hushed b (ofValues values) :=
  hushed_join_map (quiet_of (by decide)) fun v _ => hushed_value hb v

end Phrase

/-! ## Fragments -/

/-- What a piece of a fragment says. -/
def Piece.said (b : Binding) (p : Piece) : String := Phrase.said b (p.leaves.flatMap Phrase.ofLeaf)

namespace Expression

/-- What a fragment says. -/
def said (b : Binding) (e : Expression) : String := Phrase.said b (Phrase.ofExpression e)

/-- What a fragment says is quiet and has a barrier. -/
structure Hushed (b : Binding) (e : Expression) : Prop where
  quiet : Quiet (e.said b)
  parted : Parted (e.said b)

theorem said_ofPieces (ps : List Piece) :
    (ofPieces ps).said b = String.join (ps.map (Piece.said b)) := by
  unfold said
  rw [Phrase.said_ofExpression_ofPieces]
  induction ps with
  | nil => rfl
  | cons p ps ih =>
    rw [Piece.leavesAll, List.flatMap_append, Phrase.said_append, ih, List.map_cons,
      String.join_cons]
    rfl

theorem quiet_ofPieces {ps : List Piece} (h : ∀ p ∈ ps, Quiet (p.said b)) :
    Quiet ((ofPieces ps).said b) := by
  rw [said_ofPieces]
  refine quiet_join fun s hs => ?_
  obtain ⟨p, hp, rfl⟩ := List.mem_map.mp hs
  exact h p hp

theorem piece_said_text (s : String) : (Piece.text s).said b = s := by
  unfold Piece.said
  simp [Piece.leaves, Phrase.ofLeaf]

/-- A fragment that begins with a text of its own. -/
theorem hushed_ofPieces {s : String} {ps : List Piece} (hs : Quiet s) (hp : Parted s)
    (h : ∀ p ∈ ps, Quiet (p.said b)) : (ofPieces (.text s :: ps)).Hushed b where
  quiet := by
    refine quiet_ofPieces (List.forall_mem_cons.mpr ⟨?_, h⟩)
    rw [piece_said_text]
    exact hs
  parted := by
    rw [said_ofPieces, List.map_cons, String.join_cons, piece_said_text]
    exact hp.append_left _

theorem hushed_raw {s : String} (hs : Quiet s) (hp : Parted s) : (raw s).Hushed b := by
  rw [raw_eq]
  exact hushed_ofPieces hs hp fun _ hm => by cases hm

theorem hushed_wrap {e : Expression} {before after : String} (he : Quiet (e.said b))
    (hb : Quiet before) (hp : Parted before) (ha : Quiet after) :
    (e.wrap before after).Hushed b := by
  rw [wrap_eq]
  refine hushed_ofPieces hb hp (List.forall_mem_cons.mpr ⟨he, List.forall_mem_singleton.mpr ?_⟩)
  rw [piece_said_text]
  exact ha

theorem quiet_intersperse {separator : String} (hs : Quiet separator) :
    ∀ {ps : List Piece}, (∀ p ∈ ps, Quiet (p.said b)) →
      ∀ p ∈ ps.intersperse (.text separator), Quiet (p.said b)
  | [], h => h
  | [_], h => h
  | p :: q :: ps, h => by
    obtain ⟨hp, hps⟩ := List.forall_mem_cons.mp h
    rw [List.intersperse_cons_cons]
    refine List.forall_mem_cons.mpr ⟨hp, List.forall_mem_cons.mpr ⟨?_, quiet_intersperse hs hps⟩⟩
    rw [piece_said_text]
    exact hs

end Expression

/-! ## Functions -/

section

variable {d : Dialect} {n : Node} {args : List Param} {e : Expression}

/-- What the parameters say is quiet. -/
def Param.AllQuiet (b : Binding) (args : List Param) : Prop := ∀ a ∈ args, Quiet (a.piece.said b)

open Param (AllQuiet)
open Expression

theorem allQuiet_of_noArgs : ∀ ps, (.ok [] : Result (List Param)) = .ok ps → AllQuiet b ps := by
  intro ps hps
  cases hps
  exact fun a ha => by cases ha

theorem quiet_param_value (hb : b.BindsAll) (v : Value) :
    Quiet ((Param.value v).piece.said b) := Phrase.quiet_said_value hb v

/-- A template whose texts are quiet, with a barrier in the first. -/
theorem hushed_new {template : String} {params : List Param}
    (hl : (Template.placeholders template).length = params.length)
    (hq : (Template.cut [] (Template.symbols template)).all (hearsNone loose) = true)
    (hp : (Template.cut [] (Template.symbols template)).head?.any (·.any isBarrier) = true)
    (ha : AllQuiet b params) : (new template params).Hushed b := by
  rw [new_eq_weave hl]
  generalize Template.cut [] (Template.symbols template) = texts at hq hp
  have hquiet : Quiet ((ofPieces (Piece.weave texts params)).said b) := by
    refine quiet_ofPieces (Piece.forall_mem_weave (fun cs hcs => ?_) ha)
    rw [piece_said_text]
    exact quiet_of (List.all_eq_true.mp hq cs hcs)
  refine ⟨hquiet, ?_⟩
  cases texts with
  | nil => cases hp
  | cons cs texts =>
    have hparted : Parted (.ofList cs) := parted_of (by simpa using hp)
    cases params with
    | nil =>
      rw [said_ofPieces, Piece.weave, List.map_cons, String.join_cons, piece_said_text]
      exact hparted.append_left _
    | cons a params =>
      rw [said_ofPieces, Piece.weave, List.map_cons, String.join_cons, piece_said_text]
      exact hparted.append_left _

/-- The templates of the engines are quiet, with a barrier in front. -/
theorem hushed_of_mem_templates {template : String} {params : List Param}
    (hs : (template, params.length) ∈ templates) (ha : AllQuiet b params) :
    (new template params).Hushed b := by
  have h : ∀ t ∈ templates, Template.checks (fun cs =>
      (Template.cut [] (Template.scan none cs)).all (hearsNone loose) &&
        (Template.cut [] (Template.scan none cs)).head?.any (·.any isBarrier)) t.1 = true := by
    decide +kernel
  obtain ⟨hquiet, hparted⟩ := Bool.and_eq_true_iff.mp (Template.of_checks (h _ hs))
  exact hushed_new (length_placeholders_of_mem hs) hquiet hparted ha

theorem quiet_of_checks {s : String} (h : Template.checks (hearsNone loose) s = true) :
    Quiet s := by
  rw [← String.ofList_toList (s := s)]
  exact quiet_of (Template.of_checks h)

theorem parted_of_checks {s : String} (h : Template.checks (·.any isBarrier) s = true) :
    Parted s := by
  rw [← String.ofList_toList (s := s)]
  exact parted_of (Template.of_checks h)

theorem hushed_of_mem_clocks {s : String} (hs : s ∈ clocks) : (raw s).Hushed b := by
  have h : ∀ s ∈ clocks, Template.checks (hearsNone loose) s = true ∧
      Template.checks (·.any isBarrier) s = true := by
    decide +kernel
  exact hushed_raw (quiet_of_checks (h s hs).1) (parted_of_checks (h s hs).2)

theorem hushed_of_mem_frames {before after : String} (hs : (before, after) ∈ frames)
    (he : Quiet (e.said b)) : (e.wrap before after).Hushed b := by
  have h : ∀ f ∈ frames, Template.checks (hearsNone loose) f.1 = true ∧
      Template.checks (·.any isBarrier) f.1 = true ∧
      Template.checks (hearsNone loose) f.2 = true := by
    decide +kernel
  obtain ⟨hb, hp, ha⟩ := h _ hs
  exact hushed_wrap he (quiet_of_checks hb) (parted_of_checks hp) (quiet_of_checks ha)

theorem hushed_series {opening separator : String} (hs : (opening, separator) ∈ openings)
    {a : Param} (ha : AllQuiet b (a :: args)) :
    (series opening separator (a :: args)).Hushed b := by
  have hquiet : Quiet opening ∧ Parted opening ∧ Quiet separator := by
    simp only [openings, List.mem_cons, Prod.mk.injEq, List.not_mem_nil, or_false] at hs
    rcases hs with ⟨rfl, rfl⟩ | ⟨rfl, rfl⟩
    · exact ⟨quiet_of (by decide), parted_of (by decide), quiet_of (by decide)⟩
    · exact ⟨quiet_of (by decide), parted_of (by decide), quiet_of (by decide)⟩
  obtain ⟨ho, hp, hsep⟩ := hquiet
  rw [series_eq hs]
  refine hushed_ofPieces ho hp (List.forall_mem_append.mpr ⟨quiet_intersperse hsep ?_, ?_⟩)
  · exact List.forall_mem_map.mpr ha
  · refine List.forall_mem_singleton.mpr ?_
    rw [piece_said_text]
    exact quiet_of (by decide)

theorem quiet_oneBased (hb : b.BindsAll) {a start : Param} (ha : Quiet (a.piece.said b))
    (h : oneBased a = .ok start) : Quiet (start.piece.said b) := by
  unfold oneBased at h
  split at h
  · split at h <;> cases h
    exact quiet_param_value hb _
  · cases h
    exact (hushed_new rfl (by decide) (by decide) (List.forall_mem_singleton.mpr ha)).quiet

theorem quiet_pattern (hb : b.BindsAll) {a : Param} (ha : Quiet (a.piece.said b)) :
    Quiet ((a.pattern d).piece.said b) := by
  unfold Param.pattern
  split
  · cases d <;> exact quiet_param_value hb _
  · exact ha

/-- **What an operation writes is quiet and has a barrier**, whatever the engine. Only methods may
pass on what they are applied to, so a property may be applied to nothing. -/
theorem Registry.hushed_apply (hb : b.BindsAll) {s : Scope} {current : Expression}
    {args : Result (List Param)} (hc : Quiet (current.said b))
    (hp : n.isMethod = true → Parted (current.said b))
    (ha : ∀ ps, args = .ok ps → AllQuiet b ps)
    (h : (ofDialect s.dialect).apply s current n args = .ok e) : e.Hushed b := by
  obtain ⟨t, ps, ht, hps, h⟩ := apply_eq_ok_iff.mp h
  have hn := accepts_of_find? ht
  obtain ⟨k, rfl⟩ := Topic.exists_of_mem (List.mem_of_find?_eq_some ht)
  have hargs := ha ps hps
  have hcol : Quiet ((Param.expression current).piece.said b) := hc
  have hanswer := k.answer s.dialect s current n ps
  rw [h] at hanswer
  cases hanswer with
  | clock hs => exact hushed_of_mem_clocks hs
  | framed hs => exact hushed_of_mem_frames hs hc
  | filled hs hparams =>
    refine hushed_of_mem_templates hs fun a hm => ?_
    rcases (hparams a).mp hm with rfl | hm
    · exact hcol
    · exact Topic.forall_mem_taken hargs (fun _ _ => quiet_oneBased hb)
        (fun _ => quiet_pattern hb) k _ a hm
  | series hs => exact hushed_series hs (List.forall_mem_cons.mpr ⟨hcol, hargs⟩)
  | itself hk hname =>
    subst hk
    have hm : n.isMethod = true := by
      obtain ⟨-, ⟨hm, -⟩ | ⟨-, hl⟩⟩ := Topic.accepts_iff.mp hn
      · exact hm
      · rw [hname] at hl
        exact absurd hl (by decide)
    have hself : (new "?" [.expression current]).said b = current.said b := by
      rw [new_question, said_ofPieces, List.map_singleton, String.join_cons, String.join_nil,
        String.append_empty]
      rfl
    exact ⟨hself ▸ hc, hself ▸ hp hm⟩

end

/-! ## Members -/

mutual

/-- A member whose column is silent and whose arguments are. -/
def Member.Silent (c : Config) : Member → Prop
  | ⟨root, column, isStatic, children, _, owners⟩ =>
    (isStatic = false → Conflict.Silent (Node.startColumn c root column owners children)) ∧
      Node.AllSilent c children

/-- Operations whose arguments are silent. -/
def Node.AllSilent (c : Config) : List Node → Prop
  | [] => True
  | n :: rest => Node.Silent c n ∧ Node.AllSilent c rest

/-- An operation whose arguments are silent. -/
def Node.Silent (c : Config) : Node → Prop
  | .property _ => True
  | .method _ _ args _ => Arg.AllSilent c args

/-- Arguments that are silent. -/
def Arg.AllSilent (c : Config) : List Arg → Prop
  | [] => True
  | a :: rest => Arg.Silent c a ∧ Arg.AllSilent c rest

/-- An argument that is a value or a silent member. -/
def Arg.Silent (c : Config) : Arg → Prop
  | .value _ => True
  | .member m => Member.Silent c m
  | .expression _ => False

end

namespace Registry

variable {s : Scope} {qualified : Bool}

/-- The quoted column of a root, behind the name of its table where tables are joined. -/
theorem hushed_rootColumn {column : String} (ht : Calm s.table.aliasOrName)
    (hc : Silent column) : (rootColumn s qualified column).Hushed b := by
  have hcalm : Calm (if qualified then s.table.aliasOrName ++ "." ++ column else column) := by
    split
    · exact ht.dotted hc.calm
    · exact hc.calm
  exact Expression.hushed_raw (s.dialect.quiet_quote hcalm) (s.dialect.parted_quote _)

-- one case for each constructor of members, operations and arguments; the fragment built so far is
-- quiet and has a barrier at every step
mutual

theorem hushed_member (hb : b.BindsAll) (ht : Calm s.table.aliasOrName) :
    ∀ {m : Member} {e : Expression}, m.Silent s.config →
      (ofDialect s.dialect).member s qualified m = .ok e → e.Hushed b
  | ⟨root, column, true, children, _, owners⟩, e, hm, h => by
    unfold Member.Silent at hm
    unfold member at h
    obtain ⟨start, hs, h⟩ := bind_eq_ok_iff.mp h
    have hempty : Quiet (Expression.empty.said b) := quiet_empty
    have hstart : start.Hushed b :=
      hushed_apply hb hempty (fun h => by cases h) allQuiet_of_noArgs hs
    exact hushed_nodes hb ht hstart hm.2 h
  | ⟨root, column, false, children, _, owners⟩, e, hm, h => by
    unfold Member.Silent at hm
    unfold member at h
    exact hushed_chain hb ht (hm.1 rfl) hm.2 h

theorem hushed_chain (hb : b.BindsAll) (ht : Calm s.table.aliasOrName) {root : Property}
    {column owners : String} : ∀ {ns : List Node} {e : Expression},
      Silent (Node.startColumn s.config root column owners ns) → Node.AllSilent s.config ns →
      (ofDialect s.dialect).chain s qualified root column owners ns = .ok e → e.Hushed b
  | [], e, hc, _, h => by
    unfold chain at h
    split at h
    · cases h
    · cases h
      exact hushed_rootColumn ht hc
  | .property p :: rest, e, hc, hn, h => by
    unfold Node.AllSilent at hn
    unfold chain at h
    unfold Node.startColumn at hc
    split at h
    · next hr =>
      rw [if_pos hr] at hc
      exact hushed_chain hb ht hc hn.2 h
    · next hr =>
      rw [if_neg hr] at hc
      obtain ⟨first, hf, h⟩ := bind_eq_ok_iff.mp h
      exact hushed_nodes hb ht (hushed_node hb ht (hushed_rootColumn ht hc) hn.1 hf) hn.2 h
  | .method d name args t :: rest, e, hc, hn, h => by
    unfold Node.AllSilent at hn
    unfold chain at h
    split at h
    · cases h
    · obtain ⟨first, hf, h⟩ := bind_eq_ok_iff.mp h
      exact hushed_nodes hb ht (hushed_node hb ht (hushed_rootColumn ht hc) hn.1 hf) hn.2 h

theorem hushed_nodes (hb : b.BindsAll) (ht : Calm s.table.aliasOrName) {current : Expression}
    (hc : current.Hushed b) : ∀ {ns : List Node} {e : Expression}, Node.AllSilent s.config ns →
      (ofDialect s.dialect).nodes s qualified current ns = .ok e → e.Hushed b
  | [], e, _, h => by
    cases h
    exact hc
  | n :: rest, e, hn, h => by
    unfold Node.AllSilent at hn
    unfold nodes at h
    obtain ⟨next, hx, h⟩ := bind_eq_ok_iff.mp h
    exact hushed_nodes hb ht (hushed_node hb ht hc hn.1 hx) hn.2 h

theorem hushed_node (hb : b.BindsAll) (ht : Calm s.table.aliasOrName) {current : Expression}
    (hc : current.Hushed b) : ∀ {n : Node} {e : Expression}, n.Silent s.config →
      (ofDialect s.dialect).node s qualified current n = .ok e → e.Hushed b
  | .property p, e, _, h =>
    hushed_apply hb hc.quiet (fun _ => hc.parted) allQuiet_of_noArgs h
  | .method d name args t, e, hn, h => by
    unfold Node.Silent at hn
    unfold node at h
    exact hushed_apply hb hc.quiet (fun _ => hc.parted)
      (fun _ hps => allQuiet_arguments hb ht hn hps) h

theorem allQuiet_arguments (hb : b.BindsAll) (ht : Calm s.table.aliasOrName) :
    ∀ {as : List Arg} {ps : List Param}, Arg.AllSilent s.config as →
      (ofDialect s.dialect).arguments s qualified as = .ok ps → Param.AllQuiet b ps
  | [], ps, _, h => by
    cases h
    exact fun x hx => by cases hx
  | a :: rest, ps, ha, h => by
    unfold Arg.AllSilent at ha
    unfold arguments at h
    obtain ⟨p, hp, h⟩ := bind_eq_ok_iff.mp h
    obtain ⟨qs, hqs, h⟩ := bind_eq_ok_iff.mp h
    cases h
    exact List.forall_mem_cons.mpr ⟨quiet_arg hb ht ha.1 hp, allQuiet_arguments hb ht ha.2 hqs⟩

theorem quiet_arg (hb : b.BindsAll) (ht : Calm s.table.aliasOrName) :
    ∀ {a : Arg} {p : Param}, a.Silent s.config →
      (ofDialect s.dialect).arg s qualified a = .ok p → Quiet (p.piece.said b)
  | .value v, p, _, h => by
    cases h
    exact quiet_param_value hb v
  | .expression e, p, ha, _ => by
    unfold Arg.Silent at ha
    exact ha.elim
  | .member m, p, ha, h => by
    unfold Arg.Silent at ha
    unfold arg at h
    obtain ⟨e, he, rfl⟩ := map_eq_ok_iff.mp h
    exact (hushed_member hb ht ha he).quiet

end

end Registry

variable {s : Scope}

/-- **A member whose names are silent compiles to a quiet fragment.** -/
theorem hushed_compile (hb : b.BindsAll) (ht : Calm s.table.aliasOrName) {m : Member}
    {e : Expression} (hm : m.Silent s.config) (h : m.compile s = .ok e) : e.Hushed b :=
  Registry.hushed_member hb ht hm h

/-! ## Columns -/

namespace Column

mutual

/-- A column that is no fragment, whose names are silent. -/
def Silent (c : Config) : Column → Prop
  | all => True
  | named n => Conflict.Silent n
  | aliased n _ => Conflict.Silent n
  | raw _ _ => False
  | member m => m.Silent c
  | aggregate _ args _ _ => AllSilent c args

/-- Columns that are silent. -/
def AllSilent (c : Config) : List Column → Prop
  | [] => True
  | x :: rest => Silent c x ∧ AllSilent c rest

end

theorem quiet_applied {f : Aggregate} {distinct : Bool} {args : List Expression}
    (h : ∀ e ∈ args, Quiet (e.said b)) : Quiet ((applied f distinct args).said b) := by
  have hinner : Quiet ((if args.isEmpty then Expression.raw "*" else .join args ", ").said b) := by
    split
    · exact (Expression.hushed_raw (quiet_of (by decide)) (parted_of (by decide))).quiet
    · refine Expression.quiet_ofPieces (Expression.quiet_intersperse (quiet_of (by decide)) ?_)
      exact List.forall_mem_map.mpr h
  have hname : Quiet f.name := by cases f <;> exact quiet_of (by decide)
  have hopen : Quiet (if distinct then "(DISTINCT " else "(") := by
    split <;> exact quiet_of (by decide)
  have hparted : Parted (if distinct then "(DISTINCT " else "(") := by
    split <;> exact parted_of (by decide)
  exact (Expression.hushed_wrap hinner (hname.append hopen) (hparted.append_right _)
    (quiet_of (by decide))).quiet

mutual

/-- **A column whose names are silent is quiet.** -/
theorem quiet_bare (hb : b.BindsAll) (ht : Calm s.table.aliasOrName) :
    ∀ {c : Column} {e : Expression}, c.Silent s.config → c.bare s = .ok e → Quiet (e.said b)
  | all, e, _, h => by
    cases h
    exact (Expression.hushed_raw (quiet_of (by decide)) (parted_of (by decide))).quiet
  | named n, e, hc, h => by
    unfold Silent at hc
    cases h
    exact (Expression.hushed_raw (s.dialect.quiet_quote hc.calm) (s.dialect.parted_quote n)).quiet
  | aliased n _, e, hc, h => by
    unfold Silent at hc
    cases h
    exact (Expression.hushed_raw (s.dialect.quiet_quote hc.calm) (s.dialect.parted_quote n)).quiet
  | raw _ _, e, hc, _ => by
    unfold Silent at hc
    exact hc.elim
  | member m, e, hc, h => by
    unfold Silent at hc
    exact (hushed_compile hb ht hc h).quiet
  | aggregate f args distinct _, e, hc, h => by
    unfold Silent at hc
    unfold bare at h
    obtain ⟨es, hes, rfl⟩ := map_eq_ok_iff.mp h
    exact quiet_applied (quiet_bareAll hb ht hc hes)

theorem quiet_bareAll (hb : b.BindsAll) (ht : Calm s.table.aliasOrName) :
    ∀ {cs : List Column} {es : List Expression}, AllSilent s.config cs →
      bareAll s cs = .ok es → ∀ e ∈ es, Quiet (e.said b)
  | [], es, _, h => by
    cases h
    exact fun e he => by cases he
  | c :: rest, es, hc, h => by
    unfold AllSilent at hc
    unfold bareAll at h
    obtain ⟨e, he, h⟩ := bind_eq_ok_iff.mp h
    obtain ⟨es', hes, h⟩ := bind_eq_ok_iff.mp h
    cases h
    exact List.forall_mem_cons.mpr ⟨quiet_bare hb ht hc.1 he, quiet_bareAll hb ht hc.2 hes⟩

end

/-- A text behind a fragment. -/
theorem quiet_followed {e : Expression} {after : String} (he : Quiet (e.said b))
    (ha : Quiet after) : Quiet ((e.wrap "" after).said b) := by
  have hsaid : (e.wrap "" after).said b = "" ++ e.said b ++ after :=
    Phrase.said_ofExpression_wrap e "" after
  rw [hsaid, String.empty_append]
  exact he.append ha

theorem quiet_selected (hb : b.BindsAll) (ht : Calm s.table.aliasOrName) {c : Column}
    {e : Expression} (hc : c.Silent s.config) (ha : ∀ a ∈ c.aliasName?, Conflict.Silent a)
    (h : c.selected s = .ok e) : Quiet (e.said b) := by
  obtain ⟨inner, hi, rfl⟩ := map_eq_ok_iff.mp h
  have hq := quiet_bare hb ht hc hi
  split
  · next a hsome =>
    exact quiet_followed hq
      (Quiet.append (quiet_of (by decide)) (s.dialect.quiet_quotePart (ha a hsome).calm.clear))
  · exact hq

theorem hushed_spliced {r : Result Expression} (h : ∀ e, r = .ok e → Quiet (e.said b)) :
    Phrase.Hushed b (spliced r) := by
  cases r with
  | error e => exact Phrase.hushed_of_quiet ((Phrase.said_failure_cons e []).symm ▸ quiet_empty)
  | ok e => exact Phrase.hushed_of_quiet (h e rfl)

end Column

theorem SortKey.quiet_expression (hb : b.BindsAll) (ht : Calm s.table.aliasOrName) {o : SortKey}
    {e : Expression} (hc : o.column.Silent s.config) (h : o.expression s = .ok e) :
    Quiet (e.said b) := by
  obtain ⟨inner, hi, rfl⟩ := map_eq_ok_iff.mp h
  refine Column.quiet_followed (Column.quiet_bare hb ht hc hi) ?_
  split <;> exact quiet_of (by decide)

/-! ## Conditions -/

namespace Operand

/-- An operand that is no fragment, whose names are silent. -/
def Silent (c : Config) : Operand → Prop
  | column name => Conflict.Silent name
  | value _ => True
  | expression _ => False
  | member m => m.Silent c

variable {o : Operand}

theorem hushed_phrase (hb : b.BindsAll) (ht : Calm s.table.aliasOrName) (h : o.Silent s.config) :
    Phrase.Hushed b (o.phrase s) := by
  cases o with
  | column name => exact Phrase.hushed_text (s.dialect.quiet_quote (Silent.calm h))
  | value v => exact Phrase.hushed_value hb v
  | expression e => exact h.elim
  | member m => exact Column.hushed_spliced fun e he => (hushed_compile hb ht h he).quiet

/-- Nothing that was awaited in front of an operand counts behind it. -/
theorem listen_phrase (hb : b.BindsAll) (ht : Calm s.table.aliasOrName) (h : o.Silent s.config)
    (hw : Phrase.Writable b (o.phrase s)) : listen loose (Phrase.said b (o.phrase s)).toList =
      listen [] (Phrase.said b (o.phrase s)).toList := by
  have hq := hushed_phrase hb ht h hw
  cases o with
  | column name =>
    refine listen_of_parted hq ?_
    rw [phrase, Phrase.said_text_cons]
    exact (s.dialect.parted_quote name).append_left _
  | value v =>
    have hm := Phrase.mute_said_value hb hw
    exact (hm.listen loose_subset).trans (hm.listen (List.nil_subset _)).symm
  | expression e => exact h.elim
  | member m =>
    cases hm : m.compile s with
    | error e =>
      rw [phrase, hm] at hw
      obtain ⟨x, hx⟩ := hw _ List.mem_cons_self
      cases hx
    | ok e =>
      refine listen_of_parted hq ?_
      rw [phrase, hm]
      exact (hushed_compile hb ht h hm).parted

end Operand

namespace Condition

mutual

/-- A condition without fragments, whose names are silent, and whose operators are silent together
with the operand in front of them. -/
def Silent (b : Binding) (s : Scope) : Condition → Prop
  | and items => AllSilent b s items
  | or items => AllSilent b s items
  | not inner => Silent b s inner
  | compare left op right =>
    left.Silent s.config ∧ Conflict.Silent (Phrase.said b (left.phrase s) ++ " " ++ op) ∧
      right.Silent s.config
  | nullCheck operand _ => operand.Silent s.config
  | inList operand _ _ => operand.Silent s.config
  | inExpression _ _ _ => False
  | between operand _ _ _ => operand.Silent s.config
  | expression _ => False
  | always => True
  | never => True

/-- Conditions that are silent. -/
def AllSilent (b : Binding) (s : Scope) : List Condition → Prop
  | [] => True
  | x :: rest => Silent b s x ∧ AllSilent b s rest

end

theorem quiet_nullTest (isNull : Bool) : Quiet (nullTest isNull) := by
  cases isNull <;> exact quiet_of (by decide)

theorem quiet_operator (negated : Bool) {op : String} (h : Quiet op) :
    Quiet (operator negated op) := by
  refine Quiet.append ?_ h
  split <;> exact quiet_of (by decide)

theorem hushed_enclosed {parens : Bool} {p : Phrase} (h : Phrase.Hushed b p) :
    Phrase.Hushed b (enclosed parens p) := by
  unfold enclosed
  split
  · exact (Phrase.Hushed.text (quiet_of (by decide)) h).append
      (Phrase.hushed_text (quiet_of (by decide)))
  · exact h

/-- A comparison: the operator is quiet behind its operand. -/
theorem hushed_compare (hb : b.BindsAll) (ht : Calm s.table.aliasOrName) {left right : Operand}
    {op : String} (hl : left.Silent s.config)
    (ho : Conflict.Silent (Phrase.said b (left.phrase s) ++ " " ++ op))
    (hr : right.Silent s.config) :
    Phrase.Hushed b (left.phrase s ++ [.text " ", .text op, .text " "] ++ right.phrase s) := by
  refine Phrase.Hushed.append (fun hw => ?_) (Operand.hushed_phrase hb ht hr)
  have hleft := (Phrase.writable_append_iff.mp hw).1
  have hsaid : Phrase.said b (left.phrase s ++ [.text " ", .text op, .text " "]) =
      Phrase.said b (left.phrase s) ++ (" " ++ op ++ " ") := by
    rw [Phrase.said_append]
    simp [String.append_assoc]
  rw [hsaid]
  exact ho.quiet_operator (Operand.listen_phrase hb ht hl hleft)

mutual

/-- **A silent condition is quiet.** -/
theorem hushed_phrase (hb : b.BindsAll) (ht : Calm s.table.aliasOrName) :
    ∀ {c : Condition}, c.Silent b s → Phrase.Hushed b (c.phrase s)
  | and items, h => by
    unfold Silent at h
    exact Phrase.hushed_join (quiet_of (by decide)) (hushed_operands hb ht h)
  | or items, h => by
    unfold Silent at h
    exact Phrase.hushed_join (quiet_of (by decide)) (hushed_operands hb ht h)
  | not inner, h => by
    unfold Silent at h
    unfold phrase
    split
    · exact Phrase.hushed_nil
    · exact (Phrase.Hushed.text (quiet_of (by decide)) (hushed_phrase hb ht h)).append
        (Phrase.hushed_text (quiet_of (by decide)))
  | compare left op right, h => by
    unfold Silent at h
    unfold phrase
    split
    · exact (Operand.hushed_phrase hb ht h.1).append (Phrase.hushed_text (quiet_nullTest _))
    · exact hushed_compare hb ht h.1 h.2.1 h.2.2
  | nullCheck operand isNull, h => by
    unfold Silent at h
    unfold phrase
    exact (Operand.hushed_phrase hb ht h).append (Phrase.hushed_text (quiet_nullTest isNull))
  | inList operand values negated, h => by
    unfold Silent at h
    unfold phrase
    split
    · split <;> exact Phrase.hushed_text (quiet_of (by decide))
    · have hop : Quiet (operator negated "IN (") := quiet_operator negated (quiet_of (by decide))
      exact ((Operand.hushed_phrase hb ht h).append
        (.text hop (Phrase.hushed_ofValues hb values))).append
        (Phrase.hushed_text (quiet_of (by decide)))
  | inExpression _ _ _, h => by
    unfold Silent at h
    exact h.elim
  | between operand low high negated, h => by
    unfold Silent at h
    unfold phrase
    have hop : Quiet (operator negated "BETWEEN ") :=
      quiet_operator negated (quiet_of (by decide))
    have hhigh : Phrase.Hushed b [.text " AND ", .value high] :=
      .text (quiet_of (by decide)) (Phrase.hushed_value hb high)
    exact (Operand.hushed_phrase hb ht h).append
      (.text hop ((Phrase.hushed_value hb low).append hhigh))
  | expression _, h => by
    unfold Silent at h
    exact h.elim
  | always, _ => Phrase.hushed_text (quiet_of (by decide))
  | never, _ => Phrase.hushed_text (quiet_of (by decide))

theorem hushed_operands (hb : b.BindsAll) (ht : Calm s.table.aliasOrName) :
    ∀ {items : List Condition}, AllSilent b s items →
      ∀ p ∈ operands s items, Phrase.Hushed b p
  | [], _, p, hp => by cases hp
  | c :: rest, h, p, hp => by
    unfold AllSilent at h
    unfold operands at hp
    split at hp
    · exact hushed_operands hb ht h.2 p hp
    · rcases List.mem_cons.mp hp with rfl | hp
      · exact hushed_enclosed (hushed_phrase hb ht h.1)
      · exact hushed_operands hb ht h.2 p hp

end

end Condition

namespace ConditionGroup

/-- A group of silent conditions. -/
def Silent (b : Binding) (s : Scope) (g : ConditionGroup) : Prop := ∀ i ∈ g, i.2.Silent b s

/-- **A silent group is quiet.** -/
theorem hushed_phrase (hb : b.BindsAll) (ht : Calm s.table.aliasOrName) {g : ConditionGroup}
    (h : g.Silent b s) : Phrase.Hushed b (g.phrase s) := by
  have hitem : ∀ i ∈ g.filter (!·.2.isEmpty),
      Phrase.Hushed b (Condition.enclosed i.2.needsParens (i.2.phrase s)) := fun i hi =>
    Condition.hushed_enclosed (Condition.hushed_phrase hb ht (h i (List.mem_of_mem_filter hi)))
  have hword : ∀ w : Connective, Quiet w.text := by
    intro w
    cases w <;> exact quiet_of (by decide)
  unfold phrase
  cases hg : g.filter (!·.2.isEmpty) with
  | nil => exact Phrase.hushed_nil
  | cons i rest =>
    rw [hg] at hitem
    have hrest : Phrase.Hushed b (rest.flatMap (item s)) := Phrase.hushed_flatMap fun j hj =>
      .text (hword j.1) (hitem j (List.mem_cons_of_mem _ hj))
    exact (hitem i List.mem_cons_self).append hrest

end ConditionGroup
end SqlWeave
