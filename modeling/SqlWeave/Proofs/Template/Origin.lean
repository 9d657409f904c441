import SqlWeave.Proofs.Drafting.Ledger
import SqlWeave.Proofs.Template.Member

/-!
# Where fragments come from

Fragments are made of templates, of text, of other fragments, by drafts, by the translators of the
engines, and from columns. Each way is gone through here: what it makes is well formed if what it is
given is. A draft notes a place whenever it takes a value, a translator has as many parameters as
its template has placeholders, and what is compiled from a member or a column is well formed if the
fragments that stand in it are.

Results:
* `Answer.placed`, `Answer.wellFormed`: what a translator of an engine writes.
* `Registry.Keeps.member`: what every translator keeps, a member keeps.
* `Member.wellFormed_compile`, `Column.wellFormed_bare`: members and columns.
* `fragments_wellFormed`: all ways of making fragments.
-/

namespace SqlWeave

open Template
open Expression (WellFormed)

/-! ## Translators -/

theorem wellFormed_oneBased {a start : Param} (ha : a.Of WellFormed)
    (h : oneBased a = .ok start) : start.Of WellFormed := by
  unfold oneBased at h
  split at h
  · split at h <;> cases h
    trivial
  · cases h
    exact Expression.wellFormed_new_iff.mpr ⟨rfl, List.forall_mem_singleton.mpr ha⟩

theorem wellFormed_pattern {a : Param} (d : Dialect) (ha : a.Of WellFormed) :
    (a.pattern d).Of WellFormed := by
  unfold Param.pattern
  split
  · cases d <;> trivial
  · exact ha

section

variable {k : Topic} {d : Dialect} {current e : Expression} {n : Node} {args : List Param}

/-- Whatever a translator is given, what it writes has as many places as parameters, a question mark
at each of them. -/
theorem Answer.placed (h : Answer k d current n args (.ok e)) : e.Placed := by
  cases h with
  | clock => exact (Expression.wellFormed_raw _).placed
  | framed => exact Expression.placed_wrap _ _ _
  | filled hs => exact Expression.placed_new (length_placeholders_of_mem hs)
  | series hs =>
    rw [series_eq hs]
    exact Expression.placed_ofPieces _
  | itself => exact Expression.placed_new rfl

/-- **What a translator writes is well formed** if the fragment and the arguments are. -/
theorem Answer.wellFormed (h : Answer k d current n args (.ok e)) (hc : current.WellFormed)
    (ha : ∀ a ∈ args, a.Of WellFormed) : e.WellFormed := by
  refine Expression.wellFormed_iff.mpr ⟨h.placed, ?_⟩
  have hcurrent : ∀ a ∈ [Param.expression current], a.Of WellFormed :=
    List.forall_mem_singleton.mpr hc
  cases h with
  | clock => exact fun a hm => by cases hm
  | framed => exact hcurrent
  | filled hs hp =>
    intro a hm
    rcases (hp a).mp hm with rfl | hm
    · exact hc
    · exact Topic.forall_mem_taken ha (fun _ _ => wellFormed_oneBased)
        (fun _ => wellFormed_pattern d) k _ a hm
  | series => exact List.forall_mem_cons.mpr ⟨hc, ha⟩
  | itself => exact hcurrent

theorem answer_of_translate {t : Translator} {s : Scope} (ht : t ∈ Registry.ofDialect d)
    (h : t.translate s current n args = .ok e) : ∃ k, Answer k d current n args (.ok e) := by
  obtain ⟨k, rfl⟩ := Topic.exists_of_mem ht
  exact ⟨k, h ▸ k.answer d s current n args⟩

end

/-- Scanning what a translator writes finds its places. -/
theorem placeholders_of_translate {d : Dialect} {t : Translator} {s : Scope}
    {current e : Expression} {n : Node} {args : List Param} (ht : t ∈ Registry.ofDialect d)
    (h : t.translate s current n args = .ok e) : placeholders e.template = e.slots := by
  obtain ⟨k, hk⟩ := answer_of_translate ht h
  have hf : e.Flows fun _ => True := by
    refine flows_translate (fun _ _ => trivial) ht trivial (fun a _ => ?_) h
    cases a <;> trivial
  have hp := Expression.placeholders_of_flow hf
  rwa [← hk.placed.eq_ofPieces] at hp

/-! ## Members -/

mutual

/-- The fragments that stand among the arguments of a member. -/
def Member.fragments : Member → List Expression
  | ⟨_, _, _, children, _, _⟩ => Node.fragmentsAll children

/-- The fragments that stand among the arguments of operations. -/
def Node.fragmentsAll : List Node → List Expression
  | [] => []
  | n :: rest => Node.fragments n ++ Node.fragmentsAll rest

/-- The fragments that stand among the arguments of an operation. -/
def Node.fragments : Node → List Expression
  | .property _ => []
  | .method _ _ args _ => Arg.fragmentsAll args

/-- The fragments that stand among arguments. -/
def Arg.fragmentsAll : List Arg → List Expression
  | [] => []
  | a :: rest => Arg.fragments a ++ Arg.fragmentsAll rest

/-- The fragments that stand in an argument. -/
def Arg.fragments : Arg → List Expression
  | .value _ => []
  | .member m => Member.fragments m
  | .expression e => [e]

end

namespace Registry

variable {r : Registry} {s : Scope} {P : Expression → Prop} {qualified : Bool}

/-- What holds of every fragment that a member starts from, and is kept by every translator. -/
structure Keeps (r : Registry) (s : Scope) (P : Expression → Prop) : Prop where
  empty : P .empty
  rootColumn : ∀ qualified column, P (rootColumn s qualified column)
  translate : ∀ t ∈ r, ∀ current n args e, P current → (∀ a ∈ args, a.Of P) →
    t.translate s current n args = .ok e → P e

namespace Keeps

theorem apply (hr : r.Keeps s P) {current e : Expression} {n : Node} {args : Result (List Param)}
    (hc : P current) (ha : ∀ ps, args = .ok ps → ∀ a ∈ ps, a.Of P)
    (h : r.apply s current n args = .ok e) : P e := by
  unfold Registry.apply at h
  cases hf : r.find? n with
  | none =>
    rw [hf] at h
    cases h
  | some t =>
    rw [hf] at h
    obtain ⟨ps, hps, h⟩ := bind_eq_ok_iff.mp h
    exact hr.translate t (List.mem_of_find?_eq_some hf) current n ps e hc (ha ps hps) h

-- one case for each constructor of members, operations and arguments; the fragment built so far has
-- the property at every step
mutual

/-- **What every translator keeps, a member keeps**, if it holds of the fragments in the member. -/
theorem member (hr : r.Keeps s P) : ∀ {m : Member} {e : Expression}, (∀ f ∈ m.fragments, P f) →
    r.member s qualified m = .ok e → P e
  | ⟨root, column, true, children, _, owners⟩, e, hm, h => by
    unfold Member.fragments at hm
    unfold Registry.member at h
    obtain ⟨start, hs, h⟩ := bind_eq_ok_iff.mp h
    have hstart : P start := hr.apply hr.empty (fun ps hps => by cases hps; simp) hs
    exact nodes hr hstart hm h
  | ⟨root, column, false, children, _, owners⟩, e, hm, h => by
    unfold Member.fragments at hm
    unfold Registry.member at h
    exact chain hr hm h

theorem chain (hr : r.Keeps s P) {root : Property} {column owners : String} :
    ∀ {ns : List Node} {e : Expression}, (∀ f ∈ Node.fragmentsAll ns, P f) →
      r.chain s qualified root column owners ns = .ok e → P e
  | [], e, _, h => by
    unfold Registry.chain at h
    split at h
    · cases h
    · cases h
      exact hr.rootColumn _ _
  | .property p :: rest, e, hn, h => by
    unfold Node.fragmentsAll at hn
    have hrest := (List.forall_mem_append.mp hn).2
    unfold Registry.chain at h
    split at h
    · exact chain hr hrest h
    · obtain ⟨first, hf, h⟩ := bind_eq_ok_iff.mp h
      have hp := (List.forall_mem_append.mp hn).1
      exact nodes hr (node hr (hr.rootColumn _ _) hp hf) hrest h
  | .method d name args t :: rest, e, hn, h => by
    unfold Node.fragmentsAll at hn
    obtain ⟨hargs, hrest⟩ := List.forall_mem_append.mp hn
    unfold Registry.chain at h
    split at h
    · cases h
    · obtain ⟨first, hf, h⟩ := bind_eq_ok_iff.mp h
      exact nodes hr (node hr (hr.rootColumn _ _) hargs hf) hrest h

theorem nodes (hr : r.Keeps s P) {current : Expression} (hc : P current) :
    ∀ {ns : List Node} {e : Expression}, (∀ f ∈ Node.fragmentsAll ns, P f) →
      r.nodes s qualified current ns = .ok e → P e
  | [], e, _, h => by
    cases h
    exact hc
  | n :: rest, e, hn, h => by
    unfold Node.fragmentsAll at hn
    obtain ⟨hn, hrest⟩ := List.forall_mem_append.mp hn
    unfold Registry.nodes at h
    obtain ⟨next, hx, h⟩ := bind_eq_ok_iff.mp h
    exact nodes hr (node hr hc hn hx) hrest h

theorem node (hr : r.Keeps s P) {current : Expression} (hc : P current) :
    ∀ {n : Node} {e : Expression}, (∀ f ∈ n.fragments, P f) →
      r.node s qualified current n = .ok e → P e
  | .property p, e, _, h => hr.apply hc (fun ps hps => by cases hps; simp) h
  | .method d name args t, e, hn, h => by
    unfold Node.fragments at hn
    unfold Registry.node at h
    exact hr.apply hc (fun ps hps => arguments hr hn hps) h

theorem arguments (hr : r.Keeps s P) : ∀ {as : List Arg} {ps : List Param},
    (∀ f ∈ Arg.fragmentsAll as, P f) → r.arguments s qualified as = .ok ps → ∀ a ∈ ps, a.Of P
  | [], ps, _, h => by
    cases h
    exact fun a ha => by cases ha
  | a :: rest, ps, hf, h => by
    unfold Arg.fragmentsAll at hf
    obtain ⟨ha, hrest⟩ := List.forall_mem_append.mp hf
    unfold Registry.arguments at h
    obtain ⟨p, hp, h⟩ := bind_eq_ok_iff.mp h
    obtain ⟨qs, hqs, h⟩ := bind_eq_ok_iff.mp h
    cases h
    exact List.forall_mem_cons.mpr ⟨arg hr ha hp, arguments hr hrest hqs⟩

theorem arg (hr : r.Keeps s P) : ∀ {a : Arg} {p : Param}, (∀ f ∈ a.fragments, P f) →
    r.arg s qualified a = .ok p → p.Of P
  | .value v, p, _, h => by
    cases h
    trivial
  | .expression e, p, ha, h => by
    unfold Arg.fragments at ha
    cases h
    exact ha e List.mem_cons_self
  | .member m, p, ha, h => by
    unfold Arg.fragments at ha
    unfold Registry.arg at h
    obtain ⟨e, he, rfl⟩ := map_eq_ok_iff.mp h
    exact member hr ha he

end

end Keeps

/-- The translators of an engine keep fragments well formed. -/
theorem keeps_wellFormed (d : Dialect) (s : Scope) : (ofDialect d).Keeps s WellFormed where
  empty := Expression.wellFormed_raw ""
  rootColumn _ _ := Expression.wellFormed_raw _
  translate _ ht _ _ _ _ hc ha h := (answer_of_translate ht h).elim fun _ hk => hk.wellFormed hc ha

end Registry

/-- **A member compiles to a well-formed fragment** if the fragments in it are. -/
theorem Member.wellFormed_compile {s : Scope} {m : Member} {e : Expression}
    (hm : ∀ f ∈ m.fragments, f.WellFormed) (h : m.compile s = .ok e) : e.WellFormed :=
  (Registry.keeps_wellFormed s.dialect s).member hm h

/-! ## Columns -/

namespace Column

variable {s : Scope}

mutual

/-- The fragments that stand in a column. -/
def fragments : Column → List Expression
  | raw e _ => [e]
  | member m => m.fragments
  | aggregate _ args _ _ => fragmentsAll args
  | _ => []

/-- The fragments that stand in columns. -/
def fragmentsAll : List Column → List Expression
  | [] => []
  | c :: rest => fragments c ++ fragmentsAll rest

end

theorem wellFormed_applied {f : Aggregate} {distinct : Bool} {args : List Expression}
    (h : ∀ e ∈ args, e.WellFormed) : (applied f distinct args).WellFormed := by
  refine Expression.wellFormed_wrap ?_ _ _
  split
  · exact Expression.wellFormed_raw "*"
  · exact Expression.wellFormed_join h ", "

mutual

/-- **A column is well formed** if the fragments in it are. -/
theorem wellFormed_bare : ∀ {c : Column} {e : Expression}, (∀ f ∈ c.fragments, f.WellFormed) →
    c.bare s = .ok e → e.WellFormed
  | all, e, _, h => by
    cases h
    exact Expression.wellFormed_raw _
  | named n, e, _, h => by
    cases h
    exact Expression.wellFormed_raw _
  | aliased n _, e, _, h => by
    cases h
    exact Expression.wellFormed_raw _
  | raw e _, _, hc, h => by
    unfold fragments at hc
    cases h
    exact hc e List.mem_cons_self
  | member m, e, hc, h => by
    unfold fragments at hc
    exact m.wellFormed_compile hc h
  | aggregate f args distinct _, e, hc, h => by
    unfold fragments at hc
    unfold bare at h
    obtain ⟨es, hes, rfl⟩ := map_eq_ok_iff.mp h
    exact wellFormed_applied (wellFormed_bareAll hc hes)

theorem wellFormed_bareAll : ∀ {cs : List Column} {es : List Expression},
    (∀ f ∈ fragmentsAll cs, f.WellFormed) → bareAll s cs = .ok es → ∀ e ∈ es, e.WellFormed
  | [], es, _, h => by
    cases h
    exact fun e he => by cases he
  | c :: rest, es, hc, h => by
    unfold fragmentsAll at hc
    obtain ⟨hc, hrest⟩ := List.forall_mem_append.mp hc
    unfold bareAll at h
    obtain ⟨e, he, h⟩ := bind_eq_ok_iff.mp h
    obtain ⟨es', hes, h⟩ := bind_eq_ok_iff.mp h
    cases h
    exact List.forall_mem_cons.mpr ⟨wellFormed_bare hc he, wellFormed_bareAll hrest hes⟩

end

theorem wellFormed_selected {c : Column} {e : Expression} (hc : ∀ f ∈ c.fragments, f.WellFormed)
    (h : c.selected s = .ok e) : e.WellFormed := by
  obtain ⟨inner, hi, rfl⟩ := map_eq_ok_iff.mp h
  have hw := wellFormed_bare hc hi
  split
  · exact Expression.wellFormed_wrap hw _ _
  · exact hw

end Column

theorem SortKey.wellFormed_expression {s : Scope} {o : SortKey} {e : Expression}
    (hc : ∀ f ∈ o.column.fragments, f.WellFormed) (h : o.expression s = .ok e) : e.WellFormed := by
  obtain ⟨inner, hi, rfl⟩ := map_eq_ok_iff.mp h
  exact Expression.wellFormed_wrap (Column.wellFormed_bare hc hi) _ _

/-! ## All fragments -/

/-- **Every fragment that is made of well-formed ones is well formed, however it is made.** A
template is if it is given as many parameters as it has placeholders. What is joined, wrapped or
written by a translator has its places even around fragments that are not well formed. Drafts and
statements are well formed whatever they were given, and hold values alone. -/
theorem fragments_wellFormed :
    (∀ template args, (Expression.new template args).WellFormed ↔
      (placeholders template).length = args.length ∧ ∀ a ∈ args, a.Of WellFormed) ∧
    (∀ template args e, Expression.ofTemplate? template args = .ok e →
      e.Placed ∧ e.Is template (placeholders template) args ∧
        ((∀ a ∈ args, a.Of WellFormed) → e.WellFormed)) ∧
    (∀ s, (Expression.raw s).WellFormed ∧ (Expression.raw s).Is s [] []) ∧
    (∀ parts separator, (Expression.join parts separator).Placed ∧
      (Expression.join parts separator).Is (separator.intercalate (parts.map fun _ => "?"))
        (List.range' 0 parts.length (separator.utf8ByteSize + 1)) (parts.map .expression) ∧
      ((∀ e ∈ parts, e.WellFormed) → (Expression.join parts separator).WellFormed)) ∧
    (∀ (e : Expression) before after, (e.wrap before after).Placed ∧
      (e.wrap before after).Is (before ++ "?" ++ after) [before.utf8ByteSize] [.expression e] ∧
      (e.WellFormed → (e.wrap before after).WellFormed)) ∧
    (∀ e : Expression, e.flatten.WellFormed ∧ e.flatten.params = e.values.map .value) ∧
    (∀ b history, let l := Drafting.calls Ledger.step { binding := b } history
      (⟨l.assemble.1, l.assemble.2, l.values.map .value⟩ : Expression).WellFormed ∧
        (Drafting.calls Draft.step { binding := b } history).toExpression.Is
          l.assemble.1 l.assemble.2 (l.values.map .value)) ∧
    (∀ b requests, let e := (Draft.run { binding := b } requests).toExpression
      e.WellFormed ∧ e.params = e.values.map .value) ∧
    (∀ (d : Draft) s, (d.push (.text s)).toExpression.Is (d.text ++ s) d.toExpression.slots
      d.toExpression.params) ∧
    (∀ (d : Draft) v, (d.push (.bound v)).toExpression.Is (d.text ++ "?")
      (d.toExpression.slots ++ [d.text.utf8ByteSize]) (d.toExpression.params ++ [.value v])) ∧
    (∀ d, ∀ t ∈ Registry.ofDialect d, ∀ s current n args e,
      t.translate s current n args = .ok e →
        e.Placed ∧ placeholders e.template = e.slots ∧
          (current.WellFormed → (∀ a ∈ args, a.Of WellFormed) → e.WellFormed)) ∧
    (∀ s (m : Member) e, (∀ f ∈ m.fragments, f.WellFormed) → m.compile s = .ok e → e.WellFormed) ∧
    (∀ s (c : Column) e, (∀ f ∈ c.fragments, f.WellFormed) →
      c.bare s = .ok e ∨ c.selected s = .ok e → e.WellFormed) ∧
    (∀ s (o : SortKey) e, (∀ f ∈ o.column.fragments, f.WellFormed) →
      o.expression s = .ok e → e.WellFormed) ∧
    (∀ e, IsStatement e → e.WellFormed ∧ e.isFlat ∧ e.params = e.values.map .value) := by
  have hflat : ∀ {e : Expression}, e.WellFormed → e.isFlat → e.params = e.values.map .value :=
    fun hw hf => Expression.params_of_isFlat hw.placed hf
  refine ⟨fun _ _ => Expression.wellFormed_new_iff, ?_, ?_, ?_, ?_, ?_, ?_, ?_, Draft.is_push_text,
    Draft.is_push_bound, ?_, fun _ m _ => m.wellFormed_compile, ?_,
    fun _ _ _ => SortKey.wellFormed_expression, ?_⟩
  · intro template args e h
    obtain ⟨hl, rfl⟩ := Expression.of_ofTemplate h
    exact ⟨Expression.placed_new hl, ⟨rfl, rfl, rfl⟩,
      fun ha => Expression.wellFormed_new_iff.mpr ⟨hl, ha⟩⟩
  · exact fun s => ⟨Expression.wellFormed_raw s, rfl, rfl, rfl⟩
  · exact fun parts separator => ⟨Expression.placed_ofPieces _, Expression.is_join parts separator,
      fun h => Expression.wellFormed_join h separator⟩
  · exact fun e before after => ⟨Expression.placed_wrap e before after, ⟨rfl, rfl, rfl⟩,
      fun h => Expression.wellFormed_wrap h before after⟩
  · exact fun e => ⟨e.wellFormed_flatten, e.params_flatten⟩
  · intro b history l
    have hs := Drafting.calls_keep Draft.sound_step (Draft.sound_fresh b) history
    have hl : (Drafting.calls Draft.step { binding := b } history).ledger = l :=
      (Drafting.calls_map Draft.ledger_step _ history).symm
    have his := hl ▸ hs.toExpression_is
    exact ⟨his.eq ▸ Draft.wellFormed_of_plain hs.plain, his⟩
  · intro b requests
    have hp : (Draft.run { binding := b } requests).Plain :=
      Draft.plain_run (fun p hp => by cases hp) requests
    have hw := Draft.wellFormed_of_plain hp
    exact ⟨hw, hflat hw (Draft.isFlat_of_plain hp)⟩
  · intro d t ht s current n args e h
    obtain ⟨k, hk⟩ := answer_of_translate ht h
    exact ⟨hk.placed, placeholders_of_translate ht h, hk.wellFormed⟩
  · intro s c e hc h
    exact h.elim (Column.wellFormed_bare hc) (Column.wellFormed_selected hc)
  · intro e h
    have hw := wellFormed_of_isStatement h
    have hf := isFlat_of_isStatement h
    exact ⟨hw, hf, hflat hw hf⟩

end SqlWeave
