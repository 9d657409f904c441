import Mathlib.Data.List.Chain
import SqlWeave.Proofs.Drafting.Nested

/-!
# Text and values kept apart

A draft holds its values where they stand in the text. A statement may as well be built in two
lists that know nothing of each other: the text with marks where a value is to stand, and the values
in the order they came. Such a ledger is right only as long as the two lists agree, through text
that is joined, changes of how values are written, and calls that fail half way.

`Ledger` does everything step by step on the two lists, and decides by the kind of a value whether
it is bound. Here it is compared with the draft over any history of calls. A call may have items
that make calls of their own: of each item the record has the calls it made, failed or not, and the
failure it reported in the end.

Results:
* `call_map`, `calls_keep`: what every single step does to a state, a whole history does.
* `ledger_step`: a step of the draft is one of its ledger.
* `aligned_write`: a phrase keeps the two lists aligned, also where it fails half way.
* `Ledger.addValue_eq`: a value is bound exactly if it is predicted to be.
* `draft_aligned`: after any history the two lists agree, and are the draft.
-/

namespace SqlWeave

/-! ## Histories of calls -/

namespace Drafting

/-- A call of which nothing else is asked meanwhile. -/
inductive Single where
  | text (s : String)
  /-- A name, quoted. -/
  | name (s : String)
  | value (v : Value)
  /-- A value bound even where it could stand in place. -/
  | bound (v : Value)
  /-- Values with commas between them. -/
  | values (vs : List Value)
  | fragment (e : Expression)
  /-- From now on all values are written in place, or no longer. -/
  | inPlace (on : Bool)
  | clear

/-- A call. Of each item of a join there is a record of the calls that it made and of the failure
that it reported then; it may have reported none although a call failed. -/
inductive Call where
  | single (c : Single)
  | join (separator : String) (items : List (List Call × Option Error))

section

variable {σ τ : Type} (step : σ → Single → σ × Option Error)

mutual

/-- The state after a call, and its failure. -/
def call (s : σ) : Call → σ × Option Error
  | .single c => step s c
  | .join separator items => join s separator true items

/-- The state after calls, each made whatever became of those before. -/
def calls (s : σ) : List Call → σ
  | [] => s
  | c :: cs => calls (call s c).1 cs

/-- The state after an item, and the failure it reported. -/
def item (s : σ) : List Call × Option Error → σ × Option Error
  | (cs, failure) => (calls s cs, failure)

/-- The state after items up to the first that reported a failure, with a separator in front of each
but the first. -/
def join (s : σ) (separator : String) (first : Bool) :
    List (List Call × Option Error) → σ × Option Error
  | [] => (s, none)
  | i :: items =>
    match item (if first then s else (step s (.text separator)).1) i with
    | (s', none) => join s' separator false items
    | (s', some e) => (s', some e)

end

/-! ### What steps do, histories do -/

variable {step} {step' : τ → Single → τ × Option Error} {f : σ → τ}

mutual

/-- Steps that agree along a view of the state agree in every call. -/
theorem call_map (h : ∀ s c, step' (f s) c = Prod.map f id (step s c)) (s : σ) : ∀ c : Call,
    call step' (f s) c = Prod.map f id (call step s c)
  | .single c => h s c
  | .join separator items => join_map h s separator true items

/-- They agree in every history. -/
theorem calls_map (h : ∀ s c, step' (f s) c = Prod.map f id (step s c)) (s : σ) :
    ∀ cs : List Call, calls step' (f s) cs = f (calls step s cs)
  | [] => rfl
  | c :: cs => by
    rw [calls, calls, call_map h s c]
    exact calls_map h _ cs

theorem item_map (h : ∀ s c, step' (f s) c = Prod.map f id (step s c)) (s : σ) :
    ∀ i : List Call × Option Error, item step' (f s) i = Prod.map f id (item step s i)
  | (cs, failure) => congrArg (·, failure) (calls_map h s cs)

theorem join_map (h : ∀ s c, step' (f s) c = Prod.map f id (step s c)) (s : σ)
    (separator : String) (first : Bool) : ∀ items : List (List Call × Option Error),
    join step' (f s) separator first items = Prod.map f id (join step s separator first items)
  | [] => rfl
  | i :: items => by
    have hs : (if first then f s else (step' (f s) (.text separator)).1) =
        f (if first then s else (step s (.text separator)).1) := by
      rw [h]
      cases first <;> rfl
    rw [join, join, hs, item_map h _ i]
    rcases item step _ i with ⟨s', - | e⟩
    · exact join_map h s' separator false items
    · rfl

end

variable {P : σ → Prop}

mutual

/-- What every step keeps, every call keeps. -/
theorem call_keep (h : ∀ s c, P s → P (step s c).1) {s : σ} (hs : P s) : ∀ c : Call,
    P (call step s c).1
  | .single c => h s c hs
  | .join separator items => join_keep h hs separator true items

/-- Every history keeps it. -/
theorem calls_keep (h : ∀ s c, P s → P (step s c).1) {s : σ} (hs : P s) : ∀ cs : List Call,
    P (calls step s cs)
  | [] => hs
  | c :: cs => calls_keep h (call_keep h hs c) cs

theorem item_keep (h : ∀ s c, P s → P (step s c).1) {s : σ} (hs : P s) :
    ∀ i : List Call × Option Error, P (item step s i).1
  | (cs, _) => calls_keep h hs cs

theorem join_keep (h : ∀ s c, P s → P (step s c).1) {s : σ} (hs : P s) (separator : String)
    (first : Bool) : ∀ items : List (List Call × Option Error),
    P (join step s separator first items).1
  | [] => hs
  | i :: items => by
    have hstart : P (if first then s else (step s (.text separator)).1) := by
      cases first with
      | true => exact hs
      | false => exact h s _ hs
    have hi := item_keep h hstart i
    rw [join]
    generalize item step _ i = r at hi
    obtain ⟨s', - | e⟩ := r
    · exact join_keep h hi separator false items
    · exact hi

end

end

end Drafting

/-! ## Two lists -/

/-- A part of the text: characters, or the place of a value. -/
inductive Mark where
  | raw (s : String)
  | place
  deriving DecidableEq

namespace Mark

/-- The mark that a piece leaves. -/
def ofPiece : Piece → Mark
  | .text s => raw s
  | _ => place

/-- The text of a mark. -/
def text : Mark → String
  | raw s => s
  | place => "?"

/-- The mark is characters. -/
def isRaw : Mark → Bool
  | raw _ => true
  | place => false

end Mark

/-- A statement under construction, its text apart from its values. -/
structure Ledger where
  binding : Binding
  marks : List Mark := []
  values : List Value := []

namespace Ledger

/-- More text. It joins text that stands last, and empty text is left out. -/
def add (l : Ledger) (s : String) : Ledger :=
  if s.isEmpty then l
  else
    match l.marks.getLast? with
    | some (.raw t) => { l with marks := l.marks.dropLast ++ [.raw (t ++ s)] }
    | _ => { l with marks := l.marks ++ [.raw s] }

/-- A place and its value. -/
def push (l : Ledger) (v : Value) : Ledger :=
  { l with marks := l.marks ++ [.place], values := l.values ++ [v] }

/-- The literal of a value, if it has one. -/
def addLiteral (l : Ledger) (v : Value) : Ledger × Option Error :=
  match l.binding.literal v with
  | .ok s => (l.add s, none)
  | .error e => (l, some e)

/-- A value: missing values, truth values and numbers as text, others as the binding has it. -/
def addValue (l : Ledger) (v : Value) : Ledger × Option Error :=
  match l.binding.intercept v with
  | .null => l.addLiteral .null
  | .bool x => l.addLiteral (.bool x)
  | v =>
    if v.isNumeric then l.addLiteral v
    else if l.binding.inPlace || (l.binding.textInPlace && Binding.isText v) then l.addLiteral v
    else (l.push v, none)

/-- A value that is bound unless all values are written in place. -/
def addBound (l : Ledger) (v : Value) : Ledger × Option Error :=
  if l.binding.inPlace then l.addLiteral (l.binding.intercept v)
  else (l.push (l.binding.intercept v), none)

/-- Values with commas between them, up to the first that cannot be written. -/
def addValues (l : Ledger) (first : Bool) : List Value → Ledger × Option Error
  | [] => (l, none)
  | v :: vs =>
    match (if first then l else l.add ", ").addValue v with
    | (l', none) => l'.addValues false vs
    | (l', some e) => (l', some e)

/-- A step on the two lists. -/
def step (l : Ledger) : Drafting.Single → Ledger × Option Error
  | .text s => (l.add s, none)
  | .name s => (l.add (l.binding.dialect.quote s), none)
  | .value v => l.addValue v
  | .bound v => l.addBound v
  | .values vs => l.addValues true vs
  | .fragment e => e.visit add addValue l
  | .inPlace on => ({ l with binding := { l.binding with inPlace := on } }, none)
  | .clear => ({ l with marks := [], values := [] }, none)

/-- The text that is shown. -/
def text (l : Ledger) : String := l.marks.foldl (fun shown m => shown ++ m.text) ""

/-- The text of the fragment, and where its places are in bytes. -/
def assemble (l : Ledger) : String × List Nat :=
  l.marks.foldl
    (fun (template, slots) m =>
      match m with
      | .raw s => (template ++ s, slots)
      | .place => (template ++ "?", slots ++ [template.utf8ByteSize]))
    ("", [])

/-- The two lists agree, and text is joined. -/
structure Aligned (l : Ledger) : Prop where
  places : l.marks.count .place = l.values.length
  nonempty : .raw "" ∉ l.marks
  joined : l.marks.IsChain fun m n => ¬ (m.isRaw = true ∧ n.isRaw = true)

section

variable {l : Ledger} {s : String}

theorem add_of_getLast? {t : String} (hs : s ≠ "") {marks : List Mark}
    (hm : l.marks = marks ++ [.raw t]) :
    l.add s = { l with marks := marks ++ [.raw (t ++ s)] } := by
  simp [add, hs, hm]

theorem add_of_not_raw (hs : s ≠ "") (hm : ∀ t, l.marks.getLast? ≠ some (.raw t)) :
    l.add s = { l with marks := l.marks ++ [.raw s] } := by
  unfold add
  rw [if_neg (by simpa using hs)]
  split
  · rename_i t ht
    exact absurd ht (hm t)
  · rfl

/-- **More text keeps the lists aligned.** -/
theorem aligned_add (h : l.Aligned) (s : String) : (l.add s).Aligned := by
  by_cases hs : s = ""
  · subst hs
    exact h
  by_cases hm : ∃ t, l.marks.getLast? = some (.raw t)
  · -- the text joins the one that stands last
    obtain ⟨t, ht⟩ := hm
    obtain ⟨marks, hm⟩ := List.getLast?_eq_some_iff.mp ht
    obtain ⟨hplaces, hnonempty, hjoined⟩ := h
    rw [hm] at hplaces hnonempty hjoined
    rw [add_of_getLast? hs hm]
    refine ⟨?_, ?_, ?_⟩
    · simpa [List.count_append] using hplaces
    · simp_all
    · rw [List.isChain_append] at hjoined ⊢
      refine ⟨hjoined.1, List.isChain_singleton _, fun m hmem n hn => ?_⟩
      obtain rfl := Option.some.inj hn
      exact hjoined.2.2 m hmem (.raw t) rfl
  · rw [add_of_not_raw hs (not_exists.mp hm)]
    refine ⟨?_, ?_, ?_⟩
    · simpa [List.count_append] using h.places
    · simpa [hs, eq_comm] using h.nonempty
    · refine List.isChain_append.mpr ⟨h.joined, List.isChain_singleton _, fun m hmem _ _ hraw => ?_⟩
      cases m with
      | raw t => exact hm ⟨t, hmem⟩
      | place => cases hraw.1

/-- **A place comes with its value.** -/
theorem aligned_push (h : l.Aligned) (v : Value) : (l.push v).Aligned := by
  refine ⟨?_, ?_, ?_⟩
  · simp [push, List.count_append, h.places]
  · simpa [push] using h.nonempty
  · refine List.isChain_append.mpr ⟨h.joined, List.isChain_singleton _, fun _ _ n hn hraw => ?_⟩
    obtain rfl := Option.some.inj hn
    cases hraw.2

/-- **A value is bound exactly if it is predicted to be**, and otherwise its literal is written. -/
theorem addValue_eq (l : Ledger) (v : Value) :
    l.addValue v =
      if l.binding.binds (l.binding.intercept v) then (l.push (l.binding.intercept v), none)
      else l.addLiteral (l.binding.intercept v) := by
  unfold addValue
  generalize l.binding.intercept v = w
  cases hp : l.binding.inPlace <;> cases ht : l.binding.textInPlace <;> cases w <;>
    simp [Binding.binds, Binding.isPlain, Binding.isText, Value.isNumeric, hp, ht]

theorem values_add (l : Ledger) (s : String) : (l.add s).values = l.values := by
  unfold add
  split
  · rfl
  · split <;> rfl

theorem values_addLiteral (l : Ledger) (v : Value) : (l.addLiteral v).1.values = l.values := by
  unfold addLiteral
  cases l.binding.literal v with
  | ok s => exact l.values_add s
  | error e => rfl

/-- The prediction is right. -/
theorem binds_iff (l : Ledger) (v : Value) :
    l.binding.binds (l.binding.intercept v) = true ↔ ∃ w, l.addValue v = (l.push w, none) := by
  rw [addValue_eq]
  constructor
  · intro h
    exact ⟨_, if_pos h⟩
  · rintro ⟨w, hw⟩
    by_contra h
    -- text leaves the list of values as it was
    rw [if_neg h] at hw
    have hvalues := congrArg (fun r => r.1.values.length) hw
    simp [values_addLiteral, push] at hvalues

end

end Ledger

/-! ## The ledger of a draft -/

namespace Draft

variable {d : Draft}

/-- The ledger of a draft. -/
def ledger (d : Draft) : Ledger :=
  ⟨d.binding, d.reversed.reverse.map Mark.ofPiece, Piece.values d.reversed.reverse⟩

theorem ledger_push_text (d : Draft) (s : String) : (d.push (.text s)).ledger = d.ledger.add s := by
  obtain ⟨b, r⟩ := d
  by_cases hs : s = ""
  · subst hs
    rfl
  rcases r with - | ⟨(t | v | inner), r⟩
  · rw [Ledger.add_of_not_raw hs (by simp [ledger])]
    simp [push, hs, ledger, Mark.ofPiece, Piece.values]
  · have hmarks : (ledger ⟨b, .text t :: r⟩).marks = r.reverse.map Mark.ofPiece ++ [.raw t] := by
      simp [ledger, Mark.ofPiece]
    rw [Ledger.add_of_getLast? hs hmarks]
    simp [push, hs, ledger, Mark.ofPiece, Piece.values, Piece.values_append]
  · rw [Ledger.add_of_not_raw hs (by simp [ledger, Mark.ofPiece])]
    simp [push, hs, ledger, Mark.ofPiece, Piece.values, Piece.values_append]
  · rw [Ledger.add_of_not_raw hs (by simp [ledger, Mark.ofPiece])]
    simp [push, hs, ledger, Mark.ofPiece, Piece.values, Piece.values_append]

theorem ledger_push_bound (d : Draft) (v : Value) :
    (d.push (.bound v)).ledger = d.ledger.push v := by
  simp [push, ledger, Ledger.push, Mark.ofPiece, Piece.values, Piece.values_append]

/-! ### Steps -/

/-- A step of a draft. -/
def step (d : Draft) : Drafting.Single → Draft × Option Error
  | .text s => d.write [.text s]
  | .name s => d.write [.text (d.binding.dialect.quote s)]
  | .value v => d.write [.value v]
  | .bound v => d.write [.bound v]
  | .values vs => d.write (.ofValues vs)
  | .fragment e => d.write (.ofExpression e)
  | .inPlace on => ({ d with binding := { d.binding with inPlace := on } }, none)
  | .clear => (d.clear, none)

/-- A piece is put behind the others, if there is one. -/
def put (d : Draft) : Result Piece → Draft × Option Error
  | .ok piece => (d.push piece, none)
  | .error e => (d, some e)

/-- What a draft reports, seen on its ledger. -/
def view (r : Draft × Option Error) : Ledger × Option Error := Prod.map ledger id r

theorem view_text (d : Draft) (s : String) : view (d.write [.text s]) = (d.ledger.add s, none) :=
  congrArg (·, none) (d.ledger_push_text s)

theorem view_literal (d : Draft) (v : Value) :
    view (d.put ((d.binding.literal v).map .text)) = d.ledger.addLiteral v := by
  have hb : d.ledger.binding = d.binding := rfl
  unfold Ledger.addLiteral
  rw [hb]
  cases d.binding.literal v with
  | ok s => exact congrArg (·, none) (d.ledger_push_text s)
  | error e => rfl

theorem view_value (d : Draft) (v : Value) : view (d.write [.value v]) = d.ledger.addValue v := by
  have hb : d.ledger.binding = d.binding := rfl
  have hw : d.write [.value v] = d.put (d.binding.place (.value v)) := rfl
  rw [Ledger.addValue_eq, hw, hb, Binding.place]
  cases h : d.binding.binds (d.binding.intercept v) with
  | true => exact congrArg (·, none) (d.ledger_push_bound _)
  | false => exact d.view_literal _

theorem view_bound (d : Draft) (v : Value) : view (d.write [.bound v]) = d.ledger.addBound v := by
  have hb : d.ledger.binding = d.binding := rfl
  have hw : d.write [.bound v] = d.put (d.binding.place (.bound v)) := rfl
  rw [Ledger.addBound, hw, hb, Binding.place]
  cases h : d.binding.inPlace with
  | true => exact d.view_literal _
  | false => exact congrArg (·, none) (d.ledger_push_bound _)

/-- What is written first is seen first. -/
theorem view_write_append {p q : Phrase} {k : Ledger → Ledger × Option Error}
    (hq : ∀ d' : Draft, view (d'.write q) = k d'.ledger) (d : Draft) :
    view (d.write (p ++ q)) =
      match view (d.write p) with
      | (l, none) => k l
      | (l, some e) => (l, some e) := by
  rw [write_append]
  rcases d.write p with ⟨d', - | e⟩
  · exact hq d'
  · rfl

theorem view_values : ∀ (vs : List Value) (d : Draft),
    view (d.write (Phrase.ofValues vs)) = d.ledger.addValues true vs
  | [], _ => rfl
  | [v], d => by
    have hv : Phrase.ofValues [v] = [.value v] := rfl
    have hl : d.ledger.addValues true [v] =
        match d.ledger.addValue v with
        | (l, none) => (l, none)
        | (l, some e) => (l, some e) := rfl
    rw [hv, view_value, hl]
    rcases d.ledger.addValue v with ⟨l, - | e⟩ <;> rfl
  | v :: w :: vs, d => by
    have hv : Phrase.ofValues (v :: w :: vs) =
        [.value v] ++ ([.text ", "] ++ Phrase.ofValues (w :: vs)) := rfl
    -- the separator is written in front of the next value
    have hrest : ∀ d' : Draft, view (d'.write ([.text ", "] ++ Phrase.ofValues (w :: vs))) =
        d'.ledger.addValues false (w :: vs) := fun d' => by
      rw [view_write_append (k := fun l => l.addValues true (w :: vs)) (view_values (w :: vs)),
        view_text]
      rfl
    rw [hv, view_write_append (k := fun l => l.addValues false (w :: vs)) hrest, view_value]
    rfl

theorem view_visit : ∀ (ps : List Piece) (d : Draft),
    view (Piece.visit (fun d s => d.push (.text s)) (fun d v => d.write [.value v]) ps d) =
      Piece.visit Ledger.add Ledger.addValue ps d.ledger
  | [], _ => rfl
  | .text s :: ps, d => by
    rw [Piece.visit, Piece.visit, ← d.ledger_push_text]
    exact view_visit ps _
  | .nested _ :: ps, d => view_visit ps d
  | .bound v :: ps, d => by
    rw [Piece.visit, Piece.visit, ← d.view_value]
    rcases d.write [.value v] with ⟨d', - | e⟩
    · exact view_visit ps d'
    · rfl

/-- **A step of the draft is one of its ledger**, with the same outcome. -/
theorem ledger_step (d : Draft) (c : Drafting.Single) :
    d.ledger.step c = Prod.map ledger id (d.step c) := by
  cases c with
  | text s => exact (d.view_text s).symm
  | name s => exact (d.view_text _).symm
  | value v => exact (d.view_value v).symm
  | bound v => exact (d.view_bound v).symm
  | values vs => exact (view_values vs d).symm
  | fragment e =>
    have h := view_visit e.leaves d
    rw [← Expression.visit_eq, ← Expression.visit_eq] at h
    rw [step, ← d.splice_eq_write]
    exact h.symm
  | inPlace on => rfl
  | clear => rfl

/-- A part that cannot be written leaves the draft as it was. -/
theorem eq_of_write_failed {part : Part} {e : Error} (h : (d.write [part]).2 = some e) :
    (d.write [part]).1 = d := by
  unfold write at h ⊢
  cases hp : d.binding.place part with
  | error e => rfl
  | ok piece =>
    rw [hp] at h
    cases h

/-! ### Agreement -/

/-- **A phrase keeps the two lists aligned**, also where it fails half way. -/
theorem aligned_write (h : d.ledger.Aligned) (p : Phrase) : (d.write p).1.ledger.Aligned := by
  induction p generalizing d with
  | nil => exact h
  | cons part p ih =>
    unfold write
    cases hp : d.binding.place part with
    | error e => exact h
    | ok piece =>
      refine ih ?_
      cases piece with
      | text s => exact d.ledger_push_text s ▸ Ledger.aligned_add h s
      | bound v => exact d.ledger_push_bound v ▸ Ledger.aligned_push h v
      | nested inner => exact absurd hp (d.binding.place_ne_nested part inner)

/-- The lists of the draft agree, and no fragment stands among its pieces. -/
structure Sound (d : Draft) : Prop where
  aligned : d.ledger.Aligned
  plain : d.Plain

theorem sound_fresh (b : Binding) : Sound { binding := b } :=
  ⟨⟨rfl, fun h => (by cases h), .nil⟩, fun _ h => (by cases h)⟩

theorem sound_step (d : Draft) (c : Drafting.Single) (h : d.Sound) : (d.step c).1.Sound := by
  have hwrite : ∀ p : Phrase, (d.write p).1.Sound := fun p =>
    ⟨aligned_write h.aligned p, plain_write h.plain p⟩
  cases c with
  | inPlace on => exact ⟨⟨h.aligned.places, h.aligned.nonempty, h.aligned.joined⟩, h.plain⟩
  | clear => exact sound_fresh d.binding
  | _ => exact hwrite _

theorem text_ledger (d : Draft) : d.ledger.text = d.text := by
  have h : ∀ (ps : List Piece) (shown : String),
      (ps.map Mark.ofPiece).foldl (fun shown m => shown ++ m.text) shown =
        shown ++ String.join (ps.map Piece.template) := by
    intro ps
    induction ps with
    | nil => exact fun shown => String.append_empty.symm
    | cons p ps ih =>
      intro shown
      rw [List.map_cons, List.foldl_cons, ih, List.map_cons, String.join_cons,
        ← String.append_assoc]
      cases p <;> rfl
  exact (h d.reversed.reverse "").trans String.empty_append

/-- The fragment is assembled from its marks. -/
theorem assemble_ledger (d : Draft) :
    d.ledger.assemble = (d.toExpression.template, d.toExpression.slots) := by
  have h : ∀ (ps : List Piece) (template : String) (slots : List Nat),
      (ps.map Mark.ofPiece).foldl
        (fun (template, slots) m =>
          match m with
          | .raw s => (template ++ s, slots)
          | .place => (template ++ "?", slots ++ [template.utf8ByteSize]))
        (template, slots) =
      (template ++ String.join (ps.map Piece.template),
        slots ++ Piece.slotsFrom template.utf8ByteSize ps) := by
    intro ps
    induction ps with
    | nil => exact fun _ _ => Prod.ext String.append_empty.symm (List.append_nil _).symm
    | cons p ps ih =>
      intro template slots
      rw [List.map_cons, List.foldl_cons, List.map_cons, String.join_cons, ← String.append_assoc]
      -- a piece that is no text is shown as a question mark, and its place is noted
      have hplace : (template ++ "?" ++ String.join (ps.map Piece.template),
          (slots ++ [template.utf8ByteSize]) ++
            Piece.slotsFrom (template ++ "?").utf8ByteSize ps) =
          (template ++ "?" ++ String.join (ps.map Piece.template),
            slots ++ template.utf8ByteSize ::
              Piece.slotsFrom (template.utf8ByteSize + 1) ps) := by
        rw [List.append_assoc, String.utf8ByteSize_append]
        rfl
      cases p with
      | text s =>
        refine (ih (template ++ s) slots).trans ?_
        rw [String.utf8ByteSize_append]
        rfl
      | bound v => exact (ih _ _).trans hplace
      | nested inner => exact (ih _ _).trans hplace
  exact (h d.reversed.reverse "" []).trans (Prod.ext String.empty_append rfl)

end Draft

/-- **The fragment of a draft is assembled from its two lists.** -/
theorem Draft.Sound.toExpression_is {d : Draft} (h : d.Sound) :
    d.toExpression.Is d.ledger.assemble.1 d.ledger.assemble.2 (d.ledger.values.map .value) := by
  rw [d.assemble_ledger]
  refine ⟨rfl, rfl, Piece.params_of_flat fun p hp => h.plain p (List.mem_reverse.mp hp)⟩

/-- **After any history of calls the two lists agree, and are the draft.** There are as many places
as values, no text is empty, and none stands beside another. The draft shows the text of its
fragment, which has the values of the list at the places in the text. Every further call ends
alike; a value that cannot be written leaves the draft as it was, and a value is predicted to be
bound exactly if it takes a place of its own. -/
theorem draft_aligned (b : Binding) (history : List Drafting.Call) :
    let d := Drafting.calls Draft.step { binding := b } history
    let l := Drafting.calls Ledger.step { binding := b } history
    (d.ledger = l ∧ l.Aligned) ∧
      (d.text = l.text ∧ l.assemble.1 = l.text ∧
        d.toExpression.Is l.assemble.1 l.assemble.2 (l.values.map .value) ∧
        d.toExpression.values = l.values) ∧
      (∀ c, Drafting.call Ledger.step l c =
        ((Drafting.call Draft.step d c).1.ledger, (Drafting.call Draft.step d c).2)) ∧
      (∀ v e, (d.step (.value v)).2 = some e → (d.step (.value v)).1 = d) ∧
      (∀ v e, (d.step (.bound v)).2 = some e → (d.step (.bound v)).1 = d) ∧
      ∀ v, d.binding.binds (d.binding.intercept v) = true ↔
        ∃ w, l.addValue v = (l.push w, none) := by
  intro d l
  have hl : d.ledger = l := (Drafting.calls_map Draft.ledger_step _ history).symm
  have hs : d.Sound := Drafting.calls_keep Draft.sound_step (Draft.sound_fresh b) history
  have hvalues : d.toExpression.values = l.values := by
    rw [← hl, Draft.toExpression, Expression.values_ofPieces, Piece.leavesAll_of_flat
      fun p hp => hs.plain p (List.mem_reverse.mp hp)]
    rfl
  have his : d.toExpression.Is l.assemble.1 l.assemble.2 (l.values.map .value) :=
    hl ▸ hs.toExpression_is
  have htext : d.text = l.text := hl ▸ d.text_ledger.symm
  refine ⟨⟨hl, hl ▸ hs.aligned⟩, ⟨htext, ?_, his, hvalues⟩, ?_, ?_, ?_, ?_⟩
  · rw [← his.template, ← htext]
    rfl
  · intro c
    rw [← hl]
    exact Drafting.call_map Draft.ledger_step d c
  · exact fun _ _ => Draft.eq_of_write_failed
  · exact fun _ _ => Draft.eq_of_write_failed
  · exact hl ▸ d.ledger.binds_iff

end SqlWeave
