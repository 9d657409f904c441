import SqlWeave.Expression
import SqlWeave.Proofs.Template.Place
import SqlWeave.Text.Truncate

/-!
# The pieces of a fragment

A fragment keeps its template, its places and its parameters apart. Here it is read as a list of
pieces, and pieces are made a fragment again: the fragment of some pieces has these pieces, in
normal form, where no text is empty and no two texts stand side by side. So what is proved of lists
of pieces holds of the fragments made of them, and two lists with one normal form make one fragment.

The leaves of any fragment are the leaves of its pieces one behind the other.

Results:
* `symbolsAt_holesFrom`: symbols are their characters and the places of their holes.
* **`pieces_ofPieces`**: the fragment of some pieces has these pieces.
* `ofPieces_eq_iff`: two lists of pieces make one fragment iff they have one normal form.
* `leaves_eq`: the leaves of a fragment are those of its pieces.
* `ofPieces_append`: pieces become a fragment part by part.
* `values_wrap`, `values_join`: what is wrapped or joined binds the values of its parts.
-/

namespace SqlWeave

open Template (Symbol chars holesFrom symbolsAt)

theorem map_intersperse {α β : Type} (f : α → β) (separator : α) :
    ∀ xs : List α, (xs.intersperse separator).map f = (xs.map f).intersperse (f separator)
  | [] => rfl
  | [_] => rfl
  | x :: y :: xs => by
    rw [List.intersperse_cons_cons, List.map_cons, List.map_cons,
      map_intersperse f separator (y :: xs)]
    rfl

/-- Texts with a separator between them are joined as one. -/
theorem join_intersperse (separator : String) (texts : List String) :
    String.join (texts.intersperse separator) = separator.intercalate texts := by
  rw [← String.toList_inj, String.toList_join, String.toList_intercalate, List.intercalate,
    List.flatMap_def, map_intersperse]

/-! ## Symbols and places -/

namespace Template

/-- The number of bytes of symbols. -/
def width (xs : List Symbol) : Nat := (xs.map fun x => x.toChar.utf8Size).sum

theorem holesFrom_append (n : Nat) (xs ys : List Symbol) :
    holesFrom n (xs ++ ys) = holesFrom n xs ++ holesFrom (n + width xs) ys := by
  induction xs generalizing n with
  | nil => rfl
  | cons x xs ih =>
    have hw : ∀ k, n + k + width xs = n + (k + width xs) := fun k => Nat.add_assoc ..
    cases x with
    | hole =>
      rw [List.cons_append, holesFrom, holesFrom, ih, hw]
      rfl
    | char c =>
      rw [List.cons_append, holesFrom, holesFrom, ih, hw]
      rfl

theorem holesFrom_chars (n : Nat) (s : String) : holesFrom n (chars s) = [] := by
  unfold chars
  induction s.toList generalizing n with
  | nil => rfl
  | cons c cs ih => exact ih _

theorem width_chars (s : String) : width (chars s) = s.utf8ByteSize := by
  rw [← Text.byteSize_toList]
  unfold width chars Text.byteSize
  simp only [List.map_map, Function.comp_def, Symbol.toChar]

/-- The places behind a number of bytes are the places moved by it. -/
theorem holesFrom_eq_map (n : Nat) (xs : List Symbol) :
    holesFrom n xs = (holesFrom 0 xs).map (n + ·) := by
  have hk : ∀ k, holesFrom (n + k) xs = (holesFrom k xs).map (n + ·) := by
    induction xs with
    | nil => exact fun k => rfl
    | cons x xs ih =>
      intro k
      cases x with
      | hole => rw [holesFrom, holesFrom, List.map_cons, Nat.add_assoc, ih]
      | char c => rw [holesFrom, holesFrom, Nat.add_assoc, ih]
  exact hk 0

theorem le_of_mem_holesFrom {n i : Nat} {xs : List Symbol} (h : i ∈ holesFrom n xs) : n ≤ i := by
  induction xs generalizing n with
  | nil => cases h
  | cons x xs ih =>
    cases x with
    | hole =>
      rcases List.mem_cons.mp h with rfl | h
      · exact Nat.le_refl _
      · exact Nat.le_of_succ_le (ih h)
    | char c => exact Nat.le_trans (Nat.le_add_right n c.utf8Size) (ih h)

theorem pairwise_holesFrom (n : Nat) (xs : List Symbol) : (holesFrom n xs).Pairwise (· < ·) := by
  induction xs generalizing n with
  | nil => exact .nil
  | cons x xs ih =>
    cases x with
    | hole => exact .cons (fun i hi => le_of_mem_holesFrom hi) (ih _)
    | char c => exact ih _

theorem length_holesFrom (n : Nat) (xs : List Symbol) :
    (holesFrom n xs).length = xs.count .hole := by
  induction xs generalizing n with
  | nil => rfl
  | cons x xs ih =>
    cases x with
    | hole => rw [holesFrom, List.length_cons, ih, List.count_cons_self]
    | char c => rw [holesFrom, ih, List.count_cons_of_ne (by simp)]

/-- Where no place is left there are characters only. -/
theorem symbolsAt_nil (n : Nat) (cs : List Char) : symbolsAt n cs [] = cs.map .char := by
  induction cs generalizing n with
  | nil => rfl
  | cons c cs ih => rw [symbolsAt, ih, List.map_cons]

/-- A character in front of the next place is read as it is. -/
theorem symbolsAt_cons {n : Nat} {c : Char} {cs : List Char} {places : List Nat}
    (h : ∀ i ∈ places, n < i) :
    symbolsAt n (c :: cs) places = .char c :: symbolsAt (n + c.utf8Size) cs places := by
  cases places with
  | nil => rfl
  | cons i places => rw [symbolsAt, if_neg (Nat.ne_of_gt (h i List.mem_cons_self))]

/-- **Symbols are their characters and the places of their holes.** -/
theorem symbolsAt_holesFrom (n : Nat) (xs : List Symbol) :
    symbolsAt n (xs.map Symbol.toChar) (holesFrom n xs) = xs := by
  induction xs generalizing n with
  | nil => rfl
  | cons x xs ih =>
    cases x with
    | hole =>
      rw [List.map_cons, holesFrom, symbolsAt, if_pos rfl]
      exact congrArg (_ :: ·) (ih _)
    | char c =>
      have hnext : ∀ i ∈ holesFrom (n + c.utf8Size) xs, n < i := fun i hi =>
        Nat.lt_of_lt_of_le (Nat.lt_add_of_pos_right c.utf8Size_pos) (le_of_mem_holesFrom hi)
      rw [List.map_cons, holesFrom, Symbol.toChar, symbolsAt_cons hnext, ih]

end Template

namespace Piece

/-! ## Symbols of pieces -/

/-- The symbols of a piece in a template. -/
def symbols : Piece → List Symbol
  | text s => chars s
  | _ => [.hole]

theorem map_toChar_symbols (p : Piece) : p.symbols.map Symbol.toChar = p.template.toList := by
  cases p with
  | text s => exact Template.map_toChar_chars s
  | bound v => exact (String.toList_ofList (l := ['?'])).symm
  | nested e => exact (String.toList_ofList (l := ['?'])).symm

theorem slotsFrom_eq (n : Nat) (ps : List Piece) :
    slotsFrom n ps = holesFrom n (ps.flatMap symbols) := by
  induction ps generalizing n with
  | nil => rfl
  | cons p ps ih =>
    rw [List.flatMap_cons, Template.holesFrom_append, ← ih]
    cases p with
    | text s =>
      rw [slotsFrom, symbols, Template.holesFrom_chars, Template.width_chars, List.nil_append]
    | bound v => rfl
    | nested e => rfl

theorem params_cons (p : Piece) (ps : List Piece) : params (p :: ps) = params [p] ++ params ps := by
  cases p <;> rfl

theorem params_append (ps qs : List Piece) : params (ps ++ qs) = params ps ++ params qs :=
  List.filterMap_append

/-- Between parameters one after another are texts only. -/
theorem params_intersperse (separator : String) (args : List Param) :
    params ((args.map Param.piece).intersperse (.text separator)) = args := by
  induction args with
  | nil => rfl
  | cons a args ih =>
    have ha : params [a.piece] = [a] := by cases a <;> rfl
    cases args with
    | nil => exact ha
    | cons b args =>
      rw [List.map_cons, List.map_cons, List.intersperse_cons_cons, params_cons, ha,
        List.singleton_append]
      exact congrArg (a :: ·) ih

/-- The text of parameters one after another. -/
theorem template_intersperse (separator : String) (args : List Param) :
    String.join (((args.map Param.piece).intersperse (.text separator)).map template) =
      separator.intercalate (List.replicate args.length "?") := by
  have ha : ∀ a : Param, a.piece.template = "?" := fun a => by cases a <;> rfl
  rw [map_intersperse, List.map_map, ← List.map_const']
  simp only [Function.comp_def, ha]
  exact join_intersperse _ _

/-- There are as many parameters among pieces as holes. -/
theorem length_params (ps : List Piece) :
    (params ps).length = (ps.flatMap symbols).count .hole := by
  induction ps with
  | nil => rfl
  | cons p ps ih =>
    rw [params_cons, List.flatMap_cons, List.length_append, List.count_append, ih]
    cases p with
    | text s =>
      have hc : (chars s).count .hole = 0 := List.count_eq_zero.mpr (by simp [chars])
      rw [symbols, hc]
      rfl
    | bound v => rfl
    | nested e => rfl

/-! ## The normal form -/

/-- A piece in front of others; text is joined to the text behind it and empty text left out. -/
def cons : Piece → List Piece → List Piece
  | text s, ps =>
    if s.isEmpty then ps
    else
      match ps with
      | text t :: rest => text (s ++ t) :: rest
      | ps => text s :: ps
  | p, ps => p :: ps

/-- Pieces in normal form: no text is empty, no two texts stand side by side. -/
def normal (ps : List Piece) : List Piece := ps.foldr cons []

theorem normal_cons (p : Piece) (ps : List Piece) : normal (p :: ps) = cons p (normal ps) := rfl

/-- Text in front of text is one text. -/
theorem cons_text_cons_text (s t : String) (ps : List Piece) :
    cons (.text s) (cons (.text t) ps) = cons (.text (s ++ t)) ps := by
  by_cases hs : s = ""
  · subst hs
    simp [cons]
  · by_cases ht : t = ""
    · subst ht
      simp [cons]
    · have hst : s ++ t ≠ "" := by simp [hs]
      rcases ps with - | ⟨(u | v | inner), rest⟩ <;> simp [cons, hs, ht, hst, String.append_assoc]

/-- What is in normal form already may be joined to the rest. -/
theorem foldr_cons_normal (ps rest : List Piece) :
    (normal ps).foldr cons rest = ps.foldr cons rest := by
  induction ps with
  | nil => rfl
  | cons p ps ih =>
    rw [normal_cons, List.foldr_cons, ← ih]
    cases p with
    | bound v => rfl
    | nested inner => rfl
    | text s =>
      generalize normal ps = l
      by_cases hs : s = ""
      · subst hs
        simp [cons]
      · rcases l with - | ⟨(t | v | inner), l⟩
        · simp [cons, hs]
        · have h : cons (.text s) (.text t :: l) = .text (s ++ t) :: l := by simp [cons, hs]
          rw [h, List.foldr_cons, List.foldr_cons, cons_text_cons_text]
        · simp [cons, hs]
        · simp [cons, hs]

theorem normal_normal (ps : List Piece) : normal (normal ps) = normal ps := foldr_cons_normal ps []

theorem normal_append (ps qs : List Piece) : normal (ps ++ qs) = ps.foldr cons (normal qs) :=
  List.foldr_append

/-- The normal form is found part by part. -/
theorem normal_normal_append (ps qs : List Piece) :
    normal (normal ps ++ normal qs) = normal (ps ++ qs) := by
  rw [normal_append, normal_normal, foldr_cons_normal, ← normal_append]

/-- What is read off pieces one after another, joined text counting as its parts, is read off their
normal form as well. -/
theorem flatMap_normal {α : Type} (f : Piece → List α) (he : f (.text "") = [])
    (ht : ∀ s t, f (.text (s ++ t)) = f (.text s) ++ f (.text t)) (ps : List Piece) :
    (normal ps).flatMap f = ps.flatMap f := by
  induction ps with
  | nil => rfl
  | cons p ps ih =>
    rw [normal_cons, List.flatMap_cons, ← ih]
    generalize normal ps = l
    cases p with
    | bound v => rfl
    | nested inner => rfl
    | text s =>
      by_cases hs : s = ""
      · subst hs
        simp [cons, he]
      · rcases l with - | ⟨(t | v | inner), l⟩ <;> simp [cons, hs, ht]

/-- Text is joined without changing a symbol. -/
theorem flatMap_symbols_normal (ps : List Piece) :
    (normal ps).flatMap symbols = ps.flatMap symbols :=
  flatMap_normal symbols rfl Template.chars_append ps

theorem params_eq_flatMap (ps : List Piece) : params ps = ps.flatMap fun p => params [p] := by
  induction ps with
  | nil => rfl
  | cons p ps ih => rw [params_cons, List.flatMap_cons, ih]

theorem params_normal (ps : List Piece) : params (normal ps) = params ps := by
  rw [params_eq_flatMap, params_eq_flatMap ps, flatMap_normal _ rfl fun _ _ => rfl]

theorem values_text (s : String) (ps : List Piece) : values (.text s :: ps) = values ps := rfl

theorem values_append (ps qs : List Piece) : values (ps ++ qs) = values ps ++ values qs := by
  induction ps with
  | nil => rfl
  | cons p rest ih => cases p <;> simp [values, ih]

theorem values_eq_flatMap (ps : List Piece) : values ps = ps.flatMap fun p => values [p] := by
  induction ps with
  | nil => rfl
  | cons p ps ih =>
    rw [List.flatMap_cons, ← ih]
    cases p <;> rfl

/-- The normal form has the values of the pieces. -/
theorem values_normal (ps : List Piece) : values (normal ps) = values ps := by
  rw [values_eq_flatMap, values_eq_flatMap ps, flatMap_normal _ rfl fun _ _ => rfl]

/-! ## Filling -/

theorem flush_eq_cons (read : List Char) {p : Piece} (hp : ∀ s, p ≠ .text s) (ps : List Piece) :
    flush read (p :: ps) = cons (.text (String.ofList read.reverse)) (p :: ps) := by
  cases p with
  | text s => exact absurd rfl (hp s)
  | bound v => cases read <;> simp [flush, cons]
  | nested e => cases read <;> simp [flush, cons]

theorem flush_nil (read : List Char) :
    flush read [] = cons (.text (String.ofList read.reverse)) [] := by
  cases read <;> simp [flush, cons]

theorem fill_chars (s : String) (xs : List Symbol) (fillings : List (List Piece)) :
    ∀ read : List Char,
      fill read (chars s ++ xs) fillings = fill (s.toList.reverse ++ read) xs fillings := by
  unfold chars
  induction s.toList with
  | nil => exact fun _ => rfl
  | cons c cs ih =>
    intro read
    rw [List.map_cons, List.cons_append, fill, ih, List.reverse_cons, List.append_assoc]
    rfl

/-- **Filling the symbols of pieces gives the pieces back**, behind the text that has been read. -/
theorem fill_symbols (ps : List Piece) : ∀ read : List Char,
    fill read (ps.flatMap symbols) ((params ps).map fun p => [p.piece]) =
      cons (.text (String.ofList read.reverse)) (normal ps) := by
  induction ps with
  | nil => exact flush_nil
  | cons p ps ih =>
    intro read
    rw [List.flatMap_cons, normal_cons]
    -- what comes to a place ends the text that was read
    have hplace : ∀ a : Param, (∀ s, a.piece ≠ .text s) →
        fill read (.hole :: ps.flatMap symbols) ([a.piece] :: (params ps).map fun p => [p.piece]) =
          cons (.text (String.ofList read.reverse)) (a.piece :: normal ps) := by
      intro a ha
      rw [fill, ih, List.singleton_append, ← flush_eq_cons read ha]
      simp [cons]
    cases p with
    | text s =>
      have hparams : params (.text s :: ps) = params ps := rfl
      rw [symbols, hparams, fill_chars, ih, cons_text_cons_text, List.reverse_append,
        List.reverse_reverse, String.ofList_append, String.ofList_toList]
    | bound v => exact hplace (.value v) fun s h => by cases h
    | nested e => exact hplace (.expression e) fun s h => by cases h

/-- What is filled in may be read as it is filled in. -/
theorem flatMap_fill {f : Piece → List Piece} (hf : ∀ s, f (.text s) = [.text s])
    (xs : List Symbol) : ∀ (read : List Char) (fillings : List (List Piece)),
      (fill read xs fillings).flatMap f = fill read xs (fillings.map (·.flatMap f)) := by
  have hflush : ∀ (read : List Char) (ps : List Piece),
      (flush read ps).flatMap f = flush read (ps.flatMap f) := by
    intro read ps
    cases read <;> simp [flush, hf]
  induction xs with
  | nil => exact fun read _ => hflush read []
  | cons x xs ih =>
    intro read fillings
    cases x with
    | char c => exact ih _ _
    | hole =>
      cases fillings with
      | nil => exact ih _ _
      | cons g fillings =>
        rw [fill, hflush, List.flatMap_append, ih]
        rfl

/-! ## Leaves -/

/-- The leaves of a piece. -/
def leaves : Piece → List Piece
  | text s => [.text s]
  | bound v => [.bound v]
  | nested e => e.leaves

/-- The leaves of a list of pieces. -/
def leavesAll : List Piece → List Piece
  | [] => []
  | p :: rest => leaves p ++ leavesAll rest

theorem leavesAll_eq_flatMap (ps : List Piece) : leavesAll ps = ps.flatMap leaves := by
  induction ps with
  | nil => rfl
  | cons p ps ih => rw [leavesAll, ih, List.flatMap_cons]

theorem leavesAll_append (ps qs : List Piece) :
    leavesAll (ps ++ qs) = leavesAll ps ++ leavesAll qs := by
  induction ps with
  | nil => rfl
  | cons p rest ih => simp [leavesAll, ih]

/-- Pieces with nothing nested among them are their own leaves. -/
theorem leavesAll_of_flat {ps : List Piece} (h : ∀ p ∈ ps, ∀ inner, p ≠ .nested inner) :
    leavesAll ps = ps := by
  induction ps with
  | nil => rfl
  | cons p ps ih =>
    rw [leavesAll, ih fun q hq => h q (List.mem_cons_of_mem _ hq)]
    cases p with
    | nested inner => exact absurd rfl (h _ List.mem_cons_self inner)
    | text s => rfl
    | bound v => rfl

/-- What is read off leaves, joined text counting as its parts, is read off those of pieces in
normal form as well. -/
theorem flatMap_leavesAll_normal {α : Type} (f : Piece → List α) (he : f (.text "") = [])
    (ht : ∀ s t, f (.text (s ++ t)) = f (.text s) ++ f (.text t)) (ps : List Piece) :
    (leavesAll (normal ps)).flatMap f = (leavesAll ps).flatMap f := by
  have h := flatMap_normal (fun p => p.leaves.flatMap f) (by simpa [leaves] using he)
    (fun s t => by simpa [leaves] using ht s t) ps
  rw [leavesAll_eq_flatMap, leavesAll_eq_flatMap, List.flatMap_assoc, List.flatMap_assoc]
  exact h

end Piece

theorem Param.leaves_eq (a : Param) : a.leaves = a.piece.leaves := by
  cases a <;> simp [Param.leaves, piece, Piece.leaves]

theorem Param.leavesAll_eq (ps : List Param) : leavesAll ps = ps.map fun p => p.piece.leaves := by
  induction ps with
  | nil => rfl
  | cons p ps ih => rw [leavesAll, ih, p.leaves_eq, List.map_cons]

/-! ## Induction -/

-- one case for each constructor of fragments and parameters
mutual

/-- What holds of a fragment if it holds of those within holds of all. -/
theorem Expression.forall_of_params {P : Expression → Prop}
    (step : ∀ e, (∀ f, .expression f ∈ e.params → P f) → P e) : ∀ e : Expression, P e
  | ⟨template, slots, params⟩ =>
    step ⟨template, slots, params⟩ (Param.forall_of_params step params)

theorem Param.forall_of_params {P : Expression → Prop}
    (step : ∀ e, (∀ f, .expression f ∈ e.params → P f) → P e) :
    ∀ ps : List Param, ∀ f, .expression f ∈ ps → P f
  | [] => fun _ h => by cases h
  | .value v :: ps => fun f h => Param.forall_of_params step ps f (by simpa using h)
  | .expression e :: ps => fun f h => by
    rcases List.mem_cons.mp h with h | h
    · cases h
      exact Expression.forall_of_params step e
    · exact Param.forall_of_params step ps f h

end

namespace Expression

/-! ## Fragments of pieces -/

theorem ext {e f : Expression} (ht : e.template = f.template) (hs : e.slots = f.slots)
    (hp : e.params = f.params) : e = f := by
  cases e
  cases f
  cases ht
  cases hs
  cases hp
  rfl

theorem toList_template_ofPieces (ps : List Piece) :
    (ofPieces ps).template.toList = (ps.flatMap Piece.symbols).map Symbol.toChar := by
  change (String.join (ps.map Piece.template)).toList = _
  rw [String.toList_join, List.flatMap_map, List.map_flatMap]
  simp only [Piece.map_toChar_symbols]

theorem symbols_ofPieces (ps : List Piece) : (ofPieces ps).symbols = ps.flatMap Piece.symbols := by
  have hs : (ofPieces ps).slots = holesFrom 0 (ps.flatMap Piece.symbols) := Piece.slotsFrom_eq 0 ps
  rw [symbols, toList_template_ofPieces, hs, Template.symbolsAt_holesFrom]

/-- **The fragment of some pieces has these pieces**, in normal form. -/
theorem pieces_ofPieces (ps : List Piece) : (ofPieces ps).pieces = Piece.normal ps := by
  rw [pieces, symbols_ofPieces]
  exact (Piece.fill_symbols ps []).trans (by simp [Piece.cons])

/-- A list of pieces makes the fragment of its normal form. -/
theorem ofPieces_normal (ps : List Piece) : ofPieces (Piece.normal ps) = ofPieces ps := by
  refine ext ?_ ?_ (Piece.params_normal ps)
  · rw [← String.toList_inj, toList_template_ofPieces, toList_template_ofPieces,
      Piece.flatMap_symbols_normal]
  · change Piece.slotsFrom 0 _ = Piece.slotsFrom 0 _
    rw [Piece.slotsFrom_eq, Piece.slotsFrom_eq, Piece.flatMap_symbols_normal]

/-- **Two lists of pieces make one fragment iff they have one normal form.** -/
theorem ofPieces_eq_iff {ps qs : List Piece} :
    ofPieces ps = ofPieces qs ↔ Piece.normal ps = Piece.normal qs := by
  constructor
  · intro h
    rw [← pieces_ofPieces, h, pieces_ofPieces]
  · intro h
    rw [← ofPieces_normal, h, ofPieces_normal]

/-- Pieces become a fragment part by part. -/
theorem ofPieces_append {ps ps' qs qs' : List Piece} (hp : ofPieces ps = ofPieces ps')
    (hq : ofPieces qs = ofPieces qs') : ofPieces (ps ++ qs) = ofPieces (ps' ++ qs') := by
  rw [ofPieces_eq_iff] at hp hq ⊢
  rw [← Piece.normal_normal_append, hp, hq, Piece.normal_normal_append]

theorem ofPieces_cons {ps qs : List Piece} (p : Piece) (h : ofPieces ps = ofPieces qs) :
    ofPieces (p :: ps) = ofPieces (p :: qs) := @ofPieces_append [p] [p] ps qs rfl h

/-- Text may be joined before it is written. -/
theorem ofPieces_text_text (s t : String) (ps : List Piece) :
    ofPieces (.text s :: .text t :: ps) = ofPieces (.text (s ++ t) :: ps) :=
  ofPieces_eq_iff.mpr (Piece.cons_text_cons_text s t (Piece.normal ps))

theorem raw_eq (s : String) : raw s = ofPieces [.text s] := by
  simp [raw, ofPieces, Piece.template, Piece.slotsFrom, Piece.params]

theorem wrap_eq (e : Expression) (before after : String) :
    e.wrap before after = ofPieces [.text before, .nested e, .text after] := by
  simp [wrap, ofPieces, Piece.template, Piece.slotsFrom, Piece.params, String.join_cons,
    String.append_assoc]

/-- Fragments are joined as parameters with the separator between them. -/
theorem join_eq (parts : List Expression) (separator : String) :
    join parts separator =
      ofPieces (((parts.map .expression).map Param.piece).intersperse (.text separator)) := by
  rw [List.map_map]
  rfl

/-- A fragment without text has no pieces, and no other fragment. -/
theorem pieces_eq_nil_iff {e : Expression} : e.pieces = [] ↔ e.isEmpty = true := by
  have hfill : ∀ (xs : List Symbol) (read : List Char) (args : List Param),
      Piece.fill read xs (args.map fun p => [p.piece]) = [] ↔ read = [] ∧ xs = [] := by
    intro xs
    induction xs with
    | nil =>
      intro read args
      cases read <;> simp [Piece.fill, Piece.flush]
    | cons x xs ih =>
      intro read args
      cases x with
      | char c => simp [Piece.fill, ih]
      | hole =>
        cases args with
        | nil =>
          have h := ih ('?' :: read) []
          simp only [List.map_nil] at h
          simp [Piece.fill, h]
        | cons a args => cases read <;> simp [Piece.fill, Piece.flush]
  have hsymbols : e.symbols = [] ↔ e.template.toList = [] := by
    unfold symbols
    cases e.template.toList with
    | nil => simp [symbolsAt]
    | cons c cs =>
      cases e.slots with
      | nil => simp [symbolsAt]
      | cons i slots =>
        rw [symbolsAt]
        split <;> simp
  rw [pieces, hfill, hsymbols, isEmpty, String.isEmpty_iff, ← String.toList_eq_nil_iff]
  simp

/-! ## Leaves and values -/

/-- **The leaves of a fragment are those of its pieces.** -/
theorem leaves_eq (e : Expression) : e.leaves = Piece.leavesAll e.pieces := by
  obtain ⟨template, slots, params⟩ := e
  rw [leaves, Param.leavesAll_eq, Piece.leavesAll_eq_flatMap, pieces,
    Piece.flatMap_fill (fun _ => rfl), List.map_map]
  simp only [symbols, Function.comp_def, List.flatMap_singleton]

theorem text_of_isEmpty {e : Expression} (h : e.isEmpty = true) : e.text = "" := by
  rw [text, leaves_eq, pieces_eq_nil_iff.mpr h]
  rfl

theorem values_eq (e : Expression) : e.values = Piece.values (Piece.leavesAll e.pieces) := by
  rw [values, leaves_eq]

/-- A fragment of pieces has the values of the pieces. -/
theorem values_ofPieces (ps : List Piece) :
    (ofPieces ps).values = Piece.values (Piece.leavesAll ps) := by
  have h := Piece.flatMap_leavesAll_normal (fun p => Piece.values [p]) rfl (fun _ _ => rfl) ps
  rw [values_eq, pieces_ofPieces, Piece.values_eq_flatMap, h, ← Piece.values_eq_flatMap]

theorem values_pieces (ps : List Piece) : Piece.values (ofPieces ps).pieces = Piece.values ps := by
  rw [pieces_ofPieces, Piece.values_normal]

theorem values_wrap (e : Expression) (before after : String) :
    (e.wrap before after).values = e.values := by
  rw [wrap_eq, values_ofPieces]
  simp [Piece.leavesAll, Piece.leaves, Piece.values_append, Piece.values, values]

theorem values_join (parts : List Expression) (separator : String) :
    (join parts separator).values = parts.flatMap values := by
  rw [join, values_ofPieces]
  induction parts with
  | nil => rfl
  | cons e rest ih =>
    cases rest with
    | nil => simp [Piece.leavesAll, Piece.leaves, values]
    | cons f rest =>
      simp only [List.map_cons, List.intersperse_cons_cons, Piece.leavesAll, Piece.leaves,
        Piece.values_append, Piece.values, List.nil_append, List.flatMap_cons] at ih ⊢
      rw [ih]
      simp [values]

end Expression
end SqlWeave
