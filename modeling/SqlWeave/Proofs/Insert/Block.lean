import SqlWeave.Proofs.Insert.Row

/-!
# Blocks of Firebird

A block inserts a batch of rows in one statement. Its body is the INSERT of each row with a
reference for every bound value, and its header declares what the references stand for. The two are
written apart: the header from a list of values, the body from the cells, each deciding for itself
which values are bound. `referTo` and `referents` say what both amount to: the body is the inserts
with their bound places numbered, and the header declares just these numbers, with the values that
stood there.

Results:
* `referents_eq`: places are numbered from left to right, each once.
* `written_reference`, `written_rowStatement`: what a cell and a row become in a block.
* `Block.refines_of_toExpression`: a block of rows with cells is the inserts of its rows.
* **`block_refines_inserts`**: a block is the inserts of its rows with numbered places, and so is
  every block of a bulk insert.
-/

namespace SqlWeave

open Number

namespace Block

/-- Pieces with a reference for each bound value, numbered from `n` on. -/
def referTo (n : Nat) : List Piece → List Piece
  | [] => []
  | .bound _ :: rest => .text (Style.colon.mark n) :: referTo (n + 1) rest
  | p :: rest => p :: referTo n rest

/-- The numbers of the references and the values that they stand for. -/
def referents (n : Nat) : List Piece → List (Nat × Value)
  | [] => []
  | .bound v :: rest => (n, v) :: referents (n + 1) rest
  | _ :: rest => referents n rest

/-- The declaration of a number: its type and the value bound to it. -/
def declaration (d : Nat × Value) : List Piece :=
  [.text ("p" ++ natText d.1 ++ " " ++ d.2.firebirdType ++ " = "), .bound d.2]

/-- The declarations of a block, if there are any. -/
def header (ds : List (Nat × Value)) : List Piece :=
  if ds.isEmpty then []
  else .text "(" :: (((ds.map declaration).intersperse [.text ", "]).flatten ++ [.text ") "])

/-- The statements of a block with their values in place. -/
def body (inserts : List Expression) : List Piece :=
  inserts.flatMap fun e => e.pieces ++ [.text "; "]

/-! ## Numbered places -/

theorem referTo_append (ps qs : List Piece) : ∀ n : Nat,
    referTo n (ps ++ qs) = referTo n ps ++ referTo (n + (Piece.values ps).length) qs := by
  induction ps with
  | nil => exact fun _ => rfl
  | cons p ps ih =>
    intro n
    cases p with
    | bound v =>
      rw [List.cons_append, referTo, referTo, ih, Piece.values, List.length_cons,
        Nat.add_right_comm, Nat.add_assoc, List.cons_append]
    | text s => exact congrArg _ (ih n)
    | nested inner => exact congrArg _ (ih n)

theorem referTo_of_values_nil {ps : List Piece} (h : Piece.values ps = []) (n : Nat) :
    referTo n ps = ps := by
  induction ps with
  | nil => rfl
  | cons p ps ih =>
    cases p with
    | bound v => cases h
    | text s => exact congrArg _ (ih h)
    | nested inner => exact congrArg _ (ih h)

theorem values_referTo (ps : List Piece) : ∀ n : Nat, Piece.values (referTo n ps) = [] := by
  induction ps with
  | nil => exact fun _ => rfl
  | cons p ps ih => intro n; cases p <;> exact ih _

/-- **The places are numbered from left to right, each once.** -/
theorem referents_eq (ps : List Piece) : ∀ n : Nat,
    referents n ps = (List.range' n (Piece.values ps).length).zip (Piece.values ps) := by
  induction ps with
  | nil => exact fun _ => rfl
  | cons p ps ih =>
    intro n
    cases p with
    | bound v =>
      rw [referents, ih, Piece.values, List.length_cons, List.range'_succ, List.zip_cons_cons]
    | text s => exact ih n
    | nested inner => exact ih n

/-- Text is joined alike with numbers or with values between. -/
theorem ofPieces_referTo_cons (n : Nat) (p : Piece) (ps : List Piece) :
    Expression.ofPieces (referTo n (Piece.cons p ps)) = .ofPieces (referTo n (p :: ps)) := by
  cases p with
  | bound v => rfl
  | nested inner => rfl
  | text s =>
    by_cases hs : s = ""
    · subst hs
      exact (Expression.ofPieces_eq_iff.mpr rfl).symm
    · rcases ps with - | ⟨(t | v | inner), ps⟩
      · simp [Piece.cons, hs]
      · have hc : Piece.cons (.text s) (.text t :: ps) = .text (s ++ t) :: ps := by
          simp [Piece.cons, hs]
        rw [hc]
        exact (Expression.ofPieces_text_text s t _).symm
      · simp [Piece.cons, hs]
      · simp [Piece.cons, hs]

theorem ofPieces_referTo_pieces (ps : List Piece) : ∀ n : Nat,
    Expression.ofPieces (referTo n (Expression.ofPieces ps).pieces) = .ofPieces (referTo n ps) := by
  rw [Expression.pieces_ofPieces]
  induction ps with
  | nil => exact fun _ => rfl
  | cons p ps ih =>
    intro n
    rw [Piece.normal_cons, ofPieces_referTo_cons]
    cases p with
    | bound v => exact Expression.ofPieces_cons _ (ih (n + 1))
    | text s => exact Expression.ofPieces_cons _ (ih n)
    | nested inner => exact Expression.ofPieces_cons _ (ih n)

/-! ## Cells -/

/-- Items with references, numbered from one item to the next. -/
def referToAll (n : Nat) : List (List Piece) → List (List Piece)
  | [] => []
  | ps :: rest => referTo n ps :: referToAll (n + (Piece.values ps).length) rest

theorem referTo_flatten (separator : String) : ∀ (items : List (List Piece)) (n : Nat),
    referTo n (items.intersperse [.text separator]).flatten =
      ((referToAll n items).intersperse [.text separator]).flatten
  | [], _ => rfl
  | [item], n => by
    rw [referToAll, referToAll, List.intersperse_singleton, List.intersperse_singleton,
      List.flatten_singleton, List.flatten_singleton]
  | item :: item' :: items, n => by
    have ih := referTo_flatten separator (item' :: items) (n + (Piece.values item).length)
    rw [List.intersperse_cons_cons, List.flatten_cons, List.flatten_cons, referTo_append,
      referToAll]
    rw [referToAll] at ih ⊢
    rw [List.intersperse_cons_cons, List.flatten_cons, List.flatten_cons]
    refine congrArg _ ?_
    exact congrArg (Piece.text separator :: ·) ih

variable {b : Binding} (hb : ∀ v : Value, b.intercept (b.intercept v) = b.intercept v)

theorem values_of_leaves_nil {ls ps : List Piece} (hn : Piece.values ls = [])
    (h : Phrase.written b (ls.flatMap Phrase.ofLeaf) = .ok ps) : Piece.values ps = [] := by
  induction ls generalizing ps with
  | nil => cases h; rfl
  | cons l ls ih =>
    rw [List.flatMap_cons, Phrase.written_append_eq_ok_iff] at h
    obtain ⟨xs, ys, hx, hy, rfl⟩ := h
    cases l with
    | bound v => cases hn
    | text s =>
      cases hx
      rw [Piece.values_append, ih hn hy]
      rfl
    | nested inner =>
      cases hx
      exact ih hn hy

/-- What stands for a cell in a block: a fragment as it is, a bound value as its number. -/
def reference (b : Binding) (n : Nat) (c : Cell) : Phrase :=
  match c.value with
  | .expression e => Phrase.ofExpression e
  | .value v =>
    if b.binds (b.intercept v) then [.text (":p" ++ natText n)] else [.value (b.intercept v)]

theorem boundValues_append (b : Binding) (as bs : List Cell) :
    boundValues b (as ++ bs) = boundValues b as ++ boundValues b bs := List.filterMap_append

theorem boundValues_value (b : Binding) (name : String) (v : Value) :
    boundValues b [⟨name, .value v⟩] =
      if b.binds (b.intercept v) then [b.intercept v] else [] := by
  unfold boundValues
  rw [List.filterMap_cons, List.filterMap_nil]
  by_cases hp : b.binds (b.intercept v) = true
  · simp [Cell.plain?, hp]
  · simp [Cell.plain?, hp]

/-- A cell with a bound value takes the next number. -/
theorem references_cons (b : Binding) (n : Nat) (c : Cell) (rest : List Cell) :
    references b n (c :: rest) =
      reference b n c :: references b (n + (boundValues b [c]).length) rest := by
  obtain ⟨name, value⟩ := c
  cases value with
  | expression e => rfl
  | value v =>
    rw [boundValues_value, references, reference]
    simp only
    split <;> rfl

include hb in
/-- **The reference to a cell is the item of the cell with numbered places**, and the values of the
item are those that the cell declares. -/
theorem written_reference {c : Cell} {n : Nat} {ps' : List Piece}
    (hc : holdsBoundFragment c = false) (h : (reference b n c).written b = .ok ps') :
    ∃ ps, b.item c = .ok ps ∧ ps' = referTo n ps ∧ boundValues b [c] = Piece.values ps := by
  obtain ⟨name, value⟩ := c
  cases value with
  | expression e =>
    have hn : Piece.values ps' = [] := by
      refine values_of_leaves_nil ?_ h
      have he : (!e.values.isEmpty) = false := hc
      simpa [Expression.values] using he
    exact ⟨ps', h, (referTo_of_values_nil hn n).symm, hn.symm⟩
  | value v =>
    have hi : b.item ⟨name, .value v⟩ = (b.place (.value v)).map ([·]) :=
      Phrase.written_singleton _
    rw [boundValues_value]
    unfold reference at h
    simp only at h
    by_cases hp : b.binds (b.intercept v) = true
    · -- the cell is bound, so the block refers to it
      rw [if_pos hp] at h ⊢
      cases h
      refine ⟨[.bound (b.intercept v)], ?_, rfl, rfl⟩
      rw [hi, b.place_value, if_pos hp]
      rfl
    · -- the cell stands in place, and what was intercepted once is written as it is
      rw [if_neg hp] at h ⊢
      have hit : b.item ⟨name, .value v⟩ = .ok ps' := by
        rw [hi, b.place_value, ← hb v, ← b.place_value, ← Phrase.written_singleton]
        exact h
      have hn : Piece.values ps' = [] := by
        have hl := b.length_values_item hit
        rw [Binding.weightOfParam, if_neg hp] at hl
        exact List.length_eq_zero_iff.mp hl
      exact ⟨ps', hit, (referTo_of_values_nil hn n).symm, hn.symm⟩

include hb in
theorem written_references : ∀ {cells : List Cell} {n : Nat} {items' : List (List Piece)},
    (∀ c ∈ cells, holdsBoundFragment c = false) →
    (references b n cells).mapM (Phrase.written b) = .ok items' →
    ∃ items, cells.mapM b.item = .ok items ∧ items' = referToAll n items ∧
      boundValues b cells = items.flatMap Piece.values
  | [], n, items', _, h => by
    cases h
    exact ⟨[], rfl, rfl, rfl⟩
  | c :: rest, n, items', hc, h => by
    rw [references_cons, mapM_eq_ok_iff] at h
    cases h with
    | @cons _ ps' _ items' hps hi =>
      obtain ⟨ps, hit, rfl, hv⟩ := written_reference hb (hc c List.mem_cons_self) hps
      obtain ⟨items, hm, rfl, hvs⟩ := written_references
        (fun d hd => hc d (List.mem_cons_of_mem _ hd)) (mapM_eq_ok_iff.mpr hi)
      refine ⟨ps :: items, ?_, ?_, ?_⟩
      · exact mapM_eq_ok_iff.mpr (.cons hit (mapM_eq_ok_iff.mp hm))
      · rw [referToAll, hv]
      · rw [List.flatMap_cons, ← hv, ← hvs]
        exact boundValues_append b [c] rest

/-! ## Rows -/

/-- The INSERT of a row as it stands in a block. -/
def rowPieces (q : Query) (names : List String) (n : Nat) (items : List (List Piece)) :
    List Piece :=
  (q.insertInto ++ Phrase.nameList q.dialect names).texts ++ .text " VALUES (" ::
    (((referToAll n items).intersperse [.text ", "]).flatten ++ [.text "); "])

/-- It is the INSERT of the row with numbered places. -/
theorem ofPieces_rowPieces (q : Query) (names : List String) (n : Nat) (items : List (List Piece)) :
    Expression.ofPieces (rowPieces q names n items) =
      .ofPieces (referTo n ((Expression.ofPieces
        ((q.insertHead names).texts ++ tuplePieces items)).pieces ++ [.text "; "])) := by
  have hh : (q.insertHead names).texts =
      (q.insertInto ++ Phrase.nameList q.dialect names).texts ++ [.text " VALUES "] :=
    List.filterMap_append
  have hv : Piece.values (q.insertHead names).texts = [] := values_texts _
  have ht : referTo n (tuplePieces items) =
      .text "(" :: (((referToAll n items).intersperse [.text ", "]).flatten ++ [.text ")"]) := by
    unfold tuplePieces
    rw [referTo, referTo_append, referTo_flatten]
    · rfl
    · exact fun v h => by cases h
  generalize hf : ((referToAll n items).intersperse [.text ", "]).flatten = flat at ht
  have hopen : Expression.ofPieces (.text " VALUES (" :: flat) =
      .ofPieces ([.text " VALUES "] ++ .text "(" :: flat) :=
    (Expression.ofPieces_text_text " VALUES " "(" flat).symm
  have hclose : Expression.ofPieces [.text "); "] = .ofPieces ([.text ")"] ++ [.text "; "]) :=
    (Expression.ofPieces_text_text ")" "; " []).symm
  calc Expression.ofPieces (rowPieces q names n items)
      = .ofPieces ((q.insertInto ++ Phrase.nameList q.dialect names).texts ++
          ((.text " VALUES (" :: flat) ++ [.text "); "])) := by rw [rowPieces, hf]; rfl
    _ = .ofPieces ((q.insertInto ++ Phrase.nameList q.dialect names).texts ++
          (([.text " VALUES "] ++ .text "(" :: flat) ++ ([.text ")"] ++ [.text "; "]))) :=
        Expression.ofPieces_append rfl (Expression.ofPieces_append hopen hclose)
    _ = .ofPieces (referTo n ((q.insertHead names).texts ++ tuplePieces items) ++
          [.text "; "]) := by
        rw [referTo_append, referTo_of_values_nil hv, hv, hh]
        simp only [List.length_nil, Nat.add_zero, ht, List.append_assoc, List.cons_append,
          List.nil_append]
    _ = .ofPieces (referTo n (Expression.ofPieces
          ((q.insertHead names).texts ++ tuplePieces items)).pieces ++ [.text "; "]) :=
        Expression.ofPieces_append (ofPieces_referTo_pieces _ n).symm rfl
    _ = _ := by
        rw [referTo_append]
        rfl

theorem checkInsert_firebird {q : Query} (hd : q.dialect = .firebird) : q.checkInsert = [] := by
  unfold Query.checkInsert
  rw [hd]

/-- What was intercepted once stays as it is. -/
theorem intercept_binding (q : Query) (v : Value) :
    q.binding.intercept (q.binding.intercept v) = q.binding.intercept v :=
  q.config.intercept_intercept v

/-- The statement of a row in a block, its bound values numbered from `n` on. -/
def rowStatement (q : Query) (n : Nat) (r : Row) : Phrase :=
  q.insertInto ++ Phrase.nameList q.dialect r.names ++
    .text " VALUES (" :: (Phrase.join ", " (references q.binding n r.cells) ++ [.text "); "])

theorem statements_cons (q : Query) (n : Nat) (r : Row) (rest : List Row) :
    statements q n (r :: rest) =
      rowStatement q n r ++ statements q (n + (boundValues q.binding r.cells).length) rest := by
  simp [statements, rowStatement]

/-- The statement of a row in a block is the INSERT of the row with numbered places. -/
theorem written_rowStatement {q : Query} (hd : q.dialect = .firebird) {r : Row}
    (hc : r.cells ≠ []) (hf : ∀ c ∈ r.cells, holdsBoundFragment c = false) {n : Nat}
    {xs : List Piece} (h : (rowStatement q n r).written q.binding = .ok xs) :
    ∃ e, q.insert r = .ok e ∧
      Expression.ofPieces xs = .ofPieces (referTo n (e.pieces ++ [.text "; "])) ∧
      Piece.values e.pieces = boundValues q.binding r.cells ∧
      e.values = boundValues q.binding r.cells := by
  have ht : ∀ part ∈ q.insertInto ++ Phrase.nameList q.dialect r.names, ∃ s, part = .text s :=
    fun part hm => q.text_of_mem_insertHead r.names part (List.mem_append_left _ hm)
  unfold rowStatement at h
  rw [Phrase.written_append_eq_ok_iff] at h
  obtain ⟨head, ys, hh, hy, rfl⟩ := h
  rw [Phrase.written_of_text ht] at hh
  cases hh
  rw [Phrase.written_text, map_eq_ok_iff] at hy
  obtain ⟨zs, hz, rfl⟩ := hy
  rw [Phrase.written_append_eq_ok_iff] at hz
  obtain ⟨flat, us, hflat, hu, rfl⟩ := hz
  cases hu
  rw [Phrase.written_join, map_eq_ok_iff] at hflat
  obtain ⟨items', hm, rfl⟩ := hflat
  obtain ⟨items, hi, rfl, hv⟩ := written_references (intercept_binding q) hf hm
  refine ⟨.ofPieces ((q.insertHead r.names).texts ++ tuplePieces items), ?_,
    ofPieces_rowPieces q r.names n items, ?_, ?_⟩
  · rw [q.insert_eq (checkInsert_firebird hd) hc, hi]
    rfl
  · rw [Expression.values_pieces, Piece.values_append, values_texts, values_tuplePieces, hv]
    rfl
  · rw [q.values_insert hc hi, hv]

/-- **The statements of a block are the inserts of its rows with numbered places**, and the values
of the inserts are those that are declared. -/
theorem written_statements {q : Query} (hd : q.dialect = .firebird) :
    ∀ {rows : List Row} {n : Nat} {ss : List Piece}, (∀ r ∈ rows, r.cells ≠ []) →
      (∀ c ∈ rows.flatMap Row.cells, holdsBoundFragment c = false) →
      (statements q n rows).written q.binding = .ok ss →
      ∃ inserts, rows.mapM q.insert = .ok inserts ∧
        Expression.ofPieces ss = .ofPieces (referTo n (body inserts)) ∧
        Piece.values (body inserts) = boundValues q.binding (rows.flatMap Row.cells) ∧
        inserts.flatMap Expression.values = boundValues q.binding (rows.flatMap Row.cells)
  | [], n, ss, _, _, h => by
    cases h
    exact ⟨[], rfl, rfl, rfl, rfl⟩
  | r :: rest, n, ss, hc, hf, h => by
    have hfr : ∀ c ∈ r.cells, holdsBoundFragment c = false := fun c hm =>
      hf c (List.mem_flatMap.mpr ⟨r, List.mem_cons_self, hm⟩)
    have hfs : ∀ c ∈ rest.flatMap Row.cells, holdsBoundFragment c = false := fun c hm =>
      hf c (by rw [List.flatMap_cons]; exact List.mem_append_right _ hm)
    rw [statements_cons, Phrase.written_append_eq_ok_iff] at h
    obtain ⟨xs, zs, hx, hz, rfl⟩ := h
    obtain ⟨e, he, hrow, hp, hev⟩ := written_rowStatement hd (hc r List.mem_cons_self) hfr hx
    obtain ⟨inserts, hins, hbody, hplaces, hvals⟩ :=
      written_statements hd (fun s hs => hc s (List.mem_cons_of_mem _ hs)) hfs hz
    have hb : body (e :: inserts) = e.pieces ++ [.text "; "] ++ body inserts := rfl
    have hl : Piece.values (e.pieces ++ [.text "; "]) = boundValues q.binding r.cells := by
      rw [Piece.values_append, hp]
      exact List.append_nil _
    refine ⟨e :: inserts, ?_, ?_, ?_, ?_⟩
    · exact mapM_eq_ok_iff.mpr (.cons he (mapM_eq_ok_iff.mp hins))
    · rw [hb, referTo_append, hl]
      exact Expression.ofPieces_append hrow hbody
    · rw [hb, Piece.values_append, hl, hplaces, List.flatMap_cons, boundValues_append]
    · rw [List.flatMap_cons, List.flatMap_cons, boundValues_append, hev, hvals]

/-! ## The header -/

theorem written_declarations {q : Query} : ∀ {vs : List Value} {n : Nat},
    (∀ v ∈ vs, q.binding.intercept v = v) →
    (declarations n vs).mapM (Phrase.written q.binding) =
      .ok (((List.range' n vs.length).zip vs).map declaration)
  | [], _, _ => rfl
  | v :: vs, n, h => by
    have hv : Phrase.written q.binding
        [.text ("p" ++ natText n ++ " " ++ v.firebirdType ++ " = "), .bound v] =
        .ok (declaration (n, v)) := by
      rw [Phrase.written_text, Phrase.written_singleton]
      change ((Except.ok (Piece.bound (q.binding.intercept v))).map _).map _ = _
      rw [h v List.mem_cons_self]
      rfl
    have ih := written_declarations (q := q) (n := n + 1) fun w hw =>
      h w (List.mem_cons_of_mem _ hw)
    rw [declarations, List.mapM_cons, hv, ih, List.length_cons, List.range'_succ,
      List.zip_cons_cons, List.map_cons]
    rfl

theorem intercept_of_mem_boundValues {q : Query} {cells : List Cell} :
    ∀ v ∈ boundValues q.binding cells, q.binding.intercept v = v := by
  intro v hv
  obtain ⟨c, -, hc⟩ := List.mem_filterMap.mp hv
  obtain ⟨w, -, hw⟩ := Option.bind_eq_some_iff.mp hc
  simp only [Option.ite_none_right_eq_some, Option.some.injEq] at hw
  rw [← hw.2]
  exact intercept_binding q w

theorem values_header (ds : List (Nat × Value)) : Piece.values (header ds) = ds.map Prod.snd := by
  unfold header
  cases ds with
  | nil => rfl
  | cons d ds =>
    have hv : ∀ ds : List (Nat × Value),
        (ds.map declaration).flatMap Piece.values = ds.map Prod.snd := fun ds => by
      induction ds with
      | nil => rfl
      | cons d ds ih =>
        rw [List.map_cons, List.flatMap_cons, ih]
        rfl
    rw [if_neg (by simp)]
    change Piece.values (_ ++ [_]) = _
    rw [Piece.values_append, values_flatten_intersperse, hv]
    exact List.append_nil _

/-- The header of a block declares the values that it is given, numbered from one on. -/
theorem written_header {q : Query} {vs : List Value}
    (h : ∀ v ∈ vs, q.binding.intercept v = v) :
    Phrase.written q.binding (Phrase.onlyIf (!(declarations 1 vs).isEmpty)
        (.text "(" :: Phrase.join ", " (declarations 1 vs) ++ [.text ") "])) =
      .ok (header ((List.range' 1 vs.length).zip vs)) := by
  cases vs with
  | nil => rfl
  | cons v vs =>
    have hj : Phrase.written q.binding (Phrase.join ", " (declarations 1 (v :: vs))) = .ok
        ((((List.range' 1 (v :: vs).length).zip (v :: vs)).map declaration).intersperse
          [.text ", "]).flatten := by
      rw [Phrase.written_join, written_declarations h]
      rfl
    have hn : (declarations 1 (v :: vs)).isEmpty = false := rfl
    rw [hn, Bool.not_false, Phrase.onlyIf, if_pos rfl, List.cons_append, Phrase.written_text,
      Phrase.written_append, hj]
    rfl

/-- A block is written if no cell holds a fragment with values, and its statements are written. -/
theorem written_blockBatch {q : Query} {rows : List Row} {ps : List Piece}
    (h : (q.blockBatch rows).written q.binding = .ok ps) :
    (∀ c ∈ rows.flatMap Row.cells, holdsBoundFragment c = false) ∧
      ∃ ss, (statements q 1 rows).written q.binding = .ok ss ∧
        ps = .text "EXECUTE BLOCK " ::
          header ((List.range' 1 (boundValues q.binding (rows.flatMap Row.cells)).length).zip
            (boundValues q.binding (rows.flatMap Row.cells))) ++
          .text "AS BEGIN " :: ss ++ [.text "END"] := by
  have hp : q.blockBatch rows =
      Phrase.failIf ((rows.flatMap Row.cells).any holdsBoundFragment)
        (.notSupported .boundValuesInBlock q.dialect.name) ++
      (.text "EXECUTE BLOCK " ::
        (Phrase.onlyIf (!(declarations 1 (boundValues q.binding (rows.flatMap Row.cells))).isEmpty)
          (.text "(" ::
            Phrase.join ", " (declarations 1 (boundValues q.binding (rows.flatMap Row.cells))) ++
            [.text ") "]) ++
        (.text "AS BEGIN " :: (statements q 1 rows ++ [.text "END"])))) := by
    simp [Query.blockBatch]
  rw [hp, Phrase.written_append_eq_ok_iff] at h
  obtain ⟨xs, ys, hx, hy, rfl⟩ := h
  have hf := Phrase.eq_false_of_written_failIf hx
  rw [hf] at hx
  cases hx
  rw [Phrase.written_text, map_eq_ok_iff] at hy
  obtain ⟨zs, hz, rfl⟩ := hy
  rw [Phrase.written_append_eq_ok_iff] at hz
  obtain ⟨hs, bs, hh, hb, rfl⟩ := hz
  rw [written_header intercept_of_mem_boundValues] at hh
  cases hh
  rw [Phrase.written_text, map_eq_ok_iff] at hb
  obtain ⟨us, hu, rfl⟩ := hb
  rw [Phrase.written_append_eq_ok_iff] at hu
  obtain ⟨ss, ts, hss, ht, rfl⟩ := hu
  cases ht
  refine ⟨?_, ss, hss, ?_⟩
  · intro c hc
    simpa using List.any_eq_false.mp hf c hc
  · simp

/-- A block binds the values that it declares. -/
theorem values_blockBatch {q : Query} (hd : q.dialect = .firebird) {rows : List Row}
    (hc : ∀ r ∈ rows, r.cells ≠ []) {ps : List Piece}
    (h : (q.blockBatch rows).written q.binding = .ok ps) :
    (Expression.ofPieces ps).values = boundValues q.binding (rows.flatMap Row.cells) := by
  rw [Phrase.values_of_written h]
  obtain ⟨hf, ss, hss, rfl⟩ := written_blockBatch h
  obtain ⟨inserts, -, hbody, -, -⟩ := written_statements hd hc hf hss
  have hs : Piece.values ss = [] := by
    rw [← Expression.values_pieces, hbody, Expression.values_pieces, values_referTo]
  rw [Piece.values_append, Piece.values_append, Piece.values_text, Piece.values_text,
    values_header, hs, List.map_snd_zip (by simp)]
  simp [Piece.values]

/-- The statement is the inserts of the rows with numbered places. Every row has an INSERT of its
own; the statement is a header, and these inserts with the places of their values numbered from left
to right. The header declares the numbers that the body refers to, from one on, each once and with
the value that stood at its place, and the statement binds the values of the inserts. -/
def Refines (q : Query) (rows : List Row) (e : Expression) : Prop :=
  ∃ inserts, rows.mapM q.insert = .ok inserts ∧
    e = .ofPieces (.text "EXECUTE BLOCK " :: header (referents 1 (body inserts)) ++
      .text "AS BEGIN " :: referTo 1 (body inserts) ++ [.text "END"]) ∧
    referents 1 (body inserts) = (List.range' 1 e.values.length).zip e.values ∧
    e.values = inserts.flatMap Expression.values

theorem refines_of_toExpression {q : Query} (hd : q.dialect = .firebird) {rows : List Row}
    (hc : ∀ r ∈ rows, r.cells ≠ []) {e : Expression}
    (h : (q.blockBatch rows).toExpression q.binding = .ok e) : Refines q rows e := by
  rw [Phrase.toExpression_eq_ok_iff] at h
  obtain ⟨ps, hps, rfl⟩ := h
  have hv := values_blockBatch hd hc hps
  obtain ⟨hf, ss, hss, rfl⟩ := written_blockBatch hps
  obtain ⟨inserts, hins, hbody, hplaces, hvals⟩ := written_statements hd hc hf hss
  have hr := referents_eq (body inserts) 1
  rw [hplaces] at hr
  refine ⟨inserts, hins, ?_, ?_, ?_⟩
  · rw [hr]
    refine Expression.ofPieces_append (Expression.ofPieces_append rfl ?_) rfl
    exact Expression.ofPieces_append (rfl : Expression.ofPieces [.text "AS BEGIN "] = _) hbody
  · rw [hr, hv]
  · rw [hv, hvals]

end Block

/-- **A block of Firebird is the inserts of its rows with numbered places.** The rows of a block
have cells: this is checked of all rows before they are cut into batches, so it holds of every batch
of a bulk insert that is not refused. -/
theorem block_refines_inserts {q : Query} (hd : q.dialect = .firebird) :
    (∀ rows e, (∀ r ∈ rows, r.cells ≠ []) → (q.blockBatch rows).toExpression q.binding = .ok e →
      Block.Refines q rows e) ∧
    ∀ rows, q.checkBulk rows = .ok () → ∀ batch ∈ q.batches rows, ∀ e,
      (q.blockBatch batch).toExpression q.binding = .ok e → Block.Refines q batch e := by
  refine ⟨fun rows e hc h => Block.refines_of_toExpression hd hc h,
    fun rows hcheck batch hbatch e h => Block.refines_of_toExpression hd (fun r hr => ?_) h⟩
  obtain ⟨-, hc, -⟩ := Query.cells_of_checkBulk hcheck
  have hmem : r ∈ (q.batches rows).flatten := List.mem_flatten.mpr ⟨batch, hbatch, hr⟩
  rw [Query.batches, flatten_batches] at hmem
  exact hc r hmem

/-- Two notes. -/
def noteRows : List Row :=
  [.ofPairs [("id", .int 1), ("note", .text "a")], .ofPairs [("id", .int 2), ("note", .text "bc")]]

/-- The table of notes. -/
def notes : Query := .new ⟨"notes", none⟩ (.new .firebird)

/-- The block that inserts the notes. -/
def noteBlock : Expression :=
  .ofPieces [.text "EXECUTE BLOCK (p1 VARCHAR(1) = ", .bound (.text "a"),
    .text ", p2 VARCHAR(2) = ", .bound (.text "bc"), .text ") AS BEGIN ",
    .text "INSERT INTO \"notes\" (\"id\", \"note\") VALUES (1, :p1); ",
    .text "INSERT INTO \"notes\" (\"id\", \"note\") VALUES (2, :p2); END"]

theorem noteBlock_refines_inserts :
    notes.checkBulk noteRows = .ok () ∧ noteRows ∈ notes.batches noteRows ∧
      (notes.blockBatch noteRows).toExpression notes.binding = .ok noteBlock ∧
      ∃ inserts, noteRows.mapM notes.insert = .ok inserts ∧
        Block.referents 1 (Block.body inserts) = [(1, .text "a"), (2, .text "bc")] ∧
        noteBlock.values = inserts.flatMap Expression.values := by
  have hcheck : notes.checkBulk noteRows = .ok () := rfl
  have hbatch : noteRows ∈ notes.batches noteRows := List.mem_singleton.mpr rfl
  have h : (notes.blockBatch noteRows).toExpression notes.binding = .ok noteBlock :=
    Phrase.toExpression_of_normal rfl rfl
  obtain ⟨inserts, hi, -, hn, hv⟩ :=
    (block_refines_inserts rfl).2 noteRows hcheck noteRows hbatch noteBlock h
  have hvalues : noteBlock.values = [.text "a", .text "bc"] := Expression.values_ofPieces _
  rw [hvalues] at hn
  exact ⟨hcheck, hbatch, h, inserts, hi, hn, hv⟩

end SqlWeave
