import SqlWeave.Proofs.Insert.Block

/-!
# Bulk inserts

A bulk insert is the INSERT of every row, batched. The rows are cut by a prediction of how many
values each of them binds, and the statements are written cell by cell; both look at the same
bindings, so the prediction is exact and no statement exceeds what its engine allows.

Results:
* `fits_of_mem_batches`: no batch holds more rows or values than it may.
* `length_values_insert`: the INSERT of a row binds as many values as the weight of the row.
* `batch_inserts`: the statement of a batch binds the values of the inserts of its rows.
* **`bulkInsert_refines_inserts`**: bulk inserts are the inserts of their rows, batched.
-/

namespace SqlWeave

/-! ## The cuts -/

/-- A batch holds no more rows and values than it may; a row may be a batch whatever it binds. -/
def BatchLimit.fits {α : Type} (l : BatchLimit) (weight : α → Nat) (batch : List α) : Prop :=
  (∀ n, l.rows = some n → batch.length ≤ max n 1) ∧
    ((batch.map weight).sum ≤ l.values ∨ batch.length ≤ 1)

section

variable {α : Type} {l : BatchLimit} {weight : α → Nat}

theorem fits_reverse {batch : List α} (h : l.fits weight batch) : l.fits weight batch.reverse := by
  unfold BatchLimit.fits
  rw [List.length_reverse, List.map_reverse, List.sum_reverse]
  exact h

theorem fits_nil : l.fits weight [] := ⟨fun _ _ => Nat.zero_le _, .inr (Nat.zero_le 1)⟩

theorem fits_singleton (a : α) : l.fits weight [a] :=
  ⟨fun n _ => Nat.le_max_right n 1, .inr (Nat.le_refl 1)⟩

/-- A batch that is not full takes a row more. -/
theorem fits_cons {batch : List α} {a : α}
    (hf : l.isFull batch.length (batch.map weight).sum (weight a) = false) :
    l.fits weight (a :: batch) := by
  unfold BatchLimit.isFull at hf
  rw [Bool.or_eq_false_iff, decide_eq_false_iff_not] at hf
  refine ⟨fun n hn => ?_, .inl ?_⟩
  · have hr := hf.1
    rw [hn] at hr
    have hr : ¬ n ≤ batch.length := by simpa using hr
    rw [List.length_cons]
    omega
  · rw [List.map_cons, List.sum_cons]
    omega

/-- What is cut from rows behind a batch that fits, fits. -/
theorem fits_of_mem_batchesFrom {rows : List α} : ∀ {batch : List α} {bound : Nat},
    bound = (batch.map weight).sum → l.fits weight batch →
    ∀ b ∈ batchesFrom l weight batch bound rows, l.fits weight b := by
  induction rows with
  | nil =>
    intro batch bound _ hb b h
    unfold batchesFrom at h
    split at h
    · cases h
    · rw [List.mem_singleton.mp h]
      exact fits_reverse hb
  | cons r rest ih =>
    intro batch bound hs hb b h
    unfold batchesFrom at h
    split at h
    · rcases List.mem_cons.mp h with rfl | h
      · exact fits_reverse hb
      · exact ih (by simp) (fits_singleton r) b h
    · rename_i hf
      refine ih (by rw [List.map_cons, List.sum_cons, hs, Nat.add_comm]) ?_ b h
      cases batch with
      | nil => exact fits_singleton r
      | cons a batch =>
        subst hs
        exact fits_cons (by simpa using hf)

theorem fits_of_mem_batches {rows b : List α} (h : b ∈ batches l weight rows) :
    l.fits weight b :=
  fits_of_mem_batchesFrom rfl fits_nil b h

end

namespace Query

variable {q : Query}

/-! ## The statement of a batch -/

/-- **The INSERT of a row binds as many values as the weight of the row.** -/
theorem length_values_insert (hi : q.checkInsert = []) {r : Row} (hc : r.cells ≠ [])
    {e : Expression} (h : q.insert r = .ok e) : e.values.length = q.binding.weight r := by
  rw [q.insert_eq hi hc, map_eq_ok_iff] at h
  obtain ⟨items, hm, rfl⟩ := h
  rw [q.values_insert hc hm]
  exact Binding.length_values_items q.binding hm

theorem length_values_inserts (hi : q.checkInsert = []) {rows : List Row}
    (hc : ∀ r ∈ rows, r.cells ≠ []) {inserts : List Expression}
    (h : rows.mapM q.insert = .ok inserts) :
    (inserts.flatMap Expression.values).length = (rows.map q.binding.weight).sum := by
  have hf := mapM_eq_ok_iff.mp h
  clear h
  induction hf with
  | nil => rfl
  | cons he _ ih =>
    rw [List.flatMap_cons, List.length_append, List.map_cons, List.sum_cons,
      length_values_insert hi (hc _ List.mem_cons_self) he,
      ih fun r hr => hc r (List.mem_cons_of_mem _ hr)]

/-- The names of the columns of a batch. -/
def columnsOf (batch : List Row) : List String := (batch.head?.map Row.names).getD []

/-- The tuple that the INSERT of a row has, with an item for each cell and for each column. -/
def IsTuple (q : Query) (columns : List String) (r : Row) (items : List (List Piece)) : Prop :=
  r.cells.mapM q.binding.item = .ok items ∧ items.length = columns.length ∧
    q.insert r = .ok (.ofPieces ((q.insertHead r.names).texts ++ tuplePieces items))

/-- A statement lists the tuples of its rows. -/
def ListsTuples (q : Query) (batch : List Row) (e : Expression) : Prop :=
  ∃ tuples : List (List (List Piece)),
    List.Forall₂ (q.IsTuple (columnsOf batch)) batch tuples ∧
    e = .ofPieces ((q.insertHead (columnsOf batch)).texts ++
      ((tuples.map tuplePieces).intersperse [.text ", "]).flatten)

theorem written_valuesBatch {batch : List Row} {ps : List Piece}
    (h : (q.valuesBatch batch).written q.binding = .ok ps) :
    ∃ tuples : List (List (List Piece)),
      List.Forall₂ (fun r items => r.cells.mapM q.binding.item = .ok items) batch tuples ∧
      ps = (q.insertHead (columnsOf batch)).texts ++
        ((tuples.map tuplePieces).intersperse [.text ", "]).flatten := by
  have hp : q.valuesBatch batch = q.insertHead (columnsOf batch) ++
      Phrase.join ", " (batch.map fun r => Phrase.cellValues r.cells) := by
    unfold valuesBatch insertHead columnsOf
    simp only [List.append_assoc, List.singleton_append]
  rw [hp, Phrase.written_append_eq_ok_iff] at h
  obtain ⟨head, lists, hh, hl, rfl⟩ := h
  rw [Phrase.written_of_text (q.text_of_mem_insertHead _)] at hh
  cases hh
  rw [Phrase.written_join, map_eq_ok_iff, List.mapM_map] at hl
  obtain ⟨items, hm, rfl⟩ := hl
  have hf := mapM_eq_ok_iff.mp hm
  clear hm hp
  obtain ⟨tuples, ht, rfl⟩ : ∃ tuples : List (List (List Piece)),
      List.Forall₂ (fun r items => r.cells.mapM q.binding.item = .ok items) batch tuples ∧
      items = tuples.map tuplePieces := by
    induction hf with
    | nil => exact ⟨[], .nil, rfl⟩
    | cons hx _ ih =>
      obtain ⟨tuples, ht, rfl⟩ := ih
      rw [Function.comp_apply, Binding.written_cellValues, map_eq_ok_iff] at hx
      obtain ⟨is, hi, rfl⟩ := hx
      exact ⟨is :: tuples, .cons hi ht, rfl⟩
  exact ⟨tuples, ht, rfl⟩

/-- The items of rows are those of their inserts. -/
theorem exists_inserts (hi : q.checkInsert = []) {batch : List Row}
    {tuples : List (List (List Piece))}
    (ht : List.Forall₂ (fun r items => r.cells.mapM q.binding.item = .ok items) batch tuples) :
    (∀ r ∈ batch, r.cells ≠ []) → ∃ inserts, batch.mapM q.insert = .ok inserts ∧
      inserts.flatMap Expression.values =
        tuples.flatMap fun items => items.flatMap Piece.values := by
  induction ht with
  | nil => exact fun _ => ⟨[], rfl, rfl⟩
  | @cons r items batch tuples hm _ ih =>
    intro hc
    obtain ⟨inserts, hins, hv⟩ := ih fun s hs => hc s (List.mem_cons_of_mem _ hs)
    have hcr := hc r List.mem_cons_self
    have he : q.insert r =
        .ok (.ofPieces ((q.insertHead r.names).texts ++ tuplePieces items)) := by
      rw [q.insert_eq hi hcr, hm]
      rfl
    refine ⟨_ :: inserts, mapM_eq_ok_iff.mpr (.cons he (mapM_eq_ok_iff.mp hins)), ?_⟩
    rw [List.flatMap_cons, List.flatMap_cons, hv, q.values_insert hcr hm]

theorem values_valuesBatch {batch : List Row} {e : Expression}
    (h : (q.valuesBatch batch).toExpression q.binding = .ok e) :
    ∃ tuples : List (List (List Piece)),
      List.Forall₂ (fun r items => r.cells.mapM q.binding.item = .ok items) batch tuples ∧
      e = .ofPieces ((q.insertHead (columnsOf batch)).texts ++
        ((tuples.map tuplePieces).intersperse [.text ", "]).flatten) ∧
      e.values = tuples.flatMap fun items => items.flatMap Piece.values := by
  rw [Phrase.toExpression_eq_ok_iff] at h
  obtain ⟨ps, hps, rfl⟩ := h
  obtain ⟨tuples, ht, rfl⟩ := written_valuesBatch hps
  refine ⟨tuples, ht, rfl, ?_⟩
  rw [Phrase.values_of_written hps, Piece.values_append, values_texts, values_flatten_intersperse,
    List.nil_append, List.flatMap_map]
  simp only [values_tuplePieces]

/-- **The statement of a batch binds the values of the inserts of its rows**, on every engine. -/
theorem batch_inserts (hi : q.checkInsert = []) {batch : List Row}
    (hc : ∀ r ∈ batch, r.cells ≠ []) {e : Expression}
    (h : (q.batchPhrase batch).toExpression q.binding = .ok e) :
    ∃ inserts, batch.mapM q.insert = .ok inserts ∧
      e.values = inserts.flatMap Expression.values := by
  unfold batchPhrase at h
  split at h
  · rename_i hd
    rw [Phrase.toExpression_eq_ok_iff] at h
    obtain ⟨ps, hps, rfl⟩ := h
    obtain ⟨hf, ss, hss, -⟩ := Block.written_blockBatch hps
    obtain ⟨inserts, hins, -, -, hv⟩ := Block.written_statements hd hc hf hss
    exact ⟨inserts, hins, (Block.values_blockBatch hd hc hps).trans hv.symm⟩
  · obtain ⟨tuples, ht, -, hv⟩ := values_valuesBatch h
    obtain ⟨inserts, hins, hvi⟩ := exists_inserts hi ht hc
    exact ⟨inserts, hins, hv.trans hvi.symm⟩

theorem listsTuples (hd : q.dialect ≠ .firebird) (hi : q.checkInsert = []) {batch : List Row}
    (hc : ∀ r ∈ batch, r.cells ≠ [])
    (hl : ∀ r ∈ batch, ∀ s ∈ batch, r.cells.length = s.cells.length) {e : Expression}
    (h : (q.batchPhrase batch).toExpression q.binding = .ok e) : q.ListsTuples batch e := by
  have hp : q.batchPhrase batch = q.valuesBatch batch := by
    unfold batchPhrase
    split
    · rename_i hf
      exact absurd hf hd
    · rfl
  rw [hp] at h
  obtain ⟨tuples, ht, he, -⟩ := values_valuesBatch h
  refine ⟨tuples, ?_, he⟩
  have hcol : ∀ r ∈ batch, r.cells.length = (columnsOf batch).length := fun r hr => by
    cases batch with
    | nil => cases hr
    | cons first rest =>
      change r.cells.length = (first.cells.map (·.name)).length
      rw [List.length_map]
      exact hl r hr first List.mem_cons_self
  have hm : List.Forall₂ (fun r items => r ∈ batch ∧ r.cells.mapM q.binding.item = .ok items)
      batch tuples := (List.forall₂_and_left batch tuples).mpr ⟨fun r hr => hr, ht⟩
  refine hm.imp fun r items h => ⟨h.2, ?_, ?_⟩
  · rw [← (mapM_eq_ok_iff.mp h.2).length_eq]
    exact hcol r h.1
  · rw [q.insert_eq hi (hc r h.1), h.2]
    rfl

/-! ## All batches -/

/-- What the statement of a batch is. -/
structure IsBatchInsert (q : Query) (batch : List Row) (e : Expression) : Prop where
  /-- The statement is written from the rows of the batch. -/
  statement : (q.batchPhrase batch).toExpression q.binding = .ok e
  nonempty : batch ≠ []
  rows : ∀ n, q.config.bulkRows = some n → batch.length ≤ max 1 n
  /-- More values than the engine allows are bound for a row alone. -/
  values : e.values.length ≤ q.dialect.maxParameters ∨ batch.length = 1
  tuples : q.dialect ≠ .firebird → q.ListsTuples batch e

theorem isBatchInsert {rows : List Row} (hb : q.checkBulk rows = .ok ()) {batch : List Row}
    (hm : batch ∈ q.batches rows) {e : Expression}
    (h : (q.batchPhrase batch).toExpression q.binding = .ok e) : q.IsBatchInsert batch e := by
  obtain ⟨hi, hc, hl⟩ := cells_of_checkBulk hb
  have hsub : ∀ r ∈ batch, r ∈ rows := fun r hr => by
    have hf := flatten_batches q.batchLimit q.binding.weight rows
    rw [← hf]
    exact List.mem_flatten.mpr ⟨batch, hm, hr⟩
  have hcb : ∀ r ∈ batch, r.cells ≠ [] := fun r hr => hc r (hsub r hr)
  have hn : batch ≠ [] := ne_nil_of_mem_batches hm
  obtain ⟨hrows, hvalues⟩ := fits_of_mem_batches hm
  refine ⟨h, hn, fun n hbn => ?_, ?_, fun hd => ?_⟩
  · have hr := hrows (max n 1) (by unfold batchLimit; rw [hbn]; rfl)
    omega
  · obtain ⟨inserts, hins, hv⟩ := batch_inserts hi hcb h
    rw [hv, length_values_inserts hi hcb hins]
    rcases hvalues with hs | hs
    · exact .inl hs
    · have hp := List.length_pos_iff.mpr hn
      exact .inr (by omega)
  · exact listsTuples hd hi hcb (fun r hr s hs => hl r (hsub r hr) s (hsub s hs)) h

/-- The inserts of batches, one batch after another, are the inserts of the rows. -/
theorem exists_inserts_flatten (hi : q.checkInsert = []) {bs : List (List Row)}
    {es : List Expression}
    (h : List.Forall₂ (fun batch e => (q.batchPhrase batch).toExpression q.binding = .ok e) bs es) :
    (∀ r ∈ bs.flatten, r.cells ≠ []) → ∃ inserts, bs.flatten.mapM q.insert = .ok inserts ∧
      es.flatMap Expression.values = inserts.flatMap Expression.values := by
  induction h with
  | nil => exact fun _ => ⟨[], rfl, rfl⟩
  | @cons batch e bs es he _ ih =>
    intro hc
    rw [List.flatten_cons] at hc ⊢
    obtain ⟨rest, hrest, hvr⟩ := ih fun r hr => hc r (List.mem_append_right _ hr)
    obtain ⟨inserts, hins, hv⟩ := batch_inserts hi (fun r hr => hc r (List.mem_append_left _ hr)) he
    refine ⟨inserts ++ rest, ?_, ?_⟩
    · rw [List.mapM_append, hins, hrest]
      rfl
    · rw [List.flatMap_cons, List.flatMap_append, hv, hvr]

end Query

/-- **Bulk inserts are the inserts of their rows, batched.** Every row of a bulk insert that
succeeds has an INSERT of its own. The batches are the rows cut at some places, and each has a
statement: it holds no more rows than the options say, binds no more values than the engine allows
unless it is for one row, and on engines other than Firebird lists the tuples that the inserts of
its rows have, each with an item for every column. Together the statements bind the values of the
inserts, in their order. -/
theorem bulkInsert_refines_inserts {q : Query} {rows : List Row} {es : List Expression}
    (h : q.bulkInsert rows = .ok es) :
    ∃ inserts, rows.mapM q.insert = .ok inserts ∧
      (q.batches rows).flatten = rows ∧
      List.Forall₂ q.IsBatchInsert (q.batches rows) es ∧
      es.flatMap Expression.values = inserts.flatMap Expression.values := by
  have hb : q.checkBulk rows = .ok () := by
    unfold Query.bulkInsert at h
    cases hc : q.checkBulk rows with
    | error e => rw [hc] at h; cases h
    | ok _ => rfl
  have hs : List.Forall₂ (fun batch e => (q.batchPhrase batch).toExpression q.binding = .ok e)
      (q.batches rows) es := by
    unfold Query.bulkInsert at h
    rw [hb] at h
    have hm : (q.bulkBatches rows).mapM (·.2) = .ok es := h
    unfold Query.bulkBatches at hm
    rw [List.mapM_map] at hm
    exact mapM_eq_ok_iff.mp hm
  obtain ⟨hi, hc, -⟩ := Query.cells_of_checkBulk hb
  have hf : (q.batches rows).flatten = rows :=
    flatten_batches q.batchLimit q.binding.weight rows
  obtain ⟨inserts, hins, hv⟩ := Query.exists_inserts_flatten hi hs (by rwa [hf])
  rw [hf] at hins
  have hm := (List.forall₂_and_left (q.batches rows) es).mpr ⟨fun batch hb => hb, hs⟩
  exact ⟨inserts, hins, hf, hm.imp fun batch e h => Query.isBatchInsert hb h.1 h.2, hv⟩

/-- The table of notes, inserted one by one. -/
def singleNotes : Query := .new ⟨"notes", none⟩ ((Config.new .sqlite).withBulkBatchRows 1)

/-- The INSERT of a note. -/
def noteInsert (values note : String) : Expression :=
  .ofPieces [.text ("INSERT INTO \"notes\" (\"id\", \"note\") VALUES (" ++ values ++ ", "),
    .bound (.text note), .text ")"]

theorem singleNotes_refine_inserts :
    singleNotes.bulkInsert noteRows = .ok [noteInsert "1" "a", noteInsert "2" "bc"] ∧
      ∃ inserts, noteRows.mapM singleNotes.insert = .ok inserts ∧
        List.Forall₂ singleNotes.IsBatchInsert (singleNotes.batches noteRows)
          [noteInsert "1" "a", noteInsert "2" "bc"] ∧
        [.text "a", .text "bc"] = inserts.flatMap Expression.values := by
  have h : singleNotes.bulkInsert noteRows =
      .ok [noteInsert "1" "a", noteInsert "2" "bc"] := rfl
  obtain ⟨inserts, hi, -, hb, hv⟩ := bulkInsert_refines_inserts h
  exact ⟨h, inserts, hi, hb, hv⟩

end SqlWeave
