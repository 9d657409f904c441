import Mathlib.Data.List.Chain
import SqlWeave.Proofs.Insert.Batches

/-!
# No cut has fewer batches

Batches are cut greedily: a batch ends only where one more row would exceed what a statement may
hold. What fits stays so when rows at its ends are left out, so a run of some other cut that holds a
whole batch cannot reach the row behind it. The runs of any cut therefore fall behind the batches,
one run for each batch at least.

Results:
* `fits_of_isInfix`: a part of a run that fits, fits.
* `isChain_batches`: a batch with the first row behind it does not fit.
* `length_le_of_isChain`: runs that fit are as many as such batches, wherever they begin.
* **`batches_fewest`**: batches are an admissible cut, and no admissible cut has fewer runs.
-/

namespace SqlWeave

section

variable {α : Type} {l : BatchLimit} {weight : α → Nat}

/-! ## What fits -/

theorem sum_weight_le_of_isInfix (weight : α → Nat) {run run' : List α} (h : run' <:+: run) :
    (run'.map weight).sum ≤ (run.map weight).sum := by
  obtain ⟨before, behind, rfl⟩ := h
  rw [List.map_append, List.map_append, List.sum_append, List.sum_append]
  omega

/-- A part of a run that fits, fits. -/
theorem fits_of_isInfix {run run' : List α} (h : run' <:+: run) (hf : l.fits weight run) :
    l.fits weight run' := by
  have hl := h.length_le
  have hs := sum_weight_le_of_isInfix weight h
  refine ⟨fun n hn => ?_, ?_⟩
  · have hr := hf.1 n hn
    omega
  · have hv := hf.2
    omega

/-- A batch that is full does not take a row more. -/
theorem not_fits_of_isFull {batch : List α} {a : α} (hn : batch ≠ [])
    (hf : l.isFull batch.length (batch.map weight).sum (weight a) = true) :
    ¬ l.fits weight (batch.reverse ++ [a]) := by
  rintro ⟨hr, hv⟩
  have hp := List.length_pos_iff.mpr hn
  rw [List.length_append, List.length_reverse, List.length_singleton] at hr hv
  rw [List.map_append, List.sum_append, List.map_reverse, List.sum_reverse, List.map_singleton,
    List.sum_singleton] at hv
  unfold BatchLimit.isFull at hf
  rw [Bool.or_eq_true, decide_eq_true_eq] at hf
  rcases hf with hf | hf
  · cases hl : l.rows with
    | none =>
      rw [hl] at hf
      cases hf
    | some n =>
      rw [hl] at hf
      have hle : n ≤ batch.length := of_decide_eq_true hf
      have := hr n hl
      omega
  · omega

/-! ## Greedy batches -/

/-- The first batch that is cut begins with the rows gathered before. -/
theorem exists_batchesFrom (rows : List α) : ∀ (batch : List α) (bound : Nat), batch ≠ [] →
    ∃ more rest, batchesFrom l weight batch bound rows = (batch.reverse ++ more) :: rest := by
  induction rows with
  | nil =>
    intro batch bound hn
    refine ⟨[], [], ?_⟩
    rw [batchesFrom, if_neg (by simpa using hn), List.append_nil]
  | cons r rows ih =>
    intro batch bound hn
    rw [batchesFrom]
    split
    · exact ⟨[], _, by rw [List.append_nil]⟩
    · obtain ⟨more, rest, h⟩ := ih (r :: batch) (bound + weight r) (by simp)
      exact ⟨r :: more, rest, by rw [h, List.reverse_cons, List.append_assoc, List.singleton_append]⟩

/-- The batch with the first row of the next one does not fit. -/
def Ended (l : BatchLimit) (weight : α → Nat) (batch next : List α) : Prop :=
  ¬ l.fits weight (batch ++ next.take 1)

/-- Batches are cut only where they must be, whatever was gathered before. -/
theorem isChain_batchesFrom (rows : List α) : ∀ (batch : List α) (bound : Nat),
    bound = (batch.map weight).sum → batch ≠ [] →
    (batchesFrom l weight batch bound rows).IsChain (Ended l weight) := by
  induction rows with
  | nil =>
    intro batch bound _ hn
    rw [batchesFrom, if_neg (by simpa using hn)]
    exact List.isChain_singleton _
  | cons r rows ih =>
    intro batch bound hs hn
    rw [batchesFrom]
    split
    · rename_i hf
      rw [Bool.and_eq_true, hs] at hf
      have hi := ih [r] (weight r) (by simp) (by simp)
      obtain ⟨more, rest, h⟩ : ∃ more rest,
          batchesFrom l weight [r] (weight r) rows = ([r].reverse ++ more) :: rest :=
        exists_batchesFrom rows [r] (weight r) (List.cons_ne_nil r [])
      rw [h] at hi ⊢
      exact List.isChain_cons_cons.mpr ⟨not_fits_of_isFull hn hf.2, hi⟩
    · refine ih _ _ ?_ (by simp)
      rw [hs, List.map_cons, List.sum_cons, Nat.add_comm]

/-- **A batch is cut only where one more row does not fit.** -/
theorem isChain_batches (rows : List α) :
    (batches l weight rows).IsChain (Ended l weight) := by
  cases rows with
  | nil => exact List.isChain_nil
  | cons r rows =>
    have hb : batches l weight (r :: rows) = batchesFrom l weight [r] (0 + weight r) rows := rfl
    rw [hb]
    exact isChain_batchesFrom rows _ _ (by simp) (by simp)

/-- Rows that bind nothing are not gathered with one that alone binds too much, and a batch holds no
more rows than it may. -/
example : batches ⟨some 2, 3⟩ id [1, 2, 0, 4, 0, 0] = [[1, 2], [0], [4], [0, 0]] := rfl

/-! ## Any other cut -/

/-- **Runs that fit are as many as batches that are cut only where they must be**, even where the
first run begins some rows before the first batch. -/
theorem length_le_of_isChain {runs : List (List α)} : ∀ {bs : List (List α)} (before : List α),
    bs.IsChain (Ended l weight) → (∀ b ∈ bs, b ≠ []) → (∀ r ∈ runs, l.fits weight r) →
    runs.flatten = before ++ bs.flatten → bs.length ≤ runs.length := by
  induction runs with
  | nil =>
    intro bs before _ hn _ h
    cases bs with
    | nil => exact Nat.le_refl 0
    | cons b bs =>
      have hb : b = [] := by simp_all
      exact absurd hb (hn b List.mem_cons_self)
  | cons run runs ih =>
    intro bs before hc hn hf h
    rcases bs with - | ⟨b, - | ⟨next, bs⟩⟩
    · exact Nat.zero_le _
    · exact Nat.succ_le_succ (Nat.zero_le _)
    · obtain ⟨hend, hc⟩ := List.isChain_cons_cons.mp hc
      have hn' : ∀ b ∈ next :: bs, b ≠ [] := fun b hb => hn b (List.mem_cons_of_mem _ hb)
      rw [List.flatten_cons, List.flatten_cons, ← List.append_assoc] at h
      -- the run ends before the next batch, for it cannot hold this one and a row behind it
      obtain ⟨rest, hrest⟩ : ∃ rest, runs.flatten = rest ++ (next :: bs).flatten := by
        rcases List.append_eq_append_iff.mp h with ⟨rest, -, hr⟩ | ⟨extra, hrun, hr⟩
        · exact ⟨rest, hr⟩
        · cases extra with
          | nil => exact ⟨[], hr.symm⟩
          | cons a extra =>
            obtain ⟨c, next', rfl⟩ := List.exists_cons_of_ne_nil (hn' next List.mem_cons_self)
            obtain ⟨rfl, -⟩ := List.cons.inj hr
            have hin : b ++ [c] <:+: run := ⟨before, extra, by simp [hrun]⟩
            exact absurd (fits_of_isInfix hin (hf run List.mem_cons_self)) hend
      have hle := ih rest hc hn' (fun r hr => hf r (List.mem_cons_of_mem _ hr)) hrest
      exact Nat.succ_le_succ hle

end

/-! ## Cuts of a query's rows -/

namespace Query

/-- A run of rows that one statement of the query may insert. -/
structure Admits (q : Query) (run : List Row) : Prop where
  nonempty : run ≠ []
  rows : ∀ n, q.config.bulkRows = some n → run.length ≤ max 1 n
  /-- More values than the engine allows are bound for a row alone. -/
  values : (run.map q.binding.weight).sum ≤ q.dialect.maxParameters ∨ run.length = 1

/-- Rows cut into runs that statements of the query may insert. -/
structure Cuts (q : Query) (rows : List Row) (runs : List (List Row)) : Prop where
  flatten : runs.flatten = rows
  admitted : ∀ run ∈ runs, q.Admits run

variable {q : Query}

theorem admits_iff {run : List Row} :
    q.Admits run ↔ run ≠ [] ∧ q.batchLimit.fits q.binding.weight run := by
  have hlimit : ∀ n, q.batchLimit.rows = some n ↔ ∃ m, q.config.bulkRows = some m ∧ max m 1 = n :=
    fun n => Option.map_eq_some_iff
  constructor
  · rintro ⟨hn, hr, hv⟩
    refine ⟨hn, fun n h => ?_, hv.imp_right Nat.le_of_eq⟩
    obtain ⟨m, hm, rfl⟩ := (hlimit n).mp h
    have := hr m hm
    omega
  · rintro ⟨hn, hr, hv⟩
    have hp := List.length_pos_iff.mpr hn
    refine ⟨hn, fun m hm => ?_, hv.imp_right fun h => by omega⟩
    have := hr (max m 1) ((hlimit _).mpr ⟨m, hm, rfl⟩)
    omega

/-- **Batches are an admissible cut, and no admissible cut has fewer runs.** The rows are cut into
runs that one statement may insert; however else they are cut into such runs, there are as many runs
at least. -/
theorem batches_fewest (q : Query) (rows : List Row) :
    q.Cuts rows (q.batches rows) ∧
      ∀ runs, q.Cuts rows runs → (q.batches rows).length ≤ runs.length := by
  have hflat : (q.batches rows).flatten = rows :=
    flatten_batches q.batchLimit q.binding.weight rows
  constructor
  · refine ⟨hflat, fun run hrun => ?_⟩
    exact admits_iff.mpr ⟨ne_nil_of_mem_batches hrun, fits_of_mem_batches hrun⟩
  · intro runs hruns
    refine length_le_of_isChain [] (isChain_batches rows)
      (fun b hb => ne_nil_of_mem_batches hb) (fun run hrun => ?_) ?_
    · exact (admits_iff.mp (hruns.admitted run hrun)).2
    · exact hruns.flatten.trans hflat.symm

end Query
end SqlWeave
