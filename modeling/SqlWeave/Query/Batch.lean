import SqlWeave.Query.Basic
import SqlWeave.Row

/-!
# Rows cut into batches

A bulk insert is cut into statements of consecutive rows. A batch ends where one more row would
exceed the number of rows or of bound values that a statement may hold; a row that alone binds too
many values is a batch of its own.

Results:
* `flatten_batchesFrom`, `flatten_batches`: the batches are the rows, in their order.
* `ne_nil_of_mem_batches`: no batch is empty.
-/

namespace SqlWeave

/-- What a batch may hold. -/
structure BatchLimit where
  /-- The number of rows, if it is limited. -/
  rows : Option Nat
  values : Nat
  deriving DecidableEq, Repr

namespace BatchLimit

/-- A batch of some rows and values cannot take a row that binds `more` values. -/
def isFull (l : BatchLimit) (rows values more : Nat) : Bool :=
  (match l.rows with
    | some n => decide (n ≤ rows)
    | none => false) || decide (l.values < values + more)

end BatchLimit

/-- Cuts rows into batches. `batch` is the current batch with its last row first, and `bound` the
number of its bound values. -/
def batchesFrom {α : Type} (l : BatchLimit) (weight : α → Nat) (batch : List α) (bound : Nat) :
    List α → List (List α)
  | [] => if batch.isEmpty then [] else [batch.reverse]
  | r :: rest =>
    if !batch.isEmpty && l.isFull batch.length bound (weight r) then
      batch.reverse :: batchesFrom l weight [r] (weight r) rest
    else batchesFrom l weight (r :: batch) (bound + weight r) rest

/-- Rows in batches. -/
def batches {α : Type} (l : BatchLimit) (weight : α → Nat) (rows : List α) : List (List α) :=
  batchesFrom l weight [] 0 rows

theorem flatten_batchesFrom {α : Type} (l : BatchLimit) (weight : α → Nat) (batch : List α)
    (bound : Nat) (rows : List α) :
    (batchesFrom l weight batch bound rows).flatten = batch.reverse ++ rows := by
  induction rows generalizing batch bound with
  | nil =>
    simp only [batchesFrom]
    split
    · rename_i h
      simp [List.isEmpty_iff.1 h]
    · simp
  | cons r rest ih =>
    simp only [batchesFrom]
    split <;> simp [ih]

theorem flatten_batches {α : Type} (l : BatchLimit) (weight : α → Nat) (rows : List α) :
    (batches l weight rows).flatten = rows := flatten_batchesFrom l weight [] 0 rows

theorem ne_nil_of_mem_batchesFrom {α : Type} {l : BatchLimit} {weight : α → Nat}
    {batch b : List α} {bound : Nat} {rows : List α}
    (h : b ∈ batchesFrom l weight batch bound rows) :
    b ≠ [] := by
  induction rows generalizing batch bound with
  | nil =>
    simp only [batchesFrom] at h
    split at h
    · simp at h
    · rename_i hb
      simp only [List.mem_singleton] at h
      subst h
      simpa using hb
  | cons r rest ih =>
    simp only [batchesFrom] at h
    split at h
    · rename_i hb
      rcases List.mem_cons.1 h with rfl | h
      · simp only [Bool.and_eq_true, Bool.not_eq_true', List.isEmpty_eq_false_iff] at hb
        simpa using hb.1
      · exact ih h
    · exact ih h

theorem ne_nil_of_mem_batches {α : Type} {l : BatchLimit} {weight : α → Nat} {b : List α}
    {rows : List α} (h : b ∈ batches l weight rows) : b ≠ [] := ne_nil_of_mem_batchesFrom h

namespace Binding

/-- The number of values that a parameter binds. -/
def weightOfParam (b : Binding) : Param → Nat
  | .value v => if b.binds (b.intercept v) then 1 else 0
  | .expression e => e.values.countP fun v => b.binds (b.intercept v)

/-- The number of values that a row binds. -/
def weight (b : Binding) (r : Row) : Nat := (r.cells.map fun c => b.weightOfParam c.value).sum

end Binding

namespace Query

/-- What a batch of the query's bulk inserts may hold. -/
def batchLimit (q : Query) : BatchLimit :=
  ⟨q.config.bulkRows.map (max · 1), q.dialect.maxParameters⟩

/-- Rows in batches for the query's engine. -/
def batches (q : Query) (rows : List Row) : List (List Row) :=
  SqlWeave.batches q.batchLimit q.binding.weight rows

end Query
end SqlWeave
