import Mathlib.Data.List.DropRight
import SqlWeave.Monitor.Stats

/-!
# Statistics report what happened

The hook that keeps statistics is told of statements one at a time, and may be put back to the
beginning between two of them. What it has counted is then what a look back finds: the statements
told since it was last put back, how many of them there are of each kind and outcome, how long they
took together and the longest of them alone.

Words wrap around, so a count is a number of statements as long as there are fewer than `2 ^ 64`. A
sum of times may come to the greatest number much earlier and has to stay there.

Results:
* `reports_reset`: statistics put back report nothing.
* `Reports.after`: statistics report a statement more once they are told of it.
* **`stats_of_history`**: after any history they report what was told since the last reset.
-/

namespace SqlWeave.Stats

/-- A statement as hooks are told of it. -/
structure Told where
  context : Context
  nanos : Nat
  outcome : Outcome

namespace Told

/-- The time of a statement, as much of it as a word holds. -/
def time (t : Told) : Nat := min t.nanos greatestNanos

/-- The greatest time of some statements, zero where there are none. -/
def greatest (ts : List Told) : Nat := (ts.map time).foldl max 0

/-- The statement took a positive time, the greatest of some statements. -/
def isSlowest (ts : List Told) (t : Told) : Bool := 0 < t.time && t.time = greatest ts

variable {ts : List Told} {t u : Told}

theorem greatest_concat (ts : List Told) (t : Told) :
    greatest (ts ++ [t]) = max (greatest ts) t.time := by
  simp [greatest]

theorem time_le_greatest (h : u ∈ ts) : u.time ≤ greatest ts := by
  induction ts using List.reverseRecOn with
  | nil => cases h
  | append_singleton ts t ih =>
    rw [greatest_concat]
    rcases List.mem_append.mp h with h | h
    · exact (ih h).trans (le_max_left _ _)
    · rw [List.mem_singleton.mp h]
      exact le_max_right _ _

/-- A positive greatest time is that of a statement. -/
theorem exists_isSlowest (h : 0 < greatest ts) : ∃ t ∈ ts, isSlowest ts t = true := by
  suffices hs : greatest ts = 0 ∨ ∃ t ∈ ts, t.time = greatest ts by
    obtain hz | ⟨t, ht, he⟩ := hs
    · omega
    · exact ⟨t, ht, by simp [isSlowest, he, h]⟩
  clear h
  induction ts using List.reverseRecOn with
  | nil => exact .inl rfl
  | append_singleton ts t ih =>
    rw [greatest_concat]
    rcases le_total (greatest ts) t.time with hle | hle
    · rw [max_eq_right hle]
      exact .inr ⟨t, List.mem_append_right _ (List.mem_singleton_self t), rfl⟩
    · rw [max_eq_left hle]
      refine ih.imp_right fun ⟨u, hu, he⟩ => ⟨u, List.mem_append_left _ hu, he⟩

/-- A statement that took longer than all before it is the slowest. -/
theorem find?_isSlowest_of_lt (h : greatest ts < t.time) :
    (ts ++ [t]).find? (isSlowest (ts ++ [t])) = some t := by
  have hg : greatest (ts ++ [t]) = t.time := by rw [greatest_concat, max_eq_right h.le]
  have hnone : ts.find? (isSlowest (ts ++ [t])) = none := by
    refine List.find?_eq_none.mpr fun u hu => ?_
    have hle := time_le_greatest hu
    simp only [isSlowest, hg, Bool.and_eq_true, decide_eq_true_eq, not_and]
    omega
  have ht : isSlowest (ts ++ [t]) t = true := by simp [isSlowest, hg, Nat.zero_lt_of_lt h]
  rw [List.find?_append, hnone, Option.none_or, List.find?_singleton, if_pos ht]

/-- Otherwise the slowest statement stays the same. -/
theorem find?_isSlowest_of_le (h : t.time ≤ greatest ts) :
    (ts ++ [t]).find? (isSlowest (ts ++ [t])) = ts.find? (isSlowest ts) := by
  have hg : isSlowest (ts ++ [t]) = isSlowest ts := by
    funext u
    rw [isSlowest, greatest_concat, max_eq_left h]
    rfl
  rw [hg, List.find?_append]
  rcases Nat.eq_zero_or_pos (greatest ts) with hz | hpos
  · -- no statement took any time
    have ht : isSlowest ts t = false := by
      have : t.time = 0 := by omega
      simp [isSlowest, this]
    rw [List.find?_singleton, ht]
    exact Option.or_none
  · obtain ⟨u, hu, hs⟩ := exists_isSlowest hpos
    obtain ⟨v, hv⟩ := Option.isSome_iff_exists.mp (List.find?_isSome.mpr ⟨u, hu, hs⟩)
    rw [hv]
    rfl

end Told

/-! ## What statistics report -/

/-- Statistics report statements: their number, the failures and the kinds among them, and their
times with the first that took longest. -/
structure Reports (s : Stats) (ts : List Told) : Prop where
  total : s.total.toNat = ts.length
  failed : s.failed.toNat = ts.countP (·.outcome.isError)
  /-- A kind that has a count has that of its statements. -/
  kinds : ∀ k n, s.of? k = some n → n.toNat = ts.countP (·.context.kind = k)
  totalNanos : s.totalNanos.toNat = min (ts.map Told.time).sum greatestNanos
  maxNanos : s.maxNanos.toNat = Told.greatest ts
  slowest : s.slowest = (ts.find? (Told.isSlowest ts)).map (·.context.sql)

variable {s : Stats} {ts : List Told}

theorem reports_reset (s : Stats) : Reports s.reset [] where
  total := rfl
  failed := rfl
  kinds k n h := by
    cases k <;> cases h <;> rfl
  totalNanos := rfl
  maxNanos := rfl
  slowest := rfl

/-- A count of so few statements does not wrap around. -/
theorem toNat_succ {n : UInt64} {m : Nat} (hn : n.toNat = m) (hm : m ≤ ts.length)
    (hl : ts.length + 1 < 2 ^ 64) : (n + 1).toNat = m + 1 := by
  rw [UInt64.toNat_add, hn]
  exact Nat.mod_eq_of_lt (Nat.lt_of_le_of_lt (Nat.succ_le_succ hm) hl)

/-- Words are compared as the times that they are. -/
theorem Reports.maxNanos_lt_iff (h : Reports s ts) (t : Told) :
    s.maxNanos < word t.nanos ↔ Told.greatest ts < t.time := by
  rw [UInt64.lt_iff_toNat_lt, h.maxNanos, toNat_word]
  rfl

/-- **Statistics report a statement more once they are told of it.** -/
theorem Reports.after (h : Reports s ts) (t : Told) (hl : ts.length + 1 < 2 ^ 64) :
    Reports (s.after t.context t.nanos t.outcome) (ts ++ [t]) where
  total := by
    rw [List.length_append, List.length_singleton]
    exact toNat_succ h.total le_rfl hl
  failed := by
    change (if t.outcome.isError then s.failed + 1 else s.failed).toNat = _
    rw [List.countP_append, List.countP_singleton]
    split
    · exact toNat_succ h.failed List.countP_le_length hl
    · exact h.failed
  kinds k n hk := by
    have hk := (KindCounts.of?_count _ _ _).symm.trans hk
    rw [List.countP_append, List.countP_singleton]
    split at hk
    · rename_i hc
      obtain ⟨m, hm, rfl⟩ := Option.map_eq_some_iff.mp hk
      rw [if_pos (by simpa using hc)]
      exact toNat_succ (h.kinds k m hm) List.countP_le_length hl
    · rename_i hc
      rw [if_neg (by simpa using hc)]
      exact h.kinds k n hk
  totalNanos := by
    have ht : (word t.nanos).toNat = t.time := toNat_word t.nanos
    change (lengthened s.totalNanos (word t.nanos)).toNat = _
    rw [toNat_lengthened, h.totalNanos, ht, List.map_append, List.sum_append, List.map_singleton,
      List.sum_singleton]
    -- a sum that was cut stays at the greatest number with more added
    omega
  maxNanos := by
    change (if s.maxNanos < word t.nanos then word t.nanos else s.maxNanos).toNat = _
    rw [Told.greatest_concat]
    split
    · rename_i hm
      rw [max_eq_right ((h.maxNanos_lt_iff t).mp hm).le]
      exact toNat_word t.nanos
    · rename_i hm
      rw [max_eq_left (Nat.le_of_not_lt (mt (h.maxNanos_lt_iff t).mpr hm))]
      exact h.maxNanos
  slowest := by
    change (if s.maxNanos < word t.nanos then some t.context.sql else s.slowest) = _
    split
    · rename_i hm
      rw [Told.find?_isSlowest_of_lt ((h.maxNanos_lt_iff t).mp hm)]
      rfl
    · rename_i hm
      rw [Told.find?_isSlowest_of_le (Nat.le_of_not_lt (mt (h.maxNanos_lt_iff t).mpr hm))]
      exact h.slowest

/-! ## Histories -/

/-- What happens to statistics. -/
inductive Event where
  | told (t : Told)
  | reset

namespace Event

/-- The statement that the hook is told of. -/
def told? : Event → Option Told
  | told t => some t
  | reset => none

/-- The statistics after an event. -/
def apply (s : Stats) : Event → Stats
  | told t => hook.after t.context t.nanos t.outcome s
  | reset => s.reset

end Event

/-- The statistics after a history. -/
def ofHistory (events : List Event) : Stats := events.foldl Event.apply {}

/-- The statements told since the last reset. -/
def sinceReset (events : List Event) : List Told :=
  (events.rtakeWhile (·.told?.isSome)).filterMap Event.told?

theorem sinceReset_told (events : List Event) (t : Told) :
    sinceReset (events ++ [.told t]) = sinceReset events ++ [t] := by
  unfold sinceReset
  rw [List.rtakeWhile_concat_pos _ _ _ (by rfl), List.filterMap_append]
  rfl

theorem sinceReset_reset (events : List Event) : sinceReset (events ++ [.reset]) = [] := by
  unfold sinceReset
  rw [List.rtakeWhile_concat_neg _ _ _ (by simp [Event.told?])]
  rfl

theorem length_sinceReset_le (events : List Event) :
    (sinceReset events).length ≤ events.length :=
  (List.length_filterMap_le _ _).trans (List.rtakeWhile_suffix _ _).length_le

/-- **The statistics report exactly what was told since the last reset**, after every history of
fewer than `2 ^ 64` events. -/
theorem stats_of_history (events : List Event) (h : events.length < 2 ^ 64) :
    Reports (ofHistory events) (sinceReset events) := by
  induction events using List.reverseRecOn with
  | nil => exact reports_reset {}
  | append_singleton events e ih =>
    rw [List.length_append, List.length_singleton] at h
    have ih := ih (by omega)
    have hrun : ofHistory (events ++ [e]) = e.apply (ofHistory events) := List.foldl_concat ..
    rw [hrun]
    cases e with
    | told t =>
      rw [sinceReset_told]
      have hl := length_sinceReset_le events
      exact ih.after t (by omega)
    | reset =>
      rw [sinceReset_reset]
      exact reports_reset (ofHistory events)

/-- Before the reset a selection; behind it a delete that alone takes the greatest time, one that
fails, and the making of a table. -/
def cleanUp : List Event :=
  [.told ⟨⟨"SELECT * FROM [Log]", 0, .select, .sqlServer, none⟩, 12, .rows 3⟩, .reset,
    .told ⟨⟨"DELETE FROM [Log]", 0, .delete, .sqlServer, none⟩, greatestNanos + 5, .affected 3⟩,
    .told ⟨⟨"DELETE FROM [Users]", 0, .delete, .sqlServer, none⟩, 7, .error "locked"⟩,
    .told ⟨⟨"CREATE TABLE [Log] ([Id] INT)", 0, .ddl, .sqlServer, none⟩, 0, .affected 0⟩]

theorem cleanUp_reported : cleanUp.length < 2 ^ 64 ∧
    Reports (ofHistory cleanUp) (sinceReset cleanUp) ∧
    ofHistory cleanUp =
      { total := 3, failed := 1, delete := 2, totalNanos := word greatestNanos,
        maxNanos := word greatestNanos, slowest := some "DELETE FROM [Log]" } := by
  have h : cleanUp.length < 2 ^ 64 := by decide
  exact ⟨h, stats_of_history cleanUp h, by decide⟩

end SqlWeave.Stats
