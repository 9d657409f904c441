import SqlWeave.Monitor.Hook

/-!
# Statistics of statements

Counts of statements by their kind and outcome, the time they took, and the text of the slowest, all
kept in machine words. A word that is added to wraps around at its greatest number. The sum of the
times is put right where that happens, so it stops there.

Results:
* `of?_count`: a statement is counted under its own kind and no other.
* `toNat_lengthened`: the sum of the times stops at the greatest number.
-/

namespace SqlWeave

/-- Counts of statements by their kind. Statements on tables and others have no count of their
own. -/
structure KindCounts where
  select : UInt64 := 0
  insert : UInt64 := 0
  update : UInt64 := 0
  delete : UInt64 := 0
  upsert : UInt64 := 0
  deriving DecidableEq, Repr, Inhabited

namespace KindCounts

/-- The count of a kind, if it has one. -/
def of? (n : KindCounts) : StatementKind → Option UInt64
  | .select => some n.select
  | .insert => some n.insert
  | .update => some n.update
  | .delete => some n.delete
  | .upsert => some n.upsert
  | .ddl | .other => none

/-- Counts a statement of a kind. -/
def count (n : KindCounts) : StatementKind → KindCounts
  | .select => { n with select := n.select + 1 }
  | .insert => { n with insert := n.insert + 1 }
  | .update => { n with update := n.update + 1 }
  | .delete => { n with delete := n.delete + 1 }
  | .upsert => { n with upsert := n.upsert + 1 }
  | .ddl | .other => n

theorem of?_count (n : KindCounts) (k l : StatementKind) :
    (n.count k).of? l = if k = l then (n.of? l).map (· + 1) else n.of? l := by
  cases k <;> cases l <;> rfl

end KindCounts

/-- Counts and times of the statements so far. Times are in nanoseconds. -/
structure Stats extends KindCounts where
  total : UInt64 := 0
  failed : UInt64 := 0
  totalNanos : UInt64 := 0
  maxNanos : UInt64 := 0
  /-- The first statement that took the greatest time. -/
  slowest : Option String := none
  deriving DecidableEq, Repr, Inhabited

namespace Stats

/-- The greatest time. -/
def greatestNanos : Nat := 2 ^ 64 - 1

/-- A time as a word; a longer one is the greatest. -/
def word (nanos : Nat) : UInt64 := .ofNat (min nanos greatestNanos)

/-- A sum of times and one more. -/
def lengthened (sum nanos : UInt64) : UInt64 :=
  -- a sum beyond the greatest number wraps around, and the greatest number is put in its place
  if greatestNanos < sum.toNat + nanos.toNat then word greatestNanos else sum + nanos

/-- The statistics after a statement. -/
def after (s : Stats) (c : Context) (nanos : Nat) (o : Outcome) : Stats where
  toKindCounts := s.toKindCounts.count c.kind
  total := s.total + 1
  failed := if o.isError then s.failed + 1 else s.failed
  totalNanos := lengthened s.totalNanos (word nanos)
  maxNanos := if s.maxNanos < word nanos then word nanos else s.maxNanos
  slowest := if s.maxNanos < word nanos then some c.sql else s.slowest

/-- The statistics from the beginning. -/
def reset (_ : Stats) : Stats := {}

/-- The hook that keeps the statistics. -/
def hook : Hook Stats where
  before _ s := (.continue, s)
  after c nanos o s := s.after c nanos o

theorem toNat_word (nanos : Nat) : (word nanos).toNat = min nanos greatestNanos :=
  UInt64.toNat_ofNat_of_lt' (Nat.lt_of_le_of_lt (Nat.min_le_right _ _) (by decide))

/-- **The sum of the times stops at the greatest number**, whatever is added to it later. -/
theorem toNat_lengthened (sum nanos : UInt64) :
    (lengthened sum nanos).toNat = min (sum.toNat + nanos.toNat) greatestNanos := by
  unfold lengthened
  split
  · rename_i h
    rw [toNat_word, Nat.min_self, Nat.min_eq_right (Nat.le_of_lt h)]
  · rename_i h
    have hle : sum.toNat + nanos.toNat ≤ greatestNanos := Nat.le_of_not_lt h
    have hlt : greatestNanos < 2 ^ 64 := by decide
    rw [Nat.min_eq_left hle, UInt64.toNat_add, Nat.mod_eq_of_lt (Nat.lt_of_le_of_lt hle hlt)]

end Stats
end SqlWeave
