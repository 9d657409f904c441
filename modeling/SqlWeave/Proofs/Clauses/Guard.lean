import SqlWeave.Proofs.Clauses.Modification
import SqlWeave.Proofs.Escaping.Phrase

/-!
# The guard of statements that change rows

Options may ask that rows are changed only under a condition. Each engine builds its statements in
its own way, and hands some of them on to others, but every statement that changes rows has passed
checks that ask the guard. Without a condition it refuses, and with one the statement has all
conditions, so nothing but a condition lets a statement pass.

The guard does nothing else: what passes it is the statement that is built without it, and
statements that change no rows are not asked about.

Results:
* `filters_of_perform`: with the guard, a statement that changes rows has a condition.
* `perform_guarded`: with a condition, the guard makes no difference.
* `guard_not_bypassed`: all of it.
-/

namespace SqlWeave

namespace Query

/-- The query with the guard, or without it. -/
def guarded (q : Query) (on : Bool) : Query :=
  { q with config := { q.config with onlySafeModifications := on } }

/-- What a query may be asked to do. -/
inductive Action where
  | select
  | count (column : Option Column)
  | insert (r : Row)
  | insertKey (r : Row) (key : String)
  | insertSelected (source : Query) (columns : List String)
  | bulkInsert (rows : List Row)
  | update (cells : List Cell)
  | delete
  | deleteJoined
  | upsert (rows : List Row) (u : Upsert)

/-- The action changes rows that are there, as the conditions say. -/
def Action.changesRows : Action → Bool
  | update _ | delete | deleteJoined => true
  | _ => false

/-- The statements of an action. -/
def perform (q : Query) : Action → Result (List Expression)
  | .select => q.select.map ([·])
  | .count column => (q.count column).map ([·])
  | .insert r => (q.insert r).map ([·])
  | .insertKey r key => (q.insertKey r key).map ([·])
  | .insertSelected source columns => (q.insertSelected source columns).map ([·])
  | .bulkInsert rows => q.bulkInsert rows
  | .update cells => (q.update cells).map ([·])
  | .delete => q.delete.map ([·])
  | .deleteJoined => q.deleteJoined.map ([·])
  | .upsert rows u => (q.upsert rows u).map ([·])

variable {q : Query} {a : Action}

/-! ## Asking the guard -/

/-- Checks that have passed with the guard have found a condition. -/
theorem filters_of_written {m : Modification} {manyTables : Bool} {xs : List Piece}
    (hg : q.config.onlySafeModifications = true)
    (h : (q.checkModification m manyTables).written q.binding = .ok xs) :
    q.filters.isEmpty = false := by
  obtain ⟨us, vs, -, hv, -⟩ := Phrase.written_append_eq_ok_iff.mp h
  have hpass := Phrase.eq_false_of_written_failIf hv
  rwa [hg, Bool.true_and] at hpass

/-- **With the guard, a statement that changes rows has a condition.** A DELETE from joined tables
that is handed on to another one is asked there. -/
theorem filters_of_perform (hg : q.config.onlySafeModifications = true)
    (ha : a.changesRows = true) {es : List Expression} (h : q.perform a = .ok es) :
    q.filters.isEmpty = false := by
  have hdelete : ∀ {e}, q.delete = .ok e → q.filters.isEmpty = false := fun he =>
    (written_check_delete he).elim fun _ => filters_of_written hg
  cases a with
  | update cells =>
    obtain ⟨e, he, -⟩ := map_eq_ok_iff.mp h
    exact (written_check_update he).elim fun _ => filters_of_written hg
  | delete =>
    obtain ⟨e, he, -⟩ := map_eq_ok_iff.mp h
    exact hdelete he
  | deleteJoined =>
    obtain ⟨e, he, -⟩ := map_eq_ok_iff.mp h
    rcases deleteJoined_cases he with he | ⟨-, ⟨xs, hw⟩, -⟩
    · exact hdelete he
    · exact filters_of_written hg hw
  | _ => cases ha

/-- A statement that changes rows keeps the clauses of its query. -/
theorem keepsClauses_perform (ha : a.changesRows = true) {es : List Expression}
    (h : q.perform a = .ok es) : ∃ e, es = [e] ∧ q.KeepsClauses e := by
  cases a with
  | update cells =>
    obtain ⟨e, he, rfl⟩ := map_eq_ok_iff.mp h
    exact ⟨e, rfl, keepsClauses_update he⟩
  | delete =>
    obtain ⟨e, he, rfl⟩ := map_eq_ok_iff.mp h
    exact ⟨e, rfl, keepsClauses_delete he⟩
  | deleteJoined =>
    obtain ⟨e, he, rfl⟩ := map_eq_ok_iff.mp h
    exact ⟨e, rfl, keepsClauses_deleteJoined he⟩
  | _ => cases ha

/-! ## Passing the guard -/

theorem checkSafe_of_filters (h : q.filters.isEmpty = false) (m : Modification) :
    q.checkSafe m = [] := by
  rw [checkSafe, h, Bool.and_false]
  rfl

/-- A bulk insert is not asked about. -/
theorem bulkInsert_guarded (on : Bool) (rows : List Row) :
    (q.guarded on).bulkInsert rows = q.bulkInsert rows := by
  have hstatements : ∀ (rows : List Row) (n : Nat),
      Block.statements (q.guarded on) n rows = Block.statements q n rows := by
    intro rows
    induction rows with
    | nil => exact fun _ => rfl
    | cons r rows ih =>
      intro n
      rw [Block.statements, ih]
      rfl
  have hblock : (q.guarded on).blockBatch = q.blockBatch := by
    funext rows
    unfold blockBatch
    rw [hstatements]
    rfl
  have hbatch : (q.guarded on).batchPhrase = q.batchPhrase := by
    funext rows
    unfold batchPhrase
    rw [hblock]
    rfl
  unfold bulkInsert bulkBatches
  rw [hbatch]
  rfl

/-- **With a condition the guard makes no difference**, nor to what changes no rows. -/
theorem perform_guarded (h : a.changesRows = true → q.filters.isEmpty = false) (on : Bool) :
    (q.guarded on).perform a = q.perform a := by
  have hsafe : a.changesRows = true → ∀ m,
      (q.inMode q.config.escapeStrings on).checkSafe m = q.checkSafe m := fun ha m =>
    (checkSafe_of_filters (q := q.guarded on) (h ha) m).trans (checkSafe_of_filters (h ha) m).symm
  have hphrase : ∀ {p p' : Phrase}, p' = p →
      (p'.toExpression q.binding).map ([·]) = (p.toExpression q.binding).map ([·]) := by
    rintro p p' rfl
    rfl
  cases a with
  | select => exact hphrase q.selectPhrase_inMode
  | count column => exact hphrase (q.countPhrase_inMode column)
  | insert r => exact hphrase (q.insertPhrase_inMode r)
  | insertKey r key => exact hphrase (q.insertKeyPhrase_inMode r key)
  | insertSelected source columns => rfl
  | bulkInsert rows => exact bulkInsert_guarded on rows
  | update cells => exact hphrase (q.updatePhrase_inMode (hsafe rfl _) cells)
  | delete => exact hphrase (q.deletePhrase_inMode (hsafe rfl _))
  | deleteJoined => exact hphrase (q.deleteJoinedPhrase_inMode (hsafe rfl _))
  | upsert rows u => exact hphrase (q.upsertPhrase_inMode rows u)

/-- **The guard cannot be bypassed, and does nothing else.** With it, rows are not changed if every
condition of the query is empty, and a statement that changes rows has all conditions, as they are
written alone, behind its WHERE. Without it, turning it on makes no difference to a query with a
condition. -/
theorem guard_not_bypassed (q : Query) :
    (q.config.onlySafeModifications = true → ∀ a : Action, a.changesRows = true →
      ((∀ i ∈ q.filters, i.2.isEmpty = true) → ∃ error, q.perform a = .error error) ∧
      ∀ es, q.perform a = .ok es → ∃ e c, es = [e] ∧
        (q.filters.phrase q.scope).toExpression q.binding = .ok c ∧
        e.Contains (.text " WHERE " :: c.pieces)) ∧
    (q.config.onlySafeModifications = false → (∃ i ∈ q.filters, i.2.isEmpty = false) →
      ∀ a : Action, (q.guarded true).perform a = q.perform a) := by
  refine ⟨fun hg a ha => ⟨fun hf => ?_, fun es h => ?_⟩, fun _ ⟨i, hi, hne⟩ a => ?_⟩
  · cases h : q.perform a with
    | error e => exact ⟨e, rfl⟩
    | ok es =>
      have hsome := filters_of_perform hg ha h
      rw [ConditionGroup.isEmpty, List.all_eq_true.mpr hf] at hsome
      cases hsome
  · obtain ⟨e, rfl, hk⟩ := keepsClauses_perform ha h
    obtain ⟨c, hc, he⟩ := hk.filters (filters_of_perform hg ha h)
    exact ⟨e, c, rfl, hc, he⟩
  · have hf : q.filters.isEmpty = false := by
      refine Bool.eq_false_iff.mpr fun hf => ?_
      rw [List.all_eq_true.mp hf i hi] at hne
      cases hne
    exact perform_guarded (fun _ => hf) true

/-- Invoices and their customers, under conditions that are all empty. -/
def anyInvoices : Query :=
  { cityInvoices.guarded true with
    filters := [(.and, .and []), (.or, .not (.or [.and []])), (.and, .expression .empty)] }

theorem guard_not_bypassed_invoices :
    (anyInvoices.config.onlySafeModifications = true ∧
      (∀ i ∈ anyInvoices.filters, i.2.isEmpty = true) ∧
      ∃ error, anyInvoices.perform .delete = .error error) ∧
    ((cityInvoices.guarded true).config.onlySafeModifications = true ∧
      (cityInvoices.guarded true).perform (.update [⟨"due", .value (.bool true)⟩]) =
        .ok [dueInvoices] ∧
      ∃ e c, [dueInvoices] = [e] ∧
        (cityInvoices.filters.phrase (cityInvoices.guarded true).scope).toExpression
          (cityInvoices.guarded true).binding = .ok c ∧
        e.Contains (.text " WHERE " :: c.pieces)) ∧
    cityInvoices.config.onlySafeModifications = false ∧
      (∃ i ∈ cityInvoices.filters, i.2.isEmpty = false) ∧
      (cityInvoices.guarded true).perform .delete = cityInvoices.perform .delete := by
  have hempty : ∀ i ∈ anyInvoices.filters, i.2.isEmpty = true := by decide
  have hsome : ∃ i ∈ cityInvoices.filters, i.2.isEmpty = false :=
    ⟨_, List.mem_singleton_self _, rfl⟩
  have hdue : (cityInvoices.guarded true).update [⟨"due", .value (.bool true)⟩] =
      .ok dueInvoices := Phrase.toExpression_of_normal rfl rfl
  have hok : (cityInvoices.guarded true).perform (.update [⟨"due", .value (.bool true)⟩]) =
      .ok [dueInvoices] := congrArg (Except.map ([·])) hdue
  exact ⟨⟨rfl, hempty, ((guard_not_bypassed anyInvoices).1 rfl .delete rfl).1 hempty⟩,
    ⟨rfl, hok, ((guard_not_bypassed (cityInvoices.guarded true)).1 rfl _ rfl).2 _ hok⟩,
    rfl, hsome, (guard_not_bypassed cityInvoices).2 rfl hsome .delete⟩

end Query
end SqlWeave
