import SqlWeave.Proofs.Session.Ahead
import SqlWeave.Sample.Shelf
import SqlWeave.Session.Tape

/-!
# What a database is seen to do

A database is seen from two sides: its executor gets calls, and its hooks are shown statements and
outcomes. A traced database keeps all of that in a list, in the order in which it happens; durations
are left out.

With traces, a database whose calls can be cancelled is compared to one whose calls cannot. Where
calls, hooks and logs agree, every operation is seen to do the same on both, with the same result.
A selection that loads foreign members sends its queries ahead on the first kind and one by one on
the second, so there the comparison holds for success only.

Results:
* `Database.Agree.traced`: databases that agree have traces that agree.
* `runCancellable_eq`: an operation with a token is the operation on the database that holds the
  token, but for the way in which foreign members are loaded.
* `facades_agree`: the two kinds of database agree.
-/

namespace SqlWeave

/-- What can be seen of a database. Hooks are numbered in their order. -/
inductive Event where
  | execute (s : Statement)
  | query (s : Statement)
  | scalar (s : Statement)
  | begin
  | commit
  | rollback
  /-- A hook is shown a statement before it is sent. -/
  | before (hook : Nat) (c : Context)
  /-- A hook is shown a statement with its outcome. -/
  | after (hook : Nat) (c : Context) (o : Outcome)

/-- A state beside what was seen so far. -/
abbrev Traced (ω : Type) := ω × List Event

namespace Run

variable {ω ω' α : Type} {R : ω → ω' → Prop} {m : Run ω α} {m' : Run ω' α}

/-- A run that is seen as an event. -/
def seen (e : Event) (m : Run ω α) : Run (Traced ω) α := fun x =>
  let (r, w) := m x.1
  (r, w, x.2 ++ [e])

/-- Related states, of which the same was seen. -/
def SameSeen (R : ω → ω' → Prop) (x : Traced ω) (x' : Traced ω') : Prop := R x.1 x'.1 ∧ x.2 = x'.2

theorem Agree.seen (h : Agree R m m') (e : Event) : Agree (SameSeen R) (m.seen e) (m'.seen e) := by
  rintro ⟨w, es⟩ ⟨w', _⟩ ⟨hw, rfl⟩
  obtain ⟨hr, hs⟩ := h w w' hw
  exact ⟨hr, hs, rfl⟩

theorem agree_seen (m : Run ω α) (e : Event) :
    Agree (fun w (x : Traced ω) => w = x.1) m (m.seen e) := by
  rintro _ ⟨w, es⟩ rfl
  exact ⟨rfl, rfl⟩

end Run

/-- The executor whose calls are seen. -/
def Executor.traced {ω : Type} (x : Executor ω) : Executor (Traced ω) where
  execute s := (x.execute s).seen (.execute s)
  query s := (x.query s).seen (.query s)
  scalar s := (x.scalar s).seen (.scalar s)
  begin := x.begin.seen .begin
  commit := x.commit.seen .commit
  rollback := x.rollback.seen .rollback

namespace Hook

variable {ω ω' : Type} {R : ω → ω' → Prop} {D : Nat → Nat → Prop}

/-- The hook that is seen under a number. -/
def traced (i : Nat) (h : Hook ω) : Hook (Traced ω) where
  before c x :=
    let (a, w) := h.before c x.1
    (a, w, x.2 ++ [.before i c])
  after c n o x := (h.after c n o x.1, x.2 ++ [.after i c o])

/-- Hooks that are seen under numbers from one on. -/
def tracedFrom : Nat → List (Hook ω) → List (Hook (Traced ω))
  | _, [] => []
  | i, h :: hooks => h.traced i :: tracedFrom (i + 1) hooks

theorem Agree.traced {h : Hook ω} {h' : Hook ω'} (hh : h.Agree R D h') (i : Nat) :
    (h.traced i).Agree (Run.SameSeen R) D (h'.traced i) where
  before := by
    rintro c ⟨w, es⟩ ⟨w', _⟩ ⟨hw, rfl⟩
    obtain ⟨ha, hs⟩ := hh.before c w w' hw
    exact ⟨ha, hs, rfl⟩
  after := by
    rintro c n n' o ⟨w, es⟩ ⟨w', _⟩ hn ⟨hw, rfl⟩
    exact ⟨hh.after c n n' o w w' hn hw, rfl⟩

theorem agree_tracedFrom {hooks : List (Hook ω)} {hooks' : List (Hook ω')}
    (hh : List.Forall₂ (Agree R D) hooks hooks') : ∀ i : Nat,
      List.Forall₂ (Agree (Run.SameSeen R) D) (tracedFrom i hooks) (tracedFrom i hooks') := by
  induction hh with
  | nil => exact fun _ => .nil
  | cons h _ ih => exact fun i => .cons (h.traced i) (ih (i + 1))

theorem agree_traced (hooks : List (Hook ω)) : ∀ i : Nat,
    List.Forall₂ (Agree (fun w (x : Traced ω) => w = x.1) Eq) hooks (tracedFrom i hooks) := by
  induction hooks with
  | nil => exact fun _ => .nil
  | cons h hooks ih =>
    refine fun i => .cons ⟨?_, ?_⟩ (ih (i + 1))
    · rintro c _ ⟨w, es⟩ rfl
      exact ⟨rfl, rfl⟩
    · rintro c n _ o _ ⟨w, es⟩ rfl rfl
      rfl

end Hook

namespace Database

variable {ω ω' : Type} {R : ω → ω' → Prop} {D : Nat → Nat → Prop} {db : Database ω}
  {db' : Database ω'}

/-- The database whose calls and hooks are seen. -/
def traced (db : Database ω) : Database (Traced ω) where
  config := db.config
  executor := db.executor.traced
  hooks := Hook.tracedFrom 0 db.hooks
  tag := db.tag
  log e x := (db.log e x.1, x.2)
  clock x := db.clock x.1

/-- **Databases that agree are seen to do the same.** -/
theorem Agree.traced (h : db.Agree R D db') : db.traced.Agree (Run.SameSeen R) D db'.traced where
  config := h.config
  tag := h.tag
  execute s := (h.execute s).seen _
  query s := (h.query s).seen _
  scalar s := (h.scalar s).seen _
  begin := h.begin.seen _
  commit := h.commit.seen _
  rollback := h.rollback.seen _
  hooks := Hook.agree_tracedFrom h.hooks 0
  log e _ _ hx := ⟨h.log e _ _ hx.1, hx.2⟩
  clock _ _ _ _ hv hw := h.clock _ _ _ _ hv.1 hw.1

/-- A database agrees with itself where it is seen. -/
theorem agree_traced (db : Database ω) :
    db.Agree (fun w (x : Traced ω) => w = x.1) Eq db.traced where
  config := rfl
  tag := rfl
  execute s := Run.agree_seen _ _
  query s := Run.agree_seen _ _
  scalar s := Run.agree_seen _ _
  begin := Run.agree_seen _ _
  commit := Run.agree_seen _ _
  rollback := Run.agree_seen _ _
  hooks := Hook.agree_traced db.hooks 0
  log e _ _ hx := congrArg (db.log e) hx
  clock := by
    rintro _ v _ w rfl rfl
    rfl

end Database

/-! ## Databases whose calls can be cancelled -/

namespace CancellableDatabase

variable {ω α : Type}

/-- The database whose calls, made with a token, and hooks are seen. -/
def traced (db : CancellableDatabase ω) (t : CancelToken ω) : CancellableDatabase (Traced ω) where
  config := db.config
  executor := fun _ => (db.executor t).traced
  hooks := Hook.tracedFrom 0 db.hooks
  tag := db.tag
  log e x := (db.log e x.1, x.2)
  clock x := db.clock x.1

theorem under_traced (db : CancellableDatabase ω) (t : CancelToken ω)
    (t' : CancelToken (Traced ω)) : (db.traced t).under t' = (db.under t).traced := rfl

theorem executeAll_under (db : CancellableDatabase ω) (t : CancelToken ω) (kind : StatementKind) :
    ∀ statements : List Expression,
      db.executeAll t kind statements = (db.under t).executeAll kind statements
  | [] => rfl
  | e :: rest => by
    rw [executeAll, Database.executeAll, executeAll_under db t kind rest]
    rfl

theorem insertRecord_under (db : CancellableDatabase ω) (t : CancelToken ω) (e : Entity α) (a : α) :
    db.insertRecord t e a = (db.under t).insertRecord e a := by
  unfold insertRecord Database.insertRecord
  cases e.columns.find? (·.isGenerated) <;> rfl

theorem bulkInsert_under (db : CancellableDatabase ω) (t : CancelToken ω) (table : TableName)
    (rows : List Row) : db.bulkInsert t table rows = (db.under t).bulkInsert table rows := by
  have hall : db.executeAll t .insert = (db.under t).executeAll .insert :=
    funext (db.executeAll_under t .insert)
  unfold bulkInsert Database.bulkInsert
  rw [hall]
  rfl

/-- A transaction with a token is one of the database that holds it. -/
theorem transaction_under (db : CancellableDatabase ω) (t : CancelToken ω) (body : Run ω α) :
    db.transaction t body = (db.under t).transaction body := by
  funext w
  unfold transaction Database.transaction Database.begin
  rw [bind_assoc]
  refine congrFun (congrArg _ (funext fun _ => congrArg _ (funext fun _ => ?_))) w
  funext w
  rw [Run.step_apply, Run.step_apply]
  rcases body w with ⟨e | a, w₁⟩
  · change _ = (Except.error e, (db.under t).undo w₁)
    unfold Database.undo
    have hr : (do db.record .rolledBack; (db.executor t).rollback : Run ω Unit) =
        (db.under t).rollback := rfl
    dsimp only
    rw [hr]
    rcases (db.under t).rollback w₁ with ⟨_ | _, w₂⟩ <;> rfl
  · have hc : (do db.record .committed; (db.executor t).commit; pure a : Run ω α) =
        (do (db.under t).commit; pure a) := rfl
    dsimp only
    rw [hc]
    rfl

/-- **An operation with a token is the operation on the database that holds it**, unless it loads
foreign members. -/
theorem runCancellable_eq (db : CancellableDatabase ω) (t : CancelToken ω) (o : Operation α)
    (h : o.loads db.config = false) : o.runCancellable db t = o.run (db.under t) := by
  cases o with
  | select e q => exact (db.under t).selectAhead_of_off h e q
  | selectAll e => exact (db.under t).selectAhead_of_off h e _
  | insertRecord e a => exact db.insertRecord_under t e a
  | bulkInsert table rs => exact db.bulkInsert_under t table rs
  | _ => rfl

/-- An operation with a token succeeds and fails with the operation on the database that holds
it. -/
theorem runCancellable_onSuccess (db : CancellableDatabase ω) (t : CancelToken ω)
    (o : Operation α) : Run.AgreeOnSuccess Eq (o.run (db.under t)) (o.runCancellable db t) := by
  by_cases h : o.loads db.config = false
  · rw [db.runCancellable_eq t o h]
    rintro w _ rfl
    exact ⟨fun a ha => ⟨ha, rfl⟩, fun e he => ⟨e, he⟩⟩
  · cases o with
    | select e q => exact (db.under t).select_onSuccess e q
    | selectAll e => exact (db.under t).select_onSuccess e _
    | _ => exact absurd rfl h

end CancellableDatabase

/-! ## The two kinds of database -/

/-- **A database and one whose calls can be cancelled agree.** Let their calls, hooks, logs and
clocks agree, as far as a relation on states and one on durations say; with the same parts on both
sides both relations may be equality. From related states, and with the same seen so far, every
operation is seen to make the same calls and to show every hook the same, and it has the same result
and leaves related states; one that loads foreign members does so whenever it succeeds without
tokens, and it fails with tokens exactly where it fails without. A transaction agrees in the same
sense as its body does. -/
theorem facades_agree {ω ω' : Type} {R : ω → ω' → Prop} {D : Nat → Nat → Prop} {db : Database ω}
    {adb : CancellableDatabase ω'} {t : CancelToken ω'} (h : db.Agree R D (adb.under t))
    (t' : CancelToken (Traced ω')) :
    (∀ (α : Type) (o : Operation α),
      Run.AgreeOnSuccess (Run.SameSeen R) (o.run db.traced)
        (o.runCancellable (adb.traced t) t') ∧
      (o.loads db.config = false →
        Run.Agree (Run.SameSeen R) (o.run db.traced) (o.runCancellable (adb.traced t) t'))) ∧
    ∀ (α : Type) (body : Run (Traced ω) α) (body' : Run (Traced ω') α),
      (Run.Agree (Run.SameSeen R) body body' →
        Run.Agree (Run.SameSeen R) (db.traced.transaction body)
          ((adb.traced t).transaction t' body')) ∧
      (Run.AgreeOnSuccess (Run.SameSeen R) body body' →
        Run.AgreeOnSuccess (Run.SameSeen R) (db.traced.transaction body)
          ((adb.traced t).transaction t' body')) := by
  have ht : db.traced.Agree (Run.SameSeen R) D ((adb.traced t).under t') := by
    rw [adb.under_traced t t']
    exact h.traced
  refine ⟨fun α o => ⟨?_, fun hl => ?_⟩, fun α body body' => ⟨fun hb => ?_, fun hb => ?_⟩⟩
  · exact (o.agree_run ht).trans_onSuccess ((adb.traced t).runCancellable_onSuccess t' o)
  · have hc : (adb.traced t).config = db.config := h.config
    rw [(adb.traced t).runCancellable_eq t' o (hc ▸ hl)]
    exact o.agree_run ht
  · rw [(adb.traced t).transaction_under t' body']
    exact ht.transaction hb
  · rw [(adb.traced t).transaction_under t' body']
    exact ht.transaction_onSuccess hb

/-! ## A shelf -/

/-- Books on a tape, with a hook that marks every statement. -/
def shelf : Database Tape where
  config := { Config.new .sqlite with loadForeign := true }
  executor := Tape.executor .none
  hooks := [.reword fun sql => "/* shelf */ " ++ sql]

/-- The same books, taken from the shelf by calls that can be cancelled, with a clock that runs. -/
def slowShelf : CancellableDatabase Tape where
  config := shelf.config
  executor := fun _ => shelf.executor
  hooks := shelf.hooks
  clock := fun t => 1000 * t.sent.length

/-- A book whose author is its editor. -/
def shelfTape : Tape where
  results := [
    .ofLines ["Id", "Title", "AuthorId", "EditorId"] [[.int 1, .text "A", .int 2, .int 2]],
    .ofLines ["Id", "Name"] [[.int 2, .text "Ana"]]]

/-- A token that asks every call to end. -/
def CancelToken.always {ω : Type} : CancelToken ω := ⟨fun _ => true, id, fun _ => rfl⟩

theorem shelf_agree : shelf.Agree Eq (fun _ _ => True) (slowShelf.under .always) where
  config := rfl
  tag := rfl
  execute s := by rintro w _ rfl; exact ⟨rfl, rfl⟩
  query s := by rintro w _ rfl; exact ⟨rfl, rfl⟩
  scalar s := by rintro w _ rfl; exact ⟨rfl, rfl⟩
  begin := by rintro w _ rfl; exact ⟨rfl, rfl⟩
  commit := by rintro w _ rfl; exact ⟨rfl, rfl⟩
  rollback := by rintro w _ rfl; exact ⟨rfl, rfl⟩
  hooks := by
    refine .cons ⟨?_, ?_⟩ .nil
    · rintro c w _ rfl
      exact ⟨rfl, rfl⟩
    · rintro c n n' o w _ - rfl
      rfl
  log := by rintro e w _ rfl; rfl
  clock := fun _ _ _ _ _ _ => trivial

theorem shelves_agree :
    ((Operation.selectAll Sample.Book.entity).run shelf.traced (shelfTape, [])).1 =
        .ok [⟨1, some "A", some ⟨2, "Ana"⟩, some ⟨2, "Ana"⟩⟩] ∧
      Run.AgreeOnSuccess (Run.SameSeen Eq)
        ((Operation.selectAll Sample.Book.entity).run shelf.traced)
        ((Operation.selectAll Sample.Book.entity).runCancellable
          (slowShelf.traced .always) .always) :=
  ⟨rfl, ((facades_agree shelf_agree .always).1 _ (.selectAll Sample.Book.entity)).1⟩

end SqlWeave
