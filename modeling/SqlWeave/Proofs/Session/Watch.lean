import SqlWeave.Proofs.Session.Program

/-!
# Watching a program

A watched database keeps a list of what passes between its parts, in the order in which it happens:
what every hook is shown and what it answers, the statements sent, the calls for transactions with
their results, and what every hook is told. Watching changes nothing else.

An *account* says of such a list and of a result whether they go together. Accounts of the parts of
a program make one of the program (`Program.Course`): the parts of the list follow each other as the
parts of the program do, and a transaction is opened before its body and closed behind it.

Results:
* `Database.agree_watched`: a watched database agrees with the one that is not.
* `Database.gives_transaction`: what a transaction gives if its body gives something.
* `Program.gives_course`: if every operation gives its account, a program gives its course, by
  induction on the program.
* `Database.watched_program`, `CancellableDatabase.watched_program`: so it is on either kind of
  database.
-/

namespace SqlWeave

/-! ## What there is to see -/

/-- What passes between the parts of a database. Hooks are numbered in their order. -/
inductive Notice where
  /-- A hook is shown a statement before it is sent, and answers. -/
  | asked (hook : Nat) (c : Context) (answer : Action)
  | sent (c : Channel) (s : Statement)
  /-- A hook is told what became of a statement. -/
  | told (hook : Nat) (c : Context) (o : Outcome)
  /-- The executor got a call for a transaction. -/
  | called (c : TransactionCall) (r : Result Unit)

/-- A state beside what was seen so far. -/
abbrev Watched (ω : Type) := ω × List Notice

/-- A run of which a notice is kept. -/
def Run.watched {ω α : Type} (m : Run ω α) (n : Result α → Notice) : Run (Watched ω) α := fun x =>
  ((m x.1).1, (m x.1).2, x.2 ++ [n (m x.1).1])

/-- The executor whose calls are watched. -/
def Executor.watched {ω : Type} (x : Executor ω) : Executor (Watched ω) where
  execute s := (x.execute s).watched fun _ => .sent .execute s
  query s := (x.query s).watched fun _ => .sent .rows s
  scalar s := (x.scalar s).watched fun _ => .sent .scalar s
  begin := x.begin.watched (.called .begin)
  commit := x.commit.watched (.called .commit)
  rollback := x.rollback.watched (.called .rollback)

/-- The hook that is watched under a number. -/
def Hook.watched {ω : Type} (i : Nat) (h : Hook ω) : Hook (Watched ω) where
  before c x := ((h.before c x.1).1, (h.before c x.1).2, x.2 ++ [.asked i c (h.before c x.1).1])
  after c n o x := (h.after c n o x.1, x.2 ++ [.told i c o])

/-- Hooks that are watched under numbers from one on. -/
def Hook.watchedFrom {ω : Type} : Nat → List (Hook ω) → List (Hook (Watched ω))
  | _, [] => []
  | i, h :: hooks => h.watched i :: watchedFrom (i + 1) hooks

/-- The database whose parts are watched. -/
def Database.watched {ω : Type} (db : Database ω) : Database (Watched ω) where
  config := db.config
  executor := db.executor.watched
  hooks := Hook.watchedFrom 0 db.hooks
  tag := db.tag
  log e x := (db.log e x.1, x.2)
  clock x := db.clock x.1

/-- The database whose parts are watched when its calls can be cancelled. A token of the watched
database stands for one of the database. -/
def CancellableDatabase.watched {ω : Type} (db : CancellableDatabase ω)
    (token : CancelToken (Watched ω) → CancelToken ω) : CancellableDatabase (Watched ω) where
  config := db.config
  executor := fun t => (db.executor (token t)).watched
  hooks := Hook.watchedFrom 0 db.hooks
  tag := db.tag
  log e x := (db.log e x.1, x.2)
  clock x := db.clock x.1

/-! ## Watching changes nothing -/

/-- The state that is watched. -/
def Beneath {ω : Type} (w : ω) (x : Watched ω) : Prop := w = x.1

theorem Run.agree_watched {ω α : Type} (m : Run ω α) (n : Result α → Notice) :
    Agree Beneath m (m.watched n) := by
  rintro _ x rfl
  exact ⟨rfl, rfl⟩

theorem Hook.agree_watchedFrom {ω : Type} (hooks : List (Hook ω)) : ∀ i : Nat,
    List.Forall₂ (Agree Beneath Eq) hooks (watchedFrom i hooks) := by
  induction hooks with
  | nil => exact fun _ => .nil
  | cons h hooks ih =>
    refine fun i => .cons ⟨?_, ?_⟩ (ih (i + 1))
    · rintro c _ x rfl
      exact ⟨rfl, rfl⟩
    · rintro c n _ o _ x rfl rfl
      rfl

/-- **Watching changes nothing.** -/
theorem Database.agree_watched {ω : Type} (db : Database ω) :
    db.Agree Beneath Eq db.watched where
  config := rfl
  tag := rfl
  execute s := Run.agree_watched _ _
  query s := Run.agree_watched _ _
  scalar s := Run.agree_watched _ _
  begin := Run.agree_watched _ _
  commit := Run.agree_watched _ _
  rollback := Run.agree_watched _ _
  hooks := Hook.agree_watchedFrom db.hooks 0
  log e _ _ hx := congrArg (db.log e) hx
  clock := by
    rintro _ v _ x rfl rfl
    rfl

/-! ## Accounts -/

/-- What is seen of a run, and its result, go together. -/
abbrev Account (α : Type) := List Notice → Result α → Prop

namespace Account

variable {α β : Type}

/-- Nothing is seen, and the result is given. -/
def only (r : Result α) : Account α := fun seen r' => seen = [] ∧ r' = r

/-- One account first, and behind it one that depends on the result. -/
def before (A : Account α) (B : Result α → Account β) : Account β := fun seen r =>
  ∃ first s rest, seen = first ++ rest ∧ A first s ∧ B s rest r

/-- An account of a transaction, given one of its body. -/
inductive Bracket (A : Account α) : Account α
  /-- It could not be begun, and nothing else was done. -/
  | refused (e : Error) : Bracket A [.called .begin (.error e)] (.error e)
  /-- The body succeeded, and the transaction was committed, if it could be. -/
  | committed {body : List Notice} {a : α} (c : Result Unit) (h : A body (.ok a)) :
    Bracket A (.called .begin (.ok ()) :: body ++ [.called .commit c]) (c.map fun _ => a)
  /-- The body failed, and the transaction was rolled back, if it could be. -/
  | rolledBack {body : List Notice} {e : Error} (c : Result Unit) (h : A body (.error e)) :
    Bracket A (.called .begin (.ok ()) :: body ++ [.called .rollback c]) (.error e)

end Account

namespace Run

variable {ω α β : Type} {m : Run (Watched ω) α} {A B : Account α}

/-- From every state, what a run adds to what was seen goes together with its result. -/
def Gives (m : Run (Watched ω) α) (A : Account α) : Prop :=
  ∀ w es, ∃ seen, (m (w, es)).2.2 = es ++ seen ∧ A seen (m (w, es)).1

theorem Gives.mono (h : m.Gives A) (hA : ∀ seen r, A seen r → B seen r) : m.Gives B := by
  intro w es
  obtain ⟨seen, hs, ha⟩ := h w es
  exact ⟨seen, hs, hA _ _ ha⟩

theorem gives_ofResult (r : Result α) : (ofResult r : Run (Watched ω) α).Gives (.only r) :=
  fun _ es => ⟨[], (List.append_nil es).symm, rfl, rfl⟩

/-- Runs one after another give their accounts one after another. -/
theorem Gives.resume {f : Result α → Run (Watched ω) β} {F : Result α → Account β}
    (h : m.Gives A) (hf : ∀ r, (f r).Gives (F r)) : (m.resume f).Gives (A.before F) := by
  intro w es
  obtain ⟨first, hfirst, ha⟩ := h w es
  obtain ⟨rest, hrest, hb⟩ := hf (m (w, es)).1 (m (w, es)).2.1 (m (w, es)).2.2
  refine ⟨first ++ rest, ?_, first, _, rest, rfl, ha, hb⟩
  rw [← List.append_assoc, ← hfirst]
  exact hrest

end Run

/-! ## Transactions -/

namespace Database

variable {ω α : Type}

theorem conclude_ok (db : Database ω) (a : α) (w : ω) :
    db.conclude (.ok a, w) = ((db.commit w).1.map fun _ => a, (db.commit w).2) := by
  unfold conclude
  dsimp only
  rw [Run.bind_apply]
  rcases db.commit w with ⟨_ | _, w'⟩ <;> rfl

/-- A call for a transaction is seen with its result. -/
theorem seen_call (db : Database ω) (c : TransactionCall) (x : Watched ω) :
    (db.watched.call c x).2.2 = x.2 ++ [.called c (db.watched.call c x).1] := by
  cases c <;> rfl

theorem gives_call (db : Database ω) (c : TransactionCall) :
    (db.watched.call c).Gives fun seen r => seen = [.called c r] :=
  fun w es => ⟨_, db.seen_call c (w, es), rfl⟩

/-- That a body could not be undone is logged, which is not seen. -/
theorem seen_undo (db : Database ω) (x : Watched ω) :
    (db.watched.undo x).2 = x.2 ++ [.called .rollback (db.watched.rollback x).1] := by
  have h : (db.watched.rollback x).2.2 = x.2 ++ [.called .rollback (db.watched.rollback x).1] :=
    db.seen_call .rollback x
  unfold undo
  rcases hr : db.watched.rollback x with ⟨_ | _, y⟩ <;> rw [hr] at h <;> exact h

/-- **A transaction gives what its body gives, in brackets.** -/
theorem gives_transaction (db : Database ω) {body : Run (Watched ω) α} {A : Account α}
    (h : body.Gives A) : (db.watched.transaction body).Gives A.Bracket := by
  intro w es
  unfold transaction
  have hbegin : (db.watched.begin (w, es)).2.2 =
      es ++ [.called .begin (db.watched.begin (w, es)).1] := db.seen_call .begin (w, es)
  rcases hb : db.watched.begin (w, es) with ⟨e | ⟨⟩, v, opened⟩ <;> rw [hb] at hbegin <;>
    dsimp only at hbegin <;> subst hbegin
  · rw [Run.bind_of_error hb]
    exact ⟨_, rfl, .refused e⟩
  · rw [Run.bind_of_ok hb, Run.step_apply]
    obtain ⟨inner, hi, ha⟩ := h v (es ++ [.called .begin (.ok ())])
    rcases hbody : body (v, es ++ [.called .begin (.ok ())]) with ⟨e | a, y⟩ <;>
      rw [hbody] at hi ha <;> rw [hbody]
    · refine ⟨_, ?_, .rolledBack (db.watched.rollback y).1 ha⟩
      refine (db.seen_undo y).trans ?_
      rw [hi]
      simp only [List.append_assoc, List.cons_append, List.nil_append]
    · rw [db.watched.conclude_ok]
      refine ⟨_, ?_, .committed (db.watched.commit y).1 ha⟩
      refine (db.seen_call .commit y).trans ?_
      rw [hi]
      simp only [List.append_assoc, List.cons_append, List.nil_append]
      rfl

end Database

/-! ## Programs -/

namespace Program

variable {ω τ κ α : Type} {Op : Type → Type 1}

/-- The account of a program, given those of its operations. Its parts are accounted for one after
another, and a transaction has its body in brackets. -/
def Course (A : {β : Type} → Op β → Account β) (calls : κ → TransactionCall) :
    {α : Type} → Program τ κ Op α → Account α
  | _, done r => .only r
  | _, operation _ o next => (A o).before fun r => (next r).Course A calls
  | _, call _ c next =>
    Account.before (fun seen r => seen = [.called (calls c) r]) fun r => (next r).Course A calls
  | _, transaction _ body next =>
    (body.Course A calls).Bracket.before fun r => (next r).Course A calls

/-- **A program gives its course if every operation gives its account.** -/
theorem gives_course (dbs : τ → Database ω) {script : {β : Type} → Op β → Script β}
    {A : {β : Type} → Op β → Account β}
    (h : ∀ (t : τ) {β : Type} (o : Op β), ((script o).run (dbs t).watched).Gives (A o))
    (calls : κ → TransactionCall) (p : Program τ κ Op α) :
    (p.run (.ofScripts (fun t => (dbs t).watched) script calls)).Gives (p.Course A calls) := by
  induction p with
  | done r => exact Run.gives_ofResult r
  | operation t o next ih => exact (h t o).resume ih
  | call t c next ih => exact ((dbs t).gives_call (calls c)).resume ih
  | transaction t body next ihb ih => exact ((dbs t).gives_transaction ihb).resume ih

end Program

/-- **A program on a watched database goes as on the database, and gives its course** if every script
of an operation gives its account. -/
theorem Database.watched_program {ω κ α : Type} (db : Database ω) (calls : κ → TransactionCall)
    {A : {β : Type} → DirectOperation β → Account β}
    (h : ∀ {β : Type} (o : DirectOperation β), ((o.script db.config).run db.watched).Gives (A o))
    (p : Program Unit κ DirectOperation α) :
    Run.Agree Beneath (p.run (db.facade calls)) (p.run (db.watched.facade calls)) ∧
      (p.run (db.watched.facade calls)).Gives (p.Course A calls) := by
  rw [db.facade_eq, db.watched.facade_eq]
  exact ⟨p.agree_run (fun _ => db.agree_watched) _ _, p.gives_course (fun _ => db) (fun _ _ => h) _⟩

/-- The same of a database whose calls can be cancelled: with a token, it is a database. -/
theorem CancellableDatabase.watched_program {ω α : Type} (db : CancellableDatabase ω)
    (token : CancelToken (Watched ω) → CancelToken ω) {A : {β : Type} → Operation β → Account β}
    (h : ∀ t {β : Type} (o : Operation β),
      ((o.script db.config true).run (db.under (token t)).watched).Gives (A o))
    (p : Program (CancelToken (Watched ω)) Empty Operation α) :
    Run.Agree Beneath (p.run (db.facade token)) (p.run ((db.watched token).facade id)) ∧
      (p.run ((db.watched token).facade id)).Gives (p.Course A Empty.elim) := by
  rw [db.facade_eq, (db.watched token).facade_eq]
  exact ⟨p.agree_run (fun t => (db.under (token t)).agree_watched) _ _,
    p.gives_course (fun t => db.under (token t)) (fun t _ => h t) _⟩

end SqlWeave
