import SqlWeave.Proofs.Session.Watch

/-!
# Hooks gate statements

Every statement passes the hooks before it is sent. Each of them is asked once, in their order, and
is shown the text that the ones before it leave. If none stops the statement, it is sent once, with
the last text and the values that it had from the beginning, and every hook is told once what became
of it. If one does, nobody after it is asked, nothing is sent, and nobody is told anything.

So what is seen of a whole program is cut into pieces, one for every statement that the program
asks for (`Script.Gated`), with the calls for transactions between them (`Program.Course`).

Results:
* `Hook.answers_ask`, `Hook.seen_tell`: what is seen of hooks that are asked and told.
* `Database.gives_send`: what is seen of one statement.
* `Script.gives_gated`: what is seen of a script, by induction on it.
* `hooks_gate_statements`: what is seen of every program, on either kind of database.
-/

namespace SqlWeave

/-! ## Answers of hooks -/

/-- The answer stops the statement. -/
def Action.stops : Action → Bool
  | .abort _ => true
  | _ => false

/-- The statement as it goes on after an answer. -/
def Context.answered (c : Context) : Action → Context
  | .modify sql => { c with sql := sql }
  | _ => c

/-- The answers of a number of hooks that are asked about a statement in turn, and what comes of
them: the statement as the last hook leaves it, or the reason of the first hook that stops it. -/
inductive Answers : Context → Nat → List Action → Except String Context → Prop
  | none (c : Context) : Answers c 0 [] (.ok c)
  | pass {c : Context} {hooks : Nat} {a : Action} {answers : List Action}
      {r : Except String Context} (h : a.stops = false)
      (rest : Answers (c.answered a) hooks answers r) : Answers c (hooks + 1) (a :: answers) r
  | stop (c : Context) (hooks : Nat) (reason : String) :
    Answers c (hooks + 1) [.abort reason] (.error reason)

namespace Notice

/-- Hooks, numbered from `i` on, are asked in their order. Each is shown the statement as the
answers before its own leave it. -/
def askedFrom : Nat → Context → List Action → List Notice
  | _, _, [] => []
  | i, c, a :: answers => asked i c a :: askedFrom (i + 1) (c.answered a) answers

/-- Hooks, numbered from `i` on, are told what became of a statement. -/
def toldFrom (i hooks : Nat) (c : Context) (o : Outcome) : List Notice :=
  (List.range' i hooks).map fun hook => told hook c o

end Notice

/-! ## The account of a program -/

/-- What a database shows of itself to its hooks, and how many they are. -/
structure Gate where
  dialect : Dialect
  tag : Option String
  hooks : Nat

/-- A statement as it is shown to the first hook. -/
def Gate.context (g : Gate) (s : Statement) (kind : Option StatementKind) : Context :=
  { Context.new s.sql s.params.length g.dialect with
    kind := kind.getD (.ofSql s.sql), tag := g.tag }

open Notice in
/-- The account of a statement that is gated by hooks. -/
inductive Account.Gated (hooks : Nat) (shown : Context) (c : Channel) (values : List Value) :
    Account c.Answer
  /-- Every hook was asked and none stopped it: it was sent with the text that they leave and the
  values that it had, and every hook was told what became of it. -/
  | passed {answers : List Action} {left : Context} (r : Result c.Answer)
      (h : Answers shown hooks answers (.ok left)) :
    Gated hooks shown c values
      (askedFrom 0 shown answers ++ sent c ⟨left.sql, values⟩ ::
        toldFrom 0 hooks left (Database.outcomeOf c.outcome r)) r
  /-- A hook stopped it: no other was asked, nothing was sent and no hook was told anything. -/
  | stopped {answers : List Action} {reason : String}
      (h : Answers shown hooks answers (.error reason)) :
    Gated hooks shown c values (askedFrom 0 shown answers) (.error (Database.aborted reason))

/-- The account of a script of which every statement is gated by hooks. A statement is shown as it
is rendered, and its values are the rendered ones. -/
def Script.Gated {α : Type} (g : Gate) : Script α → Account α
  | done r => .only r
  | send c kind e next =>
    let s := e.render .atSign
    (Account.Gated g.hooks (g.context s kind) c s.params).before fun r => (next r).Gated g
  | record _ next => next.Gated g

/-! ## Hooks that are watched -/

namespace Hook

variable {ω : Type}

/-- **What is seen of hooks that are asked**: their answers, up to the first that stops the
statement. -/
theorem answers_ask (hooks : List (Hook ω)) : ∀ (i : Nat) (c : Context) (x : Watched ω),
    ∃ answers, Answers c hooks.length answers (ask (watchedFrom i hooks) c x).1 ∧
      (ask (watchedFrom i hooks) c x).2.2 = x.2 ++ Notice.askedFrom i c answers := by
  induction hooks with
  | nil => exact fun i c x => ⟨[], .none c, (List.append_nil x.2).symm⟩
  | cons h hooks ih =>
    intro i c x
    unfold watchedFrom ask
    rcases ha : h.before c x.1 with ⟨_ | sql | reason, w⟩ <;> simp only [watched, ha]
    · obtain ⟨answers, hr, hs⟩ := ih (i + 1) c (w, x.2 ++ [.asked i c .continue])
      exact ⟨.continue :: answers, .pass rfl hr, hs.trans (List.append_assoc _ _ _)⟩
    · obtain ⟨answers, hr, hs⟩ := ih (i + 1) { c with sql := sql }
        (w, x.2 ++ [.asked i c (.modify sql)])
      exact ⟨.modify sql :: answers, .pass rfl hr, hs.trans (List.append_assoc _ _ _)⟩
    · exact ⟨[.abort reason], .stop c hooks.length reason, rfl⟩

/-- What is seen of hooks that are told an outcome: all of them are told. -/
theorem seen_tell (hooks : List (Hook ω)) (c : Context) (n : Nat) (o : Outcome) :
    ∀ (i : Nat) (x : Watched ω),
      (tell (watchedFrom i hooks) c n o x).2 = x.2 ++ Notice.toldFrom i hooks.length c o := by
  induction hooks with
  | nil => exact fun i x => (List.append_nil x.2).symm
  | cons h hooks ih =>
    intro i x
    refine (ih (i + 1) ((h.watched i).after c n o x)).trans ?_
    unfold Notice.toldFrom
    rw [List.length_cons, List.range'_succ, List.map_cons]
    exact List.append_assoc _ _ _

end Hook

/-! ## Statements that are watched -/

/-- What a database shows of itself to its hooks. -/
def Database.gate {ω : Type} (db : Database ω) : Gate :=
  ⟨db.config.dialect, db.tag, db.hooks.length⟩

/-- What a database shows of itself to its hooks. -/
def CancellableDatabase.gate {ω : Type} (db : CancellableDatabase ω) : Gate :=
  ⟨db.config.dialect, db.tag, db.hooks.length⟩

namespace Database

variable {ω α : Type}

/-- A call that sends a statement is seen once. -/
theorem seen_call_statement (db : Database ω) (c : Channel) (s : Statement) (x : Watched ω) :
    (db.watched.executor.call c s x).2.2 = x.2 ++ [.sent c s] := by
  cases c with
  | execute => rfl
  | scalar => rfl
  | rows =>
    have hq : (db.watched.executor.query s x).2.2 = x.2 ++ [.sent .rows s] := rfl
    change ((do (← db.watched.executor.query s).readAll : Run (Watched ω) (List Row)) x).2.2 = _
    rcases hr : db.watched.executor.query s x with ⟨err | cursor, y⟩ <;> rw [hr] at hq
    · rw [Run.bind_of_error hr]
      exact hq
    · rw [Run.bind_of_ok hr]
      exact hq

/-- **What is seen of a statement.** -/
theorem gives_send (db : Database ω) (c : Channel) (kind : Option StatementKind)
    (e : Expression) :
    (db.watched.send c kind e).Gives (.Gated db.hooks.length
      (db.gate.context (e.render .atSign) kind) c (e.render .atSign).params) := by
  intro w es
  unfold send perform
  dsimp only
  obtain ⟨answers, hr, hs⟩ := Hook.answers_ask db.hooks 0
    (db.gate.context (e.render .atSign) kind) (w, es)
  change Answers _ _ _ (Hook.ask db.watched.hooks
    (db.watched.context (e.render .atSign) kind) (w, es)).1 at hr
  change (Hook.ask db.watched.hooks
    (db.watched.context (e.render .atSign) kind) (w, es)).2.2 = _ at hs
  rcases ha : Hook.ask db.watched.hooks (db.watched.context (e.render .atSign) kind) (w, es) with
    ⟨reason | left, v, seen⟩ <;> rw [ha] at hr hs <;> dsimp only at hr hs ⊢
  · exact ⟨_, hs, .stopped hr⟩
  · refine ⟨_, (Hook.seen_tell db.hooks left _ _ 0 _).trans ?_, .passed _ hr⟩
    rw [db.seen_call_statement, hs]
    simp only [List.append_assoc, List.cons_append, List.nil_append]

end Database

/-- **What is seen of a script**: every statement of it is gated. -/
theorem Script.gives_gated {ω α : Type} (db : Database ω) (s : Script α) :
    (s.run db.watched).Gives (s.Gated db.gate) := by
  induction s with
  | done r => exact Run.gives_ofResult r
  | send c kind e next ih => exact (db.gives_send c kind e).resume ih
  | record e next ih => exact fun w es => ih (db.log e w) es

/-! ## Programs -/

/-- **Hooks gate every statement of every program**, on a database and on one whose calls can be
cancelled, whatever its hooks and its executor do. An operation is its script, and what is seen of a
program is its course, in which every statement of every script is gated: all hooks are asked before
it is sent and told afterwards, or it is stopped by the last hook that is asked. Being watched
changes neither what a program results in nor the state that it leaves. -/
theorem hooks_gate_statements {ω : Type} (db : Database ω) (adb : CancellableDatabase ω) :
    ((∀ (α : Type) (o : DirectOperation α), o.run db = (o.script db.config).run db) ∧
      ∀ (α : Type) (p : Program Unit TransactionCall DirectOperation α),
        Run.Agree Beneath (p.run (db.facade id)) (p.run (db.watched.facade id)) ∧
        (p.run (db.watched.facade id)).Gives
          (p.Course (fun o => (o.script db.config).Gated db.gate) id)) ∧
    (∀ (t : CancelToken ω) (α : Type) (o : Operation α),
      o.runCancellable adb t = (o.script adb.config true).run (adb.under t)) ∧
    ∀ (token : CancelToken (Watched ω) → CancelToken ω) (α : Type)
      (p : Program (CancelToken (Watched ω)) Empty Operation α),
      Run.Agree Beneath (p.run (adb.facade token)) (p.run ((adb.watched token).facade id)) ∧
      (p.run ((adb.watched token).facade id)).Gives
        (p.Course (fun o => (o.script adb.config true).Gated adb.gate) Empty.elim) := by
  refine ⟨⟨fun α o => o.run_eq db, fun α p => ?_⟩, fun t α o => o.runCancellable_eq adb t,
    fun token α p => ?_⟩
  · exact db.watched_program id (fun o => Script.gives_gated db _) p
  · exact adb.watched_program token (fun t _ o => Script.gives_gated (adb.under (token t)) _) p

end SqlWeave
