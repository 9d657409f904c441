import SqlWeave.Proofs.Session.Gate

/-!
# Transactions are well bracketed

A program that leaves the calls for transactions to the database has them in pairs. A transaction
that was begun is ended once, behind its body and so behind every transaction inside it: committed
if the body succeeded and rolled back if it failed, whatever becomes of that call. One that could
not be begun has no body and no end. This is the course of the program (`Program.Course`) in which
operations make no calls for transactions at all, and what is seen of it is a list of brackets.

Results:
* `Script.gives_quiet`: no operation makes a call for a transaction.
* `Program.bracketed_of_course`: the course of a program without direct calls is well bracketed, by
  induction on the program.
* `transactions_bracketed`: so every program is, on either kind of database.
-/

namespace SqlWeave

/-! ## Lists of brackets -/

/-- The notice is of a call for a transaction. -/
def Notice.isCall : Notice → Bool
  | called _ _ => true
  | _ => false

/-- Every transaction that was begun is ended by one call behind it, and what stands between is well
bracketed itself. A call to begin that fails opens nothing, and other notices do not count. -/
inductive Bracketed : List Notice → Prop
  | nil : Bracketed []
  | quiet {n : Notice} {rest : List Notice} (h : n.isCall = false) (hr : Bracketed rest) :
    Bracketed (n :: rest)
  | refused (e : Error) {rest : List Notice} (hr : Bracketed rest) :
    Bracketed (.called .begin (.error e) :: rest)
  | enclosed {body rest : List Notice} {c : TransactionCall} (r : Result Unit)
      (hb : Bracketed body) (hc : c ≠ .begin) (hr : Bracketed rest) :
    Bracketed (.called .begin (.ok ()) :: body ++ .called c r :: rest)

/-- The account of an operation that makes no call for a transaction. -/
def Account.Quiet {α : Type} : Account α := fun seen _ => ∀ n ∈ seen, n.isCall = false

namespace Bracketed

variable {ns ms : List Notice}

theorem of_quiet (h : ∀ n ∈ ns, n.isCall = false) : Bracketed ns := by
  induction ns with
  | nil => exact .nil
  | cons n ns ih =>
    obtain ⟨hn, hns⟩ := List.forall_mem_cons.mp h
    exact .quiet hn (ih hns)

theorem append (hn : Bracketed ns) (hm : Bracketed ms) : Bracketed (ns ++ ms) := by
  induction hn with
  | nil => exact hm
  | quiet h _ ih => exact .quiet h ih
  | refused e _ ih => exact .refused e ih
  | enclosed r hb hc _ _ ih =>
    rw [List.append_assoc]
    exact .enclosed r hb hc ih

/-- A transaction whose body is well bracketed is so itself. -/
theorem of_bracket {α : Type} {A : Account α} {seen : List Notice} {r : Result α}
    (hA : ∀ seen r, A seen r → Bracketed seen) (h : A.Bracket seen r) : Bracketed seen := by
  cases h with
  | refused e => exact .refused e .nil
  | committed c h => exact .enclosed c (hA _ _ h) (by decide) .nil
  | rolledBack c h => exact .enclosed c (hA _ _ h) (by decide) .nil

end Bracketed

/-! ## Operations make no calls for transactions -/

namespace Notice

theorem isCall_askedFrom : ∀ (i : Nat) (c : Context) (answers : List Action),
    ∀ n ∈ askedFrom i c answers, n.isCall = false
  | _, _, [] => fun _ hn => (by cases hn)
  | i, c, a :: answers =>
    List.forall_mem_cons.mpr ⟨rfl, isCall_askedFrom (i + 1) (c.answered a) answers⟩

theorem isCall_toldFrom (i hooks : Nat) (c : Context) (o : Outcome) :
    ∀ n ∈ toldFrom i hooks c o, n.isCall = false := by
  intro n hn
  obtain ⟨hook, -, rfl⟩ := List.mem_map.mp hn
  rfl

end Notice

theorem Account.Gated.quiet {hooks : Nat} {shown : Context} {c : Channel} {values : List Value}
    {seen : List Notice} {r : Result c.Answer} (h : Account.Gated hooks shown c values seen r) :
    Account.Quiet seen r := by
  cases h with
  | passed r h =>
    exact List.forall_mem_append.mpr ⟨Notice.isCall_askedFrom _ _ _,
      List.forall_mem_cons.mpr ⟨rfl, Notice.isCall_toldFrom _ _ _ _⟩⟩
  | stopped h => exact Notice.isCall_askedFrom _ _ _

/-- **No operation makes a call for a transaction.** -/
theorem Script.gives_quiet {ω α : Type} (db : Database ω) (s : Script α) :
    (s.run db.watched).Gives .Quiet := by
  induction s with
  | done r => exact (Run.gives_ofResult r).mono fun _ _ ⟨h, _⟩ => h ▸ fun _ hn => (by cases hn)
  | send c kind e next ih =>
    refine ((db.gives_send c kind e).resume ih).mono ?_
    rintro _ _ ⟨first, r, rest, rfl, hf, hr⟩
    exact List.forall_mem_append.mpr ⟨hf.quiet, hr⟩
  | record e next ih => exact fun w es => ih (db.log e w) es

/-! ## Programs -/

/-- **The course of a program without direct calls is well bracketed.** -/
theorem Program.bracketed_of_course {τ α : Type} {Op : Type → Type 1} {seen : List Notice}
    {r : Result α} (p : Program τ Empty Op α)
    (h : p.Course (fun _ => Account.Quiet) Empty.elim seen r) : Bracketed seen := by
  induction p generalizing seen with
  | done s =>
    obtain ⟨rfl, -⟩ := h
    exact .nil
  | operation t o next ih =>
    obtain ⟨first, s, rest, rfl, hf, hr⟩ := h
    exact (Bracketed.of_quiet hf).append (ih s hr)
  | call t c next ih => exact c.elim
  | transaction t body next ihb ih =>
    obtain ⟨first, s, rest, rfl, hf, hr⟩ := h
    exact (Bracketed.of_bracket (fun _ _ hb => ihb hb) hf).append (ih s hr)

/-- **Transactions are well bracketed**, on a database and on one whose calls can be cancelled,
whatever the executor and the hooks do. What is seen of a program without direct calls for
transactions is its course. A transaction that could not be begun has nothing but that failure, and
it fails with it. One that was begun has its body behind it and is then ended once: by a commit if
the body succeeded, and then it has the result of the body if the commit succeeded; by a rollback if
the body failed, and then it fails as the body did whatever becomes of the rollback. So what is seen
is well bracketed. -/
theorem transactions_bracketed {ω : Type} (db : Database ω) (adb : CancellableDatabase ω) :
    (∀ (α : Type) (p : Program Unit Empty DirectOperation α),
      Run.Agree Beneath (p.run (db.facade Empty.elim)) (p.run (db.watched.facade Empty.elim)) ∧
      (p.run (db.watched.facade Empty.elim)).Gives fun seen r =>
        p.Course (fun _ => Account.Quiet) Empty.elim seen r ∧ Bracketed seen) ∧
    ∀ (token : CancelToken (Watched ω) → CancelToken ω) (α : Type)
      (p : Program (CancelToken (Watched ω)) Empty Operation α),
      Run.Agree Beneath (p.run (adb.facade token)) (p.run ((adb.watched token).facade id)) ∧
      (p.run ((adb.watched token).facade id)).Gives fun seen r =>
        p.Course (fun _ => Account.Quiet) Empty.elim seen r ∧ Bracketed seen := by
  refine ⟨fun α p => ?_, fun token α p => ?_⟩
  · obtain ⟨ha, hg⟩ := db.watched_program Empty.elim (fun o => Script.gives_quiet db _) p
    exact ⟨ha, hg.mono fun _ _ h => ⟨h, p.bracketed_of_course h⟩⟩
  · obtain ⟨ha, hg⟩ := adb.watched_program token
      (fun t _ o => Script.gives_quiet (adb.under (token t)) _) p
    exact ⟨ha, hg.mono fun _ _ h => ⟨h, p.bracketed_of_course h⟩⟩

end SqlWeave
