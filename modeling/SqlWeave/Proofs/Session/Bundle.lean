import SqlWeave.Proofs.Session.Watch

/-!
# Grouping hooks is not observed

Hooks may be registered one by one, or bundled into hooks that run several, bundles of bundles
included. A bundle answers for its hooks together: it says that it leaves the statement as it is
where the text at the end is the text at the beginning, whatever was put in its place meanwhile.

Since hooks change nothing of a statement but its text, no hook can tell the difference, nor can
anything else: in place of a bundle its hooks may stand one by one.

Results:
* `Hook.eq_of_ask`: a statement that hooks let pass differs from what it was in its text alone.
* `Hook.ask_all_cons`, `Hook.tell_all_cons`: a bundle in front of hooks is its hooks in front of
  them.
* `HookTree.ask_hooks`, `HookTree.tell_hooks`: bundles of any depth are their leaves, by induction on
  the trees.
* `bundling_unobserved`: no program sees the difference, and no hook at a leaf does.
-/

namespace SqlWeave

/-! ## One bundle -/

namespace Hook

variable {ω : Type}

/-- **Hooks change nothing of a statement but its text.** -/
theorem eq_of_ask {hooks : List (Hook ω)} : ∀ {c c' : Context} {s s' : ω},
    ask hooks c s = (.ok c', s') → c' = { c with sql := c'.sql } := by
  induction hooks with
  | nil =>
    intro c c' s s' h
    cases h
    rfl
  | cons h hooks ih =>
    intro c c' s s' ha
    unfold ask at ha
    rcases hb : h.before c s with ⟨_ | sql | reason, s₁⟩ <;> rw [hb] at ha
    · exact ih ha
    · have hc : c' = { { c with sql := sql } with sql := c'.sql } := ih ha
      exact hc
    · cases ha

/-- **A bundle is asked as its hooks are.** -/
theorem ask_all_cons (hooks more : List (Hook ω)) (c : Context) (s : ω) :
    ask (all hooks :: more) c s = ask (hooks ++ more) c s := by
  rw [ask_append, ask, all]
  dsimp only
  rcases ha : ask hooks c s with ⟨reason | c', s'⟩
  · rfl
  · have hc := eq_of_ask ha
    dsimp only
    by_cases hsql : c'.sql = c.sql
    · -- What was rewritten was rewritten back, and the statement is the one it was.
      rw [if_pos hsql]
      rw [hsql] at hc
      rw [hc]
    · rw [if_neg hsql]
      dsimp only
      rw [← hc]

/-- A bundle is told as its hooks are. -/
theorem tell_all_cons (hooks more : List (Hook ω)) (c : Context) (nanos : Nat) (o : Outcome)
    (s : ω) : tell (all hooks :: more) c nanos o s = tell (hooks ++ more) c nanos o s := by
  rw [tell_append]
  rfl

theorem watchedFrom_append (hooks more : List (Hook ω)) : ∀ i : Nat,
    watchedFrom i (hooks ++ more) =
      watchedFrom i hooks ++ watchedFrom (i + hooks.length) more := by
  induction hooks with
  | nil => exact fun _ => rfl
  | cons h hooks ih =>
    intro i
    rw [List.cons_append, watchedFrom, watchedFrom, ih (i + 1), List.cons_append,
      List.length_cons, Nat.add_assoc, Nat.add_comm 1]

end Hook

/-! ## Bundles of bundles -/

/-- A hook, or a bundle of trees. -/
inductive HookTree (ω : Type) where
  | leaf (h : Hook ω)
  | bundle (ts : List (HookTree ω))

namespace HookTree

variable {ω : Type}

mutual

/-- The hook that a tree is. -/
def hook : HookTree ω → Hook ω
  | leaf h => h
  | bundle ts => .all (hooks ts)

/-- The hooks that trees are. -/
def hooks : List (HookTree ω) → List (Hook ω)
  | [] => []
  | t :: ts => t.hook :: hooks ts

end

mutual

/-- The hooks at the leaves of a tree, in their order. -/
def leaves : HookTree ω → List (Hook ω)
  | leaf h => [h]
  | bundle ts => leavesAll ts

/-- The hooks at the leaves of trees, in their order. -/
def leavesAll : List (HookTree ω) → List (Hook ω)
  | [] => []
  | t :: ts => t.leaves ++ leavesAll ts

end

mutual

/-- The tree with every leaf watched, under numbers from one on. -/
def watchedFrom : Nat → HookTree ω → HookTree (Watched ω)
  | i, leaf h => leaf (h.watched i)
  | i, bundle ts => bundle (allWatchedFrom i ts)

/-- The trees with every leaf watched, under numbers from one on. -/
def allWatchedFrom : Nat → List (HookTree ω) → List (HookTree (Watched ω))
  | _, [] => []
  | i, t :: ts => t.watchedFrom i :: allWatchedFrom (i + t.leaves.length) ts

end

mutual

/-- A tree in front of hooks is asked as its leaves in front of them are. -/
theorem ask_hook_cons : ∀ (t : HookTree ω) (more : List (Hook ω)) (c : Context) (s : ω),
    Hook.ask (t.hook :: more) c s = Hook.ask (t.leaves ++ more) c s
  | leaf _, _, _, _ => rfl
  | bundle ts, more, c, s => by
    rw [hook, leaves, Hook.ask_all_cons, Hook.ask_append, Hook.ask_append, ask_hooks ts]

/-- **Trees are asked as their leaves are.** -/
theorem ask_hooks : ∀ (ts : List (HookTree ω)) (c : Context) (s : ω),
    Hook.ask (hooks ts) c s = Hook.ask (leavesAll ts) c s
  | [], _, _ => rfl
  | t :: ts, c, s => by
    rw [hooks, leavesAll, ask_hook_cons t, Hook.ask_append, Hook.ask_append]
    simp only [ask_hooks ts]

end

mutual

/-- A tree in front of hooks is told as its leaves in front of them are. -/
theorem tell_hook_cons : ∀ (t : HookTree ω) (more : List (Hook ω)) (c : Context) (nanos : Nat)
    (o : Outcome) (s : ω),
    Hook.tell (t.hook :: more) c nanos o s = Hook.tell (t.leaves ++ more) c nanos o s
  | leaf _, _, _, _, _, _ => rfl
  | bundle ts, more, c, nanos, o, s => by
    rw [hook, leaves, Hook.tell_all_cons, Hook.tell_append, Hook.tell_append, tell_hooks ts]

/-- **Trees are told as their leaves are.** -/
theorem tell_hooks : ∀ (ts : List (HookTree ω)) (c : Context) (nanos : Nat) (o : Outcome) (s : ω),
    Hook.tell (hooks ts) c nanos o s = Hook.tell (leavesAll ts) c nanos o s
  | [], _, _, _, _ => rfl
  | t :: ts, c, nanos, o, s => by
    rw [hooks, leavesAll, tell_hook_cons t, Hook.tell_append, Hook.tell_append, tell_hooks ts]

end

mutual

theorem leaves_watchedFrom : ∀ (t : HookTree ω) (i : Nat),
    (t.watchedFrom i).leaves = Hook.watchedFrom i t.leaves
  | leaf _, _ => rfl
  | bundle ts, i => by
    rw [watchedFrom, leaves, leaves]
    exact leavesAll_watchedFrom ts i

/-- The leaves of watched trees are the watched leaves. -/
theorem leavesAll_watchedFrom : ∀ (ts : List (HookTree ω)) (i : Nat),
    leavesAll (allWatchedFrom i ts) = Hook.watchedFrom i (leavesAll ts)
  | [], _ => rfl
  | t :: ts, i => by
    rw [allWatchedFrom, leavesAll, leavesAll, leaves_watchedFrom t i,
      leavesAll_watchedFrom ts (i + t.leaves.length), Hook.watchedFrom_append]

end

end HookTree

/-! ## Databases with other hooks -/

/-- The database with other hooks. -/
def Database.withHooks {ω : Type} (db : Database ω) (hooks : List (Hook ω)) : Database ω :=
  { db with hooks := hooks }

/-- The database with other hooks. -/
def CancellableDatabase.withHooks {ω : Type} (db : CancellableDatabase ω)
    (hooks : List (Hook ω)) : CancellableDatabase ω := { db with hooks := hooks }

/-- **Bundles are not observed in a script**: whatever is done with trees of hooks is done alike with
their leaves. -/
theorem Script.run_hooks {ω α : Type} (db : Database ω) (ts : List (HookTree ω)) (s : Script α) :
    s.run (db.withHooks (HookTree.hooks ts)) = s.run (db.withHooks (HookTree.leavesAll ts)) := by
  have hlog : (db.withHooks (HookTree.hooks ts)).log =
      (db.withHooks (HookTree.leavesAll ts)).log := rfl
  refine run_congr _ _ (fun c kind e => ?_) hlog s
  funext w
  unfold Database.send Database.perform Database.withHooks
  simp only [HookTree.ask_hooks, HookTree.tell_hooks]
  rfl

/-- Programs find a database with bundles as they find one with the leaves. -/
theorem Database.facade_hooks {ω κ : Type} (db : Database ω) (ts : List (HookTree ω))
    (calls : κ → TransactionCall) :
    (db.withHooks (HookTree.hooks ts)).facade calls =
      (db.withHooks (HookTree.leavesAll ts)).facade calls := by
  rw [facade_eq, facade_eq]
  unfold Facade.ofScripts
  simp only [Script.run_hooks db ts]
  rfl

/-- Programs find a database whose calls can be cancelled with bundles as they find one with the
leaves. -/
theorem CancellableDatabase.facade_hooks {ω τ : Type} (db : CancellableDatabase ω)
    (ts : List (HookTree ω)) (token : τ → CancelToken ω) :
    (db.withHooks (HookTree.hooks ts)).facade token =
      (db.withHooks (HookTree.leavesAll ts)).facade token := by
  have hrun (t : τ) {α : Type} (s : Script α) :
      s.run ((db.withHooks (HookTree.hooks ts)).under (token t)) =
        s.run ((db.withHooks (HookTree.leavesAll ts)).under (token t)) :=
    Script.run_hooks (db.under (token t)) ts s
  rw [facade_eq, facade_eq]
  unfold Facade.ofScripts
  simp only [hrun]
  rfl

/-- The database with bundles of which every leaf is watched. -/
def Database.watchedLeaves {ω : Type} (db : Database ω) (ts : List (HookTree ω)) :
    Database (Watched ω) := db.watched.withHooks (HookTree.hooks (HookTree.allWatchedFrom 0 ts))

/-- The database with bundles of which every leaf is watched, when its calls can be cancelled. -/
def CancellableDatabase.watchedLeaves {ω : Type} (db : CancellableDatabase ω)
    (token : CancelToken (Watched ω) → CancelToken ω) (ts : List (HookTree ω)) :
    CancellableDatabase (Watched ω) :=
  (db.watched token).withHooks (HookTree.hooks (HookTree.allWatchedFrom 0 ts))

/-- **Bundling hooks is not observed.** Trees of hooks, bundles in bundles to any depth, let the same
statements pass with the same text as their leaves, stop the others for the same reasons, and are
told of outcomes alike. So every program has the same result and leaves the same state with the
trees as with the leaves one by one, and what the leaves are shown, answer and are told, in which
order and between which calls of the executor, is the same too. This holds of a database and of one
whose calls can be cancelled. -/
theorem bundling_unobserved {ω : Type} (ts : List (HookTree ω)) (db : Database ω)
    (adb : CancellableDatabase ω) :
    (∀ (c : Context) (s : ω),
      Hook.ask (HookTree.hooks ts) c s = Hook.ask (HookTree.leavesAll ts) c s) ∧
    (∀ (c : Context) (nanos : Nat) (o : Outcome) (s : ω),
      Hook.tell (HookTree.hooks ts) c nanos o s = Hook.tell (HookTree.leavesAll ts) c nanos o s) ∧
    (∀ (α : Type) (p : Program Unit TransactionCall DirectOperation α),
      p.run ((db.withHooks (HookTree.hooks ts)).facade id) =
        p.run ((db.withHooks (HookTree.leavesAll ts)).facade id) ∧
      p.run ((db.watchedLeaves ts).facade id) =
        p.run ((db.withHooks (HookTree.leavesAll ts)).watched.facade id)) ∧
    ∀ (token : CancelToken (Watched ω) → CancelToken ω) (α : Type)
      (p : Program (CancelToken (Watched ω)) Empty Operation α),
      p.run ((adb.withHooks (HookTree.hooks ts)).facade token) =
        p.run ((adb.withHooks (HookTree.leavesAll ts)).facade token) ∧
      p.run ((adb.watchedLeaves token ts).facade id) =
        p.run (((adb.withHooks (HookTree.leavesAll ts)).watched token).facade id) := by
  refine ⟨HookTree.ask_hooks ts, HookTree.tell_hooks ts, fun α p => ⟨?_, ?_⟩,
    fun token α p => ⟨?_, ?_⟩⟩
  · rw [db.facade_hooks]
  · unfold Database.watchedLeaves
    rw [Database.facade_hooks, HookTree.leavesAll_watchedFrom]
    rfl
  · rw [adb.facade_hooks]
  · unfold CancellableDatabase.watchedLeaves
    rw [CancellableDatabase.facade_hooks, HookTree.leavesAll_watchedFrom]
    rfl

end SqlWeave
