import Mathlib.Data.List.Forall2
import SqlWeave.Session.Operation

/-!
# Databases that agree

Two databases that are driven in different ways may be compared step by step. They need not be in
one state: a clock, and what a hook keeps of times, may differ. So a relation on states says what
they have in common, and another on durations which of them count as the same. Where calls of the
executors, hooks and logs agree as far as the relations say, so do all operations made of them.

With equality for both relations, databases that agree do the same at the same times.

Results:
* `Run.Agree.bind`: what agrees step by step agrees.
* `Database.Agree.perform`: sending a statement past agreeing hooks by agreeing calls.
* `Operation.agree_run`: every operation agrees on databases that agree.
* `Database.Agree.transaction`: so does a transaction whose body agrees.
-/

namespace SqlWeave

/-! ## Runs -/

namespace Run

variable {ω ω' α β : Type} {R : ω → ω' → Prop} {m : Run ω α} {m' m'' : Run ω' α}

/-- From related states, two runs have one result and leave related states. -/
def Agree (R : ω → ω' → Prop) (m : Run ω α) (m' : Run ω' α) : Prop :=
  ∀ w w', R w w' → (m w).1 = (m' w').1 ∧ R (m w).2 (m' w').2

/-- From related states, two runs succeed or fail together, and where they succeed they have one
result and leave related states. -/
def AgreeOnSuccess (R : ω → ω' → Prop) (m : Run ω α) (m' : Run ω' α) : Prop :=
  ∀ w w', R w w' →
    (∀ a, (m w).1 = .ok a → (m' w').1 = .ok a ∧ R (m w).2 (m' w').2) ∧
      ∀ e, (m w).1 = .error e → ∃ e', (m' w').1 = .error e'

theorem Agree.onSuccess (h : Agree R m m') : AgreeOnSuccess R m m' := by
  intro w w' hw
  obtain ⟨hr, hs⟩ := h w w' hw
  exact ⟨fun a ha => ⟨hr ▸ ha, hs⟩, fun e he => ⟨e, hr ▸ he⟩⟩

/-- A run may be exchanged for one that agrees with it on success. -/
theorem Agree.trans_onSuccess (h : Agree R m m') (k : AgreeOnSuccess Eq m' m'') :
    AgreeOnSuccess R m m'' := by
  intro w w' hw
  obtain ⟨hr, hs⟩ := h w w' hw
  obtain ⟨hok, herror⟩ := k w' w' rfl
  refine ⟨fun a ha => ?_, fun e he => herror e (hr ▸ he)⟩
  obtain ⟨hr', hs'⟩ := hok a (hr ▸ ha)
  exact ⟨hr', hs' ▸ hs⟩

theorem agree_pure (a : α) : Agree R (pure a) (pure a) := fun _ _ h => ⟨rfl, h⟩

theorem agree_ofResult (r : Result α) : Agree R (ofResult r) (ofResult r) := fun _ _ h => ⟨rfl, h⟩

theorem agree_change {f : ω → ω} {f' : ω' → ω'} (h : ∀ w w', R w w' → R (f w) (f' w')) :
    Agree R (change f) (change f') := fun w w' hw => ⟨rfl, h w w' hw⟩

/-- Runs that agree, one after another. -/
theorem Agree.bind {f : α → Run ω β} {f' : α → Run ω' β} (h : Agree R m m')
    (hf : ∀ a, Agree R (f a) (f' a)) :
    Agree R (m >>= f) (m' >>= f') := by
  intro w w' hw
  obtain ⟨hr, hs⟩ := h w w' hw
  rcases hm : m w with ⟨_ | a, w₁⟩ <;> rcases hm' : m' w' with ⟨_ | a', w₁'⟩ <;>
    rw [hm, hm'] at hr hs
  · cases hr
    rw [bind_of_error hm, bind_of_error hm']
    exact ⟨rfl, hs⟩
  · cases hr
  · cases hr
  · cases hr
    rw [bind_of_ok hm, bind_of_ok hm']
    exact hf a w₁ w₁' hs

theorem Agree.bind_ofResult {r : Result α} {f : α → Run ω β} {f' : α → Run ω' β}
    (hf : ∀ a, Agree R (f a) (f' a)) : Agree R (ofResult r >>= f) (ofResult r >>= f') :=
  (agree_ofResult r).bind hf

end Run

/-! ## Hooks -/

namespace Hook

variable {ω ω' : Type} {R : ω → ω' → Prop} {D : Nat → Nat → Prop} {hooks : List (Hook ω)}
  {hooks' : List (Hook ω')}

/-- Two hooks do the same with statements in related states, and leave related states, also when
they are told of durations that count as the same. -/
structure Agree (R : ω → ω' → Prop) (D : Nat → Nat → Prop) (h : Hook ω) (h' : Hook ω') :
    Prop where
  before : ∀ c w w', R w w' →
    (h.before c w).1 = (h'.before c w').1 ∧ R (h.before c w).2 (h'.before c w').2
  after : ∀ c n n' o w w', D n n' → R w w' → R (h.after c n o w) (h'.after c n' o w')

theorem agree_ask (hh : List.Forall₂ (Agree R D) hooks hooks') : ∀ (c : Context) (w : ω) (w' : ω'),
    R w w' → (ask hooks c w).1 = (ask hooks' c w').1 ∧ R (ask hooks c w).2 (ask hooks' c w').2 := by
  induction hh with
  | nil => exact fun c w w' hw => ⟨rfl, hw⟩
  | @cons h h' hooks hooks' hagree _ ih =>
    intro c w w' hw
    obtain ⟨ha, hs⟩ := hagree.before c w w' hw
    unfold ask
    rcases hb : h.before c w with ⟨_ | sql | reason, w₁⟩ <;>
      rcases hb' : h'.before c w' with ⟨_ | sql' | reason', w₁'⟩ <;> rw [hb, hb'] at ha hs <;>
      cases ha
    · exact ih c w₁ w₁' hs
    · exact ih { c with sql := sql } w₁ w₁' hs
    · exact ⟨rfl, hs⟩

theorem agree_tell (hh : List.Forall₂ (Agree R D) hooks hooks') {n n' : Nat} (hn : D n n')
    (c : Context) (o : Outcome) : ∀ (w : ω) (w' : ω'), R w w' →
      R (tell hooks c n o w) (tell hooks' c n' o w') := by
  induction hh with
  | nil => exact fun _ _ hw => hw
  | cons hagree _ ih => exact fun w w' hw => ih _ _ (hagree.after c n n' o w w' hn hw)

end Hook

/-! ## Databases -/

namespace Database

variable {ω ω' α β : Type} {R : ω → ω' → Prop} {D : Nat → Nat → Prop} {db : Database ω}
  {db' : Database ω'}

/-- Two databases have the same options, and calls, hooks, logs and clocks that agree. -/
structure Agree (R : ω → ω' → Prop) (D : Nat → Nat → Prop) (db : Database ω)
    (db' : Database ω') : Prop where
  config : db'.config = db.config
  tag : db'.tag = db.tag
  execute : ∀ s, Run.Agree R (db.executor.execute s) (db'.executor.execute s)
  query : ∀ s, Run.Agree R (db.executor.query s) (db'.executor.query s)
  scalar : ∀ s, Run.Agree R (db.executor.scalar s) (db'.executor.scalar s)
  begin : Run.Agree R db.executor.begin db'.executor.begin
  commit : Run.Agree R db.executor.commit db'.executor.commit
  rollback : Run.Agree R db.executor.rollback db'.executor.rollback
  hooks : List.Forall₂ (Hook.Agree R D) db.hooks db'.hooks
  log : ∀ e w w', R w w' → R (db.log e w) (db'.log e w')
  /-- What passes between related states counts as the same. -/
  clock : ∀ v v' w w', R v v' → R w w' → D (db.clock w - db.clock v) (db'.clock w' - db'.clock v')

namespace Agree

variable (h : Agree R D db db')
include h

/-- **A statement is sent alike**: hooks that agree let the same statements pass with the same text,
and are told the same outcome. -/
theorem perform {outcome : α → Outcome} {call : Statement → Run ω α}
    {call' : Statement → Run ω' α}
    (hc : ∀ s, Run.Agree R (call s) (call' s)) (kind : Option StatementKind) (e : Expression) :
    Run.Agree R (db.perform kind outcome call e) (db'.perform kind outcome call' e) := by
  intro w w' hw
  have hctx : db'.context (e.render .atSign) kind = db.context (e.render .atSign) kind := by
    unfold context
    rw [h.config, h.tag]
  unfold Database.perform
  dsimp only
  rw [hctx]
  obtain ⟨hr, hs⟩ := Hook.agree_ask h.hooks (db.context (e.render .atSign) kind) w w' hw
  rcases ha : Hook.ask db.hooks (db.context (e.render .atSign) kind) w with ⟨reason | c, w₁⟩ <;>
    rcases ha' : Hook.ask db'.hooks (db.context (e.render .atSign) kind) w' with
      ⟨reason' | c', w₁'⟩ <;> rw [ha, ha'] at hr hs <;> cases hr
  · exact ⟨rfl, hs⟩
  · obtain ⟨hr₂, hs₂⟩ := hc { e.render .atSign with sql := c.sql } w₁ w₁' hs
    refine ⟨hr₂, ?_⟩
    dsimp only
    rw [hr₂]
    exact Hook.agree_tell h.hooks (h.clock _ _ _ _ hs hs₂) c _ _ _ hs₂

theorem execute_run (e : Expression) (kind : Option StatementKind) :
    Run.Agree R (db.execute e kind) (db'.execute e kind) := h.perform h.execute kind e

theorem rows_run (e : Expression) : Run.Agree R (db.rows e) (db'.rows e) :=
  h.perform (fun s => (h.query s).bind fun c => Run.agree_ofResult c.readAll) _ e

theorem scalar_run (e : Expression) (kind : Option StatementKind) :
    Run.Agree R (db.scalar e kind) (db'.scalar e kind) := h.perform h.scalar kind e

theorem record_run (e : LogEvent) : Run.Agree R (db.record e) (db'.record e) :=
  Run.agree_change (h.log e)

theorem query_eq (table : TableName) : db'.query table = db.query table := by
  unfold Database.query
  rw [h.config]

theorem queryOf_eq (m : Mapping α) : db'.queryOf m = db.queryOf m := h.query_eq _

theorem queryFor_eq (m : Mapping α) (a : α) : db'.queryFor m a = db.queryFor m a := by
  unfold Database.queryFor
  rw [h.queryOf_eq]

/-! ### Operations -/

theorem selectRows (q : Query) : Run.Agree R (db.selectRows q) (db'.selectRows q) :=
  Run.Agree.bind_ofResult fun e => h.rows_run e

theorem count (q : Query) : Run.Agree R (db.count q) (db'.count q) :=
  Run.Agree.bind_ofResult fun e =>
    (h.scalar_run e _).bind fun v => Run.agree_ofResult (countOf v)

theorem insert (table : TableName) (r : Row) :
    Run.Agree R (db.insert table r) (db'.insert table r) := by
  unfold Database.insert
  rw [h.query_eq]
  exact Run.Agree.bind_ofResult fun e => h.execute_run e _

theorem insertKey (table : TableName) (r : Row) (key : String) :
    Run.Agree R (db.insertKey table r key) (db'.insertKey table r key) := by
  unfold Database.insertKey
  rw [h.query_eq]
  exact Run.Agree.bind_ofResult fun e => h.scalar_run e _

theorem insertSelected (table : TableName) (source : Query) (columns : List String) :
    Run.Agree R (db.insertSelected table source columns)
      (db'.insertSelected table source columns) := by
  unfold Database.insertSelected
  rw [h.query_eq]
  exact Run.Agree.bind_ofResult fun e => h.execute_run e _

theorem insertRecord (e : Entity α) (a : α) :
    Run.Agree R (db.insertRecord e a) (db'.insertRecord e a) := by
  unfold Database.insertRecord
  cases e.columns.find? (·.isGenerated) with
  | none => exact (h.insert _ _).bind fun n => Run.agree_pure (n, a)
  | some c =>
    refine (h.insertKey _ _ _).bind fun key => ?_
    by_cases hk : key.isNull = true
    · simp only [if_pos hk]
      exact Run.agree_pure (1, a)
    · simp only [if_neg hk]
      exact Run.Agree.bind_ofResult fun a => Run.agree_pure (1, a)

theorem writeBatches (table : String) : ∀ batches : List (List Row × Result Expression),
    Run.Agree R (db.writeBatches table batches) (db'.writeBatches table batches)
  | [] => Run.agree_pure []
  | (rows, statement) :: rest => by
    unfold Database.writeBatches
    rw [h.config]
    refine Run.Agree.bind_ofResult fun e => (h.record_run _).bind fun _ => ?_
    exact (writeBatches table rest).bind fun more => Run.agree_pure (e :: more)

theorem executeAll (kind : StatementKind) : ∀ statements : List Expression,
    Run.Agree R (db.executeAll kind statements) (db'.executeAll kind statements)
  | [] => Run.agree_pure 0
  | e :: rest =>
    (h.execute_run e _).bind fun n =>
      (executeAll kind rest).bind fun more => Run.agree_pure (n + more)

theorem bulkInsert (table : TableName) (rows : List Row) :
    Run.Agree R (db.bulkInsert table rows) (db'.bulkInsert table rows) := by
  unfold Database.bulkInsert
  rw [h.query_eq]
  exact Run.Agree.bind_ofResult fun _ =>
    (h.writeBatches _ _).bind fun statements => h.executeAll _ statements

theorem update (q : Query) (r : Row) : Run.Agree R (db.update q r) (db'.update q r) :=
  Run.Agree.bind_ofResult fun e => h.execute_run e _

theorem updateRecord (e : Entity α) (a : α) :
    Run.Agree R (db.updateRecord e a) (db'.updateRecord e a) := by
  unfold Database.updateRecord
  rw [h.queryFor_eq]
  exact Run.Agree.bind_ofResult fun q => h.update q _

theorem delete (q : Query) : Run.Agree R (db.delete q) (db'.delete q) :=
  Run.Agree.bind_ofResult fun e => h.execute_run e _

theorem deleteRecord (e : Entity α) (a : α) :
    Run.Agree R (db.deleteRecord e a) (db'.deleteRecord e a) := by
  unfold Database.deleteRecord
  rw [h.queryFor_eq]
  exact Run.Agree.bind_ofResult fun q => h.delete q

theorem upsert (table : TableName) (rows : List Row) (u : Upsert) :
    Run.Agree R (db.upsert table rows u) (db'.upsert table rows u) := by
  unfold Database.upsert
  rw [h.query_eq]
  exact Run.Agree.bind_ofResult fun e => h.execute_run e _

theorem createTable (s : Schema) : Run.Agree R (db.createTable s) (db'.createTable s) := by
  unfold Database.createTable
  rw [h.config]
  refine Run.Agree.bind (Run.agree_ofResult (db.config.createTable s)) fun e => ?_
  exact (h.record_run _).bind fun _ => h.execute_run e _

theorem tableExists (name : String) :
    Run.Agree R (db.tableExists name) (db'.tableExists name) := by
  unfold Database.tableExists
  rw [h.config]
  exact Run.Agree.bind_ofResult fun e => (h.scalar_run e _).bind fun v =>
    Run.Agree.bind_ofResult fun n => Run.agree_pure (decide (0 < n))

end Agree
end Database

/-! ## Foreign members -/

namespace Entity

variable {ω ω' α : Type} {R : ω → ω' → Prop} {load : ForeignSource ω} {load' : ForeignSource ω'}

theorem agree_resolveOne (e : Entity α) (hl : ∀ r, Run.Agree R (load r) (load' r)) (p : Pending)
    (records : List α) :
    Run.Agree R (e.resolveOne load p records) (e.resolveOne load' p records) := by
  unfold resolveOne
  split
  · exact Run.Agree.bind_ofResult fun r => (hl r).bind fun rows =>
      Run.Agree.bind_ofResult fun a => Run.agree_pure _
  · exact Run.agree_pure records

/-- Members are resolved alike from sources that agree: the records so far are the same, also where
resolving fails. -/
theorem agree_resolve (e : Entity α) (hl : ∀ r, Run.Agree R (load r) (load' r)) :
    ∀ (pending : List Pending) (records : List α) (w : ω) (w' : ω'), R w w' →
      (e.resolve load pending records w).1 = (e.resolve load' pending records w').1 ∧
        R (e.resolve load pending records w).2 (e.resolve load' pending records w').2
  | [], _, _, _, hw => ⟨rfl, hw⟩
  | p :: rest, records, w, w', hw => by
    obtain ⟨hr, hs⟩ := e.agree_resolveOne hl p records w w' hw
    unfold resolve
    rcases ho : e.resolveOne load p records w with ⟨_ | _, w₁⟩ <;>
      rcases ho' : e.resolveOne load' p records w' with ⟨_ | _, w₁'⟩ <;> rw [ho, ho'] at hr hs <;>
      cases hr
    · exact ⟨rfl, hs⟩
    · exact e.agree_resolve hl rest _ w₁ w₁' hs

theorem agree_attachAll (e : Entity α) (hl : ∀ r, Run.Agree R (load r) (load' r))
    (pending : List Pending) (records : List α) :
    Run.Agree R (e.attachAll load pending records) (e.attachAll load' pending records) := by
  intro w w' hw
  obtain ⟨hr, hs⟩ := e.agree_resolve hl pending records w w' hw
  unfold attachAll
  rcases ho : e.resolve load pending records w with ⟨⟨_, _ | _⟩, w₁⟩ <;>
    rcases ho' : e.resolve load' pending records w' with ⟨⟨_, _ | _⟩, w₁'⟩ <;>
    rw [ho, ho'] at hr hs <;> cases hr <;> exact ⟨rfl, hs⟩

end Entity

namespace Database

variable {ω ω' α : Type} {R : ω → ω' → Prop} {D : Nat → Nat → Prop} {db : Database ω}
  {db' : Database ω'}

/-- States that agree beside one cache. -/
def Beside (R : ω → ω' → Prop) (x : ForeignCache × ω) (x' : ForeignCache × ω') : Prop :=
  x.1 = x'.1 ∧ R x.2 x'.2

namespace Agree

variable (h : Agree R D db db')
include h

theorem foreignSource (r : ForeignRequest) :
    Run.Agree (Beside R) (db.foreignSource r) (db'.foreignSource r) := by
  rintro ⟨cache, w⟩ ⟨_, w'⟩ ⟨rfl, hw⟩
  unfold Database.foreignSource
  dsimp only
  rw [h.config]
  cases cache.find? r with
  | some rows => exact ⟨rfl, rfl, hw⟩
  | none =>
    obtain ⟨hr, hs⟩ := h.selectRows (r.query db.config) w w' hw
    dsimp only
    rcases ho : db.selectRows (r.query db.config) w with ⟨_ | rows, w₁⟩ <;>
      rcases ho' : db'.selectRows (r.query db.config) w' with ⟨_ | rows', w₁'⟩ <;>
      rw [ho, ho'] at hr hs <;> cases hr <;> exact ⟨rfl, rfl, hs⟩

theorem select (e : Entity α) (q : Query) : Run.Agree R (db.select e q) (db'.select e q) := by
  unfold Database.select Database.readRecords
  rw [h.config]
  refine Run.Agree.bind ((h.selectRows q).bind fun rows => Run.agree_ofResult _) ?_
  rintro ⟨records, pending⟩
  dsimp only
  split
  · intro w w' hw
    have hc : Beside R (({} : ForeignCache), w) ({}, w') := ⟨rfl, hw⟩
    obtain ⟨hr, hs⟩ := e.agree_attachAll h.foreignSource pending records _ _ hc
    exact ⟨hr, hs.2⟩
  · exact Run.agree_pure records

theorem selectAll (e : Entity α) : Run.Agree R (db.selectAll e) (db'.selectAll e) := by
  unfold Database.selectAll
  rw [h.queryOf_eq]
  exact h.select e _

/-! ## Transactions -/

theorem begin_run : Run.Agree R db.begin db'.begin := (h.record_run _).bind fun _ => h.begin

theorem commit_run : Run.Agree R db.commit db'.commit := (h.record_run _).bind fun _ => h.commit

theorem rollback_run : Run.Agree R db.rollback db'.rollback :=
  (h.record_run _).bind fun _ => h.rollback

theorem undo (w : ω) (w' : ω') (hw : R w w') : R (db.undo w) (db'.undo w') := by
  obtain ⟨hr, hs⟩ := h.rollback_run w w' hw
  unfold Database.undo
  rcases ho : db.rollback w with ⟨_ | _, w₁⟩ <;> rcases ho' : db'.rollback w' with ⟨_ | _, w₁'⟩ <;>
    rw [ho, ho'] at hr hs <;> cases hr
  · exact h.log _ _ _ hs
  · exact hs

theorem conclude_ok (a : α) : Run.Agree R (fun w => db.conclude (.ok a, w))
    fun w => db'.conclude (.ok a, w) := h.commit_run.bind fun _ => Run.agree_pure a

/-- **A transaction agrees if its body does.** -/
theorem transaction {body : Run ω α} {body' : Run ω' α} (hb : Run.Agree R body body') :
    Run.Agree R (db.transaction body) (db'.transaction body') := by
  refine h.begin_run.bind fun _ w w' hw => ?_
  obtain ⟨hr, hs⟩ := hb w w' hw
  rw [Run.step_apply, Run.step_apply]
  rcases ho : body w with ⟨_ | a, w₁⟩ <;> rcases ho' : body' w' with ⟨_ | a', w₁'⟩ <;>
    rw [ho, ho'] at hr hs <;> cases hr
  · exact ⟨rfl, h.undo w₁ w₁' hs⟩
  · exact h.conclude_ok a w₁ w₁' hs

/-- A transaction agrees on success if its body does. -/
theorem transaction_onSuccess {body : Run ω α} {body' : Run ω' α}
    (hb : Run.AgreeOnSuccess R body body') :
    Run.AgreeOnSuccess R (db.transaction body) (db'.transaction body') := by
  intro w w' hw
  obtain ⟨hr, hs⟩ := h.begin_run w w' hw
  unfold Database.transaction
  rcases ho : db.begin w with ⟨failure | _, w₁⟩ <;>
    rcases ho' : db'.begin w' with ⟨failure' | _, w₁'⟩ <;> rw [ho, ho'] at hr hs <;> cases hr
  · rw [Run.bind_of_error ho, Run.bind_of_error ho']
    exact ⟨fun a ha => (by cases ha), fun e he => ⟨failure, rfl⟩⟩
  · rw [Run.bind_of_ok ho, Run.bind_of_ok ho', Run.step_apply, Run.step_apply]
    obtain ⟨hok, herror⟩ := hb w₁ w₁' hs
    rcases hm : body w₁ with ⟨e | a, w₂⟩
    · obtain ⟨e', he'⟩ := herror e (by rw [hm])
      rcases hm' : body' w₁' with ⟨_ | _, w₂'⟩ <;> rw [hm'] at he' <;> cases he'
      exact ⟨fun a ha => (by cases ha), fun _ _ => ⟨e', rfl⟩⟩
    · obtain ⟨ha', hs₂⟩ := hok a (by rw [hm])
      rcases hm' : body' w₁' with ⟨_ | _, w₂'⟩ <;> rw [hm'] at ha' hs₂ <;> cases ha'
      rw [hm] at hs₂
      exact (h.conclude_ok a).onSuccess w₂ w₂' hs₂

end Agree
end Database

/-! ## All operations -/

/-- **Operations agree on databases that agree.** -/
theorem Operation.agree_run {ω ω' α : Type} {R : ω → ω' → Prop} {D : Nat → Nat → Prop}
    {db : Database ω} {db' : Database ω'} (h : db.Agree R D db') (o : Operation α) :
    Run.Agree R (o.run db) (o.run db') := by
  cases o with
  | execute e => exact h.execute_run e none
  | rows e => exact h.rows_run e
  | scalar e => exact h.scalar_run e none
  | selectRows q => exact h.selectRows q
  | select e q => exact h.select e q
  | selectAll e => exact h.selectAll e
  | count q => exact h.count q
  | insert table r => exact h.insert table r
  | insertKey table r key => exact h.insertKey table r key
  | insertRecord e a => exact h.insertRecord e a
  | insertSelected table source columns => exact h.insertSelected table source columns
  | bulkInsert table rs => exact h.bulkInsert table rs
  | update q r => exact h.update q r
  | updateRecord e a => exact h.updateRecord e a
  | delete q => exact h.delete q
  | deleteRecord e a => exact h.deleteRecord e a
  | upsert table r u => exact h.upsert table [r] u
  | upsertRows table rs u => exact h.upsert table rs u
  | createTable s => exact h.createTable s
  | tableExists name => exact h.tableExists name

end SqlWeave
