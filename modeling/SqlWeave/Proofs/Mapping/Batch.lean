import SqlWeave.Proofs.Mapping.Layout
import SqlWeave.Proofs.Mapping.RoundTrip
import SqlWeave.Proofs.Session.Agree
import SqlWeave.Proofs.Writing

/-!
# Records read together

The records of a result are read first, and their foreign members are attached afterwards: the
pending members of all records stand in one list, each with the place of its owner. Of that list,
the part with one place works on the record at that place alone (`attachAll_owned`), and the parts
stand in the order of the records. So the second pass goes through the records one after another and
completes each by itself (`attachAll_pool`), whatever the source of rows does.

Where what a source answers depends on the request alone, it does not matter what was asked before.
Then a result is read as its rows are one by one, and each record is made of the rows that were
loaded for keys of its own.

Results:
* `Entity.readAll_eq`: reading with a source of rows completes the records one after another.
* `Entity.agree_complete`: a record is completed alike by sources that agree on its own requests.
* `Entity.asked_readAll`: what is asked for together is what is asked for row by row.
* **`Entity.readAll_rowwise`**: a result is read as its rows are, each by itself.
-/

namespace SqlWeave

/-! ## Going through a list -/

/-- Lists that belong to a third place by place belong to each other. -/
theorem exists_forall₂_and_iff {α β γ : Type} {R : α → β → Prop} {S : β → γ → Prop} {xs : List α}
    {zs : List γ} : (∃ ys, List.Forall₂ R xs ys ∧ List.Forall₂ S ys zs) ↔
      List.Forall₂ (fun x z => ∃ y, R x y ∧ S y z) xs zs := by
  constructor
  · rintro ⟨ys, hxy, hyz⟩
    induction hxy generalizing zs with
    | nil =>
      cases hyz
      exact .nil
    | cons h _ ih =>
      cases hyz with
      | cons hz hzs => exact .cons ⟨_, h, hz⟩ (ih hzs)
  · intro h
    induction h with
    | nil => exact ⟨[], .nil, .nil⟩
    | cons h _ ih =>
      obtain ⟨y, hxy, hyz⟩ := h
      obtain ⟨ys, hxys, hyzs⟩ := ih
      exact ⟨y :: ys, .cons hxy hxys, .cons hyz hyzs⟩

theorem exists_forall₂_iff {α β : Type} {R : α → β → Prop} {xs : List α} :
    (∃ ys, List.Forall₂ R xs ys) ↔ ∀ x ∈ xs, ∃ y, R x y := by
  induction xs with
  | nil => exact ⟨fun _ _ hx => (by cases hx), fun _ => ⟨[], .nil⟩⟩
  | cons x xs ih =>
    rw [List.forall_mem_cons, ← ih]
    constructor
    · rintro ⟨_, h⟩
      obtain ⟨y, ys, hy, hys, -⟩ := List.forall₂_cons_left_iff.mp h
      exact ⟨⟨y, hy⟩, ys, hys⟩
    · rintro ⟨⟨y, hy⟩, ys, hys⟩
      exact ⟨y :: ys, .cons hy hys⟩

namespace Run

variable {ω ω' α β γ : Type} {R : ω → ω' → Prop}

theorem map_apply (f : α → β) (m : Run ω α) (w : ω) :
    (f <$> m) w = ((m w).1.map f, (m w).2) := by
  rw [map_eq_pure_bind]
  rcases hm : m w with ⟨_ | _, _⟩
  · rw [bind_of_error hm]
    rfl
  · rw [bind_of_ok hm]
    rfl

theorem agree_foldlM {f : β → α → Run ω β} {f' : β → α → Run ω' β} {xs : List α}
    (h : ∀ x ∈ xs, ∀ b, Agree R (f b x) (f' b x)) (b : β) :
    Agree R (xs.foldlM f b) (xs.foldlM f' b) := by
  induction xs generalizing b with
  | nil => exact agree_pure b
  | cons x xs ih =>
    obtain ⟨hx, hxs⟩ := List.forall_mem_cons.mp h
    exact (hx b).bind fun b => ih hxs b

/-- The result of a run does not depend on the state. -/
def Steady (m : Run ω α) : Prop := Agree (fun _ _ => True) m m

theorem Steady.fst_eq {m : Run ω α} (h : Steady m) (w w' : ω) : (m w).1 = (m w').1 :=
  (h w w' trivial).1

/-- Where the steps do not depend on the state, going through a list does not either. -/
theorem fst_mapM {g : α → Run ω β} (h : ∀ x, Steady (g x)) (w' : ω) (xs : List α) (w : ω) :
    (xs.mapM g w).1 = xs.mapM fun x => (g x w').1 := by
  induction xs generalizing w with
  | nil => rfl
  | cons x xs ih =>
    rw [List.mapM_cons, List.mapM_cons, ← (h x).fst_eq w w']
    rcases hg : g x w with ⟨_ | y, w₁⟩
    · rw [bind_of_error hg]
      rfl
    · rw [bind_of_ok hg]
      change _ = xs.mapM _ >>= fun ys => pure (y :: ys)
      rw [← ih w₁]
      rcases hxs : xs.mapM g w₁ with ⟨_ | zs, w₂⟩
      · rw [bind_of_error hxs]
        rfl
      · rw [bind_of_ok hxs]
        rfl

/-! ## Runs that note what they do -/

/-- What a run notes, if nothing is noted before. -/
def told (m : Run (ω × List γ) α) (w : ω) : List γ := (m (w, [])).2.2

/-- The notes of one state are those of another with something before them. -/
def Behind (before : List γ) (x : ω × List γ) (y : ω' × List γ) : Prop := x.2 = before ++ y.2

/-- The result of a run and what it notes depend neither on the state nor on earlier notes. -/
def Tells (m : Run (ω × List γ) α) : Prop := ∀ before, Agree (Behind before) m m

theorem Tells.snd_eq {m : Run (ω × List γ) α} (h : Tells m) (w w' : ω) (before : List γ) :
    (m (w, before)).2.2 = before ++ told m w' :=
  (h before (w, before) (w', []) (List.append_nil before).symm).2

/-- **Going through a list tells what the steps tell**, one after another, up to the first
failure. -/
theorem snd_mapM {g : α → Run (ω × List γ) β} (h : ∀ x, Tells (g x)) (w' : ω) (xs : List α) (w : ω)
    (before : List γ) : ∃ s, (xs.mapM g (w, before)).2.2 = before ++ s ∧
      s <+: xs.flatMap (fun x => told (g x) w') ∧
      ∀ ys, (xs.mapM g (w, before)).1 = .ok ys → s = xs.flatMap fun x => told (g x) w' := by
  induction xs generalizing w before with
  | nil => exact ⟨[], (List.append_nil before).symm, List.prefix_rfl, fun _ _ => rfl⟩
  | cons x xs ih =>
    have hx := (h x).snd_eq w w' before
    rw [List.mapM_cons, List.flatMap_cons]
    rcases hg : g x (w, before) with ⟨_ | y, w₁, after⟩ <;> rw [hg] at hx <;>
      obtain rfl : after = before ++ told (g x) w' := hx
    · rw [bind_of_error hg]
      exact ⟨_, rfl, List.prefix_append _ _, fun _ hy => by cases hy⟩
    · rw [bind_of_ok hg]
      obtain ⟨s, hs, hbegin, hok⟩ := ih w₁ (before ++ told (g x) w')
      refine ⟨told (g x) w' ++ s, ?_, (List.prefix_append_right_inj _).mpr hbegin, ?_⟩
      · rw [← List.append_assoc, ← hs]
        rcases hxs : xs.mapM g (w₁, before ++ told (g x) w') with ⟨_ | zs, w₂⟩
        · rw [bind_of_error hxs]
        · rw [bind_of_ok hxs]
          rfl
      · intro ys hys
        rcases hxs : xs.mapM g (w₁, before ++ told (g x) w') with ⟨_ | zs, w₂⟩
        · rw [bind_of_error hxs] at hys
          cases hys
        · rw [hok zs (congrArg Prod.fst hxs)]

end Run

/-! ## One record -/

namespace Entity

variable {ω ω' α : Type} {e : Entity α} {load : ForeignSource ω} {load' : ForeignSource ω'}

/-- Loads a pending member and attaches it to its owner. -/
def attachOne (e : Entity α) (load : ForeignSource ω) (a : α) (p : Pending) : Run ω α :=
  match e.foreign[p.member]? with
  | none => pure a
  | some m => do
    let rows ← load (← request m p.key)
    m.attach rows a

/-- A record with its own pending members attached, in their order. -/
def complete (e : Entity α) (load : ForeignSource ω) (pending : List Pending) (a : α) : Run ω α :=
  pending.foldlM (e.attachOne load) a

/-- Resolving a pending member changes its owner and no other record. -/
theorem resolveOne_owned {p : Pending} {done rest : List α} (h : p.owner = done.length) (a : α) :
    e.resolveOne load p (done ++ a :: rest) =
      (fun a => done ++ a :: rest) <$> e.attachOne load a p := by
  have hget : (done ++ a :: rest)[p.owner]? = some a := by
    rw [h, List.getElem?_append_right (Nat.le_refl _), Nat.sub_self]
    rfl
  have hset : ∀ a', (done ++ a :: rest).set p.owner a' = done ++ a' :: rest := by
    intro a'
    rw [h, List.set_append_right _ _ (Nat.le_refl _), Nat.sub_self]
    rfl
  unfold resolveOne attachOne
  rw [hget]
  cases e.foreign[p.member]? with
  | none => rfl
  | some m => simp only [hset, map_eq_pure_bind, bind_assoc]

theorem attachAll_cons (p : Pending) (rest : List Pending) (records : List α) :
    e.attachAll load (p :: rest) records =
      e.resolveOne load p records >>= e.attachAll load rest := by
  funext w
  rcases h : e.resolveOne load p records w with ⟨_ | _, _⟩
  · rw [Run.bind_of_error h, attachAll, resolve, h]
  · rw [Run.bind_of_ok h, attachAll, resolve, h]
    rfl

theorem attachAll_append (ps qs : List Pending) (records : List α) :
    e.attachAll load (ps ++ qs) records = e.attachAll load ps records >>= e.attachAll load qs := by
  induction ps generalizing records with
  | nil => rfl
  | cons p ps ih =>
    rw [List.cons_append, attachAll_cons, attachAll_cons, bind_assoc]
    exact congrArg (_ >>= ·) (funext ih)

/-- **The pending members of one place complete the record at that place**, and no other changes. -/
theorem attachAll_owned {ps : List Pending} {done rest : List α}
    (h : ∀ p ∈ ps, p.owner = done.length) (a : α) :
    e.attachAll load ps (done ++ a :: rest) =
      (fun a => done ++ a :: rest) <$> e.complete load ps a := by
  induction ps generalizing a with
  | nil => rfl
  | cons p ps ih =>
    obtain ⟨hp, hps⟩ := List.forall_mem_cons.mp h
    rw [attachAll_cons, resolveOne_owned hp, bind_map_left, complete, List.foldlM_cons, map_bind]
    exact congrArg (_ >>= ·) (funext (ih hps))

/-- A record is completed alike by sources that agree on what is asked for its pending members. -/
theorem agree_complete {R : ω → ω' → Prop} {ps : List Pending}
    (h : ∀ p ∈ ps, ∀ m, e.foreign[p.member]? = some m →
      Run.Agree R (load ⟨m.table, m.column, p.key, m.kind⟩)
        (load' ⟨m.table, m.column, p.key, m.kind⟩)) (a : α) :
    Run.Agree R (e.complete load ps a) (e.complete load' ps a) := by
  refine Run.agree_foldlM (fun p hp a => ?_) a
  unfold attachOne
  cases hm : e.foreign[p.member]? with
  | none => exact Run.agree_pure a
  | some m =>
    unfold request
    dsimp only
    split
    · exact Run.agree_ofResult _
    · exact (h p hp m hm).bind fun rows => Run.agree_ofResult _

/-! ## Many records -/

/-- The pending members of records, each with the place of its record. -/
def pool (first : Nat) : List (α × List Pending) → List Pending
  | [] => []
  | x :: rest => x.2.map (fun p => { p with owner := first }) ++ pool (first + 1) rest

/-- The place of the owner has no part in what is attached. -/
theorem complete_map_owner (owner : Nat) (ps : List Pending) (a : α) :
    e.complete load (ps.map fun p => { p with owner := owner }) a = e.complete load ps a :=
  List.foldlM_map ..

/-- **The pending members of all records complete them one after another.** -/
theorem attachAll_pool (xs : List (α × List Pending)) (done : List α) :
    e.attachAll load (pool done.length xs) (done ++ xs.map (·.1)) =
      (done ++ ·) <$> xs.mapM fun x => e.complete load x.2 x.1 := by
  induction xs generalizing done with
  | nil => rfl
  | cons x xs ih =>
    have howned : ∀ p ∈ x.2.map (fun p => { p with owner := done.length }),
        p.owner = done.length := by
      intro p hp
      obtain ⟨_, -, rfl⟩ := List.mem_map.mp hp
      rfl
    rw [pool, attachAll_append, List.map_cons, attachAll_owned howned, complete_map_owner,
      bind_map_left, List.mapM_cons, map_bind]
    refine congrArg (_ >>= ·) (funext fun a => ?_)
    have hrest := ih (done ++ [a])
    rw [List.length_append, List.append_assoc] at hrest
    refine hrest.trans ?_
    simp only [map_eq_pure_bind, bind_assoc, pure_bind, List.append_assoc, List.singleton_append]

/-! ## Rows, then records -/

/-- The record of a row with its pending members, read by the row's own layout. -/
def readOne (e : Entity α) (line : Result Row) : Result (α × List Pending) := do
  (e.read none 0 (← line)).2

/-- A row read by itself, with the pending members of its record attached. -/
def readAlone (e : Entity α) (load : ForeignSource ω) (line : Result Row) : Run ω (List α) := do
  let (a, pending) ← e.readOne line
  e.attachAll load pending [a]

theorem pendingOf_owner (columns : List String) (owner : Nat) (r : Row) :
    e.pendingOf columns owner r =
      (e.pendingOf columns 0 r).map fun p => { p with owner := owner } := by
  unfold pendingOf
  refine Eq.trans (congrArg (List.filter _) ?_)
    (List.filter_map (f := fun p : Pending => { p with owner := owner })
      (p := fun p => !p.key.isNull))
  rw [List.map_filterMap]
  refine congrArg (List.filterMap · _) (funext fun ⟨f, i⟩ => ?_)
  dsimp only
  rw [Option.map_map]
  rfl

theorem read_owner (kept : Option (Mapping.Layout α)) (owner : Nat) (r : Row) :
    (e.read kept owner r).2 = (e.read kept 0 r).2.map fun x =>
      (x.1, x.2.map fun p => { p with owner := owner }) := by
  unfold read
  dsimp only
  cases (e.toMapping.read kept r).2 with
  | error err => rfl
  | ok a => exact congrArg (fun ps => Except.ok (a, ps)) (pendingOf_owner ..)

theorem readRows_cons (kept : Option (Mapping.Layout α)) (first : Nat) (r : Row)
    (rest : List (Result Row)) :
    e.readRows kept first (.ok r :: rest) =
      ((e.read kept first r).2 >>= fun x =>
        (e.readRows (e.read kept first r).1 (first + 1) rest).map fun y =>
          (x.1 :: y.1, x.2 ++ y.2)) := by
  rw [readRows]
  rcases e.read kept first r with ⟨_, _ | _⟩ <;> rfl

/-- Rows with the same names are read as each by itself. -/
theorem readRows_eq {names : List String} {kept : Option (Mapping.Layout α)}
    {lines : List (Result Row)} (hlines : ∀ r, .ok r ∈ lines → r.names = names)
    (hkept : e.KeptFor names kept) (first : Nat) :
    e.readRows kept first lines =
      (lines.mapM e.readOne).map fun xs => (xs.map (·.1), pool first xs) := by
  induction lines generalizing kept first with
  | nil => rfl
  | cons line rest ih =>
    rw [List.mapM_cons]
    cases line with
    | error err => rfl
    | ok r =>
      obtain rfl : r.names = names := hlines r List.mem_cons_self
      obtain ⟨hread, hnext⟩ := read_of_kept hkept first
      have hrest := ih (fun r hr => hlines r (List.mem_cons_of_mem _ hr)) hnext (first + 1)
      rw [readRows_cons, hread, read_owner none first r, hrest]
      change _ = (((e.read none 0 r).2 >>= _ : Result _)).map _
      cases (e.read none 0 r).2 with
      | error err => rfl
      | ok x =>
        cases rest.mapM e.readOne with
        | error err => rfl
        | ok xs => rfl

/-- The rows of a cursor have its names. -/
theorem names_of_mem_rows {c : Cursor} {r : Row} (h : .ok r ∈ c.rows) : r.names = c.columns := by
  obtain ⟨line, -, hr⟩ := List.mem_map.mp h
  unfold Cursor.rowOf at hr
  obtain ⟨values, -, hr⟩ := bind_eq_ok_iff.mp hr
  split at hr
  · rename_i hlength
    cases hr
    rw [Row.names_ofValues, hlength, List.take_length]
  · cases hr

/-- **Reading with a source of rows completes the records one after another**, once all rows are
read. -/
theorem readAll_eq (e : Entity α) (load : ForeignSource ω) (c : Cursor) :
    e.readAll (some load) c =
      (Run.ofResult (c.rows.mapM e.readOne) >>= fun xs =>
        xs.mapM fun x => e.complete load x.2 x.1) := by
  unfold readAll
  rw [readRows_eq (fun r => names_of_mem_rows) (Mapping.keptFor_none _ _)]
  cases c.rows.mapM e.readOne with
  | error err => rfl
  | ok xs =>
    have hpool : e.attachAll load (pool 0 xs) ([] ++ xs.map (·.1)) =
        ([] ++ ·) <$> xs.mapM fun x => e.complete load x.2 x.1 := attachAll_pool xs []
    exact hpool.trans (id_map _)

/-! ## What a row asks for -/

/-- A row asks for the rows of a foreign member by the key that stands under the member's column,
unless the key is null. -/
def Asks (e : Entity α) (r : Row) (q : ForeignRequest) : Prop :=
  ∃ m ∈ e.foreign, ∃ key, r.value? m.sourceColumn = some key ∧ key.isNull = false ∧
    q = ⟨m.table, m.column, key, m.kind⟩

theorem asks_of_mem_keysIn {owner : Nat} {r : Row} {p : Pending} (hp : p ∈ e.keysIn owner r)
    {m : ForeignMember α} (hm : e.foreign[p.member]? = some m) :
    e.Asks r ⟨m.table, m.column, p.key, m.kind⟩ := by
  obtain ⟨⟨m', i⟩, hmem, hp⟩ := List.mem_filterMap.mp hp
  obtain ⟨key, hkey, rfl⟩ := Option.map_eq_some_iff.mp hp
  have hm' : e.foreign[i]? = some m' := List.mem_zipIdx_iff_getElem?.mp hmem
  obtain rfl : m' = m := Option.some.inj (hm'.symm.trans hm)
  obtain ⟨hvalue, hnull⟩ := Option.filter_eq_some_iff.mp hkey
  exact ⟨m', List.mem_of_getElem? hm, key, hvalue, by simpa using hnull, rfl⟩

/-- What is left pending by a row is what stands under the columns of the members. -/
theorem pending_of_readOne {line : Result Row} {x : α × List Pending}
    (h : e.readOne line = .ok x) : ∃ r, line = .ok r ∧ x.2 = e.keysIn 0 r := by
  obtain ⟨r, hr, h⟩ := bind_eq_ok_iff.mp h
  refine ⟨r, hr, ?_⟩
  cases hl : e.layoutFor none r with
  | error err =>
    rw [read_of_layoutFor_error hl] at h
    cases h
  | ok l =>
    have hcolumns : l.columns = r.names := Mapping.columns_of_layout hl
    rw [read_of_layoutFor hl, hcolumns] at h
    obtain ⟨a, -, rfl⟩ := map_eq_ok_iff.mp h
    exact e.pendingOf_eq 0 r

/-- A row read by itself is read and then completed. -/
theorem readAlone_eq (e : Entity α) (load : ForeignSource ω) (line : Result Row) :
    e.readAlone load line = (Run.ofResult (e.readOne line) >>= fun x =>
      (fun a => [a]) <$> e.complete load x.2 x.1) := by
  unfold readAlone
  cases hx : e.readOne line with
  | error err => rfl
  | ok x =>
    obtain ⟨r, -, hps⟩ := pending_of_readOne hx
    have howner : ∀ p ∈ x.2, p.owner = ([] : List α).length := by
      intro p hp
      obtain ⟨_, -, hp⟩ := List.mem_filterMap.mp (hps ▸ hp)
      obtain ⟨_, -, rfl⟩ := Option.map_eq_some_iff.mp hp
      rfl
    have halone : e.attachAll load x.2 ([] ++ x.1 :: []) =
        (fun a => [] ++ a :: []) <$> e.complete load x.2 x.1 := attachAll_owned howner x.1
    exact halone

theorem readAlone_eq_ok_iff {line : Result Row} {a : α} {w : ω} :
    (e.readAlone load line w).1 = .ok [a] ↔
      ∃ x, e.readOne line = .ok x ∧ (e.complete load x.2 x.1 w).1 = .ok a := by
  rw [readAlone_eq]
  cases e.readOne line with
  | error err => exact ⟨fun h => (by cases h), fun ⟨_, h, _⟩ => (by cases h)⟩
  | ok x =>
    change ((_ <$> e.complete load x.2 x.1) w).1 = _ ↔ _
    rw [Run.map_apply, map_eq_ok_iff]
    constructor
    · rintro ⟨_, ha, ⟨⟩⟩
      exact ⟨x, rfl, ha⟩
    · rintro ⟨_, ⟨⟩, ha⟩
      exact ⟨a, ha, rfl⟩

/-- **A row read by itself becomes the same by sources that agree on what it asks for.** -/
theorem agree_readAlone {R : ω → ω' → Prop} {line : Result Row}
    (h : ∀ r, line = .ok r → ∀ q, e.Asks r q → Run.Agree R (load q) (load' q)) :
    Run.Agree R (e.readAlone load line) (e.readAlone load' line) := by
  rw [readAlone_eq, readAlone_eq]
  cases hx : e.readOne line with
  | error err => exact fun w w' hw => ⟨rfl, hw⟩
  | ok x =>
    obtain ⟨r, hr, hps⟩ := pending_of_readOne hx
    have hcomplete : Run.Agree R (e.complete load x.2 x.1) (e.complete load' x.2 x.1) :=
      agree_complete (fun p hp m hm => h r hr _ (asks_of_mem_keysIn (hps ▸ hp) hm)) x.1
    exact hcomplete.bind fun a => Run.agree_pure [a]

/-! ## Sources that answer by the request alone -/

/-- A source of rows that notes what it is asked. -/
def recorded (load : ForeignSource ω) : ForeignSource (ω × List ForeignRequest) := fun q x =>
  ((load q x.1).1, (load q x.1).2, x.2 ++ [q])

section

variable (hload : ∀ q, Run.Steady (load q))
include hload

theorem steady_complete (ps : List Pending) (a : α) : Run.Steady (e.complete load ps a) :=
  agree_complete (fun _ _ _ _ => hload _) a

theorem tells_recorded (q : ForeignRequest) : Run.Tells (recorded load q) := by
  intro before x y hxy
  refine ⟨(hload q).fst_eq x.1 y.1, ?_⟩
  change x.2 ++ [q] = before ++ (y.2 ++ [q])
  rw [show x.2 = before ++ y.2 from hxy, List.append_assoc]

theorem tells_complete (ps : List Pending) (a : α) :
    Run.Tells (e.complete (recorded load) ps a) :=
  fun before => agree_complete (fun _ _ _ _ => tells_recorded hload _ before) a

/-- The result of reading rows together, in terms of what each row becomes. -/
theorem readAll_eq_ok_iff {c : Cursor} {records : List α} (w w' : ω) :
    (e.readAll (some load) c w).1 = .ok records ↔
      List.Forall₂ (fun line a => (e.readAlone load line w').1 = .ok [a]) c.rows records := by
  have hall : (e.readAll (some load) c w).1 =
      (c.rows.mapM e.readOne >>= fun xs => xs.mapM fun x => (e.complete load x.2 x.1 w').1) := by
    rw [readAll_eq]
    cases c.rows.mapM e.readOne with
    | error err => rfl
    | ok xs => exact Run.fst_mapM (fun x => steady_complete hload x.2 x.1) w' xs w
  simp only [readAlone_eq_ok_iff]
  rw [hall, bind_eq_ok_iff, ← exists_forall₂_and_iff]
  simp only [mapM_eq_ok_iff]

/-- **What is asked for together is what is asked for row by row**, in the order of the rows, up to
the failure if there is one. -/
theorem asked_readAll (e : Entity α) (c : Cursor) (w w' : ω) :
    Run.told (e.readAll (some (recorded load)) c) w <+:
        c.rows.flatMap (fun line => Run.told (e.readAlone (recorded load) line) w') ∧
      ∀ records, (e.readAll (some (recorded load)) c (w, [])).1 = .ok records →
        Run.told (e.readAll (some (recorded load)) c) w =
          c.rows.flatMap fun line => Run.told (e.readAlone (recorded load) line) w' := by
  rw [readAll_eq]
  cases hx : c.rows.mapM e.readOne with
  | error err => exact ⟨List.nil_prefix, fun _ h => by cases h⟩
  | ok xs =>
    -- Row by row, what is asked for is asked for to complete the record of the row.
    have hrows : c.rows.map (fun line => Run.told (e.readAlone (recorded load) line) w') =
        xs.map fun x => Run.told (e.complete (recorded load) x.2 x.1) w' := by
      rw [← List.forall₂_eq_eq_eq]
      refine List.rel_map ?_ (mapM_eq_ok_iff.mp hx)
      intro line x hline
      dsimp only
      rw [readAlone_eq, hline]
      change ((_ <$> e.complete (recorded load) x.2 x.1) (w', [])).2.2 = _
      rw [Run.map_apply]
      rfl
    obtain ⟨s, hs, hbegin, hok⟩ :=
      Run.snd_mapM (fun x : α × List Pending => tells_complete (e := e) hload x.2 x.1) w' xs w []
    have htold : Run.told (Run.ofResult (.ok xs) >>= fun xs =>
        xs.mapM fun x => e.complete (recorded load) x.2 x.1) w = s := hs
    rw [htold, List.flatMap_def, hrows]
    exact ⟨hbegin, hok⟩

end

/-- What a row read by itself asks for is asked for by its own keys. -/
theorem asks_of_mem_told {line : Result Row} {w : ω} {q : ForeignRequest}
    (h : q ∈ Run.told (e.readAlone (recorded load) line) w) : ∃ r, line = .ok r ∧ e.Asks r q := by
  -- Agreement of the run with itself, on states in which nothing else is noted.
  have hagree : Run.Agree (fun x y => x = y ∧ ∀ q ∈ x.2, ∃ r, line = .ok r ∧ e.Asks r q)
      (e.readAlone (recorded load) line) (e.readAlone (recorded load) line) := by
    refine agree_readAlone fun r hr q hq => ?_
    rintro x _ ⟨rfl, hx⟩
    exact ⟨rfl, rfl, List.forall_mem_append.mpr ⟨hx, List.forall_mem_singleton.mpr ⟨r, hr, hq⟩⟩⟩
  obtain ⟨-, -, hall⟩ := hagree (w, []) (w, []) ⟨rfl, fun _ hq => by cases hq⟩
  exact hall q h

/-- **A result is read as its rows are, each by itself.** Let a source answer by the request alone.
Then reading the records of a result with their foreign members succeeds iff each row, read by
itself and with its own pending members attached in their order, does; the records are then those
that the rows become. What a row becomes depends on the answers for its own keys only. Nothing is
asked for but by a row that has a key there, which is not null. -/
theorem readAll_rowwise (e : Entity α) (c : Cursor) {load : ForeignSource ω}
    {f : ForeignRequest → Result (List Row)} (hload : ∀ q w, (load q w).1 = f q) (w w' : ω) :
    ((∃ records, (e.readAll (some load) c w).1 = .ok records) ↔
        ∀ line ∈ c.rows, ∃ a, (e.readAlone load line w').1 = .ok [a]) ∧
      (∀ records, (e.readAll (some load) c w).1 = .ok records →
        List.Forall₂ (fun line a => (e.readAlone load line w').1 = .ok [a]) c.rows records) ∧
      (∀ r, ∀ other : ForeignSource ω, (∀ q, e.Asks r q → ∀ w, (other q w).1 = f q) →
        (e.readAlone other (.ok r) w').1 = (e.readAlone load (.ok r) w').1) ∧
      ∀ q ∈ Run.told (e.readAll (some (recorded load)) c) w, ∃ r, .ok r ∈ c.rows ∧ e.Asks r q := by
  have hsteady : ∀ q, Run.Steady (load q) := fun q w w' _ =>
    ⟨(hload q w).trans (hload q w').symm, trivial⟩
  refine ⟨?_, fun records => (readAll_eq_ok_iff hsteady w w').mp, fun r other hother => ?_,
    fun q hq => ?_⟩
  · simp only [readAll_eq_ok_iff hsteady w w']
    exact exists_forall₂_iff
  · have hagree : Run.Agree (fun _ _ => True) (e.readAlone other (.ok r))
        (e.readAlone load (.ok r)) := by
      refine agree_readAlone fun r' hr q hq w w' _ => ⟨?_, trivial⟩
      cases hr
      rw [hother q hq, hload]
    exact (hagree w' w' trivial).1
  · obtain ⟨hbegin, -⟩ := asked_readAll hsteady e c w w
    obtain ⟨line, hline, hq⟩ := List.mem_flatMap.mp (hbegin.subset hq)
    obtain ⟨r, rfl, hasks⟩ := asks_of_mem_told hq
    exact ⟨r, hline, hasks⟩

end Entity

namespace Sample.Book

/-- Two books, one without an editor and one without an author. -/
def shelf : Cursor := .ofLines ["Id", "Title", "AuthorId", "EditorId"]
  [[.int 1, .text "Faust", .int 7, .null], [.int 2, .null, .null, .int 8]]

/-- The row of a person, who is called by the key. -/
def person (q : ForeignRequest) : Result (List Row) :=
  .ok [.ofPairs [("Id", q.key), ("Name", .text "A.")]]

/-- A source that counts what it is asked. -/
def counted : ForeignSource Nat := fun q n => (person q, n + 1)

theorem readAll_shelf :
    (∀ q n, (counted q n).1 = person q) ∧
      (∀ line ∈ shelf.rows, ∃ b, (entity.readAlone counted line 0).1 = .ok [b]) ∧
      List.Forall₂ (fun line b => (entity.readAlone counted line 0).1 = .ok [b]) shelf.rows
        [⟨1, some "Faust", some ⟨7, "A."⟩, none⟩, ⟨2, none, none, some ⟨8, "A."⟩⟩] ∧
      ∀ q ∈ Run.told (entity.readAll (some (Entity.recorded counted)) shelf) 5,
        ∃ r, .ok r ∈ shelf.rows ∧ entity.Asks r q := by
  have hread : (entity.readAll (some counted) shelf 5).1 =
      .ok [⟨1, some "Faust", some ⟨7, "A."⟩, none⟩, ⟨2, none, none, some ⟨8, "A."⟩⟩] := rfl
  have hload : ∀ q n, (counted q n).1 = person q := fun _ _ => rfl
  obtain ⟨hiff, hrows, -, hasks⟩ := entity.readAll_rowwise shelf hload 5 0
  exact ⟨hload, hiff.mp ⟨_, hread⟩, hrows _ hread, hasks⟩

end Sample.Book
end SqlWeave
