import SqlWeave.Proofs.Session.Agree
import SqlWeave.Proofs.Writing

/-!
# Foreign members loaded ahead

Foreign members are completed one after another, each as soon as its rows are there, or all rows are
loaded first and the members completed then. The queries are the same: both ways ask the cache for
the same requests in the same order, and what a cache keeps it keeps to the end. So where the first
way succeeds, the second does the same; where it fails, the second fails too, though it may have
sent more queries, or may fail for another reason.

Results:
* `resolve_ahead_of_ok`, `resolve_ahead_of_error`: the two ways on a list of pending members, by
  induction along the list with the cache so far.
* `select_onSuccess`: a selection and one that loads ahead succeed and fail together.
-/

namespace SqlWeave

namespace ForeignCache

variable {k k' k'' : ForeignCache} {r : ForeignRequest} {rows : List Row}

/-- One cache is kept in another. -/
def KeptIn (k k' : ForeignCache) : Prop := ∀ r rows, k.find? r = some rows → k'.find? r = some rows

theorem KeptIn.refl (k : ForeignCache) : k.KeptIn k := fun _ _ h => h

theorem KeptIn.trans (h : k.KeptIn k') (h' : k'.KeptIn k'') : k.KeptIn k'' :=
  fun r rows hr => h' r rows (h r rows hr)

theorem find?_congr {r' : ForeignRequest} (h : r.cacheKey = r'.cacheKey) :
    k.find? r = k.find? r' := by
  unfold find?
  rw [h]

theorem find?_insert_of_ne {r' : ForeignRequest} (h : r'.cacheKey ≠ r.cacheKey) :
    (k.insert r rows).find? r' = k.find? r' := by
  unfold find? insert
  rw [List.lookup_cons, beq_eq_false_iff_ne.mpr h]

/-- New rows under a new key leave the old ones where they are. -/
theorem keptIn_insert (h : k.find? r = none) : k.KeptIn (k.insert r rows) := by
  intro r' rows' hr'
  have hne : r'.cacheKey ≠ r.cacheKey := by
    intro hk
    rw [find?_congr hk, h] at hr'
    cases hr'
  rwa [find?_insert_of_ne hne]

end ForeignCache

namespace Database

variable {ω α : Type} {db : Database ω} {r : ForeignRequest} {k k' : ForeignCache} {w w' : ω}

/-- **What serving a request does.** Rows that are kept are its answer. Where there are none its
query is sent, and rows that it finds are kept. -/
theorem foreignSource_cases (db : Database ω) (r : ForeignRequest) (k : ForeignCache) (w : ω) :
    (∃ rows, k.find? r = some rows ∧ db.foreignSource r (k, w) = (.ok rows, k, w)) ∨
    (∃ rows w', k.find? r = none ∧ db.selectRows (r.query db.config) w = (.ok rows, w') ∧
      db.foreignSource r (k, w) = (.ok rows, k.insert r rows, w')) ∨
    ∃ err w', k.find? r = none ∧ db.selectRows (r.query db.config) w = (.error err, w') ∧
      db.foreignSource r (k, w) = (.error err, k, w') := by
  unfold foreignSource
  dsimp only
  cases hf : k.find? r with
  | some rows => exact .inl ⟨rows, rfl, rfl⟩
  | none =>
    rcases hs : db.selectRows (r.query db.config) w with ⟨err | rows, w'⟩
    · exact .inr (.inr ⟨err, w', rfl, rfl, rfl⟩)
    · exact .inr (.inl ⟨rows, w', rfl, rfl, rfl⟩)

/-- Rows that are kept are served again. -/
theorem foreignSource_of_find {rows : List Row} (h : k.find? r = some rows) (w : ω) :
    db.foreignSource r (k, w) = (.ok rows, k, w) := by
  unfold foreignSource
  dsimp only
  rw [h]

/-- The rows that a request was served with are kept. -/
theorem find?_of_foreignSource {rows : List Row}
    (h : db.foreignSource r (k, w) = (.ok rows, k', w')) : k'.find? r = some rows := by
  obtain ⟨_, hf, hs⟩ | ⟨_, _, hf, -, hs⟩ | ⟨_, _, -, -, hs⟩ := db.foreignSource_cases r k w <;>
    rw [hs] at h <;> cases h
  · exact hf
  · exact k.find?_insert r rows

/-- Serving a request keeps what was kept. -/
theorem keptIn_of_foreignSource {result : Result (List Row)}
    (h : db.foreignSource r (k, w) = (result, k', w')) : k.KeptIn k' := by
  obtain ⟨_, hf, hs⟩ | ⟨_, _, hf, -, hs⟩ | ⟨_, _, -, -, hs⟩ := db.foreignSource_cases r k w <;>
    rw [hs] at h <;> cases h
  · exact .refl k
  · exact ForeignCache.keptIn_insert hf
  · exact .refl k

/-! ## Loading ahead, member by member -/

variable {e : Entity α} {p : Pending} {rest : List Pending} {f : ForeignMember α}

theorem loadAhead_of_none (hf : e.foreign[p.member]? = none) :
    db.loadAhead e (p :: rest) k = db.loadAhead e rest k := by
  rw [loadAhead, hf]

theorem loadAhead_of_request_error (hf : e.foreign[p.member]? = some f) {err : Error}
    (hr : Entity.request f p.key = .error err) :
    db.loadAhead e (p :: rest) k w = (.error err, w) := by
  rw [loadAhead, hf]
  dsimp only
  rw [hr]
  rfl

/-- Loading ahead goes on with the cache that a source leaves behind. -/
theorem loadAhead_of_ok (hf : e.foreign[p.member]? = some f)
    (hr : Entity.request f p.key = .ok r) {rows : List Row}
    (h : db.foreignSource r (k, w) = (.ok rows, k', w')) :
    db.loadAhead e (p :: rest) k w = db.loadAhead e rest k' w' := by
  rw [loadAhead, hf]
  dsimp only
  rw [hr]
  obtain ⟨_, hk, hs⟩ | ⟨_, _, hk, hq, hs⟩ | ⟨_, _, -, -, hs⟩ := db.foreignSource_cases r k w <;>
    rw [hs] at h <;> cases h <;>
    simp only [liftM, monadLift, MonadLift.monadLift, Run.bind_ofResult, hk]
  rw [Run.bind_of_ok hq]

theorem loadAhead_of_error (hf : e.foreign[p.member]? = some f)
    (hr : Entity.request f p.key = .ok r) {err : Error}
    (h : db.foreignSource r (k, w) = (.error err, k', w')) :
    db.loadAhead e (p :: rest) k w = (.error err, w') := by
  rw [loadAhead, hf]
  dsimp only
  rw [hr]
  obtain ⟨_, -, hs⟩ | ⟨_, _, -, -, hs⟩ | ⟨_, _, hk, hq, hs⟩ := db.foreignSource_cases r k w <;>
    rw [hs] at h <;> cases h
  simp only [liftM, monadLift, MonadLift.monadLift, Run.bind_ofResult, hk]
  rw [Run.bind_of_error hq]

/-- Loading ahead keeps what was kept. -/
theorem keptIn_of_loadAhead : ∀ {pending : List Pending} {k k' : ForeignCache} {w w' : ω},
    db.loadAhead e pending k w = (.ok k', w') → k.KeptIn k'
  | [], k, _, _, _, h => by cases h; exact .refl k
  | p :: rest, k, k', w, w', h => by
    cases hf : e.foreign[p.member]? with
    | none =>
      rw [loadAhead_of_none hf] at h
      exact keptIn_of_loadAhead h
    | some f =>
      cases hr : Entity.request f p.key with
      | error err => rw [loadAhead_of_request_error hf hr] at h; cases h
      | ok r =>
        rcases hs : db.foreignSource r (k, w) with ⟨err | rows, k₁, w₁⟩
        · rw [loadAhead_of_error hf hr hs] at h
          cases h
        · rw [loadAhead_of_ok hf hr hs] at h
          exact (keptIn_of_foreignSource hs).trans (keptIn_of_loadAhead h)

end Database

/-! ## Completing records -/

namespace Entity

variable {ω α : Type} {e : Entity α} {p : Pending} {f : ForeignMember α} {records : List α} {a : α}
  {r : ForeignRequest} {load : ForeignSource ω} {w w' : ω}

theorem resolveOne_of_none (hf : e.foreign[p.member]? = none) :
    e.resolveOne load p records = pure records := by
  unfold resolveOne
  rw [hf]

theorem resolveOne_of_request_error (hf : e.foreign[p.member]? = some f)
    (ha : records[p.owner]? = some a) {err : Error} (hr : request f p.key = .error err) :
    e.resolveOne load p records w = (.error err, w) := by
  unfold resolveOne
  rw [hf, ha]
  dsimp only
  rw [hr]
  rfl

theorem resolveOne_of_error (hf : e.foreign[p.member]? = some f)
    (ha : records[p.owner]? = some a) (hr : request f p.key = .ok r) {err : Error}
    (hl : load r w = (.error err, w')) :
    e.resolveOne load p records w = (.error err, w') := by
  unfold resolveOne
  rw [hf, ha]
  dsimp only
  rw [hr]
  exact Run.bind_of_error hl _

/-- A member whose rows are there is attached to its owner. -/
theorem resolveOne_of_ok (hf : e.foreign[p.member]? = some f)
    (ha : records[p.owner]? = some a) (hr : request f p.key = .ok r) {rows : List Row}
    (hl : load r w = (.ok rows, w')) :
    e.resolveOne load p records w =
      ((f.attach rows a).map fun a => records.set p.owner a, w') := by
  unfold resolveOne
  rw [hf, ha]
  dsimp only
  rw [hr]
  refine (Run.bind_of_ok hl _).trans ?_
  cases f.attach rows a <;> rfl

theorem resolve_cons_of_ok {rest : List Pending} {records' : List α}
    (h : e.resolveOne load p records w = (.ok records', w')) :
    e.resolve load (p :: rest) records w = e.resolve load rest records' w' := by
  rw [resolve, h]

theorem resolve_cons_of_error {rest : List Pending} {err : Error}
    (h : e.resolveOne load p records w = (.error err, w')) :
    e.resolve load (p :: rest) records w = ((records, .error err), w') := by
  rw [resolve, h]

theorem attachAll_of_ok {pending : List Pending} {left : List α}
    (h : e.resolve load pending records w = ((left, .ok ()), w')) :
    e.attachAll load pending records w = (.ok left, w') := by
  unfold attachAll
  rw [h]

theorem attachAll_of_error {pending : List Pending} {left : List α} {err : Error}
    (h : e.resolve load pending records w = ((left, .error err), w')) :
    e.attachAll load pending records w = (.error err, w') := by
  unfold attachAll
  rw [h]

end Entity

theorem ForeignCache.source_of_find {ω : Type} {k : ForeignCache} {r : ForeignRequest}
    {rows : List Row} (h : k.find? r = some rows) (w : ω) : k.source r w = (.ok rows, w) := by
  unfold source
  rw [h]
  rfl

namespace Database

variable {ω α : Type} {db : Database ω} {e : Entity α}

/-- **What completing one member does.** Either it stops before there are rows, and so does loading
ahead; or its rows are kept, loading ahead goes on behind them, and from whatever keeps them the
member is completed, or cannot be, in the same way. -/
theorem resolveOne_cases {p : Pending} {records : List α} (hp : p.owner < records.length)
    (k : ForeignCache) (w : ω) :
    (∃ err k' w', e.resolveOne db.foreignSource p records (k, w) = (.error err, k', w') ∧
      ∀ rest, db.loadAhead e (p :: rest) k w = (.error err, w')) ∨
    ∃ r k' w', e.resolveOne db.foreignSource p records (k, w) = (r, k', w') ∧
      (∀ rest, db.loadAhead e (p :: rest) k w = db.loadAhead e rest k' w') ∧
      (∀ records', r = .ok records' → records'.length = records.length) ∧
      ∀ kept : ForeignCache, k'.KeptIn kept → ∀ v : ω,
        e.resolveOne kept.source p records v = (r, v) := by
  have ha : records[p.owner]? = some records[p.owner] := List.getElem?_eq_getElem hp
  cases hf : e.foreign[p.member]? with
  | none =>
    refine .inr ⟨.ok records, k, w, ?_, fun rest => congrFun (loadAhead_of_none hf) w, ?_, ?_⟩
    · rw [Entity.resolveOne_of_none hf]
      rfl
    · intro records' h
      cases h
      rfl
    · intro kept _ v
      rw [Entity.resolveOne_of_none hf]
      rfl
  | some f =>
    cases hr : Entity.request f p.key with
    | error err =>
      exact .inl ⟨err, k, w, Entity.resolveOne_of_request_error hf ha hr,
        fun rest => loadAhead_of_request_error hf hr⟩
    | ok r =>
      rcases hs : db.foreignSource r (k, w) with ⟨err | rows, k', w'⟩
      · exact .inl ⟨err, k', w', Entity.resolveOne_of_error hf ha hr hs,
          fun rest => loadAhead_of_error hf hr hs⟩
      · refine .inr ⟨_, k', w', Entity.resolveOne_of_ok hf ha hr hs,
          fun rest => loadAhead_of_ok hf hr hs, ?_, ?_⟩
        · intro records' h
          obtain ⟨a, -, rfl⟩ := map_eq_ok_iff.mp h
          exact List.length_set
        · intro kept hk v
          have hrows : kept.find? r = some rows := hk r rows (find?_of_foreignSource hs)
          exact Entity.resolveOne_of_ok hf ha hr (kept.source_of_find hrows v)

/-- **What is completed step by step is completed from rows loaded ahead.** The same queries are
sent, and from what they kept, or from more, the records are completed alike. -/
theorem resolve_ahead_of_ok : ∀ {pending : List Pending} {records : List α} {k : ForeignCache}
    {w : ω} {records' : List α} {k' : ForeignCache} {w' : ω},
    (∀ p ∈ pending, p.owner < records.length) →
    e.resolve db.foreignSource pending records (k, w) = ((records', .ok ()), k', w') →
    db.loadAhead e pending k w = (.ok k', w') ∧
      ∀ kept : ForeignCache, k'.KeptIn kept → ∀ v : ω,
        e.resolve kept.source pending records v = ((records', .ok ()), v)
  | [], records, k, w, _, _, _, _, h => by
    cases h
    exact ⟨rfl, fun _ _ _ => rfl⟩
  | p :: rest, records, k, w, records', k', w', ho, h => by
    obtain ⟨hp, hrest⟩ := List.forall_mem_cons.mp ho
    obtain ⟨err, k₁, w₁, hone, -⟩ | ⟨r, k₁, w₁, hone, hload, hlength, hkept⟩ :=
      resolveOne_cases hp k w
    · rw [Entity.resolve_cons_of_error hone] at h
      cases h
    · cases r with
      | error err =>
        rw [Entity.resolve_cons_of_error hone] at h
        cases h
      | ok records₁ =>
        rw [Entity.resolve_cons_of_ok hone] at h
        have ho₁ : ∀ q ∈ rest, q.owner < records₁.length := by rwa [hlength records₁ rfl]
        obtain ⟨hahead, hresolve⟩ := resolve_ahead_of_ok ho₁ h
        refine ⟨(hload rest).trans hahead, fun kept hk v => ?_⟩
        have hk₁ : k₁.KeptIn kept := (keptIn_of_loadAhead hahead).trans hk
        rw [Entity.resolve_cons_of_ok (hkept kept hk₁ v)]
        exact hresolve kept hk v

/-- Where completing step by step fails, completing from rows loaded ahead fails, if they could be
loaded at all. -/
theorem resolve_ahead_of_error : ∀ {pending : List Pending} {records : List α} {k : ForeignCache}
    {w : ω} {records' : List α} {err : Error} {x : ForeignCache × ω} {k' : ForeignCache} {w' : ω},
    (∀ p ∈ pending, p.owner < records.length) →
    e.resolve db.foreignSource pending records (k, w) = ((records', .error err), x) →
    db.loadAhead e pending k w = (.ok k', w') →
    ∃ left, ∀ v : ω, e.resolve k'.source pending records v = ((left, .error err), v)
  | [], _, _, _, _, _, _, _, _, _, h, _ => by cases h
  | p :: rest, records, k, w, records', err, x, k', w', ho, h, hahead => by
    obtain ⟨hp, hrest⟩ := List.forall_mem_cons.mp ho
    obtain ⟨err₁, k₁, w₁, -, hload⟩ | ⟨r, k₁, w₁, hone, hload, hlength, hkept⟩ :=
      resolveOne_cases hp k w
    · rw [hload rest] at hahead
      cases hahead
    · rw [hload rest] at hahead
      have hk₁ : k₁.KeptIn k' := keptIn_of_loadAhead hahead
      cases r with
      | error err₁ =>
        rw [Entity.resolve_cons_of_error hone] at h
        cases h
        exact ⟨records, fun v => Entity.resolve_cons_of_error (hkept k' hk₁ v)⟩
      | ok records₁ =>
        rw [Entity.resolve_cons_of_ok hone] at h
        have ho₁ : ∀ q ∈ rest, q.owner < records₁.length := by rwa [hlength records₁ rfl]
        obtain ⟨left, hleft⟩ := resolve_ahead_of_error ho₁ h hahead
        refine ⟨left, fun v => ?_⟩
        rw [Entity.resolve_cons_of_ok (hkept k' hk₁ v)]
        exact hleft v

end Database

/-! ## Selections -/

namespace Entity

variable {α : Type} {e : Entity α}

theorem owner_of_mem_pendingOf {columns : List String} {owner : Nat} {r : Row} {p : Pending}
    (h : p ∈ e.pendingOf columns owner r) : p.owner = owner := by
  obtain ⟨⟨f, i⟩, -, hp⟩ := List.mem_filterMap.mp (List.mem_filter.mp h).1
  obtain ⟨place, -, rfl⟩ := Option.map_eq_some_iff.mp hp
  rfl

/-- Pending members are of the record that was read. -/
theorem owner_of_read {kept kept' : Option (Mapping.Layout α)} {owner : Nat} {r : Row} {a : α}
    {pending : List Pending} (h : e.read kept owner r = (kept', .ok (a, pending))) :
    ∀ p ∈ pending, p.owner = owner := by
  unfold read at h
  obtain ⟨-, ha⟩ := Prod.mk.inj h
  obtain ⟨a', -, hp⟩ := map_eq_ok_iff.mp ha
  obtain ⟨-, rfl⟩ := Prod.mk.inj hp
  exact fun p hp => owner_of_mem_pendingOf hp

/-- Pending members are of the records read. -/
theorem owner_of_readRows : ∀ {rows : List (Result Row)} {kept : Option (Mapping.Layout α)}
    {owner : Nat} {records : List α} {pending : List Pending},
    e.readRows kept owner rows = .ok (records, pending) →
    ∀ p ∈ pending, p.owner < owner + records.length
  | [], _, _, _, _, h => by
    cases h
    exact fun _ hp => by cases hp
  | .error err :: _, _, _, _, _, h => by cases h
  | .ok r :: rest, kept, owner, records, pending, h => by
    unfold readRows at h
    rcases hread : e.read kept owner r with ⟨kept', err | ⟨a, ps⟩⟩ <;> rw [hread] at h
    · cases h
    · obtain ⟨⟨as, more⟩, hrest, hcons⟩ := map_eq_ok_iff.mp h
      obtain ⟨rfl, rfl⟩ := Prod.mk.inj hcons
      intro p hp
      rw [List.length_cons]
      rcases List.mem_append.mp hp with hp | hp
      · have := owner_of_read hread p hp
        omega
      · have := owner_of_readRows hrest p hp
        omega

end Entity

namespace Database

variable {ω α : Type} {db : Database ω} {e : Entity α}

theorem owner_of_readRecords {q : Query} {w w' : ω} {records : List α} {pending : List Pending}
    (h : db.readRecords e q w = (.ok (records, pending), w')) :
    ∀ p ∈ pending, p.owner < records.length := by
  unfold readRecords at h
  rcases hs : db.selectRows q w with ⟨_ | rows, w₁⟩
  · rw [Run.bind_of_error hs] at h
    cases h
  · rw [Run.bind_of_ok hs] at h
    obtain ⟨hr, -⟩ := Prod.mk.inj h
    intro p hp
    have := Entity.owner_of_readRows hr p hp
    omega

/-- Completing records from rows loaded ahead, where records completed step by step succeed with
the same records in the same state, and where they fail fails. -/
theorem attach_onSuccess {pending : List Pending} {records : List α}
    (ho : ∀ p ∈ pending, p.owner < records.length) :
    Run.AgreeOnSuccess Eq
      (.step fun w =>
        let (r, _, w) := e.attachAll db.foreignSource pending records ({}, w)
        (r, w))
      (do
        let cache ← db.loadAhead e pending {}
        e.attachAll cache.source pending records) := by
  rintro w _ rfl
  rw [Run.step_apply]
  rcases hs : e.resolve db.foreignSource pending records ({}, w) with ⟨⟨left, err | _⟩, k, w₁⟩
  · rw [Entity.attachAll_of_error hs]
    refine ⟨fun a ha => (by cases ha), fun _ _ => ?_⟩
    rcases hl : db.loadAhead e pending {} w with ⟨err' | k', w'⟩
    · exact ⟨err', congrArg Prod.fst (Run.bind_of_error hl _)⟩
    · obtain ⟨left', hleft⟩ := resolve_ahead_of_error ho hs hl
      rw [Run.bind_of_ok hl, Entity.attachAll_of_error (hleft w')]
      exact ⟨err, rfl⟩
  · obtain ⟨hl, hresolve⟩ := resolve_ahead_of_ok ho hs
    rw [Entity.attachAll_of_ok hs, Run.bind_of_ok hl,
      Entity.attachAll_of_ok (hresolve k (.refl k) w₁)]
    exact ⟨fun a ha => ⟨ha, rfl⟩, fun _ he => (by cases he)⟩

/-- **Loading ahead makes no difference to a selection that succeeds**, and none to whether it
succeeds. -/
theorem select_onSuccess (e : Entity α) (q : Query) :
    Run.AgreeOnSuccess Eq (db.select e q) (db.selectAhead e q) := by
  rintro w _ rfl
  unfold select selectAhead
  rcases hr : db.readRecords e q w with ⟨err | ⟨records, pending⟩, w₁⟩
  · rw [Run.bind_of_error hr, Run.bind_of_error hr]
    exact ⟨fun a ha => ⟨ha, rfl⟩, fun err he => ⟨err, he⟩⟩
  · rw [Run.bind_of_ok hr, Run.bind_of_ok hr]
    dsimp only
    cases db.config.loadForeign with
    | false => exact (Run.agree_pure records).onSuccess w₁ w₁ rfl
    | true => exact attach_onSuccess (owner_of_readRecords hr) w₁ w₁ rfl

/-- Where foreign members are not loaded, there is nothing to load ahead. -/
theorem selectAhead_of_off (h : db.config.loadForeign = false) (e : Entity α) (q : Query) :
    db.selectAhead e q = db.select e q := by
  unfold selectAhead select
  rw [h]
  rfl

end Database
end SqlWeave
