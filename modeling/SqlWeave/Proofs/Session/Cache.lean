import SqlWeave.Proofs.Session.Trace

/-!
# Foreign rows served from a cache

Requests for foreign rows are served one after another from one cache, and a query is sent only
where the cache has nothing under the key of the request. The key is made of the table, the column
and the text of the key value. It leaves out how many rows are asked for, and it tells some values
apart that are equal.

So a hit is not always what the query would have answered. It is, for every engine with fixed
answers, exactly if requests kept under one key have one statement (`Coherent`). Whatever the engine
answers, one query at most succeeds for each key.

Results:
* `selectsFor_le_one`: how many queries succeed under one key, by induction along the requests.
* `Steady.transparent`: coherent requests are served as their queries would be answered; a cache
  that is faithful to the requests to come stays so.
* `hits_transparent_iff`: both together, with the converse.
* `hits_differ`: a request for all rows served with the one row of another, and equal requests that
  are asked for twice.
-/

namespace SqlWeave

/-- The event is a query. -/
def Event.isQuery : Event → Bool
  | query _ => true
  | _ => false

/-- The number of queries among events. -/
def Event.queries (es : List Event) : Nat := es.countP isQuery

namespace ForeignRequest

/-- Equality of requests: keys are compared as values are. -/
def same (a b : ForeignRequest) : Bool :=
  a.table == b.table && a.column == b.column && a.key == b.key && a.kind = b.kind

/-- The statement that asks for the rows. -/
def statement (r : ForeignRequest) (c : Config) : Result Statement :=
  (r.query c).select.map fun e => e.render .atSign

/-- Requests kept under one key have one statement: what a later one asks for is what was asked for
earlier, if it could be asked for. -/
def Coherent (c : Config) (requests : List ForeignRequest) : Prop :=
  requests.Pairwise fun r r' =>
    r.cacheKey = r'.cacheKey → ∀ s, r.statement c = .ok s → r'.statement c = .ok s

end ForeignRequest

/-- A request that was served: its answer, and what was seen meanwhile. -/
structure Load where
  request : ForeignRequest
  result : Result (List Row)
  seen : List Event

/-- The number of queries that a load sent with success. -/
def Load.selects (l : Load) : Nat :=
  match l.result with
  | .ok _ => Event.queries l.seen
  | .error _ => 0

/-- The number of queries sent with success for some of the requests. -/
def selectsFor (p : ForeignRequest → Bool) (loads : List Load) : Nat :=
  ((loads.filter fun l => p l.request).map Load.selects).sum

namespace Database

variable {ω : Type}

/-- Serves requests in their order from a cache. -/
def serve (db : Database ω) : List ForeignRequest → ForeignCache → ω → List Load
  | [], _, _ => []
  | r :: rest, k, w =>
    let (result, k', w', seen) := db.traced.foreignSource r (k, w, [])
    ⟨r, result, seen⟩ :: db.serve rest k' w'

/-- The executor has one answer to a query and the hooks one verdict on a statement, in every
state. -/
structure Steady (db : Database ω) : Prop where
  query : ∀ s w w', (db.executor.query s w).1 = (db.executor.query s w').1
  verdict : ∀ c w w', (Hook.ask db.hooks c w).1 = (Hook.ask db.hooks c w').1

/-- Every load has the answer that the query for its request has, whenever it is sent. -/
def Transparent (db : Database ω) (loads : List Load) : Prop :=
  ∀ l ∈ loads, ∀ v, l.result = (db.selectRows (l.request.query db.config) v).1

end Database

/-! ## How many queries a load sends -/

namespace Event

theorem queries_append (es more : List Event) :
    queries (es ++ more) = queries es + queries more := List.countP_append

end Event

namespace Hook

variable {ω : Type}

/-- Hooks that are asked send no queries. -/
theorem queries_ask (hooks : List (Hook ω)) : ∀ (i : Nat) (c : Context) (x : Traced ω),
    Event.queries (ask (tracedFrom i hooks) c x).2.2 = Event.queries x.2 := by
  induction hooks with
  | nil => exact fun _ _ _ => rfl
  | cons h hooks ih =>
    intro i c x
    have hb : Event.queries (x.2 ++ [.before i c]) = Event.queries x.2 := Event.queries_append _ _
    unfold tracedFrom ask
    rcases ha : h.before c x.1 with ⟨_ | sql | reason, w⟩ <;> simp only [traced, ha]
    · exact (ih _ _ _).trans hb
    · exact (ih _ _ _).trans hb
    · exact hb

/-- Hooks that are told an outcome send no queries. -/
theorem queries_tell (hooks : List (Hook ω)) (c : Context) (n : Nat) (o : Outcome) :
    ∀ (i : Nat) (x : Traced ω),
      Event.queries (tell (tracedFrom i hooks) c n o x).2 = Event.queries x.2 := by
  induction hooks with
  | nil => exact fun _ _ => rfl
  | cons h hooks ih =>
    intro i x
    have ha : Event.queries (x.2 ++ [.after i c o]) = Event.queries x.2 := Event.queries_append _ _
    exact (ih (i + 1) ((h.traced i).after c n o x)).trans ha

end Hook

namespace Database

variable {ω : Type} {db : Database ω} {r : ForeignRequest} {k : ForeignCache}

/-- Reading the answer to a query sends no other. -/
theorem queries_query (db : Database ω) (s : Statement) (x : Traced ω) :
    Event.queries ((do (← db.traced.executor.query s).readAll : Run (Traced ω) (List Row)) x).2.2 =
      Event.queries x.2 + 1 := by
  have hq : (db.traced.executor.query s x).2.2 = x.2 ++ [.query s] := rfl
  rcases hr : db.traced.executor.query s x with ⟨err | c, w, es⟩ <;> rw [hr] at hq <;>
    change es = _ at hq
  · rw [Run.bind_of_error hr, hq, Event.queries_append]
    rfl
  · rw [Run.bind_of_ok hr]
    change Event.queries es = _
    rw [hq, Event.queries_append]
    rfl

/-- A statement sent as a query is one query at most. -/
theorem queries_rows (db : Database ω) (e : Expression) (x : Traced ω) :
    Event.queries (db.traced.rows e x).2.2 ≤ Event.queries x.2 + 1 := by
  unfold rows perform
  dsimp only
  have hask := Hook.queries_ask db.hooks 0 (db.traced.context (e.render .atSign) (some .select)) x
  change Event.queries (Hook.ask db.traced.hooks _ x).2.2 = _ at hask
  rcases ha : Hook.ask db.traced.hooks (db.traced.context (e.render .atSign) (some .select)) x with
    ⟨reason | c, w, es⟩ <;> rw [ha] at hask <;> dsimp only at hask ⊢
  · omega
  · refine le_of_eq_of_le (Hook.queries_tell db.hooks c _ _ 0 _) ?_
    have hquery := db.queries_query { e.render .atSign with sql := c.sql } (w, es)
    dsimp only at hquery
    omega

theorem queries_selectRows (db : Database ω) (q : Query) (x : Traced ω) :
    Event.queries (db.traced.selectRows q x).2.2 ≤ Event.queries x.2 + 1 := by
  cases hq : q.select with
  | error err =>
    rw [selectRows, hq]
    exact Nat.le_succ _
  | ok e =>
    rw [selectRows, hq]
    exact db.queries_rows e x

/-- **What serving a request is seen to do.** Rows that are kept are its answer, and nothing is
seen. Where there are none its query gives the answer, and is sent once at most; rows that it finds
are kept. -/
theorem load_cases (db : Database ω) (r : ForeignRequest) (k : ForeignCache) (w : ω) :
    (∃ rows, k.find? r = some rows ∧
      db.traced.foreignSource r (k, w, []) = (.ok rows, k, w, [])) ∨
    (∃ rows w' seen, k.find? r = none ∧ (db.selectRows (r.query db.config) w).1 = .ok rows ∧
      Event.queries seen ≤ 1 ∧
      db.traced.foreignSource r (k, w, []) = (.ok rows, k.insert r rows, w', seen)) ∨
    ∃ err w' seen, k.find? r = none ∧ (db.selectRows (r.query db.config) w).1 = .error err ∧
      db.traced.foreignSource r (k, w, []) = (.error err, k, w', seen) := by
  have hsame : (db.selectRows (r.query db.config) w).1 =
      (db.traced.selectRows (r.query db.config) (w, [])).1 :=
    (db.agree_traced.selectRows (r.query db.config) w (w, []) rfl).1
  have honce := db.queries_selectRows (r.query db.config) (w, [])
  obtain ⟨rows, hk, hs⟩ | ⟨rows, ⟨w', seen⟩, hk, hq, hs⟩ | ⟨err, ⟨w', seen⟩, hk, hq, hs⟩ :=
    db.traced.foreignSource_cases r k (w, [])
  · exact .inl ⟨rows, hk, hs⟩
  · have hq' : db.traced.selectRows (r.query db.config) (w, []) = (.ok rows, w', seen) := hq
    rw [hq'] at hsame honce
    exact .inr (.inl ⟨rows, w', seen, hk, hsame, honce, hs⟩)
  · have hq' : db.traced.selectRows (r.query db.config) (w, []) = (.error err, w', seen) := hq
    rw [hq'] at hsame
    exact .inr (.inr ⟨err, w', seen, hk, hsame, hs⟩)

theorem serve_cons {result : Result (List Row)} {k' : ForeignCache} {w w' : ω} {seen : List Event}
    {rest : List ForeignRequest}
    (h : db.traced.foreignSource r (k, w, []) = (result, k', w', seen)) :
    db.serve (r :: rest) k w = ⟨r, result, seen⟩ :: db.serve rest k' w' := by
  rw [serve, h]

end Database

/-! ## How many queries loads send -/

section Selects

variable {ω : Type} {db : Database ω} {p : ForeignRequest → Bool} {r : ForeignRequest}
  {l : Load} {loads : List Load}

theorem selectsFor_cons_of_pos (h : p l.request = true) :
    selectsFor p (l :: loads) = l.selects + selectsFor p loads := by
  have hf : (l :: loads).filter (fun l => p l.request) =
      l :: loads.filter fun l => p l.request := List.filter_cons_of_pos h
  unfold selectsFor
  rw [hf, List.map_cons, List.sum_cons]

theorem selectsFor_cons_of_neg (h : ¬p l.request = true) :
    selectsFor p (l :: loads) = selectsFor p loads := by
  have hf : (l :: loads).filter (fun l => p l.request) = loads.filter fun l => p l.request :=
    List.filter_cons_of_neg h
  unfold selectsFor
  rw [hf]

/-- Requests whose rows are kept are served without queries. -/
theorem selectsFor_of_kept : ∀ {rs : List ForeignRequest} {k : ForeignCache} {w : ω},
    (∀ r ∈ rs, p r = true → ∃ rows, k.find? r = some rows) → selectsFor p (db.serve rs k w) = 0
  | [], _, _, _ => rfl
  | r :: rest, k, w, h => by
    obtain ⟨hr, hrest⟩ := List.forall_mem_cons.mp h
    by_cases hp : p r = true
    · obtain ⟨rows, hk⟩ := hr hp
      rw [Database.serve_cons (Database.foreignSource_of_find hk (w, [])),
        selectsFor_cons_of_pos hp, selectsFor_of_kept hrest]
      rfl
    · rcases hs : db.traced.foreignSource r (k, w, []) with ⟨result, k', w', seen⟩
      rw [Database.serve_cons hs, selectsFor_cons_of_neg hp]
      refine selectsFor_of_kept fun r' hr' hp' => ?_
      obtain ⟨rows, hk⟩ := hrest r' hr' hp'
      exact ⟨rows, Database.keptIn_of_foreignSource hs r' rows hk⟩

/-- **One query at most succeeds for the requests under one key.** -/
theorem selectsFor_le_one : ∀ {rs : List ForeignRequest} {k : ForeignCache} {w : ω},
    (∀ r ∈ rs, ∀ r' ∈ rs, p r = true → p r' = true → r.cacheKey = r'.cacheKey) →
    selectsFor p (db.serve rs k w) ≤ 1
  | [], _, _, _ => Nat.zero_le 1
  | r :: rest, k, w, h => by
    obtain ⟨hr, hrest⟩ := List.forall_mem_cons.mp h
    rcases hs : db.traced.foreignSource r (k, w, []) with ⟨result, k', w', seen⟩
    have hlater : selectsFor p (db.serve rest k' w') ≤ 1 :=
      selectsFor_le_one fun r₁ h₁ r₂ h₂ =>
        hrest r₁ h₁ r₂ (List.mem_cons_of_mem r h₂)
    rw [Database.serve_cons hs]
    by_cases hp : p r = true
    · rw [selectsFor_cons_of_pos hp]
      cases result with
      | error err => exact le_of_eq_of_le (Nat.zero_add _) hlater
      | ok rows =>
        -- From here on the rows are kept for everything under the key.
        have hkept : selectsFor p (db.serve rest k' w') = 0 := by
          refine selectsFor_of_kept fun r' hr' hp' => ⟨rows, ?_⟩
          rw [ForeignCache.find?_congr (hr r' (List.mem_cons_of_mem r hr') hp hp').symm]
          exact Database.find?_of_foreignSource hs
        rw [hkept]
        obtain ⟨_, -, hload⟩ | ⟨_, _, _, -, -, honce, hload⟩ | ⟨_, _, _, -, -, hload⟩ :=
            db.load_cases r k w <;> rw [hs] at hload <;> cases hload
        · exact Nat.zero_le 1
        · exact honce
    · rwa [selectsFor_cons_of_neg hp]

end Selects

/-! ## Requests that are coherent -/

namespace Database

variable {ω : Type} {db : Database ω} {r r' : ForeignRequest} {rs : List ForeignRequest}
  {k : ForeignCache} {w : ω}

namespace Steady

variable (h : db.Steady)
include h

theorem readAll (s : Statement) (w w' : ω) :
    ((do (← db.executor.query s).readAll : Run ω (List Row)) w).1 =
      ((do (← db.executor.query s).readAll : Run ω (List Row)) w').1 := by
  have hq := h.query s w w'
  rcases ha : db.executor.query s w with ⟨a, w₁⟩
  rcases ha' : db.executor.query s w' with ⟨a', w₁'⟩
  rw [ha, ha'] at hq
  obtain rfl : a = a' := hq
  cases a with
  | error err => rw [Run.bind_of_error ha, Run.bind_of_error ha']
  | ok c =>
    rw [Run.bind_of_ok ha, Run.bind_of_ok ha']
    rfl

/-- One statement has one answer. -/
theorem rows {e e' : Expression} (he : e.render .atSign = e'.render .atSign) (w w' : ω) :
    (db.rows e w).1 = (db.rows e' w').1 := by
  unfold Database.rows perform
  dsimp only
  rw [he]
  have hv := h.verdict (db.context (e'.render .atSign) (some .select)) w w'
  rcases ha : Hook.ask db.hooks (db.context (e'.render .atSign) (some .select)) w with ⟨v, w₁⟩
  rcases ha' : Hook.ask db.hooks (db.context (e'.render .atSign) (some .select)) w' with ⟨v', w₁'⟩
  rw [ha, ha'] at hv
  obtain rfl : v = v' := hv
  cases v with
  | error reason => rfl
  | ok c => exact h.readAll _ w₁ w₁'

theorem selectRows (hs : r.statement db.config = r'.statement db.config) (w w' : ω) :
    (db.selectRows (r.query db.config) w).1 = (db.selectRows (r'.query db.config) w').1 := by
  unfold ForeignRequest.statement at hs
  unfold Database.selectRows
  rcases hq : (r.query db.config).select with err | e <;>
    rcases hq' : (r'.query db.config).select with err' | e' <;> rw [hq, hq'] at hs <;>
    first | cases hs | obtain hs := Except.ok.inj hs
  · rfl
  · exact h.rows hs w w'

end Steady

/-- A request that is answered has a statement. -/
theorem statement_of_selectRows {rows : List Row}
    (h : (db.selectRows (r.query db.config) w).1 = .ok rows) :
    ∃ s, r.statement db.config = .ok s := by
  unfold selectRows at h
  unfold ForeignRequest.statement
  cases hq : (r.query db.config).select with
  | error err => rw [hq] at h; cases h
  | ok e => exact ⟨_, rfl⟩

/-- What is kept for requests is what their queries answer. -/
def Faithful (db : Database ω) (k : ForeignCache) (rs : List ForeignRequest) : Prop :=
  ∀ r ∈ rs, ∀ rows, k.find? r = some rows → ∀ v, (db.selectRows (r.query db.config) v).1 = .ok rows

/-- The answer to a request stands for the answers to those after it under its key. -/
theorem Faithful.insert {rows : List Row} (h : db.Steady) (hf : db.Faithful k rs)
    (hr : ∀ r' ∈ rs, r.cacheKey = r'.cacheKey → ∀ s, r.statement db.config = .ok s →
      r'.statement db.config = .ok s)
    (ha : (db.selectRows (r.query db.config) w).1 = .ok rows) :
    db.Faithful (k.insert r rows) rs := by
  intro r' hr' rows' hrows v
  by_cases hk : r'.cacheKey = r.cacheKey
  · rw [ForeignCache.find?_congr hk, k.find?_insert] at hrows
    obtain rfl := Option.some.inj hrows
    obtain ⟨s, hs⟩ := statement_of_selectRows ha
    have hs' : r'.statement db.config = .ok s := hr r' hr' hk.symm s hs
    rw [h.selectRows (hs'.trans hs.symm) v w, ha]
  · rw [ForeignCache.find?_insert_of_ne hk] at hrows
    exact hf r' hr' rows' hrows v

/-- **Coherent requests are served as their queries would be answered**, from every cache that is
faithful to them. -/
theorem Steady.transparent (h : db.Steady) :
    ∀ {rs : List ForeignRequest} {k : ForeignCache} {w : ω},
      ForeignRequest.Coherent db.config rs → db.Faithful k rs → db.Transparent (db.serve rs k w)
  | [], _, _, _, _ => fun _ hl => by cases hl
  | r :: rest, k, w, hc, hf => by
    obtain ⟨hr, hrest⟩ := List.pairwise_cons.mp hc
    obtain ⟨hfr, hfrest⟩ := List.forall_mem_cons.mp hf
    obtain ⟨rows, hk, hs⟩ | ⟨rows, w', seen, -, ha, -, hs⟩ | ⟨err, w', seen, -, ha, hs⟩ :=
        db.load_cases r k w <;> rw [serve_cons hs] <;>
        refine List.forall_mem_cons.mpr ⟨fun v => ?_, ?_⟩
    · exact (hfr rows hk v).symm
    · exact h.transparent hrest hfrest
    · exact ha.symm.trans (h.selectRows rfl w v)
    · exact h.transparent hrest (Faithful.insert h hfrest hr ha)
    · exact ha.symm.trans (h.selectRows rfl w v)
    · exact h.transparent hrest hfrest

/-- What is kept for a request is what it is served with. -/
theorem answer_of_kept {rows : List Row} : ∀ {rs : List ForeignRequest} {k : ForeignCache} {w : ω},
    r ∈ rs → k.find? r = some rows → ∃ l ∈ db.serve rs k w, l.request = r ∧ l.result = .ok rows
  | r' :: rest, k, w, hr, hk => by
    rcases List.mem_cons.mp hr with rfl | hr
    · rw [serve_cons (foreignSource_of_find hk (w, []))]
      exact ⟨_, List.mem_cons_self, rfl, rfl⟩
    · rcases hs : db.traced.foreignSource r' (k, w, []) with ⟨result, k', w', seen⟩
      rw [serve_cons hs]
      obtain ⟨l, hl, hanswer⟩ := answer_of_kept hr (keptIn_of_foreignSource hs r rows hk)
      exact ⟨l, List.mem_cons_of_mem _ hl, hanswer⟩

/-! ### Engines with fixed answers -/

/-- The database whose engine answers queries by a function. -/
def fixed (c : Config) (f : Statement → Cursor) : Database Unit where
  config := c
  executor :=
    { execute := fun _ => pure 0, query := fun s => pure (f s), scalar := fun _ => pure .null
      begin := pure (), commit := pure (), rollback := pure () }

variable {c : Config} {f : Statement → Cursor}

theorem fixed_steady : (fixed c f).Steady := ⟨fun _ _ _ => rfl, fun _ _ _ => rfl⟩

theorem fixed_selectRows {s : Statement} (hs : r.statement c = .ok s) :
    ((fixed c f).selectRows (r.query c) ()).1 = (f s).readAll := by
  unfold ForeignRequest.statement at hs
  unfold selectRows
  cases hq : (r.query c).select with
  | error err => rw [hq] at hs; cases hs
  | ok e =>
    rw [hq] at hs
    obtain rfl := Except.ok.inj hs
    rfl

/-- An engine can tell one statement from all others. -/
theorem exists_telling (s : Statement) : ∃ f : Statement → Cursor, (f s).readAll = .ok [] ∧
    ∀ s', s' ≠ s → (f s').readAll = .ok [⟨[]⟩] := by
  classical
  refine ⟨fun s' => if s' = s then ⟨[], []⟩ else ⟨[], [.ok []]⟩, ?_, fun s' hs => ?_⟩
  · dsimp only
    rw [if_pos rfl]
    rfl
  · dsimp only
    rw [if_neg hs]
    rfl

/-- By an engine that tells a statement from all others, requests are served as their queries would
be answered only if those after one with the statement, under its key, have it too. -/
theorem statement_of_transparent {s : Statement} (hs : (f s).readAll = .ok [])
    (hother : ∀ s', s' ≠ s → (f s').readAll = .ok [⟨[]⟩]) :
    ∀ {rs : List ForeignRequest} {k : ForeignCache},
      (fixed c f).Transparent ((fixed c f).serve rs k ()) →
      rs.Pairwise fun r r' =>
        r.cacheKey = r'.cacheKey → r.statement c = .ok s → r'.statement c = .ok s
  | [], _, _ => .nil
  | r :: rest, k, h => by
    rcases hload : (fixed c f).traced.foreignSource r (k, (), []) with ⟨result, k', w', seen⟩
    rw [serve_cons hload] at h
    obtain ⟨hr, hrest⟩ := List.forall_mem_cons.mp h
    have hlater := statement_of_transparent hs hother hrest
    refine List.pairwise_cons.mpr ⟨fun r' hr' hk hrs => ?_, hlater⟩
    have hresult : result = .ok [] := (hr ()).trans ((fixed_selectRows hrs).trans hs)
    rw [hresult] at hload
    -- The rows of the first request are what the second is served with.
    have hkept : k'.find? r' = some [] := by
      rw [← ForeignCache.find?_congr hk]
      exact find?_of_foreignSource hload
    obtain ⟨l, hl, rfl, hanswer⟩ := answer_of_kept hr' hkept
    have hquery : ((fixed c f).selectRows (l.request.query c) ()).1 = .ok [] :=
      (hrest l hl ()).symm.trans hanswer
    obtain ⟨s', hs'⟩ : ∃ s', l.request.statement c = .ok s' := statement_of_selectRows hquery
    have hnone : (f s').readAll = .ok [] := (fixed_selectRows hs').symm.trans hquery
    by_contra hne
    have hss : s' ≠ s := fun he => hne (he ▸ hs')
    rw [hother s' hss] at hnone
    cases hnone

/-- Requests that are served transparently whatever the engine's answers are coherent. -/
theorem coherent_of_transparent
    (h : ∀ f : Statement → Cursor, (fixed c f).Transparent ((fixed c f).serve rs {} ())) :
    ForeignRequest.Coherent c rs := by
  refine List.pairwise_iff_getElem.mpr fun i j hi hj hij hk s hs => ?_
  obtain ⟨f, hf, hother⟩ := exists_telling s
  exact List.pairwise_iff_getElem.mp (statement_of_transparent hf hother (h f)) i j hi hj hij hk hs

/-! ### The two halves -/

/-- **Requests are served as their queries would be answered, by every engine with fixed answers,
exactly if those kept under one key have one statement.** And for all requests under one key one
query at most succeeds, whatever the engine answers. -/
theorem hits_transparent_iff (c : Config) (rs : List ForeignRequest) :
    ((∀ (ω : Type) (db : Database ω), db.config = c → db.Steady →
        ∀ w, db.Transparent (db.serve rs {} w)) ↔ ForeignRequest.Coherent c rs) ∧
      ∀ (ω : Type) (db : Database ω) (w : ω) (p : ForeignRequest → Bool),
        (∀ r ∈ rs, ∀ r' ∈ rs, p r = true → p r' = true → r.cacheKey = r'.cacheKey) →
        selectsFor p (db.serve rs {} w) ≤ 1 := by
  refine ⟨⟨fun h => ?_, ?_⟩, fun ω db w p hp => selectsFor_le_one hp⟩
  · exact coherent_of_transparent fun f => h Unit (fixed c f) rfl fixed_steady ()
  · rintro hc ω db rfl hsteady w
    exact hsteady.transparent hc fun r _ rows hk => by cases hk

/-- An engine that has two books of author 7, or the first where one is asked for. -/
def twoBooks : Database Unit :=
  fixed (.new .sqlite) fun s =>
    let first := "SELECT * FROM \"Books\" WHERE \"AuthorId\" = 7 LIMIT 1"
    .ofLines ["Id"] (if s.sql = first then [[.int 1]] else [[.int 1], [.int 2]])

/-- The request for books of an author. -/
def booksOf (author : Value) (kind : ForeignKind) : ForeignRequest :=
  ⟨"Books", "AuthorId", author, kind⟩

/-- A decimal number as it is written, null where it is none. -/
def decimalValue (s : String) : Value := ((Number.Decimal.parse? s).map .decimal).getD .null

/-- **Hits are not what queries would answer, and equal requests are asked for twice.** All books of
an author are served with the one that was asked for before. And the books of author 7 are queried
again for author 7.0, though these are one request. -/
theorem hits_differ :
    twoBooks.Steady ∧
      ¬twoBooks.Transparent
        (twoBooks.serve [booksOf (.int 7) .belongsTo, booksOf (.int 7) .hasMany] {} ()) ∧
      selectsFor (booksOf (decimalValue "7") .hasMany).same
        (twoBooks.serve
          [booksOf (decimalValue "7") .hasMany, booksOf (decimalValue "7.0") .hasMany] {} ()) = 2 := by
  refine ⟨fixed_steady, fun h => ?_, rfl⟩
  have hserved := h _ (List.mem_cons_of_mem _ List.mem_cons_self) ()
  have hlength := congrArg (fun a => a.toOption.map List.length) hserved
  exact absurd hlength (by decide)

end Database
end SqlWeave
