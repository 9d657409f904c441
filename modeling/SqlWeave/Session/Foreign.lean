import SqlWeave.Session.Database

/-!
# Loading foreign members

The rows of a foreign member are found by a query of its own, sent once for each key. A database
loads them while records are completed, one pending member after another. Where calls can be
cancelled, all of them are loaded ahead and the records completed then.

Results:
* `find?_insert`: rows that were kept are found again.
-/

namespace SqlWeave

/-- Rows already loaded for foreign members, the latest first. -/
structure ForeignCache where
  entries : List ((String × String × String) × List Row) := []

namespace ForeignRequest

/-- What rows are kept under: the table, the column and the text of the key. -/
def cacheKey (r : ForeignRequest) : String × String × String := (r.table, r.column, r.key.keyText)

/-- The query for the rows. -/
def query (r : ForeignRequest) (c : Config) : Query :=
  let q := (Query.new (.parse r.table) c).filter (.equals r.column r.key)
  match r.kind with
  | .belongsTo => { q with limit := some 1 }
  | .hasMany => q

end ForeignRequest

namespace ForeignCache

/-- The rows kept for a request. -/
def find? (c : ForeignCache) (r : ForeignRequest) : Option (List Row) := c.entries.lookup r.cacheKey

/-- Keeps the rows of a request. -/
def insert (c : ForeignCache) (r : ForeignRequest) (rows : List Row) : ForeignCache :=
  ⟨(r.cacheKey, rows) :: c.entries⟩

theorem find?_insert (c : ForeignCache) (r : ForeignRequest) (rows : List Row) :
    (c.insert r rows).find? r = some rows := by
  simp [find?, insert]

/-- The rows kept for requests as a source; where nothing is kept there are no rows. -/
def source {ω : Type} (c : ForeignCache) : ForeignSource ω := fun r => pure ((c.find? r).getD [])

end ForeignCache

namespace Database

variable {ω α : Type}

/-- A source that sends a query where no rows are kept. -/
def foreignSource (db : Database ω) : ForeignSource (ForeignCache × ω) := fun r (cache, w) =>
  match cache.find? r with
  | some rows => (.ok rows, cache, w)
  | none =>
    match db.selectRows (r.query db.config) w with
    | (.ok rows, w) => (.ok rows, cache.insert r rows, w)
    | (.error e, w) => (.error e, cache, w)

/-- The records of a query's rows with their pending members. -/
def readRecords (db : Database ω) (e : Entity α) (q : Query) : Run ω (List α × List Pending) := do
  let rows ← db.selectRows q
  e.readRows none 0 (rows.map .ok)

/-- The records of a query. Foreign members are loaded where the options ask for it. -/
def select (db : Database ω) (e : Entity α) (q : Query) : Run ω (List α) := do
  let (records, pending) ← db.readRecords e q
  if db.config.loadForeign then
    .step fun w =>
      let (r, _, w) := e.attachAll db.foreignSource pending records ({}, w)
      (r, w)
  else pure records

/-- The records of the table. -/
def selectAll (db : Database ω) (e : Entity α) : Run ω (List α) :=
  db.select e (db.queryOf e.toMapping)

/-- Loads the rows of all pending members. -/
def loadAhead (db : Database ω) (e : Entity α) : List Pending → ForeignCache → Run ω ForeignCache
  | [], cache => pure cache
  | p :: rest, cache =>
    match e.foreign[p.member]? with
    | none => db.loadAhead e rest cache
    | some f => do
      let r ← Entity.request f p.key
      match cache.find? r with
      | some _ => db.loadAhead e rest cache
      | none =>
        let rows ← db.selectRows (r.query db.config)
        db.loadAhead e rest (cache.insert r rows)

/-- The records of a query. Foreign members are loaded ahead where the options ask for it. -/
def selectAhead (db : Database ω) (e : Entity α) (q : Query) : Run ω (List α) := do
  let (records, pending) ← db.readRecords e q
  if db.config.loadForeign then
    let cache ← db.loadAhead e pending {}
    e.attachAll cache.source pending records
  else pure records

end Database

/-- Options, an executor whose calls can be cancelled, and what watches the statements. -/
structure CancellableDatabase (ω : Type) where
  config : Config
  executor : CancellableExecutor ω
  hooks : List (Hook ω) := []
  tag : Option String := none
  log : LogEvent → ω → ω := fun _ w => w
  clock : ω → Nat := fun _ => 0

namespace CancellableDatabase

variable {ω α : Type}

/-- The database for calls with a token, which the executor gets with each of them. -/
def under (db : CancellableDatabase ω) (t : CancelToken ω) : Database ω :=
  { config := db.config, executor := db.executor t, hooks := db.hooks, tag := db.tag,
    log := db.log, clock := db.clock }

/-- The records of a query. -/
def select (db : CancellableDatabase ω) (t : CancelToken ω) (e : Entity α) (q : Query) :
    Run ω (List α) := (db.under t).selectAhead e q

/-- The records of the table. -/
def selectAll (db : CancellableDatabase ω) (t : CancelToken ω) (e : Entity α) : Run ω (List α) :=
  db.select t e ((db.under t).queryOf e.toMapping)

end CancellableDatabase
end SqlWeave
