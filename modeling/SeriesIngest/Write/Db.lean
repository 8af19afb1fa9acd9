import SeriesIngest.Config.Basic
import SeriesIngest.Row.Key
import SeriesIngest.Store.Memory
import SeriesIngest.Write.Buffer
import SeriesIngest.Write.Compaction
import SeriesIngest.Write.Filter
import SeriesIngest.Codec.Append

/-!
# The database handle

A `Db` is the write path of one table: its settings, the rules for row keys, the id registry,
the store, an optional compaction queue and admission filter, the counters of what became of
points, the writers' sessions and the log.

A point written through the handle has its value encoded, its timestamp checked, its key built
for its identity with the base time of its timestamp, and its column name built against that
base time; all that happens at once and may fail. What is left to do becomes a pending write:
ask the filter, refuse a metric without an id, and issue the store request. Every store request
of the write path, from the handle or from a writer, is made by `Db.cellWrite` from a
`WriteRequest`: a put of the value to the point's column, or in append mode an append of column
name and value to the append column.
-/

namespace SeriesIngest

/-- Counters of what became of points. -/
structure WriteStats where
  metricRejections : Nat := 0
  pointsWritten : Nat := 0
  pointsFiltered : Nat := 0
  outOfOrderDelegated : Nat := 0
  rollovers : Nat := 0
  deriving Repr, DecidableEq

/-- The state a writer shares with its pending writes: the current row (none before a series
is set), whether the row has been opened at a base time, the samples written to it, and the
greatest timestamp accepted so far, in milliseconds. -/
structure Session where
  row : Option RowKey
  opened : Bool
  buffer : SampleBuffer
  watermark : Option Int
  deriving Repr

/-- A store write that a point asks for. -/
structure WriteRequest where
  row : Bytes
  qualifier : Qualifier
  value : Bytes
  durable : Bool
  deriving Repr, DecidableEq

/-- The write path of one table. -/
structure Db where
  config : Config
  rules : KeyRules
  ids : IdRegistry
  store : Store
  compaction : Option CompactionQueue
  filter : Option AdmissionFilter
  stats : WriteStats
  admissions : List Admission
  sessions : Array Session
  log : Array LogLine

/-- The salter the settings ask for, hashing with the seed-0 xxHash64. -/
def Salter.ofConfig (c : Config) : Salter :=
  if c.saltWidth > 0 then .bucket c.saltWidth c.saltBuckets c.metricWidth (Hash.xxHash64 0)
  else .none

/-- What a database is built with besides its settings and store. -/
structure DbParts where
  ids : Option IdRegistry := none
  salter : Option Salter := none
  compaction : Option CompactionQueue := none
  filter : Option AdmissionFilter := none

namespace Db

/-- The component name of the write path's log lines. -/
def logTarget : String := "tsdb_ingest::tsdb"

/-- Adds a log line. -/
def say (db : Db) (level : LogLevel) (target message : String) : Db :=
  { db with log := db.log.push ⟨level, target, message⟩ }

/-- Builds a database: the settings must be usable and every id width positive. -/
def build (config : Config) (store : Store) (parts : DbParts) : Except WriteError Db := do
  config.validate
  let ids := parts.ids.getD (IdRegistry.ofWidths config.metricWidth config.tagNameWidth config.tagValueWidth)
  let salter := parts.salter.getD (Salter.ofConfig config)
  let layout : RowLayout :=
    ⟨salter.width, ids.width .metric, ids.width .tagKey, ids.width .tagValue⟩
  if layout.metricWidth = 0 ∨ layout.tagNameWidth = 0 ∨ layout.tagValueWidth = 0 then
    throw (.config ("id widths must be positive: " ++ layout.debugText))
  let rules : KeyRules := ⟨layout, config.maxTags, config.allowedSpecialChars,
    config.autoCreateMetrics, config.autoCreateTags, salter⟩
  let db : Db := ⟨config, rules, ids, store, parts.compaction, parts.filter, {}, [], #[], #[]⟩
  pure (db.say .info logTarget ("tsdb write path ready: table " ++ config.table ++ ", window " ++
    toString config.window.toNat ++ "s, layout " ++ layout.debugText ++ ", appends " ++
    toString config.useAppendWrites))

/-- The table written to. -/
def table (db : Db) : Bytes := Bytes.ofString db.config.table

/-- The window of a row in seconds. -/
def window (db : Db) : Nat := db.config.window.toNat

/-- Checks a timestamp: not negative, and in milliseconds not past 13 digits nor past the last
second that a base time can hold. -/
def checkTimestamp (ts : Int) : Except WriteError Unit :=
  if ts < 0 then .error (.invalidTimestamp ts .negative)
  else if Time.isMillis ts then
    if ts > Time.maxMsTimestamp then .error (.invalidTimestamp ts .millisTooLarge)
    else if Time.toSeconds ts > Int.pow 2 32 - 1 then .error (.invalidTimestamp ts .beyondBaseTime)
    else .ok ()
  else .ok ()

/-- The base time of a timestamp under the database's settings. -/
def baseTimeOf (db : Db) (ts : Int) : UInt32 := db.config.baseTimeOf ts

/-- The key template of an identity, giving ids to new names as configured. -/
def buildTemplate (db : Db) (metric : String) (tags : Tags) : Db × Except WriteError RowKey :=
  let (ids, r) := db.rules.buildTemplate db.ids metric tags
  ({ db with ids := ids }, r)

/-- The key with another base time. -/
def withBaseTime (db : Db) (k : RowKey) (base : UInt32) : RowKey := db.rules.withBaseTime k base

/-- Moves a key to another base time and queues the old row for compaction. -/
def rollToBaseTime (db : Db) (k : RowKey) (base : UInt32) : Db × RowKey :=
  let next := db.withBaseTime k base
  ({ db with compaction := db.compaction.map fun q => q.schedule k.bytes k.baseTime }, next)

/-- Counts and reports a write refused for its metric having no id. -/
def rejectMetric (db : Db) (metric : String) : Db × WriteError :=
  let db := { db with stats := { db.stats with metricRejections := db.stats.metricRejections + 1 } }
  (db.say .warn logTarget ("rejected write to unknown metric " ++ metric), .unresolved .metric metric)

/-- Whether points pass through the filter. -/
def filtersPoints (db : Db) : Bool :=
  match db.filter with
  | some f => f.filtersPoints
  | none => false

/-- Asks the filter about a point: `true` to write it. A dropped point is counted. -/
def consult (db : Db) (metric : String) (ts : Int) (value : EncodedValue) (tags : Tags) :
    Db × Except WriteError Bool :=
  match db.filter with
  | some f =>
    if f.filtersPoints then
      let a : Admission := ⟨metric, Time.toMillis ts, value.bytes, tags, value.flags⟩
      let db := { db with admissions := db.admissions ++ [a] }
      match f.verdict a with
      | .error reason => (db, .error (.filter reason))
      | .ok true => (db, .ok true)
      | .ok false =>
        ({ db with stats := { db.stats with pointsFiltered := db.stats.pointsFiltered + 1 } }, .ok false)
    else (db, .ok true)
  | none => (db, .ok true)

/-- The store write of a request: a put to the point's column, or in append mode an append of
column name and value to the append column. -/
def cellWrite (db : Db) (r : WriteRequest) : CellWrite :=
  if db.config.useAppendWrites then
    ⟨db.table, r.row, dataFamily, appendColumn, (AppendPoint.mk r.qualifier r.value).toBytes, r.durable⟩
  else ⟨db.table, r.row, dataFamily, r.qualifier.toBytes, r.value, r.durable⟩

/-- Issues the store write of a request, counting it when the store takes it. -/
def dispatch (db : Db) (r : WriteRequest) : Db × Except WriteError Unit :=
  let w := db.cellWrite r
  let res := if db.config.useAppendWrites then db.store.append w else db.store.put w
  match res with
  | .error e => (db, .error (.store e))
  | .ok store =>
    ({ db with store := store, stats := { db.stats with pointsWritten := db.stats.pointsWritten + 1 } },
      .ok ())

end Db

end SeriesIngest
