import SeriesIngest.Write.Session

/-!
# Pending writes

Adding a point decides at once whatever can fail on the point alone; the rest is a pending
write, which runs when it is awaited:

* `failed`: an error found at once that belongs to the write (an unknown metric), given back
  when awaited;
* `issue`: a store request decided at once;
* `point`: a point written through the database handle: the filter is asked, a metric without
  id is refused, and the request is issued, durably;
* `admitted`: a writer's point under a filter: the filter is asked, then the session (as it is
  when the write runs) places the point, and the request is issued.
-/

namespace SeriesIngest

/-- A write that runs when awaited. -/
inductive PendingWrite where
  | failed (e : WriteError)
  | issue (r : WriteRequest)
  | point (metric : String) (tags : Tags) (ts : Int) (value : EncodedValue) (row : RowKey)
      (qualifier : Qualifier)
  | admitted (session : Nat) (metric : String) (tags : Tags) (ts : Int) (value : EncodedValue)
      (durable : Bool)
  deriving Repr

namespace Db

/-- Adds an encoded point through the handle: checks it, builds its key and column name. -/
def addEncodedPoint (db : Db) (metric : String) (ts : Int) (value : EncodedValue) (tags : Tags) :
    Db × Except WriteError PendingWrite :=
  match checkTimestamp ts with
  | .error e => (db, .error e)
  | .ok () =>
    match db.buildTemplate metric tags with
    | (db, .error e) => (db, .error e)
    | (db, .ok template) =>
      let row := db.withBaseTime template (db.baseTimeOf ts)
      match buildQualifier ts row.baseTime value.flags with
      | .error e => (db, .error e)
      | .ok q => (db, .ok (.point metric tags ts value row q))

/-- Adds a point through the handle. -/
def addPoint (db : Db) (metric : String) (ts : Int) (value : DataValue) (tags : Tags) :
    Db × Except WriteError PendingWrite :=
  match encodeValue value with
  | .error e => (db, .error e)
  | .ok v => db.addEncodedPoint metric ts v tags

/-- Runs a pending write. -/
def settle (db : Db) : PendingWrite → Db × Except WriteError Unit
  | .failed e => (db, .error e)
  | .issue r => db.dispatch r
  | .point metric tags ts value row q =>
    match db.consult metric ts value tags with
    | (db, .error e) => (db, .error e)
    | (db, .ok false) => (db, .ok ())
    | (db, .ok true) =>
      if !row.metricResolved then
        let (db, e) := db.rejectMetric metric
        (db, .error e)
      else db.dispatch ⟨row.bytes, q, value.bytes, true⟩
  | .admitted sid metric tags ts value durable =>
    match db.consult metric ts value tags with
    | (db, .error e) => (db, .error e)
    | (db, .ok false) => (db, .ok ())
    | (db, .ok true) =>
      match db.writeAllowed sid metric ts value with
      | (db, .error e) => (db, .error e)
      | (db, .ok (row, q)) => db.dispatch ⟨row, q, value.bytes, durable⟩

end Db

end SeriesIngest
