import SeriesIngest.Import.Dump
import SeriesIngest.Import.Schedule
import SeriesIngest.Write.Writer
import SeriesIngest.Json.Settings
import SeriesIngest.Point.Line

/-!
# The import tool

The import tool reads a file of import lines and writes every point through series writers
into a fresh in-memory store, then reports what it did. A run is a pure function of the options
and of what the file system gives for a path.

The order of a run:

* the options are printed; an empty path stops the run there, successfully;
* the settings are read from the settings file when one is named (else the defaults), and the
  append and out-of-order switches of the options are added to them;
* the table is created and the database built, which logs that it is ready;
* the file is split into lines; each line that holds a point goes to the writer of its series
  (set up, in batch-import mode, on the series' first point), and the write is kept pending;
  at most 256 writes are pending, one being waited for whenever that many are;
* the remaining writes are waited for, the writers leave batch-import mode, two summary lines
  are logged, and the rows are printed when asked for.

Which pending write finishes when the tool waits is the choice of the schedule the loop is given;
the runtime's, `Schedule.budgeted`, takes the oldest unless the turn's budget of store operations
is spent. Reading the file starts a new turn; `fileLines` says which lines read it.

A line, a series or a point that is refused is logged with its line number and counted as
rejected; a pending write refused for its point is logged without one. Any other failure stops
the run with exit code 1 and the failure on the error output.
-/

namespace SeriesIngest.Import

/-- What the file system gives for a path: the text of a file, or why it cannot be read, as
the operating system words it. -/
inductive FileRead where
  | contents (text : String)
  | failed (reason : String)
  deriving Repr, DecidableEq

/-- The reason of an error number, as the C library words it, with the number. -/
def osReason (code : Nat) : String :=
  let text := match code with
    | 1 => "Operation not permitted"
    | 2 => "No such file or directory"
    | 5 => "Input/output error"
    | 13 => "Permission denied"
    | 20 => "Not a directory"
    | 21 => "Is a directory"
    | 36 => "File name too long"
    | 40 => "Too many levels of symbolic links"
    | _ => "Unknown error " ++ toString code
  text ++ " (os error " ++ toString code ++ ")"

/-- A path that names nothing. -/
def FileRead.missing : FileRead := .failed (osReason 2)

/-- A path that names a directory. -/
def FileRead.directory : FileRead := .failed (osReason 21)

/-- A file whose bytes are not UTF-8. -/
def FileRead.notText : FileRead := .failed "stream did not contain valid UTF-8"

/-- The options of an import. -/
structure Options where
  path : String
  config : Option String := none
  append : Bool := false
  allowOutOfOrder : Bool := false
  dump : Bool := false
  deriving Repr, DecidableEq

/-- `Config { path: "import.txt", config: None, append: false, ... }`. -/
def Options.debugText (o : Options) : String :=
  let config := match o.config with
    | some c => "Some(" ++ Text.stringLiteral c ++ ")"
    | none => "None"
  "Config \x7b path: " ++ Text.stringLiteral o.path ++ ", config: " ++ config ++ ", append: " ++
    toString o.append ++ ", allow_out_of_order: " ++ toString o.allowOutOfOrder ++ ", dump: " ++
    toString o.dump ++ " \x7d"

/-- The end of a run: its exit code and its output and error lines. -/
structure Outcome where
  exitCode : Nat
  stdout : List String
  stderr : List String
  deriving Repr, DecidableEq

/-- The component name of the tool's log lines. -/
def logTarget : String := "tsdb_import"

/-- The writes kept pending before one is waited for. -/
def maxInFlight : Nat := 256

/-- The failure a write error wraps, if any. -/
def WriteError.cause : WriteError → Option String
  | .invalidSeries e => some e.message
  | .filter d => some d
  | .store e => some e.message
  | _ => none

/-- The error lines of a run stopped by a write error: the error, then what caused it. -/
def errorLines (e : WriteError) : List String :=
  ("Error: " ++ e.message) ::
    match WriteError.cause e with
    | some c => ["", "Caused by:", "    " ++ c]
    | none => []

/-- The settings of a run: read from the named file or the defaults, with the switches of the
options added. -/
def loadConfig (o : Options) (read : String → FileRead) : Except String Config := do
  let c ← match o.config with
    | none => pure {}
    | some path =>
      match read path with
      | .contents text => Json.readConfig text
      | .failed reason => throw reason
  pure { c with
    useAppendWrites := c.useAppendWrites || o.append
    allowOutOfOrder := c.allowOutOfOrder || o.allowOutOfOrder }

/-- Drops one carriage return that ends a line. -/
def dropReturn (s : String) : String :=
  if s.endsWith "\r" then s.dropEnd 1 |>.toString else s

/-- The bytes the tool reads from its file at once. -/
def chunkSize : Nat := 8192

/-- Whether reading the bytes from `start` through `stop` of a file of `size` bytes reads the
file: when a chunk starts among them, or when they reach past the end. -/
def readsFile (size start stop : Nat) : Bool :=
  let next := (start + chunkSize - 1) / chunkSize * chunkSize
  stop ≥ size || (next ≤ stop && next < size)

/-- The lines after byte `start`, each with whether reading it reads the file. -/
def linesFrom (size : Nat) : Nat → List String → List (String × Bool)
  | _, [] => []
  | start, [last] =>
    if last.isEmpty then [] else [(last, readsFile size start size)]
  | start, line :: rest =>
    let stop := start + line.utf8ByteSize
    (dropReturn line, readsFile size start stop) :: linesFrom size (stop + 1) rest

/-- The lines of a text: split at line feeds, a return before a line feed dropped, and a last
line without line feed kept when it is not empty; each line comes with whether reading it
reads the file. -/
def fileLines (text : String) : List (String × Bool) :=
  linesFrom text.utf8ByteSize 0 (text.splitOn "\n")

/-- The lines of a text, as `fileLines` splits it. -/
def splitLines (text : String) : List String := (fileLines text).map Prod.fst

/-- The state of a run: the database, the writer of each series in order of first use, the
pending writes in the order they are waited on, the budget left in the current turn, and the
points written and rejected. -/
structure Run where
  db : Db
  writers : List (String × Writer) := []
  pending : List PendingWrite := []
  budget : Nat := afterRead
  points : Nat := 0
  rejected : Nat := 0

namespace Run

/-- Logs a refusal on a line and counts it. -/
def reject (r : Run) (n : Nat) (message : String) : Run :=
  { r with db := r.db.say .warn logTarget ("line " ++ toString n ++ ": " ++ message),
           rejected := r.rejected + 1 }

/-- Runs a pending write: a refusal of its point is logged and counted, and any other failure
stops the run. -/
def settleWrite (r : Run) (p : PendingWrite) : Except (Db × WriteError) Run :=
  match r.db.settle p with
  | (db, .ok ()) => .ok { r with db := db, points := r.points + 1 }
  | (db, .error e) =>
    if e.isPointRejected then
      .ok { r with db := db.say .warn logTarget e.message, rejected := r.rejected + 1 }
    else .error (db, e)

/-- Waits for one pending write, as the schedule picks it. -/
def settleNext (sched : Schedule) (r : Run) : Except (Db × WriteError) Run :=
  match sched.next r.db r.budget r.pending with
  | none => .ok r
  | some (p, rest, b) => settleWrite { r with pending := rest, budget := b } p

/-- Waits for at most `n` pending writes. -/
def drainFrom (sched : Schedule) : Nat → Run → Except (Db × WriteError) Run
  | 0, r => .ok r
  | n + 1, r => do
    let r ← r.settleNext sched
    drainFrom sched n r

/-- Waits for every pending write, in a turn that starts with reading the end of the file. -/
def drain (sched : Schedule) (r : Run) : Except (Db × WriteError) Run :=
  drainFrom sched r.pending.length { r with budget := afterRead }

/-- The writer of a point's series, set up in batch-import mode on the series' first point;
none when the series is refused. -/
def writerFor (r : Run) (n : Nat) (series : String) (p : DataPoint) : Run × Option Writer :=
  match r.writers.lookup series with
  | some w => (r, some w)
  | none =>
    let (db, w) := r.db.newWriter
    match db.setSeries w p.metric p.tags with
    | (db, .error e) => (reject { r with db := db } n e.message, none)
    | (db, .ok w) =>
      let (db, w) := db.setBatchImport w true
      ({ r with db := db, writers := r.writers ++ [(series, w)] }, some w)

/-- Writes the point of line `n`. -/
def writePoint (sched : Schedule) (r : Run) (n : Nat) (p : DataPoint) :
    Except (Db × WriteError) Run :=
  match r.writerFor n (p.tags.seriesString p.metric) p with
  | (r, none) => .ok r
  | (r, some w) =>
    match r.db.addValue w p.timestamp p.value with
    | (db, .ok pw) =>
      let r := { r with db := db, pending := r.pending ++ [pw] }
      if r.pending.length ≥ maxInFlight then r.settleNext sched else .ok r
    | (db, .error e) =>
      if e.isPointRejected then .ok (reject { r with db := db } n e.message)
      else .error (db, e)

/-- Handles line `n`: a point is written, a blank or comment line skipped, and a line that does
not parse refused. -/
def step (sched : Schedule) (r : Run) (n : Nat) (line : String) : Except (Db × WriteError) Run :=
  match parseImportLine line with
  | .error e => .ok (r.reject n e.message)
  | .ok none => .ok r
  | .ok (some p) => r.writePoint sched n p

/-- Handles the lines from line `n` on; a line that reads the file starts a new turn. -/
def feed (sched : Schedule) (r : Run) (n : Nat) : List (String × Bool) →
    Except (Db × WriteError) Run
  | [] => .ok r
  | (line, reads) :: rest => do
    let r ← (if reads then { r with budget := afterRead } else r).step sched n line
    r.feed sched (n + 1) rest

/-- The end of the import: the writers leave batch-import mode and the summary is logged. -/
def finish (r : Run) : Db :=
  let db := r.writers.foldl (fun db (_, w) => (db.setBatchImport w false).1) r.db
  let rows := (db.store.rows db.table).length
  let s := db.stats
  let db := db.say .info logTarget ("imported " ++ toString r.points ++ " points (" ++
    toString r.rejected ++ " rejected) into " ++ toString rows ++ " rows of " ++
    toString r.writers.length ++ " series")
  db.say .info logTarget ("written " ++ toString s.pointsWritten ++ ", filtered " ++
    toString s.pointsFiltered ++ ", out of order " ++ toString s.outOfOrderDelegated ++
    ", rollovers " ++ toString s.rollovers ++ ", unknown metric " ++ toString s.metricRejections)

end Run

/-- Every row of the written table: `row <key hex>`, then its points indented. -/
def dumpLines (db : Db) : List String :=
  (db.store.rows db.table).flatMap fun (key, row) =>
    ("row " ++ Bytes.hex key) :: (rowLines row).map ("  " ++ ·)

/-- Runs an import with the given options over the given file system, its pending writes
finishing as the schedule picks them. -/
def run (sched : Schedule) (o : Options) (read : String → FileRead) : Outcome :=
  let head := "config: " ++ o.debugText
  if o.path.isEmpty then ⟨0, [head, "path MUST not be empty!"], []⟩
  else
    match loadConfig o read with
    | .error msg => ⟨1, [head], ["Error: " ++ msg]⟩
    | .ok config =>
      let store := ({} : Store).createTable (Bytes.ofString config.table) dataFamily
      match Db.build config store {} with
      | .error e => ⟨1, [head], errorLines e⟩
      | .ok db =>
        let logged (db : Db) := head :: db.log.toList.map LogLine.text
        match read o.path with
        | .contents text =>
          match (({ db := db } : Run).feed sched 1 (fileLines text)) >>= Run.drain sched with
          | .error (db, e) => ⟨1, logged db, errorLines e⟩
          | .ok r =>
            let db := r.finish
            ⟨0, logged db ++ (if o.dump then dumpLines db else []), []⟩
        | .failed reason => ⟨1, logged db, ["Error: " ++ reason]⟩

end SeriesIngest.Import
