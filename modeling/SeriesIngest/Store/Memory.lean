import SeriesIngest.Bytes.Map
import SeriesIngest.Store.Error

/-!
# An in-memory store

The store holds tables; a table has one column family and rows in key order, and a row has
cells in column order. A write names table, row key, family, column and bytes: a put replaces
the cell, an append adds the bytes at the end of the cell. A write first passes the failure
switch, then needs the table, then the table's family. Each accepted write counts as durable or
deferred. The store also reads the flush interval that writers tune, in milliseconds, through a
handle that other stores may hold too.
-/

namespace SeriesIngest

/-- A row: cells by column. -/
abbrev Row := BytesMap Bytes

/-- A table: its column family and its rows by key. -/
structure Table where
  family : Bytes
  rows : BytesMap Row := []
  deriving Repr

/-- A write to one cell. -/
structure CellWrite where
  table : Bytes
  key : Bytes
  family : Bytes
  column : Bytes
  value : Bytes
  durable : Bool := true
  deriving Repr, DecidableEq

/-- The store. -/
structure Store where
  tables : List (Bytes × Table) := []
  /-- The flush interval as the store reads it through its handle. -/
  flushInterval : UInt16 := 0
  /-- The handle of the flush interval: stores made with one handle share the interval. -/
  flushHandle : Nat := 0
  durableWrites : Nat := 0
  deferredWrites : Nat := 0
  failing : Bool := false
  deriving Repr

namespace Store

/-- The table of a name. -/
def table? (s : Store) (name : Bytes) : Option Table :=
  (s.tables.find? fun e => e.1 = name).map Prod.snd

/-- Creates a table with a family; an existing table is left as it is. -/
def createTable (s : Store) (name family : Bytes) : Store :=
  match s.table? name with
  | some _ => s
  | none => { s with tables := s.tables ++ [(name, { family := family })] }

/-- Switches the refusal of all writes on or off. -/
def setFailing (s : Store) (on : Bool) : Store := { s with failing := on }

/-- Sets the flush interval. -/
def setFlushInterval (s : Store) (ms : UInt16) : Store := { s with flushInterval := ms }

/-- The row of a key in a table. -/
def row? (s : Store) (table key : Bytes) : Option Row :=
  (s.table? table).bind fun t => t.rows.find? key

/-- The rows of a table in key order; none for a table that does not exist. -/
def rows (s : Store) (table : Bytes) : BytesMap Row :=
  match s.table? table with
  | some t => t.rows
  | none => []

/-- Finds the table a write goes to, checking the switch, the table and the family. -/
def target (s : Store) (w : CellWrite) : Except StoreError Table :=
  if s.failing then .error (.rejected "store is failing writes")
  else
    match s.table? w.table with
    | none => .error (.tableNotFound w.table)
    | some t => if t.family = w.family then .ok t else .error (.familyNotFound w.table w.family)

/-- Replaces a table and counts the write. -/
def commit (s : Store) (name : Bytes) (t : Table) (durable : Bool) : Store :=
  { s with
    tables := s.tables.map fun e => if e.1 = name then (name, t) else e
    durableWrites := if durable then s.durableWrites + 1 else s.durableWrites
    deferredWrites := if durable then s.deferredWrites else s.deferredWrites + 1 }

/-- Writes the cell, replacing what was there. -/
def put (s : Store) (w : CellWrite) : Except StoreError Store := do
  let t ← s.target w
  let row := (t.rows.find? w.key).getD []
  pure (s.commit w.table { t with rows := t.rows.insert w.key (row.insert w.column w.value) } w.durable)

/-- Adds the bytes at the end of the cell. -/
def append (s : Store) (w : CellWrite) : Except StoreError Store := do
  let t ← s.target w
  let row := (t.rows.find? w.key).getD []
  let cell := (row.find? w.column).getD [] ++ w.value
  pure (s.commit w.table { t with rows := t.rows.insert w.key (row.insert w.column cell) } w.durable)

end Store

end SeriesIngest
