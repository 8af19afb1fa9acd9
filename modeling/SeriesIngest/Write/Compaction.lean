import SeriesIngest.Bytes.Map

/-!
# The compaction queue

Rows left behind when a writer rolls over to a new base time are queued for compaction with
their base time; queuing a row again replaces its base time. A row is ready once its window has
passed: `base + window ≤ now`. Draining takes all ready rows, in key order.
-/

namespace SeriesIngest

/-- Rows waiting for compaction, with their base times. -/
structure CompactionQueue where
  window : UInt32
  rows : BytesMap UInt32 := []
  deriving Repr

namespace CompactionQueue

/-- Queues a row with its base time. -/
def schedule (c : CompactionQueue) (row : Bytes) (base : UInt32) : CompactionQueue :=
  { c with rows := c.rows.insert row base }

/-- Whether a row is queued. -/
def contains (c : CompactionQueue) (row : Bytes) : Bool := c.rows.contains row

/-- The number of queued rows. -/
def size (c : CompactionQueue) : Nat := c.rows.length

/-- Whether a queued base time is ready at `now`. -/
def ready (c : CompactionQueue) (now : Int) (base : UInt32) : Bool :=
  (base.toNat : Int) + c.window.toNat ≤ now

/-- Takes the ready rows, in key order. -/
def drain (c : CompactionQueue) (now : Int) : CompactionQueue × List (Bytes × UInt32) :=
  ({ c with rows := c.rows.filter fun e => !c.ready now e.2 }, c.rows.filter fun e => c.ready now e.2)

end CompactionQueue

end SeriesIngest
