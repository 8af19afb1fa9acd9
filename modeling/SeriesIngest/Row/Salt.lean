import SeriesIngest.Row.Layout
import SeriesIngest.Hash.XxHash64

/-!
# Salting row keys

A salter writes a prefix at the front of every row key, to spread the keys of one metric over
several regions. Without salt the prefix is empty. A bucket salter of width `w` (in bytes) hashes
the metric id and the tag ids of the key (the bytes after the salt, less the base time) and writes
the hash modulo the number of buckets as the key's first `w` bytes, big-endian. So all rows of a
series share one bucket, whatever their base time. The 64-bit hash is the salter's own; the
salter the settings ask for uses the seed-0 xxHash64 (`Salter.ofConfig`).

A bucket salter used on its own (`Salter.salt`) stops with a fault where a row ends before the
fields it hashes, where there is no bucket, and where the salt is wider than the eight bytes of
a bucket number. The write path salts keys of its own layout (`Salter.apply`).
-/

namespace SeriesIngest

/-- How row keys are salted. -/
inductive Salter where
  /-- No salt. -/
  | none
  /-- A `width`-byte bucket number below `buckets`, the metric id being `metricWidth` bytes, the
  parts of the row hashed with `hash`. -/
  | bucket (width : Nat) (buckets : UInt32) (metricWidth : Nat) (hash : Bytes → UInt64)

namespace Salter

/-- The number of salt bytes. -/
def width : Salter → Nat
  | .none => 0
  | .bucket w _ _ _ => w

/-- The bucket of a row: the hash of its metric id and tag ids modulo the bucket count. -/
def bucketOf (width : Nat) (buckets : UInt32) (metricWidth : Nat) (hash : Bytes → UInt64)
    (row : Bytes) : Nat :=
  let metricEnd := width + metricWidth
  let h := Hash.partsHash hash
    [(row.drop width).take metricWidth, row.drop (metricEnd + RowLayout.timestampBytes)]
  h.toNat % buckets.toNat

/-- Writes the salt over the first bytes of a row key. -/
def apply (s : Salter) (row : Bytes) : Bytes :=
  match s with
  | .none => row
  | .bucket w b m h =>
    if w = 0 then row else Bytes.ofNatBE w (bucketOf w b m h row) ++ row.drop w

end Salter

/-- Why a bucket salter stops. -/
inductive SaltFault where
  /-- The metric id would end at `fieldEnd`, past the `len` bytes of the row. -/
  | metricPastEnd (fieldEnd len : Nat)
  /-- The tag ids would start at `start`, past the `len` bytes of the row. -/
  | tagsPastEnd (start len : Nat)
  /-- There is no bucket to take the hash modulo. -/
  | noBuckets
  /-- The salt is wider than the eight bytes of a bucket number. -/
  | tooWide (width : Nat)
  deriving Repr, DecidableEq

namespace SaltFault

/-- The text of a fault. A salt of `w > 8` bytes would start `8 - w` bytes into the bucket
number, a subtraction that overflows. -/
def message : SaltFault → String
  | .metricPastEnd e len =>
    "range end index " ++ toString e ++ " out of range for slice of length " ++ toString len
  | .tagsPastEnd start len =>
    "range start index " ++ toString start ++ " out of range for slice of length " ++ toString len
  | .noBuckets => "attempt to calculate the remainder with a divisor of zero"
  | .tooWide _ => "attempt to subtract with overflow"

end SaltFault

namespace Salter

/-- The bucket of a row as a bucket salter reads it: the row must reach the tag ids, and there
must be a bucket. -/
def bucket? (width : Nat) (buckets : UInt32) (metricWidth : Nat) (hash : Bytes → UInt64)
    (row : Bytes) : Except SaltFault Nat :=
  if row.length < width + metricWidth then .error (.metricPastEnd (width + metricWidth) row.length)
  else if row.length < width + metricWidth + RowLayout.timestampBytes then
    .error (.tagsPastEnd (width + metricWidth + RowLayout.timestampBytes) row.length)
  else if buckets = 0 then .error .noBuckets
  else .ok (bucketOf width buckets metricWidth hash row)

/-- A salter writing the salt over the first bytes of a row on its own: a bucket salter reads
the bucket first, then writes at most eight bytes of it. -/
def salt (s : Salter) (row : Bytes) : Except SaltFault Bytes :=
  match s with
  | .none => .ok row
  | .bucket w b m h =>
    if w = 0 then .ok row
    else do
      let _ ← bucket? w b m h row
      if 8 < w then .error (.tooWide w) else .ok ((Salter.bucket w b m h).apply row)

end Salter

end SeriesIngest
