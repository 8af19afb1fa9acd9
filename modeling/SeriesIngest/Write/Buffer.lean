import SeriesIngest.Codec.Qualifier

/-!
# The sample buffer of a row

A writer keeps the samples it has written to its current row: each sample's column name and
its raw value (the integer, or the float's bit pattern). The buffer has a capacity that starts
at `min 4 window` and doubles when full, up to a limit: the window in seconds, or a thousand
times it once a millisecond sample is present. A full buffer at its limit cannot take another
sample; the failed append still records that a millisecond sample was offered.
-/

namespace SeriesIngest

/-- The samples of a row with the bookkeeping of their capacity. -/
structure SampleBuffer where
  samples : List (Qualifier × Int)
  capacity : Nat
  window : Nat
  hasMillis : Bool
  deriving Repr

namespace SampleBuffer

/-- The capacity of an empty buffer. -/
def initialCapacity (window : Nat) : Nat := min 4 window

/-- An empty buffer for a window in seconds. -/
def empty (window : Nat) : SampleBuffer := ⟨[], initialCapacity window, window, false⟩

/-- The number of samples. -/
def size (b : SampleBuffer) : Nat := b.samples.length

/-- The most samples the buffer can hold. -/
def limit (b : SampleBuffer) : Nat := if b.hasMillis then b.window * 1000 else b.window

/-- Adds a sample, doubling the capacity (up to the limit) when the buffer is full. -/
def append (b : SampleBuffer) (q : Qualifier) (v : Int) : SampleBuffer × Except GrowthFault Unit :=
  let b := if q.isMillis then { b with hasMillis := true } else b
  if b.size = b.capacity then
    let grown := min (2 * b.capacity) b.limit
    if grown ≤ b.capacity then (b, .error ⟨b.capacity⟩)
    else ({ b with capacity := grown, samples := b.samples ++ [(q, v)] }, .ok ())
  else ({ b with samples := b.samples ++ [(q, v)] }, .ok ())

/-- Empties the buffer. -/
def reset (b : SampleBuffer) : SampleBuffer := empty b.window

/-- The sample at an index. -/
def get (b : SampleBuffer) (i : Nat) : Except WriteError (Qualifier × Int) :=
  match b.samples[i]? with
  | some s => .ok s
  | none => .error (.indexOutOfRange i b.size)

/-- The timestamp of a sample: the base time plus its offset, in the sample's resolution. -/
def timestamp (b : SampleBuffer) (i : Nat) (base : UInt32) : Except WriteError Int := do
  let (q, _) ← b.get i
  match q with
  | .seconds _ => pure ((base.toNat : Int) + q.deltaSeconds)
  | .millis _ => pure ((base.toNat : Int) * 1000 + q.offsetMs)

/-- Whether a sample is an integer. -/
def isInteger (b : SampleBuffer) (i : Nat) : Except WriteError Bool := do
  let (q, _) ← b.get i
  pure q.isInteger

/-- An integer sample. -/
def longValue (b : SampleBuffer) (i : Nat) : Except WriteError Int := do
  let (q, v) ← b.get i
  if q.isInteger then pure v else throw (.typeMismatch i .long)

/-- A float sample, widened to a double. -/
def doubleValue (b : SampleBuffer) (i : Nat) : Except WriteError Float.Binary64 := do
  let (q, v) ← b.get i
  if q.isInteger then throw (.typeMismatch i .float)
  else pure (Float.Binary32.widen ⟨(v % Int.pow 2 32).toNat.toUInt32⟩)

end SampleBuffer

end SeriesIngest
