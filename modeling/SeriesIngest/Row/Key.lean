import SeriesIngest.Row.Salt
import SeriesIngest.Ids.Registry
import SeriesIngest.Point.Identity

/-!
# Row keys

A row key carries its bytes, its layout, and whether the metric had an id: a metric without one
leaves zeros in its place, and writes to such a row are refused later.

A key template is built for an identity (a metric and its tags) with base time zero: the identity
is checked, the metric gets its id (a new one, or an existing one only, as configured), then each
tag in order its key id and value id; the pairs of ids are sorted and written after the base
time, and the salt is applied. `withBaseTime` writes another base time and salts again.
-/

namespace SeriesIngest

/-- A row key. -/
structure RowKey where
  bytes : Bytes
  layout : RowLayout
  metricResolved : Bool
  deriving Repr, DecidableEq

namespace RowKey

/-- The salt bytes. -/
def salt (k : RowKey) : Bytes := k.bytes.take k.layout.saltWidth

/-- The base time written in the key. -/
def baseTime (k : RowKey) : UInt32 :=
  (Bytes.toNatBE ((k.bytes.drop k.layout.timestampOffset).take RowLayout.timestampBytes)).toUInt32

/-- The metric id, when the metric had one. -/
def metricUid (k : RowKey) : Option Bytes :=
  if k.metricResolved then some ((k.bytes.drop k.layout.metricStart).take k.layout.metricWidth)
  else none

/-- Splits bytes into tag id pairs; `fuel` bounds the number of pairs. -/
def pairsOf (l : RowLayout) : Nat → Bytes → List (Bytes × Bytes)
  | 0, _ => []
  | fuel + 1, b =>
    if l.tagPairWidth = 0 ∨ b.length < l.tagPairWidth then []
    else (b.take l.tagNameWidth, (b.drop l.tagNameWidth).take l.tagValueWidth) ::
      pairsOf l fuel (b.drop l.tagPairWidth)

/-- The tag key and value ids, in key order. -/
def tagUids (k : RowKey) : List (Bytes × Bytes) :=
  let rest := k.bytes.drop k.layout.tagsOffset
  pairsOf k.layout rest.length rest

/-- The key in lowercase hexadecimal. -/
def debugText (k : RowKey) : String := Bytes.hex k.bytes

end RowKey

/-- What decides the keys of a database: layout, identity rules, id creation and salt. -/
structure KeyRules where
  layout : RowLayout
  maxTags : Nat
  allowed : String
  autoCreateMetrics : Bool
  autoCreateTags : Bool
  salter : Salter

namespace KeyRules

/-- The id of a tag key or value: created, or existing only. -/
def resolve (r : KeyRules) (ids : IdRegistry) (k : IdKind) (name : String) :
    IdRegistry × Except WriteError Bytes :=
  if r.autoCreateTags then ids.getOrCreate k name
  else
    match ids.id? k name with
    | some id => (ids, .ok id)
    | none => (ids, .error (.unresolved k name))

/-- The key id and value id of each tag, in order. -/
def resolveTags (r : KeyRules) : IdRegistry → List Tag → IdRegistry × Except WriteError (List (Bytes × Bytes))
  | ids, [] => (ids, .ok [])
  | ids, t :: ts =>
    match r.resolve ids .tagKey t.key with
    | (ids, .error e) => (ids, .error e)
    | (ids, .ok k) =>
      match r.resolve ids .tagValue t.value with
      | (ids, .error e) => (ids, .error e)
      | (ids, .ok v) =>
        match r.resolveTags ids ts with
        | (ids, .error e) => (ids, .error e)
        | (ids, .ok rest) => (ids, .ok ((k, v) :: rest))

/-- Id pairs in byte order. -/
def sortPairs (ps : List (Bytes × Bytes)) : List (Bytes × Bytes) :=
  ps.mergeSort fun a b => decide (a.1 < b.1 ∨ (a.1 = b.1 ∧ a.2 ≤ b.2))

/-- The key template of an identity, with base time zero. -/
def buildTemplate (r : KeyRules) (ids : IdRegistry) (metric : String) (tags : Tags) :
    IdRegistry × Except WriteError RowKey :=
  match checkIdentity metric tags r.maxTags r.allowed with
  | .error e => (ids, .error (.invalidSeries e))
  | .ok () =>
    let metricId : IdRegistry × Except WriteError (Option Bytes) :=
      if r.autoCreateMetrics then
        match ids.getOrCreate .metric metric with
        | (ids, .ok id) => (ids, .ok (some id))
        | (ids, .error e) => (ids, .error e)
      else (ids, .ok (ids.id? .metric metric))
    match metricId with
    | (ids, .error e) => (ids, .error e)
    | (ids, .ok mid) =>
      match r.resolveTags ids tags.toList with
      | (ids, .error e) => (ids, .error e)
      | (ids, .ok pairs) =>
        let l := r.layout
        let metricBytes := (mid.getD []) ++ List.replicate (l.metricWidth - (mid.getD []).length) 0
        let body := List.replicate l.saltWidth 0 ++ metricBytes.take l.metricWidth ++
          List.replicate RowLayout.timestampBytes 0 ++
          ((sortPairs pairs).map fun (k, v) => k ++ v).flatten
        (ids, .ok ⟨r.salter.apply body, l, mid.isSome⟩)

/-- The key with another base time, salted again. -/
def withBaseTime (r : KeyRules) (k : RowKey) (base : UInt32) : RowKey :=
  let off := r.layout.timestampOffset
  let bytes := k.bytes.take off ++ Bytes.ofNatBE RowLayout.timestampBytes base.toNat ++
    k.bytes.drop (off + RowLayout.timestampBytes)
  { k with bytes := r.salter.apply bytes }

end KeyRules

end SeriesIngest
