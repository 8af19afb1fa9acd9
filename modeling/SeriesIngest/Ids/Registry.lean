import SeriesIngest.Error

/-!
# Id registries

Each kind of name has its own id space of a fixed byte width. Ids are handed out in order from
1, written as `width` big-endian bytes; a space of width `w < 8` holds ids up to `2 ^ (8w) - 1`
and one of width 8 or more up to `2 ^ 64 - 1`. The counter advances on every allocation, also
one that fails because the space is used up. It is a 64-bit word and wraps: the allocation after
the `2 ^ 64 - 1`-st reads 0, which no space refuses.
-/

namespace SeriesIngest

/-- One id space: its width, the next id to hand out, and the names with their ids. -/
structure IdSpace where
  width : Nat
  next : UInt64 := 1
  entries : List (String × Bytes) := []
  deriving Repr

namespace IdSpace

/-- The greatest id of the space. -/
def maxId (s : IdSpace) : Nat := if s.width ≥ 8 then Nat.pow 2 64 - 1 else Nat.pow 2 (8 * s.width) - 1

/-- The id of a name. -/
def id? (s : IdSpace) (name : String) : Option Bytes :=
  (s.entries.find? fun e => e.1 = name).map Prod.snd

/-- The name of an id. -/
def name? (s : IdSpace) (id : Bytes) : Option String :=
  (s.entries.find? fun e => e.2 = id).map Prod.fst

/-- The id of a name, handing out the next one for a new name. -/
def getOrCreate (s : IdSpace) (kind : IdKind) (name : String) : IdSpace × Except WriteError Bytes :=
  match s.id? name with
  | some id => (s, .ok id)
  | none =>
    let n := s.next
    let s := { s with next := n + 1 }
    if n.toNat > s.maxId then (s, .error (.idsExhausted kind s.width))
    else
      let id := Bytes.ofNatBE (min s.width 8) n.toNat
      ({ s with entries := s.entries ++ [(name, id)] }, .ok id)

end IdSpace

/-- The three id spaces. -/
structure IdRegistry where
  metrics : IdSpace
  tagKeys : IdSpace
  tagValues : IdSpace
  deriving Repr

namespace IdRegistry

/-- Empty spaces of the given widths. -/
def ofWidths (metric tagKey tagValue : Nat) : IdRegistry :=
  ⟨{ width := metric }, { width := tagKey }, { width := tagValue }⟩

/-- The space of a kind. -/
def space (r : IdRegistry) : IdKind → IdSpace
  | .metric => r.metrics
  | .tagKey => r.tagKeys
  | .tagValue => r.tagValues

/-- Replaces the space of a kind. -/
def setSpace (r : IdRegistry) : IdKind → IdSpace → IdRegistry
  | .metric, s => { r with metrics := s }
  | .tagKey, s => { r with tagKeys := s }
  | .tagValue, s => { r with tagValues := s }

/-- The width of a kind's ids. -/
def width (r : IdRegistry) (k : IdKind) : Nat := (r.space k).width

/-- The id of a name. -/
def id? (r : IdRegistry) (k : IdKind) (name : String) : Option Bytes := (r.space k).id? name

/-- The name of an id. -/
def name? (r : IdRegistry) (k : IdKind) (id : Bytes) : Option String := (r.space k).name? id

/-- The number of names with an id. -/
def count (r : IdRegistry) (k : IdKind) : Nat := (r.space k).entries.length

/-- The id of a name, handing out a new one if needed. -/
def getOrCreate (r : IdRegistry) (k : IdKind) (name : String) : IdRegistry × Except WriteError Bytes :=
  let (s, res) := (r.space k).getOrCreate k name
  (r.setSpace k s, res)

end IdRegistry

end SeriesIngest
