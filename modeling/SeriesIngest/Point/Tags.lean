/-!
# Tags and series names

A tag is a key and a value; the tags of a point keep the order they were given in. The series
string of a metric and its tags lists the tags sorted by key (a stable sort, so equal keys keep
their order) as `metric{k1=v1,k2=v2}`; the debug text lists them in their own order as
`[k1=v1, k2=v2]`. The size of the tags is the number of UTF-8 bytes of all keys and values.
-/

namespace SeriesIngest

/-- A tag: a key and its value. -/
structure Tag where
  key : String
  value : String
  deriving Repr, DecidableEq

/-- The tags of a point, in the order given. -/
structure Tags where
  toList : List Tag
  deriving Repr, DecidableEq

namespace Tag

/-- `key=value`. -/
def text (t : Tag) : String := t.key ++ "=" ++ t.value

/-- The number of UTF-8 bytes of the key and the value. -/
def size (t : Tag) : Nat := t.key.utf8ByteSize + t.value.utf8ByteSize

end Tag

namespace Tags

/-- Tags from key–value pairs, in order. -/
def ofPairs (ps : List (String × String)) : Tags := ⟨ps.map fun (k, v) => ⟨k, v⟩⟩

/-- The number of tags. -/
def length (ts : Tags) : Nat := ts.toList.length

/-- The number of UTF-8 bytes of all keys and values. -/
def size (ts : Tags) : Nat := ts.toList.foldl (fun acc t => acc + t.size) 0

/-- The value of the first tag with the key. -/
def get? (ts : Tags) (key : String) : Option String :=
  (ts.toList.find? fun t => t.key = key).map Tag.value

/-- `[k1=v1, k2=v2]`, in the tags' own order. -/
def debugText (ts : Tags) : String :=
  "[" ++ ", ".intercalate (ts.toList.map Tag.text) ++ "]"

/-- The tags sorted by key; tags with equal keys keep their order. -/
def sortedByKey (ts : Tags) : List Tag :=
  ts.toList.mergeSort fun a b => decide (a.key ≤ b.key)

/-- `metric{k1=v1,k2=v2}` with the tags sorted by key. -/
def seriesString (ts : Tags) (metric : String) : String :=
  metric ++ "\x7b" ++ ",".intercalate (ts.sortedByKey.map Tag.text) ++ "\x7d"

end Tags

end SeriesIngest
