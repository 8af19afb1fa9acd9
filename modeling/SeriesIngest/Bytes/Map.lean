import SeriesIngest.Bytes.Basic

/-!
# Maps keyed by byte strings, in key order

A `BytesMap` is an association list whose keys are strictly increasing in the lexicographic
order of byte strings, the order in which rows and columns are listed. `insert` replaces the
value of a key already present and otherwise puts the new key in its place.
-/

namespace SeriesIngest

/-- Entries with strictly increasing byte-string keys. -/
abbrev BytesMap (α : Type) := List (Bytes × α)

namespace BytesMap

variable {α : Type}

/-- The value of a key. -/
def find? (m : BytesMap α) (k : Bytes) : Option α :=
  (List.find? (fun e => e.1 = k) m).map Prod.snd

/-- Sets the value of a key, keeping the keys in order. -/
def insert : BytesMap α → Bytes → α → BytesMap α
  | [], k, v => [(k, v)]
  | (k', v') :: rest, k, v =>
    if k = k' then (k, v) :: rest
    else if k < k' then (k, v) :: (k', v') :: rest
    else (k', v') :: insert rest k v

/-- Removes a key. -/
def erase (m : BytesMap α) (k : Bytes) : BytesMap α :=
  List.filter (fun e => e.1 ≠ k) m

/-- Whether a key is present. -/
def contains (m : BytesMap α) (k : Bytes) : Bool := (find? m k).isSome

end BytesMap

end SeriesIngest
