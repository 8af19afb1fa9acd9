import SeriesIngest.Codec.Qualifier

/-!
# Append columns

In append mode all points of a row go to the one column `05 00 00`: each write appends the
point's column name followed by its value bytes. Reading the column back walks it from the
front: a column name, then as many value bytes as its flags announce, and again until the end.
-/

namespace SeriesIngest

/-- The column that append writes go to. -/
def appendColumn : Bytes := [0x05, 0x00, 0x00]

/-- A point in an append column: its column name and value bytes. -/
structure AppendPoint where
  qualifier : Qualifier
  value : Bytes
  deriving Repr, DecidableEq

/-- The bytes appended for a point. -/
def AppendPoint.toBytes (p : AppendPoint) : Bytes := p.qualifier.toBytes ++ p.value

/-- Reads the points of `rest`, which starts at offset `pos` of the column. -/
def parseAppendFrom (pos : Nat) (rest : Bytes) : Except WriteError (List AppendPoint) :=
  match h : rest with
  | [] => .ok []
  | _ :: _ =>
    match Qualifier.decode rest with
    | .error e => .error e
    | .ok q =>
      let body := rest.drop q.len
      let start := pos + q.len
      if body.length < q.valueLen then
        .error (.invalidValue (.truncatedAppend start q.valueLen body.length))
      else
        match parseAppendFrom (start + q.valueLen) (body.drop q.valueLen) with
        | .error e => .error e
        | .ok ps => .ok (⟨q, body.take q.valueLen⟩ :: ps)
termination_by rest.length
decreasing_by
  have : 0 < q.len := by cases q <;> simp [Qualifier.len]
  simp [body, h] at *
  omega

/-- Reads all points of an append column. -/
def parseAppend (column : Bytes) : Except WriteError (List AppendPoint) :=
  parseAppendFrom 0 column

end SeriesIngest
