import SeriesIngest.Write.Db

/-!
# Rendering stored cells

A stored cell holds points: the append column holds a run of (column name, value) pairs, and
any other column is one point whose column name is the column itself. Each point renders as its
column name's debug text and the value it decodes to, or the decoding fault in angle brackets;
a column that does not parse renders as a bad column with its fault.
-/

namespace SeriesIngest

/-- The points a stored cell holds. -/
def cellPoints (column cell : Bytes) : Except WriteError (List AppendPoint) :=
  if column = appendColumn then parseAppend cell
  else (Qualifier.decode column).map fun q => [⟨q, cell⟩]

/-- `+10s:long/1 = 42`, or `+10s:long/1 = <fault>`. -/
def AppendPoint.text (p : AppendPoint) : String :=
  p.qualifier.debugText ++ " = " ++
    match decodeValue p.qualifier.flags p.value with
    | .ok v => v.display
    | .error e => "<" ++ e.message ++ ">"

/-- The lines of a stored cell: one per point, or one for a column that does not parse. -/
def cellLines (column cell : Bytes) : List String :=
  match cellPoints column cell with
  | .ok ps => ps.map AppendPoint.text
  | .error e => ["bad column: " ++ e.message]

/-- The lines of a stored row: its cells in column order. -/
def rowLines (row : Row) : List String :=
  row.flatMap fun (column, cell) => cellLines column cell

end SeriesIngest
