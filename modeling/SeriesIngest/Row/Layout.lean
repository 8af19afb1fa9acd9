/-!
# The layout of a row key

A row key is the salt, the metric id, the row's base time as 4 big-endian bytes, and then one
tag key id and tag value id per tag. The layout gives the widths of the parts, and from them
every offset.
-/

namespace SeriesIngest

/-- The byte widths of the parts of a row key. -/
structure RowLayout where
  saltWidth : Nat
  metricWidth : Nat
  tagNameWidth : Nat
  tagValueWidth : Nat
  deriving Repr, DecidableEq

namespace RowLayout

/-- The number of bytes of the base time. -/
def timestampBytes : Nat := 4

/-- Where the metric id starts. -/
def metricStart (l : RowLayout) : Nat := l.saltWidth

/-- Where the metric id ends. -/
def metricEnd (l : RowLayout) : Nat := l.saltWidth + l.metricWidth

/-- Where the base time starts. -/
def timestampOffset (l : RowLayout) : Nat := l.saltWidth + l.metricWidth

/-- Where the tag ids start. -/
def tagsOffset (l : RowLayout) : Nat := l.timestampOffset + timestampBytes

/-- The bytes of one tag's ids. -/
def tagPairWidth (l : RowLayout) : Nat := l.tagNameWidth + l.tagValueWidth

/-- The length of a key with `n` tags. -/
def rowLen (l : RowLayout) (n : Nat) : Nat := l.tagsOffset + n * l.tagPairWidth

/-- `RowKeyLayout { salt_width: 0, metric_width: 3, tag_name_width: 3, tag_value_width: 3 }`. -/
def debugText (l : RowLayout) : String :=
  "RowKeyLayout \x7b salt_width: " ++ toString l.saltWidth ++ ", metric_width: " ++
    toString l.metricWidth ++ ", tag_name_width: " ++ toString l.tagNameWidth ++
    ", tag_value_width: " ++ toString l.tagValueWidth ++ " \x7d"

end RowLayout

end SeriesIngest
