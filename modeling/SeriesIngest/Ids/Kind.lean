/-!
# Kinds of ids

Metric names, tag keys and tag values each get ids from a space of their own.
-/

namespace SeriesIngest

/-- The three id spaces. -/
inductive IdKind where
  | metric
  | tagKey
  | tagValue
  deriving Repr, DecidableEq

/-- The name of an id space as it appears in messages: `metrics`, `tagk`, `tagv`. -/
def IdKind.name : IdKind → String
  | .metric => "metrics"
  | .tagKey => "tagk"
  | .tagValue => "tagv"

end SeriesIngest
