/-!
# Why an identity or an import line is refused

Each refusal names its cause; `ValidationError.message` gives the one text of each.
-/

namespace SeriesIngest

/-- Why a metric name, a tag set or an import line is refused. -/
inductive ValidationError where
  /-- A name (`what` says which) is empty or has a character it may not have. -/
  | invalidString (what value reason : String)
  /-- A metric has no tag. -/
  | noTags (metric : String)
  /-- More tags than allowed. -/
  | tooManyTags (count max : Nat)
  /-- Two tags share a key. -/
  | duplicateTag (key : String)
  /-- An import word that is not `key=value` with both parts non-empty. -/
  | malformedTag (word : String)
  /-- An import line that does not read. -/
  | malformedLine (detail : String)
  deriving Repr, DecidableEq

namespace ValidationError

/-- The text of a refusal. -/
def message : ValidationError → String
  | .invalidString what value reason => "invalid " ++ what ++ " (\"" ++ value ++ "\"): " ++ reason
  | .noTags metric => "need at least one tag (metric=" ++ metric ++ ")"
  | .tooManyTags count max =>
    "too many tags: " ++ toString count ++ " maximum allowed: " ++ toString max
  | .duplicateTag key => "duplicate tag key: " ++ key
  | .malformedTag word => "invalid tag \"" ++ word ++ "\": expected tagk=tagv"
  | .malformedLine detail => "malformed line: " ++ detail

/-- The name of the cause. -/
def kind : ValidationError → String
  | .invalidString .. => "InvalidString"
  | .noTags _ => "NoTags"
  | .tooManyTags .. => "TooManyTags"
  | .duplicateTag _ => "DuplicateTag"
  | .malformedTag _ => "MalformedTag"
  | .malformedLine _ => "MalformedLine"

end ValidationError

end SeriesIngest
