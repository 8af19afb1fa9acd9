import SeriesIngest.Point.Identity
import SeriesIngest.Point.Value
import SeriesIngest.Text.Blank

/-!
# Import lines

An import line reads `metric timestamp value tagk=tagv …`. Blank characters around the line
are ignored, and a line that is then empty or starts with `#` holds no point. The words are the
runs of non-blank characters: at least three are needed; the second is a signed 64-bit
timestamp, the third a value, and each further word a tag split at its first `=` into a
non-empty key and a non-empty value.
-/

namespace SeriesIngest

/-- A data point as read from a line. -/
structure DataPoint where
  metric : String
  timestamp : Int
  value : DataValue
  tags : Tags
  deriving Repr, DecidableEq

/-- Splits a word at its first `=` into a non-empty key and a non-empty value. -/
def tagOfWord (w : String) : Except ValidationError Tag :=
  let cs := w.toList
  let key := cs.takeWhile (· ≠ '=')
  match cs.dropWhile (· ≠ '=') with
  | _ :: value =>
    if key.isEmpty ∨ value.isEmpty then .error (.malformedTag w)
    else .ok ⟨String.ofList key, String.ofList value⟩
  | [] => .error (.malformedTag w)

/-- Reads a value word; a failure is a malformed line naming the word. -/
def readValue (s : String) : Except ValidationError DataValue :=
  match DataValue.parse s with
  | .ok v => .ok v
  | .error reason => .error (.malformedLine ("value \"" ++ s ++ "\": " ++ reason))

/-- Reads an import line: `none` for a blank or comment line. -/
def parseImportLine (line : String) : Except ValidationError (Option DataPoint) :=
  let trimmed := Text.trimBlank line
  if trimmed.isEmpty ∨ trimmed.startsWith "#" then .ok none
  else
    match Text.blankWords trimmed with
    | metric :: ts :: value :: rest => do
      let timestamp ← match Number.parseInt64 ts with
        | .ok t => pure t
        | .error e => .error (.malformedLine ("timestamp \"" ++ ts ++ "\": " ++ e.message))
      let v ← readValue value
      let tags ← rest.mapM tagOfWord
      pure (some ⟨metric, timestamp, v, ⟨tags⟩⟩)
    | _ => .error (.malformedLine ("expected at least 3 fields: " ++ trimmed))

end SeriesIngest
