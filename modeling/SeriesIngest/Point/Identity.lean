import SeriesIngest.Point.Tags
import SeriesIngest.Point.Error
import SeriesIngest.Text.Alphanumeric
import SeriesIngest.Text.Escape

/-!
# Valid metric names and tags

A name is valid when it is not empty and each of its characters is alphanumeric in the Unicode
sense, one of `-`, `_`, `.`, `/`, or a character of the configured extra set that is not a
control character. An identity (a metric and its tags) is valid when it has between one tag and
the maximum, its metric name is valid, and each tag has a valid key and value and a key not
used before. The checks run in that order and the first failure is reported.
-/

namespace SeriesIngest

/-- The characters every name may hold besides alphanumeric ones. -/
def defaultSpecialChars : List Char := ['-', '_', '.', '/']

/-- Whether a character is a control character (general category `Cc`). -/
def isControl (c : Char) : Bool := c.toNat < 0x20 || (0x7F ≤ c.toNat && c.toNat ≤ 0x9F)

/-- Whether a name may hold the character, given the extra allowed characters. -/
def nameChar (allowed : String) (c : Char) : Bool :=
  Text.isAlphanumeric c || defaultSpecialChars.contains c || (!isControl c && allowed.toList.contains c)

/-- Checks one name; `what` says which name it is in the error. -/
def checkName (what s allowed : String) : Except ValidationError Unit :=
  if s.isEmpty then .error (.invalidString what s "empty string")
  else
    match s.toList.find? fun c => !nameChar allowed c with
    | some c => .error (.invalidString what s ("illegal character " ++ Text.charLiteral c))
    | none => .ok ()

/-- Checks the tags in order: key, value, then that the key is new. -/
def checkTags (allowed : String) : List String → List Tag → Except ValidationError Unit
  | _, [] => .ok ()
  | seen, t :: ts => do
    checkName ("tag name with value [" ++ t.value ++ "]") t.key allowed
    checkName ("tag value with key [" ++ t.key ++ "]") t.value allowed
    if seen.contains t.key then .error (.duplicateTag t.key)
    else checkTags allowed (t.key :: seen) ts

/-- Checks a metric and its tags. -/
def checkIdentity (metric : String) (tags : Tags) (maxTags : Nat) (allowed : String) :
    Except ValidationError Unit :=
  if tags.length = 0 then .error (.noTags metric)
  else if tags.length > maxTags then .error (.tooManyTags tags.length maxTags)
  else do
    checkName "metric name" metric allowed
    checkTags allowed [] tags.toList

end SeriesIngest
