import SeriesIngest.Float.Word
import SeriesIngest.Number.Signed

/-!
# Data values

A data point's value is a signed 64-bit integer or a 32-bit float. Its text is the integer in
decimal or the float's shortest positional digits; its debug text names the kind:
`Integer(-7)`, `Float(1.5)`, `Float(1e-45)`, `Float(10000000.0)`.

A value read from text is an integer when the text has none of `.`, `e` and `E`, else a float.
-/

namespace SeriesIngest

open Float

/-- The value of a data point. -/
inductive DataValue where
  | integer (v : Int)
  | float (x : Binary32)
  deriving Repr, DecidableEq

namespace DataValue

/-- Whether the value is an integer. -/
def isInteger : DataValue → Bool
  | .integer _ => true
  | .float _ => false

/-- The text of the value. -/
def display : DataValue → String
  | .integer v => toString v
  | .float x => x.toText .plain

/-- The text of the value with its kind. -/
def debugText : DataValue → String
  | .integer v => "Integer(" ++ toString v ++ ")"
  | .float x => "Float(" ++ x.toText .detailed ++ ")"

/-- Whether a value text reads as an integer: it has no `.`, `e` or `E`. -/
def looksLikeInteger (s : String) : Bool :=
  !s.toList.any fun c => c = '.' || c = 'e' || c = 'E'

/-- Reads a value: an integer if it looks like one, else a float. The error is the reason. -/
def parse (s : String) : Except String DataValue :=
  if looksLikeInteger s then
    match Number.parseInt64 s with
    | .ok v => .ok (.integer v)
    | .error e => .error e.message
  else
    match Binary32.parse s with
    | .ok x => .ok (.float x)
    | .error e => .error e.message

end DataValue

end SeriesIngest
