import SeriesIngest.Json.Reader
import SeriesIngest.Config.Basic

/-!
# Reading the settings from JSON

The settings are read from a JSON object whose keys are the settings' names; a missing setting
keeps its default and an unknown key is skipped (its value must still be well-formed JSON). A
JSON array is read too, as the settings in their fixed order, missing trailing ones keeping their
defaults. A setting given twice, a value of the wrong JSON type, a negative number or one too
large for the setting's width is refused. Nothing but blanks may follow the value.

Faults are reported with the position where they are found: a value of the wrong type just
after the value (or at an array or object that starts it), a syntax fault at the offending
byte.
-/

namespace SeriesIngest.Json

open Float

/-- The kinds of value a setting takes, with the largest number a numeric one holds. -/
inductive SettingType where
  | text
  | flag
  | count (max : Nat) (name : String)
  deriving Repr, DecidableEq

/-- How a setting's type is named in a fault. -/
def SettingType.expected : SettingType → String
  | .text => "a string"
  | .flag => "a boolean"
  | .count _ name => name

/-- A setting's value as read. -/
inductive SettingValue where
  | text (s : String)
  | flag (b : Bool)
  | count (n : Nat)
  deriving Repr, DecidableEq

/-- The names of the settings in their fixed order, with their types. -/
def settingFields : List (String × SettingType) :=
  [("table", .text), ("allow_out_of_order_timestamps", .flag), ("auto_create_metrics", .flag),
    ("auto_create_tags", .flag), ("use_append_writes", .flag),
    ("max_tags", .count (Nat.pow 2 64 - 1) "usize"), ("base_time_window_seconds", .count (Nat.pow 2 32 - 1) "u32"),
    ("default_batch_buffer_ms", .count (Nat.pow 2 16 - 1) "u16"), ("metric_width", .count (Nat.pow 2 64 - 1) "usize"),
    ("tag_name_width", .count (Nat.pow 2 64 - 1) "usize"), ("tag_value_width", .count (Nat.pow 2 64 - 1) "usize"),
    ("salt_width", .count (Nat.pow 2 64 - 1) "usize"), ("salt_buckets", .count (Nat.pow 2 32 - 1) "u32"),
    ("allowed_special_chars", .text)]

/-- Sets one setting. -/
def Config.assign (c : Config) (name : String) (v : SettingValue) : Config :=
  match name, v with
  | "table", .text s => { c with table := s }
  | "allow_out_of_order_timestamps", .flag b => { c with allowOutOfOrder := b }
  | "auto_create_metrics", .flag b => { c with autoCreateMetrics := b }
  | "auto_create_tags", .flag b => { c with autoCreateTags := b }
  | "use_append_writes", .flag b => { c with useAppendWrites := b }
  | "max_tags", .count n => { c with maxTags := n }
  | "base_time_window_seconds", .count n => { c with window := n.toUInt32 }
  | "default_batch_buffer_ms", .count n => { c with defaultBatchBufferMs := n.toUInt16 }
  | "metric_width", .count n => { c with metricWidth := n }
  | "tag_name_width", .count n => { c with tagNameWidth := n }
  | "tag_value_width", .count n => { c with tagValueWidth := n }
  | "salt_width", .count n => { c with saltWidth := n }
  | "salt_buckets", .count n => { c with saltBuckets := n.toUInt32 }
  | "allowed_special_chars", .text s => { c with allowedSpecialChars := s }
  | _, _ => c

/-- The fault for a value of another type than expected, found with the value read up to `i`. -/
def typeFault {α : Type} (found expected : String) (i : Nat) : Except Fault α :=
  failAt ("invalid type: " ++ found ++ ", expected " ++ expected) i

/-- Reads a value that is not of the expected type, to name it in the fault. -/
def wrongType {α : Type} (t : Array UInt8) (expected : String) (i : Nat) : Except Fault α :=
  match t[i]? with
  | none => failPeek t "EOF while parsing a value" i
  | some b =>
    if b = 110 then
      match expectWord t [117, 108, 108] (i + 1) with
      | .ok j => typeFault "null" expected j
      | .error f => .error f
    else if b = 116 then
      match expectWord t [114, 117, 101] (i + 1) with
      | .ok j => typeFault "boolean `true`" expected j
      | .error f => .error f
    else if b = 102 then
      match expectWord t [97, 108, 115, 101] (i + 1) with
      | .ok j => typeFault "boolean `false`" expected j
      | .error f => .error f
    else if b = 45 ∨ isDigit b then
      match readNumberAt t i with
      | .ok (n, j) => typeFault n.unexpected expected j
      | .error f => .error f
    else if b = 34 then
      match readString t (i + 1) with
      | .ok (s, j) => typeFault ("string " ++ Text.stringLiteral s) expected j
      | .error f => .error f
    else if b = 91 then typeFault "sequence" expected i
    else if b = 123 then typeFault "map" expected i
    else failPeek t "expected value" i

/-- Reads a setting's value at `i` (blanks already skipped). -/
def readSetting (t : Array UInt8) (ty : SettingType) (i : Nat) : Except Fault (SettingValue × Nat) :=
  match ty, t[i]? with
  | _, none => failPeek t "EOF while parsing a value" i
  | .text, some 34 => (readString t (i + 1)).map fun (s, j) => (.text s, j)
  | .flag, some 116 => (expectWord t [114, 117, 101] (i + 1)).map fun j => (.flag true, j)
  | .flag, some 102 => (expectWord t [97, 108, 115, 101] (i + 1)).map fun j => (.flag false, j)
  | .count max name, some b =>
    if b = 45 ∨ isDigit b then
      match readNumberAt t i with
      | .error f => .error f
      | .ok (.unsigned n, j) =>
        if n ≤ max then .ok (.count n, j)
        else failAt ("invalid value: integer `" ++ toString n ++ "`, expected " ++ name) j
      | .ok (.negative n, j) =>
        failAt ("invalid value: integer `" ++ toString n ++ "`, expected " ++ name) j
      | .ok (n@(.double _), j) => typeFault n.unexpected name j
    else wrongType t name i
  | ty, some _ => wrongType t ty.expected i

/-- Skips a JSON value of any kind at `i`; `fuel` bounds the nesting and the number of items. -/
def skipValue (t : Array UInt8) : Nat → Nat → Except Fault Nat
  | 0, i => failPeek t "recursion limit exceeded" i
  | fuel + 1, i =>
    let i := skipBlanks t i
    match t[i]? with
    | none => failPeek t "EOF while parsing a value" i
    | some b =>
      if b = 110 then expectWord t [117, 108, 108] (i + 1)
      else if b = 116 then expectWord t [114, 117, 101] (i + 1)
      else if b = 102 then expectWord t [97, 108, 115, 101] (i + 1)
      else if b = 45 ∨ isDigit b then (readNumberAt t i).map Prod.snd
      else if b = 34 then (readString t (i + 1)).map Prod.snd
      else if b = 91 then skipItems t fuel (i + 1)
      else if b = 123 then skipEntries t fuel true (i + 1)
      else failPeek t "expected value" i
where
  /-- Skips the items of an array after `[` up to and with its `]`. -/
  skipItems (t : Array UInt8) : Nat → Nat → Except Fault Nat
    | 0, i => failPeek t "recursion limit exceeded" i
    | fuel + 1, i =>
      let i := skipBlanks t i
      match t[i]? with
      | none => failPeek t "EOF while parsing a list" i
      | some 93 => .ok (i + 1)
      | some _ =>
        match skipValue t fuel i with
        | .error f => .error f
        | .ok j => skipAfterItem t fuel j
  /-- After an item: a comma and another item, or the end. -/
  skipAfterItem (t : Array UInt8) : Nat → Nat → Except Fault Nat
    | 0, i => failPeek t "recursion limit exceeded" i
    | fuel + 1, i =>
      let i := skipBlanks t i
      match t[i]? with
      | none => failPeek t "EOF while parsing a list" i
      | some 93 => .ok (i + 1)
      | some 44 =>
        match skipValue t fuel (i + 1) with
        | .error f => .error f
        | .ok j => skipAfterItem t fuel j
      | some _ => failPeek t "expected `,` or `]`" i
  /-- Skips the entries of an object after `{` up to and with its `}`. -/
  skipEntries (t : Array UInt8) : Nat → Bool → Nat → Except Fault Nat
    | 0, _, i => failPeek t "recursion limit exceeded" i
    | fuel + 1, first, i =>
      let i := skipBlanks t i
      match t[i]? with
      | none => failPeek t "EOF while parsing an object" i
      | some 125 => .ok (i + 1)
      | some b =>
        if !first ∧ b ≠ 44 then failPeek t "expected `,` or `\x7d`" i
        else
          let k := if first then i else skipBlanks t (i + 1)
          match t[k]? with
          | none => failPeek t "EOF while parsing an object" k
          | some 34 =>
            match readString t (k + 1) with
            | .error f => .error f
            | .ok (_, j) =>
              let j := skipBlanks t j
              match t[j]? with
              | some 58 =>
                match skipValue t fuel (j + 1) with
                | .error f => .error f
                | .ok m => skipEntries t fuel false m
              | some _ => failPeek t "expected `:`" j
              | none => failPeek t "EOF while parsing an object" j
          | some _ => failPeek t "key must be a string" k

/-- The end of a struct read from an object: blanks, then the closing brace is consumed when
present; a fault raised by the struct itself is reported there. -/
def afterObjectEnd (t : Array UInt8) (j : Nat) : Nat :=
  let e := skipBlanks t j
  if t[e]? = some 125 then e + 1 else e

/-- Reads the entries of a settings object after `{`, up to and with `}`. -/
def readEntries (t : Array UInt8) : Nat → Config → List String → Bool → Nat → Except Fault (Config × Nat)
  | 0, _, _, _, i => failPeek t "recursion limit exceeded" i
  | fuel + 1, c, seen, first, i =>
    let i := skipBlanks t i
    match t[i]? with
    | none => failPeek t "EOF while parsing an object" i
    | some 125 => .ok (c, i + 1)
    | some b =>
      if !first ∧ b ≠ 44 then failPeek t "expected `,` or `\x7d`" i
      else
        let k := if first then i else skipBlanks t (i + 1)
        match t[k]? with
        | none => failPeek t "EOF while parsing a value" k
        | some 125 => failPeek t "trailing comma" k
        | some 34 =>
          match readString t (k + 1) with
          | .error f => .error f
          | .ok (key, j) =>
            let field := settingFields.find? fun f => f.1 = key
            if field.isSome ∧ seen.contains key then
              failAt ("duplicate field `" ++ key ++ "`") (afterObjectEnd t j)
            else
              let col := skipBlanks t j
              match t[col]? with
              | none => failPeek t "EOF while parsing an object" col
              | some 58 =>
                match field with
                | some (_, ty) =>
                  match readSetting t ty (skipBlanks t (col + 1)) with
                  | .error f => .error f
                  | .ok (v, m) => readEntries t fuel (Config.assign c key v) (key :: seen) false m
                | none =>
                  match skipValue t fuel (col + 1) with
                  | .error f => .error f
                  | .ok m => readEntries t fuel c seen false m
              | some _ => failPeek t "expected `:`" col
        | some _ => failPeek t "key must be a string" k

/-- The end of a settings array: the closing bracket, else a fault. -/
def readArrayEnd (t : Array UInt8) (i : Nat) : Except Fault Nat :=
  let i := skipBlanks t i
  match t[i]? with
  | some 93 => .ok (i + 1)
  | some 44 =>
    let k := skipBlanks t (i + 1)
    if t[k]? = some 93 then failPeek t "trailing comma" k else failPeek t "trailing characters" k
  | some _ => failPeek t "trailing characters" i
  | none => failPeek t "EOF while parsing a list" i

/-- Reads the items of a settings array after `[`, one per setting in order, up to and with
`]`; settings past the array's end keep their defaults. -/
def readItems (t : Array UInt8) : List (String × SettingType) → Config → Bool → Nat →
    Except Fault (Config × Nat)
  | [], c, _, i => (readArrayEnd t i).map fun j => (c, j)
  | (name, ty) :: rest, c, first, i =>
    let i := skipBlanks t i
    match t[i]? with
    | none => failPeek t "EOF while parsing a list" i
    | some 93 => .ok (c, i + 1)
    | some b =>
      if !first ∧ b ≠ 44 then failPeek t "expected `,` or `]`" i
      else
        let k := if first then i else skipBlanks t (i + 1)
        match t[k]? with
        | none => failPeek t "EOF while parsing a value" k
        | some 93 => failPeek t "trailing comma" k
        | some _ =>
          match readSetting t ty k with
          | .error f => .error f
          | .ok (v, m) => readItems t rest (Config.assign c name v) false m

/-- Reads the settings from a JSON text. -/
def readConfigBytes (t : Array UInt8) : Except Fault Config := do
  let i := skipBlanks t 0
  let (c, j) ← match t[i]? with
    | none => failPeek t "EOF while parsing a value" i
    | some 123 => readEntries t (t.size + 1) {} [] true (i + 1)
    | some 91 => readItems t settingFields {} true (i + 1)
    | some _ => wrongType t "struct TsdbConfig" i
  let k := skipBlanks t j
  if k < t.size then failPeek t "trailing characters" k else pure c

/-- Reads the settings from a JSON text; a fault is given as its text with its position. -/
def readConfig (s : String) : Except String Config :=
  let t := s.toUTF8.data
  match readConfigBytes t with
  | .ok c => .ok c
  | .error f => .error (f.text t)

end SeriesIngest.Json
