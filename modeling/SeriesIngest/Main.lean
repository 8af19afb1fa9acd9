import SeriesIngest.Import.Tool

/-!
# The import command line

`tsdb-import --path <PATH> [--config <CONFIG>] [--append] [--allow-out-of-order] [--dump]`

The command line is read into `Import.Options`, the named files are read, and the import runs
as `Import.run`; its output lines are printed and its exit code returned. An option may give its
value as the next word or after `=`. A command line without `--path`, with an option that takes
a value but has none, or with a word that is no option, is refused with exit code 2.
-/

namespace SeriesIngest.Import

/-- The usage line of the command. -/
def usage : String :=
  "Usage: tsdb-import [OPTIONS] --path <PATH>"

/-- A refusal of the command line, with the usage line. -/
def argumentFault (what : String) : String :=
  "error: " ++ what ++ "\n\n" ++ usage ++ "\n\nFor more information, try '--help'."

/-- A word split into an option name and the value written after `=`, if any. -/
def splitOption (w : String) : String × Option String :=
  match w.splitOn "=" with
  | n :: v :: rest => (n, some ("=".intercalate (v :: rest)))
  | _ => (w, none)

/-- The refusal of an option that takes a value but has none. -/
def valueMissing (name : String) : String :=
  argumentFault ("a value is required for '" ++ name ++ "' but none was supplied")

/-- Reads the words of a command line; the path read so far is kept apart. -/
def readArgsFrom : List String → Option String → Options → Except String Options
  | [], none, _ =>
    .error (argumentFault "the following required arguments were not provided:\n  --path <PATH>")
  | [], some p, o => .ok { o with path := p }
  | w :: rest, p, o =>
    match splitOption w with
    | ("--path", some v) => readArgsFrom rest (some v) o
    | ("--path", none) =>
      match rest with
      | v :: more => readArgsFrom more (some v) o
      | [] => .error (valueMissing "--path <PATH>")
    | ("--config", some v) => readArgsFrom rest p { o with config := some v }
    | ("--config", none) =>
      match rest with
      | v :: more => readArgsFrom more p { o with config := some v }
      | [] => .error (valueMissing "--config <CONFIG>")
    | ("--append", none) => readArgsFrom rest p { o with append := true }
    | ("--allow-out-of-order", none) => readArgsFrom rest p { o with allowOutOfOrder := true }
    | ("--dump", none) => readArgsFrom rest p { o with dump := true }
    | _ => .error (argumentFault ("unexpected argument '" ++ w ++ "' found"))

/-- Reads a command line into import options. -/
def readArgs (args : List String) : Except String Options :=
  readArgsFrom args none { path := "" }

/-- An error number, which some reads report negated. -/
def errorNumber (code : UInt32) : Nat :=
  if code.toNat ≥ Nat.pow 2 31 then Nat.pow 2 32 - code.toNat else code.toNat

/-- The reason of a failed read, worded as the operating system words it. -/
def ioReason : IO.Error → String
  | .noFileOrDirectory _ code _ => osReason (errorNumber code)
  | .inappropriateType _ code _ => osReason (errorNumber code)
  | .permissionDenied _ code _ => osReason (errorNumber code)
  | .otherError code _ => osReason (errorNumber code)
  | e => toString e

/-- Reads a file as text. -/
def readPath (p : String) : IO FileRead := do
  try
    let bytes ← IO.FS.readBinFile p
    match String.fromUTF8? bytes with
    | some s => pure (.contents s)
    | none => pure FileRead.notText
  catch e => pure (.failed (ioReason e))

end SeriesIngest.Import

open SeriesIngest.Import in
/-- Runs the import command line. -/
def main (args : List String) : IO UInt32 := do
  match readArgs args with
  | .error msg =>
    IO.eprintln msg
    pure 2
  | .ok o =>
    let config ← match o.config with
      | some p => some <$> readPath p
      | none => pure none
    let file ← if o.path.isEmpty then pure FileRead.missing else readPath o.path
    let read (p : String) : FileRead :=
      if p = o.path then file
      else match config with
        | some r => r
        | none => FileRead.missing
    let out := run .budgeted o read
    for l in out.stdout do IO.println l
    for l in out.stderr do IO.eprintln l
    pure out.exitCode.toUInt32
