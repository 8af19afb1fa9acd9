import SeriesIngest.Bytes.Basic

/-!
# Why the store refuses a write

Table and family names are byte strings; a message shows them as UTF-8 text when they are
valid UTF-8, else as the list of their byte values.
-/

namespace SeriesIngest

/-- Why the store refuses a write. -/
inductive StoreError where
  /-- No table of that name. -/
  | tableNotFound (table : Bytes)
  /-- The table has another column family. -/
  | familyNotFound (table family : Bytes)
  /-- The store refuses all writes for now. -/
  | rejected (reason : String)
  deriving Repr, DecidableEq

/-- The text of a store refusal. -/
def StoreError.message : StoreError → String
  | .tableNotFound t => "table not found: " ++ Bytes.lossyText t
  | .familyNotFound t f =>
    "column family not found: " ++ Bytes.lossyText f ++ " in table " ++ Bytes.lossyText t
  | .rejected reason => "write rejected: " ++ reason

end SeriesIngest
