import Filing.Data.Value
import Filing.Text.Quoted

/-!
# Discrepancies

After a declaration is written it is read back and compared with what was meant to be written. A
discrepancy is one difference, or one path at which nothing could be written.
-/

namespace Filing

open Data (Value)

/-- The kind of a discrepancy. -/
inductive DiscrepancyKind where
  /-- What was written is not found. -/
  | missing
  /-- Something else is found. -/
  | mismatch
  /-- A row is found under another number. -/
  | location
  /-- Another number of rows is found. -/
  | rowCount
  /-- The form or its version is not found. -/
  | header
  /-- The path has no place in a document, and nothing was written. -/
  | invalidPath
deriving DecidableEq, Repr

namespace DiscrepancyKind

/-- The kind as a record names it. -/
def name : DiscrepancyKind → String
  | .missing => "missing"
  | .mismatch => "mismatch"
  | .location => "location_mismatch"
  | .rowCount => "row_count_mismatch"
  | .header => "header_mismatch"
  | .invalidPath => "invalid_path"

/-- The kind as a message names it. -/
def title : DiscrepancyKind → String
  | .missing => "Missing"
  | .mismatch => "Mismatch"
  | .location => "LocationMismatch"
  | .rowCount => "RowCountMismatch"
  | .header => "HeaderMismatch"
  | .invalidPath => "InvalidPath"

end DiscrepancyKind

/-- A difference between what was meant to be written and what is found. -/
structure Discrepancy where
  /-- What kind of difference it is. -/
  kind : DiscrepancyKind
  /-- The field it is about, if it is about one. -/
  field : Option String
  /-- The place it is about. -/
  path : String
  /-- What was meant to be written. -/
  expected : Option String
  /-- What was found. -/
  found : Option String
deriving DecidableEq, Repr

namespace Discrepancy

/-- The wording of a discrepancy. -/
def message (d : Discrepancy) : String :=
  s!"{d.kind.title} at '{d.path}': expected " ++ Text.quoteOption d.expected ++ ", found " ++
    Text.quoteOption d.found

/-- A discrepancy as a record. -/
def toValue (d : Discrepancy) : Value :=
  .record [("kind", .string d.kind.name), ("field_id", .optional d.field),
    ("path", .string d.path), ("expected", .optional d.expected), ("found", .optional d.found)]

end Discrepancy

end Filing
