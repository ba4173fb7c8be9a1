import Filing.Form.Data
import Filing.Validation.Report

/-!
# Operations on form data

Form data begins without values, for one form and one version of it, and from then on changes by
operations: edits of values, rows and the signature, the report of a validation, and an export. An
operation that finds nothing to do leaves the data as it is.
-/

namespace Filing

namespace FormData

/-- Data without values for a form. -/
def new (formCode templateVersion : String) : FormData where
  formCode
  templateVersion

/-- Records the report of a validation. -/
def applyReport (d : FormData) (report : Report) : FormData := d.applyVerdict report.isValid

end FormData

/-- An operation on form data, with what it is given. -/
inductive Operation where
  | setValue (path value : String)
  | removeValue (path : String)
  | pushRow (table : String) (row : Row)
  | setRowValue (table : String) (index : Nat) (path value : String)
  | removeRow (table : String) (index : Nat)
  | sign (signature : Signature)
  | applyReport (report : Report)
  | markExported (compliant : Bool)

/-- The data after an operation. -/
def Operation.apply : Operation → FormData → FormData
  | .setValue path value, d => d.setValue path value
  | .removeValue path, d => (d.removeValue path).1
  | .pushRow table row, d => (d.pushRow table row).1
  | .setRowValue table index path value, d => (d.setRowValue table index path value).1
  | .removeRow table index, d => (d.removeRow table index).1
  | .sign signature, d => d.sign signature
  | .applyReport report, d => d.applyReport report
  | .markExported compliant, d => (d.markExported compliant).1

/-- The data after several operations, one after the other. -/
def FormData.run (d : FormData) (ops : List Operation) : FormData :=
  ops.foldl (fun d op => op.apply d) d

end Filing
