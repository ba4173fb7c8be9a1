import Filing.Document.Assembly
import Filing.Xml.Writer

/-!
# Exporting declarations

A declaration is assembled, written, read back and compared with the plan. It is *compliant* when
every path had its place and nothing that was written is missing or different. The document is
answered in either case.
-/

namespace Filing

open Data (Value)

namespace WritePlan

/-- Compares a written value with what is found at its place. -/
def compare (field : Option String) (place written : String) (found : Option String) :
    List Discrepancy :=
  match found with
  | none => [⟨.missing, field, place, some written, none⟩]
  | some v => if v = written then [] else [⟨.mismatch, field, place, some written, some v⟩]

/-- Compares a part of the signature, if it was written. -/
def compareSigning (place : String) (written found : Option String) : List Discrepancy :=
  written.elim [] fun written => compare none place written found

/-- Compares form and version. -/
def compareHeader (t : Template) (r : Recovered) : List Discrepancy :=
  [("formCode", t.formCode, r.formCode), ("templateVersion", t.version, r.templateVersion)].flatMap
    fun (name, expected, found) =>
      if found = some expected then []
      else [⟨.header, none, s!"@{name}", some expected, found⟩]

/-- An optional number as messages show it. -/
def optionText : Option Nat → String
  | some n => s!"Some({n})"
  | none => "None"

/-- Ordinal and numbers of a row as messages show them. -/
def locationText (ordinal templateRow reportRow : Option Nat) : String :=
  let parts := ", ".intercalate [optionText ordinal, optionText templateRow, optionText reportRow]
  s!"({parts})"

/-- Compares a row with the one found in its place. -/
def compareRow (table : String) (placed : PlacedRow) (found : RowRecord) : List Discrepancy :=
  (if found.ordinal = some placed.ordinal ∧ found.templateRow = some placed.templateRow ∧
      found.reportRow = some placed.reportRow then []
    else [⟨.location, none, s!"{table}[{placed.ordinal}]",
      some (locationText placed.ordinal placed.templateRow placed.reportRow),
      some (locationText found.ordinal found.templateRow found.reportRow)⟩]) ++
  placed.values.flatMap fun p =>
    compare (some p.field.id) (rowPlace table placed.ordinal p.field.path) p.value
      (found.values.find? p.field.path)

/-- Compares the rows of a table, as far as there are rows on both sides. -/
def compareTable (r : Recovered) (table : String) (placed : List PlacedRow) : List Discrepancy :=
  let found := (r.rows.find? table).getD []
  (if found.length = placed.length then []
    else [⟨.rowCount, none, table, some (toString placed.length), some (toString found.length)⟩]) ++
  (placed.zip found).flatMap fun (p, f) => compareRow table p f

/-- Compares the plan with what was found. -/
def compareAll (s : Settings) (t : Template) (plan : WritePlan) (r : Recovered) :
    List Discrepancy :=
  compareHeader t r ++
  (plan.statics.entries.flatMap fun (path, p) =>
    compare (some p.field.id) path p.value (r.values.find? path)) ++
  compareSigning s.document.signingDatePath plan.signingDate r.signingDate ++
  compareSigning s.document.signerPath plan.signer r.signer ++
  plan.tables.flatMap fun (table, rows) => compareTable r table rows

/-- Reads a document back and compares it with the plan. -/
def verify (s : Settings) (t : Template) (plan : WritePlan) (document : String) :
    List Discrepancy :=
  match Recovered.ofText s t document with
  | .error e => [⟨.missing, none, s.document.root, some s.document.root, some e.message⟩]
  | .ok r => compareAll s t plan r

end WritePlan

/-- An exported declaration. -/
structure Export where
  /-- The document. -/
  document : String
  /-- Paths without a place, and differences between the document and what was meant. -/
  discrepancies : List Discrepancy
  /-- Remarks on data that has no place in the declaration. -/
  warnings : List String
deriving DecidableEq

namespace Export

/-- Everything has its place and is found there. -/
def isCompliant (e : Export) : Bool := e.discrepancies.isEmpty

/-- Exports form data. -/
def ofFormData (s : Settings) (t : Template) (d : FormData) : Export :=
  let a := Assembly.ofFormData s t d
  let document := (a.root s).document
  { document
    discrepancies := a.discrepancies ++ a.plan.verify s t document
    warnings := a.warnings }

/-- An export as a record. -/
def toValue (e : Export) : Value :=
  .record [("document", .string e.document), ("compliance_ok", .bool e.isCompliant),
    ("errors", .list (e.discrepancies.map Discrepancy.toValue)), ("warnings", .strings e.warnings)]

end Export

end Filing
