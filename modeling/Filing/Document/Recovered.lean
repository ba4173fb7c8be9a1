import Filing.Calendar.Format
import Filing.Form.Data
import Filing.Form.DataFile
import Filing.Settings
import Filing.Xml.Reader

/-!
# Reading declarations

A declaration is an XML document that holds the data of one form. It is read against the template of
the form: each field is looked up at its path, each table at its own, and whatever else stands in
the document is passed over. What comes back can be turned into form data again.
-/

namespace Filing

open Data (Value)
open Text (maxWord64 natural?)
open Xml (Node)

/-- A row found in a declaration. -/
structure RowRecord where
  /-- The ordinal that the row carries, if it is well formed. -/
  ordinal : Option Nat
  /-- Its number in the form. -/
  templateRow : Option Nat
  /-- Its number in the printed report. -/
  reportRow : Option Nat
  /-- The values of the fields of the row template that the row has. -/
  values : Row
deriving DecidableEq

/-- What was found in a declaration. -/
structure Recovered where
  /-- The code of the form. -/
  formCode : Option String
  /-- The version of the form. -/
  templateVersion : Option String
  /-- The values of the static fields that the document has, by path. -/
  values : KeyMap String
  /-- The rows of the tables that the document has, by table. -/
  rows : KeyMap (List RowRecord)
  /-- The name of the signer. -/
  signer : Option String
  /-- The signing date, as it is written. -/
  signingDate : Option String
deriving DecidableEq

namespace Recovered

/-- What stands in front of the ordinal of a row. -/
def rowIdStart : String := "ID_"

/-- The ordinal in the id of a row. -/
def ordinal? (id : String) : Option Nat :=
  (rowIdStart.toList.isPrefixOf? id.toList).bind fun digits =>
    natural? maxWord64 (String.ofList digits)

/-- The texts of fields below an element, by path; elements that are missing are left out. -/
def texts (node : Node) (fields : List Field) : KeyMap String :=
  KeyMap.ofList (fields.filterMap fun f => (node.find? f.path).map fun n => (f.path, n.text))

/-- A row. -/
def row (rowTemplate : List Field) (node : Node) : RowRecord where
  ordinal := (node.attr? "id").bind ordinal?
  templateRow := (node.attr? "templateRow").bind fun v => natural? maxWord64 (Text.trim v)
  reportRow := (node.attr? "reportRow").bind fun v => natural? maxWord64 (Text.trim v)
  values := texts node rowTemplate

/-- The text at a path that no field of the template claims. -/
def signingText (t : Template) (body : Node) (path : String) : Option String :=
  match t.staticFieldAt? path with
  | some _ => none
  | none => (body.find? path).map (·.text)

/-- The rows of each table that the document has; of two tables with one id the later counts. -/
def tableRows (s : Settings) (t : Template) (body : Node) : KeyMap (List RowRecord) :=
  KeyMap.ofList <| t.tables.filterMap fun (_, table) =>
    (body.find? table.path).map fun container =>
      (table.id, (container.childrenNamed s.document.rowElement).map (row table.rowTemplate))

/-- What the body of a declaration holds. -/
def ofBody (s : Settings) (t : Template) (body : Node) : Recovered where
  formCode := body.attr? "formCode"
  templateVersion := body.attr? "templateVersion"
  values := texts body t.staticFields
  rows := tableRows s t body
  signer := signingText t body s.document.signerPath
  signingDate := signingText t body s.document.signingDatePath

/-- Reads a declaration against its template. -/
def ofText (s : Settings) (t : Template) (source : String) : Except Xml.DocumentError Recovered :=
  match Xml.readRoot s.document.root source with
  | .error e => .error e
  | .ok root =>
    match root.child? s.document.body with
    | some body => .ok (ofBody s t body)
    | none => .error (.malformedRoot s.document.body (root.children.head?.elim "" (·.name)))

/-- The signature, when there is a signer and a date that can be read. -/
def signature? (r : Recovered) : Option Signature := do
  let signer ← r.signer
  let date ← r.signingDate
  let date ← Calendar.readDate? Calendar.dayFirstFormat (Text.trim date)
  return ⟨signer, date⟩

/-- The data of the declaration; a table without rows is left out. -/
def formData (t : Template) (r : Recovered) : FormData where
  formCode := r.formCode.getD t.formCode
  templateVersion := r.templateVersion.getD t.version
  values := r.values
  tables := KeyMap.ofList <| r.rows.entries.filterMap fun (id, rows) =>
    if rows.isEmpty then none else some (id, rows.map (·.values))
  signature := r.signature?

end Recovered

/-- A row that was found, as a record. -/
def RowRecord.toValue (r : RowRecord) : Value :=
  .record [("ordinal", .option .nat r.ordinal), ("template_row", .option .nat r.templateRow),
    ("report_row", .option .nat r.reportRow), ("values", r.values.toValue)]

/-- What was found, as a record. -/
def Recovered.toValue (r : Recovered) : Value :=
  .record [("form_code", .optional r.formCode), ("template_version", .optional r.templateVersion),
    ("values", r.values.toValue .string),
    ("rows", r.rows.toValue fun rows => .list (rows.map RowRecord.toValue)),
    ("signer", .optional r.signer), ("signing_date", .optional r.signingDate)]

end Filing
