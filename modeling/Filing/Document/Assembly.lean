import Filing.Document.Discrepancy
import Filing.Document.Recovered
import Filing.Validation.Structure

/-!
# Assembling declarations

The path of a field says where its value goes: each segment is an element inside the one before, and
fields with a common beginning share its elements. Every field is written, with the submitted value,
else its default, else nothing. Rows become elements of their own below the path of their table,
with their ordinal and their two numbers.

Along with the tree goes the *plan*, what was meant to be written, and a list of remarks on data
that has no place in the declaration.
-/

namespace Filing

open Xml (Node)

/-- A value that was written for a field. -/
structure Placed where
  /-- The field. -/
  field : Field
  /-- The value. -/
  value : String

/-- A row that was written. -/
structure PlacedRow where
  /-- Its place among the rows, counted from 1. -/
  ordinal : Nat
  /-- Its number in the form. -/
  templateRow : Nat
  /-- Its number in the printed report. -/
  reportRow : Nat
  /-- The values of its fields. -/
  values : List Placed

/-- What was meant to be written. -/
structure WritePlan where
  /-- The values of static fields, by path. -/
  statics : KeyMap Placed := ∅
  /-- The rows of each table, in the order of the template. -/
  tables : List (String × List PlacedRow) := []
  /-- The signing date. -/
  signingDate : Option String := none
  /-- The name of the signer. -/
  signer : Option String := none

/-- A declaration in the making. -/
structure Assembly where
  /-- The body of the document so far. -/
  body : Node
  /-- What was meant to be written so far. -/
  plan : WritePlan := {}
  /-- The paths at which nothing could be written. -/
  discrepancies : List Discrepancy := []
  /-- The remarks so far. -/
  warnings : List String := []

namespace Assembly

/-- Adds a remark. -/
def warn (a : Assembly) (message : String) : Assembly :=
  { a with warnings := a.warnings ++ [message] }

/-- Records a path that has no place in a document. -/
def refuse (a : Assembly) (field : Option String) (path : String) : Assembly :=
  { a with discrepancies := a.discrepancies ++ [⟨.invalidPath, field, path, none, none⟩] }

/-- The value that is written for a field. -/
def valueFor (f : Field) (submitted : Option String) : String :=
  (submitted.or f.default).getD ""

/-! ## Static fields -/

/-- Writes a static field. Of several fields at one path the first is written. -/
def addStatic (d : FormData) (a : Assembly) (f : Field) : Assembly :=
  if !Path.isResolvable f.path then a.refuse (some f.id) f.path
  else
    match a.plan.statics.find? f.path with
    | some first =>
      a.warn s!"field '{f.id}' shares path '{f.path}' with '{first.field.id}' and was not written"
    | none =>
      let value := valueFor f (d.value? f.path)
      { a with
        body := a.body.place f.path value
        plan := { a.plan with statics := a.plan.statics.insert f.path ⟨f, value⟩ } }

/-! ## Tables -/

/-- The fields of a row that are written: those with a place in it, the first at each path. -/
def rowFields (t : Table) : List Field :=
  ((withEarlier t.rowTemplate).filter fun (earlier, f) =>
    Path.isResolvable f.path && !earlier.any (·.path == f.path)).map (·.2)

/-- The row of a table with an ordinal, as it is written. -/
def placedRow (t : Table) (ordinal : Nat) (row : Row) : PlacedRow where
  ordinal
  templateRow := (t.offsets.forRow ordinal).1
  reportRow := (t.offsets.forRow ordinal).2
  values := (rowFields t).map fun f => ⟨f, valueFor f (row.find? f.path)⟩

/-- The element of a row. -/
def rowNode (s : Settings) (r : PlacedRow) : Node :=
  r.values.foldl (fun node p => node.place p.field.path p.value) {
    name := s.document.rowElement
    attrs := [("id", s!"{Recovered.rowIdStart}{r.ordinal}"),
      ("templateRow", toString r.templateRow), ("reportRow", toString r.reportRow)] }

/-- The remarks on the values of a row that belong to no field. -/
def rowWarnings (t : Table) (ordinal : Nat) (row : Row) : List String :=
  (row.keys.filter fun key => !t.rowTemplate.any (·.path == key)).map fun key =>
    let place := rowPlace t.id ordinal key
    s!"row value at '{place}' is not part of the template and was not written"

/-- Writes a table. Where it has no place, neither have its rows. -/
def addTable (s : Settings) (d : FormData) (a : Assembly) (t : Table) : Assembly :=
  if !Path.isResolvable t.path then a.refuse none t.path
  else
    let rows := d.rows t.id
    let placed := rows.mapIdx fun i row => placedRow t (i + 1) row
    let a := (t.rowTemplate.filter fun f => !Path.isResolvable f.path).foldl
      (fun a f => a.refuse (some f.id) f.path) a
    { a with
      body := a.body.modifyAt t.path fun node =>
        { node with children := node.children ++ placed.map (rowNode s) }
      plan := { a.plan with tables := a.plan.tables ++ [(t.id, placed)] }
      warnings :=
        a.warnings ++ (rows.mapIdx fun i row => rowWarnings t (i + 1) row).flatten }

/-! ## Signature -/

/-- Writes a part of the signature; `record` enters it in the plan. A field at its path takes
precedence. -/
def addSigning (t : Template) (path text : String) (record : WritePlan → WritePlan)
    (a : Assembly) : Assembly :=
  match t.staticFieldAt? path with
  | some f =>
    a.warn s!"signing metadata at '{path}' collides with field '{f.id}' and was not written"
  | none => { a with body := a.body.place path text, plan := record a.plan }

/-- Writes date and name of a signature. -/
def addSignature (s : Settings) (t : Template) (a : Assembly) (signature : Signature) : Assembly :=
  let date := signature.date.dayFirstText
  (a.addSigning t s.document.signingDatePath date ({ · with signingDate := some date })).addSigning
    t s.document.signerPath signature.signer ({ · with signer := some signature.signer })

/-! ## The whole -/

/-- The body before anything is written. -/
def start (s : Settings) (t : Template) (d : FormData) : Assembly where
  body := {
    name := s.document.body
    attrs := [("formCode", t.formCode), ("templateVersion", t.version)] }
  warnings :=
    if !d.templateVersion.isEmpty && d.templateVersion != t.version then
      [s!"data was entered against template version {d.templateVersion}, " ++
        s!"exporting with {t.version}"]
    else []

/-- The remarks on values and tables that the template does not know. -/
def unknownWarnings (t : Template) (d : FormData) : List String :=
  ((d.unknownPaths t).map fun path =>
    s!"value at '{path}' is not part of the template and was not written") ++
  ((d.unknownTables t).map fun id => s!"rows for unknown table '{id}' were not written")

/-- Assembles the declaration of form data. -/
def ofFormData (s : Settings) (t : Template) (d : FormData) : Assembly :=
  let a := t.staticFields.foldl (addStatic d) (start s t d)
  let a := t.tables.foldl (fun a (_, table) => addTable s d a table) a
  let a := d.signature.elim a (addSignature s t a)
  { a with warnings := a.warnings ++ unknownWarnings t d }

/-- The root element of the document. -/
def root (s : Settings) (a : Assembly) : Node :=
  { name := s.document.root, children := [a.body] }

end Assembly

end Filing
