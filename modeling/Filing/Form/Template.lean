import Filing.Form.Section
import Filing.KeyMap

/-!
# Templates

A template is a version, the form it belongs to, and sections. Fields are looked up by id in an
index of their places. It is made in the order of the document and keeps the first place of each id,
so the first field with an id is the one that counts; a second one is a defect that validation
reports.
-/

namespace Filing

/-- A form: its identity and its sections. -/
structure Template where
  /-- The version of the form. -/
  version : String
  /-- The code of the form. -/
  formCode : String
  /-- The sections in the order of the document. -/
  sections : List Section
deriving DecidableEq

/-- The place of a field: its section and its position there, both counted from 0. -/
structure FieldLocation where
  /-- The number of the section. -/
  sectionIndex : Nat
  /-- The position within the section. -/
  position : Nat
deriving DecidableEq, Repr

namespace Template

/-- All fields, those of row templates included. -/
def fields (t : Template) : List Field := t.sections.flatMap (·.fields)

/-- The fields of the static sections. -/
def staticFields (t : Template) : List Field :=
  (t.sections.filter (!·.isDynamic)).flatMap (·.fields)

/-- The tables, each with the id of its section. -/
def tables (t : Template) : List (String × Table) :=
  t.sections.filterMap fun s => s.table?.map (s.id, ·)

/-- The number of fields, counted section by section. -/
def fieldCount (t : Template) : Nat := t.sections.foldl (fun n s => n + s.fields.length) 0

/-- Adds the fields of a section to an index; an id that is in the index already keeps its place. -/
def indexSection (index : KeyMap FieldLocation) (s : Section) (sectionIndex : Nat) :
    KeyMap FieldLocation :=
  s.fields.zipIdx.foldl (fun index e => index.insertNew e.1.id ⟨sectionIndex, e.2⟩) index

/-- The index of the fields: each id with the place of the first field that has it. -/
def index (t : Template) : KeyMap FieldLocation :=
  t.sections.zipIdx.foldl (fun index e => indexSection index e.1 e.2) ∅

/-- The place of the first field with an id. -/
def location? (t : Template) (id : String) : Option FieldLocation := t.index.find? id

/-- The field at a place. -/
def fieldAt? (t : Template) (l : FieldLocation) : Option Field :=
  t.sections[l.sectionIndex]?.bind (·.fields[l.position]?)

/-- The first field with an id. -/
def field? (t : Template) (id : String) : Option Field := (t.location? id).bind t.fieldAt?

/-- The section of the first field with an id. -/
def sectionOf? (t : Template) (id : String) : Option Section :=
  (t.location? id).bind fun l => t.sections[l.sectionIndex]?

/-- The first field with an id belongs to a row template. -/
def isRowField (t : Template) (id : String) : Bool :=
  (t.sectionOf? id).elim false (·.isDynamic)

/-- The first table with an id. -/
def table? (t : Template) (id : String) : Option Table :=
  (t.tables.find? (·.2.id == id)).map (·.2)

/-- The first static field at a path. -/
def staticFieldAt? (t : Template) (path : String) : Option Field :=
  t.staticFields.find? (·.path == path)

end Template

end Filing
