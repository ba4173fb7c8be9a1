import Filing.Dependency.Resolution
import Filing.Form.Data
import Filing.Validation.Report

/-!
# Checks of template and data as a whole

First the template alone: links, ids, bounds and paths. Then the data against it: required values
that were not submitted, values whose parent is empty, tables with too many rows, and data that the
template does not know.
-/

namespace Filing

/-- Each element together with those before it. -/
def withEarlier {α : Type} (l : List α) : List (List α × α) := l.mapIdx fun i a => (l.take i, a)

/-- A structural error. -/
def structuralError (field : Option String) (path message : String) : Issue where
  severity := .error
  category := .structural
  field
  path
  message

/-! ## Templates -/

/-- The issue of a defect. -/
def TemplateDefect.issue (field : Option String) (path : String) (d : TemplateDefect) : Issue :=
  structuralError field path d.message

/-- The field with which a defect of the dependencies is reported. -/
def TemplateDefect.field? : TemplateDefect → Option String
  | .danglingLink field _ _ => some field
  | .cycle chain => chain.head?
  | _ => none

namespace Template

/-- The issues of the dependencies. -/
def dependencyIssues (t : Template) : List Issue :=
  t.resolve.defects.map fun d =>
    d.issue d.field? ((d.field?.bind t.field?).elim "" (·.path))

/-- The issues of a field on its own. -/
def fieldIssues (t : Template) (f : Field) : List Issue :=
  (match f.invertedRange? with
    | some (min, max) =>
      [(TemplateDefect.invertedRange f.id min.text max.text).issue (some f.id) f.path]
    | none => []) ++
  (if f.control.requiresParent && f.parent.isNone then
    [(TemplateDefect.missingParent f.id).issue (some f.id) f.path] else []) ++
  (if Path.isResolvable f.path then []
    else [(TemplateDefect.invalidPath f.id f.path).issue (some f.id) f.path]) ++
  (match f.selected with
    | some selected =>
      if (t.field? selected).isSome then []
      else [{
        severity := .warning
        category := .structural
        field := some f.id
        path := f.path
        message := s!"field '{f.id}' stores its selection in unknown field '{selected}'" }]
    | none => [])

/-- The issues of all fields; an id that occurs again comes before the other issues of its field. -/
def fieldsIssues (t : Template) : List Issue :=
  (withEarlier t.fields).flatMap fun (earlier, f) =>
    (if earlier.any (·.id == f.id) then
      [(TemplateDefect.duplicateField f.id).issue (some f.id) f.path] else []) ++
    t.fieldIssues f

/-- The fields that share a path with an earlier field of another id. -/
def collisionIssues (fields : List Field) : List Issue :=
  (withEarlier fields).flatMap fun (earlier, f) =>
    match earlier.find? (·.path == f.path) with
    | some first =>
      if first.id = f.id then []
      else [(TemplateDefect.duplicatePath f.path first.id f.id).issue (some f.id) f.path]
    | none => []

/-- The static fields that share a path, and those of each row template. -/
def pathIssues (t : Template) : List Issue :=
  collisionIssues t.staticFields ++ t.tables.flatMap fun (_, table) =>
    collisionIssues table.rowTemplate

/-- The issues of the tables; a path is compared with the latest earlier table that has it. -/
def tableIssues (t : Template) : List Issue :=
  (withEarlier t.tables).flatMap fun (earlier, sectionId, table) =>
    (if Path.isResolvable table.path then []
      else [(TemplateDefect.invalidPath sectionId table.path).issue none table.path]) ++
    (match earlier.reverse.find? (·.2.path == table.path) with
      | some (first, _) =>
        [(TemplateDefect.duplicateTablePath table.path first sectionId).issue none table.path]
      | none => []) ++
    (if earlier.any (·.2.id == table.id) then
      [(TemplateDefect.duplicateTable table.id).issue none table.path] else [])

/-- All issues of a template. -/
def issues (t : Template) : List Issue :=
  t.dependencyIssues ++ t.fieldsIssues ++ t.pathIssues ++ t.tableIssues

end Template

/-! ## Data -/

/-- The place of a value in a row, rows being counted from 1. -/
def rowPlace (table : String) (ordinal : Nat) (path : String) : String :=
  s!"{table}[{ordinal}]/{path}"

/-- The value has something in it. -/
def isFilled (value : Option String) : Bool := value.elim false Text.hasContent

/-- The issue of a required field without a value. -/
def missingIssues (f : Field) (value : Option String) (place : String) : List Issue :=
  if f.required && value.isNone then
    [structuralError (some f.id) place s!"required field '{f.id}' is missing"]
  else []

/-- The issue of a field that has a value while its parent has none. `parentValue` is the value of a
parent as the field sees it; it is `none` for a parent out of sight, which is not asked for one. -/
def parentIssues (t : Template) (g : DependencyGraph) (parentValue : Field → Option (Option String))
    (f : Field) (value : Option String) (place : String) : List Issue :=
  if f.control.requiresParent && isFilled value then
    match g.parent? t f.id with
    | some parent =>
      match parentValue parent with
      | some v =>
        if isFilled v then []
        else [structuralError (some f.id) place
          s!"'{f.id}' has a value but its parent field '{parent.id}' is empty"]
      | none => []
    | none => []
  else []

/-- The value of a parent as a static field sees it: static fields only. -/
def Template.staticValue (t : Template) (d : FormData) (parent : Field) : Option (Option String) :=
  if t.isRowField parent.id then none else some (d.value? parent.path)

/-- The value of a parent as a field in a row sees it: in the same row, or static. -/
def Template.rowValue (t : Template) (d : FormData) (rowTemplate : List Field) (row : Row)
    (parent : Field) : Option (Option String) :=
  if rowTemplate.any (·.id == parent.id) then some (row.find? parent.path)
  else t.staticValue d parent

/-- An issue about data that the template does not know. -/
def unknownIssue (s : Settings) (place message : String) : Issue where
  severity := if s.strictUnknownPaths then .error else .warning
  category := .structural
  field := none
  path := place
  message

namespace FormData

/-- The issue of data that belongs to another form. -/
def formIssues (t : Template) (d : FormData) : List Issue :=
  if !d.formCode.isEmpty && d.formCode != t.formCode then
    [{
      severity := .warning
      category := .structural
      field := none
      path := ""
      message := s!"instance belongs to form '{d.formCode}', template is '{t.formCode}'" }]
  else []

/-- The issues of the static fields. -/
def staticIssues (t : Template) (g : DependencyGraph) (d : FormData) : List Issue :=
  t.staticFields.flatMap fun f =>
    let value := d.value? f.path
    missingIssues f value f.path ++ parentIssues t g (t.staticValue d) f value f.path

/-- The issues of a row. -/
def rowIssues (s : Settings) (t : Template) (g : DependencyGraph) (d : FormData) (table : Table)
    (ordinal : Nat) (row : Row) : List Issue :=
  (table.rowTemplate.flatMap fun f =>
    let value := row.find? f.path
    let place := rowPlace table.id ordinal f.path
    missingIssues f value place ++
      parentIssues t g (t.rowValue d table.rowTemplate row) f value place) ++
  (row.keys.filter fun key => !table.rowTemplate.any (·.path == key)).map fun key =>
    unknownIssue s (rowPlace table.id ordinal key)
      s!"row value for unknown path '{key}' in table '{table.id}'"

/-- The issues of a table. -/
def tableIssues (s : Settings) (t : Template) (g : DependencyGraph) (d : FormData)
    (table : Table) : List Issue :=
  let rows := d.rows table.id
  (if table.isExceededBy rows.length then
    [structuralError none table.path
      s!"table '{table.id}' has {rows.length} rows, more than the maximum {table.maxRows}"]
    else []) ++
  (rows.mapIdx fun i row => rowIssues s t g d table (i + 1) row).flatten

/-- The paths with a value that belong to no field. -/
def unknownPaths (t : Template) (d : FormData) : List String :=
  d.values.keys.filter fun path => (t.staticFieldAt? path).isNone

/-- The tables with rows that the template does not know. -/
def unknownTables (t : Template) (d : FormData) : List String :=
  d.tables.keys.filter fun id => (t.table? id).isNone

/-- All issues of the data as a whole. -/
def structuralIssues (s : Settings) (t : Template) (d : FormData) : List Issue :=
  let g := t.resolve.graph
  d.formIssues t ++ d.staticIssues t g ++
    (t.tables.flatMap fun (_, table) => d.tableIssues s t g table) ++
    ((d.unknownPaths t).map fun path =>
      unknownIssue s path s!"value for path '{path}' is not part of the template") ++
    ((d.unknownTables t).map fun id => unknownIssue s id s!"rows for unknown table '{id}'")

end FormData

end Filing
