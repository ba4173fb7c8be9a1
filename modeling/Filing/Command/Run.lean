import Filing.Catalogue.Menu
import Filing.Catalogue.Pairing
import Filing.Command.Ending
import Filing.Command.Invocation
import Filing.Document.Export
import Filing.Form.Encoding
import Filing.Json.Printer
import Filing.Validation.Validate

/-!
# Running commands

Each command gathers its inputs, computes, and reports, as text for people or as JSON for programs.
It fails when what it reports on is not in order, after it has reported.

Export first gathers (`exportInputs`) and then delivers (`deliver`): data with errors is refused
only when validity is demanded, and the document is delivered even when it is not compliant.
-/

namespace Filing

open Data (Value)

/-! ## What is printed -/

/-- A line that tells of success. -/
def goodLine (text : String) : String := "✓ " ++ text ++ "\n"

/-- A line that tells of something wrong. -/
def badLine (text : String) : String := "✗ " ++ text ++ "\n"

/-- A line that tells of something doubtful. -/
def doubtLine (text : String) : String := "⚠ " ++ text ++ "\n"

/-- Texts one after the other. -/
def concat (l : List String) : String := l.foldl (· ++ ·) ""

/-- The faults of a template and the remarks about it. -/
def TemplateReading.lines (r : TemplateReading) : String :=
  concat (r.faults.map fun f => badLine f.message) ++
    concat (r.remarks.map fun m => doubtLine m.message)

/-- The issues of a report, errors first. -/
def Report.lines (r : Report) : String :=
  concat (r.errors.map fun i => badLine i.line) ++ concat (r.warnings.map fun i => doubtLine i.line)

/-- A record for programs. -/
def jsonText (members : List (String × Value)) : String :=
  Json.renderIndented (.record members) ++ "\n"

/-- The outcome of a validation as a record. -/
def Report.outcome (s : Settings) (r : Report) : List (String × Value) :=
  [("valid", .bool r.isValid), ("score", .nat (r.score s.scoring)),
    ("error_count", .nat r.errors.length), ("warning_count", .nat r.warnings.length),
    ("report", r.toValue)]

/-! ## Telling about a template -/

namespace ParseCommand

/-- What is printed for programs. -/
def summary (c : ParseCommand) (r : TemplateReading) (defects : Option Report) :
    List (String × Value) :=
  let t := r.template?
  [("success", .bool r.success), ("form_code", .string c.formCode),
    ("version", .option (fun t => .string t.version) t),
    ("sections", .nat (t.elim 0 (·.sections.length))),
    ("dynamic_sections", .nat (t.elim 0 (·.tables.length))),
    ("fields", .nat (t.elim 0 (·.fieldCount))),
    ("errors", .list (r.faults.map TemplateFault.toValue)),
    ("warnings", .list (r.remarks.map Remark.toValue))] ++
  optionalMember "defects" Report.toValue defects

/-- What is printed for people. -/
def overview (t : Template) : String :=
  goodLine (s!"Parsed {t.formCode} v{t.version}: {t.sections.length} section(s), " ++
    s!"{t.tables.length} dynamic, {t.fieldCount} field(s)")

/-- What is in the way: faults, or else defects if they count. -/
def failure? (c : ParseCommand) (r : TemplateReading) (defects : Option Report) : Option Failure :=
  if !r.success then
    some (.ofMessage (s!"Template {c.template} failed to parse with " ++
      s!"{r.faults.length} structural error(s)"))
  else
    match defects with
    | some report =>
      if report.isValid then none
      else some (.ofMessage
        s!"Template {c.template} has {report.errors.length} structural defect(s)")
    | none => none

/-- Tells about a template. -/
def run (s : Settings) (quiet : Bool) (files : Files) (c : ParseCommand) : Ending :=
  match files.template s c.template c.formCode with
  | .error f => .failed f
  | .ok r =>
    let defects := if c.check then r.template?.map (·.validate) else none
    let failure := c.failure? r defects
    match c.format with
    | .json => { stdout := jsonText (c.summary r defects), failure }
    | .text => {
        stdout :=
          if quiet then ""
          else r.template?.elim "" overview ++
            defects.elim "" fun report =>
              if report.isValid then goodLine "No template defects" else ""
        stderr := r.lines ++ defects.elim "" Report.lines
        failure }

end ParseCommand

/-- The template of a form; an ending with its faults when there is none. -/
def Files.requireTemplate (files : Files) (s : Settings) (path formCode : String)
    (format : OutputFormat) : Except Ending Template :=
  match files.template s path formCode with
  | .error f => .error (.failed f)
  | .ok r =>
    match r.template?.filter fun _ => r.success with
    | some t => .ok t
    | none => .error {
        stderr := if format = .text then r.lines else ""
        failure := some (.ofError (.templateRejected formCode r.faults.length)) }

/-! ## Validating -/

namespace ValidateCommand

/-- The report on the form data, or on the template alone. -/
def report (s : Settings) (files : Files) (c : ValidateCommand) : Except Ending Report := do
  let t ← files.requireTemplate s c.template c.formCode c.format
  match c.data with
  | none => return t.validate
  | some path =>
    let d ← (files.formData path).mapError Ending.failed
    let rules ← (files.rules c.rules).mapError Ending.failed
    return d.validate s t rules

/-- What is printed for people. -/
def verdict (s : Settings) (c : ValidateCommand) (r : Report) : String :=
  let subject := if c.data.isSome then "Form data" else "Template"
  if r.isValid then
    goodLine (s!"{subject} is valid ({r.warnings.length} warning(s), " ++
      s!"score {r.score s.scoring})")
  else
    badLine (s!"{subject} is invalid: {r.errors.length} error(s), " ++
      s!"{r.warnings.length} warning(s), score {r.score s.scoring}")

/-- Validates form data, or a template alone. -/
def run (s : Settings) (quiet : Bool) (files : Files) (c : ValidateCommand) : Ending :=
  match c.report s files with
  | .error e => e
  | .ok r =>
    let failure :=
      if r.isValid then none
      else some (Failure.ofMessage s!"Validation failed with {r.errors.length} error(s)")
    match c.format with
    | .json => { stdout := jsonText (r.outcome s), failure }
    | .text => { stdout := if quiet then "" else c.verdict s r, stderr := r.lines, failure }

end ValidateCommand

/-! ## Exporting -/

/-- The name of a status as people read it. -/
def Status.title : Status → String
  | .draft => "Draft"
  | .validated => "Validated"
  | .exported => "Exported"

/-- What an export works on. -/
structure ExportInputs where
  /-- The template. -/
  template : Template
  /-- The form data. -/
  data : FormData
  /-- The rules of the form. -/
  rules : RuleBook

namespace ExportCommand

/-- Gathers what an export works on. -/
def inputs (s : Settings) (files : Files) (c : ExportCommand) : Except Ending ExportInputs := do
  let template ← files.requireTemplate s c.template c.formCode c.format
  let data ← (files.formData c.data).mapError Ending.failed
  let rules ← (files.rules c.rules).mapError Ending.failed
  return { template, data, rules }

/-- The status of the data after validation and export. -/
def finalStatus (d : FormData) (r : Report) (e : Export) : Status :=
  ((d.applyVerdict r.isValid).markExported e.isCompliant).1.status

/-- What is printed for programs; the document is part of it unless it goes to a file. -/
def summary (s : Settings) (c : ExportCommand) (r : Report) (e : Export) (status : Status) :
    List (String × Value) :=
  [("compliance_ok", .bool e.isCompliant), ("valid", .bool r.isValid),
    ("score", .nat (r.score s.scoring)), ("status", .string status.name)] ++
  optionalMember "output" .string c.output ++
  (if c.output.isSome then [] else [("document", .string e.document)]) ++
  [("errors", .list (e.discrepancies.map Discrepancy.toValue)), ("warnings", .strings e.warnings)]

/-- What is printed for people: the document, or where it went. -/
def announcement (quiet : Bool) (c : ExportCommand) (e : Export) (status : Status) : String :=
  match c.output with
  | none => e.document
  | some path =>
    if quiet then ""
    else (if e.isCompliant then goodLine else badLine) s!"Wrote {path} ({status.title})"

/-- The remarks on an export and what is wrong with it. -/
def exportLines (e : Export) : String :=
  concat (e.warnings.map doubtLine) ++ concat (e.discrepancies.map fun d => badLine d.message)

/-- Why the document cannot be written, if it is to be written and cannot. -/
def refusal? (files : Files) (c : ExportCommand) : Option Failure :=
  c.output.bind fun path =>
    (files.refusal? path).map fun e => .ofError (.file "write document" path e)

/-- Validates, exports and delivers the document. -/
def deliver (s : Settings) (quiet : Bool) (files : Files) (c : ExportCommand) (i : ExportInputs) :
    Ending :=
  let report := i.data.validate s i.template i.rules
  let told := if c.format = .text then report.lines else ""
  if c.requireValid && !report.isValid then {
    stderr := told
    failure := some (.ofMessage
      s!"Refusing to export: validation failed with {report.errors.length} error(s)") }
  else
    let e := Export.ofFormData s i.template i.data
    let status := finalStatus i.data report e
    match c.refusal? files with
    | some f => { stderr := told, failure := some f }
    | none =>
      let failure :=
        if e.isCompliant then none
        else some (Failure.ofMessage (s!"Exported document failed round-trip verification with " ++
          s!"{e.discrepancies.length} error(s)"))
      let written := c.output.map (·, e.document)
      match c.format with
      | .json => { stdout := jsonText (c.summary s report e status), written, failure }
      | .text => {
          stdout := c.announcement quiet e status
          stderr := told ++ exportLines e
          written
          failure }

/-- Exports form data. -/
def run (s : Settings) (quiet : Bool) (files : Files) (c : ExportCommand) : Ending :=
  match c.inputs s files with
  | .error e => e
  | .ok i => c.deliver s quiet files i

end ExportCommand

/-! ## Listing the forms -/

namespace CatalogueCommand

/-- The forms on offer, and the pairings if they are asked for. -/
def inputs (files : Files) (c : CatalogueCommand) :
    Except Failure (Catalogue × Option (List Pairing)) := do
  let source ← files.readPart "menu" c.menu
  let forms ← (Catalogue.ofText source).mapError fun e =>
    (Failure.ofMessage e.message).within s!"Invalid form menu {c.menu}"
  match c.combos with
  | none => return (forms, none)
  | some path =>
    let source ← files.readPart "dropdown" path
    let pairings ← (Pairing.readAll source).mapError fun e =>
      (Failure.ofMessage e.message).within s!"Invalid dropdown file {path}"
    return (forms, some pairings)

/-- What is printed for people. -/
def listing (c : CatalogueCommand) (forms : Catalogue) (pairings : Option (List Pairing)) :
    String :=
  goodLine s!"{forms.length} form(s) in {c.menu}" ++
  concat (forms.map fun f =>
    s!"  {f.id} {f.caption} (v{f.version}, {f.activeSheets.length} active sheet(s))\n") ++
  pairings.elim "" fun l => goodLine s!"{l.length} dropdown pairing(s)"

/-- Lists the forms on offer. -/
def run (quiet : Bool) (files : Files) (c : CatalogueCommand) : Ending :=
  match c.inputs files with
  | .error f => .failed f
  | .ok (forms, pairings) =>
    match c.format with
    | .json => {
        stdout := jsonText <|
          [("forms", .list (forms.map FormEntry.toValue))] ++
          optionalMember "combos" (fun l => .list (l.map Pairing.toValue)) pairings }
    | .text => { stdout := if quiet then "" else c.listing forms pairings }

end CatalogueCommand

/-! ## Invocations -/

/-- Runs an invocation. `fallback` names the settings file of the environment, which counts when
none is given. -/
def Invocation.run (files : Files) (fallback : Option String) (i : Invocation) : Ending :=
  match files.settings (i.settings.or fallback) with
  | .error f => .failed f
  | .ok s =>
    match i.command with
    | .parse c => c.run s i.quiet files
    | .validate c => c.run s i.quiet files
    | .export c => c.run s i.quiet files
    | .catalogue c => c.run i.quiet files

end Filing
