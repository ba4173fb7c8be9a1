import Filing.Data.Value
import Filing.Form.TemplateReader

/-!
# Templates as plain data

The records in which templates and the findings about them are reported. Members that a field does
not have are left out.
-/

namespace Filing

open Data (Value)

/-- A member that is left out when there is no value. -/
def optionalMember {α : Type} (name : String) (encode : α → Value) (a : Option α) :
    List (String × Value) :=
  a.toList.map fun a => (name, encode a)

/-- A control by its name in capitals. -/
def Control.toValue (c : Control) : Value := .string c.name.toUpper

/-- A decimal as a text. -/
def Decimal.toValue (d : Decimal) : Value := .string d.text

/-- A field as a record. -/
def Field.toValue (f : Field) : Value :=
  .record <|
    [("id", .string f.id)] ++
    optionalMember "secondary_id" .string f.secondaryId ++
    [("path", .string f.path), ("control_type", f.control.toValue),
      ("control_code", .string f.controlCode), ("value_encoded", .bool f.encoded)] ++
    optionalMember "value" .string f.preset ++
    optionalMember "default_value" .string f.default ++
    optionalMember "max_length" .nat f.maxLength ++
    optionalMember "min_value" Decimal.toValue f.min ++
    optionalMember "max_value" Decimal.toValue f.max ++
    optionalMember "help_ref" .string f.help ++
    optionalMember "parent_field_id" .string f.parent ++
    optionalMember "child_field_id" .string f.child ++
    optionalMember "selected_value_ref" .string f.selected ++
    [("required", .bool f.required)]

/-- A section as a record. -/
def Section.toValue (s : Section) : Value :=
  .record <| ("id", .string s.id) ::
    match s.content with
    | .static cells => [("kind", .string "static"), ("cells", .list (cells.map Field.toValue))]
    | .dynamic t =>
      [("kind", .string "dynamic"), ("max_rows", .nat t.maxRows), ("table_id", .string t.id),
        ("table_path", .string t.path),
        ("location", .record
          [("template_row", .nat t.offsets.template), ("report_row", .nat t.offsets.report)]),
        ("row_template", .list (t.rowTemplate.map Field.toValue))]

/-- A template as a record. -/
def Template.toValue (t : Template) : Value :=
  .record [("version", .string t.version), ("form_code", .string t.formCode),
    ("sections", .list (t.sections.map Section.toValue))]

/-- A document error as a record. -/
def Xml.DocumentError.toValue : Xml.DocumentError → Value
  | .illFormed e =>
    .record [("kind", .string "xml"), ("position", .nat e.position),
      ("message", .string e.fault.message)]
  | .malformedRoot expected found =>
    .record [("kind", .string "malformed_root"), ("expected", .string expected),
      ("found", .string found)]

/-- A fault as a record. -/
def TemplateFault.toValue : TemplateFault → Value
  | .document e => e.toValue
  | .noSections => .record [("kind", .string "no_sections")]
  | .missingAttribute field name sectionId index =>
    .record [("kind", .string "missing_attribute"), ("field_id", .optional field),
      ("attribute", .string name), ("section", .string sectionId), ("index", .nat index)]
  | .missingSectionAttribute sectionId name =>
    .record [("kind", .string "missing_section_attribute"), ("section", .string sectionId),
      ("attribute", .string name)]

/-- A remark as a record. -/
def Remark.toValue : Remark → Value
  | .unknownControl field code =>
    .record [("kind", .string "unknown_control_type"), ("field_id", .string field),
      ("code", .string code)]
  | .missingVersion => .record [("kind", .string "missing_version")]
  | .ignoredAttribute element name =>
    .record [("kind", .string "ignored_attribute"), ("element", .string element),
      ("attribute", .string name)]
  | .invalidAttribute owner name value =>
    .record [("kind", .string "invalid_attribute"), ("field_id", .string owner),
      ("attribute", .string name), ("value", .string value)]
  | .ignoredElement element parent =>
    .record [("kind", .string "ignored_element"), ("element", .string element),
      ("parent", .string parent)]

/-- What the reading of a template yielded, as a record. -/
def TemplateReading.toValue (r : TemplateReading) : Value :=
  .record [("success", .bool r.success),
    ("template", .option Template.toValue r.template?),
    ("errors", .list (r.faults.map TemplateFault.toValue)),
    ("warnings", .list (r.remarks.map Remark.toValue))]

end Filing
