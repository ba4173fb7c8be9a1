import Filing.Text.Quoted
import Filing.Xml.Error

/-!
# Findings about template files

A template file is read as a whole: every *fault* that keeps it from being a template is collected,
and so is every *remark*, about something that was ignored or replaced.
-/

namespace Filing

/-- What keeps a file from being a template. -/
inductive TemplateFault where
  /-- The file is no document of the right kind. -/
  | document (e : Xml.DocumentError)
  /-- There are no sections. -/
  | noSections
  /-- A cell, the `index`-th of its section counted from 0, lacks a required attribute. -/
  | missingAttribute (field : Option String) (name : String) (sectionId : String) (index : Nat)
  /-- A dynamic section lacks a required attribute. -/
  | missingSectionAttribute (sectionId name : String)
deriving DecidableEq, Repr

/-- The wording of a fault. -/
def TemplateFault.message : TemplateFault → String
  | .document e => e.message
  | .noSections => "template declares no sections"
  | .missingAttribute (some id) name sectionId _ =>
    s!"field '{id}' in section '{sectionId}' is missing required attribute {name}"
  | .missingAttribute none name sectionId index =>
    s!"field #{index + 1} in section '{sectionId}' is missing required attribute {name}"
  | .missingSectionAttribute sectionId name => s!"dynamic section '{sectionId}' has no {name}"

/-- What was ignored or replaced in a template file. -/
inductive Remark where
  /-- A field with an unknown control became a text field. -/
  | unknownControl (field code : String)
  /-- The template has no version. -/
  | missingVersion
  /-- An attribute of a cell without a meaning. -/
  | ignoredAttribute (element name : String)
  /-- An attribute whose value cannot be read, on a field or a section. -/
  | invalidAttribute (owner name value : String)
  /-- An element that does not belong where it stands. -/
  | ignoredElement (element parent : String)
deriving DecidableEq, Repr

/-- The wording of a remark. -/
def Remark.message : Remark → String
  | .unknownControl field code =>
    s!"unknown control type {code} on field '{field}', defaulting to TEXT"
  | .missingVersion => "template has no Version attribute, using \"unknown\""
  | .ignoredAttribute element name => s!"ignored attribute {name} on <{element}>"
  | .invalidAttribute owner name value =>
    "ignored invalid " ++ name ++ "=\"" ++ value ++ s!"\" on field '{owner}'"
  | .ignoredElement element parent => s!"ignored element <{element}> inside <{parent}>"

end Filing
