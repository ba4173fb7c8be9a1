import Filing.Data.Value

/-!
# Template defects

What is wrong with a template that could be read: contradictions between its fields, and paths that
have no place in a document. A form with defects can be shown but not filed.
-/

namespace Filing

/-- How one field refers to another. -/
inductive Link where
  /-- The other field scopes the options of this one. -/
  | parent
  /-- This field scopes the options of the other one. -/
  | child
deriving DecidableEq, Repr

/-- The name of a link. -/
def Link.name : Link → String
  | .parent => "parent"
  | .child => "child"

/-- What is wrong with a template. -/
inductive TemplateDefect where
  /-- A field refers to a field that does not exist. -/
  | danglingLink (field : String) (link : Link) (missing : String)
  /-- Fields depend on each other in a circle; the first one is repeated at the end. -/
  | cycle (chain : List String)
  /-- The smallest number of a field exceeds the largest one. -/
  | invertedRange (field min max : String)
  /-- A dependent selection does not name the field on which it depends. -/
  | missingParent (field : String)
  /-- Two fields have one id. -/
  | duplicateField (field : String)
  /-- Two fields have one path. -/
  | duplicatePath (path first second : String)
  /-- A path has no place in a document; `owner` is the field or the section. -/
  | invalidPath (owner path : String)
  /-- Two dynamic sections put their rows at one path. -/
  | duplicateTablePath (path first second : String)
  /-- Two dynamic sections have one table. -/
  | duplicateTable (table : String)
deriving DecidableEq, Repr

namespace TemplateDefect

open Data (Value)

/-- The wording of a defect. -/
def message : TemplateDefect → String
  | .danglingLink field link missing =>
    s!"field '{field}' references unknown {link.name} field '{missing}'"
  | .cycle chain => "dependency cycle: " ++ " → ".intercalate chain
  | .invertedRange field min max =>
    s!"field '{field}' has MinValue {min} greater than MaxValue {max}"
  | .missingParent field => s!"dependent dropdown '{field}' does not declare a parent field"
  | .duplicateField field => s!"duplicate field id '{field}'"
  | .duplicatePath path first second => s!"fields '{first}' and '{second}' share path '{path}'"
  | .invalidPath owner path => s!"field '{owner}' has unresolvable path '{path}'"
  | .duplicateTablePath path first second =>
    s!"dynamic sections '{first}' and '{second}' share table path '{path}'"
  | .duplicateTable table => s!"dynamic sections share table id '{table}'"

/-- A defect as a record. -/
def toValue : TemplateDefect → Value
  | .danglingLink field link missing =>
    .record [("kind", .string "dangling_dependency"), ("field_id", .string field),
      ("relation", .string link.name), ("missing_id", .string missing)]
  | .cycle chain => .record [("kind", .string "dependency_cycle"), ("chain", .strings chain)]
  | .invertedRange field min max =>
    .record [("kind", .string "inverted_range"), ("field_id", .string field), ("min", .string min),
      ("max", .string max)]
  | .missingParent field =>
    .record [("kind", .string "missing_parent"), ("field_id", .string field)]
  | .duplicateField field =>
    .record [("kind", .string "duplicate_field_id"), ("field_id", .string field)]
  | .duplicatePath path first second =>
    .record [("kind", .string "duplicate_path"), ("path", .string path), ("first", .string first),
      ("second", .string second)]
  | .invalidPath owner path =>
    .record [("kind", .string "invalid_path"), ("field_id", .string owner), ("path", .string path)]
  | .duplicateTablePath path first second =>
    .record [("kind", .string "duplicate_table_path"), ("table_path", .string path),
      ("first", .string first), ("second", .string second)]
  | .duplicateTable table =>
    .record [("kind", .string "duplicate_table_id"), ("table_id", .string table)]

end TemplateDefect

end Filing
