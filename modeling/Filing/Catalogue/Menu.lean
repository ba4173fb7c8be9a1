import Filing.Data.Value
import Filing.Xml.Reader

/-!
# Menus

A menu lists the forms on offer. An entry of the group of forms with an id and a caption is a form;
it names its sheets, of which some may be switched off.
-/

namespace Filing

open Data (Value)
open Xml (Node)

/-- A sheet of a form. -/
structure Sheet where
  /-- The name of the sheet in the menu. -/
  id : String
  /-- Its title. -/
  caption : String
  /-- Its name in the template. -/
  name : String
  /-- The sheet is in use. -/
  active : Bool
  /-- The file of its template. -/
  dataFile : String
  /-- The element under which it is exported. -/
  element : String
  /-- Its record code. -/
  recordCode : String
deriving DecidableEq, Repr

/-- A form on offer. -/
structure FormEntry where
  /-- The name of the form in the menu. -/
  id : String
  /-- Its title. -/
  caption : String
  /-- Its internal name. -/
  formName : String
  /-- The version of its template. -/
  version : String
  /-- Its official title. -/
  description : String
  /-- A longer description. -/
  detail : String
  /-- The code in the names of its files. -/
  fileCode : String
  /-- Its sheets. -/
  sheets : List Sheet
deriving DecidableEq, Repr

/-- The forms on offer, in the order of the menu. -/
abbrev Catalogue := List FormEntry

/-- The entries that group forms and are none themselves. -/
def groupEntries : List String := ["101", "101_1"]

/-- The group of the entries that are forms. -/
def formsGroup : String := "101"

/-- A sheet; it is in use unless it says otherwise. -/
def Sheet.ofNode (node : Node) : Sheet where
  id := node.attrD "ID"
  caption := node.attrD "Caption"
  name := node.attrD "SheetName"
  active := (node.attr? "Active").elim true (· == "1")
  dataFile := node.attrD "DataFile"
  element := node.attrD "XMLnode"
  recordCode := node.attrD "MaHoSo"

/-- The form of a menu entry, if it is one. -/
def FormEntry.ofNode? (node : Node) : Option FormEntry := do
  if node.attr? "PopID" ≠ some formsGroup then none
  let id ← node.filledAttr? "ID"
  let caption ← node.filledAttr? "Caption"
  if groupEntries.contains id then none
  return {
    id
    caption
    formName := node.attrD "FormName"
    version := node.attrD "VersionXML"
    description := node.attrD "TenToKhai"
    detail := node.attrD "MoTaBieuMau"
    fileCode := node.attrD "MaFile"
    sheets := (node.child? "Validity").elim [] fun validity =>
      (validity.childrenNamed "Sheet").map Sheet.ofNode }

/-- The sheets that are in use. -/
def FormEntry.activeSheets (f : FormEntry) : List Sheet := f.sheets.filter (·.active)

namespace Catalogue

/-- The menu entries of a document: its root, or those below it at any depth. -/
def menuNodes (root : Node) : List Node :=
  if root.name = "Menu" then [root] else root.descendantsNamed "Menu"

/-- The forms that a menu offers; an empty document offers none. -/
def ofText (source : String) : Except Xml.DocumentError Catalogue :=
  match Xml.read source with
  | .error e => .error (.illFormed e)
  | .ok none => .ok []
  | .ok (some root) => .ok ((menuNodes root).filterMap FormEntry.ofNode?)

/-- The first form with an id. -/
def form? (c : Catalogue) (id : String) : Option FormEntry := c.find? (·.id == id)

end Catalogue

/-- A sheet as a record. -/
def Sheet.toValue (s : Sheet) : Value :=
  .record [("id", .string s.id), ("caption", .string s.caption), ("sheet_name", .string s.name),
    ("active", .bool s.active), ("data_file", .string s.dataFile), ("xml_node", .string s.element),
    ("record_code", .string s.recordCode)]

/-- A form as a record. -/
def FormEntry.toValue (f : FormEntry) : Value :=
  .record [("id", .string f.id), ("caption", .string f.caption), ("form_name", .string f.formName),
    ("version", .string f.version), ("description", .string f.description),
    ("detail_description", .string f.detail), ("file_code", .string f.fileCode),
    ("sheets", .list (f.sheets.map Sheet.toValue))]

/-- The forms on offer as a record. -/
def Catalogue.toValue (c : Catalogue) : Value :=
  .record [("forms", .list (c.map FormEntry.toValue))]

end Filing
