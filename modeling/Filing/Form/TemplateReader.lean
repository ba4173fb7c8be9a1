import Filing.Form.Remark
import Filing.Form.Template
import Filing.Xml.Reader

/-!
# Reading templates

A template file is a list of `Section` elements. A static section has its cells in `Cells` blocks; a
dynamic one names the path of its table and has the cells of its rows in its first `RowInfo`. The
elements are gone through once, in the order of the document. Faults and remarks are noted on the
way and do not stop the reading, so that all faults of a file come to light together.

Main statement: a file is either a template or has faults, never both (`template?_isSome_iff`).
-/

namespace Filing.TemplateReader

open Filing.Text (maxWord32 maxWord64 natural?)
open Filing.Xml (Node)

/-! ## Notes -/

/-- What has been noted so far. -/
structure Notes where
  /-- The faults, in the order of the document. -/
  faults : List TemplateFault := []
  /-- The remarks, in the order of the document. -/
  remarks : List Remark := []
  /-- The attributes without a meaning that have been mentioned. -/
  mentioned : List String := []
  /-- The number of sections that were left out. -/
  dropped : Nat := 0

/-- A part of the reading. -/
abbrev Pass := StateM Notes

/-- Notes a fault. -/
def noteFault (f : TemplateFault) : Pass Unit := modify fun n => { n with faults := n.faults ++ [f] }

/-- Notes a remark. -/
def noteRemark (r : Remark) : Pass Unit := modify fun n => { n with remarks := n.remarks ++ [r] }

/-- Notes an element that does not belong where it stands. -/
def ignoreElement (child holder : Node) : Pass Unit :=
  noteRemark (.ignoredElement child.name holder.name)

/-! ## Attributes -/

/-- The value of an attribute that turns something on. -/
def isTruthy (value : String) : Bool :=
  value == "1" || Text.sameIgnoringCase value.toList "true".toList

/-- An attribute turns something on. -/
def isOn (node : Node) (name : String) : Bool := (node.filledAttr? name).elim false isTruthy

/-- A text attribute, unless it is empty; blanks count. -/
def textAttr? (node : Node) (name : String) : Option String :=
  (node.attr? name).filter (!·.isEmpty)

/-- Reads an attribute; one that is not blank but cannot be read is noted and left out. -/
def readAttr {α : Type} (read : String → Option α) (owner name : String) (node : Node) :
    Pass (Option α) := do
  match node.filledAttr? name with
  | none => return none
  | some raw =>
    match read raw with
    | some value => return some value
    | none =>
      noteRemark (.invalidAttribute owner name raw)
      return none

/-! ## Cells -/

/-- The attributes of a cell that have a meaning. -/
def cellAttributes : List String :=
  ["CellID", "CellID2", "Path", "Controltype", "Encode", "Value", "DefaultValue", "MaxLen",
    "MinValue", "MaxValue", "HelpContextID", "ParentCell", "ChildCell", "SelectedValue", "Required"]

/-- The attributes without which a cell is no field. -/
def requiredAttributes : List String := ["CellID", "Path", "Controltype"]

/-- Notes an attribute of a cell that has no meaning, once for all cells. -/
def noteAttribute (element name : String) : Pass Unit := do
  if !cellAttributes.contains name && !(← get).mentioned.contains name then
    noteRemark (.ignoredAttribute element name)
    modify fun n => { n with mentioned := name :: n.mentioned }

/-- The control with a number as it is written in a template. -/
def control? (code : String) : Option Control := (natural? maxWord32 code).bind Control.ofCode?

/-- Reads the control of a field; an unknown one is noted and becomes text. -/
def readControl (id code : String) : Pass Control := do
  match control? code with
  | some c => return c
  | none =>
    noteRemark (.unknownControl id code)
    return .text

/-- Notes the required attributes that a cell lacks. -/
def noteMissing (sectionId : String) (index : Nat) (cell : Node) : Pass Unit :=
  requiredAttributes.forM fun name => do
    if (cell.filledAttr? name).isNone then
      noteFault (.missingAttribute (cell.filledAttr? "CellID") name sectionId index)

/-- Reads the field of a cell that has the required attributes. -/
def readField (cell : Node) : Pass (Option Field) := do
  match cell.filledAttr? "CellID", cell.filledAttr? "Path", cell.filledAttr? "Controltype" with
  | some id, some path, some code =>
    let control ← readControl id code
    let maxLength ← readAttr (natural? maxWord64) id "MaxLen" cell
    let min ← readAttr Decimal.ofText? id "MinValue" cell
    let max ← readAttr Decimal.ofText? id "MaxValue" cell
    return some { Field.new id path control with
      controlCode := code
      secondaryId := cell.filledAttr? "CellID2"
      encoded := isOn cell "Encode"
      preset := textAttr? cell "Value"
      default := textAttr? cell "DefaultValue"
      help := cell.filledAttr? "HelpContextID"
      parent := cell.filledAttr? "ParentCell"
      child := cell.filledAttr? "ChildCell"
      selected := cell.filledAttr? "SelectedValue"
      required := isOn cell "Required"
      maxLength, min, max }
  | _, _, _ => return none

/-- Reads a cell, the `index`-th of its section counted from 0. -/
def readCell (sectionId : String) (index : Nat) (cell : Node) : Pass (Option Field) := do
  noteMissing sectionId index cell
  (cell.attrs.map (·.1)).forM (noteAttribute cell.name)
  readField cell

/-- Reads the cells among the children of an element, and answers the fields and the number of the
next cell of the section. -/
def readCells (sectionId : String) (holder : Node) (index : Nat) :
    List Node → Pass (List Field × Nat)
  | [] => return ([], index)
  | child :: rest => do
    if child.name = "Cell" then
      let field ← readCell sectionId index child
      let (fields, next) ← readCells sectionId holder (index + 1) rest
      return (field.toList ++ fields, next)
    else
      ignoreElement child holder
      readCells sectionId holder index rest

/-! ## Sections -/

/-- The section repeats rows. -/
def isDynamic (node : Node) : Bool := isOn node "Dynamic"

/-- The id of a section, the `ordinal`-th of its template counted from 1. -/
def sectionId (ordinal : Nat) (node : Node) : String :=
  (node.filledAttr? "id").getD s!"S{ordinal}"

/-- Reads the blocks of cells of a static section; `index` is the number of its next cell. -/
def readBlocks (id : String) (node : Node) (index : Nat) : List Node → Pass (List Field)
  | [] => return []
  | child :: rest => do
    if child.name = "Cells" then
      let (fields, next) ← readCells id child index child.children
      return fields ++ (← readBlocks id node next rest)
    else
      ignoreElement child node
      readBlocks id node index rest

/-- Reads the row description of a dynamic section, the first one that is found. -/
def readRowInfo (id : String) (node : Node) (found : Option (RowOffsets × List Field)) :
    List Node → Pass (Option (RowOffsets × List Field))
  | [] => return found
  | child :: rest => do
    if child.name = "RowInfo" ∧ found.isNone then
      let template ← readAttr (natural? maxWord32) id "TemplateRow" child
      let report ← readAttr (natural? maxWord32) id "ReportRow" child
      let (fields, _) ← readCells id child 0 child.children
      readRowInfo id node (some (⟨template.getD 0, report.getD 0⟩, fields)) rest
    else
      ignoreElement child node
      readRowInfo id node found rest

/-- Reads the path of the table of a dynamic section. -/
def readTablePath (id : String) (node : Node) : Pass (Option String) := do
  match node.filledAttr? "TablePath" with
  | some path => return some (Path.normalize path)
  | none =>
    noteFault (.missingSectionAttribute id "TablePath")
    return none

/-- Reads a section. A dynamic one that does not name the path of its table is gone through for its
faults and then left out. -/
def readSection (ordinal : Nat) (node : Node) : Pass (Option Section) := do
  let id := sectionId ordinal node
  if isDynamic node then
    let path ← readTablePath id node
    let maxRows ← readAttr (natural? maxWord64) id "MaxRows" node
    let found ← readRowInfo id node none node.children
    let (offsets, rowTemplate) := found.getD ({}, [])
    return path.map fun path => ⟨id, .dynamic {
      maxRows := maxRows.getD 0
      id := (node.filledAttr? "TableName").getD id
      path, offsets, rowTemplate }⟩
  else
    let fields ← readBlocks id node 0 node.children
    return some ⟨id, .static fields⟩

/-! ## Templates -/

/-- The version of a form whose template does not tell. -/
def unknownVersion : String := "unknown"

/-- Reads the version of a template. -/
def readVersion (root : Node) : Pass String := do
  match root.filledAttr? "Version" with
  | some version => return version
  | none =>
    noteRemark .missingVersion
    return unknownVersion

/-- Reads the sections of a template, of which `kept` have been kept so far. -/
def readSections (root : Node) (kept : Nat) : List Node → Pass (List Section)
  | [] => return []
  | child :: rest => do
    if child.name = "Section" then
      let ordinal := kept + (← get).dropped + 1
      match ← readSection ordinal child with
      | some s => return s :: (← readSections root (kept + 1) rest)
      | none =>
        modify fun n => { n with dropped := n.dropped + 1 }
        readSections root kept rest
    else
      ignoreElement child root
      readSections root kept rest

/-- Reads the template of a form; it is of use only if no faults have been noted. -/
def readTemplate (formCode : String) (root : Node) : Pass Template := do
  let version ← readVersion root
  let sections ← readSections root 0 root.children
  if sections.isEmpty ∧ (← get).dropped = 0 then
    noteFault .noSections
  return { version, formCode, sections }

end TemplateReader

/-- What the reading of a template file yields. -/
structure TemplateReading where
  /-- The file is a template. -/
  success : Bool
  /-- The template. -/
  template? : Option Template
  /-- The faults of the file. -/
  faults : List TemplateFault
  /-- The remarks about the file. -/
  remarks : List Remark

namespace TemplateReading

/-- The reading of a file that is no template. -/
def failed (faults : List TemplateFault) (remarks : List Remark) : TemplateReading where
  success := false
  template? := none
  faults
  remarks

/-- Reads the template of a form, whose root element has the given name. -/
def ofText (rootName formCode source : String) : TemplateReading :=
  match Xml.readRoot rootName source with
  | .error e => failed [.document e] []
  | .ok root =>
    let (template, notes) := (TemplateReader.readTemplate formCode root).run {}
    if notes.faults.isEmpty then
      { success := true, template? := some template, faults := [], remarks := notes.remarks }
    else failed notes.faults notes.remarks

/-- The reading succeeds exactly when there is a template. -/
theorem success_eq (rootName formCode source : String) :
    (ofText rootName formCode source).success =
      (ofText rootName formCode source).template?.isSome := by
  unfold ofText failed
  split
  · rfl
  · split
    split <;> rfl

/-- A file is a template exactly when it has no faults. -/
theorem template?_isSome_iff (rootName formCode source : String) :
    (ofText rootName formCode source).template?.isSome ↔
      (ofText rootName formCode source).faults = [] := by
  unfold ofText failed
  split
  · simp
  · split
    split <;> simp_all

end TemplateReading

end Filing
