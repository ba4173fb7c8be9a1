import Filing.Data.Value
import Filing.Xml.Reader

/-!
# Pairings

A selection fills two fields: one shows the caption of the selected option, the other stores its
code. A document of pairings lists such pairs, section by section. Pairings say nothing about which
field depends on which.
-/

namespace Filing

open Data (Value)
open Xml (Node)

/-- Two fields filled by one selection. -/
structure Pairing where
  /-- The name of the pairing. -/
  id : String
  /-- The fields belong to a table. -/
  dynamic : Bool
  /-- The sheet of the fields. -/
  sheetIndex : String
  /-- The table of the fields, if they belong to one. -/
  tablePath : String
  /-- The field that shows the caption. -/
  captionPath : String
  /-- The field that stores the code. -/
  codePath : String
deriving DecidableEq, Repr

namespace Pairing

/-- The pairing of an item. -/
def ofNode (node : Node) : Pairing where
  id := node.attrD "ID"
  dynamic := node.attr? "Dynamic" == some "1"
  sheetIndex := node.attrD "SheetIndex"
  tablePath := node.attrD "TablePath"
  captionPath := node.attrD "CtPath"
  codePath := node.attrD "CtPathMa"

/-- The pairings of a section: the items of its first list. -/
def ofSection (node : Node) : List Pairing :=
  (node.child? "Items").elim [] fun items => (items.childrenNamed "Item").map ofNode

/-- The pairings of a document; an empty document has none. -/
def readAll (source : String) : Except Xml.DocumentError (List Pairing) :=
  match Xml.read source with
  | .error e => .error (.illFormed e)
  | .ok none => .ok []
  | .ok (some root) => .ok ((root.childrenNamed "Section").flatMap ofSection)

/-- A pairing as a record. -/
def toValue (p : Pairing) : Value :=
  .record [("id", .string p.id), ("dynamic", .bool p.dynamic),
    ("sheet_index", .string p.sheetIndex), ("table_path", .string p.tablePath),
    ("ct_path", .string p.captionPath), ("ct_path_ma", .string p.codePath)]

end Pairing

end Filing
