import Filing.Validation.Rule
import Filing.Xml.Reader

/-!
# Adjustment maps

An adjustment map lists, form by form, the fields that take part in supplementary declarations. A
field listed as an increase should not hold a negative amount, and each such item of the map becomes
a rule that says so. The book of rules is changed where it is: each rule is registered when its item
is met, and counted.
-/

namespace Filing

open Xml (Node)

/-- The value is blank, or not a negative amount. -/
def isNotNegative (value : Option String) : Bool :=
  match value with
  | some s =>
    if Text.hasContent s then
      match Decimal.ofText? (Text.trim s) with
      | some d => !d.negative
      | none => true
    else true
  | none => true

/-- The rule of an item, if it is an increase of some field. -/
def increaseRule? (item : Node) : Option Rule := do
  let field ← item.filledAttr? "CellID"
  if item.filledAttr? "DieuChinhTang" ≠ some "1" then none
  let caption := (item.filledAttr? "Caption").getD field
  let code := (item.filledAttr? "MCT").getD field
  return {
    id := s!"adjustment-increase-{field}"
    field
    kind := .format
    message :=
      s!"{caption} (indicator {code}) is an increase adjustment and should not be negative"
    holds := fun value _ => isNotNegative value }

/-- The maps of a document: its root, or the map elements below it. -/
def mapNodes (root : Node) : List Node :=
  if root.name = "Map" then [root] else root.descendantsNamed "Map"

/-- Registers the rule of an item with a book and counts it. -/
def registerItem (formCode : String) (st : RuleBook × Nat) (item : Node) : RuleBook × Nat :=
  match increaseRule? item with
  | some rule => (st.1.register formCode rule, st.2 + 1)
  | none => st

/-- Registers the rules of a map; a map that names no form is passed over. -/
def registerMap (st : RuleBook × Nat) (map : Node) : RuleBook × Nat :=
  match map.filledAttr? "ID" with
  | some formCode => (map.childrenNamed "Item").foldl (registerItem formCode) st
  | none => st

/-- Reads an adjustment map into a book: the book afterwards, and the number of rules that were added
or the reason why none were. -/
def RuleBook.loadInPlace (book : RuleBook) (source : String) :
    RuleBook × Except Xml.DocumentError Nat :=
  match Xml.read source with
  | .error e => (book, .error (.illFormed e))
  | .ok none => (book, .ok 0)
  | .ok (some root) =>
    let (extended, added) := (mapNodes root).foldl registerMap (book, 0)
    (extended, .ok added)

/-- The same for a caller who has no use for the book once a map cannot be read. -/
def RuleBook.load (book : RuleBook) (source : String) : Except Xml.DocumentError (RuleBook × Nat) :=
  let (extended, added) := book.loadInPlace source
  added.map (extended, ·)

end Filing
