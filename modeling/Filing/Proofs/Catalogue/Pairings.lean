import Filing.Catalogue.Pairing
import Mathlib.Data.List.Flatten
import Mathlib.Data.List.Forall2
import Mathlib.Data.List.Perm.Basic

/-!
# The pairings of a document

The items of a document of pairings stand in lists, and the lists in sections. Each item of the first
list of a section becomes one pairing that says what the item says, in the order of the document.
Later lists of a section are not read, so no pairing is lost exactly if they hold no items.

Main statement: `pairs_items_iff`.
-/

namespace Filing

open Xml (Node)

namespace Pairing

/-- The pairing says what the item says. -/
structure IsOf (p : Pairing) (item : Node) : Prop where
  /-- The texts are the attributes as they are; one that is absent counts as empty. -/
  texts : [p.id, p.sheetIndex, p.tablePath, p.captionPath, p.codePath] =
    ["ID", "SheetIndex", "TablePath", "CtPath", "CtPathMa"].map fun key => (item.attr? key).getD ""
  /-- Only the text "1" makes it a pairing of a table. -/
  dynamic : p.dynamic = true ↔ item.attr? "Dynamic" = some "1"

theorem isOf_ofNode (item : Node) : (ofNode item).IsOf item := ⟨rfl, beq_iff_eq⟩

/-- There is one pairing for each of the items, in their order. -/
def Pairs (pairings : List Pairing) (items : List Node) : Prop :=
  List.Forall₂ (fun item p => IsOf p item) items pairings

theorem pairs_map (items : List Node) : Pairs (items.map ofNode) items :=
  List.forall₂_map_right_iff.2 (List.forall₂_same.2 fun item _ => isOf_ofNode item)

/-- The items of some lists. -/
def itemsOf (lists : List Node) : List Node := lists.flatMap (·.childrenNamed "Item")

/-- The lists of a section. -/
def lists (part : Node) : List Node := part.childrenNamed "Items"

/-- The items of a document: those of every list of every section. -/
def items (root : Node) : List Node :=
  (root.childrenNamed "Section").flatMap fun part => itemsOf (lists part)

/-- The items of the first list of every section. -/
def firstItems (root : Node) : List Node :=
  (root.childrenNamed "Section").flatMap fun part => itemsOf ((lists part).take 1)

/-- The items of all other lists. -/
def laterItems (root : Node) : List Node :=
  (root.childrenNamed "Section").flatMap fun part => itemsOf ((lists part).drop 1)

theorem itemsOf_lists_eq_append (part : Node) : itemsOf (lists part) =
    itemsOf ((lists part).take 1) ++ itemsOf ((lists part).drop 1) := by
  rw [itemsOf, itemsOf, itemsOf, ← List.flatMap_append, List.take_append_drop]

theorem perm_items (root : Node) : (items root).Perm (firstItems root ++ laterItems root) := by
  rw [items, List.flatMap_congr fun part _ => itemsOf_lists_eq_append part]
  exact (List.flatMap_append_perm _ _ _).symm

theorem items_eq_firstItems {root : Node} (h : laterItems root = []) :
    items root = firstItems root := by
  refine List.flatMap_congr fun part hpart => ?_
  rw [itemsOf_lists_eq_append, List.flatMap_eq_nil_iff.1 h part hpart, List.append_nil]

/-- Of a section the first list is read. -/
theorem ofSection_eq_map (part : Node) :
    ofSection part = (itemsOf ((lists part).take 1)).map ofNode := by
  unfold ofSection lists Node.child? Node.childrenNamed
  rw [← List.head?_filter]
  cases part.children.filter (·.name == "Items") with
  | nil => rfl
  | cons list later => simp [itemsOf, Node.childrenNamed]

theorem pairs_flatMap_ofSection (root : Node) :
    Pairs ((root.childrenNamed "Section").flatMap ofSection) (firstItems root) := by
  have hall : (root.childrenNamed "Section").flatMap ofSection = (firstItems root).map ofNode := by
    rw [firstItems, List.map_flatMap]
    exact List.flatMap_congr fun part _ => ofSection_eq_map part
  rw [hall]
  exact pairs_map _

/-- What is paired with the items of the first lists is paired with all items if there are no
others. -/
theorem pairs_items_iff_of_firstItems {pairings : List Pairing} {root : Node}
    (h : Pairs pairings (firstItems root)) :
    Pairs pairings (items root) ↔ laterItems root = [] := by
  constructor
  · intro hall
    have hlength : (items root).length = (firstItems root).length :=
      hall.length_eq.trans h.length_eq.symm
    rw [(perm_items root).length_eq, List.length_append] at hlength
    exact List.length_eq_zero_iff.1 (by omega)
  · intro hnone
    rwa [items_eq_firstItems hnone]

/-- One pairing is read for each item of the first list of every section; no pairing is lost exactly
if all later lists of a section are without items. -/
theorem pairs_items_iff (source : String) :
    match Xml.read source with
    | .error e => readAll source = .error (.illFormed e)
    | .ok none => readAll source = .ok []
    | .ok (some root) => ∃ pairings, readAll source = .ok pairings ∧
        Pairs pairings (firstItems root) ∧
        (Pairs pairings (items root) ↔ laterItems root = []) := by
  unfold readAll
  cases Xml.read source with
  | error e => rfl
  | ok found =>
    cases found with
    | none => rfl
    | some root =>
      have hfirst := pairs_flatMap_ofSection root
      exact ⟨_, rfl, hfirst, pairs_items_iff_of_firstItems hfirst⟩

/-- A list of one item. -/
def singleList (id : String) : Node := ⟨"Items", [], "", [⟨"Item", [("ID", id)], "", []⟩]⟩

/-- A section with two such lists. -/
def twoLists : String :=
  "<D><Section><Items><Item ID=\"a\"/></Items><Items><Item ID=\"b\"/></Items></Section></D>"

theorem not_pairs_twoLists :
    ∃ root pairings, Xml.read twoLists = .ok (some root) ∧ readAll twoLists = .ok pairings ∧
      ¬ Pairs pairings (items root) := by
  have hread : Xml.read twoLists =
      .ok (some ⟨"D", [], "", [⟨"Section", [], "", [singleList "a", singleList "b"]⟩]⟩) := by
    decide +kernel
  have hpairings : readAll twoLists = .ok [⟨"a", false, "", "", "", ""⟩] := by
    unfold readAll
    rw [hread]
    decide +kernel
  exact ⟨_, _, hread, hpairings, fun hall => absurd hall.length_eq (by decide +kernel)⟩

end Pairing

end Filing
