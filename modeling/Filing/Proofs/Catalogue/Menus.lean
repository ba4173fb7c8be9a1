import Filing.Catalogue.Menu
import Filing.Proofs.Xml.Elements
import Mathlib.Data.List.Forall2

/-!
# The forms of a menu

Menu entries group other entries and can be forms at the same time. Unless the root of the menu is an
entry itself, each entry of a form becomes one entry of the catalogue, at whatever depth it stands and
in document order, and no entry hides another one. A root that is an entry is taken alone, without
those below it, so then the catalogue is complete only if there are none.

Main statement: `lists_elements_iff`.
-/

namespace Filing

open Xml (Node)

/-- The entry of the catalogue says what the menu entry says. -/
@[mk_iff]
structure FormEntry.IsOf (entry : FormEntry) (node : Node) : Prop where
  /-- The id, without the blanks around it. -/
  id : node.filledAttr? "ID" = some entry.id
  /-- The title, without the blanks around it. -/
  caption : node.filledAttr? "Caption" = some entry.caption
  /-- The texts that may be absent, as they are. -/
  texts : [entry.formName, entry.version, entry.description, entry.detail, entry.fileCode] =
    ["FormName", "VersionXML", "TenToKhai", "MoTaBieuMau", "MaFile"].map node.attrD
  /-- The sheets, in their order. -/
  sheets : entry.sheets =
    ((node.child? "Validity").elim [] (·.childrenNamed "Sheet")).map Sheet.ofNode

namespace Catalogue

/-- The element is the menu entry of a form: it is in the group of the forms and has a title and an id
that is not that of a group. -/
structure OffersForm (node : Node) : Prop where
  name : node.name = "Menu"
  group : node.attr? "PopID" = some "101"
  id : ∃ id, node.filledAttr? "ID" = some id ∧ id ≠ "101" ∧ id ≠ "101_1"
  caption : ∃ caption, node.filledAttr? "Caption" = some caption

/-- An element of which something is asked besides its name has an entry, which says what it says. -/
theorem ofNode?_eq_some_iff {node : Node} {entry : FormEntry} :
    FormEntry.ofNode? node = some entry ↔
      node.attr? "PopID" = some "101" ∧ (entry.id ≠ "101" ∧ entry.id ≠ "101_1") ∧
        entry.IsOf node := by
  have hsheets : ((node.child? "Validity").elim [] fun validity =>
      (validity.childrenNamed "Sheet").map Sheet.ofNode) =
        ((node.child? "Validity").elim [] (·.childrenNamed "Sheet")).map Sheet.ofNode := by
    cases node.child? "Validity" <;> rfl
  unfold FormEntry.ofNode? formsGroup
  rw [hsheets]
  constructor
  · intro h
    by_cases hgroup : node.attr? "PopID" = some "101"
    · rw [if_neg (not_not_intro hgroup)] at h
      obtain ⟨id, hid, h⟩ := Option.bind_eq_some_iff.1 h
      obtain ⟨caption, hcaption, h⟩ := Option.bind_eq_some_iff.1 h
      by_cases hproper : groupEntries.contains id = true
      · rw [if_pos hproper] at h
        exact absurd h (Option.some_ne_none _).symm
      · rw [if_neg hproper] at h
        obtain rfl := Option.some.inj h
        exact ⟨hgroup, by simpa [groupEntries] using hproper, hid, hcaption, rfl, rfl⟩
    · rw [if_pos hgroup] at h
      exact absurd h (Option.some_ne_none _).symm
  · obtain ⟨id, caption, formName, version, description, detail, fileCode, sheets⟩ := entry
    rintro ⟨hgroup, hproper, hid, hcaption, htexts, hentrySheets⟩
    have hcontains : ¬ groupEntries.contains id = true := by simpa [groupEntries] using hproper
    obtain ⟨rfl, rfl, rfl, rfl, rfl⟩ : _ ∧ _ ∧ _ ∧ _ ∧ _ := by simpa using htexts
    obtain rfl : sheets = _ := hentrySheets
    rw [if_neg (not_not_intro hgroup), hid, hcaption]
    exact if_neg hcontains

theorem offersForm_iff {node : Node} :
    OffersForm node ↔ node.name = "Menu" ∧ (FormEntry.ofNode? node).isSome := by
  rw [Option.isSome_iff_exists]
  constructor
  · rintro ⟨hname, hgroup, ⟨id, hid, hproper⟩, ⟨caption, hcaption⟩⟩
    have hentry : FormEntry.IsOf ⟨id, caption, _, _, _, _, _, _⟩ node := ⟨hid, hcaption, rfl, rfl⟩
    exact ⟨hname, _, ofNode?_eq_some_iff.2 ⟨hgroup, hproper, hentry⟩⟩
  · rintro ⟨hname, entry, h⟩
    obtain ⟨hgroup, hproper, hentry⟩ := ofNode?_eq_some_iff.1 h
    exact ⟨hname, hgroup, ⟨entry.id, hentry.id, hproper⟩, ⟨entry.caption, hentry.caption⟩⟩

instance : DecidablePred OffersForm := fun _ => decidable_of_iff _ offersForm_iff.symm

/-- The catalogue has one entry for each menu entry of a form among the elements, in their order. -/
def Lists (c : Catalogue) (nodes : List Node) : Prop :=
  List.Forall₂ (fun node entry => FormEntry.IsOf entry node) (nodes.filter OffersForm) c

theorem lists_filterMap {nodes : List Node} (h : ∀ node ∈ nodes, node.name = "Menu") :
    Lists (nodes.filterMap FormEntry.ofNode?) nodes := by
  refine forall₂_filter_filterMap (fun node hnode hentry => ?_) fun node hnode entry hentry => ?_
  · simp [offersForm_iff, hentry]
  · have hoffers : OffersForm node := offersForm_iff.2 ⟨h node hnode, by rw [hentry]; rfl⟩
    exact ⟨by simpa using hoffers, (ofNode?_eq_some_iff.1 hentry).2.2⟩

/-- Only elements that are menu entries matter. -/
theorem lists_filter_iff {c : Catalogue} {nodes : List Node} :
    Lists c (nodes.filter (·.name == "Menu")) ↔ Lists c nodes := by
  have hboth : (nodes.filter (·.name == "Menu")).filter OffersForm = nodes.filter OffersForm := by
    rw [List.filter_filter]
    refine List.filter_congr fun node _ => ?_
    by_cases hoffers : OffersForm node
    · simp [hoffers, hoffers.name]
    · simp [hoffers]
  rw [Lists, Lists, hboth]

/-- What is listed for the first of some elements is all that there is to list if the others offer
no form. -/
theorem lists_cons_iff {c : Catalogue} {node : Node} {rest : List Node} (h : Lists c [node]) :
    Lists c (node :: rest) ↔ ∀ other ∈ rest, ¬ OffersForm other := by
  have hsplit : (node :: rest).filter OffersForm =
      [node].filter OffersForm ++ rest.filter OffersForm := by
    rw [← List.filter_append, List.singleton_append]
  have hnone : (∀ other ∈ rest, ¬ OffersForm other) ↔ rest.filter OffersForm = [] := by
    simp [List.filter_eq_nil_iff]
  rw [hnone, Lists, hsplit]
  constructor
  · intro hall
    have hlength := hall.length_eq.trans h.length_eq.symm
    rw [List.length_append] at hlength
    exact List.length_eq_zero_iff.1 (by omega)
  · intro hrest
    rwa [hrest, List.append_nil]

/-- The catalogue of a menu lists every form, at any depth and in document order, except where the
root of the menu is an entry with other forms below it; then it lists the root alone. -/
theorem lists_elements_iff (source : String) :
    match Xml.read source with
    | .error e => ofText source = .error (.illFormed e)
    | .ok none => ofText source = .ok []
    | .ok (some root) => ∃ c, ofText source = .ok c ∧
        (root.name = "Menu" → Lists c [root]) ∧
        (Lists c root.elements ↔
          (root.name = "Menu" → ∀ node ∈ root.elements.tail, ¬ OffersForm node)) := by
  unfold ofText
  cases Xml.read source with
  | error e => rfl
  | ok found =>
    cases found with
    | none => rfl
    | some root =>
      refine ⟨_, rfl, ?_⟩
      rw [menuNodes, Node.elements_eq, List.tail_cons]
      by_cases hname : root.name = "Menu"
      · rw [if_pos hname]
        have hroot : Lists ([root].filterMap FormEntry.ofNode?) [root] :=
          lists_filterMap (List.forall_mem_singleton.2 hname)
        refine ⟨fun _ => hroot, (lists_cons_iff hroot).trans ?_⟩
        exact ⟨fun h _ => h, fun h => h hname⟩
      · rw [if_neg hname]
        -- the search leaves the root out, which is no entry here
        refine ⟨fun h => absurd h hname, iff_of_true ?_ fun h => absurd h hname⟩
        rw [← lists_filter_iff, List.filter_cons_of_neg (by simpa using hname),
          Node.descendantsNamed_eq_filter, Node.elements_eq, List.tail_cons]
        exact lists_filterMap fun node hnode => by simpa using (List.mem_filter.1 hnode).2

/-- The menu entry of a form. -/
def singleForm : Node := ⟨"Menu", [("ID", "01"), ("PopID", "101"), ("Caption", "A")], "", []⟩

/-- A menu in which it stands below the root. -/
def groupedMenu : String := "<Menu ID=\"all\"><Menu ID=\"01\" PopID=\"101\" Caption=\"A\"/></Menu>"

theorem not_lists_groupedMenu :
    ∃ root, Xml.read groupedMenu = .ok (some root) ∧ ofText groupedMenu = .ok [] ∧
      ¬ Lists [] root.elements := by
  have hread : Xml.read groupedMenu = .ok (some ⟨"Menu", [("ID", "all")], "", [singleForm]⟩) := by
    decide +kernel
  refine ⟨_, hread, ?_, ?_⟩
  · unfold ofText
    rw [hread]
    decide +kernel
  · intro hlists
    have hnone := List.filter_eq_nil_iff.1 (List.forall₂_nil_right_iff.1 hlists)
    have hbelow : singleForm ∈ (⟨"Menu", [("ID", "all")], "", [singleForm]⟩ : Node).elements.tail :=
      Node.mem_elements_of_child (List.mem_singleton_self _) (Node.self_mem_elements _)
    exact hnone singleForm (List.mem_of_mem_tail hbelow) (by decide +kernel)

end Catalogue

end Filing
