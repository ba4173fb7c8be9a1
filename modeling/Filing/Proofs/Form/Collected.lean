import Filing.Proofs.Form.Outline
import Mathlib.Data.List.Forall2

/-!
# The faults of a template

A fault does not stop the reading. All faults of a template file are collected in the order of the
document, and each tells the place where something is missing. A file without faults loses nothing:
its sections and fields are those of its `Section` and `Cell` elements, one by one.
-/

namespace Filing

open Filing.Xml (Node)

namespace TemplateReader

/-! ## Parts without faults -/

theorem field?_isSome_iff (cell : Node) :
    (field? cell).isSome ↔ ∀ name ∈ requiredAttributes, (cell.filledAttr? name).isSome := by
  simp only [requiredAttributes, List.forall_mem_cons]
  unfold field?
  cases cell.filledAttr? "CellID" <;> cases cell.filledAttr? "Path" <;>
    cases cell.filledAttr? "Controltype" <;> simp

theorem cellFaults_eq_nil_iff (sectionId : String) (index : Nat) (cell : Node) :
    cellFaults sectionId index cell = [] ↔ (field? cell).isSome := by
  rw [cellFaults, List.map_eq_nil_iff, List.filter_eq_nil_iff, field?_isSome_iff]
  refine forall₂_congr fun name _ => ?_
  rw [Bool.not_eq_true, Option.isNone_eq_false_iff]

theorem cellsFaults_eq_nil_iff (sectionId : String) (index : Nat) (cells : List Node) :
    cellsFaults sectionId index cells = [] ↔ ∀ cell ∈ cells, (field? cell).isSome := by
  rw [cellsFaults, List.flatMap_eq_nil_iff]
  conv => rhs; rw [← List.zipIdx_map_fst index cells, List.forall_mem_map]
  exact forall₂_congr fun p _ => cellFaults_eq_nil_iff sectionId p.2 p.1

theorem sectionFaults_eq_nil_iff (ordinal : Nat) (node : Node) :
    sectionFaults ordinal node = [] ↔
      (section? ordinal node).isSome ∧ ∀ cell ∈ cells node, (field? cell).isSome := by
  rw [sectionFaults, List.append_eq_nil_iff, cellsFaults_eq_nil_iff]
  refine and_congr_left' ?_
  unfold section?
  by_cases hrows : RepeatsRows node <;> cases node.filledAttr? "TablePath" <;> simp [hrows]

theorem faults_eq_nil_iff (root : Node) : faults root = [] ↔
    sectionNodes root ≠ [] ∧ ∀ p ∈ sectionNodes root, sectionFaults p.2 p.1 = [] := by
  unfold faults
  by_cases hnil : sectionNodes root = []
  · rw [if_pos hnil]
    exact iff_of_false (List.cons_ne_nil _ _) fun h => h.1 hnil
  · rw [if_neg hnil, List.flatMap_eq_nil_iff, and_iff_right hnil]

/-! ## What elements stand for -/

/-- A field has the id, the path and the control that its cell gives it. -/
structure ReadsCell (cell : Node) (f : Field) : Prop where
  id : cell.filledAttr? "CellID" = some f.id
  path : (cell.filledAttr? "Path").map Path.normalize = some f.path
  control : cell.filledAttr? "Controltype" = some f.controlCode

/-- A section has the id of its element, or else its number; it has rows if the element says so,
and its fields are those of the cells of the element, one by one. -/
structure ReadsSection (node : Node) (ordinal : Nat) (s : Section) : Prop where
  id : s.id = (node.filledAttr? "id").getD s!"S{ordinal}"
  dynamic : s.isDynamic = true ↔ RepeatsRows node
  table : s.table?.map (·.path) =
    if RepeatsRows node then (node.filledAttr? "TablePath").map Path.normalize else none
  fields : List.Forall₂ ReadsCell (cells node) s.fields

theorem readsCell_of_field? {cell : Node} {f : Field} (h : field? cell = some f) :
    ReadsCell cell f := by
  simp only [field?, Option.bind_eq_bind, Option.bind_eq_some_iff] at h
  obtain ⟨id, hid, path, hpath, code, hcode, hf⟩ := h
  obtain rfl := Option.some.inj hf
  exact ⟨hid, by rw [hpath]; rfl, hcode⟩

theorem forall₂_filterMap {α β : Type} {R : α → β → Prop} {f : α → Option β} {l : List α}
    (h : ∀ a ∈ l, ∃ b, f a = some b ∧ R a b) : List.Forall₂ R l (l.filterMap f) := by
  induction l with
  | nil => exact .nil
  | cons a l ih =>
    obtain ⟨b, hb, hab⟩ := h a List.mem_cons_self
    rw [List.filterMap_cons_some hb]
    exact .cons hab (ih fun a ha => h a (List.mem_cons_of_mem _ ha))

theorem readsSection_of_section? {ordinal : Nat} {node : Node} {s : Section}
    (hcells : ∀ cell ∈ cells node, (field? cell).isSome) (h : section? ordinal node = some s) :
    ReadsSection node ordinal s := by
  have hfields : List.Forall₂ ReadsCell (cells node) ((cells node).filterMap field?) := by
    refine forall₂_filterMap fun cell hcell => ?_
    obtain ⟨f, hf⟩ := Option.isSome_iff_exists.1 (hcells cell hcell)
    exact ⟨f, hf, readsCell_of_field? hf⟩
  unfold section? at h
  by_cases hrows : RepeatsRows node
  · simp only [if_pos hrows] at h
    obtain ⟨path, hpath, rfl⟩ := Option.map_eq_some_iff.1 h
    refine ⟨rfl, iff_of_true rfl hrows, ?_, hfields⟩
    rw [if_pos hrows, hpath]
    rfl
  · simp only [if_neg hrows] at h
    obtain rfl := Option.some.inj h
    refine ⟨rfl, iff_of_false nofun hrows, ?_, hfields⟩
    rw [if_neg hrows]
    rfl

theorem readsSections_of_faults_eq_nil {root : Node} (h : faults root = []) :
    List.Forall₂ (fun p s => ReadsSection p.1 p.2 s) (sectionNodes root) (sections root) := by
  refine forall₂_filterMap fun p hp => ?_
  have hnone : sectionFaults p.2 p.1 = [] := ((faults_eq_nil_iff root).1 h).2 p hp
  obtain ⟨hsome, hcells⟩ := (sectionFaults_eq_nil_iff p.2 p.1).1 hnone
  obtain ⟨s, hs⟩ := Option.isSome_iff_exists.1 hsome
  exact ⟨s, hs, readsSection_of_section? hcells hs⟩

end TemplateReader

namespace TemplateReading

open TemplateReader

/-- The faults of a file that is a document of the right kind are all that it lacks, in the order of
the document: the paths of tables, and the required attributes of cells, each told by the id of the
cell, if it has one, and by its number in the section; or that there are no sections. It is a
template exactly if it lacks nothing, and then it has a section for each `Section` and a field for
each of their cells. -/
theorem ofText_collects (rootName formCode source : String) :
    match Xml.readRoot rootName source, ofText rootName formCode source with
    | .error e, r => r.success = false ∧ r.template? = none ∧ r.faults = [.document e]
    | .ok root, r =>
      r.faults = TemplateReader.faults root ∧
      (r.success = true ↔ r.template?.isSome) ∧
      (r.template?.isSome ↔ TemplateReader.faults root = []) ∧
      ∀ t, r.template? = some t → t.formCode = formCode ∧
        List.Forall₂ (fun p s => ReadsSection p.1 p.2 s) (sectionNodes root) t.sections ∧
        List.Forall₂ ReadsCell ((sectionNodes root).flatMap fun p => cells p.1) t.fields := by
  rw [ofText_eq]
  cases Xml.readRoot rootName source with
  | error e => exact ⟨rfl, rfl, rfl⟩
  | ok root =>
    dsimp only
    by_cases hfaults : TemplateReader.faults root = []
    · rw [if_pos hfaults]
      refine ⟨hfaults.symm, iff_of_true rfl rfl, iff_of_true rfl hfaults, ?_⟩
      intro t ht
      obtain rfl := Option.some.inj ht
      have hsections := readsSections_of_faults_eq_nil hfaults
      exact ⟨rfl, hsections, List.rel_flatMap hsections fun _ _ hs => hs.fields⟩
    · rw [if_neg hfaults]
      exact ⟨rfl, iff_of_false nofun nofun, iff_of_false nofun hfaults, nofun⟩

end TemplateReading

end Filing
