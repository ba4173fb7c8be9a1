import Filing.Proofs.Document.Legible
import Filing.Proofs.Xml.Descendants
import Filing.Proofs.Xml.Readable

/-!
# Paths without a place

A path that is no sequence of element names has no place in a document. What stands at such a path
is reported once for the template, whatever data is submitted, and nothing of it is written: the
document is that of the template without it. So all its elements have proper names, and its rows are
those of the tables with a place.
-/

namespace Filing

open Xml (Edit Node)

/-! ## The template without them -/

/-- What has no place in a document: static fields, and then of each table the table itself or, if
it has a place, fields of its rows. -/
def Template.unplaced (t : Template) : List Discrepancy :=
  (t.staticFields.filter (!Path.isResolvable ·.path)).map Assembly.invalidField ++
    t.tables.flatMap fun e => Assembly.tableDiscrepancies e.2

/-- The table without the fields that have no place. -/
def Table.placed (t : Table) : Table :=
  { t with rowTemplate := t.rowTemplate.filter (Path.isResolvable ·.path) }

/-- The section without what has no place; a table without a place has no section either. -/
def Section.placed? (s : Section) : Option Section :=
  match s.content with
  | .static cells => some ⟨s.id, .static (cells.filter (Path.isResolvable ·.path))⟩
  | .dynamic table =>
    if Path.isResolvable table.path then some ⟨s.id, .dynamic table.placed⟩ else none

/-- The template without what has no place. -/
def Template.placed (t : Template) : Template :=
  { t with sections := t.sections.filterMap Section.placed? }

theorem Template.staticFields_placed (t : Template) :
    t.placed.staticFields = t.staticFields.filter (Path.isResolvable ·.path) := by
  obtain ⟨version, formCode, sections⟩ := t
  unfold staticFields placed
  dsimp only
  induction sections with
  | nil => rfl
  | cons x sections ih =>
    obtain ⟨id, content⟩ := x
    cases content with
    | static cells =>
      simp only [Section.placed?, Section.isDynamic, Section.table?, Section.fields,
        Option.isSome_none, Bool.not_false, List.filter_cons_of_pos,
        List.flatMap_cons, List.filter_append]
      exact congrArg _ ih
    | dynamic table =>
      refine Eq.trans ?_ ih
      cases hres : Path.isResolvable table.path with
      | true => simp [Section.placed?, hres, Section.isDynamic, Section.table?]
      | false => simp [Section.placed?, hres]

theorem Template.tables_placed (t : Template) :
    t.placed.tables = (Assembly.placedTables t.tables).map fun e => (e.1, e.2.placed) := by
  obtain ⟨version, formCode, sections⟩ := t
  unfold tables placed Assembly.placedTables
  dsimp only
  induction sections with
  | nil => rfl
  | cons x sections ih =>
    obtain ⟨id, content⟩ := x
    cases content with
    | static cells => exact ih
    | dynamic table =>
      cases hres : Path.isResolvable table.path with
      | true => simpa [Section.placed?, Section.table?, hres] using ih
      | false => simpa [Section.placed?, Section.table?, hres] using ih

namespace Assembly

/-! ## Nothing of them is written -/

theorem firstFields_filter (fields : List Field) :
    firstFields (fields.filter (Path.isResolvable ·.path)) = firstFields fields := by
  induction fields using List.reverseRecOn with
  | nil => rfl
  | append_singleton fields f ih =>
    rw [List.filter_append, firstFields_append_singleton]
    cases hres : Path.isResolvable f.path with
    | false => simp [hres, ih]
    | true =>
      -- a field at the path of one with a place has a place itself
      have hany : (fields.filter (Path.isResolvable ·.path)).any (·.path == f.path) =
          fields.any (·.path == f.path) := by
        rw [Bool.eq_iff_iff, List.any_eq_true, List.any_eq_true]
        constructor
        · rintro ⟨g, hg, hpath⟩
          exact ⟨g, List.mem_of_mem_filter hg, hpath⟩
        · rintro ⟨g, hg, hpath⟩
          have hplace : Path.isResolvable g.path = true := by rw [eq_of_beq hpath, hres]
          exact ⟨g, List.mem_filter.2 ⟨hg, hplace⟩, hpath⟩
      have hself : [f].filter (Path.isResolvable ·.path) = [f] := by simp [hres]
      rw [hself, firstFields_append_singleton, ih, hany, hres]

theorem placedRows_placed (d : FormData) (table : Table) :
    placedRows d table.placed = placedRows d table := by
  unfold placedRows
  refine congrArg (List.mapIdx · _) (funext fun i => funext fun row => ?_)
  unfold placedRow
  rw [rowFields_eq, rowFields_eq, Table.placed, firstFields_filter]

theorem placedTables_placed (tables : List (String × Table)) :
    placedTables ((placedTables tables).map fun e => (e.1, e.2.placed)) =
      (placedTables tables).map fun e => (e.1, e.2.placed) := by
  refine List.filter_eq_self.2 fun e he => ?_
  obtain ⟨e, hmem, rfl⟩ := List.mem_map.1 he
  exact (List.mem_filter.1 hmem).2

theorem staticFieldAt?_placed (t : Template) {path : String} (h : Path.isResolvable path = true) :
    t.placed.staticFieldAt? path = t.staticFieldAt? path := by
  have hsame : ∀ f : Field,
      decide (Path.isResolvable f.path = true ∧ (f.path == path) = true) = (f.path == path) := by
    intro f
    by_cases hf : f.path = path
    · simp [hf, h]
    · simp [hf]
  unfold Template.staticFieldAt?
  rw [Template.staticFields_placed, List.find?_filter]
  exact congrArg (List.find? · _) (funext hsame)

theorem signingEdit_placed (t : Template) {path : String} (h : Path.isResolvable path = true)
    (text : String) : signingEdit t.placed path text = signingEdit t path text := by
  rw [signingEdit, signingEdit, isUnclaimed, isUnclaimed, staticFieldAt?_placed t h]

variable {s : Settings} (hs : s.check = true) (t : Template) (d : FormData)

include hs

theorem signatureEdits_placed (signature : Signature) :
    signatureEdits s t.placed signature = signatureEdits s t signature := by
  have hpaths := (Settings.of_check hs).2.1
  have hdate : Path.isResolvable s.document.signingDatePath = true :=
    hpaths ("document.signing_date_path", _) (by simp [Settings.paths])
  have hsigner : Path.isResolvable s.document.signerPath = true :=
    hpaths ("document.signer_path", _) (by simp [Settings.paths])
  rw [signatureEdits, signatureEdits, signingEdit_placed t hdate, signingEdit_placed t hsigner]

theorem edits_placed : edits s t.placed d = edits s t d := by
  have htables : (placedTables t.placed.tables).map (tableEdit s d ·.2) =
      (placedTables t.tables).map (tableEdit s d ·.2) := by
    rw [Template.tables_placed, placedTables_placed, List.map_map]
    refine List.map_congr_left fun e _ => ?_
    show tableEdit s d e.2.placed = tableEdit s d e.2
    rw [tableEdit, placedRows_placed]
    rfl
  have hsignature : signatureEdits s t.placed = signatureEdits s t :=
    funext (signatureEdits_placed hs t)
  rw [edits, edits, Template.staticFields_placed, firstFields_filter, htables, hsignature]

/-- The document is that of the template without what has no place. -/
theorem document_placed : (Export.ofFormData s t.placed d).document =
    (Export.ofFormData s t d).document := by
  have hbody : (ofFormData s t.placed d).body = (ofFormData s t d).body := by
    rw [body_ofFormData, body_ofFormData, edits_placed hs]
    rfl
  show ((ofFormData s t.placed d).root s).document = ((ofFormData s t d).root s).document
  rw [root, root, hbody]

end Assembly

/-! ## They are reported once -/

namespace Export

variable {s : Settings} {t : Template} {d : FormData}

/-- Paths without a place are reported by the assembly alone. -/
theorem filter_discrepancies :
    (ofFormData s t d).discrepancies.filter (·.kind = .invalidPath) = t.unplaced := by
  have hassembly : (Assembly.ofFormData s t d).discrepancies = t.unplaced := by
    rw [Assembly.ofFormData_eq]
    rfl
  have hall : t.unplaced.filter (·.kind = .invalidPath) = t.unplaced := by
    refine List.filter_eq_self.2 fun x hx => decide_eq_true ?_
    rw [← hassembly] at hx
    exact Assembly.kind_of_mem_discrepancies x hx
  have hnone : ∀ plan document,
      (WritePlan.verify s t plan document).filter (·.kind = .invalidPath) = [] := by
    intro plan document
    refine List.filter_eq_nil_iff.2 fun x hx => ?_
    rw [decide_eq_true_eq]
    unfold WritePlan.verify at hx
    split at hx
    · rw [List.mem_singleton.1 hx]
      simp
    · exact (WritePlan.isDifference_of_compareAll x hx).1
  show List.filter _ (_ ++ WritePlan.verify _ _ _ _) = _
  rw [List.filter_append, hnone, List.append_nil, hassembly, hall]

end Export

/-! ## The rows of a document -/

theorem Xml.Node.IsWritable.hasElementNames_tidy {node : Node} (h : node.IsWritable) :
    node.tidy.HasElementNames := by
  induction node using Node.induct with
  | step name attrs text children ih =>
    cases h with
    | mk hname hkeys _ hchildren =>
      rw [tidy]
      refine .mk hname hkeys fun child hchild => ?_
      obtain ⟨c, hc, rfl⟩ := List.mem_map.1 hchild
      exact ih c hc (hchildren c hc)

namespace Assembly

variable (s : Settings) (d : FormData)

/-- An element that is filled with texts carries no row. -/
theorem bearers_applyAll_text {edits : List Edit} (h : ∀ e ∈ edits, e.nodes = []) {node : Node}
    (hnode : node.children = []) (name key : String) :
    (Edit.applyAll edits node).bearers name key = [] := by
  have hperm := Edit.bearers_applyAll name key edits node
  have hbrings : edits.flatMap (·.brings name key) = [] := by
    refine List.flatMap_eq_nil_iff.2 fun e he => ?_
    rw [Edit.brings, h e he]
    rfl
  rw [hbrings, List.append_nil, Node.bearers_of_children hnode] at hperm
  exact hperm.eq_nil

theorem brings_tableEdit (t : Table) : (tableEdit s d t).brings s.document.rowElement "id" =
    (placedRows d t).map fun r => (emptyRow s r).attrs := by
  have hrow : ∀ r : PlacedRow, (rowNode s r).bearer s.document.rowElement "id" ++
      (rowNode s r).bearers s.document.rowElement "id" = [(emptyRow s r).attrs] := by
    intro r
    have hbelow : (rowNode s r).bearers s.document.rowElement "id" = [] := by
      rw [rowNode_eq]
      refine bearers_applyAll_text (fun e he => ?_) rfl _ _
      obtain ⟨p, -, rfl⟩ := List.mem_map.1 he
      rfl
    have hown : (rowNode s r).bearer s.document.rowElement "id" = [(emptyRow s r).attrs] := by
      have hsame : (rowNode s r).bearer s.document.rowElement "id" =
          (emptyRow s r).bearer s.document.rowElement "id" :=
        Node.bearer_congr (name_rowNode s r) (attrs_rowNode s r)
      rw [hsame]
      simp [Node.bearer, Node.attr?, emptyRow]
    rw [hbelow, hown, List.append_nil]
  show ((placedRows d t).map (rowNode s)).flatMap _ = _
  rw [List.flatMap_map]
  simp only [hrow]
  exact List.flatMap_pure_eq_map _ _

/-- The rows of a document are those of the tables with a place. -/
theorem bearers_body (t : Template) :
    ((ofFormData s t d).body.bearers s.document.rowElement "id").Perm
      ((placedTables t.tables).flatMap fun e =>
        (placedRows d e.2).map fun r => (emptyRow s r).attrs) := by
  have hperm := Edit.bearers_applyAll s.document.rowElement "id" (edits s t d) (start s t d).body
  have hstatics : ((firstFields t.staticFields).map (staticEdit d)).flatMap
      (·.brings s.document.rowElement "id") = [] := by
    rw [List.flatMap_map]
    exact List.flatMap_eq_nil_iff.2 fun f _ => rfl
  have hsignature : (d.signature.elim [] (signatureEdits s t)).flatMap
      (·.brings s.document.rowElement "id") = [] := by
    cases d.signature with
    | none => rfl
    | some signature =>
      refine List.flatMap_eq_nil_iff.2 fun e he => ?_
      rcases mem_signatureEdits.1 he with ⟨-, rfl⟩ | ⟨-, rfl⟩ <;> rfl
  have htables : ((placedTables t.tables).map (tableEdit s d ·.2)).flatMap
      (·.brings s.document.rowElement "id") = (placedTables t.tables).flatMap fun e =>
        (placedRows d e.2).map fun r => (emptyRow s r).attrs := by
    rw [List.flatMap_map]
    exact List.flatMap_congr fun e _ => brings_tableEdit s d e.2
  have hstart : (start s t d).body.bearers s.document.rowElement "id" = [] :=
    Node.bearers_of_children rfl
  have hall : (edits s t d).flatMap (·.brings s.document.rowElement "id") =
      (placedTables t.tables).flatMap fun e =>
        (placedRows d e.2).map fun r => (emptyRow s r).attrs := by
    rw [edits, List.flatMap_append, List.flatMap_append, hstatics, hsignature, htables,
      List.nil_append, List.append_nil]
  rwa [hstart, hall, List.nil_append, ← body_ofFormData] at hperm

theorem bearers_root (t : Template) :
    ((ofFormData s t d).root s).bearers s.document.rowElement "id" =
      (ofFormData s t d).body.bearers s.document.rowElement "id" := by
  -- the body has attributes of its own, but no id
  have hattrs : (ofFormData s t d).body.attrs = (start s t d).body.attrs := by
    rw [body_ofFormData, Edit.attrs_applyAll]
  have hnone : (ofFormData s t d).body.bearer s.document.rowElement "id" = [] := by
    unfold Node.bearer Node.attr?
    rw [hattrs]
    simp [start]
  rw [Node.bearers_eq]
  show (_ ++ _) ++ [] = _
  rw [hnone, List.nil_append, List.append_nil]

end Assembly

namespace Export

/-- With consistent settings each path without a place is reported once, in the order of the
template and whatever the data, and an export that reports one is not compliant. Its document is
that of the template without those paths: all its elements have proper names, and its rows are those
of the tables with a place, each under its ordinal and its two numbers. -/
theorem unplaced_exact (s : Settings) (t : Template) (d : FormData) (hs : s.check = true) :
    (ofFormData s t d).discrepancies.filter (·.kind = .invalidPath) = t.unplaced ∧
    (t.unplaced ≠ [] → (ofFormData s t d).isCompliant = false) ∧
    (ofFormData s t.placed d).document = (ofFormData s t d).document ∧
    ∃ root, Xml.read (ofFormData s t d).document = .ok (some root) ∧ root.HasElementNames ∧
      (root.bearers s.document.rowElement "id").Perm
        ((Assembly.placedTables t.tables).flatMap fun e =>
          (Assembly.placedRows d e.2).map fun r => (Assembly.emptyRow s r).attrs) := by
  refine ⟨filter_discrepancies, fun hne => ?_, Assembly.document_placed hs t d, ?_⟩
  · rw [← Bool.not_eq_true, isCompliant, List.isEmpty_iff]
    intro hnil
    rw [← filter_discrepancies (s := s) (d := d), hnil] at hne
    exact hne rfl
  · have hwritable := Assembly.isWritable_root hs t d
    refine ⟨_, Xml.read_document hwritable, hwritable.hasElementNames_tidy, ?_⟩
    rw [Node.bearers_tidy, Assembly.bearers_root]
    exact Assembly.bearers_body s d t

/-- A form with paths of every kind that have no place: of static fields, of a table with a bad
field, of the fields of another table under the same id, and of a table for which there are no
rows. -/
def crookedForm : Template where
  version := "1"
  formCode := "01/GTGT"
  sections := [
    ⟨"header", .static [
      { id := "a", path := "A", control := .text, controlCode := "0" },
      { id := "b", path := "1 B", control := .text, controlCode := "0" },
      { id := "c", path := "1 B", control := .text, controlCode := "0" }]⟩,
    ⟨"lost", .dynamic {
      maxRows := 0, id := "items", path := "T//U", offsets := ⟨0, 0⟩
      rowTemplate := [{ id := "x", path := "", control := .text, controlCode := "0" }] }⟩,
    ⟨"kept", .dynamic {
      maxRows := 0, id := "items", path := "T", offsets := ⟨3, 5⟩
      rowTemplate := [
        { id := "q", path := "Q", control := .text, controlCode := "0" },
        { id := "r", path := "<r>", control := .text, controlCode := "0" }] }⟩,
    ⟨"empty", .dynamic {
      maxRows := 0, id := "more", path := "V", offsets := ⟨0, 0⟩
      rowTemplate := [{ id := "y", path := "/", control := .text, controlCode := "0" }] }⟩]

/-- Data for it, with two rows for the id of two tables. -/
def crookedData : FormData where
  values := KeyMap.ofList [("A", "x"), ("1 B", "y")]
  tables := KeyMap.ofList [("items", [KeyMap.ofList [("Q", "q"), ("<r>", "r")], ∅])]

theorem unplaced_exact_crookedData : Settings.check {} = true ∧ crookedForm.unplaced ≠ [] ∧
    (ofFormData {} crookedForm crookedData).discrepancies.filter (·.kind = .invalidPath) = [
      ⟨.invalidPath, some "b", "1 B", none, none⟩, ⟨.invalidPath, some "c", "1 B", none, none⟩,
      ⟨.invalidPath, none, "T//U", none, none⟩, ⟨.invalidPath, some "r", "<r>", none, none⟩,
      ⟨.invalidPath, some "y", "/", none, none⟩] ∧
    (ofFormData {} crookedForm crookedData).isCompliant = false ∧
    ∃ root, Xml.read (ofFormData {} crookedForm crookedData).document = .ok (some root) ∧
      root.HasElementNames ∧ (root.bearers "Row" "id").Perm [
        [("id", "ID_1"), ("templateRow", "3"), ("reportRow", "5")],
        [("id", "ID_2"), ("templateRow", "4"), ("reportRow", "6")]] := by
  have hs : Settings.check {} = true := by decide
  have hne : crookedForm.unplaced ≠ [] := by decide
  obtain ⟨honce, hrefused, -, root, hread, hnames, hrows⟩ :=
    unplaced_exact {} crookedForm crookedData hs
  exact ⟨hs, hne, honce.trans (by decide), hrefused hne, root, hread, hnames, hrows⟩

end Export

end Filing
