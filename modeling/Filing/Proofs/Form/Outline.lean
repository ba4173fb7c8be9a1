import Filing.Proofs.Form.Attributes
import Filing.Proofs.Lists

/-!
# The outline of a template

The reader goes through a template once and keeps counters. Here the sections, the faults and the
remarks of a template are given as three functions of its element tree, and every part of the reader
is shown to yield them: `Yields p a fs rs` says that the part `p` answers `a`, notes the faults `fs`
and makes the remarks `rs`, whatever has been noted before. An attribute without a meaning is
mentioned only once, so the remarks of a part reach the notes by way of `mentionOnce`.

Main statement: the reading of a file is read off the outline of its tree (`TemplateReading.ofText_eq`).
-/

namespace Filing

namespace TemplateReader

open Filing.Text (maxWord32 maxWord64 natural?)
open Filing.Xml (Node)

/-! ## The outline -/

/-- The remark about an attribute that is not blank but cannot be read. -/
def invalidAttr {α : Type} (read : String → Option α) (owner name : String) (node : Node) :
    List Remark :=
  match node.filledAttr? name with
  | some value => if (read value).isSome then [] else [.invalidAttribute owner name value]
  | none => []

/-- The required attributes that a cell lacks, the `index`-th of its section counted from 0. -/
def cellFaults (sectionId : String) (index : Nat) (cell : Node) : List TemplateFault :=
  (requiredAttributes.filter fun name => (cell.filledAttr? name).isNone).map fun name =>
    .missingAttribute (cell.filledAttr? "CellID") name sectionId index

/-- The field of a cell that has the required attributes. -/
def field? (cell : Node) : Option Field := do
  let id ← cell.filledAttr? "CellID"
  let path ← cell.filledAttr? "Path"
  let code ← cell.filledAttr? "Controltype"
  return { Field.new id path ((control? code).getD .text) with
    controlCode := code
    secondaryId := cell.filledAttr? "CellID2"
    encoded := isOn cell "Encode"
    preset := textAttr? cell "Value"
    default := textAttr? cell "DefaultValue"
    help := cell.filledAttr? "HelpContextID"
    parent := cell.filledAttr? "ParentCell"
    child := cell.filledAttr? "ChildCell"
    selected := cell.filledAttr? "SelectedValue"
    required := isOn cell "Required"
    maxLength := (cell.filledAttr? "MaxLen").bind (natural? maxWord64)
    min := (cell.filledAttr? "MinValue").bind Decimal.ofText?
    max := (cell.filledAttr? "MaxValue").bind Decimal.ofText? }

/-- The remarks about the attributes of a field. -/
def fieldRemarks (cell : Node) (f : Field) : List Remark :=
  (if (control? f.controlCode).isSome then [] else [.unknownControl f.id f.controlCode]) ++
    invalidAttr (natural? maxWord64) f.id "MaxLen" cell ++
    invalidAttr Decimal.ofText? f.id "MinValue" cell ++
    invalidAttr Decimal.ofText? f.id "MaxValue" cell

/-- The remarks about a cell: first its attributes without a meaning, then, if it is a field, the
attributes of the field. -/
def cellRemarks (cell : Node) : List Remark :=
  ((cell.attrs.map (·.1)).filter (!cellAttributes.contains ·)).map
    (.ignoredAttribute cell.name ·) ++
    (field? cell).elim [] (fieldRemarks cell)

/-- The cells among some elements. -/
abbrev cellsAmong (nodes : List Node) : List Node := nodes.filter (·.name == "Cell")

/-- The remarks about the children of an element that holds cells. -/
def cellsRemarks (holder : Node) (children : List Node) : List Remark :=
  children.flatMap fun child =>
    if child.name = "Cell" then cellRemarks child else [.ignoredElement child.name holder.name]

/-- The faults of cells, of which the first is the `index`-th of its section. -/
def cellsFaults (sectionId : String) (index : Nat) (cells : List Node) : List TemplateFault :=
  (cells.zipIdx index).flatMap fun p => cellFaults sectionId p.2 p.1

/-- The cells of a section: of all its blocks if it is static, and of its first row description if
it is dynamic. -/
def cells (node : Node) : List Node :=
  if RepeatsRows node then (node.child? "RowInfo").elim [] (cellsAmong ·.children)
  else (node.childrenNamed "Cells").flatMap (cellsAmong ·.children)

/-- The faults of a section, the `ordinal`-th of its template counted from 1. -/
def sectionFaults (ordinal : Nat) (node : Node) : List TemplateFault :=
  let id := sectionId ordinal node
  (if RepeatsRows node ∧ (node.filledAttr? "TablePath").isNone then
    [.missingSectionAttribute id "TablePath"] else []) ++ cellsFaults id 0 (cells node)

/-- A bounded number in an attribute; anything else counts as zero. -/
def numberAttr (limit : Nat) (node : Node) (name : String) : Nat :=
  ((node.filledAttr? name).bind (natural? limit)).getD 0

/-- Where the rows that are described begin. -/
def rowOffsets (rowInfo : Node) : RowOffsets :=
  ⟨numberAttr maxWord32 rowInfo "TemplateRow", numberAttr maxWord32 rowInfo "ReportRow"⟩

/-- The section of an element; none if the path of its table is not known. -/
def section? (ordinal : Nat) (node : Node) : Option Section :=
  let id := sectionId ordinal node
  let fields := (cells node).filterMap field?
  if RepeatsRows node then
    (node.filledAttr? "TablePath").map fun path => ⟨id, .dynamic {
      maxRows := numberAttr maxWord64 node "MaxRows"
      id := (node.filledAttr? "TableName").getD id
      path := Path.normalize path
      offsets := (node.child? "RowInfo").elim {} rowOffsets
      rowTemplate := fields }⟩
  else some ⟨id, .static fields⟩

/-- The remarks about the children of a dynamic section; `seen` tells whether its row description
has gone by. -/
def rowInfoRemarks (id : String) (node : Node) (seen : Bool) : List Node → List Remark
  | [] => []
  | child :: rest =>
    if child.name = "RowInfo" ∧ seen = false then
      invalidAttr (natural? maxWord32) id "TemplateRow" child ++
        invalidAttr (natural? maxWord32) id "ReportRow" child ++
        cellsRemarks child child.children ++ rowInfoRemarks id node true rest
    else .ignoredElement child.name node.name :: rowInfoRemarks id node seen rest

/-- The remarks about the children of a static section. -/
def blocksRemarks (node : Node) (children : List Node) : List Remark :=
  children.flatMap fun child =>
    if child.name = "Cells" then cellsRemarks child child.children
    else [.ignoredElement child.name node.name]

/-- The remarks about a section. -/
def sectionRemarks (ordinal : Nat) (node : Node) : List Remark :=
  let id := sectionId ordinal node
  if RepeatsRows node then
    invalidAttr (natural? maxWord64) id "MaxRows" node ++
      rowInfoRemarks id node false node.children
  else blocksRemarks node node.children

/-- The remarks about the children of the root; `ordinal` is the number of the next section. -/
def childRemarks (root : Node) (ordinal : Nat) : List Node → List Remark
  | [] => []
  | child :: rest =>
    if child.name = "Section" then
      sectionRemarks ordinal child ++ childRemarks root (ordinal + 1) rest
    else .ignoredElement child.name root.name :: childRemarks root ordinal rest

/-- The section elements of a template, each with its number. -/
def sectionNodes (root : Node) : List (Node × Nat) := (root.childrenNamed "Section").zipIdx 1

/-- The faults of a template, in the order of the document. -/
def faults (root : Node) : List TemplateFault :=
  if sectionNodes root = [] then [.noSections]
  else (sectionNodes root).flatMap fun p => sectionFaults p.2 p.1

/-- The sections of a template whose tables have known paths. -/
def sections (root : Node) : List Section :=
  (sectionNodes root).filterMap fun p => section? p.2 p.1

/-- The remarks about a template, in the order of the document. -/
def remarks (root : Node) : List Remark :=
  (if (root.filledAttr? "Version").isSome then [] else [.missingVersion]) ++
    childRemarks root 1 root.children

/-! ## Attributes that are mentioned once -/

/-- The attributes that have been mentioned once some remarks have been made. -/
def mentionedAfter (seen : List String) : List Remark → List String
  | [] => seen
  | .ignoredAttribute _ name :: rest =>
    mentionedAfter (if name ∈ seen then seen else name :: seen) rest
  | _ :: rest => mentionedAfter seen rest

/-- Keeps of the remarks about an attribute without a meaning only the first. -/
def mentionOnce (seen : List String) : List Remark → List Remark
  | [] => []
  | .ignoredAttribute element name :: rest =>
    if name ∈ seen then mentionOnce seen rest
    else .ignoredAttribute element name :: mentionOnce (name :: seen) rest
  | r :: rest => r :: mentionOnce seen rest

theorem mentionedAfter_append (seen : List String) (rs ss : List Remark) :
    mentionedAfter seen (rs ++ ss) = mentionedAfter (mentionedAfter seen rs) ss := by
  induction rs generalizing seen with
  | nil => rfl
  | cons r rs ih => cases r <;> exact ih _

theorem mentionOnce_append (seen : List String) (rs ss : List Remark) :
    mentionOnce seen (rs ++ ss) =
      mentionOnce seen rs ++ mentionOnce (mentionedAfter seen rs) ss := by
  induction rs generalizing seen with
  | nil => rfl
  | cons r rs ih =>
    cases r with
    | ignoredAttribute element name =>
      rw [List.cons_append, mentionOnce, mentionOnce, mentionedAfter]
      split
      · exact ih _
      · exact congrArg _ (ih _)
    | _ => exact congrArg _ (ih _)

/-! ## What a part of the reading yields -/

/-- The notes once faults and remarks have been added. -/
def Notes.after (n : Notes) (fs : List TemplateFault) (rs : List Remark) : Notes :=
  { n with
    faults := n.faults ++ fs
    remarks := n.remarks ++ mentionOnce n.mentioned rs
    mentioned := mentionedAfter n.mentioned rs }

theorem Notes.after_nil (n : Notes) : n.after [] [] = n := by
  rw [after, mentionOnce, mentionedAfter, List.append_nil, List.append_nil]

theorem Notes.after_after (n : Notes) (fs gs : List TemplateFault) (rs ss : List Remark) :
    (n.after fs rs).after gs ss = n.after (fs ++ gs) (rs ++ ss) := by
  simp only [after, mentionOnce_append, mentionedAfter_append, List.append_assoc]

/-- A part of the reading answers `a`, notes the faults `fs` and makes the remarks `rs`. -/
def Yields {α : Type} (p : Pass α) (a : α) (fs : List TemplateFault) (rs : List Remark) : Prop :=
  ∀ n : Notes, p.run n = (a, n.after fs rs)

namespace Yields

variable {α β : Type} {p : Pass α} {a : α} {fs gs : List TemplateFault} {rs ss : List Remark}

theorem pure (a : α) : Yields (Pure.pure a) a [] [] := fun n => by
  rw [n.after_nil]
  rfl

theorem bind {f : α → Pass β} {b : β} (hp : Yields p a fs rs) (hf : Yields (f a) b gs ss) :
    Yields (p >>= f) b (fs ++ gs) (rs ++ ss) := by
  intro n
  rw [StateT.run_bind, hp n, ← n.after_after]
  exact hf _

theorem of_eq {a' : α} (h : Yields p a fs rs) (ha : a = a') (hfs : fs = gs) (hrs : rs = ss) :
    Yields p a' gs ss := by
  subst ha hfs hrs
  exact h

theorem forM {ι : Type} {l : List ι} {f : ι → Pass Unit} {fs : ι → List TemplateFault}
    {rs : ι → List Remark} (h : ∀ x ∈ l, Yields (f x) () (fs x) (rs x)) :
    Yields (l.forM f) () (l.flatMap fs) (l.flatMap rs) := by
  induction l with
  | nil => exact .pure ()
  | cons x l ih =>
    rw [List.flatMap_cons, List.flatMap_cons]
    exact (h x List.mem_cons_self).bind (ih fun y hy => h y (List.mem_cons_of_mem _ hy))

end Yields

theorem yields_noteFault (f : TemplateFault) : Yields (noteFault f) () [f] [] := by
  intro n
  rw [Notes.after, mentionOnce, mentionedAfter, List.append_nil]
  rfl

theorem yields_noteRemark {r : Remark} (hr : ∀ element name, r ≠ .ignoredAttribute element name) :
    Yields (noteRemark r) () [] [r] := by
  intro n
  rw [Notes.after, List.append_nil]
  cases r with
  | ignoredAttribute element name => exact absurd rfl (hr element name)
  | _ => rfl

theorem yields_ignoreElement (child holder : Node) :
    Yields (ignoreElement child holder) () [] [.ignoredElement child.name holder.name] :=
  yields_noteRemark nofun

theorem yields_noteAttribute (element name : String) : Yields (noteAttribute element name) () []
    (if !cellAttributes.contains name then [.ignoredAttribute element name] else []) := by
  intro n
  have hrun : (noteAttribute element name).run n =
      ((), if !cellAttributes.contains name && !n.mentioned.contains name then
        { n with
          remarks := n.remarks ++ [.ignoredAttribute element name]
          mentioned := name :: n.mentioned }
      else n) := by
    rw [apply_ite (Prod.mk ())]
    show (ite _ _ _ : Pass Unit).run n = _
    split <;> rfl
  rw [hrun]
  cases cellAttributes.contains name with
  | true => exact congrArg (Prod.mk ()) n.after_nil.symm
  | false =>
    by_cases hseen : name ∈ n.mentioned
    · simp [Notes.after, mentionOnce, mentionedAfter, hseen]
    · simp [Notes.after, mentionOnce, mentionedAfter, hseen]

/-! ## The parts of the reader -/

theorem yields_readAttr {α : Type} (read : String → Option α) (owner name : String) (node : Node) :
    Yields (readAttr read owner name node) ((node.filledAttr? name).bind read) []
      (invalidAttr read owner name node) := by
  unfold readAttr invalidAttr
  cases node.filledAttr? name with
  | none => exact .pure none
  | some raw =>
    cases hread : read raw with
    | none =>
      simp only [Option.bind_some, hread]
      exact (yields_noteRemark (by simp)).bind (.pure none)
    | some value =>
      simp only [Option.bind_some, hread]
      exact .pure (some value)

theorem yields_readControl (id code : String) :
    Yields (readControl id code) ((control? code).getD .text) []
      (if (control? code).isSome then [] else [.unknownControl id code]) := by
  unfold readControl
  cases control? code with
  | none => exact (yields_noteRemark (by simp)).bind (.pure Control.text)
  | some c => exact .pure c

theorem yields_noteMissing (sectionId : String) (index : Nat) (cell : Node) :
    Yields (noteMissing sectionId index cell) () (cellFaults sectionId index cell) [] := by
  have hone : ∀ name ∈ requiredAttributes, Yields (do
      if (cell.filledAttr? name).isNone then
        noteFault (.missingAttribute (cell.filledAttr? "CellID") name sectionId index)) ()
      (if (cell.filledAttr? name).isNone then
        [.missingAttribute (cell.filledAttr? "CellID") name sectionId index] else []) [] := by
    intro name _
    split
    · exact yields_noteFault _
    · exact .pure ()
  exact (Yields.forM hone).of_eq rfl (flatMap_ite_singleton ..) (by simp)

theorem yields_readField (cell : Node) : Yields (readField cell) (field? cell) []
    ((field? cell).elim [] (fieldRemarks cell)) := by
  unfold readField field?
  cases cell.filledAttr? "CellID" with
  | none => exact .pure none
  | some id =>
    cases cell.filledAttr? "Path" with
    | none => exact .pure none
    | some path =>
      cases cell.filledAttr? "Controltype" with
      | none => exact .pure none
      | some code =>
        apply Yields.of_eq
        case h =>
          apply Yields.bind (yields_readControl id code)
          apply Yields.bind (yields_readAttr _ id "MaxLen" cell)
          apply Yields.bind (yields_readAttr _ id "MinValue" cell)
          apply Yields.bind (yields_readAttr _ id "MaxValue" cell)
          exact Yields.pure _
        case ha => rfl
        case hfs => rfl
        case hrs => simp [fieldRemarks, Field.new]

theorem yields_readCell (sectionId : String) (index : Nat) (cell : Node) :
    Yields (readCell sectionId index cell) (field? cell) (cellFaults sectionId index cell)
      (cellRemarks cell) := by
  have hattrs := Yields.forM (l := cell.attrs.map (·.1)) fun name _ =>
    yields_noteAttribute cell.name name
  refine ((yields_noteMissing sectionId index cell).bind
    (hattrs.bind (yields_readField cell))).of_eq rfl (by simp) ?_
  rw [flatMap_ite_singleton]
  rfl

theorem yields_readCells (sectionId : String) (holder : Node) (index : Nat)
    (children : List Node) : Yields (readCells sectionId holder index children)
      ((cellsAmong children).filterMap field?, index + (cellsAmong children).length)
      (cellsFaults sectionId index (cellsAmong children)) (cellsRemarks holder children) := by
  induction children generalizing index with
  | nil => exact .pure _
  | cons child rest ih =>
    unfold readCells cellsRemarks
    rw [cellsAmong, List.filter_cons, List.flatMap_cons]
    by_cases hname : child.name = "Cell"
    · rw [if_pos hname, if_pos hname, if_pos (by simpa using hname)]
      apply Yields.of_eq
      case h =>
        apply Yields.bind (yields_readCell sectionId index child)
        apply Yields.bind (ih (index + 1))
        exact Yields.pure _
      case ha =>
        rw [List.filterMap_cons, List.length_cons, Nat.add_right_comm]
        cases field? child <;> rfl
      case hfs => rw [List.append_nil, cellsFaults, cellsFaults, List.zipIdx_cons, List.flatMap_cons]
      case hrs => rw [List.append_nil, cellsRemarks]
    · rw [if_neg hname, if_neg hname, if_neg (by simpa using hname)]
      exact (yields_ignoreElement child holder).bind (ih index)

theorem yields_readBlocks (id : String) (node : Node) (index : Nat) (children : List Node) :
    let cells := (children.filter (·.name == "Cells")).flatMap (cellsAmong ·.children)
    Yields (readBlocks id node index children) (cells.filterMap field?)
      (cellsFaults id index cells) (blocksRemarks node children) := by
  induction children generalizing index with
  | nil => exact .pure _
  | cons child rest ih =>
    unfold readBlocks blocksRemarks
    rw [List.filter_cons, List.flatMap_cons]
    by_cases hname : child.name = "Cells"
    · rw [if_pos hname, if_pos hname, if_pos (by simpa using hname), List.flatMap_cons]
      apply Yields.of_eq
      case h =>
        apply Yields.bind (yields_readCells id child index child.children)
        apply Yields.bind (ih _)
        exact Yields.pure _
      case ha => rw [List.filterMap_append]
      case hfs =>
        rw [List.append_nil, cellsFaults, cellsFaults, cellsFaults, List.zipIdx_append,
          List.flatMap_append]
      case hrs => rw [List.append_nil, blocksRemarks]
    · rw [if_neg hname, if_neg hname, if_neg (by simpa using hname)]
      exact (yields_ignoreElement child node).bind (ih index)

/-- After the row description everything is ignored. -/
theorem yields_readRowInfo_some (id : String) (node : Node) (row : RowOffsets × List Field)
    (children : List Node) : Yields (readRowInfo id node (some row) children) (some row) []
      (rowInfoRemarks id node true children) := by
  induction children with
  | nil => exact .pure _
  | cons child rest ih =>
    unfold readRowInfo rowInfoRemarks
    rw [if_neg (by simp), if_neg (by simp)]
    exact (yields_ignoreElement child node).bind ih

theorem yields_readRowInfo_none (id : String) (node : Node) (children : List Node) :
    let rowInfo := children.find? (·.name == "RowInfo")
    Yields (readRowInfo id node none children)
      (rowInfo.map fun r => (rowOffsets r, (cellsAmong r.children).filterMap field?))
      (cellsFaults id 0 (rowInfo.elim [] (cellsAmong ·.children)))
      (rowInfoRemarks id node false children) := by
  induction children with
  | nil => exact .pure _
  | cons child rest ih =>
    unfold readRowInfo rowInfoRemarks
    by_cases hname : child.name = "RowInfo"
    · rw [if_pos ⟨hname, rfl⟩, if_pos ⟨hname, rfl⟩, List.find?_cons_of_pos (by simpa using hname)]
      apply Yields.of_eq
      case h =>
        apply Yields.bind (yields_readAttr _ id "TemplateRow" child)
        apply Yields.bind (yields_readAttr _ id "ReportRow" child)
        apply Yields.bind (yields_readCells id child 0 child.children)
        exact yields_readRowInfo_some id node _ rest
      case ha => rfl
      case hfs => simp
      case hrs => simp
    · rw [if_neg (by simp [hname]), if_neg (by simp [hname]),
        List.find?_cons_of_neg (by simpa using hname)]
      exact (yields_ignoreElement child node).bind ih

theorem yields_readTablePath (id : String) (node : Node) : Yields (readTablePath id node)
    ((node.filledAttr? "TablePath").map Path.normalize)
    (if (node.filledAttr? "TablePath").isNone then [.missingSectionAttribute id "TablePath"]
      else []) [] := by
  unfold readTablePath
  cases node.filledAttr? "TablePath" with
  | none => exact (yields_noteFault _).bind (.pure none)
  | some path => exact .pure _

theorem yields_readSection (ordinal : Nat) (node : Node) :
    Yields (readSection ordinal node) (section? ordinal node) (sectionFaults ordinal node)
      (sectionRemarks ordinal node) := by
  unfold readSection section? sectionFaults sectionRemarks cells
  by_cases hrows : RepeatsRows node
  · simp only [if_pos (isDynamic_iff.2 hrows), if_pos hrows]
    apply Yields.of_eq
    case h =>
      apply Yields.bind (yields_readTablePath _ node)
      apply Yields.bind (yields_readAttr _ _ "MaxRows" node)
      apply Yields.bind (yields_readRowInfo_none _ node node.children)
      exact Yields.pure _
    case ha =>
      rw [Option.map_map, Node.child?]
      cases node.children.find? (·.name == "RowInfo") <;> rfl
    case hfs => simp [hrows, Node.child?]
    case hrs => simp
  · simp only [if_neg (mt isDynamic_iff.1 hrows), if_neg hrows]
    apply Yields.of_eq
    case h =>
      apply Yields.bind (yields_readBlocks _ node 0 node.children)
      exact Yields.pure _
    case ha => rfl
    case hfs => simp [hrows, Node.childrenNamed]
    case hrs => simp

theorem yields_readVersion (root : Node) : Yields (readVersion root)
    ((root.filledAttr? "Version").getD unknownVersion) []
    (if (root.filledAttr? "Version").isSome then [] else [.missingVersion]) := by
  unfold readVersion
  cases root.filledAttr? "Version" with
  | none => exact (yields_noteRemark (by simp)).bind (.pure unknownVersion)
  | some version => exact .pure version

/-- The notes once some sections have been left out. -/
def Notes.drop (n : Notes) (count : Nat) : Notes := { n with dropped := n.dropped + count }

theorem Notes.drop_after (n : Notes) (count : Nat) (fs : List TemplateFault) (rs : List Remark) :
    (n.drop count).after fs rs = (n.after fs rs).drop count := rfl

theorem Notes.drop_drop (n : Notes) (j k : Nat) : (n.drop j).drop k = n.drop (k + j) := by
  rw [drop, drop, drop, Nat.add_assoc, Nat.add_comm j]

section SectionAhead

variable {root child : Node} (hname : child.name = "Section") {kept next : Nat} {n : Notes}
  (hnext : next = kept + n.dropped + 1) (rest : List Node)

include hname hnext

theorem readSections_kept {s : Section} (hs : section? next child = some s) :
    (readSections root kept (child :: rest)).run n =
      let others := (readSections root (kept + 1) rest).run
        (n.after (sectionFaults next child) (sectionRemarks next child))
      (s :: others.1, others.2) := by
  rw [readSections, if_pos hname, StateT.run_bind]
  show (readSection (kept + n.dropped + 1) child >>= _ : Pass (List Section)).run n = _
  rw [← hnext, StateT.run_bind, yields_readSection, hs]
  rfl

theorem readSections_dropped (hs : section? next child = none) :
    (readSections root kept (child :: rest)).run n = (readSections root kept rest).run
      ((n.after (sectionFaults next child) (sectionRemarks next child)).drop 1) := by
  rw [readSections, if_pos hname, StateT.run_bind]
  show (readSection (kept + n.dropped + 1) child >>= _ : Pass (List Section)).run n = _
  rw [← hnext, StateT.run_bind, yields_readSection, hs]
  rfl

end SectionAhead

/-- The next section has the number that counts it and all before it, kept or dropped. -/
theorem readSections_run (root : Node) {kept next : Nat} (children : List Node) {n : Notes}
    (hnext : next = kept + n.dropped + 1) :
    let nodes := (children.filter (·.name == "Section")).zipIdx next
    (readSections root kept children).run n = (nodes.filterMap fun p => section? p.2 p.1,
      (n.after (nodes.flatMap fun p => sectionFaults p.2 p.1)
        (childRemarks root next children)).drop
          (nodes.countP fun p => (section? p.2 p.1).isNone)) := by
  -- A kept and a dropped section move different counters by one, so their sum is a variable.
  induction children generalizing kept next n with
  | nil => exact congrArg _ n.after_nil.symm
  | cons child rest ih =>
    unfold childRemarks
    by_cases hname : child.name = "Section"
    · rw [List.filter_cons_of_pos (by simpa using hname), List.zipIdx_cons, if_pos hname]
      dsimp only
      rw [List.filterMap_cons, List.flatMap_cons, List.countP_cons, ← n.after_after]
      cases hs : section? next child with
      | none =>
        have hnext' : next + 1 = kept + (n.dropped + 1) + 1 := by omega
        rw [readSections_dropped hname hnext rest hs, ih hnext', Notes.drop_after, Notes.drop_drop]
        rfl
      | some s =>
        have hnext' : next + 1 = kept + 1 + n.dropped + 1 := by omega
        rw [readSections_kept hname hnext rest hs, ih (n := n.after _ _) hnext']
        rfl
    · have hignored : (readSections root kept (child :: rest)).run n =
          (readSections root kept rest).run
            (n.after [] [.ignoredElement child.name root.name]) := by
        rw [readSections, if_neg hname, StateT.run_bind, yields_ignoreElement]
        rfl
      rw [List.filter_cons_of_neg (by simpa using hname), if_neg hname, hignored,
        ih (n := n.after _ _) hnext, Notes.after_after]
      rfl

/-- No section is kept and none is dropped only if there is none. -/
theorem sections_eq_nil_and_iff (root : Node) :
    sections root = [] ∧ (sectionNodes root).countP (fun p => (section? p.2 p.1).isNone) = 0 ↔
      sectionNodes root = [] := by
  rw [sections, List.filterMap_eq_nil_iff, List.countP_eq_zero]
  constructor
  · rintro ⟨hnone, hsome⟩
    refine List.eq_nil_iff_forall_not_mem.2 fun p hp => hsome p hp ?_
    rw [hnone p hp]
    rfl
  · intro hnil
    simp [hnil]

theorem readTemplate_run (formCode : String) (root : Node) :
    let read := (readTemplate formCode root).run {}
    read.1 = ⟨(root.filledAttr? "Version").getD unknownVersion, formCode, sections root⟩ ∧
      read.2.faults = faults root ∧ read.2.remarks = mentionOnce [] (remarks root) := by
  let n := (({} : Notes).after ((sectionNodes root).flatMap fun p => sectionFaults p.2 p.1)
    (remarks root)).drop ((sectionNodes root).countP fun p => (section? p.2 p.1).isNone)
  have hrun : (readTemplate formCode root).run {} =
      (⟨(root.filledAttr? "Version").getD unknownVersion, formCode, sections root⟩,
        if (sections root).isEmpty ∧ n.dropped = 0 then n.after [.noSections] [] else n) := by
    rw [readTemplate, StateT.run_bind, yields_readVersion]
    show (readSections root 0 root.children >>= _ : Pass Template).run _ = _
    rw [StateT.run_bind, readSections_run root root.children rfl, Notes.after_after]
    show (ite ((sections root).isEmpty ∧ n.dropped = 0) (noteFault .noSections >>= _) _ :
      Pass Template).run n = _
    split
    · rw [StateT.run_bind, yields_noteFault]
      rfl
    · rfl
  have hempty : (sections root).isEmpty ∧ n.dropped = 0 ↔ sectionNodes root = [] := by
    have hdropped : n.dropped = _ := Nat.zero_add _
    rw [List.isEmpty_iff, hdropped, sections_eq_nil_and_iff]
  dsimp only
  rw [hrun, faults]
  by_cases hnil : sectionNodes root = []
  · rw [if_pos (hempty.2 hnil), if_pos hnil]
    refine ⟨rfl, ?_, List.append_nil _⟩
    show [] ++ (sectionNodes root).flatMap _ ++ [TemplateFault.noSections] = _
    rw [hnil]
    rfl
  · rw [if_neg (mt hempty.1 hnil), if_neg hnil]
    exact ⟨rfl, rfl, rfl⟩

end TemplateReader

open TemplateReader in
/-- The reading of a file is read off the outline of its tree. -/
theorem TemplateReading.ofText_eq (rootName formCode source : String) :
    ofText rootName formCode source = match Xml.readRoot rootName source with
      | .error e => failed [.document e] []
      | .ok root =>
        if TemplateReader.faults root = [] then {
          success := true
          template? := some
            ⟨(root.filledAttr? "Version").getD unknownVersion, formCode, sections root⟩
          faults := []
          remarks := mentionOnce [] (TemplateReader.remarks root) }
        else failed (TemplateReader.faults root) (mentionOnce [] (TemplateReader.remarks root)) := by
  rw [ofText]
  cases Xml.readRoot rootName source with
  | error e => rfl
  | ok root =>
    obtain ⟨htemplate, hfaults, hremarks⟩ := readTemplate_run formCode root
    dsimp only
    rw [← htemplate, ← hfaults, ← hremarks]
    simp only [List.isEmpty_iff]
    rfl

end Filing
