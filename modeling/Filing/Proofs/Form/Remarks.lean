import Filing.Proofs.Earlier
import Filing.Proofs.Form.Collected

/-!
# The remarks about a template

What the reader cannot make use of it remarks on and passes over. The remarks of each kind are given
here by the elements that they are about: the fields with an unknown control, the attributes without
a meaning, the values that cannot be read, and the elements that stand where they do not belong.
None is left out and none is made twice, and what is read is what would be read without them.
-/

namespace Filing

open Filing.Xml (Node)

namespace Remark

/-- What a remark is about. -/
inductive Kind where
  /-- The control of a field that is unknown. -/
  | control
  /-- The version that is not given. -/
  | version
  /-- An attribute of a cell that has no meaning. -/
  | attribute
  /-- A value that cannot be read. -/
  | value
  /-- An element that does not belong where it stands. -/
  | element
deriving DecidableEq

/-- The kind of a remark. -/
def kind : Remark → Kind
  | .unknownControl .. => .control
  | .missingVersion => .version
  | .ignoredAttribute .. => .attribute
  | .invalidAttribute .. => .value
  | .ignoredElement .. => .element

/-- The remarks of a kind. -/
def ofKind (k : Kind) (rs : List Remark) : List Remark := rs.filter (·.kind == k)

/-- The name of the attribute without a meaning that the remark is about. -/
def attribute? : Remark → Option String
  | .ignoredAttribute _ name => some name
  | _ => none

/-- The remark is about an attribute that an earlier one is about. -/
def IsRepeat (e : List Remark × Remark) : Prop :=
  ∃ name ∈ e.2.attribute?, some name ∈ e.1.map attribute?

instance : DecidablePred IsRepeat := fun e =>
  inferInstanceAs (Decidable (∃ name ∈ e.2.attribute?, some name ∈ e.1.map attribute?))

/-- The remarks, without those about an attribute that an earlier one is about. -/
def withoutRepeats (rs : List Remark) : List Remark :=
  ((withEarlier rs).filter fun e => ¬IsRepeat e).map (·.2)

section

variable {k : Kind} {rs ss : List Remark}

theorem ofKind_append : ofKind k (rs ++ ss) = ofKind k rs ++ ofKind k ss := List.filter_append ..

theorem ofKind_cons {r : Remark} : ofKind k (r :: rs) = ofKind k [r] ++ ofKind k rs :=
  List.filter_append [r] rs

theorem ofKind_flatMap {α : Type} {f : α → List Remark} {l : List α} :
    ofKind k (l.flatMap f) = l.flatMap fun a => ofKind k (f a) := List.filter_flatMap

theorem ofKind_of_kind {j : Kind} (h : ∀ r ∈ rs, r.kind = j) :
    ofKind k rs = if j = k then rs else [] := by
  split
  · next hjk => exact List.filter_eq_self.2 fun r hr => beq_iff_eq.2 ((h r hr).trans hjk)
  · next hjk =>
    refine filter_eq_nil_of_forall fun r hr => beq_eq_false_iff_ne.2 ?_
    rwa [h r hr]

end

end Remark

namespace TemplateReader

open Filing.Text (WritesNatural maxWord32 maxWord64 natural?)
open Remark (IsRepeat Kind ofKind ofKind_append ofKind_cons ofKind_flatMap ofKind_of_kind
  withoutRepeats)

/-! ## Attributes with a meaning -/

/-- The element without its attributes of a name. -/
def without (node : Node) (name : String) : Node :=
  { node with attrs := node.attrs.filter (·.1 ≠ name) }

/-- An attribute has a meaning if there is a cell whose field depends on it. -/
def HasMeaning (name : String) : Prop := ∃ cell, field? (without cell name) ≠ field? cell

theorem attr?_without {name other : String} (h : other ≠ name) (node : Node) :
    (without node name).attr? other = node.attr? other := by
  unfold without Node.attr?
  rw [List.find?_filter]
  refine congrArg _ (congrArg (List.find? · node.attrs) (funext fun a => ?_))
  by_cases ha : a.1 = other
  · simp [ha, h]
  · simp [ha]

/-- A field depends only on the attributes that the reader of templates looks at. -/
theorem field?_congr {cell other : Node}
    (h : ∀ name ∈ cellAttributes, cell.attr? name = other.attr? name) :
    field? cell = field? other := by
  have hfilled : ∀ name ∈ cellAttributes, cell.filledAttr? name = other.filledAttr? name := by
    intro name hname
    rw [Node.filledAttr?, Node.filledAttr?, h name hname]
  have htext : ∀ name ∈ cellAttributes, textAttr? cell name = textAttr? other name := by
    intro name hname
    rw [textAttr?, textAttr?, h name hname]
  have hon : ∀ name ∈ cellAttributes, isOn cell name = isOn other name := by
    intro name hname
    rw [isOn, isOn, hfilled name hname]
  simp only [cellAttributes, List.forall_mem_cons] at hfilled htext hon
  simp only [field?, hfilled, htext, hon]

/-- A cell with all attributes that a field depends on. -/
def fullCell : Node where
  name := "Cell"
  attrs := cellAttributes.map (·, "1")

theorem mem_cellAttributes_iff {name : String} : name ∈ cellAttributes ↔ HasMeaning name := by
  constructor
  · have hfull : ∀ name ∈ cellAttributes, field? (without fullCell name) ≠ field? fullCell := by
      decide +kernel
    exact fun hname => ⟨fullCell, hfull name hname⟩
  · rintro ⟨cell, hcell⟩
    by_contra hname
    refine hcell (field?_congr fun other hother => attr?_without ?_ cell)
    exact fun heq => hname (heq ▸ hother)

instance : DecidablePred HasMeaning := fun _ => decidable_of_iff _ mem_cellAttributes_iff

/-! ## What the remarks are about -/

/-- The cells that are gone through, those that are no fields included. -/
def walkedCells (root : Node) : List Node := (sectionNodes root).flatMap fun p => cells p.1

/-- The attributes of a cell that have no meaning. -/
def unknownAttributes (cell : Node) : List String :=
  (cell.attrs.map (·.1)).filter fun name => ¬HasMeaning name

/-- The values of a field that cannot be read. -/
def cellValues (cell : Node) : List Remark :=
  (field? cell).elim [] fun f =>
    invalidAttr (natural? maxWord64) f.id "MaxLen" cell ++
      invalidAttr Decimal.ofText? f.id "MinValue" cell ++
      invalidAttr Decimal.ofText? f.id "MaxValue" cell

/-- The values of a row description that cannot be read. -/
def rowValues (id : String) (rowInfo : Node) : List Remark :=
  invalidAttr (natural? maxWord32) id "TemplateRow" rowInfo ++
    invalidAttr (natural? maxWord32) id "ReportRow" rowInfo

/-- The values of a dynamic section and of its first row description that cannot be read. -/
def sectionValues (ordinal : Nat) (node : Node) : List Remark :=
  let id := sectionId ordinal node
  if RepeatsRows node then
    invalidAttr (natural? maxWord64) id "MaxRows" node ++
      (node.child? "RowInfo").elim [] (rowValues id)
  else []

/-- The children of an element with another name than the one that is expected, each with it. -/
def strangers (name : String) (holder : Node) : List (Node × Node) :=
  (holder.children.filter (·.name ≠ name)).map (·, holder)

/-- What does not belong in a child of a dynamic section, given with those before it: the strangers
in the first row description, and any other child itself. -/
def misplacedAt (node : Node) (e : List Node × Node) : List (Node × Node) :=
  if e.2.name = "RowInfo" ∧ ∀ b ∈ e.1, b.name ≠ "RowInfo" then strangers "Cell" e.2
  else [(e.2, node)]

/-- The elements of a section that do not belong where they stand, each with the element around. -/
def misplacedIn (node : Node) : List (Node × Node) :=
  if RepeatsRows node then (withEarlier node.children).flatMap (misplacedAt node)
  else
    node.children.flatMap fun child =>
      if child.name = "Cells" then strangers "Cell" child else [(child, node)]

/-- The elements of a template that do not belong where they stand. -/
def misplaced (root : Node) : List (Node × Node) :=
  root.children.flatMap fun child =>
    if child.name = "Section" then misplacedIn child else [(child, root)]

/-! ## Kinds of remarks -/

variable {k : Kind}

theorem kind_of_mem_invalidAttr {α : Type} {read : String → Option α} {owner name : String}
    {node : Node} : ∀ r ∈ invalidAttr read owner name node, r.kind = .value := by
  unfold invalidAttr
  split
  · exact forall_mem_ite_nil rfl
  · exact List.forall_mem_nil _

theorem kind_of_mem_cellValues {cell : Node} : ∀ r ∈ cellValues cell, r.kind = .value := by
  unfold cellValues
  cases field? cell with
  | none => exact List.forall_mem_nil _
  | some f =>
    rw [Option.elim_some, List.forall_mem_append, List.forall_mem_append]
    exact ⟨⟨kind_of_mem_invalidAttr, kind_of_mem_invalidAttr⟩, kind_of_mem_invalidAttr⟩

theorem kind_of_mem_rowValues {id : String} {rowInfo : Node} :
    ∀ r ∈ rowValues id rowInfo, r.kind = .value := by
  unfold rowValues
  rw [List.forall_mem_append]
  exact ⟨kind_of_mem_invalidAttr, kind_of_mem_invalidAttr⟩

theorem kind_of_mem_sectionValues {ordinal : Nat} {node : Node} :
    ∀ r ∈ sectionValues ordinal node, r.kind = .value := by
  unfold sectionValues
  dsimp only
  split
  · rw [List.forall_mem_append]
    refine ⟨kind_of_mem_invalidAttr, ?_⟩
    cases node.child? "RowInfo" with
    | none => exact List.forall_mem_nil _
    | some rowInfo => exact kind_of_mem_rowValues
  · exact List.forall_mem_nil _

/-- The remark about the control of a field, if it is unknown. -/
def controlRemarks (f : Field) : List Remark :=
  if ¬IsKnownCode f.controlCode then [.unknownControl f.id f.controlCode] else []

theorem kind_of_mem_controlRemarks {f : Field} : ∀ r ∈ controlRemarks f, r.kind = .control :=
  forall_mem_ite_singleton rfl

theorem cellRemarks_eq_append (cell : Node) : cellRemarks cell =
    (unknownAttributes cell).map (.ignoredAttribute cell.name ·) ++
      ((field? cell).elim [] controlRemarks ++ cellValues cell) := by
  have hattributes : (cell.attrs.map (·.1)).filter (!cellAttributes.contains ·) =
      unknownAttributes cell := by
    refine List.filter_congr fun name _ => ?_
    rw [List.contains_eq_mem, ← decide_not]
    exact decide_eq_decide.2 (not_congr mem_cellAttributes_iff)
  rw [cellRemarks, hattributes]
  unfold cellValues
  cases field? cell with
  | none => rfl
  | some f =>
    refine congrArg _ ?_
    rw [Option.elim_some, Option.elim_some, Option.elim_some, fieldRemarks, controlRemarks]
    simp only [control?_isSome_iff, ite_not, List.append_assoc]

theorem ofKind_cellRemarks (cell : Node) : ofKind k (cellRemarks cell) =
    match k with
    | .attribute => (unknownAttributes cell).map (.ignoredAttribute cell.name ·)
    | .control => (field? cell).elim [] controlRemarks
    | .value => cellValues cell
    | _ => [] := by
  have hattributes : ∀ r ∈ (unknownAttributes cell).map (Remark.ignoredAttribute cell.name ·),
      r.kind = .attribute := by
    intro r hr
    obtain ⟨name, -, rfl⟩ := List.mem_map.1 hr
    rfl
  have hcontrols : ∀ r ∈ (field? cell).elim [] controlRemarks, r.kind = .control := by
    cases field? cell with
    | none => exact List.forall_mem_nil _
    | some f => exact kind_of_mem_controlRemarks
  rw [cellRemarks_eq_append, ofKind_append, ofKind_append, ofKind_of_kind hattributes,
    ofKind_of_kind hcontrols, ofKind_of_kind kind_of_mem_cellValues]
  cases k <;> simp

/-! ## The walk -/

theorem ofKind_ignored (hk : k ≠ .element) (child holder : Node) :
    ofKind k [.ignoredElement child.name holder.name] = [] :=
  (ofKind_of_kind fun _ hr => congrArg Remark.kind (List.mem_singleton.1 hr)).trans (if_neg hk.symm)

theorem ofKind_cellsRemarks (hk : k ≠ .element) (holder : Node) (children : List Node) :
    ofKind k (cellsRemarks holder children) =
      (cellsAmong children).flatMap fun cell => ofKind k (cellRemarks cell) := by
  rw [cellsRemarks, ofKind_flatMap, cellsAmong, ← flatMap_ite_nil]
  refine List.flatMap_congr fun child _ => ?_
  by_cases hname : child.name = "Cell"
  · rw [if_pos hname, if_pos (beq_iff_eq.2 hname)]
  · rw [if_neg hname, if_neg (mt beq_iff_eq.1 hname), ofKind_ignored hk]

theorem ofKind_blocksRemarks (hk : k ≠ .element) (node : Node) (children : List Node) :
    ofKind k (blocksRemarks node children) =
      ((children.filter (·.name == "Cells")).flatMap (cellsAmong ·.children)).flatMap fun cell =>
        ofKind k (cellRemarks cell) := by
  rw [blocksRemarks, ofKind_flatMap, List.flatMap_assoc, ← flatMap_ite_nil]
  refine List.flatMap_congr fun child _ => ?_
  by_cases hname : child.name = "Cells"
  · rw [if_pos hname, if_pos (beq_iff_eq.2 hname), ofKind_cellsRemarks hk]
  · rw [if_neg hname, if_neg (mt beq_iff_eq.1 hname), ofKind_ignored hk]

theorem ofKind_rowInfoRemarks_true (hk : k ≠ .element) (id : String) (node : Node)
    (children : List Node) : ofKind k (rowInfoRemarks id node true children) = [] := by
  induction children with
  | nil => rfl
  | cons child rest ih =>
    rw [rowInfoRemarks, if_neg (by simp), ofKind_cons, ofKind_ignored hk, ih]
    rfl

theorem ofKind_rowInfoRemarks_false (hk : k ≠ .element) (id : String) (node : Node)
    (children : List Node) : ofKind k (rowInfoRemarks id node false children) =
      (children.find? (·.name == "RowInfo")).elim [] fun rowInfo =>
        ofKind k (rowValues id rowInfo) ++
          (cellsAmong rowInfo.children).flatMap fun cell => ofKind k (cellRemarks cell) := by
  induction children with
  | nil => rfl
  | cons child rest ih =>
    rw [rowInfoRemarks]
    by_cases hname : child.name = "RowInfo"
    · rw [if_pos ⟨hname, rfl⟩, List.find?_cons_of_pos (by simpa using hname), ofKind_append,
        ofKind_append, ofKind_cellsRemarks hk, ofKind_rowInfoRemarks_true hk, List.append_nil]
      rfl
    · rw [if_neg (mt And.left hname), List.find?_cons_of_neg (by simpa using hname),
        ofKind_cons, ofKind_ignored hk, ih]
      rfl

/-- Apart from misplaced elements, a section is remarked on for its own values and for its cells. -/
theorem ofKind_sectionRemarks (hk : k ≠ .element) (ordinal : Nat) (node : Node) :
    ofKind k (sectionRemarks ordinal node) = ofKind k (sectionValues ordinal node) ++
      (cells node).flatMap fun cell => ofKind k (cellRemarks cell) := by
  unfold sectionRemarks sectionValues cells
  dsimp only
  split
  · rw [ofKind_append, ofKind_append, ofKind_rowInfoRemarks_false hk, Node.child?,
      List.append_assoc]
    cases node.children.find? (·.name == "RowInfo") <;> rfl
  · exact ofKind_blocksRemarks hk node node.children

theorem ofKind_childRemarks (hk : k ≠ .element) (root : Node) (ordinal : Nat)
    (children : List Node) : ofKind k (childRemarks root ordinal children) =
      ((children.filter (·.name == "Section")).zipIdx ordinal).flatMap fun p =>
        ofKind k (sectionRemarks p.2 p.1) := by
  induction children generalizing ordinal with
  | nil => rfl
  | cons child rest ih =>
    rw [childRemarks]
    by_cases hname : child.name = "Section"
    · rw [if_pos hname, List.filter_cons_of_pos (by simpa using hname), List.zipIdx_cons,
        List.flatMap_cons, ofKind_append, ih]
    · rw [if_neg hname, List.filter_cons_of_neg (by simpa using hname), ofKind_cons,
        ofKind_ignored hk, ih]
      rfl

/-- The remark about the version, if there is none. -/
def versionRemarks (root : Node) : List Remark :=
  if (root.filledAttr? "Version").isSome then [] else [.missingVersion]

theorem kind_of_mem_versionRemarks {root : Node} : ∀ r ∈ versionRemarks root, r.kind = .version :=
  forall_mem_ite_nil rfl

/-- Apart from misplaced elements, the remarks follow the sections, and there each the cells. -/
theorem ofKind_remarks (hk : k ≠ .element) (root : Node) : ofKind k (remarks root) =
    (if .version = k then versionRemarks root else []) ++ (sectionNodes root).flatMap fun p =>
      (if .value = k then sectionValues p.2 p.1 else []) ++
        (cells p.1).flatMap fun cell => ofKind k (cellRemarks cell) := by
  rw [remarks, ofKind_append, ofKind_childRemarks hk]
  refine congr_arg₂ _ (ofKind_of_kind kind_of_mem_versionRemarks)
    (List.flatMap_congr fun p _ => ?_)
  rw [ofKind_sectionRemarks hk, ofKind_of_kind kind_of_mem_sectionValues]

/-! ## Misplaced elements -/

/-- What is said about an element that does not belong where it stands. -/
def ignored (p : Node × Node) : Remark := .ignoredElement p.1.name p.2.name

theorem ofKind_element_cellRemarks (cell : Node) : ofKind .element (cellRemarks cell) = [] :=
  ofKind_cellRemarks cell

theorem ofKind_element_of_value {rs : List Remark} (h : ∀ r ∈ rs, r.kind = .value) :
    ofKind .element rs = [] :=
  (ofKind_of_kind h).trans (if_neg Kind.noConfusion)

theorem ofKind_element_cellsRemarks (holder : Node) :
    ofKind .element (cellsRemarks holder holder.children) =
      (strangers "Cell" holder).map ignored := by
  rw [cellsRemarks, ofKind_flatMap, strangers, List.map_map, ← flatMap_ite_singleton]
  refine List.flatMap_congr fun child _ => ?_
  by_cases hname : child.name = "Cell"
  · rw [if_pos hname, ofKind_element_cellRemarks, if_neg (by simp [hname])]
  · rw [if_neg hname, if_pos (by simp [hname])]
    rfl

theorem ofKind_element_rowInfoRemarks_true (id : String) (node : Node) (children : List Node) :
    ofKind .element (rowInfoRemarks id node true children) =
      (children.map (·, node)).map ignored := by
  induction children with
  | nil => rfl
  | cons child rest ih =>
    rw [rowInfoRemarks, if_neg (by simp), List.map_cons, List.map_cons, ← ih]
    rfl

/-- Behind the first row description every child is misplaced. -/
theorem flatMap_misplacedAt_cons {node child : Node} (hname : child.name = "RowInfo")
    (children : List Node) :
    (withEarlier (child :: children)).flatMap (misplacedAt node) =
      strangers "Cell" child ++ children.map (·, node) := by
  have hbehind : ∀ e : List Node × Node, misplacedAt node (child :: e.1, e.2) = [(e.2, node)] :=
    fun e => if_neg fun h => h.2 child List.mem_cons_self hname
  have hfirst : misplacedAt node ([], child) = strangers "Cell" child :=
    if_pos ⟨hname, fun b hb => absurd hb List.not_mem_nil⟩
  rw [withEarlier_cons, List.flatMap_cons, hfirst, List.flatMap_map]
  conv => rhs; rw [← map_snd_withEarlier children, List.map_map, List.map_eq_flatMap]
  exact congrArg _ (List.flatMap_congr fun e _ => hbehind e)

theorem ofKind_element_rowInfoRemarks_false (id : String) (node : Node) (children : List Node) :
    ofKind .element (rowInfoRemarks id node false children) =
      ((withEarlier children).flatMap (misplacedAt node)).map ignored := by
  induction children with
  | nil => rfl
  | cons child rest ih =>
    rw [rowInfoRemarks]
    by_cases hname : child.name = "RowInfo"
    · rw [if_pos ⟨hname, rfl⟩, flatMap_misplacedAt_cons hname, ofKind_append, ofKind_append,
        ofKind_append, ofKind_element_of_value kind_of_mem_invalidAttr,
        ofKind_element_of_value kind_of_mem_invalidAttr, ofKind_element_cellsRemarks,
        ofKind_element_rowInfoRemarks_true, List.map_append]
      rfl
    · have hother : ∀ e : List Node × Node, misplacedAt node (child :: e.1, e.2) =
          misplacedAt node e := by
        intro e
        unfold misplacedAt
        simp only [List.forall_mem_cons, ne_eq, hname, not_false_eq_true, true_and]
      have hfirst : misplacedAt node ([], child) = [(child, node)] := if_neg (mt And.left hname)
      rw [if_neg (mt And.left hname), withEarlier_cons, List.flatMap_cons, hfirst,
        List.flatMap_map, List.flatMap_congr fun e _ => hother e, List.map_append, ← ih]
      rfl

theorem ofKind_element_sectionRemarks (ordinal : Nat) (node : Node) :
    ofKind .element (sectionRemarks ordinal node) = (misplacedIn node).map ignored := by
  unfold sectionRemarks misplacedIn
  dsimp only
  split
  · rw [ofKind_append, ofKind_element_of_value kind_of_mem_invalidAttr, List.nil_append,
      ofKind_element_rowInfoRemarks_false]
  · rw [blocksRemarks, ofKind_flatMap, List.map_flatMap]
    refine List.flatMap_congr fun child _ => ?_
    split
    · exact ofKind_element_cellsRemarks child
    · rfl

theorem ofKind_element_childRemarks (root : Node) (ordinal : Nat) (children : List Node) :
    ofKind .element (childRemarks root ordinal children) = (children.flatMap fun child =>
      if child.name = "Section" then misplacedIn child else [(child, root)]).map ignored := by
  induction children generalizing ordinal with
  | nil => rfl
  | cons child rest ih =>
    rw [childRemarks, List.flatMap_cons, List.map_append]
    split
    · rw [ofKind_append, ofKind_element_sectionRemarks, ih]
    · rw [← ih ordinal]
      rfl

theorem ofKind_element_remarks (root : Node) :
    ofKind .element (remarks root) = (misplaced root).map ignored := by
  rw [remarks, ofKind_append, ofKind_element_childRemarks]
  split <;> rfl

/-! ## Attributes that are mentioned once -/

theorem ofKind_mentionOnce (hk : k ≠ .attribute) (seen : List String) (rs : List Remark) :
    ofKind k (mentionOnce seen rs) = ofKind k rs := by
  have hattribute : ∀ element name, ofKind k [.ignoredAttribute element name] = [] := by
    intro element name
    refine (ofKind_of_kind (j := .attribute) fun r hr => ?_).trans (if_neg hk.symm)
    rw [List.mem_singleton.1 hr]
    rfl
  induction rs generalizing seen with
  | nil => rfl
  | cons r rs ih =>
    cases r with
    | ignoredAttribute element name =>
      rw [mentionOnce, ofKind_cons, hattribute, List.nil_append]
      split
      · exact ih seen
      · rw [ofKind_cons, hattribute, List.nil_append, ih]
    | _ =>
      show ofKind k (_ :: mentionOnce seen rs) = _
      rw [ofKind_cons, ih, ← ofKind_cons]

/-- Of the remarks on attributes, those on names that are new remain. -/
theorem ofKind_attribute_mentionOnce {element : String} {names : List String} {rs : List Remark}
    (hrs : ofKind .attribute rs = names.map (.ignoredAttribute element)) (seen : List String) :
    ofKind .attribute (mentionOnce seen rs) =
      (names.filter (· ∉ seen)).eraseDups.map (.ignoredAttribute element) := by
  induction rs generalizing names seen with
  | nil =>
    obtain rfl : names = [] := List.map_eq_nil_iff.1 hrs.symm
    rfl
  | cons r rs ih =>
    cases r with
    | ignoredAttribute element' name =>
      have hcons : ofKind .attribute (.ignoredAttribute element' name :: rs) =
          .ignoredAttribute element' name :: ofKind .attribute rs := rfl
      rw [hcons] at hrs
      obtain ⟨first, names, rfl, hfirst, hnames⟩ := List.map_eq_cons_iff.1 hrs.symm
      obtain ⟨rfl, rfl⟩ := Remark.ignoredAttribute.inj hfirst
      rw [mentionOnce]
      split
      · next hseen =>
        rw [List.filter_cons_of_neg (by simpa using hseen), ih hnames.symm]
      · next hseen =>
        rw [List.filter_cons_of_pos (by simpa using hseen), List.eraseDups_cons, List.map_cons,
          List.filter_filter]
        have hnew : ofKind .attribute (.ignoredAttribute element first ::
            mentionOnce (first :: seen) rs) = .ignoredAttribute element first ::
              ofKind .attribute (mentionOnce (first :: seen) rs) := rfl
        rw [hnew, ih hnames.symm]
        refine congrArg _ (congrArg _ (congrArg _ (List.filter_congr fun n _ => ?_)))
        rw [Bool.eq_iff_iff]
        simp
    | _ => exact ih hrs seen

theorem mem_mentionedAfter {seen : List String} {rs : List Remark} {name : String} :
    name ∈ mentionedAfter seen rs ↔ name ∈ seen ∨ some name ∈ rs.map Remark.attribute? := by
  induction rs generalizing seen with
  | nil => simp [mentionedAfter]
  | cons r rs ih =>
    cases r with
    | ignoredAttribute element other =>
      have hnext : name ∈ (if other ∈ seen then seen else other :: seen) ↔
          name = other ∨ name ∈ seen := by
        split
        · next hseen => exact ⟨.inr, fun h => h.elim (· ▸ hseen) id⟩
        · exact List.mem_cons
      rw [mentionedAfter, ih, hnext, List.map_cons, List.mem_cons, Remark.attribute?,
        Option.some.injEq, or_left_comm, or_assoc]
    | _ =>
      show name ∈ mentionedAfter seen rs ↔ _
      rw [ih, List.map_cons, List.mem_cons]
      simp [Remark.attribute?]

theorem mentionOnce_singleton (earlier : List Remark) (r : Remark) :
    mentionOnce (mentionedAfter [] earlier) [r] = if IsRepeat (earlier, r) then [] else [r] := by
  unfold IsRepeat
  cases r with
  | ignoredAttribute element name =>
    simp [mentionOnce, mem_mentionedAfter, Remark.attribute?]
  | _ => simp [mentionOnce, Remark.attribute?]

theorem mentionOnce_eq_withoutRepeats (rs : List Remark) :
    mentionOnce [] rs = withoutRepeats rs := by
  induction rs using List.reverseRecOn with
  | nil => rfl
  | append_singleton rs r ih =>
    rw [mentionOnce_append, ih, mentionOnce_singleton, withoutRepeats, withoutRepeats,
      withEarlier_append_singleton, List.filter_append, List.map_append, List.filter_singleton]
    by_cases hrepeat : IsRepeat (rs, r) <;> simp [hrepeat]

/-! ## The remarks of each kind -/

/-- What is remarked about a template. -/
structure AreRemarksOf (root : Node) (rs : List Remark) : Prop where
  /-- They come in the order of the document, each attribute where it is met first. -/
  order : rs = withoutRepeats (remarks root)
  version : ofKind .version rs = versionRemarks root
  /-- One for each field whose control is none that is known. -/
  controls : ofKind .control rs =
    (((walkedCells root).filterMap field?).filter fun f => ¬IsKnownCode f.controlCode).map fun f =>
      .unknownControl f.id f.controlCode
  /-- One for each name of an attribute without a meaning, wherever it stands. -/
  attributes : ofKind .attribute rs =
    ((walkedCells root).flatMap unknownAttributes).eraseDups.map (.ignoredAttribute "Cell")
  /-- One for each value that cannot be read. -/
  values : ofKind .value rs = (sectionNodes root).flatMap fun p =>
    sectionValues p.2 p.1 ++ (cells p.1).flatMap cellValues
  /-- One for each element that does not belong where it stands. -/
  elements : ofKind .element rs = (misplaced root).map fun p =>
    .ignoredElement p.1.name p.2.name

/-- The remarks about cells of a kind that only cells have. -/
theorem ofKind_remarks_cells (hk : k = .control ∨ k = .attribute) (root : Node) :
    ofKind k (remarks root) = (walkedCells root).flatMap fun cell => ofKind k (cellRemarks cell) := by
  rw [walkedCells, List.flatMap_assoc]
  rcases hk with rfl | rfl <;> exact ofKind_remarks (by decide) root

theorem ofKind_control_remarks (root : Node) : ofKind .control (remarks root) =
    (((walkedCells root).filterMap field?).filter fun f => ¬IsKnownCode f.controlCode).map fun f =>
      .unknownControl f.id f.controlCode := by
  rw [ofKind_remarks_cells (.inl rfl)]
  simp only [ofKind_cellRemarks]
  rw [flatMap_elim_nil, ← flatMap_ite_singleton]
  refine List.flatMap_congr fun f _ => ?_
  simp only [controlRemarks, decide_eq_true_eq]

theorem name_of_mem_walkedCells {root cell : Node} (h : cell ∈ walkedCells root) :
    cell.name = "Cell" := by
  have hamong : ∀ nodes : List Node, cell ∈ cellsAmong nodes → cell.name = "Cell" :=
    fun nodes hcell => beq_iff_eq.1 (List.mem_filter.1 hcell).2
  obtain ⟨p, -, hcell⟩ := List.mem_flatMap.1 h
  unfold cells at hcell
  split at hcell
  · cases hrow : p.1.child? "RowInfo" with
    | none =>
      rw [hrow] at hcell
      exact absurd hcell List.not_mem_nil
    | some rowInfo =>
      rw [hrow] at hcell
      exact hamong _ hcell
  · obtain ⟨block, -, hcell⟩ := List.mem_flatMap.1 hcell
    exact hamong _ hcell

theorem ofKind_attribute_remarks (root : Node) : ofKind .attribute (remarks root) =
    ((walkedCells root).flatMap unknownAttributes).map (.ignoredAttribute "Cell") := by
  rw [ofKind_remarks_cells (.inr rfl), List.map_flatMap]
  refine List.flatMap_congr fun cell hcell => ?_
  rw [ofKind_cellRemarks, name_of_mem_walkedCells hcell]

theorem areRemarksOf_mentionOnce (root : Node) :
    AreRemarksOf root (mentionOnce [] (remarks root)) where
  order := mentionOnce_eq_withoutRepeats _
  version := by
    rw [ofKind_mentionOnce (by decide), ofKind_remarks (by decide), if_pos rfl]
    simp [ofKind_cellRemarks]
  controls := by rw [ofKind_mentionOnce (by decide), ofKind_control_remarks]
  attributes := by
    rw [ofKind_attribute_mentionOnce (ofKind_attribute_remarks root) [], List.filter_eq_self.2]
    exact fun name _ => decide_eq_true List.not_mem_nil
  values := by
    rw [ofKind_mentionOnce (by decide), ofKind_remarks (by decide)]
    simp only [ofKind_cellRemarks]
    rfl
  elements := by
    rw [ofKind_mentionOnce (by decide), ofKind_element_remarks]
    rfl

/-! ## What is read all the same -/

/-- A field has the control whose number its code writes, or else is a text, and of the bounds in
its cell it has those that can be read. -/
structure ReadsValues (cell : Node) (f : Field) : Prop where
  control : WritesNatural f.controlCode f.control.code ∨
    ¬IsKnownCode f.controlCode ∧ f.control = .text
  maxLength : f.maxLength = (cell.filledAttr? "MaxLen").bind (natural? maxWord64)
  min : f.min = (cell.filledAttr? "MinValue").bind Decimal.ofText?
  max : f.max = (cell.filledAttr? "MaxValue").bind Decimal.ofText?

/-- What a dynamic section says of its rows in numbers; a number that cannot be read is zero, like
one that is not given. -/
def rowNumbers? (node : Node) : Option (Nat × RowOffsets) :=
  if RepeatsRows node then
    some (numberAttr maxWord64 node "MaxRows", (node.child? "RowInfo").elim {} rowOffsets)
  else none

/-- Nothing is lacking: there is a section, each dynamic section names the path of its table, and
each cell has the required attributes. -/
def IsWhole (root : Node) : Prop :=
  sectionNodes root ≠ [] ∧ ∀ p ∈ sectionNodes root,
    (RepeatsRows p.1 → (p.1.filledAttr? "TablePath").isSome) ∧
      ∀ cell ∈ cells p.1, ∀ name ∈ requiredAttributes, (cell.filledAttr? name).isSome

theorem faults_eq_nil_iff_isWhole (root : Node) : faults root = [] ↔ IsWhole root := by
  rw [faults_eq_nil_iff, IsWhole]
  refine and_congr_right' (forall₂_congr fun p _ => ?_)
  rw [sectionFaults_eq_nil_iff]
  refine and_congr ?_ (forall₂_congr fun cell _ => field?_isSome_iff cell)
  unfold section?
  by_cases hrows : RepeatsRows p.1 <;> simp [hrows]

theorem readsValues_of_field? {cell : Node} {f : Field} (h : field? cell = some f) :
    ReadsValues cell f := by
  simp only [field?, Option.bind_eq_bind, Option.bind_eq_some_iff] at h
  obtain ⟨id, -, path, -, code, -, hf⟩ := h
  obtain rfl := Option.some.inj hf
  refine ⟨?_, rfl, rfl, rfl⟩
  show WritesNatural code ((control? code).getD .text).code ∨
    ¬IsKnownCode code ∧ (control? code).getD .text = .text
  cases hcode : control? code with
  | some c => exact .inl (control?_eq_some_iff.1 hcode)
  | none =>
    rw [← control?_isSome_iff, hcode]
    exact .inr ⟨Bool.false_ne_true, rfl⟩

theorem reads_of_section? {ordinal : Nat} {node : Node} {s : Section}
    (h : section? ordinal node = some s) :
    s.fields = (cells node).filterMap field? ∧
      s.table?.map (fun table => (table.maxRows, table.offsets)) = rowNumbers? node := by
  unfold section? at h
  unfold rowNumbers?
  by_cases hrows : RepeatsRows node
  · simp only [if_pos hrows] at h
    obtain ⟨path, -, rfl⟩ := Option.map_eq_some_iff.1 h
    rw [if_pos hrows]
    exact ⟨rfl, rfl⟩
  · simp only [if_neg hrows] at h
    obtain rfl := Option.some.inj h
    rw [if_neg hrows]
    exact ⟨rfl, rfl⟩

theorem section?_isSome_of_faults_eq_nil {root : Node} (h : faults root = []) :
    ∀ p ∈ sectionNodes root, ∃ s, section? p.2 p.1 = some s := by
  intro p hp
  have hnone := ((faults_eq_nil_iff root).1 h).2 p hp
  exact Option.isSome_iff_exists.1 ((sectionFaults_eq_nil_iff p.2 p.1).1 hnone).1

theorem fields_sections {root : Node} (h : faults root = []) :
    (sections root).flatMap (·.fields) = (walkedCells root).filterMap field? := by
  rw [sections, ← flatMap_elim_nil, walkedCells, List.filterMap_flatMap]
  refine List.flatMap_congr fun p hp => ?_
  obtain ⟨s, hs⟩ := section?_isSome_of_faults_eq_nil h p hp
  rw [hs, Option.elim_some]
  exact (reads_of_section? hs).1

theorem numbers_sections {root : Node} (h : faults root = []) :
    (sections root).map (fun s => s.table?.map fun table => (table.maxRows, table.offsets)) =
      (sectionNodes root).map fun p => rowNumbers? p.1 := by
  rw [sections, List.map_filterMap, ← List.filterMap_eq_map]
  refine List.filterMap_congr fun p hp => ?_
  obtain ⟨s, hs⟩ := section?_isSome_of_faults_eq_nil h p hp
  rw [hs, Option.map_some]
  exact congrArg some (reads_of_section? hs).2

end TemplateReader

namespace TemplateReading

open TemplateReader

/-- What the reader remarks on in a tree is exactly what it cannot make use of, once, and no remark
keeps the tree from being a template: it is one if nothing that is required is lacking, with the
fields of its cells and the numbers of its tables, where what cannot be read counts as not given. -/
theorem ofText_remarks (rootName formCode source : String) :
    match Xml.readRoot rootName source, ofText rootName formCode source with
    | .error _, r => r.remarks = []
    | .ok root, r =>
      AreRemarksOf root r.remarks ∧
      (∀ cell ∈ walkedCells root, match field? cell with
        | some f => ReadsCell cell f ∧ ReadsValues cell f
        | none => ∃ name ∈ requiredAttributes, cell.filledAttr? name = none) ∧
      (r.template?.isSome ↔ IsWhole root) ∧
      ∀ t ∈ r.template?, t.fields = (walkedCells root).filterMap field? ∧
        t.sections.map (fun s => s.table?.map fun table => (table.maxRows, table.offsets)) =
          (sectionNodes root).map fun p => rowNumbers? p.1 := by
  rw [ofText_eq]
  cases Xml.readRoot rootName source with
  | error e => rfl
  | ok root =>
    dsimp only
    have hcells : ∀ cell ∈ walkedCells root, match field? cell with
        | some f => ReadsCell cell f ∧ ReadsValues cell f
        | none => ∃ name ∈ requiredAttributes, cell.filledAttr? name = none := by
      intro cell _
      split
      · next f hf => exact ⟨readsCell_of_field? hf, readsValues_of_field? hf⟩
      · next hf =>
        have hlacks := mt (field?_isSome_iff cell).2 (Bool.eq_false_iff.1 (hf ▸ rfl))
        simpa using hlacks
    by_cases hfaults : TemplateReader.faults root = []
    · rw [if_pos hfaults]
      refine ⟨areRemarksOf_mentionOnce root, hcells,
        iff_of_true rfl ((faults_eq_nil_iff_isWhole root).1 hfaults), ?_⟩
      intro t ht
      obtain rfl := Option.some.inj ht
      exact ⟨fields_sections hfaults, numbers_sections hfaults⟩
    · rw [if_neg hfaults]
      exact ⟨areRemarksOf_mentionOnce root, hcells,
        iff_of_false nofun (mt (faults_eq_nil_iff_isWhole root).2 hfaults), nofun⟩

/-- A template with a remark of each kind: the version is not given, and its one section, which has
rows, holds an attribute without a meaning, a length that is no number, an unknown control and an
element that does not belong there. -/
def remarkableForm : Node :=
  ⟨"T", [], "", [⟨"Section", [("Dynamic", "TRUE"), ("TablePath", "T")], "", [
    ⟨"RowInfo", [], "", [
      ⟨"Cell", [("CellID", "a"), ("Path", "A"), ("Controltype", "+16"), ("X", ""),
        ("MaxLen", "x")], "", []⟩,
      ⟨"Cell", [("CellID", "b"), ("Path", "B"), ("Controltype", "9")], "", []⟩]⟩,
    ⟨"P", [], "", []⟩]⟩]⟩

/-- A document of this template. -/
def remarkableSource : String :=
  "<T><Section Dynamic='TRUE' TablePath='T'><RowInfo>" ++
    "<Cell CellID='a' Path='A' Controltype='+16' X='' MaxLen='x'/>" ++
    "<Cell CellID='b' Path='B' Controltype='9'/></RowInfo><P/></Section></T>"

theorem ofText_remarks_remarkableSource :
    let r := ofText "T" "01/GTGT" remarkableSource
    r.remarks = [.missingVersion, .ignoredAttribute "Cell" "X", .invalidAttribute "a" "MaxLen" "x",
      .unknownControl "b" "9", .ignoredElement "P" "Section"] ∧
    ∃ t ∈ r.template?,
      t.fields.map (fun f => (f.id, f.control, f.maxLength)) =
        [("a", .number, none), ("b", .text, none)] ∧
      t.sections.map (fun s => s.table?.map fun table => (table.maxRows, table.offsets)) =
        [some (0, ⟨0, 0⟩)] := by
  have hread : Xml.readRoot "T" remarkableSource = .ok remarkableForm := by decide +kernel
  generalize remarkableSource = source at hread ⊢
  have h := ofText_remarks "T" "01/GTGT" source
  rw [hread] at h
  obtain ⟨hremarks, -, hwhole, htemplate⟩ := h
  have hsome : IsWhole remarkableForm := ⟨by decide +kernel, by decide +kernel⟩
  obtain ⟨t, ht⟩ := Option.isSome_iff_exists.1 (hwhole.2 hsome)
  obtain ⟨hfields, hnumbers⟩ := htemplate t ht
  refine ⟨hremarks.order.trans (by decide +kernel), t, ht, ?_, ?_⟩
  · rw [hfields]
    decide +kernel
  · rw [hnumbers]
    decide +kernel

end TemplateReading

end Filing
