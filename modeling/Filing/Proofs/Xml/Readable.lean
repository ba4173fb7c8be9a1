import Filing.Proofs.Xml.ReadBack
import Mathlib.Data.List.Nodup

/-!
# Which trees are read

A tag drops a key that it already has, and an element that gets children loses its text. So a tree
that was read repeats no key in an element and has no text beside children, whatever the document
looked like; and such a tree is all that is asked for its document to be read as the tree itself.
-/

namespace Filing.Xml

open Filing.Path (isElementName)

namespace Node

/-- No element repeats a key, and none has a text beside children. -/
inductive IsReadable : Node → Prop where
  | mk {name : String} {attrs : List (String × String)} {text : String} {children : List Node}
      (hnodup : (attrs.map (·.1)).Nodup) (htext : children = [] ∨ text = "")
      (hchildren : ∀ child ∈ children, child.IsReadable) : IsReadable ⟨name, attrs, text, children⟩

theorem IsReadable.tidy_eq {node : Node} (h : node.IsReadable) : node.tidy = node := by
  induction node using Node.induct with
  | step name attrs text children ih =>
    cases h with
    | mk hnodup htext hchildren =>
      have hall : children.map Node.tidy = children := by
        conv => rhs; rw [← List.map_id children]
        exact List.map_congr_left fun child hchild => ih child hchild (hchildren child hchild)
      rw [tidy, hall]
      rcases htext with rfl | rfl
      · rfl
      · rw [ite_self]

theorem HasElementNames.isWritable {node : Node} (h : node.HasElementNames)
    (hread : node.IsReadable) : node.IsWritable := by
  induction node using Node.induct with
  | step name attrs text children ih =>
    cases h with
    | mk hname hkeys hnames =>
      cases hread with
      | mk hnodup _ hchildren =>
        exact .mk hname hkeys hnodup fun child hchild =>
          ih child hchild (hnames child hchild) (hchildren child hchild)

end Node

/-! ## The tag of an element -/

/-- An element has nothing in it when its tag has been read, and its keys are those of the tag. -/
theorem eq_of_elementOf {body : List Char} {node : Node} (h : elementOf body = .ok node) :
    ∃ name attrs, node = { name, attrs } ∧ (attrs.map (·.1)).Nodup := by
  obtain ⟨attrs, hattrs, rfl⟩ := elementOf_eq_ok_iff.1 h
  refine ⟨_, attrs, rfl, ?_⟩
  have hkey : ∀ (a : RawAttribute) b, a.resolve = .ok b → b.1 = String.ofList a.key := by
    intro a b hb
    obtain ⟨value, -, rfl⟩ := RawAttribute.resolve_eq_ok_iff.1 hb
    rfl
  have hraw := nodup_keys_attributes [] (skipWord body)
  have hinj : Function.Injective String.ofList := fun _ _ heq => String.ofList_injective heq
  rw [map_eq_map_of_mapM hkey hattrs, ← Function.comp_def String.ofList RawAttribute.key,
    ← List.map_map]
  exact hraw.map hinj

/-! ## Reading piece by piece -/

/-- An open element repeats no key, and its children are readable. -/
structure Pending.IsReadable (p : Pending) : Prop where
  nodup : (p.node.attrs.map (·.1)).Nodup
  children : ∀ child ∈ p.children, child.IsReadable

/-- What is open and what is closed is readable. -/
structure Progress.IsReadable (st : Progress) : Prop where
  pending : ∀ p ∈ st.pending, p.IsReadable
  root : ∀ node, st.root = some node → node.IsReadable

theorem Pending.IsReadable.close {p : Pending} (h : p.IsReadable) : p.close.IsReadable := by
  obtain ⟨⟨name, attrs, text, inner⟩, children⟩ := p
  unfold Pending.close
  cases children with
  | nil => exact .mk h.nodup (.inl rfl) fun child hchild => absurd hchild List.not_mem_nil
  | cons last others =>
    exact .mk h.nodup (.inr rfl) fun child hchild => h.children child (List.mem_reverse.1 hchild)

namespace Progress.IsReadable

variable {st st' : Progress}

theorem attach (h : st.IsReadable) {node : Node} (hnode : node.IsReadable)
    (hst : st.attach node = .ok st') : st'.IsReadable := by
  unfold Progress.attach at hst
  split at hst
  · next top below hpending =>
    rw [← Except.ok.inj hst]
    have hall := List.forall_mem_cons.1 (hpending ▸ h.pending)
    refine ⟨List.forall_mem_cons.2 ⟨⟨hall.1.nodup, ?_⟩, hall.2⟩, h.root⟩
    exact List.forall_mem_cons.2 ⟨hnode, hall.1.children⟩
  · split at hst
    · cases hst
    · rw [← Except.ok.inj hst]
      refine ⟨h.pending, fun root hroot => ?_⟩
      rwa [← Option.some.inj hroot]

/-- What is added to the text of an open element goes when it gets a child. -/
theorem addText (h : st.IsReadable) {top : Pending} {below : List Pending}
    (hpending : st.pending = top :: below) (text : List Char) :
    IsReadable { st with pending := top.addText text :: below } := by
  have hall := List.forall_mem_cons.1 (hpending ▸ h.pending)
  exact ⟨List.forall_mem_cons.2 ⟨⟨hall.1.nodup, hall.1.children⟩, hall.2⟩, h.root⟩

theorem step (h : st.IsReadable) {piece : Token} (hst : st.step piece = .ok st') :
    st'.IsReadable := by
  cases piece with
  | text raw =>
    simp only [Progress.step] at hst
    split at hst
    · rwa [← Except.ok.inj hst]
    · next top below hpending =>
      split at hst
      · rw [← Except.ok.inj hst]
        exact h.addText hpending _
      · cases hst
  | cdata content =>
    simp only [Progress.step] at hst
    split at hst
    · rwa [← Except.ok.inj hst]
    · next top below hpending =>
      rw [← Except.ok.inj hst]
      exact h.addText hpending _
  | startTag body =>
    simp only [Progress.step] at hst
    split at hst
    · next node hnode =>
      obtain ⟨name, attrs, rfl, hnodup⟩ := eq_of_elementOf hnode
      rw [← Except.ok.inj hst]
      refine ⟨List.forall_mem_cons.2 ⟨⟨hnodup, ?_⟩, h.pending⟩, h.root⟩
      exact fun child hchild => absurd hchild List.not_mem_nil
    · cases hst
  | emptyTag body =>
    simp only [Progress.step] at hst
    split at hst
    · next node hnode =>
      obtain ⟨name, attrs, rfl, hnodup⟩ := eq_of_elementOf hnode
      refine h.attach (.mk hnodup (.inl rfl) ?_) hst
      exact fun child hchild => absurd hchild List.not_mem_nil
    · cases hst
  | endTag name =>
    simp only [Progress.step] at hst
    split at hst
    · cases hst
    · next top below hpending =>
      have hall := List.forall_mem_cons.1 (hpending ▸ h.pending)
      have hbelow : IsReadable { st with pending := below } := ⟨hall.2, h.root⟩
      split at hst
      · exact hbelow.attach hall.1.close hst
      · cases hst
  | aside =>
    simp only [Progress.step] at hst
    rwa [← Except.ok.inj hst]

theorem finish (h : st.IsReadable) {position : Nat} {root : Node}
    (hroot : st.finish position = .ok (some root)) : root.IsReadable := by
  unfold Progress.finish at hroot
  split at hroot
  · cases hroot
  · exact h.root root (Except.ok.inj hroot)

/-- What holds of each step holds of a whole document. -/
theorem readFrom (h : st.IsReadable) {position : Nat} {s : List Char} {root : Node}
    (hroot : readFrom position st s = .ok (some root)) : root.IsReadable := by
  fun_induction Xml.readFrom position st s with
  | case1 position st => exact h.finish hroot
  | case2 => cases hroot
  | case3 => cases hroot
  | case4 position st c rest cut hcut hlength st' hst ih => exact ih (h.step hst) hroot

end Progress.IsReadable

/-- Whatever is read is readable. -/
theorem isReadable_of_read {source : String} {root : Node} (h : read source = .ok (some root)) :
    root.IsReadable := by
  have hstart : Progress.IsReadable {} :=
    ⟨fun p hp => absurd hp List.not_mem_nil, fun root hroot => by cases hroot⟩
  unfold read at h
  split at h
  · exact hstart.readFrom h
  · exact hstart.readFrom h

/-! ## Reading and writing -/

/-- A tree with element names is read back from its document exactly when it is readable; all trees
that are read are; so a document with element names can be written and read again without loss. -/
theorem read_document_iff_isReadable :
    (∀ root : Node, root.HasElementNames →
      (read root.document = .ok (some root) ↔ root.IsReadable)) ∧
    (∀ (source : String) (root : Node), read source = .ok (some root) → root.IsReadable) ∧
    ∀ (source : String) (root : Node), read source = .ok (some root) → root.HasElementNames →
      read root.document = .ok (some root) := by
  have hback : ∀ root : Node, root.HasElementNames → root.IsReadable →
      read root.document = .ok (some root) := by
    intro root hnames hread
    have hdoc := read_document (hnames.isWritable hread)
    rwa [hread.tidy_eq] at hdoc
  refine ⟨fun root hnames => ⟨isReadable_of_read, hback root hnames⟩,
    fun source root => isReadable_of_read, fun source root h hnames => ?_⟩
  exact hback root hnames (isReadable_of_read h)

/-- A tree with blanks around a text, line breaks and every character that is escaped. -/
def quotedTree : Node where
  name := "Doc"
  attrs := [("code", "<'01' & \"02\">\r\n"), ("ngày", "  ")]
  children := [{ name := "A", children := [{ name := "b", text := "\n  x < y & \"z\" > 'w'\t " }] },
    { name := "A" }]

theorem hasElementNames_quotedTree : quotedTree.HasElementNames := by
  have hleaf : ∀ (name text : String), isElementName name = true →
      Node.HasElementNames ⟨name, [], text, []⟩ := fun name text h => .mk h (by simp) (by simp)
  refine .mk (by decide +kernel) (by decide +kernel) ?_
  simp only [List.forall_mem_cons]
  refine ⟨.mk (by decide +kernel) (by simp) ?_, hleaf _ _ (by decide +kernel), by simp⟩
  simp only [List.forall_mem_cons]
  exact ⟨hleaf _ _ (by decide +kernel), by simp⟩

theorem isReadable_quotedTree : quotedTree.IsReadable := by
  have hleaf : ∀ (name text : String), Node.IsReadable ⟨name, [], text, []⟩ := fun name text =>
    .mk List.nodup_nil (.inl rfl) (by simp)
  refine .mk (by decide +kernel) (.inr rfl) ?_
  simp only [List.forall_mem_cons]
  refine ⟨.mk List.nodup_nil (.inr rfl) ?_, hleaf _ _, by simp⟩
  simp only [List.forall_mem_cons]
  exact ⟨hleaf _ _, by simp⟩

/-- The tree of a document that repeats a key and has a text beside a child. -/
def looseTree : Node where
  name := "D"
  attrs := [("a", "1")]
  children := [{ name := "B", text := " y " }]

theorem read_document_quotedTree :
    (quotedTree.HasElementNames ∧ quotedTree.IsReadable ∧
      read quotedTree.document = .ok (some quotedTree)) ∧
    read "<D a='1' a='2'>x<B> y </B></D>" = .ok (some looseTree) ∧ looseTree.HasElementNames ∧
      looseTree.IsReadable ∧ read looseTree.document = .ok (some looseTree) := by
  have hloose : read "<D a='1' a='2'>x<B> y </B></D>" = .ok (some looseTree) := by
    decide +kernel
  have hnames : looseTree.HasElementNames := by
    refine .mk (by decide +kernel) (by decide +kernel) ?_
    simp only [List.forall_mem_cons]
    exact ⟨.mk (by decide +kernel) (by simp) (by simp), by simp⟩
  obtain ⟨hiff, hreadable, hback⟩ := read_document_iff_isReadable
  exact ⟨⟨hasElementNames_quotedTree, isReadable_quotedTree,
      (hiff quotedTree hasElementNames_quotedTree).2 isReadable_quotedTree⟩,
    hloose, hnames, hreadable _ _ hloose, hback _ _ hloose hnames⟩

end Filing.Xml
