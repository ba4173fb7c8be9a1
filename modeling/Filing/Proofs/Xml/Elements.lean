import Filing.Proofs.Lists
import Filing.Proofs.Xml.Written
import Mathlib.Data.List.Flatten

/-!
# Elements in document order

The elements of a document in the order in which their tags open: each before those below it, and all
of these before its next sibling. The search for the elements with a name goes through the tree in
this order. What stands directly under some of the elements can be listed element by element or in
document order; as long as none of these elements is inside another one it makes no difference.

Main statements: `descendantsNamed_eq_filter`, `flatMap_children_eq_filter_edges`.
-/

namespace Filing.Xml.Node

mutual

/-- The element and those below it, in document order. -/
def elements : Node → List Node
  | ⟨name, attrs, text, children⟩ => ⟨name, attrs, text, children⟩ :: elementsAmong children

/-- The given elements and those below them, in document order. -/
def elementsAmong : List Node → List Node
  | [] => []
  | node :: rest => node.elements ++ elementsAmong rest

end

mutual

/-- The elements below an element in document order, each with the one it is a child of. -/
def edges : Node → List (Node × Node)
  | ⟨name, attrs, text, children⟩ => edgesTo ⟨name, attrs, text, children⟩ children

/-- The same for some of the children of an element, with those below them. -/
def edgesTo : Node → List Node → List (Node × Node)
  | _, [] => []
  | parent, child :: rest => (parent, child) :: child.edges ++ edgesTo parent rest

end

theorem elements_eq (node : Node) : node.elements = node :: node.children.flatMap elements := by
  have hall : ∀ nodes, elementsAmong nodes = nodes.flatMap elements := by
    intro nodes
    induction nodes with
    | nil => rfl
    | cons child nodes ih => rw [elementsAmong, ih, List.flatMap_cons]
  cases node
  rw [elements, hall]

theorem edges_eq (node : Node) :
    node.edges = node.children.flatMap fun child => (node, child) :: child.edges := by
  have hall : ∀ nodes, edgesTo node nodes =
      nodes.flatMap fun child => (node, child) :: child.edges := by
    intro nodes
    induction nodes with
    | nil => rfl
    | cons child nodes ih => rw [edgesTo, ih, List.flatMap_cons]
  cases node
  rw [edges, hall]

theorem self_mem_elements (node : Node) : node ∈ node.elements := by
  rw [elements_eq]
  exact List.mem_cons_self

theorem mem_elements_of_child {node child found : Node} (hchild : child ∈ node.children)
    (hfound : found ∈ child.elements) : found ∈ node.elements.tail := by
  rw [elements_eq]
  exact List.mem_flatMap.2 ⟨child, hchild, hfound⟩

/-- The elements with a name are met in document order. -/
theorem descendantsNamed_eq_filter (name : String) (node : Node) :
    node.descendantsNamed name = node.elements.tail.filter (·.name == name) := by
  induction node using Node.induct with
  | step own attrs text children ih =>
    have hall : ∀ nodes : List Node, (∀ child ∈ nodes, child.descendantsNamed name =
        child.elements.tail.filter (·.name == name)) →
          namedAmong name nodes = (nodes.flatMap elements).filter (·.name == name) := by
      intro nodes hnodes
      induction nodes with
      | nil => rfl
      | cons child nodes ih =>
        obtain ⟨hchild, hnodes⟩ := List.forall_mem_cons.1 hnodes
        rw [List.flatMap_cons, List.filter_append, ← ih hnodes, elements_eq, List.filter_cons,
          namedAmong, hchild, elements_eq, List.tail_cons]
        split <;> rfl
    rw [elements_eq, List.tail_cons]
    exact hall children ih

/-! ## Under some of the elements -/

theorem mem_elements_of_mem_edges {node : Node} {edge : Node × Node} (h : edge ∈ node.edges) :
    edge.1 ∈ node.elements := by
  induction node using Node.induct with
  | step name attrs text children ih =>
    rw [edges_eq] at h
    obtain ⟨child, hchild, hedge⟩ := List.mem_flatMap.1 h
    rcases List.mem_cons.1 hedge with rfl | hedge
    · exact self_mem_elements _
    · exact List.mem_of_mem_tail (mem_elements_of_child hchild (ih child hchild hedge))

/-- None of the elements of a kind is below another one of the kind. -/
def NeverNests (p : Node → Bool) (node : Node) : Prop :=
  ∀ found ∈ node.elements, p found = true → ∀ below ∈ found.elements.tail, p below = false

theorem NeverNests.child {p : Node → Bool} {node child : Node} (h : node.NeverNests p)
    (hchild : child ∈ node.children) : child.NeverNests p :=
  fun found hfound => h found (List.mem_of_mem_tail (mem_elements_of_child hchild hfound))

/-- The children of such elements, element by element, are in document order. -/
theorem flatMap_children_eq_filter_edges {p : Node → Bool} {node : Node} (h : node.NeverNests p) :
    (node.elements.filter p).flatMap (fun found => found.children.map (found, ·)) =
      node.edges.filter (p ·.1) := by
  induction node using Node.induct with
  | step name attrs text children ih =>
    rw [elements_eq, edges_eq, List.filter_flatMap]
    by_cases hp : p ⟨name, attrs, text, children⟩ = true
    · -- none of the kind is below this one, so only the edges from here count
      have hnone : ∀ child ∈ children, ∀ found ∈ child.elements, p found = false :=
        fun child hchild found hfound =>
          h _ (self_mem_elements _) hp found (mem_elements_of_child hchild hfound)
      have hbelow : (children.flatMap elements).filter p = [] := by
        refine filter_eq_nil_of_forall fun found hfound => ?_
        obtain ⟨child, hchild, hfound⟩ := List.mem_flatMap.1 hfound
        exact hnone child hchild found hfound
      have hedges : ∀ child ∈ children,
          List.filter (p ·.1) ((⟨name, attrs, text, children⟩, child) :: child.edges) =
            [(⟨name, attrs, text, children⟩, child)] := by
        intro child hchild
        rw [List.filter_cons, if_pos hp, filter_eq_nil_of_forall fun edge hedge =>
          hnone child hchild _ (mem_elements_of_mem_edges hedge)]
      rw [List.filter_cons_of_pos hp, hbelow, List.flatMap_singleton, List.flatMap_congr hedges,
        List.map_eq_flatMap]
    · rw [List.filter_cons_of_neg hp, List.filter_flatMap, List.flatMap_assoc]
      refine List.flatMap_congr fun child hchild => ?_
      rw [ih child hchild (h.child hchild), List.filter_cons, if_neg hp]

end Filing.Xml.Node
