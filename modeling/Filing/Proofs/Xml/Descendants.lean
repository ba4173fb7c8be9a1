import Filing.Proofs.Xml.Edits
import Mathlib.Data.List.Flatten
import Mathlib.Data.List.Perm.Basic

/-!
# Elements at any depth

The elements with a name are gathered from all depths of a tree. An edit takes none of them away and
brings only those that it appends: the elements that it makes along its path carry no attributes. So
among the elements that carry a certain key, those of an edited tree are the ones from before and the
ones that were appended.
-/

namespace Filing.Xml

namespace Node

/-! ## Gathering -/

theorem descendantsNamed_eq (name : String) (node : Node) :
    node.descendantsNamed name = namedAmong name node.children := by
  cases node
  rfl

theorem namedAmong_eq_flatMap (name : String) (nodes : List Node) :
    namedAmong name nodes = nodes.flatMap fun node =>
      (if node.name = name then [node] else []) ++ node.descendantsNamed name := by
  induction nodes with
  | nil => rfl
  | cons node rest ih =>
    rw [namedAmong, List.flatMap_cons, ← ih]
    by_cases h : node.name = name <;> simp [h]

/-- A reader finds the same elements. -/
theorem descendantsNamed_tidy (name : String) (node : Node) :
    node.tidy.descendantsNamed name = (node.descendantsNamed name).map tidy := by
  induction node using Node.induct with
  | step own attrs text children ih =>
    rw [descendantsNamed_eq, descendantsNamed_eq, namedAmong_eq_flatMap, namedAmong_eq_flatMap,
      children_tidy, List.flatMap_map, List.map_flatMap]
    refine List.flatMap_congr fun child hchild => ?_
    rw [ih child hchild, List.map_append, name_tidy]
    split <;> rfl

/-! ## Elements with a key -/

/-- The attributes of the elements below an element that have a name and carry a key. -/
def bearers (name key : String) (node : Node) : List (List (String × String)) :=
  ((node.descendantsNamed name).filter fun n => (n.attr? key).isSome).map (·.attrs)

/-- The attributes of an element, if it has the name and carries the key. -/
def bearer (name key : String) (node : Node) : List (List (String × String)) :=
  if node.name = name ∧ (node.attr? key).isSome then [node.attrs] else []

variable {name key : String}

theorem bearers_eq (node : Node) : node.bearers name key =
    node.children.flatMap fun child => child.bearer name key ++ child.bearers name key := by
  have hown : ∀ child : Node, (((if child.name = name then [child] else []).filter fun n =>
      (n.attr? key).isSome).map (·.attrs)) = child.bearer name key := by
    intro child
    unfold bearer
    by_cases hname : child.name = name
    · by_cases hkey : (child.attr? key).isSome <;> simp [hname, hkey]
    · simp [hname]
  unfold bearers
  rw [descendantsNamed_eq, namedAmong_eq_flatMap, List.filter_flatMap, List.map_flatMap]
  refine List.flatMap_congr fun child _ => ?_
  rw [List.filter_append, List.map_append, hown]

theorem bearer_congr {node other : Node} (hname : node.name = other.name)
    (hattrs : node.attrs = other.attrs) : node.bearer name key = other.bearer name key := by
  unfold bearer attr?
  rw [hname, hattrs]

theorem bearers_of_children {node : Node} (h : node.children = []) :
    node.bearers name key = [] := by
  rw [bearers_eq, h]
  rfl

theorem bearers_tidy (node : Node) : node.tidy.bearers name key = node.bearers name key := by
  have hkey : ((fun n : Node => (n.attr? key).isSome) ∘ tidy) = fun n => (n.attr? key).isSome := by
    funext n
    rw [Function.comp_apply, attr?, attrs_tidy]
    rfl
  unfold bearers
  rw [descendantsNamed_tidy, List.filter_map, hkey, List.map_map]
  exact List.map_congr_left fun n _ => attrs_tidy n

theorem attrs_change {f : Node → Node} (hf : ∀ n, (f n).attrs = n.attrs) (path : List String)
    (node : Node) : (change f path node).attrs = node.attrs := by
  cases path with
  | nil => exact hf node
  | cons step path => rfl

/-- What a change adds at the end of its path is all that it adds. -/
theorem bearers_change {f : Node → Node} (hname : KeepsName f) (hattrs : ∀ n, (f n).attrs = n.attrs)
    {more : List (List (String × String))}
    (hf : ∀ n : Node, ((f n).bearers name key).Perm (n.bearers name key ++ more))
    (path : List String) (node : Node) :
    ((change f path node).bearers name key).Perm (node.bearers name key ++ more) := by
  induction path generalizing node with
  | nil => exact hf node
  | cons step path ih =>
    have hchild : ∀ child : Node, (change f path child).bearer name key = child.bearer name key :=
      fun child => bearer_congr (keepsName_change hname path child) (attrs_change hattrs path child)
    have hall : ∀ children : List Node,
        ((updateFirst step (change f path) children).flatMap fun c =>
          c.bearer name key ++ c.bearers name key).Perm
        ((children.flatMap fun c => c.bearer name key ++ c.bearers name key) ++ more) := by
      intro children
      induction children with
      | nil =>
        -- the element that is made carries no key
        have hnone : ({ name := step } : Node).bearer name key = [] := by simp [bearer, attr?]
        have hbelow : ({ name := step } : Node).bearers name key = [] := bearers_of_children rfl
        have hmade := ih { name := step }
        rw [hbelow, List.nil_append] at hmade
        rw [updateFirst, List.flatMap_cons, List.flatMap_nil, List.append_nil, hchild, hnone]
        exact hmade
      | cons child rest ihrest =>
        rw [updateFirst]
        split
        · rw [List.flatMap_cons, List.flatMap_cons, hchild, List.append_assoc, List.append_assoc,
            List.append_assoc]
          refine List.Perm.append_left _ ?_
          refine ((ih child).append_right _).trans ?_
          rw [List.append_assoc]
          exact List.Perm.append_left _ List.perm_append_comm
        · rw [List.flatMap_cons, List.flatMap_cons]
          refine (ihrest.append_left _).trans ?_
          rw [List.append_assoc (_ ++ _)]
    rw [bearers_eq, bearers_eq]
    exact hall node.children

end Node

namespace Edit

open Node

variable (name key : String)

/-- What an edit adds: the appended elements and those below them. -/
def brings (e : Edit) : List (List (String × String)) :=
  e.nodes.flatMap fun child => child.bearer name key ++ child.bearers name key

theorem bearers_apply (e : Edit) (node : Node) :
    ((e.apply node).bearers name key).Perm (node.bearers name key ++ e.brings name key) := by
  have hattrs : ∀ n : Node, (e.onTarget n).attrs = n.attrs := by
    intro n
    cases e <;> rfl
  refine bearers_change e.keepsName_onTarget hattrs (fun n => ?_) e.path node
  rw [bearers_eq, bearers_eq, children_onTarget, List.flatMap_append]
  rfl

/-- What several edits add. -/
theorem bearers_applyAll (edits : List Edit) (node : Node) :
    ((applyAll edits node).bearers name key).Perm
      (node.bearers name key ++ edits.flatMap (·.brings name key)) := by
  induction edits generalizing node with
  | nil =>
    rw [List.flatMap_nil, List.append_nil]
    exact List.Perm.refl _
  | cons e edits ih =>
    have hfirst := (e.bearers_apply name key node).append_right
      (edits.flatMap (·.brings name key))
    rw [List.append_assoc] at hfirst
    exact (ih (e.apply node)).trans hfirst

end Edit

end Filing.Xml
