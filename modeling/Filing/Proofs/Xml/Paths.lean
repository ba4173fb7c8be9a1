import Filing.Xml.Node

/-!
# Looking up what was changed

A change at one path is observed at another. The two paths can be the same, one can lead through the
other, or they part somewhere; for each case one equation says what `follow?` finds after `change`
in terms of what it found before. `reach` is the element at a path, or the empty one that a change
would make there.
-/

namespace Filing.Xml.Node

/-! ## First children -/

/-- The change leaves the name of every element as it is. -/
def KeepsName (f : Node → Node) : Prop := ∀ node, (f node).name = node.name

theorem child?_of_childrenNamed {node : Node} {name : String}
    (h : node.childrenNamed name = []) : node.child? name = none := by
  rw [child?, List.find?_eq_none]
  exact List.filter_eq_nil_iff.1 h

theorem find?_updateFirst_self {f : Node → Node} (hf : KeepsName f) (name : String)
    (children : List Node) :
    (updateFirst name f children).find? (·.name == name) =
      some (f ((children.find? (·.name == name)).getD { name })) := by
  induction children with
  | nil => simp [updateFirst, hf _]
  | cons child rest ih =>
    by_cases h : child.name = name
    · simp [updateFirst, h, hf child]
    · simp [updateFirst, h, ih]

theorem find?_updateFirst_of_ne {f : Node → Node} (hf : KeepsName f) {name other : String}
    (h : other ≠ name) (children : List Node) :
    (updateFirst name f children).find? (·.name == other) =
      children.find? (·.name == other) := by
  induction children with
  | nil => simp [updateFirst, hf _, h.symm]
  | cons child rest ih =>
    by_cases hc : child.name = name
    · have hne : child.name ≠ other := fun e => h (e.symm.trans hc)
      simp [updateFirst, hc, hf child, h.symm]
    · by_cases ho : child.name = other
      · simp [updateFirst, ho, h]
      · simp [updateFirst, hc, ho, ih]

theorem filter_updateFirst_of_ne {f : Node → Node} (hf : KeepsName f) {name other : String}
    (h : other ≠ name) (children : List Node) :
    (updateFirst name f children).filter (·.name == other) =
      children.filter (·.name == other) := by
  induction children with
  | nil => simp [updateFirst, hf _, h.symm]
  | cons child rest ih =>
    by_cases hc : child.name = name
    · simp [updateFirst, hc, hf child, h.symm]
    · by_cases ho : child.name = other
      · simp [updateFirst, ho, ih, h]
      · simp [updateFirst, hc, ho, ih]

theorem keepsName_change {f : Node → Node} (hf : KeepsName f) (path : List String) :
    KeepsName (change f path) := by
  cases path with
  | nil => exact hf
  | cons name path => exact fun _ => rfl

theorem child?_change_self {f : Node → Node} (hf : KeepsName f) (name : String)
    (path : List String) (node : Node) :
    (change f (name :: path) node).child? name =
      some (change f path ((node.child? name).getD { name })) :=
  find?_updateFirst_self (keepsName_change hf path) name node.children

theorem child?_change_of_ne {f : Node → Node} (hf : KeepsName f) {name other : String}
    (h : other ≠ name) (path : List String) (node : Node) :
    (change f (name :: path) node).child? other = node.child? other :=
  find?_updateFirst_of_ne (keepsName_change hf path) h node.children

theorem childrenNamed_change_of_ne {f : Node → Node} (hf : KeepsName f) {name other : String}
    (h : other ≠ name) (path : List String) (node : Node) :
    (change f (name :: path) node).childrenNamed other = node.childrenNamed other :=
  filter_updateFirst_of_ne (keepsName_change hf path) h node.children

/-! ## Along a path -/

/-- The element at a path, or the empty element that a change makes there. -/
def reach : List String → Node → Node
  | [], node => node
  | name :: path, node => reach path ((node.child? name).getD { name })

theorem follow?_append (path more : List String) (node : Node) :
    follow? (path ++ more) node = (follow? path node).bind (follow? more) := by
  induction path generalizing node with
  | nil => rfl
  | cons name path ih =>
    rw [List.cons_append, follow?, follow?]
    cases node.child? name with
    | none => rfl
    | some child => exact ih child

/-- A path that leads somewhere does so at each of its steps. -/
theorem isSome_follow?_of_prefix {path other : List String} (hbegins : path <+: other) {node : Node}
    (h : (follow? other node).isSome) : (follow? path node).isSome := by
  obtain ⟨more, rfl⟩ := hbegins
  rw [follow?_append] at h
  cases hfind : follow? path node with
  | some found => rfl
  | none => rw [hfind] at h; exact absurd h (by simp)

/-- Below an element without children nothing is found. -/
theorem follow?_eq_none_of_children {node : Node} (h : node.children = []) {path : List String}
    (hpath : path ≠ []) : follow? path node = none := by
  cases path with
  | nil => exact absurd rfl hpath
  | cons name path => simp [follow?, child?, h]

/-- Where there is nothing, an element without content would be made. -/
theorem reach_eq_of_follow?_eq_none {path : List String} {node : Node}
    (h : follow? path node = none) : reach path node = { name := path.getLastD "" } := by
  induction path generalizing node with
  | nil => exact absurd h (by simp [follow?])
  | cons name path ih =>
    rw [follow?] at h
    rw [reach, List.getLastD_cons]
    cases path with
    | nil =>
      cases hc : node.child? name with
      | some child => rw [hc] at h; exact absurd h (by simp [follow?])
      | none => rfl
    | cons other path =>
      rw [List.getLastD_cons]
      rw [List.getLastD_cons] at ih
      cases hc : node.child? name with
      | some child =>
        rw [hc, Option.bind_some] at h
        exact ih h
      | none => exact ih (follow?_eq_none_of_children rfl (by simp))

/-- Below an element without children one without children would be made. -/
theorem children_reach_of_children {node : Node} (h : node.children = []) (path : List String) :
    (reach path node).children = [] := by
  cases path with
  | nil => exact h
  | cons name path =>
    rw [reach_eq_of_follow?_eq_none (follow?_eq_none_of_children h (by simp))]

/-- What is found at a path is what is reached there. -/
theorem reach_of_follow? {path : List String} {node found : Node}
    (h : follow? path node = some found) : reach path node = found := by
  induction path generalizing node with
  | nil => exact Option.some.inj h
  | cons name path ih =>
    rw [follow?] at h
    rw [reach]
    cases hc : node.child? name with
    | none => rw [hc] at h; exact absurd h (by simp)
    | some child =>
      rw [hc, Option.bind_some] at h
      exact ih h

/-- Below the element that is reached there is what was below the path. -/
theorem follow?_reach {path more : List String} (hmore : more ≠ []) (node : Node) :
    follow? more (reach path node) = follow? (path ++ more) node := by
  rw [follow?_append]
  cases h : follow? path node with
  | some found => rw [reach_of_follow? h]; rfl
  | none =>
    rw [reach_eq_of_follow?_eq_none h]
    exact follow?_eq_none_of_children rfl hmore

/-- What is reached depends on what is found only. -/
theorem reach_congr {path : List String} {node other : Node}
    (h : follow? path node = follow? path other) : reach path node = reach path other := by
  cases hfind : follow? path other with
  | some found => rw [reach_of_follow? hfind, reach_of_follow? (h.trans hfind)]
  | none => rw [reach_eq_of_follow?_eq_none hfind, reach_eq_of_follow?_eq_none (h.trans hfind)]

/-! ## After a change -/

section Change

variable {f : Node → Node} (hf : KeepsName f)

include hf

/-- A path that leads through the changed element goes on in the changed element. -/
theorem follow?_change_append (path more : List String) (node : Node) :
    follow? (path ++ more) (change f path node) = follow? more (f (reach path node)) := by
  induction path generalizing node with
  | nil => rfl
  | cons name path ih =>
    rw [List.cons_append, follow?, child?_change_self hf, Option.bind_some, ih]
    rfl

/-- The changed element is found at its path. -/
theorem follow?_change_self (path : List String) (node : Node) :
    follow? path (change f path node) = some (f (reach path node)) := by
  have h := follow?_change_append hf path [] node
  rwa [List.append_nil] at h

/-- An element on the way to the changed one is found, changed below. -/
theorem follow?_change_of_append (path more : List String) (node : Node) :
    follow? path (change f (path ++ more) node) = some (change f more (reach path node)) := by
  induction path generalizing node with
  | nil => rfl
  | cons name path ih =>
    rw [List.cons_append, follow?, child?_change_self hf, Option.bind_some, ih]
    rfl

/-- Where two paths part, a change at one is not seen at the other. -/
theorem follow?_change_of_part {path other : List String} (h₁ : ¬ path <+: other)
    (h₂ : ¬ other <+: path) (node : Node) :
    follow? other (change f path node) = follow? other node := by
  induction path generalizing other node with
  | nil => exact absurd (List.nil_prefix) h₁
  | cons name path ih =>
    cases other with
    | nil => exact absurd (List.nil_prefix) h₂
    | cons name' other =>
      by_cases hname : name' = name
      · subst hname
        rw [List.cons_prefix_cons, not_and] at h₁ h₂
        rw [follow?, follow?, child?_change_self hf, Option.bind_some,
          ih (h₁ rfl) (h₂ rfl)]
        cases hc : node.child? name' with
        | some child => rfl
        | none =>
          refine follow?_eq_none_of_children rfl fun hnil => ?_
          exact h₂ rfl (hnil ▸ List.nil_prefix)
      · rw [follow?, follow?, child?_change_of_ne hf hname]

end Change

end Filing.Xml.Node
