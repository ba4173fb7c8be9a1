import Filing.Proofs.Xml.Paths
import Filing.Proofs.Xml.Written

/-!
# Sequences of edits

A declaration is built by edits of two kinds: one puts a text at a path, the other appends elements,
all of one name, below a path. An edit takes nothing away, so a path along which it went stays; and
it is not seen at a path that it *spares*. So a text is found when every other edit spares its path,
and appended elements are found when no other edit goes through one of them.
-/

namespace Filing.Xml

open Node
open Filing.Path (isElementName)

/-- One change of a tree. -/
inductive Edit where
  /-- Puts a text at a path. -/
  | text (path : List String) (content : String)
  /-- Appends elements below a path. -/
  | append (path : List String) (nodes : List Node)

namespace Edit

/-- The path along which an edit goes. -/
def path : Edit → List String
  | .text path _ => path
  | .append path _ => path

/-- The elements that an edit appends. -/
def nodes : Edit → List Node
  | .text _ _ => []
  | .append _ nodes => nodes

/-- What an edit does to the element at its path. -/
def onTarget : Edit → Node → Node
  | .text _ content, node => { node with text := content }
  | .append _ nodes, node => { node with children := node.children ++ nodes }

/-- The tree after an edit. -/
def apply (e : Edit) (node : Node) : Node := change e.onTarget e.path node

/-- The tree after several edits, one after the other. -/
def applyAll (edits : List Edit) (node : Node) : Node :=
  edits.foldl (fun node e => e.apply node) node

theorem keepsName_onTarget (e : Edit) : KeepsName e.onTarget := by
  cases e <;> exact fun _ => rfl

theorem applyAll_append (edits more : List Edit) (node : Node) :
    applyAll (edits ++ more) node = applyAll more (applyAll edits node) :=
  List.foldl_append

/-- The children of the changed element: those from before, and the ones appended. -/
theorem children_onTarget (e : Edit) (node : Node) :
    (e.onTarget node).children = node.children ++ e.nodes := by
  cases e <;> simp [onTarget, nodes]

theorem name_applyAll (edits : List Edit) (node : Node) :
    (applyAll edits node).name = node.name := by
  induction edits generalizing node with
  | nil => rfl
  | cons e edits ih => exact (ih _).trans (keepsName_change e.keepsName_onTarget e.path node)

/-! ## Nothing is taken away -/

theorem attrs_apply (e : Edit) (node : Node) : (e.apply node).attrs = node.attrs := by
  unfold apply
  cases e.path with
  | nil => cases e <;> rfl
  | cons name path => rfl

theorem attrs_applyAll (edits : List Edit) (node : Node) :
    (applyAll edits node).attrs = node.attrs := by
  induction edits generalizing node with
  | nil => rfl
  | cons e edits ih => exact (ih _).trans (e.attrs_apply node)

/-- What is found stays to be found below the changed element. -/
theorem isSome_follow?_onTarget (e : Edit) {path : List String} {node : Node}
    (h : (follow? path node).isSome) : (follow? path (e.onTarget node)).isSome := by
  cases path with
  | nil => rfl
  | cons name path =>
    rw [follow?] at h ⊢
    rw [child?, children_onTarget, List.find?_append]
    cases hc : node.child? name with
    | none => rw [hc] at h; exact absurd h (by simp)
    | some child =>
      rw [child?] at hc
      rw [child?, hc] at h
      rwa [hc, Option.some_or]

/-- A path that leads somewhere does so after an edit. -/
theorem isSome_follow?_apply (e : Edit) {path : List String} {node : Node}
    (h : (follow? path node).isSome) : (follow? path (e.apply node)).isSome := by
  unfold apply
  by_cases hthrough : path <+: e.path
  · obtain ⟨more, hmore⟩ := hthrough
    rw [← hmore, follow?_change_of_append e.keepsName_onTarget]
    rfl
  · by_cases hbelow : e.path <+: path
    · obtain ⟨more, rfl⟩ := hbelow
      have hne : more ≠ [] := by
        rintro rfl
        exact hthrough (by simp)
      rw [follow?_change_append e.keepsName_onTarget]
      apply isSome_follow?_onTarget
      rwa [follow?_reach hne]
    · rwa [follow?_change_of_part e.keepsName_onTarget hbelow hthrough]

theorem isSome_follow?_applyAll (edits : List Edit) {path : List String} {node : Node}
    (h : (follow? path node).isSome) : (follow? path (applyAll edits node)).isSome := by
  induction edits generalizing node with
  | nil => exact h
  | cons e edits ih => exact ih (e.isSome_follow?_apply h)

/-- Every path along which an edit went leads somewhere. -/
theorem isSome_follow?_of_mem {edits : List Edit} {e : Edit} (he : e ∈ edits) {path : List String}
    (hpath : path <+: e.path) (node : Node) : (follow? path (applyAll edits node)).isSome := by
  obtain ⟨before, after, rfl⟩ := List.append_of_mem he
  rw [applyAll_append]
  refine isSome_follow?_applyAll after ?_
  obtain ⟨more, hmore⟩ := hpath
  show (follow? path (change e.onTarget e.path _)).isSome
  rw [← hmore, follow?_change_of_append e.keepsName_onTarget]
  rfl

/-- Below a path at which elements were appended their name leads somewhere. -/
theorem isSome_follow?_of_mem_nodes {edits : List Edit} {e : Edit} (he : e ∈ edits) {child : Node}
    (hchild : child ∈ e.nodes) (node : Node) :
    (follow? (e.path ++ [child.name]) (applyAll edits node)).isSome := by
  obtain ⟨before, after, rfl⟩ := List.append_of_mem he
  rw [applyAll_append]
  refine isSome_follow?_applyAll after ?_
  show (follow? (e.path ++ [child.name]) (change e.onTarget e.path _)).isSome
  rw [follow?_change_append e.keepsName_onTarget, follow?, child?, children_onTarget]
  have hmem : ∃ c ∈ (reach e.path (applyAll before node)).children ++ e.nodes,
      (c.name == child.name) = true := ⟨child, List.mem_append_right _ hchild, by simp⟩
  obtain ⟨c, hc⟩ := Option.isSome_iff_exists.1 (List.find?_isSome.2 hmem)
  rw [hc]
  rfl

/-! ## Paths that are spared -/

/-- The edit is not seen at the path: it does not go through it, and when it appends elements named
`row` the path does not go through one of them. Appending no elements at the path is not seen
either. -/
structure Spares (row : String) (e : Edit) (path : List String) : Prop where
  /-- The edit does not go further than the path. -/
  through : path <+: e.path → e.path = path ∧ ∃ p, e = .append p []
  /-- The path does not go through what is appended. -/
  appended : e.nodes ≠ [] → ¬ e.path ++ [row] <+: path

/-- All elements that an edit appends have one name. -/
def AppendsOnly (row : String) (e : Edit) : Prop := ∀ node ∈ e.nodes, node.name = row

variable {row : String}

/-- Below its target an edit is not seen along a path that avoids what it appends. -/
theorem follow?_onTarget {e : Edit} (hrow : e.AppendsOnly row) {more : List String}
    (hmore : more ≠ []) (h : e.nodes ≠ [] → ¬ [row] <+: more) (node : Node) :
    follow? more (e.onTarget node) = follow? more node := by
  cases more with
  | nil => exact absurd rfl hmore
  | cons name more =>
    have hnone : e.nodes.find? (·.name == name) = none := by
      rw [List.find?_eq_none]
      intro child hchild heq
      have hname : child.name = name := by simpa using heq
      apply h (List.ne_nil_of_mem hchild)
      rw [← hname, hrow child hchild]
      exact ⟨more, rfl⟩
    rw [follow?, follow?, child?, child?, children_onTarget, List.find?_append, hnone,
      Option.or_none]

/-- An edit that does not go through a path is not seen there. -/
theorem follow?_apply_of_not_through {e : Edit} (hrow : e.AppendsOnly row) {path : List String}
    (hthrough : ¬ path <+: e.path) (happended : e.nodes ≠ [] → ¬ e.path ++ [row] <+: path)
    (node : Node) : follow? path (e.apply node) = follow? path node := by
  unfold apply
  by_cases hbelow : e.path <+: path
  · obtain ⟨more, rfl⟩ := hbelow
    have hne : more ≠ [] := by
      rintro rfl
      exact hthrough (by simp)
    rw [follow?_change_append e.keepsName_onTarget, follow?_onTarget hrow hne, follow?_reach hne]
    intro hnodes hstart
    exact happended hnodes ((List.prefix_append_right_inj e.path).2 hstart)
  · rw [follow?_change_of_part e.keepsName_onTarget hbelow hthrough]

/-- At a path that is spared the same element is reached. -/
theorem reach_apply_of_spares {e : Edit} (hrow : e.AppendsOnly row) {path : List String}
    (h : e.Spares row path) (node : Node) : reach path (e.apply node) = reach path node := by
  by_cases hthrough : path <+: e.path
  · obtain ⟨heq, p, rfl⟩ := h.through hthrough
    subst heq
    have hself := reach_of_follow? (follow?_change_self (keepsName_onTarget (.append p [])) p node)
    show reach p (change _ p node) = reach p node
    rw [hself, onTarget, List.append_nil]
    cases reach p node
    rfl
  · exact reach_congr (follow?_apply_of_not_through hrow hthrough h.appended node)

/-- Where no edit goes there is what was there before. -/
theorem follow?_applyAll_of_not_through {edits : List Edit}
    (hrow : ∀ e ∈ edits, e.AppendsOnly row) {path : List String}
    (hthrough : ∀ e ∈ edits, ¬ path <+: e.path)
    (happended : ∀ e ∈ edits, e.nodes ≠ [] → ¬ e.path ++ [row] <+: path) (node : Node) :
    follow? path (applyAll edits node) = follow? path node := by
  induction edits generalizing node with
  | nil => rfl
  | cons e edits ih =>
    show follow? path (applyAll edits (e.apply node)) = follow? path node
    rw [ih (fun e' he' => hrow e' (List.mem_cons_of_mem _ he'))
      (fun e' he' => hthrough e' (List.mem_cons_of_mem _ he'))
      (fun e' he' => happended e' (List.mem_cons_of_mem _ he'))]
    exact follow?_apply_of_not_through (hrow e List.mem_cons_self) (hthrough e List.mem_cons_self)
      (happended e List.mem_cons_self) node

theorem reach_applyAll_of_spares {edits : List Edit} (hrow : ∀ e ∈ edits, e.AppendsOnly row)
    {path : List String} (h : ∀ e ∈ edits, e.Spares row path) (node : Node) :
    reach path (applyAll edits node) = reach path node := by
  induction edits generalizing node with
  | nil => rfl
  | cons e edits ih =>
    show reach path (applyAll edits (e.apply node)) = reach path node
    rw [ih (fun e' he' => hrow e' (List.mem_cons_of_mem _ he'))
      (fun e' he' => h e' (List.mem_cons_of_mem _ he'))]
    exact reach_apply_of_spares (hrow e List.mem_cons_self) (h e List.mem_cons_self) node

/-- A text is found at its path when all other edits spare the path and the tree ended there. -/
theorem follow?_applyAll_text {before after : List Edit} {path : List String} {content : String}
    (hrow : ∀ e ∈ before ++ after, e.AppendsOnly row)
    (h : ∀ e ∈ before ++ after, e.Spares row path) {node : Node}
    (hend : (reach path node).children = []) :
    ∃ found, follow? path (applyAll (before ++ .text path content :: after) node) = some found ∧
      found.text = content ∧ found.children = [] := by
  have hsome : (follow? path (applyAll (before ++ .text path content :: after) node)).isSome :=
    isSome_follow?_of_mem (List.mem_append_right _ List.mem_cons_self) (List.prefix_refl path) node
  obtain ⟨found, hfound⟩ := Option.isSome_iff_exists.1 hsome
  refine ⟨found, hfound, ?_⟩
  have hbefore : reach path (applyAll before node) = reach path node :=
    reach_applyAll_of_spares (fun e he => hrow e (List.mem_append_left _ he))
      (fun e he => h e (List.mem_append_left _ he)) node
  have hself : reach path (apply (.text path content) (applyAll before node)) =
      { reach path node with text := content } := by
    rw [← hbefore]
    exact reach_of_follow? (follow?_change_self (keepsName_onTarget (.text path content)) path _)
  have hafter : found = { reach path node with text := content } := by
    rw [← hself, ← reach_of_follow? hfound, applyAll_append]
    exact reach_applyAll_of_spares (fun e he => hrow e (List.mem_append_right _ he))
      (fun e he => h e (List.mem_append_right _ he)) _
  rw [hafter]
  exact ⟨rfl, hend⟩

/-! ## Appended elements -/

/-- The edit does not go through a child named `row` of the element at the path, and adds none. -/
structure KeepsRows (row : String) (e : Edit) (path : List String) : Prop where
  /-- The edit does not go through such a child. -/
  through : ¬ path ++ [row] <+: e.path
  /-- The edit appends nothing at the path. -/
  own : e.path = path → e.nodes = []
  /-- The path does not go through what is appended. -/
  appended : e.nodes ≠ [] → ¬ e.path ++ [row] <+: path

theorem childrenNamed_reach_apply {e : Edit} (hrow : e.AppendsOnly row) {path : List String}
    (h : e.KeepsRows row path) (node : Node) :
    (reach path (e.apply node)).childrenNamed row = (reach path node).childrenNamed row := by
  by_cases hthrough : path <+: e.path
  · obtain ⟨more, hmore⟩ := hthrough
    have hreach := reach_of_follow?
      (follow?_change_of_append e.keepsName_onTarget path more node)
    unfold apply
    rw [← hmore, hreach]
    cases more with
    | nil =>
      have hown := h.own (by rw [← hmore, List.append_nil])
      rw [change, childrenNamed, children_onTarget, hown, List.append_nil]
      rfl
    | cons name more =>
      have hne : row ≠ name := by
        rintro rfl
        exact h.through ⟨more, by rw [← hmore]; simp⟩
      exact childrenNamed_change_of_ne e.keepsName_onTarget hne more _
  · rw [reach_apply_of_spares hrow ⟨fun hp => absurd hp hthrough, h.appended⟩]

theorem childrenNamed_reach_applyAll {edits : List Edit} (hrow : ∀ e ∈ edits, e.AppendsOnly row)
    {path : List String} (h : ∀ e ∈ edits, e.KeepsRows row path) (node : Node) :
    (reach path (applyAll edits node)).childrenNamed row =
      (reach path node).childrenNamed row := by
  induction edits generalizing node with
  | nil => rfl
  | cons e edits ih =>
    show (reach path (applyAll edits (e.apply node))).childrenNamed row = _
    rw [ih (fun e' he' => hrow e' (List.mem_cons_of_mem _ he'))
      (fun e' he' => h e' (List.mem_cons_of_mem _ he'))]
    exact childrenNamed_reach_apply (hrow e List.mem_cons_self) (h e List.mem_cons_self) node

/-- Appended elements are found, and none besides, when no other edit goes through one of them or
appends at their path, and there were none before. -/
theorem follow?_applyAll_append {before after : List Edit} {path : List String}
    {nodes : List Node} (hnodes : ∀ node ∈ nodes, node.name = row)
    (hrow : ∀ e ∈ before ++ after, e.AppendsOnly row)
    (h : ∀ e ∈ before ++ after, e.KeepsRows row path) {node : Node}
    (hend : (reach path node).children = []) :
    ∃ found, follow? path (applyAll (before ++ .append path nodes :: after) node) = some found ∧
      found.childrenNamed row = nodes := by
  have hsome : (follow? path (applyAll (before ++ .append path nodes :: after) node)).isSome :=
    isSome_follow?_of_mem (List.mem_append_right _ List.mem_cons_self) (List.prefix_refl path) node
  obtain ⟨found, hfound⟩ := Option.isSome_iff_exists.1 hsome
  refine ⟨found, hfound, ?_⟩
  have hbefore : (reach path (applyAll before node)).childrenNamed row = [] := by
    rw [childrenNamed_reach_applyAll (fun e he => hrow e (List.mem_append_left _ he))
      (fun e he => h e (List.mem_append_left _ he)), childrenNamed, hend]
    rfl
  have hself : (reach path (apply (.append path nodes) (applyAll before node))).childrenNamed row =
      nodes := by
    have hreach := reach_of_follow? (follow?_change_self
      (keepsName_onTarget (.append path nodes)) path (applyAll before node))
    show (reach path (change _ path _)).childrenNamed row = nodes
    rw [hreach, childrenNamed, children_onTarget, List.filter_append]
    show childrenNamed _ row ++ _ = nodes
    rw [hbefore, List.nil_append]
    refine List.filter_eq_self.2 fun child hchild => ?_
    simpa using hnodes child hchild
  rw [← reach_of_follow? hfound, applyAll_append]
  show (reach path (applyAll after (apply (.append path nodes) _))).childrenNamed row = nodes
  rw [childrenNamed_reach_applyAll (fun e he => hrow e (List.mem_append_right _ he))
    (fun e he => h e (List.mem_append_right _ he)), hself]

/-! ## Edits of one kind at different paths -/

/-- The edit puts a text. -/
def isText : Edit → Bool
  | .text _ _ => true
  | .append _ _ => false

/-- Two edits of one kind go to different paths. -/
def Apart (e other : Edit) : Prop := e.isText = other.isText → e.path ≠ other.path

omit row in
theorem Apart.symm {e other : Edit} (h : e.Apart other) : other.Apart e :=
  fun hkind heq => h hkind.symm heq.symm

omit row in
/-- Where all edits of one kind go to different paths, one of them is apart from all others. -/
theorem exists_split_of_pairwise {edits : List Edit} (h : edits.Pairwise Apart) {e : Edit}
    (he : e ∈ edits) : ∃ before after, edits = before ++ e :: after ∧
      ∀ other ∈ before ++ after, other ∈ edits ∧ e.Apart other := by
  obtain ⟨before, after, rfl⟩ := List.append_of_mem he
  obtain ⟨-, hright, hcross⟩ := List.pairwise_append.1 h
  refine ⟨before, after, rfl, fun other hother => ?_⟩
  rcases List.mem_append.1 hother with hmem | hmem
  · exact ⟨by simp [hmem], (hcross other hmem e List.mem_cons_self).symm⟩
  · exact ⟨by simp [hmem], (List.pairwise_cons.1 hright).1 other hmem⟩

/-! ## Trees that can be written -/

omit row in
/-- A change along a path of element names keeps a tree writable when the change at its end does. -/
theorem isWritable_change {f : Node → Node}
    (hf : ∀ node : Node, node.IsWritable → (f node).IsWritable) {path : List String}
    (hpath : ∀ name ∈ path, isElementName name = true) {node : Node} (hnode : node.IsWritable) :
    (change f path node).IsWritable := by
  induction path generalizing node with
  | nil => exact hf node hnode
  | cons name path ih =>
    have ih' : ∀ child : Node, child.IsWritable → (change f path child).IsWritable :=
      fun child => ih fun n hn => hpath n (List.mem_cons_of_mem _ hn)
    cases hnode with
    | @mk own attrs text children hname hkeys hnodup hchildren =>
      refine .mk hname hkeys hnodup ?_
      have hall : ∀ l : List Node, (∀ child ∈ l, child.IsWritable) →
          ∀ child ∈ updateFirst name (change f path) l, child.IsWritable := by
        intro l
        induction l with
        | nil =>
          intro _ child hchild
          rw [updateFirst, List.mem_singleton] at hchild
          rw [hchild]
          exact ih' _ (.mk (hpath name List.mem_cons_self) (by simp) (by simp) (by simp))
        | cons first rest ihl =>
          intro hl child hchild
          have hfirst := hl first List.mem_cons_self
          have hrest := fun c hc => hl c (List.mem_cons_of_mem first hc)
          rw [updateFirst] at hchild
          split at hchild
          · rcases List.mem_cons.1 hchild with rfl | hmem
            · exact ih' first hfirst
            · exact hrest child hmem
          · rcases List.mem_cons.1 hchild with rfl | hmem
            · exact hfirst
            · exact ihl hrest child hmem
      exact hall children hchildren

/-- The edit goes along element names and appends elements that can be written. -/
structure IsWritable (e : Edit) : Prop where
  names : ∀ name ∈ e.path, isElementName name = true
  nodes : ∀ node ∈ e.nodes, node.IsWritable

omit row in
theorem isWritable_apply {e : Edit} (he : e.IsWritable) {node : Node} (hnode : node.IsWritable) :
    (e.apply node).IsWritable := by
  refine isWritable_change (fun node hnode => ?_) he.names hnode
  cases hnode with
  | @mk own attrs text children hname hkeys hnodup hchildren =>
    cases e with
    | text path content => exact .mk hname hkeys hnodup hchildren
    | append path nodes =>
      refine .mk hname hkeys hnodup fun child hchild => ?_
      rcases List.mem_append.1 hchild with hmem | hmem
      · exact hchildren child hmem
      · exact he.nodes child hmem

omit row in
theorem isWritable_applyAll {edits : List Edit} (hedits : ∀ e ∈ edits, e.IsWritable) {node : Node}
    (hnode : node.IsWritable) : (applyAll edits node).IsWritable := by
  induction edits generalizing node with
  | nil => exact hnode
  | cons e edits ih =>
    exact ih (fun e' he' => hedits e' (List.mem_cons_of_mem _ he'))
      (isWritable_apply (hedits e List.mem_cons_self) hnode)

end Edit

/-! ## Looking up what a reader sees -/

theorem Node.comp_tidy (name : String) : ((·.name == name) ∘ Node.tidy) = (·.name == name) := by
  funext node
  rw [Function.comp_apply, name_tidy]

theorem Node.child?_tidy (node : Node) (name : String) :
    node.tidy.child? name = (node.child? name).map Node.tidy := by
  rw [child?, children_tidy, List.find?_map, comp_tidy, child?]

theorem Node.follow?_tidy (path : List String) (node : Node) :
    follow? path node.tidy = (follow? path node).map Node.tidy := by
  induction path generalizing node with
  | nil => rfl
  | cons name path ih =>
    rw [follow?, follow?, child?_tidy]
    cases node.child? name with
    | none => rfl
    | some child => exact ih child

/-- A text with nothing below it is seen. -/
theorem Node.text_find?_tidy {node : Node} {path content : String}
    (h : ∃ found, node.find? path = some found ∧ found.text = content ∧ found.children = []) :
    (node.tidy.find? path).map (·.text) = some content := by
  obtain ⟨found, hfound, htext, hchildren⟩ := h
  rw [find?] at hfound
  rw [find?, follow?_tidy, hfound, Option.map_some, Option.map_some, text_tidy, hchildren, htext]
  rfl

theorem Node.childrenNamed_tidy (node : Node) (name : String) :
    node.tidy.childrenNamed name = (node.childrenNamed name).map Node.tidy := by
  rw [childrenNamed, children_tidy, List.filter_map, comp_tidy, childrenNamed]

end Filing.Xml
