import Filing.Proofs.Xml.Attributes
import Mathlib.Data.List.Forall2
import Mathlib.Logic.Relation

/-!
# Putting an element into a tree

One element, with all that is below it, is put somewhere among the children of an element that has
some already. Whoever looks up the first child with another name, or all of them, meets the same
elements in the same order as before, each as it was or with the new element somewhere below it. So a
path that does not go by the name of the new element leads to the same place: where it leads, name,
attributes and text are those from before.

An element without children would lose its text by getting one; that is why it is left out here.

Main statements: `MayGain.childrenNamed`, `MayGain.follow?`.
-/

namespace Filing.Xml.Node

open Relation (ReflGen)

/-- The second tree is the first one with `extra` put among the children of one of its elements, which
has some already. -/
inductive Gains (extra : Node) : Node → Node → Prop where
  | here {name : String} {attrs : List (String × String)} {text : String} {before after : List Node}
      (hne : before ++ after ≠ []) :
      Gains extra ⟨name, attrs, text, before ++ after⟩ ⟨name, attrs, text, before ++ extra :: after⟩
  | deeper {name : String} {attrs : List (String × String)} {text : String}
      {before after : List Node} {child other : Node} (hchild : Gains extra child other) :
      Gains extra ⟨name, attrs, text, before ++ child :: after⟩
        ⟨name, attrs, text, before ++ other :: after⟩

/-- The second tree is the first one, or the first one with `extra` put into it. -/
abbrev MayGain (extra : Node) : Node → Node → Prop := ReflGen (Gains extra)

variable {extra node other : Node}

/-! ## What stays -/

namespace Gains

theorem name_eq (h : Gains extra node other) : other.name = node.name := by
  cases h <;> rfl

theorem attrs_eq (h : Gains extra node other) : other.attrs = node.attrs := by
  cases h <;> rfl

theorem text_eq (h : Gains extra node other) : other.text = node.text := by
  cases h <;> rfl

theorem hasElementNames (h : Gains extra node other) (hextra : extra.HasElementNames)
    (hnode : node.HasElementNames) : other.HasElementNames := by
  induction h with
  | here _ =>
    cases hnode with
    | mk hname hkeys hchildren =>
      obtain ⟨hbefore, hafter⟩ := List.forall_mem_append.1 hchildren
      exact .mk hname hkeys
        (List.forall_mem_append.2 ⟨hbefore, List.forall_mem_cons.2 ⟨hextra, hafter⟩⟩)
  | deeper _ ih =>
    cases hnode with
    | mk hname hkeys hchildren =>
      obtain ⟨hbefore, hrest⟩ := List.forall_mem_append.1 hchildren
      obtain ⟨hchild, hafter⟩ := List.forall_mem_cons.1 hrest
      exact .mk hname hkeys
        (List.forall_mem_append.2 ⟨hbefore, List.forall_mem_cons.2 ⟨ih hchild, hafter⟩⟩)

/-- What comes back from the document of the second tree is what comes back from that of the first,
with what comes back of the new element put into it. -/
theorem reread (h : Gains extra node other) : Gains extra.reread node.reread other.reread := by
  induction h with
  | @here name attrs text before after hne =>
    have hempty : (before ++ after).isEmpty = false := by simpa using hne
    rw [reread_append_cons, Node.reread, hempty, List.map_append]
    exact .here fun hnil => hne (List.map_eq_nil_iff.1 (List.map_append.trans hnil))
  | deeper _ ih =>
    rw [reread_append_cons, reread_append_cons]
    exact .deeper ih

end Gains

/-! ## Looking up -/

/-- Children that correspond one by one are found by name one by one. -/
theorem forall₂_filter_name {nodes others : List Node}
    (h : List.Forall₂ (MayGain extra) nodes others) (name : String) :
    List.Forall₂ (MayGain extra) (nodes.filter (·.name == name))
      (others.filter (·.name == name)) := by
  refine List.rel_filter (fun node other hnode => ?_) h
  cases hnode with
  | refl => exact Iff.rfl
  | single hgains => simp only [hgains.name_eq]

theorem forall₂_self (nodes : List Node) : List.Forall₂ (MayGain extra) nodes nodes :=
  List.forall₂_same.2 fun _ _ => .refl

theorem forall₂_replace {before after : List Node} (h : MayGain extra node other) :
    List.Forall₂ (MayGain extra) (before ++ node :: after) (before ++ other :: after) :=
  List.rel_append (forall₂_self before) (.cons h (forall₂_self after))

theorem forall₂_head? {R : Node → Node → Prop} {nodes others : List Node}
    (h : List.Forall₂ R nodes others) : Option.Rel R nodes.head? others.head? := by
  cases h with
  | nil => exact .none
  | cons hfirst _ => exact .some hfirst

theorem map_eq_of_rel {α : Type} {R : Node → Node → Prop} {f : Node → α}
    (hf : ∀ node other, R node other → f other = f node) {found found' : Option Node}
    (h : Option.Rel R found found') : found'.map f = found.map f := by
  cases h with
  | none => rfl
  | some hfound => exact congrArg some (hf _ _ hfound)

theorem map_eq_of_forall₂ {α : Type} {R : Node → Node → Prop} {f : Node → α}
    (hf : ∀ node other, R node other → f other = f node) {nodes others : List Node}
    (h : List.Forall₂ R nodes others) : others.map f = nodes.map f := by
  induction h with
  | nil => rfl
  | cons hfirst _ ih => rw [List.map_cons, List.map_cons, hf _ _ hfirst, ih]

/-- The first with a name among them correspond. -/
theorem rel_find?_name {nodes others : List Node}
    (h : List.Forall₂ (MayGain extra) nodes others) (name : String) :
    Option.Rel (MayGain extra) (nodes.find? (·.name == name)) (others.find? (·.name == name)) := by
  rw [← List.head?_filter, ← List.head?_filter]
  exact forall₂_head? (forall₂_filter_name h name)

namespace MayGain

variable (h : MayGain extra node other)

include h

theorem attrs_eq : other.attrs = node.attrs := by
  cases h with
  | refl => rfl
  | single hgains => exact hgains.attrs_eq

theorem text_eq : other.text = node.text := by
  cases h with
  | refl => rfl
  | single hgains => exact hgains.text_eq

/-- The children with another name are the same, one by one. -/
theorem childrenNamed {name : String} (hname : extra.name ≠ name) :
    List.Forall₂ (MayGain extra) (node.childrenNamed name) (other.childrenNamed name) := by
  cases h with
  | refl => exact forall₂_self _
  | single hgains =>
    cases hgains with
    | @here _ _ _ before after hne =>
      have hskip : (before ++ extra :: after).filter (·.name == name) =
          (before ++ after).filter (·.name == name) := by
        rw [List.filter_append, List.filter_append, List.filter_cons_of_neg (by simpa using hname)]
      rw [Node.childrenNamed, Node.childrenNamed, hskip]
      exact forall₂_self _
    | deeper hchild => exact forall₂_filter_name (forall₂_replace (.single hchild)) name

theorem child? {name : String} (hname : extra.name ≠ name) :
    Option.Rel (MayGain extra) (node.child? name) (other.child? name) := by
  rw [Node.child?, Node.child?, ← List.head?_filter, ← List.head?_filter]
  exact forall₂_head? (h.childrenNamed hname)

/-- A path that does not go by the name of the new element leads to the same place. -/
theorem follow? {path : List String} (hpath : extra.name ∉ path) :
    Option.Rel (MayGain extra) (follow? path node) (follow? path other) := by
  induction path generalizing node other with
  | nil => exact .some h
  | cons name path ih =>
    obtain ⟨hname, hpath⟩ := List.ne_and_not_mem_of_not_mem_cons hpath
    have hchild := h.child? hname
    rw [Node.follow?, Node.follow?]
    -- both paths end here, or both go on from children that are such a pair again
    generalize node.child? name = found at hchild ⊢
    generalize other.child? name = found' at hchild ⊢
    cases hchild with
    | none => exact .none
    | some hchild => exact ih hchild hpath

theorem find? {path : String} (hpath : extra.name ∉ Path.segments path) :
    Option.Rel (MayGain extra) (node.find? path) (other.find? path) :=
  h.follow? hpath

/-- The text at such a path is the same. -/
theorem text_find? {path : String} (hpath : extra.name ∉ Path.segments path) :
    (other.find? path).map (·.text) = (node.find? path).map (·.text) :=
  map_eq_of_rel (fun _ _ hfound => hfound.text_eq) (h.find? hpath)

end MayGain

end Filing.Xml.Node
