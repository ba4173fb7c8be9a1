import Filing.Proofs.Segments
import Filing.Proofs.Xml.Paths
import Filing.Proofs.Xml.Written
import Mathlib.Data.List.Forall2
import Mathlib.Data.List.Induction

/-!
# Texts by path

A tree answers paths like a map. A text that is placed at a path is found there, and placing it again
changes nothing; at every other path there is the element from before, or, if there was none, at most
an empty one that was made on the way to the new text. No element is taken away, renamed or put
somewhere else among its siblings: what is made comes after those that were there.

So after any number of placements each path answers with the text that was placed there last.

Main statement: `Node.isPlacement_and_text_find?_placeAll`.
-/

namespace Filing.Xml.Node

open Filing.Path (segments)

/-! ## Placing once -/

/-- The change that puts a text into an element. -/
def putText (text : String) (node : Node) : Node := { node with text }

theorem keepsName_putText (text : String) : KeepsName (putText text) := fun _ => rfl

theorem find?_place_self (node : Node) (path text : String) :
    (node.place path text).find? path = some (putText text (reach (segments path) node)) :=
  follow?_change_self (keepsName_putText text) (segments path) node

/-- A path that leads through the new text and on finds what was there. -/
theorem find?_place_of_below {path other : String} (h : segments path <+: segments other)
    (hne : other ≠ path) (node : Node) (text : String) :
    (node.place path text).find? other = node.find? other := by
  obtain ⟨more, hmore⟩ := h
  have hnil : more ≠ [] := by
    rintro rfl
    exact hne (Path.segments_injective (by rw [← hmore, List.append_nil]))
  have hsame : follow? more (putText text (reach (segments path) node)) =
      follow? more (reach (segments path) node) := by
    cases more with
    | nil => exact absurd rfl hnil
    | cons name more => rfl
  show follow? (segments other) (change (putText text) (segments path) node) = _
  rw [← hmore, follow?_change_append (keepsName_putText text), hsame, follow?_reach hnil, hmore]
  rfl

/-- An element on the way to the new text is only changed below. -/
theorem find?_place_of_above {path other : String} (h : segments other <+: segments path)
    (hne : other ≠ path) (node : Node) (text : String) :
    ∃ found, (node.place path text).find? other = some found ∧
      found.name = (reach (segments other) node).name ∧
      found.attrs = (reach (segments other) node).attrs ∧
      found.text = (reach (segments other) node).text := by
  obtain ⟨more, hmore⟩ := h
  refine ⟨change (putText text) more (reach (segments other) node), ?_, ?_⟩
  · show follow? (segments other) (change (putText text) (segments path) node) = _
    rw [← hmore]
    exact follow?_change_of_append (keepsName_putText text) (segments other) more node
  · cases more with
    | nil => exact absurd (Path.segments_injective (by rw [← hmore, List.append_nil])) hne
    | cons name more => exact ⟨rfl, rfl, rfl⟩

theorem find?_place_of_part {path other : String} (habove : ¬ segments other <+: segments path)
    (hbelow : ¬ segments path <+: segments other) (node : Node) (text : String) :
    (node.place path text).find? other = node.find? other :=
  follow?_change_of_part (keepsName_putText text) hbelow habove node

/-- Off the way to the new text nothing has changed. -/
theorem find?_place_of_not_above {path other : String} (h : ¬ segments other <+: segments path)
    (node : Node) (text : String) : (node.place path text).find? other = node.find? other := by
  by_cases hbelow : segments path <+: segments other
  · refine find?_place_of_below hbelow ?_ node text
    rintro rfl
    exact h (List.prefix_refl _)
  · exact find?_place_of_part h hbelow node text

/-- An element that is found at another path is found again, with what it holds itself. -/
theorem exists_find?_place {path other : String} (hne : other ≠ path) {node found : Node}
    (h : node.find? other = some found) (text : String) :
    ∃ now, (node.place path text).find? other = some now ∧
      now.name = found.name ∧ now.attrs = found.attrs ∧ now.text = found.text := by
  by_cases habove : segments other <+: segments path
  · have hreach : reach (segments other) node = found := reach_of_follow? h
    have hnow := find?_place_of_above habove hne node text
    rwa [hreach] at hnow
  · exact ⟨found, (find?_place_of_not_above habove node text).trans h, rfl, rfl, rfl⟩

/-- Elsewhere only the elements on the way to the new text are new. -/
theorem isSome_find?_place_iff {path other : String} (hne : other ≠ path) {node : Node}
    (h : node.find? other = none) (text : String) :
    ((node.place path text).find? other).isSome ↔ segments other <+: segments path := by
  constructor
  · intro hsome
    by_contra habove
    rw [find?_place_of_not_above habove, h] at hsome
    exact absurd hsome Bool.false_ne_true
  · intro habove
    obtain ⟨found, hfound, -⟩ := find?_place_of_above habove hne node text
    rw [hfound]
    rfl

/-! ## Placing again -/

theorem updateFirst_updateFirst {f g : Node → Node} (hg : KeepsName g) (name : String)
    (children : List Node) :
    updateFirst name f (updateFirst name g children) = updateFirst name (fun n => f (g n)) children := by
  induction children with
  | nil => rw [updateFirst, updateFirst, updateFirst, if_pos (hg _)]
  | cons child rest ih =>
    by_cases h : child.name = name
    · rw [updateFirst, if_pos h, updateFirst, if_pos ((hg child).trans h), updateFirst, if_pos h]
    · rw [updateFirst, if_neg h, updateFirst, if_neg h, ih, updateFirst, if_neg h]

theorem change_change {f g : Node → Node} (hg : KeepsName g) (path : List String) (node : Node) :
    change f path (change g path node) = change (fun n => f (g n)) path node := by
  induction path generalizing node with
  | nil => rfl
  | cons name path ih =>
    have hbelow : (fun n => change f path (change g path n)) = change (fun n => f (g n)) path :=
      funext ih
    rw [change, change, change, updateFirst_updateFirst (keepsName_change hg path), hbelow]

/-- Of two texts placed at one path only the second is left, and no trace of the first. -/
theorem place_place (node : Node) (path text again : String) :
    (node.place path text).place path again = node.place path again :=
  change_change (keepsName_putText text) (segments path) node

/-! ## Nothing is taken away -/

/-- The second tree is the first one with elements added, each behind the older ones among its
siblings. An element keeps name, attributes and text, unless it gets the given text. -/
inductive Grows (text : String) : Node → Node → Prop where
  | mk {name : String} {attrs : List (String × String)} {old new : String}
      {children grown added : List Node} (htext : new = old ∨ new = text)
      (hgrown : List.Forall₂ (Grows text) children grown) :
      Grows text ⟨name, attrs, old, children⟩ ⟨name, attrs, new, grown ++ added⟩

theorem Grows.refl (text : String) (node : Node) : Grows text node node := by
  induction node using Node.induct with
  | step name attrs own children ih =>
    have h : Grows text ⟨name, attrs, own, children⟩ ⟨name, attrs, own, children ++ []⟩ :=
      .mk (.inl rfl) (List.forall₂_same.2 ih)
    rwa [List.append_nil] at h

theorem grows_putText (text : String) (node : Node) : Grows text node (putText text node) := by
  obtain ⟨name, attrs, own, children⟩ := node
  have h : Grows text ⟨name, attrs, own, children⟩ ⟨name, attrs, text, children ++ []⟩ :=
    .mk (.inr rfl) (List.forall₂_same.2 fun child _ => .refl text child)
  rwa [List.append_nil] at h

theorem exists_updateFirst_eq_append {R : Node → Node → Prop} (hrefl : ∀ node, R node node)
    {f : Node → Node} (hf : ∀ node, R node (f node)) (name : String) (children : List Node) :
    ∃ grown added, updateFirst name f children = grown ++ added ∧
      List.Forall₂ R children grown := by
  induction children with
  | nil => exact ⟨[], [f { name }], rfl, .nil⟩
  | cons child rest ih =>
    by_cases h : child.name = name
    · refine ⟨f child :: rest, [], ?_, .cons (hf child) (List.forall₂_same.2 fun n _ => hrefl n)⟩
      rw [updateFirst, if_pos h, List.append_nil]
    · obtain ⟨grown, added, heq, hall⟩ := ih
      refine ⟨child :: grown, added, ?_, .cons (hrefl child) hall⟩
      rw [updateFirst, if_neg h, heq, List.cons_append]

theorem grows_change (text : String) (path : List String) (node : Node) :
    Grows text node (change (putText text) path node) := by
  induction path generalizing node with
  | nil => exact grows_putText text node
  | cons name path ih =>
    obtain ⟨own, attrs, content, children⟩ := node
    obtain ⟨grown, added, heq, hall⟩ :=
      exists_updateFirst_eq_append (Grows.refl text) ih name children
    rw [change, heq]
    exact .mk (.inl rfl) hall

/-! ## Placing many texts -/

/-- The tree after several placements, one after the other. -/
def placeAll (node : Node) (placements : List (String × String)) : Node :=
  placements.foldl (fun node e => node.place e.1 e.2) node

theorem placeAll_append_singleton (node : Node) (placements : List (String × String))
    (e : String × String) :
    node.placeAll (placements ++ [e]) = (node.placeAll placements).place e.1 e.2 := by
  rw [placeAll, List.foldl_append]
  rfl

/-- The text that is placed at a path last. -/
def lastText? (placements : List (String × String)) (path : String) : Option String :=
  (placements.reverse.find? (·.1 == path)).map (·.2)

/-- The path leads to an element that some placement has to make. -/
def isOnWay (placements : List (String × String)) (path : String) : Bool :=
  placements.any fun e => (segments path).isPrefixOf (segments e.1)

theorem text_find?_place (node : Node) (path text other : String) :
    ((node.place path text).find? other).map (·.text) =
      if path = other then some text
      else ((node.find? other).map (·.text)).or
        (if (segments other).isPrefixOf (segments path) then some "" else none) := by
  by_cases heq : path = other
  · subst heq
    rw [if_pos rfl, find?_place_self]
    rfl
  · rw [if_neg heq]
    cases hfind : node.find? other with
    | some found =>
      obtain ⟨now, hnow, -, -, htext⟩ := exists_find?_place (Ne.symm heq) hfind text
      rw [hnow, Option.map_some, htext]
      rfl
    | none =>
      by_cases habove : segments other <+: segments path
      · obtain ⟨now, hnow, -, -, htext⟩ := find?_place_of_above habove (Ne.symm heq) node text
        rw [if_pos (List.isPrefixOf_iff_prefix.2 habove), hnow, Option.map_some, htext,
          reach_eq_of_follow?_eq_none hfind]
        rfl
      · rw [if_neg fun h => habove (List.isPrefixOf_iff_prefix.1 h),
          find?_place_of_not_above habove, hfind]
        rfl

theorem lastText?_append_singleton (placements : List (String × String)) (e : String × String)
    (path : String) : lastText? (placements ++ [e]) path =
      if e.1 = path then some e.2 else lastText? placements path := by
  unfold lastText?
  rw [List.reverse_append, List.reverse_singleton, List.singleton_append, List.find?_cons]
  by_cases heq : e.1 = path
  · simp [heq]
  · have hne : (e.1 == path) = false := by simpa using heq
    rw [hne, if_neg heq]

theorem isOnWay_append_singleton (placements : List (String × String)) (e : String × String)
    (path : String) : isOnWay (placements ++ [e]) path =
      (isOnWay placements path || (segments path).isPrefixOf (segments e.1)) := by
  rw [isOnWay, List.any_append, List.any_cons, List.any_nil, Bool.or_false]
  rfl

/-- Every path answers with the text placed there last, else with the text from before, and else,
where something had to be made, with the empty text. -/
theorem text_find?_placeAll (node : Node) (placements : List (String × String)) (path : String) :
    ((node.placeAll placements).find? path).map (·.text) =
      ((lastText? placements path).or ((node.find? path).map (·.text))).or
        (if isOnWay placements path then some "" else none) := by
  -- from the end: the last placement decides at its own path and else adds what it makes
  induction placements using List.reverseRecOn with
  | nil =>
    show (node.find? path).map (·.text) = ((none : Option String).or _).or none
    rw [Option.or_none, Option.none_or]
  | append_singleton placements e ih =>
    rw [placeAll_append_singleton, text_find?_place, ih, lastText?_append_singleton,
      isOnWay_append_singleton]
    by_cases heq : e.1 = path
    · rw [if_pos heq, if_pos heq, Option.some_or, Option.some_or]
    · rw [if_neg heq, if_neg heq, Option.or_assoc]
      cases isOnWay placements path with
      | true => rfl
      | false => rfl

/-! ## Trees as maps -/

/-- The second tree is the first one with a text placed at a path. -/
structure IsPlacement (node : Node) (path text : String) (placed : Node) : Prop where
  found : (placed.find? path).map (·.text) = some text
  kept : ∀ other found, other ≠ path → node.find? other = some found →
    ∃ now, placed.find? other = some now ∧
      now.name = found.name ∧ now.attrs = found.attrs ∧ now.text = found.text
  made : ∀ other, other ≠ path → node.find? other = none →
    ((placed.find? other).isSome ↔ segments other <+: segments path)
  grown : Grows text node placed
  repeated : placed.place path text = placed

/-- Paths address a tree like the keys of a map: each placement changes one text and makes only what
is missing on the way to it, and after any placements each path answers with its last text. -/
theorem isPlacement_and_text_find?_placeAll :
    (∀ (node : Node) (path text : String), node.IsPlacement path text (node.place path text)) ∧
    ∀ (node : Node) (placements : List (String × String)) (path : String),
      ((node.placeAll placements).find? path).map (·.text) =
        ((lastText? placements path).or ((node.find? path).map (·.text))).or
          (if isOnWay placements path then some "" else none) := by
  refine ⟨fun node path text => ?_, text_find?_placeAll⟩
  exact {
    found := by rw [find?_place_self]; rfl
    kept := fun other found hne h => exists_find?_place hne h text
    made := fun other hne h => isSome_find?_place_iff hne h text
    grown := grows_change text (segments path) node
    repeated := place_place node path text text }

end Filing.Xml.Node
