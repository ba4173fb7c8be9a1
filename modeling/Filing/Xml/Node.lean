import Filing.Path
import Filing.Text.Basic

/-!
# Element trees

Templates, declarations, menus and adjustment maps are XML documents; the library reads each into a
tree of elements and works on the tree. An element keeps the order of its attributes and children
but has one text only, which counts only as long as it has no children.

A tree is also addressed by path: `find?` follows the first child with the name of each segment,
and `place` follows the same way and makes what is missing, so what was placed at a path is found
there.
-/

namespace Filing.Xml

/-- An element of a document. -/
structure Node where
  /-- The element name. -/
  name : String
  /-- The attributes in the order of the document. -/
  attrs : List (String × String) := []
  /-- The text, which has a meaning only for an element without children. -/
  text : String := ""
  /-- The child elements in the order of the document. -/
  children : List Node := []

namespace Node

instance : Inhabited Node := ⟨⟨"", [], "", []⟩⟩

/-! ## Equality -/

mutual

/-- Two trees are equal; the code behind `DecidableEq`. -/
def equal : Node → Node → Bool
  | ⟨n, a, t, cs⟩, ⟨n', a', t', cs'⟩ => n == n' && a == a' && t == t' && equalAll cs cs'

/-- Two lists of trees are equal. -/
def equalAll : List Node → List Node → Bool
  | [], [] => true
  | x :: xs, y :: ys => equal x y && equalAll xs ys
  | _, _ => false

end

mutual

theorem equal_iff : ∀ a b : Node, equal a b = true ↔ a = b
  | ⟨n, a, t, cs⟩, ⟨n', a', t', cs'⟩ => by
    simp only [equal, Bool.and_eq_true, beq_iff_eq, equalAll_iff cs cs', Node.mk.injEq]
    constructor
    · rintro ⟨⟨⟨h₁, h₂⟩, h₃⟩, h₄⟩; exact ⟨h₁, h₂, h₃, h₄⟩
    · rintro ⟨h₁, h₂, h₃, h₄⟩; exact ⟨⟨⟨h₁, h₂⟩, h₃⟩, h₄⟩

theorem equalAll_iff : ∀ a b : List Node, equalAll a b = true ↔ a = b
  | [], [] => by simp [equalAll]
  | [], _ :: _ => by simp [equalAll]
  | _ :: _, [] => by simp [equalAll]
  | x :: xs, y :: ys => by simp [equalAll, equal_iff x y, equalAll_iff xs ys]

end

instance : DecidableEq Node := fun a b => decidable_of_iff _ (equal_iff a b)

/-! ## Attributes -/

/-- The first attribute with a name. -/
def attr? (node : Node) (name : String) : Option String :=
  (node.attrs.find? (·.1 == name)).map (·.2)

/-- The first attribute with a name, trimmed, unless it is blank. -/
def filledAttr? (node : Node) (name : String) : Option String :=
  match node.attr? name with
  | some value => if Text.hasContent value then some (Text.trim value) else none
  | none => none

/-- An attribute, or the empty text. -/
def attrD (node : Node) (name : String) : String := (node.attr? name).getD ""

/-- Sets the first attribute with a name, or adds one at the end. -/
def setAttr (node : Node) (name value : String) : Node :=
  { node with attrs := set node.attrs }
where
  /-- The attributes with the value set. -/
  set : List (String × String) → List (String × String)
    | [] => [(name, value)]
    | (k, v) :: rest => if k = name then (k, value) :: rest else (k, v) :: set rest

/-! ## Children -/

/-- The first child with a name. -/
def child? (node : Node) (name : String) : Option Node := node.children.find? (·.name == name)

/-- The children with a name. -/
def childrenNamed (node : Node) (name : String) : List Node :=
  node.children.filter (·.name == name)

/-- Adds a child at the end. -/
def push (node child : Node) : Node := { node with children := node.children ++ [child] }

mutual

/-- The elements below an element that have a name, each before those below it. -/
def descendantsNamed (name : String) : Node → List Node
  | ⟨_, _, _, children⟩ => namedAmong name children

/-- The elements with a name among the given ones and below them. -/
def namedAmong (name : String) : List Node → List Node
  | [] => []
  | node :: rest =>
    let below := descendantsNamed name node ++ namedAmong name rest
    if node.name == name then node :: below else below

end

/-! ## Paths -/

/-- Follows the segments of a path, each time to the first child with that name. -/
def follow? : List String → Node → Option Node
  | [], node => some node
  | name :: path, node => (node.child? name).bind (follow? path)

/-- The element at a path below an element. -/
def find? (node : Node) (path : String) : Option Node := follow? (Path.segments path) node

/-- Changes the first child with a name by `f`, making it at the end when there is none. -/
def updateFirst (name : String) (f : Node → Node) : List Node → List Node
  | [] => [f { name }]
  | child :: rest =>
    if child.name = name then f child :: rest else child :: updateFirst name f rest

/-- Changes the element at the end of a path by `f`, making the elements that are missing. -/
def change (f : Node → Node) : List String → Node → Node
  | [], node => f node
  | name :: path, node =>
    { node with children := updateFirst name (change f path) node.children }

/-- Changes the element at a path, made where it is missing. -/
def modifyAt (node : Node) (path : String) (f : Node → Node) : Node :=
  change f (Path.segments path) node

/-- Puts a text at a path. -/
def place (node : Node) (path text : String) : Node :=
  node.modifyAt path fun n => { n with text }

end Node

end Filing.Xml
