import Filing.Xml.Tag

/-!
# Reading documents

A document is read piece by piece into a `Progress`: the elements still open, innermost first, and
the root as soon as it is closed. Text counts where an element is open; outside it is ignored, and
an element that turns out to have children loses its text.
-/

namespace Filing.Xml

/-- An element whose end tag is still to come. -/
structure Pending where
  /-- The element with its name, attributes and the text so far. -/
  node : Node
  /-- Its children so far, the latest first. -/
  children : List Node

/-- How far the reading of a document has come. -/
structure Progress where
  /-- The open elements, the innermost first. -/
  pending : List Pending := []
  /-- The root, once it is closed. -/
  root : Option Node := none

namespace Pending

/-- The element as it is when its end tag is reached. -/
def close (p : Pending) : Node :=
  match p.children with
  | [] => { p.node with children := [] }
  | children => { p.node with text := "", children := children.reverse }

/-- Adds to the text of the element. -/
def addText (p : Pending) (text : List Char) : Pending :=
  { p with node := { p.node with text := p.node.text ++ String.ofList text } }

end Pending

namespace Progress

/-- Puts a finished element into the innermost open one, or makes it the root. -/
def attach (st : Progress) (node : Node) : Except Fault Progress :=
  match st.pending with
  | top :: below =>
    .ok { st with pending := { top with children := node :: top.children } :: below }
  | [] =>
    match st.root with
    | some first => .error (.secondRoot node.name first.name)
    | none => .ok { st with root := some node }

/-- Takes up the next piece of the document. -/
def step (st : Progress) : Token → Except Fault Progress
  | .text raw =>
    match st.pending with
    | [] => .ok st
    | top :: below =>
      match unescape raw with
      | .ok text => .ok { st with pending := top.addText text :: below }
      | .error e => .error (.escape e)
  | .cdata content =>
    match st.pending with
    | [] => .ok st
    | top :: below => .ok { st with pending := top.addText content :: below }
  | .startTag body =>
    match elementOf body with
    | .ok node => .ok { st with pending := ⟨node, []⟩ :: st.pending }
    | .error e => .error (.escape e)
  | .emptyTag body =>
    match elementOf body with
    | .ok node => st.attach node
    | .error e => .error (.escape e)
  | .endTag name =>
    let found := String.ofList name
    match st.pending with
    | [] => .error (.unmatchedEnd found)
    | top :: below =>
      if top.node.name = found then { st with pending := below }.attach top.close
      else .error (.mismatchedEnd top.node.name found)
  | .aside => .ok st

/-- The root of a document that ends at byte `position`. -/
def finish (st : Progress) (position : Nat) : Except Error (Option Node) :=
  match st.pending with
  | top :: _ => .error ⟨position, .unclosedElement top.node.name⟩
  | [] => .ok st.root

end Progress

/-- Reads on from byte `position`. -/
def readFrom (position : Nat) (st : Progress) (s : List Char) : Except Error (Option Node) :=
  match s with
  | [] => st.finish position
  | c :: rest =>
    match h : next c rest with
    | .error fault => .error ⟨position, fault⟩
    | .ok cut =>
      have := length_rest_lt h
      match st.step cut.token with
      | .error fault => .error ⟨position, fault⟩
      | .ok st => readFrom (position + cut.size) st cut.rest
termination_by s.length
decreasing_by assumption

/-- The root element of a document, if it has one. A byte-order mark in front does not count. -/
def read (source : String) : Except Error (Option Node) :=
  match source.toList with
  | '\uFEFF' :: rest => readFrom 0 {} rest
  | s => readFrom 0 {} s

/-- The root element of a document, which must have the given name. -/
def readRoot (root source : String) : Except DocumentError Node :=
  match read source with
  | .error e => .error (.illFormed e)
  | .ok none => .error (.malformedRoot root "")
  | .ok (some node) =>
    if node.name = root then .ok node else .error (.malformedRoot root node.name)

end Filing.Xml
