import Filing.Form.Template

/-!
# Dependency graphs

The options of some fields depend on the values of others. A graph has the ids of a template's
fields as nodes, each once and in the order of the template, and an edge from a field to every field
that depends on it. All answers list fields in the order of the nodes, so it does not matter in
which order the edges were added.
-/

namespace Filing

/-- Which fields depend on which. -/
structure DependencyGraph where
  /-- The ids of the fields, in the order of their first occurrence. -/
  nodes : List String
  /-- The edges, each from a field to one that depends on it. -/
  edges : List (String × String)
deriving DecidableEq

namespace DependencyGraph

/-- The list without the repetitions of earlier elements. -/
def firsts (seen : List String) : List String → List String
  | [] => []
  | id :: rest => if id ∈ seen then firsts seen rest else id :: firsts (id :: seen) rest

/-- The fields of a template without any edges. -/
def ofFields (t : Template) : DependencyGraph where
  nodes := firsts [] (t.fields.map (·.id))
  edges := []

/-- Both ends of an edge are fields. -/
def admits (g : DependencyGraph) (e : String × String) : Bool :=
  g.nodes.contains e.1 && g.nodes.contains e.2

/-- Adds an edge, unless it is there or one of its ends is no field. -/
def addEdge (g : DependencyGraph) (e : String × String) : DependencyGraph :=
  if g.admits e && !g.edges.contains e then { g with edges := g.edges ++ [e] } else g

/-- The nodes that depend on a node. -/
def successors (g : DependencyGraph) (id : String) : List String :=
  let targets := (g.edges.filter (·.1 == id)).map (·.2)
  g.nodes.filter targets.contains

/-- The nodes on which a node depends. -/
def predecessors (g : DependencyGraph) (id : String) : List String :=
  let sources := (g.edges.filter (·.2 == id)).map (·.1)
  g.nodes.filter sources.contains

/-- The fields that depend on a field. -/
def children (g : DependencyGraph) (t : Template) (id : String) : List Field :=
  (g.successors id).filterMap t.field?

/-- The first field on which a field depends. -/
def parent? (g : DependencyGraph) (t : Template) (id : String) : Option Field :=
  ((g.predecessors id).filterMap t.field?).head?

/-! ## Acyclic graphs -/

/-- The nodes left after `n` rounds, in each of which the nodes without successors go. -/
def core (g : DependencyGraph) : Nat → List String → List String
  | 0, left => left
  | n + 1, left => core g n (left.filter fun id => (g.successors id).any left.contains)

/-- Nothing depends on itself, not even by way of others: round by round, all nodes go. -/
def isAcyclic (g : DependencyGraph) : Bool := (g.core g.nodes.length g.nodes).isEmpty

end DependencyGraph

end Filing
