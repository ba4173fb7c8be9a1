import Filing.Dependency.Cycles
import Filing.Form.Defect

/-!
# Resolving dependencies

The fields of a template declare their dependencies in two ways: a field names its parent, or a
child. Resolution puts the links between existing fields into a graph and reports the others, and
then the cycles of the graph.
-/

namespace Filing

namespace Field

/-- The links that a field declares. -/
def links (f : Field) : List (Link × String) :=
  (f.parent.toList.map (.parent, ·)) ++ (f.child.toList.map (.child, ·))

/-- The edge that a link of a field stands for. -/
def edge (f : Field) : Link × String → String × String
  | (.parent, id) => (id, f.id)
  | (.child, id) => (f.id, id)

end Field

/-- A graph of the declared dependencies and what is wrong with them. -/
structure Resolution where
  /-- The dependencies between existing fields. -/
  graph : DependencyGraph
  /-- The links without a target, then the cycles. -/
  defects : List TemplateDefect
deriving DecidableEq

namespace Template

/-- The links that the fields declare, in the order of the template. -/
def links (t : Template) : List (Field × Link × String) :=
  t.fields.flatMap fun f => f.links.map (f, ·)

/-- The graph of the links between existing fields. -/
def dependencyGraph (t : Template) : DependencyGraph :=
  t.links.foldl (fun g (f, link) => g.addEdge (f.edge link)) (.ofFields t)

/-- The links whose target does not exist. -/
def danglingLinks (t : Template) : List TemplateDefect :=
  let nodes := (DependencyGraph.ofFields t).nodes
  (t.links.filter fun (_, _, target) => !nodes.contains target).map fun (f, link, target) =>
    .danglingLink f.id link target

/-- Resolves the dependencies between the fields. -/
def resolve (t : Template) : Resolution :=
  let graph := t.dependencyGraph
  { graph, defects := t.danglingLinks ++ graph.cycles.map .cycle }

end Template

end Filing
