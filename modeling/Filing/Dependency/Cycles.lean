import Filing.Dependency.Graph

/-!
# Dependency cycles

Cycles are found by a depth-first search that starts at each node in turn. Whenever the search meets
a node of the path on which it stands, the rest of that path is a cycle; of several cycles with the
same members only the first is kept. Every dependency that leads back to where it started shows up
in this way, though not every cycle of the graph does.
-/

namespace Filing

namespace DependencyGraph

/-- How far a search has come. -/
structure Search where
  /-- The nodes from which everything has been searched. -/
  finished : List String := []
  /-- The cycles found, the latest first, each without its repeated end. -/
  cycles : List (List String) := []

/-- Two cycles have the same members. -/
def sameMembers (a b : List String) : Bool := a.all b.contains && b.all a.contains

/-- The part of a path, given from its end backwards, from a node on. -/
def cycleFrom (id : String) (path : List String) : List String :=
  id :: (path.takeWhile (· != id)).reverse

/-- Keeps a cycle unless one with the same members is known. -/
def Search.record (s : Search) (cycle : List String) : Search :=
  if s.cycles.any (sameMembers cycle) then s else { s with cycles := cycle :: s.cycles }

/-- Searches from a node to which `path` has led, given from its end backwards. The search goes at
most `depth` nodes deep. -/
def visit (g : DependencyGraph) : (depth : Nat) → (path : List String) → Search → String → Search
  | 0, _, s, _ => s
  | depth + 1, path, s, id =>
    let path := id :: path
    let s := (g.successors id).foldl (fun s next =>
      if next ∈ path then s.record (cycleFrom next path)
      else if next ∈ s.finished then s
      else visit g depth path s next) s
    { s with finished := id :: s.finished }

/-- The search from all nodes in turn; no path is longer than there are nodes. -/
def search (g : DependencyGraph) : Search :=
  g.nodes.foldl (fun s id => if id ∈ s.finished then s else g.visit g.nodes.length [] s id) {}

/-- The cycles found, each with its first node repeated at the end. -/
def cycles (g : DependencyGraph) : List (List String) :=
  g.search.cycles.reverse.map fun cycle => cycle ++ cycle.take 1

end DependencyGraph

end Filing
