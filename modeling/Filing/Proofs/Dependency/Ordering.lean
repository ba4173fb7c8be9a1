import Filing.Proofs.Dependency.Components
import Filing.Proofs.Dependency.Declared
import Mathlib.Data.List.Sort

/-!
# The order in which edges are added

The edges of a graph are kept in the order in which they were added, but no answer shows it: each
list of neighbours is read in the order of the nodes, in the search for cycles as well. So two
graphs over one template that were given the same links give the same answers.

Main statements: `mergeSort_eq_successors`, `answers_eq_of_accepted`.
-/

namespace Filing

namespace DependencyGraph

variable {g g' : DependencyGraph}

/-! ## Neighbours in the order of the nodes -/

/-- One node stands before another in the template. -/
def Before (g : DependencyGraph) (a b : String) : Prop := g.nodes.idxOf a < g.nodes.idxOf b

theorem pairwise_before (hnodes : g.nodes.Nodup) : g.nodes.Pairwise g.Before := by
  refine List.pairwise_iff_getElem.2 fun i j hi hj hlt => ?_
  rw [Before, hnodes.idxOf_getElem i hi, hnodes.idxOf_getElem j hj]
  exact hlt

theorem pairwise_before_successors (hnodes : g.nodes.Nodup) (id : String) :
    (g.successors id).Pairwise g.Before := (pairwise_before hnodes).filter _

/-- In whatever order the neighbours of a node are kept, sorted by their places they are its
successors. -/
theorem mergeSort_eq_successors (hg : g.IsClosed) (hnodes : g.nodes.Nodup) (hedges : g.edges.Nodup)
    {id : String} {targets : List String}
    (h : targets.Perm ((g.edges.filter (·.1 == id)).map (·.2))) :
    targets.mergeSort (fun a b => g.nodes.idxOf a ≤ g.nodes.idxOf b) = g.successors id := by
  have hmem : ∀ target, target ∈ (g.edges.filter (·.1 == id)).map (·.2) ↔
      target ∈ g.successors id := by
    intro target
    rw [mem_successors, List.mem_map]
    constructor
    · rintro ⟨⟨a, b⟩, hfilter, rfl⟩
      obtain ⟨hedge, ha⟩ := List.mem_filter.1 hfilter
      obtain rfl : a = id := by simpa using ha
      exact ⟨(hg _ hedge).2, hedge⟩
    · rintro ⟨-, hedge⟩
      exact ⟨(id, target), List.mem_filter.2 ⟨hedge, by simp⟩, rfl⟩
  have hnodup : ((g.edges.filter (·.1 == id)).map (·.2)).Nodup := by
    refine (hedges.filter _).map_on fun a ha b hb heq => ?_
    have hfirst : ∀ e ∈ g.edges.filter (·.1 == id), e.1 = id := fun e he => by
      simpa using (List.mem_filter.1 he).2
    exact Prod.ext ((hfirst a ha).trans (hfirst b hb).symm) heq
  have hperm : targets.Perm (g.successors id) :=
    h.trans ((List.perm_ext_iff_of_nodup hnodup (hnodes.filter _)).2 hmem)
  have hsorted := (pairwise_before_successors hnodes id).imp fun {a b} (hlt : g.Before a b) =>
    (decide_eq_true (Nat.le_of_lt hlt) : decide (g.nodes.idxOf a ≤ g.nodes.idxOf b) = true)
  refine ((List.mergeSort_perm _ _).trans hperm).eq_of_pairwise ?_ ?_ hsorted
  · intro a b ha hb hab hba
    have hnode : a ∈ g.nodes := (mem_successors.1 (hperm.mem_iff.1 (List.mem_mergeSort.1 ha))).1
    exact (List.idxOf_inj hnode).1 (Nat.le_antisymm (of_decide_eq_true hab) (of_decide_eq_true hba))
  · refine List.pairwise_mergeSort (fun a b c hab hbc => ?_) (fun a b => ?_) targets
    · exact decide_eq_true (Nat.le_trans (of_decide_eq_true hab) (of_decide_eq_true hbc))
    · simpa using Nat.le_total _ _

/-! ## Answers that depend on the neighbours only -/

theorem visit_eq_of_successors (h : g.successors = g'.successors) : g.visit = g'.visit := by
  funext depth
  induction depth with
  | zero => rfl
  | succ depth ih =>
    funext path s id
    rw [visit, visit, h, ih]

theorem core_eq_of_successors (h : g.successors = g'.successors) : g.core = g'.core := by
  funext n
  induction n with
  | zero => rfl
  | succ n ih =>
    funext left
    rw [core, core, h, ih]

theorem cycles_eq_of_successors (hnodes : g.nodes = g'.nodes) (h : g.successors = g'.successors) :
    g.cycles = g'.cycles := by
  rw [cycles, cycles, search, search, hnodes, visit_eq_of_successors h]

theorem isAcyclic_eq_of_successors (hnodes : g.nodes = g'.nodes)
    (h : g.successors = g'.successors) : g.isAcyclic = g'.isAcyclic := by
  rw [isAcyclic, isAcyclic, hnodes, core_eq_of_successors h]

/-- Two sequences of links of which the template admits the same ones give graphs with the same
answers, whatever is repeated or out of place in them. -/
theorem answers_eq_of_accepted (t : Template) (first second : List (String × String))
    (h : ∀ e, (ofFields t).admits e = true → (e ∈ first ↔ e ∈ second)) :
    let g := first.foldl addEdge (.ofFields t)
    let g' := second.foldl addEdge (.ofFields t)
    g.nodes.length = g'.nodes.length ∧ g.edges.length = g'.edges.length ∧
      g.isAcyclic = g'.isAcyclic ∧ g.cycles = g'.cycles ∧
      ∀ id, g.children t id = g'.children t id ∧ g.parent? t id = g'.parent? t id := by
  intro g g'
  have hnodes : g.nodes = g'.nodes := by rw [nodes_foldl_addEdge, nodes_foldl_addEdge]
  have hedges : ∀ e, e ∈ g.edges ↔ e ∈ g'.edges := by
    intro e
    rw [mem_edges_foldl_addEdge, mem_edges_foldl_addEdge]
    exact or_congr_right (and_congr_left fun hends => h e (admits_iff.2 hends))
  have hperm : g.edges.Perm g'.edges := (List.perm_ext_iff_of_nodup
    (nodup_edges_foldl_addEdge t first) (nodup_edges_foldl_addEdge t second)).2 hedges
  have hsuccessors : g.successors = g'.successors := by
    funext id
    simp only [successors_eq_filter, hnodes, hedges]
  have hpredecessors : g.predecessors = g'.predecessors := by
    funext id
    simp only [predecessors_eq_filter, hnodes, hedges]
  refine ⟨congrArg _ hnodes, hperm.length_eq, isAcyclic_eq_of_successors hnodes hsuccessors,
    cycles_eq_of_successors hnodes hsuccessors, fun id => ⟨?_, ?_⟩⟩
  · rw [children, children, hsuccessors]
  · rw [parent?, parent?, hpredecessors]

/-- A form with a province, a district and a ward. -/
def addressForm : Template where
  version := "1"
  formCode := "01/GTGT"
  sections := [⟨"address", .static [
    { id := "province", path := "P", control := .provinceDropdown, controlCode := "100" },
    { id := "district", path := "D", control := .dependentDropdown, controlCode := "6" },
    { id := "ward", path := "W", control := .wardDropdown, controlCode := "101" }]⟩]

/-- Links of the form, one of them twice and one to a field that it does not have. -/
def repeatedLinks : List (String × String) :=
  [("province", "ward"), ("district", "ward"), ("ward", "street"), ("province", "ward"),
    ("ward", "province")]

/-- The same links of the form in another order, and one from a field that it does not have. -/
def reorderedLinks : List (String × String) :=
  [("country", "province"), ("ward", "province"), ("district", "ward"), ("province", "ward")]

theorem answers_eq_repeatedLinks :
    (∀ e, (ofFields addressForm).admits e = true → (e ∈ repeatedLinks ↔ e ∈ reorderedLinks)) ∧
      (repeatedLinks.foldl addEdge (.ofFields addressForm)).cycles =
        (reorderedLinks.foldl addEdge (.ofFields addressForm)).cycles ∧
      (repeatedLinks.foldl addEdge (.ofFields addressForm)).cycles =
        [["province", "ward", "province"]] := by
  have haccepted : ∀ e, (ofFields addressForm).admits e = true →
      (e ∈ repeatedLinks ↔ e ∈ reorderedLinks) := by
    have hfirst : ∀ e ∈ repeatedLinks, (ofFields addressForm).admits e = true →
        e ∈ reorderedLinks := by decide
    have hsecond : ∀ e ∈ reorderedLinks, (ofFields addressForm).admits e = true →
        e ∈ repeatedLinks := by decide
    exact fun e hadmits => ⟨fun he => hfirst e he hadmits, fun he => hsecond e he hadmits⟩
  exact ⟨haccepted, (answers_eq_of_accepted addressForm _ _ haccepted).2.2.2.1, by decide⟩

end DependencyGraph

end Filing
