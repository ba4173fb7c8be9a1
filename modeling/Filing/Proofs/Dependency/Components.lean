import Filing.Proofs.Dependency.Links

/-!
# Cycles and strongly connected components

The nodes of a graph fall into components, in each of which every node leads to every other. The
search for cycles reports simple cycles only, no two of them with the same members, and at least one
in each component in which something depends on something. So nothing is reported exactly where
peeling off the nodes without successors leaves nothing.

A set of nodes in which each has a successor cannot be finished by the search without a cycle that
meets it (`not_of_explained`): its node that was finished first would have nowhere to go.
-/

namespace Filing

namespace DependencyGraph

open Relation (ReflTransGen TransGen)

/-- Both ends of every edge are nodes. -/
def IsClosed (g : DependencyGraph) : Prop := ∀ e ∈ g.edges, e.1 ∈ g.nodes ∧ e.2 ∈ g.nodes

/-- A simple cycle as it is reported: its first node stands at the end again, each step from one
node to the next is an edge, and no other node is repeated. -/
def IsClosedChain (g : DependencyGraph) (chain : List String) : Prop :=
  ∃ first rest, chain = first :: rest ++ [first] ∧ (first :: rest).Nodup ∧
    chain.IsChain fun a b => (a, b) ∈ g.edges

/-- Each of two nodes leads to the other, if they are not the same. -/
def Connected (g : DependencyGraph) (a b : String) : Prop :=
  ReflTransGen (fun a b => (a, b) ∈ g.edges) a b ∧ ReflTransGen (fun a b => (a, b) ∈ g.edges) b a

/-- A strongly connected component: all that is connected with one of the nodes. -/
def IsComponent (g : DependencyGraph) (c : Set String) : Prop :=
  ∃ id ∈ g.nodes, c = {other | g.Connected id other}

/-- What a list of chains has to be to tell in which components there are cycles. -/
structure IsSurvey (g : DependencyGraph) (chains : List (List String)) : Prop where
  simple : ∀ chain ∈ chains, g.IsClosedChain chain
  distinct : chains.Pairwise fun a b => ¬ ∀ id, id ∈ a ↔ id ∈ b
  covers : ∀ c, g.IsComponent c → (∃ a ∈ c, ∃ b ∈ c, (a, b) ∈ g.edges) →
    ∃ chain ∈ chains, ∀ id ∈ chain, id ∈ c

variable {g : DependencyGraph}

theorem isClosed_foldl_addEdge (t : Template) (edges : List (String × String)) :
    (edges.foldl addEdge (.ofFields t)).IsClosed := by
  intro e he
  rw [nodes_foldl_addEdge]
  rcases mem_edges_foldl_addEdge.1 he with hnone | ⟨-, hends⟩
  · exact absurd hnone List.not_mem_nil
  · exact hends

theorem IsClosed.leads_eq (hg : g.IsClosed) : g.Leads = fun a b => (a, b) ∈ g.edges := by
  funext a b
  rw [Leads, mem_successors, eq_iff_iff]
  exact and_iff_right_of_imp fun hedge => (hg _ hedge).2

/-! ## Cycles that the search keeps -/

theorem sameMembers_iff {a b : List String} :
    sameMembers a b = true ↔ ∀ id, id ∈ a ↔ id ∈ b := by
  unfold sameMembers
  simp only [Bool.and_eq_true, List.all_eq_true, List.contains_iff_mem]
  exact ⟨fun h id => ⟨h.1 id, h.2 id⟩, fun h => ⟨fun id => (h id).1, fun id => (h id).2⟩⟩

/-- The search changes what it knows in two ways only: it records a cycle or finishes nodes. -/
theorem visit_induction {p : Search → Prop} (hrecord : ∀ s cycle, p s → p (s.record cycle))
    (hfinish : ∀ s finished, p s → p { s with finished }) {depth : Nat} {path : List String}
    {s : Search} {id : String} (hs : p s) : p (g.visit depth path s id) := by
  induction depth generalizing path s id with
  | zero => exact hs
  | succ depth ih =>
    rw [visit_succ]
    refine hfinish _ _ (List.foldlRecOn _ _ hs fun s hs next _ => ?_)
    unfold visitNext
    split
    · exact hrecord s _ hs
    · split
      · exact hs
      · exact ih hs

theorem search_induction {p : Search → Prop} (hrecord : ∀ s cycle, p s → p (s.record cycle))
    (hfinish : ∀ s finished, p s → p { s with finished }) (hstart : p {}) : p g.search := by
  refine List.foldlRecOn _ _ hstart fun s hs id _ => ?_
  split
  · exact hs
  · exact visit_induction hrecord hfinish hs

theorem pairwise_cycles_search :
    g.search.cycles.Pairwise fun a b => ¬ ∀ id, id ∈ a ↔ id ∈ b := by
  refine search_induction (p := fun s => s.cycles.Pairwise fun a b => ¬ ∀ id, id ∈ a ↔ id ∈ b)
    (fun s cycle hs => ?_) (fun _ _ hs => hs) .nil
  unfold Search.record
  split
  · exact hs
  · next hnew =>
    refine List.pairwise_cons.2 ⟨fun known hknown hsame => hnew ?_, hs⟩
    exact List.any_eq_true.2 ⟨known, hknown, sameMembers_iff.2 hsame⟩

/-! ## Cycles as they are reported -/

theorem mem_append_take_one {c : List String} {id : String} : id ∈ c ++ c.take 1 ↔ id ∈ c := by
  rw [List.mem_append]
  exact or_iff_left_of_imp fun h => List.mem_of_mem_take h

theorem IsCycle.isClosedChain (hg : g.IsClosed) {c : List String} (h : g.IsCycle c) :
    g.IsClosedChain (c ++ c.take 1) := by
  cases h with
  | mk hnodup hchain =>
    rw [hg.leads_eq] at hchain
    exact ⟨_, _, rfl, hnodup, hchain⟩

/-- All nodes of a cycle are connected. -/
theorem IsCycle.connected (hg : g.IsClosed) {c : List String} (h : g.IsCycle c) {a b : String}
    (ha : a ∈ c) (hb : b ∈ c) : ReflTransGen (fun a b => (a, b) ∈ g.edges) a b := by
  rw [← hg.leads_eq]
  cases h with
  | @mk first rest hnodup hchain =>
    have hsplit : ∀ id ∈ first :: rest, ∃ before after, first :: rest = before ++ id :: after ∧
        (before ++ [id]).IsChain g.Leads ∧ (id :: after ++ [first]).IsChain g.Leads := by
      intro id hid
      obtain ⟨before, after, heq⟩ := List.append_of_mem hid
      have hclosed : first :: rest ++ [first] = before ++ id :: (after ++ [first]) := by
        rw [heq, List.append_assoc, List.cons_append]
      rw [hclosed, List.isChain_split] at hchain
      exact ⟨before, after, heq, hchain⟩
    have hfrom : ∀ id ∈ first :: rest, ReflTransGen g.Leads first id := by
      intro id hid
      obtain ⟨before, after, heq, hbefore, -⟩ := hsplit id hid
      rcases before with - | ⟨start, before⟩
      · obtain ⟨rfl, -⟩ := List.cons.inj heq
        exact .refl
      · obtain ⟨rfl, -⟩ := List.cons.inj heq
        exact (transGen_of_isChain hbefore).to_reflTransGen
    have hto : ∀ id ∈ first :: rest, ReflTransGen g.Leads id first := by
      intro id hid
      obtain ⟨before, after, -, -, hafter⟩ := hsplit id hid
      exact (transGen_of_isChain hafter).to_reflTransGen
    exact (hto a ha).trans (hfrom b hb)

theorem mem_cycles_iff {chain : List String} :
    chain ∈ g.cycles ↔ ∃ c ∈ g.search.cycles, c ++ c.take 1 = chain := by
  rw [cycles, List.mem_map]
  simp only [List.mem_reverse]

theorem pairwise_cycles : g.cycles.Pairwise fun a b => ¬ ∀ id, id ∈ a ↔ id ∈ b := by
  rw [cycles, List.pairwise_map, List.pairwise_reverse]
  refine pairwise_cycles_search.imp fun hdistinct hsame => hdistinct fun id => ?_
  have hid := hsame id
  rw [mem_append_take_one, mem_append_take_one] at hid
  exact hid.symm

/-- In a component with an edge each node has a successor in the component. -/
theorem IsComponent.exists_next {c : Set String} (hc : g.IsComponent c) {a b : String}
    (ha : a ∈ c) (hb : b ∈ c) (hab : (a, b) ∈ g.edges) {id : String} (hid : id ∈ c) :
    ∃ next ∈ c, (id, next) ∈ g.edges := by
  obtain ⟨start, -, rfl⟩ := hc
  have hpath := hid.2.trans ha.1
  rcases ReflTransGen.cases_head hpath with rfl | ⟨next, hedge, hrest⟩
  · exact ⟨b, hb, hab⟩
  · exact ⟨next, ⟨hid.1.tail hedge, hrest.trans ha.2⟩, hedge⟩

theorem IsComponent.mem_of_connected {c : Set String} (hc : g.IsComponent c) {a b : String}
    (ha : a ∈ c) (hab : g.Connected a b) : b ∈ c := by
  obtain ⟨start, -, rfl⟩ := hc
  exact ⟨ha.1.trans hab.1, hab.2.trans ha.2⟩

theorem exists_cycle_of_isComponent (hg : g.IsClosed) {c : Set String} (hc : g.IsComponent c)
    (hedge : ∃ a ∈ c, ∃ b ∈ c, (a, b) ∈ g.edges) : ∃ chain ∈ g.cycles, ∀ id ∈ chain, id ∈ c := by
  obtain ⟨a, ha, b, hb, hab⟩ := hedge
  obtain ⟨hsound, hfinished⟩ := search_spec g
  by_contra hnone
  -- A cycle that has one node in the component lies in it, so here no cycle meets it.
  have hfree : ∀ cycle ∈ g.search.cycles, ∀ id ∈ cycle, id ∉ c := by
    intro cycle hcycle id hid hmem
    refine hnone ⟨_, mem_cycles_iff.2 ⟨cycle, hcycle, rfl⟩, fun other hother => ?_⟩
    have hother := mem_append_take_one.1 hother
    have hsimple := hsound.cycles cycle hcycle
    exact hc.mem_of_connected hmem
      ⟨hsimple.connected hg hid hother, hsimple.connected hg hother hid⟩
  have hnext : ∀ id ∈ c, ∃ next, g.Leads id next ∧ next ∈ c := by
    intro id hid
    obtain ⟨next, hmem, hleads⟩ := hc.exists_next ha hb hab hid
    exact ⟨next, by rwa [hg.leads_eq], hmem⟩
  exact not_of_explained hsound.explained hnext hfree a (hfinished a (hg _ hab).1) ha

/-! ## Peeling -/

theorem mem_filter_core {left : List String} {id : String} :
    id ∈ left.filter (fun id => (g.successors id).any left.contains) ↔
      id ∈ left ∧ ∃ next, g.Leads id next ∧ next ∈ left := by
  rw [List.mem_filter, List.any_eq_true]
  simp only [List.contains_iff_mem]
  rfl

/-- Nodes of which each has a successor among them are never peeled off. -/
theorem mem_core {p : String → Prop} (hnext : ∀ id, p id → ∃ next, g.Leads id next ∧ p next)
    {n : Nat} {left : List String} (hleft : ∀ id, p id → id ∈ left) {id : String} (hid : p id) :
    id ∈ g.core n left := by
  induction n generalizing left with
  | zero => exact hleft id hid
  | succ n ih =>
    refine ih fun other hother => mem_filter_core.2 ⟨hleft other hother, ?_⟩
    obtain ⟨next, hleads, hp⟩ := hnext other hother
    exact ⟨next, hleads, hleft next hp⟩

/-- Where there is no cycle, each round peels off a node, so all go in as many rounds as there are
nodes. -/
theorem core_eq_nil {finished : List String} (h : g.Explained [] finished) {n : Nat}
    {left : List String} (hleft : left ⊆ finished) (hn : left.length ≤ n) : g.core n left = [] := by
  induction n generalizing left with
  | zero => exact List.length_eq_zero_iff.1 (Nat.le_zero.1 hn)
  | succ n ih =>
    rw [core]
    refine ih (List.Subset.trans (List.filter_subset_self _) hleft) ?_
    by_cases hnil : left = []
    · rw [hnil]
      exact Nat.zero_le n
    · obtain ⟨id, hid⟩ := List.exists_mem_of_ne_nil left hnil
      suffices hpeeled : ∃ id ∈ left, ¬ (g.successors id).any left.contains = true by
        have hlt := List.length_filter_lt_length_iff_exists.2 hpeeled
        omega
      -- If nothing were peeled off, each node left would lead to one that is left.
      by_contra hkept
      push Not at hkept
      have hnext : ∀ id ∈ left, ∃ next, g.Leads id next ∧ next ∈ left := fun id hid =>
        (mem_filter_core.1 (List.mem_filter.2 ⟨hid, hkept id hid⟩)).2
      exact not_of_explained h hnext (by simp) id (hleft hid) hid

theorem isAcyclic_iff : g.isAcyclic = true ↔ g.Acyclic := by
  obtain ⟨hsound, hfinished⟩ := search_spec g
  rw [isAcyclic, List.isEmpty_iff]
  constructor
  · intro hcore id hloop
    have hnext : ∀ a, TransGen g.Leads a a → ∃ b, g.Leads a b ∧ TransGen g.Leads b b := by
      intro a ha
      obtain ⟨b, hab, hback⟩ := TransGen.head'_iff.1 ha
      exact ⟨b, hab, .tail' hback hab⟩
    have hnode : ∀ a, TransGen g.Leads a a → a ∈ g.nodes := by
      intro a ha
      obtain ⟨before, -, hlast⟩ := TransGen.tail'_iff.1 ha
      exact (mem_successors.1 hlast).1
    have hmem := mem_core hnext (n := g.nodes.length) hnode hloop
    rw [hcore] at hmem
    exact List.not_mem_nil hmem
  · intro hacyclic
    have hnil : g.search.cycles = [] := by
      have hcycles := cycles_eq_nil_iff.2 hacyclic
      rwa [cycles, List.map_eq_nil_iff, List.reverse_eq_nil_iff] at hcycles
    have hexplained := hsound.explained
    rw [hnil] at hexplained
    exact core_eq_nil hexplained hfinished le_rfl

/-! ## The whole survey -/

/-- Whatever edges are added between the fields of a template, the cycles reported are simple, have
different members, and leave out no component that has an edge; none is reported exactly where the
graph is acyclic, which the peeling decides. -/
theorem isSurvey_cycles (t : Template) (edges : List (String × String)) :
    let g := edges.foldl addEdge (.ofFields t)
    g.IsSurvey g.cycles ∧ (g.cycles = [] ↔ g.isAcyclic = true) ∧
      (g.isAcyclic = true ↔ ∀ id, ¬ TransGen (fun a b => (a, b) ∈ g.edges) id id) := by
  intro g
  have hg : g.IsClosed := isClosed_foldl_addEdge t edges
  refine ⟨⟨fun chain hchain => ?_, pairwise_cycles, fun c => exists_cycle_of_isComponent hg⟩, ?_, ?_⟩
  · obtain ⟨c, hc, rfl⟩ := mem_cycles_iff.1 hchain
    exact ((search_spec g).1.cycles c hc).isClosedChain hg
  · rw [cycles_eq_nil_iff, isAcyclic_iff]
  · rw [isAcyclic_iff, Acyclic, hg.leads_eq]

end DependencyGraph

end Filing
