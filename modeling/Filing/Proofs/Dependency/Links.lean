import Filing.Dependency.Resolution
import Filing.Proofs.Dependency.Search

/-!
# The graph of the declared links

A graph of dependencies has a node for each id that a field has, and an edge for each declared link
between two of them. Resolution finds fault with the links to other ids and with the cycles, and
with nothing else.
-/

namespace Filing

open Relation (TransGen)

namespace DependencyGraph

theorem mem_firsts {seen ids : List String} {id : String} :
    id ∈ firsts seen ids ↔ id ∈ ids ∧ id ∉ seen := by
  induction ids generalizing seen with
  | nil => simp [firsts]
  | cons first rest ih =>
    rw [firsts]
    by_cases hseen : first ∈ seen
    · rw [if_pos hseen, ih, List.mem_cons]
      refine ⟨fun h => ⟨.inr h.1, h.2⟩, ?_⟩
      rintro ⟨rfl | hmem, hnot⟩
      · exact absurd hseen hnot
      · exact ⟨hmem, hnot⟩
    · rw [if_neg hseen, List.mem_cons, ih, List.mem_cons, List.mem_cons, not_or]
      by_cases heq : id = first
      · subst heq
        simp [hseen]
      · simp [heq]

theorem admits_iff {g : DependencyGraph} {e : String × String} :
    g.admits e = true ↔ e.1 ∈ g.nodes ∧ e.2 ∈ g.nodes := by
  rw [admits, Bool.and_eq_true, List.contains_iff_mem, List.contains_iff_mem]

theorem nodes_addEdge (g : DependencyGraph) (e : String × String) :
    (g.addEdge e).nodes = g.nodes := by
  unfold addEdge
  split <;> rfl

theorem mem_edges_addEdge {g : DependencyGraph} {e other : String × String} :
    other ∈ (g.addEdge e).edges ↔
      other ∈ g.edges ∨ (other = e ∧ e.1 ∈ g.nodes ∧ e.2 ∈ g.nodes) := by
  unfold addEdge
  by_cases hadmits : g.admits e = true
  · by_cases hmem : e ∈ g.edges
    · have hcontains : g.edges.contains e = true := List.contains_iff_mem.2 hmem
      rw [hadmits, hcontains]
      refine ⟨.inl, ?_⟩
      rintro (h | ⟨rfl, -⟩)
      · exact h
      · exact hmem
    · have hcontains : g.edges.contains e = false := by simpa using hmem
      rw [hadmits, hcontains, if_pos (by rfl), List.mem_append, List.mem_singleton,
        and_iff_left (admits_iff.1 hadmits)]
  · have hends := mt admits_iff.2 hadmits
    rw [Bool.not_eq_true] at hadmits
    rw [hadmits, if_neg (by simp)]
    exact ⟨.inl, fun h => h.resolve_right fun h => hends h.2⟩

theorem nodes_foldl_addEdge (edges : List (String × String)) (g : DependencyGraph) :
    (edges.foldl addEdge g).nodes = g.nodes := by
  induction edges generalizing g with
  | nil => rfl
  | cons e edges ih => rw [List.foldl_cons, ih, nodes_addEdge]

theorem mem_edges_foldl_addEdge {edges : List (String × String)} {g : DependencyGraph}
    {e : String × String} : e ∈ (edges.foldl addEdge g).edges ↔
      e ∈ g.edges ∨ (e ∈ edges ∧ e.1 ∈ g.nodes ∧ e.2 ∈ g.nodes) := by
  induction edges generalizing g with
  | nil => simp
  | cons first edges ih =>
    rw [List.foldl_cons, ih, nodes_addEdge, mem_edges_addEdge, List.mem_cons]
    constructor
    · rintro ((h | ⟨rfl, h⟩) | ⟨hmem, h⟩)
      · exact .inl h
      · exact .inr ⟨.inl rfl, h⟩
      · exact .inr ⟨.inr hmem, h⟩
    · rintro (h | ⟨rfl | hmem, h⟩)
      · exact .inl (.inl h)
      · exact .inl (.inr ⟨rfl, h⟩)
      · exact .inr ⟨hmem, h⟩

/-- The nodes that depend on a node, in the order of all nodes. -/
theorem successors_eq_filter (g : DependencyGraph) (id : String) :
    g.successors id = g.nodes.filter fun target => (id, target) ∈ g.edges := by
  refine List.filter_congr fun target htarget => ?_
  have hmem : target ∈ g.successors id ↔ (id, target) ∈ g.edges :=
    mem_successors.trans (and_iff_right htarget)
  rw [Bool.eq_iff_iff, decide_eq_true_eq, ← hmem, successors, List.mem_filter,
    and_iff_right htarget]

/-- The nodes on which a node depends, in the order of all nodes. -/
theorem predecessors_eq_filter (g : DependencyGraph) (id : String) :
    g.predecessors id = g.nodes.filter fun source => (source, id) ∈ g.edges := by
  unfold predecessors
  refine List.filter_congr fun source _ => ?_
  rw [Bool.eq_iff_iff, List.contains_iff_mem, List.mem_map, decide_eq_true_eq]
  constructor
  · rintro ⟨⟨a, b⟩, hmem, rfl⟩
    obtain ⟨hedge, hb⟩ := List.mem_filter.1 hmem
    obtain rfl : b = id := by simpa using hb
    exact hedge
  · intro hedge
    exact ⟨(source, id), List.mem_filter.2 ⟨hedge, by simp⟩, rfl⟩

end DependencyGraph

namespace Template

variable {t : Template}

/-- Some field has the id. -/
def Names (t : Template) (id : String) : Prop := ∃ f ∈ t.fields, f.id = id

/-- A field names `parent` as its parent, or names `child` as its child. -/
def Links (t : Template) (parent child : String) : Prop :=
  ∃ f ∈ t.fields, (f.parent = some parent ∧ f.id = child) ∨ (f.id = parent ∧ f.child = some child)

theorem mem_nodes_ofFields {id : String} :
    id ∈ (DependencyGraph.ofFields t).nodes ↔ t.Names id := by
  show id ∈ DependencyGraph.firsts [] (t.fields.map (·.id)) ↔ _
  rw [DependencyGraph.mem_firsts, and_iff_left List.not_mem_nil, List.mem_map]
  rfl

theorem mem_links {f : Field} {link : Link} {id : String} : (f, link, id) ∈ t.links ↔
    f ∈ t.fields ∧
      ((link = .parent ∧ f.parent = some id) ∨ (link = .child ∧ f.child = some id)) := by
  simp only [links, Field.links, List.mem_flatMap, List.mem_map, List.mem_append,
    Option.mem_toList, Prod.mk.injEq]
  constructor
  · rintro ⟨f, hf, ⟨_, _⟩, ⟨_, h, rfl, rfl⟩ | ⟨_, h, rfl, rfl⟩, rfl, rfl, rfl⟩
    · exact ⟨hf, .inl ⟨rfl, h⟩⟩
    · exact ⟨hf, .inr ⟨rfl, h⟩⟩
  · rintro ⟨hf, ⟨rfl, h⟩ | ⟨rfl, h⟩⟩
    · exact ⟨f, hf, _, .inl ⟨id, h, rfl⟩, rfl, rfl⟩
    · exact ⟨f, hf, _, .inr ⟨id, h, rfl⟩, rfl, rfl⟩

theorem dependencyGraph_eq (t : Template) : t.dependencyGraph =
    (t.links.map fun l => l.1.edge l.2).foldl DependencyGraph.addEdge (.ofFields t) := by
  rw [List.foldl_map]
  rfl

theorem mem_map_edge_links {parent child : String} :
    (parent, child) ∈ t.links.map (fun l => l.1.edge l.2) ↔ t.Links parent child := by
  rw [List.mem_map]
  constructor
  · rintro ⟨⟨f, link, id⟩, hmem, heq⟩
    obtain ⟨hf, ⟨rfl, h⟩ | ⟨rfl, h⟩⟩ := mem_links.1 hmem
    · obtain ⟨rfl, rfl⟩ := Prod.mk.inj heq
      exact ⟨f, hf, .inl ⟨h, rfl⟩⟩
    · obtain ⟨rfl, rfl⟩ := Prod.mk.inj heq
      exact ⟨f, hf, .inr ⟨rfl, h⟩⟩
  · rintro ⟨f, hf, ⟨h, rfl⟩ | ⟨rfl, h⟩⟩
    · exact ⟨(f, .parent, parent), mem_links.2 ⟨hf, .inl ⟨rfl, h⟩⟩, rfl⟩
    · exact ⟨(f, .child, child), mem_links.2 ⟨hf, .inr ⟨rfl, h⟩⟩, rfl⟩

theorem mem_nodes_dependencyGraph {id : String} :
    id ∈ t.dependencyGraph.nodes ↔ t.Names id := by
  rw [dependencyGraph_eq, DependencyGraph.nodes_foldl_addEdge, mem_nodes_ofFields]

theorem mem_edges_dependencyGraph {parent child : String} :
    (parent, child) ∈ t.dependencyGraph.edges ↔
      t.Names parent ∧ t.Names child ∧ t.Links parent child := by
  rw [dependencyGraph_eq, DependencyGraph.mem_edges_foldl_addEdge, mem_map_edge_links,
    mem_nodes_ofFields, mem_nodes_ofFields]
  have hnil : (parent, child) ∉ (DependencyGraph.ofFields t).edges := List.not_mem_nil
  rw [or_iff_right hnil]
  exact ⟨fun ⟨hlinks, hends⟩ => ⟨hends.1, hends.2, hlinks⟩,
    fun ⟨hparent, hchild, hlinks⟩ => ⟨hlinks, hparent, hchild⟩⟩

/-- The edges of the graph are the declared links between ids that some field has. -/
theorem leads_dependencyGraph_iff {parent child : String} :
    t.dependencyGraph.Leads parent child ↔ t.Links parent child ∧ t.Names parent ∧ t.Names child := by
  unfold DependencyGraph.Leads
  rw [DependencyGraph.mem_successors, mem_edges_dependencyGraph, mem_nodes_dependencyGraph]
  exact ⟨fun ⟨_, hparent, hchild, hlinks⟩ => ⟨hlinks, hparent, hchild⟩,
    fun ⟨hlinks, hparent, hchild⟩ => ⟨hchild, hparent, hchild, hlinks⟩⟩

theorem danglingLinks_eq_nil_iff : t.danglingLinks = [] ↔
    ∀ f ∈ t.fields, (∀ id, f.parent = some id → t.Names id) ∧
      ∀ id, f.child = some id → t.Names id := by
  unfold danglingLinks
  rw [List.map_eq_nil_iff, List.filter_eq_nil_iff]
  have hfilter : ∀ id, ¬ (!(DependencyGraph.ofFields t).nodes.contains id) = true ↔ t.Names id := by
    intro id
    rw [← mem_nodes_ofFields]
    simp
  constructor
  · intro h f hf
    exact ⟨fun id hid => (hfilter id).1 (h (f, .parent, id) (mem_links.2 ⟨hf, .inl ⟨rfl, hid⟩⟩)),
      fun id hid => (hfilter id).1 (h (f, .child, id) (mem_links.2 ⟨hf, .inr ⟨rfl, hid⟩⟩))⟩
  · rintro h ⟨f, link, id⟩ hmem
    obtain ⟨hf, ⟨-, hid⟩ | ⟨-, hid⟩⟩ := mem_links.1 hmem
    · exact (hfilter id).2 ((h f hf).1 id hid)
    · exact (hfilter id).2 ((h f hf).2 id hid)

/-- The dependencies are in order when every link names a field and none leads in a circle. -/
theorem defects_resolve_eq_nil_iff : t.resolve.defects = [] ↔
    (∀ f ∈ t.fields, (∀ id, f.parent = some id → t.Names id) ∧
      ∀ id, f.child = some id → t.Names id) ∧ ∀ id, ¬ TransGen t.Links id id := by
  show t.danglingLinks ++ t.dependencyGraph.cycles.map .cycle = [] ↔ _
  rw [List.append_eq_nil_iff, List.map_eq_nil_iff, danglingLinks_eq_nil_iff,
    DependencyGraph.cycles_eq_nil_iff]
  refine and_congr_right fun hnamed => forall_congr' fun id => not_congr ?_
  have hnames : ∀ parent child, t.Links parent child → t.Names parent ∧ t.Names child := by
    rintro parent child ⟨f, hf, ⟨h, rfl⟩ | ⟨rfl, h⟩⟩
    · exact ⟨(hnamed f hf).1 parent h, f, hf, rfl⟩
    · exact ⟨⟨f, hf, rfl⟩, (hnamed f hf).2 child h⟩
  have hleads : t.dependencyGraph.Leads = t.Links := by
    funext parent child
    rw [leads_dependencyGraph_iff, eq_iff_iff]
    exact and_iff_left_of_imp (hnames parent child)
  rw [hleads]

end Template

end Filing
