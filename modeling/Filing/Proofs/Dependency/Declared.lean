import Filing.Proofs.Dependency.Links
import Filing.Proofs.Earlier
import Filing.Proofs.Form.Fields

/-!
# The graph is what the fields declare

A link can be declared from either of its ends, twice, or on one of several fields with the same id.
In the graph all this comes down to one relation between ids: a node for each id, an edge for each
pair that is linked, and answers in the order in which the ids first occur in the template. What
names an id that no field has is left out and reported, field by field.

Main statement: `isFaithful_resolve`.
-/

namespace Filing

/-- The defect is a link without a target. -/
def TemplateDefect.isDangling : TemplateDefect → Bool
  | .danglingLink .. => true
  | _ => false

namespace Template

/-- The fields that are the first with their id, in the order of the template. -/
def leaders (t : Template) : List Field :=
  ((withEarlier t.fields).filter fun e => e.1.all (·.id != e.2.id)).map (·.2)

/-- No field has the id. -/
def lacks (t : Template) (id : String) : Bool := t.fields.all (·.id != id)

end Template

/-- What the resolution of a template is: the graph has the ids of the fields as nodes and the links
between them as edges, the defects name each reference to an id that no field has, and the answers
are the first fields with an id, in the order of the template. -/
structure Resolution.IsFaithful (t : Template) (r : Resolution) : Prop where
  nodes_nodup : r.graph.nodes.Nodup
  nodes : r.graph.nodes = t.leaders.map (·.id)
  mem_nodes : ∀ id, id ∈ r.graph.nodes ↔ ∃ f ∈ t.fields, f.id = id
  edges_nodup : r.graph.edges.Nodup
  mem_edges : ∀ parent child, (parent, child) ∈ r.graph.edges ↔
    (∃ f ∈ t.fields, f.id = parent) ∧ (∃ f ∈ t.fields, f.id = child) ∧
      ∃ f ∈ t.fields, (f.id = child ∧ f.parent = some parent) ∨
        (f.id = parent ∧ f.child = some child)
  dangling : r.defects.filter (·.isDangling) = t.fields.flatMap fun f =>
    (f.parent.toList.filter t.lacks).map (.danglingLink f.id .parent ·) ++
      (f.child.toList.filter t.lacks).map (.danglingLink f.id .child ·)
  children : ∀ id, r.graph.children t id = t.leaders.filter fun f => (id, f.id) ∈ r.graph.edges
  parent : ∀ id, r.graph.parent? t id = t.leaders.find? fun f => (f.id, id) ∈ r.graph.edges

namespace DependencyGraph

theorem nodup_firsts {seen ids : List String} : (firsts seen ids).Nodup := by
  induction ids generalizing seen with
  | nil => exact .nil
  | cons id ids ih =>
    rw [firsts]
    split
    · exact ih
    · exact List.nodup_cons.2 ⟨fun hmem => (mem_firsts.1 hmem).2 List.mem_cons_self, ih⟩

theorem firsts_append_singleton {seen ids : List String} {id : String} :
    firsts seen (ids ++ [id]) =
      firsts seen ids ++ if id ∈ seen ∨ id ∈ ids then [] else [id] := by
  induction ids generalizing seen with
  | nil => simp [firsts]
  | cons first ids ih =>
    rw [List.cons_append, firsts, firsts]
    by_cases hseen : first ∈ seen
    · have hiff : (id ∈ seen ∨ id ∈ first :: ids) ↔ (id ∈ seen ∨ id ∈ ids) := by
        rw [List.mem_cons]
        refine ⟨?_, fun h => h.imp_right .inr⟩
        rintro (h | rfl | h)
        · exact .inl h
        · exact .inl hseen
        · exact .inr h
      rw [if_pos hseen, if_pos hseen, ih]
      simp only [hiff]
    · have hiff : (id ∈ seen ∨ id ∈ first :: ids) ↔ (id ∈ first :: seen ∨ id ∈ ids) := by
        rw [List.mem_cons, List.mem_cons, or_left_comm, or_assoc]
      rw [if_neg hseen, if_neg hseen, ih]
      simp only [hiff, List.cons_append]

/-- The nodes of a template are the ids of its leading fields. -/
theorem nodes_ofFields (t : Template) : (ofFields t).nodes = t.leaders.map (·.id) := by
  show firsts [] (t.fields.map (·.id)) = _
  unfold Template.leaders
  induction t.fields using List.reverseRecOn with
  | nil => rfl
  | append_singleton fields f ih =>
    rw [List.map_append, List.map_singleton, firsts_append_singleton, ih,
      withEarlier_append_singleton, List.filter_append, List.map_append, List.map_append]
    congr 1
    by_cases hmem : f.id ∈ fields.map (·.id)
    · obtain ⟨other, hother, hid⟩ := List.mem_map.1 hmem
      have hall : fields.all (·.id != f.id) = false :=
        List.all_eq_false.2 ⟨other, hother, by simp [hid]⟩
      simp [hall, hmem]
    · have hall : fields.all (·.id != f.id) = true := by
        refine List.all_eq_true.2 fun other hother => bne_iff_ne.2 fun hid => hmem ?_
        exact hid ▸ List.mem_map_of_mem hother
      simp [hall, hmem]

theorem nodup_edges_addEdge {g : DependencyGraph} (h : g.edges.Nodup) (e : String × String) :
    (g.addEdge e).edges.Nodup := by
  unfold addEdge
  split
  · next hnew =>
    have hnot : e ∉ g.edges := by simpa using (Bool.and_eq_true_iff.1 hnew).2
    refine List.nodup_append.2 ⟨h, List.nodup_singleton e, fun known hknown other hother heq => ?_⟩
    exact hnot (List.mem_singleton.1 hother ▸ heq ▸ hknown)
  · exact h

theorem nodup_edges_foldl_addEdge (t : Template) (edges : List (String × String)) :
    (edges.foldl addEdge (.ofFields t)).edges.Nodup :=
  List.foldlRecOn edges addEdge (motive := fun g => g.edges.Nodup) List.nodup_nil
    fun _ hg e _ => nodup_edges_addEdge hg e

end DependencyGraph

namespace Template

variable {t : Template}

theorem lacks_iff {id : String} : t.lacks id = true ↔ ¬ t.Names id := by
  rw [lacks, List.all_eq_true, Names, not_exists]
  simp only [bne_iff_ne, not_and, ne_eq]

/-- A leading field is the one that its id stands for. -/
theorem field?_of_mem_leaders {f : Field} (hf : f ∈ t.leaders) : t.field? f.id = some f := by
  rw [field?_eq_find?]
  unfold leaders at hf
  generalize t.fields = fields at hf
  induction fields using List.reverseRecOn with
  | nil => exact absurd hf List.not_mem_nil
  | append_singleton fields last ih =>
    rw [withEarlier_append_singleton, List.filter_append, List.map_append, List.mem_append] at hf
    rw [List.find?_append]
    rcases hf with hf | hf
    · rw [ih hf, Option.some_or]
    · obtain ⟨e, he, rfl⟩ := List.mem_map.1 hf
      obtain ⟨hsingle, hfirst⟩ := List.mem_filter.1 he
      obtain rfl := List.mem_singleton.1 hsingle
      have hnone : fields.find? (·.id == last.id) = none :=
        List.find?_eq_none.2 fun other hother => by
          simpa using List.all_eq_true.1 hfirst other hother
      rw [hnone]
      simp

/-- Looking up the ids of leading fields answers these fields. -/
theorem filterMap_field?_leaders (p : String → Bool) :
    ((t.leaders.map (·.id)).filter p).filterMap t.field? = t.leaders.filter fun f => p f.id := by
  rw [List.filter_map, List.filterMap_map]
  conv => rhs; rw [← List.filterMap_some (l := t.leaders.filter _)]
  exact List.filterMap_congr fun f hf => field?_of_mem_leaders (List.mem_of_mem_filter hf)

theorem nodes_dependencyGraph (t : Template) :
    t.dependencyGraph.nodes = t.leaders.map (·.id) := by
  rw [dependencyGraph_eq, DependencyGraph.nodes_foldl_addEdge, DependencyGraph.nodes_ofFields]

theorem nodup_nodes_dependencyGraph (t : Template) : t.dependencyGraph.nodes.Nodup := by
  rw [dependencyGraph_eq, DependencyGraph.nodes_foldl_addEdge]
  exact DependencyGraph.nodup_firsts

/-- The links without a target, field by field and the parent before the child. -/
theorem danglingLinks_eq (t : Template) : t.danglingLinks = t.fields.flatMap fun f =>
    (f.parent.toList.filter t.lacks).map (.danglingLink f.id .parent ·) ++
      (f.child.toList.filter t.lacks).map (.danglingLink f.id .child ·) := by
  have hlacks : ∀ id, (!(DependencyGraph.ofFields t).nodes.contains id) = t.lacks id := by
    intro id
    rw [Bool.eq_iff_iff, lacks_iff, ← mem_nodes_ofFields]
    simp
  unfold danglingLinks links
  simp only [hlacks]
  rw [List.filter_flatMap, List.map_flatMap]
  refine List.flatMap_congr fun f _ => ?_
  simp only [Field.links, List.map_append, List.filter_append, List.filter_map, List.map_map]
  rfl

theorem isFaithful_resolve (t : Template) : t.resolve.IsFaithful t where
  nodes_nodup := nodup_nodes_dependencyGraph t
  nodes := nodes_dependencyGraph t
  mem_nodes id := by
    show id ∈ t.dependencyGraph.nodes ↔ _
    rw [mem_nodes_dependencyGraph]
    rfl
  edges_nodup := by
    show t.dependencyGraph.edges.Nodup
    rw [dependencyGraph_eq]
    exact DependencyGraph.nodup_edges_foldl_addEdge t _
  mem_edges parent child := by
    refine mem_edges_dependencyGraph.trans (and_congr_right fun _ => and_congr_right fun _ => ?_)
    simp only [Links, and_comm]
  dangling := by
    have hcycles : (t.dependencyGraph.cycles.map TemplateDefect.cycle).filter (·.isDangling) = [] :=
      List.filter_eq_nil_iff.2 fun d hd => by
        obtain ⟨chain, -, rfl⟩ := List.mem_map.1 hd
        exact Bool.false_ne_true
    have hall : t.danglingLinks.filter (·.isDangling) = t.danglingLinks :=
      List.filter_eq_self.2 fun d hd => by
        obtain ⟨l, -, rfl⟩ := List.mem_map.1 hd
        rfl
    show (t.danglingLinks ++ t.dependencyGraph.cycles.map TemplateDefect.cycle).filter _ = _
    rw [List.filter_append, hcycles, hall, List.append_nil, danglingLinks_eq]
  children id := by
    show (t.dependencyGraph.successors id).filterMap t.field? = _
    rw [DependencyGraph.successors_eq_filter, nodes_dependencyGraph, filterMap_field?_leaders]
    rfl
  parent id := by
    show ((t.dependencyGraph.predecessors id).filterMap t.field?).head? = _
    rw [DependencyGraph.predecessors_eq_filter, nodes_dependencyGraph, filterMap_field?_leaders,
      List.head?_filter]
    rfl

end Template

end Filing
