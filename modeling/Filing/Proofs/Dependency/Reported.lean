import Filing.Proofs.Dependency.Declared
import Filing.Proofs.Dependency.Traversal
import Mathlib.Data.List.Permutation

/-!
# Which cycles are reported

A cycle of dependencies is one defect if it is the end of the first way to one of its nodes, and
none otherwise. As each edge of a cycle may lie on others as well, a cycle can stay unreported; but
it always has an edge in common with a cycle that is reported, so one that shares no edge with
another cycle is reported.

Main statement: `countP_reports_defects`.
-/

namespace Filing

/-- The defect is the cycle `c`, from whichever of its nodes on. -/
def TemplateDefect.reports (c : List String) : TemplateDefect → Bool
  | .cycle chain => c.cyclicPermutations.any fun r => r ++ r.take 1 == chain
  | _ => false

namespace DependencyGraph

variable {g : DependencyGraph} {c k : List String}

/-! ## The edges of a cycle -/

/-- The edges of a cycle, the one from its last node back to its first one included. -/
def cycleEdges (c : List String) : List (String × String) := c.zip (c.rotate 1)

/-- Two cycles have an edge in common. -/
def SharesEdge (c k : List String) : Prop := ∃ e ∈ cycleEdges c, e ∈ cycleEdges k

instance (g : DependencyGraph) (a b : String) : Decidable (g.Leads a b) :=
  inferInstanceAs (Decidable (b ∈ g.successors a))

theorem isCycle_iff :
    g.IsCycle c ↔ c ≠ [] ∧ c.Nodup ∧ ∀ e ∈ cycleEdges c, g.Leads e.1 e.2 := by
  have hchain : ∀ first rest, (first :: rest ++ [first]).IsChain g.Leads ↔
      ∀ e ∈ cycleEdges (first :: rest), g.Leads e.1 e.2 := by
    intro first rest
    rw [List.cons_append, List.isChain_cons_iff_forall₂, or_iff_right (by simp),
      List.dropLast_concat, List.forall₂_iff_zip, and_iff_right (by simp), cycleEdges,
      List.rotate_cons_succ, List.rotate_zero, Prod.forall]
  constructor
  · rintro ⟨hnodup, hclosed⟩
    exact ⟨List.cons_ne_nil _ _, hnodup, (hchain _ _).1 hclosed⟩
  · rintro ⟨hne, hnodup, hedges⟩
    obtain ⟨first, rest, rfl⟩ := List.exists_cons_of_ne_nil hne
    exact .mk hnodup ((hchain first rest).2 hedges)

theorem mem_cycleEdges_of_isRotated (h : c.IsRotated k) {e : String × String} :
    e ∈ cycleEdges c ↔ e ∈ cycleEdges k := by
  obtain ⟨n, rfl⟩ := h
  have hrotated : (cycleEdges c).rotate n = cycleEdges (c.rotate n) := by
    unfold cycleEdges List.zip
    rw [List.zipWith_rotate_distrib _ _ _ _ (List.length_rotate c 1).symm, List.rotate_rotate,
      List.rotate_rotate, Nat.add_comm]
  rw [← hrotated, List.mem_rotate]

theorem IsCycle.of_isRotated (hc : g.IsCycle c) (h : c.IsRotated k) : g.IsCycle k := by
  obtain ⟨hne, hnodup, hedges⟩ := isCycle_iff.1 hc
  refine isCycle_iff.2 ⟨?_, h.nodup_iff.1 hnodup, fun e he => ?_⟩
  · rintro rfl
    exact hne (List.isRotated_nil_iff.1 h)
  · exact hedges e ((mem_cycleEdges_of_isRotated h).2 he)

theorem exists_mem_cycleEdges {id : String} (hid : id ∈ c) :
    ∃ next ∈ c, (id, next) ∈ cycleEdges c := by
  have hfirst : (cycleEdges c).map Prod.fst = c := List.map_fst_zip (List.length_rotate c 1).ge
  rw [← hfirst, List.mem_map] at hid
  obtain ⟨⟨_, next⟩, hedge, rfl⟩ := hid
  exact ⟨next, List.mem_rotate.1 (List.of_mem_zip hedge).2, hedge⟩

theorem mem_cycleEdges_of_ends {a b : String} (hhead : c.head? = some b)
    (hlast : c.getLast? = some a) : (a, b) ∈ cycleEdges c := by
  obtain ⟨rest, rfl⟩ := List.head?_eq_some_iff.1 hhead
  obtain ⟨before, hbefore⟩ := List.getLast?_eq_some_iff.1 hlast
  have hlength : before.length = rest.length := by
    have hsum := congrArg List.length hbefore
    rw [List.length_cons, List.length_append, List.length_singleton] at hsum
    omega
  have hedges : cycleEdges (b :: rest) = before.zip rest ++ [(a, b)] := by
    unfold cycleEdges
    rw [List.rotate_cons_succ, List.rotate_zero]
    conv => lhs; rw [hbefore]
    exact List.zip_append hlength
  rw [hedges]
  exact List.mem_append_right _ List.mem_cons_self

/-! ## A cycle always touches one that is found -/

/-- Of a cycle, some node was finished first, and the edge from it along the cycle closes a cycle
that was found. -/
theorem exists_ends_of_settled {cycles : List (List String)} {finished : List String}
    (h : g.Settled cycles finished) (hc : g.IsCycle c) (hmem : ∃ id ∈ c, id ∈ finished) :
    ∃ k ∈ cycles, ∃ e ∈ cycleEdges c, k.head? = some e.2 ∧ k.getLast? = some e.1 := by
  induction finished with
  | nil =>
    obtain ⟨id, -, hid⟩ := hmem
    exact absurd hid List.not_mem_nil
  | cons last earlier ih =>
    by_cases hearlier : ∃ id ∈ c, id ∈ earlier
    · exact ih h.2 hearlier
    · obtain ⟨id, hid, hfinished⟩ := hmem
      rcases List.mem_cons.1 hfinished with rfl | hfinished
      · obtain ⟨next, hnext, hedge⟩ := exists_mem_cycleEdges hid
        rcases h.1 next ((isCycle_iff.1 hc).2.2 _ hedge) with hdone | ⟨k, hk, hends⟩
        · exact absurd ⟨next, hnext, hdone⟩ hearlier
        · exact ⟨k, hk, _, hedge, hends⟩
      · exact absurd ⟨id, hid, hfinished⟩ hearlier

theorem exists_sharesEdge (hnodes : g.nodes.Nodup) (hc : g.IsCycle c) :
    ∃ k ∈ g.search.cycles, SharesEdge c k := by
  obtain ⟨hexact, hfinished⟩ := isExact_search hnodes
  obtain ⟨id, hid⟩ := List.exists_mem_of_ne_nil c hc.ne_nil
  obtain ⟨next, hnext, hedge⟩ := exists_mem_cycleEdges hid
  have hnode : next ∈ g.nodes := (mem_successors.1 ((isCycle_iff.1 hc).2.2 _ hedge)).1
  obtain ⟨k, hk, e, he, hhead, hlast⟩ :=
    exists_ends_of_settled hexact.settled hc ⟨next, hnext, hfinished next hnode⟩
  exact ⟨k, hk, e, he, mem_cycleEdges_of_ends hhead hlast⟩

/-! ## The defects of a cycle -/

theorem eq_of_append_take_one {a b : List String} (h : a ++ a.take 1 = b ++ b.take 1) : a = b := by
  have hopen : ∀ l : List String, (l ++ l.take 1).dropLast = l := by
    rintro (- | ⟨first, rest⟩)
    · rfl
    · exact List.dropLast_concat
  rw [← hopen a, h, hopen b]

theorem reports_cycle_iff :
    TemplateDefect.reports c (.cycle (k ++ k.take 1)) = true ↔ k.IsRotated c := by
  unfold TemplateDefect.reports
  rw [List.any_eq_true]
  constructor
  · rintro ⟨r, hr, heq⟩
    obtain rfl := eq_of_append_take_one (eq_of_beq heq)
    exact List.mem_cyclicPermutations_iff.1 hr
  · exact fun h => ⟨k, List.mem_cyclicPermutations_iff.2 h, beq_self_eq_true _⟩

/-- Chains that are rotations of one cycle have the same members, and of these only one is kept. -/
theorem countP_reports_cycles_le :
    g.cycles.countP (fun chain => TemplateDefect.reports c (.cycle chain)) ≤ 1 := by
  have hmembers : ∀ chain ∈ g.cycles, TemplateDefect.reports c (.cycle chain) = true →
      ∀ id, id ∈ chain ↔ id ∈ c := by
    intro chain hchain hreports id
    obtain ⟨k, -, rfl⟩ := mem_cycles_iff.1 hchain
    rw [mem_append_take_one, (reports_cycle_iff.1 hreports).mem_iff]
  have hdistinct : g.cycles.Pairwise fun a b => ¬ ∀ id, id ∈ a ↔ id ∈ b := pairwise_cycles
  generalize g.cycles = chains at hmembers hdistinct ⊢
  induction chains with
  | nil => exact Nat.zero_le 1
  | cons chain chains ih =>
    obtain ⟨hfirst, hrest⟩ := List.pairwise_cons.1 hdistinct
    obtain ⟨hchain, hchains⟩ := List.forall_mem_cons.1 hmembers
    by_cases hreports : TemplateDefect.reports c (.cycle chain) = true
    · have hnone : chains.countP (fun chain => TemplateDefect.reports c (.cycle chain)) = 0 :=
        List.countP_eq_zero.2 fun other hother hagain => hfirst other hother fun id =>
          (hchain hreports id).trans (hchains other hother hagain id).symm
      rw [List.countP_cons, if_pos hreports, hnone]
    · rw [List.countP_cons, if_neg hreports]
      exact ih hchains hrest

end DependencyGraph

namespace Template

open DependencyGraph

variable (t : Template)

theorem countP_reports_defects_eq (c : List String) :
    t.resolve.defects.countP (TemplateDefect.reports c) =
      t.dependencyGraph.cycles.countP fun chain => TemplateDefect.reports c (.cycle chain) := by
  have hdangling : t.danglingLinks.countP (TemplateDefect.reports c) = 0 := by
    refine List.countP_eq_zero.2 fun defect hdefect => ?_
    unfold danglingLinks at hdefect
    obtain ⟨_, -, rfl⟩ := List.mem_map.1 hdefect
    exact Bool.false_ne_true
  unfold resolve
  rw [List.countP_append, hdangling, Nat.zero_add, List.countP_map]
  rfl

/-- The defects that report a cycle are one if the search keeps it, and otherwise none. -/
theorem countP_reports_defects_eq_one_iff {c : List String} :
    t.resolve.defects.countP (TemplateDefect.reports c) = 1 ↔
      ∃ k ∈ t.dependencyGraph.search.cycles, k.IsRotated c := by
  have hle : (t.dependencyGraph.cycles.countP fun chain =>
      TemplateDefect.reports c (.cycle chain)) ≤ 1 := countP_reports_cycles_le
  have hpos : t.resolve.defects.countP (TemplateDefect.reports c) = 1 ↔
      0 < t.dependencyGraph.cycles.countP fun chain => TemplateDefect.reports c (.cycle chain) := by
    rw [countP_reports_defects_eq]
    omega
  rw [hpos, List.countP_pos_iff]
  constructor
  · rintro ⟨chain, hchain, hreports⟩
    obtain ⟨k, hk, rfl⟩ := mem_cycles_iff.1 hchain
    exact ⟨k, hk, reports_cycle_iff.1 hreports⟩
  · rintro ⟨k, hk, hrotated⟩
    exact ⟨_, mem_cycles_iff.2 ⟨k, hk, rfl⟩, reports_cycle_iff.2 hrotated⟩

/-- Of the cycles of the dependencies no one is reported twice, and those are reported that end the
first way to one of their nodes. A cycle that is not reported shares an edge with one that is; so
one that shares no edge with another is itself reported. -/
theorem countP_reports_defects {c : List String} (hc : t.resolve.graph.IsCycle c) :
    t.resolve.defects.countP (TemplateDefect.reports c) ≤ 1 ∧
      (t.resolve.defects.countP (TemplateDefect.reports c) = 1 ↔
        ∃ r, r.IsRotated c ∧ ∃ before, t.resolve.graph.IsFirstWay (before ++ r)) ∧
      (∃ k, t.resolve.graph.IsCycle k ∧ SharesEdge c k ∧
        t.resolve.defects.countP (TemplateDefect.reports k) = 1) ∧
      ((∀ k, t.resolve.graph.IsCycle k → SharesEdge c k → k.IsRotated c) →
        t.resolve.defects.countP (TemplateDefect.reports c) = 1) := by
  have hnodes := t.nodup_nodes_dependencyGraph
  obtain ⟨k, hk, hshares⟩ := exists_sharesEdge hnodes hc
  obtain ⟨hcycle, -⟩ := (mem_cycles_search_iff hnodes).1 hk
  refine ⟨?_, ?_, ⟨k, hcycle, hshares, ?_⟩, fun halone => ?_⟩
  · rw [countP_reports_defects_eq]
    exact countP_reports_cycles_le
  · rw [countP_reports_defects_eq_one_iff]
    constructor
    · rintro ⟨r, hr, hrotated⟩
      exact ⟨r, hrotated, ((mem_cycles_search_iff hnodes).1 hr).2⟩
    · rintro ⟨r, hrotated, hway⟩
      exact ⟨r, (mem_cycles_search_iff hnodes).2 ⟨hc.of_isRotated hrotated.symm, hway⟩, hrotated⟩
  · exact t.countP_reports_defects_eq_one_iff.2 ⟨k, hk, .refl k⟩
  · exact t.countP_reports_defects_eq_one_iff.2 ⟨k, hk, halone k hcycle hshares⟩

/-- A form in which two fields depend on each other. -/
def roundForm : Template where
  version := "1"
  formCode := "01/GTGT"
  sections := [⟨"S1", .static [
    { id := "a", path := "A", control := .text, controlCode := "1", child := some "b" },
    { id := "b", path := "B", control := .text, controlCode := "1", child := some "a" }]⟩]

/-- The form has no other cycle. -/
theorem isRotated_of_isCycle_roundForm {k : List String}
    (hk : roundForm.resolve.graph.IsCycle k) : k.IsRotated ["a", "b"] := by
  have hedges : roundForm.resolve.graph.edges = [("a", "b"), ("b", "a")] := by decide
  have hnext : ∀ id ∈ k, (id = "a" ∧ "b" ∈ k) ∨ (id = "b" ∧ "a" ∈ k) := by
    intro id hid
    obtain ⟨next, hmem, hedge⟩ := exists_mem_cycleEdges hid
    have hleads := (mem_successors.1 ((isCycle_iff.1 hk).2.2 _ hedge)).2
    rw [hedges, List.mem_pair, Prod.mk.injEq, Prod.mk.injEq] at hleads
    rcases hleads with ⟨rfl, rfl⟩ | ⟨rfl, rfl⟩
    · exact .inl ⟨rfl, hmem⟩
    · exact .inr ⟨rfl, hmem⟩
  have hboth : "a" ∈ k ∧ "b" ∈ k := by
    obtain ⟨id, hid⟩ := List.exists_mem_of_ne_nil k hk.ne_nil
    rcases hnext id hid with ⟨rfl, hb⟩ | ⟨rfl, ha⟩
    · exact ⟨hid, hb⟩
    · exact ⟨ha, hid⟩
  have hperm : k.Perm ["a", "b"] := by
    refine (List.perm_ext_iff_of_nodup hk.nodup (by decide)).2 fun id => ?_
    rw [List.mem_pair]
    refine ⟨fun hid => (hnext id hid).imp And.left And.left, ?_⟩
    rintro (rfl | rfl)
    · exact hboth.1
    · exact hboth.2
  rcases List.perm_pair.1 hperm with rfl | rfl
  · exact .refl _
  · exact ⟨1, rfl⟩

theorem countP_reports_defects_roundForm :
    roundForm.resolve.graph.IsCycle ["a", "b"] ∧
      (∀ k, roundForm.resolve.graph.IsCycle k → SharesEdge ["a", "b"] k →
        k.IsRotated ["a", "b"]) ∧
      roundForm.resolve.defects.countP (TemplateDefect.reports ["a", "b"]) = 1 := by
  have hc : roundForm.resolve.graph.IsCycle ["a", "b"] :=
    isCycle_iff.2 ⟨by decide, by decide, by decide⟩
  have halone : ∀ k, roundForm.resolve.graph.IsCycle k → SharesEdge ["a", "b"] k →
      k.IsRotated ["a", "b"] := fun _ hk _ => isRotated_of_isCycle_roundForm hk
  exact ⟨hc, halone, (countP_reports_defects roundForm hc).2.2.2 halone⟩

/-- The form with a way around: another field leads from `a` to `b`. -/
def detourForm : Template where
  version := "1"
  formCode := "01/GTGT"
  sections := [⟨"S1", .static [
    { id := "a", path := "A", control := .text, controlCode := "1", child := some "b" },
    { id := "b", path := "B", control := .text, controlCode := "1", child := some "a" },
    { id := "c", path := "C", control := .text, controlCode := "1", parent := some "a",
      child := some "b" }]⟩]

/-- The cycle along the way around is not reported: when the search comes to `c`, the node `b` is
finished. -/
theorem countP_reports_defects_detourForm :
    detourForm.resolve.graph.IsCycle ["a", "c", "b"] ∧
      detourForm.resolve.defects.countP (TemplateDefect.reports ["a", "c", "b"]) = 0 :=
  ⟨isCycle_iff.2 ⟨by decide, by decide, by decide⟩, by decide⟩

end Template

end Filing
