import Filing.Proofs.Dependency.Ways
import Mathlib.Data.List.Rotate

/-!
# Which cycles the search keeps

The search finds a cycle whenever an edge leads back from the end of its way to a node on it, and
its ways are the first ways. So it keeps those cycles that are the end of a first way, and no
others. Two such cycles never have the same members, so the comparison of members never leaves one
out.

Main statement: `mem_cycles_search_iff`.
-/

namespace Filing

namespace DependencyGraph

variable {g : DependencyGraph}

/-- A way all parts of which are first ways. -/
def IsTraced (g : DependencyGraph) (way : List String) : Prop :=
  ∀ part, part <+: way → g.IsFirstWay part

theorem IsTraced.prefix_of_mem {way other : List String} {last : String} (hway : g.IsTraced way)
    (hother : g.IsFirstWay other) (hlast : other.getLast? = some last) (hmem : last ∈ way) :
    other <+: way := by
  obtain ⟨part, hpart⟩ := Standing.exists_part hmem
  have heq : other = part ++ [last] := hother.unique (hway _ hpart) (by rw [hlast]; simp)
  exact heq ▸ hpart

theorem IsCycle.ne_nil {c : List String} (h : g.IsCycle c) : c ≠ [] := by
  cases h
  exact List.cons_ne_nil _ _

theorem IsCycle.nodup {c : List String} (h : g.IsCycle c) : c.Nodup := by
  cases h
  assumption

/-- Two cycles at the ends of traced ways are the same if they have the same members: the way of
each ends within the way of the other. -/
theorem eq_of_isTraced {before before' c c' : List String} (hc : c ≠ []) (hc' : c' ≠ [])
    (hway : g.IsTraced (before ++ c)) (hway' : g.IsTraced (before' ++ c'))
    (hsame : ∀ id, id ∈ c ↔ id ∈ c') : c = c' := by
  have hlast : (before ++ c).getLast? = some (c.getLast hc) := by
    rw [List.getLast?_append_of_ne_nil _ hc, List.getLast?_eq_some_getLast]
  have hlast' : (before' ++ c').getLast? = some (c'.getLast hc') := by
    rw [List.getLast?_append_of_ne_nil _ hc', List.getLast?_eq_some_getLast]
  have hmem : c.getLast hc ∈ before' ++ c' :=
    List.mem_append_right _ ((hsame _).1 (List.getLast_mem hc))
  have hmem' : c'.getLast hc' ∈ before ++ c :=
    List.mem_append_right _ ((hsame _).2 (List.getLast_mem hc'))
  have hle := hway'.prefix_of_mem (hway _ (List.prefix_refl _)) hlast hmem
  have hge := hway.prefix_of_mem (hway' _ (List.prefix_refl _)) hlast' hmem'
  have heq : before ++ c = before' ++ c' := hle.eq_of_length_le hge.length_le
  have hnodup := (hway _ (List.prefix_refl _)).isWay.nodup
  have hnodup' := (hway' _ (List.prefix_refl _)).isWay.nodup
  have hperm : c.Perm c' := (List.perm_ext_iff_of_nodup (List.nodup_append.1 hnodup).2.1
    (List.nodup_append.1 hnodup').2.1).2 hsame
  exact (List.append_inj' heq hperm.length_eq).2

/-- Each edge from a finished node leads to one that was finished before it, or closes a cycle that
was found. The list is that of the finished nodes, the latest first. -/
def Settled (g : DependencyGraph) (cycles : List (List String)) : List String → Prop
  | [] => True
  | id :: earlier =>
    (∀ next, g.Leads id next →
      next ∈ earlier ∨ ∃ c ∈ cycles, c.head? = some next ∧ c.getLast? = some id) ∧
      Settled g cycles earlier

theorem Settled.mono {cycles more : List (List String)} (hsub : cycles ⊆ more)
    {finished : List String} (h : g.Settled cycles finished) : g.Settled more finished := by
  induction finished with
  | nil => trivial
  | cons id earlier ih =>
    refine ⟨fun next hnext => (h.1 next hnext).imp_right ?_, ih h.2⟩
    rintro ⟨c, hc, hends⟩
    exact ⟨c, hsub hc, hends⟩

/-! ## What the search knows -/

/-- The search stands at the end of `way` and has kept just the cycles that end the first way to a
finished node, or to a node of the way. -/
structure Search.IsExact (g : DependencyGraph) (s : Search) (way : List String) : Prop where
  standing : g.Standing s.finished way
  sound : ∀ c ∈ s.cycles, g.IsCycle c ∧ ∃ before, g.IsTraced (before ++ c)
  complete : ∀ before c id, g.IsFirstWay (before ++ c) → g.IsCycle c → c.getLast? = some id →
    id ∈ s.finished → c ∈ s.cycles
  settled : g.Settled s.cycles s.finished

/-- An edge from the end of a way is done with: it leads to a finished node, or back onto the way,
and then the cycle that it closes is kept. -/
def Search.IsDone (s : Search) (way : List String) (next : String) : Prop :=
  next ∈ s.finished ∨
    next ∈ way ∧ ∃ c ∈ s.cycles, c.head? = some next ∧ c.getLast? = way.getLast?

theorem Search.IsDone.extends {s r : Search} {way : List String} {next : String}
    (h : s.IsDone way next) (hr : s.Extends r) : r.IsDone way next := by
  rcases h with hmem | ⟨hmem, c, hc, hends⟩
  · exact .inl (hr.finished hmem)
  · exact .inr ⟨hmem, c, hr.cycles hc, hends⟩

theorem isTrail_of_isWay {path : List String} (h : g.IsWay path.reverse) : g.IsTrail path where
  nodup := List.nodup_reverse.1 h.nodup
  nodes id hid := h.nodes id (List.mem_reverse.2 hid)
  chain := List.isChain_reverse.1 h.chain

/-- The cycle that an edge back onto the way closes is the end of the way. -/
theorem exists_append_cycleFrom {next : String} {path : List String} (hmem : next ∈ path) :
    ∃ before, path.reverse = before ++ cycleFrom next path := by
  obtain ⟨behind, rest, rfl, hbehind⟩ := List.eq_append_cons_of_mem hmem
  exact ⟨rest.reverse, by rw [cycleFrom_append hbehind]; simp⟩

namespace Search.IsExact

variable {s : Search} {path : List String} {id : String}

/-- An edge back onto the way is done with by keeping its cycle. -/
theorem record (h : s.IsExact g (id :: path).reverse) {next : String} (hnext : g.Leads id next)
    (hmem : next ∈ id :: path) : (s.record (cycleFrom next (id :: path))).IsExact g
      (id :: path).reverse ∧ s.Extends (s.record (cycleFrom next (id :: path))) ∧
      (s.record (cycleFrom next (id :: path))).IsDone (id :: path).reverse next := by
  have htraced : g.IsTraced (id :: path).reverse := h.standing.first
  have htrail := isTrail_of_isWay (htraced _ (List.prefix_refl _)).isWay
  obtain ⟨hcycle, -, -⟩ := htrail.isCycle hnext hmem
  obtain ⟨before, hbefore⟩ := exists_append_cycleFrom hmem
  have hends : (cycleFrom next (id :: path)).getLast? = (id :: path).reverse.getLast? := by
    rw [hbefore, List.getLast?_append_of_ne_nil _ hcycle.ne_nil]
  rw [hbefore] at htraced
  by_cases hany : s.cycles.any (sameMembers (cycleFrom next (id :: path))) = true
  · have hrecord : s.record (cycleFrom next (id :: path)) = s := if_pos hany
    obtain ⟨known, hknown, hsame⟩ := List.any_eq_true.1 hany
    obtain ⟨hsimple, before', htraced'⟩ := h.sound known hknown
    have heq : cycleFrom next (id :: path) = known :=
      eq_of_isTraced hcycle.ne_nil hsimple.ne_nil htraced htraced' (sameMembers_iff.1 hsame)
    rw [hrecord]
    exact ⟨h, .refl s, .inr ⟨List.mem_reverse.2 hmem, _, heq ▸ hknown, rfl, hends⟩⟩
  · have hrecord : s.record (cycleFrom next (id :: path)) =
        { s with cycles := cycleFrom next (id :: path) :: s.cycles } := if_neg hany
    have hsub : s.cycles ⊆ cycleFrom next (id :: path) :: s.cycles := List.subset_cons_self _ _
    rw [hrecord]
    refine ⟨⟨h.standing, ?_, ?_, h.settled.mono hsub⟩, ⟨List.Subset.refl _, hsub⟩,
      .inr ⟨List.mem_reverse.2 hmem, _, List.mem_cons_self, rfl, hends⟩⟩
    · exact List.forall_mem_cons.2 ⟨⟨hcycle, before, htraced⟩, h.sound⟩
    · exact fun before c last hway hc hlast hfinished =>
        List.mem_cons_of_mem _ (h.complete before c last hway hc hlast hfinished)

/-- A cycle that ends the way of the search is kept when the edges from the end of the way are
done. -/
theorem mem_cycles_of_isDone {way : List String} (h : s.IsExact g way)
    (hdone : ∀ next ∈ g.onward way, s.IsDone way next) {before c : List String}
    (hway : before ++ c = way) (hcycle : g.IsCycle c) : c ∈ s.cycles := by
  have hfirst : g.IsFirstWay way := h.standing.first _ (List.prefix_refl _)
  have hnodup := hfirst.isWay.nodup
  cases hcycle with
  | @mk first rest _ hchain =>
    obtain ⟨last, hlast⟩ := Option.isSome_iff_exists.1
      (List.getLast?_isSome.2 (List.cons_ne_nil first rest))
    have hends : way.getLast? = some last := by
      rw [← hway, List.getLast?_append_of_ne_nil _ (List.cons_ne_nil _ _), hlast]
    have honward : first ∈ g.onward way := by
      have hleads : g.Leads last first := (List.isChain_append.1 hchain).2.2 last hlast first rfl
      rw [onward, hends]
      exact hleads
    rcases hdone first honward with hmem | ⟨-, c, hc, hhead, hlast'⟩
    · exact absurd hmem (h.standing.fresh first (by rw [← hway]; simp))
    · obtain ⟨hsimple, before', htraced⟩ := h.sound c hc
      have heq : before' ++ c = way := (htraced _ (List.prefix_refl _)).unique hfirst
        (by rw [List.getLast?_append_of_ne_nil _ hsimple.ne_nil, hlast'])
      obtain ⟨rest', rfl⟩ := List.head?_eq_some_iff.1 hhead
      rw [← hway, List.nodup_append, List.nodup_cons] at hnodup
      obtain ⟨-, ⟨hrest, -⟩, hout⟩ := hnodup
      have hbefore : first ∉ before := fun hmem => hout first hmem first List.mem_cons_self rfl
      obtain ⟨-, -, rfl⟩ :=
        (List.append_cons_inj_of_notMem hbefore hrest).1 (hway.trans heq.symm)
      exact hc

/-- With all edges from its last node done, the search finishes the node and goes back. -/
theorem finish {way : List String} (h : s.IsExact g (way ++ [id]))
    (hdone : ∀ next ∈ g.onward (way ++ [id]), s.IsDone (way ++ [id]) next) :
    IsExact g { s with finished := id :: s.finished } way := by
  have hleads : ∀ next, g.Leads id next → s.IsDone (way ++ [id]) next := fun next hnext =>
    hdone next (by rwa [onward_concat])
  refine ⟨h.standing.pop fun next hnext => (hleads next hnext).imp_right And.left, h.sound, ?_,
    fun next hnext => (hleads next hnext).imp_right ?_, h.settled⟩
  · intro before c last hway hcycle hlast hfinished
    rcases List.mem_cons.1 hfinished with rfl | hfinished
    · have hends : (before ++ c).getLast? = (way ++ [last]).getLast? := by
        rw [List.getLast?_append_of_ne_nil _ hcycle.ne_nil, hlast, List.getLast?_concat]
      exact h.mem_cycles_of_isDone hdone
        (hway.unique (h.standing.first _ (List.prefix_refl _)) hends) hcycle
    · exact h.complete before c last hway hcycle hlast hfinished
  · rintro ⟨-, c, hc, hhead, hlast⟩
    exact ⟨c, hc, hhead, by rw [hlast, List.getLast?_concat]⟩

end Search.IsExact

/-! ## Steps of the search -/

/-- What the search has to do at a node for which it is time: it visits the node and is done with
it. -/
def Visits (g : DependencyGraph) (depth : Nat) (path : List String) : Prop :=
  ∀ (s : Search) (id : String), s.IsExact g path.reverse → id ∈ g.onward path.reverse →
    id ∉ path → id ∉ s.finished →
    (∀ other ∈ g.onward path.reverse, g.Before other id →
      other ∈ s.finished ∨ other ∈ path.reverse) →
    (g.visit depth path s id).IsExact g path.reverse ∧ s.Extends (g.visit depth path s id) ∧
      id ∈ (g.visit depth path s id).finished

section Steps

variable (hnodes : g.nodes.Nodup) {depth : Nat} {path : List String}
  (hvisits : g.Visits depth path) {s : Search}

include hnodes hvisits in
/-- After those before it, the next node at the end of the way is done with. -/
theorem isDone_visitNext {done todo : List String} {next : String}
    (hsplit : done ++ next :: todo = g.onward path.reverse) (hs : s.IsExact g path.reverse)
    (hdone : ∀ id ∈ done, s.IsDone path.reverse id) :
    (g.visitNext depth path s next).IsExact g path.reverse ∧
      s.Extends (g.visitNext depth path s next) ∧
      (g.visitNext depth path s next).IsDone path.reverse next := by
  have honward : next ∈ g.onward path.reverse := by rw [← hsplit]; simp
  unfold visitNext
  split
  · next hmem =>
    cases path with
    | nil => exact absurd hmem List.not_mem_nil
    | cons id path =>
      refine hs.record ?_ hmem
      rwa [List.reverse_cons, onward_concat] at honward
  · next hnew =>
    split
    · next hfinished => exact ⟨hs, .refl s, .inl hfinished⟩
    · next hfresh =>
      have hpassed : ∀ other ∈ g.onward path.reverse, g.Before other next →
          other ∈ s.finished ∨ other ∈ path.reverse := by
        intro other hother hbefore
        have hsorted := pairwise_before_onward hnodes path.reverse
        rw [← hsplit] at hother hsorted
        have hmem : other ∈ done := by
          refine (List.mem_append.1 hother).resolve_right fun hlater => ?_
          rcases List.mem_cons.1 hlater with rfl | hlater
          · exact Nat.lt_irrefl _ hbefore
          · have hafter := List.rel_of_pairwise_cons (List.pairwise_append.1 hsorted).2.1 hlater
            exact Nat.lt_asymm hbefore hafter
        exact (hdone other hmem).imp_right And.left
      obtain ⟨hexact, hext, hmem⟩ := hvisits s next hs honward hnew hfresh hpassed
      exact ⟨hexact, hext, .inl hmem⟩

include hnodes hvisits in
/-- One after another, all nodes at the end of the way are done with. -/
theorem isDone_foldl_visitNext {done todo : List String}
    (hsplit : done ++ todo = g.onward path.reverse) (hs : s.IsExact g path.reverse)
    (hdone : ∀ id ∈ done, s.IsDone path.reverse id) :
    (todo.foldl (g.visitNext depth path) s).IsExact g path.reverse ∧
      s.Extends (todo.foldl (g.visitNext depth path) s) ∧
      ∀ id ∈ g.onward path.reverse,
        (todo.foldl (g.visitNext depth path) s).IsDone path.reverse id := by
  induction todo generalizing done s with
  | nil =>
    rw [List.append_nil] at hsplit
    exact ⟨hs, .refl s, hsplit ▸ hdone⟩
  | cons next todo ih =>
    obtain ⟨hexact, hext, hnext⟩ := isDone_visitNext hnodes hvisits hsplit hs hdone
    have hdone' : ∀ id ∈ done ++ [next],
        (g.visitNext depth path s next).IsDone path.reverse id := by
      intro id hid
      rcases List.mem_append.1 hid with hid | hid
      · exact (hdone id hid).extends hext
      · exact List.mem_singleton.1 hid ▸ hnext
    obtain ⟨hexact', hext', hall⟩ := ih (by rw [← hsplit]; simp) hexact hdone'
    exact ⟨hexact', hext.trans hext', hall⟩

end Steps

/-- As long as the way leaves enough of the depth, the search visits what it comes to. -/
theorem visits (hnodes : g.nodes.Nodup) {depth : Nat} {path : List String}
    (hdepth : g.nodes.length ≤ depth + path.length) : g.Visits depth path := by
  induction depth generalizing path with
  | zero =>
    intro s id hs honward hnew hfresh hpassed
    have hpush := hs.standing.push honward (by simpa using hnew) hfresh hpassed
    rw [← List.reverse_cons] at hpush
    have hlength := (isTrail_of_isWay (hpush.first _ (List.prefix_refl _)).isWay).length_le
    rw [List.length_cons] at hlength
    omega
  | succ depth ih =>
    intro s id hs honward hnew hfresh hpassed
    have hpush : s.IsExact g (id :: path).reverse := by
      refine ⟨?_, hs.sound, hs.complete, hs.settled⟩
      rw [List.reverse_cons]
      exact hs.standing.push honward (by simpa using hnew) hfresh hpassed
    have hdepth' : g.nodes.length ≤ depth + (id :: path).length := by
      rw [List.length_cons]
      omega
    have hsplit : [] ++ g.successors id = g.onward (id :: path).reverse := by
      rw [List.reverse_cons, onward_concat, List.nil_append]
    obtain ⟨hexact, hext, hall⟩ :=
      isDone_foldl_visitNext hnodes (ih hdepth') hsplit hpush (by simp)
    rw [List.reverse_cons] at hexact hall
    rw [visit_succ]
    exact ⟨hexact.finish hall, ⟨List.subset_cons_of_subset _ hext.finished, hext.cycles⟩,
      List.mem_cons_self⟩

/-! ## The whole search -/

theorem search_eq_foldl (g : DependencyGraph) :
    g.search = g.nodes.foldl (g.visitNext g.nodes.length []) {} := by
  unfold search visitNext
  simp

theorem isExact_search (hnodes : g.nodes.Nodup) :
    g.search.IsExact g [] ∧ ∀ id ∈ g.nodes, id ∈ g.search.finished := by
  have hstart : Search.IsExact g {} [] :=
    ⟨.start g, by simp, fun _ _ id _ _ _ hid => absurd hid List.not_mem_nil, trivial⟩
  have hvisits : g.Visits g.nodes.length [] := visits hnodes (Nat.le_add_right _ _)
  have hsplit : [] ++ g.nodes = g.onward [].reverse := rfl
  obtain ⟨hexact, -, hall⟩ :=
    isDone_foldl_visitNext hnodes hvisits hsplit hstart fun _ hid => absurd hid List.not_mem_nil
  rw [search_eq_foldl]
  exact ⟨hexact, fun id hid => (hall id hid).resolve_right fun h => List.not_mem_nil h.1⟩

/-- The search keeps the cycles that are the end of a first way. -/
theorem mem_cycles_search_iff (hnodes : g.nodes.Nodup) {c : List String} :
    c ∈ g.search.cycles ↔ g.IsCycle c ∧ ∃ before, g.IsFirstWay (before ++ c) := by
  obtain ⟨hexact, hfinished⟩ := isExact_search hnodes
  constructor
  · intro hc
    obtain ⟨hcycle, before, htraced⟩ := hexact.sound c hc
    exact ⟨hcycle, before, htraced _ (List.prefix_refl _)⟩
  · rintro ⟨hcycle, before, hway⟩
    obtain ⟨last, hlast⟩ := Option.isSome_iff_exists.1 (List.getLast?_isSome.2 hcycle.ne_nil)
    have hnode : last ∈ g.nodes :=
      hway.isWay.nodes last (List.mem_append_right _ (List.mem_of_getLast? hlast))
    exact hexact.complete before c last hway hcycle hlast (hfinished last hnode)

end DependencyGraph

end Filing
