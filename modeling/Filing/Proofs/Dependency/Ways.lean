import Filing.Proofs.Dependency.Ordering

/-!
# First ways

A way leads from node to node without meeting one twice. Of two ways that part, that one comes
before the other which goes on to the earlier node of the template. A depth-first search that takes
the nodes in this order comes to each node by the first of all ways to it, wherever they begin.

Main statement: `Standing.push`, by which the way of the search stays the first one when it goes on
to the next node.
-/

namespace Filing

namespace DependencyGraph

variable {g : DependencyGraph}

/-- A way along the edges of the graph that meets no node twice. -/
structure IsWay (g : DependencyGraph) (way : List String) : Prop where
  nodup : way.Nodup
  nodes : ∀ id ∈ way, id ∈ g.nodes
  chain : way.IsChain g.Leads

/-- Where two ways part, the one goes on to an earlier node than the other. -/
def Precedes (g : DependencyGraph) (way other : List String) : Prop :=
  ∃ shared a b rest rest', way = shared ++ a :: rest ∧ other = shared ++ b :: rest' ∧ g.Before a b

/-- A way that no other way to the same node precedes. -/
structure IsFirstWay (g : DependencyGraph) (way : List String) : Prop where
  isWay : g.IsWay way
  first : ∀ other, g.IsWay other → other.getLast? = way.getLast? → ¬ g.Precedes other way

/-- The nodes to which a way can go on; the empty one can begin anywhere. -/
def onward (g : DependencyGraph) (way : List String) : List String :=
  way.getLast?.elim g.nodes g.successors

/-! ## Parts of ways -/

@[simp] theorem onward_concat (way : List String) (id : String) :
    g.onward (way ++ [id]) = g.successors id := by
  rw [onward, List.getLast?_concat]
  rfl

theorem pairwise_before_onward (hnodes : g.nodes.Nodup) (way : List String) :
    (g.onward way).Pairwise g.Before := by
  unfold onward
  cases way.getLast? with
  | none => exact pairwise_before hnodes
  | some last => exact pairwise_before_successors hnodes last

theorem mem_nodes_of_mem_onward {way : List String} {id : String} (h : id ∈ g.onward way) :
    id ∈ g.nodes := by
  unfold onward at h
  cases hlast : way.getLast? with
  | none => rwa [hlast] at h
  | some last =>
    rw [hlast] at h
    exact (mem_successors.1 h).1

theorem isWay_append_singleton {way : List String} {id : String} :
    g.IsWay (way ++ [id]) ↔ g.IsWay way ∧ id ∉ way ∧ id ∈ g.onward way := by
  constructor
  · rintro ⟨hnodup, hnodes, hchain⟩
    obtain ⟨hchain, -, hlink⟩ := List.isChain_append.1 hchain
    obtain ⟨hnodup, -, hnew⟩ := List.nodup_append.1 hnodup
    refine ⟨⟨hnodup, fun a ha => hnodes a (List.mem_append_left _ ha), hchain⟩,
      fun hmem => hnew id hmem id List.mem_cons_self rfl, ?_⟩
    unfold onward
    cases hlast : way.getLast? with
    | none => exact hnodes id (by simp)
    | some last => exact hlink last hlast id rfl
  · rintro ⟨⟨hnodup, hnodes, hchain⟩, hnew, honward⟩
    refine ⟨?_, ?_, List.isChain_append.2 ⟨hchain, List.isChain_singleton id, ?_⟩⟩
    · refine List.nodup_append.2 ⟨hnodup, List.nodup_singleton id, fun a ha b hb heq => hnew ?_⟩
      exact List.mem_singleton.1 hb ▸ heq ▸ ha
    · rintro a ha
      rcases List.mem_append.1 ha with ha | ha
      · exact hnodes a ha
      · exact List.mem_singleton.1 ha ▸ mem_nodes_of_mem_onward honward
    · intro last hlast b hb
      unfold onward at honward
      rw [Option.mem_def.1 hlast] at honward
      rwa [← Option.some.inj hb]

theorem IsWay.of_prefix {part way : List String} (h : g.IsWay way) (hpart : part <+: way) :
    g.IsWay part where
  nodup := h.nodup.sublist hpart.sublist
  nodes id hid := h.nodes id (hpart.subset hid)
  chain := h.chain.prefix hpart

/-! ## The first way to a node is unique -/

/-- Two lists without repetitions that end alike are the same or part somewhere. -/
theorem eq_or_exists_parting {l l' : List String} (hl : l.Nodup) (hl' : l'.Nodup)
    (hlast : l.getLast? = l'.getLast?) : l = l' ∨ ∃ shared a b rest rest',
      l = shared ++ a :: rest ∧ l' = shared ++ b :: rest' ∧ a ≠ b := by
  induction l generalizing l' with
  | nil =>
    rw [List.getLast?_nil, eq_comm, List.getLast?_eq_none_iff] at hlast
    exact .inl hlast.symm
  | cons a l ih =>
    cases l' with
    | nil => simp at hlast
    | cons b l' =>
      by_cases hab : a = b
      · subst hab
        obtain ⟨hnew, hl⟩ := List.nodup_cons.1 hl
        obtain ⟨hnew', hl'⟩ := List.nodup_cons.1 hl'
        have hlast' : l.getLast? = l'.getLast? := by
          rw [List.getLast?_cons, List.getLast?_cons, Option.some.injEq] at hlast
          cases hend : l.getLast? with
          | none =>
            cases hend' : l'.getLast? with
            | none => rfl
            | some last =>
              rw [hend, hend', Option.getD_none, Option.getD_some] at hlast
              exact absurd (hlast ▸ List.mem_of_getLast? hend') hnew'
          | some last =>
            cases hend' : l'.getLast? with
            | none =>
              rw [hend, hend', Option.getD_none, Option.getD_some] at hlast
              exact absurd (hlast ▸ List.mem_of_getLast? hend) hnew
            | some last' =>
              rw [hend, hend', Option.getD_some, Option.getD_some] at hlast
              rw [hlast]
        rcases ih hl hl' hlast' with rfl | ⟨shared, c, d, rest, rest', rfl, rfl, hcd⟩
        · exact .inl rfl
        · exact .inr ⟨a :: shared, c, d, rest, rest', rfl, rfl, hcd⟩
      · exact .inr ⟨[], a, b, l, l', rfl, rfl, hab⟩

/-- Of two ways to the same node, one precedes the other. -/
theorem IsWay.eq_or_precedes {way other : List String} (hway : g.IsWay way) (hother : g.IsWay other)
    (hlast : way.getLast? = other.getLast?) :
    way = other ∨ g.Precedes way other ∨ g.Precedes other way := by
  rcases eq_or_exists_parting hway.nodup hother.nodup hlast with
    heq | ⟨shared, a, b, rest, rest', rfl, rfl, hne⟩
  · exact .inl heq
  · have ha : a ∈ g.nodes := hway.nodes a (by simp)
    have hplaces : g.nodes.idxOf a ≠ g.nodes.idxOf b := fun heq => hne ((List.idxOf_inj ha).1 heq)
    rcases Nat.lt_or_gt_of_ne hplaces with hlt | hgt
    · exact .inr (.inl ⟨shared, a, b, rest, rest', rfl, rfl, hlt⟩)
    · exact .inr (.inr ⟨shared, b, a, rest', rest, rfl, rfl, hgt⟩)

theorem IsFirstWay.unique {way other : List String} (hway : g.IsFirstWay way)
    (hother : g.IsFirstWay other) (hlast : way.getLast? = other.getLast?) : way = other := by
  rcases hway.isWay.eq_or_precedes hother.isWay hlast with heq | hbefore | hbefore
  · exact heq
  · exact absurd hbefore (hother.first way hway.isWay hlast)
  · exact absurd hbefore (hway.first other hother.isWay hlast.symm)

/-! ## How the search stands -/

/-- The search has come along `way` and is done with the nodes in `finished`: the way and all its
parts are first ways, wherever the way could have gone on to an earlier node this has been done, and
from the finished nodes nothing leads to a node that is neither finished nor on the way. -/
structure Standing (g : DependencyGraph) (finished way : List String) : Prop where
  first : ∀ part, part <+: way → g.IsFirstWay part
  passed : ∀ part id, part ++ [id] <+: way → ∀ other ∈ g.onward part, g.Before other id →
    other ∈ finished ∨ other ∈ part
  fresh : ∀ id ∈ way, id ∉ finished
  closed : ∀ id ∈ finished, ∀ next, g.Leads id next → next ∈ finished ∨ next ∈ way

namespace Standing

variable {finished way : List String} {id : String}

/-- The part of the way up to a node that is on it. -/
theorem exists_part (hid : id ∈ way) : ∃ part, part ++ [id] <+: way := by
  obtain ⟨part, rest, rfl⟩ := List.append_of_mem hid
  exact ⟨part, rest, by simp⟩

/-- From a finished node, a way to one that is not finished crosses the way of the search. -/
theorem exists_crossing (h : g.Standing finished way) {a : String} {rest : List String}
    (hchain : (a :: rest).IsChain g.Leads) (ha : a ∈ finished) (hid : id ∈ a :: rest)
    (hfresh : id ∉ finished) : ∃ before z after, rest = before ++ z :: after ∧ z ∈ way := by
  induction rest generalizing a with
  | nil => exact absurd (List.mem_singleton.1 hid ▸ ha) hfresh
  | cons b rest ih =>
    obtain ⟨hab, hchain⟩ := List.isChain_cons_cons.1 hchain
    rcases h.closed a ha b hab with hb | hb
    · have hid : id ∈ b :: rest := (List.mem_cons.1 hid).resolve_left fun heq => hfresh (heq ▸ ha)
      obtain ⟨before, z, after, rfl, hz⟩ := ih hchain hb hid
      exact ⟨b :: before, z, after, rfl, hz⟩
    · exact ⟨[], b, rest, rfl, hb⟩

section Push

variable (h : g.Standing finished way) (honward : id ∈ g.onward way) (hnew : id ∉ way)
  (hfresh : id ∉ finished)
  (hpassed : ∀ other ∈ g.onward way, g.Before other id → other ∈ finished ∨ other ∈ way)

include h hpassed in
theorem passed_push {part : List String} {last : String} (hpart : part ++ [last] <+: way ++ [id]) :
    ∀ other ∈ g.onward part, g.Before other last → other ∈ finished ∨ other ∈ part := by
  rcases List.prefix_concat_iff.1 hpart with heq | hpart
  · obtain ⟨rfl, hid⟩ := List.append_inj' heq rfl
    obtain rfl := List.head_eq_of_cons_eq hid
    exact hpassed
  · exact h.passed part last hpart

include h honward hnew hfresh hpassed

/-- No way precedes that of the search: where they part, the other one goes on to a node that is
finished, so it crosses the way of the search again, at a node to which it would have been first. -/
theorem isFirstWay_push : g.IsFirstWay (way ++ [id]) := by
  have hway : g.IsWay (way ++ [id]) :=
    isWay_append_singleton.2 ⟨(h.first way (List.prefix_refl way)).isWay, hnew, honward⟩
  refine ⟨hway, ?_⟩
  rintro other hother hlast ⟨shared, a, b, rest, rest', rfl, heq, hbefore⟩
  have hparting : shared ++ [b] <+: way ++ [id] := ⟨rest', by rw [heq]; simp⟩
  have hturn : g.IsWay (shared ++ [a]) := hother.of_prefix ⟨rest, by simp⟩
  obtain ⟨-, hout, hon⟩ := isWay_append_singleton.1 hturn
  have hfinished : a ∈ finished :=
    (passed_push h hpassed hparting a hon hbefore).resolve_right hout
  have hid : id ∈ a :: rest := by
    rw [List.getLast?_append_of_ne_nil _ (by simp), List.getLast?_concat] at hlast
    exact List.mem_of_getLast? hlast
  obtain ⟨before, z, after, rfl, hz⟩ :=
    h.exists_crossing hother.chain.right_of_append hfinished hid hfresh
  have hcrossing : g.IsWay (shared ++ a :: (before ++ [z])) := hother.of_prefix ⟨after, by simp⟩
  have hzshared : z ∉ shared := fun hmem =>
    (List.nodup_append.1 hcrossing.nodup).2.2 z hmem z (by simp) rfl
  obtain ⟨part, hpart⟩ := exists_part hz
  obtain ⟨more, hmore⟩ : ∃ more, part ++ [z] = shared ++ b :: more := by
    rcases List.prefix_or_prefix_of_prefix hparting (hpart.trans (List.prefix_append way [id])) with
      ⟨more, hmore⟩ | hshort
    · exact ⟨more, by rw [← hmore]; simp⟩
    · rcases List.prefix_concat_iff.1 hshort with heq | hshort
      · exact ⟨[], heq⟩
      · exact absurd (hshort.subset (by simp)) hzshared
  have hsame : (shared ++ a :: (before ++ [z])).getLast? = (part ++ [z]).getLast? := by
    simp [List.getLast?_append, List.getLast?_cons]
  exact (h.first _ hpart).first _ hcrossing hsame
    ⟨shared, a, b, before ++ [z], more, rfl, hmore, hbefore⟩

/-- The search goes on to a node, once it is done with those that come before it. -/
theorem push : g.Standing finished (way ++ [id]) where
  first part hpart := by
    rcases List.prefix_concat_iff.1 hpart with rfl | hpart
    · exact h.isFirstWay_push honward hnew hfresh hpassed
    · exact h.first part hpart
  passed part last hpart := h.passed_push hpassed hpart
  fresh other hother := by
    rcases List.mem_append.1 hother with hother | hother
    · exact h.fresh other hother
    · exact List.mem_singleton.1 hother ▸ hfresh
  closed other hother next hnext := (h.closed other hother next hnext).imp_right
    (List.mem_append_left _)

end Push

/-- The search finishes the last node of its way and goes back. -/
theorem pop (h : g.Standing finished (way ++ [id]))
    (hdone : ∀ next, g.Leads id next → next ∈ finished ∨ next ∈ way ++ [id]) :
    g.Standing (id :: finished) way where
  first part hpart := h.first part (hpart.trans (List.prefix_append way [id]))
  passed part last hpart other hother hbefore :=
    (h.passed part last (hpart.trans (List.prefix_append way [id])) other hother hbefore).imp_left
      (List.mem_cons_of_mem _)
  fresh other hother := by
    have hnodup := (h.first _ (List.prefix_refl _)).isWay.nodup
    rw [List.mem_cons, not_or]
    exact ⟨fun heq => (List.nodup_append.1 hnodup).2.2 other hother id (by simp) heq,
      h.fresh other (List.mem_append_left _ hother)⟩
  closed other hother next hnext := by
    have hstep : next ∈ finished ∨ next ∈ way ++ [id] := by
      rcases List.mem_cons.1 hother with rfl | hother
      · exact hdone next hnext
      · exact h.closed other hother next hnext
    rcases hstep with hmem | hmem
    · exact .inl (List.mem_cons_of_mem _ hmem)
    · rcases List.mem_append.1 hmem with hmem | hmem
      · exact .inr hmem
      · exact .inl (List.mem_cons.2 (.inl (List.mem_singleton.1 hmem)))

theorem start (g : DependencyGraph) : g.Standing [] [] where
  first part hpart := by
    obtain rfl := List.prefix_nil.1 hpart
    refine ⟨⟨List.nodup_nil, by simp, .nil⟩, ?_⟩
    rintro other - - ⟨shared, a, b, rest, rest', -, hnil, -⟩
    exact absurd hnil (by simp)
  passed part id hpart := absurd (List.prefix_nil.1 hpart) (by simp)
  fresh id hid := absurd hid List.not_mem_nil
  closed id hid := absurd hid List.not_mem_nil

end Standing

end DependencyGraph

end Filing
