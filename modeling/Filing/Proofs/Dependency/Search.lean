import Filing.Dependency.Cycles
import Mathlib.Data.List.Chain
import Mathlib.Data.List.Nodup
import Mathlib.Data.List.Perm.Subperm
import Mathlib.Logic.Relation

/-!
# What the search for cycles finds

The search finishes every node, and when it finishes one, each node that depends on it has been
finished before or lies with it on a cycle that was found. So a graph in which no cycle is found has
its nodes finished in an order in which nothing depends on a later one, and no cycle is missed.
-/

namespace Filing

namespace DependencyGraph

open Relation (TransGen)

/-- An edge leads from a node to another. -/
def Leads (g : DependencyGraph) (a b : String) : Prop := b ∈ g.successors a

/-- Nothing depends on itself, not even by way of others. -/
def Acyclic (g : DependencyGraph) : Prop := ∀ id, ¬ TransGen g.Leads id id

/-- A simple cycle, without its repeated end. -/
inductive IsCycle (g : DependencyGraph) : List String → Prop where
  | mk {first : String} {rest : List String} (hnodup : (first :: rest).Nodup)
      (hchain : (first :: rest ++ [first]).IsChain g.Leads) : IsCycle g (first :: rest)

variable {g : DependencyGraph}

theorem mem_successors {a b : String} : b ∈ g.successors a ↔ b ∈ g.nodes ∧ (a, b) ∈ g.edges := by
  unfold successors
  rw [List.mem_filter, List.contains_iff_mem, List.mem_map]
  refine and_congr_right fun _ => ⟨?_, fun h => ⟨(a, b), List.mem_filter.2 ⟨h, by simp⟩, rfl⟩⟩
  rintro ⟨⟨x, y⟩, hmem, rfl⟩
  obtain ⟨hedge, hx⟩ := List.mem_filter.1 hmem
  obtain rfl : x = a := by simpa using hx
  exact hedge

theorem transGen_of_isChain {a b : String} {rest : List String}
    (h : (a :: rest ++ [b]).IsChain g.Leads) : TransGen g.Leads a b := by
  induction rest generalizing a with
  | nil => exact .single (List.isChain_cons_cons.1 h).1
  | cons c rest ih =>
    obtain ⟨hac, hrest⟩ := List.isChain_cons_cons.1 h
    exact .head hac (ih hrest)

theorem IsCycle.exists_transGen {c : List String} (h : g.IsCycle c) :
    ∃ id, TransGen g.Leads id id := by
  cases h with
  | mk hnodup hchain => exact ⟨_, transGen_of_isChain hchain⟩

/-! ## Paths of the search -/

/-- A path of the search, given from its end backwards. -/
structure IsTrail (g : DependencyGraph) (path : List String) : Prop where
  nodup : path.Nodup
  nodes : ∀ id ∈ path, id ∈ g.nodes
  chain : path.IsChain fun later earlier => g.Leads earlier later

theorem IsTrail.cons {id next : String} {path : List String} (h : g.IsTrail (id :: path))
    (hnext : g.Leads id next) (hnew : next ∉ id :: path) : g.IsTrail (next :: id :: path) where
  nodup := List.nodup_cons.2 ⟨hnew, h.nodup⟩
  nodes := List.forall_mem_cons.2 ⟨(mem_successors.1 hnext).1, h.nodes⟩
  chain := List.isChain_cons_cons.2 ⟨hnext, h.chain⟩

theorem IsTrail.length_le {path : List String} (h : g.IsTrail path) :
    path.length ≤ g.nodes.length := (List.subperm_of_subset h.nodup h.nodes).length_le

theorem cycleFrom_append {id : String} {before : List String} (hbefore : id ∉ before)
    (rest : List String) : cycleFrom id (before ++ id :: rest) = id :: before.reverse := by
  have hkeep : ∀ x ∈ before, (x != id) = true := fun x hx => by
    rw [bne_iff_ne]
    exact fun heq => hbefore (heq ▸ hx)
  rw [cycleFrom, List.takeWhile_append_of_pos hkeep, List.takeWhile_cons]
  simp

/-- The part of a path from a node on, closed by an edge back to that node, is a cycle. -/
theorem IsTrail.isCycle {id next : String} {path : List String} (h : g.IsTrail (id :: path))
    (hnext : g.Leads id next) (hmem : next ∈ id :: path) :
    g.IsCycle (cycleFrom next (id :: path)) ∧ id ∈ cycleFrom next (id :: path) ∧
      next ∈ cycleFrom next (id :: path) := by
  obtain ⟨before, rest, hsplit, hbefore⟩ := List.eq_append_cons_of_mem hmem
  have hclosed : (next :: id :: path).IsChain fun later earlier => g.Leads earlier later :=
    List.isChain_cons_cons.2 ⟨hnext, h.chain⟩
  have hnodup := h.nodup
  rw [hsplit] at hclosed hnodup
  rw [hsplit, cycleFrom_append hbefore]
  refine ⟨.mk ?_ ?_, ?_, List.mem_cons_self⟩
  · obtain ⟨hnodup, -, -⟩ := List.nodup_append.1 hnodup
    exact List.nodup_cons.2 ⟨by simpa using hbefore, List.nodup_reverse.2 hnodup⟩
  · rw [← List.cons_append, List.isChain_split] at hclosed
    simpa using List.isChain_reverse.2 hclosed.1
  · cases before with
    | nil =>
      obtain ⟨rfl, -⟩ := List.cons.inj hsplit
      exact List.mem_cons_self
    | cons first before =>
      obtain ⟨rfl, -⟩ := List.cons.inj hsplit
      simp

/-! ## Steps of the search -/

/-- Each node that depends on a finished one was finished before it, or lies with it on a cycle that
was found. The list is that of the finished nodes, the latest first. -/
def Explained (g : DependencyGraph) (cycles : List (List String)) : List String → Prop
  | [] => True
  | id :: earlier =>
    (∀ next, g.Leads id next → next ∈ earlier ∨ ∃ c ∈ cycles, id ∈ c ∧ next ∈ c) ∧
      Explained g cycles earlier

theorem Explained.mono {cycles more : List (List String)} (hsub : cycles ⊆ more)
    {finished : List String} (h : g.Explained cycles finished) : g.Explained more finished := by
  induction finished with
  | nil => trivial
  | cons id earlier ih =>
    refine ⟨fun next hnext => ?_, ih h.2⟩
    rcases h.1 next hnext with hmem | ⟨c, hc, hboth⟩
    · exact .inl hmem
    · exact .inr ⟨c, hsub hc, hboth⟩

/-- What holds of a search between two of its steps. -/
structure Search.IsSound (g : DependencyGraph) (s : Search) : Prop where
  cycles : ∀ c ∈ s.cycles, g.IsCycle c
  explained : g.Explained s.cycles s.finished

/-- A search goes on from another: it forgets nothing. -/
structure Search.Extends (s r : Search) : Prop where
  finished : s.finished ⊆ r.finished
  cycles : s.cycles ⊆ r.cycles

theorem Search.Extends.refl (s : Search) : s.Extends s := ⟨List.Subset.refl _, List.Subset.refl _⟩

theorem Search.Extends.trans {s r q : Search} (h : s.Extends r) (h' : r.Extends q) :
    s.Extends q :=
  ⟨List.Subset.trans h.finished h'.finished, List.Subset.trans h.cycles h'.cycles⟩

/-- The edge is accounted for: its end is finished, or lies on a cycle with its start. -/
def Search.Accounts (s : Search) (id next : String) : Prop :=
  next ∈ s.finished ∨ ∃ c ∈ s.cycles, id ∈ c ∧ next ∈ c

theorem Search.Accounts.extends {s r : Search} {id next : String} (h : s.Accounts id next)
    (hr : s.Extends r) : r.Accounts id next := by
  rcases h with hmem | ⟨c, hc, hboth⟩
  · exact .inl (hr.finished hmem)
  · exact .inr ⟨c, hr.cycles hc, hboth⟩

theorem mem_of_sameMembers {a b : List String} (h : sameMembers a b = true) {id : String}
    (hid : id ∈ a) : id ∈ b := by
  obtain ⟨hab, -⟩ := Bool.and_eq_true_iff.1 h
  simpa using List.all_eq_true.1 hab id hid

/-- A cycle that is not kept has its members on one that was. -/
theorem Search.record_spec {s : Search} (hs : s.IsSound g) {cycle : List String}
    (hcycle : g.IsCycle cycle) : (s.record cycle).IsSound g ∧ s.Extends (s.record cycle) ∧
      ∀ id ∈ cycle, ∀ next ∈ cycle, (s.record cycle).Accounts id next := by
  unfold record
  split
  · next hany =>
    obtain ⟨c, hc, hsame⟩ := List.any_eq_true.1 hany
    refine ⟨hs, .refl s, fun id hid next hnext => .inr ⟨c, hc, ?_⟩⟩
    exact ⟨mem_of_sameMembers hsame hid, mem_of_sameMembers hsame hnext⟩
  · have hsub : s.cycles ⊆ cycle :: s.cycles := List.subset_cons_self _ _
    refine ⟨⟨List.forall_mem_cons.2 ⟨hcycle, hs.cycles⟩, hs.explained.mono hsub⟩,
      ⟨List.Subset.refl _, hsub⟩, fun id hid next hnext => .inr ?_⟩
    exact ⟨cycle, List.mem_cons_self, hid, hnext⟩

/-- What each step of a search does for one node is done for a list of nodes by their steps in
turn. -/
theorem Search.foldl_spec (step : Search → String → Search) (admits : String → Prop)
    (done : Search → String → Prop)
    (hdone : ∀ {s r : Search} {id : String}, done s id → s.Extends r → done r id)
    (hstep : ∀ (s : Search) (id : String), s.IsSound g → admits id →
      (step s id).IsSound g ∧ s.Extends (step s id) ∧ done (step s id) id)
    {l : List String} {s : Search} (hl : ∀ id ∈ l, admits id) (hs : s.IsSound g) :
    (l.foldl step s).IsSound g ∧ s.Extends (l.foldl step s) ∧
      ∀ id ∈ l, done (l.foldl step s) id := by
  induction l generalizing s with
  | nil => exact ⟨hs, .refl s, by simp⟩
  | cons id l ih =>
    obtain ⟨hid, hl⟩ := List.forall_mem_cons.1 hl
    obtain ⟨hs₁, hext₁, hfirst⟩ := hstep s id hs hid
    obtain ⟨hs₂, hext₂, hrest⟩ := ih hl hs₁
    exact ⟨hs₂, hext₁.trans hext₂, List.forall_mem_cons.2 ⟨hdone hfirst hext₂, hrest⟩⟩

/-- The search looks at a node to which an edge leads from the end of its path. -/
def visitNext (g : DependencyGraph) (depth : Nat) (path : List String) (s : Search)
    (next : String) : Search :=
  if next ∈ path then s.record (cycleFrom next path)
  else if next ∈ s.finished then s
  else g.visit depth path s next

theorem visit_succ (depth : Nat) (path : List String) (s : Search) (id : String) :
    g.visit (depth + 1) path s id =
      let r := (g.successors id).foldl (g.visitNext depth (id :: path)) s
      { r with finished := id :: r.finished } := rfl

/-- Visiting a node finishes it and keeps the search sound, as long as the path to it leaves enough
of the depth. -/
theorem visit_spec {depth : Nat} {path : List String} {s : Search} {id : String}
    (hpath : g.IsTrail (id :: path)) (hdepth : g.nodes.length ≤ depth + path.length)
    (hs : s.IsSound g) : (g.visit depth path s id).IsSound g ∧
      s.Extends (g.visit depth path s id) ∧ id ∈ (g.visit depth path s id).finished := by
  induction depth generalizing path s id with
  | zero =>
    have hlength := hpath.length_le
    rw [List.length_cons] at hlength
    omega
  | succ depth ih =>
    have hdepth' : g.nodes.length ≤ depth + (id :: path).length := by
      rw [List.length_cons]
      omega
    have hstep : ∀ (s : Search) (next : String), s.IsSound g → g.Leads id next →
        (g.visitNext depth (id :: path) s next).IsSound g ∧
          s.Extends (g.visitNext depth (id :: path) s next) ∧
          (g.visitNext depth (id :: path) s next).Accounts id next := by
      intro s next hs hleads
      unfold visitNext
      split
      · next hmem =>
        obtain ⟨hcycle, hid, hnext⟩ := hpath.isCycle hleads hmem
        obtain ⟨hsound, hext, hall⟩ := Search.record_spec hs hcycle
        exact ⟨hsound, hext, hall id hid next hnext⟩
      · next hnew =>
        split
        · next hfinished => exact ⟨hs, .refl s, .inl hfinished⟩
        · obtain ⟨hsound, hext, hfinished⟩ := ih (hpath.cons hleads hnew) hdepth' hs
          exact ⟨hsound, hext, .inl hfinished⟩
    obtain ⟨hsound, hext, hacc⟩ := Search.foldl_spec (g.visitNext depth (id :: path))
      (g.Leads id) (·.Accounts id) Search.Accounts.extends hstep
      (fun next (hnext : next ∈ g.successors id) => hnext) hs
    rw [visit_succ]
    refine ⟨⟨hsound.cycles, hacc, hsound.explained⟩, ⟨?_, hext.cycles⟩, List.mem_cons_self⟩
    exact List.subset_cons_of_subset _ hext.finished

/-! ## The whole search -/

theorem search_spec (g : DependencyGraph) :
    g.search.IsSound g ∧ ∀ id ∈ g.nodes, id ∈ g.search.finished := by
  let step (s : Search) (id : String) : Search :=
    if id ∈ s.finished then s else g.visit g.nodes.length [] s id
  have hstep : ∀ (s : Search) (id : String), s.IsSound g → id ∈ g.nodes →
      (step s id).IsSound g ∧ s.Extends (step s id) ∧ id ∈ (step s id).finished := by
    intro s id hs hid
    dsimp only [step]
    split
    · next hmem => exact ⟨hs, .refl s, hmem⟩
    · have htrail : g.IsTrail [id] :=
        ⟨List.nodup_singleton id, by simpa using hid, List.isChain_singleton id⟩
      exact visit_spec htrail (Nat.le_add_right _ _) hs
  obtain ⟨hsound, -, hfinished⟩ := Search.foldl_spec step (· ∈ g.nodes) (fun s id => id ∈ s.finished)
    (fun hmem hext => hext.finished hmem) hstep (fun id (hid : id ∈ g.nodes) => hid)
    (⟨by simp, trivial⟩ : Search.IsSound g {})
  exact ⟨hsound, hfinished⟩

/-- Nodes of which each leads to one of them cannot all be finished, unless a cycle was found at one
of them: the one that was finished first would lead to one finished before it. -/
theorem not_of_explained {p : String → Prop} {cycles : List (List String)} {finished : List String}
    (h : g.Explained cycles finished) (hnext : ∀ id, p id → ∃ next, g.Leads id next ∧ p next)
    (hfree : ∀ c ∈ cycles, ∀ id ∈ c, ¬ p id) : ∀ id ∈ finished, ¬ p id := by
  induction finished with
  | nil => simp
  | cons first earlier ih =>
    intro id hid hp
    rcases List.mem_cons.1 hid with rfl | hid
    · obtain ⟨next, hleads, hpnext⟩ := hnext id hp
      rcases h.1 next hleads with hmem | ⟨c, hc, hidc, -⟩
      · exact ih h.2 next hmem hpnext
      · exact hfree c hc id hidc hp
    · exact ih h.2 id hid hp

/-- In an order in which each node comes after all that depend on it, nothing depends on itself. -/
theorem not_transGen_of_explained {finished : List String} (h : g.Explained [] finished) :
    ∀ id ∈ finished, ¬ TransGen g.Leads id id := by
  refine not_of_explained h (fun id hloop => ?_) (by simp)
  obtain ⟨next, hnext, hback⟩ := Relation.TransGen.head'_iff.1 hloop
  exact ⟨next, hnext, .tail' hback hnext⟩

/-- No cycle is found exactly where there is none. -/
theorem cycles_eq_nil_iff : g.cycles = [] ↔ g.Acyclic := by
  obtain ⟨hsound, hfinished⟩ := search_spec g
  have hnil : g.cycles = [] ↔ g.search.cycles = [] := by
    rw [cycles, List.map_eq_nil_iff, List.reverse_eq_nil_iff]
  rw [hnil]
  constructor
  · intro hcycles id hloop
    have hexplained := hsound.explained
    rw [hcycles] at hexplained
    obtain ⟨before, -, hlast⟩ := Relation.TransGen.tail'_iff.1 hloop
    have hnode := (mem_successors.1 hlast).1
    exact not_transGen_of_explained hexplained id (hfinished id hnode) hloop
  · intro hacyclic
    rw [List.eq_nil_iff_forall_not_mem]
    intro c hc
    obtain ⟨id, hloop⟩ := (hsound.cycles c hc).exists_transGen
    exact hacyclic id hloop

end DependencyGraph

end Filing
