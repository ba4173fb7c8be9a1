import Mathlib.Data.List.Basic
import Mathlib.Data.List.Forall2
import Mathlib.Data.List.Induction

/-!
# What is chosen from lists and counted in them

Issues and remarks are lists that are put together part by part. What is kept or counted of the
whole is what is kept or counted of each part.
-/

namespace Filing

variable {α β : Type}

theorem forall_mem_ite_singleton {c : Prop} [Decidable c] {p : α → Prop} {a : α} (h : p a) :
    ∀ x ∈ if c then [a] else [], p x := by
  split
  · exact List.forall_mem_singleton.2 h
  · exact List.forall_mem_nil p

theorem forall_mem_ite_nil {c : Prop} [Decidable c] {p : α → Prop} {a : α} (h : p a) :
    ∀ x ∈ if c then [] else [a], p x := by
  rw [← ite_not]
  exact forall_mem_ite_singleton h

theorem filter_eq_nil_of_forall {p : α → Bool} {l : List α} (h : ∀ a ∈ l, p a = false) :
    l.filter p = [] :=
  List.filter_eq_nil_iff.2 fun a ha => Bool.eq_false_iff.1 (h a ha)

theorem flatMap_ite_nil (p : α → Bool) (f : α → List β) (l : List α) :
    (l.flatMap fun a => if p a then f a else []) = (l.filter p).flatMap f := by
  induction l with
  | nil => rfl
  | cons a l ih =>
    rw [List.flatMap_cons, ih, List.filter_cons]
    split <;> rfl

theorem flatMap_ite_singleton (p : α → Bool) (f : α → β) (l : List α) :
    (l.flatMap fun a => if p a then [f a] else []) = (l.filter p).map f := by
  rw [flatMap_ite_nil, List.map_eq_flatMap]

theorem flatMap_elim_nil {γ : Type} (f : α → Option β) (g : β → List γ) (l : List α) :
    (l.flatMap fun a => (f a).elim [] g) = (l.filterMap f).flatMap g := by
  induction l with
  | nil => rfl
  | cons a l ih =>
    rw [List.flatMap_cons, ih, List.filterMap_cons]
    cases f a <;> rfl

/-- What is made of some elements corresponds to those of which something is made. -/
theorem forall₂_filter_filterMap {f : α → Option β} {p : α → Bool} {R : α → β → Prop} {l : List α}
    (hnone : ∀ a ∈ l, f a = none → p a = false)
    (hsome : ∀ a ∈ l, ∀ b, f a = some b → p a = true ∧ R a b) :
    List.Forall₂ R (l.filter p) (l.filterMap f) := by
  induction l with
  | nil => exact .nil
  | cons a l ih =>
    obtain ⟨hnoneFirst, hnone⟩ := List.forall_mem_cons.1 hnone
    obtain ⟨hsomeFirst, hsome⟩ := List.forall_mem_cons.1 hsome
    cases hfirst : f a with
    | none =>
      rw [List.filterMap_cons_none hfirst, List.filter_cons, hnoneFirst hfirst]
      exact ih hnone hsome
    | some b =>
      obtain ⟨hp, hR⟩ := hsomeFirst b hfirst
      rw [List.filterMap_cons_some hfirst, List.filter_cons, if_pos hp]
      exact .cons hR (ih hnone hsome)

/-- Where each part of a list has one element of a kind, or none, these are the elements of the
kind. -/
theorem filter_flatMap_eq_map {p : α → Bool} {q : β → Bool} {f : α → List β} {g : α → β}
    {l : List α} (h : ∀ a ∈ l, (f a).filter q = if p a then [g a] else []) :
    (l.flatMap f).filter q = (l.filter p).map g := by
  rw [List.filter_flatMap, List.flatMap_congr h, flatMap_ite_singleton]

theorem countP_flatMap_of_forall {q : β → Bool} {f : α → List β} {p : α → Prop}
    [DecidablePred p] (h : ∀ a, (f a).countP q = if p a then 1 else 0) (l : List α) :
    (l.flatMap f).countP q = l.countP (p ·) := by
  induction l with
  | nil => rfl
  | cons a l ih =>
    rw [List.flatMap_cons, List.countP_append, ih, h, List.countP_cons, Nat.add_comm]
    simp only [decide_eq_true_eq]

theorem flatten_mapIdx_succ (l : List α) (f : Nat → α → List β) :
    (l.mapIdx fun i a => f (i + 1) a).flatten = (l.zipIdx 1).flatMap fun r => f r.2 r.1 := by
  rw [List.mapIdx_eq_zipIdx_map, List.zipIdx_succ, List.flatMap_map, List.flatMap_def]

/-- The elements of several lists, one behind the other, are numbered by how many lie in the lists
before and by their positions. -/
theorem zipIdx_flatMap (f : α → List β) (l : List α) :
    (l.flatMap f).zipIdx = l.zipIdx.flatMap fun e =>
      (f e.1).zipIdx.map fun p => (p.1, ((l.take e.2).flatMap f).length + p.2) := by
  -- From the end, where the numbers of all but the last list stay what they are.
  induction l using List.reverseRecOn with
  | nil => rfl
  | append_singleton l a ih =>
    have hbefore : ∀ e ∈ l.zipIdx, (l ++ [a]).take e.2 = l.take e.2 := by
      intro e he
      exact List.take_append_of_le_length (Nat.le_of_lt (List.snd_lt_of_mem_zipIdx he))
    rw [List.flatMap_append, List.zipIdx_append, ih, List.zipIdx_append, List.flatMap_append]
    congr 1
    · refine List.flatMap_congr fun e he => ?_
      rw [hbefore e he]
    · rw [List.flatMap_singleton, Nat.zero_add, List.zipIdx_eq_map_add, Nat.zero_add,
        List.zipIdx_singleton, List.flatMap_singleton, List.take_left]

/-- Among numbered elements the first one that is looked for carries its index. -/
theorem map_snd_find?_zipIdx (p : α → Bool) (l : List α) :
    (l.zipIdx.find? (p ·.1)).map (·.2) = l.findIdx? p := by
  rw [List.findIdx?_eq_findSome?_zipIdx, List.find?_eq_findSome?_guard, List.map_findSome?]
  congr 1
  funext e
  cases h : p e.1 <;> simp [Option.guard, h]

/-- Where the elements of several lists carry what their list was made of, the first one that is
looked for leads to the first list that has such an element. -/
theorem bind_find?_flatMap (f : α → List β) (p : β → Bool) (l : List α) :
    ((l.flatMap fun a => (f a).map fun b => (b, some a)).find? (p ·.1)).bind (·.2) =
      l.find? fun a => (f a).any p := by
  induction l with
  | nil => rfl
  | cons a l ih =>
    have hown : ((f a).map fun b => (b, some a)).find? (p ·.1) =
        ((f a).find? p).map fun b => (b, some a) := List.find?_map
    rw [List.flatMap_cons, List.find?_append, hown, List.find?_cons, ← List.isSome_find?]
    cases (f a).find? p with
    | none => exact ih
    | some b => rfl

theorem mapM_map_eq_some {encode : α → β} {decode : β → Option α}
    (h : ∀ a, decode (encode a) = some a) (l : List α) : (l.map encode).mapM decode = some l := by
  induction l with
  | nil => rfl
  | cons a l ih => rw [List.map_cons, List.mapM_cons, h, ih]; rfl

end Filing
