import Filing.Text.Basic
import Mathlib.Data.List.TakeWhile

/-!
# Stripping both ends of a text

Stripping takes away the longest stretches of certain elements at the two ends of a text. What stays
begins and ends with none of them, and such elements can be put around a text without changing what
stripping leaves of it.
-/

namespace Filing.Text

variable {α : Type} {p : α → Bool} {s : List α}

/-- Neither the first nor the last element is one of those that are stripped. -/
def IsStripped (p : α → Bool) (s : List α) : Prop :=
  (∀ c ∈ s.head?, p c = false) ∧ ∀ c ∈ s.getLast?, p c = false

/-- Nothing is stripped from a text whose first and last elements are to stay. -/
theorem strip_eq_self (hhead : ∀ c ∈ s.head?, p c = false) (hlast : ∀ c ∈ s.getLast?, p c = false) :
    strip p s = s := by
  have hdrop : ∀ t : List α, (∀ c ∈ t.head?, p c = false) → t.dropWhile p = t := by
    intro t ht
    cases t with
    | nil => rfl
    | cons c t => simp [List.dropWhile, ht c (by simp)]
  unfold strip
  rw [hdrop s hhead, hdrop s.reverse (by rwa [List.head?_reverse]), List.reverse_reverse]

theorem strip_eq_nil_iff : strip p s = [] ↔ ∀ c ∈ s, p c = true := by
  rw [strip, List.reverse_eq_nil_iff, List.dropWhile_eq_nil_iff]
  constructor
  · intro h
    refine List.dropWhile_eq_nil_iff.1 ?_
    by_contra hne
    have hhead := List.head_dropWhile_not p hne
    have hmem : (s.dropWhile p).head hne ∈ (s.dropWhile p).reverse :=
      List.mem_reverse.2 (List.head_mem hne)
    rw [h _ hmem] at hhead
    exact absurd hhead (by decide)
  · intro h c hc
    exact h c ((List.dropWhile_suffix p).subset (List.mem_reverse.1 hc))

/-- A text is what stripping leaves of it, between two stretches of elements that are stripped. -/
theorem exists_eq_append_strip (p : α → Bool) (s : List α) :
    ∃ before after : List α, s = before ++ strip p s ++ after ∧ (∀ c ∈ before, p c = true) ∧
      ∀ c ∈ after, p c = true := by
  refine ⟨s.takeWhile p, ((s.dropWhile p).reverse.takeWhile p).reverse, ?_, ?_, ?_⟩
  · have hend : strip p s ++ ((s.dropWhile p).reverse.takeWhile p).reverse = s.dropWhile p := by
      rw [strip, ← List.reverse_append, List.takeWhile_append_dropWhile, List.reverse_reverse]
    rw [List.append_assoc, hend, List.takeWhile_append_dropWhile]
  · exact List.all_eq_true.1 List.all_takeWhile
  · intro c hc
    exact List.all_eq_true.1 List.all_takeWhile c (List.mem_reverse.1 hc)

theorem isStripped_strip (p : α → Bool) (s : List α) : IsStripped p (strip p s) := by
  have hfirst : ∀ (t : List α), ∀ c ∈ (t.dropWhile p).head?, p c = false := by
    intro t c hc
    have hnot := List.head?_dropWhile_not p t
    rwa [hc] at hnot
  constructor
  · intro c hc
    have hsuffix : (strip p s).reverse <:+ (s.dropWhile p).reverse := by
      rw [strip, List.reverse_reverse]
      exact List.dropWhile_suffix p
    obtain ⟨rest, hrest⟩ := List.reverse_suffix.1 hsuffix
    refine hfirst s c ?_
    rw [← hrest, List.head?_append, hc]
    rfl
  · rw [strip, List.getLast?_reverse]
    exact hfirst _

/-- Stripping changes nothing exactly where the first and the last element are to stay. -/
theorem strip_eq_self_iff : strip p s = s ↔ IsStripped p s :=
  ⟨fun h => h ▸ isStripped_strip p s, fun h => strip_eq_self h.1 h.2⟩

instance [DecidableEq α] : Decidable (IsStripped p s) := decidable_of_iff _ strip_eq_self_iff

theorem isStripped_or {q : α → Bool} :
    IsStripped (fun c => p c || q c) s ↔ IsStripped p s ∧ IsStripped q s := by
  simp only [IsStripped, Bool.or_eq_false_iff, forall_and]
  exact and_and_and_comm

theorem IsStripped.append {before after : List α} (h : IsStripped p s)
    (hbefore : ∀ c ∈ before, p c = false) (hafter : ∀ c ∈ after, p c = false) :
    IsStripped p (before ++ s ++ after) := by
  constructor
  · intro c hc
    rw [List.head?_append, List.head?_append] at hc
    simp only [Option.mem_def, Option.or_eq_some_iff] at hc
    rcases hc with (hc | ⟨-, hc⟩) | ⟨-, hc⟩
    · exact hbefore c (List.mem_of_mem_head? hc)
    · exact h.1 c hc
    · exact hafter c (List.mem_of_mem_head? hc)
  · intro c hc
    rw [List.getLast?_append, List.getLast?_append] at hc
    simp only [Option.mem_def, Option.or_eq_some_iff] at hc
    rcases hc with hc | ⟨-, hc | ⟨-, hc⟩⟩
    · exact hafter c (List.mem_of_mem_getLast? hc)
    · exact h.2 c hc
    · exact hbefore c (List.mem_of_mem_getLast? hc)

/-! ## Length -/

theorem length_strip_le (p : α → Bool) (s : List α) : (strip p s).length ≤ s.length := by
  obtain ⟨before, after, heq, -, -⟩ := exists_eq_append_strip p s
  have hlength := congrArg List.length heq
  simp only [List.length_append] at hlength
  omega

/-- Where something is stripped the text gets shorter. -/
theorem isStripped_of_length_le (h : s.length ≤ (strip p s).length) : IsStripped p s := by
  obtain ⟨before, after, heq, -, -⟩ := exists_eq_append_strip p s
  have hlength := congrArg List.length heq
  simp only [List.length_append] at hlength
  obtain rfl : before = [] := List.eq_nil_of_length_eq_zero (by omega)
  obtain rfl : after = [] := List.eq_nil_of_length_eq_zero (by omega)
  rw [← strip_eq_self_iff, eq_comm]
  simpa using heq

/-! ## Stripping more -/

theorem strip_append {before after : List α} (hbefore : ∀ c ∈ before, p c = true)
    (hafter : ∀ c ∈ after, p c = true) (s : List α) :
    strip p (before ++ s ++ after) = strip p s := by
  rw [strip, List.append_assoc, List.dropWhile_append_of_pos hbefore, List.dropWhile_append]
  split
  · next hempty =>
    have hblank : after.dropWhile p = [] := List.dropWhile_eq_nil_iff.2 hafter
    rw [hblank, strip, List.isEmpty_iff.1 hempty]
  · have hreversed : ∀ c ∈ after.reverse, p c = true := fun c hc =>
      hafter c (List.mem_reverse.1 hc)
    rw [List.reverse_append, List.dropWhile_append_of_pos hreversed]
    rfl

/-- What is stripped first makes no difference if it would be stripped anyway. -/
theorem strip_strip_of_imp {q : α → Bool} (h : ∀ c, q c = true → p c = true) (s : List α) :
    strip p (strip q s) = strip p s := by
  obtain ⟨before, after, heq, hbefore, hafter⟩ := exists_eq_append_strip q s
  calc strip p (strip q s)
      = strip p (before ++ strip q s ++ after) :=
        (strip_append (fun c hc => h c (hbefore c hc)) (fun c hc => h c (hafter c hc)) _).symm
    _ = strip p s := by rw [← heq]

end Filing.Text
