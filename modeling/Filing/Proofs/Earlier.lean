import Filing.Validation.Structure
import Mathlib.Data.List.Induction
import Mathlib.Data.List.Nodup

/-!
# Elements and those before them

Repetitions are found by going through a list and comparing each element with those before it. So a
list has no repetition when no element is found to repeat an earlier one.
-/

namespace Filing

variable {α β : Type}

theorem withEarlier_append_singleton (l : List α) (a : α) :
    withEarlier (l ++ [a]) = withEarlier l ++ [(l, a)] := by
  unfold withEarlier
  rw [List.mapIdx_append]
  congr 1
  · apply List.ext_getElem?
    intro i
    simp only [List.getElem?_mapIdx]
    by_cases hi : i < l.length
    · simp [List.take_append, Nat.sub_eq_zero_of_le (Nat.le_of_lt hi)]
    · simp [hi]
  · simp

theorem withEarlier_cons (a : α) (l : List α) :
    withEarlier (a :: l) = ([], a) :: (withEarlier l).map fun e => (a :: e.1, e.2) := by
  unfold withEarlier
  rw [List.mapIdx_cons, List.mapIdx_eq_zipIdx_map, List.mapIdx_eq_zipIdx_map, List.map_map]
  rfl

theorem map_snd_withEarlier (l : List α) : (withEarlier l).map (·.2) = l := by
  induction l using List.reverseRecOn with
  | nil => rfl
  | append_singleton l a ih => rw [withEarlier_append_singleton, List.map_append, ih]; rfl

theorem exists_earlier_of_mem {l : List α} {a : α} (h : a ∈ l) :
    ∃ earlier, (earlier, a) ∈ withEarlier l := by
  rw [← map_snd_withEarlier l] at h
  obtain ⟨⟨earlier, b⟩, hmem, rfl⟩ := List.mem_map.1 h
  exact ⟨earlier, hmem⟩

theorem mem_of_mem_withEarlier {l : List α} {p : List α × α} (h : p ∈ withEarlier l) : p.2 ∈ l := by
  rw [← map_snd_withEarlier l]
  exact List.mem_map_of_mem h

/-- What holds of each element of a list holds of it wherever it stands. -/
theorem forall_mem_withEarlier {l : List α} {p : α → Prop} :
    (∀ e ∈ withEarlier l, p e.2) ↔ ∀ a ∈ l, p a := by
  constructor
  · intro h a ha
    obtain ⟨earlier, hmem⟩ := exists_earlier_of_mem ha
    exact h _ hmem
  · exact fun h e he => h e.2 (mem_of_mem_withEarlier he)

/-- All keys are different when none is the key of an earlier element. -/
theorem nodup_map_iff_withEarlier {f : α → β} {l : List α} :
    (l.map f).Nodup ↔ ∀ p ∈ withEarlier l, ∀ b ∈ p.1, f b ≠ f p.2 := by
  induction l using List.reverseRecOn with
  | nil => simp [withEarlier]
  | append_singleton l a ih =>
    rw [withEarlier_append_singleton, List.map_append, List.nodup_append, ih,
      List.forall_mem_append]
    simp

end Filing
