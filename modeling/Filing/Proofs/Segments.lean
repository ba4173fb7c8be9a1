import Filing.Path
import Filing.Text.Basic

/-!
# Paths and their segments

A path and the list of its segments tell the same, and the segments of a path with a place in a
document can be the names of elements.
-/

namespace Filing.Path

open Text (intercalate_split)

theorem map_toList_segments (path : String) :
    (segments path).map String.toList = pieces path.toList := by
  simp [segments, Function.comp_def]

/-- A path is determined by its segments. -/
theorem segments_injective {path other : String} (h : segments path = segments other) :
    path = other := by
  have hpieces : pieces path.toList = pieces other.toList := by
    rw [← map_toList_segments, ← map_toList_segments, h]
  have hjoin : ∀ s : List Char, ['/'].intercalate (pieces s) = s := by
    intro s
    cases s with
    | nil => rfl
    | cons c rest => exact intercalate_split '/' (c :: rest)
  apply String.toList_inj.1
  rw [← hjoin path.toList, hpieces, hjoin]

/-- The segments of a path with a place in a document are element names. -/
theorem isElementName_of_mem_segments {path name : String} (h : isResolvable path = true)
    (hname : name ∈ segments path) : isElementName name = true := by
  obtain ⟨piece, hpiece, rfl⟩ := List.mem_map.1 hname
  simp only [isResolvable, Bool.and_eq_true, List.all_eq_true] at h
  rw [isElementName, String.toList_ofList]
  exact h.2 piece hpiece

/-- A path with a place in a document has a segment. -/
theorem segments_ne_nil {path : String} (h : isResolvable path = true) : segments path ≠ [] := by
  intro hnil
  obtain rfl : path = "" := segments_injective hnil
  exact absurd h (by decide)

end Filing.Path
